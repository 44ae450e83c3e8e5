/-
  How markers change.

  * `Replaces`: what a transition does to the table: one marker is put in the
    place of a marker of its key that is not completed, and no other changes;
  * `commitMarker_ends`: `_commit_marker` commits such a transition or leaves the
    table and the log as they were, whatever the driver does.
-/
import AstralPlane.Reconciliation.Model

namespace AstralPlane.Reconciliation

open Tx

/-! ## Transitions -/

/-- The table `l'` is `l` with `marker` in the place of a marker of its key, which is not completed
    and has no later attempt. -/
structure Replaces (key : Key) (l l' : List Marker) (marker : Marker) : Prop where
  key_eq : marker.key = key
  mem : marker ∈ l'
  other : ∀ m, m.key ≠ key → (m ∈ l' ↔ m ∈ l)
  nodup : (l.map Marker.key).Nodup → (l'.map Marker.key).Nodup
  old : (l.map Marker.key).Nodup → ∀ m ∈ l, m.key = key →
    m.isCompleted = false ∧ m.attempt ≤ marker.attempt

section
variable {key : Key} {l l' : List Marker} {marker : Marker}

/-- An update of the marker of a key that keeps the key and lowers no attempt. -/
theorem replaces_updateWhere {f : Marker → Marker} (hkey : ∀ m, (f m).key = m.key)
    (hattempt : ∀ m, m.attempt ≤ (f m).attempt) {m : Marker}
    (hfind : l.find? (fun m => m.key = key) = some m) (hm : m.isCompleted = false) :
    Replaces key l (updateWhere (fun m' => m'.key = key) f l) (f m) := by
  have hmem := List.mem_of_find?_eq_some hfind
  have hk : m.key = key := by simpa using List.find?_some hfind
  refine ⟨by rw [hkey, hk], ?_, ?_, ?_, ?_⟩
  · exact mem_updateWhere.2 (.inl ⟨m, hmem, by simpa using hk, rfl⟩)
  · intro m' hne
    rw [mem_updateWhere]
    constructor
    · rintro (⟨r, _, hr, rfl⟩ | ⟨hin, _⟩)
      · exact absurd ((hkey r).trans (by simpa using hr)) hne
      · exact hin
    · intro hin
      exact .inr ⟨hin, by simpa using hne⟩
  · intro hn
    rwa [map_updateWhere hkey]
  · intro hn m' hm' hk'
    obtain rfl := eq_of_key_eq hn hm' hmem (hk'.trans hk.symm)
    exact ⟨hm, hattempt m'⟩

theorem markStartedSql_ok (h : markStartedSql key l = .ok (some (l', marker))) :
    Replaces key l l' marker ∧ marker.isCompleted = false ∧
      ((l.map Marker.key).Nodup → ∀ m ∈ l, m.key = key → m.attempt < marker.attempt) := by
  rw [markStartedSql] at h
  split at h
  · next hnone =>
    have hno : ∀ m ∈ l, m.key ≠ key := fun m hm => by
      simpa using List.find?_eq_none.1 hnone m hm
    obtain ⟨rfl, rfl⟩ := Prod.mk.inj (Option.some.inj (Except.ok.inj h))
    refine ⟨⟨rfl, by simp, fun m hne => ?_, fun hn => ?_, fun _ m hm hk => absurd hk (hno m hm)⟩, rfl,
      fun _ m hm hk => absurd hk (hno m hm)⟩
    · simp only [List.mem_append, List.mem_singleton, or_iff_left_iff_imp]
      rintro rfl
      exact absurd rfl hne
    · rw [List.map_append, List.nodup_append]
      refine ⟨hn, List.nodup_singleton _, fun a ha b hb hab => ?_⟩
      obtain ⟨m, hm, rfl⟩ := List.mem_map.1 ha
      exact hno m hm (hab.trans (List.mem_singleton.1 hb))
  · next m hfind =>
    split at h
    · cases h
    · next hstart =>
      split at h
      · cases h
      · obtain ⟨rfl, rfl⟩ := Prod.mk.inj (Option.some.inj (Except.ok.inj h))
        have hm : m.isCompleted = false := by
          simp only [Bool.not_eq_true, Marker.canStart] at hstart
          cases hs : m.state with
          | completed =>
            rw [hs] at hstart
            cases hstart
          | started | failed => simp [Marker.isCompleted, hs, MarkerState.name]
        have hr := replaces_updateWhere (f := Marker.restart) (fun _ => rfl)
          (fun m => Nat.le_succ m.attempt) hfind hm
        refine ⟨hr, rfl, fun hn m' hm' hk => ?_⟩
        have hmem := List.mem_of_find?_eq_some hfind
        have hmk : m.key = key := by simpa using List.find?_some hfind
        obtain rfl := eq_of_key_eq hn hm' hmem (hk.trans hmk.symm)
        exact Nat.lt_succ_self _

/-- `_MARK_COMPLETED_SQL` and `_MARK_FAILED_SQL` end the attempt that is started. -/
theorem finishSql_ok {state : MarkerState} (h : finishSql key state l = .ok (some (l', marker))) :
    Replaces key l l' marker := by
  rw [finishSql] at h
  split at h
  · cases h
  · next m hfind =>
    split at h
    · next hs =>
      obtain ⟨rfl, rfl⟩ := Prod.mk.inj (Option.some.inj (Except.ok.inj h))
      exact replaces_updateWhere (f := Marker.finish state) (fun _ => rfl) (fun _ => le_rfl) hfind
        (by simp [Marker.isCompleted, hs, MarkerState.name])
    · cases h

end

/-! ## Calls that change no marker -/

def SameRecord (s s' : State) : Prop := s'.markers = s.markers ∧ s'.log = s.log

instance : Std.Refl SameRecord := ⟨fun _ => ⟨rfl, rfl⟩⟩

theorem SameRecord.trans {s s' s'' : State} (h : SameRecord s s') (h' : SameRecord s' s'') :
    SameRecord s s'' := ⟨h'.1.trans h.1, h'.2.trans h.2⟩

instance : IsTrans State SameRecord := ⟨fun _ _ _ => SameRecord.trans⟩

theorem nextFault_moves : nextFault.Moves SameRecord := by
  intro s
  simp only [Tx.Leaves, nextFault]
  split <;> exact ⟨rfl, rfl⟩

theorem discard_moves : discard.Moves SameRecord := fun _ => ⟨rfl, rfl⟩

theorem rollbackAfterFailure_moves : rollbackAfterFailure.Moves SameRecord := by
  refine nextFault_moves.bind fun fault => ?_
  rcases fault.raised with _ | (_ | _ | _ | _ | _ | _)
  · exact (readOnly_pure _).moves
  · exact discard_moves
  · exact discard_moves
  · exact discard_moves
  · exact discard_moves
  · exact discard_moves
  · exact (readOnly_raise _).moves

theorem requireActive_readOnly : requireActive.ReadOnly :=
  readOnly_bind readOnly_get fun _ => readOnly_require _ _

variable {α : Type}

theorem rollback_raise_moves {e : Exc} :
    (rollbackAfterFailure >>= fun _ => (.raise e : Code α)).Moves SameRecord :=
  rollbackAfterFailure_moves.bind fun _ => (readOnly_raise _).moves

theorem readRow_moves (statement : List Marker → Except Exc α) (action : String) :
    (readRow statement action).Moves SameRecord := by
  refine requireActive_readOnly.moves.bind fun _ => nextFault_moves.bind fun fault =>
    readOnly_get.moves.bind fun s => ?_
  cases fault.raised with
  | some => exact rollback_raise_moves
  | none =>
    cases statement s.markers with
    | error => exact rollback_raise_moves
    | ok => exact (readOnly_pure _).moves

theorem readRow_ok {statement : List Marker → Except Exc α} {action : String} {s s' : State}
    {a : α} (h : (readRow statement action).Ok s a s') : statement s.markers = .ok a := by
  simp only [readRow, ok_rules] at h
  obtain ⟨_, s1, h1, fault, s2, h2, _, rfl, h⟩ := h
  have hs1 := requireActive_readOnly.ok h1
  have hs2 : SameRecord s1 s2 := by
    have := nextFault_moves s1
    rwa [Tx.Leaves, h2] at this
  subst hs1
  rw [hs2.1] at h
  cases hf : fault.raised with
  | some =>
    rw [hf] at h
    simp at h
  | none =>
    rw [hf] at h
    cases hs : statement s.markers with
    | error =>
      rw [hs] at h
      simp at h
    | ok =>
      rw [hs] at h
      rw [(ok_pure.1 h).1]

theorem getMarker_moves (plan : Plan) (hook : HookIdentity) :
    (getMarker plan hook).Moves SameRecord := by
  refine (readOnly_ofExcept _).moves.bind fun _ => (readRow_moves _ _).bind fun found => ?_
  cases found.elim (.ok ()) markerFromRow with
  | error => exact rollback_raise_moves
  | ok =>
    refine nextFault_moves.bind fun fault => ?_
    cases fault.raised with
    | none => exact (readOnly_pure _).moves
    | some => exact discard_moves.bind fun _ => (readOnly_raise _).moves

theorem lockCall_moves (message : String) : (lockCall message).Moves SameRecord := by
  refine nextFault_moves.bind fun fault => ?_
  cases fault.raised with
  | none => exact (readOnly_pure _).moves
  | some => exact (readOnly_raise _).moves

/-! ## Committing a marker -/

/-- A transition is committed, or the record stays as it is and something is raised. -/
def CommitEnds (key : Key) (expected : StateName) (transition : Transition) (s : State)
    (r : Except Exc Marker) (s' : State) : Prop :=
  (SameRecord s s' ∧ ∃ e, r = .error e) ∨
  ∃ l' marker, transition s.markers = .ok (some (l', marker)) ∧ marker.key = key ∧
    marker.state.name = expected ∧ s'.markers = l' ∧ s'.log = s.log ++ [.committed marker] ∧
    ∀ m, r = .ok m → m = marker

theorem ends_of_moves {x : Code α} (h : x.Moves SameRecord) (s : State) :
    x.Ends s fun _ s' => SameRecord s s' := h s

/-- A body that changes no marker, and then raises. -/
theorem moves_raise_ends {x : Code Unit} (hx : x.Moves SameRecord) {e : Exc} {s0 s : State}
    (h : SameRecord s0 s) : (x >>= fun _ => (.raise e : Code α)).Ends s fun r s' =>
      SameRecord s0 s' ∧ ∃ e, r = .error e :=
  (ends_of_moves hx s).bind (fun _ _ hs => ⟨h.trans hs, e, rfl⟩) fun e _ hs => ⟨h.trans hs, e, rfl⟩

theorem commitRow_ends (l' : List Marker) (marker : Marker) (action : String) (s : State) :
    (commitRow l' marker action).Ends s fun r s' => (SameRecord s s' ∧ ∃ e, r = .error e) ∨
      (s'.markers = l' ∧ s'.log = s.log ++ [.committed marker] ∧ ∀ m, r = .ok m → m = marker) := by
  refine (ends_of_moves nextFault_moves s).bind (fun fault s1 h1 => ?_) fun e s1 h1 =>
    .inl ⟨h1, e, rfl⟩
  cases fault.raised with
  | none =>
    refine ends_modify_bind (ends_pure (.inr ⟨rfl, ?_, ?_⟩))
    · rw [State.commit, h1.2]
    · rintro m ⟨⟩
      rfl
  | some e =>
    -- the commit raised: it may have taken effect or not
    refine ends_modify_bind ?_
    have hrest : ∀ s2 : State, (rollbackAfterFailure >>= fun _ => discard >>= fun _ =>
        (.raise (rewrapped ("reconciliation marker " ++ action ++
          " could not be committed durably") e) : Code Marker)).Ends s2 fun r s' =>
          SameRecord s2 s' ∧ ∃ e, r = .error e := fun s2 =>
      (ends_of_moves rollbackAfterFailure_moves s2).bind
        (fun _ _ hs => moves_raise_ends discard_moves hs) fun e _ hs => ⟨hs, e, rfl⟩
    cases fault.effective with
    | false => exact (hrest s1).imp fun r s' h => .inl ⟨h1.trans h.1, h.2⟩
    | true =>
      refine (hrest (State.commit l' marker s1)).imp fun r s' h => .inr ⟨h.1.1, ?_, ?_⟩
      · rw [h.1.2, State.commit, h1.2]
      · obtain ⟨e, rfl⟩ := h.2
        rintro m ⟨⟩

/-- **What `_commit_marker` does**, whatever the driver does. -/
theorem commitMarker_ends (key : Key) (transition : Transition) (expected : StateName)
    (action : String) (s : State) :
    (commitMarker key transition expected action).Ends s (CommitEnds key expected transition s) := by
  have hread : (readRow transition action).Ends s fun r s' =>
      SameRecord s s' ∧ ∀ a, r = .ok a → transition s.markers = .ok a :=
    ⟨readRow_moves transition action s, fun a ha => readRow_ok (Prod.ext ha rfl)⟩
  refine hread.bind (fun row s1 h1 => ?_) fun e s1 h1 => .inl ⟨h1.1, e, rfl⟩
  obtain ⟨hs, hrow⟩ := h1
  replace hrow := hrow row rfl
  rcases row with _ | ⟨l', marker⟩
  · exact (moves_raise_ends rollbackAfterFailure_moves hs).imp fun _ _ => .inl
  · cases hm : markerFromRow marker with
    | error =>
      simp only [hm]
      exact (moves_raise_ends rollbackAfterFailure_moves hs).imp fun _ _ => .inl
    | ok =>
      simp only [hm]
      split
      · exact (moves_raise_ends rollbackAfterFailure_moves hs).imp fun _ _ => .inl
      · next hid =>
        rw [not_or, not_not, not_not] at hid
        refine (commitRow_ends l' marker action s1).imp fun r s' h => ?_
        rcases h with ⟨h, he⟩ | ⟨hm', hl, hr⟩
        · exact .inl ⟨hs.trans h, he⟩
        · exact .inr ⟨l', marker, hrow, hid.1, hid.2, hm', by rw [hl, hs.2], hr⟩

end AstralPlane.Reconciliation
