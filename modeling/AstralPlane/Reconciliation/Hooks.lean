/-
  Hooks run to completion at most once.

  * `Once`: what the log may hold before a hook is invoked: no completed marker
    of the hook, and only earlier attempts;
  * `Inv` relates the log to the table, `Ready` is what a started marker adds to it;
  * `Framed`: a run only touches the markers of its plan;
  * `hooks_complete_once` puts this together for every sequence of runs.

  The digest of the plan is part of the key of a marker.  So a run of another plan
  does not see the markers of a hook that the plans share, and invokes it again
  (`other_plan_invokes`).
-/
import AstralPlane.Reconciliation.Markers

namespace AstralPlane.Reconciliation

open Python Tx List

variable {m marker : Marker} {hook : HookIdentity} {u : Unit}

/-! ## What a run touches -/

def Event.key : Event → Key
  | .committed marker => marker.key
  | .invoked key _ => key

def Plan.Owns (plan : Plan) (key : Key) : Prop :=
  key.schemaRevision = plan.schemaRevision ∧ key.planDigest = plan.planDigest

theorem Plan.owns_key (plan : Plan) (hook : HookIdentity) : plan.Owns (plan.key hook) := ⟨rfl, rfl⟩

/-- Only markers of the plan change, and only they are logged. -/
structure Framed (plan : Plan) (s s' : State) : Prop where
  other : ∀ m, ¬ plan.Owns m.key → (m ∈ s'.markers ↔ m ∈ s.markers)
  log : ∃ new, s'.log = s.log ++ new ∧ ∀ e ∈ new, plan.Owns e.key

theorem SameRecord.framed {plan : Plan} {s s' : State} (h : SameRecord s s') : Framed plan s s' :=
  ⟨fun m _ => by rw [h.1], [], by rw [h.2, append_nil], by simp⟩

instance (plan : Plan) : Std.Refl (Framed plan) := ⟨fun _ => SameRecord.framed ⟨rfl, rfl⟩⟩

instance (plan : Plan) : IsTrans State (Framed plan) where
  trans s s' s'' h h' := by
    obtain ⟨new, hnew, hown⟩ := h.log
    obtain ⟨new', hnew', hown'⟩ := h'.log
    refine ⟨fun m hm => (h'.other m hm).trans (h.other m hm), new ++ new', ?_, ?_⟩
    · rw [hnew', hnew, List.append_assoc]
    · intro e he
      exact (List.mem_append.1 he).elim (hown e) (hown' e)

/-! ## The log and the table -/

/-- What may stand before an event: a hook is only invoked while it has no completed marker, and
    with a later attempt than ever before. -/
def Once (stored : List Marker) (before : List Event) : Event → Prop
  | .committed _ => True
  | .invoked key n =>
    (∀ m ∈ stored, m.key = key → m.isCompleted = false ∧ m.attempt < n) ∧
    (∀ m, .committed m ∈ before → m.key = key → m.isCompleted = false) ∧
    ∀ n', .invoked key n' ∈ before → n' < n

/-- The table has what the log says: it holds every completed marker, and no attempt goes back. -/
structure Inv (stored : List Marker) (s : State) : Prop where
  nodup : (s.markers.map Marker.key).Nodup
  once : Along (Once stored) s.log
  attempts : ∀ key n, .invoked key n ∈ s.log → ∃ m ∈ s.markers, m.key = key ∧ n ≤ m.attempt
  completed : ∀ m, .committed m ∈ s.log → m.isCompleted → m ∈ s.markers
  kept : ∀ m ∈ stored, ∃ m' ∈ s.markers, m'.key = m.key ∧ m.attempt ≤ m'.attempt ∧
    (m.isCompleted → m' = m)

structure Ready (stored : List Marker) (key : Key) (n : ℕ) (s : State) : Prop extends Inv stored s where
  next : Once stored s.log (.invoked key n)
  reached : ∃ m ∈ s.markers, m.key = key ∧ n ≤ m.attempt

section
variable {stored : List Marker} {s s' : State} {key : Key}

theorem SameRecord.inv (h : SameRecord s s') (hi : Inv stored s) : Inv stored s' := by
  obtain ⟨hn, ho, ha, hc, hk⟩ := hi
  rw [← h.1] at hn
  rw [← h.2] at ho
  simp only [← h.1, ← h.2] at ha hc hk
  exact ⟨hn, ho, ha, hc, hk⟩

/-- A row of the table has a successor after a transition: itself if it has another key or is
    completed, and a marker with no earlier attempt in any case. -/
theorem Replaces.successor {l l' : List Marker} (h : Replaces key l l' marker)
    (hn : (l.map Marker.key).Nodup) (hm : m ∈ l) :
    ∃ m' ∈ l', m'.key = m.key ∧ m.attempt ≤ m'.attempt ∧ (m.isCompleted → m' = m) := by
  by_cases hk : m.key = key
  · obtain ⟨hc, ha⟩ := h.old hn m hm hk
    exact ⟨marker, h.mem, h.key_eq.trans hk.symm, ha, fun hc' => absurd (hc.symm.trans hc') (by decide)⟩
  · exact ⟨m, (h.other m hk).2 hm, rfl, le_rfl, fun _ => rfl⟩

theorem Replaces.inv (h : Replaces key s.markers s'.markers marker)
    (hlog : s'.log = s.log ++ [.committed marker]) (hi : Inv stored s) : Inv stored s' := by
  have hevent : ∀ e, e ∈ s'.log ↔ e ∈ s.log ∨ e = .committed marker := by
    intro e
    rw [hlog, mem_append, mem_singleton]
  refine ⟨h.nodup hi.nodup, ?_, ?_, ?_, ?_⟩
  · rw [hlog]
    exact hi.once.snoc trivial
  · intro k n hn
    rcases (hevent _).1 hn with hn | hn
    · obtain ⟨m, hm, hk, hle⟩ := hi.attempts k n hn
      obtain ⟨m', hm', hk', hle', _⟩ := h.successor hi.nodup hm
      exact ⟨m', hm', hk'.trans hk, hle.trans hle'⟩
    · cases hn
  · intro m hm hc
    rcases (hevent _).1 hm with hm | hm
    · obtain ⟨m', hm', _, _, heq⟩ := h.successor hi.nodup (hi.completed m hm hc)
      exact heq hc ▸ hm'
    · obtain rfl := Event.committed.inj hm
      exact h.mem
  · intro m hm
    obtain ⟨m1, hm1, hk1, hle1, heq1⟩ := hi.kept m hm
    obtain ⟨m2, hm2, hk2, hle2, heq2⟩ := h.successor hi.nodup hm1
    refine ⟨m2, hm2, hk2.trans hk1, hle1.trans hle2, fun hc => ?_⟩
    obtain rfl := heq1 hc
    exact heq2 hc

theorem Replaces.framed {plan : Plan} (h : Replaces (plan.key hook) s.markers s'.markers marker)
    (hlog : s'.log = s.log ++ [.committed marker]) : Framed plan s s' := by
  refine ⟨fun m hm => h.other m fun hk => hm (hk ▸ plan.owns_key hook), _, hlog, ?_⟩
  intro e he
  obtain rfl := mem_singleton.1 he
  rw [Event.key, h.key_eq]
  exact plan.owns_key hook

theorem Replaces.ready (h : Replaces key s.markers s'.markers marker)
    (hlog : s'.log = s.log ++ [.committed marker]) (hm : marker.isCompleted = false)
    (hlt : (s.markers.map Marker.key).Nodup → ∀ m ∈ s.markers, m.key = key →
      m.attempt < marker.attempt) (hi : Inv stored s) : Ready stored key marker.attempt s' := by
  refine ⟨h.inv hlog hi, ⟨?_, ?_, ?_⟩, marker, h.mem, h.key_eq, le_rfl⟩
  · intro m hstored hk
    obtain ⟨m', hm', hk', hle, heq⟩ := hi.kept m hstored
    have hnot := (h.old hi.nodup m' hm' (hk'.trans hk)).1
    refine ⟨?_, hle.trans_lt (hlt hi.nodup m' hm' (hk'.trans hk))⟩
    by_contra hc
    rw [Bool.not_eq_false] at hc
    rw [heq hc, hc] at hnot
    cases hnot
  · intro m hin hk
    rw [hlog, mem_append, mem_singleton] at hin
    rcases hin with hin | hin
    · by_contra hc
      rw [Bool.not_eq_false] at hc
      have hnot := (h.old hi.nodup m (hi.completed m hin hc) hk).1
      rw [hc] at hnot
      cases hnot
    · obtain rfl := Event.committed.inj hin
      exact hm
  · intro n hin
    rw [hlog, mem_append, mem_singleton] at hin
    rcases hin with hin | hin
    · obtain ⟨m, hm', hk, hle⟩ := hi.attempts key n hin
      exact hle.trans_lt (hlt hi.nodup m hm' hk)
    · cases hin

end

/-! ## The calls of a run -/

/-- A call of a run keeps the invariant and touches only its plan. -/
structure Preserves (stored : List Marker) (plan : Plan) (s s' : State) : Prop where
  framed : Framed plan s s'
  inv : Inv stored s → Inv stored s'

section
variable {stored : List Marker} {plan : Plan} {s s' : State}

theorem SameRecord.preserves (h : SameRecord s s') : Preserves stored plan s s' :=
  ⟨h.framed, h.inv⟩

instance : Std.Refl (Preserves stored plan) := ⟨fun _ => SameRecord.preserves ⟨rfl, rfl⟩⟩

theorem Preserves.trans {s'' : State} (h : Preserves stored plan s s')
    (h' : Preserves stored plan s' s'') : Preserves stored plan s s'' :=
  ⟨IsTrans.trans _ _ _ h.framed h'.framed, fun hi => h'.inv (h.inv hi)⟩

instance : IsTrans State (Preserves stored plan) := ⟨fun _ _ _ => Preserves.trans⟩

theorem moves_of_same {α : Type} {x : Code α} (h : x.Moves SameRecord) :
    x.Moves (Preserves stored plan) := h.imp fun _ _ => SameRecord.preserves

theorem CommitEnds.preserves {expected : StateName} {transition : Transition}
    (ht : ∀ {l l' marker}, transition l = .ok (some (l', marker)) →
      Replaces (plan.key hook) l l' marker) {r : Except Exc Marker}
    (h : CommitEnds (plan.key hook) expected transition s r s') : Preserves stored plan s s' := by
  rcases h with ⟨h, _⟩ | ⟨l', marker, hl, _, _, rfl, hlog, _⟩
  · exact h.preserves
  · exact ⟨(ht hl).framed hlog, (ht hl).inv hlog⟩

/-- Once `mark_started` returns, the hook may be invoked. -/
theorem markStarted_ends (hook : HookIdentity) (s : State) :
    (markStarted plan hook).Ends s fun r s' => Preserves stored plan s s' ∧
      ∀ m, r = .ok m → Inv stored s → Ready stored (plan.key hook) m.attempt s' := by
  rw [markStarted]
  have hcommit := commitMarker_ends (plan.key hook) (markStartedSql (plan.key hook)) .started "start" s
  cases validateHook hook with
  | error => exact ⟨Std.Refl.refl s, by rintro m ⟨⟩⟩
  | ok =>
    refine hcommit.imp fun r s' h => ⟨h.preserves fun hl => (markStartedSql_ok hl).1, ?_⟩
    rintro m rfl hi
    rcases h with ⟨_, e, he⟩ | ⟨l', marker, hl, _, _, rfl, hlog, hm⟩
    · cases he
    · obtain ⟨hr, hc, hlt⟩ := markStartedSql_ok hl
      obtain rfl := hm m rfl
      exact hr.ready hlog hc hlt hi

theorem durableFailure_moves (hook : HookIdentity) {errorType : String} :
    (durableFailure plan hook errorType).Moves (Preserves stored plan) := by
  refine Moves.bind ?_ fun _ => (readOnly_ofExcept _).moves.bind fun _ => (readOnly_pure _).moves
  exact (readOnly_require _ _).moves.bind fun _ => (readOnly_ofExcept _).moves.bind fun _ s =>
    (commitMarker_ends _ _ _ _ s).preserves finishSql_ok

theorem failHook_moves (hook : HookIdentity) (started : Marker) (e : Exc) :
    (failHook plan hook started e).Moves (Preserves stored plan) := by
  refine moves_ite ?_ (moves_ite (readOnly_raise _).moves ?_)
  · refine (Moves.attempt ?_).bind fun r => ReadOnly.moves (by cases r <;> simp)
    exact (durableFailure_moves hook).bind fun _ => (readOnly_require _ _).moves.bind fun _ =>
      (readOnly_pure _).moves
  · refine (durableFailure_moves hook).attempt.bind fun r => ReadOnly.moves ?_
    cases r <;> simp

theorem failCompletion_moves (hook : HookIdentity) :
    (failCompletion plan hook).Moves (Preserves stored plan) := by
  refine (durableFailure_moves hook).attempt.bind fun r => ReadOnly.moves ?_
  cases r <;> simp

theorem verifyHook_moves (hook : HookIdentity) :
    (verifyHook plan hook).Moves (Preserves stored plan) := by
  refine (moves_of_same (getMarker_moves plan hook)).bind fun found => ?_
  rcases found with _ | marker
  · exact failCompletion_moves hook
  · simp only
    cases validateMarker plan hook (some .completed) marker with
    | ok => exact (readOnly_pure _).moves
    | error => exact failCompletion_moves hook

/-! ## Invoking a hook -/

/-- The invocation of a hook is logged; nothing else changes. -/
theorem reconcile_ends (hook : HookIdentity) (n : ℕ) (s : State) :
    (reconcile plan hook n).Ends s fun _ s' =>
      s'.markers = s.markers ∧ s'.log = s.log ++ [.invoked (plan.key hook) n] := by
  refine ends_modify_bind (ends_get_bind ?_)
  rcases s.outcomes with _ | ⟨_ | _, _⟩ <;> exact ⟨rfl, rfl⟩

/-- **A hook that is ready may be invoked.** -/
theorem Ready.invoked {key : Key} {n : ℕ} (h : Ready stored key n s) (hm : s'.markers = s.markers)
    (hlog : s'.log = s.log ++ [.invoked key n]) : Inv stored s' := by
  have hevent : ∀ e, e ∈ s'.log ↔ e ∈ s.log ∨ e = .invoked key n := by
    intro e
    rw [hlog, mem_append, mem_singleton]
  refine ⟨hm ▸ h.nodup, ?_, ?_, ?_, ?_⟩
  · rw [hlog]
    exact h.once.snoc h.next
  · intro k n' hin
    rw [hm]
    rcases (hevent _).1 hin with hin | hin
    · exact h.attempts k n' hin
    · obtain ⟨rfl, rfl⟩ := Event.invoked.inj hin
      exact h.reached
  · intro m hin hc
    rw [hm]
    rcases (hevent _).1 hin with hin | hin
    · exact h.completed m hin hc
    · cases hin
  · rw [hm]
    exact h.kept

theorem framed_invoked {n : ℕ} (hm : s'.markers = s.markers)
    (hlog : s'.log = s.log ++ [.invoked (plan.key hook) n]) : Framed plan s s' := by
  refine ⟨fun m _ => by rw [hm], _, hlog, fun e he => ?_⟩
  obtain rfl := mem_singleton.1 he
  exact plan.owns_key hook

/-- The body of `try` starts from a hook that is ready. -/
theorem completeHook_ends (sha256 : Bytes → String) (hook : HookIdentity) (started : Marker)
    (expectedAttempt : ℕ) (s : State) :
    (completeHook sha256 plan hook started expectedAttempt).Ends s fun _ s' =>
      Framed plan s s' ∧ (Ready stored (plan.key hook) started.attempt s → Inv stored s') := by
  refine ends_require_bind (fun _ => ?_) fun _ => ⟨Std.Refl.refl s, Ready.toInv⟩
  refine (reconcile_ends hook started.attempt s).bind (fun result s1 h1 => ?_) fun e s1 h1 =>
    ⟨framed_invoked h1.1 h1.2, fun hr => hr.invoked h1.1 h1.2⟩
  have hcompleted {digest} : (markCompleted plan hook digest).Moves (Preserves stored plan) :=
    (readOnly_ofExcept _).moves.bind fun _ => (readOnly_ofExcept _).moves.bind fun _ s =>
      (commitMarker_ends _ _ _ _ s).preserves finishSql_ok
  have hrest : ((do
      let digest ← .ofExcept (resultDigest sha256 result)
      let marker ← markCompleted plan hook digest
      .ofExcept (validateMarker plan hook (some .completed) marker)
      require (marker.attempt = started.attempt)
        (.reconciliation "reconciliation completion changed the attempt identity" [])
      require (marker.state = .completed digest)
        (.reconciliation "reconciliation completion changed the result digest" [])
      pure digest) : Code String).Moves (Preserves stored plan) :=
    (readOnly_ofExcept _).moves.bind fun digest => hcompleted.bind fun _ =>
      (readOnly_ofExcept _).moves.bind fun _ => (readOnly_require _ _).moves.bind fun _ =>
        (readOnly_require _ _).moves.bind fun _ => (readOnly_pure _).moves
  have h2 := hrest s1
  exact ⟨IsTrans.trans _ _ _ (framed_invoked h1.1 h1.2) h2.framed,
    fun hr => h2.inv (hr.invoked h1.1 h1.2)⟩

theorem startHook_moves (sha256 : Bytes → String) (hook : HookIdentity) (expectedAttempt : ℕ) :
    (startHook sha256 plan hook expectedAttempt).Moves (Preserves stored plan) := by
  intro s
  show Ends _ s fun _ s' => Preserves stored plan s s'
  refine (markStarted_ends hook s).bind (fun started s1 h1 => ?_) fun e s1 h1 => h1.1
  obtain ⟨hp, hready⟩ := h1
  replace hready := hready started rfl
  have htry : (Tx.handle (completeHook sha256 plan hook started expectedAttempt)
      (failHook plan hook started)).Ends s1 fun _ s' =>
        Framed plan s1 s' ∧ (Ready stored (plan.key hook) started.attempt s1 → Inv stored s') := by
    refine (completeHook_ends sha256 hook started expectedAttempt s1).handle (fun _ _ h => h) ?_
    intro e s2 h2
    have h3 : Preserves stored plan s2 _ := failHook_moves hook started e s2
    exact ⟨IsTrans.trans _ _ _ h2.1 h3.framed, fun hr => h3.inv (h2.2 hr)⟩
  have hfrom : ∀ s', Framed plan s1 s' ∧
      (Ready stored (plan.key hook) started.attempt s1 → Inv stored s') →
        Preserves stored plan s s' := fun s' h =>
    ⟨IsTrans.trans _ _ _ hp.framed h.1, fun hi => h.2 (hready hi)⟩
  cases validateMarker plan hook (some .started) started with
  | error => exact hp
  | ok => exact htry.bind (fun digest s2 h => hfrom s2 h) fun e s2 h => hfrom s2 h

end

/-! ## Completion -/

section
variable {plan : Plan} {s s' : State}

theorem getMarker_ok {found : Option Marker} (h : (getMarker plan hook).Ok s found s') :
    found = s.markers.find? fun m => m.key = plan.key hook := by
  simp only [getMarker, ok_bind, ok_ofExcept] at h
  obtain ⟨_, s1, ⟨_, rfl⟩, row, s2, hrow, h⟩ := h
  have hread := readRow_ok hrow
  have hfind := Except.ok.inj hread
  cases hm : row.elim (.ok ()) markerFromRow <;> rw [hm] at h
  · simp at h
  · simp only [ok_bind] at h
    obtain ⟨fault, s3, _, h⟩ := h
    cases hf : fault.raised <;> rw [hf] at h
    · rw [hfind, (ok_pure.1 h).1]
    · simp at h

theorem failCompletion_raises : ¬ (failCompletion plan hook).Ok s u s' := by
  simp only [failCompletion, ok_bind]
  rintro ⟨r, s1, _, h⟩
  cases r <;> simp at h

/-- The second loop's body only goes on after a completed marker of the plan. -/
theorem verifyHook_ok (h : (verifyHook plan hook).Ok s u s') :
    SameRecord s s' ∧ ∃ m ∈ s.markers, m.key = plan.key hook ∧ m.isCompleted := by
  simp only [verifyHook, ok_bind] at h
  obtain ⟨found, s1, hget, h⟩ := h
  have hfind := getMarker_ok hget
  have hsame : SameRecord s s1 := by
    have := getMarker_moves plan hook s
    rwa [Leaves, hget] at this
  rcases found with _ | marker
  · exact absurd h failCompletion_raises
  · simp only at h
    cases hv : validateMarker plan hook (some .completed) marker with
    | error =>
      rw [hv] at h
      exact absurd h failCompletion_raises
    | ok =>
      rw [hv] at h
      obtain rfl := (ok_pure.1 h).2
      simp only [validateMarker, ok_rules] at hv
      obtain ⟨_, hkey, _, hname, -⟩ := hv
      simp only [Option.all_some, beq_iff_eq] at hname
      exact ⟨hsame, marker, mem_of_find?_eq_some hfind.symm, of_decide_eq_true hkey,
        by simp [Marker.isCompleted, ← hname]⟩

/-- The second loop ends with a completed marker for each of its hooks. -/
theorem verifyHooks_ok {hooks : List HookIdentity}
    (h : (Tx.each (verifyHook plan) hooks).Ok s u s') : SameRecord s s' ∧
      ∀ hook ∈ hooks, ∃ m ∈ s.markers, m.key = plan.key hook ∧ m.isCompleted := by
  induction hooks generalizing s with
  | nil =>
    obtain rfl := (ok_pure.1 h).2
    exact ⟨⟨rfl, rfl⟩, by simp⟩
  | cons hook hooks ih =>
    simp only [Tx.each, ok_bind] at h
    obtain ⟨_, s1, h1, h⟩ := h
    obtain ⟨hs1, hm⟩ := verifyHook_ok h1
    obtain ⟨hs', hrest⟩ := ih h
    rw [hs1.1] at hrest
    refine ⟨hs1.trans hs', fun hook' hin => ?_⟩
    rcases mem_cons.1 hin with rfl | hin
    · exact hm
    · exact hrest hook' hin

/-- What `coordinate` returns was returned by its body, on the markers it leaves. -/
theorem coordinate_ok {α : Type} {body : Code α} {a : α} (h : (coordinate plan body).Ok s a s') :
    ∃ s1 s2, body.Ok s1 a s2 ∧ s'.markers = s2.markers := by
  simp only [coordinate, ok_bind, ok_attempt] at h
  obtain ⟨_, _, _, _, _, _, _, _, _, _, s1, _, r, s2, hr, h⟩ := h
  cases r with
  | ok =>
    simp only [ok_rules] at h
    obtain ⟨_, s3, hd, _, s4, hl, rfl, rfl⟩ := h
    refine ⟨s1, s2, hr, ?_⟩
    have h3 := discard_moves s2
    have h4 := lockCall_moves "reconciliation advisory lock release failed" s3
    rw [Leaves, hd] at h3
    rw [Leaves, hl] at h4
    exact h4.1.trans h3.1
  | error =>
    split at h
    · next heq =>
      cases heq
    · exact absurd h ok_raise
    · simp only [ok_bind] at h
      obtain ⟨_, _, _, r, _, _, h⟩ := h
      split at h <;> exact absurd h ok_raise

end

/-! ## Runs -/

section
variable {stored : List Marker} {plan : Plan}

theorem runHook_moves (sha256 : Bytes → String) (hook : HookIdentity) :
    (runHook sha256 plan hook).Moves (Preserves stored plan) := by
  refine (moves_of_same (getMarker_moves plan hook)).bind fun found => ?_
  rcases found with _ | existing
  · exact startHook_moves sha256 hook 1
  · refine (readOnly_ofExcept _).moves.bind fun _ => ?_
    cases existing.state with
    | completed => exact (readOnly_pure _).moves
    | started | failed => exact startHook_moves sha256 hook _

theorem coordinate_moves {α : Type} {body : Code α} (h : body.Moves (Preserves stored plan)) :
    (coordinate plan body).Moves (Preserves stored plan) := by
  have hdiscard : discard.Moves (Preserves stored plan) := moves_of_same discard_moves
  have hlock : ∀ message, (lockCall message).Moves (Preserves stored plan) := fun message =>
    moves_of_same (lockCall_moves message)
  have hactive : (Tx.modify fun s => { s with active := true } : Code Unit).Moves
      (Preserves stored plan) := fun _ => SameRecord.preserves ⟨rfl, rfl⟩
  refine (readOnly_ofExcept _).moves.bind fun _ => (readOnly_ofExcept _).moves.bind fun _ =>
    (hlock _).bind fun _ => hactive.bind fun _ => h.attempt.bind fun r => ?_
  split
  · exact hdiscard.bind fun _ => (hlock _).bind fun _ => (readOnly_pure _).moves
  · exact (readOnly_raise _).moves
  · refine hdiscard.bind fun _ => (hlock _).attempt.bind fun r' => ?_
    split <;> exact (readOnly_raise _).moves

end

section
variable {stored : List Marker} {sha256 : Bytes → String}

/-- The digest of the plan of a run. -/
def Run.planDigest (sha256 : Bytes → String) (r : Run) : String :=
  canonicalPlanDigest sha256 r.schemaRevision r.runner.identities

def Run.plan (sha256 : Bytes → String) (r : Run) : Plan :=
  ⟨r.schemaRevision, r.planDigest sha256, r.runner.identities⟩

theorem Runner.plan_ok {r : Run} {plan : Plan} (h : r.runner.plan sha256 r.schemaRevision = .ok plan) :
    plan = r.plan sha256 := by
  rw [Runner.plan, bind_eq_ok] at h
  obtain ⟨_, _, h⟩ := h
  exact (pure_eq_ok.1 h).symm

/-- **The step of a run**: it keeps the invariant and touches only its plan. -/
theorem Run.exec_preserves (r : Run) (s : State) :
    Preserves stored (r.plan sha256) s (r.exec sha256 s) := by
  have hstart : Preserves stored (r.plan sha256) s (r.start s) := SameRecord.preserves ⟨rfl, rfl⟩
  refine hstart.trans ?_
  show Preserves stored (r.plan sha256) (r.start s) (r.code sha256 (r.start s)).2
  rw [Run.code, Runner.run]
  cases hplan : r.runner.plan sha256 r.schemaRevision with
  | error => exact Std.Refl.refl _
  | ok =>
    obtain rfl := Runner.plan_ok hplan
    have hmoves : (coordinate (r.plan sha256) (runPlan sha256 (r.plan sha256)) >>= fun reports =>
        (pure ⟨r.schemaRevision, r.planDigest sha256, advisoryLock, reports, true⟩ :
          Code Report)).Moves (Preserves stored (r.plan sha256)) :=
      (coordinate_moves ((Moves.collect (runHook_moves sha256) _).bind fun _ =>
        (Moves.each verifyHook_moves _).bind fun _ => (readOnly_pure _).moves)).bind
          fun _ => (readOnly_pure _).moves
    exact hmoves (r.start s)

/-- A run that reports has left a completed marker for each of its hooks. -/
theorem Run.reply_ok {r : Run} {s : State} {report : Report} (h : r.reply sha256 s = .ok report) :
    report.planDigest = r.planDigest sha256 ∧ report.durablyComplete ∧
      ∀ hook ∈ r.runner.identities, ∃ m ∈ (r.exec sha256 s).markers,
        m.key = (r.plan sha256).key hook ∧ m.isCompleted := by
  have hok : (r.code sha256).Ok (r.start s) report (r.exec sha256 s) := Prod.ext h rfl
  simp only [Run.code, Runner.run, ok_bind, ok_ofExcept] at hok
  obtain ⟨plan, s1, ⟨hplan, rfl⟩, reports, s2, hcoord, hpure⟩ := hok
  obtain rfl := Runner.plan_ok hplan
  obtain ⟨rfl, hs2⟩ := ok_pure.1 hpure
  obtain ⟨s3, s4, hbody, hmarkers⟩ := coordinate_ok hcoord
  refine ⟨rfl, rfl, fun hook hin => ?_⟩
  simp only [runPlan, ok_bind] at hbody
  obtain ⟨_, _, _, _, _, hverify, hbody⟩ := hbody
  obtain ⟨hs, hm⟩ := verifyHooks_ok hverify
  obtain rfl := (ok_pure.1 hbody).2
  rw [← hs2, hmarkers, hs.1]
  exact hm hook hin

theorem inv_initial (h : (stored.map Marker.key).Nodup) : Inv stored (State.initial stored) := by
  refine ⟨h, along_nil, fun _ _ hin => ?_, fun _ hin => ?_, fun m hm => ⟨m, hm, rfl, le_rfl, fun _ => rfl⟩⟩ <;>
    cases hin

end

/-- **Hooks run to durable completion at most once**, over any sequence of runs and whatever the
    driver and the hooks do.  A run reports only when all its hooks have completed markers with the
    digest of its plan, and refuses a marker with another digest. -/
theorem hooks_complete_once (sha256 : Bytes → String) (stored : List Marker)
    (hstored : (stored.map Marker.key).Nodup) (runs : List Run) :
    Along (Once stored) (run (Run.exec sha256) runs (State.initial stored)).log ∧
    ∀ r : Run, let s := run (Run.exec sha256) runs (State.initial stored)
      (∀ report, r.reply sha256 s = .ok report → report.durablyComplete →
        report.planDigest = r.planDigest sha256 ∧ ∀ hook ∈ r.runner.identities,
          ∃ m ∈ (r.exec sha256 s).markers,
            m.key = ⟨r.schemaRevision, r.planDigest sha256, hook⟩ ∧ m.isCompleted) ∧
      (∀ m, m.key.planDigest ≠ r.planDigest sha256 →
        (∀ hook expected, validateMarker (r.plan sha256) hook expected m = .error (.reconciliation
          "reconciliation marker does not match the required plan" hook.metadata)) ∧
        (m ∈ (r.exec sha256 s).markers ↔ m ∈ s.markers)) ∧
      ∃ new, (r.exec sha256 s).log = s.log ++ new ∧
        ∀ e ∈ new, e.key.planDigest = r.planDigest sha256 := by
  have hframed : ∀ r : Run, Framed (r.plan sha256)
      (run (Run.exec sha256) runs (State.initial stored))
      (r.exec sha256 (run (Run.exec sha256) runs (State.initial stored))) := fun r =>
    (@Run.exec_preserves stored sha256 r _).framed
  have hinv := run_keeps (P := Inv stored) (fun r s => (@Run.exec_preserves stored sha256 r s).inv)
    runs (inv_initial hstored)
  refine ⟨hinv.once, fun r => ⟨?_, ?_, ?_⟩⟩
  · intro report hr _
    obtain ⟨hd, _, hm⟩ := Run.reply_ok hr
    exact ⟨hd, hm⟩
  · intro m hm
    refine ⟨fun hook expected => ?_, (hframed r).other m fun ho => hm ho.2⟩
    have hkey : m.key ≠ (r.plan sha256).key hook := fun hk => hm (by rw [hk]; rfl)
    simp [validateMarker, ensure, hkey, Bind.bind, Except.bind]
  · obtain ⟨new, hnew, hown⟩ := (hframed r).log
    exact ⟨new, hnew, fun e he => (hown e he).2⟩

/-! A digest that tells the plans below apart, and two runners with a hook in common. -/

def toyDigest (bytes : Bytes) : String :=
  if bytes.length < 80 then "0000000000000000000000000000000000000000000000000000000000000000"
  else "1111111111111111111111111111111111111111111111111111111111111111"

def seedHook : HookIdentity := ⟨"seed", "1"⟩

def indexHook : HookIdentity := ⟨"index", "1"⟩

def seedRunner : Runner := ⟨[seedHook], rfl, by decide⟩

def bothRunner : Runner := ⟨[seedHook, indexHook], rfl, by decide⟩

/-- An earlier attempt failed; in the next the process dies in the hook, and in the last the hook
    returns. -/
theorem hooks_complete_once_seed :
    let dying : Run := ⟨seedRunner, "060.002", [], [.raises .crash]⟩
    let returning : Run := ⟨seedRunner, "060.002", [], []⟩
    let key : Key := ⟨"060.002", returning.planDigest toyDigest, seedHook⟩
    let stored : List Marker := [⟨key, .failed "ValueError", 2, by decide⟩]
    let s := run (Run.exec toyDigest) [dying] (State.initial stored)
    Along (Once stored) s.log ∧
    ∃ m ∈ (returning.exec toyDigest s).markers, m.key = key ∧ m.isCompleted := by
  intro dying returning key stored s
  have h := hooks_complete_once toyDigest stored (nodup_singleton _) [dying]
  have hok : (returning.reply toyDigest s).isOk := by decide +kernel
  refine ⟨h.1, ?_⟩
  cases hr : returning.reply toyDigest s with
  | error =>
    rw [hr] at hok
    cases hok
  | ok report =>
    exact ((h.2 returning).1 report hr (Run.reply_ok hr).2.1).2 seedHook (by decide)

/-- A run of another plan is not refused: it invokes a hook again whose marker is completed. -/
theorem other_plan_invokes :
    let first : Run := ⟨seedRunner, "060.002", [], []⟩
    let second : Run := ⟨bothRunner, "060.002", [], []⟩
    let s := first.exec toyDigest (State.initial [])
    second.planDigest toyDigest ≠ first.planDigest toyDigest ∧
    (∃ m ∈ s.markers, m.key = ⟨"060.002", first.planDigest toyDigest, seedHook⟩ ∧ m.isCompleted) ∧
    (second.reply toyDigest s).isOk ∧
    .invoked ⟨"060.002", second.planDigest toyDigest, seedHook⟩ 1 ∈ (second.exec toyDigest s).log := by
  decide +kernel

end AstralPlane.Reconciliation
