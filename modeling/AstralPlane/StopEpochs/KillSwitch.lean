/-
  The owner stop as a kill switch.

  * `Method.engages`, `resumes`, `acknowledges` and `binds` say which calls are
    effective: they return, and they are not the replay of an earlier one;
  * `Turn` is what one call does to the counters of every owner and to the
    bindings, also when it raises and its caller goes on;
  * `engagements` counts the effective engagements of a sequence of calls.  It is
    what the epoch counts (`epoch_run`), so that an operation whose binding has
    the current epoch has seen no engagement since;
  * `owner_stop_kill_switch` puts it together for every sequence of calls.
-/
import AstralPlane.StopEpochs.Model

namespace AstralPlane.StopEpochs

open Tx hiding get bind

variable {s' : Store} {m : Method} {owner : String} {selects : EpochRow → Bool}
  {written : EpochRow → EpochColumns} {instant : Time}
variable {field : String} {operation : Uuid}

/-- The row of an owner; before the first call it is the anchor. -/
def Store.row (s : Store) (owner : String) : EpochRow := (s.epochs.lookup owner).getD .anchor

/-! ## Effective calls -/

section
variable (owner : String) (s : Store) (returned : Bool)

/-- The call engages the stop of the owner: it returns, and it is not a replay. -/
def Method.engages : Method → Bool
  | .engage o .. => o = owner && returned && !(s.row owner).engaged
  | _ => false

def Method.resumes : Method → Bool
  | .resume o .. => o = owner && returned
  | _ => false

/-- The call records an acknowledgment that was not there. -/
def Method.acknowledges : Method → Bool
  | .acknowledge o mesh peer epoch .. =>
    o = owner && returned && (s.acknowledgments.lookup ⟨o, epoch.toNat, mesh, peer⟩).isNone
  | _ => false

end

/-- The call binds the operation, or returns its binding. -/
def Method.binds (key : String × Uuid) (returned : Bool) : Method → Bool
  | .bindOperation o operation => (o, operation) = key && returned
  | _ => false

/-- What a call does, given whether it returned. -/
structure Turn (s : Store) (m : Method) (returned : Bool) (s' : Store) : Prop where
  epoch : ∀ owner, (s'.row owner).epoch =
    (s.row owner).epoch + (m.engages owner s returned).toNat
  revision : ∀ owner, (s'.row owner).revision = (s.row owner).revision +
    ((m.engages owner s returned).toNat + (m.resumes owner returned).toNat +
      (m.acknowledges owner s returned).toNat)
  bound : ∀ key, s'.operations.lookup key =
    if m.binds key returned then some (s.row key.1).epoch else s.operations.lookup key
  kept : ∀ key epoch, s.operations.lookup key = some epoch → s'.operations.lookup key = some epoch

/-! ## Calls that leave the owners as they are -/

/-- The tables read the same; an anchor may have been provisioned. -/
structure Unchanged (s s' : Store) : Prop where
  row : ∀ owner, s'.row owner = s.row owner
  acknowledgments : s'.acknowledgments = s.acknowledgments
  operations : s'.operations = s.operations

instance : Std.Refl Unchanged := ⟨fun _ => ⟨fun _ => rfl, rfl, rfl⟩⟩

instance : IsTrans Store Unchanged :=
  ⟨fun _ _ _ h h' => ⟨fun o => (h'.row o).trans (h.row o),
    h'.acknowledgments.trans h.acknowledgments, h'.operations.trans h.operations⟩⟩

variable {s : Store}

/-- A call that changed nothing took no effect, as the flags must say. -/
theorem Unchanged.turn {returned : Bool} (h : Unchanged s s')
    (he : ∀ owner, m.engages owner s returned = false)
    (hr : ∀ owner, m.resumes owner returned = false)
    (ha : ∀ owner, m.acknowledges owner s returned = false) (hb : ∀ key, m.binds key returned →
      s.operations.lookup key = some (s.row key.1).epoch) : Turn s m returned s' := by
  refine ⟨fun owner => ?_, fun owner => ?_, fun key => ?_, fun key epoch hk => ?_⟩
  · rw [h.row, he]
    rfl
  · rw [h.row, he, hr, ha]
    rfl
  · rw [h.operations]
    split
    · exact hb key ‹_›
    · rfl
  · rw [h.operations, hk]

theorem Unchanged.raised (m : Method) (h : Unchanged s s') : Turn s m false s' := by
  refine h.turn ?_ ?_ ?_ ?_
  all_goals
    cases m <;> simp [Method.engages, Method.resumes, Method.acknowledges, Method.binds]

/-! ## The statements -/

theorem checked_readOnly {α : Type} (r : Except Repositories.ValidationError α) :
    (checked r).ReadOnly := readOnly_ofExcept _

theorem integer_readOnly {value : ℤ} : (integer value field).ReadOnly := by
  simp [integer]

theorem checked_requiredId_ok {value : String} {maximum : ℕ}
    (h : (checked (Repositories.requiredId value field maximum)).Ok s owner s') : value = owner := by
  simp only [checked, Repositories.requiredId, Repositories.withinLength, ensure] at h
  split at h <;> split at h <;> simp_all [Except.mapError, bind, Except.bind, pure, Except.pure]

/-- `_locked` provisions at most the anchor of its owner. -/
theorem locked_ends (owner : String) (s : Store) : (locked owner).Ends s fun r s' =>
    Unchanged s s' ∧ ∀ row, r = .ok row → row = s.row owner ∧ s'.epochs.lookup owner = some row := by
  refine ends_require_bind (fun _ => ends_get_bind ?_) fun _ => ⟨Std.Refl.refl s, fun _ h => by cases h⟩
  cases hl : s.epochs.lookup owner with
  | some =>
    refine ends_pure ⟨Std.Refl.refl s, fun row' h => ?_⟩
    cases h
    exact ⟨by simp [Store.row, hl], hl⟩
  | none =>
    refine ends_set_bind (ends_pure ⟨⟨fun o => ?_, rfl, rfl⟩, fun row h => ?_⟩)
    · by_cases ho : o = owner
      · subst ho
        simp [Store.row, hl]
      · simp [Store.row, AList.lookup_insert_ne ho]
    · cases h
      exact ⟨by simp [Store.row, hl], AList.lookup_insert _⟩

theorem locked_moves (owner : String) : (locked owner).Moves Unchanged :=
  fun s => (locked_ends owner s).1

/-- An `UPDATE` writes the row of its owner and returns it, or does nothing. -/
theorem updateEpochSql_ends (s : Store) : (updateEpochSql owner selects written).Ends s fun r s' =>
      (s' = s ∧ ∀ row, r ≠ .ok (some row)) ∨ ∃ old row : EpochRow, s.epochs.lookup owner = some old ∧
        row.toEpochColumns = written old ∧ r = .ok (some row) ∧
        s' = { s with epochs := s.epochs.insert owner row } := by
  refine ends_get_bind ?_
  cases hl : s.epochs.lookup owner with
  | none => exact ends_pure (.inl ⟨rfl, fun _ h => by cases h⟩)
  | some old =>
    dsimp only
    split
    · split
      · exact .inr ⟨old, ⟨_, ‹_›⟩, rfl, rfl, rfl, rfl⟩
      · exact ends_raise (.inl ⟨rfl, fun _ h => by cases h⟩)
    · exact ends_pure (.inl ⟨rfl, fun _ h => by cases h⟩)

theorem insertOperationSql_ends {epoch : ℕ} (s : Store) :
    (insertOperationSql owner operation epoch).Ends s fun r s' =>
      (s' = s ∧ ∀ n, r ≠ .ok (some n)) ∨ (r = .ok (some epoch) ∧
        s' = { s with operations := s.operations.insert (owner, operation) epoch }) := by
  refine ends_get_bind ?_
  split
  · exact ends_require_bind (fun _ => .inr ⟨rfl, rfl⟩) fun _ => .inl ⟨rfl, fun _ h => by cases h⟩
  · exact ends_pure (.inl ⟨rfl, fun _ h => by cases h⟩)

/-! ## The methods -/

/-- A body of the call ends as one turn, from the tables `s` that the call found. -/
def Turned {α : Type} (s : Store) (m : Method) (r : Except Exc α) (s' : Store) : Prop :=
  Turn s m r.isOk s'

section
variable {s s' s1 : Store} {α β : Type} {x : Work α} {f : α → Work β}

/-! ### As long as nothing is written -/

theorem Unchanged.readOnly_bind (hs : Unchanged s s1) (hx : x.ReadOnly)
    (hf : ∀ a, x.Ok s1 a s1 → (f a).Ends s1 (Turned s m)) : (x >>= f).Ends s1 (Turned s m) :=
  ends_readOnly_bind hx hf fun _ => hs.raised m

theorem Unchanged.require_bind (hs : Unchanged s s1) {f : Unit → Work β} {b : Bool} {e : Exc}
    (hf : b → (f ()).Ends s1 (Turned s m)) : (require b e >>= f).Ends s1 (Turned s m) :=
  ends_require_bind hf fun _ => hs.raised m

theorem Unchanged.locked_bind (hs : Unchanged s s1) {f : EpochRow → Work β}
    (hf : ∀ row s2, Unchanged s s2 → row = s.row owner → s2.epochs.lookup owner = some row →
      (f row).Ends s2 (Turned s m)) : (locked owner >>= f).Ends s1 (Turned s m) := by
  refine (locked_ends owner s1).bind (fun row s2 h => ?_) fun e s2 h => ?_
  · obtain ⟨hrow, hl⟩ := h.2 row rfl
    exact hf row s2 (IsTrans.trans _ _ _ hs h.1) (hrow.trans (hs.row owner)) hl
  · exact (IsTrans.trans (r := Unchanged) _ _ _ hs h.1).raised m

/-- Under a savepoint only what returns is kept. -/
theorem Unchanged.savepoint (hs : Unchanged s s1) (h : ∀ a s', x.Ok s1 a s' → Turn s m true s') :
    (Tx.savepoint x).Ends s1 (Turned s m) := by
  refine Ends.imp (settles_savepoint h) fun r s' hr => ?_
  cases r with
  | ok => exact hr
  | error =>
    rw [show s' = s1 from hr]
    exact hs.raised m

/-! ### The last statement -/

theorem turn_of_row (hothers : ∀ o, o ≠ owner → s'.row o = s.row o)
    (hops : s'.operations = s.operations)
    (hflags : ∀ o, o ≠ owner → m.engages o s true = false ∧ m.resumes o true = false ∧
      m.acknowledges o s true = false) (hbinds : ∀ key, m.binds key true = false)
    (hepoch : (s'.row owner).epoch = (s.row owner).epoch + (m.engages owner s true).toNat)
    (hrevision : (s'.row owner).revision = (s.row owner).revision +
      ((m.engages owner s true).toNat + (m.resumes owner true).toNat +
        (m.acknowledges owner s true).toNat)) : Turn s m true s' := by
  refine ⟨fun o => ?_, fun o => ?_, fun key => ?_, fun key epoch hk => ?_⟩
  · by_cases ho : o = owner
    · rw [ho, hepoch]
    · rw [hothers o ho, (hflags o ho).1]
      rfl
  · by_cases ho : o = owner
    · rw [ho, hrevision]
    · obtain ⟨h1, h2, h3⟩ := hflags o ho
      rw [hothers o ho, h1, h2, h3]
      rfl
  · rw [hops, hbinds]
    rfl
  · rw [hops, hk]

theorem row_of_update {changed : EpochRow} (hs : ∀ o, s1.row o = s.row o)
    (hs' : s' = { s1 with epochs := s1.epochs.insert owner changed }) :
    s'.row owner = changed ∧ ∀ o, o ≠ owner → s'.row o = s.row o := by
  subst hs'
  refine ⟨by simp [Store.row], fun o ho => ?_⟩
  rw [← hs o]
  simp [Store.row, AList.lookup_insert_ne ho]

theorem Unchanged.update_bind (hs : Unchanged s s1) {row : EpochRow} (hrow : row = s.row owner)
    (hl : s1.epochs.lookup owner = some row) {f : Option EpochRow → Work β} {e : Exc}
    (hnone : f none = raise e) (hsome : ∀ changed, ∃ b, f (some changed) = pure b)
    (hturn : ∀ s', (s'.row owner).toEpochColumns = written (s.row owner) →
      (∀ o, o ≠ owner → s'.row o = s.row o) → s'.operations = s.operations → Turn s m true s') :
    (updateEpochSql owner selects written >>= f).Ends s1 (Turned s m) := by
  refine (updateEpochSql_ends s1).bind ?_ ?_
  · rintro changed s2 (⟨rfl, hnot⟩ | ⟨old, new, hold, hnew, hr, rfl⟩)
    · cases changed with
      | none =>
        rw [hnone]
        exact ends_raise (hs.raised m)
      | some changed => exact absurd rfl (hnot changed)
    · cases hr
      obtain ⟨b, hb⟩ := hsome new
      cases hl.symm.trans hold
      obtain ⟨hown, hothers⟩ := row_of_update hs.row rfl
      rw [hb]
      exact ends_pure (hturn _ (by rw [hown, hnew, hrow]) hothers hs.operations)
  · rintro e s2 (⟨rfl, -⟩ | ⟨_, _, -, -, hr, -⟩)
    · exact hs.raised m
    · cases hr

/-! ### The calls that take effect -/

theorem engage_turn {revision : ℤ} {reason actor : String} (s : Store) :
    (engage owner revision reason actor instant).Ends s
      (Turned s (.engage owner revision reason actor instant)) := by
  have h0 : Unchanged s s := Std.Refl.refl s
  refine h0.readOnly_bind (checked_readOnly _) fun o ho => h0.readOnly_bind integer_readOnly
    fun n _ => h0.readOnly_bind (checked_readOnly _) fun a _ =>
    h0.readOnly_bind (checked_readOnly _) fun t _ => ?_
  obtain rfl := checked_requiredId_ok ho
  refine h0.locked_bind fun row s1 hs hrow hl => hs.require_bind fun _ => ?_
  split
  · -- a replay
    rename_i he
    refine hs.require_bind fun _ => ends_pure (hs.turn ?_ (fun _ => rfl) (fun _ => rfl)
      (fun _ hb => by cases hb))
    intro o
    by_cases howner : owner = o
    · subst howner
      simp [Method.engages, ← hrow, he]
    · simp [Method.engages, howner]
  · rename_i he
    have hnot : (s.row owner).engaged = false := hrow ▸ Bool.eq_false_iff.2 he
    refine hs.require_bind fun _ => hs.require_bind fun _ => hs.require_bind fun _ =>
      hs.update_bind hrow hl rfl (fun _ => ⟨_, rfl⟩) fun s' hnew hothers hops =>
        turn_of_row hothers hops ?_ (fun _ => rfl) ?_ ?_
    · intro o howner
      simp [Method.engages, Method.resumes, Method.acknowledges, Ne.symm howner]
    · simp [hnew, Method.engages, hnot]
    · simp [hnew, Method.engages, Method.resumes, Method.acknowledges, hnot]

theorem resume_turn {revision epoch : ℤ} (s : Store) :
    (resume owner revision epoch instant).Ends s (Turned s (.resume owner revision epoch instant)) := by
  have h0 : Unchanged s s := Std.Refl.refl s
  refine h0.readOnly_bind (checked_readOnly _) fun o ho => h0.readOnly_bind integer_readOnly
    fun n _ => h0.readOnly_bind integer_readOnly fun e _ => ?_
  obtain rfl := checked_requiredId_ok ho
  refine h0.locked_bind fun row s1 hs hrow hl => hs.require_bind fun _ => hs.require_bind fun _ =>
    hs.require_bind fun _ => hs.require_bind fun _ => hs.update_bind hrow hl rfl (fun _ => ⟨_, rfl⟩)
      fun s' hnew hothers hops => turn_of_row hothers hops ?_ (fun _ => rfl) ?_ ?_
  · intro o howner
    simp [Method.engages, Method.resumes, Method.acknowledges, Ne.symm howner]
  · simp [hnew, Method.engages]
  · simp [hnew, Method.engages, Method.resumes, Method.acknowledges]

theorem listAcknowledgments_readOnly (owner : String) (epoch : ℤ) :
    (listAcknowledgments owner epoch).ReadOnly := by
  refine readOnly_bind (checked_readOnly _) fun o => readOnly_bind integer_readOnly fun n => ?_
  refine readOnly_bind (readOnly_require _ _) fun _ => readOnly_bind readOnly_get fun s => ?_
  exact readOnly_bind (readOnly_require _ _) fun _ => readOnly_pure _

theorem acknowledge_turn {mesh peer : String} {epoch revision : ℤ} {digest : String} (s : Store) :
    (acknowledge owner mesh peer epoch revision digest instant).Ends s
      (Turned s (.acknowledge owner mesh peer epoch revision digest instant)) := by
  have h0 : Unchanged s s := Std.Refl.refl s
  refine h0.readOnly_bind (checked_readOnly _) fun o ho => h0.readOnly_bind (checked_readOnly _)
    fun g hg => h0.readOnly_bind (checked_readOnly _) fun p hp => h0.readOnly_bind integer_readOnly
    fun n hn => h0.readOnly_bind integer_readOnly fun _ _ => h0.readOnly_bind (checked_readOnly _)
    fun _ _ => h0.require_bind fun _ => ?_
  obtain rfl := checked_requiredId_ok ho
  obtain rfl := checked_requiredId_ok hg
  obtain rfl := checked_requiredId_ok hp
  simp only [integer, ok_rules] at hn
  obtain ⟨_, _, rfl, _⟩ := hn
  refine h0.locked_bind fun row s1 hs hrow hl => hs.require_bind fun _ => hs.require_bind fun _ =>
    hs.require_bind fun _ => hs.savepoint fun a s' h => ?_
  simp only [recordAcknowledgment, sends, ok_rules] at h
  obtain ⟨_, _, _, rfl, h⟩ := h
  have hacks := hs.acknowledgments
  cases hk : s1.acknowledgments.lookup ⟨owner, epoch.toNat, mesh, peer⟩ with
  | some =>
    -- a replay
    simp only [hk, ok_rules] at h
    obtain ⟨_, _, _, rfl⟩ := h
    refine hs.turn (fun _ => rfl) (fun _ => rfl) ?_ (fun _ hb => by cases hb)
    simp [Method.acknowledges, ← hacks, hk]
  | none =>
    simp only [hk, ok_rules] at h
    obtain ⟨_, _, _, s2, hlist, _, _, inserted, s3, hi, changed, s4, hu, h⟩ := h
    cases (listAcknowledgments_readOnly _ _).ok hlist
    cases inserted with
    | none => simp at h
    | some =>
      cases changed with
      | none => simp at h
      | some changed =>
        obtain ⟨_, rfl⟩ := ok_pure.1 h
        obtain ⟨hepochs, hops⟩ : s3.epochs = s1.epochs ∧ s3.operations = s1.operations := by
          simp only [insertAckSql, ok_rules] at hi
          obtain ⟨_, rfl, hi⟩ := hi
          split at hi
          · simp only [ok_rules] at hi
            obtain ⟨_, _, _, _, rfl, _, rfl⟩ := hi
            exact ⟨rfl, rfl⟩
          · simp at hi
        have hrows : ∀ o, s3.row o = s.row o := fun o => by
          rw [Store.row, hepochs]
          exact hs.row o
        obtain ⟨-, hnot⟩ | ⟨old, new, hold, hnew, -, hs4⟩ := (updateEpochSql_ends s3).of_ok hu
        · exact absurd rfl (hnot changed)
        rw [hepochs, hl] at hold
        cases hold
        obtain ⟨hown, hothers⟩ := row_of_update hrows hs4
        have hoperations : s4.operations = s.operations := by rw [hs4]; exact hops.trans hs.operations
        refine turn_of_row hothers hoperations ?_ (fun _ => rfl) ?_ ?_
        · intro o howner
          simp [Method.engages, Method.resumes, Method.acknowledges, Ne.symm howner]
        · simp [hown, hnew, hrow, Method.engages]
        · simp [hown, hnew, hrow, Method.engages, Method.resumes, Method.acknowledges, ← hacks, hk]

theorem bindOperation_turn (s : Store) :
    (bindOperation owner operation).Ends s (Turned s (.bindOperation owner operation)) := by
  have h0 : Unchanged s s := Std.Refl.refl s
  refine h0.readOnly_bind (checked_readOnly _) fun o ho => ?_
  obtain rfl := checked_requiredId_ok ho
  refine h0.locked_bind fun row s1 hs hrow hl => hs.require_bind fun _ => ends_get_bind ?_
  have hops := hs.operations
  cases hk : s1.operations.lookup (owner, operation) with
  | some =>
    -- a replay, in the epoch of the binding
    refine hs.require_bind fun hbound => ends_pure (hs.turn (fun _ => rfl) (fun _ => rfl) (fun _ => rfl) ?_)
    intro key hb
    simp only [Method.binds, bool_to_prop] at hb
    obtain ⟨rfl, -⟩ := hb
    rw [← hops, hk, of_decide_eq_true hbound, hrow]
  | none =>
    refine (insertOperationSql_ends s1).bind ?_ ?_
    · rintro inserted s2 (⟨rfl, hnot⟩ | ⟨hr, rfl⟩)
      · cases inserted with
        | none => exact ends_raise (hs.raised _)
        | some n => exact absurd rfl (hnot n)
      · cases hr
        refine ends_pure ⟨fun o => congrArg (·.epoch) (hs.row o), fun o => congrArg (·.revision) (hs.row o),
          fun key => ?_, fun key e hkey => ?_⟩
        · by_cases hb : (owner, operation) = key
          · subst hb
            simp [Method.binds, hrow, Except.isOk, Except.toBool]
          · simp [Method.binds, hb, AList.lookup_insert_ne (Ne.symm hb), hops]
        · have hne : key ≠ (owner, operation) := by
            rintro rfl
            rw [hops, hkey] at hk
            cases hk
          simp [AList.lookup_insert_ne hne, hops, hkey]
    · rintro e s2 (⟨rfl, -⟩ | ⟨hr, -⟩)
      · exact hs.raised _
      · cases hr

end

/-! ## Calls -/

theorem exec_turn (m : Method) (s : Store) : (exec m).Ends s (Turned s m) := by
  have hdone : ∀ {α : Type} {x : Work α}, x.Ends s (Turned s m) →
      (do let _ ← x : Work Unit).Ends s (Turned s m) := fun hx => hx.bind (fun _ _ h => h) fun _ _ h => h
  -- a method that writes at most an anchor has no effect
  have hquiet : ∀ {α : Type} {x : Work α}, x.Moves Unchanged →
      (∀ r owner, m.engages owner s r = false) → (∀ r owner, m.resumes owner r = false) →
      (∀ r owner, m.acknowledges owner s r = false) → (∀ r key, m.binds key r = false) →
      x.Ends s (Turned s m) := fun hm he hr ha hb =>
    (hm s).turn (he _) (hr _) (ha _) fun key hk => by rw [hb] at hk; cases hk
  cases m with
  | get owner forUpdate =>
    refine hdone (hquiet ((checked_readOnly _).moves.bind fun o => moves_ite ?_ ?_)
      (fun _ _ => rfl) (fun _ _ => rfl) (fun _ _ => rfl) (fun _ _ => rfl))
    · exact (locked_moves o).returning
    · exact ReadOnly.moves (by simp [sends])
  | engage => exact hdone (engage_turn s)
  | resume => exact hdone (resume_turn s)
  | acknowledge => exact hdone (acknowledge_turn s)
  | listAcknowledgments owner epoch =>
    exact hdone (hquiet (listAcknowledgments_readOnly owner epoch).moves (fun _ _ => rfl)
      (fun _ _ => rfl) (fun _ _ => rfl) (fun _ _ => rfl))
  | assertRunning owner epoch =>
    have hepoch : (optionalInteger epoch "expected_epoch").ReadOnly := by
      cases epoch with
      | none => exact readOnly_pure _
      | some => exact readOnly_bind integer_readOnly fun _ => readOnly_pure _
    refine hdone (hquiet ((checked_readOnly _).moves.bind fun o => hepoch.moves.bind fun _ =>
      (locked_moves o).bind fun _ => ReadOnly.moves ?_)
      (fun _ _ => rfl) (fun _ _ => rfl) (fun _ _ => rfl) (fun _ _ => rfl))
    simp
  | bindOperation => exact hdone (bindOperation_turn s)
  | assertOperation owner operation =>
    refine hquiet ((checked_readOnly _).moves.bind fun o => (locked_moves o).bind fun _ =>
      ReadOnly.moves ?_) (fun _ _ => rfl) (fun _ _ => rfl) (fun _ _ => rfl) (fun _ _ => rfl)
    simp

/-- **One call.** -/
theorem Store.step_turn (call : Call) (s : Store) :
    Turn s call.method (s.returns call) (s.step call) := by
  have hturn : Turned s call.method (exec call.method s).1 (exec call.method s).2 := exec_turn call.method s
  rw [Store.returns]
  unfold Store.step Tx.commit
  rcases hx : exec call.method s with ⟨e | ⟨⟩, s'⟩ <;> rw [hx] at hturn
  · split
    · exact hturn
    · exact (Std.Refl.refl s : Unchanged s s).raised call.method
  · split <;> exact hturn

theorem assertOperation_returns {kept : Bool}
    (h : s.returns ⟨.assertOperation owner operation, kept⟩) : (s.row owner).engaged = false ∧
      (s.operations.lookup (owner, operation)).getD 0 = (s.row owner).epoch := by
  rcases hx : assertOperation owner operation s with ⟨e | ⟨⟩, s'⟩
  · rw [Store.returns, exec, hx] at h
    cases h
  · obtain ⟨_, _, ho, h1⟩ := ok_bind.1 (show (assertOperation owner operation).Ok s () s' from hx)
    obtain rfl := checked_requiredId_ok ho
    obtain rfl := (checked_readOnly _).ok ho
    obtain ⟨row, s1, hr, h2⟩ := ok_bind.1 h1
    obtain ⟨hs, hrow⟩ := (locked_ends owner s).of_ok hr
    obtain ⟨hrow, -⟩ := hrow row rfl
    simp only [ok_rules] at h2
    obtain ⟨_, hrunning, _, rfl, h3⟩ := h2
    rw [← hrow, ← hs.operations]
    refine ⟨by simpa using hrunning, ?_⟩
    cases hk : s1.operations.lookup (owner, operation) with
    | none =>
      simp only [hk] at h3
      simpa [eq_comm] using h3.1
    | some =>
      simp only [hk] at h3
      simpa using h3.1

/-! ## Runs -/

def engagements (owner : String) : Store → List Call → ℕ
  | _, [] => 0
  | s, call :: calls =>
    (call.method.engages owner s (s.returns call)).toNat + engagements owner (s.step call) calls

theorem epoch_run (owner : String) (calls : List Call) (s : Store) :
    ((s.run calls).row owner).epoch = (s.row owner).epoch + engagements owner s calls := by
  induction calls generalizing s with
  | nil => rfl
  | cons call calls ih =>
    have hrun := ih (s.step call)
    rw [(s.step_turn call).epoch owner] at hrun
    rw [engagements, ← Nat.add_assoc]
    exact hrun

theorem operations_run (calls : List Call) {key : String × Uuid} {epoch : ℕ}
    (h : s.operations.lookup key = some epoch) :
    (s.run calls).operations.lookup key = some epoch := by
  induction calls generalizing s with
  | nil => exact h
  | cons call calls ih => exact ih ((s.step_turn call).kept key epoch h)

/-- Some call of the sequence binds the operation. -/
def Bound (key : String × Uuid) (s : Store) (calls : List Call) : Prop :=
  ∃ before call after, calls = before ++ call :: after ∧
    call.method.binds key ((s.run before).returns call)

/-- Without a call that binds the operation it has no binding. -/
theorem unbound_run (key : String × Uuid) (calls : List Call)
    (h : s.operations.lookup key = none) (hb : ¬ Bound key s calls) :
    (s.run calls).operations.lookup key = none := by
  induction calls generalizing s with
  | nil => exact h
  | cons call calls ih =>
    refine ih ?_ ?_
    · have hcall : ¬ call.method.binds key (s.returns call) := fun hc =>
        hb ⟨[], call, calls, rfl, hc⟩
      rw [(s.step_turn call).bound key, if_neg hcall, h]
    · rintro ⟨before, later, after, rfl, hl⟩
      exact hb ⟨call :: before, later, after, rfl, hl⟩

/-- **The owner stop is a kill switch.**  After any calls, a further call moves the epoch and the
    revision of an owner by what it effects, a binding stays as it was recorded, and an assertion
    returns only while the stop is not engaged, for an operation that no effective engagement has
    followed since it was bound, or none at all if it never was. -/
theorem owner_stop_kill_switch (calls : List Call) (owner : String) :
    let s := Store.empty.run calls
    (∀ call : Call, ((s.step call).row owner).epoch =
      (s.row owner).epoch + (call.method.engages owner s (s.returns call)).toNat) ∧
    (∀ call : Call, ((s.step call).row owner).revision = (s.row owner).revision +
      ((call.method.engages owner s (s.returns call)).toNat +
        (call.method.resumes owner (s.returns call)).toNat +
        (call.method.acknowledges owner s (s.returns call)).toNat)) ∧
    (∀ operation epoch, s.operations.lookup (owner, operation) = some epoch →
      ∀ later, (s.run later).operations.lookup (owner, operation) = some epoch) ∧
    ∀ operation kept, s.returns ⟨.assertOperation owner operation, kept⟩ →
      (s.row owner).engaged = false ∧
      (∀ before call after, calls = before ++ call :: after →
        call.method.binds (owner, operation) ((Store.empty.run before).returns call) →
        engagements owner (Store.empty.run before) (call :: after) = 0) ∧
      (¬ Bound (owner, operation) .empty calls → engagements owner .empty calls = 0) := by
  intro s
  refine ⟨fun call => (s.step_turn call).epoch owner, fun call => (s.step_turn call).revision owner,
    fun operation epoch h later => operations_run later h, fun operation kept h => ?_⟩
  obtain ⟨hrunning, hepoch⟩ := assertOperation_returns h
  refine ⟨hrunning, ?_, fun hb => ?_⟩
  · rintro before call after rfl hb
    -- the binding has the epoch in which it was made, and the assertion asks for the current one
    have hbound := ((Store.empty.run before).step_turn call).bound (owner, operation)
    rw [if_pos hb] at hbound
    have hrun : s = ((Store.empty.run before).step call).run after := by
      simp only [s, Store.run, run_append, run_cons]
    have hlater := operations_run after hbound
    rw [← hrun] at hlater
    rw [hlater, Option.getD_some] at hepoch
    have hcount := epoch_run owner (call :: after) (Store.empty.run before)
    rw [show (Store.empty.run before).run (call :: after) = s from hrun.symm, ← hepoch] at hcount
    simpa using hcount
  · rw [unbound_run (owner, operation) calls rfl hb, Option.getD_none] at hepoch
    have hcount := epoch_run owner calls .empty
    rw [← hepoch] at hcount
    omega

end AstralPlane.StopEpochs
