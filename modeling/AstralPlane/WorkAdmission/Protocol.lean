/-
  Submissions and expiries keep to the protocol of one operation.

  `Evolving x` says that a body `x` that returns evolves the store (`Evolves`).
  The lemmas go up from the statements: what the reads return, how a store
  evolves when one row is updated or inserted together with its slots, the two
  expiries, and the submission of new work.
-/
import AstralPlane.WorkAdmission.Evolution

namespace AstralPlane.WorkAdmission

open Relation Tx List

variable {s s' : Store}
variable {id : Uuid} {r : OperationRecord} {s1 : Store} {u : Unit} {request : OperationRequest}
  {now retention slotLease : Time} {code : Option String} {retryable : Bool}
  {retryAfterMs : Option Int} {capture : Option HarnessCapture} {a : AdmissionResult}
variable {c : AdmissionClass} {gate : HarnessGate} {retry : Option RetryProof} {locked : Locked}
variable {fence : ExecutionFence} {l : List OperationRecord} {operation : OperationRecord}
  {owner summary : Option String} {selected : List (AdmissionClass × ℕ)} {state : OperationState}

/-! ## Bodies that only read -/

theorem readOnly_chain (c : AdmissionClass) : (chain c).ReadOnly :=
  readOnly_bind readOnly_get fun _ => readOnly_ofExcept _

theorem readOnly_lockClassChain : (lockClassChain c).ReadOnly :=
  readOnly_bind (readOnly_chain c) fun _ =>
    readOnly_bind readOnly_get fun _ => readOnly_ofExcept _

theorem readOnly_submissionRow {owner : OperationOwner} :
    (submissionRow owner id).ReadOnly := fun _ => rfl

theorem readOnly_operationRow : (operationRow id).ReadOnly := fun _ => rfl

theorem readOnly_getOperationRecord (owner : OperationOwner) (id : Uuid) :
    (getOperationRecord owner id).ReadOnly := fun _ => rfl

theorem readOnly_existingIdempotentOperation : (existingIdempotentOperation request).ReadOnly := by
  refine readOnly_bind readOnly_get fun _ => ?_
  split <;> exact readOnly_pure _

theorem readOnly_accepted {created : Bool} : (accepted operation created).ReadOnly := by
  refine readOnly_bind (readOnly_bind readOnly_get fun _ => ?_) fun _ => readOnly_pure _
  split <;> exact readOnly_pure _

theorem readOnly_validatedDuration {value : Time} {name : String} :
    (validatedDuration value name).ReadOnly := readOnly_require _ _

theorem readOnly_validatedCode {value name : String} : (validatedCode value name).ReadOnly :=
  readOnly_require _ _

theorem readOnly_validatedTerminalPayload :
    (validatedTerminalPayload state code summary retryAfterMs).ReadOnly := by
  simp [validatedTerminalPayload]

theorem readOnly_selectFreeSlots (c : AdmissionClass) : (selectFreeSlots c locked).ReadOnly :=
  readOnly_bind (readOnly_chain c) fun _ =>
    readOnly_bind readOnly_get fun _ => readOnly_ofExcept _

theorem readOnly_lockAdmissionRequest : (lockAdmissionRequest gate request retry).ReadOnly := by
  unfold lockAdmissionRequest
  dsimp only
  split <;> simp

theorem readOnly_getHarnessCapture {owner : OperationOwner} :
    (getHarnessCapture owner id).ReadOnly := by
  refine readOnly_bind (readOnly_getOperationRecord owner id) fun row => ?_
  cases row with
  | none => exact readOnly_pure _
  | some =>
    refine readOnly_bind readOnly_get fun _ => ?_
    split <;> simp

theorem readOnly_admissionCapture : (admissionCapture gate request retry owner now).ReadOnly := by
  unfold admissionCapture
  split
  · refine readOnly_require_bind.2 fun _ =>
      readOnly_bind (readOnly_getOperationRecord _ _) fun row => ?_
    cases row <;> simp [readOnly_getHarnessCapture]
  all_goals simp

theorem readOnly_replaySubmission (row : SubmissionRow) : (replaySubmission row).ReadOnly := by
  unfold replaySubmission
  split
  · simp
  · split
    · simp
    · refine readOnly_bind readOnly_operationRow fun r => ?_
      cases r <;> simp [readOnly_accepted]

theorem readOnly_assertCurrentExecutionSession (fence : ExecutionFence) :
    (assertCurrentExecutionSession fence).ReadOnly := by
  refine readOnly_bind readOnly_operationRow fun r => ?_
  cases r <;> simp

theorem readOnly_assertCurrentExecutionLease {clock : Time} :
    (assertCurrentExecutionLease fence clock).ReadOnly := by
  refine readOnly_require_bind.2 fun _ =>
    readOnly_bind (readOnly_assertCurrentExecutionSession fence) fun _ => ?_
  simp [readOnly_chain]

/-! ## What the reads return -/

theorem ok_chain {members : List AdmissionClass} :
    (chain c).Ok s members s' ↔ chainOf s.configs c = .ok members ∧ s = s' := by
  simp only [chain, ok_rules, exists_eq_left']

theorem ok_operationRow {r : Option OperationRecord} :
    (operationRow id).Ok s r s' ↔ s.operations.find? (·.operationId = id) = r ∧ s = s' := by
  simp only [operationRow, ok_rules, exists_eq_left']

theorem ok_getOperationRecord {owner : OperationOwner} {r : Option OperationRecord} :
    (getOperationRecord owner id).Ok s r s' ↔
      s.operations.find? (fun r => r.operationId = id ∧ owner.owns r) = r ∧ s = s' := by
  simp only [getOperationRecord, ok_rules, exists_eq_left']

theorem ok_assertCurrentExecutionSession : (assertCurrentExecutionSession fence).Ok s r s' ↔
      s.operations.find? (·.operationId = fence.operationId) = some r ∧ fenceMatches r fence ∧
        s = s' := by
  simp only [assertCurrentExecutionSession, ok_rules, ok_operationRow, exists_eq_left']
  cases s.operations.find? (·.operationId = fence.operationId) with
  | none => simp
  | some =>
    simp only [ok_rules, exists_const, Option.some.injEq]
    rw [and_left_comm]
    exact and_congr_right fun hr => by rw [hr]

/-- Every class has a free slot within its limit. -/
def Room (s : Store) (members : List AdmissionClass) : Prop :=
  ∀ c ∈ members, ∃ config, configOf s.configs c = some config ∧ ∃ slot ∈ s.slots,
    slot.className = c ∧ slot.slotNumber ≤ config.activeLimit ∧ slot.operationId = none

/-- The slots that `_select_free_slots` finds are one for each class of the chain. -/
theorem selectFrom_spec : ∀ {members : List AdmissionClass} {selected : List (AdmissionClass × ℕ)},
    selectFrom s.configs (s.unlocked locked).slots members = .ok (some selected) →
      selected.map Prod.fst = members ∧ Room s members
  | [], selected, h => by cases h; exact ⟨rfl, fun c hc => by cases hc⟩
  | member :: rest, selected, h => by
    rw [selectFrom] at h
    split at h
    · cases h
    · rename_i config hconfig
      split at h
      · cases h
      · rename_i slot hslot
        cases hs : selectFrom s.configs (s.unlocked locked).slots rest with
        | error => rw [hs] at h; cases h
        | ok o =>
          rw [hs] at h
          cases o with
          | none => cases h
          | some =>
            cases h
            obtain ⟨hfst, hroom⟩ := selectFrom_spec hs
            refine ⟨by rw [map_cons, hfst], fun c hc => ?_⟩
            rcases mem_cons.1 hc with rfl | hc
            · obtain ⟨hmem, hfree⟩ := mem_filter.1 (firstBy_mem hslot)
              exact ⟨config, hconfig, slot, mem_of_mem_filter hmem, of_decide_eq_true hfree⟩
            · exact hroom c hc

theorem selectFreeSlots_spec (h : (selectFreeSlots c locked).Ok s (some selected) s') :
    chainOf s.configs c = .ok (selected.map Prod.fst) ∧ Room s (selected.map Prod.fst) ∧ s = s' := by
  simp only [selectFreeSlots, ok_rules, ok_chain] at h
  obtain ⟨members, hm, _, rfl, hs, rfl⟩ := h
  obtain ⟨rfl, hroom⟩ := selectFrom_spec hs
  exact ⟨hm, hroom, rfl⟩

/-! ## Steps of one operation -/

/-- A store that differs in one operation, by one step of its protocol, subsides. -/
theorem Subsides.of_step (id : Uuid) (hk : Keyed s') (hc : s'.configs = s.configs)
    (hcl : s'.classes = s.classes) (hu : s'.uuid4 = s.uuid4) (hd : s.draws ≤ s'.draws)
    (hslots : (s'.slots.map SlotRow.key).Sublist (s.slots.map SlotRow.key))
    (hothers : ∀ j, j ≠ id → s'.view j = s.view j)
    (hstep : OpStep s.configs (Fresh s.uuid4 s.draws s'.draws) id (s.view id) (s'.view id))
    (hcards : s'.cards = s.cards) (hsub : s'.submissions = s.submissions) : Subsides s s' := by
  refine .of_steps hk hc hcl hu hd hslots (fun j => ?_) (fun _ h => hcards ▸ h)
    (files_keep hcards hsub hu hd)
  by_cases hj : j = id
  · subst hj; exact .single hstep
  · rw [hothers j hj]

section Update

variable {p : OperationRecord → Bool} {f : OperationRecord → OperationRecord}

theorem Subsides.of_update {slots : List SlotRow} {draws : ℕ} (hk : Keyed s)
    (hf : ∀ r, (f r).card = r.card) (hp : ∀ r, p r → r.operationId = id)
    (hr : s.operations.find? (·.operationId = id) = some r) (hpr : p r) (hd : s.draws ≤ draws)
    (hslots : (slots.map SlotRow.key).Sublist (s.slots.map SlotRow.key))
    (hothers : ∀ j, j ≠ id → heldBy slots j = heldBy s.slots j)
    (hstep : OpStep s.configs (Fresh s.uuid4 s.draws draws) id ⟨some r, heldBy s.slots id⟩
      ⟨some (f r), heldBy slots id⟩) : Subsides s { s with
      operations := updateWhere p f s.operations, slots := slots, draws := draws } := by
  have hid : ∀ r, (f r).operationId = r.operationId := fun r => congrArg Card.operationId (hf r)
  refine .of_step id (keyed_updateWhere hid hk) rfl rfl rfl hd hslots (fun j hj => ?_) ?_
    (map_updateWhere hf _) rfl
  · simp only [Store.view, row_updateWhere hid, hothers j hj]
    cases hr0 : s.operations.find? (·.operationId = j) with
    | none => rfl
    | some r0 =>
      have hid : r0.operationId = j := by simpa using List.find?_some hr0
      rw [Option.map_some, if_neg fun h => hj (hid.symm.trans (hp r0 h))]
  · simp only [Store.view, row_updateWhere hid, hr, Option.map_some, if_pos hpr]
    exact hstep

theorem Subsides.of_updates (hk : Keyed s) (hf : ∀ r, (f r).card = r.card)
    (hstep : ∀ r ∈ s.operations, p r → ∀ held, OpStep s.configs
      (Fresh s.uuid4 s.draws s.draws) r.operationId ⟨some r, held⟩ ⟨some (f r), held⟩) :
    Subsides s { s with operations := updateWhere p f s.operations } := by
  have hid : ∀ r, (f r).operationId = r.operationId := fun r => congrArg Card.operationId (hf r)
  have hcards : (updateWhere p f s.operations).map (·.card) = s.cards := map_updateWhere hf _
  refine .of_steps (keyed_updateWhere hid hk) rfl rfl rfl le_rfl (.refl _) (fun id => ?_)
    (fun _ h => hcards ▸ h) (files_keep hcards rfl rfl le_rfl)
  simp only [Store.view]
  rw [row_updateWhere hid]
  cases hr : s.operations.find? (·.operationId = id) with
  | none => exact .refl
  | some r =>
    obtain rfl : r.operationId = id := by simpa using List.find?_some hr
    rw [Option.map_some]
    split
    · rename_i hp
      exact .single (hstep r (mem_of_find?_eq_some hr) hp _)
    · exact .refl

/-- The update that ends an operation, followed by the release of its slots. -/
theorem Subsides.of_finish (hk : Keyed s) (hup : (updateOperations p f).Ok s l s1)
    (hrel : (releaseSlots id).Ok s1 u s') (hf : ∀ r, (f r).card = r.card)
    (hp : ∀ r, p r → r.operationId = id)
    (hr : s.operations.find? (·.operationId = id) = some r) (hpr : p r)
    (hs : r.state.isTerminal = false) (he : Ended r (f r)) : Subsides s s' := by
  obtain ⟨hc, -, rfl⟩ := ok_updateOperations.1 hup
  rw [ok_releaseSlots hrel]
  refine .of_update hk hf hp hr hpr le_rfl (keys_freed _ id) (fun j hj => heldBy_freed_other _ hj) ?_
  rw [heldBy_freed_self]
  exact .finish hs he (hc r (mem_of_find?_eq_some hr) hpr)

end Update

theorem ended_finish (hs : state.isTerminal) :
    Ended r (r.finish state code summary retryAfterMs now retention) :=
  ⟨hs, _, _, _, _, _, _, _, _, _, rfl⟩

theorem mem_of_find (hr : s.operations.find? (·.operationId = id) = some r) : r ∈ s.operations :=
  mem_of_find?_eq_some hr

theorem id_of_find
    (hr : s.operations.find? (·.operationId = id) = some r) : r.operationId = id := by
  simpa using List.find?_some hr

/-! ## Expiry -/

/-- The rows of `s'` are rows of `s`, or terminal. -/
def Cleared (s s' : Store) : Prop :=
  ∀ id r, (s'.view id).row = some r → r.state.isTerminal ∨ (s.view id).row = some r

theorem Cleared.of_eq (h : s'.operations = s.operations) : Cleared s s' := by
  intro id r hr
  rw [Store.view, h] at hr
  exact .inr hr

theorem Cleared.trans {s2 s3 : Store} (h : Cleared s1 s2) (h' : Cleared s2 s3) : Cleared s1 s3 := by
  intro id r hr
  rcases h' id r hr with ht | hr
  · exact .inl ht
  · exact h id r hr

theorem Cleared.of_update {p : OperationRecord → Bool} {f : OperationRecord → OperationRecord}
    (ho : s'.operations = updateWhere p f s.operations)
    (hid : ∀ r, (f r).operationId = r.operationId) (ht : ∀ r, (f r).state.isTerminal) :
    Cleared s s' := by
  intro id r hr
  rw [Store.view, ho, row_updateWhere hid] at hr
  obtain ⟨r0, hr0, rfl⟩ := Option.map_eq_some_iff.1 hr
  split
  · exact .inl (ht r0)
  · exact .inr hr0

/-- A body that ends operations at most. -/
def Clearing {α : Type} (x : Work α) : Prop :=
  ∀ s a s', x.Ok s a s' → Keyed s → Subsides s s' ∧ Cleared s s'

section Clearing

variable {α β : Type} {x : Work α}

theorem Clearing.subsiding (h : Clearing x) : Subsiding x := fun s a s' ho hk => (h s a s' ho hk).1

theorem clearing_of_readOnly (hx : x.ReadOnly) : Clearing x := by
  intro s a s' h hk
  rw [← hx.ok h]
  exact ⟨.refl hk, .of_eq rfl⟩

theorem clearing_bind {f : α → Work β} (hx : Clearing x) (hf : ∀ a, Clearing (f a)) :
    Clearing (x >>= f) := by
  intro s b s' h hk
  obtain ⟨a, s1, h1, h2⟩ := ok_bind.1 h
  obtain ⟨hs, hc⟩ := hx s a s1 h1 hk
  obtain ⟨hs', hc'⟩ := hf a s1 b s' h2 hs.keyed
  exact ⟨hs.trans hs', hc.trans hc'⟩

theorem clearing_collect {f : α → Work β} (hf : ∀ a, Clearing (f a)) :
    ∀ l : List α, Clearing (Tx.collect f l)
  | [] => clearing_of_readOnly (readOnly_pure [])
  | a :: l => clearing_bind (hf a) fun _ => clearing_bind (clearing_collect hf l) fun _ =>
      clearing_of_readOnly (readOnly_pure _)

end Clearing

theorem clearing_expireQueuedLocked : Clearing (expireQueuedLocked now retention) := by
  intro s l s' h hk
  obtain ⟨hc, -, rfl⟩ := ok_updateOperations.1 h
  refine ⟨.of_updates (f := OperationRecord.lapse now retention) hk (fun _ => rfl)
    fun r hr hp _ => ?_, .of_update rfl (fun _ => rfl) fun _ => rfl⟩
  exact .lapse (of_decide_eq_true hp).1 ⟨rfl, _, _, _, _, _, _, _, _, _, rfl⟩ (hc r hr hp)

theorem clears_releaseSlots (id : Uuid)
    (h : ∀ r, s.operations.find? (·.operationId = id) = some r → r.state ≠ .running)
    (ho : (releaseSlots id).Ok s u s') (hk : Keyed s) : Subsides s s' ∧ Cleared s s' := by
  rw [ok_releaseSlots ho]
  refine ⟨.of_step id hk rfl rfl rfl le_rfl (keys_freed s id) (fun j hj => ?_) ?_ rfl rfl, .of_eq rfl⟩
  · simp only [Store.view, heldBy_freed_other s hj]
  · simp only [Store.view, heldBy_freed_self]
    exact .release h

theorem clearing_expireExecutionLease (now retention : Time) (id : Uuid) :
    Clearing (expireExecutionLease now retention id) := by
  intro s a s' h hk
  simp only [expireExecutionLease, ok_rules] at h
  obtain ⟨_, rfl, h⟩ := h
  cases hr : s.operations.find? (·.operationId = id) with
  | none =>
    simp only [hr, ok_rules] at h
    obtain ⟨_, s1, h1, rfl, rfl⟩ := h
    exact clears_releaseSlots id (by simp [hr]) h1 hk
  | some r =>
    simp only [hr, ok_ite, ok_rules] at h
    rcases h with ⟨hs, _, s1, h1, rfl, rfl⟩ | ⟨hs, ⟨-, -, rfl⟩ | ⟨-, l, s1, hup, h⟩⟩
    · exact clears_releaseSlots id (by simpa [hr] using hs) h1 hk
    · exact ⟨.refl hk, .of_eq rfl⟩
    · have hrun : r.state = .running := not_not.1 hs
      split at h
      · exact absurd h ok_raise
      · simp only [ok_rules] at h
        obtain ⟨_, s2, hrel, rfl, rfl⟩ := h
        refine ⟨.of_finish hk hup hrel (fun _ => rfl) (fun r hp => (of_decide_eq_true hp).1) hr
          (by simp [id_of_find hr, hrun]) (by rw [hrun]; rfl) (ended_finish rfl), ?_⟩
        obtain ⟨-, -, rfl⟩ := ok_updateOperations.1 hup
        rw [ok_releaseSlots hrel]
        exact .of_update rfl (fun _ => rfl) fun _ => rfl

theorem clearing_expireExecutionLeasesLocked :
    Clearing (expireExecutionLeasesLocked now retention) :=
  clearing_bind (clearing_of_readOnly readOnly_get) fun _ =>
    clearing_bind (clearing_collect (clearing_expireExecutionLease now retention) _) fun _ =>
      clearing_of_readOnly (readOnly_pure _)

/-! ## Submission -/

/-- The store with an answer filed. -/
def Store.file (s : Store) (row : SubmissionRow) : Store :=
  { s with submissions := s.submissions ++ [row], draws := s.draws + 1 }

theorem insertSubmission_spec {id : Option Uuid} :
    (insertSubmission request now retention id code retryable retryAfterMs).Ok s u s' ↔
      let row := answerRow request (s.uuid4 s.draws) now retention id code retryable retryAfterMs
      (∀ r ∈ s.submissions, r.submissionResultId ≠ row.submissionResultId) ∧
        (∀ r ∈ s.submissions, ¬ r.Clash row) ∧ s' = s.file row := by
  simp only [insertSubmission, ok_rules, ok_uuid4, exists_eq_left', exists_const, all_eq_true,
    decide_eq_true_eq]
  exact and_congr_right' (and_congr_right' eq_comm)

/-- An answer may be filed for an operation that is there, or as a refusal. -/
theorem subsides_insertSubmission
    {id : Option Uuid} (known : ∀ x, id = some x → ∃ o ∈ s.cards, o.operationId = x)
    (h : (insertSubmission request now retention id code retryable retryAfterMs).Ok s u s')
    (hk : Keyed s) : Subsides s s' := by
  obtain ⟨-, hun, rfl⟩ := insertSubmission_spec.1 h
  exact .of_eq hk rfl rfl rfl (Nat.le_succ _) rfl rfl
    (.single (.record _ rfl rfl hun rfl known rfl rfl rfl))

theorem ok_insertCapture (h : (insertCapture id owner capture now).Ok s u s') :
    ∃ captures, { s with captures := captures } = s' := by
  unfold insertCapture at h
  split at h
  · obtain ⟨-, rfl⟩ := ok_pure.1 h; exact ⟨_, rfl⟩
  · exact absurd h ok_raise
  · obtain rfl := ok_modify.1 h; exact ⟨_, rfl⟩

theorem ok_insertOperation {a : OperationRecord} (h : (insertOperation r).Ok s a s') :
    (∀ o ∈ s.operations, o.operationId ≠ r.operationId) ∧ r.check ∧
      (∀ o ∈ s.cards, ¬ o.Clash r.card) ∧ r = a ∧
      { s with operations := s.operations ++ [r] } = s' := by
  simp only [insertOperation, ok_rules] at h
  obtain ⟨_, rfl, _, hid, _, -, _, -, _, hu, _, hc, _, _, rfl, rfl, rfl⟩ := h
  refine ⟨by simpa using hid, hc, fun o ho hclash => ?_, rfl, rfl⟩
  obtain ⟨o, hmem, rfl⟩ := mem_map.1 ho
  obtain ⟨hsome, hp, hn, hkey⟩ := hclash
  have hr : r.card.idempotencyNamespace.isSome := hn ▸ hsome
  simp only [Bool.or_eq_true, Option.isNone_iff_eq_none, all_eq_true, decide_eq_true_eq] at hu
  rcases hu with hu | hu
  · rw [OperationRecord.card, hu] at hr; cases hr
  · exact hu o hmem ⟨hp, hn, hkey⟩

theorem files_admitted {row : SubmissionRow}
    (unclaimed : ∀ o ∈ s.cards, ¬ o.Clash r.card) (ho : s1.operations = s.operations ++ [r])
    (hsub : s1.submissions = s.submissions) (hu : s1.uuid4 = s.uuid4) (hd : s.draws ≤ s1.draws)
    (unanswered : ∀ r ∈ s1.submissions, ¬ r.Clash row)
    (outcome : row.accepted = row.operationId.isSome) (hid : row.operationId = some r.operationId)
    (drawn : row.submissionResultId = s1.uuid4 s1.draws) : Files s (s1.file row) := by
  have hcards : s1.cards = s.cards ++ [r.card] := by
    rw [Store.cards, ho, map_append]
    rfl
  refine .tail (.single (.insert r.card hcards unclaimed hsub hu hd))
    (.record row rfl rfl unanswered outcome ?_ drawn rfl rfl)
  intro id heq
  refine ⟨r.card, by rw [hcards]; exact mem_append_right _ (mem_singleton_self _), ?_⟩
  exact Option.some.inj (hid.symm.trans heq)

section Insert

theorem row_insert_absent (h : ∀ o ∈ s.operations, o.operationId ≠ r.operationId) :
    s.operations.find? (·.operationId = r.operationId) = none := by
  simpa using h

theorem Evolves.of_insert (hk : Keyed s)
    (habsent : ∀ o ∈ s.operations, o.operationId ≠ r.operationId)
    (ho : s'.operations = s.operations ++ [r]) (hc : s'.configs = s.configs)
    (hcl : s'.classes = s.classes) (hu : s'.uuid4 = s.uuid4) (hd : s.draws ≤ s'.draws)
    (hkeys : s'.slots.map SlotRow.key = s.slots.map SlotRow.key)
    (hothers : ∀ j, j ≠ r.operationId → heldBy s'.slots j = heldBy s.slots j)
    (hstep : OpStep s.configs (Fresh s.uuid4 s.draws s'.draws) r.operationId
      ⟨none, heldBy s.slots r.operationId⟩ ⟨some r, heldBy s'.slots r.operationId⟩) :
    Evolves s s' where
  configs := hc
  classes := hcl
  uuid4 := hu
  draws := hd
  keyed := by
    rw [Keyed, ho, List.map_append, List.map_singleton]
    refine Nodup.append hk (List.nodup_singleton _) fun u hu hv => ?_
    obtain ⟨o, ho, rfl⟩ := mem_map.1 hu
    exact habsent o ho (mem_singleton.1 hv)
  slots := by rw [hkeys]
  views j := by
    by_cases hj : j = r.operationId
    · subst hj
      have hrow : (s.operations ++ [r]).find? (·.operationId = r.operationId) = some r := by
        rw [find?_append, row_insert_absent habsent]; simp
      simp only [Store.view, ho, row_insert_absent habsent, hrow]
      exact .single hstep
    · simp only [Store.view, ho, find?_append, find?_singleton, hothers j hj]
      rw [if_neg (by simp [Ne.symm hj]), Option.or_none]

end Insert

theorem leased_of_tokens {new : List SlotRow} {tokens : List Uuid} {expiresAt : Time}
    (ht : new.map (·.leaseToken) = tokens.map some)
    (hl : ∀ slot ∈ new, slot.operationId = some id ∧ 0 < slot.claimGeneration ∧
      slot.leaseExpiresAt = some expiresAt) {slot : SlotRow} (hs : slot ∈ new) :
    ∃ t ∈ tokens, Leased id t slot := by
  have hm : slot.leaseToken ∈ tokens.map some := by
    rw [← ht]; exact mem_map_of_mem hs
  obtain ⟨t, htt, he⟩ := mem_map.1 hm
  exact ⟨t, htt, (hl slot hs).1, he.symm, (hl slot hs).2.1⟩

def voiceRunning (s : Store) (user : Option String) : ℕ :=
  s.operations.countP fun r => r.admissionClass = .voiceInteractive ∧ r.ownerScope = .user ∧
    r.ownerUserId = user ∧ r.state = .running

/-- The operation `r` of a request is admitted: it runs if every class of its chain has room, and
    it waits if its class may queue. -/
structure Admits (s s' : Store) (request : OperationRequest) (r : OperationRecord) : Prop extends
    Proceeds s s' where
  operations : s'.operations = s.operations ++ [r]
  admissionClass : r.admissionClass = request.admissionClass
  owner : r.ownerScope = request.owner.ownerScope ∧ r.ownerUserId = request.owner.ownerUserId
  voice : r.state = .running → request.admissionClass = .voiceInteractive →
    voiceRunning s request.owner.ownerUserId < voiceInteractivePerUserActiveLimit
  room : r.state = .running →
    ∃ members, chainOf s.configs r.admissionClass = .ok members ∧ Room s members
  queued : r.state = .queued →
    ∃ config : AdmissionClassConfig, config.className = r.admissionClass ∧ 0 < config.queueLimit
  live : r.state = .queued ∨ r.state = .running

/-- The result is what the answer on file says. -/
def SubmissionRow.Answers (row : SubmissionRow) : AdmissionResult → Prop
  | .accepted a => row.operationId = some a.operationId
  | .refused r => row.operationId = none ∧
      r = ⟨row.refusalCode.getD "None", row.retryable, row.retryAfterMs⟩

/-- The answer of a request is on file, and an acceptance shows an operation of the table. -/
structure Recorded (request : OperationRequest) (s : Store) (a : AdmissionResult) : Prop where
  filed : ∃ row ∈ s.submissions, row.submissionId = request.submissionId ∧
    row.partition = ownerPartition request.owner.ownerScope request.owner.ownerUserId
      request.owner.connectionScopeId ∧ row.Answers a
  shown : ∀ b, a = .accepted b → ∃ o ∈ s.operations, ∃ created, (accepted o created).Ok s a s

theorem accepted_recorded {created : Bool} (ho : operation ∈ s.operations)
    (hid : operation.operationId = id)
    (h1 : (insertSubmission request now retention (some id)).Ok s u s1)
    (h2 : (accepted operation created).Ok s1 a s') : Recorded request s' a := by
  subst hid
  obtain ⟨-, -, rfl⟩ := insertSubmission_spec.1 h1
  obtain rfl := readOnly_accepted.ok h2
  refine ⟨⟨_, mem_append_right _ (mem_singleton_self _), rfl, rfl, ?_⟩,
    fun _ _ => ⟨operation, ho, created, h2⟩⟩
  obtain ⟨_, _, -, h⟩ := ok_bind.1 h2
  obtain ⟨rfl, -⟩ := ok_pure.1 h
  rfl

theorem insertRunning_spec
    (hsel : chainOf s.configs request.admissionClass = .ok (selected.map Prod.fst))
    (hroom : Room s (selected.map Prod.fst)) (hvoice : request.admissionClass = .voiceInteractive →
      voiceRunning s request.owner.ownerUserId < voiceInteractivePerUserActiveLimit)
    (h : (insertRunning request owner capture selected now retention slotLease).Ok s a s')
    (hk : Keyed s) : (∃ r, Admits s s' request r) ∧ Recorded request s' a := by
  simp only [insertRunning, ok_rules, ok_uuid4] at h
  obtain ⟨_, rfl, _, rfl, operation, s1, h1, _, s2, h2, _, s3, h3, _, s4, h4, h5⟩ := h
  obtain ⟨hid, hc, hunclaimed, rfl, rfl⟩ := ok_insertOperation h1
  obtain ⟨captures, rfl⟩ := ok_insertCapture h2
  obtain ⟨ho, hd⟩ := occupySlots_spec h3
  have hops := congrArg Store.operations ho.store
  have hrecorded : Recorded request s' a := by
    refine accepted_recorded ?_ rfl h4 h5
    rw [hops]
    exact mem_append_right _ mem_cons_self
  obtain ⟨-, hunanswered, rfl⟩ := insertSubmission_spec.1 h4
  obtain rfl := readOnly_accepted.ok h5
  obtain ⟨new, hp, hcl, ht, hl⟩ := ho.gained
  have hheld : (↑(heldBy s3.slots (s.uuid4 s.draws)) : Multiset SlotRow) =
      ↑(heldBy s.slots (s.uuid4 s.draws)) + ↑new := by
    rw [Multiset.coe_add, Multiset.coe_eq_coe]
    exact hp.trans perm_append_comm
  have hsubmissions := congrArg Store.submissions ho.store
  have hconfigs := congrArg Store.configs ho.store
  have hclasses := congrArg Store.classes ho.store
  have huuid4 := congrArg Store.uuid4 ho.store
  have hdraws : s.draws ≤ s3.draws := by simp only [hd]; omega
  refine ⟨⟨_, ⟨.of_insert hk hid hops hconfigs hclasses huuid4 (hdraws.trans (Nat.le_succ _)) ho.keys
    ho.others ?_, files_admitted hunclaimed hops hsubmissions huuid4 hdraws hunanswered rfl rfl rfl⟩,
    hops, rfl, ⟨rfl, rfl⟩, fun _ => hvoice, fun _ => ⟨_, hsel, hroom⟩, (fun h => by cases h), .inr rfl⟩,
    hrecorded⟩
  · show OpStep _ _ _ _ ⟨_, ↑(heldBy s3.slots (s.uuid4 s.draws))⟩
    rw [hheld]
    have hid' : Fresh s.uuid4 s.draws (s3.draws + 1) (s.uuid4 s.draws) :=
      ⟨s.draws, le_rfl, by simp only [hd]; omega, rfl⟩
    have htoken : Fresh s.uuid4 s.draws (s3.draws + 1) (s.uuid4 (s.draws + 1)) :=
      ⟨s.draws + 1, Nat.le_succ _, by simp only [hd]; omega, rfl⟩
    refine .start rfl hid' rfl hc rfl rfl htoken hsel ?_ ?_
    · rw [Multiset.map_coe, hcl]
    · intro slot hslot
      obtain ⟨t, htt, hlt⟩ := leased_of_tokens ht hl (Multiset.mem_coe.1 hslot)
      rw [eq_of_mem_replicate htt] at hlt
      exact hlt

theorem insertQueued_spec {maxWaitMs : ℕ}
    (hqueue : ∃ config : AdmissionClassConfig, config.className = request.admissionClass ∧
      0 < config.queueLimit)
    (h : (insertQueued request owner capture maxWaitMs now retention).Ok s a s') (hk : Keyed s) :
    (∃ r, Admits s s' request r) ∧ Recorded request s' a := by
  simp only [insertQueued, ok_rules, ok_uuid4] at h
  obtain ⟨_, rfl, operation, s1, h1, _, s2, h2, _, s3, h3, h4⟩ := h
  obtain ⟨hid, hc, hunclaimed, rfl, rfl⟩ := ok_insertOperation h1
  obtain ⟨captures, rfl⟩ := ok_insertCapture h2
  have hrecorded : Recorded request s' a :=
    accepted_recorded (mem_append_right _ mem_cons_self) rfl h3 h4
  obtain ⟨-, hunanswered, rfl⟩ := insertSubmission_spec.1 h3
  obtain rfl := readOnly_accepted.ok h4
  refine ⟨⟨_, ⟨.of_insert hk hid rfl rfl rfl rfl ?_ rfl (fun _ _ => rfl) ?_,
    files_admitted hunclaimed rfl rfl rfl (Nat.le_succ _) hunanswered rfl rfl rfl⟩,
    rfl, rfl, ⟨rfl, rfl⟩, (fun h => by cases h), (fun h => by cases h), fun _ => hqueue, .inl rfl⟩,
    hrecorded⟩
  · exact (Nat.le_succ _).trans (Nat.le_succ _)
  · refine .enqueue rfl ⟨s.draws, le_rfl, ?_, rfl⟩ rfl hc rfl
    exact Nat.lt_succ_of_le (Nat.le_succ _)

theorem cleared_insertSubmission {id : Option Uuid}
    (h : (insertSubmission request now retention id code retryable retryAfterMs).Ok s u s') :
    Cleared s s' := by
  obtain ⟨-, -, rfl⟩ := insertSubmission_spec.1 h
  exact .of_eq rfl

theorem refusal_spec (hk : Keyed s)
    (h : (insertSubmission request now retention none code retryable retryAfterMs >>= fun _ =>
      pure (.refused ⟨code.getD "None", retryable, retryAfterMs⟩)).Ok s a s') :
    (Subsides s s' ∧ Cleared s s') ∧ Recorded request s' a := by
  obtain ⟨_, s1, h1, h2⟩ := ok_bind.1 h
  obtain ⟨rfl, rfl⟩ := ok_pure.1 h2
  refine ⟨⟨subsides_insertSubmission (by simp) h1 hk, cleared_insertSubmission h1⟩, ?_, fun b h => ?_⟩
  · obtain ⟨-, -, rfl⟩ := insertSubmission_spec.1 h1
    exact ⟨_, mem_append_right _ (mem_singleton_self _), rfl, rfl, rfl, rfl⟩
  · cases h

theorem decideAdmission_spec {config : AdmissionClassConfig}
    (hconfig : config.className = request.admissionClass)
    (h : (decideAdmission request config owner capture now retention slotLease locked).Ok s a s')
    (hk : Keyed s) : ((Subsides s s' ∧ Cleared s s') ∨ ∃ r, Admits s s' request r) ∧
      Recorded request s' a := by
  simp only [decideAdmission, ok_rules, ok_ite] at h
  obtain ⟨_, rfl, ⟨-, h⟩ | ⟨hvoice, selected, s1, hsel, h⟩⟩ := h
  · exact (refusal_spec hk h).imp_left .inl
  · cases selected with
    | some =>
      obtain ⟨hchain, hroom, rfl⟩ := selectFreeSlots_spec hsel
      exact (insertRunning_spec hchain hroom
        (fun hv => not_le.1 fun hle => hvoice ⟨hv, hle⟩) h hk).imp_left .inr
    | none =>
      obtain rfl := (readOnly_selectFreeSlots _).ok hsel
      simp only [ok_ite] at h
      rcases h with ⟨-, h⟩ | ⟨hroom, ⟨-, h⟩ | ⟨-, h⟩⟩
      · exact (refusal_spec hk h).imp_left .inl
      · exact absurd h ok_raise
      · exact (insertQueued_spec ⟨config, hconfig, Nat.zero_lt_of_lt (not_le.1 hroom)⟩ h hk).imp_left
          .inr

theorem replayIdempotent_spec (hmem : operation ∈ s.operations)
    (h : (replayIdempotent request operation now retention).Ok s a s') (hk : Keyed s) :
    (Subsides s s' ∧ Cleared s s') ∧ Recorded request s' a := by
  unfold replayIdempotent at h
  split at h
  · exact refusal_spec hk h
  · obtain ⟨_, s1, h1, h2⟩ := ok_bind.1 h
    have hrecorded := accepted_recorded hmem rfl h1 h2
    obtain rfl := readOnly_accepted.ok h2
    refine ⟨⟨subsides_insertSubmission ?_ h1 hk, cleared_insertSubmission h1⟩, hrecorded⟩
    rintro _ ⟨⟩
    exact ⟨_, mem_map_of_mem hmem, rfl⟩

theorem admitOperation_spec (hk : Keyed s)
    (h : (admitOperation gate request retry owner now retention slotLease locked).Ok s a s') :
    ((Subsides s s' ∧ Cleared s s') ∨
      ∃ s1 r, Subsides s s1 ∧ Cleared s s1 ∧ Admits s1 s' request r) ∧ Recorded request s' a := by
  simp only [admitOperation, ok_rules] at h
  obtain ⟨capture, s1, h1, _, rfl, h⟩ := h
  obtain rfl := readOnly_admissionCapture.ok h1
  split at h
  · exact absurd h ok_raise
  rename_i config hconfig
  simp only [ok_bind] at h
  obtain ⟨_, s1, hlock, _, s2, hq, _, s3, hex, h⟩ := h
  obtain rfl := readOnly_lockClassChain.ok hlock
  obtain ⟨hs3, hcleared⟩ := clearing_bind clearing_expireQueuedLocked
    (fun _ => clearing_expireExecutionLeasesLocked) _ _ _ (ok_bind.2 ⟨_, _, hq, hex⟩) hk
  have hclass : config.className = request.admissionClass := by simpa using List.find?_some hconfig
  refine (decideAdmission_spec hclass h hs3.keyed).imp_left ?_
  rintro (⟨h, hc⟩ | ⟨r, h⟩)
  · exact .inl ⟨hs3.trans h, hcleared.trans hc⟩
  · exact .inr ⟨s3, r, hs3, hcleared, h⟩

theorem mem_of_existing (h : (existingIdempotentOperation request).Ok s (some operation) s') :
    operation ∈ s.operations := by
  simp only [existingIdempotentOperation, ok_rules, ok_ite] at h
  obtain ⟨_, rfl, ⟨-, h, -⟩ | ⟨-, h, -⟩⟩ := h
  · cases h
  · exact mem_of_find?_eq_some h

/-- **A submission** answers without an operation, or admits one into the store that the expiries
    leave; it files its answer, or repeats the one on file. -/
theorem submitWith_spec (hk : Keyed s)
    (h : (submitWith gate request retry now retention slotLease locked).Ok s a s') :
    ((Subsides s s' ∧ Cleared s s') ∨
      ∃ s1 r, Subsides s s1 ∧ Cleared s s1 ∧ Admits s1 s' request r) ∧
    (Recorded request s' a ∨ ∃ row, (submissionRow request.owner request.submissionId).Ok s
      (some row) s' ∧ (replaySubmission row).Ok s' a s') := by
  simp only [submitWith, ok_bind] at h
  obtain ⟨_, s1, h1, _, s2, h2, owner, s3, h3, row, s4, h4, h⟩ := h
  obtain rfl := readOnly_validatedDuration.ok h1
  obtain rfl := readOnly_validatedDuration.ok h2
  obtain rfl := readOnly_lockAdmissionRequest.ok h3
  obtain rfl := readOnly_submissionRow.ok h4
  cases row with
  | some row =>
    obtain rfl := (readOnly_replaySubmission row).ok h
    exact ⟨.inl ⟨.refl hk, .of_eq rfl⟩, .inr ⟨row, h4, h⟩⟩
  | none =>
    obtain ⟨found, s1, hf, h⟩ := ok_bind.1 h
    have hs := readOnly_existingIdempotentOperation.ok hf
    subst hs
    cases found with
    | none => exact (admitOperation_spec hk h).imp_right .inl
    | some => exact (replayIdempotent_spec (mem_of_existing hf) h hk).imp .inl .inl

theorem evolving_submitWith :
    Evolving (submitWith gate request retry now retention slotLease locked) := by
  intro s a s' h hk
  rcases (submitWith_spec hk h).1 with ⟨h, -⟩ | ⟨s1, r, h1, -, h2⟩
  · exact h.toProceeds
  · exact h1.toProceeds.trans h2.toProceeds

end AstralPlane.WorkAdmission
