/-
  Every call of the repository keeps to the protocol of one operation.

  `exec_evolving`: a call that returns evolves the store and files its answers;
  `commit_proceeds` adds the calls that raise, which change nothing, and
  `run_proceeds` is the induction over runs.
-/
import AstralPlane.WorkAdmission.Claims

namespace AstralPlane.WorkAdmission

open Relation Tx List

variable {s s' : Store}
variable {fence : ExecutionFence} {r : OperationRecord} {u : Unit} {id : Uuid} {ids : List Uuid}
  {call : Call}
variable {state : OperationState} {now retention slotLease : Time} {summary : Option String}
  {retryAfterMs : Option Int} {limit : ℕ} {locked : Locked}
variable {code : Option String} {owner : OperationOwner}

/-! ## Ends of operations -/

theorem not_terminal_iff : ¬ state.isTerminal ↔ state = .queued ∨ state = .running := by
  cases state <;> simp [OperationState.isTerminal]

theorem subsiding_cancel {code : String} {requestRunning : Bool} :
    Subsiding (cancel owner id code now retention requestRunning) := by
  refine subsiding_readOnly_bind readOnly_validatedCode fun _ =>
    subsiding_readOnly_bind readOnly_validatedDuration fun _ => ?_
  intro s a s' h hk
  simp only [ok_rules, ok_getOperationRecord] at h
  obtain ⟨row, hrow, h⟩ := h
  cases row with
  | none => exact absurd h ok_raise
  | some r =>
    have hr := (hk.find_and hrow).1
    simp only [ok_rules, ok_ite, ok_chain] at h
    obtain ⟨_, s1, hlock, h⟩ := h
    obtain rfl := readOnly_lockClassChain.ok hlock
    rcases h with ⟨-, -, rfl⟩ | ⟨hlive, members, -, _, rfl, h⟩
    · exact .refl hk
    have hstate := not_terminal_iff.1 (not_or.1 hlive).1
    rcases h with ⟨-, l, s2, hup, h⟩ | ⟨hq, ⟨-, -, rfl⟩ | ⟨-, l, s2, hup, h⟩⟩
    · -- queued or pre-selected: the operation ends here
      split at h
      · exact absurd h ok_raise
      simp only [ok_rules] at h
      obtain ⟨_, s3, hrel, -, rfl⟩ := h
      exact .of_finish hk hup hrel (fun _ => rfl) (fun o ho => (of_decide_eq_true ho).1) hr
        (by simp [id_of_find hr, hstate]) (by simpa using (not_or.1 hlive).1)
        ⟨rfl, _, _, _, _, _, _, _, _, _, rfl⟩
    · exact .refl hk
    · -- a worker has the operation: it is asked to stop
      obtain ⟨hc, rfl, rfl⟩ := ok_updateOperations.1 hup
      have hrun : r.state = .running := hstate.resolve_left (not_or.1 hq).1
      have hpr : decide (r.operationId = id ∧ r.state = .running) := by
        simp [id_of_find hr, hrun]
      split at h
      · exact absurd h ok_raise
      obtain ⟨-, rfl⟩ := ok_pure.1 h
      refine Subsides.of_update (f := OperationRecord.requestCancel now) hk (fun _ => rfl)
        (fun o ho => (of_decide_eq_true ho).1) hr hpr le_rfl (.refl _) (fun _ _ => rfl) ?_
      exact .touch hrun ⟨_, _, _, _, _, rfl⟩ (hc r (mem_of_find hr) hpr)

theorem subsiding_terminalizeUnselected {code : String} :
    Subsiding (terminalizeUnselected id code summary retryAfterMs now retention) := by
  refine subsiding_readOnly_bind readOnly_validatedTerminalPayload fun _ =>
    subsiding_readOnly_bind readOnly_validatedDuration fun _ => ?_
  intro s a s' h hk
  simp only [ok_rules, ok_operationRow] at h
  obtain ⟨row, hr, h⟩ := h
  cases row with
  | none => obtain ⟨-, rfl⟩ := ok_pure.1 h; exact .refl hk
  | some =>
    simp only [ok_rules, ok_ite, ok_chain] at h
    obtain ⟨_, s1, hlock, h⟩ := h
    obtain rfl := readOnly_lockClassChain.ok hlock
    rcases h with ⟨-, -, rfl⟩ | ⟨hlive, members, -, _, rfl, h⟩
    · exact .refl hk
    rcases h with ⟨-, -, rfl⟩ | ⟨-, l, s2, hup, h⟩
    · exact .refl hk
    split at h
    · exact absurd h ok_raise
    simp only [ok_rules] at h
    obtain ⟨_, s3, hrel, -, rfl⟩ := h
    exact .of_finish hk hup hrel (fun _ => rfl) (fun o ho => (of_decide_eq_true ho).1) hr
      (by simp [id_of_find hr]) (by simpa using hlive) (ended_finish rfl)

theorem selects_iff :
    fence.selects r ↔ r.operationId = fence.operationId ∧ fenceMatches r fence := by
  simp [ExecutionFence.selects]

theorem fenceMatches_iff : fenceMatches r fence ↔ r.state = .running ∧
      r.executionGeneration = fence.executionGeneration ∧
      r.executionLeaseToken = some fence.executionLeaseToken := by
  simp [fenceMatches, and_assoc]

theorem subsiding_terminalize :
    Subsiding (terminalize fence state code summary retryAfterMs now retention) := by
  intro s a s' h hk
  simp only [terminalize, ok_rules, ok_operationRow] at h
  obtain ⟨_, s0, hpay, _, s1, hdur, row, hr, h⟩ := h
  obtain rfl := readOnly_validatedTerminalPayload.ok hpay
  simp only [validatedTerminalPayload, ok_bind, ok_require] at hpay
  obtain ⟨_, _, ⟨hterm, -⟩, -⟩ := hpay
  obtain rfl := readOnly_validatedDuration.ok hdur
  cases row with
  | none => exact absurd h ok_raise
  | some =>
    simp only [ok_rules, ok_ite] at h
    rcases h with ⟨-, -, rfl⟩ | ⟨hlive, _, hm, l, s2, hup, h⟩
    · exact .refl hk
    split at h
    · exact absurd h ok_raise
    simp only [ok_rules] at h
    obtain ⟨_, s3, hrel, -, rfl⟩ := h
    exact .of_finish hk hup hrel (fun _ => rfl) (fun o ho => (selects_iff.1 ho).1) hr
      (selects_iff.2 ⟨id_of_find hr, hm⟩) (by simpa using hlive) (ended_finish hterm)

/-! ## Calls under an execution fence -/

theorem ok_renewSlots {expiresAt : Time} (h : (renewSlots fence r expiresAt).Ok s u s') : { s with
      slots := updateWhere (·.operationId = some fence.operationId)
        (SlotRow.relabel (s.uuid4 s.draws) expiresAt) s.slots
      draws := s.draws + 1 } = s' := by
  simp only [renewSlots, ok_rules, ok_uuid4, ok_chain] at h
  obtain ⟨_, rfl, n, s1, hup, members, -, -, rfl⟩ := h
  obtain ⟨-, -, rfl⟩ := ok_updateSlots.1 hup
  rfl

theorem heldBy_renew (id token : Uuid) (expiresAt : Time) (slots : List SlotRow) :
    heldBy (updateWhere (·.operationId = some id) (SlotRow.relabel token expiresAt) slots) id =
      (heldBy slots id).map (SlotRow.relabel token expiresAt) := by
  rw [heldBy_relabel]
  refine map_congr_left fun slot hslot => ?_
  rw [if_pos (of_mem_filter hslot)]

theorem subsiding_renewExecutionLease : Subsiding (renewExecutionLease fence now slotLease) := by
  refine subsiding_readOnly_bind readOnly_validatedDuration fun _ => ?_
  intro s a s' h hk
  simp only [ok_rules, ok_assertCurrentExecutionSession] at h
  obtain ⟨r, _, ⟨hr, hm, rfl⟩, _, s1, hren, -, rfl⟩ := h
  obtain rfl := ok_renewSlots hren
  refine .of_step fence.operationId hk rfl rfl rfl (Nat.le_succ _)
    (by rw [keys_relabel]) (fun j hj => ?_) ?_ rfl rfl
  · simp only [Store.view]
    rw [heldBy_relabel_other _ fun slot hid => by simp [hid, hj]]
  · simp only [Store.view, heldBy_renew, hr, ← Multiset.map_coe]
    exact .renew (fenceMatches_iff.1 hm).1 ⟨s.draws, le_rfl, Nat.lt_succ_self _, rfl⟩

theorem subsiding_reselectExecution : Subsiding (reselectExecution fence now slotLease) := by
  refine subsiding_readOnly_bind readOnly_validatedDuration fun _ => ?_
  intro s a s' h hk
  simp only [ok_rules, ok_assertCurrentExecutionSession, ok_uuid4] at h
  obtain ⟨r, _, ⟨hr, hm, rfl⟩, _, rfl, l, s1, hup, h⟩ := h
  obtain ⟨hc, rfl, rfl⟩ := ok_updateOperations.1 hup
  split at h
  · exact absurd h ok_raise
  simp only [ok_bind] at h
  obtain ⟨_, s2, hren, hf⟩ := h
  obtain rfl := ok_renewSlots hren
  obtain ⟨-, -, -, rfl⟩ := ok_executionFence hf
  have hpr : fence.selects r := selects_iff.2 ⟨id_of_find hr, hm⟩
  refine Subsides.of_update (f := OperationRecord.reselect (s.uuid4 s.draws) now) hk (fun _ => rfl)
    (fun o ho => (selects_iff.1 ho).1) hr hpr ?_ (by rw [keys_relabel])
    (fun j hj => heldBy_relabel_other _ fun slot hid => by simp [hid, hj]) ?_
  · exact (Nat.le_succ _).trans (Nat.le_succ _)
  · rw [heldBy_renew, ← Multiset.map_coe]
    refine .reselect (fenceMatches_iff.1 hm).1 ⟨_, rfl⟩ (hc r (mem_of_find hr) hpr)
      ⟨s.draws, le_rfl, ?_, rfl⟩ ⟨s.draws + 1, Nat.le_succ _, Nat.lt_succ_self _, rfl⟩
    exact Nat.lt_succ_of_le (Nat.le_succ _)

theorem subsiding_updateFenced {p : OperationRecord → Bool}
    {f : OperationRecord → OperationRecord} (hf : ∀ r, Touched r (f r)) :
    Subsiding (updateFenced fence p f) := by
  intro s a s' h hk
  simp only [updateFenced, ok_bind] at h
  obtain ⟨l, s1, hup, h⟩ := h
  obtain ⟨hc, rfl, rfl⟩ := ok_updateOperations.1 hup
  have hs : { s with operations := updateWhere (fun r => fence.selects r && p r) f s.operations }
      = s' := by
    split at h
    · exact absurd h ok_raise
    · exact (ok_pure.1 h).2
  subst hs
  refine .of_updates hk (fun r => (hf r).card) fun r hr hp _ => ?_
  have hsel := selects_iff.1 (Bool.and_eq_true_iff.1 hp).1
  exact .touch (fenceMatches_iff.1 hsel.2).1 (hf r) (hc r hr hp)

theorem subsiding_bindHarnessProfile {identity : HarnessProfileIdentity} :
    Subsiding (bindHarnessProfile owner fence identity now) := by
  refine subsiding_readOnly_bind (readOnly_getOperationRecord _ _) fun row => ?_
  cases row with
  | none => exact subsiding_of_readOnly (readOnly_raise _)
  | some =>
    refine subsiding_readOnly_bind (readOnly_require _ _) fun _ =>
      subsiding_readOnly_bind readOnly_getHarnessCapture fun _ =>
        subsiding_readOnly_bind (readOnly_require _ _) fun _ => ?_
    intro s a s' h hk
    simp only [ok_rules] at h
    obtain ⟨_, rfl, h⟩ := h
    split at h
    · simp only [ok_rules] at h
      obtain ⟨_, -, -, rfl⟩ := h
      exact .refl hk
    · obtain ⟨_, _, rfl, -, rfl⟩ := h
      exact .of_eq hk rfl rfl rfl le_rfl rfl rfl (files_keep rfl rfl rfl le_rfl)

/-! ## Retention -/

theorem ok_deleteOperations (h : (deleteOperations ids).Ok s u s') :
    s'.configs = s.configs ∧ s'.classes = s.classes ∧ s'.uuid4 = s.uuid4 ∧ s'.draws = s.draws ∧
      s'.operations = ((s.operations.filter (·.operationId ∉ ids)).map fun r =>
        { r with parentOperationId := r.parentOperationId.filter (· ∉ ids) }) ∧
      s'.slots = (s.slots.map fun r => { r with operationId := r.operationId.filter (· ∉ ids) }) ∧
      s'.submissions = s.submissions.map fun r =>
        { r with operationId := r.operationId.filter (· ∉ ids) } := by
  simp only [deleteOperations, ok_rules] at h
  obtain ⟨_, rfl, _, -, rfl⟩ := h
  exact ⟨rfl, rfl, rfl, rfl, rfl, rfl, rfl⟩

theorem heldBy_cleared (h : id ∈ ids) (slots : List SlotRow) :
    heldBy (slots.map fun r => { r with operationId := r.operationId.filter (· ∉ ids) }) id = [] := by
  refine filter_eq_nil_iff.2 fun r hr => ?_
  obtain ⟨r0, -, rfl⟩ := mem_map.1 hr
  simp [Option.filter_eq_some_iff, h]

theorem heldBy_kept (h : id ∉ ids) (slots : List SlotRow) :
    heldBy (slots.map fun r => { r with operationId := r.operationId.filter (· ∉ ids) }) id =
      heldBy slots id := by
  rw [heldBy, filter_map, heldBy]
  have hq : slots.filter ((fun r : SlotRow => decide (r.operationId = some id)) ∘ fun r =>
      { r with operationId := r.operationId.filter (· ∉ ids) }) =
        slots.filter (·.operationId = some id) := by
    refine filter_congr fun r _ => ?_
    by_cases hr : r.operationId = some id <;> simp [hr, h]
  rw [hq]
  conv_rhs => rw [← map_id (slots.filter _)]
  refine map_congr_left fun r hr => ?_
  cases r
  simp_all [Option.filter_some]

theorem row_deleted (h : id ∈ ids) (rows : List OperationRecord) :
    ((rows.filter (·.operationId ∉ ids)).map fun r =>
      { r with parentOperationId := r.parentOperationId.filter (· ∉ ids) }).find?
        (·.operationId = id) = none := by
  simp only [List.find?_eq_none, mem_map, mem_filter]
  rintro _ ⟨r, ⟨-, hr⟩, rfl⟩ hid
  exact (of_decide_eq_true hr) (by rw [of_decide_eq_true hid]; exact h)

theorem row_undeleted (h : id ∉ ids) (rows : List OperationRecord) :
    ((rows.filter (·.operationId ∉ ids)).map fun r =>
      { r with parentOperationId := r.parentOperationId.filter (· ∉ ids) }).find?
        (·.operationId = id) = (rows.find? (·.operationId = id)).map fun r =>
          { r with parentOperationId := r.parentOperationId.filter (· ∉ ids) } := by
  rw [List.find?_map, List.find?_filter]
  congr 2
  funext r
  by_cases hr : r.operationId = id <;> simp [hr, h]

/-- Deleting terminal operations is `forget` for each of them, and `orphan` for their children. -/
theorem steps_deleteOperations (hk : Keyed s)
    (hids : ∀ id ∈ ids, ∃ r ∈ s.operations, r.operationId = id ∧ r.state.isTerminal)
    (h : (deleteOperations ids).Ok s u s') {fresh : Uuid → Prop} (id : Uuid) :
    ReflGen (OpStep s.configs fresh id) (s.view id) (s'.view id) := by
  obtain ⟨-, -, -, -, hops, hslots, -⟩ := ok_deleteOperations h
  simp only [Store.view, hops, hslots]
  by_cases hid : id ∈ ids
  · obtain ⟨r, hr, hrid, hterm⟩ := hids id hid
    rw [row_deleted hid, heldBy_cleared hid, hk.find.2 ⟨hr, hrid⟩]
    exact .single (.forget hterm)
  · rw [row_undeleted hid, heldBy_kept hid]
    cases s.operations.find? (·.operationId = id) with
    | none => exact .refl
    | some r =>
      rw [Option.map_some]
      cases hp : r.parentOperationId with
      | none => rw [Option.filter_none, ← hp]
      | some parent =>
        by_cases hpi : parent ∈ ids
        · rw [Option.filter_some, if_neg (by simpa using hpi)]
          exact .single .orphan
        · rw [Option.filter_some, if_pos (by simpa using hpi), ← hp]

theorem readOnly_assertOptionalFence (fence : Option ExecutionFence) :
    (assertOptionalFence fence).ReadOnly := by
  cases fence with
  | none => exact readOnly_pure _
  | some fence =>
    exact readOnly_bind (readOnly_assertCurrentExecutionSession fence) fun _ => readOnly_pure _

/-- An operation with an accepted answer is not purged. -/
theorem unreferenced_purgeable {gone : List OperationRecord}
    (hgone : ∀ r ∈ gone, r ∈ s.operations ∧ purgeableOperation s now r) :
    ∀ row ∈ s.submissions, row.accepted →
      ∀ id, row.operationId = some id → id ∉ gone.map (·.operationId) := by
  intro row hrow hacc id hid hmem
  obtain ⟨r, hr, rfl⟩ := mem_map.1 hmem
  refine (of_decide_eq_true (hgone r hr).2).2.2 ?_
  exact any_eq_true.2 ⟨row, hrow, decide_eq_true ⟨hacc, hid⟩⟩

theorem mem_purged {order : OperationRecord → OperationRecord → Prop} [DecidableRel order]
    (h : r ∈ ((s.operations.filter fun r => !locked.operations r.operationId &&
      purgeableOperation s now r).insertionSort order).take limit) :
    r ∈ s.operations ∧ purgeableOperation s now r :=
  (mem_candidates h).imp_right fun hp => (Bool.and_eq_true_iff.1 hp).2

theorem subsiding_purgeOperations : Subsiding (purgeOperations now limit locked) := by
  intro s a s' h hk
  simp only [purgeOperations, ok_rules] at h
  obtain ⟨_, rfl, _, s1, hdel, -, rfl⟩ := h
  obtain ⟨hc, hcl, hu, hd, hops, hslots, hsubmissions⟩ := ok_deleteOperations hdel
  have hcards : ∀ ids : List Uuid, s1.operations = ((s.operations.filter (·.operationId ∉ ids)).map fun r =>
      { r with parentOperationId := r.parentOperationId.filter (· ∉ ids) }) →
      s1.cards = s.cards.filter (·.operationId ∉ ids) := by
    intro ids hops
    simp only [Store.cards, hops, List.map_map, List.filter_map]
    rfl
  refine .of_steps ?_ hc hcl hu hd.ge ?_ (steps_deleteOperations hk (fun id hid => ?_) hdel) ?_
    (.single (.delete _ (hcards _ hops) hsubmissions ?_ hu hd))
  · rw [Keyed, hops, List.map_map]
    exact hk.sublist (List.filter_sublist.map _)
  · rw [hslots, List.map_map]; exact .refl _
  · obtain ⟨r, hr, rfl⟩ := List.mem_map.1 hid
    have hm := mem_purged hr
    exact ⟨r, hm.1, rfl, (of_decide_eq_true hm.2).1⟩
  · rw [hcards _ hops]
    exact List.filter_subset_self _
  · exact unreferenced_purgeable fun r => mem_purged

/-! ## All calls, and runs -/

/-- A submission, with or without the proof of a retry. -/
def Call.submission : Call → Option (HarnessGate × OperationRequest × Option RetryProof ×
    Time × Time × Time × Locked)
  | .submit gate request now retention slotLease locked =>
    some (gate, request, none, now, retention, slotLease, locked)
  | .submitRetry gate request proof now retention slotLease locked =>
    some (gate, request, some proof, now, retention, slotLease, locked)
  | _ => none

theorem exec_submission {gate : HarnessGate} {request : OperationRequest}
    {retry : Option RetryProof} {a : Reply}
    (hc : call.submission = some (gate, request, retry, now, retention, slotLease, locked))
    (h : (exec call).Ok s a s') : ∃ b, .admission b = a ∧
      (submitWith gate request retry now retention slotLease locked).Ok s b s' := by
  cases call with
  | submit | submitRetry =>
    obtain ⟨b, s1, hb, h⟩ := ok_bind.1 h
    obtain ⟨rfl, rfl⟩ := ok_pure.1 h
    cases hc
    exact ⟨b, rfl, hb⟩
  | _ => cases hc

theorem exec_subsiding (h : call.submission = none) : Subsiding (exec call) := by
  cases call with
  | submit | submitRetry => cases h
  | claimNext => exact (subsiding_of_picked claimNext_picked).returning
  | claimOperation => exact (subsiding_of_picked claimOperation_picked).returning
  | cancel => exact subsiding_cancel.returning
  | terminalizeUnselected => exact subsiding_terminalizeUnselected.returning
  | terminalize => exact subsiding_terminalize.returning
  | expireQueued =>
    exact (subsiding_readOnly_bind readOnly_validatedDuration fun _ =>
      clearing_expireQueuedLocked.subsiding).returning
  | expireExecutionLeases =>
    exact (subsiding_readOnly_bind readOnly_validatedDuration fun _ =>
      clearing_expireExecutionLeasesLocked.subsiding).returning
  | assertCurrentExecution =>
    exact subsiding_readOnly_bind (readOnly_assertCurrentExecutionSession _) fun _ => subsiding_pure _
  | assertCurrentExecutionLease =>
    exact subsiding_readOnly_bind readOnly_assertCurrentExecutionLease fun _ => subsiding_pure _
  | reselectExecution => exact subsiding_reselectExecution.returning
  | renewExecutionLease => exact subsiding_renewExecutionLease.returning
  | updatePhase =>
    refine Subsiding.returning (subsiding_readOnly_bind readOnly_validatedCode fun _ =>
      subsiding_readOnly_bind (readOnly_assertCurrentExecutionSession _) fun r => ?_)
    split
    · exact subsiding_pure _
    · exact subsiding_updateFenced fun r => ⟨_, _, _, _, _, rfl⟩
  | bindChat =>
    refine Subsiding.returning (subsiding_readOnly_bind (readOnly_require _ _) fun _ =>
      subsiding_readOnly_bind (readOnly_assertCurrentExecutionSession _) fun r => ?_)
    split
    · exact subsiding_readOnly_bind (readOnly_require _ _) fun _ => subsiding_pure _
    · exact subsiding_updateFenced fun r => ⟨_, _, _, _, _, rfl⟩
  | bindRequestGeneration =>
    refine Subsiding.returning
      (subsiding_readOnly_bind (readOnly_assertCurrentExecutionSession _) fun r => ?_)
    split
    · exact subsiding_readOnly_bind (readOnly_require _ _) fun _ => subsiding_pure _
    · exact subsiding_updateFenced fun r => ⟨_, _, _, _, _, rfl⟩
  | bindHarnessProfile => exact subsiding_bindHarnessProfile.returning
  | purgeExpired =>
    refine Subsiding.returning (subsiding_readOnly_bind (readOnly_require _ _) fun _ =>
      subsiding_readOnly_bind (readOnly_assertOptionalFence _) fun _ =>
        subsiding_bind ?_ fun _ => subsiding_purgeOperations.returning)
    intro s a s' h hk
    obtain ⟨_, rfl, _, _, rfl, -, rfl⟩ := h
    exact .of_eq hk rfl rfl rfl le_rfl rfl rfl (.single (.forget _ rfl rfl rfl rfl))

/-- **Every call that returns evolves the store.** -/
theorem exec_evolving (call : Call) : Evolving (exec call) := by
  intro s a s' h hk
  cases hs : call.submission with
  | none => exact (exec_subsiding hs s a s' h hk).toProceeds
  | some =>
    obtain ⟨_, -, hsub⟩ := exec_submission hs h
    exact evolving_submitWith _ _ _ hsub hk

theorem commit_proceeds (call : Call) (hk : Keyed s) : Proceeds s (call.commit s) := by
  rcases commit_cases (exec call) s with ⟨a, h⟩ | h
  · exact exec_evolving call _ _ _ h hk
  · rw [Call.commit, h]; exact .refl hk

/-- **Every run evolves the store**, and files what it answers. -/
theorem run_proceeds (calls : List Call) (hk : Keyed s) : Proceeds s (s.run calls) := by
  induction calls generalizing s with
  | nil => exact .refl hk
  | cons call calls ih =>
    have he := commit_proceeds call hk
    exact he.trans (ih he.keyed)

theorem commit_evolves (call : Call) (hk : Keyed s) : Evolves s (call.commit s) :=
  (commit_proceeds call hk).toEvolves

theorem run_evolves (calls : List Call) (hk : Keyed s) : Evolves s (s.run calls) :=
  (run_proceeds calls hk).toEvolves

/-- The clock and the lease of a claim. -/
def Call.claimTimes : Call → Option (Time × Time)
  | .claimNext _ now slotLease .. => some (now, slotLease)
  | .claimOperation _ _ now slotLease .. => some (now, slotLease)
  | _ => none

/-- The rows that the claim passes over. -/
def Call.skips : Call → Locked
  | .claimNext _ _ _ _ locked => locked
  | _ => {}

/-- A claim clears what has expired, and then picks. -/
theorem exec_picked {a : Reply} (hk : Keyed s)
    (hc : call.claimTimes = some (now, slotLease)) (h : (exec call).Ok s a s') :
    ∃ s1 result, a = .claim result ∧ Subsides s s1 ∧ Cleared s s1 ∧
      Picked s1 s' call.skips now slotLease result := by
  cases call with
  | claimNext | claimOperation =>
    cases hc
    obtain ⟨result, _, hcl, h⟩ := ok_bind.1 h
    obtain ⟨rfl, rfl⟩ := ok_pure.1 h
    obtain ⟨s1, hprep, hp⟩ :=
      by first | exact claimNext_picked hcl | exact claimOperation_picked hcl
    obtain ⟨hs, hcleared⟩ := clearing_prepareClaim _ _ _ hprep hk
    exact ⟨s1, result, rfl, hs, hcleared, hp⟩
  | _ => cases hc

theorem exec_claim {o : Option OperationClaim} (hk : Keyed s)
    (h : (exec call).Ok s (.claim o) s') : ∃ now slotLease s1, call.claimTimes = some (now, slotLease) ∧
      Evolves s s1 ∧ Cleared s s1 ∧ Claimed s1 s' now slotLease o := by
  have hpicked : ∀ {now slotLease}, call.claimTimes = some (now, slotLease) →
      ∃ now slotLease s1, call.claimTimes = some (now, slotLease) ∧ Evolves s s1 ∧ Cleared s s1 ∧
        Claimed s1 s' now slotLease o := by
    intro now slotLease hc
    obtain ⟨s1, _, ⟨rfl⟩, hs, hcl, hp⟩ := exec_picked hk hc h
    exact ⟨now, slotLease, s1, hc, hs.toEvolves, hcl, hp.claimed hs.keyed⟩
  cases call with
  | claimNext | claimOperation => exact hpicked rfl
  | _ =>
    simp only [exec, ok_rules, reduceCtorEq, false_and, and_false, exists_false] at h

end AstralPlane.WorkAdmission
