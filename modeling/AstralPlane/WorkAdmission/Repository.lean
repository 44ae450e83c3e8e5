/-
  The transactions of the work-admission repository on admitted operations.

  Each definition is one method of `WorkAdmissionRepository`.  `now` is the
  caller's clock or the transaction timestamp, `clock` a reading of the
  database clock.  `Call` lists the methods with their arguments, `exec` runs
  one, `Call.commit` ends its transaction and `Store.run` is a run of them.
-/
import AstralPlane.WorkAdmission.Submission

namespace AstralPlane.WorkAdmission

open Tx

structure OperationClaim where
  operation : OperationRecord
  fence : ExecutionFence
  deriving DecidableEq

structure SlotLeaseRenewal where
  operationId : Uuid
  executionGeneration : ℕ
  leaseExpiresAt : Time
  deriving DecidableEq, Repr

structure PurgeResult where
  operations : ℕ
  submissions : ℕ
  deriving DecidableEq, Repr

/-! ## Claims -/

/-- The fence of an operation's current execution; a generation of 0 has none. -/
def executionFence (id : Uuid) (generation : ℕ) (token : Uuid) : Work ExecutionFence :=
  if h : 0 < generation then pure ⟨id, generation, token, h⟩
  else raise (.validation "execution_generation must be positive")

/-- `_claim_preselected`: the slots leave their marker token for a new one, the fence keeps it. -/
def claimPreselected (operation : OperationRecord) (now slotLease : Time) :
    Work (Option OperationClaim) :=
  match operation.executionLeaseToken with
  | none => raise (.integrity "preselected execution is missing its token")
  | some marker => do
    let token ← uuid4
    let rowcount ← updateSlots
      (fun r => r.operationId = some operation.operationId ∧ r.leaseToken = some marker)
      (SlotRow.relabel token (now + slotLease))
    let members ← chain operation.admissionClass
    require (rowcount = members.length) (.integrity "preselected handoff marker is incomplete")
    let fence ← executionFence operation.operationId operation.executionGeneration marker
    pure (some ⟨operation, fence⟩)

/-- The SET clause of `_claim_queued`. -/
def OperationRecord.start (token : Uuid) (now : Time) (r : OperationRecord) : OperationRecord :=
  { r with
    state := .running
    executionGeneration := r.executionGeneration + 1
    executionLeaseToken := some token
    stateRevision := r.stateRevision + 1
    updatedAt := now
    startedAt := some (r.startedAt.getD now) }

/-- `_claim_queued`: slots are selected and occupied without a common token. -/
def claimQueued (c : AdmissionClass) (id : Uuid) (now slotLease : Time) (locked : Locked) :
    Work (Option OperationClaim) := do
  match ← selectFreeSlots c locked with
  | none => pure none
  | some selected =>
    occupySlots selected id none (now + slotLease)
    let token ← uuid4
    let running ← updateOperations (fun r => r.operationId = id ∧ r.state = .queued)
      (OperationRecord.start token now)
    match running.head? with
    | none => raise (.integrity "operation selection lost atomicity")
    | some operation =>
      let fence ← executionFence operation.operationId operation.executionGeneration token
      pure (some ⟨operation, fence⟩)

/-- The join of `claim_next` and `claim_operation`: a RUNNING operation of the class, not asked to
    cancel, whose slot in its own class still carries its execution token. -/
def isPreselected (s : Store) (c : AdmissionClass) (r : OperationRecord) : Bool :=
  r.admissionClass = c ∧ r.state = .running ∧ r.cancelRequestedAt = none ∧
    s.slots.any fun marker => marker.operationId = some r.operationId ∧
      marker.className = r.admissionClass ∧ marker.leaseToken.isSome ∧
      marker.leaseToken = r.executionLeaseToken

def queueHead (s : Store) (c : AdmissionClass) : Option OperationRecord :=
  firstBy earlier (s.operations.filter fun r => r.admissionClass = c ∧ r.state = .queued)

/-- What both claims do before they look for an operation. -/
def prepareClaim (c : AdmissionClass) (now slotLease retention : Time) : Work Unit := do
  validatedDuration slotLease "slot_lease"
  validatedDuration retention "retention"
  lockClassChain c
  let _ ← expireExecutionLeasesLocked now retention
  let _ ← expireQueuedLocked now retention

/-- Both queries of `claim_next` have `FOR UPDATE SKIP LOCKED`; those of `claim_operation` wait. -/
def claimNext (c : AdmissionClass) (now slotLease retention : Time) (locked : Locked) :
    Work (Option OperationClaim) := do
  prepareClaim c now slotLease retention
  let s := (← Tx.get).unlocked locked
  match firstBy earlier (s.operations.filter (isPreselected s c)) with
  | some operation => claimPreselected operation now slotLease
  | none =>
    match queueHead s c with
    | none => pure none
    | some candidate => claimQueued c candidate.operationId now slotLease locked

def claimOperation (c : AdmissionClass) (id : Uuid) (now slotLease retention : Time)
    (locked : Locked) : Work (Option OperationClaim) := do
  prepareClaim c now slotLease retention
  let s ← Tx.get
  match s.operations.find? (fun r => r.operationId = id ∧ isPreselected s c r) with
  | some operation => claimPreselected operation now slotLease
  | none =>
    match s.operations.find? (fun r => r.operationId = id ∧ r.admissionClass = c) with
    | none => pure none
    | some candidate =>
      if candidate.state ≠ .queued then pure none
      else if (queueHead s c).map (·.operationId) ≠ some id then pure none
      else claimQueued c id now slotLease locked

/-! ## Ends of operations -/

def validatedCode (value name : String) : Work Unit :=
  require (isSnakeCase 127 value) (.validation (name ++ " must be bounded snake_case"))

def validatedTerminalPayload (state : OperationState) (terminalCode safeSummary : Option String)
    (retryAfterMs : Option Int) : Work Unit := do
  require state.isTerminal (.validation "state must be a terminal OperationState")
  require (state = .completed ∨ terminalCode.isSome)
    (.validation "non-completed terminal state requires terminal_code")
  require (terminalCode.all (isSnakeCase 127))
    (.validation "terminal_code must be bounded snake_case")
  require (safeSummary.all (·.length ≤ 512))
    (.validation "safe_summary must not exceed 512 characters")
  require (retryAfterMs.all fun ms => state = .retryable ∧ 0 ≤ ms) (.validation
    "retry_after_ms is valid only for retryable state and must be nonnegative")

/-- The slots of the operation are those of its whole chain, and all carry its execution token. -/
def holdsMarkers (s : Store) (operation : OperationRecord) (members : List AdmissionClass) : Bool :=
  let held := s.slots.filter (·.operationId = some operation.operationId)
  held.length = members.length ∧ held.all (·.leaseToken = operation.executionLeaseToken)

/-- The SET clause of `cancel` for an operation that no worker has taken. -/
def OperationRecord.cancel (terminalCode : String) (now retention : Time) (r : OperationRecord) :
    OperationRecord :=
  { r with
    state := .cancelled
    terminalCode := some terminalCode
    safeSummary := some "Cancelled"
    stateRevision := r.stateRevision + 1
    updatedAt := now
    cancelRequestedAt := some now
    terminalAt := some now
    purgeAfter := some (now + retention)
    executionLeaseToken := none }

/-- The SET clause of `cancel` for an operation that a worker has taken. -/
def OperationRecord.requestCancel (now : Time) (r : OperationRecord) : OperationRecord :=
  { r with
    stateRevision := r.stateRevision + 1
    updatedAt := now
    cancelRequestedAt := some now }

def cancel (owner : OperationOwner) (id : Uuid) (terminalCode : String) (now retention : Time)
    (requestRunning : Bool) : Work OperationRecord := do
  validatedCode terminalCode "terminal_code"
  validatedDuration retention "retention"
  match ← getOperationRecord owner id with
  | none => raise (.notFound "operation not found")
  | some operation =>
    lockClassChain operation.admissionClass
    if operation.state.isTerminal ∨ operation.cancelRequestedAt.isSome then pure operation
    else
      let members ← chain operation.admissionClass
      let s ← Tx.get
      -- `BOOL_AND` over no slot is NULL, which is not a match; a chain is never empty.
      if operation.state = .queued ∨ holdsMarkers s operation members then
        let updated ← updateOperations
          (fun r => r.operationId = id ∧ (r.state = .queued ∨ r.state = .running))
          (OperationRecord.cancel terminalCode now retention)
        match updated.head? with
        | none => raise (.integrity "operation cancellation lost atomicity")
        | some updated =>
          releaseSlots id
          pure updated
      else if ¬ requestRunning then pure operation
      else
        let updated ← updateOperations (fun r => r.operationId = id ∧ r.state = .running)
          (OperationRecord.requestCancel now)
        match updated.head? with
        | none => raise (.integrity "operation cancellation lost atomicity")
        | some updated => pure updated

/-- The operation has not been taken by a worker. -/
def isUnselected (s : Store) (operation : OperationRecord) (members : List AdmissionClass) : Bool :=
  let held := s.slots.filter (·.operationId = some operation.operationId)
  match operation.state with
  | .queued => true
  | .running =>
    operation.cancelRequestedAt.isNone && operation.executionLeaseToken.isSome &&
      held.length == members.dedup.length && (held.map (·.className)).all (· ∈ members) &&
      members.all (· ∈ held.map (·.className)) &&
      held.all (·.leaseToken = operation.executionLeaseToken)
  | _ => false

def terminalizeUnselected (id : Uuid) (terminalCode : String) (safeSummary : Option String)
    (retryAfterMs : Option Int) (now retention : Time) : Work (Option OperationRecord) := do
  validatedTerminalPayload .retryable (some terminalCode) safeSummary retryAfterMs
  validatedDuration retention "retention"
  match ← operationRow id with
  | none => pure none
  | some operation =>
    lockClassChain operation.admissionClass
    if operation.state.isTerminal then pure (some operation)
    else
      let members ← chain operation.admissionClass
      let s ← Tx.get
      if ¬ isUnselected s operation members then pure none
      else
        let terminal ← updateOperations (fun r => r.operationId = id ∧ r.state = operation.state ∧
            r.executionGeneration = operation.executionGeneration ∧
            r.executionLeaseToken = operation.executionLeaseToken)
          (OperationRecord.finish .retryable (some terminalCode) safeSummary retryAfterMs now retention)
        match terminal.head? with
        | none => raise (.integrity "unselected terminalization lost atomicity")
        | some terminal =>
          releaseSlots id
          pure (some terminal)

/-- The WHERE clause of a fenced update. -/
def ExecutionFence.selects (fence : ExecutionFence) (r : OperationRecord) : Bool :=
  r.operationId = fence.operationId && fenceMatches r fence

def terminalize (fence : ExecutionFence) (state : OperationState)
    (terminalCode safeSummary : Option String) (retryAfterMs : Option Int) (now retention : Time) :
    Work OperationRecord := do
  validatedTerminalPayload state terminalCode safeSummary retryAfterMs
  validatedDuration retention "retention"
  match ← operationRow fence.operationId with
  | none => raise (.staleFence "execution fence is stale")
  | some operation =>
    if operation.state.isTerminal then pure operation
    else
      require (fenceMatches operation fence) (.staleFence "execution fence is stale")
      let terminal ← updateOperations fence.selects
        (OperationRecord.finish state terminalCode safeSummary retryAfterMs now retention)
      match terminal.head? with
      | none => raise (.staleFence "execution fence is stale")
      | some terminal =>
        releaseSlots fence.operationId
        pure terminal

def expireQueued (now retention : Time) : Work (List OperationRecord) := do
  validatedDuration retention "retention"
  expireQueuedLocked now retention

def expireExecutionLeases (now retention : Time) : Work (List OperationRecord) := do
  validatedDuration retention "retention"
  expireExecutionLeasesLocked now retention

/-! ## Calls under an execution fence -/

def assertCurrentExecution (fence : ExecutionFence) : Work OperationRecord :=
  assertCurrentExecutionSession fence

/-- The slots of an operation are a complete and current capacity lease. -/
def leaseComplete (s : Store) (fence : ExecutionFence) (members : List AdmissionClass)
    (clock : Time) : Bool :=
  let held := s.slots.filter (·.operationId = some fence.operationId)
  held.length == members.length &&
    (held.map (·.className)).all (· ∈ members) && members.all (· ∈ held.map (·.className)) &&
    (held.map (·.leaseToken)).dedup.length == 1 &&
    held.all fun r => r.leaseToken.isSome && 0 < r.claimGeneration && r.leaseExpiresAt.any (clock < ·)

/-- `assert_current_execution_lease`, with the reading of the database clock. -/
def assertCurrentExecutionLease (fence : ExecutionFence) (clock : Time) : Work OperationRecord := do
  require (fence.executionGeneration ≤ maxBigint) (.validation "execution fence is invalid")
  let operation ← assertCurrentExecutionSession fence
  require operation.cancelRequestedAt.isNone
    (.staleFence "execution capacity lease is unavailable")
  let members ← chain operation.admissionClass
  let s ← Tx.get
  require (leaseComplete s fence members clock)
    (.staleFence "execution capacity lease is unavailable")
  pure operation

/-- The slot update of `reselect_execution` and `renew_execution_lease`. -/
def renewSlots (fence : ExecutionFence) (operation : OperationRecord) (expiresAt : Time) :
    Work Unit := do
  let token ← uuid4
  let rowcount ← updateSlots (·.operationId = some fence.operationId)
    (SlotRow.relabel token expiresAt)
  let members ← chain operation.admissionClass
  require (rowcount = members.length) (.staleFence "execution capacity lease is missing")

/-- The SET clause of `reselect_execution`. -/
def OperationRecord.reselect (token : Uuid) (now : Time) (r : OperationRecord) : OperationRecord :=
  { r with
    executionGeneration := r.executionGeneration + 1
    executionLeaseToken := some token
    stateRevision := r.stateRevision + 1
    updatedAt := now }

def reselectExecution (fence : ExecutionFence) (now slotLease : Time) : Work ExecutionFence := do
  validatedDuration slotLease "slot_lease"
  let operation ← assertCurrentExecutionSession fence
  let token ← uuid4
  let selected ← updateOperations fence.selects (OperationRecord.reselect token now)
  match selected.head? with
  | none => raise (.staleFence "execution fence is stale")
  | some selected =>
    renewSlots fence operation (now + slotLease)
    executionFence fence.operationId selected.executionGeneration token

def renewExecutionLease (fence : ExecutionFence) (now slotLease : Time) :
    Work SlotLeaseRenewal := do
  validatedDuration slotLease "slot_lease"
  let operation ← assertCurrentExecutionSession fence
  renewSlots fence operation (now + slotLease)
  pure ⟨fence.operationId, fence.executionGeneration, now + slotLease⟩

/-- A fenced update of one column of a RUNNING operation. -/
def updateFenced (fence : ExecutionFence) (p : OperationRecord → Bool)
    (f : OperationRecord → OperationRecord) : Work OperationRecord := do
  let updated ← updateOperations (fun r => fence.selects r && p r) f
  match updated.head? with
  | none => raise (.staleFence "execution fence is stale")
  | some updated => pure updated

def updatePhase (fence : ExecutionFence) (phaseCode : String) (now : Time) :
    Work OperationRecord := do
  validatedCode phaseCode "phase_code"
  let operation ← assertCurrentExecutionSession fence
  if operation.phaseCode = some phaseCode then pure operation
  else updateFenced fence (fun _ => true) fun r => { r with
    phaseCode := some phaseCode
    stateRevision := r.stateRevision + 1
    updatedAt := now }

def bindChat (fence : ExecutionFence) (chatId : String) (now : Time) : Work OperationRecord := do
  require (chatId ≠ "" ∧ chatId.length ≤ 512)
    (.validation "chat_id must be a non-empty string of at most 512 characters")
  let operation ← assertCurrentExecutionSession fence
  match operation.chatId with
  | some bound =>
    require (bound = chatId) (.validation "operation is bound to a different conversation")
    pure operation
  | none => updateFenced fence (·.chatId.isNone) fun r => { r with
      chatId := some chatId
      stateRevision := r.stateRevision + 1
      updatedAt := now }

def bindRequestGeneration (fence : ExecutionFence) (requestGeneration : Uuid) (clock : Time) :
    Work OperationRecord := do
  let operation ← assertCurrentExecutionSession fence
  match operation.requestGeneration with
  | some bound =>
    require (bound = requestGeneration)
      (.conflict "operation is bound to a different request generation")
    pure operation
  | none => updateFenced fence (·.requestGeneration.isNone) fun r => { r with
      requestGeneration := some requestGeneration
      stateRevision := r.stateRevision + 1
      updatedAt := clock }

/-- `bind_harness_profile`; the race that its last statements settle needs a second transaction
    on the row that this one has locked. -/
def bindHarnessProfile (owner : OperationOwner) (fence : ExecutionFence)
    (identity : HarnessProfileIdentity) (now : Time) : Work OperationHarnessBinding := do
  match ← getOperationRecord owner fence.operationId with
  | none => raise (.notFound "operation not found")
  | some operation =>
    require (fenceMatches operation fence) (.staleFence "execution fence is stale")
    let capture ← getHarnessCapture owner fence.operationId
    require (capture.all (·.identity = identity))
      (.conflict "operation capture has a different harness profile identity")
    let s ← Tx.get
    match s.bindings.find? (·.operationId = fence.operationId) with
    | some existing =>
      require (existing.identity = identity)
        (.conflict "operation is bound to a different harness profile identity")
      pure existing
    | none =>
      let row : OperationHarnessBinding :=
        ⟨fence.operationId, identity, operation.executionGeneration, now⟩
      Tx.set { s with bindings := s.bindings ++ [row] }
      pure row

/-! ## Retention -/

/-- A submission result that may be purged at `now`. -/
def purgeableSubmission (s : Store) (now : Time) (r : SubmissionRow) : Bool :=
  r.purgeAfter < now &&
    (!r.accepted ||
      match r.operationId.bind fun id => s.operations.find? (·.operationId = id) with
      | none => true
      | some o => o.state.isTerminal && o.purgeAfter.any (· < now))

/-- An operation that may be purged at `now`: terminal, due, and with no accepted submission. -/
def purgeableOperation (s : Store) (now : Time) (r : OperationRecord) : Bool :=
  r.state.isTerminal ∧ r.purgeAfter.any (· < now) ∧
    ¬ s.submissions.any fun sub => sub.accepted ∧ sub.operationId = some r.operationId

/-- `DELETE FROM operation_record`, with the actions of the foreign keys. -/
def deleteOperations (ids : List Uuid) : Work Unit := do
  let s ← Tx.get
  let clear (id : Option Uuid) : Option Uuid := id.filter (· ∉ ids)
  let vacate (r : SlotRow) : SlotRow := { r with operationId := clear r.operationId }
  -- a constraint is checked for the rows that are written
  require (s.slots.all fun r => clear r.operationId = r.operationId || (vacate r).check)
    (.database "operation_slot_occupancy_check")
  Tx.set { s with
    operations := (s.operations.filter (·.operationId ∉ ids)).map fun r =>
      { r with parentOperationId := clear r.parentOperationId }
    slots := s.slots.map vacate
    submissions := s.submissions.map fun r => { r with operationId := clear r.operationId }
    captures := s.captures.filter (·.operationId ∉ ids)
    bindings := s.bindings.filter (·.operationId ∉ ids) }

/-- The purge of submission results, oldest first. -/
def purgeSubmissions (now : Time) (limit : ℕ) (locked : Locked) : Work ℕ := do
  let s ← Tx.get
  let candidates := ((s.submissions.filter fun r => !locked.submissions r.submissionResultId &&
    purgeableSubmission s now r).insertionSort fun a b =>
      a.purgeAfter < b.purgeAfter ∨ (a.purgeAfter = b.purgeAfter ∧
        a.submissionResultId.int ≤ b.submissionResultId.int)).take limit
  Tx.set { s with submissions := s.submissions.filter fun r =>
    r.submissionResultId ∉ candidates.map (·.submissionResultId) }
  pure candidates.length

def purgeOperations (now : Time) (limit : ℕ) (locked : Locked) : Work ℕ := do
  let s ← Tx.get
  let candidates := ((s.operations.filter fun r => !locked.operations r.operationId &&
    purgeableOperation s now r).insertionSort fun a b =>
      a.purgeAfter.getD 0 < b.purgeAfter.getD 0 ∨ (a.purgeAfter.getD 0 = b.purgeAfter.getD 0 ∧
        a.operationId.int ≤ b.operationId.int)).take limit
  deleteOperations (candidates.map (·.operationId))
  pure candidates.length

/-- The fence of a purge is optional. -/
def assertOptionalFence : Option ExecutionFence → Work Unit
  | none => pure ()
  | some fence => do let _ ← assertCurrentExecutionSession fence

def purgeExpired (now : Time) (limit : ℕ) (fence : Option ExecutionFence) (locked : Locked) :
    Work PurgeResult := do
  require (1 ≤ limit ∧ limit ≤ 10000) (.validation "limit must be between 1 and 10000")
  assertOptionalFence fence
  let submissions ← purgeSubmissions now limit locked
  let operations ← purgeOperations now limit locked
  pure ⟨operations, submissions⟩

/-- When the oldest of what may be purged became due. -/
def oldestPurgeEligibleDueAt (now : Time) : Work (Option Time) := do
  let s ← Tx.get
  pure ((s.submissions.filter (purgeableSubmission s now)).map (·.purgeAfter) ++
    (s.operations.filter (purgeableOperation s now)).filterMap (·.purgeAfter)).min?

/-! ## Calls and runs -/

/-- A call of a repository method, one transaction. -/
inductive Call
  | submit (gate : HarnessGate) (request : OperationRequest) (now retention slotLease : Time)
      (locked : Locked := {})
  | submitRetry (gate : HarnessGate) (request : OperationRequest) (proof : RetryProof)
      (now retention slotLease : Time) (locked : Locked := {})
  | claimNext (c : AdmissionClass) (now slotLease retention : Time) (locked : Locked := {})
  | claimOperation (c : AdmissionClass) (id : Uuid) (now slotLease retention : Time)
      (locked : Locked := {})
  | cancel (owner : OperationOwner) (id : Uuid) (terminalCode : String) (now retention : Time)
      (requestRunning : Bool)
  | terminalizeUnselected (id : Uuid) (terminalCode : String) (safeSummary : Option String)
      (retryAfterMs : Option Int) (now retention : Time)
  | terminalize (fence : ExecutionFence) (state : OperationState)
      (terminalCode safeSummary : Option String) (retryAfterMs : Option Int) (now retention : Time)
  | expireQueued (now retention : Time)
  | expireExecutionLeases (now retention : Time)
  | assertCurrentExecution (fence : ExecutionFence)
  | assertCurrentExecutionLease (fence : ExecutionFence) (clock : Time)
  | reselectExecution (fence : ExecutionFence) (now slotLease : Time)
  | renewExecutionLease (fence : ExecutionFence) (now slotLease : Time)
  | updatePhase (fence : ExecutionFence) (phaseCode : String) (now : Time)
  | bindChat (fence : ExecutionFence) (chatId : String) (now : Time)
  | bindRequestGeneration (fence : ExecutionFence) (requestGeneration : Uuid) (clock : Time)
  | bindHarnessProfile (owner : OperationOwner) (fence : ExecutionFence)
      (identity : HarnessProfileIdentity) (now : Time)
  | purgeExpired (now : Time) (limit : ℕ) (fence : Option ExecutionFence) (locked : Locked := {})

inductive Reply
  | admission (result : AdmissionResult)
  | claim (claim : Option OperationClaim)
  | operation (operation : Option OperationRecord)
  | operations (operations : List OperationRecord)
  | fence (fence : ExecutionFence)
  | renewal (renewal : SlotLeaseRenewal)
  | binding (binding : OperationHarnessBinding)
  | purged (result : PurgeResult)

def exec : Call → Work Reply
  | .submit gate request now retention slotLease locked => do
    return .admission (← submit gate request now retention slotLease locked)
  | .submitRetry gate request proof now retention slotLease locked => do
    return .admission (← submitRetry gate request proof now retention slotLease locked)
  | .claimNext c now slotLease retention locked => do
    return .claim (← claimNext c now slotLease retention locked)
  | .claimOperation c id now slotLease retention locked => do
    return .claim (← claimOperation c id now slotLease retention locked)
  | .cancel owner id code now retention requestRunning => do
    return .operation (some (← cancel owner id code now retention requestRunning))
  | .terminalizeUnselected id code summary retryAfterMs now retention => do
    return .operation (← terminalizeUnselected id code summary retryAfterMs now retention)
  | .terminalize fence state code summary retryAfterMs now retention => do
    return .operation (some (← terminalize fence state code summary retryAfterMs now retention))
  | .expireQueued now retention => do return .operations (← expireQueued now retention)
  | .expireExecutionLeases now retention => do
    return .operations (← expireExecutionLeases now retention)
  | .assertCurrentExecution fence => do
    return .operation (some (← assertCurrentExecution fence))
  | .assertCurrentExecutionLease fence clock => do
    return .operation (some (← assertCurrentExecutionLease fence clock))
  | .reselectExecution fence now slotLease => do
    return .fence (← reselectExecution fence now slotLease)
  | .renewExecutionLease fence now slotLease => do
    return .renewal (← renewExecutionLease fence now slotLease)
  | .updatePhase fence phaseCode now => do
    return .operation (some (← updatePhase fence phaseCode now))
  | .bindChat fence chatId now => do return .operation (some (← bindChat fence chatId now))
  | .bindRequestGeneration fence requestGeneration clock => do
    return .operation (some (← bindRequestGeneration fence requestGeneration clock))
  | .bindHarnessProfile owner fence identity now => do
    return .binding (← bindHarnessProfile owner fence identity now)
  | .purgeExpired now limit fence locked => do
    return .purged (← purgeExpired now limit fence locked)

/-- The store after a call's transaction has ended. -/
def Call.commit (call : Call) (s : Store) : Store := (exec call).commit s

/-- The store after a run of calls, each in its own transaction. -/
def Store.run (s : Store) (calls : List Call) : Store := AstralPlane.run Call.commit calls s

end AstralPlane.WorkAdmission
