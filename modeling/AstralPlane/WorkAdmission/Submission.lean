/-
  Configuration and submission in the work-admission repository.

  `configure` and `bindConfigs` install a validated class graph; `submit` and
  `submitRetry` replay a known submission or admit a new operation: RUNNING
  where every class of its chain has a free slot, QUEUED where the queue has
  room, and refused otherwise.  `now` is the caller's clock or the transaction
  timestamp.  `HarnessGate` stands for the preference and assignment tables,
  which a submission consults and does not write.
-/
import AstralPlane.WorkAdmission.Statements

namespace AstralPlane.WorkAdmission

open Tx

structure AcceptedAdmission where
  operationId : Uuid
  state : OperationState
  stateRevision : ℕ
  queuePosition : Option ℕ
  queueDeadlineAt : Option Time
  created : Bool
  deriving DecidableEq, Repr

structure RefusedAdmission where
  code : String
  retryable : Bool
  retryAfterMs : Option Int
  deriving DecidableEq, Repr

inductive AdmissionResult
  | accepted (a : AcceptedAdmission)
  | refused (r : RefusedAdmission)
  deriving DecidableEq, Repr

/-- The answers of `lock_harness_owner` and `assert_harness_admission`. -/
structure HarnessGate where
  lockHarnessOwner : String → Except Error Unit
  assertHarnessAdmission : String → Option HarnessSelectionRecord → Option HarnessCapture →
    Option Uuid → Except Error Unit

/-- What `submit_retry` was called with: the parent and the capture it expects. -/
structure RetryProof where
  parent : OperationRecord
  capture : Option HarnessCapture

def voiceInteractivePerUserActiveLimit : ℕ := 2

def voiceCapacityRetryAfterMs : Int := 1000

/-! ## Configuration -/

/-- One round of the loop of `configure`: write the class row, add missing slots, drop free slots
    above the limit. -/
def configureClass (s : Store) (config : AdmissionClassConfig) : Store :=
  let row : ClassRow :=
    { className := config.className
      parentClassName := config.parentClassName
      activeLimit := config.activeLimit
      queueLimit := config.queueLimit
      maxWaitMs := config.maxWaitMs.getD 0
      configRevision := config.configRevision }
  let classes :=
    if s.classes.any (·.className = config.className) then
      updateWhere (fun r => r.className = config.className) (fun _ => row) s.classes
    else s.classes ++ [row]
  let missing := (List.range' 1 config.activeLimit).filter fun n =>
    ¬ s.slots.any fun r => r.className = config.className ∧ r.slotNumber = n
  let slots := s.slots ++ missing.map fun n => { className := config.className, slotNumber := n }
  { s with
    classes := classes
    slots := slots.filter fun r =>
      ¬ (r.className = config.className ∧ config.activeLimit < r.slotNumber ∧ r.operationId = none) }

def configure (configs : List AdmissionClassConfig) : Work Unit := do
  ofExcept (validateAdmissionGraph configs)
  Tx.modify fun s => (configurationOrder configs).foldl configureClass s

def bindConfigs (configs : List AdmissionClassConfig) : Work Unit := do
  ofExcept (validateAdmissionGraph configs)
  Tx.modify fun s => { s with configs := configs }

/-! ## Submission -/

/-- The answer that `_insert_submission` files. -/
def answerRow (request : OperationRequest) (id : Uuid) (now retention : Time)
    (operationId : Option Uuid) (refusalCode : Option String) (retryable : Bool)
    (retryAfterMs : Option Int) : SubmissionRow :=
  { submissionResultId := id
    submissionId := request.submissionId
    ownerScope := request.owner.ownerScope
    ownerUserId := request.owner.ownerUserId
    connectionScopeId := request.owner.connectionScopeId
    accepted := operationId.isSome
    operationId := operationId
    refusalCode := refusalCode
    retryable := retryable
    retryAfterMs := retryAfterMs
    observedAt := now
    purgeAfter := now + retention }

def insertSubmission (request : OperationRequest) (now retention : Time)
    (operationId : Option Uuid := none) (refusalCode : Option String := none)
    (retryable : Bool := false) (retryAfterMs : Option Int := none) : Work Unit := do
  let id ← uuid4
  let row := answerRow request id now retention operationId refusalCode retryable retryAfterMs
  let s ← Tx.get
  require (s.submissions.all (·.submissionResultId ≠ id))
    (.database "operation_submission_result_pkey")
  require (s.submissions.all fun r =>
      ¬ (r.submissionId = row.submissionId ∧ r.partition = row.partition))
    (.database "ux_operation_submission_owner")
  Tx.set { s with submissions := s.submissions ++ [row] }

def accepted (operation : OperationRecord) (created : Bool := false) : Work AdmissionResult := do
  let position ← queuePosition operation
  pure (.accepted
    { operationId := operation.operationId
      state := operation.state
      stateRevision := operation.stateRevision
      queuePosition := position
      queueDeadlineAt := operation.queueDeadlineAt
      created := created })

def refusalFromRow (row : SubmissionRow) : AdmissionResult :=
  .refused ⟨row.refusalCode.getD "None", row.retryable, row.retryAfterMs⟩

/-- `_lock_admission_request`: the owner whose harness preferences are locked. -/
def lockAdmissionRequest (gate : HarnessGate) (request : OperationRequest)
    (retry : Option RetryProof) : Work (Option String) := do
  let owner :=
    match request.harnessSelection, request.harnessCapture, retry with
    | some selection, _, _ => some selection.ownerId
    | none, some capture, _ => some capture.ownerId
    | none, none, some _ => request.owner.ownerUserId
    | none, none, none => none
  match owner with
  | none => pure none
  | some id =>
    ofExcept (gate.lockHarnessOwner id)
    pure (some id)

def getHarnessCapture (owner : OperationOwner) (id : Uuid) : Work (Option HarnessCapture) := do
  match ← getOperationRecord owner id with
  | none => pure none
  | some _ =>
    let s ← Tx.get
    match s.captures.find? (·.operationId = id) with
    | none => pure none
    | some row =>
      require (row.capture.ownerId = row.ownerId ∧
          (owner.ownerScope = .user → some row.capture.ownerId = owner.ownerUserId))
        (.data "operation harness capture owner is invalid")
      pure (some row.capture)

def retryCapture (request : OperationRequest) (proof : RetryProof) (now : Time) :
    Work (Option HarnessCapture) := do
  require (request.owner.ownerScope = .user ∧ request.harnessSelection.isNone ∧
      request.harnessCapture.isNone ∧ request.harnessAssignmentId.isNone)
    (.conflict "server retry identity changed")
  match ← getOperationRecord request.owner proof.parent.operationId with
  | none => raise (.conflict "server retry parent changed")
  | some current =>
    require (current = proof.parent ∧ current.state = .retryable ∧
        current.purgeAfter.any (now < ·) ∧
        some current.operationId = request.parentOperationId ∧
        current.operationKind = request.operationKind ∧
        current.admissionClass = request.admissionClass ∧
        current.idempotencyNamespace.isSome ∧
        current.idempotencyNamespace = request.idempotencyNamespace ∧
        current.normalizedInputDigest.isSome ∧
        current.normalizedInputDigest = request.normalizedInputDigest ∧
        request.idempotencyKey = some ("retry:" ++ current.operationId.str))
      (.conflict "server retry parent changed")
    let captured ← getHarnessCapture request.owner current.operationId
    require (captured = proof.capture) (.conflict "server retry capture changed")
    pure captured

def replaySubmission (row : SubmissionRow) : Work AdmissionResult :=
  if ¬ row.accepted then pure (refusalFromRow row)
  else
    match row.operationId with
    | none => raise (.notFound "operation submission not found")
    | some id => do
      match ← operationRow id with
      | none => raise (.notFound "operation submission not found")
      | some operation => accepted operation

/-- A new submission that reuses the idempotency identity of a retained operation. -/
def replayIdempotent (request : OperationRequest) (operation : OperationRecord)
    (now retention : Time) : Work AdmissionResult :=
  if operation.operationKind ≠ request.operationKind ∨
      operation.admissionClass ≠ request.admissionClass ∨
      operation.normalizedInputDigest ≠ request.normalizedInputDigest then do
    insertSubmission request now retention none (some "idempotency_conflict")
    pure (.refused ⟨"idempotency_conflict", false, none⟩)
  else do
    insertSubmission request now retention (some operation.operationId)
    accepted operation

/-- The capture a new operation inherits, after the checks of its harness preference. -/
def admissionCapture (gate : HarnessGate) (request : OperationRequest) (retry : Option RetryProof)
    (harnessOwner : Option String) (now : Time) : Work (Option HarnessCapture) :=
  match retry, harnessOwner with
  | some proof, _ => retryCapture request proof now
  | none, some owner => do
    require (request.owner.ownerScope ≠ .user ∨ request.owner.ownerUserId = some owner)
      (.validation "harness admission owner mismatch")
    ofExcept (gate.assertHarnessAdmission owner request.harnessSelection request.harnessCapture
      request.harnessAssignmentId)
    pure request.harnessCapture
  | none, none => do
    require request.harnessAssignmentId.isNone
      (.validation "inherited harness capture is missing")
    pure request.harnessCapture

/-- The row of a new operation: RUNNING with its first execution token where slots were selected,
    QUEUED with a deadline otherwise. -/
def newOperation (request : OperationRequest) (id : Uuid) (token : Option Uuid)
    (queueDeadlineAt : Option Time) (now : Time) : OperationRecord :=
  { operationId := id
    operationKind := request.operationKind
    admissionClass := request.admissionClass
    ownerScope := request.owner.ownerScope
    ownerUserId := request.owner.ownerUserId
    connectionScopeId := request.owner.connectionScopeId
    idempotencyNamespace := request.idempotencyNamespace
    idempotencyKey := request.idempotencyKey
    normalizedInputDigest := request.normalizedInputDigest
    chatId := request.chatId
    parentOperationId := request.parentOperationId
    connectionGeneration := request.connectionGeneration
    requestGeneration := request.requestGeneration
    state := if token.isSome then .running else .queued
    phaseCode := none
    terminalCode := none
    safeSummary := none
    retryAfterMs := none
    executionGeneration := if token.isSome then 1 else 0
    executionLeaseToken := token
    stateRevision := if token.isSome then 1 else 0
    acceptedAt := now
    updatedAt := now
    queueDeadlineAt := queueDeadlineAt
    startedAt := if token.isSome then some now else none
    terminalAt := none
    cancelRequestedAt := none
    purgeAfter := none }

/-- `INSERT INTO operation_harness_capture`. -/
def insertCapture (id : Uuid) (harnessOwner : Option String) (capture : Option HarnessCapture)
    (now : Time) : Work Unit :=
  match capture, harnessOwner with
  | none, _ => pure ()
  | some _, none => raise (.database "operation_harness_capture")
  | some c, some owner =>
    Tx.modify fun s => { s with captures := s.captures ++ [⟨id, owner, c, now⟩] }

/-- The selected slots are occupied with the execution token of the new operation. -/
def insertRunning (request : OperationRequest) (harnessOwner : Option String)
    (capture : Option HarnessCapture) (selected : List (AdmissionClass × ℕ))
    (now retention slotLease : Time) : Work AdmissionResult := do
  let id ← uuid4
  let token ← uuid4
  let operation ← insertOperation (newOperation request id (some token) none now)
  insertCapture id harnessOwner capture now
  occupySlots selected id (some token) (now + slotLease)
  insertSubmission request now retention (some id)
  accepted operation true

/-- No slot is free and the queue has room. -/
def insertQueued (request : OperationRequest) (harnessOwner : Option String)
    (capture : Option HarnessCapture) (maxWaitMs : ℕ) (now retention : Time) :
    Work AdmissionResult := do
  let id ← uuid4
  let operation ← insertOperation
    (newOperation request id none (some (now + maxWaitMs * millisecond)) now)
  insertCapture id harnessOwner capture now
  insertSubmission request now retention (some id)
  accepted operation true

/-- A refusal for want of capacity, which is recorded. -/
def refuseCapacity (request : OperationRequest) (now retention : Time) (retryAfterMs : Int) :
    Work AdmissionResult := do
  insertSubmission request now retention none (some "capacity_exceeded") true (some retryAfterMs)
  pure (.refused ⟨"capacity_exceeded", true, some retryAfterMs⟩)

/-- The admission decision, after the class chain is locked and expired work is cleared. -/
def decideAdmission (request : OperationRequest) (config : AdmissionClassConfig)
    (harnessOwner : Option String) (capture : Option HarnessCapture)
    (now retention slotLease : Time) (locked : Locked) : Work AdmissionResult := do
  let s ← Tx.get
  if request.admissionClass = .voiceInteractive ∧
      voiceInteractivePerUserActiveLimit ≤ s.operations.countP (fun r =>
        r.admissionClass = .voiceInteractive ∧ r.ownerScope = .user ∧
          r.ownerUserId = request.owner.ownerUserId ∧ r.state = .running) then
    refuseCapacity request now retention voiceCapacityRetryAfterMs
  else
    match ← selectFreeSlots request.admissionClass locked with
    | some selected => insertRunning request harnessOwner capture selected now retention slotLease
    | none =>
      let queued := s.operations.countP fun r =>
        r.admissionClass = request.admissionClass ∧ r.state = .queued
      if config.queueLimit ≤ queued then
        -- `max(1, min(max_wait_ms or 1000, 60000))`
        let wait := if config.maxWaitMs.getD 0 = 0 then 1000 else config.maxWaitMs.getD 0
        refuseCapacity request now retention (max 1 (min wait 60000))
      else if config.maxWaitMs.getD 0 = 0 then
        raise (.configuration
          ("work class " ++ config.className.value ++ " requires finite queue wait"))
      else insertQueued request harnessOwner capture (config.maxWaitMs.getD 0) now retention

/-- `_submit`, from the point where neither replay key is known. -/
def admitOperation (gate : HarnessGate) (request : OperationRequest) (retry : Option RetryProof)
    (harnessOwner : Option String) (now retention slotLease : Time) (locked : Locked) :
    Work AdmissionResult := do
  let capture ← admissionCapture gate request retry harnessOwner now
  let s ← Tx.get
  match configOf s.configs request.admissionClass with
  | none =>
    raise (.configuration ("unknown admission class " ++ request.admissionClass.value))
  | some config =>
    lockClassChain request.admissionClass
    let _ ← expireQueuedLocked now retention
    let _ ← expireExecutionLeasesLocked now retention
    decideAdmission request config harnessOwner capture now retention slotLease locked

def validatedDuration (value : Time) (name : String) : Work Unit :=
  require (0 < value) (.validation (name ++ " must be a positive duration"))

/-- `_submit`. -/
def submitWith (gate : HarnessGate) (request : OperationRequest) (retry : Option RetryProof)
    (now retention slotLease : Time) (locked : Locked) : Work AdmissionResult := do
  validatedDuration retention "retention"
  validatedDuration slotLease "slot_lease"
  let harnessOwner ← lockAdmissionRequest gate request retry
  match ← submissionRow request.owner request.submissionId with
  | some row => replaySubmission row
  | none =>
    match ← existingIdempotentOperation request with
    | some operation => replayIdempotent request operation now retention
    | none => admitOperation gate request retry harnessOwner now retention slotLease locked

def submit (gate : HarnessGate) (request : OperationRequest) (now retention slotLease : Time)
    (locked : Locked) : Work AdmissionResult :=
  submitWith gate request none now retention slotLease locked

def submitRetry (gate : HarnessGate) (request : OperationRequest) (proof : RetryProof)
    (now retention slotLease : Time) (locked : Locked) : Work AdmissionResult :=
  submitWith gate request (some proof) now retention slotLease locked

/-! ## Reconciliation -/

structure SafeOperationProjection where
  operationId : Uuid
  operationKind : String
  admissionClass : AdmissionClass
  ownerScope : OwnerScope
  chatId : Option String
  parentOperationId : Option Uuid
  connectionGeneration : Option Uuid
  requestGeneration : Option Uuid
  state : OperationState
  phaseCode : Option String
  terminalCode : Option String
  safeSummary : Option String
  retryAfterMs : Option Int
  stateRevision : ℕ
  acceptedAt : Time
  queueDeadlineAt : Option Time
  startedAt : Option Time
  terminalAt : Option Time
  updatedAt : Time
  purgeAfter : Option Time
  deriving DecidableEq, Repr

def safeProjection (r : OperationRecord) : SafeOperationProjection :=
  { operationId := r.operationId
    operationKind := r.operationKind
    admissionClass := r.admissionClass
    ownerScope := r.ownerScope
    chatId := r.chatId
    parentOperationId := r.parentOperationId
    connectionGeneration := r.connectionGeneration
    requestGeneration := r.requestGeneration
    state := r.state
    phaseCode := r.phaseCode
    terminalCode := r.terminalCode
    safeSummary := r.safeSummary
    retryAfterMs := r.retryAfterMs
    stateRevision := r.stateRevision
    acceptedAt := r.acceptedAt
    queueDeadlineAt := r.queueDeadlineAt
    startedAt := r.startedAt
    terminalAt := r.terminalAt
    updatedAt := r.updatedAt
    purgeAfter := r.purgeAfter }

inductive SubmissionResult
  | accepted (operation : SafeOperationProjection)
  | refused (r : RefusedAdmission)
  deriving DecidableEq, Repr

def reconcileSubmission (owner : OperationOwner) (submissionId : Uuid) : Work SubmissionResult := do
  match ← submissionRow owner submissionId with
  | none => raise (.notFound "operation submission not found")
  | some row =>
    if ¬ row.accepted then
      pure (.refused ⟨row.refusalCode.getD "None", row.retryable, row.retryAfterMs⟩)
    else
      match row.operationId with
      | none => raise (.notFound "operation submission not found")
      | some id => do
        match ← operationRow id with
        | none => raise (.notFound "operation submission not found")
        | some operation => pure (.accepted (safeProjection operation))

end AstralPlane.WorkAdmission
