/-
  The records and tables of the work-admission repository.

  Values that the source validates on construction carry the validation as
  fields.  A table is a list of rows; `OperationRecord.check` and
  `SlotRow.check` are the CHECK constraints of the two tables whose rows are
  updated in place.  `Store` holds the tables, the configuration the process
  has bound and the supply of UUIDs.
-/
import AstralPlane.Base
import AstralPlane.Tx
import AstralPlane.Rows

namespace AstralPlane.WorkAdmission

inductive AdmissionClass
  | global | interactive | voiceInteractive | mcp | background | scheduled | maintenance | system
  deriving DecidableEq, Repr

def AdmissionClass.value : AdmissionClass → String
  | .global => "global"
  | .interactive => "interactive"
  | .voiceInteractive => "voice_interactive"
  | .mcp => "mcp"
  | .background => "background"
  | .scheduled => "scheduled"
  | .maintenance => "maintenance"
  | .system => "system"

inductive OwnerScope
  | connection | user | schedule | maintenance | system
  deriving DecidableEq, Repr

inductive OperationState
  | queued | running | completed | failed | cancelled | retryable
  deriving DecidableEq, Repr

/-- `_TERMINAL_STATES`. -/
def OperationState.isTerminal : OperationState → Bool
  | .queued | .running => false
  | .completed | .failed | .cancelled | .retryable => true

/-- The error classes of the repository; `database` is a constraint or range violation, `internal`
    an exception the repository does not map. -/
inductive Error
  | validation (message : String)
  | configuration (message : String)
  | conflict (message : String)
  | notFound (message : String)
  | staleFence (message : String)
  | integrity (message : String)
  | data (message : String)
  | database (constraint : String)
  | internal
  deriving DecidableEq, Repr

/-! ## Values validated on construction -/

structure AdmissionClassConfig where
  className : AdmissionClass
  parentClassName : Option AdmissionClass
  activeLimit : ℕ
  queueLimit : ℕ
  maxWaitMs : Option ℕ
  configRevision : String
  active_pos : 0 < activeLimit := by decide
  queue_waits : 0 < queueLimit → 0 < maxWaitMs.getD 0 := by decide
  voice_never_waits : className = .voiceInteractive → queueLimit = 0 ∧ maxWaitMs.getD 0 = 0 := by
    decide
  revision_length : 1 ≤ configRevision.length ∧ configRevision.length ≤ 128 := by decide
  parent_ne : parentClassName ≠ some className := by decide
  deriving DecidableEq

structure OperationOwner where
  ownerScope : OwnerScope
  ownerUserId : Option String
  connectionScopeId : Option Uuid
  user_named : ownerScope = .user ∨ ownerScope = .schedule → ownerUserId.getD "" ≠ "" := by decide
  user_only : ¬ (ownerScope = .user ∨ ownerScope = .schedule) → ownerUserId = none := by decide
  connection_named : ownerScope = .connection → connectionScopeId.isSome := by decide
  deriving DecidableEq

structure HarnessProfileIdentity where
  profile : String
  version : String
  artifactDigest : String
  deriving DecidableEq, Repr

structure HarnessSelectionRecord where
  ownerId : String
  revision : ℕ
  identity : Option HarnessProfileIdentity
  qualificationDigest : Option String
  deriving DecidableEq, Repr

structure HarnessCapture where
  ownerId : String
  selectionRevision : ℕ
  identity : HarnessProfileIdentity
  qualificationDigest : String
  researchProfile : String
  configBindingKeyId : String
  configRevision : String
  version : ℕ := 1
  deriving DecidableEq, Repr

structure OperationRequest where
  operationKind : String
  admissionClass : AdmissionClass
  owner : OperationOwner
  submissionId : Uuid
  idempotencyNamespace : Option String
  idempotencyKey : Option String
  normalizedInputDigest : Option String
  chatId : Option String
  parentOperationId : Option Uuid
  connectionGeneration : Option Uuid
  requestGeneration : Option Uuid
  harnessSelection : Option HarnessSelectionRecord := none
  harnessCapture : Option HarnessCapture := none
  harnessAssignmentId : Option Uuid := none
  kind_snake : isSnakeCase 63 operationKind := by decide
  not_global : admissionClass ≠ .global := by decide
  voice_user : admissionClass = .voiceInteractive → owner.ownerScope = .user := by decide
  capture_scope : harnessCapture.isSome → owner.ownerScope = .user ∨ owner.ownerScope = .connection
    := by decide
  capture_owner : ∀ c ∈ harnessCapture, owner.ownerScope = .user → owner.ownerUserId = some c.ownerId
    := by decide
  identity_tuple : idempotencyNamespace.isSome = idempotencyKey.isSome ∧
    idempotencyKey.isSome = normalizedInputDigest.isSome := by decide
  identity_bounds : idempotencyNamespace.isSome →
    (1 ≤ (idempotencyNamespace.getD "").length ∧ (idempotencyNamespace.getD "").length ≤ 128) ∧
    (1 ≤ (idempotencyKey.getD "").length ∧ (idempotencyKey.getD "").length ≤ 256) ∧
    isSha256 (normalizedInputDigest.getD "") := by decide

structure ExecutionFence where
  operationId : Uuid
  executionGeneration : ℕ
  executionLeaseToken : Uuid
  generation_pos : 0 < executionGeneration := by decide
  deriving DecidableEq

/-! ## Rows -/

/-- A row of `operation_record`, and the detached record made of it. -/
structure OperationRecord where
  operationId : Uuid
  operationKind : String
  admissionClass : AdmissionClass
  ownerScope : OwnerScope
  ownerUserId : Option String
  connectionScopeId : Option Uuid
  idempotencyNamespace : Option String
  idempotencyKey : Option String
  normalizedInputDigest : Option String
  chatId : Option String
  parentOperationId : Option Uuid
  connectionGeneration : Option Uuid
  requestGeneration : Option Uuid
  state : OperationState
  phaseCode : Option String
  terminalCode : Option String
  safeSummary : Option String
  retryAfterMs : Option Int
  executionGeneration : ℕ
  executionLeaseToken : Option Uuid
  stateRevision : ℕ
  acceptedAt : Time
  updatedAt : Time
  queueDeadlineAt : Option Time
  startedAt : Option Time
  terminalAt : Option Time
  cancelRequestedAt : Option Time
  purgeAfter : Option Time
  deriving DecidableEq, Repr

/-- A row of `operation_admission_class`. -/
structure ClassRow where
  className : AdmissionClass
  parentClassName : Option AdmissionClass
  activeLimit : ℕ
  queueLimit : ℕ
  maxWaitMs : ℕ
  configRevision : String
  deriving DecidableEq, Repr

/-- A row of `operation_admission_slot`. -/
structure SlotRow where
  className : AdmissionClass
  slotNumber : ℕ
  operationId : Option Uuid := none
  leaseToken : Option Uuid := none
  claimGeneration : ℕ := 0
  leaseExpiresAt : Option Time := none
  deriving DecidableEq, Repr

/-- A row of `operation_submission_result`. -/
structure SubmissionRow where
  submissionResultId : Uuid
  submissionId : Uuid
  ownerScope : OwnerScope
  ownerUserId : Option String
  connectionScopeId : Option Uuid
  accepted : Bool
  operationId : Option Uuid
  refusalCode : Option String
  retryable : Bool
  retryAfterMs : Option Int
  observedAt : Time
  purgeAfter : Time
  deriving DecidableEq, Repr

/-- A row of `operation_harness_capture`. -/
structure CaptureRow where
  operationId : Uuid
  ownerId : String
  capture : HarnessCapture
  createdAt : Time
  deriving DecidableEq, Repr

/-- A row of `operation_harness_binding`. -/
structure OperationHarnessBinding where
  operationId : Uuid
  identity : HarnessProfileIdentity
  executionGeneration : ℕ
  boundAt : Time
  deriving DecidableEq, Repr

/-! ## Table constraints -/

/-- The CHECK constraints of `operation_admission_slot`, and the range of its BIGINT column. -/
def SlotRow.check (r : SlotRow) : Bool :=
  0 < r.slotNumber && r.claimGeneration ≤ maxBigint &&
  (r.operationId.isSome == r.leaseToken.isSome) && (r.operationId.isSome == r.leaseExpiresAt.isSome)

/-- The CHECK constraints of `operation_record` that its states are subject to, and the ranges of
    its integer columns. -/
def OperationRecord.check (r : OperationRecord) : Bool :=
  -- operation_state_times_check
  (if r.state.isTerminal then
    r.terminalAt.isSome && r.purgeAfter.isSome && (r.state == .completed || r.terminalCode.isSome)
   else r.terminalAt.isNone && r.purgeAfter.isNone) &&
  -- operation_start_time_check
  (match r.state with
   | .queued => r.startedAt.isNone
   | .running => r.startedAt.isSome
   | _ => if r.executionGeneration = 0 then r.startedAt.isNone else r.startedAt.isSome) &&
  -- operation_terminal_payload_check, operation_retry_delay_check
  (r.state.isTerminal || (r.terminalCode.isNone && r.safeSummary.isNone)) &&
  (r.state == .retryable || r.retryAfterMs.isNone) &&
  r.retryAfterMs.all (fun ms : Int => 0 ≤ ms && ms ≤ maxInteger) &&
  -- operation_queue_deadline_check
  (r.state != .queued || r.queueDeadlineAt.isSome) &&
  -- operation_parent_check
  (r.parentOperationId != some r.operationId) &&
  -- operation_execution_fence_check
  (match r.state with
   | .queued => r.executionGeneration == 0 && r.executionLeaseToken.isNone
   | .running => r.executionGeneration != 0 && r.executionLeaseToken.isSome
   | _ => r.executionLeaseToken.isNone) &&
  r.executionGeneration ≤ maxBigint && r.stateRevision ≤ maxBigint

/-- The tables, the configuration bound in the process, and the UUIDs that `uuid.uuid4` will
    return: the `n`-th drawn is `uuid4 n`. -/
structure Store where
  configs : List AdmissionClassConfig
  classes : List ClassRow
  slots : List SlotRow
  operations : List OperationRecord
  submissions : List SubmissionRow
  captures : List CaptureRow
  bindings : List OperationHarnessBinding
  uuid4 : ℕ → Uuid
  draws : ℕ

abbrev Work (α : Type) := Tx Store Error α

end AstralPlane.WorkAdmission
