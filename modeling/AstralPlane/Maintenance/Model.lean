/-
  Maintenance units (`repositories/maintenance.py`, tables `maintenance_unit` and
  `maintenance_unit_input`).

  A unit is created once under its kind and idempotency key, together with its
  inputs.  A worker claims it for the time of a lease, binds an operation to it,
  completes the inputs one by one and then the unit; a failed or abandoned claim
  makes it available again until its attempts are used up.  `FOR UPDATE SKIP
  LOCKED` passes over rows that another transaction has locked; a call is given
  those as `locked`.
-/
import AstralPlane.Repositories
import AstralPlane.Rows
import AstralPlane.Sql

namespace AstralPlane.Maintenance

open Tx
open Repositories

/-! ## Records -/

/-- `MaintenanceState`. -/
inductive Phase
  | pending | claimed | running | succeeded | failedRetryable | failedTerminal | cancelled
  deriving DecidableEq, Repr

/-- The state of a unit that a worker holds. -/
def Phase.isLeased (p : Phase) : Bool := p = .claimed || p = .running

/-- The state of a unit that a worker may claim. -/
def Phase.isClaimable (p : Phase) : Bool := p = .pending || p = .failedRetryable

def Phase.isTerminal (p : Phase) : Bool :=
  p = .succeeded || p = .failedTerminal || p = .cancelled

/-- `MaintenanceUnitRecord`; the unit id is the key of the table. -/
structure UnitRecord where
  kind : String
  ownerId : Option String := none
  scopeKey : String := ""
  idempotencyKey : String := ""
  phase : Phase := .pending
  leaseToken : Option Uuid := none
  claimGeneration : ℕ := 0
  claimedBy : Option String := none
  leaseExpiresAt : Option Time := none
  attemptCount : ℕ := 0
  maxAttempts : ℕ := 5
  operationId : Option Uuid := none
  operationExecutionGeneration : Option ℕ := none
  outputGeneration : Option Uuid := none
  outputRelativePath : Option String := none
  outputDigest : Option String := none
  lastErrorCode : Option String := none
  stateRevision : ℕ := 0
  createdAt : Time := 0
  terminalAt : Option Time := none
  nextAttemptAt : Option Time := none
  deriving DecidableEq

def UnitRecord.leaseFields (u : UnitRecord) : List Bool :=
  [u.leaseToken.isSome, u.claimedBy.isSome, u.leaseExpiresAt.isSome]

instance : Columns UnitRecord where
  refusal u :=
    if !(u.claimGeneration ≤ maxBigint && u.attemptCount ≤ maxInteger &&
        u.maxAttempts ≤ maxInteger && u.stateRevision ≤ maxBigint &&
        u.operationExecutionGeneration.all (· ≤ maxBigint)) then some "22003"
    else if !(u.attemptCount ≤ u.maxAttempts && 0 < u.maxAttempts &&
        u.operationExecutionGeneration.all (0 < ·) &&
        (!u.phase.isLeased || u.leaseFields.all id) &&
        (u.phase ≠ .succeeded || (u.outputGeneration.isSome && u.outputRelativePath.isSome &&
          u.outputDigest.any isSha256 && u.terminalAt.isSome))) then some "23514"
    else none

structure InputKey where
  unitId : Uuid
  kind : String
  inputId : String
  deriving DecidableEq

/-- `MaintenanceInputRecord`, without its key. -/
structure InputRecord where
  digest : Option String
  completed : Bool := false
  operationId : Option Uuid := none
  operationExecutionGeneration : Option ℕ := none
  completedAt : Option Time := none
  deriving DecidableEq

instance : Columns InputRecord where
  refusal i :=
    if !i.operationExecutionGeneration.all (· ≤ maxBigint) then some "22003"
    else if !(i.operationExecutionGeneration.all (0 < ·) && i.digest.all isSha256 &&
        i.operationExecutionGeneration.isSome = i.completed &&
        i.completedAt.isSome = i.completed) then some "23514"
    else none

structure Store where
  units : Keyed Uuid (Row UnitRecord)
  inputs : Keyed InputKey (Row InputRecord)

/-! ## Checks -/

def isCode (s : String) : Bool := isSnakeCase 63 s

def check (b : Bool) (message : String) : Except ValidationError Unit := ensure b ⟨message, []⟩

def uuid4 (u : Uuid) (field : String) : Except ValidationError Unit :=
  check u.isVersion4 (field ++ " must be a UUID4")

def code (s field : String) : Except ValidationError Unit :=
  check (isCode s) (field ++ " is not a supported code")

def positive (n : ℕ) (field : String) : Except ValidationError Unit :=
  check (0 < n) (field ++ " must be a positive integer")

def codes (l : List String) (field : String) : Except ValidationError Unit := do
  l.forM (code · field)
  check (!l.isEmpty && l.length ≤ 64 && l.Nodup) (field ++ " must contain 1-64 unique codes")

/-- The components of a `PurePosixPath`. -/
def pathParts (value : String) : List String :=
  ((value.toList.splitOn '/').map String.ofList).filter fun part => part ≠ "" && part ≠ "."

def relativePath (value : String) : Except ValidationError String := do
  let _ ← boundedText value "output_relative_path" 4096
  check (value.toList.head? ≠ some '/' && (pathParts value).all (· ≠ ".."))
    "output_relative_path must be a safe relative path"
  pure (if (pathParts value).isEmpty then "." else "/".intercalate (pathParts value))

def optional {α : Type} (f : α → Except ValidationError Unit) : Option α → Except ValidationError Unit
  | none => .ok ()
  | some a => f a

/-- The identity of a unit, and what is there at the start. -/
def UnitRecord.validateIdentity (unitId : Uuid) (u : UnitRecord) (isInitial : Bool) :
    Except ValidationError Unit := do
  uuid4 unitId "unit_id"
  code u.kind "unit_kind"
  optional (fun o => (fun _ => ()) <$> requiredId o "owner_id") u.ownerId
  let _ ← boundedText u.scopeKey "scope_key" 256
  let _ ← boundedText u.idempotencyKey "idempotency_key" 256
  positive u.maxAttempts "max_attempts"
  check (u.maxAttempts ≤ 100) "max_attempts exceeds the supported bound"
  optional (uuid4 · "output_generation") u.outputGeneration
  check (!isInitial || (u.phase = .pending && u.claimGeneration = 0 && u.attemptCount = 0 &&
      u.stateRevision = 0 && u.leaseToken.isNone && u.outputGeneration.isSome))
    "initial maintenance unit state is invalid"

/-- The lease, the operation and the output of a unit. -/
def UnitRecord.validateProgress (u : UnitRecord) : Except ValidationError Unit := do
  check (u.attemptCount ≤ u.maxAttempts) "attempt_count cannot exceed max_attempts"
  optional (uuid4 · "lease_token") u.leaseToken
  optional (fun w => (fun _ => ()) <$> boundedText w "claimed_by" 128) u.claimedBy
  check (if u.phase.isLeased then u.leaseFields.all id else !u.leaseFields.any id)
    "maintenance lease fields are inconsistent"
  optional (positive · "operation_execution_generation") u.operationExecutionGeneration
  check (u.operationId.isSome = u.operationExecutionGeneration.isSome)
    "maintenance operation fence is incomplete"
  optional (fun p => (fun _ => ()) <$> relativePath p) u.outputRelativePath
  optional (fun d => check (isSha256 d) "output_digest must be a lowercase SHA-256 digest")
    u.outputDigest
  check (u.phase.isTerminal = u.terminalAt.isSome) "maintenance terminal timestamp is inconsistent"
  check (u.phase ≠ .succeeded || (u.outputGeneration.isSome && u.outputRelativePath.isSome &&
    u.outputDigest.isSome)) "successful maintenance output is incomplete"

/-- `_validated_unit`. -/
def UnitRecord.validate (unitId : Uuid) (u : UnitRecord) (isInitial : Bool := false) :
    Except ValidationError Unit := do
  u.validateIdentity unitId isInitial
  u.validateProgress

/-- `_validated_input`. -/
def InputRecord.validate (key : InputKey) (i : InputRecord) (unitId : Uuid) :
    Except ValidationError Unit := do
  uuid4 key.unitId "unit_id"
  check (key.unitId = unitId) "maintenance input belongs to another unit"
  code key.kind "input_kind"
  let _ ← boundedText key.inputId "input_id" 256
  optional (fun d => check (isSha256 d) "input_digest must be a lowercase SHA-256 digest") i.digest
  optional (positive · "operation_execution_generation") i.operationExecutionGeneration
  check (i.completed = i.completedAt.isSome) "maintenance input completion is inconsistent"
  check (i.completed = (i.operationId.isSome && i.operationExecutionGeneration.isSome))
    "maintenance input operation fence is inconsistent"

/-- `_unit`. -/
def readUnit (unitId : Uuid) (u : UnitRecord) : Tx Store Failure UnitRecord :=
  ofExcept (match u.validate unitId with
    | .ok _ => .ok u
    | .error _ => .error (.data "persisted maintenance unit is invalid"))

/-! ## Statements -/

def onUnits {α : Type} (x : Tx (Keyed Uuid (Row UnitRecord)) String α) : Tx Store Failure α :=
  Tx.zoom (·.units) (fun t s => { s with units := t }) Failure.database x

def onInputs {α : Type} (x : Tx (Keyed InputKey (Row InputRecord)) String α) : Tx Store Failure α :=
  Tx.zoom (·.inputs) (fun t s => { s with inputs := t }) Failure.database x

def Store.members (s : Store) (unitId : Uuid) : List (InputKey × InputRecord) :=
  (s.inputs.entries.filter (·.1.unitId = unitId)).map fun e => (e.1, e.2.val)

/-- `list_inputs_for_administration`. -/
def listInputs (unitId : Uuid) : Tx Store Failure (List (InputKey × InputRecord)) := do
  argument (uuid4 unitId "unit_id")
  let s ← Tx.get
  require ((s.members unitId).all fun m =>
      match m.2.validate m.1 unitId with
      | .ok _ => true
      | .error _ => false)
    (.data "persisted maintenance input is invalid")
  pure (s.members unitId)

/-- `INSERT INTO maintenance_unit … ON CONFLICT (unit_kind, idempotency_key) DO NOTHING`. -/
def insertUnit (unitId : Uuid) (u : UnitRecord) :
    Tx (Keyed Uuid (Row UnitRecord)) String (Option UnitRecord) := do
  let t ← Tx.get
  if t.rows.any fun row => row.val.kind = u.kind && row.val.idempotencyKey = u.idempotencyKey then
    pure none
  else do
    require (t.lookup unitId).isNone "23505"
    Sql.write unitId u t

/-- The unit of a kind and an idempotency key. -/
def Store.byIdempotency (s : Store) (kind key : String) : Option (Uuid × UnitRecord) :=
  (s.units.entries.find? fun e => e.2.val.kind = kind && e.2.val.idempotencyKey = key).map
    fun e => (e.1, e.2.val)

/-- `INSERT INTO maintenance_unit_input … ON CONFLICT … DO NOTHING`. -/
def insertInput (unitId : Uuid) (m : InputKey × InputRecord) : Tx Store Failure Unit := do
  let _ ← onInputs (Sql.insertReturning ⟨unitId, m.1.kind, m.1.inputId⟩
    { digest := m.2.digest } fun _ => false)

/-- `(input_kind, input_id, input_digest)`. -/
def identityOf (m : InputKey × InputRecord) : String × String × Option String :=
  (m.1.kind, m.1.inputId, m.2.digest)

def sameMembers (l l' : List (InputKey × InputRecord)) : Bool :=
  (l.all fun m => (l'.map identityOf).contains (identityOf m)) &&
    l'.all fun m => (l.map identityOf).contains (identityOf m)

/-- The row that `create_unit` inserts. -/
def UnitRecord.created (u : UnitRecord) (now : Time) : UnitRecord where
  kind := u.kind
  ownerId := u.ownerId
  scopeKey := u.scopeKey
  idempotencyKey := u.idempotencyKey
  maxAttempts := u.maxAttempts
  outputGeneration := u.outputGeneration
  createdAt := now

/-- The unit that the call goes on with: the new one, or the one that is there. -/
def stableUnit (unitId : Uuid) (u : UnitRecord) : Option UnitRecord →
    Tx Store Failure (Uuid × UnitRecord)
  | some row => do
    let row ← readUnit unitId row
    pure (unitId, row)
  | none => do
    let s ← Tx.get
    match s.byIdempotency u.kind u.idempotencyKey with
    | none => raise (.conflict "maintenance idempotency identity raced")
    | some e => do
      let row ← readUnit e.1 e.2
      pure (e.1, row)

def createUnit (unitId : Uuid) (u : UnitRecord) (inputs : List (InputKey × InputRecord))
    (now : Time) : Tx Store Failure (Uuid × UnitRecord) := do
  argument (u.validate unitId true)
  argument (inputs.forM fun m => m.2.validate m.1 unitId)
  argument (check (!inputs.isEmpty) "maintenance unit requires at least one input")
  argument (check ((inputs.map fun m => (m.1.kind, m.1.inputId)).Nodup)
    "maintenance unit inputs must be unique")
  let inserted ← onUnits (insertUnit unitId (u.created now))
  let stable ← stableUnit unitId u inserted
  require (stable.2.ownerId = u.ownerId && stable.2.scopeKey = u.scopeKey &&
      stable.2.maxAttempts = u.maxAttempts)
    (.conflict "maintenance replay changed immutable semantics")
  Tx.each (insertInput stable.1) inputs
  let persisted ← listInputs stable.1
  require (sameMembers persisted inputs)
    (.conflict "maintenance replay changed input membership")
  pure stable

/-! ## Claims -/

/-- A failed attempt: `recover_expired_for_administration` and `fail_for_administration`. -/
def UnitRecord.failed (u : UnitRecord) (errorCode : String) (retryAt : Option Time)
    (observedAt : Time) : UnitRecord :=
  { u with
    phase := if u.maxAttempts ≤ u.attemptCount then .failedTerminal else .failedRetryable
    leaseToken := none
    claimedBy := none
    leaseExpiresAt := none
    lastErrorCode := some errorCode
    nextAttemptAt := if u.maxAttempts ≤ u.attemptCount then none else retryAt
    terminalAt := if u.maxAttempts ≤ u.attemptCount then some observedAt else none
    stateRevision := u.stateRevision + 1 }

/-- The order of the rows: by a moment, then by their id. -/
def before (a b : Time × Uuid) : Bool := a.1 < b.1 || (a.1 = b.1 && a.2.int < b.2.int)

def UnitRecord.isExpired (observedAt : Time) (u : UnitRecord) : Bool :=
  u.phase.isLeased && u.leaseExpiresAt.any (· ≤ observedAt)

/-- The units with an expired lease that are not locked, in the order of their leases. -/
def Store.expired (s : Store) (observedAt : Time) (locked : Uuid → Bool) : List Uuid :=
  ((s.units.entries.filter fun e => e.2.val.isExpired observedAt && !locked e.1).mergeSort
    fun e e' => !before (e'.2.val.leaseExpiresAt.getD 0, e'.1) (e.2.val.leaseExpiresAt.getD 0, e.1)).map
      (·.1)

def recoverUnit (observedAt : Time) (unitId : Uuid) : Tx Store Failure (Option UnitRecord) := do
  let updated ← onUnits (Sql.updateReturning unitId (·.isExpired observedAt)
    (·.failed "lease_expired" (some observedAt) observedAt))
  match updated with
  | none => pure none
  | some u => some <$> readUnit unitId u

/-- `recover_expired_for_administration`, which returns the units in the order of their ids. -/
def recoverExpired (observedAt : Time) (limit : ℕ) (locked : Uuid → Bool) :
    Tx Store Failure (List (Option UnitRecord)) := do
  argument (boundedLimit limit 2000)
  let s ← Tx.get
  Tx.collect (recoverUnit observedAt)
    (((s.expired observedAt locked).take limit).mergeSort (·.int ≤ ·.int))

/-- The arguments of `claim_next_for_administration`; the token is drawn in the call. -/
structure ClaimRequest where
  workerId : String
  now : Time
  leaseExpiresAt : Time
  kinds : List String
  eligible : Option (List Uuid)
  token : { u : Uuid // u.isVersion4 = true }

/-- The units that a worker may claim. -/
def ClaimRequest.takes (q : ClaimRequest) (unitId : Uuid) (u : UnitRecord) : Bool :=
  q.kinds.contains u.kind && u.phase.isClaimable && u.nextAttemptAt.all (· ≤ q.now) &&
    q.eligible.all (·.contains unitId)

/-- The candidate of the statement: `ORDER BY created_at, unit_id … SKIP LOCKED LIMIT 1`. -/
def Store.candidate (s : Store) (q : ClaimRequest) (locked : Uuid → Bool) : Option Uuid :=
  (firstBy (fun e e' : Sigma fun _ : Uuid => Row UnitRecord =>
      before (e.2.val.createdAt, e.1) (e'.2.val.createdAt, e'.1))
    (s.units.entries.filter fun e => q.takes e.1 e.2.val && !locked e.1)).map (·.1)

def UnitRecord.claimed (q : ClaimRequest) (u : UnitRecord) : UnitRecord :=
  { u with
    phase := .claimed
    leaseToken := some q.token.val
    claimedBy := some q.workerId
    leaseExpiresAt := some q.leaseExpiresAt
    claimGeneration := u.claimGeneration + 1
    attemptCount := u.attemptCount + 1
    stateRevision := u.stateRevision + 1
    nextAttemptAt := none
    lastErrorCode := none }

/-- `MaintenanceClaim`. -/
structure Claim where
  unitId : Uuid
  unit : UnitRecord
  inputs : List (InputKey × InputRecord)

/-- The claim that is returned for a unit. -/
def claimOf (unitId : Uuid) : Option UnitRecord → Tx Store Failure (Option Claim)
  | none => pure none
  | some u => do
    let u ← readUnit unitId u
    let inputs ← listInputs unitId
    require (!inputs.isEmpty) (.data "claimed maintenance unit has no inputs")
    pure (some ⟨unitId, u, inputs⟩)

/-- The update of `claim_next_for_administration`, which tests the attempts once more. -/
def claimCandidate (q : ClaimRequest) : Option Uuid → Tx Store Failure (Option Claim)
  | none => pure none
  | some unitId => do
    let updated ← onUnits (Sql.updateReturning unitId
      (fun u => u.attemptCount < u.maxAttempts) (·.claimed q))
    claimOf unitId updated

/-- `claim_next_for_administration`. -/
def claimNext (q : ClaimRequest) (locked : Uuid → Bool) : Tx Store Failure (Option Claim) := do
  let _ ← argument (boundedText q.workerId "worker_id" 128)
  argument (check (q.now < q.leaseExpiresAt) "maintenance lease must expire after now")
  argument (codes q.kinds "unit_kinds")
  argument ((q.eligible.getD []).forM (uuid4 · "eligible_unit_id"))
  if q.eligible = some [] then pure none
  else do
    let s ← Tx.get
    claimCandidate q (s.candidate q locked)

/-- What a worker shows of its claim. -/
structure Fence where
  unitId : Uuid
  token : Uuid
  generation : ℕ
  revision : ℕ
  deriving DecidableEq

/-- The arguments that `_claim_update` checks. -/
def Fence.check (f : Fence) : Tx Store Failure Unit := do
  argument (uuid4 f.unitId "unit_id")
  argument (uuid4 f.token "lease_token")
  argument (positive f.generation "claim_generation")

/-- The rows that a fence meets. -/
def Fence.meets (f : Fence) (u : UnitRecord) : Bool :=
  u.leaseToken = some f.token && u.claimGeneration = f.generation && u.stateRevision = f.revision

def raiseClaimMiss {α : Type} (unitId : Uuid) : Tx Store Failure α := do
  let s ← Tx.get
  match s.units.lookup unitId with
  | none => raise (.notFound "maintenance unit was not found")
  | some row => do
    let _ ← readUnit unitId row.val
    raise (.conflict "maintenance claim compare-and-set fence is stale")

/-- An update under a fence, and its reply. -/
def fencedUpdate (f : Fence) (selects : UnitRecord → Bool) (written : UnitRecord → UnitRecord) :
    Tx Store Failure UnitRecord := do
  let updated ← onUnits (Sql.updateReturning f.unitId (fun u => f.meets u && selects u) written)
  match updated with
  | none => raiseClaimMiss f.unitId
  | some u => readUnit f.unitId u

def claimUpdate (f : Fence) (selects : UnitRecord → Bool) (written : UnitRecord → UnitRecord) :
    Tx Store Failure UnitRecord := do
  f.check
  fencedUpdate f selects fun u => { written u with stateRevision := u.stateRevision + 1 }

/-- `bind_operation_for_administration`; `known` says that the operation is on record. -/
def bindOperation (f : Fence) (operationId : Uuid) (execution : ℕ) (known : Bool) :
    Tx Store Failure UnitRecord := do
  argument (positive execution "operation_execution_generation")
  let bound ← claimUpdate f (fun u => u.phase = .claimed) fun u =>
    { u with
      phase := .running
      operationId := some operationId
      operationExecutionGeneration := some execution }
  require known (.database "23503")
  pure bound

/-- `renew_claim_for_administration`. -/
def renewClaim (f : Fence) (leaseExpiresAt observedAt : Time) : Tx Store Failure UnitRecord := do
  argument (check (observedAt < leaseExpiresAt) "maintenance lease must expire after observation")
  claimUpdate f (·.phase.isLeased) fun u => { u with leaseExpiresAt := some leaseExpiresAt }

/-- `fail_for_administration`. -/
def failUnit (f : Fence) (errorCode : String) (observedAt : Time) (nextAttemptAt : Option Time) :
    Tx Store Failure UnitRecord := do
  argument (code errorCode "error_code")
  argument (check (nextAttemptAt.all (observedAt < ·)) "next_attempt_at must follow observed_at")
  claimUpdate f (·.phase.isLeased) (·.failed errorCode nextAttemptAt observedAt)

/-- `complete_for_administration`. -/
def completeUnit (f : Fence) (outputGeneration : Uuid) (outputRelativePath outputDigest : String)
    (completedAt : Time) : Tx Store Failure UnitRecord := do
  let path ← argument (relativePath outputRelativePath)
  argument (check (isSha256 outputDigest) "output_digest must be a lowercase SHA-256 digest")
  argument (uuid4 outputGeneration "output_generation")
  f.check
  let s ← Tx.get
  fencedUpdate f
    (fun u => u.phase = .running && u.outputGeneration = some outputGeneration &&
      (s.members f.unitId).all (·.2.completed))
    fun u => { u with
      phase := .succeeded
      outputRelativePath := some path
      outputDigest := some outputDigest
      terminalAt := some completedAt
      leaseToken := none
      claimedBy := none
      leaseExpiresAt := none
      stateRevision := u.stateRevision + 1 }

/-- What a worker shows to complete an input. -/
structure InputFence where
  key : InputKey
  token : Uuid
  generation : ℕ
  operationId : Uuid
  execution : ℕ
  deriving DecidableEq

/-- The unit runs under the claim and the operation that the worker shows. -/
def InputFence.meets (f : InputFence) (u : UnitRecord) : Bool :=
  u.phase = .running && u.leaseToken = some f.token && u.claimGeneration = f.generation &&
    u.operationId = some f.operationId && u.operationExecutionGeneration = some f.execution

/-- `complete_input_for_administration`. -/
def completeInput (f : InputFence) (completedAt : Time) : Tx Store Failure InputRecord := do
  argument (uuid4 f.key.unitId "unit_id")
  argument (code f.key.kind "input_kind")
  let _ ← argument (boundedText f.key.inputId "input_id" 256)
  argument (uuid4 f.token "lease_token")
  argument (positive f.generation "claim_generation")
  argument (positive f.execution "operation_execution_generation")
  let s ← Tx.get
  let updated ← onInputs (Sql.updateReturning f.key
    (fun i => !i.completed && (s.units.lookup f.key.unitId).any (f.meets ·.val))
    fun i => { i with
      completed := true
      operationId := some f.operationId
      operationExecutionGeneration := some f.execution
      completedAt := some completedAt })
  match updated with
  | none => raise (.conflict "maintenance input claim fence is stale")
  | some i => do
    argument (i.validate f.key f.key.unitId)
    pure i

/-! ## Runs -/

inductive Call
  | create (unitId : Uuid) (u : UnitRecord) (inputs : List (InputKey × InputRecord)) (now : Time)
  | claimNext (q : ClaimRequest) (locked : Uuid → Bool)
  | bind (f : Fence) (operationId : Uuid) (execution : ℕ) (known : Bool)
  | renew (f : Fence) (leaseExpiresAt observedAt : Time)
  | completeInput (f : InputFence) (completedAt : Time)
  | complete (f : Fence) (outputGeneration : Uuid) (outputRelativePath outputDigest : String)
      (completedAt : Time)
  | fail (f : Fence) (errorCode : String) (observedAt : Time) (nextAttemptAt : Option Time)
  | recover (observedAt : Time) (limit : ℕ) (locked : Uuid → Bool)

/-- What the log keeps: the claims of units, and the operations bound under them. -/
inductive Event
  | claimed (unitId token : Uuid) (generation : ℕ)
  | bound (unitId token : Uuid) (generation : ℕ) (operationId : Uuid) (execution : ℕ)
  deriving DecidableEq

def claimEvents : Option Claim → List Event
  | none => []
  | some c => [.claimed c.unitId (c.unit.leaseToken.getD ⟨0⟩) c.unit.claimGeneration]

def Call.exec : Call → Tx Store Failure (List Event)
  | .create unitId u inputs now => do
    let _ ← createUnit unitId u inputs now
    pure []
  | .claimNext q locked => do
    let claim ← Maintenance.claimNext q locked
    pure (claimEvents claim)
  | .bind f operationId execution known => do
    let _ ← bindOperation f operationId execution known
    pure [.bound f.unitId f.token f.generation operationId execution]
  | .renew f leaseExpiresAt observedAt => do
    let _ ← renewClaim f leaseExpiresAt observedAt
    pure []
  | .completeInput f completedAt => do
    let _ ← Maintenance.completeInput f completedAt
    pure []
  | .complete f outputGeneration path digest completedAt => do
    let _ ← completeUnit f outputGeneration path digest completedAt
    pure []
  | .fail f errorCode observedAt nextAttemptAt => do
    let _ ← failUnit f errorCode observedAt nextAttemptAt
    pure []
  | .recover observedAt limit locked => do
    let _ ← recoverExpired observedAt limit locked
    pure []

structure State where
  store : Store
  log : List Event

def eventsOf : Except Failure (List Event) → List Event
  | .ok l => l
  | .error _ => []

def step (c : Call) (s : State) : State where
  store := c.exec.commit s.store
  log := s.log ++ eventsOf (c.exec.reply s.store)

/-- The state after some calls on empty tables. -/
def after (calls : List Call) : State := run step calls ⟨⟨∅, ∅⟩, []⟩

end AstralPlane.Maintenance
