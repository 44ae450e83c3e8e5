/-
  The statements that the work-admission transactions are built from.

  Each definition is one SQL statement of the repository, or one of its private
  helpers, over the tables of `Store`.  An UPDATE checks the constraints of the
  rows it writes and reports what it changed; a statement that violates a
  constraint raises.
-/
import AstralPlane.WorkAdmission.Model

namespace AstralPlane.WorkAdmission

open Tx

/-! ## Configuration -/

def configOf (configs : List AdmissionClassConfig) (c : AdmissionClass) :
    Option AdmissionClassConfig :=
  configs.find? (·.className = c)

/-- The classes from `c` up to its root; `fuel` bounds the climb. -/
def climb (configs : List AdmissionClassConfig) : ℕ → AdmissionClass → Option (List AdmissionClass)
  | 0, _ => none
  | fuel + 1, c =>
    match configOf configs c with
    | none => none
    | some config =>
      match config.parentClassName with
      | none => some [c]
      | some parent => (climb configs fuel parent).map (c :: ·)

/-- `_chain`: the classes from the root down to `c`. -/
def chainOf (configs : List AdmissionClassConfig) (c : AdmissionClass) :
    Except Error (List AdmissionClass) :=
  match configOf configs c with
  | none => .error (.configuration ("unknown admission class " ++ c.value))
  | some _ =>
    match climb configs configs.length c with
    | none => .error .internal
    | some up => .ok up.reverse

/-- The `seen` loop of `_validate_admission_graph`. -/
def acyclicFrom (configs : List AdmissionClassConfig) :
    ℕ → List AdmissionClass → AdmissionClass → Except Error Unit
  | 0, _, _ => .error .internal
  | fuel + 1, seen, current =>
    if current ∈ seen then .error (.configuration "admission class graph contains a cycle")
    else
      match configOf configs current with
      | none => .error .internal
      | some config =>
        match config.parentClassName with
        | none => .ok ()
        | some parent => acyclicFrom configs fuel (current :: seen) parent

/-- One round of the loop over `configs` in `_validate_admission_graph`. -/
def validateConfig (configs : List AdmissionClassConfig) (config : AdmissionClassConfig) :
    Except Error Unit :=
  match config.parentClassName with
  | none => acyclicFrom configs (configs.length + 1) [] config.className
  | some parent =>
    if (configOf configs parent).isNone then
      .error (.configuration ("missing parent admission class " ++ parent.value))
    else acyclicFrom configs (configs.length + 1) [] config.className

def validateAdmissionGraph (configs : List AdmissionClassConfig) : Except Error Unit :=
  if configs = [] then .error (.configuration "at least one admission class is required")
  else if ¬ (configs.map (·.className)).Nodup then
    .error (.configuration "admission class names must be unique")
  else if (configOf configs .voiceInteractive).any
      (fun voice => voice.parentClassName ≠ some .interactive) then
    .error (.configuration "voice_interactive must be a child of interactive")
  else configs.forM (validateConfig configs)

/-- `if config not in ordered: ordered.append(config)`. -/
def appendNew (ordered : List AdmissionClassConfig) (config : AdmissionClassConfig) :
    List AdmissionClassConfig :=
  if config ∈ ordered then ordered else ordered ++ [config]

/-- The nested `visit` of `_configuration_order`; `fuel` bounds the climb to the root. -/
def visit (configs : List AdmissionClassConfig) :
    ℕ → List AdmissionClassConfig → AdmissionClassConfig → List AdmissionClassConfig
  | 0, ordered, _ => ordered
  | fuel + 1, ordered, config =>
    match config.parentClassName.bind (configOf configs) with
    | none => appendNew ordered config
    | some parent =>
      if parent ∈ ordered then appendNew ordered config
      else appendNew (visit configs fuel ordered parent) config

/-- `_configuration_order`: parents before their children. -/
def configurationOrder (configs : List AdmissionClassConfig) : List AdmissionClassConfig :=
  configs.foldl (visit configs configs.length) []

/-! ## Statements -/

/-- `uuid.uuid4()`. -/
def uuid4 : Work Uuid := fun s => (.ok (s.uuid4 s.draws), { s with draws := s.draws + 1 })

/-- `UPDATE operation_admission_slot SET f WHERE p`, with the number of rows it changed. -/
def updateSlots (p : SlotRow → Bool) (f : SlotRow → SlotRow) : Work ℕ := do
  let s ← Tx.get
  require (s.slots.all fun r => !p r || (f r).check) (.database "operation_admission_slot")
  Tx.set { s with slots := updateWhere p f s.slots }
  pure (s.slots.countP p)

/-- `UPDATE operation_record SET f WHERE p RETURNING *`. -/
def updateOperations (p : OperationRecord → Bool) (f : OperationRecord → OperationRecord) :
    Work (List OperationRecord) := do
  let s ← Tx.get
  require (s.operations.all fun r => !p r || (f r).check) (.database "operation_record")
  Tx.set { s with operations := updateWhere p f s.operations }
  pure ((s.operations.filter p).map f)

/-- The owner partition of the unique indexes. -/
def ownerPartition (scope : OwnerScope) (user : Option String) (connection : Option Uuid) :
    OwnerScope × Option String × Option Uuid :=
  match scope with
  | .connection => (scope, none, connection)
  | .user | .schedule => (scope, user, none)
  | .maintenance | .system => (scope, none, none)

def OperationRecord.partition (r : OperationRecord) : OwnerScope × Option String × Option Uuid :=
  ownerPartition r.ownerScope r.ownerUserId r.connectionScopeId

def SubmissionRow.partition (r : SubmissionRow) : OwnerScope × Option String × Option Uuid :=
  ownerPartition r.ownerScope r.ownerUserId r.connectionScopeId

/-- `INSERT INTO operation_record … RETURNING *`: the primary key, the references and
    `ux_operation_idempotency_owner` are checked with the row. -/
def insertOperation (r : OperationRecord) : Work OperationRecord := do
  let s ← Tx.get
  require (s.operations.all (·.operationId ≠ r.operationId)) (.database "operation_record_pkey")
  require (s.classes.any (·.className = r.admissionClass)) (.database "admission_class_fkey")
  require (r.parentOperationId.all fun p => s.operations.any (·.operationId = p))
    (.database "parent_operation_id_fkey")
  require (r.idempotencyNamespace.isNone || s.operations.all fun o =>
      ¬ (o.partition = r.partition ∧ o.idempotencyNamespace = r.idempotencyNamespace ∧
        o.idempotencyKey = r.idempotencyKey)) (.database "ux_operation_idempotency_owner")
  require r.check (.database "operation_record")
  Tx.set { s with operations := s.operations ++ [r] }
  pure r

/-- `_owner_clause`: the WHERE clause that selects the rows of an owner. -/
def OperationOwner.clause (owner : OperationOwner) (scope : OwnerScope) (user : Option String)
    (connection : Option Uuid) : Bool :=
  match owner.ownerScope with
  | .connection => scope == .connection && connection == owner.connectionScopeId
  | .user | .schedule => scope == owner.ownerScope && user == owner.ownerUserId
  | .maintenance | .system => scope == owner.ownerScope

def OperationOwner.owns (owner : OperationOwner) (r : OperationRecord) : Bool :=
  owner.clause r.ownerScope r.ownerUserId r.connectionScopeId

/-! ## Private helpers of the repository -/

/-- `self._chain(class_name)`. -/
def chain (c : AdmissionClass) : Work (List AdmissionClass) := do
  let s ← Tx.get
  ofExcept (chainOf s.configs c)

def lockClassChain (c : AdmissionClass) : Work Unit := do
  let members ← chain c
  let s ← Tx.get
  ofExcept (members.forM fun member =>
    if s.classes.any (·.className = member) then .ok ()
    else .error (.configuration ("unknown admission class " ++ member.value)))

def submissionRow (owner : OperationOwner) (submissionId : Uuid) : Work (Option SubmissionRow) := do
  let s ← Tx.get
  pure (s.submissions.find? fun r => r.submissionId = submissionId ∧
    owner.clause r.ownerScope r.ownerUserId r.connectionScopeId)

def operationRow (id : Uuid) : Work (Option OperationRecord) := do
  let s ← Tx.get
  pure (s.operations.find? (·.operationId = id))

/-- `get_operation_record`: the row of an operation, seen by its owner only. -/
def getOperationRecord (owner : OperationOwner) (id : Uuid) : Work (Option OperationRecord) := do
  let s ← Tx.get
  pure (s.operations.find? fun r => r.operationId = id ∧ owner.owns r)

/-- `ORDER BY accepted_at, operation_id`. -/
def earlier (a b : OperationRecord) : Bool :=
  a.acceptedAt < b.acceptedAt || (a.acceptedAt == b.acceptedAt && a.operationId.int < b.operationId.int)

def queuePosition (operation : OperationRecord) : Work (Option ℕ) := do
  let s ← Tx.get
  if operation.state ≠ .queued then pure none
  else pure (some (s.operations.countP fun r =>
    r.admissionClass = operation.admissionClass ∧ r.state = .queued ∧ ¬ earlier operation r))

def existingIdempotentOperation (request : OperationRequest) : Work (Option OperationRecord) := do
  let s ← Tx.get
  if request.idempotencyNamespace.isNone then pure none
  else pure (s.operations.find? fun r => request.owner.owns r ∧
    r.idempotencyNamespace = request.idempotencyNamespace ∧ r.idempotencyKey = request.idempotencyKey)

/-- The rows that other transactions have locked. -/
structure Locked where
  operations : Uuid → Bool := fun _ => false
  slots : AdmissionClass × ℕ → Bool := fun _ => false
  submissions : Uuid → Bool := fun _ => false

/-- The operations and slots that a statement with `SKIP LOCKED` sees. -/
def Store.unlocked (s : Store) (locked : Locked) : Store :=
  { s with
    operations := s.operations.filter fun r => !locked.operations r.operationId
    slots := s.slots.filter fun r => !locked.slots (r.className, r.slotNumber) }

/-- The first free slot of a class within its active limit. -/
def freeSlot (slots : List SlotRow) (member : AdmissionClass) (limit : ℕ) : Option SlotRow :=
  firstBy (fun a b => a.slotNumber < b.slotNumber) (slots.filter fun r =>
    r.className = member ∧ r.slotNumber ≤ limit ∧ r.operationId = none)

/-- The loop of `_select_free_slots`. -/
def selectFrom (configs : List AdmissionClassConfig) (slots : List SlotRow) :
    List AdmissionClass → Except Error (Option (List (AdmissionClass × ℕ)))
  | [] => .ok (some [])
  | member :: rest =>
    match configOf configs member with
    | none => .error .internal
    | some config =>
      match freeSlot slots member config.activeLimit with
      | none => .ok none
      | some slot => do
        let selected ← selectFrom configs slots rest
        pure (selected.map ((member, slot.slotNumber) :: ·))

/-- `_select_free_slots`: a free slot in every class of the chain, or `none`. -/
def selectFreeSlots (c : AdmissionClass) (locked : Locked) :
    Work (Option (List (AdmissionClass × ℕ))) := do
  let members ← chain c
  let s ← Tx.get
  ofExcept (selectFrom s.configs (s.unlocked locked).slots members)

/-- The SET clause of `_occupy_slots`. -/
def SlotRow.lease (operationId token : Uuid) (leaseExpiresAt : Time) (r : SlotRow) : SlotRow :=
  { r with
    operationId := some operationId
    leaseToken := some token
    claimGeneration := r.claimGeneration + 1
    leaseExpiresAt := some leaseExpiresAt }

/-- The SET clause of the statements that take over the slots of an operation. -/
def SlotRow.relabel (token : Uuid) (leaseExpiresAt : Time) (r : SlotRow) : SlotRow :=
  { r with
    leaseToken := some token
    claimGeneration := r.claimGeneration + 1
    leaseExpiresAt := some leaseExpiresAt }

/-- The SET clause of `_release_slots`. -/
def SlotRow.free (r : SlotRow) : SlotRow :=
  { r with
    operationId := none
    leaseToken := none
    claimGeneration := r.claimGeneration + 1
    leaseExpiresAt := none }

/-- The WHERE clause of `_occupy_slots`. -/
def SlotRow.isFree (selected : AdmissionClass × ℕ) (r : SlotRow) : Bool :=
  r.className = selected.1 ∧ r.slotNumber = selected.2 ∧ r.operationId = none

/-- `lease_token or uuid.uuid4()`. -/
def tokenOrNew : Option Uuid → Work Uuid
  | some token => pure token
  | none => uuid4

/-- One round of the loop of `_occupy_slots`. -/
def occupySlot (operationId : Uuid) (leaseToken : Option Uuid) (leaseExpiresAt : Time)
    (selected : AdmissionClass × ℕ) : Work Unit := do
  let token ← tokenOrNew leaseToken
  let rowcount ← updateSlots (SlotRow.isFree selected)
    (SlotRow.lease operationId token leaseExpiresAt)
  require (rowcount = 1) (.integrity "admission slot claim lost atomicity")

def occupySlots (selected : List (AdmissionClass × ℕ)) (operationId : Uuid)
    (leaseToken : Option Uuid) (leaseExpiresAt : Time) : Work Unit :=
  Tx.each (occupySlot operationId leaseToken leaseExpiresAt) selected

/-- `_release_slots`: free the slots of an operation and drop free slots above the limits. -/
def releaseSlots (id : Uuid) : Work Unit := do
  let _ ← updateSlots (·.operationId = some id) SlotRow.free
  Tx.modify fun s => { s with slots := s.slots.filter fun r =>
    ¬ (r.operationId = none ∧
      s.classes.any fun c => c.className = r.className ∧ c.activeLimit < r.slotNumber) }

/-- The SET clause of `_expire_queued_locked`. -/
def OperationRecord.lapse (now retention : Time) (r : OperationRecord) : OperationRecord :=
  { r with
    state := .retryable
    terminalCode := some "queue_wait_expired"
    safeSummary := some "Queue wait expired"
    retryAfterMs := some 1000
    stateRevision := r.stateRevision + 1
    updatedAt := now
    terminalAt := some now
    purgeAfter := some (now + retention) }

def expireQueuedLocked (now retention : Time) : Work (List OperationRecord) :=
  updateOperations (fun r => r.state = .queued ∧ r.queueDeadlineAt.any (· ≤ now))
    (OperationRecord.lapse now retention)

/-- The SET clause that ends an operation and its execution. -/
def OperationRecord.finish (state : OperationState) (terminalCode safeSummary : Option String)
    (retryAfterMs : Option Int) (now retention : Time) (r : OperationRecord) : OperationRecord :=
  { r with
    state := state
    terminalCode := terminalCode
    safeSummary := safeSummary
    retryAfterMs := retryAfterMs
    executionLeaseToken := none
    stateRevision := r.stateRevision + 1
    updatedAt := now
    terminalAt := some now
    purgeAfter := some (now + retention) }

/-- One round of the loop of `_expire_execution_leases_locked`. -/
def expireExecutionLease (now retention : Time) (id : Uuid) : Work (Option OperationRecord) := do
  let s ← Tx.get
  match s.operations.find? (·.operationId = id) with
  | none => releaseSlots id; pure none
  | some operation =>
    if operation.state ≠ .running then
      releaseSlots id
      pure none
    else if ¬ s.slots.any (fun r => r.operationId = some id ∧ r.leaseExpiresAt.any (· ≤ now)) then
      pure none
    else
      let terminal ← updateOperations (fun r => r.operationId = id ∧ r.state = .running)
        (OperationRecord.finish .retryable (some "execution_lease_expired")
          (some "Execution lease expired") (some 1000) now retention)
      match terminal.head? with
      | none => raise (.integrity "execution lease recovery lost atomicity")
      | some terminal =>
        releaseSlots id
        pure (some terminal)

/-- The operations with an expired slot lease, in the order of their ids. -/
def expiredIds (s : Store) (now : Time) : List Uuid :=
  ((s.slots.filter fun r => r.leaseExpiresAt.any (· ≤ now)).filterMap
    (·.operationId)).dedup.insertionSort fun a b => a.int ≤ b.int

def expireExecutionLeasesLocked (now retention : Time) : Work (List OperationRecord) := do
  let s ← Tx.get
  let terminal ← Tx.collect (expireExecutionLease now retention) (expiredIds s now)
  pure terminal.reduceOption

def fenceMatches (operation : OperationRecord) (fence : ExecutionFence) : Bool :=
  operation.state == .running && operation.executionGeneration == fence.executionGeneration &&
    operation.executionLeaseToken == some fence.executionLeaseToken

def assertCurrentExecutionSession (fence : ExecutionFence) : Work OperationRecord := do
  match ← operationRow fence.operationId with
  | none => raise (.staleFence "execution fence is stale")
  | some operation =>
    require (fenceMatches operation fence) (.staleFence "execution fence is stale")
    pure operation

end AstralPlane.WorkAdmission
