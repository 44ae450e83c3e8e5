/-
  The transactional outbox (`outbox.py`, table `astralplane_outbox`).

  An entry is enqueued once under its idempotency key, is claimed by a worker
  for the time of a lease, and is then acknowledged, scheduled for another
  attempt or moved to the dead letters by the worker that holds it; an expired
  claim can be taken back.  Every statement is fenced by the row's version.

  * `OutboxRow` is a row that the constraints of the table accept;
  * `enqueueSql` … `reclaimSql` are the statements, `enqueue` … `reclaimExpired`
    the methods of `PostgresOutboxStore`;
  * `exec` runs a `Call`; what a call reports is kept as a list of `Event`s.

  `FOR UPDATE SKIP LOCKED` passes over the rows that another transaction has
  locked; a call is given those as `locked`.  SHA-256 is a parameter.
-/
import AstralPlane.Tx
import AstralPlane.Rows
import AstralPlane.Base

namespace AstralPlane.Outbox

open Tx

/-! ## Values -/

/-- What the store raises: `SQLContractError`, `PlaneError` with its code and metadata, or an error
    of the database with its SQLSTATE. -/
inductive Fault
  | contract (message : String)
  | plane (message code : String) (metadata : List (String × String))
  | database (sqlstate : String)
  deriving DecidableEq

/-- A pattern `^[first][rest]{0,tail}$`. -/
structure Pattern where
  first : Char → Bool
  rest : Char → Bool
  tail : ℕ

/-- `pattern.fullmatch(value) is not None`. -/
def Pattern.fullmatch (pattern : Pattern) (value : String) : Bool :=
  match value.toList with
  | [] => false
  | c :: cs => pattern.first c && cs.length ≤ pattern.tail && cs.all pattern.rest

/-- `^[A-Za-z0-9][-A-Za-z0-9._:@/]{0,254}$`. -/
def safeId : Pattern :=
  ⟨Char.isAlphanum, fun c => c.isAlphanum || "._:@/-".toList.contains c, 254⟩

/-- `^[A-Za-z0-9][A-Za-z0-9._:-]{0,127}$`. -/
def safeTopic : Pattern :=
  ⟨Char.isAlphanum, fun c => c.isAlphanum || "._:-".toList.contains c, 127⟩

/-- `^[a-z][a-z0-9_.-]{0,63}$`. -/
def safeErrorCode : Pattern :=
  ⟨Char.isLower, fun c => c.isLower || c.isDigit || "_.-".toList.contains c, 63⟩

def maxPayloadBytes : ℕ := 1048576

def maxLeaseDuration : Time := 24 * 3600 * second

structure OutboxEntry where
  entryId : String
  topic : String
  canonicalPayload : List UInt8
  payloadSha256 : String
  idempotencyKey : String
  availableAt : Time
  deriving DecidableEq

structure ClaimedOutboxEntry where
  entry : OutboxEntry
  workerId : String
  leaseExpiresAt : Time
  expectedVersion : ℕ
  attempt : ℕ
  deriving DecidableEq

structure ReclaimedOutboxEntry where
  entryId : String
  previousWorkerId : String
  expectedVersion : ℕ
  availableAt : Time
  deriving DecidableEq

/-! ## The table -/

inductive Status
  | pending
  | retry
  | claimed
  | succeeded
  | deadLetter
  deriving DecidableEq

/-- `delivered` and `dead-lettered`: no statement selects such a row. -/
def Status.isFinal : Status → Bool
  | .succeeded | .deadLetter => true
  | .pending | .retry | .claimed => false

/-- A row of `astralplane_outbox`. -/
structure OutboxRow where
  entry : OutboxEntry
  status : Status
  leaseOwner : Option String
  leaseExpiresAt : Option Time
  version : ℕ
  attemptCount : ℕ
  lastErrorCode : Option String
  /-- `astralplane_outbox_lease_shape_check` -/
  lease_shape : (status = .claimed ∧ leaseOwner.isSome ∧ leaseExpiresAt.isSome) ∨
    (status ≠ .claimed ∧ leaseOwner = none ∧ leaseExpiresAt = none)
  /-- `astralplane_outbox_error_shape_check` -/
  error_shape : lastErrorCode.isSome = (status = .retry ∨ status = .deadLetter : Bool)
  deriving DecidableEq

abbrev OutboxRow.entryId (r : OutboxRow) : String := r.entry.entryId

abbrev Table := List OutboxRow

abbrev Work := Tx Table Fault

/-- The row that `_ENQUEUE_SQL` inserts. -/
def OutboxRow.ofEntry (entry : OutboxEntry) : OutboxRow where
  entry := entry
  status := .pending
  leaseOwner := none
  leaseExpiresAt := none
  version := 0
  attemptCount := 0
  lastErrorCode := none
  lease_shape := .inr ⟨by decide, rfl, rfl⟩
  error_shape := rfl

/-- `SET` of `_CLAIM_SQL`. -/
def OutboxRow.claim (r : OutboxRow) (workerId : String) (leaseExpiresAt : Time) : OutboxRow where
  entry := r.entry
  status := .claimed
  leaseOwner := some workerId
  leaseExpiresAt := some leaseExpiresAt
  version := r.version + 1
  attemptCount := r.attemptCount + 1
  lastErrorCode := none
  lease_shape := .inl ⟨rfl, rfl, rfl⟩
  error_shape := rfl

/-- The outcome of a claim, and the columns that come with it. -/
inductive Outcome
  | succeeded
  | retry (availableAt : Time) (errorCode : String)
  | deadLetter (errorCode : String)
  deriving DecidableEq

def Outcome.status : Outcome → Status
  | .succeeded => .succeeded
  | .retry _ _ => .retry
  | .deadLetter _ => .deadLetter

def Outcome.errorCode : Outcome → Option String
  | .succeeded => none
  | .retry _ code | .deadLetter code => some code

/-- `available_at` is written with a retry only. -/
def Outcome.availableAt (before : Time) : Outcome → Time
  | .retry at_ _ => at_
  | .succeeded | .deadLetter _ => before

/-- `SET` of `_ACK_SQL`, `_RETRY_SQL`, `_DEAD_LETTER_SQL` and `_RECLAIM_SQL`: the lease is cleared
    and the version advanced. -/
def OutboxRow.settle (r : OutboxRow) (outcome : Outcome) : OutboxRow where
  entry := { r.entry with availableAt := outcome.availableAt r.entry.availableAt }
  status := outcome.status
  leaseOwner := none
  leaseExpiresAt := none
  version := r.version + 1
  attemptCount := r.attemptCount
  lastErrorCode := outcome.errorCode
  lease_shape := .inr ⟨by cases outcome <;> exact nofun, rfl, rfl⟩
  error_shape := by cases outcome <;> rfl

/-- The counters of a row fit their columns. -/
def OutboxRow.countersFit (r : OutboxRow) : Bool :=
  r.version ≤ maxBigint && r.attemptCount ≤ maxInteger

/-! ## Validation -/

def boundedText (value name : String) (pattern : Pattern) : Except Fault String :=
  if pattern.fullmatch value then .ok value
  else .error (.contract (name ++ " is not a valid bounded identifier"))

def positiveLimit (limit : ℤ) : Except Fault ℕ :=
  if 1 ≤ limit ∧ limit ≤ 1000 then .ok limit.toNat
  else .error (.contract "limit must be an integer between 1 and 1000")

def validateEntry (sha256 : List UInt8 → String) (entry : OutboxEntry) :
    Except Fault OutboxEntry := do
  let entryId ← boundedText entry.entryId "entry_id" safeId
  let topic ← boundedText entry.topic "topic" safeTopic
  let idempotencyKey ← boundedText entry.idempotencyKey "idempotency_key" safeId
  ensure (entry.canonicalPayload ≠ [] ∧ entry.canonicalPayload.length ≤ maxPayloadBytes)
    (.contract "canonical_payload must contain between 1 and 1048576 bytes")
  let payloadSha256 := entry.payloadSha256.toLower
  ensure (isSha256 payloadSha256)
    (.contract "payload_sha256 must be a lowercase SHA-256 digest")
  ensure (sha256 entry.canonicalPayload = payloadSha256)
    (.contract "canonical_payload does not match payload_sha256")
  pure { entryId, topic, canonicalPayload := entry.canonicalPayload, payloadSha256, idempotencyKey,
         availableAt := entry.availableAt }

def fenceInputs (entryId workerId : String) (expectedVersion : ℤ) :
    Except Fault (String × String × ℤ) := do
  let entryId ← boundedText entryId "entry_id" safeId
  let workerId ← boundedText workerId "worker_id" safeId
  ensure (1 ≤ expectedVersion) (.contract "expected_version must be a positive integer")
  pure (entryId, workerId, expectedVersion)

/-! ## Statements -/

/-- `_ENQUEUE_SQL`: the number of rows inserted. A conflict on the idempotency key is looked for
    before the row is inserted, so a conflict on the entry id is only met by a new key. -/
def enqueueSql (entry : OutboxEntry) : Work ℕ := do
  let rows ← Tx.get
  if rows.any fun r => r.entry.idempotencyKey = entry.idempotencyKey then pure 0
  else do
    require (!rows.any fun r => r.entryId = entry.entryId) (.database "23505")
    Tx.set (rows ++ [.ofEntry entry])
    pure 1

def readIdempotentSql (idempotencyKey : String) : Work (Option OutboxEntry) := do
  let rows ← Tx.get
  pure ((rows.find? fun r => r.entry.idempotencyKey = idempotencyKey).map (·.entry))

/-- `WHERE` of the candidates of `_CLAIM_SQL`. -/
def OutboxRow.claimable (r : OutboxRow) (topics : List String) (now : Time) : Bool :=
  (r.status = .pending || r.status = .retry) && topics.contains r.entry.topic &&
    r.entry.availableAt ≤ now

/-- `ORDER BY available_at, entry_id`. -/
def claimOrder (a b : OutboxRow) : Prop :=
  a.entry.availableAt < b.entry.availableAt ∨
    (a.entry.availableAt = b.entry.availableAt ∧ a.entryId ≤ b.entryId)

instance : DecidableRel claimOrder := fun a b => by unfold claimOrder; infer_instance

/-- `UPDATE … FROM candidates WHERE outbox.entry_id = candidates.entry_id RETURNING …`. -/
def updateReturning (candidates : List OutboxRow) (f : OutboxRow → OutboxRow) :
    Work (List OutboxRow) := do
  let rows ← Tx.get
  let chosen := fun r : OutboxRow => candidates.any fun c => c.entryId = r.entryId
  require (candidates.all fun c => (f c).countersFit) (.database "22003")
  Tx.set (updateWhere chosen f rows)
  pure ((rows.filter chosen).map f)

def claimSql (locked : String → Bool) (topics : List String) (now : Time) (limit : ℕ)
    (workerId : String) (leaseExpiresAt : Time) : Work (List OutboxRow) := do
  let rows ← Tx.get
  let candidates :=
    ((rows.filter fun r => r.claimable topics now && !locked r.entryId).insertionSort
      claimOrder).take limit
  updateReturning candidates (·.claim workerId leaseExpiresAt)

/-- The claim `(entryId, workerId, version)` holds its row at `now`: the `WHERE` of the
    settlements. -/
def OutboxRow.heldBy (r : OutboxRow) (entryId workerId : String) (expectedVersion : ℤ)
    (now : Time) : Bool :=
  r.entryId = entryId && r.status = .claimed && r.leaseOwner = some workerId &&
    (r.version : ℤ) = expectedVersion && r.leaseExpiresAt.any fun expires => now < expires

/-- `_ACK_SQL`, `_RETRY_SQL` and `_DEAD_LETTER_SQL`: the number of rows written. -/
def settleSql (outcome : Outcome) (entryId workerId : String) (expectedVersion : ℤ) (now : Time) :
    Work ℕ := do
  let rows ← Tx.get
  let held := fun r : OutboxRow => r.heldBy entryId workerId expectedVersion now
  require (rows.all fun r => !held r || r.version + 1 ≤ maxBigint) (.database "22003")
  Tx.set (updateWhere held (·.settle outcome) rows)
  pure (rows.countP held)

def readMalformedClaimSql : Work (Option String) := do
  let rows ← Tx.get
  pure ((rows.find? fun r =>
    r.status = .claimed && (r.leaseOwner.isNone || r.leaseExpiresAt.isNone)).map (·.entryId))

/-- `WHERE` of the rows of `_RECLAIM_SQL`. -/
def OutboxRow.expired (r : OutboxRow) (now : Time) : Bool :=
  r.status = .claimed && r.leaseExpiresAt.any fun expires => expires ≤ now

/-- `ORDER BY lease_expires_at, entry_id`. -/
def reclaimOrder (a b : OutboxRow) : Prop :=
  a.leaseExpiresAt.getD 0 < b.leaseExpiresAt.getD 0 ∨
    (a.leaseExpiresAt.getD 0 = b.leaseExpiresAt.getD 0 ∧ a.entryId ≤ b.entryId)

instance : DecidableRel reclaimOrder := fun a b => by unfold reclaimOrder; infer_instance

/-- `_RECLAIM_SQL`: the rows as they were, whose owner is returned, and as they are. -/
def reclaimSql (locked : String → Bool) (now : Time) (limit : ℕ) :
    Work (List (OutboxRow × OutboxRow)) := do
  let rows ← Tx.get
  let expired :=
    ((rows.filter fun r => r.expired now && !locked r.entryId).insertionSort reclaimOrder).take limit
  let written ← updateReturning expired (·.settle (.retry now "lease_expired"))
  pure (written.filterMap fun r =>
    (rows.find? fun before => before.entryId = r.entryId).map fun before => (before, r))

/-! ## Methods of `PostgresOutboxStore` -/

def requireSingleUpdate (rowcount : ℕ) (operation entryId : String) : Except Fault ℕ :=
  if rowcount ≠ 1 then
    .error (.plane ("outbox " ++ operation ++ " version fence rejected the operation")
      "outbox_fence_conflict" [("entry_id", entryId), ("operation", operation)])
  else .ok rowcount

def enqueue (sha256 : List UInt8 → String) (entry : OutboxEntry) : Work ℕ := do
  let exact ← ofExcept (validateEntry sha256 entry)
  let rowcount ← enqueueSql exact
  if rowcount = 1 then pure rowcount
  else do
    let conflict : Fault := .plane "outbox idempotency key already represents different work"
      "outbox_idempotency_conflict" [("entry_id", exact.entryId)]
    match ← readIdempotentSql exact.idempotencyKey with
    | none => raise conflict
    | some existing => do
      let existing ← ofExcept (validateEntry sha256 existing)
      if existing ≠ exact then raise conflict else pure rowcount

/-- The claim that a returned record of `_CLAIM_SQL` stands for. -/
def claimedEntry (sha256 : List UInt8 → String) (record : OutboxRow) :
    Except Fault ClaimedOutboxEntry := do
  let entry ← validateEntry sha256 record.entry
  let workerId ← record.leaseOwner.elim
    (.error (.plane "outbox returned an invalid text field" "outbox_record_invalid"
      [("field", "lease_owner")])) .ok
  let leaseExpiresAt ← record.leaseExpiresAt.elim
    (.error (.plane "outbox returned an invalid timestamp field" "outbox_record_invalid"
      [("field", "lease_expires_at")])) .ok
  pure { entry, workerId, leaseExpiresAt, expectedVersion := record.version,
         attempt := record.attemptCount }

/-- `(item.entry.available_at, item.entry.entry_id)`. -/
def claimedOrder (a b : ClaimedOutboxEntry) : Prop :=
  a.entry.availableAt < b.entry.availableAt ∨
    (a.entry.availableAt = b.entry.availableAt ∧ a.entry.entryId ≤ b.entry.entryId)

instance : DecidableRel claimedOrder := fun a b => by unfold claimedOrder; infer_instance

def claim (sha256 : List UInt8 → String) (locked : String → Bool) (workerId : String)
    (topics : List String) (now leaseDuration : Time) (limit : ℤ) :
    Work (List ClaimedOutboxEntry) := do
  let workerId ← ofExcept (boundedText workerId "worker_id" safeId)
  require (topics ≠ []) (.contract "topics must be a non-empty tuple")
  let topics ← ofExcept (topics.mapM fun topic => boundedText topic "topic" safeTopic)
  require topics.Nodup (.contract "topics must not contain duplicates")
  require (0 < leaseDuration ∧ leaseDuration ≤ maxLeaseDuration)
    (.contract "lease_duration must be positive and no greater than 24 hours")
  let limit ← ofExcept (positiveLimit limit)
  let records ← claimSql locked topics now limit workerId (now + leaseDuration)
  let claimed ← ofExcept (records.mapM (claimedEntry sha256))
  require (!claimed.any fun item => item.workerId ≠ workerId)
    (.plane "outbox claim returned a different worker" "outbox_record_invalid" [])
  pure (claimed.insertionSort claimedOrder)

/-- The body that `ack`, `retry` and `dead_letter` share. -/
def settle (outcome : Outcome) (operation entryId workerId : String) (expectedVersion : ℤ)
    (now : Time) : Work ℕ := do
  let (entryId, workerId, expectedVersion) ←
    ofExcept (fenceInputs entryId workerId expectedVersion)
  let _ ← ofExcept (outcome.errorCode.mapM (boundedText · "error_code" safeErrorCode))
  let rowcount ← settleSql outcome entryId workerId expectedVersion now
  ofExcept (requireSingleUpdate rowcount operation entryId)

def ack (entryId workerId : String) (expectedVersion : ℤ) (now : Time) : Work ℕ :=
  settle .succeeded "ack" entryId workerId expectedVersion now

def retry (entryId workerId : String) (expectedVersion : ℤ) (availableAt : Time)
    (errorCode : String) (now : Time) : Work ℕ :=
  settle (.retry availableAt errorCode) "retry" entryId workerId expectedVersion now

def deadLetter (entryId workerId : String) (expectedVersion : ℤ) (errorCode : String)
    (now : Time) : Work ℕ :=
  settle (.deadLetter errorCode) "dead-letter" entryId workerId expectedVersion now

/-- The item that a returned record of `_RECLAIM_SQL` stands for. -/
def reclaimedEntry (record : OutboxRow × OutboxRow) : Except Fault ReclaimedOutboxEntry := do
  let bounded (value field : String) : Except Fault String :=
    if safeId.fullmatch value then .ok value
    else .error (.plane "outbox returned an invalid bounded identifier" "outbox_record_invalid"
      [("field", field)])
  let entryId ← bounded record.2.entryId "entry_id"
  let previousWorkerId ← record.1.leaseOwner.elim
    (.error (.plane "outbox returned an invalid text field" "outbox_record_invalid"
      [("field", "previous_worker_id")])) (bounded · "previous_worker_id")
  ensure (1 ≤ record.2.version) (.plane "outbox returned an invalid reclaimed version"
    "outbox_record_invalid" [("field", "version")])
  pure { entryId, previousWorkerId, expectedVersion := record.2.version,
         availableAt := record.2.entry.availableAt }

def reclaimedOrder (a b : ReclaimedOutboxEntry) : Prop :=
  a.availableAt < b.availableAt ∨ (a.availableAt = b.availableAt ∧ a.entryId ≤ b.entryId)

instance : DecidableRel reclaimedOrder := fun a b => by unfold reclaimedOrder; infer_instance

def reclaimExpired (locked : String → Bool) (now : Time) (limit : ℤ) :
    Work (List ReclaimedOutboxEntry) := do
  let malformed ← readMalformedClaimSql
  require malformed.isNone
    (.plane "outbox contains a malformed claimed lease" "outbox_lease_invalid" [])
  let limit ← ofExcept (positiveLimit limit)
  let records ← reclaimSql locked now limit
  let reclaimed ← ofExcept (records.mapM reclaimedEntry)
  pure (reclaimed.insertionSort reclaimedOrder)

/-! ## Calls and runs -/

/-- A call of a method, with the rows that concurrent transactions have locked. -/
inductive Call
  | enqueue (entry : OutboxEntry)
  | claim (locked : String → Bool) (workerId : String) (topics : List String)
      (now leaseDuration : Time) (limit : ℤ)
  | ack (entryId workerId : String) (expectedVersion : ℤ) (now : Time)
  | retry (entryId workerId : String) (expectedVersion : ℤ) (availableAt : Time)
      (errorCode : String) (now : Time)
  | deadLetter (entryId workerId : String) (expectedVersion : ℤ) (errorCode : String) (now : Time)
  | reclaimExpired (locked : String → Bool) (now : Time) (limit : ℤ)

/-- What a call that returned has reported about an entry. -/
inductive Event
  | claimed (claim : ClaimedOutboxEntry)
  | settled (entryId workerId : String) (expectedVersion : ℕ)
  | reclaimed (item : ReclaimedOutboxEntry)
  deriving DecidableEq

/-- The body of a call, with what it reports. -/
def exec (sha256 : List UInt8 → String) : Call → Work (List Event)
  | .enqueue entry => do
    let _ ← enqueue sha256 entry
    pure []
  | .claim locked workerId topics now leaseDuration limit => do
    let claimed ← claim sha256 locked workerId topics now leaseDuration limit
    pure (claimed.map .claimed)
  | .ack entryId workerId expectedVersion now => do
    let _ ← ack entryId workerId expectedVersion now
    pure [.settled entryId workerId expectedVersion.toNat]
  | .retry entryId workerId expectedVersion availableAt errorCode now => do
    let _ ← retry entryId workerId expectedVersion availableAt errorCode now
    pure [.settled entryId workerId expectedVersion.toNat]
  | .deadLetter entryId workerId expectedVersion errorCode now => do
    let _ ← deadLetter entryId workerId expectedVersion errorCode now
    pure [.settled entryId workerId expectedVersion.toNat]
  | .reclaimExpired locked now limit => do
    let reclaimed ← reclaimExpired locked now limit
    pure (reclaimed.map .reclaimed)

/-- The table with everything that has been reported so far. -/
structure State where
  table : Table
  log : List Event

def State.step (sha256 : List UInt8 → String) (call : Call) (o : State) : State where
  table := (exec sha256 call).commit o.table
  log := o.log ++ ((exec sha256 call).reply o.table).toOption.getD []

def State.run (sha256 : List UInt8 → String) (calls : List Call) (o : State) : State :=
  AstralPlane.run (State.step sha256) calls o

end AstralPlane.Outbox
