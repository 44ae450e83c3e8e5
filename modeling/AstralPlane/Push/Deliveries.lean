/-
  The calls on push deliveries, and the runs of the repository.

  The statement of `claim_deliveries` does two things at once: a claim that has
  expired on its last attempt becomes a dead letter, and the first deliveries
  that are due get a new claim.  `FOR UPDATE SKIP LOCKED` passes over rows that
  another transaction has locked; a call is given those as `locked`.
-/
import AstralPlane.Push.Model

namespace AstralPlane.Push

open Tx
open Repositories
open Python (Bytes)

/-! ## Enqueueing -/

/-- The arguments of `enqueue_delivery`; `inbox` is the live entry of the owner, if there is one. -/
structure EnqueueRequest where
  deliveryId : Uuid
  ownerId : String
  entryId : Uuid
  destinationId : Uuid
  key : String
  destinationRevision : ℕ
  tokenVersion : ℕ
  maxAttempts : ℕ
  availableAt : ℕ
  createdAt : ℕ
  inbox : Option Content

def EnqueueRequest.check (q : EnqueueRequest) : Except ValidationError Unit := do
  let _ ← requiredId q.ownerId "owner_id"
  let _ ← boundedText q.key "delivery_key" 512
  requiredInteger q.destinationRevision "expected_destination_revision" 1
  requiredInteger q.tokenVersion "expected_token_version" 1
  requiredInteger q.maxAttempts "max_attempts" 1 maxAttemptsBound
  requiredInteger q.availableAt "available_at"
  requiredInteger q.createdAt "created_at"
  ensure (q.createdAt ≤ q.availableAt) ⟨"available_at must not precede created_at", []⟩

/-- The destination is one that the delivery may be enqueued for. -/
def EnqueueRequest.checkTarget (q : EnqueueRequest) (target : Destination) :
    Tx Store Failure Unit := do
  require target.deletedAt.isNone
    (.conflict "deleted push destination cannot receive deliveries")
  require target.revokedAt.isNone
    (.conflict "revoked push destination cannot receive deliveries")
  require (target.revision = q.destinationRevision)
    (.conflict "push destination revision is stale")
  require (target.tokenVersion = q.tokenVersion)
    (.conflict "push destination token version is stale")

/-- The row that `enqueue_delivery` inserts. -/
def EnqueueRequest.delivery (q : EnqueueRequest) (content : Content) : Delivery where
  ownerId := q.ownerId
  entryId := q.entryId
  destinationId := q.destinationId
  key := q.key
  content := content
  tokenVersion := q.tokenVersion
  destinationRevision := q.destinationRevision
  maxAttempts := q.maxAttempts
  availableAt := q.availableAt
  createdAt := q.createdAt
  updatedAt := q.createdAt

/-- What a replay may not change. -/
structure Semantics where
  entryId : Uuid
  destinationId : Uuid
  key : String
  content : Content
  tokenVersion : ℕ
  destinationRevision : ℕ
  maxAttempts : ℕ
  availableAt : ℕ
  createdAt : ℕ
  deriving DecidableEq

def Delivery.semantics (d : Delivery) : Semantics :=
  ⟨d.entryId, d.destinationId, d.key, d.content, d.tokenVersion, d.destinationRevision,
    d.maxAttempts, d.availableAt, d.createdAt⟩

/-- `get_delivery_by_key`. -/
def Store.deliveryByKey (s : Store) (ownerId key : String) : Option Delivery :=
  (s.deliveries.rows.map (·.val)).find? fun d => d.ownerId = ownerId && d.key = key

/-- The reply of `enqueue_delivery` to a replay. -/
def enqueuedBefore (wanted : Delivery) : Tx Store Failure Delivery := do
  let s ← Tx.get
  match s.deliveryByKey wanted.ownerId wanted.key with
  | none => raise (.conflict "push delivery identity already exists")
  | some d => do
    let existing ← deliveryRecord d
    require (existing.semantics = wanted.semantics)
      (.conflict "push delivery replay changed immutable delivery semantics")
    pure existing

/-- `INSERT INTO notification_push_delivery … ON CONFLICT DO NOTHING`, and the reply. -/
def insertDelivery (deliveryId : Uuid) (d : Delivery) : Tx Store Failure Delivery := do
  let inserted ← onDeliveries (Sql.insertOrNothing deliveryId d
    fun d' => d'.ownerId = d.ownerId && d'.key = d.key)
  match inserted with
  | some row => deliveryRecord row
  | none => enqueuedBefore d

def enqueueDelivery (q : EnqueueRequest) : Tx Store Failure Delivery := do
  argument q.check
  let target ← getDestination q.ownerId q.destinationId
  q.checkTarget target
  match q.inbox with
  | none => raise (.notFound "notification inbox entry not found")
  | some content => insertDelivery q.deliveryId (q.delivery content)

/-! ## Claims -/

/-- The arguments of `claim_deliveries`; the claim id is drawn in the call. -/
structure ClaimRequest where
  ownerId : String
  workerId : String
  now : ℕ
  leaseExpiresAt : ℕ
  limit : ℕ
  claimId : Uuid
  locked : Uuid → Bool := fun _ => false

/-- The destination is live, at the revision that the delivery was enqueued for. -/
def Destination.isTargetOf (t : Destination) (d : Delivery) : Bool :=
  t.isLive && t.tokenVersion = d.tokenVersion && t.revision = d.destinationRevision

/-- The destination of a delivery, joined on its id and its owner. -/
def Store.joined (s : Store) (d : Delivery) : Option Destination :=
  s.destination d.ownerId d.destinationId

def Delivery.leaseExpired (now : ℕ) (d : Delivery) : Bool :=
  d.status = .claimed && d.leaseExpiresAt.any (· ≤ now)

def Delivery.isExhausted (ownerId : String) (now : ℕ) (d : Delivery) : Bool :=
  d.ownerId = ownerId && d.leaseExpired now && d.maxAttempts ≤ d.attemptCount

/-- A claim that expired on the last attempt. -/
def Delivery.deadLettered (now : ℕ) (d : Delivery) : Delivery :=
  { d with
    status := .deadLetter
    leaseOwner := none
    leaseExpiresAt := none
    lastErrorCode := some "lease_expired"
    version := d.version + 1
    updatedAt := now }

def Delivery.isDue (ownerId : String) (now : ℕ) (d : Delivery) : Bool :=
  d.ownerId = ownerId && d.attemptCount < d.maxAttempts &&
    ((d.status.isWaiting && d.availableAt ≤ now) || d.leaseExpired now)

/-- The new claim of a delivery. -/
def Delivery.claimed (q : ClaimRequest) (d : Delivery) : Delivery :=
  { d with
    status := .claimed
    leaseOwner := some q.workerId
    claimId := some q.claimId
    leaseExpiresAt := some q.leaseExpiresAt
    claimedAt := some q.now
    attemptCount := d.attemptCount + 1
    lastErrorCode := none
    version := d.version + 1
    updatedAt := q.now }

/-- The keys of the deliveries that meet a condition. -/
def Store.select (s : Store) (p : Uuid → Delivery → Bool) : List (Uuid × Delivery) :=
  (s.deliveries.entries.filter fun e => p e.1 e.2.val).map fun e => (e.1, e.2.val)

/-- The CTE `exhausted`. -/
def Store.exhausted (s : Store) (q : ClaimRequest) : List Uuid :=
  (s.select fun _ d => d.isExhausted q.ownerId q.now).map (·.1)

/-- The rows that the CTE `candidates` goes through. -/
def Store.claimable (s : Store) (q : ClaimRequest) : List (Uuid × Delivery) :=
  s.select fun deliveryId d =>
    d.isDue q.ownerId q.now && (s.joined d).any (·.isTargetOf d) && !q.locked deliveryId

/-- The CTE `candidates`: `ORDER BY available_at, delivery_id … LIMIT`. -/
def Store.candidates (s : Store) (q : ClaimRequest) : List (Uuid × Delivery) :=
  (orderBy (fun e => (e.2.availableAt, e.1.int)) (s.claimable q)).take q.limit

/-- The keys of the outer update. -/
def Store.toClaim (s : Store) (q : ClaimRequest) : List Uuid :=
  ((s.candidates q).filter (·.2.version < maxSafeInteger)).map (·.1)

/-- `ClaimedPushDelivery`. -/
structure Claimed where
  deliveryId : Uuid
  delivery : Delivery
  token : Token
  deriving DecidableEq

/-- `_claimed_record`, with the columns that the statement returns of the destination. -/
def claimedRecord (s : Store) (row : Uuid × Delivery) : Tx Store Failure Claimed := do
  let delivery ← deliveryRecord row.2
  match (s.joined row.2).bind (·.token) with
  | none => raise (.data "claimed push delivery is missing its opaque destination token")
  | some token => pure ⟨row.1, delivery, token⟩

def claimSql (q : ClaimRequest) : Tx Store Failure (List (Uuid × Delivery)) := do
  let s ← Tx.get
  let _ ← onDeliveries (Sql.updateKeys (·.deadLettered q.now) (s.exhausted q))
  onDeliveries (Sql.updateKeys (·.claimed q) (s.toClaim q))

def ClaimRequest.check (q : ClaimRequest) : Except ValidationError Unit := do
  let _ ← requiredId q.ownerId "owner_id"
  let _ ← boundedText q.workerId "worker_id" 512
  leaseBounds q.now q.leaseExpiresAt
  boundedLimit q.limit 100

def claimDeliveries (q : ClaimRequest) : Tx Store Failure (List Claimed) := do
  argument q.check
  let rows ← claimSql q
  let s ← Tx.get
  let claimed ← Tx.collect (claimedRecord s) rows
  require (claimed.all fun c => c.delivery.leaseOwner = some q.workerId)
    (.data "push claim returned a different worker")
  pure (orderBy (fun c => (c.delivery.availableAt, c.deliveryId.int)) claimed)

/-! ## Results -/

def getDelivery (ownerId : String) (deliveryId : Uuid) : Tx Store Failure Delivery := do
  let s ← Tx.get
  match ((s.deliveries.lookup deliveryId).map (·.val)).filter (·.ownerId = ownerId) with
  | none => raise (.notFound "push delivery not found")
  | some d => deliveryRecord d

/-- What a worker shows of its claim. -/
structure ClaimKey where
  ownerId : String
  deliveryId : Uuid
  claimId : Uuid

def ClaimKey.meets (k : ClaimKey) (d : Delivery) : Bool :=
  d.ownerId = k.ownerId && d.claimId = some k.claimId

def Delivery.acknowledged (at_ : ℕ) (d : Delivery) : Delivery :=
  { d with
    status := .delivered
    leaseOwner := none
    leaseExpiresAt := none
    acknowledgedAt := some at_
    lastErrorCode := none
    version := d.version + 1
    updatedAt := at_ }

/-- The reply of `acknowledge_delivery` where nothing was written. -/
def acknowledgmentMiss (claimId : Uuid) (at_ : ℕ) (existing : Delivery) :
    Tx Store Failure Delivery :=
  if existing.status = .delivered && existing.claimId = some claimId &&
      existing.acknowledgedAt = some at_ then
    pure existing
  else do
    require (existing.status ≠ .delivered) (.conflict "push delivery was already acknowledged")
    require (existing.claimId = some claimId) (.conflict "push delivery claim was superseded")
    require existing.acknowledgedAt.isNone
      (.conflict "push delivery already carries an acknowledgment")
    require existing.claimedAt.isSome (.conflict "push delivery has no claim to acknowledge")
    require (existing.claimedAt.all (· ≤ at_) && existing.updatedAt ≤ at_)
      (.conflict "acknowledgment precedes the claimed delivery state")
    require (existing.version < maxSafeInteger) (.conflict "push delivery version is exhausted")
    raise (.conflict "push delivery acknowledgment fence rejected")

def acknowledgeDelivery (k : ClaimKey) (at_ : ℕ) : Tx Store Failure Delivery := do
  let _ ← argument (requiredId k.ownerId "owner_id")
  argument (requiredInteger at_ "acknowledged_at")
  let changed ← onDeliveries (Sql.updateReturning k.deliveryId
    (fun d => k.meets d && d.status ≠ .pending && d.status ≠ .delivered &&
      d.acknowledgedAt.isNone && d.claimedAt.any (· ≤ at_) && d.updatedAt ≤ at_ &&
      d.version < maxSafeInteger)
    (·.acknowledged at_))
  match changed with
  | some d => deliveryRecord d
  | none => do
    let existing ← getDelivery k.ownerId k.deliveryId
    acknowledgmentMiss k.claimId at_ existing

/-- There is no attempt left, or the caller wants none. -/
def Delivery.givesUp (retryAt : Option ℕ) (d : Delivery) : Bool :=
  d.maxAttempts ≤ d.attemptCount || retryAt.isNone

def Delivery.failed (errorCode : String) (failedAt : ℕ) (retryAt : Option ℕ) (d : Delivery) :
    Delivery :=
  { d with
    status := if d.givesUp retryAt then .deadLetter else .retry
    availableAt := if d.givesUp retryAt then d.availableAt else retryAt.getD d.availableAt
    leaseOwner := none
    leaseExpiresAt := none
    lastErrorCode := some errorCode
    version := d.version + 1
    updatedAt := failedAt }

/-- The reply of `fail_delivery` where nothing was written. -/
def failureMiss (claimId : Uuid) (errorCode : String) (failedAt : ℕ) (retryAt : Option ℕ)
    (existing : Delivery) : Tx Store Failure Delivery :=
  if existing.claimId = some claimId && existing.status.hasError &&
      existing.lastErrorCode = some errorCode && retryAt.all (existing.availableAt = ·) &&
      existing.updatedAt = failedAt then
    pure existing
  else do
    require (existing.claimId = some claimId) (.conflict "push delivery claim was superseded")
    require (existing.acknowledgedAt.isNone && existing.status ≠ .delivered)
      (.conflict "acknowledged push delivery cannot fail")
    require (existing.status = .claimed || existing.status = .retry)
      (.conflict "push delivery is not claimable for failure")
    require (existing.updatedAt < failedAt) (.conflict "push delivery failure time regressed")
    require (existing.version < maxSafeInteger) (.conflict "push delivery version is exhausted")
    raise (.conflict "push delivery failure fence rejected")

def failDelivery (k : ClaimKey) (errorCode : String) (failedAt : ℕ) (retryAt : Option ℕ) :
    Tx Store Failure Delivery := do
  let _ ← argument (requiredId k.ownerId "owner_id")
  argument (requiredInteger failedAt "failed_at")
  argument (requiredErrorCode errorCode)
  argument (match retryAt with
    | none => .ok ()
    | some t => requiredInteger t "retry_at" failedAt)
  let changed ← onDeliveries (Sql.updateReturning k.deliveryId
    (fun d => k.meets d && (d.status = .claimed || d.status = .retry) && d.acknowledgedAt.isNone &&
      d.claimedAt.any (· ≤ failedAt) && d.updatedAt < failedAt && d.version < maxSafeInteger)
    (·.failed errorCode failedAt retryAt))
  match changed with
  | some d => deliveryRecord d
  | none => do
    let existing ← getDelivery k.ownerId k.deliveryId
    failureMiss k.claimId errorCode failedAt retryAt existing

/-! ## Deliveries whose destination has changed -/

/-- The arguments of `expire_stale_deliveries`. -/
structure ExpireRequest where
  ownerId : String
  expiredAt : ℕ
  limit : ℕ
  locked : Uuid → Bool := fun _ => false

/-- The rows that the CTE `stale` goes through. -/
def Store.withdrawable (s : Store) (q : ExpireRequest) : List (Uuid × Delivery) :=
  s.select fun deliveryId d =>
    d.ownerId = q.ownerId && d.status.isWaiting && d.version < maxSafeInteger &&
      (s.joined d).any (!·.isTargetOf d) && !q.locked deliveryId

/-- The CTE `stale`: `ORDER BY created_at, delivery_id … LIMIT`. -/
def Store.stale (s : Store) (q : ExpireRequest) : List Uuid :=
  ((orderBy (fun e => (e.2.createdAt, e.1.int)) (s.withdrawable q)).take q.limit).map (·.1)

/-- The delivery is withdrawn; the columns that the statement does not set stay. -/
def Delivery.superseded (expiredAt : ℕ) (d : Delivery) : Delivery :=
  { d with
    status := .superseded
    leaseOwner := none
    leaseExpiresAt := none
    version := d.version + 1
    updatedAt := expiredAt }

def expireStaleDeliveries (q : ExpireRequest) : Tx Store Failure (List Delivery) := do
  let _ ← argument (requiredId q.ownerId "owner_id")
  argument (requiredInteger q.expiredAt "expired_at")
  argument (boundedLimit q.limit 100)
  let s ← Tx.get
  let rows ← onDeliveries (Sql.updateKeys (·.superseded q.expiredAt) (s.stale q))
  let records ← Tx.collect (fun row => (row.1, ·) <$> deliveryRecord row.2) rows
  pure ((orderBy (fun e => (e.2.createdAt, e.1.int)) records).map (·.2))

/-! ## Runs -/

inductive Call
  | register (destinationId : Uuid) (ownerId key : String) (token : Token) (createdAt : ℕ)
  | rotate (ownerId : String) (destinationId : Uuid) (revision tokenVersion : ℕ) (token : Token)
      (rotatedAt : ℕ)
  | revoke (ownerId : String) (destinationId : Uuid) (revision revokedAt : ℕ)
  | delete (ownerId : String) (destinationId : Uuid) (revision deletedAt : ℕ)
  | enqueue (q : EnqueueRequest)
  | claim (q : ClaimRequest)
  | acknowledge (k : ClaimKey) (acknowledgedAt : ℕ)
  | fail (k : ClaimKey) (errorCode : String) (failedAt : ℕ) (retryAt : Option ℕ)
  | expireStale (q : ExpireRequest)

/-- A call, with the claims that it returns. -/
def Call.exec (hash : Bytes → String) : Call → Tx Store Failure (List Claimed)
  | .register destinationId ownerId key token createdAt =>
    (fun _ => []) <$> registerDestination hash destinationId ownerId key token createdAt
  | .rotate ownerId destinationId revision tokenVersion token rotatedAt =>
    (fun _ => []) <$>
      rotateDestinationToken hash ownerId destinationId revision tokenVersion token rotatedAt
  | .revoke ownerId destinationId revision revokedAt =>
    (fun _ => []) <$> revokeDestination ownerId destinationId revision revokedAt
  | .delete ownerId destinationId revision deletedAt =>
    (fun _ => []) <$> deleteDestination ownerId destinationId revision deletedAt
  | .enqueue q => (fun _ => []) <$> enqueueDelivery q
  | .claim q => claimDeliveries q
  | .acknowledge k at_ => (fun _ => []) <$> acknowledgeDelivery k at_
  | .fail k errorCode failedAt retryAt => (fun _ => []) <$> failDelivery k errorCode failedAt retryAt
  | .expireStale q => (fun _ => []) <$> expireStaleDeliveries q

/-- What the log keeps: the tokens that destinations had, the deliveries and their claims. -/
inductive Event
  | stored (destinationId : Uuid) (revision : ℕ) (token : Option Token)
  | enqueued (deliveryId destinationId : Uuid) (revision : ℕ)
  | claimed (deliveryId claimId : Uuid) (destinationId : Uuid) (revision : ℕ) (token : Token)
  deriving DecidableEq

/-- The destinations that a call has written, with their tokens. -/
def storedEvents (s s' : Store) : List Event :=
  (s'.destinations.entries.filter fun e => s.destinations.lookup e.1 ≠ some e.2).map fun e =>
    .stored e.1 e.2.val.revision e.2.val.token

/-- The deliveries that a call has made. -/
def enqueuedEvents (s s' : Store) : List Event :=
  (s'.deliveries.entries.filter fun e => (s.deliveries.lookup e.1).isNone).map fun e =>
    .enqueued e.1 e.2.val.destinationId e.2.val.destinationRevision

def Claimed.event (c : Claimed) : Event :=
  .claimed c.deliveryId (c.delivery.claimId.getD ⟨0⟩) c.delivery.destinationId
    c.delivery.destinationRevision c.token

def claimsOf : Except Failure (List Claimed) → List Claimed
  | .ok l => l
  | .error _ => []

structure State where
  store : Store
  log : List Event

def step (hash : Bytes → String) (c : Call) (s : State) : State :=
  let s' := (c.exec hash).commit s.store
  { store := s'
    log := s.log ++ storedEvents s.store s' ++ enqueuedEvents s.store s' ++
      (claimsOf ((c.exec hash).reply s.store)).map Claimed.event }

/-- The state after some calls on empty tables. -/
def after (hash : Bytes → String) (calls : List Call) : State := run (step hash) calls ⟨⟨∅, ∅⟩, []⟩

end AstralPlane.Push
