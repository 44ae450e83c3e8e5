/-
  Push destinations and deliveries (`repositories/push_deliveries.py`, tables
  `notification_device_destination` and `notification_push_delivery`).

  A delivery is enqueued for a destination at one revision of it.  A worker
  claims it for the time of a lease and acknowledges it, or lets it fail; a
  failed or abandoned one is claimed again until its attempts are used up.  The
  owner rotates, revokes or deletes the destination meanwhile: a delivery is
  claimed only as long as the destination is at the revision that it was enqueued
  for, and `expire_stale_deliveries` withdraws those that wait for another one.
  The inbox entry that a delivery is made from is an argument here.
-/
import AstralPlane.Python.Text
import AstralPlane.Repositories
import AstralPlane.Rows
import AstralPlane.Sql

namespace AstralPlane.Push

open Tx
open Repositories
open Python (Bytes)

/-! ## Records -/

/-- `_MAX_INTEGER`. -/
def maxSafeInteger : ℕ := 9007199254740991

def maxContentBytes : ℕ := 65536

def maxAttemptsBound : ℕ := 100

def maxLeaseSeconds : ℕ := 86400

/-- The three columns of a token: a destination has all of them or none. -/
structure Token where
  format : String
  ciphertext : Bytes
  sha256 : String
  deriving DecidableEq

/-- `PushDestinationRecord`, without its id. -/
structure Destination where
  ownerId : String
  key : String
  token : Option Token
  tokenVersion : ℕ := 1
  revision : ℕ := 1
  createdAt : ℕ
  updatedAt : ℕ
  revokedAt : Option ℕ := none
  deletedAt : Option ℕ := none
  deriving DecidableEq

def Token.inRange (t : Token) : Bool :=
  1 ≤ t.format.length && t.format.length ≤ 128 && 1 ≤ t.ciphertext.length &&
    t.ciphertext.length ≤ maxContentBytes && isSha256 t.sha256

def isPositive (n : ℕ) : Bool := 1 ≤ n && n ≤ maxSafeInteger

def isName (maximum : ℕ) (s : String) : Bool := 1 ≤ s.length && s.length ≤ maximum

instance : Columns Destination where
  refusal d :=
    if isName 512 d.ownerId && isName 512 d.key && isPositive d.tokenVersion &&
        isPositive d.revision && d.createdAt ≤ maxSafeInteger && d.updatedAt ≤ maxSafeInteger &&
        d.revokedAt.all (· ≤ maxSafeInteger) && d.deletedAt.all (· ≤ maxSafeInteger) &&
        d.deletedAt.isNone = d.token.isSome && d.token.all (·.inRange) &&
        -- `notification_device_destination_time_order`
        d.createdAt ≤ d.updatedAt && d.revokedAt.all (d.createdAt ≤ ·) &&
        d.deletedAt.all (d.createdAt ≤ ·) &&
        d.deletedAt.all (fun t => d.revokedAt.all (· ≤ t)) && d.deletedAt.all (· = d.updatedAt) &&
        (d.deletedAt.isSome || d.revokedAt.getD d.createdAt ≤ d.updatedAt) then none
    else some "23514"

inductive EventKind
  | completion | failure | requiredAction
  deriving DecidableEq

/-- What a delivery takes over from the inbox entry. -/
structure Content where
  eventKind : EventKind
  format : String
  ciphertext : Bytes
  sha256 : String
  deriving DecidableEq

def Content.inRange (c : Content) : Bool :=
  isName 128 c.format && 1 ≤ c.ciphertext.length && c.ciphertext.length ≤ maxContentBytes &&
    isSha256 c.sha256

inductive Status
  | pending | claimed | retry | delivered | deadLetter | superseded
  deriving DecidableEq, Repr

def Status.isWaiting (p : Status) : Bool := p = .pending || p = .retry

def Status.hasError (p : Status) : Bool := p = .retry || p = .deadLetter

/-- `PushDeliveryRecord`, without its id. -/
structure Delivery where
  ownerId : String
  entryId : Uuid
  destinationId : Uuid
  key : String
  content : Content
  tokenVersion : ℕ
  destinationRevision : ℕ
  status : Status := .pending
  attemptCount : ℕ := 0
  maxAttempts : ℕ
  availableAt : ℕ
  leaseOwner : Option String := none
  claimId : Option Uuid := none
  leaseExpiresAt : Option ℕ := none
  claimedAt : Option ℕ := none
  acknowledgedAt : Option ℕ := none
  lastErrorCode : Option String := none
  createdAt : ℕ
  updatedAt : ℕ
  version : ℕ := 0
  deriving DecidableEq

/-- `^[a-z][a-z0-9_.-]{0,127}$`. -/
def isErrorCode (s : String) : Bool :=
  match s.toList with
  | [] => false
  | c :: cs => c.isLower && cs.length ≤ 127 &&
      cs.all fun d => d.isLower || d.isDigit || d == '_' || d == '.' || d == '-'

namespace Delivery

/-- The checks of single columns that an update may run into. -/
def inRange (d : Delivery) : Bool :=
  d.attemptCount ≤ maxAttemptsBound && d.attemptCount ≤ d.maxAttempts &&
    d.leaseOwner.all (isName 512) && d.leaseExpiresAt.all (· ≤ maxSafeInteger) &&
    d.claimedAt.all (· ≤ maxSafeInteger) && d.acknowledgedAt.all (· ≤ maxSafeInteger) &&
    d.availableAt ≤ maxSafeInteger && d.lastErrorCode.all isErrorCode &&
    d.updatedAt ≤ maxSafeInteger && d.version ≤ maxSafeInteger

/-- The checks of the columns that are only written once. -/
def identityInRange (d : Delivery) : Bool :=
  isName 512 d.ownerId && isName 512 d.key && d.content.inRange && isPositive d.tokenVersion &&
    isPositive d.destinationRevision && 1 ≤ d.maxAttempts && d.maxAttempts ≤ maxAttemptsBound &&
    d.createdAt ≤ maxSafeInteger

def statusShape (d : Delivery) : Bool :=
  if d.status = .claimed then
    d.leaseOwner.isSome && d.claimId.isSome && d.leaseExpiresAt.isSome && d.claimedAt.isSome &&
      d.acknowledgedAt.isNone
  else d.leaseOwner.isNone && d.leaseExpiresAt.isNone

def claimShape (d : Delivery) : Bool :=
  d.claimId.isSome = (0 < d.attemptCount : Bool) && d.claimedAt.isSome = (0 < d.attemptCount : Bool)

def terminalShape (d : Delivery) : Bool :=
  if d.status = .delivered then d.acknowledgedAt.isSome && d.lastErrorCode.isNone
  else d.acknowledgedAt.isNone

def errorShape (d : Delivery) : Bool := d.lastErrorCode.isSome = d.status.hasError

/-- `notification_push_delivery_time_order`; a comparison with NULL refuses nothing. -/
def timeOrder (d : Delivery) : Bool :=
  d.createdAt ≤ d.updatedAt && d.createdAt ≤ d.availableAt && d.claimedAt.all (d.createdAt ≤ ·) &&
    d.leaseExpiresAt.all (fun t => d.claimedAt.any (· < t)) &&
    d.acknowledgedAt.all (fun t => d.claimedAt.any (· ≤ t)) &&
    (d.status ≠ .delivered || d.acknowledgedAt.all (· = d.updatedAt)) &&
    (!d.status.hasError || d.claimedAt.all (· ≤ d.updatedAt))

end Delivery

instance : Columns Delivery where
  refusal d :=
    if d.inRange && d.identityInRange && d.statusShape && d.claimShape && d.terminalShape &&
        d.errorShape && d.timeOrder then none
    else some "23514"

structure Store where
  destinations : Keyed Uuid (Row Destination)
  deliveries : Keyed Uuid (Row Delivery)

/-! ## Checks -/

def requiredInteger (value : ℕ) (field : String) (minimum : ℕ := 0)
    (maximum : ℕ := maxSafeInteger) : Except ValidationError Unit :=
  ensure (minimum ≤ value && value ≤ maximum) ⟨field ++ " must be a bounded integer",
    [("field", field), ("minimum", toString minimum), ("maximum", toString maximum)]⟩

def requiredBytes (value : Bytes) (field : String) (maximum : ℕ) : Except ValidationError Unit :=
  ensure (1 ≤ value.length && value.length ≤ maximum)
    ⟨field ++ " is outside the supported byte range", [("field", field), ("maximum", toString maximum)]⟩

def requiredDigest (value field : String) : Except ValidationError Unit := do
  let _ ← boundedText value field 64
  ensure (isSha256 value) ⟨field ++ " must be a lowercase SHA-256 digest", []⟩

def requiredErrorCode (value : String) : Except ValidationError Unit :=
  ensure (isErrorCode value) ⟨"last_error_code is not a bounded error code", []⟩

def leaseBounds (now leaseExpiresAt : ℕ) : Except ValidationError Unit := do
  requiredInteger now "now"
  requiredInteger leaseExpiresAt "lease_expires_at" 1
  ensure (now < leaseExpiresAt) ⟨"lease_expires_at must be later than now", []⟩
  ensure (leaseExpiresAt - now ≤ maxLeaseSeconds) ⟨"lease duration exceeds its supported bound", []⟩

/-- The token of a call, whose digest is that of its ciphertext. -/
def Token.check (hash : Bytes → String) (t : Token) : Except ValidationError Unit := do
  let _ ← boundedText t.format "token_format" 128
  requiredBytes t.ciphertext "token_ciphertext" maxContentBytes
  requiredDigest t.sha256 "token_sha256"
  ensure (hash t.ciphertext = t.sha256) ⟨"token_sha256 does not match ciphertext", []⟩

def destinationRecord (d : Destination) : Tx Store Failure Destination := do
  require (d.deletedAt.isSome || d.token.isSome)
    (.data "live destination is missing its opaque token")
  require (d.deletedAt.isNone || d.token.isNone)
    (.data "deleted destination retained its opaque token")
  pure d

def deliveryRecord (d : Delivery) : Tx Store Failure Delivery := do
  require (d.status ≠ .claimed || (d.leaseOwner.isSome && d.claimId.isSome &&
    d.leaseExpiresAt.isSome && d.claimedAt.isSome))
    (.data "claimed push delivery has an incomplete lease")
  require (d.attemptCount ≠ 0 || (d.claimId.isNone && d.claimedAt.isNone))
    (.data "unclaimed push delivery carries claim state")
  require (d.attemptCount = 0 || (d.claimId.isSome && d.claimedAt.isSome))
    (.data "attempted push delivery lost its claim identity")
  pure d

/-! ## Destinations -/

def onDestinations {α : Type} (x : Tx (Keyed Uuid (Row Destination)) String α) :
    Tx Store Failure α :=
  Tx.zoom (·.destinations) (fun t s => { s with destinations := t }) Failure.database x

def onDeliveries {α : Type} (x : Tx (Keyed Uuid (Row Delivery)) String α) : Tx Store Failure α :=
  Tx.zoom (·.deliveries) (fun t s => { s with deliveries := t }) Failure.database x

/-- The destination of an owner with an id. -/
def Store.destination (s : Store) (ownerId : String) (destinationId : Uuid) : Option Destination :=
  ((s.destinations.lookup destinationId).map (·.val)).filter (·.ownerId = ownerId)

/-- The destination of an owner with a key. -/
def Store.destinationByKey (s : Store) (ownerId key : String) : Option Destination :=
  (s.destinations.rows.map (·.val)).find? fun d => d.ownerId = ownerId && d.key = key

/-- `get_destination`, with deleted ones included. -/
def getDestination (ownerId : String) (destinationId : Uuid) : Tx Store Failure Destination := do
  let s ← Tx.get
  match s.destination ownerId destinationId with
  | none => raise (.notFound "push destination not found")
  | some d => destinationRecord d

/-- The reply of `register_destination` to a replay. -/
def registeredBefore (ownerId key : String) (token : Token) (createdAt : ℕ) :
    Tx Store Failure Destination := do
  let s ← Tx.get
  match s.destinationByKey ownerId key with
  | none => raise (.conflict "push destination identity already exists")
  | some d => do
    let existing ← destinationRecord d
    require (existing.token = some token && existing.createdAt = createdAt)
      (.conflict "push destination replay changed immutable token semantics")
    pure existing

def registerDestination (hash : Bytes → String) (destinationId : Uuid) (ownerId key : String)
    (token : Token) (createdAt : ℕ) : Tx Store Failure Destination := do
  let _ ← argument (requiredId ownerId "owner_id")
  let _ ← argument (boundedText key "destination_key" 512)
  argument (token.check hash)
  argument (requiredInteger createdAt "created_at")
  let inserted ← onDestinations (Sql.insertOrNothing destinationId
    { ownerId, key, token := some token, createdAt, updatedAt := createdAt }
    fun d => d.ownerId = ownerId && d.key = key)
  match inserted with
  | some d => destinationRecord d
  | none => registeredBefore ownerId key token createdAt

def Destination.isLive (d : Destination) : Bool := d.revokedAt.isNone && d.deletedAt.isNone

/-- The reply of `rotate_destination_token` where nothing was written. -/
def rotationMiss (revision tokenVersion : ℕ) (token : Token) (rotatedAt : ℕ)
    (existing : Destination) : Tx Store Failure Destination :=
  if existing.revision = revision + 1 && existing.tokenVersion = tokenVersion + 1 &&
      existing.updatedAt = rotatedAt && existing.token = some token && existing.isLive then
    pure existing
  else do
    require existing.deletedAt.isNone (.conflict "deleted push destination cannot rotate")
    require existing.revokedAt.isNone (.conflict "revoked push destination cannot rotate")
    require (existing.revision = revision) (.conflict "push destination revision is stale")
    require (existing.tokenVersion = tokenVersion)
      (.conflict "push destination token version is stale")
    raise (.conflict "push destination rotation fence rejected")

def rotateDestinationToken (hash : Bytes → String) (ownerId : String) (destinationId : Uuid)
    (revision tokenVersion : ℕ) (token : Token) (rotatedAt : ℕ) : Tx Store Failure Destination := do
  let _ ← argument (requiredId ownerId "owner_id")
  argument (requiredInteger revision "expected_revision" 1)
  argument (requiredInteger tokenVersion "expected_token_version" 1)
  argument (token.check hash)
  argument (requiredInteger rotatedAt "rotated_at")
  require (revision < maxSafeInteger && tokenVersion < maxSafeInteger)
    (.conflict "push destination revision is exhausted")
  let changed ← onDestinations (Sql.updateReturning destinationId
    (fun d => d.ownerId = ownerId && d.revision = revision && d.tokenVersion = tokenVersion &&
      d.isLive)
    fun d => { d with
      token := some token
      tokenVersion := d.tokenVersion + 1
      revision := d.revision + 1
      updatedAt := rotatedAt })
  match changed with
  | some d => destinationRecord d
  | none => do
    let existing ← getDestination ownerId destinationId
    rotationMiss revision tokenVersion token rotatedAt existing

/-- The reply of `revoke_destination` where nothing was written. -/
def revocationMiss (revision revokedAt : ℕ) (existing : Destination) :
    Tx Store Failure Destination :=
  if existing.revokedAt = some revokedAt && existing.updatedAt = revokedAt &&
      existing.deletedAt.isNone then
    pure existing
  else do
    require existing.deletedAt.isNone (.conflict "deleted push destination cannot be revoked")
    require existing.revokedAt.isNone (.conflict "push destination was already revoked")
    require (existing.revision = revision) (.conflict "push destination revision is stale")
    require (existing.createdAt ≤ revokedAt)
      (.conflict "revocation precedes destination creation")
    raise (.conflict "push destination revocation fence rejected")

def revokeDestination (ownerId : String) (destinationId : Uuid) (revision revokedAt : ℕ) :
    Tx Store Failure Destination := do
  let _ ← argument (requiredId ownerId "owner_id")
  argument (requiredInteger revision "expected_revision" 1)
  argument (requiredInteger revokedAt "revoked_at")
  require (revision < maxSafeInteger) (.conflict "push destination revision is exhausted")
  let changed ← onDestinations (Sql.updateReturning destinationId
    (fun d => d.ownerId = ownerId && d.revision = revision && d.isLive)
    fun d => { d with
      revokedAt := some revokedAt
      revision := d.revision + 1
      updatedAt := revokedAt })
  match changed with
  | some d => destinationRecord d
  | none => do
    let existing ← getDestination ownerId destinationId
    revocationMiss revision revokedAt existing

/-- The reply of `delete_destination` where nothing was written. -/
def deletionMiss (revision deletedAt : ℕ) (existing : Destination) : Tx Store Failure Destination :=
  if existing.deletedAt = some deletedAt && existing.updatedAt = deletedAt then pure existing
  else do
    require existing.deletedAt.isNone (.conflict "push destination was already deleted")
    require (existing.revision = revision) (.conflict "push destination revision is stale")
    require (existing.createdAt ≤ deletedAt) (.conflict "deletion precedes destination creation")
    require (existing.revokedAt.all (· ≤ deletedAt))
      (.conflict "deletion precedes destination revocation")
    raise (.conflict "push destination deletion fence rejected")

def deleteDestination (ownerId : String) (destinationId : Uuid) (revision deletedAt : ℕ) :
    Tx Store Failure Destination := do
  let _ ← argument (requiredId ownerId "owner_id")
  argument (requiredInteger revision "expected_revision" 1)
  argument (requiredInteger deletedAt "deleted_at")
  require (revision < maxSafeInteger) (.conflict "push destination revision is exhausted")
  let changed ← onDestinations (Sql.updateReturning destinationId
    (fun d => d.ownerId = ownerId && d.revision = revision && d.deletedAt.isNone)
    fun d => { d with
      deletedAt := some deletedAt
      updatedAt := deletedAt
      token := none
      revision := d.revision + 1 })
  match changed with
  | some d => destinationRecord d
  | none => do
    let existing ← getDestination ownerId destinationId
    deletionMiss revision deletedAt existing

end AstralPlane.Push
