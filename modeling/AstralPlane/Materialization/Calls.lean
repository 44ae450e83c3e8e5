/-
  The calls on attachments: begin, renew and publish a materialisation, and the
  four ways to schedule attachments for a purge.
-/
import AstralPlane.Materialization.Model

namespace AstralPlane.Materialization

open Tx
open Repositories
open Purge (Env Tombstone Tombstones)

section
variable (env : Env)

/-! ## Publishing -/

structure Begin where
  attachmentId : String
  ownerId : String
  filename : String
  category : String
  extension : String
  storageLocator : String
  storageKey : String
  maxBytes : ℕ
  createdAt : ℕ
  leaseId : String
  leaseSeconds : ℕ
  deriving DecidableEq

/-- The row that `begin_pending_materialization` inserts. -/
def Begin.row (q : Begin) (locator key : String) (now : Time) : Attachment where
  ownerId := q.ownerId
  filename := q.filename
  contentType := pendingContentType
  category := q.category
  extension := q.extension
  sizeBytes := 0
  sha256 := pendingSha256
  storagePath := locator
  createdAt := q.createdAt
  deletedAt := none
  stage := .pending
  leaseId := some q.leaseId
  leaseVersion := some 0
  leaseExpiresAt := some (now + q.leaseSeconds * second)
  maxBytes := some q.maxBytes
  storageKey := some key

/-- `INSERT … ON CONFLICT attachment_id DO NOTHING`; the ids are also unique without case. -/
def insertAttachment (attachmentId : String) (a : Attachment) :
    Tx (Keyed String (Row Attachment)) String (Option Attachment) := do
  let t ← Tx.get
  if (t.lookup attachmentId).isSome then pure none
  else do
    require (t.entries.all fun e => e.1.toLower ≠ attachmentId.toLower) "23505"
    Sql.write attachmentId a t

/-- A row that an earlier call with the same arguments has begun. -/
def Begin.begun (q : Begin) (locator key : String) (a : Attachment) : Bool :=
  a.filename = q.filename && a.category = q.category && a.extension = q.extension &&
    a.storagePath = locator && a.storageKey = some key && a.maxBytes = some q.maxBytes &&
    a.createdAt = q.createdAt && a.leaseId = some q.leaseId && a.deletedAt.isNone

/-- The row that is there already. -/
def Begin.replay (q : Begin) (attachmentId locator key : String) (existing : Option Attachment) :
    Except Failure Stage :=
  match existing with
  | none => .error (.conflict "materialization identity is owned by another namespace"
      "materialization.begin_pending")
  | some a => do
    ensure (q.begun locator key a)
      (.conflict "pending materialization identity was reused with different semantics"
        "materialization.begin_pending")
    match a.stage with
    | .ready => pure .ready
    | .pending => do
      let _ ← pendingMaterialization env attachmentId a
      pure .pending

def beginPendingMaterialization (q : Begin) (now : Time) : Tx Store Failure Stage := do
  let attachmentId ← Failure.ofArguments (physicalAttachmentId env q.attachmentId)
  requireOwner env q.ownerId
  let _ ← Failure.ofArguments (boundedText q.filename "filename" 1024)
  requireArgument (attachmentCategories.contains q.category) "attachment category is unsupported"
  let _ ← Failure.ofArguments (boundedText q.extension "extension" 64 true)
  let _ ← Failure.ofArguments (boundedText q.storageLocator "storage_locator" 4096)
  let identity ← Failure.ofArguments
    (physicalIdentity env q.ownerId attachmentId q.filename q.storageLocator q.storageKey)
  checkMaxBytes q.maxBytes
  checkLeaseId q.leaseId
  checkLeaseSeconds q.leaseSeconds
  lockActiveBlobOwner q.ownerId "materialization.begin_pending"
  let inserted ← onAttachments (insertAttachment attachmentId (q.row identity.1 identity.2 now))
  match inserted with
  | some a => do
    let _ ← ofExcept (pendingMaterialization env attachmentId a)
    pure .pending
  | none => do
    let s ← Tx.get
    ofExcept (q.replay env attachmentId identity.1 identity.2
      (s.getLifecycle q.ownerId attachmentId))

/-- Who holds which lease. -/
structure Holder where
  ownerId : String
  attachmentId : String
  leaseId : String
  version : ℕ
  deriving DecidableEq

/-- The checks that the calls of a holder share; the id of the attachment in its normal form. -/
def Holder.check (h : Holder) : Tx Store Failure String := do
  requireOwner env h.ownerId
  let attachmentId ← Failure.ofArguments (physicalAttachmentId env h.attachmentId)
  checkLeaseId h.leaseId
  pure attachmentId

/-- A lease that was renewed already, by the same call. -/
def Holder.renewed (h : Holder) (a : Attachment) : Bool :=
  a.stage = .pending && a.deletedAt.isNone && a.leaseId = some h.leaseId &&
    a.leaseVersion = some (h.version + 1)

def Attachment.renewedUntil (expires : Time) (a : Attachment) : Attachment :=
  { a with leaseVersion := a.leaseVersion.map (· + 1), leaseExpiresAt := some expires }

def renewPendingMaterialization (h : Holder) (leaseSeconds : ℕ) (now : Time) :
    Tx Store Failure Fence := do
  let attachmentId ← h.check env
  checkLeaseSeconds leaseSeconds
  lockActiveBlobOwner h.ownerId "materialization.renew_pending"
  let updated ← onAttachments (Sql.updateReturning attachmentId
    (·.leased h.ownerId h.leaseId h.version now)
    (·.renewedUntil (now + leaseSeconds * second)))
  match updated with
  | some a => ofExcept (pendingMaterialization env attachmentId a)
  | none => do
    let s ← Tx.get
    match (s.getLifecycle h.ownerId attachmentId).filter h.renewed with
    | some a => ofExcept (pendingMaterialization env attachmentId a)
    | none => raise (lifecycleConflict (s.getLifecycle h.ownerId attachmentId)
        "materialization.renew_pending")

/-- What is published: `content_type`, `size_bytes` and `sha256`. -/
structure Content where
  contentType : String
  sizeBytes : ℕ
  sha256 : String
  deriving DecidableEq

def Fence.holder (f : Fence) : Holder := ⟨f.ownerId, f.attachmentId, f.leaseId, f.leaseVersion⟩

/-- The row that `_finalize_pending_materialization` updates. -/
def Fence.selects (f : Fence) (locator key : String) (c : Content) (now : Time) (a : Attachment) :
    Bool :=
  a.leased f.ownerId f.leaseId f.leaseVersion now && a.storagePath = locator &&
    a.storageKey = some key && a.maxBytes = some f.maxBytes && c.sizeBytes ≤ f.maxBytes

def Attachment.finalized (c : Content) (a : Attachment) : Attachment :=
  { a with
    contentType := c.contentType
    sizeBytes := c.sizeBytes
    sha256 := c.sha256
    stage := .ready
    leaseVersion := a.leaseVersion.map (· + 1) }

/-- A row that the same call has finalised before. -/
def Fence.finalizedBefore (f : Fence) (locator key : String) (c : Content) (a : Attachment) : Bool :=
  a.stage = .ready && a.deletedAt.isNone && a.leaseId = some f.leaseId &&
    a.leaseVersion = some (f.leaseVersion + 1) && a.storagePath = locator &&
    a.storageKey = some key && a.maxBytes = some f.maxBytes && a.contentType = c.contentType &&
    a.sizeBytes = c.sizeBytes && a.sha256 = c.sha256

def Content.check (c : Content) : Tx Store Failure Unit := do
  let _ ← Failure.ofArguments (boundedText c.contentType "content_type" 255)
  requireArgument (c.contentType ≠ pendingContentType) "final content_type is reserved"
  requireArgument (isSha256 c.sha256) "sha256 must be a lowercase SHA-256 digest"

def finalizePendingMaterialization (f : Fence) (c : Content) (now : Time) :
    Tx Store Failure Attachment := do
  let attachmentId ← f.holder.check env
  let _ ← Failure.ofArguments (boundedText f.storageLocator "storage_locator" 4096)
  let identity ← Failure.ofArguments
    (physicalIdentity env f.ownerId attachmentId f.filename f.storageLocator f.storageKey)
  checkMaxBytes f.maxBytes
  lockActiveBlobOwner f.ownerId "materialization.finalize_pending"
  c.check
  requireArgument (c.sha256 ≠ pendingSha256) "final sha256 is reserved"
  let updated ← onAttachments (Sql.updateReturning attachmentId
    (f.selects identity.1 identity.2 c now) (·.finalized c))
  match updated with
  | some a => pure a
  | none => do
    let s ← Tx.get
    match (s.getLifecycle f.ownerId attachmentId).filter
        (f.finalizedBefore identity.1 identity.2 c) with
    | some a => pure a
    | none => raise (lifecycleConflict (s.getLifecycle f.ownerId attachmentId)
        "materialization.finalize_pending")

def lockPendingMaterializationForPublish (h : Holder) (now : Time) : Tx Store Failure Fence := do
  let attachmentId ← h.check env
  lockActiveBlobOwner h.ownerId "materialization.lock_pending_for_publish"
  let s ← Tx.get
  match (s.attachments.lookup attachmentId).filter
      (·.val.leased h.ownerId h.leaseId h.version now) with
  | some row => ofExcept (pendingMaterialization env attachmentId row.val)
  | none => raise (lifecycleConflict (s.getLifecycle h.ownerId attachmentId)
      "materialization.lock_pending_for_publish")

/-- What the blob store makes of a staged write: an exception, or what it has written. -/
inductive Written
  | raised
  | wrote (sizeBytes : ℕ) (sha256 : String)
  deriving DecidableEq

/-- `publish_pending_materialization`; the clock goes on while the blob is written. -/
def publishPendingMaterialization (h : Holder) (staged : Content) (written : Written)
    (now later : Time) : Tx Store Failure Attachment := do
  let attachmentId ← h.check env
  staged.check
  let fence ← lockPendingMaterializationForPublish env { h with attachmentId } now
  requireArgument (staged.sizeBytes ≤ fence.maxBytes)
    "staged materialization exceeds its durable maximum"
  match written with
  | .raised => raise (.purge .blob)
  | .wrote sizeBytes sha256 =>
    finalizePendingMaterialization env fence ⟨staged.contentType, sizeBytes, sha256⟩ later

/-! ## Scheduling for a purge -/

def checkIdentifier (value name : String) : Tx Store Failure Unit :=
  require (Purge.isSafeIdentifier value)
    (.purge (.contract (name ++ " is not a valid bounded identifier")))

/-- `PurgeScheduleResult`. -/
structure Scheduled where
  tombstone : Tombstone
  created : Bool
  softDeleted : ℕ
  deriving DecidableEq

/-- The tombstone of the prefix of an attachment. -/
def prefixTombstone (ownerId attachmentId : String) (requestedAt : Time) : Tombstone :=
  Purge.scheduledTombstone env .attachmentPrefix ownerId attachmentId attachmentId requestedAt

def enqueuePrefix (ownerId attachmentId : String) (requestedAt : Time) :
    Tx Store Failure (Tombstone × Bool) :=
  onTombstones (Purge.enqueueScheduled env
    (Purge.scheduledTombstoneId env .attachmentPrefix ownerId attachmentId)
    (prefixTombstone env ownerId attachmentId requestedAt))

def requireScheduledTarget (t : Tombstone) (scope : Purge.Scope) (storageKey : String) :
    Tx Store Failure Unit :=
  require (t.scope = scope && t.storageKey = storageKey)
    (.purge (.plane "purge owner object already represents different work"
      "purge_idempotency_conflict"))

/-- `AttachmentRepository.get` with `include_deleted`. -/
def getReady (ownerId attachmentId : String) : Tx Store Failure (Option Attachment) := do
  let _ ← Failure.ofArguments (requiredId ownerId "owner_id")
  let _ ← Failure.ofArguments (requiredId attachmentId "attachment_id")
  let s ← Tx.get
  pure ((s.getLifecycle ownerId attachmentId).filter (·.stage = .ready))

/-- The tombstone that a new schedule enqueues. -/
def schedulePrefix (ownerId attachmentId : String) (requestedAt : Time) :
    Option Tombstone → Tx Store Failure (Tombstone × Bool)
  | some existing => do
    requireScheduledTarget existing .attachmentPrefix attachmentId
    pure (existing, false)
  | none => do
    let metadata ← getReady ownerId attachmentId
    require metadata.isSome (.purge (.plane "purge object was not found in the owner scope"
      "purge_object_not_found"))
    enqueuePrefix env ownerId attachmentId requestedAt

def scheduleAttachmentPrefix (ownerId attachmentId : String) (requestedAt : Time)
    (deletedAt : ℕ) : Tx Store Failure Scheduled := do
  requireOwner env ownerId
  checkIdentifier attachmentId "attachment_id"
  let existing ← onTombstones (Purge.loadByObject env (prefixTombstone env ownerId attachmentId 0))
  let scheduled ← schedulePrefix env ownerId attachmentId requestedAt existing
  let changed ← onAttachments (Sql.updateReturning attachmentId
    (fun a => a.ownerId = ownerId && a.stage = .ready && a.deletedAt.isNone)
    ({ · with deletedAt := some deletedAt }))
  pure ⟨scheduled.1, scheduled.2, if changed.isSome then 1 else 0⟩

/-- A lease that was given up already, by the same call. -/
def Holder.abandonedBefore (h : Holder) (a : Attachment) : Bool :=
  a.stage = .pending && a.leaseId = some h.leaseId && a.leaseVersion = some (h.version + 1) &&
    a.deletedAt.isSome

/-- A pending attachment is given up: its lease gets a version that nobody holds. -/
def Attachment.abandoned (deletedAt : ℕ) (a : Attachment) : Attachment :=
  { a with deletedAt := some deletedAt, leaseVersion := a.leaseVersion.map (· + 1) }

/-- The reply to a second call. -/
def Holder.abandonReplay (h : Holder) (lifecycle : Option Attachment) (existing : Option Tombstone) :
    Tx Store Failure Scheduled :=
  match lifecycle.filter h.abandonedBefore, existing with
  | some _, some t => do
    requireScheduledTarget t .attachmentPrefix h.attachmentId
    pure ⟨t, false, 0⟩
  | _, _ => raise (.purge (.plane "pending materialization lease changed or was finalized"
      "purge_materialization_fence_conflict"))

def abandonPendingMaterialization (h : Holder) (deletedAt : ℕ) (now : Time) :
    Tx Store Failure Scheduled := do
  requireOwner env h.ownerId
  checkIdentifier h.attachmentId "attachment_id"
  checkIdentifier h.leaseId "lease_id"
  let updated ← onAttachments (Sql.updateReturning h.attachmentId
    (fun a => a.ownerId = h.ownerId && a.stage = .pending && a.deletedAt.isNone &&
      a.leaseId = some h.leaseId && a.leaseVersion = some h.version)
    (·.abandoned deletedAt))
  match updated with
  | some _ => do
    let scheduled ← enqueuePrefix env h.ownerId h.attachmentId now
    pure ⟨scheduled.1, scheduled.2, 1⟩
  | none => do
    let s ← Tx.get
    let existing ← onTombstones
      (Purge.loadByObject env (prefixTombstone env h.ownerId h.attachmentId 0))
    h.abandonReplay (s.getLifecycle h.ownerId h.attachmentId) existing

/-- A pending attachment whose lease has run out. -/
def Attachment.expired (now : Time) (a : Attachment) : Bool :=
  a.stage = .pending && a.deletedAt.isNone && a.leaseExpiresAt.any (· ≤ now)

/-- One of the rows that `_CLAIM_EXPIRED_PENDING_MATERIALIZATIONS_SQL` has claimed. -/
def scheduleExpired (now : Time) (attachmentId : String) : Tx Store Failure (Option Scheduled) := do
  let updated ← onAttachments (Sql.updateReturning attachmentId (·.expired now)
    (·.abandoned (now / 1000).toNat))
  match updated with
  | none => pure none
  | some a => do
    requireOwner env a.ownerId
    checkIdentifier attachmentId "attachment_id"
    let scheduled ← enqueuePrefix env a.ownerId attachmentId now
    pure (some ⟨scheduled.1, scheduled.2, 1⟩)

/-- `schedule_expired_pending_materializations_for_administration`.  The statement claims at most
    `limit` of the expired rows, in the order of their leases, that no other transaction has
    locked: `candidates` are those that it claims. -/
def scheduleExpiredPendingMaterializations (limit : ℕ) (candidates : List String) (now : Time) :
    Tx Store Failure (List (Option Scheduled)) := do
  require (1 ≤ limit && limit ≤ 1000)
    (.purge (.contract "limit must be an integer in [1, 1000]"))
  Tx.collect (scheduleExpired env now) (candidates.take limit)

/-- `_RETIRE_BLOB_OWNER_SQL`. -/
def Owner.retire (requestedAt : Time) (o : Owner) : Owner where
  state := .retired
  version := if o.state = .active then o.version + 1 else o.version
  retiredAt := o.retiredAt.or (some requestedAt)

/-- There is no row of an owner whose id differs from another's by case only. -/
def retireBlobOwner (ownerId : String) (requestedAt : Time) : Tx Store Failure Unit := do
  Tx.modify (Store.ensureOwner ownerId)
  let s ← Tx.get
  match s.owners.lookup ownerId with
  | none => raise (.purge (.plane "blob owner retirement returned invalid evidence"
      "purge_write_invalid"))
  | some o => Tx.set { s with owners := s.owners.insert ownerId (o.retire requestedAt) }

/-- An attachment of an owner that is retired. -/
def Attachment.retired (deletedAt : ℕ) (a : Attachment) : Attachment :=
  { a with
    deletedAt := some deletedAt
    leaseVersion := if a.stage = .pending then a.leaseVersion.map (· + 1) else a.leaseVersion }

/-- The tombstone of an owner, and whether it is new. -/
def scheduleOwner (ownerId : String) (requestedAt : Time) :
    Option Tombstone → Tx Store Failure (Tombstone × Bool)
  | some existing => do
    requireScheduledTarget existing .ownerNamespace Purge.ownerNamespaceSelector
    pure (existing, false)
  | none => onTombstones (Purge.enqueueScheduled env
      (Purge.scheduledTombstoneId env .ownerNamespace ownerId
        (Purge.ownerNamespaceObjectId env ownerId))
      (Purge.scheduledTombstone env .ownerNamespace ownerId
        (Purge.ownerNamespaceObjectId env ownerId) Purge.ownerNamespaceSelector requestedAt))

/-- `UPDATE user_attachments … WHERE user_id = … AND deleted_at IS NULL`. -/
def deleteAttachment (ownerId : String) (deletedAt : ℕ) (attachmentId : String) :
    Tx Store Failure Bool := do
  let updated ← onAttachments (Sql.updateReturning attachmentId
    (fun a => a.ownerId = ownerId && a.deletedAt.isNone) (·.retired deletedAt))
  pure updated.isSome

def scheduleOwnerNamespace (ownerId : String) (requestedAt : Time) (deletedAt : ℕ) :
    Tx Store Failure Scheduled := do
  requireOwner env ownerId
  retireBlobOwner ownerId requestedAt
  let existing ← onTombstones (Purge.loadByObject env (Purge.scheduledTombstone env .ownerNamespace
    ownerId (Purge.ownerNamespaceObjectId env ownerId) Purge.ownerNamespaceSelector 0))
  let scheduled ← scheduleOwner env ownerId requestedAt existing
  let s ← Tx.get
  let changed ← Tx.collect (deleteAttachment ownerId deletedAt) s.attachments.keys
  pure ⟨scheduled.1, scheduled.2, changed.countP id⟩

/-! ## Calls -/

inductive Call
  | begin (q : Begin) (now : Time)
  | renew (h : Holder) (leaseSeconds : ℕ) (now : Time)
  | finalize (f : Fence) (c : Content) (now : Time)
  | lock (h : Holder) (now : Time)
  | publish (h : Holder) (staged : Content) (written : Written) (now later : Time)
  | schedulePrefix (ownerId attachmentId : String) (requestedAt : Time) (deletedAt : ℕ)
  | abandon (h : Holder) (deletedAt : ℕ) (now : Time)
  | scheduleExpired (limit : ℕ) (candidates : List String) (now : Time)
  | retire (ownerId : String) (requestedAt : Time) (deletedAt : ℕ)
  deriving DecidableEq

def Call.exec : Call → Tx Store Failure Unit
  | .begin q now => do let _ ← beginPendingMaterialization env q now
  | .renew h seconds now => do let _ ← renewPendingMaterialization env h seconds now
  | .finalize f c now => do let _ ← finalizePendingMaterialization env f c now
  | .lock h now => do let _ ← lockPendingMaterializationForPublish env h now
  | .publish h staged written now later => do
    let _ ← publishPendingMaterialization env h staged written now later
  | .schedulePrefix owner attachment requestedAt deletedAt => do
    let _ ← scheduleAttachmentPrefix env owner attachment requestedAt deletedAt
  | .abandon h deletedAt now => do let _ ← abandonPendingMaterialization env h deletedAt now
  | .scheduleExpired limit candidates now => do
    let _ ← scheduleExpiredPendingMaterializations env limit candidates now
  | .retire owner requestedAt deletedAt => do
    let _ ← scheduleOwnerNamespace env owner requestedAt deletedAt

def step (c : Call) (s : Store) : Store := (c.exec env).commit s

end

end AstralPlane.Materialization
