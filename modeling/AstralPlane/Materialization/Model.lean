/-
  Attachments on their way into the blob store (`repositories/artifacts.py`) and
  out of it (the scheduling methods of `purge.py`).

  An attachment is written under a lease: it is pending until the holder of the
  lease publishes it.  Three tables take part, the attachments, the states of
  their owners and the purge tombstones; every call is one transaction, and the
  row locks that it takes (`FOR UPDATE` on the owner, the update of the attachment)
  put the calls in an order.  The clock is an argument of each statement that
  reads it.
-/
import AstralPlane.Repositories
import AstralPlane.Purge.Model

namespace AstralPlane.Materialization

open Repositories
open Purge (Env Tombstone Tombstones)

inductive Failure
  | validation (e : ValidationError)
  | conflict (message operation : String)
  | notFound (message operation : String)
  | data (message : String)
  | purge (e : Purge.Error)
  | database (sqlstate : String)
  deriving DecidableEq

/-- `AttachmentMaterializationState`. -/
inductive Stage
  | ready | pending
  deriving DecidableEq, Repr

/-- The columns of `user_attachments`; the attachment id is the key. -/
structure Attachment where
  ownerId : String
  filename : String
  contentType : String
  category : String
  extension : String
  sizeBytes : ℕ
  sha256 : String
  storagePath : String
  createdAt : ℕ
  deletedAt : Option ℕ
  stage : Stage
  leaseId : Option String
  leaseVersion : Option ℕ
  leaseExpiresAt : Option Time
  maxBytes : Option ℕ
  storageKey : Option String
  deriving DecidableEq

def Attachment.hasLease (a : Attachment) : Bool :=
  a.leaseId.isSome && a.leaseVersion.isSome && a.leaseExpiresAt.isSome &&
    a.maxBytes.any (0 < ·) && a.storageKey.isSome

/-- `user_attachments_materialization_state_check`, as far as it is about the lease. -/
def Attachment.stageShape (a : Attachment) : Bool :=
  match a.stage with
  | .ready => isSha256 a.sha256 &&
      ((a.leaseId.isNone && a.leaseVersion.isNone && a.leaseExpiresAt.isNone &&
        a.maxBytes.isNone && a.storageKey.isNone) || (a.hasLease && a.leaseVersion.any (1 ≤ ·)))
  | .pending => a.hasLease

instance : Columns Attachment where
  refusal a :=
    if !(a.sizeBytes ≤ maxBigint && a.createdAt ≤ maxBigint && a.deletedAt.all (· ≤ maxBigint) &&
        a.leaseVersion.all (· ≤ maxBigint) && a.maxBytes.all (· ≤ maxBigint)) then some "22003"
    else if !a.stageShape then some "23514"
    else none

inductive OwnerState
  | active | retired
  deriving DecidableEq, Repr

/-- A row of `astralplane_blob_owner_state`. -/
structure Owner where
  state : OwnerState := .active
  version : ℕ := 0
  retiredAt : Option Time := none
  deriving DecidableEq

structure Store where
  attachments : Keyed String (Row Attachment)
  owners : Keyed String Owner
  tombstones : Tombstones

/-! ## Arguments -/

def pendingContentType : String := "application/x-astralplane-pending-materialization"

def pendingSha256 : String := String.ofList (List.replicate 64 '0')

def attachmentCategories : List String :=
  ["archive", "data", "document", "image", "medical", "presentation", "spreadsheet", "text"]

/-- `_CANONICAL_LEASE_ID`: an identifier of at most 128 characters with an alphanumeric end. -/
def isLeaseId (s : String) : Bool :=
  isIdentifier s && s.length ≤ 128 && s.toList.getLast?.any Char.isAlphanum

/-- `^[A-Za-z0-9][A-Za-z0-9._@-]{0,254}$`. -/
def isPhysicalAttachmentId (s : String) : Bool :=
  match s.toList with
  | [] => false
  | c :: cs => c.isAlphanum && cs.length ≤ 254 && cs.all fun d =>
      d.isAlphanum || d == '.' || d == '_' || d == '@' || d == '-'

section
variable (env : Env)

def hasSlash (s : String) : Bool := s.toList.contains '/'

def physicalAttachmentId (value : String) : Except ValidationError String := do
  let error : ValidationError := ⟨"attachment_id must be one safe bounded storage component", []⟩
  ensure (isPhysicalAttachmentId value) error
  match env.storageKey value with
  | none => .error error
  | some normalized => do
    ensure (!hasSlash normalized) error
    pure normalized

/-- `_materialization_physical_identity` with `_materialization_storage_key`. -/
def physicalIdentity (ownerId attachmentId filename storageLocator storageKey : String) :
    Except ValidationError (String × String) :=
  match env.storageKey filename, env.storageKey storageLocator, env.storageKey storageKey with
  | some normalizedFilename, some locator, some key => do
    ensure (normalizedFilename = filename && !hasSlash filename)
      ⟨"filename must be one exact safe storage component", []⟩
    ensure (key = attachmentId ++ "/" ++ filename)
      ⟨"storage_key must equal the exact attachment_id/filename identity", []⟩
    ensure (locator = ownerId ++ "/" ++ key)
      ⟨"storage_locator must equal the exact owner_id/storage_key identity", []⟩
    pure (locator, key)
  | some normalizedFilename, some _, none => do
    ensure (normalizedFilename = filename && !hasSlash filename)
      ⟨"filename must be one exact safe storage component", []⟩
    .error ⟨"storage_key must be a safe owner-relative blob key", []⟩
  | _, _, _ =>
    .error ⟨"attachment materialization has an invalid physical storage identity", []⟩

def Failure.ofArguments (r : Except ValidationError α) : Tx Store Failure α :=
  Tx.ofExcept (r.mapError Failure.validation)

/-- `validate_blob_owner_id`. -/
def requireOwner (ownerId : String) : Tx Store Failure Unit :=
  Tx.require (env.validOwner ownerId)
    (.purge (.contract "owner_id is not a valid bounded identifier"))

def requireArgument (b : Bool) (message : String) : Tx Store Failure Unit :=
  Tx.require b (.validation ⟨message, []⟩)

def checkLeaseId (leaseId : String) : Tx Store Failure Unit :=
  requireArgument (isLeaseId leaseId)
    "lease_id must be a canonical identifier of at most 128 characters"

def checkLeaseSeconds (seconds : ℕ) : Tx Store Failure Unit :=
  requireArgument (1 ≤ seconds && seconds ≤ 86400) "lease_seconds must be an integer in [1, 86400]"

def checkMaxBytes (maxBytes : ℕ) : Tx Store Failure Unit := do
  requireArgument (0 < maxBytes) "max_bytes must be a positive integer"
  requireArgument (maxBytes ≤ maxBigint) "max_bytes exceeds PostgreSQL BIGINT capacity"

/-! ## Statements -/

def onAttachments (x : Tx (Keyed String (Row Attachment)) String α) : Tx Store Failure α :=
  Tx.zoom (·.attachments) (fun t s => { s with attachments := t }) Failure.database x

def onTombstones (x : Tx Tombstones Purge.Error α) : Tx Store Failure α :=
  Tx.zoom (·.tombstones) (fun t s => { s with tombstones := t }) Failure.purge x

/-- `INSERT INTO astralplane_blob_owner_state … ON CONFLICT DO NOTHING`; the ids are also unique
    without case. -/
def Store.ensureOwner (ownerId : String) (s : Store) : Store :=
  if s.owners.entries.any (·.1.toLower = ownerId.toLower) then s
  else { s with owners := s.owners.insert ownerId {} }

def lockActiveBlobOwner (ownerId operation : String) : Tx Store Failure Unit := do
  Tx.modify (Store.ensureOwner ownerId)
  let s ← Tx.get
  Tx.require ((s.owners.lookup ownerId).any (·.state = .active))
    (.conflict "blob owner is retired and cannot publish attachments" operation)

def Store.getLifecycle (s : Store) (ownerId attachmentId : String) : Option Attachment :=
  ((s.attachments.lookup attachmentId).filter (·.val.ownerId = ownerId)).map (·.val)

/-- The rows of a lease that is neither abandoned nor expired. -/
def Attachment.leased (ownerId leaseId : String) (version : ℕ) (now : Time) (a : Attachment) : Bool :=
  a.ownerId = ownerId && a.stage = .pending && a.deletedAt.isNone && a.leaseId = some leaseId &&
    a.leaseVersion = some version && a.leaseExpiresAt.any (now < ·)

/-- `_AttachmentMaterializationPublishFence`. -/
structure Fence where
  ownerId : String
  attachmentId : String
  filename : String
  storageKey : String
  storageLocator : String
  maxBytes : ℕ
  leaseId : String
  leaseVersion : ℕ
  deriving DecidableEq

/-- `_pending_materialization`; the fence is what its callers read of the record. -/
def pendingMaterialization (attachmentId : String) (a : Attachment) : Except Failure Fence := do
  ensure (a.stage = .pending) (.data "attachment materialization is not pending")
  ensure a.deletedAt.isNone (.data "pending attachment materialization is abandoned")
  match a.leaseId, a.leaseVersion, a.maxBytes, a.storageKey with
  | some leaseId, some leaseVersion, some maxBytes, some key =>
    match env.validOwner a.ownerId, physicalAttachmentId env attachmentId,
        physicalIdentity env a.ownerId attachmentId a.filename a.storagePath key with
    | true, .ok attachmentId, .ok (locator, key) =>
      pure ⟨a.ownerId, attachmentId, a.filename, key, locator, maxBytes, leaseId, leaseVersion⟩
    | _, _, _ => .error (.data "pending attachment has an invalid physical storage identity")
  | _, _, _, _ => .error (.data "pending attachment has an invalid physical storage identity")

/-- `_raise_lifecycle_conflict`. -/
def lifecycleConflict (existing : Option Attachment) (operation : String) : Failure :=
  match existing with
  | none => .notFound "pending attachment materialization was not found" operation
  | some _ =>
    .conflict "pending attachment materialization lease changed, expired, or was abandoned"
      operation

end

end AstralPlane.Materialization
