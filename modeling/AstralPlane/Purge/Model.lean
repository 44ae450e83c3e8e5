/-
  Purge tombstones (`purge.py`, table `astralplane_purge_tombstone`).

  A tombstone stands for blobs that are to be destroyed.  Its row has a version
  that every marking raises and tests; the rows that the table refuses cannot be
  written down (`Row`).  The rules for the names of owners and blobs are those of
  the blob store and are parameters here.
-/
import AstralPlane.Base
import AstralPlane.Sql

namespace AstralPlane.Purge

open Tx

/-- What is raised: `SQLContractError`, `PlaneError`, an error of the database by its SQLSTATE, or
    whatever the blob store raises. -/
inductive Error
  | contract (message : String)
  | plane (message code : String)
  | database (sqlstate : String)
  | blob
  deriving DecidableEq

inductive Status
  | pending | purged | failed | manualReview
  deriving DecidableEq, Repr

inductive Scope
  | exactKey | attachmentPrefix | ownerNamespace
  deriving DecidableEq, Repr

def Scope.value : Scope → String
  | .exactKey => "exact_key"
  | .attachmentPrefix => "attachment_prefix"
  | .ownerNamespace => "owner_namespace"

inductive ObjectKind
  | attachment | artifact | knowledge | generatedAgent
  deriving DecidableEq, Repr

/-- The columns of a tombstone; its id is the key of the table. -/
structure Tombstone where
  ownerId : String
  objectKind : ObjectKind
  objectId : String
  storageKey : String
  storageLocatorSha256 : String
  requestedAt : Time
  scope : Scope
  status : Status := .pending
  attemptCount : ℕ := 0
  version : ℕ := 0
  availableAt : Time
  verifiedAbsentAt : Option Time := none
  evidence : Option String := none
  resolvedAt : Option Time := none
  lastErrorCode : Option String := none
  deriving DecidableEq

/-! ## The table -/

/-- `astralplane_purge_state_shape_check`. -/
def Tombstone.stateShape (t : Tombstone) : Bool :=
  match t.status with
  | .pending => t.verifiedAbsentAt.isNone && t.lastErrorCode.isNone
  | .purged => t.verifiedAbsentAt.isSome && t.lastErrorCode.isNone
  | .failed | .manualReview => t.verifiedAbsentAt.isNone && t.lastErrorCode.isSome

def ownerNamespaceSelector : String := "owner-namespace"

/-- `astralplane_purge_tombstone_target_shape_check`. -/
def Tombstone.targetShape (t : Tombstone) : Bool :=
  match t.scope with
  | .exactKey =>
    (t.status = .manualReview && t.evidence.isNone && t.resolvedAt.isNone) ||
      (t.status = .purged && t.evidence.any isSha256 && t.resolvedAt.isSome)
  | .attachmentPrefix =>
    t.objectKind = .attachment && t.storageKey = t.objectId && t.evidence.isNone &&
      t.resolvedAt.isNone
  | .ownerNamespace =>
    t.objectKind = .attachment && t.storageKey = ownerNamespaceSelector && t.evidence.isNone &&
      t.resolvedAt.isNone

instance : Columns Tombstone where
  refusal t :=
    if !(t.attemptCount < 2 ^ 31 && t.version < 2 ^ 63) then some "22003"
    else if !(isSha256 t.storageLocatorSha256 && t.stateShape && t.targetShape) then some "23514"
    else none

abbrev Tombstones := Keyed String (Row Tombstone)

theorem shapes_of_row (row : Row Tombstone) : (isSha256 row.val.storageLocatorSha256 ∧
    row.val.stateShape) ∧ row.val.targetShape := by
  have h := row.property
  simp only [Columns.refusal] at h
  split at h
  · cases h
  · split at h
    · cases h
    · rename_i hs
      simpa only [Bool.not_eq_true', Bool.not_eq_false, Bool.and_eq_true] using hs

/-! ## Names and records -/

/-- SHA-256, and the rules of the blob store for its names. -/
structure Env where
  sha256 : String → String
  /-- `validate_blob_owner_id`. -/
  validOwner : String → Bool
  /-- `validate_blob_storage_key` accepts the key. -/
  validKey : String → Bool

/-- The key in its normal form, with slashes between its components. -/
def slashed (key : String) : String :=
  String.ofList (key.toList.map fun c => if c = '\\' then '/' else c)

/-- `validate_blob_storage_key`. -/
def Env.storageKey (env : Env) (key : String) : Option String :=
  if env.validKey key then some (slashed key) else none

def isIdentifierChar (c : Char) : Bool :=
  c.isAlphanum || c == '.' || c == '_' || c == ':' || c == '@' || c == '-'

/-- `^[A-Za-z0-9][A-Za-z0-9._:@-]{0,254}$`. -/
def isSafeIdentifier (s : String) : Bool :=
  match s.toList with
  | [] => false
  | c :: cs => c.isAlphanum && cs.length ≤ 254 && cs.all isIdentifierChar

/-- `^[a-z][a-z0-9_.-]{0,63}$`. -/
def isSafeErrorCode (s : String) : Bool :=
  match s.toList with
  | [] => false
  | c :: cs => ('a' ≤ c && c ≤ 'z') && cs.length ≤ 63 && cs.all fun d =>
      ('a' ≤ d && d ≤ 'z') || d.isDigit || d == '_' || d == '.' || d == '-'

/-- `_bounded_legacy_storage_key`. -/
def isLegacyStorageKey (s : String) : Bool :=
  !s.isEmpty && s.length ≤ 4096 && s.toList.all (· ≠ '\x00')

section
variable (env : Env)

def ownerNamespaceObjectId (ownerId : String) : String := "owner-namespace:" ++ env.sha256 ownerId

def scheduledTombstoneId (scope : Scope) (ownerId objectId : String) : String :=
  "purge-" ++ scope.value ++ "-" ++
    env.sha256 (scope.value ++ "\x00" ++ ownerId ++ "\x00" ++ objectId)

/-- `storage_locator_sha256`, of a key in its normal form. -/
def locatorSha256 (ownerId key : String) : String := env.sha256 (ownerId ++ "\x00" ++ key)

/-- The identity that a tombstone of its scope has. -/
def checkTarget (id : String) (t : Tombstone) : Except Error Unit :=
  match t.scope with
  | .exactKey => do
    ensure (isSafeIdentifier t.ownerId)
      (.contract "legacy owner_id is not a bounded predecessor identifier")
    ensure (isLegacyStorageKey t.storageKey)
      (.contract "legacy storage key is not a bounded predecessor locator")
    ensure (t.status = .manualReview || t.status = .purged)
      (.contract "legacy exact-key tombstones must be in manual review or operator-resolved")
    ensure (isSha256 t.storageLocatorSha256) (.contract "legacy storage locator digest is invalid")
  | .attachmentPrefix => do
    ensure (env.validOwner t.ownerId) (.contract "owner_id is not a valid bounded identifier")
    ensure (env.storageKey t.storageKey).isSome (.contract "blob key is not valid")
    ensure (t.objectKind = .attachment && env.storageKey t.storageKey = some t.objectId &&
        id = scheduledTombstoneId env .attachmentPrefix t.ownerId t.objectId)
      (.contract "attachment-prefix tombstone does not match its typed deletion identity")
    ensure (t.storageLocatorSha256 = locatorSha256 env t.ownerId t.objectId)
      (.contract "storage locator does not match its SHA-256 digest")
  | .ownerNamespace => do
    ensure (env.validOwner t.ownerId) (.contract "owner_id is not a valid bounded identifier")
    ensure (env.storageKey t.storageKey).isSome (.contract "blob key is not valid")
    ensure (t.objectKind = .attachment && t.objectId = ownerNamespaceObjectId env t.ownerId &&
        env.storageKey t.storageKey = some ownerNamespaceSelector &&
        id = scheduledTombstoneId env .ownerNamespace t.ownerId t.objectId)
      (.contract "owner-namespace tombstone does not match its typed deletion identity")
    ensure (t.storageLocatorSha256 = locatorSha256 env t.ownerId ownerNamespaceSelector)
      (.contract "storage locator does not match its SHA-256 digest")

/-- What the state of a tombstone says of its evidence. -/
def checkEvidence (t : Tombstone) : Except Error Unit := do
  ensure (t.evidence.all isSha256)
    (.contract "manual resolution evidence must be a lowercase SHA-256 digest")
  ensure (t.status ≠ .purged || t.verifiedAbsentAt.isSome)
    (.contract "purged tombstones require verified_absent_at")
  ensure (t.status = .purged || t.verifiedAbsentAt.isNone)
    (.contract "incomplete tombstones cannot claim verified absence")
  match t.scope with
  | .exactKey =>
    if t.status = .purged then
      ensure (t.evidence.isSome && t.resolvedAt.isSome)
        (.contract "operator-resolved exact tombstones require durable resolution evidence")
    else
      ensure (t.evidence.isNone && t.resolvedAt.isNone)
        (.contract "manual-review tombstones cannot claim resolution evidence")
  | .attachmentPrefix | .ownerNamespace =>
    ensure (t.evidence.isNone && t.resolvedAt.isNone)
      (.contract "typed purge tombstones cannot carry manual resolution evidence")

def validateTombstone (id : String) (t : Tombstone) : Except Error Unit := do
  ensure (isSafeIdentifier id) (.contract "tombstone_id is not a valid bounded identifier")
  ensure (isSafeIdentifier t.objectId) (.contract "object_id is not a valid bounded identifier")
  checkTarget env id t
  checkEvidence t
  ensure (t.lastErrorCode.all isSafeErrorCode)
    (.contract "last_error_code is not a safe bounded code")

/-! ## Reading -/

/-- `_from_record`, of the row that a statement has found. -/
def fromRecord (id : String) : Option (Row Tombstone) → Tx Tombstones Error (Option Tombstone)
  | none => pure none
  | some row => do
    ofExcept (validateTombstone env id row.val)
    pure (some row.val)

/-- `load` of the store. -/
def load (ownerId id : String) : Tx Tombstones Error (Option Tombstone) := do
  require (env.validOwner ownerId) (.contract "owner_id is not a valid bounded identifier")
  require (isSafeIdentifier id) (.contract "tombstone_id is not a valid bounded identifier")
  let table ← Tx.get
  fromRecord env id ((table.lookup id).filter (·.val.ownerId = ownerId))

/-- `load_legacy_exact_for_administration`. -/
def loadLegacyExact (id : String) : Tx Tombstones Error (Option Tombstone) := do
  require (isSafeIdentifier id) (.contract "tombstone_id is not a valid bounded identifier")
  let table ← Tx.get
  fromRecord env id ((table.lookup id).filter (·.val.scope = .exactKey))

/-! ## Marking -/

def Status.isOpen (s : Status) : Bool := s = .pending || s = .failed

/-- `_require_update`: a marking that meets no row has lost its fence. -/
def requireUpdate (x : Tx Tombstones String (Option Tombstone)) : Tx Tombstones Error Unit := do
  let written ← Tx.zoom (fun s => s) (fun t _ => t) Error.database x
  require written.isSome (.plane "purge tombstone version fence rejected the transition"
    "purge_fence_conflict")

/-- The rows that a marking of the executor meets. -/
def Tombstone.fenced (ownerId : String) (version : ℕ) (t : Tombstone) : Bool :=
  t.ownerId = ownerId && t.version = version && t.status.isOpen

/-- `_fence`. -/
def checkFence (ownerId id : String) : Tx Tombstones Error Unit := do
  require (env.validOwner ownerId) (.contract "owner_id is not a valid bounded identifier")
  require (isSafeIdentifier id) (.contract "tombstone_id is not a valid bounded identifier")

/-- `_MARK_PURGED_SQL`. -/
def Tombstone.markedPurged (at' : Time) (t : Tombstone) : Tombstone :=
  { t with
    status := .purged
    attemptCount := t.attemptCount + 1
    version := t.version + 1
    verifiedAbsentAt := some at'
    availableAt := at'
    lastErrorCode := none }

/-- `_mark_purged_for_executor`. -/
def markPurged (ownerId id locator : String) (version : ℕ) (at' : Time) :
    Tx Tombstones Error Unit := do
  checkFence env ownerId id
  require (isSha256 locator)
    (.contract "expected_storage_locator_sha256 must be a lowercase SHA-256 digest")
  requireUpdate (Sql.updateReturning id
    (fun t => t.fenced ownerId version && t.storageLocatorSha256 = locator)
    (·.markedPurged at'))

/-- `_MARK_FAILED_SQL`. -/
def Tombstone.markedFailed (availableAt : Time) (code : String) (t : Tombstone) : Tombstone :=
  { t with
    status := .failed
    attemptCount := t.attemptCount + 1
    version := t.version + 1
    availableAt
    verifiedAbsentAt := none
    lastErrorCode := some code }

/-- `_mark_failed_for_executor`. -/
def markFailed (ownerId id : String) (version : ℕ) (availableAt : Time) (code : String) :
    Tx Tombstones Error Unit := do
  checkFence env ownerId id
  require (isSafeErrorCode code) (.contract "error_code is not a safe bounded code")
  requireUpdate (Sql.updateReturning id (·.fenced ownerId version)
    (·.markedFailed availableAt code))

/-- `_MARK_MANUAL_REVIEW_SQL`. -/
def Tombstone.markedManualReview (code : String) (t : Tombstone) : Tombstone :=
  { t with status := .manualReview, version := t.version + 1, lastErrorCode := some code }

/-- `_mark_manual_review_for_executor`. -/
def markManualReview (ownerId id : String) (version : ℕ) (code : String) :
    Tx Tombstones Error Unit := do
  checkFence env ownerId id
  require (isSafeErrorCode code) (.contract "error_code is not a safe bounded code")
  requireUpdate (Sql.updateReturning id (·.fenced ownerId version) (·.markedManualReview code))

/-- `_RESOLVE_LEGACY_EXACT_SQL`. -/
def Tombstone.markedResolved (at' : Time) (evidence : String) (t : Tombstone) : Tombstone :=
  { t with
    status := .purged
    attemptCount := t.attemptCount + 1
    version := t.version + 1
    verifiedAbsentAt := some at'
    evidence := some evidence
    resolvedAt := some at'
    lastErrorCode := none }

/-- `_mark_legacy_exact_resolved_for_administration`. -/
def markLegacyExactResolved (ownerId id locator : String) (version : ℕ) (at' : Time)
    (evidence : String) : Tx Tombstones Error Unit := do
  require (isSafeIdentifier ownerId)
    (.contract "legacy owner_id is not a bounded predecessor identifier")
  require (isSafeIdentifier id) (.contract "tombstone_id is not a valid bounded identifier")
  require (isSha256 locator)
    (.contract "expected_storage_locator_sha256 must be a lowercase SHA-256 digest")
  require (isSha256 evidence)
    (.contract "resolution_evidence_sha256 must be a lowercase SHA-256 digest")
  requireUpdate (Sql.updateReturning id
    (fun t => t.ownerId = ownerId && t.storageLocatorSha256 = locator && t.version = version &&
      t.scope = .exactKey && t.status = .manualReview)
    (·.markedResolved at' evidence))

end

/-! ## Scheduling -/

section
variable (env : Env)

/-- `_scheduled_tombstone`; the key is in its normal form. -/
def scheduledTombstone (scope : Scope) (ownerId objectId storageKey : String)
    (requestedAt : Time) : Tombstone where
  ownerId
  objectKind := .attachment
  objectId
  storageKey
  storageLocatorSha256 := locatorSha256 env ownerId storageKey
  requestedAt
  scope
  availableAt := requestedAt

/-- The constraint `UNIQUE (owner_id, object_kind, object_id)`. -/
def Tombstone.sameObject (t t' : Tombstone) : Bool :=
  t.ownerId = t'.ownerId && t.objectKind = t'.objectKind && t.objectId = t'.objectId

def loadByObject (t : Tombstone) : Tx Tombstones Error (Option Tombstone) := do
  let table ← Tx.get
  match table.entries.find? (·.2.val.sameObject t) with
  | none => pure none
  | some e => fromRecord env e.1 (some e.2)

/-- `_enqueue_scheduled`: a conflict with either key of the table leaves the row that is there. -/
def enqueueScheduled (id : String) (t : Tombstone) : Tx Tombstones Error (Tombstone × Bool) := do
  ofExcept (validateTombstone env id t)
  let table ← Tx.get
  if (table.lookup id).isSome || table.rows.any (·.val.sameObject t) then do
    let existing ← loadByObject env t
    match existing with
    | none => raise (.plane "purge schedule identity was reused by different work"
        "purge_idempotency_conflict")
    | some e => do
      require (e.scope = t.scope && e.storageKey = t.storageKey)
        (.plane "purge owner object already represents different work"
          "purge_idempotency_conflict")
      pure (e, false)
  else do
    let _ ← Tx.zoom (fun s => s) (fun t _ => t) Error.database (Sql.write id t table)
    pure (t, true)

variable {env} {table : Tombstones}

theorem readOnly_fromRecord {id : String} {o : Option (Row Tombstone)} :
    (fromRecord env id o).ReadOnly := by
  cases o with
  | none => exact readOnly_pure _
  | some => exact readOnly_bind (readOnly_ofExcept _) fun _ => readOnly_pure _

theorem readOnly_loadByObject (t : Tombstone) : (loadByObject env t).ReadOnly := by
  refine readOnly_bind readOnly_get fun table => ?_
  split
  · exact readOnly_pure _
  · exact readOnly_fromRecord

theorem enqueueScheduled_settles (id : String) (t : Tombstone) :
    (enqueueScheduled env id t).Settles table fun _ table' =>
      table' = table ∨ ∃ row : Row Tombstone, table.lookup id = none ∧ row.val = t ∧
        validateTombstone env id t = .ok () ∧ table' = table.insert id row := by
  refine settles_readOnly_bind (readOnly_ofExcept _) fun _ hvalid => ?_
  refine settles_get_bind ?_
  split
  · refine settles_readOnly_bind (readOnly_loadByObject t) fun existing _ => ?_
    split
    · exact settles_raise
    · exact settles_require_bind fun _ => settles_pure (.inl rfl)
  · rename_i hfree
    have hnone : table.lookup id = none := by
      cases hl : table.lookup id with
      | none => rfl
      | some => exact absurd (by rw [hl]; rfl) hfree
    refine (settles_zoom (Q := fun _ table' => ∃ row : Row Tombstone, row.val = t ∧
      table' = table.insert id row) (Sql.write_settles id t table) rfl ?_).bind ?_
    · rintro _ _ ⟨row, hrow, -, rfl⟩
      exact ⟨row, hrow, rfl⟩
    · rintro _ _ ⟨row, hrow, rfl⟩
      exact .inr ⟨_, _, ok_pure.2 ⟨rfl, rfl⟩,
        .inr ⟨row, hnone, hrow, (ok_ofExcept.1 hvalid).1, rfl⟩⟩

end

end AstralPlane.Purge
