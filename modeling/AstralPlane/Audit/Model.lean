/-
  Audit events and the verification of their chains (`repositories/audit.py`).

  * `AuditEvent` is an event that `__post_init__` accepts, `AuditRecord` an event
    with its place in a chain;
  * `canonicalEventBytes` are the bytes that are authenticated, in the two
    versions of the format;
  * `verifyRecords` walks along the records of a chain.

  An event keeps its JSON columns as canonical texts.  Here they are the values
  that those texts stand for, which a text determines (`dumps_inj`).
-/
import AstralPlane.Tx
import AstralPlane.Python.Datetime
import AstralPlane.Python.Json

namespace AstralPlane.Audit

open Python

/-! ## Values -/

/-- `ValueError`, `UnicodeEncodeError`, `PlaneError` with its code and chain, or an error of the
    database. -/
inductive Exc where
  | value (message : String)
  | encoding
  | plane (message code : String) (chainId : Text)
  | database
deriving DecidableEq

/-- A timezone-aware `datetime`, by its instant. -/
abbrev Datetime := { t : Time // isDatetime t = true }

abbrev Digest := { b : Bytes // b.length = 32 }

def genesisDigest : Digest := ⟨List.replicate 32 0, List.length_replicate⟩

def digestBytes (name : String) (value : Bytes) : Except Exc Digest :=
  if h : value.length = 32 then .ok ⟨value, h⟩
  else .error (.value (name ++ " must contain 32 bytes"))

inductive Outcome where
  | inProgress
  | success
  | failure
  | interrupted
deriving DecidableEq

def Outcome.text : Outcome → String
  | .inProgress => "in_progress"
  | .success => "success"
  | .failure => "failure"
  | .interrupted => "interrupted"

inductive SchemaVersion where
  | v1
  | v2
deriving DecidableEq

/-- `not value.strip()`. -/
def isBlank (value : Text) : Bool := value.all fun
  | .scalar c => isSpace c
  | .surrogate _ => false

def required (name : String) (value : Text) (maximum : ℕ) : Except Exc Unit :=
  ensure (!isBlank value && value.length ≤ maximum)
    (.value (name ++ " must be a non-empty string of at most " ++ toString maximum ++ " characters"))

/-! ## JSON columns -/

/-- The `expected_type` of `canonical_json`. -/
inductive JsonType where
  | dict
  | list
deriving DecidableEq

def JsonType.name : JsonType → String
  | .dict => "dict"
  | .list => "list"

def JsonType.holds : JsonType → Value → Bool
  | .dict, .obj _ | .list, .arr _ => true
  | _, _ => false

/-- `canonical_json`.  A `dict` has distinct keys, so that check never fails on a value of Python. -/
def canonicalJson (value : Value) (expectedType : JsonType) : Except Exc Canonical :=
  if h : distinct value ∧ expectedType.holds value = true then .ok (.ofValue value h.1)
  else .error (.value ("audit JSON must contain a " ++ expectedType.name))

/-! ## Events -/

structure EventFields where
  eventId : Text
  chainId : Text
  authPrincipal : Text
  agentId : Option Text
  eventClass : Text
  actionType : Text
  description : Text
  conversationId : Option Text
  correlationId : Text
  outcome : Outcome
  outcomeDetail : Option Text
  inputsJson : Canonical
  outputsJson : Canonical
  artifactPointersJson : Canonical
  startedAt : Datetime
  completedAt : Option Datetime
  keyId : Text
  schemaVersion : SchemaVersion
deriving DecidableEq

/-- `completed_at is None or completed_at >= started_at`. -/
def EventFields.isOrdered (f : EventFields) : Bool :=
  match f.completedAt with
  | none => true
  | some completed => decide (f.startedAt.val ≤ completed.val)

def EventFields.postInit (f : EventFields) : Except Exc Unit := do
  required "event_id" f.eventId 128
  required "chain_id" f.chainId 512
  required "auth_principal" f.authPrincipal 512
  required "event_class" f.eventClass 128
  required "action_type" f.actionType 128
  required "description" f.description 1024
  required "correlation_id" f.correlationId 128
  required "key_id" f.keyId 128
  ensure f.isOrdered (.value "completed_at cannot precede started_at")
  let _ ← canonicalJson f.inputsJson.value .dict
  let _ ← canonicalJson f.outputsJson.value .dict
  let _ ← canonicalJson f.artifactPointersJson.value .list
  pure ()

structure AuditEvent extends EventFields where
  accepted : toEventFields.postInit = .ok ()
deriving DecidableEq

/-- The constructor of `AuditEvent`. -/
def AuditEvent.make (f : EventFields) : Except Exc AuditEvent :=
  match h : f.postInit with
  | .ok () => .ok ⟨f, h⟩
  | .error e => .error e

structure AuditRecord where
  event : AuditEvent
  sequence : ℕ
  recordedAt : Datetime
  previousDigest : Digest
  entryDigest : Digest
  sequence_pos : 0 < sequence

/-! ## Canonical bytes -/

def optional : Option Text → Value
  | none => .null
  | some t => .str t

/-- The entries that both versions have. -/
def canonicalFields (iso : Time → String) (e : EventFields) : List (Text × Value) := [
  (ofString "event_id", .str e.eventId),
  (ofString "actor_user_id", .str e.chainId),
  (ofString "auth_principal", .str e.authPrincipal),
  (ofString "agent_id", optional e.agentId),
  (ofString "event_class", .str e.eventClass),
  (ofString "action_type", .str e.actionType),
  (ofString "description", .str e.description),
  (ofString "conversation_id", optional e.conversationId),
  (ofString "correlation_id", .str e.correlationId),
  (ofString "outcome", .str (ofString e.outcome.text)),
  (ofString "outcome_detail", optional e.outcomeDetail),
  (ofString "inputs_meta", e.inputsJson.value),
  (ofString "outputs_meta", e.outputsJson.value),
  (ofString "artifact_pointers", e.artifactPointersJson.value),
  (ofString "started_at", .str (ofString (iso e.startedAt.val))),
  (ofString "completed_at", optional (e.completedAt.map fun t => ofString (iso t.val)))]

/-- `_canonical_event_v1` before it is written, with `ensure_ascii`. -/
def canonicalEventV1 (e : EventFields) : List (Text × Value) :=
  (ofString "schema_version", .int 1) :: canonicalFields isoformat e

/-- The value of version 2, written without `ensure_ascii`. -/
def canonicalEventV2 (e : EventFields) (sequence : ℕ) : List (Text × Value) :=
  (ofString "schema_version", .int 2) :: (ofString "chain_sequence", .int sequence) ::
    canonicalFields utcIso e

/-- `str.encode("utf-8")`. -/
def encodeUtf8 (t : Text) : Except Exc Bytes :=
  match encode t with
  | some b => .ok b
  | none => .error .encoding

def canonicalEventBytes (e : EventFields) (sequence : ℕ) : Except Exc Bytes := do
  ensure (decide (0 < sequence)) (.value "audit sequence must be positive")
  match e.schemaVersion with
  | .v1 => encodeUtf8 (dumps true (.obj (canonicalEventV1 e)))
  | .v2 => encodeUtf8 (dumps false (.obj (canonicalEventV2 e sequence)))

/-! ## Verification -/

/-- `AuditAuthenticator`: a digest of a payload under the key of an identifier. -/
abbrev Authenticator := Text → Bytes → Bytes

def authenticate (auth : Authenticator) (keyId : Text) (payload : Bytes) : Except Exc Digest :=
  digestBytes "audit authenticator result" (auth keyId payload)

/-- The digest that an event has at its place in a chain. -/
def entryOf (auth : Authenticator) (keyId : Text) (e : EventFields) (sequence : ℕ)
    (previous : Digest) : Except Exc Digest := do
  let bytes ← canonicalEventBytes e sequence
  authenticate auth keyId (previous.val ++ bytes)

inductive Reason where
  | wrongChain
  | nonContiguousSequence
  | previousDigestMismatch
  | entryDigestMismatch
  | missingRetentionAnchor
  | invalidRetentionAnchor
  | retentionAnchorMismatch
deriving DecidableEq

structure ChainVerification where
  valid : Bool
  firstInvalidEventId : Option Text
  reason : Option Reason
  lastSequence : ℤ
  lastDigest : Digest
deriving DecidableEq

def ChainVerification.passed (lastSequence : ℤ) (lastDigest : Digest) : ChainVerification :=
  ⟨true, none, none, lastSequence, lastDigest⟩

def ChainVerification.failed (eventId : Text) (reason : Reason) (lastSequence : ℤ)
    (lastDigest : Digest) : ChainVerification :=
  ⟨false, some eventId, some reason, lastSequence, lastDigest⟩

/-- What `verify_records` finds wrong with a record. -/
def checkRecord (auth : Authenticator) (chainId : Text) (expectedSequence : ℤ)
    (previousDigest : Digest) (record : AuditRecord) : Except Exc (Option Reason) :=
  if record.event.chainId ≠ chainId then .ok (some .wrongChain)
  else if (record.sequence : ℤ) ≠ expectedSequence then .ok (some .nonContiguousSequence)
  else if record.previousDigest ≠ previousDigest then .ok (some .previousDigestMismatch)
  else do
    let expectedEntry ← entryOf auth record.event.keyId record.event.toEventFields record.sequence
      previousDigest
    pure (if record.entryDigest ≠ expectedEntry then some .entryDigestMismatch else none)

def verifyRecords (auth : Authenticator) (chainId : Text) (startSequence : ℤ)
    (expectedPreviousDigest : Digest) : List AuditRecord → Except Exc ChainVerification
  | [] => .ok (.passed (startSequence - 1) expectedPreviousDigest)
  | record :: records => do
    match ← checkRecord auth chainId startSequence expectedPreviousDigest record with
    | some reason =>
      pure (.failed record.event.eventId reason (startSequence - 1) expectedPreviousDigest)
    | none => verifyRecords auth chainId (startSequence + 1) record.entryDigest records

end AstralPlane.Audit
