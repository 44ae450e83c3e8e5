/-
  The table `audit_events` and the methods `append`, `load_chain` and
  `verify_chain` of `AuditRepository`.

  A row holds what PostgreSQL keeps of an event.  Texts are kept as they are, if
  they are Unicode without U+0000.  The columns `event_id` and `correlation_id`
  are UUIDs, which are read back in their usual form.  The columns of type
  `jsonb` keep the keys of an object in an order of their own and a number as a
  decimal: 1e16 is read back as an integer, and whether -0.0 keeps its sign is
  left open (`signed`).
-/
import AstralPlane.Rows
import AstralPlane.Audit.Model

namespace AstralPlane.Audit

open Python

/-! ## Columns -/

/-- A text that a column can hold. -/
def storable (t : Text) : Bool := t.all fun
  | .scalar c => c != '\x00'
  | .surrogate _ => false

/-- The value of a hexadecimal digit, in upper or lower case. -/
def hexDigitValue : CodePoint → Option ℕ
  | .scalar c => hexValue (.scalar c.toLower)
  | .surrogate _ => none

/-- A hyphen may stand between two groups of four digits. -/
def dropHyphen : Text → Text
  | .scalar '-' :: rest => rest
  | t => t

/-- Read `n` bytes of two digits each. -/
def uuidBytes : ℕ → ℕ → Text → Option (ℕ × Text)
  | 0, value, rest => some (value, rest)
  | n + 1, value, a :: b :: rest => do
    let x ← hexDigitValue a
    let y ← hexDigitValue b
    uuidBytes n (value * 256 + 16 * x + y) (if n % 2 = 0 ∧ n ≠ 0 then dropHyphen rest else rest)
  | _ + 1, _, _ => none

/-- The input of a `uuid` column: 32 digits, with or without hyphens and braces. -/
def uuidInput : Text → Option Uuid
  | .scalar '\x7b' :: rest =>
    match uuidBytes 16 0 rest with
    | some (value, [.scalar '\x7d']) => some ⟨value⟩
    | _ => none
  | t =>
    match uuidBytes 16 0 t with
    | some (value, []) => some ⟨value⟩
    | _ => none

/-- `str` of the UUID that a column gives back. -/
def uuidText (u : Uuid) : Text := ofString u.str

/-! ### `jsonb` -/

def digitsValue (digits : List (Fin 10)) : ℕ := digits.foldl (fun n d => 10 * n + d) 0

/-- `-0.0`. -/
def isNegativeZero (x : PyFloat) : Bool :=
  match x.form with
  | .fixed whole fraction => x.negative && whole == 0 && fraction.all (·.val == 0)
  | .scientific _ _ _ => false

def unsignedFloat (x : PyFloat) : PyFloat := { x with negative := false }

/-- A `float` that was written to a `jsonb` column, read back.  A decimal without a fraction is read
    as an `int`. -/
def jsonbFloat (signed : Bool) (x : PyFloat) : Value :=
  match x.form with
  | .scientific lead fraction exponent =>
    if 0 ≤ exponent then
      let n := digitsValue (lead :: fraction) * 10 ^ (exponent.toNat - fraction.length)
      .int (if x.negative then -n else n)
    else .float x
  | .fixed _ _ => .float (if isNegativeZero x && !signed then unsignedFloat x else x)

/-- Keys are ordered by the number of their bytes, then by the bytes. -/
def jsonbKey (t : Text) : List ℕ :=
  let bytes := (encode t).getD []
  bytes.length :: bytes.map UInt8.toNat

def jsonbKeyLe (x y : Text × Value) : Prop := jsonbKey x.1 ≤ jsonbKey y.1

instance : DecidableRel jsonbKeyLe := fun _ _ => inferInstanceAs (Decidable (_ ≤ _))

mutual
/-- A value that was written to a `jsonb` column, read back. -/
def jsonb (signed : Bool) : Value → Value
  | .float x => jsonbFloat signed x
  | .arr items => .arr (jsonbItems signed items)
  | .obj fields => .obj ((jsonbFields signed fields).insertionSort jsonbKeyLe)
  | .null => .null
  | .bool b => .bool b
  | .int n => .int n
  | .str t => .str t

def jsonbItems (signed : Bool) : List Value → List Value
  | [] => []
  | item :: items => jsonb signed item :: jsonbItems signed items

def jsonbFields (signed : Bool) : List (Text × Value) → List (Text × Value)
  | [] => []
  | (key, value) :: fields => (key, jsonb signed value) :: jsonbFields signed fields
end

/-! ## Rows -/

/-- A row of `audit_events`. -/
structure EventRow where
  eventId : Uuid
  actorUserId : Text
  authPrincipal : Text
  agentId : Option Text
  eventClass : Text
  actionType : Text
  description : Text
  conversationId : Option Text
  correlationId : Uuid
  outcome : Outcome
  outcomeDetail : Option Text
  inputsMeta : Value
  outputsMeta : Value
  artifactPointers : Value
  startedAt : Datetime
  completedAt : Option Datetime
  recordedAt : Datetime
  chainSequence : ℕ
  prevHash : Digest
  entryHash : Digest
  keyId : Text
  schemaVersion : SchemaVersion
  /-- `audit_events_chain_sequence_check` -/
  chainSequence_pos : chainSequence > 0
deriving DecidableEq

/-- `not value` of a value that `json.loads` gives. -/
def isFalsy : Value → Bool
  | .null | .bool false | .int 0 | .str [] | .arr [] | .obj [] => true
  | .float x => match x.form with
    | .fixed whole fraction => whole == 0 && fraction.all (·.val == 0)
    | .scientific _ _ _ => false
  | _ => false

/-- `value or default`. -/
def orDefault (value default : Value) : Value := if isFalsy value then default else value

def EventRow.record (row : EventRow) : Except Exc AuditRecord := do
  let inputs ← canonicalJson (orDefault row.inputsMeta (.obj [])) .dict
  let outputs ← canonicalJson (orDefault row.outputsMeta (.obj [])) .dict
  let pointers ← canonicalJson (orDefault row.artifactPointers (.arr [])) .list
  let event ← AuditEvent.make
    { eventId := uuidText row.eventId
      chainId := row.actorUserId
      authPrincipal := row.authPrincipal
      agentId := row.agentId
      eventClass := row.eventClass
      actionType := row.actionType
      description := row.description
      conversationId := row.conversationId
      correlationId := uuidText row.correlationId
      outcome := row.outcome
      outcomeDetail := row.outcomeDetail
      inputsJson := inputs
      outputsJson := outputs
      artifactPointersJson := pointers
      startedAt := row.startedAt
      completedAt := row.completedAt
      keyId := row.keyId
      schemaVersion := row.schemaVersion }
  pure
    { event := event
      sequence := row.chainSequence
      recordedAt := row.recordedAt
      previousDigest := row.prevHash
      entryDigest := row.entryHash
      sequence_pos := row.chainSequence_pos }

abbrev Events := List EventRow

def Events.chain (events : Events) (chainId : Text) : List EventRow :=
  events.filter fun row => row.actorUserId = chainId

/-! ## Statements -/

/-- The texts that an `INSERT` of the event sends. -/
def AuditEvent.columnTexts (e : AuditEvent) : List Text :=
  [e.chainId, e.authPrincipal, e.eventClass, e.actionType, e.description, e.keyId] ++
    e.agentId.toList ++ e.conversationId.toList ++ e.outcomeDetail.toList ++
    texts e.inputsJson.value ++ texts e.outputsJson.value ++ texts e.artifactPointersJson.value

/-- The row that the `INSERT` of `append` makes. -/
def EventRow.ofEvent (signed : Bool) (e : AuditEvent) (eventId correlationId : Uuid) (now : Datetime)
    (sequence : ℕ) (previous entry : Digest) (h : 0 < sequence) : EventRow where
  eventId := eventId
  actorUserId := e.chainId
  authPrincipal := e.authPrincipal
  agentId := e.agentId
  eventClass := e.eventClass
  actionType := e.actionType
  description := e.description
  conversationId := e.conversationId
  correlationId := correlationId
  outcome := e.outcome
  outcomeDetail := e.outcomeDetail
  inputsMeta := jsonb signed e.inputsJson.value
  outputsMeta := jsonb signed e.outputsJson.value
  artifactPointers := jsonb signed e.artifactPointersJson.value
  startedAt := e.startedAt
  completedAt := e.completedAt
  recordedAt := now
  chainSequence := sequence
  prevHash := previous
  entryHash := entry
  keyId := e.keyId
  schemaVersion := e.schemaVersion
  chainSequence_pos := h

/-- A `uuid` parameter of a statement. -/
def uuidParameter (t : Text) : Except Exc Uuid :=
  match uuidInput t with
  | some u => .ok u
  | none => .error .database

/-- `SELECT * FROM audit_events WHERE actor_user_id = %s AND event_id = %s`. -/
def selectEvent (chainId eventId : Text) : Tx Events Exc (Option EventRow) := do
  let id ← .ofExcept (uuidParameter eventId)
  let events ← Tx.get
  pure (events.find? fun row => row.actorUserId = chainId ∧ row.eventId = id)

/-- `… ORDER BY chain_sequence DESC LIMIT 1`. -/
def Events.last (events : Events) (chainId : Text) : Option EventRow :=
  firstBy (fun a b => decide (b.chainSequence < a.chainSequence)) (events.chain chainId)

/-- `INSERT INTO audit_events … RETURNING *`, at the time `now`. -/
def insertEvent (signed : Bool) (e : AuditEvent) (now : Datetime) (sequence : ℕ)
    (previous entry : Digest) (h : 0 < sequence) : Tx Events Exc EventRow := do
  let eventId ← .ofExcept (uuidParameter e.eventId)
  let correlationId ← .ofExcept (uuidParameter e.correlationId)
  Tx.require (e.columnTexts.all storable && sequence ≤ maxBigint) .database
  let events ← Tx.get
  -- the primary key and `uq_audit_events_actor_sequence`
  Tx.require (events.all fun row => row.eventId != eventId &&
    !(row.actorUserId == e.chainId && row.chainSequence == sequence)) .database
  let row := EventRow.ofEvent signed e eventId correlationId now sequence previous entry h
  Tx.set (events ++ [row])
  pure row

/-! ## Methods -/

/-- `append` of an event that is stored already. -/
def replay (auth : Authenticator) (event : AuditEvent) (existing : EventRow) :
    Tx Events Exc AuditRecord := do
  let record ← .ofExcept existing.record
  let expected ← .ofExcept (entryOf auth record.event.keyId event.toEventFields record.sequence
    record.previousDigest)
  Tx.require (record.event = event && record.entryDigest = expected)
    (.plane "audit event identity has conflicting semantics" "audit_idempotency_conflict"
      event.chainId)
  pure record

def nextSequence : Option EventRow → ℕ
  | none => 1
  | some previous => previous.chainSequence + 1

theorem nextSequence_pos (previous : Option EventRow) : 0 < nextSequence previous := by
  cases previous <;> simp [nextSequence]

def nextDigest : Option EventRow → Digest
  | none => genesisDigest
  | some previous => previous.entryHash

/-- `append` of an event that is not stored. -/
def extend (signed : Bool) (auth : Authenticator) (event : AuditEvent) (now : Datetime) :
    Tx Events Exc AuditRecord := do
  let events ← Tx.get
  let previous := events.last event.chainId
  let sequence := nextSequence previous
  let previousDigest := nextDigest previous
  let entryDigest ← .ofExcept (entryOf auth event.keyId event.toEventFields sequence previousDigest)
  let row ← insertEvent signed event now sequence previousDigest entryDigest
    (nextSequence_pos previous)
  let record ← .ofExcept row.record
  Tx.require (record.sequence = sequence && record.previousDigest = previousDigest &&
      record.entryDigest = entryDigest)
    (.plane "audit append returned inconsistent chain evidence" "audit_append_inconsistent"
      event.chainId)
  pure record

def append (signed : Bool) (auth : Authenticator) (event : AuditEvent) (now : Datetime) :
    Tx Events Exc AuditRecord := do
  -- the lock is taken under the name of the chain
  Tx.require (storable event.chainId) .database
  match ← selectEvent event.chainId event.eventId with
  | some existing => replay auth event existing
  | none => extend signed auth event now

def sequenceLe (x y : EventRow) : Prop :=
  x.chainSequence < y.chainSequence ∨
    x.chainSequence = y.chainSequence ∧ x.eventId.int ≤ y.eventId.int

instance : DecidableRel sequenceLe := fun _ _ => inferInstanceAs (Decidable (_ ∨ _))

def loadChain (chainId : Text) (startSequence : ℤ) : Tx Events Exc (List AuditRecord) := do
  Tx.require (decide (0 < startSequence)) (.value "start_sequence must be positive")
  Tx.require (storable chainId) .database
  let events ← Tx.get
  let rows := (events.chain chainId).filter fun row => startSequence ≤ (row.chainSequence : ℤ)
  .ofExcept ((rows.insertionSort sequenceLe).mapM EventRow.record)

def verifyChain (auth : Authenticator) (chainId : Text) (startSequence : ℤ)
    (expectedPreviousDigest : Digest) : Tx Events Exc ChainVerification := do
  let records ← loadChain chainId startSequence
  .ofExcept (verifyRecords auth chainId startSequence expectedPreviousDigest records)

end AstralPlane.Audit
