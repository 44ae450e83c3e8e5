/-
  Owner stop epochs (`repositories/stop_epochs.py`, `database/stop_schema.py`).

  A stop is engaged and resumed for an owner.  Every engagement has an epoch; an
  operation is bound to the epoch in which it was accepted, and its execution is
  admitted only in that epoch.  Peers acknowledge the stop of an epoch.

  * the tables are keyed by their primary keys; `EpochColumns.accepted` is what
    the constraints of `owner_stop_epoch` accept;
  * `engage` … `assertOperation` are the methods of `StopEpochRepository`;
  * `Store.step` is a call of one method.

  Every method but the plain reads locks the row of its owner until the caller
  ends its transaction, so the calls for an owner follow one another.  `kept` says
  of a call that raised that its caller went on and committed.
-/
import Mathlib.Data.List.AList
import Mathlib.Data.List.Sort
import AstralPlane.Repositories

namespace AstralPlane.StopEpochs

open Tx
open Repositories

/-! ## Values -/

/-- What a method raises: a `RepositoryValidationError`, a `StopEpochConflictError`, an
    `OwnerStoppedError`, an error of the driver about a text, or one of the database. -/
inductive Exc
  | validation (e : Repositories.ValidationError)
  | conflict (message : String)
  | stopped (message : String)
  | text
  | database (sqlstate : String)
  deriving DecidableEq

structure OwnerStopRecord where
  ownerId : String
  epoch : ℕ
  revision : ℕ
  engaged : Bool
  engagedAt : Option Time
  engagedBy : Option String
  reason : Option String
  deriving DecidableEq

structure PeerStopAcknowledgment where
  ownerId : String
  epoch : ℕ
  meshId : String
  peerId : String
  receiptDigest : String
  acknowledgedAt : Time
  deriving DecidableEq

/-! ## Tables -/

/-- The columns of `owner_stop_epoch` beside its key, with their defaults. -/
structure EpochColumns where
  epoch : ℕ := 0
  revision : ℕ := 0
  engaged : Bool := false
  engagedAt : Option Time := none
  engagedBy : Option String := none
  reason : Option String := none
  updatedAt : Option Time := none
  deriving DecidableEq

/-- The engagement that `owner_stop_epoch_state` asks for after the first stop. -/
def EpochColumns.hasEngagement (c : EpochColumns) : Bool :=
  match c.engagedAt, c.engagedBy, c.reason, c.updatedAt with
  | some engagedAt, some _, some _, some updatedAt => engagedAt ≤ updatedAt
  | _, _, _, _ => false

/-- The constraints of `owner_stop_epoch`. -/
def EpochColumns.accepted (c : EpochColumns) : Bool :=
  c.engagedBy.all (fun t => 1 ≤ t.length && t.length ≤ 512) && c.reason.all (·.length ≤ 280) &&
  (c = {} || (1 ≤ c.epoch && c.epoch ≤ c.revision && c.hasEngagement))

/-- A row of `owner_stop_epoch`. -/
structure EpochRow extends EpochColumns where
  isAccepted : toEpochColumns.accepted
  deriving DecidableEq

/-- The anchor that `_locked` provisions. -/
def EpochRow.anchor : EpochRow := ⟨{}, by decide⟩

/-- The primary key of `peer_stop_acknowledgment`. -/
structure AckKey where
  ownerId : String
  epoch : ℕ
  meshId : String
  peerId : String
  deriving DecidableEq

structure AckColumns where
  receiptDigest : String
  acknowledgedAt : Time
  deriving DecidableEq

structure Store where
  epochs : AList fun _ : String => EpochRow
  acknowledgments : AList fun _ : AckKey => AckColumns
  /-- the epoch of an operation, by owner and operation -/
  operations : AList fun _ : String × Uuid => ℕ

def Store.empty : Store := ⟨∅, ∅, ∅⟩

abbrev Work := Tx Store Exc

def record (ownerId : String) (row : EpochRow) : OwnerStopRecord :=
  ⟨ownerId, row.epoch, row.revision, row.engaged, row.engagedAt, row.engagedBy, row.reason⟩

def ack (key : AckKey) (row : AckColumns) : PeerStopAcknowledgment :=
  ⟨key.ownerId, key.epoch, key.meshId, key.peerId, row.receiptDigest, row.acknowledgedAt⟩

/-! ## Checks -/

/-- A check of `repositories/__init__.py`. -/
def checked {α : Type} (r : Except Repositories.ValidationError α) : Work α :=
  ofExcept (r.mapError .validation)

def integer (value : ℤ) (field : String) : Work ℕ := do
  require (0 ≤ value ∧ value ≤ maxBigint)
    (.validation ⟨field ++ " must be a bounded non-negative integer", []⟩)
  pure value.toNat

/-- `None if value is None else _integer(value, field)`. -/
def optionalInteger (value : Option ℤ) (field : String) : Work (Option ℕ) :=
  match value with
  | none => pure none
  | some value => some <$> integer value field

def fence (row : EpochRow) (revision : ℕ) : Work Unit :=
  require (row.revision = revision) (.conflict "owner stop revision changed")

def transitionTime (row : EpochRow) (instant : Time) : Work Unit :=
  require (row.updatedAt.all (· ≤ instant)) (.conflict "owner stop transition time regressed")

/-- The texts that a statement sends. -/
def sends (texts : List String) : Work Unit := require (texts.all isSendable) .text

/-! ## Statements -/

/-- `_locked`: the row of the owner, provisioned if there is none. -/
def locked (owner : String) : Work EpochRow := do
  sends [owner]
  let s ← Tx.get
  match s.epochs.lookup owner with
  | some row => pure row
  | none =>
    Tx.set { s with epochs := s.epochs.insert owner .anchor }
    pure .anchor

/-- `UPDATE owner_stop_epoch … WHERE owner_id = %s AND … RETURNING …`. -/
def updateEpochSql (owner : String) (selects : EpochRow → Bool)
    (written : EpochRow → EpochColumns) : Work (Option EpochRow) := do
  let s ← Tx.get
  match s.epochs.lookup owner with
  | none => pure none
  | some row =>
    if selects row then
      if h : (written row).accepted = true then
        Tx.set { s with epochs := s.epochs.insert owner ⟨written row, h⟩ }
        pure (some ⟨written row, h⟩)
      else raise (.database "23514")
    else pure none

/-- `SELECT 1 FROM owner_stop_epoch WHERE owner_id = %s AND …`. -/
def Store.existsEpoch (s : Store) (owner : String) (selects : EpochRow → Bool) : Bool :=
  (s.epochs.lookup owner).any selects

/-- `INSERT INTO peer_stop_acknowledgment … WHERE EXISTS … RETURNING …`. -/
def insertAckSql (key : AckKey) (row : AckColumns) (revision : ℕ) :
    Work (Option PeerStopAcknowledgment) := do
  let s ← Tx.get
  if s.existsEpoch key.ownerId fun r => r.revision = revision && r.epoch = key.epoch && r.engaged then
    require (s.acknowledgments.lookup key).isNone (.database "23505")
    Tx.set { s with acknowledgments := s.acknowledgments.insert key row }
    pure (some (ack key row))
  else pure none

/-- `INSERT INTO owner_stop_operation_epoch … WHERE EXISTS … RETURNING epoch`. -/
def insertOperationSql (owner : String) (operation : Uuid) (epoch : ℕ) : Work (Option ℕ) := do
  let s ← Tx.get
  if s.existsEpoch owner fun r => r.epoch = epoch && !r.engaged then
    require (s.operations.lookup (owner, operation)).isNone (.database "23505")
    Tx.set { s with operations := s.operations.insert (owner, operation) epoch }
    pure (some epoch)
  else pure none

/-! ## The repository -/

/-- `record` of a row that is not the bare anchor. -/
def visible (owner : String) (row : EpochRow) : Option OwnerStopRecord :=
  if row.revision = 0 then none else some (record owner row)

def get (ownerId : String) (forUpdate : Bool) : Work (Option OwnerStopRecord) := do
  let owner ← checked (requiredId ownerId "owner_id")
  if forUpdate then
    let row ← locked owner
    pure (visible owner row)
  else
    sends [owner]
    let s ← Tx.get
    pure ((s.epochs.lookup owner).bind (visible owner))

def engage (ownerId : String) (expectedRevision : ℤ) (reason actorId : String) (instant : Time) :
    Work OwnerStopRecord := do
  let owner ← checked (requiredId ownerId "owner_id")
  let revision ← integer expectedRevision "expected_revision"
  let actor ← checked (requiredId actorId "actor_id")
  let reason ← checked (boundedText reason "reason" 280 true)
  let row ← locked owner
  fence row revision
  if row.engaged then
    require (row.reason = some reason ∧ row.engagedBy = some actor ∧ row.engagedAt = some instant)
      (.conflict "engaged stop replay changed immutable semantics")
    pure (record owner row)
  else
    transitionTime row instant
    require (row.epoch ≠ maxBigint ∧ revision ≠ maxBigint)
      (.conflict "owner stop counters exhausted")
    sends [actor, reason]
    match ← updateEpochSql owner (fun r => r.revision = revision && !r.engaged) fun r =>
        { epoch := r.epoch + 1
          revision := r.revision + 1
          engaged := true
          engagedAt := some instant
          engagedBy := some actor
          reason := some reason
          updatedAt := some instant } with
    | none => raise (.conflict "owner stop engage fence rejected")
    | some changed => pure (record owner changed)

def resume (ownerId : String) (expectedRevision expectedEpoch : ℤ) (instant : Time) :
    Work OwnerStopRecord := do
  let owner ← checked (requiredId ownerId "owner_id")
  let revision ← integer expectedRevision "expected_revision"
  let epoch ← integer expectedEpoch "expected_epoch"
  let row ← locked owner
  fence row revision
  require (row.engaged ∧ row.epoch = epoch) (.conflict "owner stop epoch or state changed")
  transitionTime row instant
  require (revision ≠ maxBigint) (.conflict "owner stop counters exhausted")
  match ← updateEpochSql owner (fun r => r.revision = revision && r.epoch = epoch && r.engaged)
      fun r => { r.toEpochColumns with
        revision := r.revision + 1
        engaged := false
        updatedAt := some instant } with
  | none => raise (.conflict "owner stop resume fence rejected")
  | some changed => pure (record owner changed)

/-- The acknowledgments of an epoch, by mesh and peer. -/
def Store.acknowledged (s : Store) (owner : String) (epoch : ℕ) : List PeerStopAcknowledgment :=
  let rows := (s.acknowledgments.entries.map fun e => ack e.1 e.2).filter
    fun a => a.ownerId = owner && a.epoch = epoch
  rows.insertionSort fun a b => a.meshId < b.meshId ∨ a.meshId = b.meshId ∧ a.peerId ≤ b.peerId

def listAcknowledgments (ownerId : String) (epoch : ℤ) : Work (List PeerStopAcknowledgment) := do
  let owner ← checked (requiredId ownerId "owner_id")
  let epoch ← integer epoch "epoch"
  sends [owner]
  let s ← Tx.get
  let rows := (s.acknowledged owner epoch).take 65
  require (rows.length ≤ 64) (.conflict "stop acknowledgment inventory exceeds its bound")
  pure rows

/-- What `acknowledge` does under its savepoint. -/
def recordAcknowledgment (key : AckKey) (digest : String) (revision : ℕ) (instant : Time) :
    Work PeerStopAcknowledgment := do
  sends [key.meshId, key.peerId]
  let s ← Tx.get
  match s.acknowledgments.lookup key with
  | some existing =>
    require (existing.receiptDigest = digest)
      (.conflict "acknowledgment replay changed immutable receipt")
    pure (ack key existing)
  | none =>
    require (revision ≠ maxBigint) (.conflict "owner stop counters exhausted")
    let inventory ← listAcknowledgments key.ownerId key.epoch
    require (inventory.length < 64) (.conflict "stop acknowledgment inventory is full")
    let inserted ← insertAckSql key ⟨digest, instant⟩ revision
    let changed ← updateEpochSql key.ownerId
      (fun r => r.revision = revision && r.epoch = key.epoch && r.engaged)
      fun r => { r.toEpochColumns with revision := r.revision + 1, updatedAt := some instant }
    match inserted, changed with
    | some inserted, some _ => pure inserted
    | _, _ => raise (.conflict "stop acknowledgment fence rejected")

def acknowledge (ownerId meshId peerId : String) (epoch expectedRevision : ℤ)
    (receiptDigest : String) (instant : Time) : Work PeerStopAcknowledgment := do
  let owner ← checked (requiredId ownerId "owner_id")
  let mesh ← checked (requiredId meshId "mesh_id" 64)
  let peer ← checked (requiredId peerId "peer_id" 64)
  let epoch ← integer epoch "epoch"
  let revision ← integer expectedRevision "expected_revision"
  let digest ← checked (requiredId receiptDigest "receipt_digest" 64)
  require (isSha256 digest)
    (.validation ⟨"receipt_digest must be a lowercase SHA-256 digest", []⟩)
  let row ← locked owner
  fence row revision
  require (row.engaged ∧ row.epoch = epoch)
    (.conflict "acknowledgment belongs to an inactive stop epoch")
  transitionTime row instant
  Tx.savepoint (recordAcknowledgment ⟨owner, epoch, mesh, peer⟩ digest revision instant)

def assertRunning (ownerId : String) (expectedEpoch : Option ℤ) :
    Work (Option OwnerStopRecord) := do
  let owner ← checked (requiredId ownerId "owner_id")
  let epoch ← optionalInteger expectedEpoch "expected_epoch"
  let row ← locked owner
  require (!row.engaged) (.stopped "owner stop is engaged")
  require (epoch.all (row.epoch = ·)) (.conflict "owner stop epoch changed before admission")
  pure (visible owner row)

def bindOperation (ownerId : String) (operation : Uuid) : Work ℕ := do
  let owner ← checked (requiredId ownerId "owner_id")
  let row ← locked owner
  require (!row.engaged) (.stopped "owner stop is engaged")
  let s ← Tx.get
  match s.operations.lookup (owner, operation) with
  | some epoch =>
    require (epoch = row.epoch)
      (.conflict "operation stop binding belongs to an earlier epoch")
    pure epoch
  | none =>
    match ← insertOperationSql owner operation row.epoch with
    | none => raise (.conflict "operation stop binding fence rejected")
    | some epoch => pure epoch

def assertOperation (ownerId : String) (operation : Uuid) : Work Unit := do
  let owner ← checked (requiredId ownerId "owner_id")
  let row ← locked owner
  require (!row.engaged) (.stopped "owner stop is engaged")
  let s ← Tx.get
  let current := match s.operations.lookup (owner, operation) with
    | none => row.epoch = 0
    | some epoch => epoch = row.epoch
  require current (.conflict "operation stop epoch changed before execution")

/-! ## Calls -/

inductive Method
  | get (ownerId : String) (forUpdate : Bool)
  | engage (ownerId : String) (expectedRevision : ℤ) (reason actorId : String) (instant : Time)
  | resume (ownerId : String) (expectedRevision expectedEpoch : ℤ) (instant : Time)
  | acknowledge (ownerId meshId peerId : String) (epoch expectedRevision : ℤ)
      (receiptDigest : String) (instant : Time)
  | listAcknowledgments (ownerId : String) (epoch : ℤ)
  | assertRunning (ownerId : String) (expectedEpoch : Option ℤ)
  | bindOperation (ownerId : String) (operation : Uuid)
  | assertOperation (ownerId : String) (operation : Uuid)

def exec : Method → Work Unit
  | .get owner forUpdate => do let _ ← get owner forUpdate
  | .engage owner revision reason actor instant => do
    let _ ← engage owner revision reason actor instant
  | .resume owner revision epoch instant => do let _ ← resume owner revision epoch instant
  | .acknowledge owner mesh peer epoch revision digest instant => do
    let _ ← acknowledge owner mesh peer epoch revision digest instant
  | .listAcknowledgments owner epoch => do let _ ← listAcknowledgments owner epoch
  | .assertRunning owner epoch => do let _ ← assertRunning owner epoch
  | .bindOperation owner operation => do let _ ← bindOperation owner operation
  | .assertOperation owner operation => assertOperation owner operation

structure Call where
  method : Method
  kept : Bool

def Store.step (call : Call) (s : Store) : Store :=
  if call.kept then (exec call.method s).2 else (exec call.method).commit s

def Store.returns (call : Call) (s : Store) : Bool := (exec call.method s).1.isOk

def Store.run (calls : List Call) (s : Store) : Store := AstralPlane.run Store.step calls s

end AstralPlane.StopEpochs
