/-
  `AuthorityRepository` (`authority/repository.py`): bindings, protected effects
  and receipt claims in caller-owned transactions.

  The statements come first, in the order of the source, then the methods, then
  `Call`s and runs.  A caller may catch what a method raises and go on in its
  transaction; a call therefore says whether that is what its caller does
  (`Call.kept`), and what the method had written then stays.

  The tables of lifecycle operations and the reading methods are left out: no
  method here reads or writes the one, and the other write nothing.
-/
import AstralPlane.Outbox.Model
import AstralPlane.Authority.Model

namespace AstralPlane.Authority

open Tx

inductive Error
  | validation (message : String)
  | data (message : String)
  | idempotencyConflict (message : String)
  | compareAndSetConflict (message : String)
  | receiptClaimConflict (message : String)
  | receiptWatermarkConflict (message : String)
  | outbox (fault : Outbox.Fault)
  | database (sqlstate : String)
  deriving DecidableEq

/-- The tables of the repository, and the outbox. -/
structure Store where
  bindings : List BindingRow
  effects : List EffectRow
  claims : List ClaimRow
  watermarks : List WatermarkRow
  outbox : Outbox.Table
  deriving DecidableEq

abbrev Work := Tx Store Error

variable (sha256 : List UInt8 → String)

/-! ## Reading rows back -/

def bindingFromRow (row : BindingRow) : Except Error (AgentAuthorityBinding sha256) :=
  if h : row.valid sha256 = true then .ok ⟨row, h⟩
  else .error (.data "persisted authority row is invalid")

def effectFromRow (row : EffectRow) : Except Error ProtectedEffectOperation :=
  if h : row.valid = true then .ok ⟨row, h⟩
  else .error (.data "persisted authority row is invalid")

/-- `_claim_from_row`: the anchor is validated with the claim. -/
def claimFromRow (row : ClaimRow) : Except Error ReceiptClaim :=
  if h : row.data.valid = true then .ok ⟨row.data, h⟩
  else .error (.data "persisted authority row is invalid")

def watermarkFromRow (row : WatermarkRow) : Except Error ReceiptSequenceWatermark :=
  if h : row.valid = true then .ok ⟨row, h⟩
  else .error (.data "persisted authority row is invalid")

/-! ## Statements on bindings -/

/-- Some unique key of the table is the same. -/
def BindingRow.conflicts (r b : BindingRow) : Bool :=
  r.bindingId = b.bindingId ||
  (r.ownerId = b.ownerId && r.agentId = b.agentId && r.runtimeId = b.runtimeId &&
    r.runtimeGeneration = b.runtimeGeneration) ||
  (!r.state.terminal && !b.state.terminal && r.ownerId = b.ownerId && r.agentId = b.agentId &&
    r.population = b.population)

/-- `_INSERT_BINDING`. -/
def insertBindingSql (b : BindingRow) : Work (Option BindingRow) := do
  let s ← Tx.get
  require b.fits (.database "22003")
  if s.bindings.any (·.conflicts b) then pure none
  else do
    Tx.set { s with bindings := s.bindings ++ [b] }
    pure (some b)

/-- `_READ_BINDING_CONFLICT`. -/
def readBindingConflictSql (b : BindingRow) : Work (Option BindingRow) := do
  let s ← Tx.get
  pure (s.bindings.find? fun r => r.ownerId = b.ownerId &&
    (r.bindingId = b.bindingId ||
      (r.agentId = b.agentId && r.population = b.population && !r.state.terminal) ||
      (r.agentId = b.agentId && r.runtimeId = b.runtimeId &&
        r.runtimeGeneration = b.runtimeGeneration)))

/-- `_LOCK_BINDING`. -/
def lockBindingSql (ownerId bindingId : String) : Work (Option BindingRow) := do
  let s ← Tx.get
  pure (s.bindings.find? fun r => r.ownerId = ownerId && r.bindingId = bindingId)

/-- Columns that both updates of a binding compare. -/
def BindingRow.sameIdentity (r b : BindingRow) : Bool :=
  r.ownerId = b.ownerId && r.bindingId = b.bindingId && r.agentId = b.agentId &&
  r.runtimeId = b.runtimeId && r.runtimeGeneration = b.runtimeGeneration &&
  r.population = b.population && r.tenantId = b.tenantId && r.envelopeId = b.envelopeId &&
  r.policyDigest = b.policyDigest && r.machineDigest = b.machineDigest &&
  r.configEpoch = b.configEpoch && r.capabilities = b.capabilities

/-- `UPDATE … WHERE … RETURNING *` of the one row that a primary key selects. -/
def updateBindingSql (selects : BindingRow → Bool) (written : BindingRow → BindingRow) :
    Work (Option BindingRow) := do
  let s ← Tx.get
  match s.bindings.find? selects with
  | none => pure none
  | some r => do
    require (written r).fits (.database "22003")
    require ((written r).createdAt ≤ (written r).updatedAt) (.database "23514")
    Tx.set { s with bindings := updateWhere selects written s.bindings }
    pure (some (written r))

/-- `SET` of `_TRANSITION_BINDING`. -/
def BindingRow.moved (r b : BindingRow) : BindingRow :=
  { r with
    leaseSequence := b.leaseSequence
    leaseExpiresAtNs := b.leaseExpiresAtNs
    state := b.state
    updatedAt := b.updatedAt
    version := b.version }

/-- `SET` of `_ACTIVATE_BINDING`. -/
def BindingRow.issued (r b : BindingRow) : BindingRow :=
  { r.moved b with
    wardenId := b.wardenId
    leaseId := b.leaseId
    lineageId := b.lineageId
    subjectId := b.subjectId }

/-- `_TRANSITION_BINDING`. -/
def transitionBindingSql (b : BindingRow) (expectedState : AuthorityBindingState)
    (expectedVersion : ℤ) : Work (Option BindingRow) :=
  updateBindingSql
    (fun r => r.sameIdentity b && r.remoteIdentities = b.remoteIdentities &&
      r.state = expectedState && (r.version : ℤ) = expectedVersion)
    (·.moved b)

/-- `_ACTIVATE_BINDING`. -/
def activateBindingSql (b : BindingRow) (pending : List String) (expectedVersion : ℤ) :
    Work (Option BindingRow) :=
  updateBindingSql
    (fun r => r.sameIdentity b && r.createdAt = b.createdAt && r.remoteIdentities = pending &&
      r.leaseSequence = 0 && r.leaseExpiresAtNs = 0 && r.state = .provisioning &&
      (r.version : ℤ) = expectedVersion)
    (·.issued b)

/-! ## Statements on effects -/

/-- Some unique key of the table is the same. -/
def EffectRow.conflicts (r e : EffectRow) : Bool :=
  r.operationId = e.operationId ||
  (r.receiptId.isSome && r.receiptId = e.receiptId) ||
  (r.ownerId = e.ownerId && r.bindingId = e.bindingId &&
    r.executorAudience = e.executorAudience && r.nonce = e.nonce)

/-- `_INSERT_EFFECT`, with the foreign key to the binding. -/
def insertEffectSql (e : EffectRow) : Work (Option EffectRow) := do
  let s ← Tx.get
  require e.fits (.database "22003")
  if s.effects.any (·.conflicts e) then pure none
  else do
    require (s.bindings.any fun b => b.ownerId = e.ownerId && b.bindingId = e.bindingId)
      (.database "23503")
    Tx.set { s with effects := s.effects ++ [e] }
    pure (some e)

/-- `_READ_EFFECT_CONFLICT`. -/
def readEffectConflictSql (e : EffectRow) : Work (Option EffectRow) := do
  let s ← Tx.get
  pure (s.effects.find? fun r => r.ownerId = e.ownerId &&
    (r.operationId = e.operationId ||
      (r.bindingId = e.bindingId && r.executorAudience = e.executorAudience && r.nonce = e.nonce)))

/-- `_LOCK_EFFECT`. -/
def lockEffectSql (ownerId operationId : String) : Work (Option EffectRow) := do
  let s ← Tx.get
  pure (s.effects.find? fun r => r.ownerId = ownerId && r.operationId = operationId)

/-- `WHERE` of `_TRANSITION_EFFECT`. -/
def EffectRow.atFence (r e : EffectRow) (expectedStatus : ProtectedEffectStatus)
    (expectedVersion : ℤ) : Bool :=
  r.toEffectIntent = e.toEffectIntent && r.status = expectedStatus &&
    (r.version : ℤ) = expectedVersion

/-- `SET` of `_TRANSITION_EFFECT`. -/
def EffectRow.moved (r e : EffectRow) : EffectRow :=
  { r with
    status := e.status
    receiptId := e.receiptId
    receiptDigest := e.receiptDigest
    effectResultDigest := e.effectResultDigest
    errorCode := e.errorCode
    updatedAt := e.updatedAt
    version := e.version }

/-- `_TRANSITION_EFFECT`. -/
def transitionEffectSql (e : EffectRow) (expectedStatus : ProtectedEffectStatus)
    (expectedVersion : ℤ) : Work (Option EffectRow) := do
  let s ← Tx.get
  match s.effects.find? (·.atFence e expectedStatus expectedVersion) with
  | none => pure none
  | some r => do
    require (r.moved e).fits (.database "22003")
    require ((r.moved e).createdAt ≤ (r.moved e).updatedAt) (.database "23514")
    require (!s.effects.any fun other => other.operationId ≠ r.operationId &&
      e.receiptId.isSome && other.receiptId = e.receiptId) (.database "23505")
    Tx.set { s with
      effects := updateWhere (·.atFence e expectedStatus expectedVersion) (·.moved e) s.effects }
    pure (some (r.moved e))

/-! ## Statements on claims and watermarks -/

def ClaimRow.watermarkKey (c : ClaimRow) : WatermarkKey := (c.wardenId, c.leaseId, c.audience)

def ClaimRow.nonceKey (c : ClaimRow) : String × String × String × String :=
  (c.tenantId, c.envelopeId, c.audience, c.nonce)

/-- Some unique key of the table is the same. -/
def ClaimRow.conflicts (r c : ClaimRow) : Bool :=
  r.receiptId = c.receiptId || r.operationId = c.operationId ||
  r.canonicalDigest = c.canonicalDigest || r.nonceKey = c.nonceKey ||
  (r.watermarkKey = c.watermarkKey && r.resultingSequence = c.resultingSequence)

/-- `_INSERT_CLAIM`. -/
def insertClaimSql (c : ClaimRow) : Work (Option ClaimRow) := do
  let s ← Tx.get
  if s.claims.any (·.conflicts c) then pure none
  else do
    require (s.bindings.any fun b => b.ownerId = c.ownerId && b.bindingId = c.bindingId)
      (.database "23503")
    require (s.effects.any fun e => e.ownerId = c.ownerId && e.operationId = c.operationId)
      (.database "23503")
    Tx.set { s with claims := s.claims ++ [c] }
    pure (some c)

/-- `_READ_CLAIM_CONFLICT`. -/
def readClaimConflictSql (c : ClaimRow) : Work (Option ClaimRow) := do
  let s ← Tx.get
  pure (s.claims.find? fun r => r.ownerId = c.ownerId && r.conflicts c)

/-- `_ADVANCE_WATERMARK`, and the trigger that repeats its condition. -/
def advanceWatermarkSql (w : WatermarkRow) : Work (Option WatermarkRow) := do
  let s ← Tx.get
  match s.watermarks.find? fun r => r.key = w.key with
  | none => do
    Tx.set { s with watermarks := s.watermarks ++ [w] }
    pure (some w)
  | some r =>
    if r.lastSequence < w.lastSequence ∧ r.version + 1 = w.version ∧ r.updatedAt ≤ w.updatedAt then do
      Tx.set { s with watermarks := updateWhere (fun r => r.key = w.key) (fun _ => w) s.watermarks }
      pure (some w)
    else pure none

/-! ## Methods -/

def requireNextVersion (replacementVersion : ℕ) (expectedVersion : ℤ) : Except Error Unit :=
  ensure (0 ≤ expectedVersion ∧ (replacementVersion : ℤ) = expectedVersion + 1)
    (.validation "replacement version must advance the expected version exactly once")

def createBinding (binding : AgentAuthorityBinding sha256) :
    Work (AgentAuthorityBinding sha256) := do
  match ← insertBindingSql binding.toBindingRow with
  | some row => do
    let persisted ← ofExcept (bindingFromRow sha256 row)
    require (persisted = binding) (.data "binding insert returned different data")
    pure persisted
  | none => do
    let conflict := Error.idempotencyConflict "binding identity represents different work"
    match ← readBindingConflictSql binding.toBindingRow with
    | none => raise conflict
    | some row => do
      let existing ← ofExcept (bindingFromRow sha256 row)
      require (existing = binding) conflict
      pure binding

/-- What the transitions of a binding do with the row that their statement returns. -/
def returnedBinding (replacement : AgentAuthorityBinding sha256) (row : Option BindingRow)
    (stale different : String) : Work (AgentAuthorityBinding sha256) :=
  match row with
  | none => raise (.compareAndSetConflict stale)
  | some row => do
    let persisted ← ofExcept (bindingFromRow sha256 row)
    require (persisted = replacement) (.data different)
    pure persisted

def transitionBinding (replacement : AgentAuthorityBinding sha256)
    (expectedState : AuthorityBindingState) (expectedVersion : ℤ) :
    Work (AgentAuthorityBinding sha256) := do
  ofExcept (requireNextVersion replacement.version expectedVersion)
  require (!expectedState.terminal) (.compareAndSetConflict "terminal binding cannot reopen")
  let row ← transitionBindingSql replacement.toBindingRow expectedState expectedVersion
  returnedBinding sha256 replacement row "binding compare-and-set fence is stale"
    "binding transition returned different data"

def activateBinding (replacement : AgentAuthorityBinding sha256) (expectedVersion : ℤ) :
    Work (AgentAuthorityBinding sha256) := do
  ofExcept (requireNextVersion replacement.version expectedVersion)
  require (replacement.state = .active)
    (.validation "activated binding must enter the active state")
  let row ← activateBindingSql replacement.toBindingRow
    (pendingIdentities sha256 replacement.bindingId) expectedVersion
  returnedBinding sha256 replacement row "binding activation compare-and-set fence is stale"
    "binding activation returned different data"

def abandonProvisioningBinding (replacement : AgentAuthorityBinding sha256)
    (expectedVersion : ℤ) : Work (AgentAuthorityBinding sha256) := do
  require (replacement.state = .closed)
    (.validation "abandoned provisioning binding must enter the closed state")
  require (replacement.remoteIdentities = pendingIdentities sha256 replacement.bindingId ∧
      replacement.leaseSequence = 0 ∧ replacement.leaseExpiresAtNs = 0)
    (.validation "abandoned provisioning binding must retain its pending authority fence")
  transitionBinding sha256 replacement .provisioning expectedVersion

def createProtectedEffect (operation : ProtectedEffectOperation) :
    Work ProtectedEffectOperation := do
  match ← insertEffectSql operation.toEffectRow with
  | some row => do
    let persisted ← ofExcept (effectFromRow row)
    require (persisted = operation)
      (.data "protected effect insert returned different data")
    pure persisted
  | none => do
    let conflict := Error.idempotencyConflict "effect intent represents different work"
    match ← readEffectConflictSql operation.toEffectRow with
    | none => raise conflict
    | some row => do
      let persisted ← ofExcept (effectFromRow row)
      require (sameEffectIntent persisted.toEffectRow operation.toEffectRow) conflict
      pure persisted

def transitionProtectedEffect (replacement : ProtectedEffectOperation)
    (expectedStatus : ProtectedEffectStatus) (expectedVersion : ℤ) :
    Work ProtectedEffectOperation := do
  ofExcept (requireNextVersion replacement.version expectedVersion)
  require (replacement.status ∈ expectedStatus.transitions)
    (.compareAndSetConflict "protected effect transition is not allowed")
  match ← transitionEffectSql replacement.toEffectRow expectedStatus expectedVersion with
  | none => raise (.compareAndSetConflict "effect compare-and-set fence is stale")
  | some row => do
    let persisted ← ofExcept (effectFromRow row)
    require (persisted = replacement) (.data "effect transition returned different data")
    pure persisted

/-- `value.removeprefix("sha256:")`. -/
def withoutAlgorithm (digest : String) : String :=
  if digest.toList.take 7 == "sha256:".toList then String.ofList (digest.toList.drop 7) else digest

def validateClaimRelationships (claim : ReceiptClaimData) (binding : BindingRow)
    (effect : EffectRow) : Except Error Unit := do
  ensure (([binding.ownerId, binding.bindingId, binding.tenantId, binding.envelopeId,
      binding.wardenId, binding.leaseId, binding.subjectId, binding.lineageId,
      binding.policyDigest, binding.machineDigest], binding.configEpoch) =
    ([claim.ownerId, claim.bindingId, claim.tenantId, claim.envelopeId, claim.wardenId,
      claim.leaseId, claim.subjectId, claim.lineageId, claim.policyDigest, claim.machineDigest],
      claim.configEpoch)) (.receiptClaimConflict "receipt does not match the owner binding")
  ensure (binding.state = .active) (.receiptClaimConflict "receipt binding is not active")
  ensure (effect.agentId = binding.agentId)
    (.receiptClaimConflict "receipt effect agent does not match the binding")
  ensure (binding.capabilities.contains effect.letsCapability)
    (.receiptClaimConflict "receipt effect capability is not bound")
  ensure (effect.expectedSequence = binding.leaseSequence)
    (.receiptClaimConflict "receipt effect sequence is stale")
  ensure (claim.resultingSequence = effect.expectedSequence + 1)
    (.receiptClaimConflict "receipt sequence does not advance exactly once")
  ensure (claim.expiresAtNs ≤ binding.leaseExpiresAtNs)
    (.receiptClaimConflict "receipt expiry exceeds the bound lease")
  ensure ((effect.ownerId, effect.operationId, effect.bindingId, effect.executorAudience,
      effect.letsTransition, effect.nonce) =
    (claim.ownerId, claim.operationId, claim.bindingId, claim.audience, claim.transition,
      claim.nonce)) (.receiptClaimConflict "receipt does not match the protected effect")
  ensure (claim.evidenceDigest.all fun digest => withoutAlgorithm digest = effect.effectDigest)
    (.receiptClaimConflict "receipt evidence does not match the effect")

def validateNewClaimTransition (current replacement : EffectRow) (claim : ReceiptClaimData) :
    Except Error Unit := do
  ensure (sameEffectIntent current replacement)
    (.receiptClaimConflict "claimed effect changes immutable intent")
  ensure (current.status = .receiptReceived ∧ replacement.status = .receiptClaimed ∧
      replacement.version = current.version + 1 ∧ replacement.receiptId = some claim.receiptId ∧
      replacement.receiptDigest = some claim.canonicalDigest)
    (.receiptClaimConflict "claimed effect does not advance the receipt fence")

def requireExistingClaimEffect (effect : EffectRow) (claim : ReceiptClaimData) :
    Except Error Unit :=
  ensure (effect.status.claimed ∧ effect.receiptId = some claim.receiptId ∧
      effect.receiptDigest = some claim.canonicalDigest)
    (.receiptClaimConflict "existing claim lacks matching effect evidence")

def advanceWatermark (watermark : ReceiptSequenceWatermark) (claim : ReceiptClaimData) :
    Work Unit := do
  require (watermark.key = claim.sequenceWatermarkKey ∧
      watermark.lastSequence = claim.resultingSequence ∧
      watermark.expiresAtNs = claim.expiresAtNs)
    (.validation "watermark does not represent the receipt claim")
  match ← advanceWatermarkSql watermark.toWatermarkRow with
  | none => raise (.receiptWatermarkConflict "receipt sequence did not strictly advance")
  | some row => do
    let persisted ← ofExcept (watermarkFromRow row)
    require (persisted = watermark) (.data "watermark advancement returned different data")

/-- The outbox that the repository enqueues to. -/
def enqueue (entry : Outbox.OutboxEntry) : Work ℕ :=
  Tx.zoom Store.outbox (fun table s => { s with outbox := table }) Error.outbox
    (Outbox.enqueue sha256 entry)

/-- `claim_receipt` once the claim has been inserted. -/
def acceptClaim (claim : ReceiptClaim) (watermark : ReceiptSequenceWatermark)
    (claimedEffect current : ProtectedEffectOperation) (outboxEntry : Outbox.OutboxEntry)
    (row : ClaimRow) : Work ReceiptClaim := do
  let persisted ← ofExcept (claimFromRow row)
  require (persisted = claim) (.data "receipt insert returned different data")
  ofExcept (validateNewClaimTransition current.toEffectRow claimedEffect.toEffectRow
    claim.toReceiptClaimData)
  advanceWatermark watermark claim.toReceiptClaimData
  let _ ← transitionProtectedEffect claimedEffect current.status current.version
  let _ ← enqueue sha256 outboxEntry
  pure persisted

/-- `claim_receipt` where the claim meets another. -/
def existingClaim (claim : ReceiptClaim) (current : ProtectedEffectOperation) :
    Work ReceiptClaim := do
  let conflict := Error.receiptClaimConflict "receipt uniqueness fence rejected the claim"
  match ← readClaimConflictSql claim.row with
  | none => raise conflict
  | some row => do
    let existing ← ofExcept (claimFromRow row)
    require (existing = claim) conflict
    ofExcept (requireExistingClaimEffect current.toEffectRow claim.toReceiptClaimData)
    pure existing

def claimReceipt (claim : ReceiptClaim) (watermark : ReceiptSequenceWatermark)
    (claimedEffect : ProtectedEffectOperation) (outboxEntry : Outbox.OutboxEntry) :
    Work ReceiptClaim :=
  Tx.savepoint do
    let bindingRow ← lockBindingSql claim.ownerId claim.bindingId
    let effectRow ← lockEffectSql claim.ownerId claim.operationId
    match bindingRow, effectRow with
    | some bindingRow, some effectRow => do
      let binding ← ofExcept (bindingFromRow sha256 bindingRow)
      let current ← ofExcept (effectFromRow effectRow)
      ofExcept (validateClaimRelationships claim.toReceiptClaimData binding.toBindingRow
        current.toEffectRow)
      match ← insertClaimSql claim.row with
      | none => existingClaim claim current
      | some row => acceptClaim sha256 claim watermark claimedEffect current outboxEntry row
    | _, _ => raise (.receiptClaimConflict "receipt owner binding or effect is unavailable")

/-! ## Calls and runs -/

inductive Method
  | createBinding (binding : AgentAuthorityBinding sha256)
  | transitionBinding (replacement : AgentAuthorityBinding sha256)
      (expectedState : AuthorityBindingState) (expectedVersion : ℤ)
  | activateBinding (replacement : AgentAuthorityBinding sha256) (expectedVersion : ℤ)
  | abandonProvisioningBinding (replacement : AgentAuthorityBinding sha256) (expectedVersion : ℤ)
  | createProtectedEffect (operation : ProtectedEffectOperation)
  | transitionProtectedEffect (replacement : ProtectedEffectOperation)
      (expectedStatus : ProtectedEffectStatus) (expectedVersion : ℤ)
  | claimReceipt (claim : ReceiptClaim) (watermark : ReceiptSequenceWatermark)
      (claimedEffect : ProtectedEffectOperation) (outboxEntry : Outbox.OutboxEntry)

def exec : Method sha256 → Work Unit
  | .createBinding binding => do let _ ← createBinding sha256 binding
  | .transitionBinding replacement expectedState expectedVersion => do
    let _ ← transitionBinding sha256 replacement expectedState expectedVersion
  | .activateBinding replacement expectedVersion => do
    let _ ← activateBinding sha256 replacement expectedVersion
  | .abandonProvisioningBinding replacement expectedVersion => do
    let _ ← abandonProvisioningBinding sha256 replacement expectedVersion
  | .createProtectedEffect operation => do let _ ← createProtectedEffect operation
  | .transitionProtectedEffect replacement expectedStatus expectedVersion => do
    let _ ← transitionProtectedEffect replacement expectedStatus expectedVersion
  | .claimReceipt claim watermark claimedEffect outboxEntry => do
    let _ ← claimReceipt sha256 claim watermark claimedEffect outboxEntry

/-- A call, and whether its caller goes on after what the method raises. -/
structure Call where
  method : Method sha256
  kept : Bool

def Store.step (call : Call sha256) (s : Store) : Store :=
  if call.kept then (exec sha256 call.method s).2 else (exec sha256 call.method).commit s

def Store.run (calls : List (Call sha256)) (s : Store) : Store :=
  AstralPlane.run (Store.step sha256) calls s

theorem Store.run_nil (s : Store) : s.run sha256 [] = s := rfl

theorem Store.run_step {call : Call sha256} {calls : List (Call sha256)} {s s' : Store}
    (h : s.step sha256 call = s') : s.run sha256 (call :: calls) = s'.run sha256 calls := by
  rw [← h]
  rfl

theorem Store.run_append (calls later : List (Call sha256)) (s : Store) :
    s.run sha256 (calls ++ later) = (s.run sha256 calls).run sha256 later :=
  AstralPlane.run_append _ _ _ _

def Store.empty : Store := ⟨[], [], [], [], []⟩

end AstralPlane.Authority
