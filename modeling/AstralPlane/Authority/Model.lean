/-
  Durable values of external authority (`authority/models.py`, `effects.py`,
  `claims.py`).

  A *binding* ties an agent runtime to a remote lease, a *protected effect* is
  one intended effect under a binding, and a *receipt claim* is the evidence
  under which the effect may be executed.  Claims are fenced by a *watermark*
  for each warden, lease and audience.

  Each value is a record of columns with the predicate that `__post_init__`
  checks; the validated value carries the proof.  Reading a row back checks
  the predicate again.  SHA-256 is a parameter.
-/
import Mathlib.Data.List.Sort
import AstralPlane.Base

namespace AstralPlane.Authority

/-! ## Texts -/

/-- `require_identifier`: `^[A-Za-z0-9](?:[-A-Za-z0-9._:@/]{0,126}[A-Za-z0-9])?$`. -/
def isBoundedIdentifier (s : String) : Bool :=
  let inner := fun c : Char => c.isAlphanum || "._:@/-".toList.contains c
  match s.toList with
  | [] => false
  | c :: cs => c.isAlphanum && cs.length ≤ 127 && cs.all inner && (cs.getLastD c).isAlphanum

/-- `^sha256:[0-9a-f]{64}$`. -/
def isLetsDigest (s : String) : Bool :=
  s.toList.take 7 == "sha256:".toList && isSha256 (String.ofList (s.toList.drop 7))

/-- `_effect_nonce`. -/
def isEffectNonce (s : String) : Bool :=
  let l := s.toList
  16 ≤ l.length && l.length ≤ 256 && !(l.headD ' ' |> isSpace) && !(l.getLastD ' ' |> isSpace) &&
    l.all fun c => 0x20 ≤ c.toNat && c.toNat ≠ 0x7f

/-- `_integer`: a number from `minimum` through the signed 64-bit maximum. -/
def isInteger (minimum value : ℕ) : Bool := minimum ≤ value && value ≤ maxBigint

/-! ## Bindings -/

inductive AuthorityPopulation
  | serverDynamic
  | byoUser
  deriving DecidableEq

inductive AuthorityBindingState
  | provisioning
  | active
  | quiescent
  | closing
  | closed
  | revoking
  | revoked
  | reconciling
  | expired
  deriving DecidableEq

def AuthorityBindingState.terminal : AuthorityBindingState → Bool
  | .closed | .revoked | .expired => true
  | .provisioning | .active | .quiescent | .closing | .revoking | .reconciling => false

inductive PendingAuthorityField
  | warden
  | lease
  | lineage
  | subject
  deriving DecidableEq

def PendingAuthorityField.text : PendingAuthorityField → String
  | .warden => "warden"
  | .lease => "lease"
  | .lineage => "lineage"
  | .subject => "subject"

def pendingAuthorityIdentity (sha256 : List UInt8 → String) (bindingId : String)
    (field : PendingAuthorityField) : String :=
  let digest := sha256 ("astralplane.authority.pending/v1\x00".toUTF8.toList ++
    bindingId.toUTF8.toList)
  "pending:" ++ field.text ++ ":" ++ String.ofList (digest.toList.take 32)

/-- A row of `astralplane_authority_binding`. -/
structure BindingRow where
  bindingId : String
  ownerId : String
  agentId : String
  runtimeId : String
  runtimeGeneration : ℕ
  population : AuthorityPopulation
  tenantId : String
  envelopeId : String
  wardenId : String
  leaseId : String
  lineageId : String
  subjectId : String
  policyDigest : String
  machineDigest : String
  configEpoch : ℕ
  capabilities : List String
  leaseSequence : ℕ
  leaseExpiresAtNs : ℕ
  state : AuthorityBindingState
  createdAt : Time
  updatedAt : Time
  version : ℕ
  deriving DecidableEq

/-- The remote identities, in the order warden, lease, lineage, subject. -/
def BindingRow.remoteIdentities (b : BindingRow) : List String :=
  [b.wardenId, b.leaseId, b.lineageId, b.subjectId]

/-- The remote identities that a binding has before it is activated. -/
def pendingIdentities (sha256 : List UInt8 → String) (bindingId : String) : List String :=
  [.warden, .lease, .lineage, .subject].map (pendingAuthorityIdentity sha256 bindingId)

def isPendingIdentity (s : String) : Bool := s.toList.take 8 == "pending:".toList

def canonicalCapabilities (capabilities : List String) : Bool :=
  capabilities ≠ [] && capabilities.all isBoundedIdentifier &&
    capabilities.insertionSort (· ≤ ·) = capabilities && capabilities.Nodup

/-- The lease fields that `AgentAuthorityBinding` accepts for the state. -/
def BindingRow.leaseValid (sha256 : List UInt8 → String) (b : BindingRow) : Bool :=
  let hasPending := b.remoteIdentities.any isPendingIdentity
  if (b.state = .provisioning ∨ b.state = .closed) ∧ hasPending then
    b.remoteIdentities = pendingIdentities sha256 b.bindingId && b.leaseSequence = 0 &&
      b.leaseExpiresAtNs = 0
  else if b.state = .provisioning then false
  else !hasPending && b.leaseExpiresAtNs ≠ 0

/-- What `AgentAuthorityBinding.__post_init__` accepts. -/
def BindingRow.valid (sha256 : List UInt8 → String) (b : BindingRow) : Bool :=
  ([b.bindingId, b.ownerId, b.agentId, b.runtimeId, b.tenantId, b.envelopeId] ++
    b.remoteIdentities).all isBoundedIdentifier &&
  0 < b.runtimeGeneration && isLetsDigest b.policyDigest && isLetsDigest b.machineDigest &&
  0 < b.configEpoch && canonicalCapabilities b.capabilities && b.leaseValid sha256 &&
  b.createdAt ≤ b.updatedAt

structure AgentAuthorityBinding (sha256 : List UInt8 → String) extends BindingRow where
  isValid : toBindingRow.valid sha256
  deriving DecidableEq

/-- The numbers that a row of the table can hold. -/
def BindingRow.fits (b : BindingRow) : Bool :=
  [b.runtimeGeneration, b.configEpoch, b.leaseSequence, b.leaseExpiresAtNs, b.version].all
    (· ≤ maxBigint)

/-! ## Protected effects -/

inductive AstralToolScope
  | read
  | write
  | search
  | system
  | files
  | execute
  deriving DecidableEq

inductive ProtectedEffectStatus
  | created
  | astralAuthorized
  | letsPending
  | receiptReceived
  | receiptClaimed
  | executing
  | succeeded
  | denied
  | failedClosed
  | effectFailed
  | outcomeUncertain
  deriving DecidableEq

namespace ProtectedEffectStatus

def receiptRequired (s : ProtectedEffectStatus) : Bool :=
  s ∈ [receiptReceived, receiptClaimed, executing, succeeded, effectFailed, outcomeUncertain]

def receiptForbidden (s : ProtectedEffectStatus) : Bool := s ∈ [created, astralAuthorized, letsPending]

def errorRequired (s : ProtectedEffectStatus) : Bool :=
  s ∈ [denied, failedClosed, effectFailed, outcomeUncertain]

def outcomeRequired (s : ProtectedEffectStatus) : Bool := s ∈ [succeeded, effectFailed]

/-- `_EFFECT_TRANSITIONS`. -/
def transitions : ProtectedEffectStatus → List ProtectedEffectStatus
  | created => [astralAuthorized, denied, failedClosed]
  | astralAuthorized => [letsPending, denied, failedClosed]
  | letsPending => [receiptReceived, denied, failedClosed]
  | receiptReceived => [receiptClaimed, denied, failedClosed]
  | receiptClaimed => [executing, denied, failedClosed]
  | executing => [succeeded, effectFailed, outcomeUncertain]
  | outcomeUncertain => [succeeded, effectFailed]
  | succeeded | denied | failedClosed | effectFailed => []

/-- The statuses that `_require_existing_claim_effect` accepts: the receipt has been claimed. -/
def claimed (s : ProtectedEffectStatus) : Bool :=
  s ∈ [receiptClaimed, executing, succeeded, effectFailed, outcomeUncertain]

end ProtectedEffectStatus

/-- The first thirteen columns of an effect, which never change. -/
structure EffectIntent where
  operationId : String
  ownerId : String
  agentId : String
  bindingId : String
  toolId : String
  astralScope : AstralToolScope
  letsCapability : String
  letsTransition : String
  executorAudience : String
  nonce : String
  effectDigest : String
  expectedSequence : ℕ
  auditCorrelationId : String
  deriving DecidableEq

/-- A row of `astralplane_protected_effect_operation`. -/
structure EffectRow extends EffectIntent where
  status : ProtectedEffectStatus
  receiptId : Option String
  receiptDigest : Option String
  effectResultDigest : Option String
  errorCode : Option String
  createdAt : Time
  updatedAt : Time
  version : ℕ
  deriving DecidableEq

/-- What `ProtectedEffectOperation.__post_init__` accepts. -/
def EffectRow.valid (e : EffectRow) : Bool :=
  [e.operationId, e.ownerId, e.agentId, e.bindingId, e.toolId, e.letsCapability, e.letsTransition,
    e.executorAudience, e.auditCorrelationId].all isBoundedIdentifier &&
  isEffectNonce e.nonce && isSha256 e.effectDigest &&
  e.receiptId.all isBoundedIdentifier && e.receiptDigest.all isSha256 &&
  e.effectResultDigest.all isSha256 && e.errorCode.all isBoundedIdentifier &&
  e.receiptId.isSome = e.receiptDigest.isSome &&
  (!e.status.receiptRequired || e.receiptId.isSome) &&
  (!e.status.receiptForbidden || e.receiptId.isNone) &&
  e.status.errorRequired = e.errorCode.isSome &&
  e.status.outcomeRequired = e.effectResultDigest.isSome &&
  e.createdAt ≤ e.updatedAt

structure ProtectedEffectOperation extends EffectRow where
  isValid : toEffectRow.valid
  deriving DecidableEq

/-- The numbers that a row of the table can hold. -/
def EffectRow.fits (e : EffectRow) : Bool := [e.expectedSequence, e.version].all (· ≤ maxBigint)

def sameEffectIntent (left right : EffectRow) : Bool :=
  left.toEffectIntent = right.toEffectIntent && left.createdAt = right.createdAt

/-! ## Receipt claims -/

def executorAnchorFormat : String := "LETS-EXECUTOR-AUTHORITY-ANCHOR/1"

def zeroSha256 : String := String.ofList (List.replicate 64 '0')

structure AnchorMetadata where
  anchorFormat : String
  audience : String
  tenantId : String
  envelopeId : String
  configEpoch : ℕ
  executorPolicySha256 : String
  trustRegistrySha256 : String
  schemaVersion : ℕ
  databaseInstanceId : String
  claimSequence : ℕ
  claimDigest : String
  clockFloorNs : Option ℕ
  confirmedAt : Time
  deriving DecidableEq

/-- What `ExternalAuthorityAnchorMetadata.__post_init__` accepts. -/
def AnchorMetadata.valid (a : AnchorMetadata) : Bool :=
  a.anchorFormat = executorAnchorFormat &&
  [a.audience, a.tenantId, a.envelopeId].all isBoundedIdentifier && isInteger 1 a.configEpoch &&
  isSha256 a.executorPolicySha256 && isSha256 a.trustRegistrySha256 &&
  isInteger 1 a.schemaVersion && isSha256 a.databaseInstanceId && isInteger 0 a.claimSequence &&
  isSha256 a.claimDigest && (a.claimSequence ≠ 0 || a.claimDigest = zeroSha256) &&
  a.clockFloorNs.all (isInteger 0)

/-- The warden, lease and audience that a sequence of receipts belongs to. -/
abbrev WatermarkKey := String × String × String

/-- The fields of a claim that have a column each. -/
structure ClaimFields where
  receiptId : String
  operationId : String
  ownerId : String
  bindingId : String
  tenantId : String
  envelopeId : String
  wardenId : String
  leaseId : String
  subjectId : String
  lineageId : String
  policyDigest : String
  machineDigest : String
  configEpoch : ℕ
  audience : String
  transition : String
  nonce : String
  resultingSequence : ℕ
  evidenceDigest : Option String
  issuedAtNs : ℕ
  expiresAtNs : ℕ
  claimedAt : Time
  canonicalDigest : String
  deriving DecidableEq

structure ReceiptClaimData extends ClaimFields where
  authorityAnchor : AnchorMetadata
  deriving DecidableEq

namespace ReceiptClaimData

/-- What `ReceiptClaim.__post_init__` accepts. -/
def valid (c : ReceiptClaimData) : Bool :=
  [c.receiptId, c.operationId, c.ownerId, c.bindingId, c.tenantId, c.envelopeId, c.wardenId,
    c.leaseId, c.subjectId, c.lineageId, c.audience, c.transition, c.nonce].all
    isBoundedIdentifier &&
  isLetsDigest c.policyDigest && isLetsDigest c.machineDigest &&
  c.evidenceDigest.all isLetsDigest && isInteger 1 c.configEpoch &&
  isInteger 1 c.resultingSequence && isInteger 0 c.issuedAtNs && isInteger 1 c.expiresAtNs &&
  c.issuedAtNs < c.expiresAtNs && isSha256 c.canonicalDigest && c.authorityAnchor.valid &&
  (c.authorityAnchor.audience, c.authorityAnchor.tenantId, c.authorityAnchor.envelopeId,
    c.authorityAnchor.configEpoch) = (c.audience, c.tenantId, c.envelopeId, c.configEpoch) &&
  1 ≤ c.authorityAnchor.claimSequence && c.authorityAnchor.clockFloorNs.isSome &&
  c.claimedAt ≤ c.authorityAnchor.confirmedAt

def sequenceWatermarkKey (c : ReceiptClaimData) : WatermarkKey := (c.wardenId, c.leaseId, c.audience)

end ReceiptClaimData

structure ReceiptClaim extends ReceiptClaimData where
  isValid : toReceiptClaimData.valid
  deriving DecidableEq

/-- A row of `astralplane_receipt_claim`. The audience, tenant, envelope and epoch of the anchor
    have no columns of their own. -/
structure ClaimRow extends ClaimFields where
  anchorFormat : String
  anchorExecutorPolicySha256 : String
  anchorTrustRegistrySha256 : String
  anchorSchemaVersion : ℕ
  anchorDatabaseInstanceId : String
  anchorClaimSequence : ℕ
  anchorClaimDigest : String
  anchorClockFloorNs : Option ℕ
  anchorConfirmedAt : Time
  deriving DecidableEq

/-- `_claim_values`. -/
def ReceiptClaimData.row (c : ReceiptClaimData) : ClaimRow where
  toClaimFields := c.toClaimFields
  anchorFormat := c.authorityAnchor.anchorFormat
  anchorExecutorPolicySha256 := c.authorityAnchor.executorPolicySha256
  anchorTrustRegistrySha256 := c.authorityAnchor.trustRegistrySha256
  anchorSchemaVersion := c.authorityAnchor.schemaVersion
  anchorDatabaseInstanceId := c.authorityAnchor.databaseInstanceId
  anchorClaimSequence := c.authorityAnchor.claimSequence
  anchorClaimDigest := c.authorityAnchor.claimDigest
  anchorClockFloorNs := c.authorityAnchor.clockFloorNs
  anchorConfirmedAt := c.authorityAnchor.confirmedAt

/-- The anchor that `_claim_from_row` reads. -/
def ClaimRow.anchor (r : ClaimRow) : AnchorMetadata where
  anchorFormat := r.anchorFormat
  audience := r.audience
  tenantId := r.tenantId
  envelopeId := r.envelopeId
  configEpoch := r.configEpoch
  executorPolicySha256 := r.anchorExecutorPolicySha256
  trustRegistrySha256 := r.anchorTrustRegistrySha256
  schemaVersion := r.anchorSchemaVersion
  databaseInstanceId := r.anchorDatabaseInstanceId
  claimSequence := r.anchorClaimSequence
  claimDigest := r.anchorClaimDigest
  clockFloorNs := r.anchorClockFloorNs
  confirmedAt := r.anchorConfirmedAt

/-- The claim that `_claim_from_row` reads, before it is validated. -/
def ClaimRow.data (r : ClaimRow) : ReceiptClaimData where
  toClaimFields := r.toClaimFields
  authorityAnchor := r.anchor

/-! ## Watermarks -/

/-- A row of `astralplane_receipt_sequence_watermark`. -/
structure WatermarkRow where
  wardenId : String
  leaseId : String
  audience : String
  lastSequence : ℕ
  updatedAt : Time
  expiresAtNs : ℕ
  version : ℕ
  deriving DecidableEq

def WatermarkRow.key (w : WatermarkRow) : WatermarkKey := (w.wardenId, w.leaseId, w.audience)

/-- What `ReceiptSequenceWatermark.__post_init__` accepts. -/
def WatermarkRow.valid (w : WatermarkRow) : Bool :=
  [w.wardenId, w.leaseId, w.audience].all isBoundedIdentifier && isInteger 1 w.lastSequence &&
    isInteger 1 w.expiresAtNs && isInteger 0 w.version

structure ReceiptSequenceWatermark extends WatermarkRow where
  isValid : toWatermarkRow.valid
  deriving DecidableEq

end AstralPlane.Authority
