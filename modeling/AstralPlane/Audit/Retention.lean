/-
  Retention anchors and the pruning of chains (`audit_retention.py`).

  `prune_prefix` deletes the rows of a chain before a row that stays, and keeps
  the digest of the last deleted row in an authenticated anchor;
  `verify_retained_chain` verifies the rows that are left from the anchor on.
-/
import AstralPlane.Audit.Chain

namespace AstralPlane.Audit

open Python

/-! ## Anchors -/

structure AnchorFields where
  anchorId : Text
  chainId : Text
  firstRetainedSequence : ℤ
  previousEntryDigest : Digest
  retentionPolicyDigest : Digest
  createdAt : Datetime
  keyId : Text
  authentication : Bytes
deriving DecidableEq

def bounded (name : String) (value : Text) : Except Exc Unit :=
  ensure (!isBlank value && value.length ≤ 512)
    (.value (name ++ " must be a bounded non-empty string"))

def AnchorFields.postInit (f : AnchorFields) : Except Exc Unit := do
  bounded "anchor_id" f.anchorId
  bounded "chain_id" f.chainId
  bounded "key_id" f.keyId
  ensure (decide (1 < f.firstRetainedSequence)) (.value "retention anchors begin after genesis")
  ensure (!f.authentication.isEmpty) (.value "authentication must contain bytes")

/-- An anchor, which is also a row of `audit_retention_anchor`: the columns keep all of it. -/
structure AuditRetentionAnchor extends AnchorFields where
  accepted : toAnchorFields.postInit = .ok ()
deriving DecidableEq

/-- The constructor of `AuditRetentionAnchor`. -/
def AuditRetentionAnchor.make (f : AnchorFields) : Except Exc AuditRetentionAnchor :=
  match h : f.postInit with
  | .ok () => .ok ⟨f, h⟩
  | .error e => .error e

structure AnchorAuthenticator where
  sign : Text → Bytes → Except Exc Bytes
  verify : Text → Bytes → Bytes → Except Exc Bool

/-- `HMACAnchorAuthenticator`, for an `hmac` of a key and a payload. -/
def HMACAnchorAuthenticator (hmac : Bytes → Bytes → Bytes) (keyResolver : Text → Bytes) :
    AnchorAuthenticator :=
  let sign (keyId : Text) (payload : Bytes) : Except Exc Bytes := do
    let key := keyResolver keyId
    ensure (decide (32 ≤ key.length))
      (.value "audit anchor HMAC keys must contain at least 32 bytes")
    pure (hmac key payload)
  { sign := sign
    verify := fun keyId payload authentication => do
      let expected ← sign keyId payload
      pure (expected = authentication) }

/-- `bytes.hex`. -/
def hexText (b : Bytes) : Text :=
  ofChars (b.flatMap fun x => [hexDigit (x.toNat / 16), hexDigit x.toNat])

def canonicalAnchorBytes (a : AnchorFields) : Except Exc Bytes :=
  encodeUtf8 (dumps true (.obj [
    (ofString "type", .str (ofString "astral.audit-retention-anchor/v1")),
    (ofString "anchor_id", .str a.anchorId),
    (ofString "owner_or_chain", .str a.chainId),
    (ofString "first_retained_sequence", .int a.firstRetainedSequence),
    (ofString "previous_entry_digest", .str (hexText a.previousEntryDigest.val)),
    (ofString "retention_policy_digest", .str (hexText a.retentionPolicyDigest.val)),
    (ofString "created_at", .str (ofString (utcIso a.createdAt.val))),
    (ofString "key_id", .str a.keyId)]))

/-- `build_anchor`; `f.authentication` is not read. -/
def buildAnchor (f : AnchorFields) (authenticator : AnchorAuthenticator) :
    Except Exc AuditRetentionAnchor := do
  let unsigned ← AuditRetentionAnchor.make
    { f with authentication := "pending".toList.flatMap String.utf8EncodeChar }
  let bytes ← canonicalAnchorBytes unsigned.toAnchorFields
  let authentication ← authenticator.sign f.keyId bytes
  AuditRetentionAnchor.make { f with authentication := authentication }

/-- `verify_anchor`; whatever is raised counts as a failure. -/
def verifyAnchor (anchor : AnchorFields) (authenticator : AnchorAuthenticator) : Bool :=
  match canonicalAnchorBytes anchor with
  | .error _ => false
  | .ok bytes =>
    match authenticator.verify anchor.keyId bytes anchor.authentication with
    | .error _ => false
    | .ok valid => valid

/-! ## Statements -/

/-- The tables `audit_events` and `audit_retention_anchor`. -/
structure Store where
  events : Events
  anchors : List AuditRetentionAnchor

def Store.loadAnchor (s : Store) (chainId : Text) (firstRetainedSequence : ℤ) :
    Option AuditRetentionAnchor :=
  s.anchors.find? fun a => a.chainId = chainId ∧ a.firstRetainedSequence = firstRetainedSequence

/-- `SELECT … FROM audit_events WHERE actor_user_id = %s AND chain_sequence = %s`. -/
def Store.selectSequence (s : Store) (chainId : Text) (sequence : ℤ) : Option EventRow :=
  s.events.find? fun row => row.actorUserId = chainId ∧ (row.chainSequence : ℤ) = sequence

/-- `INSERT INTO audit_retention_anchor … ON CONFLICT DO NOTHING RETURNING *`. -/
def insertAnchor (a : AuditRetentionAnchor) : Tx Store Exc (Option AuditRetentionAnchor) := do
  Tx.require (storable a.anchorId && storable a.chainId && storable a.keyId &&
    a.firstRetainedSequence ≤ maxBigint) .database
  let s ← Tx.get
  match s.loadAnchor a.chainId a.firstRetainedSequence with
  | some _ => pure none
  | none => do
    -- `anchor_id` is unique
    Tx.require (s.anchors.all fun b => b.anchorId != a.anchorId) .database
    Tx.set { s with anchors := s.anchors ++ [a] }
    pure (some a)

/-- The rows that `DELETE FROM audit_events WHERE actor_user_id = %s AND chain_sequence < %s`
    deletes. -/
def isBefore (chainId : Text) (sequence : ℤ) (row : EventRow) : Bool :=
  row.actorUserId = chainId ∧ (row.chainSequence : ℤ) < sequence

def deleteBefore (chainId : Text) (sequence : ℤ) : Tx Store Exc ℕ := do
  let s ← Tx.get
  Tx.set { s with events := s.events.filter fun row => !isBefore chainId sequence row }
  pure (s.events.countP (isBefore chainId sequence))

/-! ## Methods -/

/-- The arguments of `prune_prefix`. -/
structure PruneRequest where
  chainId : Text
  firstRetainedSequence : ℤ
  anchorId : Text
  policyDigest : Bytes
  createdAt : Datetime
  keyId : Text

structure RetentionPruneResult where
  anchor : AuditRetentionAnchor
  deletedEvents : ℕ

/-- `AuditRetentionError`. -/
def retentionError (q : PruneRequest) (message code : String) : Exc :=
  .plane message ("audit_retention_" ++ code) q.chainId

/-- `prune_prefix` where the rows before the boundary are gone: the anchor must be there. -/
def confirmPruned (authenticator : AnchorAuthenticator) (q : PruneRequest) (policy : Digest)
    (boundary : EventRow) : Tx Store Exc RetentionPruneResult := do
  let s ← Tx.get
  match s.loadAnchor q.chainId q.firstRetainedSequence with
  | none => .raise (retentionError q "a pruned audit prefix has no valid matching anchor"
      "anchor_missing")
  | some existing => do
    Tx.require (existing.previousEntryDigest = boundary.prevHash &&
        existing.retentionPolicyDigest = policy &&
        verifyAnchor existing.toAnchorFields authenticator)
      (retentionError q "a pruned audit prefix has no valid matching anchor" "anchor_missing")
    pure ⟨existing, 0⟩

/-- The anchor that holds the digest of the row before the boundary. -/
def anchorFields (q : PruneRequest) (policy previousDigest : Digest) : AnchorFields where
  anchorId := q.anchorId
  chainId := q.chainId
  firstRetainedSequence := q.firstRetainedSequence
  previousEntryDigest := previousDigest
  retentionPolicyDigest := policy
  createdAt := q.createdAt
  keyId := q.keyId
  authentication := []

/-- `prune_prefix` where the row before the boundary is there. -/
def pruneRows (authenticator : AnchorAuthenticator) (q : PruneRequest) (policy : Digest)
    (boundary previous : EventRow) : Tx Store Exc RetentionPruneResult := do
  Tx.require (boundary.prevHash = previous.entryHash)
    (retentionError q "audit retention boundary does not join the preceding event"
      "boundary_tampered")
  let candidate ← .ofExcept (buildAnchor (anchorFields q policy previous.entryHash) authenticator)
  let inserted ← insertAnchor candidate
  let s ← Tx.get
  let durable := inserted.or (s.loadAnchor q.chainId q.firstRetainedSequence)
  Tx.require (durable = some candidate && verifyAnchor candidate.toAnchorFields authenticator)
    (retentionError q "audit retention anchor identity conflicts with durable state"
      "anchor_conflict")
  let deleted ← deleteBefore q.chainId q.firstRetainedSequence
  pure ⟨candidate, deleted⟩

def prunePrefix (authenticator : AnchorAuthenticator) (q : PruneRequest) :
    Tx Store Exc RetentionPruneResult := do
  Tx.require (decide (1 < q.firstRetainedSequence))
    (.value "first_retained_sequence must be greater than one")
  let policy ← .ofExcept (digestBytes "policy_digest" q.policyDigest)
  -- the lock is taken under the name of the chain
  Tx.require (storable q.chainId) .database
  let s ← Tx.get
  match s.selectSequence q.chainId q.firstRetainedSequence with
  | none => .raise (retentionError q "the requested first retained audit event does not exist"
      "boundary_missing")
  | some boundary =>
    match s.selectSequence q.chainId (q.firstRetainedSequence - 1) with
    | none => confirmPruned authenticator q policy boundary
    | some previous => pruneRows authenticator q policy boundary previous

/-- `_invalid`. -/
def retentionFailure (first : AuditRecord) (reason : Reason) : ChainVerification :=
  .failed first.event.eventId reason (first.sequence - 1) genesisDigest

/-- `verify_retained_chain` from the records that `load_chain` gives. -/
def verifyRetained (auth : Authenticator) (authenticator : AnchorAuthenticator) (chainId : Text)
    (s : Store) : List AuditRecord → Except Exc ChainVerification
  | [] => .ok (.passed 0 genesisDigest)
  | first :: records =>
    if first.sequence = 1 then verifyRecords auth chainId 1 genesisDigest (first :: records)
    else
      match s.loadAnchor chainId first.sequence with
      | none => .ok (retentionFailure first .missingRetentionAnchor)
      | some anchor =>
        if !verifyAnchor anchor.toAnchorFields authenticator then
          .ok (retentionFailure first .invalidRetentionAnchor)
        else if anchor.chainId ≠ chainId ∨ anchor.previousEntryDigest ≠ first.previousDigest ∨
            anchor.firstRetainedSequence ≠ first.sequence then
          .ok (retentionFailure first .retentionAnchorMismatch)
        else verifyRecords auth chainId first.sequence anchor.previousEntryDigest (first :: records)

def verifyRetainedChain (auth : Authenticator) (authenticator : AnchorAuthenticator)
    (chainId : Text) : Tx Store Exc ChainVerification := do
  let s ← Tx.get
  let records ← .ofExcept ((loadChain chainId 1).reply s.events)
  .ofExcept (verifyRetained auth authenticator chainId s records)

end AstralPlane.Audit
