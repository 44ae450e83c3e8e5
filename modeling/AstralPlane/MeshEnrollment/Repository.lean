/-
  The methods of `MeshEnrollmentRepository` that write, and `assert_current_member`.

  * a write that misses its row reads again to say why;
  * `bootstrapMesh`, `activateMember`, `revokeMember` and `confirmInvitation` are
    several statements each, under a savepoint, and take the row of the mesh
    first;
  * `Store.step` is a call of one method.

  Every statement locks the rows that it writes until the caller ends its
  transaction, so calls that write one row follow one another.  `kept` says of a
  call that raised that its caller went on and committed.
-/
import AstralPlane.MeshEnrollment.Model

namespace AstralPlane.MeshEnrollment

open Tx
open Repositories

/-- `INSERT … SELECT … WHERE`. -/
def selectWhere {α : Type} (condition : Bool) (x : Work (Option α)) : Work (Option α) :=
  if condition then x else pure none

/-! ## Meshes -/

def getMesh (owner mesh : String) : Work MeshRecord := do
  let s ← Tx.get
  match s.mesh owner mesh with
  | none => raise (.notFound "mesh not found for this owner")
  | some record => pure record

def meshWriteMiss {α : Type} (owner mesh : String) : Work α := do
  let s ← Tx.get
  if (s.mesh owner mesh).isNone then raise (.notFound "mesh not found for this owner")
  else raise (.conflict "mesh record version fence rejected the write")

def lockMesh (owner mesh : String) (version : ℕ) : Work MeshRecord := do
  let s ← Tx.get
  match (s.mesh owner mesh).filter (·.recordVersion = version) with
  | none => meshWriteMiss owner mesh
  | some record => pure record

/-- A bootstrap of a mesh that is there already. -/
def replayBootstrap (mesh owner name member : String) (kind : MeshMemberKind)
    (label : Option String) : Work (MeshRecord × MeshMemberRecord) := do
  let s ← Tx.get
  match s.mesh owner mesh with
  | none => raise (.conflict "mesh identity is unavailable for this owner")
  | some existing =>
    require (existing.displayName = name) (.conflict "mesh replay changed immutable semantics")
    match (s.member owner mesh member).filter fun m =>
        m.membershipEpoch = 1 && m.memberKind = kind && m.displayLabel = label with
    | none => raise (.conflict "bootstrap member replay changed semantics")
    | some existingMember => pure (existing, existingMember)

/-- The first member of a mesh that has just been inserted. -/
def insertBootstrapMember (mesh owner member : String) (kind : MeshMemberKind)
    (label : Option String) : Work (Option MemberColumns) := do
  let s ← Tx.get
  selectWhere ((s.mesh owner mesh).any (·.recordVersion = 1))
    (onMembers (Sql.insertReturning (mesh, member)
      { ownerId := owner, memberKind := kind, displayLabel := label, membershipEpoch := 1 }
      fun _ => false))

/-- What `bootstrap_mesh` does under its savepoint. -/
def bootstrap (mesh owner name member : String) (kind : MeshMemberKind) (label : Option String) :
    Work (MeshRecord × MeshMemberRecord) := do
  match ← onMeshes (Sql.insertReturning mesh
      { ownerId := owner, displayName := name, membershipEpoch := 1 } fun _ => false) with
  | none => replayBootstrap mesh owner name member kind label
  | some row => do
    match ← insertBootstrapMember mesh owner member kind label with
    | none => raise (.conflict "bootstrap member identity is unavailable")
    | some memberRow => pure (⟨row, mesh⟩, ⟨memberRow, mesh, member⟩)

def bootstrapMesh (meshId ownerId displayName bootstrapMemberId bootstrapMemberKind : String)
    (bootstrapLabel : Option String) : Work (MeshRecord × MeshMemberRecord) := do
  let mesh ← checked (identified meshId "mesh_id")
  let owner ← checked (owned ownerId)
  let name ← checked (boundedText displayName "display_name" 256)
  let member ← checked (identified bootstrapMemberId "bootstrap_member_id")
  let kind ← checked (kind bootstrapMemberKind "bootstrap_member_kind")
  let label ← checked (optionalText bootstrapLabel "bootstrap_label" 256)
  Tx.savepoint (bootstrap mesh owner name member kind label)

def renameMesh (ownerId meshId displayName : String) (expectedRecordVersion : ℤ) :
    Work MeshRecord := do
  let owner ← checked (owned ownerId)
  let mesh ← checked (identified meshId "mesh_id")
  let name ← checked (boundedText displayName "display_name" 256)
  let version ← checked (version expectedRecordVersion "expected_record_version")
  match ← onMeshes (Sql.updateReturning mesh
      (fun m => m.ownerId = owner && m.recordVersion = version)
      fun m => { m with displayName := name, recordVersion := m.recordVersion + 1 }) with
  | none => meshWriteMiss owner mesh
  | some row => pure ⟨row, mesh⟩

/-! ## Members -/

/-- A member that is not there has version 0. -/
def memberFence (existing : Option MeshMemberRecord) (version : ℕ) : Bool :=
  match existing with
  | none => version = 0
  | some record => record.recordVersion = version

/-- The member is inserted, at the new epoch of its mesh. -/
def insertMember (owner mesh member : String) (kind : MeshMemberKind) (label : Option String)
    (meshVersion memberVersion epoch : ℕ) : Work (Option MemberColumns) := do
  let s ← Tx.get
  selectWhere (memberVersion = 0 && (s.mesh owner mesh).any (·.recordVersion = meshVersion + 1))
    (onMembers (Sql.insertReturning (mesh, member)
      { ownerId := owner, memberKind := kind, displayLabel := label, membershipEpoch := epoch }
      fun _ => false))

/-- The member is active again, at the new epoch of its mesh. -/
def reactivateMember (owner mesh member : String) (kind : MeshMemberKind) (label : Option String)
    (memberVersion epoch : ℕ) : Work (Option MemberColumns) :=
  onMembers (Sql.updateReturning (mesh, member)
    (fun m => m.ownerId = owner && m.recordVersion = memberVersion)
    fun m => { m with
      memberKind := kind
      displayLabel := label
      membershipEpoch := epoch
      memberStatus := .active
      recordVersion := m.recordVersion + 1 })

/-- The row of the member, which may be there already. -/
def writeMember (existing : Option MeshMemberRecord) (owner mesh member : String)
    (kind : MeshMemberKind) (label : Option String) (meshVersion memberVersion epoch : ℕ) :
    Work (Option MemberColumns) :=
  match existing with
  | none => insertMember owner mesh member kind label meshVersion memberVersion epoch
  | some _ => reactivateMember owner mesh member kind label memberVersion epoch

/-- What `activate_member` does under its savepoint. -/
def activate (owner mesh member : String) (kind : MeshMemberKind) (label : Option String)
    (meshVersion memberVersion : ℕ) : Work MeshMemberRecord := do
  let _ ← lockMesh owner mesh meshVersion
  let s ← Tx.get
  let existing := s.member owner mesh member
  require (memberFence existing memberVersion)
    (.conflict "member record version fence rejected activation")
  match ← onMeshes (Sql.updateReturning mesh
      (fun m => m.ownerId = owner && m.recordVersion = meshVersion)
      fun m => { m with
        membershipEpoch := m.membershipEpoch + 1
        recordVersion := m.recordVersion + 1 }) with
  | none => raise (.conflict "mesh record version fence rejected activation")
  | some row => do
    match ← writeMember existing owner mesh member kind label meshVersion memberVersion
        row.membershipEpoch with
    | none => raise (.conflict "member record version fence rejected activation")
    | some memberRow => pure ⟨memberRow, mesh, member⟩

def activateMember (ownerId meshId memberId memberKind : String)
    (expectedMeshVersion expectedMemberVersion : ℤ) (displayLabel : Option String) :
    Work MeshMemberRecord := do
  let owner ← checked (owned ownerId)
  let mesh ← checked (identified meshId "mesh_id")
  let member ← checked (identified memberId "member_id")
  let kind ← checked (kind memberKind "member_kind")
  let label ← checked (optionalText displayLabel "display_label" 256)
  let meshVersion ← checked (version expectedMeshVersion "expected_mesh_version")
  let memberVersion ← checked (nonNegativeInt expectedMemberVersion "expected_member_version")
  Tx.savepoint (activate owner mesh member kind label meshVersion memberVersion)

/-- A fence of `assert_current_member`. -/
def isFence (value : Option ℤ) : Bool := value.all fun v : ℤ => 0 ≤ v && v ≤ maxBigint

def assertCurrentMember (ownerId meshId memberId : String)
    (expectedMembershipEpoch expectedRevocationEpoch expectedMemberVersion : Option ℤ) :
    Work (MeshRecord × MeshMemberRecord) := do
  let owner ← checked (owned ownerId)
  let mesh ← checked (identified meshId "mesh_id")
  let member ← checked (identified memberId "member_id")
  require (isFence expectedMembershipEpoch && isFence expectedRevocationEpoch &&
      isFence expectedMemberVersion)
    (.validation ⟨"current member fences must be bounded integers", []⟩)
  let s ← Tx.get
  match s.mesh owner mesh with
  | none => raise (.notFound "mesh not found for this owner")
  | some meshRow =>
    match s.member owner mesh member with
    | none => raise (.notFound "member not found for this owner")
    | some memberRow =>
      require (memberRow.memberStatus = .active) (.conflict "member is not active")
      require (expectedMembershipEpoch.all fun v : ℤ => meshRow.membershipEpoch = v)
        (.conflict "mesh membership epoch changed" "mesh_membership_epoch_conflict")
      require (expectedRevocationEpoch.all fun v : ℤ => meshRow.revocationEpoch = v)
        (.conflict "mesh revocation epoch changed" "mesh_revocation_epoch_conflict")
      require (expectedMemberVersion.all fun v : ℤ => memberRow.recordVersion = v)
        (.conflict "member record version changed")
      pure (meshRow, memberRow)

def memberWriteMiss {α : Type} (owner mesh member : String) : Work α := do
  let s ← Tx.get
  match s.member owner mesh member with
  | none => raise (.notFound "member not found for this owner")
  | some row =>
    if row.memberStatus = .retired then raise (.conflict "member is already retired")
    else raise (.conflict "member record version fence rejected the write")

def retireMember (ownerId meshId memberId : String) (expectedRecordVersion : ℤ) :
    Work MeshMemberRecord := do
  let owner ← checked (owned ownerId)
  let mesh ← checked (identified meshId "mesh_id")
  let member ← checked (identified memberId "member_id")
  let version ← checked (version expectedRecordVersion "expected_record_version")
  match ← onMembers (Sql.updateReturning (mesh, member)
      (fun m => m.ownerId = owner && m.recordVersion = version && m.memberStatus ≠ .retired)
      fun m => { m with memberStatus := .retired, recordVersion := m.recordVersion + 1 }) with
  | none => memberWriteMiss owner mesh member
  | some row => pure ⟨row, mesh, member⟩

/-- The revocation is recorded, of a member that has just been revoked. -/
def insertRevocation (owner mesh member revocation : String) (epoch : ℕ) (reason : Option String)
    (memberVersion : ℕ) : Work (Option RevocationColumns) := do
  let s ← Tx.get
  selectWhere ((s.member owner mesh member).any fun m =>
      m.recordVersion = memberVersion + 1 && m.memberStatus = .revoked)
    (onRevocations (Sql.insertReturning revocation
      { meshId := mesh, ownerId := owner, memberId := member, revocationEpoch := epoch,
        reason := reason }
      fun r => r.meshId = mesh && r.revocationEpoch = epoch))

/-- What `revoke_member` does under its savepoint. -/
def revoke (owner mesh member revocation : String) (reason : Option String)
    (meshVersion memberVersion : ℕ) : Work (MeshMemberRecord × MeshMemberRevocationRecord) := do
  let _ ← lockMesh owner mesh meshVersion
  let s ← Tx.get
  match s.member owner mesh member with
  | none => raise (.notFound "member not found for this owner")
  | some locked => do
    require (locked.memberStatus ≠ .revoked && locked.recordVersion = memberVersion)
      (.conflict "member state or version fence rejected revocation")
    match ← onMeshes (Sql.updateReturning mesh
        (fun m => m.ownerId = owner && m.recordVersion = meshVersion)
        fun m => { m with
          revocationEpoch := m.revocationEpoch + 1
          recordVersion := m.recordVersion + 1 }) with
    | none => raise (.conflict "mesh record version fence rejected revocation")
    | some row => do
      match ← onMembers (Sql.updateReturning (mesh, member)
          (fun m => m.ownerId = owner && m.recordVersion = memberVersion && m.memberStatus ≠ .revoked)
          fun m => { m with memberStatus := .revoked, recordVersion := m.recordVersion + 1 }) with
      | none => raise (.conflict "member state or version fence rejected revocation")
      | some memberRow => do
        match ← insertRevocation owner mesh member revocation row.revocationEpoch reason
            memberVersion with
        | none => raise (.conflict "revocation identity is unavailable")
        | some revocationRow => pure (⟨memberRow, mesh, member⟩, ⟨revocationRow, revocation⟩)

def revokeMember (ownerId meshId memberId revocationId : String)
    (expectedMeshVersion expectedMemberVersion : ℤ) (reason : Option String) :
    Work (MeshMemberRecord × MeshMemberRevocationRecord) := do
  let owner ← checked (owned ownerId)
  let mesh ← checked (identified meshId "mesh_id")
  let member ← checked (identified memberId "member_id")
  let revocation ← checked (identified revocationId "revocation_id")
  let reason ← checked (optionalText reason "reason" 512)
  let meshVersion ← checked (version expectedMeshVersion "expected_mesh_version")
  let memberVersion ← checked (version expectedMemberVersion "expected_member_version")
  Tx.savepoint (revoke owner mesh member revocation reason meshVersion memberVersion)

/-! ## Public identities -/

/-- An identity that is bound already. -/
def replayIdentity (owner identity : String) (columns : IdentityColumns) :
    Work MeshPublicIdentityRecord := do
  let s ← Tx.get
  match s.identity owner identity with
  | none => raise (.conflict "identity is bound to another owner")
  | some existing =>
    require (existing.meshId = columns.meshId && existing.memberId = columns.memberId &&
        existing.algorithm = columns.algorithm && existing.publicKey = columns.publicKey &&
        existing.keyFingerprint = columns.keyFingerprint &&
        existing.activatedEpoch = columns.activatedEpoch)
      (.conflict "identity replay changed immutable semantics")
    pure existing

/-- `None if activated_epoch is None else _non_negative_int(activated_epoch)`. -/
def optionalEpoch (value : Option ℤ) (field : String) :
    Except Repositories.ValidationError (Option ℕ) :=
  match value with
  | none => pure none
  | some value => some <$> nonNegativeInt value field

def bindPublicIdentity (ownerId meshId memberId identityId algorithm publicKey keyFingerprint : String)
    (activatedEpoch : Option ℤ) : Work MeshPublicIdentityRecord := do
  let owner ← checked (owned ownerId)
  let mesh ← checked (identified meshId "mesh_id")
  let member ← checked (identified memberId "member_id")
  let identity ← checked (identified identityId "identity_id")
  let algorithm ← checked (boundedText algorithm "algorithm" 64)
  let key ← checked (boundedText publicKey "public_key" 8192)
  let fingerprint ← checked (digest keyFingerprint "key_fingerprint")
  let epoch ← checked (optionalEpoch activatedEpoch "activated_epoch")
  let s ← Tx.get
  match s.member owner mesh member with
  | none => raise (.notFound "member not found for this owner")
  | some locked => do
    require (locked.memberStatus = .active)
      (.conflict "public identity requires an active member")
    let columns : IdentityColumns :=
      { meshId := mesh, ownerId := owner, memberId := member, algorithm := algorithm,
        publicKey := key, keyFingerprint := fingerprint, activatedEpoch := epoch }
    match ← selectWhere ((s.member owner mesh member).any fun m =>
          m.memberStatus = .active && m.recordVersion = locked.recordVersion)
        (onIdentities (Sql.insertReturning identity columns fun _ => false)) with
    | none => replayIdentity owner identity columns
    | some row => pure ⟨row, identity⟩

def identityWriteMiss {α : Type} (owner identity : String) : Work α := do
  let s ← Tx.get
  if (s.identity owner identity).isNone then
    raise (.notFound "identity not found for this owner")
  else raise (.conflict "identity state or version fence rejected the write")

def rotatePublicIdentity (ownerId meshId memberId identityId : String)
    (expectedRecordVersion : ℤ) : Work MeshPublicIdentityRecord := do
  let owner ← checked (owned ownerId)
  let mesh ← checked (identified meshId "mesh_id")
  let member ← checked (identified memberId "member_id")
  let identity ← checked (identified identityId "identity_id")
  let version ← checked (version expectedRecordVersion "expected_record_version")
  match ← onIdentities (Sql.updateReturning identity
      (fun i => i.meshId = mesh && i.memberId = member && i.ownerId = owner &&
        i.recordVersion = version && i.identityState = .active)
      fun i => { i with identityState := .rotated, recordVersion := i.recordVersion + 1 }) with
  | none => identityWriteMiss owner identity
  | some row => pure ⟨row, identity⟩

def revokePublicIdentity (ownerId identityId : String) (expectedRecordVersion : ℤ) :
    Work MeshPublicIdentityRecord := do
  let owner ← checked (owned ownerId)
  let identity ← checked (identified identityId "identity_id")
  let version ← checked (version expectedRecordVersion "expected_record_version")
  match ← onIdentities (Sql.updateReturning identity
      (fun i => i.ownerId = owner && i.recordVersion = version && i.identityState ≠ .revoked)
      fun i => { i with identityState := .revoked, recordVersion := i.recordVersion + 1 }) with
  | none => identityWriteMiss owner identity
  | some row => pure ⟨row, identity⟩

/-! ## Challenges -/

/-- A challenge that was not inserted: its mesh is missing, or its id is taken. -/
def replayChallenge (owner challenge : String) (columns : ChallengeColumns) :
    Work MeshEnrollmentChallengeRecord := do
  let _ ← getMesh owner columns.meshId
  let s ← Tx.get
  match s.challenge owner challenge with
  | none => raise (.conflict "challenge identity is bound to another owner")
  | some existing =>
    require (existing.meshId = columns.meshId && existing.memberId = columns.memberId &&
        existing.challengeDigest = columns.challengeDigest && existing.issuedAt = columns.issuedAt &&
        existing.expiresAt = columns.expiresAt)
      (.conflict "challenge replay changed immutable semantics")
    pure existing

def issueEnrollmentChallenge (ownerId meshId memberId challengeId challengeDigest : String)
    (issuedAt expiresAt : ℤ) : Work MeshEnrollmentChallengeRecord := do
  let owner ← checked (owned ownerId)
  let mesh ← checked (identified meshId "mesh_id")
  let member ← checked (identified memberId "member_id")
  let challenge ← checked (identified challengeId "challenge_id")
  let digest ← checked (digest challengeDigest "challenge_digest")
  let issued ← checked (nonNegativeInt issuedAt "issued_at")
  let expires ← checked (nonNegativeInt expiresAt "expires_at")
  checked (window issued expires)
  let columns : ChallengeColumns :=
    { meshId := mesh, ownerId := owner, memberId := member, challengeDigest := digest,
      issuedAt := issued, expiresAt := expires }
  let s ← Tx.get
  match ← selectWhere (s.mesh owner mesh).isSome
      (onChallenges (Sql.insertReturning challenge columns fun _ => false)) with
  | none => replayChallenge owner challenge columns
  | some row => pure ⟨row, challenge⟩

def challengeMiss {α : Type} (owner challenge : String) (digest : Option String) : Work α := do
  let s ← Tx.get
  match s.challenge owner challenge with
  | none => raise (.notFound "challenge not found for this owner")
  | some row =>
    if digest.all (row.challengeDigest = ·) then
      if row.challengeState = .pending then
        raise (.conflict "challenge is outside its validity window" "mesh_challenge_expired")
      else raise (.conflict ("challenge is already " ++ row.challengeState.text))
    else raise (.conflict "challenge digest does not match" "mesh_invitation_digest_mismatch")

def proveEnrollmentChallenge (ownerId challengeId challengeDigest : String) (asOf : ℤ) :
    Work MeshEnrollmentChallengeRecord := do
  let owner ← checked (owned ownerId)
  let challenge ← checked (identified challengeId "challenge_id")
  let digest ← checked (digest challengeDigest "challenge_digest")
  let observed ← checked (nonNegativeInt asOf "as_of")
  match ← onChallenges (Sql.updateReturning challenge
      (fun c => c.ownerId = owner && c.challengeDigest = digest && c.challengeState = .pending &&
        c.issuedAt ≤ observed && observed < c.expiresAt)
      fun c => { c with
        challengeState := .proven
        provenAt := some observed
        recordVersion := c.recordVersion + 1 }) with
  | none => challengeMiss owner challenge (some digest)
  | some row => pure ⟨row, challenge⟩

def cancelEnrollmentChallenge (ownerId challengeId : String) :
    Work MeshEnrollmentChallengeRecord := do
  let owner ← checked (owned ownerId)
  let challenge ← checked (identified challengeId "challenge_id")
  match ← onChallenges (Sql.updateReturning challenge
      (fun c => c.ownerId = owner && c.challengeState = .pending)
      fun c => { c with challengeState := .cancelled, recordVersion := c.recordVersion + 1 }) with
  | none => challengeMiss owner challenge none
  | some row => pure ⟨row, challenge⟩

/-! ## Invitations -/

/-- An invitation that was not inserted: its mesh is missing, or its id is taken. -/
def replayInvitation (owner invitation : String) (columns : InvitationColumns) :
    Work MeshEnrollmentInvitationRecord := do
  let _ ← getMesh owner columns.meshId
  let s ← Tx.get
  match s.invitation owner invitation with
  | none => raise (.conflict "invitation identity is bound to another owner")
  | some existing =>
    require (existing.meshId = columns.meshId && existing.memberKind = columns.memberKind &&
        existing.memberLabel = columns.memberLabel &&
        existing.invitationDigest = columns.invitationDigest &&
        existing.issuedAt = columns.issuedAt && existing.expiresAt = columns.expiresAt)
      (.conflict "invitation replay changed immutable semantics")
    pure existing

def issueInvitation (ownerId meshId invitationId memberKind invitationDigest : String)
    (memberLabel : Option String) (issuedAt expiresAt : ℤ) :
    Work MeshEnrollmentInvitationRecord := do
  let owner ← checked (owned ownerId)
  let mesh ← checked (identified meshId "mesh_id")
  let invitation ← checked (identified invitationId "invitation_id")
  let kind ← checked (kind memberKind "member_kind")
  let label ← checked (optionalText memberLabel "member_label" 256)
  let digest ← checked (digest invitationDigest "invitation_digest")
  let issued ← checked (nonNegativeInt issuedAt "issued_at")
  let expires ← checked (nonNegativeInt expiresAt "expires_at")
  checked (window issued expires)
  let columns : InvitationColumns :=
    { meshId := mesh, ownerId := owner, memberKind := kind, memberLabel := label,
      invitationDigest := digest, issuedAt := issued, expiresAt := expires }
  let s ← Tx.get
  match ← selectWhere (s.mesh owner mesh).isSome
      (onInvitations (Sql.insertReturning invitation columns fun _ => false)) with
  | none => replayInvitation owner invitation columns
  | some row => pure ⟨row, invitation⟩

def getInvitation (owner invitation : String) : Work MeshEnrollmentInvitationRecord := do
  let s ← Tx.get
  match s.invitation owner invitation with
  | none => raise (.notFound "invitation not found for this owner")
  | some record => pure record

def invitationMiss {α : Type} (owner invitation : String) (digest : Option String) : Work α := do
  let s ← Tx.get
  match s.invitation owner invitation with
  | none => raise (.notFound "invitation not found for this owner")
  | some row =>
    if digest.all (row.invitationDigest = ·) then
      if row.invitationState = .pending then
        raise (.conflict "invitation is outside its validity window" "mesh_invitation_expired")
      else raise (.conflict ("invitation is already " ++ row.invitationState.text))
    else raise (.conflict "invitation digest does not match" "mesh_invitation_digest_mismatch")

def consumeInvitation (ownerId invitationId invitationDigest : String) (asOf : ℤ) :
    Work MeshEnrollmentInvitationRecord := do
  let owner ← checked (owned ownerId)
  let invitation ← checked (identified invitationId "invitation_id")
  let digest ← checked (digest invitationDigest "invitation_digest")
  let observed ← checked (nonNegativeInt asOf "as_of")
  match ← onInvitations (Sql.updateReturning invitation
      (fun i => i.ownerId = owner && i.invitationDigest = digest && i.invitationState = .pending &&
        i.issuedAt ≤ observed && observed < i.expiresAt)
      fun i => { i with
        invitationState := .consumed
        consumedAt := some observed
        recordVersion := i.recordVersion + 1 }) with
  | none => invitationMiss owner invitation (some digest)
  | some row => pure ⟨row, invitation⟩

def expireInvitation (ownerId invitationId : String) (asOf : ℤ) :
    Work MeshEnrollmentInvitationRecord := do
  let owner ← checked (owned ownerId)
  let invitation ← checked (identified invitationId "invitation_id")
  let observed ← checked (nonNegativeInt asOf "as_of")
  match ← onInvitations (Sql.updateReturning invitation
      (fun i => i.ownerId = owner && i.invitationState = .pending && i.expiresAt ≤ observed)
      fun i => { i with invitationState := .expired, recordVersion := i.recordVersion + 1 }) with
  | none => invitationMiss owner invitation none
  | some row => pure ⟨row, invitation⟩

def revokeInvitation (ownerId invitationId : String) : Work MeshEnrollmentInvitationRecord := do
  let owner ← checked (owned ownerId)
  let invitation ← checked (identified invitationId "invitation_id")
  match ← onInvitations (Sql.updateReturning invitation
      (fun i => i.ownerId = owner &&
        (i.invitationState = .pending || i.invitationState = .consumed))
      fun i => { i with invitationState := .revoked, recordVersion := i.recordVersion + 1 }) with
  | none => invitationMiss owner invitation none
  | some row => pure ⟨row, invitation⟩

/-- `MeshMemberKind`, as the string that it is. -/
def MeshMemberKind.text : MeshMemberKind → String
  | .device => "device"
  | .agent => "agent"
  | .companion => "companion"

/-- What `confirm_invitation` does under its savepoint. -/
def confirm (owner mesh invitation member : String) (label : Option String)
    (invitationVersion meshVersion memberVersion observed : ℕ) :
    Work (MeshEnrollmentInvitationRecord × MeshMemberRecord) := do
  let _ ← lockMesh owner mesh meshVersion
  match ← onInvitations (Sql.updateReturning invitation
      (fun i => i.ownerId = owner && i.meshId = mesh && i.recordVersion = invitationVersion &&
        i.invitationState = .consumed && i.issuedAt ≤ observed && i.consumedAt.any (· ≤ observed) &&
        observed < i.expiresAt)
      fun i => { i with
        invitationState := .confirmed
        confirmedAt := some observed
        recordVersion := i.recordVersion + 1 }) with
  | none => raise (.conflict "invitation state, window or version fence rejected confirmation")
  | some confirmed => do
    let memberRecord ← activateMember owner confirmed.meshId member confirmed.memberKind.text
      meshVersion memberVersion (label <|> confirmed.memberLabel)
    pure (⟨confirmed, invitation⟩, memberRecord)

def confirmInvitation (ownerId invitationId memberId : String)
    (expectedInvitationVersion expectedMeshVersion expectedMemberVersion asOf : ℤ)
    (displayLabel : Option String) : Work (MeshEnrollmentInvitationRecord × MeshMemberRecord) := do
  let owner ← checked (owned ownerId)
  let invitation ← checked (identified invitationId "invitation_id")
  let member ← checked (identified memberId "member_id")
  let label ← checked (optionalText displayLabel "display_label" 256)
  let invitationVersion ← checked (version expectedInvitationVersion "expected_invitation_version")
  let meshVersion ← checked (version expectedMeshVersion "expected_mesh_version")
  let memberVersion ← checked (nonNegativeInt expectedMemberVersion "expected_member_version")
  let observed ← checked (nonNegativeInt asOf "as_of")
  let current ← getInvitation owner invitation
  Tx.savepoint (confirm owner current.meshId invitation member label invitationVersion meshVersion
    memberVersion observed)

/-! ## Calls -/

inductive Method
  | bootstrapMesh (meshId ownerId displayName bootstrapMemberId bootstrapMemberKind : String)
      (bootstrapLabel : Option String)
  | renameMesh (ownerId meshId displayName : String) (expectedRecordVersion : ℤ)
  | activateMember (ownerId meshId memberId memberKind : String)
      (expectedMeshVersion expectedMemberVersion : ℤ) (displayLabel : Option String)
  | assertCurrentMember (ownerId meshId memberId : String)
      (expectedMembershipEpoch expectedRevocationEpoch expectedMemberVersion : Option ℤ)
  | retireMember (ownerId meshId memberId : String) (expectedRecordVersion : ℤ)
  | revokeMember (ownerId meshId memberId revocationId : String)
      (expectedMeshVersion expectedMemberVersion : ℤ) (reason : Option String)
  | bindPublicIdentity
      (ownerId meshId memberId identityId algorithm publicKey keyFingerprint : String)
      (activatedEpoch : Option ℤ)
  | rotatePublicIdentity (ownerId meshId memberId identityId : String) (expectedRecordVersion : ℤ)
  | revokePublicIdentity (ownerId identityId : String) (expectedRecordVersion : ℤ)
  | issueEnrollmentChallenge (ownerId meshId memberId challengeId challengeDigest : String)
      (issuedAt expiresAt : ℤ)
  | proveEnrollmentChallenge (ownerId challengeId challengeDigest : String) (asOf : ℤ)
  | cancelEnrollmentChallenge (ownerId challengeId : String)
  | issueInvitation (ownerId meshId invitationId memberKind invitationDigest : String)
      (memberLabel : Option String) (issuedAt expiresAt : ℤ)
  | consumeInvitation (ownerId invitationId invitationDigest : String) (asOf : ℤ)
  | expireInvitation (ownerId invitationId : String) (asOf : ℤ)
  | revokeInvitation (ownerId invitationId : String)
  | confirmInvitation (ownerId invitationId memberId : String)
      (expectedInvitationVersion expectedMeshVersion expectedMemberVersion asOf : ℤ)
      (displayLabel : Option String)

/-- A method that returned, with what it returned. -/
inductive Reply
  | bootstrapped (mesh : MeshRecord) (member : MeshMemberRecord)
  | renamed (mesh : MeshRecord)
  | activated (member : MeshMemberRecord)
  | current (mesh : MeshRecord) (member : MeshMemberRecord)
  | retired (member : MeshMemberRecord)
  | revoked (member : MeshMemberRecord) (revocation : MeshMemberRevocationRecord)
  | bound (identity : MeshPublicIdentityRecord)
  | rotated (identity : MeshPublicIdentityRecord)
  | identityRevoked (identity : MeshPublicIdentityRecord)
  | challenged (challenge : MeshEnrollmentChallengeRecord)
  | proven (challenge : MeshEnrollmentChallengeRecord)
  | challengeCancelled (challenge : MeshEnrollmentChallengeRecord)
  | invited (invitation : MeshEnrollmentInvitationRecord)
  | consumed (invitation : MeshEnrollmentInvitationRecord)
  | expired (invitation : MeshEnrollmentInvitationRecord)
  | invitationRevoked (invitation : MeshEnrollmentInvitationRecord)
  | confirmed (invitation : MeshEnrollmentInvitationRecord) (member : MeshMemberRecord)
  deriving DecidableEq

def exec : Method → Work Reply
  | .bootstrapMesh mesh owner name member kind label => do
    let (mesh, member) ← bootstrapMesh mesh owner name member kind label
    pure (.bootstrapped mesh member)
  | .renameMesh owner mesh name version => .renamed <$> renameMesh owner mesh name version
  | .activateMember owner mesh member kind meshVersion memberVersion label =>
    .activated <$> activateMember owner mesh member kind meshVersion memberVersion label
  | .assertCurrentMember owner mesh member membership revocation version => do
    let (mesh, member) ← assertCurrentMember owner mesh member membership revocation version
    pure (.current mesh member)
  | .retireMember owner mesh member version => .retired <$> retireMember owner mesh member version
  | .revokeMember owner mesh member revocation meshVersion memberVersion reason => do
    let (member, revocation) ←
      revokeMember owner mesh member revocation meshVersion memberVersion reason
    pure (.revoked member revocation)
  | .bindPublicIdentity owner mesh member identity algorithm key fingerprint epoch =>
    .bound <$> bindPublicIdentity owner mesh member identity algorithm key fingerprint epoch
  | .rotatePublicIdentity owner mesh member identity version =>
    .rotated <$> rotatePublicIdentity owner mesh member identity version
  | .revokePublicIdentity owner identity version =>
    .identityRevoked <$> revokePublicIdentity owner identity version
  | .issueEnrollmentChallenge owner mesh member challenge digest issued expires =>
    .challenged <$> issueEnrollmentChallenge owner mesh member challenge digest issued expires
  | .proveEnrollmentChallenge owner challenge digest asOf =>
    .proven <$> proveEnrollmentChallenge owner challenge digest asOf
  | .cancelEnrollmentChallenge owner challenge =>
    .challengeCancelled <$> cancelEnrollmentChallenge owner challenge
  | .issueInvitation owner mesh invitation kind digest label issued expires =>
    .invited <$> issueInvitation owner mesh invitation kind digest label issued expires
  | .consumeInvitation owner invitation digest asOf =>
    .consumed <$> consumeInvitation owner invitation digest asOf
  | .expireInvitation owner invitation asOf => .expired <$> expireInvitation owner invitation asOf
  | .revokeInvitation owner invitation => .invitationRevoked <$> revokeInvitation owner invitation
  | .confirmInvitation owner invitation member invitationVersion meshVersion memberVersion asOf label => do
    let (invitation, member) ← confirmInvitation owner invitation member invitationVersion meshVersion
      memberVersion asOf label
    pure (.confirmed invitation member)

structure Call where
  method : Method
  kept : Bool

def Store.reply (call : Call) (s : Store) : Except Exc Reply := (exec call.method s).1

def Store.step (call : Call) (s : Store) : Store :=
  if call.kept then (exec call.method s).2 else (exec call.method).commit s

def Store.run (calls : List Call) (s : Store) : Store := AstralPlane.run Store.step calls s

/-- What the calls that returned have returned. -/
def Store.trace : List Call → Store → List Reply
  | [], _ => []
  | call :: calls, s => (s.reply call).toOption.toList ++ Store.trace calls (s.step call)

end AstralPlane.MeshEnrollment
