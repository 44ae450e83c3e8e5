/-
  Mesh membership, enrollment and revocation (`repositories/mesh_enrollment.py`,
  `database/mesh_schema.py`).

  A mesh has members; a member is activated at a membership epoch and revoked at a
  revocation epoch, and the mesh counts both.  Challenges and invitations have
  windows in which they are proven or consumed.

  * the tables are keyed by their primary keys; `Columns.refusal` is what their
    constraints refuse.  The times of the database are left out, which no method
    reads;
  * every method checks its arguments before its first statement;
  * methods of several statements run under a savepoint.
-/
import AstralPlane.Repositories
import AstralPlane.Sql

namespace AstralPlane.MeshEnrollment

open Repositories

/-! ## Values -/

inductive MeshMemberKind
  | device | agent | companion
  deriving DecidableEq

inductive MeshMemberStatus
  | active | revoked | retired
  deriving DecidableEq

inductive MeshIdentityState
  | active | rotated | revoked
  deriving DecidableEq

inductive MeshChallengeState
  | pending | proven | expired | cancelled
  deriving DecidableEq

def MeshChallengeState.text : MeshChallengeState → String
  | .pending => "pending"
  | .proven => "proven"
  | .expired => "expired"
  | .cancelled => "cancelled"

inductive MeshInvitationState
  | pending | consumed | confirmed | expired | revoked
  deriving DecidableEq

def MeshInvitationState.text : MeshInvitationState → String
  | .pending => "pending"
  | .consumed => "consumed"
  | .confirmed => "confirmed"
  | .expired => "expired"
  | .revoked => "revoked"

/-- What a method raises: a `RepositoryValidationError`, a `RepositoryNotFoundError`, a
    `RepositoryConflictError` or a subclass of it with its code, or an error of the database. -/
inductive Exc
  | validation (e : ValidationError)
  | notFound (message : String)
  | conflict (message : String) (code : String := "repository_conflict")
  | database (sqlstate : String)
  deriving DecidableEq

/-! ## Tables -/

structure MeshColumns where
  ownerId : String
  displayName : String
  membershipEpoch : ℕ := 0
  revocationEpoch : ℕ := 0
  recordVersion : ℕ := 1
  deriving DecidableEq

structure MemberColumns where
  ownerId : String
  memberKind : MeshMemberKind
  displayLabel : Option String
  membershipEpoch : ℕ
  memberStatus : MeshMemberStatus := .active
  recordVersion : ℕ := 1
  deriving DecidableEq

structure IdentityColumns where
  meshId : String
  ownerId : String
  memberId : String
  algorithm : String
  publicKey : String
  keyFingerprint : String
  identityState : MeshIdentityState := .active
  activatedEpoch : Option ℕ
  recordVersion : ℕ := 1
  deriving DecidableEq

structure ChallengeColumns where
  meshId : String
  ownerId : String
  memberId : String
  challengeDigest : String
  challengeState : MeshChallengeState := .pending
  issuedAt : ℕ
  expiresAt : ℕ
  provenAt : Option ℕ := none
  recordVersion : ℕ := 1
  deriving DecidableEq

structure InvitationColumns where
  meshId : String
  ownerId : String
  memberKind : MeshMemberKind
  memberLabel : Option String
  invitationDigest : String
  invitationState : MeshInvitationState := .pending
  issuedAt : ℕ
  expiresAt : ℕ
  consumedAt : Option ℕ := none
  confirmedAt : Option ℕ := none
  recordVersion : ℕ := 1
  deriving DecidableEq

structure RevocationColumns where
  meshId : String
  ownerId : String
  memberId : String
  revocationEpoch : ℕ
  reason : Option String
  deriving DecidableEq

/-- `char_length(text) BETWEEN 1 AND maximum`. -/
def sized (maximum : ℕ) (text : String) : Bool := 1 ≤ text.length && text.length ≤ maximum

/-- Numbers have to be in the range of their columns before any constraint is looked at. -/
def refusalOf (inRange accepted : Bool) : Option String :=
  if inRange then if accepted then none else some "23514" else some "22003"

instance : Columns MeshColumns where
  refusal m := refusalOf
    (m.membershipEpoch ≤ maxBigint && m.revocationEpoch ≤ maxBigint && m.recordVersion ≤ maxInteger)
    (sized 512 m.ownerId && sized 256 m.displayName && 1 ≤ m.recordVersion)

instance : Columns MemberColumns where
  refusal m := refusalOf (m.membershipEpoch ≤ maxBigint && m.recordVersion ≤ maxInteger)
    (sized 512 m.ownerId && m.displayLabel.all (sized 256) && 1 ≤ m.membershipEpoch &&
      1 ≤ m.recordVersion)

instance : Columns IdentityColumns where
  refusal i := refusalOf (i.activatedEpoch.all (· ≤ maxBigint) && i.recordVersion ≤ maxInteger)
    (sized 512 i.ownerId && sized 128 i.memberId && sized 64 i.algorithm && sized 8192 i.publicKey &&
      isSha256 i.keyFingerprint && i.activatedEpoch.all (1 ≤ ·) && 1 ≤ i.recordVersion)

instance : Columns ChallengeColumns where
  refusal c := refusalOf (c.issuedAt ≤ maxBigint && c.expiresAt ≤ maxBigint &&
      c.provenAt.all (· ≤ maxBigint) && c.recordVersion ≤ maxInteger)
    (sized 512 c.ownerId && sized 128 c.memberId && isSha256 c.challengeDigest &&
      1 ≤ c.recordVersion && c.issuedAt < c.expiresAt)

instance : Columns InvitationColumns where
  refusal i := refusalOf (i.issuedAt ≤ maxBigint && i.expiresAt ≤ maxBigint &&
      i.consumedAt.all (· ≤ maxBigint) && i.confirmedAt.all (· ≤ maxBigint) &&
      i.recordVersion ≤ maxInteger)
    (sized 512 i.ownerId && i.memberLabel.all (sized 256) && isSha256 i.invitationDigest &&
      1 ≤ i.recordVersion && i.issuedAt < i.expiresAt)

instance : Columns RevocationColumns where
  refusal r := refusalOf (r.revocationEpoch ≤ maxBigint)
    (sized 512 r.ownerId && sized 128 r.memberId && 1 ≤ r.revocationEpoch && r.reason.all (sized 512))

structure Store where
  meshes : Keyed String (Row MeshColumns)
  /-- by mesh and member -/
  members : Keyed (String × String) (Row MemberColumns)
  identities : Keyed String (Row IdentityColumns)
  challenges : Keyed String (Row ChallengeColumns)
  invitations : Keyed String (Row InvitationColumns)
  revocations : Keyed String (Row RevocationColumns)

def Store.empty : Store := ⟨∅, ∅, ∅, ∅, ∅, ∅⟩

abbrev Work := Tx Store Exc

/-! ## Records -/

structure MeshRecord extends MeshColumns where
  meshId : String
  deriving DecidableEq

structure MeshMemberRecord extends MemberColumns where
  meshId : String
  memberId : String
  deriving DecidableEq

structure MeshPublicIdentityRecord extends IdentityColumns where
  identityId : String
  deriving DecidableEq

structure MeshEnrollmentChallengeRecord extends ChallengeColumns where
  challengeId : String
  deriving DecidableEq

structure MeshEnrollmentInvitationRecord extends InvitationColumns where
  invitationId : String
  deriving DecidableEq

structure MeshMemberRevocationRecord extends RevocationColumns where
  revocationId : String
  deriving DecidableEq

/-! ## Checks -/

def checked {α : Type} (r : Except ValidationError α) : Work α := Tx.ofExcept (r.mapError .validation)

def version (value : ℤ) (field : String) : Except ValidationError ℕ := do
  let version ← nonNegativeInt value field
  ensure (1 ≤ version) ⟨field ++ " must be a positive record version", [("field", field)]⟩
  pure version

def kind (value field : String) : Except ValidationError MeshMemberKind := do
  let kind ← boundedText value field 32
  match kind with
  | "device" => pure .device
  | "agent" => pure .agent
  | "companion" => pure .companion
  | _ => throw ⟨field ++ " is not a supported mesh member kind",
      [("field", field), ("allowed", "device,agent,companion")]⟩

def digest (value field : String) : Except ValidationError String := do
  let digest ← boundedText value field 64
  ensure (isSha256 digest)
    ⟨field ++ " must be a lowercase 64-character hex digest", [("field", field)]⟩
  pure digest

def optionalText (value : Option String) (field : String) (maximum : ℕ) :
    Except ValidationError (Option String) :=
  match value with
  | none => pure none
  | some text => some <$> boundedText text field maximum true

/-- `expires_at` comes after `issued_at`. -/
def window (issued expires : ℕ) : Except ValidationError Unit :=
  ensure (issued < expires) ⟨"expires_at must be later than issued_at", []⟩

/-- The identifiers of an owner and of the records of a mesh. -/
def owned (ownerId : String) : Except ValidationError String := requiredId ownerId "owner_id"

def identified (value field : String) : Except ValidationError String := requiredId value field 128

/-! ## Statements -/

section
variable {α : Type}

def onMeshes (x : Tx (Keyed String (Row MeshColumns)) String α) : Work α :=
  Tx.zoom Store.meshes (fun t s => { s with meshes := t }) .database x

def onMembers (x : Tx (Keyed (String × String) (Row MemberColumns)) String α) : Work α :=
  Tx.zoom Store.members (fun t s => { s with members := t }) .database x

def onIdentities (x : Tx (Keyed String (Row IdentityColumns)) String α) : Work α :=
  Tx.zoom Store.identities (fun t s => { s with identities := t }) .database x

def onChallenges (x : Tx (Keyed String (Row ChallengeColumns)) String α) : Work α :=
  Tx.zoom Store.challenges (fun t s => { s with challenges := t }) .database x

def onInvitations (x : Tx (Keyed String (Row InvitationColumns)) String α) : Work α :=
  Tx.zoom Store.invitations (fun t s => { s with invitations := t }) .database x

def onRevocations (x : Tx (Keyed String (Row RevocationColumns)) String α) : Work α :=
  Tx.zoom Store.revocations (fun t s => { s with revocations := t }) .database x

end

/-- `SELECT … FROM mesh_record WHERE mesh_id = %s AND owner_id = %s`. -/
def Store.mesh (s : Store) (owner mesh : String) : Option MeshRecord :=
  ((s.meshes.lookup mesh).filter (·.val.ownerId = owner)).map fun row => ⟨row.val, mesh⟩

/-- `SELECT … FROM mesh_member WHERE mesh_id = %s AND member_id = %s AND owner_id = %s`. -/
def Store.member (s : Store) (owner mesh member : String) : Option MeshMemberRecord :=
  ((s.members.lookup (mesh, member)).filter (·.val.ownerId = owner)).map
    fun row => ⟨row.val, mesh, member⟩

/-- `SELECT … FROM mesh_public_identity WHERE identity_id = %s AND owner_id = %s`. -/
def Store.identity (s : Store) (owner identity : String) : Option MeshPublicIdentityRecord :=
  ((s.identities.lookup identity).filter (·.val.ownerId = owner)).map fun row => ⟨row.val, identity⟩

/-- `SELECT … FROM mesh_enrollment_challenge WHERE challenge_id = %s AND owner_id = %s`. -/
def Store.challenge (s : Store) (owner challenge : String) : Option MeshEnrollmentChallengeRecord :=
  ((s.challenges.lookup challenge).filter (·.val.ownerId = owner)).map fun row => ⟨row.val, challenge⟩

/-- `SELECT … FROM mesh_enrollment_invitation WHERE invitation_id = %s AND owner_id = %s`. -/
def Store.invitation (s : Store) (owner invitation : String) :
    Option MeshEnrollmentInvitationRecord :=
  ((s.invitations.lookup invitation).filter (·.val.ownerId = owner)).map fun row => ⟨row.val, invitation⟩

end AstralPlane.MeshEnrollment
