/-
  The declared lineage of the schema (`database/revision.py`): the revision that
  a build needs, the digest of its migrations, and the digests under which an
  older schema is accepted.
-/
import AstralPlane.Tx
import AstralPlane.Base

namespace AstralPlane

/-- `^[0-9]{3}\.[0-9]{3}$`. -/
def isRevision (s : String) : Bool :=
  match s.toList with
  | [a, b, c, '.', d, e, f] => [a, b, c, d, e, f].all Char.isDigit
  | _ => false

/-- `validate_revision`; `error` is the `SchemaRevisionError` of a message. -/
def validateRevision {ε : Type} (error : String → ε) (value field : String) : Except ε Unit :=
  ensure (isRevision value) (error (field ++ " must be a canonical numeric revision"))

namespace Migrations

/-- What is raised: `MigrationDefinitionError`, `SchemaRevisionError`, or whatever the driver or a
    migration raises. -/
inductive Exc where
  | definition (message : String) (metadata : List (String × String))
  | schemaRevision (message : String) (metadata : List (String × String))
  | raised (typeName : String)
deriving DecidableEq

structure DataPlaneRevision where
  schemaRevision : String
  readCompatibleFrom : List String
  migrationDigest : String
  advisoryLockIds : List (ℤ × ℤ)
  acceptedPredecessorDigests : List (String × String)

/-- The loop over `accepted_predecessor_digests`; `seen` are the revisions before. -/
def checkPredecessors (sources : List String) :
    List String → List (String × String) → Except Exc Unit
  | _, [] => .ok ()
  | seen, (revision, digest) :: rest => do
    validateRevision (.schemaRevision · []) revision "accepted predecessor revision"
    ensure (sources.contains revision)
      (.schemaRevision "accepted predecessor digest revision must be read-compatible" [])
    ensure (!seen.contains revision)
      (.schemaRevision "accepted predecessor digest revisions must be unique" [])
    ensure (isSha256 digest)
      (.schemaRevision "accepted predecessor digest must be lowercase SHA-256" [])
    checkPredecessors sources (seen ++ [revision]) rest

/-- `DataPlaneRevision.__post_init__`. -/
def DataPlaneRevision.validate (r : DataPlaneRevision) : Except Exc Unit := do
  validateRevision (.schemaRevision · []) r.schemaRevision "schema revision"
  ensure (!r.readCompatibleFrom.isEmpty)
    (.schemaRevision "read-compatible revision set must not be empty" [])
  r.readCompatibleFrom.forM (validateRevision (.schemaRevision · []) · "read-compatible revision")
  ensure (decide r.readCompatibleFrom.Nodup)
    (.schemaRevision "read-compatible revisions must be unique" [])
  ensure (isSha256 r.migrationDigest)
    (.schemaRevision "migration digest must be lowercase SHA-256" [])
  ensure (!r.advisoryLockIds.isEmpty)
    (.schemaRevision "at least one advisory lock identity is required" [])
  checkPredecessors r.readCompatibleFrom [] r.acceptedPredecessorDigests

def DataPlaneRevision.predecessorDigestFor (r : DataPlaneRevision) :
    Option String → Except Exc (Option String)
  | none => .ok none
  | some revision => do
    validateRevision (.schemaRevision · []) revision "predecessor revision"
    pure (r.acceptedPredecessorDigests.lookup revision)

end Migrations

end AstralPlane
