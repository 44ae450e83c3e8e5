/-
  The migrations of the schema and their runner (`database/migrations.py`, table
  `schema_meta`).

  A migration leads from each of its source revisions to its target; a registry
  has at most one migration for a source.  The runner follows them from the
  stored revision to the one that is expected, in one transaction, and records
  each revision it reaches.

  An operation is any code on the database, `schema_meta` included; a verifier
  reads the schema proper.  How the calls of the driver end is given with the
  `Connection`: any statement may raise, and so may the commit, with or without
  effect.
-/
import AstralPlane.Migrations.Revision
import AstralPlane.Python.Json
import Mathlib.Data.List.AList

namespace AstralPlane.Migrations

open Python

/-! ## The database -/

/-- The rows of `schema_meta`; its primary key is `key`. -/
abbrev SchemaMeta := AList fun _ : String => String

/-- The database: `schema_meta` if it exists, and everything else. -/
structure Database (σ : Type) where
  schemaMeta : Option SchemaMeta
  schema : σ

/-- The database as a transaction sees it, and what its next statements raise. -/
structure Session (σ : Type) where
  database : Database σ
  faults : List (Option Exc)

abbrev Code (σ : Type) := Tx (Session σ) Exc

variable {σ : Type}

def statement : Code σ Unit := fun s =>
  match s.faults with
  | [] => (.ok (), s)
  | none :: faults => (.ok (), { s with faults := faults })
  | some e :: faults => (.error e, { s with faults := faults })

/-! ## Migrations -/

/-- `Migration.__post_init__`. -/
def validateMigration (name : String) (sourceRevisions : List (Option String))
    (targetRevision checksum : String) : Except Exc Unit := do
  ensure (!name.isEmpty && name.toList.all fun c => c.toNat < 128)
    (.definition "migration name must be non-empty ASCII" [])
  ensure (!sourceRevisions.isEmpty)
    (.definition "migration must declare at least one source revision" [])
  sourceRevisions.forM fun source =>
    source.elim (.ok ()) (validateRevision (.schemaRevision · []) · "migration source")
  ensure (decide sourceRevisions.Nodup) (.definition "migration source revisions must be unique" [])
  validateRevision (.schemaRevision · []) targetRevision "migration target"
  ensure (!sourceRevisions.contains (some targetRevision))
    (.definition "migration target must differ from every source" [])
  ensure (isSha256 checksum) (.definition "migration checksum must be lowercase SHA-256" [])

structure Migration (σ : Type) where
  name : String
  sourceRevisions : List (Option String)
  targetRevision : String
  checksum : String
  operation : Tx (Database σ) Exc Unit
  accepted : validateMigration name sourceRevisions targetRevision checksum = .ok ()

def Migration.apply (m : Migration σ) : Code σ Unit := do
  statement
  Tx.zoom Session.database (fun database s => { s with database := database }) id m.operation

/-! ## The registry -/

/-- `f"{source!r}"`. -/
def sourceRepr : Option String → String
  | none => "None"
  | some source => "'" ++ source ++ "'"

/-- The sources of a migration are put into `by_source`. -/
def claimSources : List (Option String) → List (Option String) → Except Exc Unit
  | _, [] => .ok ()
  | claimed, source :: sources => do
    ensure (!claimed.contains source)
      (.definition ("multiple migrations claim source revision " ++ sourceRepr source) [])
    claimSources (claimed ++ [source]) sources

/-- The loop of `MigrationRegistry.__init__`. -/
def register : List String → List (Option String) → List (Migration σ) → Except Exc Unit
  | _, _, [] => .ok ()
  | names, claimed, m :: ms => do
    ensure (!names.contains m.name) (.definition "migration names must be unique" [])
    claimSources claimed m.sourceRevisions
    register (names ++ [m.name]) (claimed ++ m.sourceRevisions) ms

/-- The checks of a verifier and its checksum. -/
def checkVerifier (verifier : String) (declared : Bool) (checksum : Option String) :
    Except Exc Unit := do
  ensure (declared == checksum.isSome)
    (.definition (verifier ++ " and checksum must be declared together") [])
  ensure (checksum.all isSha256)
    (.definition (verifier ++ " checksum must be lowercase SHA-256") [])

structure MigrationRegistry (σ : Type) where
  migrations : List (Migration σ)
  currentSchemaVerifier : Option (σ → Except Exc Unit)
  currentSchemaVerifierChecksum : Option String
  predecessorSchemaVerifier : Option (Option String → σ → Except Exc Unit)
  predecessorSchemaVerifierChecksum : Option String

/-- The checks of `MigrationRegistry.__init__`. -/
def MigrationRegistry.validate (r : MigrationRegistry σ) : Except Exc Unit := do
  ensure (!r.migrations.isEmpty) (.definition "migration registry must not be empty" [])
  register [] [] r.migrations
  checkVerifier "current schema verifier" r.currentSchemaVerifier.isSome
    r.currentSchemaVerifierChecksum
  checkVerifier "predecessor schema verifier" r.predecessorSchemaVerifier.isSome
    r.predecessorSchemaVerifierChecksum

/-- The items of `_by_source`. -/
def MigrationRegistry.bySource (r : MigrationRegistry σ) : List (Option String × Migration σ) :=
  r.migrations.flatMap fun m => m.sourceRevisions.map fun source => (source, m)

def MigrationRegistry.nextAfter (r : MigrationRegistry σ) (revision : Option String) :
    Option (Migration σ) := r.bySource.lookup revision

def manifestEntry (checksum name : String) (sources : List String) (target : String) : Value := .obj [
  (ofString "checksum", .str (ofString checksum)),
  (ofString "name", .str (ofString name)),
  (ofString "source_revisions", .arr (sources.map fun source => .str (ofString source))),
  (ofString "target_revision", .str (ofString target))]

def MigrationRegistry.manifest (r : MigrationRegistry σ) : Value :=
  .arr (((r.migrations.mergeSort fun m m' => decide (m.name ≤ m'.name)).map fun m =>
      manifestEntry m.checksum m.name (m.sourceRevisions.map fun source => source.getD "<empty>")
        m.targetRevision) ++
    (r.currentSchemaVerifierChecksum.map fun checksum =>
      manifestEntry checksum "@current-schema-verifier" [] "@current").toList ++
    (r.predecessorSchemaVerifierChecksum.map fun checksum =>
      manifestEntry checksum "@predecessor-schema-verifier" [] "@predecessor").toList)

def MigrationRegistry.digest (sha256 : Bytes → String) (r : MigrationRegistry σ) : String :=
  sha256 ((encode (dumps true r.manifest)).getD [])

def MigrationRegistry.verifyCurrent (r : MigrationRegistry σ) : Code σ Unit :=
  match r.currentSchemaVerifier with
  | none => .raise (.definition "migration registry has no current schema structural verifier" [])
  | some verifier => do
    statement
    let s ← Tx.get
    .ofExcept (verifier s.database.schema)

def MigrationRegistry.verifyPredecessor (r : MigrationRegistry σ) (revision : Option String) :
    Code σ Unit :=
  match r.predecessorSchemaVerifier with
  | none => pure ()
  | some verifier => do
    statement
    let s ← Tx.get
    .ofExcept (verifier revision s.database.schema)

/-! ## The runner -/

structure MigrationReport where
  sourceRevision : Option String
  targetRevision : String
  appliedSteps : List String
  alreadyCurrent : Bool
  migrationDigest : String
deriving DecidableEq

/-- The checks of `MigrationRunner.__init__`. -/
def checkRunner (sha256 : Bytes → String) (revision : DataPlaneRevision)
    (registry : MigrationRegistry σ) : Except Exc Unit := do
  ensure (registry.digest sha256 = revision.migrationDigest) (.definition
    "migration registry digest does not match the declared data-plane revision"
    [("declared", revision.migrationDigest), ("observed", registry.digest sha256)])
  ensure registry.currentSchemaVerifier.isSome
    (.definition "migration registry has no current schema structural verifier" [])

/-- `MigrationRunner`, with what its constructor and those of its parts require. -/
structure MigrationRunner (sha256 : Bytes → String) (σ : Type) where
  revision : DataPlaneRevision
  registry : MigrationRegistry σ
  revision_accepted : revision.validate = .ok ()
  registry_accepted : registry.validate = .ok ()
  accepted : checkRunner sha256 revision registry = .ok ()

def schemaMetaRevision : String := "revision"

def schemaMetaDigest : String := "astralplane_migration_digest"

/-- `_CREATE_SCHEMA_META_SQL`. -/
def createSchemaMeta : Code σ Unit := do
  statement
  .modify fun s => { s with database := { s.database with
    schemaMeta := some (s.database.schemaMeta.getD ∅) } }

/-- The loop of `_read_metadata`. -/
def collectMetadata : SchemaMeta → List (Sigma fun _ : String => String) → Except Exc SchemaMeta
  | metadata, [] => .ok metadata
  | metadata, record :: records =>
    if record.1 ∈ metadata then
      .error (.schemaRevision "schema metadata contains duplicate keys" [])
    else collectMetadata (metadata.insert record.1 record.2) records

def readSchemaMetaSql (table : SchemaMeta) : List (Sigma fun _ : String => String) :=
  table.entries.filter fun record => record.1 = schemaMetaRevision ∨ record.1 = schemaMetaDigest

def readMetadata : Code σ SchemaMeta := do
  statement
  let s ← Tx.get
  match s.database.schemaMeta with
  | none => .raise (.raised "UndefinedTable")
  | some table => .ofExcept (collectMetadata ∅ (readSchemaMetaSql table))

def writeMetadata (key value : String) : Code σ Unit := do
  statement
  let s ← Tx.get
  match s.database.schemaMeta with
  | none => .raise (.raised "UndefinedTable")
  | some table => .set { s with database := { s.database with
      schemaMeta := some (table.insert key value) } }

/-- The revisions that have a migration. -/
def MigrationRegistry.sources (r : MigrationRegistry σ) : List (Option String) :=
  r.bySource.map Prod.fst

theorem mem_of_lookup {α β : Type} [BEq α] [LawfulBEq α] {a : α} {b : β} {l : List (α × β)}
    (h : l.lookup a = some b) : (a, b) ∈ l := by
  obtain ⟨l1, l2, rfl, _⟩ := List.lookup_eq_some_iff.1 h
  simp

/-- A revision that is added to `visited` was one of those with a migration that are left. -/
theorem MigrationRegistry.unvisited_lt {r : MigrationRegistry σ} {observed : Option String}
    {visited : List (Option String)} {m : Migration σ} (hv : observed ∉ visited)
    (hm : r.nextAfter observed = some m) : (r.sources.filter (· ∉ observed :: visited)).length <
      (r.sources.filter (· ∉ visited)).length := by
  have hmem : observed ∈ r.sources := List.mem_map.2 ⟨_, mem_of_lookup hm, rfl⟩
  have hfilter : r.sources.filter (· ∉ observed :: visited) =
      (r.sources.filter (· ∉ visited)).filter (· ≠ observed) := by
    simp [List.filter_filter]
  rw [hfilter, List.length_filter_lt_length_iff_exists]
  exact ⟨observed, by simp [hmem, hv], by simp⟩

/-- The loop of `run`. -/
def MigrationRegistry.upgrade (r : MigrationRegistry σ) (expected : String)
    (visited : List (Option String)) (observed : Option String) (applied : List String) :
    Code σ (List String) :=
  if observed = some expected then pure applied
  else if _hv : observed ∈ visited then
    .raise (.definition "migration registry contains a cycle" [])
  else
    match _hm : r.nextAfter observed with
    | none => .raise (.schemaRevision "no declared migration path from the observed schema"
        [("observed", observed.getD "<empty>"), ("target", expected)])
    | some migration => do
      migration.apply
      writeMetadata schemaMetaRevision migration.targetRevision
      r.upgrade expected (observed :: visited) (some migration.targetRevision)
        (applied ++ [migration.name])
termination_by (r.sources.filter (· ∉ visited)).length
decreasing_by exact r.unvisited_lt _hv _hm

/-- The digest that a schema with an older revision carries. -/
def checkPredecessorDigest (source stored accepted : Option String) : Except Exc Unit :=
  let metadata := [("revision", source.getD "<empty>")]
  match accepted, stored with
  | some _, none =>
    .error (.schemaRevision "predecessor schema is missing required migration-set evidence" metadata)
  | some accepted, some stored => ensure (decide (stored = accepted))
      (.schemaRevision "predecessor schema carries an unrecognized migration-set digest" metadata)
  | none, some _ =>
    .error (.schemaRevision "predecessor schema carries an unrecognized migration-set digest" metadata)
  | none, none => .ok ()

/-- `source_revision == expected`. -/
def MigrationRegistry.confirm (sha256 : Bytes → String) (r : MigrationRegistry σ) (expected : String)
    (stored : Option String) : Code σ MigrationReport := do
  let metadata := [("revision", expected)]
  match stored with
  | none =>
    .raise (.schemaRevision "current schema is missing migration-set evidence" metadata)
  | some digest => do
    Tx.require (digest = r.digest sha256)
      (.schemaRevision "current schema carries a different migration-set digest" metadata)
    r.verifyCurrent
    pure ⟨some expected, expected, [], true, r.digest sha256⟩

/-- The body of `with` in `run`. -/
def MigrationRunner.body {sha256 : Bytes → String} (runner : MigrationRunner sha256 σ)
    (expected : String) : Code σ MigrationReport := do
  -- the advisory lock
  statement
  createSchemaMeta
  let metadata ← readMetadata
  let source := metadata.lookup schemaMetaRevision
  .ofExcept
    (source.elim (.ok ()) (validateRevision (.schemaRevision · []) · "stored schema revision"))
  let stored := metadata.lookup schemaMetaDigest
  if source = some expected then runner.registry.confirm sha256 expected stored
  else do
    let accepted ← .ofExcept (runner.revision.predecessorDigestFor source)
    .ofExcept (checkPredecessorDigest source stored accepted)
    runner.registry.verifyPredecessor source
    let applied ← runner.registry.upgrade expected [] source []
    runner.registry.verifyCurrent
    writeMetadata schemaMetaDigest (runner.registry.digest sha256)
    pure ⟨source, expected, applied, false, runner.registry.digest sha256⟩

/-- What the calls of the driver in a transaction raise; of a commit, also whether it took effect. -/
structure Connection where
  begin : Option Exc
  statements : List (Option Exc)
  commit : Option (Exc × Bool)

/-- `database.transaction()`. -/
def transact {α : Type} (c : Connection) (body : Code σ α) (database : Database σ) :
    Except Exc α × Database σ :=
  match c.begin with
  | some e => (.error e, database)
  | none =>
    match body ⟨database, c.statements⟩ with
    | (.error e, _) => (.error e, database)
    | (.ok a, s) =>
      match c.commit with
      | none => (.ok a, s.database)
      | some (e, effective) => (.error e, if effective then s.database else database)

/-- `MigrationRunner.run`: what is returned or raised, and the database after it. -/
def MigrationRunner.run {sha256 : Bytes → String} (runner : MigrationRunner sha256 σ)
    (expectedRevision : String) (c : Connection) (database : Database σ) :
    Except Exc MigrationReport × Database σ :=
  match validateRevision (.schemaRevision · []) expectedRevision "expected revision" with
  | .error e => (.error e, database)
  | .ok () =>
    if expectedRevision ≠ runner.revision.schemaRevision then
      (.error (.schemaRevision "composition expected a different data-plane revision"
        [("declared", runner.revision.schemaRevision), ("expected", expectedRevision)]), database)
    else transact c (runner.body expectedRevision) database

end AstralPlane.Migrations
