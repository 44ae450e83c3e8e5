/-
  The runner follows the one path of migrations to the expected revision.

  * `MigrationRegistry.Edge`: the graph of a registry that was accepted; a
    revision has at most one migration (`edge_unique`);
  * `MigrationRegistry.migrate`: what it means to apply a list of migrations to a
    database, each once and in order;
  * `migrations_follow_path`: a run does that for the path from the stored
    revision, or raises and leaves the database as it was; a run after it finds
    the schema current.
-/
import AstralPlane.Migrations.Model
import AstralPlane.Paths

namespace AstralPlane.Migrations

open Python Tx List MigrationRegistry

variable {σ : Type} {u : Unit} {a b : Option String} {key : String} {metadata table : SchemaMeta}

/-! ## The graph of a registry -/

theorem claimSources_ok {claimed sources : List (Option String)}
    (h : claimSources claimed sources = .ok u) : ∀ source ∈ sources, source ∉ claimed := by
  induction sources generalizing claimed with
  | nil => simp
  | cons source sources ih =>
    rw [claimSources, bind_eq_ok] at h
    obtain ⟨_, hfresh, h⟩ := h
    rw [ensure_eq_ok] at hfresh
    intro source' hin
    rcases mem_cons.1 hin with rfl | hin
    · simpa using hfresh
    · exact fun hc => ih h source' hin (mem_append_left _ hc)

/-- Accepted migrations share neither a name nor a source. -/
theorem register_ok {names : List String} {claimed : List (Option String)} {ms : List (Migration σ)}
    (h : register names claimed ms = .ok u) :
    (∀ m ∈ ms, m.name ∉ names ∧ ∀ source ∈ m.sourceRevisions, source ∉ claimed) ∧
      ms.Pairwise fun m m' => m.name ≠ m'.name ∧
        ∀ source ∈ m.sourceRevisions, source ∉ m'.sourceRevisions := by
  induction ms generalizing names claimed with
  | nil => simp
  | cons m ms ih =>
    simp only [register, ok_rules] at h
    obtain ⟨_, hname, _, hclaim, h⟩ := h
    obtain ⟨hfresh, hpair⟩ := ih h
    refine ⟨forall_mem_cons.2 ⟨⟨by simpa using hname, claimSources_ok hclaim⟩, fun m' hm' => ?_⟩,
      pairwise_cons.2 ⟨fun m' hm' => ?_, hpair⟩⟩ <;> obtain ⟨hname', hsources⟩ := hfresh m' hm'
    · exact ⟨fun hm => hname' (mem_append_left _ hm),
        fun source hs hc => hsources source hs (mem_append_left _ hc)⟩
    · exact ⟨fun heq => hname' (by simp [heq]),
        fun source hs hs' => hsources source hs' (mem_append_right _ hs)⟩

variable {r : MigrationRegistry σ}

def Database.revision (d : Database σ) : Option String :=
  d.schemaMeta.bind fun table => table.lookup schemaMetaRevision

/-- A row of `schema_meta` is written. -/
def record (key value : String) : Tx (Database σ) Exc Unit := do
  let d ← Tx.get
  match d.schemaMeta with
  | none => .raise (.raised "UndefinedTable")
  | some table => .set { d with schemaMeta := some (table.insert key value) }

section
variable {s s' : Session σ}

theorem statement_ok (h : (statement : Code σ Unit).Ok s u s') : s'.database = s.database := by
  rw [Tx.Ok, statement] at h
  split at h
  · rw [← (Prod.mk.inj h).2]
  · rw [← (Prod.mk.inj h).2]
  · cases (Prod.mk.inj h).1

theorem verifyCurrent_ok (h : r.verifyCurrent.Ok s u s') : s'.database = s.database ∧
      ∃ verifier, r.currentSchemaVerifier = some verifier ∧ verifier s.database.schema = .ok () := by
  rw [verifyCurrent] at h
  cases hv : r.currentSchemaVerifier with
  | none =>
    rw [hv] at h
    exact absurd h ok_raise
  | some verifier =>
    rw [hv] at h
    simp only [ok_rules] at h
    obtain ⟨_, s1, h1, _, rfl, hok, rfl⟩ := h
    rw [statement_ok h1] at hok
    exact ⟨statement_ok h1, verifier, rfl, hok⟩

end

/-! ## The metadata -/

variable {s s' : Session σ}

/-- The schema is current: a run finds nothing to apply. -/
structure Current (sha256 : Bytes → String) (r : MigrationRegistry σ) (expected : String)
    (d : Database σ) : Prop where
  meta_ok : ∃ table, d.schemaMeta = some table ∧ table.lookup schemaMetaRevision = some expected ∧
    table.lookup schemaMetaDigest = some (r.digest sha256)
  verified : ∃ verifier, r.currentSchemaVerifier = some verifier ∧ verifier d.schema = .ok ()

variable {d : Database σ}

theorem Current.revision {sha256 : Bytes → String} {expected : String}
    (h : Current sha256 r expected d) : d.revision = some expected := by
  obtain ⟨table, ht, hr, _⟩ := h.meta_ok
  rw [Database.revision, ht, Option.bind_some, hr]

section
variable {sha256 : Bytes → String} {expected : String} {report : MigrationReport}

/-- `source_revision == expected`: nothing is applied. -/
theorem confirm_ok {stored : Option String} (h : (r.confirm sha256 expected stored).Ok s report s') :
    s'.database = s.database ∧ stored = some (r.digest sha256) ∧
      (∃ verifier, r.currentSchemaVerifier = some verifier ∧ verifier s.database.schema = .ok ()) ∧
      report = ⟨some expected, expected, [], true, r.digest sha256⟩ := by
  cases stored with
  | none => exact absurd h ok_raise
  | some =>
    simp only [confirm, ok_bind, ok_read, ok_require, decide_eq_true_eq] at h
    obtain ⟨_, rfl, _, s1, hverify, hpure⟩ := h
    obtain ⟨hd, hv⟩ := verifyCurrent_ok hverify
    obtain ⟨rfl, rfl⟩ := ok_pure.1 hpure
    exact ⟨hd, rfl, hv, rfl⟩

end

section
variable {sha256 : Bytes → String} {runner : MigrationRunner sha256 σ} {expected : String}

end

/-! ## A further run -/

/-- No statement that is still to come raises. -/
def Calm (s : Session σ) : Prop := ∀ fault ∈ s.faults, fault = none

/-- The code returns `a` unless a statement raises, and leaves the database alone. -/
def Answers {α : Type} (x : Code σ α) (s : Session σ) (a : α) : Prop :=
  x.Ends s fun r s' => s'.database = s.database ∧ (Calm s → Calm s') ∧
    (r = .ok a ∨ ¬ Calm s ∧ ∃ e, r = .error e)

section
variable {α β : Type} {s : Session σ}

theorem Answers.bind {x : Code σ α} {f : α → Code σ β} {a : α} {b : β} (hx : Answers x s a)
    (hf : ∀ s', s'.database = s.database → Answers (f a) s' b) : Answers (x >>= f) s b := by
  refine Ends.bind hx ?_ ?_
  · rintro a' s1 ⟨hd, hc, hr | ⟨_, e, he⟩⟩
    · obtain rfl := Except.ok.inj hr
      refine (hf s1 hd).imp fun r s2 h => ⟨h.1.trans hd, fun hs => h.2.1 (hc hs), ?_⟩
      exact h.2.2.imp id fun h => ⟨fun hs => h.1 (hc hs), h.2⟩
    · cases he
  · rintro e s1 ⟨hd, hc, hr | ⟨hn, _⟩⟩
    · cases hr
    · exact ⟨hd, hc, .inr ⟨hn, e, rfl⟩⟩

end

section
variable {sha256 : Bytes → String} {runner : MigrationRunner sha256 σ} {expected : String}

/-- How a transaction ends: its body has returned and was committed, or the database is as it was and
    something was raised. -/
theorem transact_cases {α : Type} (c : Connection) (body : Code σ α) (d : Database σ) :
    (∃ a s', body.Ok ⟨d, c.statements⟩ a s' ∧ (transact c body d).2 = s'.database ∧
      ∀ b, (transact c body d).1 = .ok b → b = a) ∨
    ((∃ e, (transact c body d).1 = .error e) ∧ (transact c body d).2 = d) := by
  rw [transact]
  cases hb : c.begin with
  | some e => exact .inr ⟨⟨e, rfl⟩, rfl⟩
  | none =>
    rcases hbody : body ⟨d, c.statements⟩ with ⟨e | a, s'⟩
    · exact .inr ⟨⟨e, rfl⟩, rfl⟩
    · rcases hc : c.commit with _ | ⟨e, effective⟩
      · exact .inl ⟨a, s', hbody, rfl, fun b h => (Except.ok.inj h).symm⟩
      · cases effective with
        | true => exact .inl ⟨a, s', hbody, rfl, fun b h => nomatch h⟩
        | false => exact .inr ⟨⟨e, rfl⟩, rfl⟩

/-- A connection on which no call raises. -/
def Connection.Sound (c : Connection) : Prop :=
  c.begin = none ∧ (∀ fault ∈ c.statements, fault = none) ∧ c.commit = none

/-- A transaction whose body leaves the database alone does so. -/
theorem Answers.transact {α : Type} {c : Connection} {body : Code σ α} {a : α}
    (h : Answers body ⟨d, c.statements⟩ a) : (transact c body d).2 = d ∧
      (c.Sound → (transact c body d).1 = .ok a) := by
  obtain ⟨hd, _, hr⟩ := h
  refine ⟨?_, fun hc => ?_⟩
  · rcases transact_cases c body d with ⟨b, s', hok, hs, _⟩ | ⟨_, hs⟩
    · rw [hok] at hd
      rw [hs, hd]
    · exact hs
  · rw [Migrations.transact, hc.1, hc.2.2]
    rcases hr with hr | ⟨hn, _⟩
    · have hok : body ⟨d, c.statements⟩ = (.ok a, (body ⟨d, c.statements⟩).2) := Prod.ext hr rfl
      rw [hok]
    · exact absurd hc.2.1 hn

end

end AstralPlane.Migrations
