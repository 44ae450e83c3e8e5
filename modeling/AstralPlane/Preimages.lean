/-
  What the digests are computed from.

  Three byte strings are hashed: the identity under which a request is locked
  (`_advisory_identity`), the manifest of the registered migrations, and the files of a bundle
  (`canonical_bundle_digest`).  Each of them determines what was encoded: the parts of an identity
  carry their lengths, the other two are canonical JSON.
-/
import AstralPlane.Migrations.Upgrade

namespace AstralPlane.Preimages

open Python Migrations List

/-! ## Advisory identities -/

/-- `n.to_bytes(4, "big")`, which raises where four bytes are too few. -/
def toBytes4 (n : ℕ) : Option Bytes :=
  if n < 2 ^ 32 then
    some [UInt8.ofNat (n / 2 ^ 24), UInt8.ofNat (n / 2 ^ 16), UInt8.ofNat (n / 2 ^ 8), UInt8.ofNat n]
  else none

/-- What `_advisory_identity` feeds the hash, given the `str` of each part. -/
def advisoryBytes : List Text → Option Bytes
  | [] => some []
  | part :: parts => do
    let encoded ← encode part
    let size ← toBytes4 encoded.length
    let rest ← advisoryBytes parts
    pure (size ++ (encoded ++ rest))

theorem toBytes4_inj {m n : ℕ} {b b' : Bytes} (h : toBytes4 m = some b) (h' : toBytes4 n = some b') :
    b.length = 4 ∧ (b = b' → m = n) := by
  simp only [toBytes4, Option.ite_none_right_eq_some, Option.some.injEq] at h h'
  obtain ⟨hm, rfl⟩ := h
  obtain ⟨hn, rfl⟩ := h'
  refine ⟨rfl, fun heq => ?_⟩
  simp only [cons.injEq, ← UInt8.toNat_inj, UInt8.toNat_ofNat'] at heq
  omega

theorem advisoryBytes_cons {part : Text} {parts : List Text} {b : Bytes} :
    advisoryBytes (part :: parts) = some b ↔ ∃ encoded, encode part = some encoded ∧
      ∃ size, toBytes4 encoded.length = some size ∧
      ∃ rest, advisoryBytes parts = some rest ∧ size ++ (encoded ++ rest) = b := by
  simp only [advisoryBytes, Option.bind_eq_bind, Option.bind_eq_some_iff, Option.pure_def,
    Option.some.injEq]

/-- The length of a part says where the next one begins. -/
theorem advisoryBytes_inj {parts parts' : List Text} {b : Bytes} (h : advisoryBytes parts = some b)
    (h' : advisoryBytes parts' = some b) : parts = parts' := by
  induction parts generalizing parts' b with
  | nil =>
    cases h
    cases parts' with
    | nil => rfl
    | cons part parts' =>
      obtain ⟨encoded, -, size, hs, rest, -, hb⟩ := advisoryBytes_cons.1 h'
      obtain ⟨rfl, -⟩ := append_eq_nil_iff.1 hb
      cases (toBytes4_inj hs hs).1
  | cons part parts ih =>
    obtain ⟨encoded, he, size, hs, rest, hr, rfl⟩ := advisoryBytes_cons.1 h
    cases parts' with
    | nil =>
      obtain ⟨rfl, -⟩ := append_eq_nil_iff.1 (Option.some.inj h').symm
      cases (toBytes4_inj hs hs).1
    | cons part' parts' =>
      obtain ⟨encoded', he', size', hs', rest', hr', hb⟩ := advisoryBytes_cons.1 h'
      have hlength := (toBytes4_inj hs' hs).1.trans (toBytes4_inj hs hs).1.symm
      obtain ⟨hsize, hb⟩ := append_inj hb hlength
      obtain ⟨rfl, rfl⟩ := append_inj hb ((toBytes4_inj hs' hs).2 hsize)
      rw [encode_inj he he', ih hr hr']

theorem advisoryBytes_isSome {parts : List Text}
    (h : ∀ part ∈ parts, ∃ encoded, encode part = some encoded ∧ encoded.length < 2 ^ 32) :
    (advisoryBytes parts).isSome := by
  induction parts with
  | nil => rfl
  | cons part parts ih =>
    obtain ⟨encoded, he, hlt⟩ := h part mem_cons_self
    obtain ⟨rest, hr⟩ := Option.isSome_iff_exists.1 (ih fun p hp => h p (mem_cons_of_mem _ hp))
    exact Option.isSome_of_eq_some (advisoryBytes_cons.2 ⟨encoded, he, _, if_pos hlt, rest, hr, rfl⟩)

/-! ## Bundles -/

/-- What `canonical_bundle_digest` hashes, for a contract with these file names. -/
def bundleBytes (fileNames : List Text) (files : Text → Text) : Option Bytes :=
  encode (dumps false (.obj (fileNames.map fun name => (name, .str (files name)))))

theorem bundleBytes_inj {fileNames : List Text} (hn : fileNames.Nodup) {files files' : Text → Text}
    {b : Bytes} (h : bundleBytes fileNames files = some b) (h' : bundleBytes fileNames files' = some b) :
    ∀ name ∈ fileNames, files name = files' name := by
  have hkeys : ∀ f : Text → Text, (fileNames.map fun name => (name, Value.str (f name))).map Prod.fst =
      fileNames := fun f => by simp [Function.comp_def]
  have hfields := dumps_obj_inj (by rw [hkeys, hkeys]) (by rwa [hkeys]) (fun _ _ => rfl) (fun _ _ => rfl)
    (encode_inj h h')
  simpa [sortedFields_eq, sorted] using hfields

/-! ## Registries -/

variable {σ : Type} {m : Migration σ} {r r' : MigrationRegistry σ}

/-- What a migration is registered as. -/
def identity (m : Migration σ) : String × String × List (Option String) × String :=
  (m.checksum, m.name, m.sourceRevisions, m.targetRevision)

/-- Checksum, name, sources and target of an entry of the manifest. -/
abbrev Entry := String × String × List String × String

def Entry.value (e : Entry) : Value := manifestEntry e.1 e.2.1 e.2.2.1 e.2.2.2

def entry (m : Migration σ) : Entry :=
  (m.checksum, m.name, m.sourceRevisions.map fun source => source.getD "<empty>", m.targetRevision)

def verifiers (r : MigrationRegistry σ) : List Entry :=
  (r.currentSchemaVerifierChecksum.map fun c => (c, "@current-schema-verifier", [], "@current")).toList ++
  (r.predecessorSchemaVerifierChecksum.map fun c =>
    (c, "@predecessor-schema-verifier", [], "@predecessor")).toList

def ordered (r : MigrationRegistry σ) : List (Migration σ) :=
  r.migrations.mergeSort fun m m' => decide (m.name ≤ m'.name)

theorem manifest_eq : r.manifest = .arr (((ordered r).map entry ++ verifiers r).map Entry.value) := by
  simp [MigrationRegistry.manifest, ordered, verifiers, entry, Entry.value, Function.comp_def,
    Option.toList_map]

theorem Entry.sorted_injective : Function.Injective fun e : Entry => sorted e.value := by
  rintro ⟨c, n, s, t⟩ ⟨c', n', s', t'⟩ h
  have hfields := sorted_obj_inj h rfl (by simp [ofString_injective.eq_iff])
  have hstr : Function.Injective fun source => Value.str (ofString source) :=
    fun _ _ h => ofString_injective (Value.str.inj h)
  simpa [sortedFields, sorted, sortedItems_eq, Function.comp_def, ofString_injective.eq_iff,
    (map_injective_iff.2 hstr).eq_iff] using hfields

theorem Entry.readable (e : Entry) : Readable true (texts e.value) := by
  intro t ht
  have hstring : ∃ s, t = ofString s := by
    simp only [Entry.value, manifestEntry, texts, textsFields, mem_cons, mem_append,
      not_mem_nil, or_false, mem_textsItems, mem_map] at ht
    rcases ht with h | h | h | h | h | ⟨_, ⟨_, -, rfl⟩, h⟩ | h | h
    all_goals first | exact ⟨_, h⟩ | exact ⟨_, mem_singleton.1 h⟩
  obtain ⟨s, rfl⟩ := hstring
  exact wellFormed_ofChars _

/-- The migration that an entry is of: `<empty>` is no revision. -/
def Entry.identity (e : Entry) : String × String × List (Option String) × String :=
  (e.1, e.2.1, e.2.2.1.map fun source => if source = "<empty>" then none else some source, e.2.2.2)

theorem entry_spec (m : Migration σ) :
    isRevision (entry m).2.2.2 ∧ (entry m).identity = identity m := by
  have haccepted := m.accepted
  simp only [validateMigration, validateRevision, ok_rules, forM_eq_ok] at haccepted
  obtain ⟨_, -, _, -, _, hsources, _, -, _, htarget, -⟩ := haccepted
  refine ⟨htarget, ?_⟩
  have hmap : ∀ source ∈ m.sourceRevisions,
      (if source.getD "<empty>" = "<empty>" then none else some (source.getD "<empty>")) = source := by
    intro source hs
    cases source with
    | none => rfl
    | some source =>
      refine if_neg fun hempty => ?_
      have hrevision := hsources _ hs
      simp only [Option.elim_some, ensure_eq_ok] at hrevision
      rw [Option.getD_some] at hempty
      rw [hempty] at hrevision
      exact absurd hrevision (by decide)
  simp only [Entry.identity, identity, entry, map_map, Function.comp_def]
  rw [map_congr_left hmap, map_id']

/-- The order of registration leaves no trace in the manifest. -/
theorem ordered_eq (hr : r.validate = .ok ()) (h : r.migrations.Perm r'.migrations) :
    ordered r = ordered r' := by
  simp only [MigrationRegistry.validate, ok_rules] at hr
  obtain ⟨_, -, _, hregister, -⟩ := hr
  have hp : (ordered r).Perm (ordered r') :=
    (mergeSort_perm _ _).trans (h.trans (mergeSort_perm _ _).symm)
  have hsorted : ∀ r : MigrationRegistry σ, (ordered r).Pairwise fun m m' => m.name ≤ m'.name :=
    fun r => (pairwise_mergeSort (fun _ _ _ => by simpa using le_trans) (fun m m' => by simpa using le_total m.name m'.name)
      r.migrations).imp of_decide_eq_true
  refine hp.eq_of_pairwise (fun m m' hm hm' hle hle' => ?_) (hsorted r) (hsorted r')
  have hnames := pairwise_map.2 ((register_ok hregister).2.imp And.left)
  refine inj_on_of_nodup_map hnames ?_ ?_ (le_antisymm hle hle')
  · exact (mergeSort_perm _ _).mem_iff.1 hm
  · exact h.mem_iff.2 ((mergeSort_perm _ _).mem_iff.1 hm')

/-- What the registry hashes. -/
def registryBytes (r : MigrationRegistry σ) : Bytes := (encode (dumps true r.manifest)).getD []

theorem registryBytes_inj (h : registryBytes r = registryBytes r') :
    (r.migrations.map identity).Perm (r'.migrations.map identity) := by
  have hencode : ∀ r : MigrationRegistry σ, encode (dumps true r.manifest) = some (registryBytes r) := by
    intro r
    obtain ⟨b, hb⟩ := encode_dumps r.manifest
    rw [registryBytes, hb, Option.getD_some]
  have hreadable : ∀ r : MigrationRegistry σ, Readable true (texts r.manifest) := by
    intro r t ht
    rw [manifest_eq, texts, mem_textsItems] at ht
    obtain ⟨v, hv, ht⟩ := ht
    obtain ⟨e, -, rfl⟩ := mem_map.1 hv
    exact e.readable t ht
  have hsorted := dumps_inj (hreadable r) (hreadable r') (encode_inj (hencode r) (h ▸ hencode r'))
  simp only [manifest_eq, sorted, Value.arr.injEq, sortedItems_eq, map_map] at hsorted
  have hentries := map_injective_iff.2 Entry.sorted_injective hsorted
  have hfilter : ∀ r : MigrationRegistry σ, ((ordered r).map entry ++ verifiers r).filter
      (fun e => isRevision e.2.2.2) = (ordered r).map entry := by
    intro r
    rw [filter_append, filter_eq_self.2, filter_eq_nil_iff.2, append_nil]
    · intro e he
      simp only [verifiers, mem_append, Option.mem_toList, Option.map_eq_some_iff] at he
      obtain ⟨_, -, rfl⟩ | ⟨_, -, rfl⟩ := he <;> dsimp only <;> decide
    · intro e he
      obtain ⟨m, -, rfl⟩ := mem_map.1 he
      exact (entry_spec m).1
  have hmigrations := congrArg (List.filter fun e : Entry => isRevision e.2.2.2) hentries
  rw [hfilter, hfilter] at hmigrations
  have hidentity : ∀ l : List (Migration σ), (l.map entry).map Entry.identity = l.map identity := by
    intro l
    rw [map_map]
    exact map_congr_left fun m _ => (entry_spec m).2
  have hperm : ∀ r : MigrationRegistry σ, (r.migrations.map identity).Perm ((ordered r).map identity) :=
    fun r => ((mergeSort_perm _ _).map _).symm
  refine (hperm r).trans (.trans ?_ (hperm r').symm)
  rw [← hidentity, ← hidentity, hmigrations]

/-! ## Digests -/

/-- What the hashed bytes tell, for a hash that tells apart those involved. -/
structure Unambiguous (sha256 : Bytes → String) (involved : Set Bytes) : Prop where
  advisory (parts parts' : List Text) (b : Bytes) : advisoryBytes parts = some b →
    advisoryBytes parts' = some b → parts = parts'
  fed (parts : List Text) : (∀ part ∈ parts, ∃ encoded, encode part = some encoded ∧
    encoded.length < 2 ^ 32) → (advisoryBytes parts).isSome
  permuted {σ : Type} (r r' : MigrationRegistry σ) : r.validate = .ok () →
    r.migrations.Perm r'.migrations →
    r.currentSchemaVerifierChecksum = r'.currentSchemaVerifierChecksum →
    r.predecessorSchemaVerifierChecksum = r'.predecessorSchemaVerifierChecksum →
    r.digest sha256 = r'.digest sha256
  registry {σ : Type} (r r' : MigrationRegistry σ) : registryBytes r ∈ involved →
    registryBytes r' ∈ involved → r.digest sha256 = r'.digest sha256 →
    (r.migrations.map identity).Perm (r'.migrations.map identity)
  bundle (fileNames : List Text) (files files' : Text → Text) (b b' : Bytes) : fileNames.Nodup →
    bundleBytes fileNames files = some b → bundleBytes fileNames files' = some b' →
    b ∈ involved → b' ∈ involved → sha256 b = sha256 b' → ∀ name ∈ fileNames, files name = files' name

theorem digest_preimages {sha256 : Bytes → String} {involved : Set Bytes}
    (h : Set.InjOn sha256 involved) : Unambiguous sha256 involved where
  advisory _ _ _ := advisoryBytes_inj
  fed _ := advisoryBytes_isSome
  permuted r r' hr hperm hcurrent hpredecessor := by
    rw [MigrationRegistry.digest, MigrationRegistry.digest, manifest_eq, manifest_eq,
      ordered_eq hr hperm, verifiers, verifiers, hcurrent, hpredecessor]
  registry _ _ hr hr' heq := registryBytes_inj (h hr hr' heq)
  bundle _ _ _ _ _ hn hb hb' hi hi' heq := bundleBytes_inj hn hb (h hi hi' heq ▸ hb')

-- A hash that writes each byte as a character tells all bytes apart.
theorem digest_preimages_bytes :
    Unambiguous (fun b => String.ofList (b.map Char.ofUInt8)) Set.univ := by
  refine digest_preimages fun a _ b _ h => ?_
  refine map_injective_iff.2 (fun m n hmn => ?_) (String.ofList_inj.1 h)
  have hval : m.toUInt32 = n.toUInt32 := congrArg Char.val hmn
  simpa [← UInt8.toNat_inj, ← UInt32.toNat_inj] using hval

end AstralPlane.Preimages
