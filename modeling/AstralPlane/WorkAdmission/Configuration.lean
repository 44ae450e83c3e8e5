/-
  The configured store.

  A validated graph, installed on a store with free slots and no operations
  (`Vacant`), leaves every class with slots numbered within its active limit
  (`install_spec`).
-/
import AstralPlane.WorkAdmission.ClassOrder

namespace AstralPlane.WorkAdmission

open List

variable {s : Store} {configs : List AdmissionClassConfig} {config : AdmissionClassConfig}

/-! ## The configured store -/

/-- Free slots and no operations, under the constraints of the slot table. -/
structure Vacant (s : Store) : Prop where
  operations : s.operations = []
  free : ∀ r ∈ s.slots, r.operationId = none
  keys : (s.slots.map SlotRow.key).Nodup
  positive : ∀ r ∈ s.slots, 0 < r.slotNumber

/-- The slots of a class are numbered within its limit. -/
def Within (config : AdmissionClassConfig) (s : Store) : Prop :=
  ∀ r ∈ s.slots, r.className = config.className → r.slotNumber ≤ config.activeLimit

/-- The slot numbers that `configure` adds to a class. -/
def missingSlots (s : Store) (config : AdmissionClassConfig) : List ℕ :=
  (List.range' 1 config.activeLimit).filter fun n =>
    ¬ s.slots.any fun r => r.className = config.className ∧ r.slotNumber = n

theorem mem_missingSlots {n : ℕ} (h : n ∈ missingSlots s config) :
    0 < n ∧ n ≤ config.activeLimit ∧ (config.className, n) ∉ s.slots.map SlotRow.key := by
  obtain ⟨hr, hn⟩ := mem_filter.1 h
  rw [mem_range'_1] at hr
  refine ⟨hr.1, by omega, fun hk => ?_⟩
  obtain ⟨r, hrs, hk⟩ := mem_map.1 hk
  simp only [SlotRow.key, Prod.mk.injEq] at hk
  simp only [any_eq_true, decide_eq_true_eq, not_exists, not_and] at hn
  exact hn r hrs hk.1 hk.2

theorem mem_configureClass {r : SlotRow} (h : r ∈ (configureClass s config).slots) :
    (r ∈ s.slots ∨ ∃ n ∈ missingSlots s config, r = { className := config.className, slotNumber := n }) ∧
      (r.className = config.className → r.operationId = none → r.slotNumber ≤ config.activeLimit) := by
  obtain ⟨hm, hk⟩ := mem_filter.1 h
  refine ⟨?_, fun hc hf => ?_⟩
  · rcases mem_append.1 hm with hm | hm
    · exact .inl hm
    · obtain ⟨n, hn, rfl⟩ := mem_map.1 hm
      exact .inr ⟨n, hn, rfl⟩
  · have hk' := of_decide_eq_true hk
    by_contra hlt
    exact hk' ⟨hc, by omega, hf⟩

/-- A missing number is the number of no slot that is there. -/
theorem configureClass_keys (h : (s.slots.map SlotRow.key).Nodup) (config : AdmissionClassConfig) :
    ((configureClass s config).slots.map SlotRow.key).Nodup := by
  refine Nodup.sublist (filter_sublist.map _) ?_
  rw [map_append, map_map]
  refine Nodup.append h ?_ ?_
  · refine Nodup.map ?_ ((nodup_range' _).filter _)
    intro a b hab
    exact (Prod.mk.inj hab).2
  · intro k hk hk'
    obtain ⟨n, hn, rfl⟩ := mem_map.1 hk'
    exact (mem_missingSlots hn).2.2 hk

theorem configureClass_positive (h : ∀ r ∈ s.slots, 0 < r.slotNumber)
    (config : AdmissionClassConfig) : ∀ r ∈ (configureClass s config).slots, 0 < r.slotNumber := by
  intro r hr
  rcases (mem_configureClass hr).1 with hr | ⟨n, hn, rfl⟩
  · exact h r hr
  · exact (mem_missingSlots hn).1

theorem Vacant.configured (h : Vacant s) (config : AdmissionClassConfig) :
    Vacant (configureClass s config) ∧ Within config (configureClass s config) := by
  have hfree : ∀ r ∈ (configureClass s config).slots, r.operationId = none := by
    intro r hr
    rcases (mem_configureClass hr).1 with hr | ⟨n, -, rfl⟩
    · exact h.free r hr
    · rfl
  exact ⟨⟨h.operations, hfree, configureClass_keys h.keys config,
    configureClass_positive h.positive config⟩,
    fun r hr hc => (mem_configureClass hr).2 hc (hfree r hr)⟩

theorem Within.configured {config' : AdmissionClassConfig} (h : Within config s)
    (hne : config'.className = config.className → config' = config) :
    Within config (configureClass s config') := by
  intro r hr hc
  rcases (mem_configureClass hr).1 with hr | ⟨n, hn, rfl⟩
  · exact h r hr hc
  · obtain rfl := hne hc
    exact (mem_missingSlots hn).2.1

theorem configureAll (hn : ∀ a ∈ configs, ∀ b ∈ configs, a.className = b.className → a = b) :
    ∀ {order : List AdmissionClassConfig}, order ⊆ configs →
      ∀ {s : Store}, Vacant s → Vacant (order.foldl configureClass s) ∧
        ∀ config ∈ configs, (config ∈ order ∨ Within config s) →
          Within config (order.foldl configureClass s)
  | [], _, s, hs => ⟨hs, fun config _ h => h.resolve_left not_mem_nil⟩
  | a :: order, ho, s, hs => by
    obtain ⟨hs', hw⟩ := hs.configured a
    obtain ⟨hv', hall⟩ := configureAll hn (subset_of_cons_subset ho) hs'
    have ha := ho mem_cons_self
    refine ⟨hv', fun config hc h => hall config hc ?_⟩
    rcases h with h | h
    · rcases mem_cons.1 h with rfl | h
      · exact .inr hw
      · exact .inl h
    · exact .inr (h.configured fun he => hn a ha config hc he)

/-- The store with a configuration installed by `configure` and published by `bind_configs`. -/
def install (configs : List AdmissionClassConfig) (s : Store) : Store :=
  (bindConfigs configs).commit ((configure configs).commit s)

theorem install_eq (hv : validateAdmissionGraph configs = .ok ()) (s : Store) : install configs s =
      { (configurationOrder configs).foldl configureClass s with configs := configs } := by
  have hconf : (configure configs).commit s = (configurationOrder configs).foldl configureClass s :=
    Tx.commit_ok (a := ()) (by simp [configure, hv])
  rw [install, hconf]
  exact Tx.commit_ok (a := ()) (by simp [bindConfigs, hv])

theorem install_spec (hv : validateAdmissionGraph configs = .ok ()) (h : Vacant s) :
    (install configs s).configs = configs ∧ Vacant (install configs s) ∧
      ∀ config ∈ configs, Within config (install configs s) := by
  obtain ⟨-, hproper⟩ := validate_eq_ok.1 hv
  have hinj : ∀ a ∈ configs, ∀ b ∈ configs, a.className = b.className → a = b :=
    fun a ha b hb he => eq_of_key_eq hproper.names ha hb he
  obtain ⟨hfirst, hall, -⟩ := configurationOrder_spec hproper
  obtain ⟨hvac, hwithin⟩ := configureAll hinj hfirst.subset h
  rw [install_eq hv]
  refine ⟨rfl, ⟨hvac.operations, hvac.free, hvac.keys, hvac.positive⟩, fun config hc => ?_⟩
  exact hwithin config hc (.inl (hall hc))

theorem configureAll_keeps (l : List AdmissionClassConfig) (s : Store) :
    (l.foldl configureClass s).operations = s.operations ∧
      (l.foldl configureClass s).submissions = s.submissions ∧
      (l.foldl configureClass s).uuid4 = s.uuid4 := by
  induction l generalizing s with
  | nil => exact ⟨rfl, rfl, rfl⟩
  | cons config l ih => exact ih (configureClass s config)

theorem install_uuid4 (hv : validateAdmissionGraph configs = .ok ()) (s : Store) :
    (install configs s).uuid4 = s.uuid4 := by
  rw [install_eq hv]
  exact (configureAll_keeps _ s).2.2

/-! ## A small deployment -/

/-- An empty database, before any configuration. -/
def emptyStore : Store :=
  { configs := [], classes := [], slots := [], operations := [], submissions := [], captures := [],
    bindings := [], uuid4 := fun n => ⟨n⟩, draws := 0 }

theorem vacant_emptyStore : Vacant emptyStore := by
  constructor <;> simp [emptyStore]

def chatRequest (n : ℕ) : OperationRequest :=
  { operationKind := "chat", admissionClass := .interactive,
    owner := { ownerScope := .user, ownerUserId := some "ada", connectionScopeId := none },
    submissionId := ⟨n⟩, idempotencyNamespace := none, idempotencyKey := none,
    normalizedInputDigest := none, chatId := none, parentOperationId := none,
    connectionGeneration := none, requestGeneration := none }

/-- A submission without harness preferences. -/
def submitChat (n : ℕ) (now : Time) : Call :=
  .submit ⟨fun _ => .ok (), fun _ _ _ _ => .ok ()⟩ (chatRequest n) now 1000000 1000

/-- The user cancels the operation of the first request. -/
def cancelFirst (now : Time) : Call :=
  .cancel (chatRequest 1).owner ⟨0⟩ "cancelled_by_owner" now 1000000 true

end AstralPlane.WorkAdmission
