/-
  The order of the admission classes.

  `_validate_admission_graph` accepts a list of at least one class whose parent relation is a
  forest (`Proper`).  Of such a list `_configuration_order` is a permutation with the parents
  first, and `_chain` climbs to the root, so that the rows of a chain are locked root first: what
  two chains share stands in one order in both.
-/
import AstralPlane.WorkAdmission.Evolution

namespace AstralPlane.WorkAdmission

open Relation List

/-! ## Climbing -/

/-- The parent of the class `c` is `p`. -/
def Up (configs : List AdmissionClassConfig) (c p : AdmissionClass) : Prop :=
  (configOf configs c).bind (·.parentClassName) = some p

/-- The classes from `c` up to its root. -/
inductive Climbs (configs : List AdmissionClassConfig) : AdmissionClass → List AdmissionClass → Prop
  | root {c config} : configOf configs c = some config → config.parentClassName = none →
      Climbs configs c [c]
  | parent {c config p up} : configOf configs c = some config → config.parentClassName = some p →
      Climbs configs p up → Climbs configs c (c :: up)

variable {configs ordered : List AdmissionClassConfig} {config : AdmissionClassConfig}
  {c p a : AdmissionClass} {up seen : List AdmissionClass} {fuel : ℕ}

theorem up_of_configOf (hc : configOf configs c = some config) :
    Up configs c p ↔ config.parentClassName = some p := by
  rw [Up, hc, Option.bind_some]

theorem Climbs.climb_eq (h : Climbs configs c up) (hle : up.length ≤ fuel) :
    climb configs fuel c = some up := by
  induction h generalizing fuel with
  | root hc hp =>
    obtain ⟨fuel, rfl⟩ := Nat.exists_eq_add_of_le' hle
    simp [climb, hc, hp]
  | parent hc hp _ ih =>
    obtain ⟨fuel, rfl⟩ := Nat.exists_eq_add_of_le' ((Nat.le_add_left 1 _).trans hle)
    simp [climb, hc, hp, ih (Nat.le_of_succ_le_succ hle)]

theorem acyclicFrom_climbs (h : acyclicFrom configs fuel seen c = .ok ()) :
    ∃ up, Climbs configs c up := by
  induction fuel generalizing seen c with
  | zero => cases h
  | succ fuel ih =>
    rw [acyclicFrom] at h
    split at h
    · cases h
    split at h
    · cases h
    split at h
    · exact ⟨_, .root ‹_› ‹_›⟩
    · obtain ⟨up, hup⟩ := ih h
      exact ⟨_, .parent ‹_› ‹_› hup⟩

theorem Climbs.mem_iff (h : Climbs configs c up) : a ∈ up ↔ ReflTransGen (Up configs) c a := by
  induction h with
  | root hc hp => rw [ReflTransGen.cases_head_iff]; simp [up_of_configOf hc, hp, eq_comm]
  | parent hc hp _ ih => rw [ReflTransGen.cases_head_iff]; simp [up_of_configOf hc, hp, ih, eq_comm]

/-- A class is below all that follow it. -/
theorem Climbs.pairwise (h : Climbs configs c up) : up.Pairwise (TransGen (Up configs)) := by
  induction h with
  | root => exact pairwise_singleton _ _
  | parent hc hp h ih =>
    exact pairwise_cons.2 ⟨fun a ha => .head' ((up_of_configOf hc).2 hp) (h.mem_iff.1 ha), ih⟩

theorem Climbs.acyclic (h : Climbs configs c up) : ¬ TransGen (Up configs) c c := by
  induction h with
  | root hc hp =>
    intro hcycle
    obtain ⟨_, hup, -⟩ := TransGen.head'_iff.1 hcycle
    cases hp.symm.trans ((up_of_configOf hc).1 hup)
  | parent hc hp _ ih =>
    intro hcycle
    obtain ⟨_, hup, hrest⟩ := TransGen.head'_iff.1 hcycle
    cases hp.symm.trans ((up_of_configOf hc).1 hup)
    exact ih (.tail' hrest hup)

/-! ## The graphs that are accepted -/

structure Proper (configs : List AdmissionClassConfig) : Prop where
  names : (configs.map (·.className)).Nodup
  parents : ∀ c p, Up configs c p → p ∈ configs.map (·.className)
  acyclic : ∀ c, ¬ TransGen (Up configs) c c
  voice : ∀ config ∈ configs, config.className = .voiceInteractive →
    config.parentClassName = some .interactive

theorem configOf_mem (h : configOf configs c = some config) : config ∈ configs ∧ config.className = c :=
  ⟨mem_of_find?_eq_some h, by simpa using List.find?_some h⟩

theorem configOf_self (hn : (configs.map (·.className)).Nodup) (hm : config ∈ configs) :
    configOf configs config.className = some config :=
  (find?_key_iff hn).2 ⟨hm, rfl⟩

theorem acyclicFrom_ok (h : Proper configs) (hc : c ∈ configs.map (·.className)) (hnodup : seen.Nodup)
    (hseen : ∀ x ∈ seen, x ∈ configs.map (·.className) ∧ TransGen (Up configs) x c)
    (hfuel : configs.length < fuel + seen.length) : acyclicFrom configs fuel seen c = .ok () := by
  induction fuel generalizing seen c with
  | zero =>
    -- the classes seen are distinct, and there are no more than configured
    have hle := (subperm_of_subset hnodup fun x hx => (hseen x hx).1).length_le
    rw [length_map] at hle
    omega
  | succ fuel ih =>
    have hnew : c ∉ seen := fun hm => h.acyclic c (hseen c hm).2
    obtain ⟨config, hm, rfl⟩ := mem_map.1 hc
    have hconfig := configOf_self h.names hm
    rw [acyclicFrom, if_neg hnew, hconfig]
    cases hp : config.parentClassName with
    | none => simp [hp]
    | some p =>
      simp only [hp]
      have hup := (up_of_configOf hconfig).2 hp
      refine ih (h.parents _ p hup) (nodup_cons.2 ⟨hnew, hnodup⟩) ?_ (by simp; omega)
      rintro x hx
      rcases mem_cons.1 hx with rfl | hx
      · exact ⟨hc, .single hup⟩
      · exact ⟨(hseen x hx).1, (hseen x hx).2.tail hup⟩

theorem validateConfig_eq_ok : validateConfig configs config = .ok () ↔
    (∀ p, config.parentClassName = some p → (configOf configs p).isSome) ∧
      acyclicFrom configs (configs.length + 1) [] config.className = .ok () := by
  unfold validateConfig
  split
  · simp [*]
  · split <;> simp_all [Option.isSome_iff_ne_none]

theorem validate_eq_ok : validateAdmissionGraph configs = .ok () ↔ configs ≠ [] ∧ Proper configs := by
  unfold validateAdmissionGraph
  split
  · simp_all
  split
  · rename_i hnames
    exact ⟨fun h => (by cases h), fun h => absurd h.2.names hnames⟩
  rename_i hne hnames
  rw [not_not] at hnames
  split
  · rename_i hvoice
    refine ⟨fun h => (by cases h), fun h => ?_⟩
    obtain ⟨voice, hv, hparent⟩ := (Option.any_eq_true _ _).1 hvoice
    obtain ⟨hm, hname⟩ := configOf_mem hv
    exact absurd (h.2.voice voice hm hname) (of_decide_eq_true hparent)
  rename_i hvoice
  have hfind : ∀ p, (configOf configs p).isSome ↔ p ∈ configs.map (·.className) := by
    simp [configOf]
  simp only [forM_eq_ok, validateConfig_eq_ok, hfind]
  constructor
  · intro h
    refine ⟨hne, hnames, fun c p hup => ?_, fun c hcycle => ?_, fun config hm hname => ?_⟩
    · obtain ⟨config, hc, hp⟩ := Option.bind_eq_some_iff.1 hup
      exact (h config (configOf_mem hc).1).1 p hp
    · obtain ⟨p, hup, -⟩ := TransGen.head'_iff.1 hcycle
      obtain ⟨config, hc, -⟩ := Option.bind_eq_some_iff.1 hup
      obtain ⟨hm, rfl⟩ := configOf_mem hc
      obtain ⟨up, hclimbs⟩ := acyclicFrom_climbs (h config hm).2
      exact hclimbs.acyclic hcycle
    · by_contra hparent
      exact hvoice ((Option.any_eq_true _ _).2
        ⟨config, hname ▸ configOf_self hnames hm, decide_eq_true hparent⟩)
  · rintro ⟨-, h⟩ config hm
    exact ⟨fun p hp => h.parents _ p ((up_of_configOf (configOf_self hnames hm)).2 hp), acyclicFrom_ok h
      (mem_map_of_mem hm) nodup_nil (fun _ hx => by cases hx) (Nat.lt_succ_self _)⟩

theorem Climbs.nodup (hup : Climbs configs c up) (h : Proper configs) : up.Nodup := by
  refine (hup.pairwise).imp fun {a b} hab heq => ?_
  subst heq
  exact h.acyclic a hab

/-- `_chain` returns, and climbs from a configured class to its root. -/
theorem Proper.chain (h : Proper configs) (hc : c ∈ configs.map (·.className)) :
    ∃ up, Climbs configs c up ∧ up.length ≤ configs.length ∧ chainOf configs c = .ok up.reverse := by
  obtain ⟨up, hup⟩ := acyclicFrom_climbs
    (acyclicFrom_ok h hc nodup_nil (fun _ hx => by cases hx) (Nat.lt_succ_self _))
  have hmem : ∀ a ∈ up, a ∈ configs.map (·.className) := by
    intro a ha
    obtain rfl | ⟨_, -, hp⟩ := (hup.mem_iff.1 ha).cases_tail
    · exact hc
    · exact h.parents _ _ hp
  have hle := (subperm_of_subset (hup.nodup h) hmem).length_le
  rw [length_map] at hle
  obtain ⟨config, hm, rfl⟩ := mem_map.1 hc
  refine ⟨up, hup, hle, ?_⟩
  rw [chainOf, configOf_self h.names hm, hup.climb_eq hle]

/-! ## The order -/

/-- What `ordered` is at any time: classes that are configured, each with its parent before it. -/
structure ParentsFirst (configs ordered : List AdmissionClassConfig) : Prop where
  nodup : ordered.Nodup
  subset : ordered ⊆ configs
  closed : ∀ config ∈ ordered, ∀ p, config.parentClassName = some p →
    ∃ parent ∈ ordered, parent.className = p
  first : ordered.Pairwise fun a b => a.parentClassName ≠ some b.className

theorem ParentsFirst.append (hn : (configs.map (·.className)).Nodup) (h : ParentsFirst configs ordered)
    (hm : config ∈ configs)
    (hp : ∀ p, config.parentClassName = some p → ∃ parent ∈ ordered, parent.className = p) :
    ParentsFirst configs (appendNew ordered config) ∧ config ∈ appendNew ordered config ∧
      ordered ⊆ appendNew ordered config := by
  unfold appendNew
  split
  · exact ⟨h, ‹_›, List.Subset.refl _⟩
  rename_i hnew
  refine ⟨⟨?_, ?_, ?_, ?_⟩, by simp, subset_append_left _ _⟩
  · refine h.nodup.append (nodup_singleton _) ?_
    simpa using hnew
  · exact append_subset.2 ⟨h.subset, by simpa using hm⟩
  · intro a ha p hap
    have hparent : ∃ parent ∈ ordered, parent.className = p := by
      rcases mem_append.1 ha with ha | ha
      · exact h.closed a ha p hap
      · exact hp p (mem_singleton.1 ha ▸ hap)
    obtain ⟨parent, hmem, hname⟩ := hparent
    exact ⟨parent, mem_append_left _ hmem, hname⟩
  · refine pairwise_append.2 ⟨h.first, pairwise_singleton _ _, ?_⟩
    rintro a ha b hb hab
    cases mem_singleton.1 hb
    obtain ⟨parent, hmem, hname⟩ := h.closed a ha _ hab
    exact hnew (eq_of_key_eq hn (h.subset hmem) hm hname ▸ hmem)

/-- `visit` calls itself no more often than there are classes above its own. -/
theorem visit_spec (hn : (configs.map (·.className)).Nodup) (hup : Climbs configs c up)
    (hc : configOf configs c = some config) (hfuel : up.length ≤ fuel) (h : ParentsFirst configs ordered) :
    visit configs fuel ordered config = visit configs up.length ordered config ∧
      ParentsFirst configs (visit configs fuel ordered config) ∧
      config ∈ visit configs fuel ordered config ∧ ordered ⊆ visit configs fuel ordered config := by
  have hm := (configOf_mem hc).1
  induction hup generalizing fuel config with
  | root hc' hp =>
    cases hc.symm.trans hc'
    obtain ⟨fuel, rfl⟩ := Nat.exists_eq_add_of_le' hfuel
    simp only [length_singleton, visit, hp, Option.bind_none, true_and]
    exact h.append hn hm (by simp [hp])
  | @parent c _ p up hc' hp hup ih =>
    cases hc.symm.trans hc'
    obtain ⟨fuel, rfl⟩ := Nat.exists_eq_add_of_le' ((Nat.le_add_left 1 _).trans hfuel)
    obtain ⟨parent, hparent⟩ : ∃ parent, configOf configs p = some parent := by
      cases hup <;> exact ⟨_, ‹_›⟩
    obtain ⟨hmp, hname⟩ := configOf_mem hparent
    obtain ⟨heq, hfirst, hself, hsub⟩ := ih hparent (Nat.le_of_succ_le_succ hfuel) hmp
    simp only [length_cons, visit, hp, Option.bind_some, hparent]
    split
    · exact ⟨rfl, h.append hn hm (by simpa [hp] using ⟨parent, ‹_›, hname⟩)⟩
    · obtain ⟨hfirst', hself', hsub'⟩ := hfirst.append hn hm (by simpa [hp] using ⟨parent, hself, hname⟩)
      exact ⟨by rw [heq], hfirst', hself', List.Subset.trans hsub hsub'⟩

theorem configurationOrder_spec (h : Proper configs) :
    ParentsFirst configs (configurationOrder configs) ∧ configs ⊆ configurationOrder configs ∧
      ∀ n ≥ configs.length, configs.foldl (visit configs n) [] = configurationOrder configs := by
  have hfold : ∀ {l ordered}, l ⊆ configs → ParentsFirst configs ordered →
      ParentsFirst configs (l.foldl (visit configs configs.length) ordered) ∧
        ordered ⊆ l.foldl (visit configs configs.length) ordered ∧
        l ⊆ l.foldl (visit configs configs.length) ordered ∧
        ∀ n ≥ configs.length, l.foldl (visit configs n) ordered =
          l.foldl (visit configs configs.length) ordered := by
    intro l
    induction l with
    | nil => exact fun _ hs => ⟨hs, List.Subset.refl _, nil_subset _, fun _ _ => rfl⟩
    | cons config l ih =>
      intro ordered hl hs
      have hm := hl mem_cons_self
      obtain ⟨up, hup, hle, -⟩ := h.chain (mem_map_of_mem hm)
      have hc := configOf_self h.names hm
      obtain ⟨heq, hfirst, hself, hsub⟩ := visit_spec h.names hup hc hle hs
      obtain ⟨h₁, h₂, h₃, h₄⟩ := ih (subset_of_cons_subset hl) hfirst
      refine ⟨h₁, List.Subset.trans hsub h₂, cons_subset.2 ⟨h₂ hself, h₃⟩, fun n hn => ?_⟩
      rw [foldl_cons, (visit_spec h.names hup hc (hle.trans hn) hs).1, ← heq]
      exact h₄ n hn
  obtain ⟨h₁, -, h₃, h₄⟩ := hfold (List.Subset.refl configs) ⟨nodup_nil, nil_subset _,
    fun _ hm => (by cases hm), Pairwise.nil⟩
  exact ⟨h₁, h₃, h₄⟩

/-! ## What is accepted is ordered -/

/-- What is known of an accepted list. -/
structure ClassOrder (configs : List AdmissionClassConfig) : Prop where
  /-- `_configuration_order` returns: more calls of `visit` than there are classes change nothing. -/
  returns : ∀ n ≥ configs.length, configs.foldl (visit configs n) [] = configurationOrder configs
  order : (configurationOrder configs).Perm configs
  parents : (configurationOrder configs).Pairwise fun a b => a.parentClassName ≠ some b.className
  chain : ∀ c ∈ configs.map (·.className), ∃ l, chainOf configs c = .ok l ∧ l.Nodup ∧
    (∀ a, a ∈ l ↔ ReflTransGen (Up configs) c a) ∧ l.Pairwise fun a b => TransGen (Up configs) b a
  /-- Two transactions that lock chains lock the classes of both in one order. -/
  locks : ∀ c c' l l', chainOf configs c = .ok l → chainOf configs c' = .ok l' →
    ∀ a b, [a, b].Sublist l → ¬ [b, a].Sublist l'

theorem Proper.chainOf_ok (h : Proper configs) {l : List AdmissionClass}
    (hl : chainOf configs c = .ok l) :
    l.Nodup ∧ (∀ a, a ∈ l ↔ ReflTransGen (Up configs) c a) ∧
      l.Pairwise fun a b => TransGen (Up configs) b a := by
  have hc : c ∈ configs.map (·.className) := by
    unfold chainOf at hl
    split at hl
    · cases hl
    · obtain ⟨hm, rfl⟩ := configOf_mem ‹_›
      exact mem_map_of_mem hm
  obtain ⟨up, hup, -, hchain⟩ := h.chain hc
  cases hl.symm.trans hchain
  refine ⟨nodup_reverse.2 (hup.nodup h), fun a => ?_, pairwise_reverse.2 (hup.pairwise)⟩
  rw [mem_reverse, hup.mem_iff]

/-- **The classes are locked in one order**: what the validation accepts, and what follows from it. -/
theorem admission_class_order (configs : List AdmissionClassConfig) :
    (validateAdmissionGraph configs = .ok () ↔ configs ≠ [] ∧ Proper configs) ∧
      (validateAdmissionGraph configs = .ok () → ClassOrder configs) := by
  refine ⟨validate_eq_ok, fun hv => ?_⟩
  obtain ⟨-, h⟩ := validate_eq_ok.1 hv
  obtain ⟨hfirst, hsub, hreturns⟩ := configurationOrder_spec h
  refine ⟨hreturns, ?_, hfirst.first, fun c hc => ?_, fun c c' l l' hl hl' a b hab hba => ?_⟩
  · exact (perm_ext_iff_of_nodup hfirst.nodup (Nodup.of_map _ h.names)).2
      fun config => ⟨fun hm => hfirst.subset hm, fun hm => hsub hm⟩
  · obtain ⟨up, -, -, hchain⟩ := h.chain hc
    exact ⟨_, hchain, h.chainOf_ok hchain⟩
  · -- `a` is above `b` in the one chain, and `b` above `a` in the other
    have hbelow := pairwise_iff_forall_sublist.1 (h.chainOf_ok hl).2.2 hab
    have habove := pairwise_iff_forall_sublist.1 (h.chainOf_ok hl').2.2 hba
    exact h.acyclic a (habove.trans hbelow)

/-- Two classes, each with one slot; INTERACTIVE work may queue. -/
def smallConfigs : List AdmissionClassConfig :=
  [{ className := .global, parentClassName := none, activeLimit := 1, queueLimit := 0,
     maxWaitMs := none, configRevision := "r1", active_pos := Nat.one_pos },
   { className := .interactive, parentClassName := some .global, activeLimit := 1, queueLimit := 4,
     maxWaitMs := some 60000, configRevision := "r1", active_pos := Nat.one_pos }]

theorem admission_class_order_small : ClassOrder smallConfigs :=
  (admission_class_order smallConfigs).2 (by decide)

/-- An empty list has no class that breaks a rule, and is refused all the same. -/
theorem no_class_refused : Proper [] ∧ validateAdmissionGraph [] =
    .error (.configuration "at least one admission class is required") := by
  refine ⟨⟨nodup_nil, ?_, fun c hcycle => ?_, fun _ hm => (by cases hm)⟩, rfl⟩
  · intro c p hup
    cases hup
  · obtain ⟨_, hup, -⟩ := TransGen.head'_iff.1 hcycle
    cases hup

/-- `smallConfigs` with another limit for INTERACTIVE work. -/
def interactiveLimit (limit : ℕ) (h : 1 ≤ limit) : List AdmissionClassConfig :=
  [{ className := .global, parentClassName := none, activeLimit := 2, queueLimit := 0,
     maxWaitMs := none, configRevision := "r1", active_pos := Nat.two_pos },
   { className := .interactive, parentClassName := some .global, activeLimit := limit,
     queueLimit := 0, maxWaitMs := none, configRevision := "r1", active_pos := h }]

/-- Voice work under a class that may run `limit` operations. -/
def voiceConfigs (limit : ℕ) (h : 1 ≤ limit) : List AdmissionClassConfig :=
  [{ className := .interactive, parentClassName := none, activeLimit := limit, queueLimit := 0,
     maxWaitMs := none, configRevision := "r1", active_pos := h },
   { className := .voiceInteractive, parentClassName := some .interactive, activeLimit := limit,
     queueLimit := 0, maxWaitMs := none, configRevision := "r1", active_pos := h }]

/-! ## Waiting -/

/-- `t` has locked `held t` and asks for the next class of its chain, which `t'` has locked. -/
def Waits {τ : Type} (chain held : τ → List AdmissionClass) (t t' : τ) : Prop :=
  ∃ a, held t ++ [a] <+: chain t ∧ a ∈ held t'

/-- **Transactions that lock chains never wait for each other in a circle.** -/
theorem class_locks_no_deadlock (hv : validateAdmissionGraph configs = .ok ()) {τ : Type}
    (chain held : τ → List AdmissionClass) (hchain : ∀ t, ∃ c, chainOf configs c = .ok (chain t))
    (t : τ) : ¬ TransGen (Waits chain held) t t := by
  obtain ⟨-, h⟩ := validate_eq_ok.1 hv
  have hbelow : ∀ {t a b}, held t ++ [b] <+: chain t → a ∈ held t → TransGen (Up configs) b a := by
    intro t a b hb ha
    obtain ⟨c, hc⟩ := hchain t
    exact (pairwise_append.1 ((h.chainOf_ok hc).2.2.sublist hb.sublist)).2.2 a ha b mem_cons_self
  -- whatever `t` waits for, at however many removes, holds a class below the one `t` asks for
  have hholds : ∀ t', TransGen (Waits chain held) t t' → ∃ a, held t ++ [a] <+: chain t ∧
      ∃ b ∈ held t', ReflTransGen (Up configs) b a := by
    intro t' hwaits
    induction hwaits with
    | single hw =>
      obtain ⟨a, ha, hmem⟩ := hw
      exact ⟨a, ha, a, hmem, .refl⟩
    | tail _ hw ih =>
      obtain ⟨a, ha, b, hb, hup⟩ := ih
      obtain ⟨c, hc, hmem⟩ := hw
      exact ⟨a, ha, c, hmem, (hbelow hc hb).to_reflTransGen.trans hup⟩
  intro hcycle
  obtain ⟨a, ha, b, hb, hup⟩ := hholds t hcycle
  exact h.acyclic a ((hbelow ha hb).trans_left hup)

theorem class_locks_no_deadlock_small : ¬ TransGen (Waits
    (fun _ => [AdmissionClass.global, .interactive]) fun t => [.global].take t) 0 0 :=
  class_locks_no_deadlock (show validateAdmissionGraph smallConfigs = _ by decide) _ _
    (fun _ => ⟨.interactive, by decide⟩) 0

end AstralPlane.WorkAdmission
