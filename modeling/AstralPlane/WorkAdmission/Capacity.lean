/-
  Capacity over runs that also change the configuration.

  * `Action`: a call of the repository, `configure`, or `bind_configs`;
  * `voice_capacity`: no user ever has more running voice operations than the
    limit, since voice operations are never queued and every submission counts
    the ones that run;
  * `admission_within_limits`: an operation that starts to run leaves every class
    of its chain within its limit, provided that the operations which run in the
    class hold slots within the limit (`Housed`).  A lowered limit keeps the slots
    above it that are occupied, and `_select_free_slots` does not look at those
    (`lowered_limit_exceeded`).
-/
import AstralPlane.WorkAdmission.Coherence

namespace AstralPlane.WorkAdmission

open Tx List

variable {s s' : Store} {r r' : OperationRecord} {request : OperationRequest}

/-! ## Runs -/

/-- A transaction of the repository, or a change of its configuration. -/
inductive Action
  | call (method : Call)
  | configure (configs : List AdmissionClassConfig)
  | bindConfigs (configs : List AdmissionClassConfig)

def Action.commit : Action → Store → Store
  | .call method, s => method.commit s
  | .configure configs, s => (WorkAdmission.configure configs).commit s
  | .bindConfigs configs, s => (WorkAdmission.bindConfigs configs).commit s

def Store.act (s : Store) (actions : List Action) : Store := AstralPlane.run Action.commit actions s

/-- Distinct operations, and distinct slots with positive numbers. -/
structure Tidy (s : Store) : Prop where
  keyed : Keyed s
  keys : (s.slots.map SlotRow.key).Nodup
  positive : ∀ r ∈ s.slots, 0 < r.slotNumber

theorem Tidy.evolves (h : Tidy s) (he : Evolves s s') : Tidy s' :=
  ⟨he.keyed, h.keys.sublist he.slots, he.positive h.positive⟩

theorem Tidy.configureAll (order : List AdmissionClassConfig) (h : Tidy s) :
    Tidy (order.foldl configureClass s) := by
  induction order generalizing s with
  | nil => exact h
  | cons config order ih =>
    exact ih ⟨h.keyed, configureClass_keys h.keys config, configureClass_positive h.positive config⟩

theorem commit_validated {checked : Except Error Unit} {write : Store → Store} (s : Store) :
    (ofExcept checked >>= fun _ => Tx.modify write : Work Unit).commit s = write s ∨
      (ofExcept checked >>= fun _ => Tx.modify write : Work Unit).commit s = s := by
  rcases commit_cases (ofExcept checked >>= fun _ => Tx.modify write : Work Unit) s with
    ⟨a, h⟩ | h
  · obtain ⟨_, s1, h1, h2⟩ := ok_bind.1 h
    obtain ⟨-, rfl⟩ := ok_ofExcept.1 h1
    exact .inl (ok_modify.1 h2).symm
  · exact .inr h

/-- A change of the configuration leaves the operations, and keeps the slots in order. -/
theorem reconfigured {action : Action} (h : ∀ call, action ≠ .call call) (s : Store) :
    (action.commit s).operations = s.operations ∧ (Tidy s → Tidy (action.commit s)) := by
  cases action with
  | call call => exact absurd rfl (h call)
  | configure configs =>
    simp only [Action.commit, WorkAdmission.configure]
    rcases commit_validated s with h | h <;> rw [h]
    · exact ⟨(configureAll_keeps _ s).1, Tidy.configureAll _⟩
    · exact ⟨rfl, id⟩
  | bindConfigs configs =>
    simp only [Action.commit, WorkAdmission.bindConfigs]
    rcases commit_validated s with h | h <;> rw [h]
    · exact ⟨rfl, fun ht => ⟨ht.keyed, ht.keys, ht.positive⟩⟩
    · exact ⟨rfl, id⟩

theorem tidy_act (actions : List Action) (h : Tidy s) : Tidy (s.act actions) := by
  refine run_keeps (P := Tidy) (fun action s h => ?_) actions h
  cases action with
  | call call => exact h.evolves (commit_evolves call h.keyed)
  | configure configs | bindConfigs configs => exact (reconfigured (fun _ h => by cases h) s).2 h

theorem Vacant.tidy (h : Vacant s) : Tidy s := ⟨h.keyed, h.keys, h.positive⟩

/-- The rows of `s'` that are counted are rows of `s` that are counted, but for `extra`. -/
theorem countP_le_of_ids {p : OperationRecord → Bool} (hk : Keyed s') (extra : List Uuid)
    (h : ∀ r' ∈ s'.operations, p r' → r'.operationId ∈ extra ∨
      ∃ r ∈ s.operations, p r ∧ r.operationId = r'.operationId) :
    s'.operations.countP p ≤ s.operations.countP p + extra.length := by
  have hnd : ((s'.operations.filter p).map (·.operationId)).Nodup :=
    hk.sublist (filter_sublist.map _)
  have hsub : (s'.operations.filter p).map (·.operationId) ⊆
      (s.operations.filter p).map (·.operationId) ++ extra := by
    intro id hid
    obtain ⟨r', hr', rfl⟩ := mem_map.1 hid
    obtain ⟨hr', hp⟩ := mem_filter.1 hr'
    rcases h r' hr' hp with hx | ⟨r, hr, hpr, heq⟩
    · exact mem_append_right _ hx
    · exact mem_append_left _ (mem_map.2 ⟨r, mem_filter.2 ⟨hr, hpr⟩, heq⟩)
  have hle := (subperm_of_subset hnd hsub).length_le
  rwa [length_append, length_map, length_map, ← countP_eq_length_filter,
    ← countP_eq_length_filter] at hle

/-! ## Voice operations -/

/-- Voice operations belong to users and never wait, and few of them run. -/
structure VoiceBounded (s : Store) : Prop where
  keyed : Keyed s
  voice : ∀ r ∈ s.operations, r.admissionClass = .voiceInteractive →
    r.ownerScope = .user ∧ r.state ≠ .queued
  bounded : ∀ user, voiceRunning s user ≤ voiceInteractivePerUserActiveLimit

theorem VoiceBounded.of_empty (h : s.operations = []) : VoiceBounded s where
  keyed := by rw [Keyed, h]; exact nodup_nil
  voice r hr := by rw [h] at hr; cases hr
  bounded user := by rw [voiceRunning, h]; exact Nat.zero_le _

theorem VoiceBounded.of_operations (h : VoiceBounded s) (ho : s'.operations = s.operations) :
    VoiceBounded s' where
  keyed := by rw [Keyed, ho]; exact h.keyed
  voice := by rw [ho]; exact h.voice
  bounded user := by rw [voiceRunning, ho]; exact h.bounded user

theorem card_owner (h : r'.card = r.card) :
    r'.admissionClass = r.admissionClass ∧ r'.ownerScope = r.ownerScope ∧
      (r.ownerScope = .user → r'.ownerUserId = r.ownerUserId) := by
  have hp : r'.partition = r.partition := congrArg Card.partition h
  refine ⟨congrArg Card.admissionClass h, ?_⟩
  unfold OperationRecord.partition ownerPartition at hp
  cases hs : r.ownerScope <;> cases hs' : r'.ownerScope <;> simp_all

theorem VoiceBounded.subsides (h : VoiceBounded s) (hs : Subsides s s') : VoiceBounded s' := by
  have hrow : ∀ r' ∈ s'.operations, ∃ r ∈ s.operations, r'.card = r.card ∧
      (r'.state = .queued → r.state = .queued) ∧
      (r'.state = .running → r.state = .queued ∨ r.state = .running) := by
    intro r' hr'
    obtain ⟨r, hr, hc, hq, hrun⟩ := hs.follows r'.operationId r' (hs.keyed.find.2 ⟨hr', rfl⟩)
    exact ⟨r, mem_of_find hr, hc, hq, fun h => (hrun h).imp_right And.left⟩
  refine ⟨hs.keyed, fun r' hr' hv => ?_, fun user => (countP_le_of_ids hs.keyed [] ?_).trans
    (h.bounded user)⟩
  · obtain ⟨r, hr, hc, hq, -⟩ := hrow r' hr'
    obtain ⟨hclass, hscope, -⟩ := card_owner hc
    obtain ⟨hu, hn⟩ := h.voice r hr (hclass ▸ hv)
    exact ⟨hscope.trans hu, fun hw => hn (hq hw)⟩
  · intro r' hr' hp
    obtain ⟨hv, hscope', huser, hrun'⟩ := of_decide_eq_true hp
    obtain ⟨r, hr, hc, -, hrun⟩ := hrow r' hr'
    obtain ⟨hclass, hscope, hown⟩ := card_owner hc
    obtain ⟨hu, hn⟩ := h.voice r hr (hclass ▸ hv)
    refine .inr ⟨r, hr, decide_eq_true ⟨hclass ▸ hv, hu, (hown hu).symm.trans huser, ?_⟩,
      (congrArg Card.operationId hc).symm⟩
    exact (hrun hrun').resolve_left hn

theorem VoiceBounded.admits (h : VoiceBounded s) (ha : Admits s s' request r) :
    VoiceBounded s' := by
  refine ⟨ha.keyed, fun r' hr' hv => ?_, fun user => ?_⟩
  · rw [ha.operations] at hr'
    rcases mem_append.1 hr' with hr' | hr'
    · exact h.voice r' hr' hv
    · obtain rfl := mem_singleton.1 hr'
      refine ⟨ha.owner.1.trans (request.voice_user (ha.admissionClass ▸ hv)), fun hq => ?_⟩
      -- a voice class that may queue cannot be configured
      obtain ⟨config, hc, hpos⟩ := ha.queued hq
      exact absurd (config.voice_never_waits (hc.trans hv)).1 (Nat.ne_of_gt hpos)
  · rw [voiceRunning, ha.operations, countP_append, countP_singleton]
    split
    · rename_i hp
      obtain ⟨hv, -, hu, hrun⟩ := of_decide_eq_true hp
      have hlt := ha.voice hrun (ha.admissionClass ▸ hv)
      rw [← ha.owner.2, hu] at hlt
      exact hlt
    · exact h.bounded user

theorem VoiceBounded.call (h : VoiceBounded s) (call : Call) : VoiceBounded (call.commit s) := by
  rcases commit_cases (exec call) s with ⟨a, hok⟩ | hok
  · cases hs : call.submission with
    | none => exact h.subsides (exec_subsiding hs _ _ _ hok h.keyed)
    | some =>
      obtain ⟨_, -, hsub⟩ := exec_submission hs hok
      rcases (submitWith_spec h.keyed hsub).1 with ⟨hsub, -⟩ | ⟨s1, r, h1, -, h2⟩
      · exact h.subsides hsub
      · exact (h.subsides h1).admits h2
  · rw [Call.commit, hok]; exact h

/-- **In every run, whatever the configurations, a user has at most the limit of running voice
    operations.** -/
theorem voice_capacity (s₀ : Store) (h₀ : s₀.operations = []) (actions : List Action)
    (user : String) :
    (s₀.act actions).operations.countP (fun r => r.admissionClass = .voiceInteractive ∧
      r.ownerUserId = some user ∧ r.state = .running) ≤ voiceInteractivePerUserActiveLimit := by
  have hb : VoiceBounded (s₀.act actions) := by
    refine run_keeps (P := VoiceBounded) (fun action s h => ?_) actions (.of_empty h₀)
    cases action with
    | call call => exact h.call call
    | configure configs | bindConfigs configs =>
      exact h.of_operations (reconfigured (fun _ h => by cases h) s).1
  refine le_trans (countP_mono_left fun r hr hp => ?_) (hb.bounded (some user))
  obtain ⟨hv, hu, hrun⟩ := of_decide_eq_true hp
  exact decide_eq_true ⟨hv, (hb.voice r hr hv).1, hu, hrun⟩

def submitVoice (n : ℕ) : Action :=
  .call (.submit ⟨fun _ => .ok (), fun _ _ _ _ => .ok ()⟩
    { chatRequest n with
      admissionClass := .voiceInteractive
      not_global := by decide
      voice_user := fun _ => rfl } 0 1000000 1000)

/-- Of three requests two run. -/
theorem voice_capacity_three :
    let s := emptyStore.act [.configure (voiceConfigs 3 (by decide)),
      .bindConfigs (voiceConfigs 3 (by decide)), submitVoice 1, submitVoice 2, submitVoice 3]
    let running := s.operations.countP fun r => r.admissionClass = .voiceInteractive ∧
      r.ownerUserId = some "ada" ∧ r.state = .running
    running = 2 ∧ running ≤ voiceInteractivePerUserActiveLimit :=
  ⟨by decide +kernel, voice_capacity emptyStore rfl _ "ada"⟩

/-! ## Limits that change -/

/-- The operations that run in a class hold slots of it within the limit. -/
def Housed (s : Store) (config : AdmissionClassConfig) : Prop :=
  ∀ r ∈ s.operations, runsIn s.configs config.className r → ∃ slot ∈ s.slots,
    slot.className = config.className ∧ slot.slotNumber ≤ config.activeLimit ∧
      slot.operationId = some r.operationId

/-- Every class in the chain of `r` runs at most as many operations as it may. -/
def WithinLimits (s : Store) (r : OperationRecord) : Prop :=
  ∃ members, chainOf s.configs r.admissionClass = .ok members ∧
    ∀ c ∈ members, ∃ config, configOf s.configs c = some config ∧
      s.operations.countP (runsIn s.configs c) ≤ config.activeLimit

def Call.admits (call : Call) : Prop := call.submission.isSome ∨ call.claimTimes.isSome

/-- The row runs in `s'` and did not in `s`. -/
structure Starts (s s' : Store) (r : OperationRecord) : Prop where
  mem : r ∈ s'.operations
  running : r.state = .running
  idle : ∀ r₀ ∈ s.operations, r₀.operationId = r.operationId → r₀.state ≠ .running

/-- A live row that clearing leaves was there before. -/
theorem Cleared.mem (h : Cleared s s') (hk : Keyed s') (hr : r ∈ s'.operations)
    (hs : r.state.isTerminal = false) : r ∈ s.operations := by
  rcases h r.operationId r (hk.find.2 ⟨hr, rfl⟩) with ht | hr0
  · rw [hs] at ht; cases ht
  · exact mem_of_find hr0

theorem Starts.cleared {s1 : Store} (h : Starts s s' r) (hc : Cleared s s1) (hk : Keyed s1) :
    r ∉ s1.operations :=
  fun hr => h.idle r (hc.mem hk hr (by rw [h.running]; rfl)) rfl h.running

theorem Housed.cleared {config : AdmissionClassConfig} (h : Housed s config) (hs : Subsides s s')
    (hc : Cleared s s') : Housed s' config := by
  intro r hr hruns
  rw [hs.configs] at hruns
  have hrun : r.state = .running := by
    unfold runsIn at hruns
    split at hruns
    · exact (of_decide_eq_true hruns).1
    · cases hruns
  have hrow := hs.keyed.find.2 ⟨hr, rfl⟩
  obtain ⟨slot, hslot, hclass, hle, hid⟩ := h r (hc.mem hs.keyed hr (by rw [hrun]; rfl)) hruns
  rcases hc r.operationId r hrow with ht | hrow0
  · rw [hrun] at ht; cases ht
  obtain ⟨r0, hr0, -, -, hfollows⟩ := hs.follows r.operationId r hrow
  obtain rfl : r = r0 := Option.some.inj (hrow0.symm.trans hr0)
  rcases hfollows hrun with hq | ⟨-, hheld⟩
  · rw [hrun] at hq; cases hq
  -- the keys of its slots are the same
  have hkey : slot.key ∈ (s'.view r.operationId).held.map SlotRow.key := by
    rw [hheld]
    exact Multiset.mem_map_of_mem _ (Multiset.mem_coe.2 (mem_filter.2 ⟨hslot, by simp [hid]⟩))
  obtain ⟨slot', hslot', hkey⟩ := Multiset.mem_map.1 hkey
  obtain ⟨hmem, hid'⟩ := mem_filter.1 (Multiset.mem_coe.1 hslot')
  obtain ⟨hclass', hnumber⟩ := Prod.mk.inj hkey
  exact ⟨slot', hmem, hclass'.trans hclass, hnumber.trans_le hle, of_decide_eq_true hid'⟩

theorem within_of_room {members : List AdmissionClass} (ht : Tidy s)
    (hm : chainOf s.configs r.admissionClass = .ok members) (hroom : Room s members)
    (hhoused : ∀ config ∈ s.configs, config.className ∈ members → Housed s config) (hk : Keyed s')
    (hconfigs : s'.configs = s.configs)
    (hothers : ∀ r' ∈ s'.operations, r'.operationId = r.operationId ∨ r' ∈ s.operations) :
    WithinLimits s' r := by
  refine ⟨members, by rw [hconfigs]; exact hm, fun c hc => ?_⟩
  obtain ⟨config, hconfig, slot, hslot, hfree⟩ := hroom c hc
  obtain ⟨hmem, rfl⟩ := configOf_mem hconfig
  refine ⟨config, by rw [hconfigs]; exact hconfig, ?_⟩
  have hle := holders_le ht.keyed ht.keys ht.positive (hhoused config hmem hc)
  have hpos : 0 < s.slots.countP fun slot => slot.className = config.className ∧
      slot.slotNumber ≤ config.activeLimit ∧ slot.operationId = none :=
    countP_pos_iff.2 ⟨slot, hslot, decide_eq_true hfree⟩
  have hcount : s'.operations.countP (runsIn s'.configs config.className) ≤
      s.operations.countP (runsIn s.configs config.className) + 1 := by
    rw [hconfigs]
    refine countP_le_of_ids hk [r.operationId] fun r' hr' hp => ?_
    exact (hothers r' hr').imp mem_singleton.2 fun h => ⟨r', h, hp, rfl⟩
  omega

/-- A row that a claim adds is the head of its queue, which starts to run while the others stay. -/
theorem Picked.started {s1 : Store} {now slotLease : Time} {result : Option OperationClaim}
    {locked : Locked} (hk : Keyed s1) (h : Picked s1 s' locked now slotLease result)
    (hr' : r' ∈ s'.operations) (hnew : r' ∉ s1.operations) :
    ∃ r token members, queueHead (s1.unlocked locked) r.admissionClass = some r ∧
      r' = r.start token now ∧ chainOf s1.configs r.admissionClass = .ok members ∧
      Room s1 members ∧ ∀ o ∈ s'.operations, o = r' ∨ o ∈ s1.operations := by
  cases h with
  | nothing _ h => subst h; exact absurd hr' hnew
  | preselected hr hp h =>
    obtain ⟨claim, -, ho⟩ := claimPreselected_spec h
    rw [ho.store] at hr'
    exact absurd hr' hnew
  | @queued r _ hr h =>
    obtain ⟨hmem, -, hq⟩ := mem_queueHead hr
    have hmem := mem_of_mem_filter hmem
    rcases claimQueued_spec hk (hk.find.2 ⟨hmem, rfl⟩) hq rfl h with
      ⟨-, rfl⟩ | ⟨claim, s2, selected, -, hroom, htaken⟩
    · exact absurd hr' hnew
    -- only the row of the head is updated
    have hrow : ∀ o ∈ s'.operations, o = r.start (s1.uuid4 s2.draws) now ∨ o ∈ s1.operations := by
      intro o ho
      rw [congrArg Store.operations htaken.store] at ho
      rcases mem_updateWhere.1 ho with ⟨o0, ho0, hp, rfl⟩ | ⟨ho, -⟩
      · exact .inl (by rw [eq_of_key_eq hk ho0 hmem (of_decide_eq_true hp).1])
      · exact .inr ho
    obtain rfl := (hrow r' hr').resolve_right hnew
    exact ⟨r, _, _, hr, rfl, htaken.chain, hroom, hrow⟩

/-- **A submission or a claim lets an operation run only within the limits**, in every run of
    transactions and changes of the configuration, provided that what runs in the classes of its
    chain is within their limits already. -/
theorem admission_within_limits (s₀ : Store) (h₀ : Tidy s₀) (actions : List Action) (call : Call)
    (hcall : call.admits) (r : OperationRecord)
    (hr : Starts (s₀.act actions) (call.commit (s₀.act actions)) r)
    (hhoused : ∀ members, chainOf (s₀.act actions).configs r.admissionClass = .ok members →
      ∀ config ∈ (s₀.act actions).configs, config.className ∈ members →
        Housed (s₀.act actions) config) :
    WithinLimits (call.commit (s₀.act actions)) r := by
  have ht := tidy_act actions h₀
  generalize s₀.act actions = s at hr hhoused ht ⊢
  have hcleared : ∀ {s₁ : Store}, Subsides s s₁ → Cleared s s₁ → ∀ members,
      chainOf s₁.configs r.admissionClass = .ok members →
        ∀ config ∈ s₁.configs, config.className ∈ members → Housed s₁ config := by
    intro s₁ hs hc members hm config hmem hin
    rw [hs.configs] at hm hmem
    exact (hhoused members hm config hmem hin).cleared hs hc
  rcases commit_cases (exec call) s with ⟨a, hok⟩ | hok
  · change (exec call).Ok s a (call.commit s) at hok
    rcases hcall with hsub | hclaim
    · obtain ⟨_, hargs⟩ := Option.isSome_iff_exists.1 hsub
      obtain ⟨_, -, hsub⟩ := exec_submission hargs hok
      rcases (submitWith_spec ht.keyed hsub).1 with ⟨hs, hc⟩ | ⟨s₁, r', hs, hc, hadds⟩
      · exact absurd hr.mem (hr.cleared hc hs.keyed)
      · have hmem := hr.mem
        rw [hadds.operations] at hmem
        obtain rfl := mem_singleton.1 ((mem_append.1 hmem).resolve_left (hr.cleared hc hs.keyed))
        obtain ⟨members, hm, hroom⟩ := hadds.room hr.running
        refine within_of_room (ht.evolves hs.toEvolves) hm hroom (hcleared hs hc members hm)
          hadds.keyed hadds.configs fun o ho => ?_
        rw [hadds.operations] at ho
        rcases mem_append.1 ho with ho | ho
        · exact .inr ho
        · exact .inl (by rw [mem_singleton.1 ho])
    · obtain ⟨⟨now, slotLease⟩, hargs⟩ := Option.isSome_iff_exists.1 hclaim
      obtain ⟨s₁, result, -, hs, hc, hpicked⟩ := exec_picked ht.keyed hargs hok
      have hclaimed := (hpicked.claimed hs.keyed).subsides hs.keyed
      obtain ⟨_, _, _, -, rfl, hchain, hroom, hrow⟩ :=
        hpicked.started hs.keyed hr.mem (hr.cleared hc hs.keyed)
      refine within_of_room (ht.evolves hs.toEvolves) hchain hroom (hcleared hs hc _ hchain)
        hclaimed.keyed hclaimed.configs fun o ho => ?_
      rcases hrow o ho with rfl | ho
      · exact .inl rfl
      · exact .inr ho
  · rw [Call.commit, hok] at hr
    exact absurd hr.running (hr.idle r hr.mem rfl)

theorem tidy_emptyStore : Tidy emptyStore := vacant_emptyStore.tidy

/-- The limit is lowered from three to two while a request runs; the second one runs within it. -/
theorem admission_within_limits_first :
    let s := emptyStore.act [.configure (interactiveLimit 3 (by decide)),
      .bindConfigs (interactiveLimit 3 (by decide)), .call (submitChat 1 0),
      .configure (interactiveLimit 2 (by decide)), .bindConfigs (interactiveLimit 2 (by decide))]
    ∃ r, Starts s ((submitChat 2 1).commit s) r ∧ WithinLimits ((submitChat 2 1).commit s) r := by
  intro s
  have hstarts : ∃ r ∈ ((submitChat 2 1).commit s).operations, r.admissionClass = .interactive ∧
      r.state = .running ∧ ∀ r₀ ∈ s.operations, r₀.operationId = r.operationId →
        r₀.state ≠ .running := by decide +kernel
  obtain ⟨r, hmem, hclass, hrun, hidle⟩ := hstarts
  have hhoused : ∀ config ∈ s.configs, ∀ r ∈ s.operations,
      runsIn s.configs config.className r → ∃ slot ∈ s.slots,
        slot.className = config.className ∧ slot.slotNumber ≤ config.activeLimit ∧
          slot.operationId = some r.operationId := by decide +kernel
  exact ⟨r, ⟨hmem, hrun, hidle⟩, admission_within_limits emptyStore tidy_emptyStore _ (submitChat 2 1)
    (.inl rfl) r ⟨hmem, hrun, hidle⟩ fun _ _ config hc _ => hhoused config hc⟩

/-- Two requests run, and then the limit is lowered to one. -/
def lowered : List Action :=
  [.configure (interactiveLimit 2 (by decide)), .bindConfigs (interactiveLimit 2 (by decide)),
    .call (submitChat 1 0), .call (submitChat 2 1),
    .configure (interactiveLimit 1 (by decide)), .bindConfigs (interactiveLimit 1 (by decide))]

/-- The first request ends and a third one is submitted: it takes the slot within the limit, beside
    the second request in the slot above it. -/
theorem lowered_limit_exceeded :
    let s := emptyStore.act (lowered ++ [.call (cancelFirst 2)])
    let s' := (submitChat 3 3).commit s
    ∃ r, Starts s s' r ∧ ¬ WithinLimits s' r := by
  intro s s'
  have hstarts : ∃ r ∈ s'.operations, r.admissionClass = .interactive ∧ r.state = .running ∧
      ∀ r₀ ∈ s.operations, r₀.operationId = r.operationId → r₀.state ≠ .running := by
    decide +kernel
  have hchain : chainOf s'.configs .interactive = .ok [.global, .interactive] := by decide +kernel
  have hlimit : (configOf s'.configs .interactive).map (·.activeLimit) = some 1 := by decide +kernel
  have hcount : s'.operations.countP (runsIn s'.configs .interactive) = 2 := by decide +kernel
  obtain ⟨r, hmem, hclass, hrun, hidle⟩ := hstarts
  refine ⟨r, ⟨hmem, hrun, hidle⟩, ?_⟩
  rintro ⟨members, hm, hwithin⟩
  rw [hclass, hchain] at hm
  cases hm
  obtain ⟨config, hconfig, hle⟩ := hwithin .interactive (by decide)
  rw [hconfig] at hlimit
  have hone : config.activeLimit = 1 := Option.some.inj hlimit
  omega

end AstralPlane.WorkAdmission
