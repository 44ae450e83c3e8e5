/-
  Slots and operations agree.

  `OpCoherent` is the invariant of one operation: a RUNNING operation holds one
  slot in each class of its chain, any other holds none.  Each step of the
  protocol keeps it (`OpStep.coherent`), so every run does.  `SlotCoherence` is
  the same for the whole store, with the capacity bound that follows from it:
  the slots of a class are numbered within its active limit, and distinct
  operations hold distinct slots (`slots_coherent`).
-/
import AstralPlane.WorkAdmission.Calls
import AstralPlane.WorkAdmission.Configuration

namespace AstralPlane.WorkAdmission

open Relation List

variable {s s' : Store} {configs : List AdmissionClassConfig}

/-! ## One operation -/

/-- A RUNNING operation holds the slots of its chain; any other holds none. -/
structure OpCoherent (configs : List AdmissionClassConfig) (v : View) : Prop where
  absent : v.row = none → v.held = 0
  idle : ∀ r, v.row = some r → r.state ≠ .running → v.held = 0
  running : ∀ r, v.row = some r → r.state = .running →
    ∃ members : List AdmissionClass, chainOf configs r.admissionClass = .ok members ∧
      v.held.map (·.className) = members

theorem OpCoherent.of_idle {row : Option OperationRecord}
    (h : ∀ r, row = some r → r.state ≠ .running) : OpCoherent configs ⟨row, 0⟩ where
  absent _ := rfl
  idle _ _ _ := rfl
  running r hr hs := absurd hs (h r hr)

theorem OpCoherent.of_running {r : OperationRecord} {held : Multiset SlotRow}
    {members : List AdmissionClass} (hs : r.state = .running)
    (hm : chainOf configs r.admissionClass = .ok members)
    (hh : held.map (·.className) = members) : OpCoherent configs ⟨some r, held⟩ where
  absent h := by cases h
  idle r' hr hn := by cases hr; exact absurd hs hn
  running r' hr _ := by cases hr; exact ⟨members, hm, hh⟩

/-- **Each step of the protocol keeps the agreement of slots and operation.** -/
theorem OpStep.coherent {fresh : Uuid → Prop} {id : Uuid} {v v' : View}
    (h : OpStep configs fresh id v v') (hv : OpCoherent configs v) : OpCoherent configs v' := by
  cases h with
  | @enqueue r held hid hf hs hc hn =>
    obtain rfl : held = 0 := hv.absent rfl
    exact .of_idle fun r' hr' => by cases hr'; simp [hs]
  | @start r held new token members hid hf hs hc hn ht hft hm hnew hl =>
    obtain rfl : held = 0 := hv.absent rfl
    rw [Multiset.zero_add]
    exact .of_running hs hm hnew
  | @select r r' held new token members hs hr hc hft hm hnew hl =>
    obtain rfl : held = 0 := hv.idle r rfl (by simp [hs])
    obtain ⟨updated, started, rfl⟩ := hr
    rw [Multiset.zero_add]
    exact .of_running rfl hm hnew
  | handover hs =>
    obtain ⟨members, hm', hh⟩ := hv.running _ rfl hs
    exact .of_running hs hm' ((map_relabel (fun _ => rfl) _).trans hh)
  | renew hs =>
    obtain ⟨members, hm', hh⟩ := hv.running _ rfl hs
    exact .of_running hs hm' (by rw [Multiset.map_map]; exact hh)
  | reselect hs hr =>
    obtain ⟨updated, rfl⟩ := hr
    obtain ⟨members, hm', hh⟩ := hv.running _ rfl hs
    exact .of_running hs hm' (by rw [Multiset.map_map]; exact hh)
  | touch hs hr =>
    obtain ⟨_, _, _, _, _, rfl⟩ := hr
    obtain ⟨members, hm', hh⟩ := hv.running _ rfl hs
    exact .of_running hs hm' hh
  | @lapse r r' held hs hr hc =>
    obtain rfl : held = 0 := hv.idle r rfl (by simp [hs])
    exact .of_idle fun _ h => by cases h; exact hr.not_running
  | finish hs hr => exact .of_idle fun _ h => by cases h; exact hr.not_running
  | release hs => exact .of_idle hs
  | @orphan r held =>
    refine ⟨(fun h => nomatch h), fun r' hr' hn => ?_, fun r' hr' hs => ?_⟩
    · cases hr'; exact hv.idle r rfl hn
    · cases hr'; exact hv.running r rfl hs
  | forget => exact .of_idle fun _ h => nomatch h

/-! ## The whole store -/

/-- The number of slots of a class that an operation occupies. -/
def slotsIn (s : Store) (id : Uuid) (c : AdmissionClass) : ℕ :=
  s.slots.countP fun slot => slot.operationId = some id ∧ slot.className = c

/-- A RUNNING operation whose chain contains the class. -/
def runsIn (configs : List AdmissionClassConfig) (c : AdmissionClass) (r : OperationRecord) : Bool :=
  match chainOf configs r.admissionClass with
  | .ok members => r.state = .running ∧ c ∈ members
  | .error _ => false

/-- Slots and operations agree under the configuration. -/
structure SlotCoherence (configs : List AdmissionClassConfig) (s : Store) : Prop where
  running : ∀ r ∈ s.operations, r.state = .running →
    ∃ members, chainOf configs r.admissionClass = .ok members ∧
      ∀ c, slotsIn s r.operationId c = if c ∈ members then 1 else 0
  idle : ∀ r ∈ s.operations, r.state ≠ .running → ∀ c, slotsIn s r.operationId c = 0
  holder : ∀ slot ∈ s.slots, ∀ id, slot.operationId = some id →
    ∃! r, r ∈ s.operations ∧ r.operationId = id
  slot : ∀ slot ∈ s.slots, ∀ slot' ∈ s.slots, slot.key = slot'.key → slot = slot'
  capacity : ∀ config ∈ configs,
    s.operations.countP (runsIn configs config.className) ≤ config.activeLimit

theorem run_coherent (calls : List Call) (hk : Keyed s)
    (hv : ∀ id, OpCoherent s.configs (s.view id)) (id : Uuid) :
    OpCoherent s.configs ((s.run calls).view id) :=
  (run_evolves calls hk).keeps (fun _ _ hstep h => hstep.coherent h) (hv id)

theorem slotsIn_eq_count (s : Store) (id : Uuid) (c : AdmissionClass) :
    slotsIn s id c = ((s.view id).held.map (·.className)).count c := by
  rw [Store.view, Multiset.map_coe, Multiset.coe_count, List.count, countP_map, heldBy,
    countP_filter, slotsIn]
  refine countP_congr fun slot _ => ?_
  simp [and_comm]

theorem Vacant.keyed (h : Vacant s) : Keyed s := by
  rw [Keyed, h.operations]; exact nodup_nil

theorem Vacant.view (h : Vacant s) (id : Uuid) : s.view id = ⟨none, 0⟩ := by
  have hheld : heldBy s.slots id = [] := filter_eq_nil_iff.2 fun r hr => by simp [h.free r hr]
  rw [Store.view, h.operations, hheld]
  rfl

theorem Evolves.positive (he : Evolves s s') (h : ∀ r ∈ s.slots, 0 < r.slotNumber) :
    ∀ r ∈ s'.slots, 0 < r.slotNumber := by
  intro r hr
  obtain ⟨r0, hr0, hkey⟩ := mem_map.1 (he.slots.subset (mem_map_of_mem hr))
  rw [← (Prod.mk.inj hkey).2]
  exact h r0 hr0

/-- Operations that hold slots of a class within a limit hold distinct ones, and the free slots are
    others. -/
theorem holders_le {c : AdmissionClass} {limit : ℕ} {p : OperationRecord → Bool} (hk : Keyed s)
    (hkeys : (s.slots.map SlotRow.key).Nodup) (hpos : ∀ r ∈ s.slots, 0 < r.slotNumber)
    (h : ∀ r ∈ s.operations, p r → ∃ slot ∈ s.slots, slot.className = c ∧
      slot.slotNumber ≤ limit ∧ slot.operationId = some r.operationId) :
    s.operations.countP p + s.slots.countP (fun slot => slot.className = c ∧
      slot.slotNumber ≤ limit ∧ slot.operationId = none) ≤ limit := by
  let within := s.slots.filter fun slot => slot.className = c ∧ slot.slotNumber ≤ limit
  have hwithin : within.length ≤ limit := by
    have hnd : (within.map (·.slotNumber)).Nodup := by
      refine List.Nodup.map_on ?_ (hkeys.of_map.filter _)
      intro a ha b hb hab
      obtain ⟨ha, hca⟩ := List.mem_filter.1 ha
      obtain ⟨hb, hcb⟩ := List.mem_filter.1 hb
      refine eq_of_key_eq hkeys ha hb ?_
      rw [SlotRow.key, SlotRow.key, (of_decide_eq_true hca).1, (of_decide_eq_true hcb).1, hab]
    have hsub : within.map (·.slotNumber) ⊆ List.range' 1 limit := by
      intro n hn
      obtain ⟨r, hr, rfl⟩ := List.mem_map.1 hn
      obtain ⟨hr, hw⟩ := List.mem_filter.1 hr
      have hle := (of_decide_eq_true hw).2
      have hlt := hpos r hr
      rw [List.mem_range'_1]
      omega
    have hle := (List.subperm_of_subset hnd hsub).length_le
    rwa [List.length_map, List.length_range'] at hle
  have hops : ((s.operations.filter p).map fun r => some r.operationId).Nodup := by
    have hids : ((s.operations.filter p).map (·.operationId)).Nodup :=
      hk.sublist (List.filter_sublist.map _)
    have hsome := hids.map (Option.some_injective _)
    rwa [List.map_map] at hsome
  have hsub : (s.operations.filter p).map (fun r => some r.operationId) ⊆
      (within.filter fun slot => slot.operationId ≠ none).map (·.operationId) := by
    intro o ho
    obtain ⟨r, hr, rfl⟩ := List.mem_map.1 ho
    obtain ⟨hmem, hp⟩ := List.mem_filter.1 hr
    obtain ⟨slot, hslot, hc, hle, hid⟩ := h r hmem hp
    refine List.mem_map.2 ⟨slot, List.mem_filter.2 ⟨List.mem_filter.2 ⟨hslot, ?_⟩, ?_⟩, hid⟩
    · exact decide_eq_true ⟨hc, hle⟩
    · simp [hid]
  have hle := (List.subperm_of_subset hops hsub).length_le
  rw [List.length_map, List.length_map] at hle
  have hfree : s.slots.countP (fun slot => slot.className = c ∧ slot.slotNumber ≤ limit ∧
      slot.operationId = none) = within.countP fun slot => slot.operationId = none := by
    rw [List.countP_filter]
    exact List.countP_congr fun slot _ => by simp; tauto
  have hsplit : within.length = within.countP (fun slot => slot.operationId = none) +
      within.countP fun slot => slot.operationId ≠ none := by
    rw [List.length_eq_countP_add_countP fun slot : SlotRow => slot.operationId = none]
    simp
  rw [← List.countP_eq_length_filter, ← List.countP_eq_length_filter] at hle
  omega

/-- Distinct RUNNING operations that count against a class hold distinct slots of it, and the slots
    of a class are numbered within its limit. -/
theorem capacity_of_coherent {config : AdmissionClassConfig} (hk : Keyed s)
    (hcoh : ∀ id, OpCoherent configs (s.view id)) (hkeys : (s.slots.map SlotRow.key).Nodup)
    (hpos : ∀ r ∈ s.slots, 0 < r.slotNumber)
    (hin : ∀ r ∈ s.slots, r.className = config.className → r.slotNumber ≤ config.activeLimit) :
    s.operations.countP (runsIn configs config.className) ≤ config.activeLimit := by
  refine (Nat.le_add_right _ _).trans (holders_le (c := config.className) hk hkeys hpos
    fun r hmem hruns => ?_)
  unfold runsIn at hruns
  split at hruns
  · rename_i members hm
    obtain ⟨hs, hc⟩ := of_decide_eq_true hruns
    obtain ⟨members', hm', hheld⟩ := (hcoh r.operationId).running r (hk.find.2 ⟨hmem, rfl⟩) hs
    obtain rfl : members = members' := by rw [hm] at hm'; exact Except.ok.inj hm'
    have hmc : config.className ∈ (s.view r.operationId).held.map (·.className) := by
      rw [hheld]; exact hc
    obtain ⟨slot, hslot, hcl⟩ := Multiset.mem_map.1 hmc
    obtain ⟨hsm, hsid⟩ := mem_filter.1 (Multiset.mem_coe.1 hslot)
    exact ⟨slot, hsm, hcl, hin slot hsm hcl, of_decide_eq_true hsid⟩
  · cases hruns

/-- **Slots and operations agree in every committed state** of every run, under a configuration
    that is validated, installed and bound on free slots. -/
theorem slots_coherent (configs : List AdmissionClassConfig) (s₀ : Store)
    (hv : validateAdmissionGraph configs = .ok ()) (h₀ : Vacant s₀) (calls : List Call) :
    SlotCoherence configs ((install configs s₀).run calls) := by
  obtain ⟨hconf, hvac, hwithin⟩ := install_spec hv h₀
  have he := run_evolves calls hvac.keyed
  have hcoh : ∀ id, OpCoherent configs (((install configs s₀).run calls).view id) := by
    intro id
    have := run_coherent calls hvac.keyed
      (fun id => by rw [hvac.view]; exact .of_idle fun r hr => by cases hr) id
    rwa [hconf] at this
  have hkeys : (((install configs s₀).run calls).slots.map SlotRow.key).Nodup :=
    hvac.keys.sublist he.slots
  -- slots are only ever removed, so their numbers stay within the limits
  have hin : ∀ config ∈ configs, ∀ r ∈ ((install configs s₀).run calls).slots,
      r.className = config.className → r.slotNumber ≤ config.activeLimit := by
    intro config hc r hr hcl
    obtain ⟨r₀, hr₀, hkey⟩ := mem_map.1 (he.slots.subset (mem_map_of_mem hr))
    simp only [SlotRow.key, Prod.mk.injEq] at hkey
    rw [← hkey.2]
    exact hwithin config hc r₀ hr₀ (hkey.1.trans hcl)
  refine ⟨fun r hr hs => ?_, fun r hr hs c => ?_, fun slot hslot id hid => ?_,
    fun slot hslot slot' hslot' hk => eq_of_key_eq hkeys hslot hslot' hk,
    fun config hc => capacity_of_coherent he.keyed hcoh hkeys (he.positive hvac.positive) (hin config hc)⟩
  · obtain ⟨members, hm, hheld⟩ := (hcoh r.operationId).running r (he.keyed.find.2 ⟨hr, rfl⟩) hs
    refine ⟨members, hm, fun c => ?_⟩
    rw [slotsIn_eq_count, hheld, Multiset.coe_count]
    split_ifs with hc
    · exact count_eq_one_of_mem ((validate_eq_ok.1 hv).2.chainOf_ok hm).1 hc
    · exact count_eq_zero.2 hc
  · rw [slotsIn_eq_count, (hcoh r.operationId).idle r (he.keyed.find.2 ⟨hr, rfl⟩) hs]
    rfl
  · have hmem : slot ∈ (((install configs s₀).run calls).view id).held :=
      Multiset.mem_coe.2 (mem_filter.2 ⟨hslot, by simpa using hid⟩)
    cases hrow : (((install configs s₀).run calls).view id).row with
    | none => rw [(hcoh id).absent hrow] at hmem; exact absurd hmem (Multiset.notMem_zero _)
    | some r =>
      obtain ⟨hr, rfl⟩ := he.keyed.find.1 hrow
      exact ⟨r, ⟨hr, rfl⟩, fun r' hr' => eq_of_key_eq he.keyed hr'.1 hr hr'.2⟩

theorem slots_coherent_small :
    SlotCoherence smallConfigs ((install smallConfigs emptyStore).run [submitChat 1 0, submitChat 2 1]) :=
  slots_coherent smallConfigs emptyStore rfl vacant_emptyStore [submitChat 1 0, submitChat 2 1]

end AstralPlane.WorkAdmission
