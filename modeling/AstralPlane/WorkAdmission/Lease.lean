/-
  Claims and the guard of the capacity lease.

  `assert_current_execution_lease` asks for one token on all slots of an
  operation.  A claim of a pre-selected operation relabels its slots with one
  new token, so the guard accepts its fence until the lease runs out.  A claim
  from the queue draws a token for each slot it occupies, so the guard refuses
  its fence unless the chain of the class is a single class.  `lease_guard_iff`
  says so for every reachable state.
-/
import AstralPlane.WorkAdmission.Fences

namespace AstralPlane.WorkAdmission

open List

variable {s s' : Store} {configs : List AdmissionClassConfig} {fence : ExecutionFence}
variable {members : List AdmissionClass} {clock expiresAt : Time} {r : OperationRecord}
  {c : AdmissionClass} {claim : OperationClaim}

/-! ## What the guard asks for -/

/-- All slots carry one token. -/
def OneToken (held : Multiset SlotRow) : Prop :=
  ∃ token, held ≠ 0 ∧ ∀ slot ∈ held, slot.leaseToken = some token

/-- Over the slots of its chain, a lease is complete when one token labels them all and none has
    run out. -/
theorem leaseComplete_iff (hm : (s.view fence.operationId).held.map (·.className) = members) :
    leaseComplete s fence members clock ↔ OneToken (s.view fence.operationId).held ∧
      ∀ slot ∈ (s.view fence.operationId).held,
        0 < slot.claimGeneration ∧ slot.leaseExpiresAt.any (clock < ·) := by
  have hcl : ((heldBy s.slots fence.operationId).map (·.className)).Perm members := by
    rw [← Multiset.coe_eq_coe, ← hm, Store.view, Multiset.map_coe]
  have hlen : (heldBy s.slots fence.operationId).length = members.length := by
    rw [← hcl.length_eq, length_map]
  have hne : (heldBy s.slots fence.operationId).map (·.leaseToken) ≠ [] ↔
      heldBy s.slots fence.operationId ≠ [] := not_congr map_eq_nil_iff
  simp only [leaseComplete, Store.view, OneToken, Multiset.mem_coe, bool_to_prop, beq_iff_eq,
    all_eq_true, dedup_length_one, ne_eq, Multiset.coe_eq_zero]
  constructor
  · rintro ⟨⟨-, hnil, t, ht⟩, hall⟩
    obtain ⟨slot, hslot⟩ := exists_mem_of_ne_nil _ (hne.1 hnil)
    obtain ⟨token, htoken⟩ := Option.isSome_iff_exists.1 (hall slot hslot).1.1
    have hlabel := ht _ (mem_map_of_mem hslot)
    refine ⟨⟨token, hne.1 hnil, fun slot' hslot' => ?_⟩, fun slot' hslot' =>
      ⟨(hall slot' hslot').1.2, (hall slot' hslot').2⟩⟩
    rw [ht _ (mem_map_of_mem hslot'), ← hlabel, htoken]
  · rintro ⟨⟨token, hnil, ht⟩, hall⟩
    refine ⟨⟨⟨⟨hlen, fun c hc => hcl.mem_iff.1 hc⟩, fun c hc => hcl.mem_iff.2 hc⟩, hne.2 hnil,
      some token, ?_⟩, fun slot hslot => ⟨⟨by rw [ht slot hslot]; rfl, (hall slot hslot).1⟩,
        (hall slot hslot).2⟩⟩
    intro t htm
    obtain ⟨slot, hslot, rfl⟩ := mem_map.1 htm
    exact ht slot hslot

/-- The guard accepts a fence at a reading of the clock. -/
def LeaseCurrent (s : Store) (fence : ExecutionFence) (clock : Time) : Prop :=
  ∃ r, (assertCurrentExecutionLease fence clock).Ok s r s

/-- For the current fence of an operation that nobody asked to cancel, the guard looks only at the
    labels of its slots. -/
theorem leaseCurrent_iff (hr : (s.view fence.operationId).row = some r) (hf : fenceMatches r fence)
    (hc : r.check) (hn : r.cancelRequestedAt = none)
    (hm : chainOf s.configs r.admissionClass = .ok members)
    (hh : (s.view fence.operationId).held.map (·.className) = members)
    (hl : ∀ slot ∈ (s.view fence.operationId).held,
      0 < slot.claimGeneration ∧ slot.leaseExpiresAt.any (clock < ·)) :
    LeaseCurrent s fence clock ↔ OneToken (s.view fence.operationId).held := by
  have hgen : fence.executionGeneration ≤ maxBigint := by
    rw [← (fenceMatches_iff.1 hf).2.1]
    simp only [OperationRecord.check, bool_to_prop] at hc
    exact hc.1.2
  simp only [LeaseCurrent, assertCurrentExecutionLease, ok_rules, ok_assertCurrentExecutionSession,
    ok_chain]
  constructor
  · rintro ⟨_, _, -, r', _, ⟨hr', -, rfl⟩, _, -, members', hm', _, rfl, _, hcomplete, -, -⟩
    obtain rfl : r = r' := Option.some.inj (hr.symm.trans hr')
    obtain rfl : members = members' := Except.ok.inj (hm.symm.trans hm')
    exact ((leaseComplete_iff hh).1 hcomplete).1
  · intro hone
    refine ⟨r, (), by simpa using hgen, r, s, ⟨hr, hf, rfl⟩, (), by rw [hn]; rfl, members, hm, s, rfl,
      (), ?_, rfl, rfl⟩
    exact (leaseComplete_iff hh).2 ⟨hone, hl⟩

/-! ## What the two claims leave -/

theorem climb_ne_nil {fuel : ℕ} {up : List AdmissionClass}
    (h : climb configs fuel c = some up) : up ≠ [] := by
  cases fuel with
  | zero => cases h
  | succ =>
    rw [climb] at h
    split at h
    · cases h
    · split at h
      · obtain rfl := Option.some.inj h; exact cons_ne_nil _ _
      · obtain ⟨rest, -, rfl⟩ := Option.map_eq_some_iff.1 h; exact cons_ne_nil _ _

/-- The class is configured without a parent. -/
def isRoot (configs : List AdmissionClassConfig) (c : AdmissionClass) : Bool :=
  (configOf configs c).any (·.parentClassName.isNone)

/-- A chain is one class exactly when it starts at a root. -/
theorem chain_length_one
    (h : chainOf configs c = .ok members) : members.length = 1 ↔ isRoot configs c := by
  unfold chainOf at h
  split at h
  · cases h
  rename_i config hconfig
  split at h
  · cases h
  rename_i up hup
  obtain rfl := Except.ok.inj h
  rw [length_reverse, isRoot, hconfig, Option.any_some]
  cases hlen : configs.length with
  | zero => rw [hlen, climb] at hup; cases hup
  | succ =>
    rw [hlen, climb, hconfig] at hup
    cases hp : config.parentClassName with
    | none =>
      simp only [hp] at hup
      obtain rfl := Option.some.inj hup
      simp
    | some =>
      simp only [hp] at hup
      obtain ⟨rest, hrest, rfl⟩ := Option.map_eq_some_iff.1 hup
      have := length_pos_iff.2 (climb_ne_nil hrest)
      simp only [length_cons, Option.isNone_some, Bool.false_eq_true, iff_false]
      omega

/-- What a claim leaves of its operation: the row of the fence, not asked to cancel, over the slots
    of its chain, all leased until `expiresAt`. -/
structure ClaimLeaves (s : Store) (claim : OperationClaim) (expiresAt : Time) : Prop where
  row : (s.view claim.fence.operationId).row = some claim.operation
  current : fenceMatches claim.operation claim.fence
  check : claim.operation.check
  cancel : claim.operation.cancelRequestedAt = none
  held : ∃ members : List AdmissionClass,
    chainOf s.configs claim.operation.admissionClass = .ok members ∧
      (s.view claim.fence.operationId).held.map (·.className) = members
  leased : ∀ slot ∈ (s.view claim.fence.operationId).held,
    0 < slot.claimGeneration ∧ slot.leaseExpiresAt = some expiresAt

section
variable (h : HandedOver s s' r claim expiresAt) (hc : Consistent s)
    (hr : s.operations.find? (·.operationId = r.operationId) = some r) (hs : r.state = .running)
include h hc hr hs

/-- Handing over relabels every slot of the operation: as many slots carry the marker as its chain
    has classes. -/
theorem HandedOver.all_marked {slot : SlotRow} (hslot : slot ∈ heldBy s.slots r.operationId) :
    slot.leaseToken = some claim.fence.executionLeaseToken := by
  obtain ⟨members, hm, hn⟩ := h.complete
  obtain ⟨members', hm', hh⟩ := (hc.coherent r.operationId).running r hr hs
  obtain rfl : members = members' := Except.ok.inj (hm.symm.trans hm')
  have hlen : (heldBy s.slots r.operationId).length = members.length := by
    have := congrArg Multiset.card hh
    simpa [Store.view] using this
  have hall : (heldBy s.slots r.operationId).countP
      (fun slot => slot.leaseToken = some claim.fence.executionLeaseToken) =
        (heldBy s.slots r.operationId).length := by
    rw [countP_marker, hn, hlen]
  simpa using countP_eq_length.1 hall slot hslot

theorem HandedOver.held : heldBy s'.slots r.operationId =
      (heldBy s.slots r.operationId).map (SlotRow.relabel (s.uuid4 s.draws) expiresAt) := by
  rw [h.store]
  simp only [heldBy_marker]
  refine map_congr_left fun slot hslot => ?_
  rw [if_pos (h.all_marked hc hr hs hslot)]

theorem HandedOver.leaves (hn : r.cancelRequestedAt = none) :
    ClaimLeaves s' claim expiresAt ∧ OneToken (s'.view claim.fence.operationId).held := by
  obtain ⟨members, hm, hh⟩ := (hc.coherent r.operationId).running r hr hs
  have hheld := h.held hc hr hs
  have hne : heldBy s.slots r.operationId ≠ [] := by
    intro hnil
    rw [Store.view, hnil, Multiset.map_coe, Multiset.coe_eq_coe] at hh
    unfold chainOf at hm
    split at hm
    · cases hm
    split at hm
    · cases hm
    rename_i up hup
    obtain rfl := Except.ok.inj hm
    exact climb_ne_nil hup (reverse_eq_nil_iff.1 hh.nil_eq.symm)
  have hops : s'.operations = s.operations := by rw [h.store]
  have hconf : s'.configs = s.configs := by rw [h.store]
  have hview : s'.view claim.fence.operationId = ⟨some r,
      ↑((heldBy s.slots r.operationId).map (SlotRow.relabel (s.uuid4 s.draws) expiresAt))⟩ := by
    rw [h.operationId, Store.view, hheld, hops, hr]
  have hlabel : ∀ slot ∈ (s'.view claim.fence.operationId).held,
      ∃ slot0, slot = SlotRow.relabel (s.uuid4 s.draws) expiresAt slot0 := by
    intro slot hslot
    rw [hview] at hslot
    obtain ⟨slot0, -, rfl⟩ := mem_map.1 (Multiset.mem_coe.1 hslot)
    exact ⟨slot0, rfl⟩
  constructor
  · refine ⟨by rw [hview, h.operation], ?_, ?_, by rw [h.operation]; exact hn, ⟨members, ?_, ?_⟩, ?_⟩
    · rw [h.operation]
      exact fenceMatches_iff.2 ⟨hs, h.generation.symm, h.token⟩
    · rw [h.operation]
      exact (hc.sound r.operationId).check r hr
    · rw [hconf, h.operation]; exact hm
    · rw [hview, Multiset.map_coe, map_map]; exact hh
    · intro slot hslot
      obtain ⟨slot0, rfl⟩ := hlabel slot hslot
      exact ⟨Nat.succ_pos _, rfl⟩
  · refine ⟨s.uuid4 s.draws, ?_, fun slot hslot => ?_⟩
    · rw [hview]
      simpa using hne
    · obtain ⟨slot0, rfl⟩ := hlabel slot hslot
      rfl

end

/-- Tokens drawn one after the other are one token only if there is one of them. -/
theorem oneToken_drawn {new : List SlotRow} {supply : ℕ → Uuid} {draws n : ℕ}
    (hinj : Function.Injective supply)
    (ht : new.map (·.leaseToken) = ((List.range' draws n).map supply).map some) :
    OneToken ↑new ↔ n = 1 := by
  have hlen : new.length = n := by
    have := congrArg List.length ht
    simpa using this
  have hnd : (new.map (·.leaseToken)).Nodup := by
    rw [ht, map_map]
    exact (nodup_range' 1).map ((Option.some_injective _).comp hinj)
  constructor
  · rintro ⟨token, hne, hall⟩
    have hrep : new.map (·.leaseToken) = List.replicate n (some token) := by
      rw [← hlen]
      refine eq_replicate_iff.2 ⟨by rw [length_map], fun t htm => ?_⟩
      obtain ⟨slot, hslot, rfl⟩ := mem_map.1 htm
      exact hall slot (Multiset.mem_coe.2 hslot)
    rw [hrep, nodup_replicate] at hnd
    have hpos : n ≠ 0 := by
      rintro rfl
      exact hne (by rw [length_eq_zero_iff.1 hlen]; rfl)
    omega
  · rintro rfl
    obtain ⟨slot, rfl⟩ := length_eq_one_iff.1 hlen
    refine ⟨supply draws, by simp, fun slot' hslot' => ?_⟩
    obtain rfl := mem_singleton.1 (Multiset.mem_coe.1 hslot')
    simpa using ht

theorem TakenFromQueue.leaves {s1 : Store} {selected : List (AdmissionClass × ℕ)} {now : Time}
    (h : TakenFromQueue s s1 s' r selected claim now expiresAt) (hc : Consistent s)
    (hr : s.operations.find? (·.operationId = r.operationId) = some r) (hq : r.state = .queued) :
    ClaimLeaves s' claim expiresAt ∧
      (OneToken (s'.view claim.fence.operationId).held ↔ selected.length = 1) := by
  have hnone : heldBy s.slots r.operationId = [] :=
    Multiset.coe_eq_zero _ |>.1 ((hc.coherent r.operationId).idle r hr (by simp [hq]))
  obtain ⟨new, hperm, hcl, htok, hl⟩ := h.occupied.gained
  rw [hnone, append_nil] at hperm
  have hview : s'.view claim.fence.operationId = ⟨some claim.operation, ↑new⟩ := by
    rw [h.operationId, Store.view, h.store, Multiset.coe_eq_coe.2 hperm]
    simp only [row_updateWhere (f := OperationRecord.start (s.uuid4 s1.draws) now) fun _ => rfl, hr,
      Option.map_some, hq, and_self, decide_true, if_true, h.operation]
  have hconf : s'.configs = s.configs := by rw [h.store, h.occupied.store]
  constructor
  · refine ⟨by rw [hview], ?_, h.check, ?_, ⟨selected.map Prod.fst, ?_, ?_⟩, ?_⟩
    · rw [h.operation]
      refine fenceMatches_iff.2 ⟨rfl, h.generation.symm, ?_⟩
      rw [h.token]; rfl
    · rw [h.operation]
      exact (hc.sound r.operationId).queued r hr hq
    · rw [hconf, h.operation]; exact h.chain
    · rw [hview, Multiset.map_coe, hcl]
    · intro slot hslot
      rw [hview] at hslot
      exact (hl slot (Multiset.mem_coe.1 hslot)).2
  · rw [hview]
    exact oneToken_drawn hc.distinct htok

/-! ## The guard after a claim -/

/-- The guard on a store in which the claimed operation is as its claim left it. -/
theorem ClaimLeaves.leaseCurrent_iff {s'' : Store}
    (h : ClaimLeaves s' claim expiresAt) (hconf : s''.configs = s'.configs)
    (hview : s''.view claim.fence.operationId = s'.view claim.fence.operationId)
    (hclock : clock < expiresAt) :
    LeaseCurrent s'' claim.fence clock ↔ OneToken (s'.view claim.fence.operationId).held := by
  obtain ⟨members, hm, hh⟩ := h.held
  rw [← hview]
  refine WorkAdmission.leaseCurrent_iff (by rw [hview]; exact h.row) h.current h.check h.cancel
    (by rw [hconf]; exact hm) (by rw [hview]; exact hh) fun slot hslot => ?_
  rw [hview] at hslot
  obtain ⟨hgen, hexp⟩ := h.leased slot hslot
  exact ⟨hgen, by rw [hexp]; simpa using hclock⟩

/-- **The guard accepts the fence of a claim** until the lease runs out exactly when the operation
    was RUNNING before the claim or its class has no parent: a claim from the queue of any other
    class labels the slots of the chain with different tokens. -/
theorem lease_guard_iff (configs : List AdmissionClassConfig) (s₀ : Store)
    (hv : validateAdmissionGraph configs = .ok ()) (h₀ : Vacant s₀)
    (hinj : Function.Injective s₀.uuid4) (calls later : List Call) (call : Call) (t d clock : Time)
    (claim : OperationClaim) (s' : Store) (htimes : call.claimTimes = some (t, d))
    (h : (exec call).Ok ((install configs s₀).run calls) (.claim (some claim)) s')
    (hlater : (s'.run later).view claim.fence.operationId = s'.view claim.fence.operationId)
    (hclock : clock < t + d) :
    LeaseCurrent (s'.run later) claim.fence clock ↔
      (∃ r ∈ ((install configs s₀).run calls).operations,
        r.operationId = claim.fence.operationId ∧ r.state = .running) ∨
      isRoot configs claim.operation.admissionClass = true := by
  obtain ⟨hconf, hvac, -⟩ := install_spec hv h₀
  have hc₀ := (hvac.consistent (by rw [install_uuid4 hv]; exact hinj)).run calls
  have hconf₀ := (run_evolves calls hvac.keyed).configs.trans hconf
  obtain ⟨now, slotLease, s₁, htimes', he, hcleared, hclaim⟩ := exec_claim hc₀.keyed h
  obtain ⟨rfl, rfl⟩ : now = t ∧ slotLease = d := by
    simpa using htimes'.symm.trans htimes
  have hc := hc₀.evolves he
  have he' := (hclaim.subsides hc.keyed).toEvolves
  have hconf' : (s'.run later).configs = s'.configs := (run_evolves later he'.keyed).configs
  cases hclaim with
  | @handed r _ hr hp ho =>
    obtain ⟨-, hs, hn, -⟩ := of_decide_eq_true hp
    obtain ⟨hleaves, hone⟩ := ho.leaves hc hr hs hn
    rw [hleaves.leaseCurrent_iff hconf' hlater hclock]
    refine iff_of_true hone (.inl ⟨r, ?_, ho.operationId.symm, hs⟩)
    -- a live row was not touched by the expiries
    have hr₀ := (hcleared r.operationId r hr).resolve_left (by simp [hs, OperationState.isTerminal])
    exact (hc₀.keyed.find.1 hr₀).1
  | @taken s₂ r selected _ hr hq ht =>
    obtain ⟨hleaves, hone⟩ := ht.leaves hc hr hq
    have hchain : chainOf configs claim.operation.admissionClass = .ok (selected.map Prod.fst) := by
      rw [← hconf₀, ← he.configs, ht.operation]; exact ht.chain
    have hr₀ := (hcleared r.operationId r hr).resolve_left (by simp [hq, OperationState.isTerminal])
    rw [hleaves.leaseCurrent_iff hconf' hlater hclock, hone, ← chain_length_one hchain, length_map]
    refine ⟨.inr, fun hor => hor.resolve_left ?_⟩
    rintro ⟨r', hr', hid, hs'⟩
    -- the row before the claim is the queued one
    have hrow' := hc₀.keyed.find.2 ⟨hr', hid.trans ht.operationId⟩
    obtain rfl : r = r' := Option.some.inj (hr₀.symm.trans hrow')
    cases hq.symm.trans hs'

theorem exists_claim (call : Call) (s : Store) (h : call.claims s ≠ []) :
    ∃ claim s', (exec call).Ok s (.claim (some claim)) s' := by
  rw [Call.claims] at h
  split at h
  · rename_i claim hclaim
    exact ⟨claim, (exec call s).2, by rw [Tx.Ok, ← hclaim]⟩
  · exact absurd rfl h

theorem lease_guard_iff_preselected :
    ∃ claim s', (exec (.claimNext .interactive 1 1000 1000)).Ok
        ((install smallConfigs emptyStore).run [submitChat 1 0]) (.claim (some claim)) s' ∧
      (LeaseCurrent (s'.run []) claim.fence 500 ↔
        (∃ r ∈ ((install smallConfigs emptyStore).run [submitChat 1 0]).operations,
          r.operationId = claim.fence.operationId ∧ r.state = .running) ∨
        isRoot smallConfigs claim.operation.admissionClass = true) := by
  obtain ⟨claim, s', h⟩ := exists_claim (.claimNext .interactive 1 1000 1000)
    ((install smallConfigs emptyStore).run [submitChat 1 0]) (by decide)
  exact ⟨claim, s', h, lease_guard_iff smallConfigs emptyStore rfl vacant_emptyStore
    injective_emptyStore [submitChat 1 0] [] (.claimNext .interactive 1 1000 1000) 1 1000 500 claim s'
    rfl h rfl (by decide)⟩

/-- The second request waits in the queue, the first ends, and the claim of the second is refused by
    the guard at once. -/
theorem queued_claim_refused :
    let s := (install smallConfigs emptyStore).run [submitChat 1 0, submitChat 2 1, completeFirst 2]
    let answer := claimNext .interactive 3 1000 1000 {} s
    match answer.1 with
    | .ok (some claim) => (assertCurrentExecutionLease claim.fence 4 answer.2).1 =
        .error (.staleFence "execution capacity lease is unavailable")
    | _ => False := by
  rfl

end AstralPlane.WorkAdmission
