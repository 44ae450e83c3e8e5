/-
  The two ways of claiming an operation.

  `HandedOver` and `TakenFromQueue` say what a claim's fence and the slots of
  its operation are afterwards; `Claimed` is the outcome of a claim from the
  store that its expiries leave.  `claimNext_picked` and `claimOperation_picked`
  take the two methods apart, and `Claimed.subsides` puts them under the
  protocol of one operation.
-/
import AstralPlane.WorkAdmission.Protocol

namespace AstralPlane.WorkAdmission

open Relation Tx List

variable {s s' : Store}
variable {id : Uuid} {r : OperationRecord} {expiresAt now retention slotLease : Time}
  {result : Option OperationClaim} {c : AdmissionClass} {locked : Locked}

/-! ## Hand-over of a pre-selected operation, selection from the queue -/

theorem ok_executionFence {token : Uuid} {generation : ℕ} {fence : ExecutionFence}
    (h : (executionFence id generation token).Ok s fence s') :
    fence.operationId = id ∧ fence.executionGeneration = generation ∧
      fence.executionLeaseToken = token ∧ s = s' := by
  unfold executionFence at h
  split at h
  · obtain ⟨rfl, rfl⟩ := ok_pure.1 h; exact ⟨rfl, rfl, rfl, rfl⟩
  · exact absurd h ok_raise

/-- The slots of an operation that carry the marker of its pre-selection. -/
def isMarker (id marker : Uuid) (slot : SlotRow) : Bool :=
  slot.operationId = some id ∧ slot.leaseToken = some marker

/-- A claim that handed a pre-selected operation over. -/
structure HandedOver (s s' : Store) (r : OperationRecord) (claim : OperationClaim)
    (expiresAt : Time) : Prop where
  operation : claim.operation = r
  operationId : claim.fence.operationId = r.operationId
  generation : claim.fence.executionGeneration = r.executionGeneration
  token : r.executionLeaseToken = some claim.fence.executionLeaseToken
  complete : ∃ members, chainOf s.configs r.admissionClass = .ok members ∧
    s.slots.countP (isMarker r.operationId claim.fence.executionLeaseToken) = members.length
  store : s' = { s with
    slots := updateWhere (isMarker r.operationId claim.fence.executionLeaseToken)
      (SlotRow.relabel (s.uuid4 s.draws) expiresAt) s.slots
    draws := s.draws + 1 }

theorem claimPreselected_spec (h : (claimPreselected r now slotLease).Ok s result s') :
    ∃ claim, result = some claim ∧ HandedOver s s' r claim (now + slotLease) := by
  unfold claimPreselected at h
  split at h
  · exact absurd h ok_raise
  · rename_i marker hmarker
    simp only [ok_rules, ok_uuid4, ok_chain] at h
    obtain ⟨_, rfl, n, s1, hu, members, hm, _, hn, fence, s2, hf, rfl, rfl⟩ := h
    obtain ⟨-, rfl, rfl⟩ := ok_updateSlots.1 hu
    obtain ⟨hid, hg, ht, rfl⟩ := ok_executionFence hf
    refine ⟨_, rfl, rfl, hid, hg, by rw [ht]; exact hmarker, ⟨members, hm, ?_⟩, ?_⟩
    · rw [ht]; exact of_decide_eq_true hn
    · rw [ht]; rfl

/-- A claim that took an operation from its queue: `s₁` is the store after its slots are
    occupied. -/
structure TakenFromQueue (s s₁ s' : Store) (r : OperationRecord)
    (selected : List (AdmissionClass × ℕ)) (claim : OperationClaim) (now expiresAt : Time) : Prop where
  chain : chainOf s.configs r.admissionClass = .ok (selected.map Prod.fst)
  occupied : Occupied s s₁ r.operationId selected (slotTokens s.uuid4 s.draws none selected.length)
    expiresAt
  draws : s₁.draws = s.draws + selected.length
  operation : claim.operation = r.start (s.uuid4 s₁.draws) now
  check : claim.operation.check
  operationId : claim.fence.operationId = r.operationId
  generation : claim.fence.executionGeneration = r.executionGeneration + 1
  token : claim.fence.executionLeaseToken = s.uuid4 s₁.draws
  store : s' = { s₁ with
    draws := s₁.draws + 1
    operations := updateWhere (fun o => o.operationId = r.operationId ∧ o.state = .queued)
      (OperationRecord.start (s.uuid4 s₁.draws) now) s.operations }

theorem filter_find_head {q : OperationRecord → Bool}
    (hk : Keyed s) (hr : s.operations.find? (·.operationId = id) = some r) (hq : q r)
    (hid : ∀ o, q o → o.operationId = id) : (s.operations.filter q).head? = some r := by
  have hmem : r ∈ s.operations := mem_of_find hr
  cases hf : s.operations.filter q with
  | nil => exact absurd hq (by simpa using filter_eq_nil_iff.1 hf r hmem)
  | cons a =>
    have ha : a ∈ s.operations.filter q := by rw [hf]; exact mem_cons_self
    have hia : a.operationId = r.operationId :=
      (hid a (of_mem_filter ha)).trans (id_of_find hr).symm
    rw [List.head?_cons, eq_of_key_eq hk (mem_of_mem_filter ha) hmem hia]

theorem claimQueued_spec (hk : Keyed s)
    (hr : s.operations.find? (·.operationId = id) = some r) (hq : r.state = .queued)
    (hc : r.admissionClass = c) (h : (claimQueued c id now slotLease locked).Ok s result s') :
    (result = none ∧ s = s') ∨ ∃ claim s1 selected, result = some claim ∧
      Room s (selected.map Prod.fst) ∧
      TakenFromQueue s s1 s' r selected claim now (now + slotLease) := by
  obtain rfl := id_of_find hr
  obtain ⟨o, s0, hsel, hrest⟩ := ok_bind.1 h
  cases o with
  | none =>
    obtain rfl := (readOnly_selectFreeSlots c).ok hsel
    obtain ⟨rfl, rfl⟩ := ok_pure.1 hrest
    exact .inl ⟨rfl, rfl⟩
  | some selected =>
    obtain ⟨hchain, hroom, rfl⟩ := selectFreeSlots_spec hsel
    simp only [ok_rules, ok_uuid4] at hrest
    obtain ⟨_, s1, hocc, _, rfl, running, s2, hup, hclaim⟩ := hrest
    obtain ⟨ho, hd⟩ := occupySlots_spec hocc
    have hs1 := ho.store
    have hops : s1.operations = s.operations := by rw [hs1]
    have hu : s1.uuid4 = s.uuid4 := by rw [hs1]
    obtain ⟨hcheck, rfl, rfl⟩ := ok_updateOperations.1 hup
    have hp : decide (r.operationId = r.operationId ∧ r.state = .queued) := by simp [hq]
    have hhead := filter_find_head (q := fun o => o.operationId = r.operationId ∧ o.state = .queued)
      hk hr hp fun o ho => (of_decide_eq_true ho).1
    simp only [List.head?_map, hops, hhead, Option.map_some, ok_rules] at hclaim
    obtain ⟨fence, s3, hf, rfl, rfl⟩ := hclaim
    obtain ⟨hid, hg, ht, rfl⟩ := ok_executionFence hf
    refine .inr ⟨_, s1, selected, rfl, hroom, ?_⟩
    refine ⟨by rw [hc]; exact hchain, ho, hd, by rw [hu], ?_, hid, hg, by rw [ht, hu], by rw [hu]⟩
    exact hcheck r (by rw [hops]; exact mem_of_find hr) hp

theorem TakenFromQueue.subsides {s1 : Store}
    {selected : List (AdmissionClass × ℕ)} {claim : OperationClaim}
    (h : TakenFromQueue s s1 s' r selected claim now expiresAt) (hk : Keyed s)
    (hr : s.operations.find? (·.operationId = r.operationId) = some r) (hq : r.state = .queued) :
    Subsides s s' := by
  have ho := h.occupied
  have hs1 := ho.store
  obtain ⟨new, hp, hcl, ht, hl⟩ := ho.gained
  have hheld : (↑(heldBy s1.slots r.operationId) : Multiset SlotRow) =
      ↑(heldBy s.slots r.operationId) + ↑new := by
    rw [Multiset.coe_add, Multiset.coe_eq_coe]
    exact hp.trans perm_append_comm
  have hd : s.draws ≤ s1.draws + 1 := by rw [h.draws]; omega
  have htoken : Fresh s.uuid4 s.draws (s1.draws + 1) (s.uuid4 s1.draws) :=
    ⟨s1.draws, by rw [h.draws]; omega, by omega, rfl⟩
  have hstep : OpStep s.configs (Fresh s.uuid4 s.draws (s1.draws + 1)) r.operationId
      ⟨some r, heldBy s.slots r.operationId⟩
      ⟨some (r.start (s.uuid4 s1.draws) now), heldBy s1.slots r.operationId⟩ := by
    rw [hheld]
    refine .select hq ⟨_, _, rfl⟩ (by rw [← h.operation]; exact h.check) htoken h.chain ?_ ?_
    · rw [Multiset.map_coe, hcl]
    · intro slot hslot
      obtain ⟨t, htt, hlt⟩ := leased_of_tokens ht hl (Multiset.mem_coe.1 hslot)
      obtain ⟨k, hk', rfl⟩ := mem_map.1 htt
      rw [mem_range'_1] at hk'
      exact ⟨_, ⟨k, hk'.1, by rw [h.draws]; omega, rfl⟩, hlt⟩
  rw [h.store, hs1]
  exact .of_update hk (fun _ => rfl) (fun o ho => (of_decide_eq_true ho).1) hr (by simp [hq]) hd
    (by rw [ho.keys]) ho.others hstep

/-- The slots of an operation after those with its marker are relabelled. -/
theorem heldBy_marker {marker token : Uuid} (slots : List SlotRow) :
    heldBy (updateWhere (isMarker id marker) (SlotRow.relabel token expiresAt) slots) id =
      (heldBy slots id).map fun slot =>
        if slot.leaseToken = some marker then slot.relabel token expiresAt else slot := by
  rw [heldBy_relabel]
  refine map_congr_left fun slot hslot => ?_
  have hid : slot.operationId = some id := by simpa using of_mem_filter hslot
  by_cases hm : slot.leaseToken = some marker <;> simp [isMarker, hid, hm]

theorem countP_marker (id marker : Uuid) (slots : List SlotRow) :
    (heldBy slots id).countP (fun slot => slot.leaseToken = some marker) =
      slots.countP (isMarker id marker) := by
  rw [heldBy, countP_filter]
  refine countP_congr fun slot _ => ?_
  simp [isMarker, and_comm]

theorem HandedOver.subsides {claim : OperationClaim}
    (h : HandedOver s s' r claim expiresAt) (hk : Keyed s)
    (hr : s.operations.find? (·.operationId = r.operationId) = some r) (hs : r.state = .running) :
    Subsides s s' := by
  obtain ⟨members, hm, hn⟩ := h.complete
  rw [h.store]
  refine .of_step r.operationId hk rfl rfl rfl (Nat.le_succ _) (by rw [keys_relabel])
    (fun j hj => ?_) ?_ rfl rfl
  · simp only [Store.view]
    rw [heldBy_relabel_other _ fun slot hid => by simp [isMarker, hid, hj]]
  · simp only [Store.view, heldBy_marker, hr, ← Multiset.map_coe]
    refine .handover hs h.token ⟨s.draws, le_rfl, Nat.lt_succ_self _, rfl⟩ hm ?_
    rw [Multiset.coe_countP, countP_marker]
    exact hn

theorem mem_queueHead (h : queueHead s c = some r) :
    r ∈ s.operations ∧ r.admissionClass = c ∧ r.state = .queued := by
  simpa using mem_filter.1 (firstBy_mem h)

theorem clearing_prepareClaim : Clearing (prepareClaim c now slotLease retention) :=
  clearing_bind (clearing_of_readOnly readOnly_validatedDuration) fun _ =>
    clearing_bind (clearing_of_readOnly readOnly_validatedDuration) fun _ =>
      clearing_bind (clearing_of_readOnly readOnly_lockClassChain) fun _ =>
        clearing_bind clearing_expireExecutionLeasesLocked fun _ =>
          clearing_bind clearing_expireQueuedLocked fun _ => clearing_of_readOnly (readOnly_pure _)

/-- A claim, from the store that its expiries leave: nothing is claimed, or a pre-selected
    operation is handed over, or the head of a queue is taken. -/
inductive Claimed (s s' : Store) (now slotLease : Time) : Option OperationClaim → Prop
  | nothing (h : s = s') : Claimed s s' now slotLease none
  | handed {r : OperationRecord} {claim : OperationClaim}
      (hr : s.operations.find? (·.operationId = r.operationId) = some r)
      (hp : isPreselected s r.admissionClass r)
      (h : HandedOver s s' r claim (now + slotLease)) : Claimed s s' now slotLease (some claim)
  | taken {s₁ : Store} {r : OperationRecord} {selected : List (AdmissionClass × ℕ)}
      {claim : OperationClaim} (hr : s.operations.find? (·.operationId = r.operationId) = some r)
      (hq : r.state = .queued)
      (h : TakenFromQueue s s₁ s' r selected claim now (now + slotLease)) :
      Claimed s s' now slotLease (some claim)

theorem Claimed.subsides
    (h : Claimed s s' now slotLease result) (hk : Keyed s) : Subsides s s' := by
  cases h with
  | nothing h => subst h; exact .refl hk
  | handed hr hp h => exact h.subsides hk hr (of_decide_eq_true hp).2.1
  | taken hr hq h => exact h.subsides hk hr hq

theorem Store.unlocked_none (s : Store) : s.unlocked {} = s := by simp [Store.unlocked]

/-- What a claim picks from the store that its expiries leave, without what is locked. -/
inductive Picked (s s' : Store) (locked : Locked) (now slotLease : Time)
    (result : Option OperationClaim) : Prop
  | nothing (hr : result = none) (h : s = s')
  | preselected {r : OperationRecord} (hr : r ∈ s.operations)
      (hp : isPreselected s r.admissionClass r)
      (h : (claimPreselected r now slotLease).Ok s result s')
  | queued {r : OperationRecord} (slots : Locked)
      (hr : queueHead (s.unlocked locked) r.admissionClass = some r)
      (h : (claimQueued r.admissionClass r.operationId now slotLease slots).Ok s result s')

theorem Picked.claimed
    (h : Picked s s' locked now slotLease result) (hk : Keyed s) :
    Claimed s s' now slotLease result := by
  cases h with
  | nothing hr h => subst hr; exact .nothing h
  | preselected hr hp h =>
    obtain ⟨claim, rfl, ho⟩ := claimPreselected_spec h
    exact .handed (hk.find.2 ⟨hr, rfl⟩) hp ho
  | queued _ hr h =>
    obtain ⟨hmem, -, hq⟩ := mem_queueHead hr
    have hfind := hk.find.2 ⟨mem_of_mem_filter hmem, rfl⟩
    rcases claimQueued_spec hk hfind hq rfl h with ⟨rfl, rfl⟩ | ⟨claim, s1, selected, rfl, -, ht⟩
    · exact .nothing rfl
    · exact .taken hfind hq ht

theorem claimNext_picked (h : (claimNext c now slotLease retention locked).Ok s result s') :
    ∃ s1, (prepareClaim c now slotLease retention).Ok s () s1 ∧
      Picked s1 s' locked now slotLease result := by
  obtain ⟨_, s1, hprep, hrest⟩ := ok_bind.1 h
  refine ⟨s1, hprep, ?_⟩
  simp only [ok_rules] at hrest
  obtain ⟨_, rfl, hrest⟩ := hrest
  split at hrest
  · rename_i r hf
    obtain ⟨hr, hp⟩ := mem_filter.1 (firstBy_mem hf)
    obtain ⟨rfl, hs, hn, hany⟩ := of_decide_eq_true hp
    obtain ⟨marker, hmarker, hm⟩ := any_eq_true.1 hany
    exact .preselected (mem_of_mem_filter hr) (decide_eq_true ⟨rfl, hs, hn,
      any_eq_true.2 ⟨marker, mem_of_mem_filter hmarker, hm⟩⟩) hrest
  · split at hrest
    · obtain ⟨rfl, rfl⟩ := ok_pure.1 hrest
      exact .nothing rfl rfl
    · rename_i r hf
      obtain ⟨-, rfl, -⟩ := mem_queueHead hf
      exact .queued locked hf hrest

theorem claimOperation_picked
    (h : (claimOperation c id now slotLease retention locked).Ok s result s') :
    ∃ s1, (prepareClaim c now slotLease retention).Ok s () s1 ∧
      Picked s1 s' {} now slotLease result := by
  obtain ⟨_, s1, hprep, hrest⟩ := ok_bind.1 h
  refine ⟨s1, hprep, ?_⟩
  simp only [ok_rules] at hrest
  obtain ⟨_, rfl, hrest⟩ := hrest
  split at hrest
  · rename_i r hf
    have hp := List.find?_some hf
    simp only [decide_eq_true_eq] at hp
    obtain rfl : r.admissionClass = c := (of_decide_eq_true hp.2).1
    exact .preselected (mem_of_find?_eq_some hf) hp.2 hrest
  · split at hrest
    · obtain ⟨rfl, rfl⟩ := ok_pure.1 hrest
      exact .nothing rfl rfl
    · simp only [ok_ite, ok_pure] at hrest
      rcases hrest with ⟨-, rfl, rfl⟩ | ⟨-, ⟨-, rfl, rfl⟩ | ⟨hhead, hrest⟩⟩
      · exact .nothing rfl rfl
      · exact .nothing rfl rfl
      · obtain ⟨r, hf, rfl⟩ := Option.map_eq_some_iff.1 (not_not.1 hhead)
        obtain ⟨-, rfl, -⟩ := mem_queueHead hf
        exact .queued locked (by rwa [Store.unlocked_none]) hrest

/-- A body that picks after the expiries admits nothing. -/
theorem subsiding_of_picked {x : Work (Option OperationClaim)}
    (hx : ∀ {s result s'}, x.Ok s result s' → ∃ s1,
      (prepareClaim c now slotLease retention).Ok s () s1 ∧
        Picked s1 s' locked now slotLease result) :
    Subsiding x := by
  intro s result s' h hk
  obtain ⟨s1, hprep, hp⟩ := hx h
  have hs := (clearing_prepareClaim _ _ _ hprep hk).1
  exact hs.trans ((hp.claimed hs.keyed).subsides hs.keyed)

end AstralPlane.WorkAdmission
