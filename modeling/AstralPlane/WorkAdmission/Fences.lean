/-
  The fate of an execution fence.

  A fence that a claim has handed out marks no slot of its operation any more
  (`Spent`), so no later claim hands it out again.  A fence of an operation that
  has ended, was purged or was selected again is `Outdated`: no row matches it,
  and a call that carries it writes nothing (`quiet_of_outdated`).  Both are
  kept by every step of the protocol; `operation_lifecycle` puts them together with the
  life of the rows.
-/
import AstralPlane.WorkAdmission.Lifecycle

namespace AstralPlane.WorkAdmission

open Relation Tx Multiset

variable {s s' : Store} {configs : List AdmissionClassConfig} {fence : ExecutionFence}
  {claim : OperationClaim} {r : OperationRecord} {slotLease : Time}

/-! ## Consistent stores -/

/-- What every reachable store satisfies, over a supply of distinct UUIDs. -/
structure Consistent (s : Store) : Prop where
  keyed : Keyed s
  sound : Sound s
  coherent : ∀ id, OpCoherent s.configs (s.view id)
  distinct : Function.Injective s.uuid4

theorem Consistent.evolves (h : Consistent s) (he : Evolves s s') : Consistent s' where
  keyed := he.keyed
  sound := h.sound.evolves he
  coherent id := by
    rw [he.configs]
    exact he.keeps (fun _ _ hstep hv => hstep.coherent hv) (h.coherent id)
  distinct := by rw [he.uuid4]; exact h.distinct

theorem Vacant.consistent (h : Vacant s) (hinj : Function.Injective s.uuid4) : Consistent s where
  keyed := h.keyed
  sound := h.sound
  coherent id := by rw [h.view]; exact .of_idle fun r hr => by cases hr
  distinct := hinj

theorem Consistent.commit (h : Consistent s) (call : Call) : Consistent (call.commit s) :=
  h.evolves (commit_evolves call h.keyed)

theorem Consistent.run (h : Consistent s) (calls : List Call) : Consistent (s.run calls) :=
  h.evolves (run_evolves calls h.keyed)

/-! ## Fences that a claim has handed out -/

/-- The fence's token has been drawn, and no slot of its operation carries it. -/
structure Spent (s : Store) (fence : ExecutionFence) : Prop where
  drawn : Drawn s fence.executionLeaseToken
  unmarked : ∀ slot ∈ (s.view fence.operationId).held,
    slot.leaseToken ≠ some fence.executionLeaseToken

theorem OpStep.unmarked {fresh : Uuid → Prop} {id t : Uuid} {v v' : View} (ht : ¬ fresh t)
    (h : OpStep configs fresh id v v') (hv : ∀ slot ∈ v.held, slot.leaseToken ≠ some t) :
    ∀ slot ∈ v'.held, slot.leaseToken ≠ some t := by
  have hne : ∀ u, fresh u → some u ≠ some t := fun u hu he => ht (Option.some.inj he ▸ hu)
  intro slot hslot
  cases h with
  | enqueue | touch | lapse | orphan => exact hv slot hslot
  | finish | release | forget => exact absurd hslot (notMem_zero _)
  | start _ _ _ _ _ _ hft _ _ hl =>
    rcases mem_add.1 hslot with hslot | hslot
    · exact hv slot hslot
    · rw [(hl slot hslot).leaseToken]; exact hne _ hft
  | select _ _ _ _ _ _ hl =>
    rcases mem_add.1 hslot with hslot | hslot
    · exact hv slot hslot
    · obtain ⟨u, hu, hlu⟩ := hl slot hslot
      rw [hlu.leaseToken]; exact hne u hu
  | handover _ _ hft =>
    obtain ⟨slot0, hslot0, rfl⟩ := mem_map.1 hslot
    split
    · exact hne _ hft
    · exact hv slot0 hslot0
  | renew _ hft | reselect _ _ _ _ hft =>
    obtain ⟨slot0, -, rfl⟩ := mem_map.1 hslot
    exact hne _ hft

theorem Spent.evolves (h : Spent s fence) (hc : Consistent s) (he : Evolves s s') :
    Spent s' fence where
  drawn := h.drawn.mono he
  unmarked := he.keeps (P := fun v => ∀ slot ∈ v.held, slot.leaseToken ≠ _)
    (fun _ _ hstep hv => hstep.unmarked (h.drawn.not_fresh hc.distinct) hv) h.unmarked

/-- A claim spends the fence that it hands out. -/
theorem Claimed.spent {now : Time} (hc : Consistent s) (h : Claimed s s' now slotLease (some claim))
    : Spent s' claim.fence := by
  have he := (h.subsides hc.keyed).toEvolves
  cases h with
  | @handed r _ hr hp ho =>
    have hd : Drawn s claim.fence.executionLeaseToken :=
      (hc.sound r.operationId).token r _ hr ho.token
    refine ⟨hd.mono he, ?_⟩
    rw [ho.operationId, ho.store]
    simp only [Store.view, heldBy_marker]
    intro slot hslot
    obtain ⟨slot0, -, rfl⟩ := List.mem_map.1 (mem_coe.1 hslot)
    split
    · -- the new label is not the old marker, which was drawn before
      intro hlabel
      refine hd.not_fresh hc.distinct ⟨s.draws, le_rfl, Nat.lt_succ_self _, ?_⟩
      exact (Option.some.inj hlabel).symm
    · assumption
  | @taken s1 r selected _ hr hq ht =>
    have hs' := ht.store
    have hs1 := ht.occupied.store
    refine ⟨⟨s1.draws, ?_, ?_⟩, ?_⟩
    · rw [hs']; exact Nat.lt_succ_self _
    · rw [hs', hs1, ht.token, hs1]
    · rw [ht.operationId, hs']
      -- a queued operation holds nothing, so its slots are those just occupied
      have hnone : heldBy s.slots r.operationId = [] :=
        coe_eq_zero _ |>.1 ((hc.coherent r.operationId).idle r hr (by simp [hq]))
      obtain ⟨new, hperm, -, htok, hl⟩ := ht.occupied.gained
      rw [hnone, List.append_nil] at hperm
      intro slot hslot hlabel
      obtain ⟨t, htt, hlt⟩ := leased_of_tokens htok hl (hperm.mem_iff.1 (mem_coe.1 hslot))
      rw [hlt.leaseToken, ht.token] at hlabel
      obtain ⟨k, hk, rfl⟩ := List.mem_map.1 htt
      have := hc.distinct (Option.some.inj hlabel)
      rw [List.mem_range'_1] at hk
      rw [ht.draws] at this
      omega

theorem Claimed.not_spent {now : Time} (hc : Consistent s)
    (h : Claimed s s' now slotLease (some claim)) : ¬ Spent s claim.fence := by
  intro hsp
  cases h with
  | @handed r _ hr hp ho =>
    obtain ⟨-, -, -, hany⟩ := of_decide_eq_true hp
    obtain ⟨slot, hslot, hm⟩ := List.any_eq_true.1 hany
    obtain ⟨hid, -, -, htoken⟩ := of_decide_eq_true hm
    rw [ho.token] at htoken
    refine hsp.unmarked slot (mem_coe.2 (List.mem_filter.2 ⟨hslot, ?_⟩)) htoken
    rw [ho.operationId]
    exact decide_eq_true hid
  | taken hr hq ht =>
    refine hsp.drawn.not_fresh hc.distinct ⟨_, ?_, Nat.lt_succ_self _, ht.token⟩
    rw [ht.draws]
    exact Nat.le_add_right _ _

/-! ## Claims of a run -/

/-- The fence that a call hands out as a claim. -/
def Call.claims (call : Call) (s : Store) : List ExecutionFence :=
  match (exec call s).1 with
  | .ok (.claim (some claim)) => [claim.fence]
  | _ => []

/-- The fences that the claims of a run hand out, in order. -/
def claimsOf : List Call → Store → List ExecutionFence
  | [], _ => []
  | call :: calls, s => call.claims s ++ claimsOf calls (call.commit s)

/-- A call claims nothing, or the one fence of a claim that its transaction commits. -/
theorem Call.claims_spec (call : Call) (hk : Keyed s) : call.claims s = [] ∨
    ∃ s1 now slotLease claim, call.claims s = [claim.fence] ∧ Evolves s s1 ∧
      Claimed s1 (call.commit s) now slotLease (some claim) := by
  rw [Call.claims]
  split
  · rename_i claim h
    have hok : (exec call).Ok s (.claim (some claim)) (exec call s).2 := by
      rw [Tx.Ok, ← h]
    obtain ⟨now, slotLease, s1, -, he, -, hc⟩ := exec_claim hk hok
    exact .inr ⟨s1, now, slotLease, claim, rfl, he, by rw [Call.commit, commit_ok hok]; exact hc⟩
  · exact .inl rfl

theorem not_mem_claimsOf (calls : List Call) (hc : Consistent s) (h : Spent s fence) :
    fence ∉ claimsOf calls s := by
  induction calls generalizing s with
  | nil => exact List.not_mem_nil
  | cons call calls ih =>
    have he := commit_evolves call hc.keyed
    refine fun hmem => (List.mem_append.1 hmem).elim ?_ (ih (hc.commit call) (h.evolves hc he))
    intro hcl
    rcases call.claims_spec hc.keyed with hn | ⟨s1, now, lease, claim, heq, he1, hclaim⟩
    · rw [hn] at hcl; exact List.not_mem_nil hcl
    · rw [heq, List.mem_singleton] at hcl
      subst hcl
      exact hclaim.not_spent (hc.evolves he1) (h.evolves hc he1)

/-- **No fence is handed out by two claims of a run.** -/
theorem claimsOf_nodup {calls : List Call} (hc : Consistent s) : (claimsOf calls s).Nodup := by
  induction calls generalizing s with
  | nil => exact List.nodup_nil
  | cons call calls ih =>
    have hrest := ih (hc.commit call)
    rcases call.claims_spec hc.keyed with hn | ⟨s1, now, lease, claim, heq, he1, hclaim⟩
    · rw [claimsOf, hn]; exact hrest
    · have hsp := hclaim.spent (hc.evolves he1)
      rw [claimsOf, heq]
      exact List.nodup_cons.2 ⟨not_mem_claimsOf calls (hc.commit call) hsp, hrest⟩

/-! ## Outdated fences -/

def Call.fence? : Call → Option ExecutionFence
  | .terminalize fence .. => some fence
  | .assertCurrentExecution fence => some fence
  | .assertCurrentExecutionLease fence _ => some fence
  | .reselectExecution fence .. => some fence
  | .renewExecutionLease fence .. => some fence
  | .updatePhase fence .. => some fence
  | .bindChat fence .. => some fence
  | .bindRequestGeneration fence .. => some fence
  | .bindHarnessProfile _ fence .. => some fence
  | .purgeExpired _ _ fence _ => fence
  | _ => none

/-- The operation of the fence, if it is still there, has ended or was selected again. -/
structure Outdated (s : Store) (fence : ExecutionFence) : Prop where
  drawn : Drawn s fence.operationId
  row : ∀ r, (s.view fence.operationId).row = some r →
    r.state.isTerminal ∨ fence.executionGeneration < r.executionGeneration

theorem Evolves.rowLater {id : Uuid} (he : Evolves s s') (hinj : Function.Injective s.uuid4)
    (hd : Drawn s id) (hr : (s.view id).row = some r) : RowLater r (s'.view id) :=
  he.keeps (fun _ _ hstep hv => hstep.rowLater (hd.not_fresh hinj) hv) fun r' hr' => by
    cases hr.symm.trans hr'
    exact .refl r

theorem Evolves.absent {id : Uuid} (he : Evolves s s') (hinj : Function.Injective s.uuid4)
    (hd : Drawn s id) (hr : (s.view id).row = none) : (s'.view id).row = none :=
  he.keeps (fun _ _ hstep hv => hstep.absent (hd.not_fresh hinj) hv) hr

theorem Outdated.evolves (h : Outdated s fence) (hc : Consistent s) (he : Evolves s s') :
    Outdated s' fence := by
  refine ⟨h.drawn.mono he, fun r' hr' => ?_⟩
  cases hr : (s.view fence.operationId).row with
  | none =>
    rw [he.absent hc.distinct h.drawn hr] at hr'
    cases hr'
  | some r =>
    have hg := he.rowLater hc.distinct h.drawn hr r' hr'
    rcases h.row r hr with ht | ht
    · left; rw [(hg.terminal ht).state]; exact ht
    · right; exact ht.trans_le hg.generation

theorem Outdated.not_matches (h : Outdated s fence) (hr : (s.view fence.operationId).row = some r) :
    fenceMatches r fence ≠ true := by
  intro hm
  obtain ⟨hs, hg, -⟩ := fenceMatches_iff.1 hm
  rcases h.row r hr with ht | ht
  · rw [hs] at ht; cases ht
  · exact absurd hg.symm ht.ne

theorem Outdated.not_asserted (h : Outdated s fence) (r : OperationRecord) :
    ¬ (assertCurrentExecutionSession fence).Ok s r s := by
  intro hr
  obtain ⟨hrow, hm, -⟩ := ok_assertCurrentExecutionSession.1 hr
  exact h.not_matches hrow hm

/-- A body that asserts an outdated fence first writes nothing. -/
theorem Outdated.quiet_assert {α : Type} {f : OperationRecord → Work α} (h : Outdated s fence) :
    (assertCurrentExecutionSession fence >>= f).Quiet s :=
  Tx.quiet_of_error (readOnly_assertCurrentExecutionSession fence) h.not_asserted

/-- **A call that carries an outdated fence writes nothing.** -/
theorem quiet_of_outdated {call : Call} (hf : call.fence? = some fence) (h : Outdated s fence)
    (hk : Keyed s) : (exec call).Quiet s := by
  cases call
  case purgeExpired =>
    obtain rfl : _ = some fence := hf
    refine (Tx.quiet_bind (readOnly_require _ _) fun _ _ => ?_).map _
    refine Tx.quiet_of_error (readOnly_assertOptionalFence _) fun _ ha => ?_
    obtain ⟨r, s1, hr, -, rfl⟩ := ok_bind.1 ha
    exact h.not_asserted r hr
  all_goals cases hf
  case terminalize =>
    refine Tx.Quiet.map (Tx.quiet_bind readOnly_validatedTerminalPayload fun _ _ =>
      Tx.quiet_bind readOnly_validatedDuration fun _ _ =>
        Tx.quiet_bind readOnly_operationRow fun row hrow => ?_) _
    cases row with
    | none => exact (readOnly_raise _).quiet s
    | some r =>
      dsimp only
      split
      · exact (readOnly_pure r).quiet s
      · refine Tx.quiet_of_error (readOnly_require _ _) fun _ hm => ?_
        exact h.not_matches (ok_operationRow.1 hrow).1 (ok_require.1 hm).1
  case assertCurrentExecution => exact h.quiet_assert
  case assertCurrentExecutionLease => exact (readOnly_assertCurrentExecutionLease.quiet s).map _
  case reselectExecution | renewExecutionLease =>
    exact (Tx.quiet_bind readOnly_validatedDuration fun _ _ => h.quiet_assert).map _
  case updatePhase => exact (Tx.quiet_bind readOnly_validatedCode fun _ _ => h.quiet_assert).map _
  case bindChat => exact (Tx.quiet_bind (readOnly_require _ _) fun _ _ => h.quiet_assert).map _
  case bindRequestGeneration => exact h.quiet_assert.map _
  case bindHarnessProfile =>
    refine (Tx.quiet_bind (readOnly_getOperationRecord _ _) fun row hrow => ?_).map _
    cases row with
    | none => exact (readOnly_raise _).quiet s
    | some =>
      refine Tx.quiet_of_error (readOnly_require _ _) fun _ hm => ?_
      exact h.not_matches (hk.find_and (ok_getOperationRecord.1 hrow).1).1 (ok_require.1 hm).1

/-! ## The lifecycle of operations -/

/-- The life of the operations of `s` over the run `later`. -/
structure Lifecycle (s : Store) (later : List Call) : Prop where
  absorbing : ∀ r ∈ s.operations, r.state.isTerminal → ∀ r' ∈ (s.run later).operations,
    r'.operationId = r.operationId → SameButParent r r'
  gone : ∀ r ∈ s.operations, (∀ r' ∈ (s.run later).operations, r'.operationId ≠ r.operationId) →
    ∀ more, ∀ r' ∈ ((s.run later).run more).operations, r'.operationId ≠ r.operationId
  revision : ∀ r ∈ s.operations, ∀ r' ∈ (s.run later).operations, r'.operationId = r.operationId →
    SameButParent r r' ∨ r.stateRevision < r'.stateRevision
  generation : ∀ r ∈ s.operations, ∀ r' ∈ (s.run later).operations,
    r'.operationId = r.operationId → r.executionGeneration ≤ r'.executionGeneration
  token : ∀ r ∈ s.operations, r.executionLeaseToken.isSome ↔ r.state = .running
  stale : ∀ r ∈ s.operations, ∀ fence : ExecutionFence, fence.operationId = r.operationId →
    (r.state.isTerminal ∨ fence.executionGeneration < r.executionGeneration) →
    ∀ call : Call, call.fence? = some fence → call.commit (s.run later) = s.run later

theorem Consistent.lifecycle (hc : Consistent s) (later : List Call) : Lifecycle s later := by
  have he := run_evolves later hc.keyed
  have hrow : ∀ r ∈ s.operations, (s.view r.operationId).row = some r :=
    fun r hr => hc.keyed.find.2 ⟨hr, rfl⟩
  have hd : ∀ r ∈ s.operations, Drawn s r.operationId :=
    fun r hr => (hc.sound r.operationId).drawn r (hrow r hr)
  have hgrew : ∀ r ∈ s.operations, ∀ r' ∈ (s.run later).operations,
      r'.operationId = r.operationId → Grew r r' := fun r hr r' hr' hid =>
    he.rowLater hc.distinct (hd r hr) (hrow r hr) r' (he.keyed.find.2 ⟨hr', hid⟩)
  refine ⟨fun r hr ht r' hr' hid => (hgrew r hr r' hr' hid).terminal ht, ?_,
    fun r hr r' hr' hid => (hgrew r hr r' hr' hid).revision,
    fun r hr r' hr' hid => (hgrew r hr r' hr' hid).generation,
    fun r hr => check_token ((hc.sound r.operationId).check r (hrow r hr)), ?_⟩
  · intro r hr hgone more r' hr' hid
    -- an absent id that has been drawn stays absent
    have habs : ((s.run later).view r.operationId).row = none :=
      List.find?_eq_none.2 fun r' hr' => by simpa using hgone r' hr'
    have he' := run_evolves more he.keyed
    have := he'.absent (hc.run later).distinct ((hd r hr).mono he) habs
    rw [Store.view, he'.keyed.find.2 ⟨hr', hid⟩] at this
    cases this
  · intro r hr fence hid h call hcall
    have hout : Outdated s fence := by
      have hrow := hc.keyed.find.2 ⟨hr, hid.symm⟩
      refine ⟨(hc.sound fence.operationId).drawn r hrow, fun r' hr' => ?_⟩
      cases hrow.symm.trans hr'
      exact h
    exact (quiet_of_outdated hcall (hout.evolves hc he) he.keyed).commit

/-- **The lifecycle of operations and their fences** over every run of an installed configuration:
    no fence is handed out by two claims, and from every state on the rows grow and calls under
    older fences write nothing. -/
theorem operation_lifecycle (configs : List AdmissionClassConfig) (s₀ : Store)
    (hv : validateAdmissionGraph configs = .ok ()) (h₀ : Vacant s₀)
    (hinj : Function.Injective s₀.uuid4) (earlier later : List Call) :
    (claimsOf (earlier ++ later) (install configs s₀)).Nodup ∧
      Lifecycle ((install configs s₀).run earlier) later := by
  obtain ⟨-, hvac, -⟩ := install_spec hv h₀
  have hc : Consistent (install configs s₀) :=
    hvac.consistent (by rw [install_uuid4 hv]; exact hinj)
  exact ⟨claimsOf_nodup hc, (hc.run earlier).lifecycle later⟩

theorem injective_emptyStore : Function.Injective emptyStore.uuid4 :=
  fun _ _ h => congrArg Uuid.int h

theorem operation_lifecycle_small :
    (claimsOf ([submitChat 1 0] ++ [.claimNext .interactive 1 1000 1000])
      (install smallConfigs emptyStore)).Nodup ∧
    Lifecycle ((install smallConfigs emptyStore).run [submitChat 1 0])
      [.claimNext .interactive 1 1000 1000] :=
  operation_lifecycle smallConfigs emptyStore rfl vacant_emptyStore injective_emptyStore [submitChat 1 0]
    [.claimNext .interactive 1 1000 1000]

/-- A second request of the same user, under the operation of the first. -/
def submitChild (now : Time) : Call :=
  .submit ⟨fun _ => .ok (), fun _ _ _ _ => .ok ()⟩
    { chatRequest 2 with parentOperationId := some ⟨0⟩ } now 1000000 1000

/-- The worker of the first request reports its end. -/
def completeFirst (now : Time) : Call :=
  .terminalize ⟨⟨0⟩, 1, ⟨1⟩, Nat.one_pos⟩ .completed none none none now 1000000

/-- A pre-selected operation has a token before any claim; a purge of its parent changes a row at
    the same revision; and the fence of a claimed operation still ends it after a cancellation. -/
theorem operation_lifecycle_exceptions :
    let s₀ := install smallConfigs emptyStore
    let preselected := s₀.run [submitChat 1 0]
    let parentEnded := s₀.run [submitChat 1 0, submitChild 1, cancelFirst 2]
    let cancelled := s₀.run [submitChat 1 0, .claimNext .interactive 1 1000 1000, cancelFirst 2]
    (preselected.operations.any (fun r => r.state = .running ∧ r.executionLeaseToken.isSome) ∧
      claimsOf [submitChat 1 0] s₀ = []) ∧
    (parentEnded.operations.any fun r => ((Call.purgeExpired 2000000 10 none).commit
      parentEnded).operations.any fun r' =>
        r'.operationId = r.operationId ∧ r' ≠ r ∧ r'.stateRevision = r.stateRevision) ∧
    (cancelled.operations.any (·.cancelRequestedAt.isSome) ∧
      (cancelled.operations.any (·.state.isTerminal)) = false ∧
      ((completeFirst 3).commit cancelled).operations.any (·.state.isTerminal)) := by
  decide

end AstralPlane.WorkAdmission
