/-
  Retention of admission records (`purge_expired` and
  `oldest_purge_eligible_due_at`).

  * `purge_returns`: a purge of a consistent store returns, since a terminal
    operation holds no slot;
  * `Purged` is what a purge deletes, `purge_ok`: a purge that returns does so;
  * `purged_fewer`: it deletes something when the report finds something, and
    only then, although the operations are selected after the submissions;
  * `retention`: all of it in every state that a run reaches.
-/
import AstralPlane.WorkAdmission.Idempotency

namespace AstralPlane.WorkAdmission

open Tx List

variable {s s1 s' : Store} {now : Time} {limit : ℕ} {fence : Option ExecutionFence}
  {result : PurgeResult} {locked : Locked}

/-! ## The report -/

/-- Something may be purged at `now`. -/
def Store.Due (s : Store) (now : Time) : Prop :=
  (∃ r ∈ s.submissions, purgeableSubmission s now r) ∨
    ∃ r ∈ s.operations, purgeableOperation s now r

theorem oldestPurgeEligibleDueAt_ok (s : Store) (now : Time) :
    ∃ due, (oldestPurgeEligibleDueAt now).Ok s due s ∧ (due.isSome ↔ s.Due now) := by
  refine ⟨_, rfl, ?_⟩
  rw [Option.isSome_iff_ne_none, ne_eq, List.min?_eq_none_iff, eq_nil_iff_forall_not_mem]
  push Not
  constructor
  · rintro ⟨t, ht⟩
    rcases mem_append.1 ht with ht | ht
    · obtain ⟨r, hr, -⟩ := mem_map.1 ht
      exact .inl ⟨r, mem_filter.1 hr⟩
    · obtain ⟨r, hr, -⟩ := mem_filterMap.1 ht
      exact .inr ⟨r, mem_filter.1 hr⟩
  · rintro (⟨r, hr⟩ | ⟨r, hr⟩)
    · exact ⟨_, mem_append_left _ (mem_map_of_mem (mem_filter.2 hr))⟩
    · -- an operation that may be purged has a time from which it may
      obtain ⟨t, ht, -⟩ := (Option.any_eq_true _ _).1 (of_decide_eq_true hr.2).2.1
      exact ⟨t, mem_append_right _ (mem_filterMap.2 ⟨r, mem_filter.2 hr, ht⟩)⟩

/-! ## One purge -/

theorem Consistent.idle (hc : Consistent s) {r : OperationRecord} (hr : r ∈ s.operations)
    (ht : r.state.isTerminal) : ∀ slot ∈ s.slots, slot.operationId ≠ some r.operationId := by
  intro slot hslot hid
  have hn : r.state ≠ .running := by rintro h; rw [h] at ht; cases ht
  have hheld := (hc.coherent r.operationId).idle r (hc.keyed.find.2 ⟨hr, rfl⟩) hn
  have hmem : slot ∈ heldBy s.slots r.operationId := mem_filter.2 ⟨hslot, decide_eq_true hid⟩
  have hnil : heldBy s.slots r.operationId = [] := Multiset.coe_eq_zero _ |>.1 hheld
  rw [hnil] at hmem
  cases hmem

theorem purgeOperations_returns (h : ∀ r ∈ s.operations, r.state.isTerminal →
    ∀ slot ∈ s.slots, slot.operationId ≠ some r.operationId) :
    ∃ n s', (purgeOperations now limit locked).Ok s n s' := by
  refine ⟨_, _, ok_bind.2 ⟨s, s, ok_get.2 ⟨rfl, rfl⟩, ok_bind.2 ⟨(), _, ok_bind.2 ⟨s, s,
    ok_get.2 ⟨rfl, rfl⟩, ok_require_bind (all_eq_true.2 fun slot hslot => ?_) rfl⟩, rfl⟩⟩⟩
  refine Bool.or_eq_true_iff.2 (.inl (decide_eq_true ?_))
  cases hid : slot.operationId with
  | none => rfl
  | some id =>
    refine Option.filter_eq_some_iff.2 ⟨rfl, decide_eq_true fun hmem => ?_⟩
    obtain ⟨r, hr, rfl⟩ := mem_map.1 hmem
    obtain ⟨hrow, hp⟩ := mem_purged hr
    exact h r hrow (of_decide_eq_true hp).1 slot hslot hid

theorem purge_returns (hc : Consistent s) (now : Time) (hl : 1 ≤ limit) (hm : limit ≤ 10000) :
    ∃ result s', (purgeExpired now limit none locked).Ok s result s' := by
  obtain ⟨n, s1, hsub, hops, hslots⟩ : ∃ n s1, (purgeSubmissions now limit locked).Ok s n s1 ∧
      s1.operations = s.operations ∧ s1.slots = s.slots := ⟨_, _, rfl, rfl, rfl⟩
  obtain ⟨m, s', hop⟩ : ∃ m s', (purgeOperations now limit locked).Ok s1 m s' := by
    refine purgeOperations_returns fun r hr ht => ?_
    rw [hslots]
    exact hc.idle (hops ▸ hr) ht
  have hfence : (assertOptionalFence none).Ok s () s := rfl
  exact ⟨⟨m, n⟩, s', ok_require_bind (decide_eq_true ⟨hl, hm⟩) (ok_bind.2 ⟨(), s, hfence,
    ok_bind.2 ⟨n, s1, hsub, ok_bind.2 ⟨m, s', hop, rfl⟩⟩⟩)⟩

/-- What a purge deletes: the operations are those that may be purged once the submissions are. -/
structure Purged (s : Store) (now : Time) (locked : Locked) (s' : Store) : Prop where
  kept : s'.submissions.Sublist s.submissions
  submissions : Swept (fun r => !locked.submissions r.submissionResultId &&
      purgeableSubmission s now r) (·.submissionResultId) s.submissions
    (s'.submissions.map (·.submissionResultId))
  operations : Swept (fun r => !locked.operations r.operationId && purgeableOperation s' now r)
    (·.operationId) s.operations (s'.operations.map (·.operationId))

theorem purge_ok (hc : Consistent s) (hf : Filed s)
    (h : (purgeExpired now limit fence locked).Ok s result s') : Purged s now locked s' := by
  simp only [purgeExpired, ok_rules] at h
  obtain ⟨_, hl, _, _, hfence, _, s1, hsub, _, s2, hop, -, rfl⟩ := h
  obtain rfl := (readOnly_assertOptionalFence fence).ok hfence
  have hl := (of_decide_eq_true hl).1
  simp only [purgeSubmissions, purgeOperations, ok_rules] at hsub hop
  obtain ⟨_, rfl, _, s1, hs1, -, rfl⟩ := hsub
  have hf1 : Filed s1 := by
    rw [← hs1]
    exact FileStep.filed (s := s) (.forget _ rfl rfl rfl rfl) hf
  subst hs1
  obtain ⟨_, rfl, _, s2, hdel, -, rfl⟩ := hop
  obtain ⟨-, -, -, -, hops, -, hsubs⟩ := ok_deleteOperations hdel
  have hsame := hsubs.trans (hf1.unchanged (unreferenced_purgeable fun r => mem_purged))
  refine ⟨by rw [hsame]; exact filter_sublist, by rw [hsame]; exact swept_candidates hf.ids hl, ?_⟩
  have hp : ∀ {s s' : Store}, s'.submissions = s.submissions →
      purgeableOperation s' now = purgeableOperation s now := fun h => by
    funext r
    rw [purgeableOperation, purgeableOperation, h]
  rw [hp hsame, hops, map_map]
  exact swept_candidates hc.keyed hl

/-- The rows that retention is about. -/
def Store.retained (s : Store) : ℕ := s.submissions.length + s.operations.length

theorem purged_fewer (h : Purged s now {} s') : s'.retained < s.retained ↔ s.Due now := by
  have hsub : _ ↔ ∃ r ∈ s.submissions, purgeableSubmission s now r := h.submissions.some
  have hop : _ ↔ ∃ r ∈ s.operations, purgeableOperation s' now r := h.operations.some
  have hle := h.operations.rest.length_le
  rw [length_map] at hsub hop
  rw [length_map, length_map] at hle
  constructor
  · intro hlt
    by_cases hs : s'.submissions.length < s.submissions.length
    · exact .inl (hsub.1 hs)
    · -- no submission was deleted, so that the operations were those that were due before
      have heq := h.kept.eq_of_length_le (by omega)
      obtain ⟨r, hr, hp⟩ := hop.1 (by rw [Store.retained, Store.retained] at hlt; omega)
      refine .inr ⟨r, hr, ?_⟩
      rwa [purgeableOperation, heq] at hp
  · have hkept := h.kept.length_le
    rintro (hdue | ⟨r, hr, hp⟩)
    · have hlt := hsub.2 hdue
      rw [Store.retained, Store.retained]
      omega
    · -- fewer submissions refer to the operation
      have hp := of_decide_eq_true hp
      have hlt := hop.2 ⟨r, hr, decide_eq_true ⟨hp.1, hp.2.1, fun hany => hp.2.2 ?_⟩⟩
      · rw [Store.retained, Store.retained]
        omega
      · obtain ⟨row, hrow, hrefers⟩ := any_eq_true.1 hany
        exact any_eq_true.2 ⟨row, h.kept.subset hrow, hrefers⟩

/-! ## Every run -/

/-- The operation has ended and is past its retention. -/
def OperationRecord.Expired (o : OperationRecord) (now : Time) : Prop :=
  o.state.isTerminal ∧ ∃ t, o.purgeAfter = some t ∧ t < now

/-- The submission is past its retention, and was refused or its operation is gone or has expired. -/
def SubmissionRow.Expired (r : SubmissionRow) (s : Store) (now : Time) : Prop :=
  r.purgeAfter < now ∧ (r.accepted = false ∨
    (∀ o ∈ s.operations, r.operationId ≠ some o.operationId) ∨
    ∃ o ∈ s.operations, r.operationId = some o.operationId ∧ o.Expired now)

theorem purgeableSubmission_expired {r : SubmissionRow}
    (h : purgeableSubmission s now r) : r.Expired s now := by
  obtain ⟨hdue, hwhy⟩ := Bool.and_eq_true_iff.1 h
  refine ⟨of_decide_eq_true hdue, ?_⟩
  rcases Bool.or_eq_true_iff.1 hwhy with hrefused | hop
  · exact .inl (by simpa using hrefused)
  · split at hop
    · rename_i hnone
      refine .inr (.inl fun o ho hid => ?_)
      rw [hid, Option.bind_some] at hnone
      exact List.find?_eq_none.1 hnone o ho (decide_eq_true rfl)
    · rename_i o hsome
      obtain ⟨id, hid, hfind⟩ := Option.bind_eq_some_iff.1 hsome
      obtain ⟨hterm, hpast⟩ := Bool.and_eq_true_iff.1 hop
      obtain ⟨t, ht, hlt⟩ := (Option.any_eq_true _ _).1 hpast
      have hkey : o.operationId = id := by simpa using List.find?_some hfind
      exact .inr (.inr ⟨o, mem_of_find?_eq_some hfind, by rw [hid, hkey], hterm, t, ht,
        of_decide_eq_true hlt⟩)

theorem purgeableOperation_expired {o : OperationRecord} (h : purgeableOperation s now o) :
    o.Expired now ∧ ∀ r ∈ s.submissions, r.accepted → r.operationId ≠ some o.operationId := by
  obtain ⟨hterm, hpast, hnone⟩ := of_decide_eq_true h
  obtain ⟨t, ht, hlt⟩ := (Option.any_eq_true _ _).1 hpast
  refine ⟨⟨hterm, t, ht, of_decide_eq_true hlt⟩, fun r hr hacc hid => hnone ?_⟩
  exact any_eq_true.2 ⟨r, hr, decide_eq_true ⟨hacc, hid⟩⟩

theorem Filed.referred (hf : Filed s) : ∀ r ∈ s.submissions, r.accepted →
    ∃ o ∈ s.operations, r.operationId = some o.operationId := by
  intro r hr hacc
  rw [hf.outcome r hr] at hacc
  obtain ⟨id, hid⟩ := Option.isSome_iff_exists.1 hacc
  obtain ⟨card, hcard, hkey⟩ := hf.known r hr id hid
  obtain ⟨o, ho, rfl⟩ := mem_map.1 hcard
  exact ⟨o, ho, hid.trans (congrArg some hkey.symm)⟩

theorem purge_clears (hc : Consistent s) (hf : Filed s) (hl : 1 ≤ limit) (hm : limit ≤ 10000) :
    ∃ n, ¬ (s.run (List.replicate n (.purgeExpired now limit none))).Due now := by
  by_cases hdue : s.Due now
  · refine run_replicate (P := fun s => Consistent s ∧ Filed s ∧ s.Due now)
      (Q := fun s => ¬ s.Due now) Store.retained ?_ ⟨hc, hf, hdue⟩
    rintro s ⟨hc, hf, hdue⟩
    obtain ⟨result, s', h⟩ := purge_returns hc now hl hm
    have hcommit : (Call.purgeExpired now limit none).commit s = s' :=
      commit_ok (ok_bind.2 ⟨result, s', h, rfl⟩)
    have hp := commit_proceeds (.purgeExpired now limit none) hc.keyed
    by_cases hdue' : ((Call.purgeExpired now limit none).commit s).Due now
    · refine .inr ⟨⟨hc.commit _, hp.files.filed hf, hdue'⟩, ?_⟩
      rw [hcommit]
      exact (purged_fewer (purge_ok hc hf h)).2 hdue
    · exact .inl hdue'
  · exact ⟨0, hdue⟩

/-- Retention in the state `s` at the time `now`: what is reported and what purges delete. -/
structure Retention (s : Store) (now : Time) : Prop where
  reported : ∀ limit, 1 ≤ limit → limit ≤ 10000 → ∃ due result s',
    (oldestPurgeEligibleDueAt now).Ok s due s ∧ (purgeExpired now limit none {}).Ok s result s' ∧
      (due.isSome ↔ s'.retained < s.retained)
  submissions : ∀ limit fence locked result s', (purgeExpired now limit fence locked).Ok s result s' →
    ∀ r ∈ s.submissions, r.submissionResultId ∉ s'.submissions.map (·.submissionResultId) →
      r.Expired s now
  operations : ∀ limit fence locked result s', (purgeExpired now limit fence locked).Ok s result s' →
    ∀ o ∈ s.operations, o.operationId ∉ s'.operations.map (·.operationId) →
      o.Expired now ∧ ∀ r ∈ s'.submissions, r.accepted → r.operationId ≠ some o.operationId
  referred : ∀ r ∈ s.submissions, r.accepted →
    ∃ o ∈ s.operations, r.operationId = some o.operationId
  cleared : ∀ limit, 1 ≤ limit → limit ≤ 10000 → ∃ n, ∃ s',
    s.run (List.replicate n (.purgeExpired now limit none)) = s' ∧
      (oldestPurgeEligibleDueAt now).Ok s' none s'

/-- **Retention** in every state that a run reaches, at every time. -/
theorem retention (configs : List AdmissionClassConfig) (s₀ : Store)
    (hv : validateAdmissionGraph configs = .ok ()) (h₀ : Vacant s₀) (hs : s₀.submissions = [])
    (hinj : Function.Injective s₀.uuid4) (calls : List Call) (now : Time) :
    Retention ((install configs s₀).run calls) now := by
  obtain ⟨hc, hf⟩ := install_run hv h₀ hs hinj calls
  refine ⟨fun limit hl hm => ?_, fun limit fence locked result s' h r hr hgone => ?_,
    fun limit fence locked result s' h o ho hgone => ?_, hf.referred, fun limit hl hm => ?_⟩
  · obtain ⟨due, hreport, hdue⟩ := oldestPurgeEligibleDueAt_ok _ now
    obtain ⟨result, s', h⟩ := purge_returns hc now hl hm
    exact ⟨due, result, s', hreport, h, hdue.trans (purged_fewer (purge_ok hc hf h)).symm⟩
  · have hp := (purge_ok hc hf h).submissions.only r hr hgone
    exact purgeableSubmission_expired (Bool.and_eq_true_iff.1 hp).2
  · have hp := (purge_ok hc hf h).operations.only o ho hgone
    exact purgeableOperation_expired (Bool.and_eq_true_iff.1 hp).2
  · obtain ⟨n, hn⟩ := purge_clears hc hf hl hm
    obtain ⟨due, hreport, hdue⟩ := oldestPurgeEligibleDueAt_ok _ now
    cases due with
    | none => exact ⟨n, _, rfl, hreport⟩
    | some t => exact absurd (hdue.1 rfl) hn

theorem retention_small :
    (oldestPurgeEligibleDueAt 2000000 ((install smallConfigs emptyStore).run
      [submitChat 1 0, .expireExecutionLeases 5000 1000])).1 = .ok (some 1000000) ∧
    Retention ((install smallConfigs emptyStore).run
      [submitChat 1 0, .expireExecutionLeases 5000 1000]) 2000000 :=
  ⟨by rfl, retention smallConfigs emptyStore rfl vacant_emptyStore rfl injective_emptyStore _ _⟩

end AstralPlane.WorkAdmission
