/-
  Occurrences are fenced by their claims.

  What a run keeps is read off the writes of one row (`Write`): a lease token
  stands in a held row only, generation and attempt count move together, ended
  occurrences stay ended, a running one is left by its own claim or by a claim
  after its lease, and a fence that is not current never becomes current again.
  A call under a fence that is not current writes nothing at all.
-/
import AstralPlane.Scheduler.Occurrences

namespace AstralPlane.Scheduler

open Relation OccurrenceColumns

variable {f : Fence} {s : Store} {now : Time}

/-! ## Rows -/

structure OccurrenceColumns.Sound (r : OccurrenceColumns) : Prop where
  /-- a token stands in a held row only -/
  token : r.leaseToken.isSome → r.state.held
  /-- every claim is an attempt -/
  attempts : r.attemptCount = r.claimGeneration

section
variable {m : Method} {i : Uuid} {r r' : OccurrenceRow}

theorem claimColumns_eq {r : OccurrenceColumns} {g a : ℕ} {t : Option Uuid}
    (h : r.claimColumns = (g, a, t)) :
    r.claimGeneration = g ∧ r.attemptCount = a ∧ r.leaseToken = t := by
  simpa [claimColumns] using h

theorem Write.sound (h : Write m i r r') (hr : r.Sound) :
    r'.Sound ∧ (r.state.terminal → r'.state = r.state) := by
  obtain ⟨htoken, hattempts⟩ := hr
  rcases h.change with ⟨hstate, hclaim, -⟩ | ⟨_, _, -, hfree, hstate, hclaim⟩ |
    ⟨hfrom, hstate, hclaim⟩ | ⟨f, -, -, -, hheld, -, hclaim⟩ | ⟨hfrom, -, hclaim⟩ <;>
    obtain ⟨hg, ha, ht⟩ := claimColumns_eq hclaim <;>
    refine ⟨⟨?_, by rw [hg, ha, hattempts]⟩, fun hend => ?_⟩
  · rwa [ht, hstate]
  · exact hstate
  · exact fun _ => by rw [hstate]; rfl
  · simp [claimable, hend] at hfree
  · exact fun _ => by rw [hstate]; rfl
  · rw [hfrom] at hend
    cases hend
  · simp [ht]
  · have hstate := htoken (by simp [(holds_iff.1 hheld).2])
    rcases hs : r.state <;> rw [hs] at hstate hend <;> cases hstate <;> cases hend
  · simp [ht]
  · rcases hs : r.state <;> rw [hs] at hfrom hend <;> cases hfrom <;> cases hend

theorem sound_of_writes (h : ReflTransGen (Write m i) r r') (hr : r.Sound) :
    r'.Sound ∧ (r.state.terminal → r'.state = r.state) := by
  induction h with
  | refl => exact ⟨hr, fun _ => rfl⟩
  | tail _ hw ih =>
    obtain ⟨hsound, hstate⟩ := hw.sound ih.1
    exact ⟨hsound, fun hend => by rw [hstate (by rwa [ih.2 hend]), ih.2 hend]⟩

/-- The fence was one of the row's, or could have been, and is none. -/
def OccurrenceColumns.Superseded (r : OccurrenceColumns) (f : Fence) : Prop :=
  f.generation ≤ r.claimGeneration ∧ r.holds f = false

theorem Write.superseded (h : Write m i r r') (hf : r.Superseded f) : r'.Superseded f := by
  obtain ⟨hle, hnot⟩ := hf
  have hnot' : r.claimGeneration = f.generation → r.leaseToken ≠ some f.token := by
    intro hg ht
    rw [holds_iff.2 ⟨hg, ht⟩] at hnot
    cases hnot
  have hfalse : r'.holds f = false ↔ (r'.claimGeneration = f.generation → r'.leaseToken ≠ some f.token) := by
    rw [← Bool.not_eq_true, holds_iff, not_and]
  rw [OccurrenceColumns.Superseded, hfalse]
  rcases h.change with ⟨-, hclaim, -⟩ | ⟨_, _, -, -, -, hclaim⟩ | ⟨-, -, hclaim⟩ |
    ⟨_, -, -, -, -, -, hclaim⟩ | ⟨-, -, hclaim⟩ <;> obtain ⟨hg, -, ht⟩ := claimColumns_eq hclaim <;>
    rw [hg, ht]
  · exact ⟨hle, hnot'⟩
  · exact ⟨by omega, fun h => by omega⟩
  · exact ⟨hle, hnot'⟩
  · exact ⟨hle, fun _ => by simp⟩
  · exact ⟨hle, fun _ => by simp⟩

/-- How a running occurrence is left by a call: by the claim that holds it, or by a claim after the
    lease. -/
def Method.Leaves (m : Method) (i : Uuid) (r : OccurrenceColumns) : Prop :=
  (m.endsClaim ∧ ∃ f, m.fence = some f ∧ f.occurrenceId = i ∧ r.holds f) ∨
  ∃ now, m.claimTime i = some now ∧ r.leaseExpiresAt.any (· ≤ now)

theorem Write.running (h : Write m i r r') (hrun : r.state = .running) :
    m.Leaves i r.toOccurrenceColumns ∨ r'.state = .running ∧ r'.claimColumns = r.claimColumns ∧
      (r'.leaseExpiresAt = r.leaseExpiresAt ∨ m.fence.isSome) := by
  rcases h.change with ⟨hstate, hclaim, hlease⟩ | ⟨now, _, htime, hfree, -, -⟩ | ⟨hfrom, -, -⟩ |
    ⟨f, hends, hfence, hid, hheld, -, -⟩ | ⟨hfrom, -, -⟩
  · exact .inr ⟨by rw [hstate, hrun], hclaim, hlease⟩
  · simp only [claimable, hrun, OccurrenceState.held, OccurrenceState.terminal,
      Bool.not_true, Bool.false_or, Bool.not_false, Bool.true_and] at hfree
    exact .inl (.inr ⟨now, htime, hfree⟩)
  · cases hrun.symm.trans hfrom
  · exact .inl (.inl ⟨hends, f, hfence, hid, hheld⟩)
  · rw [hrun] at hfrom
    cases hfrom

theorem running_of_writes (h : ReflTransGen (Write m i) r r') (hrun : r.state = .running) :
    m.Leaves i r.toOccurrenceColumns ∨ r'.state = .running ∧ r'.claimColumns = r.claimColumns ∧
      (r'.leaseExpiresAt = r.leaseExpiresAt ∨ m.fence.isSome) := by
  induction h with
  | refl => exact .inr ⟨hrun, rfl, .inl rfl⟩
  | tail _ hw ih =>
    rcases ih with ih | ⟨hstate, hclaim, hlease⟩
    · exact .inl ih
    obtain ⟨hg, -, ht⟩ := claimColumns_eq hclaim
    rcases hw.running hstate with (⟨hends, f, hfence, hid, hheld⟩ | ⟨now, htime, hexpired⟩) |
      ⟨hstate', hclaim', hlease'⟩
    · -- the token and generation that the claim presents have been there since the call began
      rw [holds_iff, hg, ht, ← holds_iff] at hheld
      exact .inl (.inl ⟨hends, f, hfence, hid, hheld⟩)
    · -- a call that claims carries no claim, so that the lease is as it was
      have hnone : m.fence = none := by cases m <;> first | rfl | cases htime
      rcases hlease with hlease | hlease
      · rw [hlease] at hexpired
        exact .inl (.inr ⟨now, htime, hexpired⟩)
      · rw [hnone] at hlease
        cases hlease
    · refine .inr ⟨hstate', hclaim'.trans hclaim, ?_⟩
      rcases hlease' with hlease' | hlease'
      · rwa [hlease']
      · exact .inr hlease'

end

/-! ## Stores -/

structure Fenced (s : Store) : Prop where
  keys : KeysDistinct s.occurrences
  sound : ∀ i r, s.occurrences.lookup i = some r → r.Sound
  claims : ∀ i, s.generation i = s.claimsMade.count i
  ids : ∀ i r, s.occurrences.lookup i = some r → i.isVersion4

theorem fenced_empty : Fenced Store.empty where
  keys := by constructor <;> intros <;> contradiction
  sound i r h := by cases h
  claims i := rfl
  ids i r h := by cases h

theorem Evolves.fenced {m : Method} {s' : Store} (h : Evolves m s s') (hs : Fenced s) :
    Fenced s' where
  keys := h.keys hs.keys
  sound i r' hr' := by
    rcases hr : s.occurrences.lookup i with _ | r
    · obtain ⟨-, r, ⟨_, _, _, _, rfl⟩, hw⟩ := h.fresh i r' hr hr'
      exact (sound_of_writes hw ⟨by simp [OccurrenceRow.pending], rfl⟩).1
    · obtain ⟨r1, hr1, hw⟩ := h.rows i r hr
      cases hr'.symm.trans hr1
      exact (sound_of_writes hw (hs.sound i r hr)).1
  claims i := by
    have := h.claims i
    have := hs.claims i
    omega
  ids i r' hr' := by
    rcases hr : s.occurrences.lookup i with _ | r
    · exact (h.fresh i r' hr hr').1
    · exact hs.ids i r hr

theorem Store.run_fenced (calls : List Call) (hs : Fenced s) : Fenced (s.run calls) :=
  run_keeps (fun call s h => (Store.step_evolves call s).fenced h) calls hs

/-! ## Calls under a fence that is not current -/

section
variable {r : OccurrenceRow}

theorem holds_of_current (hs : s.current f = false)
    (hr : s.occurrences.lookup f.occurrenceId = some r) : r.holds f = false := by
  simpa [Store.current, hr] using hs

/-- No call under the fence gets past the assertion of its claim. -/
theorem assertCurrentClaim_stale {c : Claim} (hs : s.current c.fence = false)
    {states : List OccurrenceState} {row : OccurrenceRow} {s' : Store} :
    ¬ (assertCurrentClaim c states now).Ok s row s' := by
  intro h
  obtain ⟨-, hlookup, -, hheld⟩ := assertCurrentClaim_ok h
  have := holds_of_current (f := c.fence) hs hlookup
  simp only [heldBy, Bool.and_eq_true] at hheld
  cases hheld.1.1.1.symm.trans this

variable {α : Type}

theorem quiet_check_bind {c : Check} {g : Unit → Work α} (h : (g ()).Quiet s) :
    (check c >>= g).Quiet s := Tx.quiet_bind (check_readOnly c) fun _ _ => h

theorem quiet_assert_bind {c : Claim} (hs : s.current c.fence = false)
    {states : List OccurrenceState} {g : OccurrenceRow → Work α} :
    (assertCurrentClaim c states now >>= g).Quiet s :=
  Tx.quiet_bind (assertCurrentClaim_readOnly _ _ _) fun _ h => absurd h (assertCurrentClaim_stale hs)

theorem quiet_validate_bind {e : EffectAttempt} (hs : s.current e.claim.fence = false)
    {g : OccurrenceRow → Work α} : (validateEffectAttempt e now >>= g).Quiet s := by
  refine Tx.quiet_bind validateEffectAttempt_readOnly fun row h => ?_
  exact absurd (validateEffectAttempt_ok h).2.1 (assertCurrentClaim_stale hs)

theorem quiet_update_bind (hs : s.current f = false) {selects : OccurrenceColumns → Bool}
    {written : OccurrenceColumns → OccurrenceColumns}
    (hselects : ∀ r, selects r → r.holds f) {g : Option OccurrenceRow → Work α}
    (hg : (g none).Quiet s) :
    (updateOccurrenceSql f.occurrenceId selects written >>= g).Quiet s := by
  have hnone : (s.occurrences.lookup f.occurrenceId).filter (selects ·.toOccurrenceColumns) = none := by
    rw [Option.filter_eq_none_iff]
    intro r hr hr'
    have hnot := holds_of_current hs hr
    rw [hselects _ hr'] at hnot
    cases hnot
  have hstale : (updateOccurrenceSql f.occurrenceId selects written).Ok s none s := by
    refine Tx.ok_bind.2 ⟨s, s, Tx.ok_get.2 ⟨rfl, rfl⟩, ?_⟩
    rw [hnone]
    exact Tx.ok_pure.2 ⟨rfl, rfl⟩
  rw [Tx.Quiet, Tx.bind_of_ok hstale]
  exact hg

end

/-- **A call under a fence that is not current writes nothing.** -/
theorem exec_stale {m : Method} (hf : m.fence = some f)
    (hs : s.current f = false) : (exec m).Quiet s := by
  cases m with
  | renewOccurrenceClaim =>
    cases hf
    refine Tx.Quiet.map (quiet_check_bind <| quiet_check_bind <| ?_) _
    refine quiet_update_bind hs (fun r h => ?_) rfl
    simp only [Bool.and_eq_true] at h
    exact h.1.1.1.2
  | assertCurrentClaim =>
    cases hf
    exact quiet_assert_bind hs
  | attachOperationToClaim =>
    cases hf
    refine Tx.Quiet.map (quiet_check_bind <| quiet_check_bind <| quiet_check_bind <|
      quiet_check_bind <| quiet_check_bind <| ?_) _
    refine quiet_update_bind hs (fun r h => ?_) rfl
    simp only [Bool.and_eq_true] at h
    exact h.1.1.1.2
  | startClaimAttempt =>
    cases hf
    refine Tx.Quiet.map (quiet_check_bind ?_) _
    refine quiet_update_bind hs (fun r h => ?_) rfl
    simp only [Bool.and_eq_true] at h
    exact h.1.1.1.2
  | markClaimRetryable =>
    cases hf
    exact Tx.Quiet.map (quiet_check_bind <| quiet_check_bind <| quiet_check_bind <| quiet_check_bind <|
      quiet_check_bind <| quiet_check_bind <| quiet_check_bind <| quiet_assert_bind hs) _
  | finishClaimAttempt =>
    cases hf
    exact Tx.Quiet.map (quiet_check_bind <| quiet_assert_bind hs) _
  | reserveEffect | publishReservedEffect | failReservedEffect =>
    cases hf
    exact Tx.Quiet.map (quiet_validate_bind hs) _
  | publishStagedChatEffect =>
    cases hf
    exact Tx.Quiet.map (Tx.quiet_bind (Tx.readOnly_ofExcept _) fun _ _ => quiet_validate_bind hs) _
  | admitAssignmentEpisode =>
    cases hf
    refine Tx.Quiet.map (quiet_check_bind <| quiet_check_bind <| quiet_check_bind <|
      quiet_check_bind <| quiet_check_bind <| Tx.quiet_bind assertClaimJobActive_readOnly
        fun _ _ => Tx.quiet_bind lockPolicy_readOnly fun policy _ => ?_) _
    cases policy with
    | none => exact (Tx.readOnly_pure _).quiet s
    | some => exact quiet_assert_bind hs
  | _ => cases hf

theorem Store.run_superseded (calls : List Call)
    (hr : s.occurrences.lookup f.occurrenceId = some r) (hf : r.Superseded f) :
    (s.run calls).current f = false := by
  have hkeeps : ∃ r', (s.run calls).occurrences.lookup f.occurrenceId = some r' ∧ r'.Superseded f := by
    refine @run_keeps _ _ Store.step (fun s => ∃ r, s.occurrences.lookup f.occurrenceId = some r ∧
      r.Superseded f) ?_ calls s ⟨r, hr, hf⟩
    rintro call s ⟨r, hr, hf⟩
    obtain ⟨r', hr', hw⟩ := (Store.step_evolves call s).rows _ r hr
    refine ⟨r', hr', ?_⟩
    clear hr'
    induction hw with
    | refl => exact hf
    | tail _ hw ih => exact hw.superseded ih
  obtain ⟨r', hr', -, hnot⟩ := hkeeps
  simp [Store.current, hr', hnot]

theorem Store.run_terminal (calls : List Call) {i : Uuid}
    (hs : Fenced s) (hr : s.occurrences.lookup i = some r) (hend : r.state.terminal) :
    ∃ r', (s.run calls).occurrences.lookup i = some r' ∧ r'.state = r.state := by
  refine (@run_keeps _ _ Store.step (fun s => Fenced s ∧ ∃ r', s.occurrences.lookup i = some r' ∧
    r'.state = r.state) ?_ calls s ⟨hs, r, hr, rfl⟩).2
  rintro call s ⟨hs, r1, hr1, hstate⟩
  have hevolves := Store.step_evolves call s
  obtain ⟨r2, hr2, hw⟩ := hevolves.rows i r1 hr1
  refine ⟨hevolves.fenced hs, r2, hr2, ?_⟩
  rw [(sound_of_writes hw (hs.sound i r1 hr1)).2 (by rwa [hstate]), hstate]

/-! ## The fencing of occurrences -/

/-- **Scheduled occurrence fencing.** -/
theorem occurrence_fencing (calls : List Call) :
    -- a cadence point of a definition has one occurrence, and so has a submission of an owner
    (∀ i j r r', (Store.empty.run calls).occurrences.lookup i = some r →
      (Store.empty.run calls).occurrences.lookup j = some r' →
      (r.jobId = r'.jobId ∧ r.scheduledFor = r'.scheduledFor ∨
        r.ownerUserId = r'.ownerUserId ∧ r.runNowSubmissionId.isSome ∧
          r.runNowSubmissionId = r'.runNowSubmissionId) → i = j) ∧
    -- generation and attempts count the claims that were made
    (∀ i r, (Store.empty.run calls).occurrences.lookup i = some r →
      r.claimGeneration = (Store.empty.run calls).claimsMade.count i ∧
      r.attemptCount = (Store.empty.run calls).claimsMade.count i) ∧
    -- one fence of an occurrence is current, and none that was superseded comes back
    (∀ f f', (Store.empty.run calls).current f = true → (Store.empty.run calls).current f' = true →
      f.occurrenceId = f'.occurrenceId → f = f') ∧
    (∀ f r, (Store.empty.run calls).occurrences.lookup f.occurrenceId = some r →
      f.generation ≤ r.claimGeneration → (Store.empty.run calls).current f = false →
      ∀ later, ((Store.empty.run calls).run later).current f = false) ∧
    -- an occurrence that has ended stays ended
    (∀ i r, (Store.empty.run calls).occurrences.lookup i = some r → r.state.terminal = true →
      ∀ later, ∃ r', ((Store.empty.run calls).run later).occurrences.lookup i = some r' ∧
        r'.state = r.state) ∧
    -- a running occurrence is left by the claim that holds it, or by a claim after its lease
    (∀ i r call, (Store.empty.run calls).occurrences.lookup i = some r → r.state = .running →
      ∃ r', ((Store.empty.run calls).step call).occurrences.lookup i = some r' ∧
        (r'.state = .running ∧ r'.claimGeneration = r.claimGeneration ∧ r'.leaseToken = r.leaseToken ∨
          call.method.Leaves i r.toOccurrenceColumns)) ∧
    -- a call under a fence that is not current changes no row of any table
    (∀ call f, call.method.fence = some f → (Store.empty.run calls).current f = false →
      (Store.empty.run calls).step call = Store.empty.run calls) := by
  have hfenced := Store.run_fenced calls fenced_empty
  generalize Store.empty.run calls = s at hfenced ⊢
  refine ⟨?_, ?_, ?_, ?_, ?_, ?_, fun call f hf hs => Store.step_leaves (P := (· = s)) (exec_stale hf hs) rfl⟩
  · rintro i j r r' hr hr' (⟨hjob, htime⟩ | ⟨howner, hsome, heq⟩)
    · exact hfenced.keys.cadence i j r r' hr hr' hjob htime
    · obtain ⟨k, hk⟩ := Option.isSome_iff_exists.1 hsome
      exact hfenced.keys.submission i j r r' k hr hr' hk (by rw [← heq, hk]) howner
  · intro i r hr
    have hclaims := hfenced.claims i
    rw [Store.generation_of hr] at hclaims
    exact ⟨hclaims, by rw [(hfenced.sound i r hr).attempts, hclaims]⟩
  · intro f f' hf hf' hid
    simp only [Store.current, Option.any_eq_true] at hf hf'
    obtain ⟨r, hr, hf⟩ := hf
    obtain ⟨r', hr', hf'⟩ := hf'
    rw [hid, hr'] at hr
    obtain ⟨hg, ht⟩ := OccurrenceColumns.holds_iff.1 hf
    obtain ⟨hg', ht'⟩ := OccurrenceColumns.holds_iff.1 hf'
    cases f
    simp_all
  · intro f r hr hle hs later
    exact Store.run_superseded later hr ⟨hle, holds_of_current hs hr⟩
  · intro i r hr hend later
    exact Store.run_terminal later hfenced hr hend
  · intro i r call hr hrun
    obtain ⟨r', hr', hw⟩ := (Store.step_evolves call s).rows i r hr
    rcases running_of_writes hw hrun with h | ⟨hstate, hclaim, -⟩
    · exact ⟨r', hr', .inr h⟩
    · obtain ⟨hg, -, ht⟩ := claimColumns_eq hclaim
      exact ⟨r', hr', .inl ⟨hstate, hg, ht⟩⟩

end AstralPlane.Scheduler
