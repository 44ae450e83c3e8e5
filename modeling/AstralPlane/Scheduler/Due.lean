/-
  No materialised run is lost.

  A host that calls `materializeAndClaimDue` again and again at one time, each time
  from the continuation of the call before, claims every occurrence that is due by
  then: a call that leaves one unclaimed claims another, and what is left to
  materialise and to claim at that time (`Store.potential`) only shrinks.  That
  needs calls that do not raise, which is what `Ready` is for, and a definition
  whose occurrences the scan reads at all: a recurring definition that its
  callback ends is completed, and its last occurrence stays where it is
  (`last_occurrence_stranded`).
-/
import Mathlib.Algebra.Order.BigOperators.Group.Finset
import AstralPlane.Scheduler.Fencing
import AstralPlane.Scheduler.Jobs

namespace AstralPlane.Scheduler

open Tx List ScheduledJob

open scoped BigOperators

variable {s s' : Store} {now : Time} {d : DueScan} {n : ℕ} {job : ScheduledJob} {scheduledMs : ℤ}

/-! ## What is left to do at a time -/

/-- The occurrence is due, and its definition is one whose occurrences the scan claims. -/
def Store.IsDue (s : Store) (now : Time) (i : Uuid) : Prop :=
  ∃ r job, s.occurrences.lookup i = some r ∧ s.jobs.lookup r.jobId = some job ∧
    job.scanned ∧ r.due now

/-- The occurrences that can be claimed. -/
def Store.dueIds (s : Store) (now : Time) : Finset Uuid :=
  ((s.candidates [] now).map Candidate.occurrenceId).toFinset

variable {i : Uuid}

theorem mem_dueIds : i ∈ s.dueIds now ↔ s.IsDue now i := by
  simp only [Store.dueIds, mem_toFinset, mem_map, mem_candidates]
  constructor
  · rintro ⟨c, ⟨hr, hjob, hscanned, hdue, -⟩, rfl⟩
    exact ⟨c.row, c.job, hr, hjob, hscanned, hdue⟩
  · rintro ⟨r, job, hr, hjob, hscanned, hdue⟩
    exact ⟨⟨i, r, job⟩, ⟨hr, hjob, hscanned, hdue, not_mem_nil⟩, rfl⟩

/-- How far the cadence of a definition lags behind. -/
def ScheduledJob.backlog (j : ScheduledJob) (observedMs : ℤ) : ℕ :=
  if j.status = .active then ((j.nextRunAt.map fun next => (observedMs + 1 - next).toNat).getD 0) else 0

/-- The backlog of the definition under an id. -/
def Store.backlogOf (s : Store) (observedMs : ℤ) (i : Uuid) : ℕ :=
  ((s.jobs.lookup i).map (·.backlog observedMs)).getD 0

/-- What is left to materialise and to claim. -/
def Store.potential (s : Store) (now : Time) : ℕ :=
  (s.dueIds now).card + ∑ i ∈ s.jobs.keys.toFinset, s.backlogOf (milliseconds now) i

/-! ## Calls that do not raise -/

/-- What a host's call at a time brings along: valid arguments, a callback that moves cadences on and
    ends no recurring one, and no other transaction in its way. -/
structure DueScan.Drives (d : DueScan) (now : Time) : Prop where
  time : d.observedAt = now
  eligible : ∀ j, d.eligible j
  unlocked : d.lockedJobs = [] ∧ d.lockedOccurrences = []
  worker : Scheduler.instanceId d.instanceId = .ok ()
  limit : Scheduler.limit d.limit = .ok ()
  window : Scheduler.limit d.window = .ok ()
  lease : Scheduler.leaseSeconds d.leaseSeconds = .ok ()
  advances : ∀ j scheduledMs next, d.nextRun j scheduledMs = some next → scheduledMs < next ∧ next ≤ maxBigint
  recurs : ∀ j scheduledMs, scheduledMs ≤ milliseconds now → j.scheduleKind ≠ .oneShot →
    d.nextRun j scheduledMs ≠ none

/-- The ids that the call draws, one for each definition whose cadence it moves on, are new. -/
def DueScan.Fresh (d : DueScan) (s : Store) : Prop :=
  (∀ n < (d.dueTurns s).1.length, s.occurrences.lookup (d.occurrenceIds n).val = none) ∧
  ∀ n < (d.dueTurns s).1.length, ∀ m < n, (d.occurrenceIds n).val ≠ (d.occurrenceIds m).val

/-- The tables are such that the due call does not raise: every definition loads, ids are of the
    version that a continuation can name, and the counters have room. -/
structure Ready (now : Time) (s : Store) : Prop where
  jobs : ∀ i j, s.jobs.lookup i = some j → j.Sound i
  ids : ∀ i r, s.occurrences.lookup i = some r → i.isVersion4
  room : ∀ i r, s.occurrences.lookup i = some r → r.due now →
    r.attemptCount < maxInteger ∧ r.claimGeneration < maxBigint

/-- What the first half of a call does to what is left. -/
structure Progress (now : Time) (s s' : Store) : Prop where
  ready : Ready now s → Ready now s'
  rows : ∀ i r, s.occurrences.lookup i = some r → s'.occurrences.lookup i = some r
  scanned : ∀ i j, s.jobs.lookup i = some j → j.scanned →
    ∃ j', s'.jobs.lookup i = some j' ∧ j'.scanned
  potential : s'.potential now ≤ s.potential now

instance (now : Time) : Std.Refl (Progress now) :=
  ⟨fun _ => ⟨id, fun _ _ h => h, fun _ j hj hs => ⟨j, hj, hs⟩, le_rfl⟩⟩

theorem Progress.trans {s1 s2 : Store} (h : Progress now s s1)
    (h' : Progress now s1 s2) : Progress now s s2 where
  ready hs := h'.ready (h.ready hs)
  rows i r hr := h'.rows i r (h.rows i r hr)
  scanned i j hj hs := by
    obtain ⟨j1, hj1, hs1⟩ := h.scanned i j hj hs
    exact h'.scanned i j1 hj1 hs1
  potential := h'.potential.trans h.potential

theorem IsDue.progress (h : Progress now s s') (hi : s.IsDue now i) : s'.IsDue now i := by
  obtain ⟨r, job, hr, hjob, hscanned, hdue⟩ := hi
  obtain ⟨job', hjob', hscanned'⟩ := h.scanned _ job hjob hscanned
  exact ⟨r, job', h.rows i r hr, hjob', hscanned', hdue⟩

/-! ## One cadence point -/

/-- The definition after its cadence point has become an occurrence. -/
def advanced (d : DueScan) (job : ScheduledJob) (scheduledMs : ℤ) : ScheduledJob :=
  { job with
    nextRunAt := d.nextRun job scheduledMs
    status := if job.scheduleKind = .oneShot || (d.nextRun job scheduledMs).isNone then .completed
      else job.status
    updatedAt := max job.updatedAt d.observedMs }

def materialized (d : DueScan) (n : ℕ) (job : ScheduledJob) (scheduledMs : ℤ) (s : Store) : Store :=
  let row := OccurrenceRow.pending job.jobId job.ownerId (scheduledMs * 1000) none
  { s with
    occurrences := if s.hasCadencePoint row.toOccurrenceColumns then s.occurrences
      else s.occurrences.insert (d.occurrenceIds n).val row
    jobs := s.jobs.insert job.jobId (advanced d job scheduledMs) }

/-- A cadence point that the scan can read: the definition is active, and the point is due. -/
structure CadencePoint (now : Time) (s : Store) (job : ScheduledJob) (scheduledMs : ℤ) : Prop where
  lookup : s.jobs.lookup job.jobId = some job
  sound : job.Sound job.jobId
  active : job.status = .active
  next : job.nextRunAt = some scheduledMs
  due : scheduledMs ≤ milliseconds now

section
variable (hd : d.Drives now) (hnow : milliseconds now ≤ maxBigint)
    (h : CadencePoint now s job scheduledMs)
include hd hnow h

theorem advanced_sound : (advanced d job scheduledMs).Sound job.jobId := by
  have hvalid := valid_fields h.sound.valid
  have hcadence : 0 ≤ scheduledMs := by
    have := h.sound.cadence
    simpa [cadenceOk, h.next] using this
  have hfollowing : (d.nextRun job scheduledMs).all (0 ≤ ·) ∧
      (d.nextRun job scheduledMs).all isBigint := by
    cases hr : d.nextRun job scheduledMs with
    | none => exact ⟨rfl, rfl⟩
    | some next =>
      obtain ⟨hlt, hle⟩ := hd.advances job scheduledMs next hr
      simp only [Option.all_some, isBigint, bool_to_prop]
      omega
  refine sound_of_status h.sound ?_ hfollowing.1 ?_
  · omega
  · have hfits := h.sound.fits
    have hobserved : d.observedMs ≤ maxBigint := by rw [DueScan.observedMs, hd.time]; exact hnow
    simp only [fits, isBigint, bool_to_prop] at hfits ⊢
    exact ⟨⟨⟨hfits.1.1.1, by omega, by omega⟩, hfollowing.2⟩, hfits.2⟩

theorem materialize_ok (hfree : s.occurrences.lookup (d.occurrenceIds n).val = none) :
    (materialize d n job).Ok s () (materialized d n job scheduledMs s) := by
  have hsound := advanced_sound hd hnow h
  unfold materialize
  rw [h.next]
  -- the insertion meets a row of the same cadence point, or inserts one
  have hinsert : ∃ row, (insertOccurrenceSql (d.occurrenceIds n).val
      (.pending job.jobId job.ownerId (scheduledMs * 1000) none) false).Ok s row
      { s with occurrences := (materialized d n job scheduledMs s).occurrences } := by
    unfold insertOccurrenceSql materialized
    by_cases hpoint : s.hasCadencePoint (OccurrenceRow.pending job.jobId job.ownerId
        (scheduledMs * 1000) none).toOccurrenceColumns
    · exact ⟨none, by simp [hpoint]⟩
    · have hsubmission : s.hasSubmission (OccurrenceRow.pending job.jobId job.ownerId
          (scheduledMs * 1000) none).toOccurrenceColumns = false := by
        simp [Store.hasSubmission, OccurrenceRow.pending]
      exact ⟨some (.pending job.jobId job.ownerId (scheduledMs * 1000) none),
        by simp [hpoint, hfree, hsubmission]⟩
  obtain ⟨row, hinsert⟩ := hinsert
  refine hinsert.bind (ok_check_bind ?_ ?_)
  · cases hr : d.nextRun job scheduledMs with
    | none => rfl
    | some next =>
      have hlt := (hd.advances job scheduledMs next hr).1
      have hnonneg : 0 ≤ next := by
        have := hsound.cadence
        simpa [cadenceOk, advanced, hr] using this
      simp [optional, bind_eq_ok, millisecond, ensure_eq_ok, hnonneg, hlt]
  · have hfilter : (s.jobs.lookup job.jobId).filter (fun j => j.ownerId = job.ownerId &&
        j.nextRunAt = some scheduledMs) = some job := by
      rw [h.lookup]
      simp [h.next]
    refine ok_bind.2 ⟨1, _, ok_bind.2 ⟨_, _, ok_get.2 ⟨rfl, rfl⟩, ?_⟩, ok_require.2 ⟨rfl, rfl⟩⟩
    simp only [hfilter]
    exact ok_require_bind hsound.fits (ok_set_bind (ok_pure.2 ⟨rfl, rfl⟩))

end

/-- The occurrences after it: those that were there, and perhaps a new one. -/
theorem materialized_lookup (d : DueScan) (n : ℕ) (job : ScheduledJob) (scheduledMs : ℤ) (s : Store)
    (i : Uuid) :
    (materialized d n job scheduledMs s).occurrences.lookup i = s.occurrences.lookup i ∨
      i = (d.occurrenceIds n).val ∧ (materialized d n job scheduledMs s).occurrences.lookup i =
        some (.pending job.jobId job.ownerId (scheduledMs * 1000) none) := by
  unfold materialized
  dsimp only
  split
  · exact .inl rfl
  · rw [Keyed.lookup_write]
    split
    · exact .inr ⟨‹_›, rfl⟩
    · exact .inl rfl

theorem materialized_jobs (i : Uuid) : (materialized d n job scheduledMs s).jobs.lookup i =
    if i = job.jobId then some (advanced d job scheduledMs) else s.jobs.lookup i :=
  Keyed.lookup_write _ _ _ _

theorem materialized_ready (hd : d.Drives now) (hnow : milliseconds now ≤ maxBigint)
    (hpoint : CadencePoint now s job scheduledMs) (h : Ready now s) :
    Ready now (materialized d n job scheduledMs s) where
  jobs i j hj := by
    rw [materialized_jobs] at hj
    split at hj
    · subst_vars
      cases hj
      exact advanced_sound hd hnow hpoint
    · exact h.jobs i j hj
  ids i r hr := by
    rcases materialized_lookup d n job scheduledMs s i with heq | ⟨rfl, -⟩
    · exact h.ids i r (by rw [← heq, hr])
    · exact (d.occurrenceIds n).property
  room i r hr hdue := by
    rcases materialized_lookup d n job scheduledMs s i with heq | ⟨-, hnew⟩
    · exact h.room i r (by rw [← heq, hr]) hdue
    · cases hr.symm.trans hnew
      exact ⟨show 0 < maxInteger by decide, show 0 < maxBigint by decide⟩

/-- The cadence point counted in the backlog of its definition, and counts there no longer. -/
theorem advanced_backlog (hd : d.Drives now) (h : CadencePoint now s job scheduledMs) :
    (advanced d job scheduledMs).backlog (milliseconds now) < job.backlog (milliseconds now) := by
  have hbefore : job.backlog (milliseconds now) = (milliseconds now + 1 - scheduledMs).toNat := by
    simp [backlog, h.active, h.next]
  have hdue := h.due
  rw [hbefore, backlog]
  split
  · rw [show (advanced d job scheduledMs).nextRunAt = d.nextRun job scheduledMs from rfl]
    cases hr : d.nextRun job scheduledMs with
    | none => simp; omega
    | some next =>
      have := (hd.advances job scheduledMs next hr).1
      simp only [Option.map_some, Option.getD_some]
      omega
  · omega

theorem materialized_dueIds (h : CadencePoint now s job scheduledMs) :
    (materialized d n job scheduledMs s).dueIds now ⊆
      insert (d.occurrenceIds n).val (s.dueIds now) := by
  intro i hi
  rw [Finset.mem_insert]
  by_cases hnew : i = (d.occurrenceIds n).val
  · exact .inl hnew
  right
  obtain ⟨r, j, hr, hj, hscanned, hdue⟩ := mem_dueIds.1 hi
  rw [mem_dueIds]
  have hr' : s.occurrences.lookup i = some r := by
    rcases materialized_lookup d n job scheduledMs s i with heq | ⟨h, -⟩
    · rw [← heq, hr]
    · exact absurd h hnew
  rw [materialized_jobs] at hj
  split at hj
  · -- the definition was active before
    rename_i hid
    exact ⟨r, job, hr', by rw [hid, h.lookup], by simp [scanned, h.active], hdue⟩
  · exact ⟨r, j, hr', hj, hscanned, hdue⟩

theorem materialized_potential (hd : d.Drives now) (h : CadencePoint now s job scheduledMs) :
    (materialized d n job scheduledMs s).potential now ≤ s.potential now := by
  have hids : ((materialized d n job scheduledMs s).dueIds now).card ≤ (s.dueIds now).card + 1 :=
    (Finset.card_le_card (materialized_dueIds h)).trans (Finset.card_insert_le _ _)
  have hmem : job.jobId ∈ s.jobs.keys.toFinset := by
    rw [mem_toFinset]
    exact AList.lookup_isSome.1 (by rw [h.lookup]; rfl)
  have hkeys : (materialized d n job scheduledMs s).jobs.keys.toFinset = s.jobs.keys.toFinset := by
    ext i
    simp only [mem_toFinset]
    rw [← AList.mem_keys, ← AList.mem_keys, ← AList.lookup_isSome, ← AList.lookup_isSome, materialized_jobs]
    split
    · subst_vars
      simp [h.lookup]
    · rfl
  have hsum : ∑ i ∈ s.jobs.keys.toFinset,
      (materialized d n job scheduledMs s).backlogOf (milliseconds now) i <
      ∑ i ∈ s.jobs.keys.toFinset, s.backlogOf (milliseconds now) i := by
    have hlt := advanced_backlog hd h
    refine Finset.sum_lt_sum (fun i _ => ?_) ⟨job.jobId, hmem, ?_⟩
    · simp only [Store.backlogOf, materialized_jobs]
      split
      · subst_vars
        simp only [h.lookup, Option.map_some, Option.getD_some]
        exact hlt.le
      · exact le_rfl
    · simpa only [Store.backlogOf, materialized_jobs, if_true, h.lookup, Option.map_some,
        Option.getD_some] using hlt
  rw [Store.potential, Store.potential, hkeys]
  omega

theorem materialized_progress (hd : d.Drives now) (hnow : milliseconds now ≤ maxBigint)
    (h : CadencePoint now s job scheduledMs)
    (hfree : s.occurrences.lookup (d.occurrenceIds n).val = none) :
    Progress now s (materialized d n job scheduledMs s) where
  ready := materialized_ready hd hnow h
  rows i r hr := by
    rcases materialized_lookup d n job scheduledMs s i with hsame | ⟨rfl, -⟩
    · rw [hsame, hr]
    · cases hfree.symm.trans hr
  scanned i j hj hscanned := by
    rw [materialized_jobs]
    split
    · unfold scanned
      by_cases hkind : job.scheduleKind = .oneShot
      · simp [advanced, hkind]
      · simp [advanced, hkind, hd.recurs job scheduledMs h.due hkind, h.active]
    · exact ⟨j, hj, hscanned⟩
  potential := materialized_potential hd h

/-! ## The first half of a call -/

theorem loadAll_ok {jobs : List ScheduledJob} (h : ∀ j ∈ jobs, j.validate = .ok ()) :
    (loadAll jobs).Ok s () s := by
  induction jobs with
  | nil => exact ok_pure.2 ⟨rfl, rfl⟩
  | cons j jobs ih =>
    have hload : (loadJob j).Ok s j s := ok_check_bind (h j mem_cons_self) (ok_pure.2 ⟨rfl, rfl⟩)
    have hone : (do let _ ← loadJob j : Work Unit).Ok s () s := hload.bind (ok_pure.2 ⟨rfl, rfl⟩)
    exact hone.bind (ih fun k hk => h k (mem_cons_of_mem _ hk))

theorem materializeAll_ok (hd : d.Drives now) (hnow : milliseconds now ≤ maxBigint) :
    ∀ (jobs : List ScheduledJob) (n : ℕ) {s : Store}, Ready now s →
      (∀ j ∈ jobs, s.jobs.lookup j.jobId = some j ∧ j.status = .active ∧
        j.nextRunAt.any (· ≤ milliseconds now)) →
      (jobs.map ScheduledJob.jobId).Nodup →
      (∀ k, n ≤ k → k < n + jobs.length → s.occurrences.lookup (d.occurrenceIds k).val = none) →
      (∀ k < n + jobs.length, ∀ m < k, (d.occurrenceIds k).val ≠ (d.occurrenceIds m).val) →
      ∃ s', (Tx.each (fun p => materialize d p.2 p.1) (jobs.zipIdx n)).Ok s () s' ∧ Progress now s s'
  | [], _, s, _, _, _, _, _ => ⟨s, ok_pure.2 ⟨rfl, rfl⟩, Std.Refl.refl s⟩
  | j :: jobs, n, s, hready, hjobs, hnodup, hfree, hids => by
    have hlength : n + 1 + jobs.length = n + (j :: jobs).length := by
      rw [length_cons]
      omega
    have hfirst := hfree n le_rfl (by omega)
    obtain ⟨hlookup, hactive, hdue⟩ := hjobs j mem_cons_self
    obtain ⟨scheduledMs, hnext, hle⟩ := (Option.any_eq_true _ _).1 hdue
    have hpoint : CadencePoint now s j scheduledMs :=
      ⟨hlookup, hready.jobs _ j hlookup, hactive, hnext, of_decide_eq_true hle⟩
    have hprogress := materialized_progress hd hnow hpoint hfirst
    rw [map_cons, nodup_cons] at hnodup
    have hjobs' : ∀ k ∈ jobs, (materialized d n j scheduledMs s).jobs.lookup k.jobId = some k ∧
        k.status = .active ∧ k.nextRunAt.any (· ≤ milliseconds now) := by
      -- the other definitions are as they were read
      intro k hk
      have hne : k.jobId ≠ j.jobId := fun h => hnodup.1 (h ▸ mem_map_of_mem hk)
      obtain ⟨hlookup', hactive', hdue'⟩ := hjobs k (mem_cons_of_mem _ hk)
      exact ⟨by rw [materialized_jobs, if_neg hne, hlookup'], hactive', hdue'⟩
    have hfree' : ∀ k, n + 1 ≤ k → k < n + 1 + jobs.length →
        (materialized d n j scheduledMs s).occurrences.lookup (d.occurrenceIds k).val = none := by
      intro k hk hbound
      rcases materialized_lookup d n j scheduledMs s (d.occurrenceIds k).val with heq | ⟨hid, -⟩
      · rw [heq]
        exact hfree k (by omega) (by omega)
      · exact absurd hid (hids k (by omega) n (by omega))
    obtain ⟨s', hok, hprogress'⟩ := materializeAll_ok hd hnow jobs (n + 1)
      (hprogress.ready hready) hjobs' hnodup.2 hfree' (hlength ▸ hids)
    exact ⟨s', (materialize_ok hd hnow hpoint hfirst).bind hok, hprogress.trans hprogress'⟩

theorem dueJobs_nodup (h : Ready now s) {locked : List Uuid} {observedMs : ℤ} :
    (s.dueJobs locked observedMs).Nodup := by
  refine Nodup.filter _ ?_
  have hkeys : s.jobs.rows.map jobId = s.jobs.keys := by
    simp only [Keyed.rows, map_map, AList.keys, List.keys]
    refine map_congr_left fun e he => ?_
    exact (h.jobs e.1 e.2 (Keyed.mem_entries.1 he)).key
  exact Nodup.of_map _ (hkeys ▸ s.jobs.keys_nodup)

variable {j : ScheduledJob}

theorem mem_dueTurns (h : Ready now s) (hj : j ∈ (d.dueTurns s).1) :
    s.jobs.lookup j.jobId = some j ∧ j.status = .active ∧ j.nextRunAt.any (· ≤ d.observedMs) := by
  obtain ⟨hlookup, hactive, hdue, -⟩ :=
    (mem_dueJobs fun i j hj => (h.jobs i j hj).key).1 (mem_of_mem_dueTurns hj)
  exact ⟨hlookup, hactive, hdue⟩

theorem dueTurns_nodup (h : Ready now s) : ((d.dueTurns s).1.map ScheduledJob.jobId).Nodup := by
  refine Nodup.map_on (fun j hj k hk hid => ?_) ?_
  · have hlookup := (mem_dueTurns h hj).1
    rw [hid, (mem_dueTurns h hk).1] at hlookup
    exact (Option.some.inj hlookup).symm
  · exact rotateOwners_nodup ((scanRows_nodup (dueJobs_nodup h)).filter _)

theorem mem_dueRows (h : Ready now s) (hj : j ∈ d.dueRows s) : s.jobs.lookup j.jobId = some j :=
  ((mem_dueJobs fun i j hj => (h.jobs i j hj).key).1 (mem_of_mem_scanRows hj)).1

theorem materializeDue_ok (hd : d.Drives now) (hnow : milliseconds now ≤ maxBigint)
    (hfresh : d.Fresh s) (hready : Ready now s) :
    ∃ s', (materializeDue d).Ok s (d.dueRows s, (d.dueTurns s).2) s' ∧ Progress now s s' := by
  have hobserved : d.observedMs = milliseconds now := by rw [DueScan.observedMs, hd.time]
  obtain ⟨s', hok, hprogress⟩ := materializeAll_ok hd hnow (d.dueTurns s).1 0 hready
    (fun j hj => hobserved ▸ mem_dueTurns hready hj) (dueTurns_nodup hready)
    (fun k _ hk => hfresh.1 k (by omega)) (fun k hk => hfresh.2 k (by omega))
  refine ⟨s', ok_bind.2 ⟨s, s, ok_get.2 ⟨rfl, rfl⟩, ?_⟩, hprogress⟩
  have hload : (loadAll (d.dueRows s)).Ok s () s :=
    loadAll_ok fun j hj => (hready.jobs _ j (mem_dueRows hready hj)).valid
  exact hload.bind (hok.bind (ok_pure.2 ⟨rfl, rfl⟩))

/-! ## The second half -/

/-- A candidate's row under the claim of the call. -/
def DueScan.claimedRow (d : DueScan) (n : ℕ) (c : Candidate) : OccurrenceRow :=
  ⟨c.row.claimedBy (d.leaseTokens n).val d.instanceId (d.observedAt + d.leaseSeconds * second), rfl⟩

def DueScan.claimed (d : DueScan) (n : ℕ) (c : Candidate) (s : Store) : Store :=
  { s with
    occurrences := s.occurrences.insert c.occurrenceId (d.claimedRow n c)
    claimsMade := s.claimsMade ++ [c.occurrenceId] }

/-- What the claims of a call have done: the listed occurrences are no longer due, the others are as
    they were. -/
structure Claims (now : Time) (ids : List Uuid) (s s' : Store) : Prop where
  jobs : s'.jobs = s.jobs
  others : ∀ i, i ∉ ids → s'.occurrences.lookup i = s.occurrences.lookup i
  claimed : ∀ i ∈ ids, ∃ r, s'.occurrences.lookup i = some r ∧ r.due now = false

theorem claimCandidate_ok {c : Candidate} (hr : s.occurrences.lookup c.occurrenceId = some c.row)
    (hroom : c.row.attemptCount < maxInteger ∧ c.row.claimGeneration < maxBigint) :
    ∃ record : ClaimedOccurrenceRecord, record.occurrence.occurrenceId = c.occurrenceId ∧
      (claimCandidate d n c).Ok s record (d.claimed n c s) := by
  have hfits : (d.claimedRow n c).fits := by
    simp only [DueScan.claimedRow, OccurrenceColumns.fits, OccurrenceColumns.claimedBy,
      Option.all_none, Bool.and_true, Bool.and_eq_true]
    exact ⟨decide_eq_true hroom.2, decide_eq_true hroom.1⟩
  have hfilter : (s.occurrences.lookup c.occurrenceId).filter (fun r =>
      r.ownerUserId = c.row.ownerUserId && r.claimGeneration = c.row.claimGeneration &&
        r.state = c.row.state) = some c.row := by
    rw [hr]
    simp
  refine ⟨_, rfl, ok_bind.2 ⟨some (d.claimedRow n c), d.claimed n c s, ok_bind.2 ⟨some (d.claimedRow n c),
    { s with occurrences := s.occurrences.insert c.occurrenceId (d.claimedRow n c) }, ?_,
    ok_bind.2 ⟨(), _, ok_modify.2 rfl, ok_pure.2 ⟨rfl, rfl⟩⟩⟩, ok_pure.2 ⟨rfl, rfl⟩⟩⟩
  refine ok_bind.2 ⟨s, s, ok_get.2 ⟨rfl, rfl⟩, ?_⟩
  simp only [hfilter]
  exact ok_require_bind hfits (ok_set_bind (ok_pure.2 ⟨rfl, rfl⟩))

/-- A new lease lives beyond the time of the call. -/
theorem DueScan.Drives.claimedRow_due (hd : d.Drives now) (n : ℕ) (c : Candidate) :
    (d.claimedRow n c).due now = false := by
  have hlease := ensure_eq_ok.1 hd.lease
  simp only [bool_to_prop] at hlease
  have hlater : ∀ t : ℤ, t < t + (d.leaseSeconds : ℤ) * (second : ℤ) := by
    simp only [second]
    omega
  have hnot : ¬ d.observedAt + d.leaseSeconds * second ≤ now := by
    rw [hd.time]
    exact not_le.2 (hlater now)
  exact decide_eq_false hnot

theorem claimAll_ok (hd : d.Drives now) : ∀ (cs : List Candidate) (n : ℕ) {s : Store},
    (∀ c ∈ cs, s.occurrences.lookup c.occurrenceId = some c.row ∧
      c.row.attemptCount < maxInteger ∧ c.row.claimGeneration < maxBigint) →
    (cs.map Candidate.occurrenceId).Nodup →
    ∃ records s', (Tx.collect (fun p => claimCandidate d p.2 p.1) (cs.zipIdx n)).Ok s records s' ∧
      records.map (·.occurrence.occurrenceId) = cs.map Candidate.occurrenceId ∧
      Claims now (cs.map Candidate.occurrenceId) s s'
  | [], _, s, _, _ => ⟨[], s, ok_pure.2 ⟨rfl, rfl⟩, rfl,
      ⟨rfl, fun _ _ => rfl, fun _ h => absurd h not_mem_nil⟩⟩
  | c :: cs, n, s, hcs, hnodup => by
    obtain ⟨hr, hroom⟩ := hcs c mem_cons_self
    obtain ⟨record, hrecord, hclaim⟩ := claimCandidate_ok (d := d) (n := n) hr hroom
    rw [map_cons, nodup_cons] at hnodup
    have hrest : ∀ c' ∈ cs, (d.claimed n c s).occurrences.lookup c'.occurrenceId = some c'.row ∧
        c'.row.attemptCount < maxInteger ∧ c'.row.claimGeneration < maxBigint := by
      intro c' hc'
      have hne : c'.occurrenceId ≠ c.occurrenceId := fun h => hnodup.1 (h ▸ mem_map_of_mem hc')
      rw [DueScan.claimed, Keyed.lookup_write, if_neg hne]
      exact hcs c' (mem_cons_of_mem _ hc')
    obtain ⟨records, s', hok, hrecords, hclaims⟩ := claimAll_ok hd cs (n + 1) hrest hnodup.2
    refine ⟨record :: records, s', hclaim.bind (hok.bind (ok_pure.2 ⟨rfl, rfl⟩)), ?_, ?_⟩
    · rw [map_cons, map_cons, hrecord, hrecords]
    · refine ⟨hclaims.jobs, fun i hi => ?_, fun i hi => ?_⟩
      · rw [map_cons, mem_cons, not_or] at hi
        rw [hclaims.others i hi.2, DueScan.claimed, Keyed.lookup_write, if_neg hi.1]
      · rw [map_cons, mem_cons] at hi
        by_cases hin : i ∈ cs.map Candidate.occurrenceId
        · exact hclaims.claimed i hin
        · obtain rfl := hi.resolve_right hin
          have hlookup := hclaims.others _ hin
          rw [DueScan.claimed, Keyed.lookup_write, if_pos rfl] at hlookup
          exact ⟨_, hlookup, hd.claimedRow_due n c⟩

theorem candidates_nodup (s : Store) {locked : List Uuid} {observedAt : Time} :
    ((s.candidates locked observedAt).map Candidate.occurrenceId).Nodup := by
  refine pairwise_map.2 ((pairwise_map.1 s.occurrences.keys_nodup).filterMap _
    fun e e' hne c hc c' hc' => ?_)
  -- a candidate is under the key of its row
  repeat' split at hc
  all_goals cases hc
  repeat' split at hc'
  all_goals cases hc'
  exact hne

theorem claimTurns_nodup : ((d.claimTurns s).1.map Candidate.occurrenceId).Nodup := by
  refine Nodup.map_on (fun c hc c' hc' hid => ?_) ?_
  · obtain ⟨hr, hjob, -⟩ := mem_candidates.1 (mem_of_mem_claimTurns hc)
    obtain ⟨hr', hjob', -⟩ := mem_candidates.1 (mem_of_mem_claimTurns hc')
    rw [hid, hr'] at hr
    have hrow := Option.some.inj hr
    rw [← hrow, hjob'] at hjob
    cases c
    cases c'
    simp_all
  · exact rotateOwners_nodup ((scanRows_nodup (Nodup.of_map _ (candidates_nodup s))).filter _)

theorem claimDue_ok (hd : d.Drives now) (hready : Ready now s) :
    ∃ records s', (claimDue d).Ok s (d.candidateRows s, records, (d.claimTurns s).2) s' ∧
      records.map (·.occurrence.occurrenceId) = (d.claimTurns s).1.map Candidate.occurrenceId ∧
      Claims now ((d.claimTurns s).1.map Candidate.occurrenceId) s s' := by
  have hcandidate : ∀ c ∈ (d.claimTurns s).1, s.occurrences.lookup c.occurrenceId = some c.row ∧
      c.row.attemptCount < maxInteger ∧ c.row.claimGeneration < maxBigint := by
    intro c hc
    obtain ⟨hr, -, -, hdue, -⟩ := mem_candidates.1 (mem_of_mem_claimTurns hc)
    rw [hd.time] at hdue
    exact ⟨hr, hready.room _ _ hr hdue⟩
  obtain ⟨records, s', hok, hrecords, hclaims⟩ := claimAll_ok hd (d.claimTurns s).1 0 hcandidate
    claimTurns_nodup
  refine ⟨records, s', ok_bind.2 ⟨s, s, ok_get.2 ⟨rfl, rfl⟩, ?_⟩, hrecords, hclaims⟩
  have hload : (loadAll ((d.candidateRows s).map Candidate.job)).Ok s () s := by
    refine loadAll_ok fun j hj => ?_
    obtain ⟨c, hc, rfl⟩ := mem_map.1 hj
    obtain ⟨-, hjob, -⟩ := mem_candidates.1 (mem_of_mem_scanRows hc)
    exact (hready.jobs _ _ hjob).valid
  exact hload.bind (hok.bind (ok_pure.2 ⟨rfl, rfl⟩))

/-! ## The continuation -/

theorem optional_eq_ok {α : Type} {value : Option α} {c : α → Check} {u : Unit} :
    optional value c = .ok u ↔ ∀ a, value = some a → c a = .ok u := by
  cases value with
  | none => exact ⟨fun _ a ha => (Option.some_ne_none a ha.symm).elim, fun _ => rfl⟩
  | some a => exact ⟨fun h b hb => Option.some.inj hb ▸ h, fun h => h a rfl⟩

theorem required_rename {name value : String} (h : required name value = .ok ()) {other : String} :
    required other value = .ok () := ensure_eq_ok.2 (ensure_eq_ok.1 h)

/-- What a scan can stop at. -/
def IsScanPosition (p : ℤ × Uuid) : Prop := 0 ≤ p.1 ∧ p.1 ≤ maxBigint ∧ p.2.isVersion4

theorem DueScanContinuation.validate_eq_ok {c : DueScanContinuation} : c.validate = .ok () ↔
    (∀ p, c.definition = some p → IsScanPosition p) ∧
    (∀ p, c.occurrence = some p → p.2.isVersion4) ∧
    (∀ owner, c.definitionOwner = some owner → required "scan owner" owner = .ok ()) ∧
    ∀ owner, c.occurrenceOwner = some owner → required "scan owner" owner = .ok () := by
  simp only [validate, ok_rules, optional_eq_ok, millisecond, uuid4, decide_eq_true_eq,
    Unique.exists_iff, IsScanPosition]

/-- A definition that a scan can read is one that it can stop at. -/
theorem ScheduledJob.Sound.position (h : j.Sound i) : IsScanPosition j.position := by
  have hvalid := h.valid
  simp only [ScheduledJob.validate, ok_rules, uuid4] at hvalid
  obtain ⟨_, hid, -⟩ := hvalid
  have hfits := h.fits
  have hcadence := h.cadence
  simp only [ScheduledJob.fits, ScheduledJob.cadenceOk, Bool.and_eq_true] at hfits hcadence
  cases hnext : j.nextRunAt with
  | none =>
    refine ⟨?_, ?_, hid⟩ <;> rw [ScheduledJob.position, hnext]
    · exact le_rfl
    · exact (show (0 : ℤ) ≤ maxBigint by decide)
  | some =>
    rw [hnext] at hfits hcadence
    simp only [Option.all_some, isBigint, bool_to_prop] at hfits hcadence
    refine ⟨?_, ?_, hid⟩ <;> rw [ScheduledJob.position, hnext]
    · exact hcadence
    · exact hfits.1.2.2

theorem ScheduledJob.Sound.owner (h : j.Sound i) : required "owner_id" j.ownerId = .ok () := by
  have hvalid := h.valid
  simp only [validate, bind_eq_ok] at hvalid
  obtain ⟨_, -, _, howner, -⟩ := hvalid
  exact howner

/-- The continuation that a call returns is one that the next call takes. -/
theorem batch_continuation {s1 : Store} (hready : Ready now s) (hready1 : Ready now s1)
    (hc : d.continuation.validate = .ok ()) (records : List ClaimedOccurrenceRecord) :
    (d.batch (d.dueRows s, (d.dueTurns s).2)
      (d.candidateRows s1, records, (d.claimTurns s1).2)).continuation.validate = .ok () := by
  obtain ⟨hdefinition, hoccurrence, hdefinitionOwner, hoccurrenceOwner⟩ :=
    DueScanContinuation.validate_eq_ok.1 hc
  refine DueScanContinuation.validate_eq_ok.2
    ⟨fun p hp => ?_, fun p hp => ?_, fun owner howner => ?_, fun owner howner => ?_⟩
  · -- the last definition of the window, or where the scan stopped before
    rcases (Option.orElse_eq_some _ _ _).1 hp with hlast | ⟨-, hbefore⟩
    · obtain ⟨j, hj, rfl⟩ := Option.map_eq_some_iff.1 hlast
      exact (hready.jobs _ j (mem_dueRows hready (mem_of_getLast? hj))).position
    · exact hdefinition p hbefore
  · rcases (Option.orElse_eq_some _ _ _).1 hp with hlast | ⟨-, hbefore⟩
    · obtain ⟨c, hc, rfl⟩ := Option.map_eq_some_iff.1 hlast
      obtain ⟨hr, -⟩ := mem_candidates.1 (mem_of_mem_scanRows (mem_of_getLast? hc))
      exact hready1.ids _ _ hr
    · exact hoccurrence p hbefore
  · rcases rotateOwners_owner d.limit d.continuation.definitionOwner with heq | ⟨j, hj, heq⟩
    · exact hdefinitionOwner owner (heq.symm.trans howner)
    · cases heq.symm.trans howner
      have hrow := mem_dueRows hready (mem_filter.1 hj).1
      exact required_rename (hready.jobs _ j hrow).owner
  · rcases rotateOwners_owner d.limit d.continuation.occurrenceOwner with heq | ⟨c, hc, heq⟩
    · exact hoccurrenceOwner owner (heq.symm.trans howner)
    · cases heq.symm.trans howner
      obtain ⟨-, hjob, -⟩ := mem_candidates.1 (mem_of_mem_scanRows (mem_filter.1 hc).1)
      exact required_rename (hready1.jobs _ _ hjob).owner

/-! ## A whole call -/

section
variable {ids : List Uuid}

/-- What was due is due, apart from what was claimed. -/
theorem Claims.isDue (h : Claims now ids s s') : s'.IsDue now i ↔ s.IsDue now i ∧ i ∉ ids := by
  constructor
  · rintro ⟨r, job, hr, hjob, hscanned, hdue⟩
    by_cases hi : i ∈ ids
    · obtain ⟨r', hr', hdue'⟩ := h.claimed i hi
      cases hr.symm.trans hr'
      cases hdue.symm.trans hdue'
    · rw [h.others i hi] at hr
      rw [h.jobs] at hjob
      exact ⟨⟨r, job, hr, hjob, hscanned, hdue⟩, hi⟩
  · rintro ⟨⟨r, job, hr, hjob, hscanned, hdue⟩, hi⟩
    exact ⟨r, job, by rw [h.others i hi, hr], by rw [h.jobs, hjob], hscanned, hdue⟩

theorem Claims.ready (h : Claims now ids s s') (hids : ∀ i ∈ ids, s.IsDue now i)
    (hready : Ready now s) : Ready now s' where
  jobs i j hj := hready.jobs i j (by rw [← h.jobs, hj])
  ids i r hr := by
    by_cases hi : i ∈ ids
    · obtain ⟨r', -, hr', -⟩ := hids i hi
      exact hready.ids i r' hr'
    · exact hready.ids i r (by rw [← h.others i hi, hr])
  room i r hr hdue := by
    by_cases hi : i ∈ ids
    · obtain ⟨r', hr', hdue'⟩ := h.claimed i hi
      cases hr.symm.trans hr'
      rw [hdue] at hdue'
      contradiction
    · exact hready.room i r (by rw [← h.others i hi, hr]) hdue

/-- A claim is one thing less to do. -/
theorem Claims.potential (h : Claims now ids s s') (hids : ∀ i ∈ ids, s.IsDue now i)
    (hne : ids ≠ []) : s'.potential now < s.potential now := by
  obtain ⟨i, hi⟩ := exists_mem_of_ne_nil _ hne
  have hsubset : s'.dueIds now ⊂ s.dueIds now := by
    refine Finset.ssubset_iff_subset_ne.2 ⟨fun k hk => ?_, fun heq => ?_⟩
    · exact mem_dueIds.2 (h.isDue.1 (mem_dueIds.1 hk)).1
    · have hdue : i ∈ s'.dueIds now := heq ▸ mem_dueIds.2 (hids i hi)
      exact (h.isDue.1 (mem_dueIds.1 hdue)).2 hi
  have hcard := Finset.card_lt_card hsubset
  have hbacklog : ∀ k, s'.backlogOf (milliseconds now) k = s.backlogOf (milliseconds now) k := by
    intro k
    rw [Store.backlogOf, Store.backlogOf, h.jobs]
  simp only [Store.potential, h.jobs, hbacklog]
  omega

end

/-- As long as an occurrence is due, the call has one to claim. -/
theorem claimTurns_ne_nil (hd : d.Drives now) (hi : s.IsDue now i) : (d.claimTurns s).1 ≠ [] := by
  obtain ⟨r, job, hr, hjob, hscanned, hdue⟩ := hi
  have hlimit := ensure_eq_ok.1 hd.limit
  have hwindow := ensure_eq_ok.1 hd.window
  simp only [bool_to_prop] at hlimit hwindow
  have hcandidate : (⟨i, r, job⟩ : Candidate) ∈ s.candidates d.lockedOccurrences d.observedAt := by
    rw [hd.time, hd.unlocked.2]
    exact mem_candidates.2 ⟨hr, hjob, hscanned, hdue, not_mem_nil⟩
  have hrows : d.candidateRows s ≠ [] := scanRows_ne_nil hwindow.1 (ne_nil_of_mem hcandidate)
  have heligible : ((d.candidateRows s).filter fun c => d.eligible c.job) = d.candidateRows s :=
    filter_eq_self.2 fun c _ => hd.eligible c.job
  rw [DueScan.claimTurns, heligible]
  exact rotateOwners_ne_nil hlimit.1 hrows

/-- The call returns, the next one can be made, and what is due is claimed or there is less to do. -/
theorem due_ok (hd : d.Drives now) (hnow : milliseconds now ≤ maxBigint) (hfresh : d.Fresh s)
    (hready : Ready now s) (hc : d.continuation.validate = .ok ()) :
    ∃ batch s', (materializeAndClaimDueForAdministration d).Ok s batch s' ∧ Ready now s' ∧
      batch.continuation.validate = .ok () ∧
      ∀ i, s.IsDue now i → i ∈ batch.claims.map (·.occurrence.occurrenceId) ∨
        (s'.IsDue now i ∧ s'.potential now < s.potential now) := by
  have hvalidate : d.validate = .ok () := by
    simp only [DueScan.validate, hd.worker, hd.limit, hd.window, hd.lease, hc]
    rfl
  obtain ⟨s1, hfirst, hprogress⟩ := materializeDue_ok hd hnow hfresh hready
  have hready1 := hprogress.ready hready
  obtain ⟨records, s2, hsecond, hrecords, hclaims⟩ := claimDue_ok hd hready1
  have hids : ∀ i ∈ (d.claimTurns s1).1.map Candidate.occurrenceId, s1.IsDue now i := by
    intro i hi
    obtain ⟨c, hc, rfl⟩ := mem_map.1 hi
    obtain ⟨hr, hjob, hscanned, hdue, -⟩ := mem_candidates.1 (mem_of_mem_claimTurns hc)
    exact ⟨c.row, c.job, hr, hjob, hscanned, hd.time ▸ hdue⟩
  have hcontinuation := batch_continuation hready hready1 hc records
  refine ⟨_, s2, ok_check_bind hvalidate (hfirst.bind (hsecond.bind (ok_check_bind hcontinuation
    (ok_pure.2 ⟨rfl, rfl⟩)))), hclaims.ready hids hready1, hcontinuation, fun i hi => ?_⟩
  have hi1 := IsDue.progress hprogress hi
  by_cases hclaimed : i ∈ (d.claimTurns s1).1.map Candidate.occurrenceId
  · exact .inl (hrecords ▸ hclaimed)
  · have hne : (d.claimTurns s1).1.map Candidate.occurrenceId ≠ [] := by
      rw [ne_eq, map_eq_nil_iff]
      exact claimTurns_ne_nil hd hi1
    exact .inr ⟨hclaims.isDue.2 ⟨hi1, hclaimed⟩,
      (hclaims.potential hids hne).trans_le hprogress.potential⟩

/-! ## A host that goes on -/

/-- The call goes on where the last one stopped. -/
def hostCall (d : DueScan) (c : DueScanContinuation) : Call :=
  ⟨.materializeAndClaimDue { d with continuation := c }, false⟩

/-- Where the next call goes on. -/
def continuationOf (reply : Except Exc Reply) (c : DueScanContinuation) : DueScanContinuation :=
  match reply with
  | .ok (.batch batch) => batch.continuation
  | _ => c

/-- The tables and the continuation after some of the host's calls. -/
def host (d : ℕ → DueScan) (s : Store) (c : DueScanContinuation) : ℕ → Store × DueScanContinuation
  | 0 => (s, c)
  | n + 1 =>
    let before := host d s c n
    let call := hostCall (d n) before.2
    (before.1.step call, continuationOf (before.1.reply call) before.2)

/-- The reply to the host's call after `n` others. -/
def hostReply (d : ℕ → DueScan) (s : Store) (c : DueScanContinuation) (n : ℕ) : Except Exc Reply :=
  (host d s c n).1.reply (hostCall (d n) (host d s c n).2)

/-- The reply has a claim of the occurrence. -/
def Claimed (reply : Except Exc Reply) (i : Uuid) : Prop :=
  match reply with
  | .ok (.batch batch) => i ∈ batch.claims.map (·.occurrence.occurrenceId)
  | _ => False

instance (reply : Except Exc Reply) (i : Uuid) : Decidable (Claimed reply i) :=
  match reply with
  | .ok (.batch batch) =>
    inferInstanceAs (Decidable (i ∈ batch.claims.map (·.occurrence.occurrenceId)))
  | .ok .done | .ok (.effect _) | .ok (.admission _) | .error _ => inferInstanceAs (Decidable False)

section
variable {d : ℕ → DueScan} {c : DueScanContinuation}

section
variable (hd : ∀ n, (d n).Drives now) (hnow : milliseconds now ≤ maxBigint)
    (hfresh : ∀ n, { d n with continuation := (host d s c n).2 }.Fresh (host d s c n).1)
include hd hnow hfresh

theorem host_step (hready : Ready now (host d s c n).1) (hc : (host d s c n).2.validate = .ok ()) :
    Ready now (host d s c (n + 1)).1 ∧ (host d s c (n + 1)).2.validate = .ok () ∧
      ∀ i, (host d s c n).1.IsDue now i → Claimed (hostReply d s c n) i ∨
        ((host d s c (n + 1)).1.IsDue now i ∧
          (host d s c (n + 1)).1.potential now < (host d s c n).1.potential now) := by
  have hdrives : ({ d n with continuation := (host d s c n).2 } : DueScan).Drives now :=
    ⟨(hd n).time, (hd n).eligible, (hd n).unlocked, (hd n).worker, (hd n).limit, (hd n).window,
      (hd n).lease, (hd n).advances, (hd n).recurs⟩
  obtain ⟨batch, s', hok, hready', hvalid, hprogress⟩ := due_ok hdrives hnow (hfresh n) hready hc
  have hexec : exec (hostCall (d n) (host d s c n).2).method (host d s c n).1 =
      (.ok (.batch batch), s') := hok.bind (ok_pure.2 ⟨rfl, rfl⟩)
  have hreply : hostReply d s c n = .ok (.batch batch) := by
    rw [hostReply, Store.reply, hexec]
  have hstep : host d s c (n + 1) = (s', batch.continuation) := by
    have hcontinuation : continuationOf (hostReply d s c n) (host d s c n).2 = batch.continuation := by
      rw [hreply, continuationOf]
    have hstore : (host d s c n).1.step (hostCall (d n) (host d s c n).2) = s' := by
      simp only [Store.step, hexec]
    exact Prod.ext hstore hcontinuation
  rw [hstep]
  refine ⟨hready', hvalid, fun i hi => (hprogress i hi).imp (fun hmem => ?_) id⟩
  rw [hreply]
  exact hmem

/-- By induction on what is left to do: in the end the occurrence is claimed. -/
theorem host_claims
    (n : ℕ) (hready : Ready now (host d s c n).1) (hc : (host d s c n).2.validate = .ok ())
    (hi : (host d s c n).1.IsDue now i) : ∃ n, Claimed (hostReply d s c n) i := by
  induction hp : (host d s c n).1.potential now using Nat.strong_induction_on generalizing n with
  | _ left ih =>
    obtain ⟨hready', hc', hprogress⟩ := host_step hd hnow hfresh hready hc
    rcases hprogress i hi with hclaimed | ⟨hi', hless⟩
    · exact ⟨n, hclaimed⟩
    · exact ih _ (hp ▸ hless) (n + 1) hready' hc' hi' rfl

end

end

/-! ## No materialised run is lost -/

/-- The time from which an occurrence that has not ended can be claimed. -/
def OccurrenceColumns.dueFrom (r : OccurrenceColumns) : Time :=
  match r.state with
  | .retryable => r.nextAttemptAt.getD 0
  | .claimed | .running => r.leaseExpiresAt.getD 0
  | _ => r.scheduledFor

theorem OccurrenceRow.due_of_le {r : OccurrenceRow} (hopen : r.state.terminal = false)
    (hnow : r.dueFrom ≤ now) : r.due now := by
  have haccepted := r.isAccepted
  unfold OccurrenceColumns.accepted at haccepted
  unfold OccurrenceColumns.dueFrom at hnow
  unfold OccurrenceColumns.due
  cases hstate : r.state with
  | pending =>
    rw [hstate] at hnow
    exact decide_eq_true hnow
  | retryable =>
    rw [hstate] at hnow
    cases hnext : r.nextAttemptAt with
    | none => rfl
    | some =>
      rw [hnext] at hnow
      exact decide_eq_true hnow
  | claimed | running =>
    -- a held row has a lease
    rw [hstate] at hnow haccepted
    cases hlease : r.leaseExpiresAt with
    | none => simp [hlease, OccurrenceState.held] at haccepted
    | some =>
      rw [hlease] at hnow
      exact decide_eq_true hnow
  | completed | failed | cancelled =>
    rw [hstate] at hopen
    contradiction

theorem Fenced.ready (h : Fenced s) (hjobs : JobsSound s)
    (hroom : ∀ i, s.claimsMade.count i < maxInteger) : Ready now s where
  jobs := hjobs.sound
  ids := h.ids
  room i r hr _ := by
    have hclaims := h.claims i
    rw [Store.generation_of hr] at hclaims
    have hattempts := (h.sound i r hr).attempts
    have hcount := hroom i
    have hrange : maxInteger ≤ maxBigint := by decide
    omega

/-- A definition that is neither withheld on purpose nor of a status the scan passes over. -/
theorem JobsSound.scanned (h : JobsSound s)
    (hjob : s.jobs.lookup i = some job) (hpaused : job.status ≠ .paused)
    (hdisabled : job.status ≠ .disabled) (hstopped : s.isStopped i = false) : job.scanned := by
  have hregular := (h.regular i job hjob).resolve_right (by simp [hstopped])
  unfold ScheduledJob.regular at hregular
  unfold ScheduledJob.scanned
  cases hstatus : job.status with
  | active => rfl
  | paused => exact absurd hstatus hpaused
  | disabled => exact absurd hstatus hdisabled
  | completed =>
    rw [hstatus] at hregular
    simpa using hregular
  | expired =>
    rw [hstatus] at hregular
    contradiction

theorem Store.run_row (calls : List Call) {r : OccurrenceRow}
    (hr : s.occurrences.lookup i = some r) :
    ∃ r', (s.run calls).occurrences.lookup i = some r' ∧ r'.identity = r.identity := by
  refine @run_keeps _ _ Store.step (fun s => ∃ r', s.occurrences.lookup i = some r' ∧
    r'.identity = r.identity) ?_ calls s ⟨r, hr, rfl⟩
  rintro call s ⟨r1, hr1, hid⟩
  obtain ⟨r2, hr2, hw⟩ := (Store.step_evolves call s).rows i r1 hr1
  exact ⟨r2, hr2, (identity_of_writes hw).trans hid⟩

/-- A definition with one cadence point, a second after the epoch. -/
def sampleJob (kind : ScheduleKind) : ScheduledJob where
  jobId := ⟨0x40008000000000000001⟩
  ownerId := "owner"
  name := "digest"
  instruction := "summarise"
  scheduleKind := kind
  scheduleExpression := "3600"
  timezone := "UTC"
  status := .active
  nextRunAt := some 1000
  createdAt := 0
  updatedAt := 0
  agentId := none
  consentedScopes := []
  delivery := "in_app"
  targetChatId := none
  lastRunAt := none
  offlineGrantId := none

/-- A host's call, with its callback. -/
def sampleScan (now : Time) (nextRun : ScheduledJob → ℤ → Option ℤ) : DueScan where
  instanceId := "host"
  limit := 8
  leaseSeconds := 60
  eligible _ := true
  nextRun := nextRun
  clock _ := now
  occurrenceIds _ := ⟨⟨0x40008000000000000002⟩, by decide⟩
  leaseTokens _ := ⟨⟨0x40008000000000000003⟩, by decide⟩

/-- The definition is created, and its cadence point is materialised two seconds after the epoch. -/
def sampleCalls (kind : ScheduleKind) (nextRun : ScheduledJob → ℤ → Option ℤ) : List Call :=
  [⟨.createJobDefinition (sampleJob kind), true⟩,
    ⟨.materializeAndClaimDue (sampleScan 2000000 nextRun), true⟩]

/-- An hour later, and nothing for a definition that runs once. -/
def hourly (j : ScheduledJob) (scheduledMs : ℤ) : Option ℤ :=
  if j.scheduleKind = .oneShot ∨ maxBigint < scheduledMs + 3600000 then none
  else some (scheduledMs + 3600000)

theorem hourly_drives (hnow : milliseconds now + 3600000 ≤ maxBigint) :
    (sampleScan now hourly).Drives now where
  time := rfl
  eligible _ := rfl
  unlocked := ⟨rfl, rfl⟩
  worker := show Scheduler.instanceId "host" = .ok () by decide +kernel
  limit := show Scheduler.limit 8 = .ok () by decide +kernel
  window := show Scheduler.limit 32 = .ok () by decide +kernel
  lease := show Scheduler.leaseSeconds 60 = .ok () by decide +kernel
  advances j scheduledMs next h := by
    simp only [sampleScan, hourly] at h
    split at h
    · cases h
    · cases h
      constructor <;> omega
  recurs j scheduledMs hdue hkind h := by
    simp only [sampleScan, hourly] at h
    split at h
    · rename_i hnone
      rcases hnone with honce | hfar
      · exact hkind honce
      · omega
    · cases h

/-- **No materialised run is lost** in a run whose calls meet the condition: an occurrence that was
    inserted stays, and until it has ended, whenever its definition is not withheld, a host that goes
    on at a time when it is due claims it. -/
theorem materialized_occurrence_claimed (earlier later : List Call)
    (hcalls : AllMeet (earlier ++ later) Store.empty) {i : Uuid} {r₀ : OccurrenceRow}
    (hinserted : (Store.empty.run earlier).occurrences.lookup i = some r₀) :
    ∃ r, (Store.empty.run (earlier ++ later)).occurrences.lookup i = some r ∧ r.jobId = r₀.jobId ∧
      (r.state.terminal = false →
        (∀ k, (Store.empty.run (earlier ++ later)).claimsMade.count k < maxInteger) →
        ∀ job, (Store.empty.run (earlier ++ later)).jobs.lookup r.jobId = some job →
          job.status ≠ .paused → job.status ≠ .disabled →
          (Store.empty.run (earlier ++ later)).isStopped r.jobId = false →
        ∀ now, r.dueFrom ≤ now → milliseconds now ≤ maxBigint →
        ∀ (d : ℕ → DueScan) (c : DueScanContinuation), (∀ n, (d n).Drives now) →
          c.validate = .ok () →
          -- the calls draw new ids, as long as the occurrence is not claimed
          (∀ n, (∀ m < n, ¬ Claimed (hostReply d (Store.empty.run (earlier ++ later)) c m) i) →
            { d n with continuation := (host d (Store.empty.run (earlier ++ later)) c n).2 }.Fresh
              (host d (Store.empty.run (earlier ++ later)) c n).1) →
          ∃ n, Claimed (hostReply d (Store.empty.run (earlier ++ later)) c n) i) := by
  have hfenced := Store.run_fenced (earlier ++ later) fenced_empty
  have hjobs := Store.run_jobsSound hcalls jobsSound_empty
  obtain ⟨r, hr, hid⟩ := Store.run_row later hinserted
  have hrun : (Store.empty.run earlier).run later = Store.empty.run (earlier ++ later) :=
    (run_append Store.step earlier later Store.empty).symm
  rw [hrun] at hr
  generalize Store.empty.run (earlier ++ later) = s at hfenced hjobs hr ⊢
  refine ⟨r, hr, (Prod.mk.inj hid).1, ?_⟩
  intro hopen hroom job hjob hpaused hdisabled hstopped now hdue hnow d c hdrives hc hfresh
  have hscanned := hjobs.scanned hjob hpaused hdisabled hstopped
  have hisDue : s.IsDue now i := ⟨r, job, hr, hjob, hscanned, OccurrenceRow.due_of_le hopen hdue⟩
  by_contra hnever
  rw [not_exists] at hnever
  have hclaims := host_claims hdrives hnow (fun n => hfresh n fun m _ => hnever m) (i := i)
    0 (hfenced.ready hjobs hroom) hc hisDue
  exact hclaims.elim hnever

/-- A run that is claimed when it is materialised, and again when its lease is over. -/
theorem one_shot_claimed_again :
    ∃ n, Claimed (hostReply (fun _ => sampleScan 62000000 hourly)
      (Store.empty.run (sampleCalls .oneShot hourly)) {} n) ⟨0x40008000000000000002⟩ := by
  have hkind : ∀ e ∈ (Store.empty.step ⟨.createJobDefinition (sampleJob .oneShot), true⟩).jobs.entries,
      e.2.scheduleKind = .oneShot := by decide +kernel
  have hcalls : AllMeet (sampleCalls .oneShot hourly ++ []) Store.empty :=
    ⟨⟨by decide +kernel, by decide +kernel⟩,
      fun i j _ hj _ _ _ hne => absurd (hkind _ (Keyed.mem_entries.2 hj)) hne, trivial⟩
  have hrow : (Store.empty.run (sampleCalls .oneShot hourly)).occurrences.lookup
      ⟨0x40008000000000000002⟩ = some ((sampleScan 2000000 hourly).claimedRow 0
        ⟨⟨0x40008000000000000002⟩, .pending (sampleJob .oneShot).jobId "owner" 1000000 none,
          sampleJob .oneShot⟩) := by decide +kernel
  have hjob : (Store.empty.run (sampleCalls .oneShot hourly)).jobs.lookup (sampleJob .oneShot).jobId =
      some { sampleJob .oneShot with nextRunAt := none, status := .completed, updatedAt := 2000 } := by
    decide +kernel
  have hclaimsMade : (Store.empty.run (sampleCalls .oneShot hourly)).claimsMade.length < maxInteger := by
    decide +kernel
  obtain ⟨r, hr, -, hclaim⟩ :=
    materialized_occurrence_claimed (sampleCalls .oneShot hourly) [] hcalls hrow
  rw [append_nil] at hr hclaim
  cases hr.symm.trans hrow
  refine hclaim rfl (fun k => count_le_length.trans_lt hclaimsMade) _ hjob (by decide) (by decide)
    (by decide +kernel) 62000000 (by decide) (by decide) (fun _ => sampleScan 62000000 hourly) {}
    (fun _ => hourly_drives (by decide)) rfl fun n hclaimed => ?_
  cases n with
  | zero =>
    -- nothing is left to materialise
    have hnone : ((sampleScan 62000000 hourly).dueTurns
        (Store.empty.run (sampleCalls .oneShot hourly))).1.length = 0 := by decide +kernel
    exact ⟨fun n hn => absurd (hn.trans_eq hnone) (Nat.not_lt_zero n),
      fun n hn => absurd (hn.trans_eq hnone) (Nat.not_lt_zero n)⟩
  | succ n =>
    have hfirst : Claimed (hostReply (fun _ => sampleScan 62000000 hourly)
      (Store.empty.run (sampleCalls .oneShot hourly)) {} 0) ⟨0x40008000000000000002⟩ := by decide +kernel
    exact absurd hfirst (hclaimed 0 n.succ_pos)

/-! ## A recurring definition that ends -/

/-- The occurrence is as it was, and its definition is one that the scan passes over. -/
structure Stranded (i : Uuid) (r : OccurrenceRow) (s : Store) : Prop where
  row : s.occurrences.lookup i = some r
  passed : ∀ job, s.jobs.lookup r.jobId = some job → job.scanned = false
  keys : ∀ k job, s.jobs.lookup k = some job → job.jobId = k

section
variable {r : OccurrenceRow}

theorem insertOccurrenceSql_stranded {k : Uuid} {row : OccurrenceRow} {anyKey : Bool} :
    (insertOccurrenceSql k row anyKey).Moves (Tx.Keeping (Stranded i r)) := by
  refine moves_get_bind fun s => ?_
  split
  · exact (readOnly_pure _).moves s
  · split
    · exact (readOnly_ite (readOnly_pure _) (readOnly_raise _)).moves s
    · rename_i hkeys
      refine leaves_set_bind.2 (leaves_pure.2 fun hs => ⟨?_, hs.passed, hs.keys⟩)
      have hne : i ≠ k := by
        rintro rfl
        simp [hs.row] at hkeys
      rw [Keyed.lookup_write, if_neg hne, hs.row]

theorem materializeDue_stranded (hs : Stranded i r s) :
    (materializeDue d).Leaves s (Stranded i r) := by
  refine leaves_get_bind (leaves_readOnly_bind loadAll_readOnly hs fun _ _ =>
    Leaves.bind_readOnly (Moves.leaves (Moves.each_mem _ fun p hp => ?_) hs)
      fun _ => readOnly_pure _)
  have hne : r.jobId ≠ p.1.jobId := fun heq => by
    -- a definition that is due is active, which this one is not
    obtain ⟨hlookup, hactive, -⟩ :=
      (mem_dueJobs hs.keys).1 (mem_of_mem_dueTurns (fst_mem_of_mem_zipIdx hp))
    have hpassed := hs.passed _ (by rw [heq, hlookup])
    simp [scanned, hactive] at hpassed
  unfold materialize
  split
  · exact (readOnly_raise _).moves
  · refine insertOccurrenceSql_stranded.bind fun _ => check_bind <| Moves.bind ?_ fun _ =>
      (readOnly_require _ _).moves
    intro s hs
    obtain ⟨heq, -⟩ | ⟨j, hj, -, -, -, heq⟩ := updateJobSql_cases p.1.jobId _ _ s <;> rw [heq]
    · exact hs
    · refine ⟨hs.row, fun job hjob => ?_, fun k' job hjob => ?_⟩
      · rw [Keyed.lookup_write, if_neg hne] at hjob
        exact hs.passed job hjob
      · rcases Keyed.write_cases hjob with ⟨rfl, rfl⟩ | ⟨-, hjob⟩
        · exact hs.keys _ j hj
        · exact hs.keys k' job hjob

theorem claimDue_stranded (hs : Stranded i r s) : (claimDue d).Leaves s (Stranded i r) := by
  refine leaves_get_bind (leaves_readOnly_bind loadAll_readOnly hs fun _ _ =>
    Leaves.bind_readOnly (Moves.leaves (Moves.collect_mem _ fun p hp => ?_) hs)
      fun _ => readOnly_pure _)
  have hne : i ≠ p.1.occurrenceId := fun heq => by
    obtain ⟨hr, hjob, hscanned, -⟩ :=
      mem_candidates.1 (mem_of_mem_claimTurns (fst_mem_of_mem_zipIdx hp))
    rw [← heq, hs.row] at hr
    have hpassed := hs.passed _ (by rw [Option.some.inj hr, hjob])
    cases hscanned.symm.trans hpassed
  refine Moves.bind (fun s hs => ?_) fun row => ReadOnly.moves ?_
  · refine (claimOccurrenceSql_cases _ _ _ _ _ s).leaves (P := Stranded i r) ?_
    rintro _ _ (⟨rfl, -⟩ | ⟨r1, r2, -, -, -, -, rfl⟩)
    · exact hs
    · exact ⟨by rw [Keyed.lookup_write, if_neg hne, hs.row], hs.passed, hs.keys⟩
  · split <;> simp

/-- No due call claims an occurrence whose definition it passes over, nor ends that state. -/
theorem Stranded.step (hs : Stranded i r s) (d : DueScan) (kept : Bool) :
    Stranded i r (s.step ⟨.materializeAndClaimDue d, kept⟩) := by
  refine Store.step_leaves ?_ hs
  refine Leaves.bind_readOnly ?_ fun _ => readOnly_pure _
  refine leaves_readOnly_bind (check_readOnly _) hs fun _ _ => ?_
  refine (materializeDue_stranded hs).bind (fun _ => id) fun _ s1 hs1 => ?_
  refine (claimDue_stranded hs1).bind (fun _ => id) fun _ s2 hs2 => ?_
  exact ((check_readOnly _).leaves hs2).bind_readOnly fun _ => readOnly_pure _

theorem Stranded.run (hs : Stranded i r s) (scans : List DueScan) :
    Stranded i r (s.run (scans.map fun d => ⟨.materializeAndClaimDue d, true⟩)) := by
  induction scans generalizing s with
  | nil => exact hs
  | cons d scans ih => exact ih (hs.step d true)

end

/-- The last occurrence of a recurring definition is inserted by the call that completes the
    definition, and no call that follows claims it. -/
theorem last_occurrence_stranded :
    (Store.empty.run (sampleCalls .interval fun _ _ => none)).occurrences.lookup
      ⟨0x40008000000000000002⟩ = some (.pending (sampleJob .interval).jobId "owner" 1000000 none) ∧
    ((Store.empty.run (sampleCalls .interval fun _ _ => none)).jobs.lookup
      (sampleJob .interval).jobId).map ScheduledJob.status = some .completed ∧
    (Store.empty.run (sampleCalls .interval fun _ _ => none)).isStopped
      (sampleJob .interval).jobId = false ∧
    ∀ scans : List DueScan, ((Store.empty.run (sampleCalls .interval fun _ _ => none)).run
      (scans.map fun d => ⟨.materializeAndClaimDue d, true⟩)).occurrences.lookup
        ⟨0x40008000000000000002⟩ = some (.pending (sampleJob .interval).jobId "owner" 1000000 none) := by
  have hjobs : ∀ e ∈ (Store.empty.run (sampleCalls .interval fun _ _ => none)).jobs.entries,
      e.2.scanned = false ∧ e.2.jobId = e.1 := by decide +kernel
  have hstranded : Stranded ⟨0x40008000000000000002⟩
      (.pending (sampleJob .interval).jobId "owner" 1000000 none)
      (Store.empty.run (sampleCalls .interval fun _ _ => none)) :=
    ⟨by decide +kernel, fun job hjob => (hjobs _ (Keyed.mem_entries.2 hjob)).1,
      fun k job hjob => (hjobs _ (Keyed.mem_entries.2 hjob)).2⟩
  refine ⟨hstranded.row, by decide +kernel, by decide +kernel, fun scans => ?_⟩
  exact (hstranded.run scans).row

end AstralPlane.Scheduler
