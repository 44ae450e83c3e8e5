/-
  What calls do to definitions.

  A definition is read back as a `ScheduledJob`, so that a row whose fields do not
  fit together raises wherever it is read, and the due scan reads the rows of all
  owners.  `JobsSound` is what keeps the scan going; every run keeps it whose
  calls stamp their updates no earlier than the definition was created, create no
  definition that is due before the epoch, and give none a status that the scan
  passes over (`Method.Meets`).
-/
import AstralPlane.Scheduler.Allowance

namespace AstralPlane.Scheduler

open Tx ScheduledJob

variable {job : ScheduledJob} {ownerId : String} {jobId : Uuid} {updatedAt : ℤ} {status : JobStatus}

/-! ## Definitions that a scan can read -/

/-- The status is one under which the scan claims occurrences, or one that withholds them on purpose. -/
def ScheduledJob.regular (j : ScheduledJob) : Bool :=
  match j.status with
  | .active | .paused | .disabled => true
  | .completed => j.scheduleKind = .oneShot
  | .expired => false

/-- No cadence point before the epoch, which the continuation of a scan could not name. -/
def ScheduledJob.cadenceOk (j : ScheduledJob) : Bool := j.nextRunAt.all (0 ≤ ·)

/-- The row loads, can be written again and can be a scan's last row. -/
structure ScheduledJob.Sound (j : ScheduledJob) (jobId : Uuid) : Prop where
  key : j.jobId = jobId
  valid : j.validate = .ok ()
  fits : j.fits
  cadence : j.cadenceOk

/-- Every definition loads, and is regular unless it was stopped for good. -/
structure JobsSound (s : Store) : Prop where
  sound : ∀ i j, s.jobs.lookup i = some j → j.Sound i
  regular : ∀ i j, s.jobs.lookup i = some j → j.regular ∨ s.isStopped i

/-- The definition was created by then. -/
def Store.createdBy (s : Store) (jobId : Uuid) (at_ : ℤ) : Prop :=
  ∀ j, s.jobs.lookup jobId = some j → j.createdAt ≤ at_

/-- The condition on a call: it creates no definition that is due before the epoch, it stamps no
    update before the definition was created, and it expires no definition and completes no recurring
    one, nor does its callback end one that is due. -/
def Method.Meets (s : Store) : Method → Prop
  | .createJobDefinition job | .putJob job => job.regular ∧ job.cadenceOk
  | .setJobOfflineGrant _ jobId _ updatedAt => s.createdBy jobId updatedAt
  | .setJobStatus _ jobId status updatedAt => s.createdBy jobId updatedAt ∧
      ∀ j, s.jobs.lookup jobId = some j → ({ j with status := status }).regular
  | .transitionJobAndListUnstarted _ jobId _ clock => s.createdBy jobId (epochMilliseconds (clock 0))
  | .updateJobAfterRun jobId _ _ completed updatedAt => s.createdBy jobId updatedAt ∧
      (completed → ∀ j, s.jobs.lookup jobId = some j → j.scheduleKind = .oneShot)
  | .materializeAndClaimDue d => ∀ i j scheduledMs, s.jobs.lookup i = some j → j.status = .active →
      j.nextRunAt = some scheduledMs → scheduledMs ≤ d.observedMs → j.scheduleKind ≠ .oneShot →
        d.nextRun j scheduledMs ≠ none
  | .stopAssignmentJob _ jobId _ stoppedAt _ => s.createdBy jobId stoppedAt
  | _ => True

/-! ## Statements -/

theorem updateJobSql_cases (i : Uuid) (selects : ScheduledJob → Bool)
    (written : ScheduledJob → ScheduledJob) (s : Store) :
    (updateJobSql i selects written).Ends s fun reply s' =>
      (s' = s ∧ (reply = .ok 0 ∨ ∃ e, reply = .error e)) ∨
      ∃ j, s.jobs.lookup i = some j ∧ selects j ∧ (written j).fits ∧ reply = .ok 1 ∧
        s' = { s with jobs := s.jobs.insert i (written j) } := by
  refine ends_get_bind ?_
  split
  · exact ends_pure (.inl ⟨rfl, .inl rfl⟩)
  · rename_i j hj
    obtain ⟨hlookup, hselects⟩ := Option.filter_eq_some_iff.1 hj
    exact ends_require_bind (fun hfits => .inr ⟨j, hlookup, hselects, hfits, rfl, rfl⟩)
      fun _ => .inl ⟨rfl, .inr ⟨_, rfl⟩⟩

/-- A definition with what a method may change of it still loads. -/
theorem ScheduledJob.validate_update {j j' : ScheduledJob} (h : j.validate = .ok ())
    (hsame : j' = { j with
      status := j'.status, nextRunAt := j'.nextRunAt, updatedAt := j'.updatedAt,
      lastRunAt := j'.lastRunAt, offlineGrantId := j'.offlineGrantId })
    (hupdated : j.createdAt ≤ j'.updatedAt) (hlast : j'.lastRunAt.all (0 ≤ ·))
    (hgrant : optional j'.offlineGrantId (uuid "offline_grant_id") = .ok ()) :
    j'.validate = .ok () := by
  rw [hsame]
  simp only [validate, ok_rules] at h ⊢
  obtain ⟨_, h1, _, h2, _, h3, _, h4, _, h5, _, h6, _, h7, _, h8, _, h9, _, h10, _, h11, _, h12, _,
    h13, h14⟩ := h
  refine ⟨(), h1, (), h2, (), h3, (), h4, (), h5, (), h6, (), ?_, (), h8, (), h9, (), h10, (), h11,
    (), h12, (), hlast, hgrant⟩
  simp only [bool_to_prop] at h7 ⊢
  exact ⟨h7.1, hupdated⟩

variable {j : ScheduledJob}

theorem ScheduledJob.valid_fields (h : j.validate = .ok ()) :
    0 ≤ j.createdAt ∧ j.createdAt ≤ j.updatedAt ∧ j.lastRunAt.all (0 ≤ ·) ∧
      optional j.offlineGrantId (uuid "offline_grant_id") = .ok () := by
  simp only [validate, ok_rules] at h
  obtain ⟨_, -, _, -, _, -, _, -, _, -, _, -, _, htimes, _, -, _, -, _, -, _, -, _, -, _, hlast,
    hgrant⟩ := h
  simp only [bool_to_prop] at htimes
  exact ⟨htimes.1, htimes.2, hlast, hgrant⟩

theorem JobsSound.write {s : Store} (h : JobsSound s) {i : Uuid} (hj : j.Sound i)
    (hregular : j.regular ∨ s.isStopped i) :
    JobsSound { s with jobs := s.jobs.insert i j } where
  sound k a ha := by
    rcases Keyed.write_cases ha with ⟨rfl, rfl⟩ | ⟨-, ha⟩
    · exact hj
    · exact h.sound k a ha
  regular k a ha := by
    rcases Keyed.write_cases ha with ⟨rfl, rfl⟩ | ⟨-, ha⟩
    · exact hregular
    · exact h.regular k a ha

/-- The tables that the condition is about are as they were, and no stop is undone. -/
theorem JobsSound.congr {s s' : Store} (h : JobsSound s) (hjobs : s'.jobs = s.jobs)
    (hstops : ∀ i, s.isStopped i →
      s'.isStopped i) : JobsSound s' where
  sound i j hj := h.sound i j (by rw [← hjobs, hj])
  regular i j hj := (h.regular i j (by rw [← hjobs, hj])).imp id (hstops i)

theorem sound_of_touches {α : Type} {T : List Table} {x : Work α} (h : x.Moves (Touches T))
    (hjobs : Table.jobs ∉ T) (hpolicies : Table.policies ∉ T) : x.Moves (Tx.Keeping JobsSound) := by
  refine h.imp fun s s' htouches hs => hs.congr (htouches .jobs hjobs) fun i hi => ?_
  have heq : s'.policies = s.policies := htouches .policies hpolicies
  rwa [Store.isStopped, heq]

theorem updateJobSql_sound {i : Uuid} {selects : ScheduledJob → Bool}
    {written : ScheduledJob → ScheduledJob} {s : Store} (h : JobsSound s)
    (hwritten : ∀ j, s.jobs.lookup i = some j → selects j → (written j).fits → (written j).Sound i ∧
        ((written j).regular ∨ s.isStopped i)) :
    (updateJobSql i selects written).Leaves s JobsSound := by
  refine (updateJobSql_cases i selects written s).leaves ?_
  rintro _ _ (⟨rfl, -⟩ | ⟨j, hj, hselects, hfits, -, rfl⟩)
  · exact h
  · exact h.write (hwritten j hj hselects hfits).1 (hwritten j hj hselects hfits).2

/-! ## Methods -/

section
variable {s : Store}

theorem leaves_check_bind {α : Type} {P : Store → Prop} {c : Check} {f : Unit → Work α} (h : P s)
    (hf : c = .ok () → (f ()).Leaves s P) : (check c >>= f).Leaves s P :=
  leaves_readOnly_bind (check_readOnly c) h fun _ hok => hf (ok_ofExcept.1 hok).1

theorem putJob_sound (h : JobsSound s) (hjob : job.regular ∧ job.cadenceOk) :
    (putJob job).Leaves s JobsSound := by
  refine leaves_check_bind h fun hvalid => leaves_get_bind ?_
  split
  · refine leaves_require_bind h fun hfits => leaves_set_bind.2
      ((readOnly_bind sameDefinition_readOnly fun _ => readOnly_pure _).leaves
        (h.write ⟨rfl, ?_, ?_, hjob.2⟩ (.inl hjob.1)))
    · -- the defaults pass the checks of their fields
      simp only [validate, ok_rules] at hvalid ⊢
      obtain ⟨_, h1, _, h2, _, h3, _, h4, _, h5, _, h6, _, h7, -⟩ := hvalid
      exact ⟨(), h1, (), h2, (), h3, (), h4, (), h5, (), h6, (), h7, (), rfl, (), rfl, (), rfl, (),
        rfl, (), rfl, (), rfl, rfl⟩
    · simp only [fits, Bool.and_eq_true] at hfits ⊢
      exact ⟨hfits.1, rfl⟩
  · exact (readOnly_bind sameDefinition_readOnly fun _ => readOnly_pure _).leaves h

theorem uuid_eq_ok {name : String} {u : Uuid} : uuid name u = .ok () ↔ u.int ≠ 0 := by
  simp [uuid, ensure_eq_ok]

theorem setJobOfflineGrant_sound {grantId : Option Uuid} (h : JobsSound s)
    (hat : s.createdBy jobId updatedAt) :
    (setJobOfflineGrant ownerId jobId grantId updatedAt).Leaves s JobsSound := by
  refine leaves_check_bind h fun _ => leaves_check_bind h fun _ => leaves_check_bind h fun hgrant =>
    leaves_check_bind h fun _ => Leaves.bind_readOnly (updateJobSql_sound h fun j hj _ hfits => ?_)
      fun _ => readOnly_pure _
  have hsound := h.sound jobId j hj
  have hgrant' : optional grantId (uuid "offline_grant_id") = .ok () := by
    cases grantId with
    | none => rfl
    | some => exact uuid_eq_ok.2 (uuid_eq_ok.1 hgrant)
  refine ⟨⟨hsound.key, ?_, hfits, hsound.cadence⟩, h.regular jobId j hj⟩
  exact validate_update hsound.valid rfl (hat j hj)
    (valid_fields hsound.valid).2.2.1 hgrant'

theorem sound_of_status {nextRunAt : Option ℤ} (h : j.Sound jobId)
    (hat : j.createdAt ≤ updatedAt) (hnext : nextRunAt.all (0 ≤ ·))
    (hfits : ({ j with status := status, nextRunAt := nextRunAt, updatedAt := updatedAt }).fits) :
    ({ j with status := status, nextRunAt := nextRunAt, updatedAt := updatedAt }).Sound jobId :=
  ⟨h.key, validate_update h.valid rfl hat (valid_fields h.valid).2.2.1
    (valid_fields h.valid).2.2.2, hfits, hnext⟩

theorem transitionJobAndListUnstarted_sound
    {clock : Clock} (h : JobsSound s) (hat : s.createdBy jobId (epochMilliseconds (clock 0))) :
    (transitionJobAndListUnstarted ownerId jobId status clock).Leaves s JobsSound := by
  refine leaves_check_bind h fun _ => leaves_check_bind h fun _ => leaves_check_bind h fun hstatus =>
    leaves_get_bind ?_
  split
  · exact (readOnly_pure _).leaves h
  · refine Leaves.bind_readOnly (updateJobSql_sound h fun j hj _ hfits =>
      ⟨sound_of_status (h.sound jobId j hj) (hat j hj) (h.sound jobId j hj).cadence hfits,
        .inl ?_⟩) fun _ =>
        readOnly_bind (readOnly_require _ _) fun _ =>
          readOnly_bind readOnly_get fun _ => readOnly_pure _
    have hstatus := ensure_eq_ok.1 hstatus
    simp only [Bool.or_eq_true, decide_eq_true_eq] at hstatus
    rcases hstatus with rfl | rfl <;> rfl

theorem updateJobAfterRun_sound {lastRunAt : ℤ} {nextRunAt : Option ℤ}
    {completed : Bool} (h : JobsSound s) (hat : s.createdBy jobId updatedAt)
    (hcompleted : completed → ∀ j, s.jobs.lookup jobId = some j → j.scheduleKind = .oneShot) :
    (updateJobAfterRunForAdministration jobId lastRunAt nextRunAt completed updatedAt).Leaves s
      JobsSound := by
  refine leaves_check_bind h fun _ => leaves_check_bind h fun hlast => leaves_check_bind h fun hnext =>
    leaves_check_bind h fun _ => Leaves.bind_readOnly (updateJobSql_sound h fun j hj _ hfits => ?_)
      fun _ => readOnly_pure _
  have hsound := h.sound jobId j hj
  refine ⟨⟨hsound.key, ?_, hfits, ?_⟩, ?_⟩
  · refine validate_update hsound.valid rfl (hat j hj) ?_
      (valid_fields hsound.valid).2.2.2
    simpa [millisecond, ensure_eq_ok] using hlast
  · cases nextRunAt with
    | none => rfl
    | some => exact ensure_eq_ok.1 hnext
  · cases completed with
    | false => exact h.regular jobId j hj
    | true => exact .inl (by simpa [regular] using hcompleted rfl j hj)

/-- The definitions have the kinds that they had in `s`. -/
def SameKinds (s s₁ : Store) : Prop := ∀ i j₁, s₁.jobs.lookup i = some j₁ →
  ∃ j, s.jobs.lookup i = some j ∧ j₁.scheduleKind = j.scheduleKind

theorem mem_dueJobs {locked : List Uuid} {observedMs : ℤ}
    (hs : ∀ i j, s.jobs.lookup i = some j → j.jobId = i) :
    j ∈ s.dueJobs locked observedMs ↔ s.jobs.lookup j.jobId = some j ∧ j.status = .active ∧
      j.nextRunAt.any (· ≤ observedMs) ∧ j.jobId ∉ locked := by
  simp only [Store.dueJobs, List.mem_filter, Keyed.mem_rows, bool_to_prop]
  constructor
  · rintro ⟨⟨i, hi⟩, ⟨hactive, hdue⟩, hlocked⟩
    rw [hs i j hi]
    exact ⟨hi, hactive, hdue, hs i j hi ▸ hlocked⟩
  · rintro ⟨hi, hactive, hdue, hlocked⟩
    exact ⟨⟨_, hi⟩, ⟨hactive, hdue⟩, hlocked⟩

theorem materialize_sound {d : DueScan} {n : ℕ} (hjob : s.jobs.lookup job.jobId = some job)
    (hnext : ∀ scheduledMs, job.nextRunAt = some scheduledMs → job.scheduleKind ≠ .oneShot →
      d.nextRun job scheduledMs ≠ none) :
    (materialize d n job).Moves (Tx.Keeping fun s1 => JobsSound s1 ∧ SameKinds s s1) := by
  unfold materialize
  split
  · exact (readOnly_raise _).moves
  · rename_i scheduledMs hscheduled
    refine Moves.bind ?_ fun _ => check_bind_of fun hfollowing => Moves.bind ?_ fun _ =>
      (readOnly_require _ _).moves
    · refine (insertOccurrenceSql_evolves (m := .createOccurrence job.jobId job.jobId "" 0)
        (.head _) isNew_pending
        (d.occurrenceIds n).property).imp fun s1 s2 hs hs1 => ?_
      have hjobs : s2.jobs = s1.jobs := hs.touches .jobs (by simp [Method.tables])
      have hpolicies : s2.policies = s1.policies := hs.touches .policies (by simp [Method.tables])
      refine ⟨hs1.1.congr hjobs fun i hi => ?_, fun i j1 hj1 => ?_⟩
      · rwa [Store.isStopped, hpolicies]
      · exact hs1.2 i j1 (by rw [← hjobs, hj1])
    · intro s1 hs1
      refine (updateJobSql_cases _ _ _ s1).leaves (P := fun s1 => JobsSound s1 ∧ SameKinds s s1) ?_
      rintro _ _ (⟨rfl, -⟩ | ⟨j, hj, -, hfits, -, rfl⟩)
      · exact hs1
      obtain ⟨j0, hj0, hkind⟩ := hs1.2 _ j hj
      cases hjob.symm.trans hj0
      refine ⟨hs1.1.write ?_ ?_, ?_⟩
      · refine sound_of_status (hs1.1.sound _ j hj) ?_ ?_ hfits
        · have := (valid_fields (hs1.1.sound _ j hj).valid).2.1
          omega
        · -- the callback's result has been checked
          cases hnone : d.nextRun job scheduledMs with
          | none => rfl
          | some =>
            rw [hnone] at hfollowing
            obtain ⟨_, hnext, -⟩ := bind_eq_ok.1 hfollowing
            exact ensure_eq_ok.1 hnext
      · split
        · -- only one-shot definitions are completed
          rename_i hcompleted
          left
          by_contra hrecurring
          have hkind' : job.scheduleKind ≠ .oneShot := by
            rw [← hkind]
            simpa [regular] using hrecurring
          have := hnext scheduledMs hscheduled hkind'
          simp [hkind', Option.isNone_iff_eq_none, this] at hcompleted
        · exact hs1.1.regular _ j hj
      · intro i j1 hj1
        rcases Keyed.write_cases hj1 with ⟨rfl, rfl⟩ | ⟨-, hj1⟩
        · exact ⟨_, hjob, hkind⟩
        · exact hs1.2 i j1 hj1

theorem materializeDue_sound {d : DueScan} (h : JobsSound s)
    (hnext : (Method.materializeAndClaimDue d).Meets s) :
    (materializeDue d).Leaves s JobsSound := by
  refine leaves_get_bind (leaves_readOnly_bind loadAll_readOnly h fun _ _ =>
    Leaves.bind_readOnly ?_ fun _ => readOnly_pure _)
  have hmoves : (Tx.each (fun p : ScheduledJob × ℕ => materialize d p.2 p.1) (d.dueTurns s).1.zipIdx).Moves
      (Tx.Keeping fun s1 => JobsSound s1 ∧ SameKinds s s1) := by
    refine Moves.each_mem _ fun p hp => ?_
    have hdue := mem_of_mem_dueTurns (List.fst_mem_of_mem_zipIdx hp)
    obtain ⟨hlookup, hactive, hdue, -⟩ := (mem_dueJobs fun i j hj => (h.sound i j hj).key).1 hdue
    refine materialize_sound hlookup fun scheduledMs hscheduled =>
      hnext _ _ scheduledMs hlookup hactive hscheduled ?_
    simpa [hscheduled] using hdue
  exact (hmoves s ⟨h, fun i j hj => ⟨j, hj, rfl⟩⟩).1

theorem stopAssignmentJob_sound {expectedVersion : ℕ} {stoppedAt : ℤ}
    {clock : Clock} (h : JobsSound s) (hat : s.createdBy jobId stoppedAt) :
    (stopAssignmentJob ownerId jobId expectedVersion stoppedAt clock).Leaves s JobsSound := by
  refine leaves_check_bind h fun _ => leaves_check_bind h fun _ => leaves_check_bind h fun _ =>
    leaves_check_bind h fun _ => leaves_readOnly_bind lockJob_readOnly h fun _ _ =>
      leaves_readOnly_bind lockPolicy_readOnly h fun current _ => ?_
  cases current with
  | none => exact (readOnly_raise _).leaves h
  | some =>
    refine leaves_require_bind h fun _ => ?_
    split
    · exact (readOnly_bind readOnly_get fun _ => readOnly_pure _).leaves h
    · refine (updateSql_cases _ _ _ s).leaves_bind ?_ ?_
      · rintro row s1 (⟨rfl, hrow, -⟩ | ⟨-, _, hrow, -⟩ | ⟨p, _, p', hp', hp, -, hrow, rfl⟩) <;> cases hrow
        · exact (readOnly_raise _).leaves h
        · -- the stop is there before the definition is completed
          have hstops : ∀ i, s.isStopped i ∨ i = jobId →
              ({ s with policies := s.policies.insert jobId p' } : Store).isStopped i := by
            intro i hi
            simp only [Store.isStopped, Keyed.lookup_write]
            split
            · simp [← hp']
            · exact hi.resolve_right ‹_›
          have hsound : JobsSound { s with policies := s.policies.insert jobId p' } :=
            h.congr rfl fun i hi => hstops i (.inl hi)
          refine Leaves.bind (updateJobSql_sound hsound fun j hj _ hfits =>
            ⟨sound_of_status (h.sound jobId j hj) (hat j hj) rfl hfits, .inr (hstops jobId (.inr rfl))⟩)
            (fun _ => id) fun _ s2 hs2 => ?_
          exact Moves.leaves (require_bind <| readOnly_get.moves.bind fun s3 => (sound_of_touches
            (Moves.each stopOccurrence_touches _) (by simp) (by simp)).bind fun _ =>
              loadPolicy_readOnly.moves.bind fun _ =>
                readOnly_get.moves.returning) hs2
      · rintro err s1 (⟨-, hrow, -⟩ | ⟨rfl, _, hrow, -⟩ | ⟨_, _, _, -, -, -, hrow, -⟩) <;> cases hrow
        exact h

end

/-! ## Runs -/

theorem exec_sound {m : Method} {s : Store} (h : JobsSound s) (hm : m.Meets s)
    (hjobs : Table.jobs ∈ m.tables) : (exec m).Leaves s JobsSound := by
  have hquiet : ∀ {α : Type} {x : Work α}, x.Leaves s JobsSound → (quietly x).Leaves s JobsSound :=
    fun hx => hx.bind_readOnly fun _ => readOnly_pure _
  cases m with
  | createJobDefinition =>
    refine hquiet (leaves_check_bind h fun hvalid => leaves_get_bind ?_)
    split
    · exact leaves_require_bind h fun hfits => leaves_set_bind.2
        (h.write ⟨rfl, hvalid, hfits, hm.2⟩ (.inl hm.1))
    · exact (readOnly_bind sameDefinition_readOnly fun _ => readOnly_pure _).leaves h
  | putJob => exact hquiet (putJob_sound h hm)
  | setJobOfflineGrant => exact hquiet (setJobOfflineGrant_sound h hm)
  | setJobStatus ownerId jobId =>
    exact hquiet <| leaves_check_bind h fun _ => leaves_check_bind h fun _ =>
      leaves_check_bind h fun _ => Leaves.bind_readOnly (updateJobSql_sound h fun j hj _ hfits =>
        ⟨sound_of_status (h.sound jobId j hj) (hm.1 j hj) (h.sound jobId j hj).cadence hfits,
          .inl (hm.2 j hj)⟩) fun _ => readOnly_pure _
  | transitionJobAndListUnstarted => exact hquiet (transitionJobAndListUnstarted_sound h hm)
  | updateJobAfterRun => exact hquiet (updateJobAfterRun_sound h hm.1 hm.2)
  | materializeAndClaimDue d =>
    refine Leaves.bind_readOnly (leaves_check_bind h fun _ => ?_) fun _ => readOnly_pure _
    refine Leaves.bind (materializeDue_sound h hm) (fun _ => id) fun _ s1 hs1 => ?_
    refine Moves.leaves ((sound_of_touches (claimDue_touches d) (by simp) (by simp)).bind fun _ =>
      check_bind ?_) hs1
    exact (readOnly_pure _).moves
  | stopAssignmentJob => exact hquiet (stopAssignmentJob_sound h hm)
  | environment change => cases change <;> simp [Method.tables] at hjobs
  | _ => simp [Method.tables] at hjobs

theorem JobsSound.step {s : Store} (h : JobsSound s) {call : Call} (hcall : call.method.Meets s) :
    JobsSound (s.step call) := by
  by_cases hjobs : Table.jobs ∈ call.method.tables
  · exact Store.step_leaves (exec_sound h hcall hjobs) h
  · exact h.congr ((Store.step_evolves call s).touches _ hjobs) fun i hi => (Store.step_stopped hi call).1

/-- Every call of the run meets the condition, in the state in which it is made. -/
def AllMeet : List Call → Store → Prop := Allowed Store.step fun s call => call.method.Meets s

theorem Store.run_jobsSound {calls : List Call} {s : Store} (hcalls : AllMeet calls s)
    (h : JobsSound s) : JobsSound (s.run calls) :=
  Allowed.keeps (fun _ _ hm h => h.step hm) hcalls h

theorem jobsSound_empty : JobsSound Store.empty := by
  constructor <;> intros <;> contradiction

end AstralPlane.Scheduler
