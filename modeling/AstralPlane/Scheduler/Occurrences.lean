/-
  What a call does to occurrences.

  `Write m i r r'` says once what a statement of the method `m` may do to the row
  of an occurrence `i`: claim it, start it, end or give back its claim, cancel it,
  or write columns that no other method's condition on the claim reads.
  `Evolves m` is a whole body: every row is written so, new rows begin as pending
  ones, the unique keys stay unique, and generations count the claims made.
-/
import AstralPlane.Scheduler.Scans
import AstralPlane.Scheduler.Tables

namespace AstralPlane.Scheduler

open Relation Tx OccurrenceColumns

variable {m : Method} {now : Time} {r' : OccurrenceRow} {s s' : Store}
  {jobId : Uuid} {ownerId : String} {c : Claim} {clock : Clock}
variable {i occurrenceId submissionId : Uuid} {scheduledFor : Time}
  {states : List OccurrenceState}

/-! ## Calls under a claim -/

/-- The part of a claim that fences it: a generation of an occurrence, and its lease token. -/
structure Fence where
  occurrenceId : Uuid
  generation : ℕ
  token : Uuid
  deriving DecidableEq

def Claim.fence (c : Claim) : Fence := ⟨c.occurrenceId, c.claimGeneration, c.leaseToken⟩

/-- The fence that a call presents, if it carries a claim. -/
def Method.fence : Method → Option Fence
  | .renewOccurrenceClaim c _ _ | .assertCurrentClaim c _ _ | .markClaimRetryable c _ _ _ _ _ _ =>
    some c.fence
  | .attachOperationToClaim _ occurrenceId generation token _ _ => some ⟨occurrenceId, generation, token⟩
  | .startClaimAttempt a _ => some ⟨a.occurrenceId, a.claimGeneration, a.leaseToken⟩
  | .finishClaimAttempt t _ => some t.claim.fence
  | .reserveEffect e _ _ | .publishReservedEffect e _ _ | .failReservedEffect e _ _ =>
    some e.claim.fence
  | .publishStagedChatEffect claim _ _ _ _ _ _ => some claim.fence
  | .admitAssignmentEpisode e _ => some e.claim.fence
  | _ => none

/-- The call ends the attempt of a claim, or gives the claim back. -/
def Method.endsClaim : Method → Bool
  | .markClaimRetryable .. | .finishClaimAttempt .. => true
  | _ => false

/-- The time at which the call may claim the occurrence. -/
def Method.claimTime (i : Uuid) : Method → Option Time
  | .claimOccurrence _ occurrenceId _ _ now _ => if occurrenceId = i then some now else none
  | .materializeAndClaimDue d => some d.observedAt
  | _ => none

/-- The fence is the one of its occurrence. -/
def OccurrenceColumns.holds (r : OccurrenceColumns) (f : Fence) : Bool := r.current f.generation f.token

def Store.current (s : Store) (f : Fence) : Bool :=
  (s.occurrences.lookup f.occurrenceId).any (·.holds f)

theorem OccurrenceColumns.holds_iff {r : OccurrenceColumns} {f : Fence} :
    r.holds f ↔ r.claimGeneration = f.generation ∧ r.leaseToken = some f.token := by
  simp [holds, current]

/-! ## Writes of a row -/

/-- The columns of the unique keys. -/
def OccurrenceColumns.identity (r : OccurrenceColumns) : Uuid × String × Time × Option Uuid :=
  (r.jobId, r.ownerUserId, r.scheduledFor, r.runNowSubmissionId)

def OccurrenceColumns.claimColumns (r : OccurrenceColumns) : ℕ × ℕ × Option Uuid :=
  (r.claimGeneration, r.attemptCount, r.leaseToken)

/-- The occurrence has no worker whose lease lives. -/
def OccurrenceColumns.claimable (r : OccurrenceColumns) (now : Time) : Bool :=
  !r.state.terminal && (!r.state.held || r.leaseExpiresAt.any (· ≤ now))

/-- What a statement of `m` may change of the occurrence `i`. -/
inductive Change (m : Method) (i : Uuid) (r r' : OccurrenceColumns) : Prop
  | touched (hstate : r'.state = r.state) (hclaim : r'.claimColumns = r.claimColumns)
      (hlease : r'.leaseExpiresAt = r.leaseExpiresAt ∨ m.fence.isSome)
  | claimed (now : Time) (token : Uuid) (htime : m.claimTime i = some now)
      (hfree : r.claimable now) (hstate : r'.state = .claimed)
      (hclaim : r'.claimColumns = (r.claimGeneration + 1, r.attemptCount + 1, some token))
  | started (hfrom : r.state = .claimed) (hstate : r'.state = .running)
      (hclaim : r'.claimColumns = r.claimColumns)
  | released (f : Fence) (hends : m.endsClaim) (hfence : m.fence = some f)
      (hid : f.occurrenceId = i) (hheld : r.holds f) (hstate : r'.state.held = false)
      (hclaim : r'.claimColumns = (r.claimGeneration, r.attemptCount, none))
  | cancelled (hfrom : r.state.unstarted) (hstate : r'.state = .cancelled)
      (hclaim : r'.claimColumns = (r.claimGeneration, r.attemptCount, none))

/-- A write of the occurrence `i` by a statement of `m`. -/
structure Write (m : Method) (i : Uuid) (r r' : OccurrenceRow) : Prop where
  identity : r'.identity = r.identity
  change : Change m i r.toOccurrenceColumns r'.toOccurrenceColumns

variable {r : OccurrenceRow}

theorem identity_of_writes (h : ReflTransGen (Write m i) r r') : r'.identity = r.identity := by
  induction h with
  | refl => rfl
  | tail _ hw ih => rw [hw.identity, ih]

/-! ## Stores -/

/-- `(job_id, scheduled_for)` and `(owner_user_id, run_now_submission_id)` are unique. -/
structure KeysDistinct (t : Keyed Uuid OccurrenceRow) : Prop where
  cadence : ∀ i j r r', t.lookup i = some r → t.lookup j = some r' → r.jobId = r'.jobId →
    r.scheduledFor = r'.scheduledFor → i = j
  submission : ∀ i j r r' k, t.lookup i = some r → t.lookup j = some r' →
    r.runNowSubmissionId = some k → r'.runNowSubmissionId = some k →
    r.ownerUserId = r'.ownerUserId → i = j

/-- The generation of an occurrence, which has none before it is there. -/
def Store.generation (s : Store) (i : Uuid) : ℕ := ((s.occurrences.lookup i).map (·.claimGeneration)).getD 0

theorem Store.generation_of (h : s.occurrences.lookup i = some r) :
    s.generation i = r.claimGeneration := by
  simp [Store.generation, h]

def OccurrenceRow.isNew (r : OccurrenceRow) : Prop :=
  ∃ jobId ownerId scheduledFor submissionId, r = .pending jobId ownerId scheduledFor submissionId

/-- What a body of the method does to the tables, and to the occurrences in particular. -/
structure Evolves (m : Method) (s s' : Store) : Prop where
  touches : Touches m.tables s s'
  rows : ∀ i r, s.occurrences.lookup i = some r →
    ∃ r', s'.occurrences.lookup i = some r' ∧ ReflTransGen (Write m i) r r'
  fresh : ∀ i r', s.occurrences.lookup i = none → s'.occurrences.lookup i = some r' →
    i.isVersion4 ∧ ∃ r : OccurrenceRow, r.isNew ∧ ReflTransGen (Write m i) r r'
  claims : ∀ i, s'.generation i + s.claimsMade.count i = s.generation i + s'.claimsMade.count i
  keys : KeysDistinct s.occurrences → KeysDistinct s'.occurrences

theorem Evolves.of_same (htouches : Touches m.tables s s') (h : Table.occurrences.Same s s') :
    Evolves m s s' where
  touches := htouches
  rows i r hr := ⟨r, by rw [h.1]; exact hr, .refl⟩
  fresh i r' hnone hr' := by rw [h.1, hnone] at hr'; cases hr'
  claims i := by simp [Store.generation, h.1, h.2]
  keys hkeys := by rw [h.1]; exact hkeys

instance (m : Method) : Std.Refl (Evolves m) :=
  ⟨fun s => .of_same (Std.Refl.refl s) (Table.occurrences.same_refl s)⟩

instance (m : Method) : IsTrans Store (Evolves m) := ⟨fun s s₁ s₂ h h' =>
  { touches := IsTrans.trans _ _ _ h.touches h'.touches
    rows := by
      intro i r hr
      obtain ⟨r₁, hr₁, hw₁⟩ := h.rows i r hr
      obtain ⟨r₂, hr₂, hw₂⟩ := h'.rows i r₁ hr₁
      exact ⟨r₂, hr₂, hw₁.trans hw₂⟩
    fresh := by
      intro i r₂ hnone hr₂
      rcases hr₁ : s₁.occurrences.lookup i with _ | r₁
      · exact h'.fresh i r₂ hr₁ hr₂
      · obtain ⟨hid, r, hnew, hw⟩ := h.fresh i r₁ hnone hr₁
        obtain ⟨r₂', hr₂', hw'⟩ := h'.rows i r₁ hr₁
        cases hr₂.symm.trans hr₂'
        exact ⟨hid, r, hnew, hw.trans hw'⟩
    claims := by
      intro i
      have := h.claims i
      have := h'.claims i
      omega
    keys := fun hk => h'.keys (h.keys hk) }⟩

/-- Rows that keep their identity keep the keys distinct. -/
theorem KeysDistinct.of_identity {t t' : Keyed Uuid OccurrenceRow} (hkeys : KeysDistinct t)
    (h : ∀ i r', t'.lookup i = some r' → ∃ r, t.lookup i = some r ∧ r'.identity = r.identity) :
    KeysDistinct t' := by
  have hcolumns : ∀ i r', t'.lookup i = some r' → ∃ r, t.lookup i = some r ∧ r'.jobId = r.jobId ∧
      r'.ownerUserId = r.ownerUserId ∧ r'.scheduledFor = r.scheduledFor ∧
      r'.runNowSubmissionId = r.runNowSubmissionId := by
    intro i r' hr'
    obtain ⟨r, hr, hid⟩ := h i r' hr'
    simp only [identity, Prod.mk.injEq] at hid
    exact ⟨r, hr, hid⟩
  refine ⟨fun i j a b ha hb hjob htime => ?_, fun i j a b k ha hb hka hkb howner => ?_⟩
  · obtain ⟨r, hr, hrjob, -, hrtime, -⟩ := hcolumns i a ha
    obtain ⟨r', hr', hrjob', -, hrtime', -⟩ := hcolumns j b hb
    exact hkeys.cadence i j r r' hr hr' (by rw [← hrjob, hjob, hrjob']) (by rw [← hrtime, htime, hrtime'])
  · obtain ⟨r, hr, -, hrowner, -, hrkey⟩ := hcolumns i a ha
    obtain ⟨r', hr', -, hrowner', -, hrkey'⟩ := hcolumns j b hb
    exact hkeys.submission i j r r' k hr hr' (by rw [← hrkey, hka]) (by rw [← hrkey', hkb])
      (by rw [← hrowner, howner, hrowner'])

/-! ## Statements -/

theorem Evolves.write {made : List Uuid} (hm : .occurrences ∈ m.tables)
    (hr : s.occurrences.lookup i = some r) (hw : Write m i r r')
    (hself : r'.claimGeneration + s.claimsMade.count i = r.claimGeneration + made.count i)
    (hother : ∀ j, j ≠ i → made.count j = s.claimsMade.count j) :
    Evolves m s { s with occurrences := s.occurrences.insert i r', claimsMade := made } where
  touches := (touches_occurrences s).mono (by simpa using hm)
  rows j a ha := by
    by_cases hj : j = i
    · subst hj
      cases hr.symm.trans ha
      exact ⟨r', by simp, .single hw⟩
    · exact ⟨a, by simp [hj, ha], .refl⟩
  fresh j a hnone ha := by
    rcases Keyed.write_cases ha with ⟨rfl, -⟩ | ⟨-, ha⟩
    · cases hr.symm.trans hnone
    · cases hnone.symm.trans ha
  claims j := by
    by_cases hj : j = i
    · subst hj
      simpa [Store.generation, hr, Keyed.lookup_write] using hself
    · simp [Store.generation, hj, hother j hj]
  keys hkeys := by
    refine hkeys.of_identity fun j a ha => ?_
    rcases Keyed.write_cases ha with ⟨rfl, rfl⟩ | ⟨-, ha⟩
    · exact ⟨r, hr, hw.identity⟩
    · exact ⟨a, ha, rfl⟩

theorem Evolves.insert (hm : .occurrences ∈ m.tables) (hnew : r.isNew)
    (hversion : i.isVersion4) (hid : s.occurrences.lookup i = none)
    (hcadence : s.hasCadencePoint r.toOccurrenceColumns = false)
    (hsubmission : s.hasSubmission r.toOccurrenceColumns = false) :
    Evolves m s { s with occurrences := s.occurrences.insert i r } where
  touches := (touches_occurrences s).mono (by simpa using hm)
  rows j a ha := by
    have hj : j ≠ i := by rintro rfl; rw [hid] at ha; cases ha
    exact ⟨a, by simp [hj, ha], .refl⟩
  fresh j a hnone ha := by
    rcases Keyed.write_cases ha with ⟨rfl, rfl⟩ | ⟨-, ha⟩
    · exact ⟨hversion, r, hnew, .refl⟩
    · cases hnone.symm.trans ha
  claims j := by
    by_cases hj : j = i
    · subst hj
      obtain ⟨_, _, _, _, rfl⟩ := hnew
      simp [Store.generation, hid, OccurrenceRow.pending]
    · simp [Store.generation, hj]
  keys hkeys := by
    have hfree : ∀ j a, s.occurrences.lookup j = some a →
        ¬ (a.jobId = r.jobId ∧ a.scheduledFor = r.scheduledFor) ∧
        ∀ k, r.runNowSubmissionId = some k → ¬ (a.ownerUserId = r.ownerUserId ∧
          a.runNowSubmissionId = some k) := by
      intro j a ha
      have hmem : a ∈ s.occurrences.rows := Keyed.mem_rows.2 ⟨j, ha⟩
      have hpoint := List.any_eq_false.1 hcadence a hmem
      have hkey := List.any_eq_false.1 hsubmission a hmem
      simp only [bool_to_prop, not_and] at hpoint hkey
      refine ⟨fun h => hpoint h.1 h.2, fun k hk h => ?_⟩
      exact hkey ⟨by simp [hk], h.1⟩ (by rw [hk, h.2])
    refine ⟨fun j j' a b ha hb hjob htime => ?_, fun j j' a b k ha hb hka hkb howner => ?_⟩ <;>
      rw [Keyed.lookup_write] at ha hb <;> split at ha <;> split at hb
    · subst_vars; rfl
    · cases ha
      exact absurd ⟨hjob.symm, htime.symm⟩ (hfree j' b hb).1
    · cases hb
      exact absurd ⟨hjob, htime⟩ (hfree j a ha).1
    · exact hkeys.cadence j j' a b ha hb hjob htime
    · subst_vars; rfl
    · cases ha
      exact absurd ⟨howner.symm, hkb⟩ ((hfree j' b hb).2 k hka)
    · cases hb
      exact absurd ⟨howner, hka⟩ ((hfree j a ha).2 k hkb)
    · exact hkeys.submission j j' a b k ha hb hka hkb howner

theorem updateOccurrenceSql_evolves {selects : OccurrenceColumns → Bool}
    {written : OccurrenceColumns → OccurrenceColumns} (hm : .occurrences ∈ m.tables)
    (hid : ∀ r, (written r).identity = r.identity)
    (hgeneration : ∀ r, (written r).claimGeneration = r.claimGeneration)
    (hchange : ∀ r, selects r → Change m i r (written r)) :
    (updateOccurrenceSql i selects written).Moves (Evolves m) := by
  intro s
  refine (updateSql_cases i selects written s).leaves ?_
  rintro _ _ (⟨rfl, -⟩ | ⟨rfl, -⟩ | ⟨r, _, _, rfl, hr, hselects, -, rfl⟩)
  · exact Std.Refl.refl _
  · exact Std.Refl.refl _
  · exact Evolves.write hm hr ⟨hid _, hchange _ hselects⟩ (by rw [hgeneration]) fun _ _ => rfl

/-- A claim does nothing, or claims the row that it selects and records that. -/
theorem claimOccurrenceSql_cases (i : Uuid) (selects : OccurrenceColumns → Bool) (token : Uuid)
    (worker : String) (expiresAt : Time) (s : Store) :
    (claimOccurrenceSql i selects token worker expiresAt).Ends s fun reply s' =>
      (s' = s ∧ (reply = .ok none ∨ ∃ e, reply = .error e)) ∨
      ∃ r r' : OccurrenceRow, s.occurrences.lookup i = some r ∧ selects r.toOccurrenceColumns ∧
        r'.toOccurrenceColumns = r.claimedBy token worker expiresAt ∧ reply = .ok (some r') ∧
        s' = { s with
          occurrences := s.occurrences.insert i r', claimsMade := s.claimsMade ++ [i] } := by
  refine (updateSql_cases i selects (·.claimedBy token worker expiresAt) s).bind ?_ ?_
  · rintro row s' (⟨rfl, hreply, -⟩ | ⟨-, _, hreply, -⟩ | ⟨r, _, _, rfl, hr, hselects, hreply, rfl⟩) <;>
      cases hreply
    · exact .inl ⟨rfl, .inl rfl⟩
    · exact .inr ⟨r, _, hr, hselects, rfl, rfl, rfl⟩
  · rintro e s' (⟨-, hreply, -⟩ | ⟨rfl, _, hreply, -⟩ | ⟨_, _, _, -, -, -, hreply, -⟩) <;> cases hreply
    exact .inl ⟨rfl, .inr ⟨e, rfl⟩⟩

theorem Evolves.claim {token : Uuid} {worker : String} {expiresAt : Time}
    (hm : .occurrences ∈ m.tables) (htime : m.claimTime i = some now)
    (hr : s.occurrences.lookup i = some r) (hfree : r.claimable now)
    (hr' : r'.toOccurrenceColumns = r.claimedBy token worker expiresAt) : Evolves m s { s with
      occurrences := s.occurrences.insert i r', claimsMade := s.claimsMade ++ [i] } := by
  refine Evolves.write hm hr ⟨?_, ?_⟩ ?_ ?_
  · rw [hr']
    rfl
  · rw [hr']
    exact .claimed now token htime hfree rfl rfl
  · rw [hr']
    simp [claimedBy]
    omega
  · intro j hj
    simp [Ne.symm hj]

theorem insertOccurrenceSql_evolves {anyKey : Bool}
    (hm : .occurrences ∈ m.tables) (hnew : r.isNew) (hversion : i.isVersion4) :
    (insertOccurrenceSql i r anyKey).Moves (Evolves m) := by
  refine moves_get_bind fun s => ?_
  split
  · exact (readOnly_pure _).moves s
  · rename_i hcadence
    split
    · exact (readOnly_ite (readOnly_pure _) (readOnly_raise _)).moves s
    · rename_i hkeys
      simp only [Bool.or_eq_true, not_or, Bool.not_eq_true, Option.isSome_eq_false_iff,
        Option.isNone_iff_eq_none] at hkeys
      exact leaves_set_bind.2
        (Evolves.insert hm hnew hversion hkeys.1 (by simpa using hcadence) hkeys.2)

theorem isNew_pending {submissionId : Option Uuid} :
    (OccurrenceRow.pending jobId ownerId scheduledFor submissionId).isNew :=
  ⟨_, _, _, _, rfl⟩

theorem moves_of_touches {α : Type} {T : List Table} {x : Work α}
    (h : x.Moves (Touches T)) (hm : T ⊆ m.tables) (hT : Table.occurrences ∉ T) :
    x.Moves (Evolves m) := h.imp fun _ _ hs => .of_same (hs.mono hm) (hs _ hT)

/-! ## Methods -/

theorem check_bind_of {α : Type} {R : Store → Store → Prop} [Std.Refl R] {c : Check}
    {f : Unit → Work α} (h : c = .ok () → (f ()).Moves R) : (check c >>= f).Moves R := by
  intro s
  refine leaves_readOnly_bind (check_readOnly c) (Std.Refl.refl s) fun _ hok => ?_
  exact h (ok_ofExcept.1 hok).1 s

theorem cancelUnstartedOccurrence_evolves {expectedOperationId : Option Uuid}
    {terminalCode : String} (hm : .occurrences ∈ m.tables) :
    (cancelUnstartedOccurrence ownerId occurrenceId expectedOperationId terminalCode clock).Moves
      (Evolves m) := by
  refine check_bind <| check_bind <| check_bind <| check_bind <| Moves.bind ?_ fun row =>
    ReadOnly.moves ?_
  · refine updateOccurrenceSql_evolves hm (fun _ => rfl) (fun _ => rfl) fun r hselects => ?_
    simp only [Bool.and_eq_true] at hselects
    exact .cancelled hselects.2 rfl rfl
  · refine readOnly_ite (readOnly_pure _) (readOnly_bind readOnly_get fun s => ?_)
    split <;> simp

theorem stopOccurrence_touches (o : ScheduledOccurrence) :
    (stopOccurrence ownerId clock o).Moves (Touches [.occurrences]) :=
  ((cancelUnstartedOccurrence_evolves (m := .cancelUnstartedOccurrence ownerId o.occurrenceId none ""
    clock) (.head _)).imp fun _ _ h => h.touches).bind fun _ => (readOnly_require _ _).moves

theorem materializeDue_evolves (d : DueScan) :
    (materializeDue d).Moves (Evolves (.materializeAndClaimDue d)) := by
  refine readOnly_get.moves.bind fun _ => loadAll_readOnly.moves.bind fun _ =>
    (Moves.each (fun p => ?_) _).returning
  unfold materialize
  split
  · exact (readOnly_raise _).moves
  · exact (insertOccurrenceSql_evolves (.tail _ (.head _)) isNew_pending
      (d.occurrenceIds p.2).property).bind fun _ => check_bind <| (moves_of_touches
        updateJobSql_touches (by simp [Method.tables]) (by simp)).bind fun _ =>
          (readOnly_require _ _).moves

theorem OccurrenceColumns.claimable_of_due {r : OccurrenceColumns}
    (h : r.due now) : r.claimable now := by
  unfold due at h
  unfold claimable
  rcases hstate : r.state <;> rw [hstate] at h <;>
    simp_all [OccurrenceState.terminal, OccurrenceState.held]

theorem mem_candidates {locked : List Uuid} {observedAt : Time} {c : Candidate} :
    c ∈ s.candidates locked observedAt ↔ s.occurrences.lookup c.occurrenceId = some c.row ∧
      s.jobs.lookup c.row.jobId = some c.job ∧ c.job.scanned ∧ c.row.due observedAt ∧
      c.occurrenceId ∉ locked := by
  simp only [Store.candidates, List.mem_filterMap]
  constructor
  · rintro ⟨⟨i, r⟩, hmem, hsome⟩
    split at hsome
    · cases hsome
    · rename_i job hjob
      rw [Option.ite_none_right_eq_some, Bool.and_eq_true, Bool.and_eq_true] at hsome
      obtain ⟨⟨⟨hscanned, hdue⟩, hlocked⟩, ⟨rfl⟩⟩ := hsome
      exact ⟨Keyed.mem_entries.1 hmem, hjob, hscanned, hdue, of_decide_eq_true hlocked⟩
  · rintro ⟨hlookup, hjob, hscanned, hdue, hlocked⟩
    refine ⟨⟨c.occurrenceId, c.row⟩, Keyed.mem_entries.2 hlookup, ?_⟩
    simp [hjob, hscanned, hdue, hlocked]

/-- Since `s`, rows have been claimed and nothing else. -/
def ClaimedSince (s s₁ : Store) : Prop := ∀ i r₁, s₁.occurrences.lookup i = some r₁ →
  s.occurrences.lookup i = some r₁ ∨ s.generation i < r₁.claimGeneration

/-- A candidate that was read from `s` is claimed as long as nobody has claimed it since. -/
theorem claimCandidate_evolves {d : DueScan} {n : ℕ} {c : Candidate}
    (hc : c ∈ s.candidates d.lockedOccurrences d.observedAt) : (claimCandidate d n c).Moves
      (Tx.Under (ClaimedSince s) (Evolves (.materializeAndClaimDue d))) := by
  obtain ⟨hlookup, -, -, hdue, -⟩ := mem_candidates.1 hc
  refine Moves.bind (fun s1 hsince => ?_) fun row => ReadOnly.moves ?_
  · refine (claimOccurrenceSql_cases _ _ _ _ _ s1).leaves
      (P := fun s2 => Evolves _ s1 s2 ∧ ClaimedSince s s2) ?_
    rintro _ _ (⟨rfl, -⟩ | ⟨r, r', hr, hselects, hr', -, rfl⟩)
    · exact ⟨Std.Refl.refl _, hsince⟩
    · have hgeneration : r.claimGeneration = c.row.claimGeneration := by
        simp only [bool_to_prop] at hselects
        exact hselects.1.2
      have hsame : r = c.row := by
        rcases hsince _ r hr with h | h
        · rw [hlookup] at h
          exact (Option.some.inj h).symm
        · rw [Store.generation_of hlookup] at h
          omega
      refine ⟨Evolves.claim (.tail _ (.head _)) rfl hr
        (hsame ▸ claimable_of_due hdue) hr', ?_⟩
      intro j r1 hr1
      rcases Keyed.write_cases hr1 with ⟨rfl, rfl⟩ | ⟨-, hr1⟩
      · right
        rw [Store.generation_of hlookup, hr', hsame]
        exact Nat.lt_succ_self _
      · exact hsince j r1 hr1
  · cases row <;> simp

theorem claimDue_touches (d : DueScan) : (claimDue d).Moves (Touches [.occurrences]) := by
  refine readOnly_get.moves.bind fun _ => loadAll_readOnly.moves.bind fun _ =>
    (Moves.collect (fun c => Moves.bind (fun s => ?_) fun row => ReadOnly.moves ?_) _).returning
  · refine (claimOccurrenceSql_cases _ _ _ _ _ s).leaves ?_
    rintro _ _ (⟨rfl, -⟩ | ⟨_, _, -, -, -, -, rfl⟩) <;> simp
  · cases row <;> simp

theorem claimDue_evolves (d : DueScan) :
    (claimDue d).Moves (Evolves (.materializeAndClaimDue d)) := by
  refine moves_get_bind fun s => ?_
  have hclaims : (Tx.collect (fun p : Candidate × ℕ => claimCandidate d p.2 p.1)
      (d.claimTurns s).1.zipIdx).Moves
        (Tx.Under (ClaimedSince s) (Evolves (.materializeAndClaimDue d))) :=
    Moves.collect_mem _ fun p hp =>
      claimCandidate_evolves (mem_of_mem_claimTurns (List.fst_mem_of_mem_zipIdx hp))
  exact ((loadAll_readOnly.moves.bind fun _ => hclaims.returning) s fun i r hr => .inl hr).1

theorem insertRunNow_evolves (hm : .occurrences ∈ m.tables)
    (hversion : occurrenceId.isVersion4) {budget : ℕ} : ∀ scheduledFor : Time,
    (insertRunNow ownerId jobId submissionId occurrenceId scheduledFor budget).Moves (Evolves m) := by
  induction budget with
  | zero => exact fun _ => (readOnly_raise _).moves
  | succ budget ih =>
    intro scheduledFor
    refine (insertOccurrenceSql_evolves hm isNew_pending hversion).bind fun row => ?_
    cases row with
    | some => exact (readOnly_pure _).moves
    | none =>
      refine readOnly_get.moves.bind fun s => ?_
      split
      · exact (replayRunNow_readOnly _).moves
      · exact ih _

theorem operationPurged_evolves (operationId : Uuid) (s : Store) :
    Evolves (.environment (.operationPurged operationId)) s
      ((Environment.operationPurged operationId).apply s) where
  touches := environment_touches _ s
  rows i r hr := by
    refine ⟨r.detach operationId, by simp [Environment.apply, hr], .single ⟨rfl, ?_⟩⟩
    exact .touched rfl rfl (.inl rfl)
  fresh i r' hnone hr' := by simp [Environment.apply, hnone] at hr'
  claims i := by
    simp only [Store.generation, Environment.apply, Keyed.lookup_mapRows, Option.map_map]
    rfl
  keys hkeys := by
    refine hkeys.of_identity fun i r' hr' => ?_
    simp only [Environment.apply, Keyed.lookup_mapRows, Option.map_eq_some_iff] at hr'
    obtain ⟨r, hr, rfl⟩ := hr'
    exact ⟨r, hr, rfl⟩

/-- **What a call does to the tables.** -/
theorem exec_evolves (m : Method) : (exec m).Moves (Evolves m) := by
  by_cases htables : Table.occurrences ∈ m.tables
  swap
  · exact moves_of_touches (exec_touches_of htables) (List.Subset.refl _) htables
  cases m
  case environment change =>
    cases change with
    | operationPurged operationId => exact quietly_moves (operationPurged_evolves operationId)
    | _ => simp [Method.tables] at htables
  all_goals refine Moves.returning ?_
  case cancelUnstartedOccurrence => exact cancelUnstartedOccurrence_evolves htables
  case createOccurrence =>
    refine check_bind_of fun hversion => check_bind <| check_bind <|
      Moves.bind ?_ fun row => ReadOnly.moves ?_
    · exact readOnly_get.moves.bind fun _ => moves_ite (insertOccurrenceSql_evolves htables
        isNew_pending (ensure_eq_ok.1 hversion)) (readOnly_pure _).moves
    · cases row with
      | some => exact readOnly_pure _
      | none =>
        refine readOnly_bind readOnly_get fun s => ?_
        split <;> simp
  case finishClaimAttempt t _ =>
    refine check_bind_of fun hvalid => (assertCurrentClaim_readOnly _ _ _).moves.bind fun _ =>
      require_bind <|
        (moves_of_touches updateRunSql_touches (by simp [Method.tables]) (by simp)).bind fun _ =>
          require_bind <| Moves.bind ?_ fun _ => requiredOccurrence_readOnly.moves
    refine updateOccurrenceSql_evolves htables (fun _ => rfl) (fun _ => rfl) fun r hselects => ?_
    simp only [Bool.and_eq_true] at hselects
    refine .released t.claim.fence rfl rfl rfl hselects.1.1.1.2 ?_ rfl
    have hsettles : t.occurrenceState.settles := by
      simp only [Settlement.validate, ok_rules] at hvalid
      tauto
    rcases hstate : t.occurrenceState <;> rw [hstate] at hsettles <;>
      first | rfl | cases hsettles
  case stopAssignmentJob =>
    refine stopAssignmentJob_moves (fun _ _ => moves_of_touches updatePolicySql_touches ?_ ?_)
      (moves_of_touches updateJobSql_touches ?_ ?_) fun _ =>
        (cancelUnstartedOccurrence_evolves ?_).bind fun _ => (readOnly_require _ _).moves
    all_goals simp [Method.tables]
  -- what the other methods do once their arguments are checked
  all_goals repeat refine check_bind ?_
  case materializeAndClaimDue d =>
    exact (materializeDue_evolves d).bind fun _ => (claimDue_evolves d).bind fun _ =>
      check_bind (readOnly_pure _).moves
  case materializeRunNow occurrenceId =>
    refine readOnly_get.moves.bind fun s => ?_
    split
    · exact (readOnly_raise _).moves
    · split
      · exact (replayRunNow_readOnly _).moves
      · exact require_bind (insertRunNow_evolves htables occurrenceId.property _)
  case claimOccurrence =>
    refine Moves.bind (fun s => ?_) fun row => requiredOccurrence_readOnly.moves
    refine (claimOccurrenceSql_cases _ _ _ _ _ s).leaves ?_
    rintro _ _ (⟨rfl, -⟩ | ⟨r, r', hr, hselects, hr', -, rfl⟩)
    · exact Std.Refl.refl _
    · refine Evolves.claim htables (if_pos rfl) hr ?_ hr'
      unfold claimable
      rcases hstate : r.state <;> simp only [hstate] at hselects <;>
        simp_all [OccurrenceState.terminal, OccurrenceState.held]
  case renewOccurrenceClaim =>
    refine Moves.returning ?_
    exact updateOccurrenceSql_evolves htables (fun _ => rfl) (fun _ => rfl)
      fun _ _ => .touched rfl rfl (.inr rfl)
  case attachOperationToClaim =>
    refine Moves.bind ?_ fun _ => requiredOccurrence_readOnly.moves
    exact updateOccurrenceSql_evolves htables (fun _ => rfl) (fun _ => rfl)
      fun _ _ => .touched rfl rfl (.inl rfl)
  case startClaimAttempt =>
    refine Moves.bind ?_ fun _ => require_bind <|
      (moves_of_touches insertAttemptRunSql_touches (by simp [Method.tables]) (by simp)).bind
        fun _ => readOnly_get.moves.bind fun _ => ReadOnly.moves ?_
    · refine updateOccurrenceSql_evolves htables (fun _ => rfl) (fun _ => rfl) fun r hselects => ?_
      simp only [bool_to_prop] at hselects
      exact .started hselects.1.2 rfl rfl
    · dsimp only
      split <;> simp
  case markClaimRetryable =>
    refine (assertCurrentClaim_readOnly _ _ _).moves.bind fun _ =>
      (moves_of_touches interruptRun_touches (by simp [Method.tables]) (by simp)).bind fun _ =>
        Moves.bind ?_ fun _ => requiredOccurrence_readOnly.moves
    refine updateOccurrenceSql_evolves htables (fun _ => rfl) (fun _ => rfl) fun r hselects => ?_
    simp only [Bool.and_eq_true] at hselects
    exact .released _ rfl rfl rfl hselects.2 rfl rfl
  all_goals simp [Method.tables] at htables

theorem Store.step_evolves (call : Call) (s : Store) : Evolves call.method s (s.step call) :=
  Store.step_moves (exec_evolves call.method) s

theorem assertCurrentClaim_ok {row : OccurrenceRow}
    (h : (assertCurrentClaim c states now).Ok s row s') :
    s = s' ∧ s.occurrences.lookup c.occurrenceId = some row ∧ row.ownerUserId = c.ownerId ∧
      row.heldBy c states now := by
  simp only [assertCurrentClaim, check, ok_rules] at h
  obtain ⟨_, -, _, -, _, rfl, h⟩ := h
  split at h
  · exact absurd h ok_raise
  · rename_i r hrow
    obtain ⟨hlookup, howner⟩ := Option.filter_eq_some_iff.1 hrow
    simp only [ok_rules] at h
    obtain ⟨_, hheld, rfl, rfl⟩ := h
    exact ⟨rfl, hlookup, by simpa using howner, hheld⟩

/-- What the checks of an effect's attempt have established when they return. -/
theorem validateEffectAttempt_ok {e : EffectAttempt} {row : OccurrenceRow}
    (h : (validateEffectAttempt e now).Ok s row s') :
    s = s' ∧ (assertCurrentClaim e.claim [.running] now).Ok s row s ∧
      row.currentOperationId = some e.operationId ∧
      row.operationExecutionGeneration = some e.operationExecutionGeneration := by
  simp only [validateEffectAttempt, check, ok_rules] at h
  obtain ⟨_, -, _, -, _, -, _, -, _, -, _, -, r, _, hassert, _, hoperation, rfl, rfl⟩ := h
  obtain rfl := (assertCurrentClaim_readOnly _ _ _).ok hassert
  simp only [bool_to_prop] at hoperation
  exact ⟨rfl, hassert, hoperation⟩

end AstralPlane.Scheduler
