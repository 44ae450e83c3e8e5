/-
  The allowance of a policy.

  `AllowanceStep` is what a call does to policies and bindings: it admits one
  episode, which inserts a binding and charges its policy for it, or it leaves
  every charge and every stop, and makes no binding.  Charges are then the sum of
  what was spent, and the limits hold where they are checked.
-/
import AstralPlane.Scheduler.Occurrences

namespace AstralPlane.Scheduler

open Tx List

variable {s s' : Store} {m : Method} {policy : ScheduledJobPolicy} {e : Episode}
  {j jobId : Uuid} {ownerId : String}

/-! ## Charges -/

/-- The sum of what the bindings of a definition have spent. -/
def Store.spent (s : Store) (jobId : Uuid) : ℕ :=
  ((s.bindingsMade.filter (·.columns.jobId = jobId)).map (·.columns.spend)).sum

/-- What the policy of a definition has been charged. -/
def Store.admittedRuns (s : Store) (jobId : Uuid) : ℕ :=
  ((s.policies.lookup jobId).map (·.admittedRuns)).getD 0

/-- The policy of a definition has been stopped. -/
def Store.isStopped (s : Store) (jobId : Uuid) : Bool :=
  (s.policies.lookup jobId).any (·.terminalStop)

/-- The assignment is bound to an occurrence of the definition, and active or paused. -/
def Store.BoundOutstanding (s : Store) (ownerId : String) (jobId assignmentId : Uuid) : Prop :=
  ∃ occurrenceId b, s.bindings.lookup (occurrenceId, ownerId) = some b ∧ b.jobId = jobId ∧
    b.assignmentId = assignmentId ∧ s.isOutstanding assignmentId ownerId

theorem mem_outstanding {assignmentId : Uuid} :
    assignmentId ∈ s.outstanding ownerId jobId ↔ s.BoundOutstanding ownerId jobId assignmentId := by
  simp only [Store.outstanding, mem_reverse, mem_dedup, mem_map,
    mem_insertionSort, mem_filter, bool_to_prop, Sigma.exists, Keyed.mem_entries]
  constructor
  · rintro ⟨b, ⟨⟨i, owner⟩, b', ⟨hlookup, ⟨hjob, rfl⟩, hout⟩, rfl⟩, rfl⟩
    exact ⟨i, b', hlookup, hjob, rfl, hout⟩
  · rintro ⟨i, b, hlookup, hjob, rfl, hout⟩
    exact ⟨b, ⟨(i, ownerId), b, ⟨hlookup, ⟨hjob, rfl⟩, hout⟩, rfl⟩, rfl⟩

/-! ## Steps -/

/-- The call deletes an assignment, and with it its bindings. -/
def Method.deletes : Method → Bool
  | .environment (.assignmentDeleted _) => true
  | _ => false

/-- No charge, no stop and no binding is changed, and none is added. -/
structure PoliciesKept (m : Method) (s s' : Store) : Prop where
  rows : ∀ j p, s.policies.lookup j = some p → ∃ p', s'.policies.lookup j = some p' ∧
    p'.admittedRuns = p.admittedRuns ∧ (p.terminalStop → p'.terminalStop)
  fresh : ∀ j p', s.policies.lookup j = none → s'.policies.lookup j = some p' → p'.admittedRuns = 0
  made : s'.bindingsMade = s.bindingsMade
  bindings : ∀ k b, s'.bindings.lookup k = some b → s.bindings.lookup k = some b
  undeleted : m.deletes = false → s'.bindings = s.bindings

/-- The episode is admitted: its binding is inserted, and its policy charged. -/
structure Admitted (e : Episode) (s s' : Store) : Prop where
  occurrence : ∃ r, s.occurrences.lookup e.claim.occurrenceId = some r ∧
    r.ownerUserId = e.claim.ownerId ∧ r.jobId = e.jobId
  unbound : s.bindings.lookup e.key = none
  outstanding : ∃ p, s.policies.lookup e.jobId = some p ∧ p.ownerId = e.claim.ownerId ∧
    p.terminalStop = false ∧ (s.outstanding e.claim.ownerId e.jobId).length < p.maxOutstandingEpisodes
  bindings : s'.bindings = s.bindings.insert e.key e.binding
  made : s'.bindingsMade = s.bindingsMade ++ [⟨e.claim.occurrenceId, e.claim.ownerId, e.binding⟩]
  policies : ∃ p p' : PolicyRow, s.policies.lookup e.jobId = some p ∧
    p'.toScheduledJobPolicy = p.charged e ∧ s'.policies = s.policies.insert e.jobId p'

/-- What a call does to policies and bindings. -/
def AllowanceStep (m : Method) (s s' : Store) : Prop :=
  PoliciesKept m s s' ∨ ∃ e clock, m = .admitAssignmentEpisode e clock ∧ Admitted e s s'

theorem PoliciesKept.of_same (hpolicies : Table.policies.Same s s')
    (hbindings : Table.bindings.Same s s') : PoliciesKept m s s' where
  rows j p hp := ⟨p, by rw [hpolicies, hp], rfl, id⟩
  fresh j p' hnone hp' := by rw [hpolicies, hnone] at hp'; cases hp'
  made := hbindings.2
  bindings k b hb := by rwa [hbindings.1] at hb
  undeleted _ := hbindings.1

instance (m : Method) : Std.Refl (PoliciesKept m) :=
  ⟨fun s => .of_same (Table.policies.same_refl s) (Table.bindings.same_refl s)⟩

instance (m : Method) : IsTrans Store (PoliciesKept m) := ⟨fun s s₁ s₂ h h' =>
  { rows := by
      intro j p hp
      obtain ⟨p₁, hp₁, hruns, hstop⟩ := h.rows j p hp
      obtain ⟨p₂, hp₂, hruns', hstop'⟩ := h'.rows j p₁ hp₁
      exact ⟨p₂, hp₂, hruns'.trans hruns, fun hp => hstop' (hstop hp)⟩
    fresh := by
      intro j p₂ hnone hp₂
      rcases hp₁ : s₁.policies.lookup j with _ | p₁
      · exact h'.fresh j p₂ hp₁ hp₂
      · obtain ⟨p₂', hp₂', hruns, -⟩ := h'.rows j p₁ hp₁
        cases hp₂.symm.trans hp₂'
        rw [hruns, h.fresh j p₁ hnone hp₁]
    made := h'.made.trans h.made
    bindings := fun k b hb => h.bindings k b (h'.bindings k b hb)
    undeleted := fun hm => (h'.undeleted hm).trans (h.undeleted hm) }⟩

/-! ## Statements -/

theorem updatePolicySql_kept {selects : ScheduledJobPolicy → Bool}
    {written : ScheduledJobPolicy → ScheduledJobPolicy}
    (hruns : ∀ p, (written p).admittedRuns = p.admittedRuns)
    (hstop : ∀ p, p.terminalStop → (written p).terminalStop) :
    (updatePolicySql j selects written).Moves (PoliciesKept m) := by
  intro s
  refine (updateSql_cases j selects written s).leaves ?_
  rintro _ _ (⟨rfl, -⟩ | ⟨rfl, -⟩ | ⟨p, _, _, rfl, hp, -, -, rfl⟩)
  · exact Std.Refl.refl _
  · exact Std.Refl.refl _
  · refine ⟨fun j' q hq => ?_, fun j' q hnone hq => ?_, rfl, fun _ _ hb => hb, fun _ => rfl⟩
    · rw [Keyed.lookup_write]
      split
      · subst_vars
        cases hp.symm.trans hq
        exact ⟨_, rfl, hruns _, hstop _⟩
      · exact ⟨q, hq, rfl, id⟩
    · rcases Keyed.write_cases hq with ⟨rfl, -⟩ | ⟨-, hq⟩
      · cases hp.symm.trans hnone
      · cases hnone.symm.trans hq

theorem insertPolicySql_kept {row : ScheduledJobPolicy} (hruns : row.admittedRuns = 0) :
    (insertPolicySql row).Moves (PoliciesKept m) := by
  refine moves_get_bind fun s => ?_
  split
  · exact (readOnly_pure _).moves s
  · rename_i habsent
    have hnone : s.policies.lookup row.jobId = none := by simpa using habsent
    split
    · refine leaves_set_bind.2 <| leaves_pure.2
        ⟨fun j p hp => ?_, fun j p hn hp => ?_, rfl, fun _ _ hb => hb, fun _ => rfl⟩
      · have hj : j ≠ row.jobId := by rintro rfl; rw [hnone] at hp; cases hp
        exact ⟨p, by simp [hj, hp], rfl, id⟩
      · rcases Keyed.write_cases hp with ⟨-, rfl⟩ | ⟨-, hp⟩
        · exact hruns
        · cases hn.symm.trans hp
    · exact (readOnly_raise _).moves s

/-! ## Methods -/

/-- What a policy loads as: itself, with its limits in order. -/
theorem ScheduledJobPolicy.validate_ok {p q : ScheduledJobPolicy} (h : p.validate = .ok q) :
    q = { p with perEpisodeLimits := q.perEpisodeLimits } := by
  simp only [ScheduledJobPolicy.validate, bind_eq_ok] at h
  obtain ⟨_, -, _, -, _, -, _, -, _, -, limits, -, _, -, _, -, _, -, _, -, hq⟩ := h
  cases hq
  rfl

theorem lockPolicy_ok (h : (lockPolicy ownerId jobId).Ok s (some policy) s') :
    ∃ p : PolicyRow, s.policies.lookup jobId = some p ∧ p.ownerId = ownerId ∧
      policy = { p.toScheduledJobPolicy with perEpisodeLimits := policy.perEpisodeLimits } := by
  simp only [lockPolicy, ok_rules] at h
  obtain ⟨_, rfl, h⟩ := h
  split at h
  · cases (ok_pure.1 h).1
  · rename_i p hp
    obtain ⟨hlookup, howner⟩ := Option.filter_eq_some_iff.1 hp
    obtain ⟨q, hload, hq⟩ := ok_map.1 h
    cases hq
    refine ⟨p, hlookup, by simpa using howner, ScheduledJobPolicy.validate_ok ?_⟩
    unfold loadPolicy at hload
    split at hload
    · exact absurd hload ok_raise
    · obtain ⟨rfl, -⟩ := ok_pure.1 hload
      assumption

theorem kept_of_touches {α : Type} {T : List Table} {x : Work α}
    (h : x.Moves (Touches T)) (hpolicies : Table.policies ∉ T) (hbindings : Table.bindings ∉ T) :
    x.Moves (PoliciesKept m) :=
  h.imp fun _ _ hs => .of_same (hs _ hpolicies) (hs _ hbindings)

/-! ## Admission -/

/-- How an admission ends: it writes nothing, or it admits; an error of the database aside, which is
    rolled back. -/
def AdmissionEnds (e : Episode) (s : Store) (reply : Except Exc EpisodeAdmission) (s' : Store) : Prop :=
  s' = s ∨ (Admitted e s s' ∧ ∀ o, reply = .ok o → o.reason = .admitted) ∨
    ∃ err, reply = .error err ∧ err.aborts

theorem insertBindingSql_ends (hunbound : s.bindings.lookup e.key = none) :
    (insertBindingSql e).Ends s fun reply s' => (reply = .ok true ∧ s' = { s with
        bindings := s.bindings.insert e.key e.binding
        bindingsMade := s.bindingsMade ++ [⟨e.claim.occurrenceId, e.claim.ownerId, e.binding⟩] }) ∨
      ∃ err, reply = .error err ∧ err.aborts := by
  refine ends_get_bind ?_
  rw [if_neg (by simp [hunbound])]
  exact ends_require_bind (fun _ => .inl ⟨rfl, rfl⟩) fun _ => .inr ⟨_, rfl, rfl⟩

theorem bindEpisode_ends {p : PolicyRow}
    {r : OccurrenceRow} (hunbound : s.bindings.lookup e.key = none)
    (hr : s.occurrences.lookup e.claim.occurrenceId = some r)
    (hr' : r.ownerUserId = e.claim.ownerId ∧ r.jobId = e.jobId)
    (hp : s.policies.lookup e.jobId = some p) (howner : p.ownerId = e.claim.ownerId)
    (hpolicy : policy = { p.toScheduledJobPolicy with perEpisodeLimits := policy.perEpisodeLimits })
    (hstop : p.terminalStop = false) (hcovers : p.covers e.spend)
    (hout : (s.outstanding e.claim.ownerId e.jobId).length < p.maxOutstandingEpisodes) :
    (bindEpisode e policy).Ends s (AdmissionEnds e s) := by
  have hversion : policy.version = p.version := by rw [hpolicy]
  refine (insertBindingSql_ends hunbound).bind ?_ ?_
  · rintro bound s1 (⟨hbound, rfl⟩ | ⟨_, hbound, -⟩) <;> cases hbound
    refine (updateSql_cases _ _ _ _).bind ?_ ?_
    · rintro row s2 (⟨-, hrow, hnone⟩ | ⟨-, _, hrow, -⟩ | ⟨p1, _, _, rfl, hp1, -, hrow, rfl⟩) <;> cases hrow
      · -- the row that was locked is still there
        have := hnone p hp
        simp [howner, hversion, hstop, hcovers] at this
      · refine ends_readOnly_bind loadPolicy_readOnly
          (fun q _ => ends_pure (.inr (.inl ⟨?_, fun o ho => by cases ho; rfl⟩)))
          fun err => .inr (.inl ⟨?_, fun o ho => by cases ho⟩)
        all_goals exact ⟨⟨r, hr, hr'⟩, hunbound, ⟨p, hp, howner, hstop, hout⟩, rfl, rfl, p1, _, hp1, rfl, rfl⟩
    · rintro err s2 (⟨-, hrow, -⟩ | ⟨-, _, hrow, habort⟩ | ⟨_, _, _, -, -, -, hrow, -⟩) <;> cases hrow
      exact .inr (.inr ⟨err, rfl, habort⟩)
  · rintro err s1 (⟨hbound, -⟩ | ⟨_, hbound, habort⟩) <;> cases hbound
    exact .inr (.inr ⟨err, rfl, habort⟩)

theorem admitUnderPolicy_ends {now : Time}
    {p : PolicyRow} (hp : s.policies.lookup e.jobId = some p) (howner : p.ownerId = e.claim.ownerId)
    (hpolicy : policy = { p.toScheduledJobPolicy with perEpisodeLimits := policy.perEpisodeLimits }) :
    (admitUnderPolicy e policy now).Ends s (AdmissionEnds e s) := by
  have hstop : policy.terminalStop = p.terminalStop := by rw [hpolicy]
  have hmax : policy.maxOutstandingEpisodes = p.maxOutstandingEpisodes := by rw [hpolicy]
  have hcovers : policy.covers e.spend = p.covers e.spend := by rw [hpolicy]; rfl
  refine ends_readOnly_bind (assertCurrentClaim_readOnly _ _ _) (fun r hassert => ?_)
    fun _ => .inl rfl
  obtain ⟨-, hr, hrowner, -⟩ := assertCurrentClaim_ok hassert
  refine ends_require_bind (fun hjob => ?_) fun _ => .inl rfl
  split
  · exact ends_pure (.inl rfl)
  · rename_i hrunning
    refine ends_get_bind ?_
    split
    · exact ends_require_bind (fun _ => .inl rfl) fun _ => .inl rfl
    · rename_i hunbound
      refine ends_readOnly_bind (checkAssignment_readOnly _) (fun _ _ => ?_) fun _ => .inl rfl
      split
      · exact ends_pure (.inl rfl)
      · split
        · exact ends_pure (.inl rfl)
        · rename_i hcovered
          refine bindEpisode_ends hunbound hr ⟨hrowner, by simpa using hjob⟩ hp howner hpolicy ?_ ?_ ?_
          · rw [← hstop]
            simpa using hrunning
          · rw [← hcovers]
            simpa using hcovered
          · omega

theorem admitAssignmentEpisode_ends (e : Episode) (clock : Clock) (s : Store) :
    (admitAssignmentEpisode e clock).Ends s (AdmissionEnds e s) := by
  have hcheck : ∀ {c : Check} {f : Unit → Work EpisodeAdmission},
      (f ()).Ends s (AdmissionEnds e s) → (check c >>= f).Ends s (AdmissionEnds e s) :=
    fun hf => ends_readOnly_bind (check_readOnly _) (fun _ _ => hf) fun _ => .inl rfl
  refine hcheck <| hcheck <| hcheck <| hcheck <| hcheck <|
    ends_readOnly_bind assertClaimJobActive_readOnly (fun _ _ =>
      ends_readOnly_bind lockPolicy_readOnly (fun policy hlock => ?_) fun _ => .inl rfl)
      fun _ => .inl rfl
  cases policy with
  | none => exact ends_pure (.inl rfl)
  | some =>
    obtain ⟨p, hp, howner, hpolicy⟩ := lockPolicy_ok hlock
    exact admitUnderPolicy_ends hp howner hpolicy

/-! ## Calls -/

theorem assignmentDeleted_kept (assignmentId : Uuid) (s : Store) :
    PoliciesKept (.environment (.assignmentDeleted assignmentId)) s
      ((Environment.assignmentDeleted assignmentId).apply s) where
  rows j p hp := ⟨p, hp, rfl, id⟩
  fresh j p' hnone hp' := by
    rw [show ((Environment.assignmentDeleted assignmentId).apply s).policies = s.policies from rfl,
      hnone] at hp'
    cases hp'
  made := rfl
  bindings k b hb := by
    simp only [Environment.apply, Keyed.lookup_keep, Option.filter_eq_some_iff] at hb
    exact hb.1
  undeleted hm := by cases hm

theorem exec_kept (hm : ∀ e clock, m ≠ .admitAssignmentEpisode e clock) :
    (exec m).Moves (PoliciesKept m) := by
  by_cases hpolicies : Table.policies ∈ m.tables
  · cases m with
    | putJobPolicy => exact quietly_moves (putJobPolicy_moves insertPolicySql_kept updatePolicySql_kept)
    | stopAssignmentJob =>
      refine quietly_moves (stopAssignmentJob_moves updatePolicySql_kept
        (kept_of_touches updateJobSql_touches ?_ ?_) fun o =>
          kept_of_touches (stopOccurrence_touches o) ?_ ?_)
      all_goals simp
    | admitAssignmentEpisode e clock => exact absurd rfl (hm e clock)
    | environment change => cases change <;> simp [Method.tables] at hpolicies
    | _ => simp [Method.tables] at hpolicies
  · by_cases hbindings : Table.bindings ∈ m.tables
    · cases m with
      | environment change =>
        cases change with
        | assignmentDeleted assignmentId => exact quietly_moves (assignmentDeleted_kept assignmentId)
        | _ => simp [Method.tables] at hbindings
      | admitAssignmentEpisode e clock => exact absurd rfl (hm e clock)
      | _ => simp [Method.tables] at hbindings
    · exact kept_of_touches ((exec_evolves m).imp fun _ _ h => h.touches) hpolicies hbindings

/-- **What a call does to policies and bindings.** -/
theorem Store.step_allowance (call : Call) (s : Store) : AllowanceStep call.method s (s.step call) := by
  by_cases hm : ∃ e clock, call.method = .admitAssignmentEpisode e clock
  · obtain ⟨e, clock, hm⟩ := hm
    refine Store.step_of_ends ?_ (.inl (Std.Refl.refl s))
    rw [hm]
    refine (admitAssignmentEpisode_ends e clock s).bind ?_ ?_
    · rintro outcome s' (rfl | ⟨hadmitted, -⟩ | ⟨_, herr, -⟩)
      · exact .inl (.inl (Std.Refl.refl _))
      · exact .inl (.inr ⟨e, clock, rfl, hadmitted⟩)
      · cases herr
    · rintro err s' (rfl | ⟨hadmitted, -⟩ | ⟨_, herr, habort⟩)
      · exact .inl (.inl (Std.Refl.refl _))
      · exact .inl (.inr ⟨e, clock, rfl, hadmitted⟩)
      · cases herr
        exact .inr ⟨err, rfl, habort⟩
  · refine .inl (Store.step_moves (exec_kept fun e clock h => hm ⟨e, clock, h⟩) s)

/-! ## Runs -/

structure Accounted (s : Store) : Prop where
  /-- a policy is charged what the bindings of its definition have spent -/
  charges : ∀ j, s.admittedRuns j = s.spent j
  /-- a binding is under the owner of its occurrence -/
  owners : ∀ i ownerId b, s.bindings.lookup (i, ownerId) = some b →
    ∃ r, s.occurrences.lookup i = some r ∧ r.ownerUserId = ownerId

theorem PoliciesKept.admittedRuns (h : PoliciesKept m s s') (j : Uuid) :
    s'.admittedRuns j = s.admittedRuns j := by
  unfold Store.admittedRuns
  rcases hp : s.policies.lookup j with _ | p
  · rcases hp' : s'.policies.lookup j with _ | p'
    · rfl
    · simp [h.fresh j p' hp hp']
  · obtain ⟨p', hp', hruns, -⟩ := h.rows j p hp
    simp [hp', hruns]

theorem Admitted.admittedRuns (h : Admitted e s s') (j : Uuid) :
    s'.admittedRuns j = s.admittedRuns j + if j = e.jobId then e.spend else 0 := by
  obtain ⟨p, p', hp, hp', hpolicies⟩ := h.policies
  unfold Store.admittedRuns
  rw [hpolicies, Keyed.lookup_write]
  split
  · subst_vars
    rw [hp]
    simp [hp', ScheduledJobPolicy.charged]
  · rfl

theorem Admitted.spent (h : Admitted e s s') (j : Uuid) :
    s'.spent j = s.spent j + if j = e.jobId then e.spend else 0 := by
  unfold Store.spent
  rw [h.made, filter_append, map_append, sum_append]
  by_cases hj : j = e.jobId
  · subst hj
    simp [Episode.binding]
  · simp [Episode.binding, hj, Ne.symm hj]

theorem Accounted.step (h : Accounted s) (call : Call) : Accounted (s.step call) := by
  have hevolves := Store.step_evolves call s
  -- occurrences keep their owners, so only a new binding needs a look
  have howner : ∀ i r, s.occurrences.lookup i = some r →
      ∃ r', (s.step call).occurrences.lookup i = some r' ∧ r'.ownerUserId = r.ownerUserId := by
    intro i r hr
    obtain ⟨r', hr', hw⟩ := hevolves.rows i r hr
    exact ⟨r', hr', (Prod.mk.inj (Prod.mk.inj (identity_of_writes hw)).2).1⟩
  rcases Store.step_allowance call s with hkept | ⟨e, clock, -, hadmitted⟩
  · refine ⟨fun j => ?_, fun i ownerId b hb => ?_⟩
    · rw [hkept.admittedRuns, h.charges, Store.spent, Store.spent, hkept.made]
    · obtain ⟨r, hr, hrowner⟩ := h.owners i ownerId b (hkept.bindings _ b hb)
      obtain ⟨r', hr', hr'owner⟩ := howner i r hr
      exact ⟨r', hr', hr'owner.trans hrowner⟩
  · refine ⟨fun j => ?_, fun i ownerId b hb => ?_⟩
    · rw [hadmitted.admittedRuns, hadmitted.spent, h.charges]
    · rw [hadmitted.bindings, Keyed.lookup_write] at hb
      have hbefore : ∃ r, s.occurrences.lookup i = some r ∧ r.ownerUserId = ownerId := by
        split at hb
        · rename_i hkey
          cases hkey
          obtain ⟨r, hr, hrowner, -⟩ := hadmitted.occurrence
          exact ⟨r, hr, hrowner⟩
        · exact h.owners i ownerId b hb
      obtain ⟨r, hr, hrowner⟩ := hbefore
      obtain ⟨r', hr', hr'owner⟩ := howner i r hr
      exact ⟨r', hr', hr'owner.trans hrowner⟩

theorem Store.run_accounted (calls : List Call) {s : Store} (h : Accounted s) :
    Accounted (s.run calls) :=
  run_keeps (fun call _ h => h.step call) calls h

theorem accounted_empty : Accounted Store.empty := ⟨fun _ => rfl, fun _ _ _ h => by cases h⟩

/-- What a run keeps in which no assignment is deleted: every binding that was made is there, one for
    an occurrence. -/
structure BoundOnce (s : Store) : Prop where
  there : ∀ b ∈ s.bindingsMade, s.bindings.lookup (b.occurrenceId, b.ownerId) = some b.columns
  once : (s.bindingsMade.map (·.occurrenceId)).Nodup

theorem BoundOnce.step (h : BoundOnce s) (haccounted : Accounted s) {call : Call}
    (hcall : call.method.deletes = false) : BoundOnce (s.step call) := by
  rcases Store.step_allowance call s with hkept | ⟨e, clock, -, hadmitted⟩
  · refine ⟨?_, by rw [hkept.made]; exact h.once⟩
    rw [hkept.made, hkept.undeleted hcall]
    exact h.there
  · obtain ⟨r, hr, hrowner, -⟩ := hadmitted.occurrence
    have hfree : ∀ b ∈ s.bindingsMade, b.occurrenceId ≠ e.claim.occurrenceId := by
      intro b hb hid
      have hthere := h.there b hb
      obtain ⟨r', hr', hr'owner⟩ := haccounted.owners _ _ _ hthere
      rw [hid, hr] at hr'
      cases hr'
      -- the two bindings would have one key
      have hunbound := hadmitted.unbound
      rw [Episode.key, ← hid, ← hrowner, hr'owner, hthere] at hunbound
      cases hunbound
    refine ⟨?_, ?_⟩
    · rw [hadmitted.made, hadmitted.bindings]
      intro b hb
      rw [Keyed.lookup_write]
      rcases mem_append.1 hb with hb | hb
      · rw [if_neg fun hkey => hfree b hb (congrArg Prod.fst hkey)]
        exact h.there b hb
      · rw [mem_singleton] at hb
        subst hb
        exact if_pos rfl
    · rw [hadmitted.made, map_append, nodup_append]
      refine ⟨h.once, by simp, fun i hi j hj => ?_⟩
      obtain ⟨b, hb, rfl⟩ := mem_map.1 hi
      simp only [map_cons, map_nil, mem_singleton] at hj
      rw [hj]
      exact hfree b hb

theorem Store.run_boundOnce : ∀ (calls : List Call) {s : Store},
    (∀ call ∈ calls, call.method.deletes = false) → Accounted s → BoundOnce s →
    BoundOnce (s.run calls)
  | [], _, _, _, h => h
  | call :: calls, _, hcalls, haccounted, h =>
    Store.run_boundOnce calls (fun c hc => hcalls c (mem_cons_of_mem _ hc)) (haccounted.step call)
      (h.step haccounted (hcalls call mem_cons_self))

/-- A stopped policy stays stopped, and its definition gets no binding. -/
theorem Store.step_stopped (h : s.isStopped j) (call : Call) :
    (s.step call).isStopped j ∧ (s.step call).bindingsMade.filter (·.columns.jobId = j) =
      s.bindingsMade.filter (·.columns.jobId = j) := by
  simp only [Store.isStopped, Option.any_eq_true] at h ⊢
  obtain ⟨p, hp, hstop⟩ := h
  rcases Store.step_allowance call s with hkept | ⟨e, clock, -, hadmitted⟩
  · obtain ⟨p', hp', -, hstop'⟩ := hkept.rows j p hp
    exact ⟨⟨p', hp', hstop' hstop⟩, by rw [hkept.made]⟩
  · have hj : j ≠ e.jobId := by
      rintro rfl
      obtain ⟨q, hq, -, hrunning, -⟩ := hadmitted.outstanding
      cases hp.symm.trans hq
      cases hstop.symm.trans hrunning
    obtain ⟨_, _, -, -, hpolicies⟩ := hadmitted.policies
    refine ⟨⟨p, by rw [hpolicies, Keyed.lookup_write, if_neg hj, hp], hstop⟩, ?_⟩
    simp [hadmitted.made, Episode.binding, Ne.symm hj]

/-! ## The allowance of a definition -/

/-- **Scheduled job allowance.** -/
theorem job_allowance (calls : List Call) :
    -- a policy has been charged what its bindings spent, within its allowance
    (∀ j p, (Store.empty.run calls).policies.lookup j = some p →
      p.admittedRuns = (Store.empty.run calls).spent j ∧ ∀ allowance ∈ p.maxRuns, p.admittedRuns ≤ allowance) ∧
    -- an occurrence is bound to one assignment
    (∀ i ownerId ownerId' b b', (Store.empty.run calls).bindings.lookup (i, ownerId) = some b →
      (Store.empty.run calls).bindings.lookup (i, ownerId') = some b' → ownerId = ownerId' ∧ b = b') ∧
    -- and charged once, as long as no assignment is deleted with its bindings
    ((∀ call ∈ calls, call.method.deletes = false) →
      ((Store.empty.run calls).bindingsMade.map (·.occurrenceId)).Nodup) ∧
    -- replays and refusals charge nothing
    (∀ e clock kept outcome,
      (Store.empty.run calls).reply ⟨.admitAssignmentEpisode e clock, kept⟩ = .ok (.admission outcome) →
      outcome.reason ≠ .admitted →
      (Store.empty.run calls).step ⟨.admitAssignmentEpisode e clock, kept⟩ = Store.empty.run calls) ∧
    -- a binding is made while fewer bound assignments than allowed are active or paused
    (∀ call, ((Store.empty.run calls).step call).bindingsMade = (Store.empty.run calls).bindingsMade ∨
      ∃ b p, ∃ bound : List Uuid, ((Store.empty.run calls).step call).bindingsMade =
          (Store.empty.run calls).bindingsMade ++ [b] ∧
        (Store.empty.run calls).policies.lookup b.columns.jobId = some p ∧ bound.Nodup ∧
        (∀ a, a ∈ bound ↔ (Store.empty.run calls).BoundOutstanding b.ownerId b.columns.jobId a) ∧
        bound.length < p.maxOutstandingEpisodes) ∧
    -- a stopped definition stays stopped, and gets no binding
    (∀ j, (Store.empty.run calls).isStopped j = true → ∀ later,
      ((Store.empty.run calls).run later).isStopped j = true ∧
      ((Store.empty.run calls).run later).bindingsMade.filter (·.columns.jobId = j) =
        (Store.empty.run calls).bindingsMade.filter (·.columns.jobId = j)) := by
  have haccounted := Store.run_accounted calls accounted_empty
  refine ⟨?_, ?_, ?_, ?_, ?_, ?_⟩
  · intro j p hp
    have hcharges := haccounted.charges j
    simp only [Store.admittedRuns, hp, Option.map_some, Option.getD_some] at hcharges
    refine ⟨hcharges, fun allowance hallowance => ?_⟩
    have haccepted := p.isAccepted
    simp only [ScheduledJobPolicy.accepted, Bool.and_eq_true] at haccepted
    have hlimit := haccepted.2
    rw [Option.mem_def.1 hallowance] at hlimit
    simpa using hlimit
  · intro i ownerId ownerId' b b' hb hb'
    obtain ⟨r, hr, hrowner⟩ := haccounted.owners i ownerId b hb
    obtain ⟨r', hr', hr'owner⟩ := haccounted.owners i ownerId' b' hb'
    cases hr.symm.trans hr'
    have howner : ownerId = ownerId' := hrowner.symm.trans hr'owner
    subst howner
    rw [hb] at hb'
    exact ⟨rfl, Option.some.inj hb'⟩
  · intro hcalls
    exact (Store.run_boundOnce calls hcalls accounted_empty
      ⟨fun _ h => absurd h not_mem_nil, nodup_nil⟩).once
  · intro e clock kept outcome hreply hreason
    obtain ⟨o, s', hadmit, hpure⟩ := ok_bind.1 (Store.ok_of_reply hreply)
    obtain ⟨houtcome, rfl⟩ := ok_pure.1 hpure
    cases houtcome
    rcases (admitAssignmentEpisode_ends e clock _).of_ok hadmit with hs | ⟨-, hadmitted⟩ | ⟨_, herr,
      -⟩
    · exact hs
    · exact absurd (hadmitted _ rfl) hreason
    · cases herr
  · intro call
    rcases Store.step_allowance call (Store.empty.run calls) with hkept | ⟨e, clock, -, hadmitted⟩
    · exact .inl hkept.made
    · obtain ⟨p, hp, -, -, hout⟩ := hadmitted.outstanding
      exact .inr ⟨_, p, _, hadmitted.made, hp, nodup_reverse.2 (nodup_dedup _),
        fun a => mem_outstanding, hout⟩
  · intro j hstop later
    refine @run_keeps _ _ Store.step (fun s' => s'.isStopped j ∧
      s'.bindingsMade.filter (·.columns.jobId = j) = _) ?_ later _ ⟨hstop, rfl⟩
    rintro call s' ⟨hstop, hmade⟩
    obtain ⟨hstop', hmade'⟩ := Store.step_stopped hstop call
    exact ⟨hstop', hmade'.trans hmade⟩

/-- **A binding is under the owner of its occurrence**, and charged to its definition. -/
theorem bindings_accounted (calls : List Call) : Accounted (Store.empty.run calls) :=
  Store.run_accounted calls accounted_empty

end AstralPlane.Scheduler
