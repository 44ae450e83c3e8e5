/-
  Which tables a method writes.

  `Touches T s s'` says that every table but those of `T` is as it was; each
  statement and each method has one lemma about it.  What a result is about is
  then a matter of the few methods that write its tables.
-/
import AstralPlane.Scheduler.Calls

namespace AstralPlane.Scheduler

open Tx

variable {s : Store} {R : Store → Store → Prop} {c : Check} {call : Call}
variable {e : EffectAttempt} {jobId occurrenceId runId : Uuid} {ownerId : String}
  {job : ScheduledJob} {endedAt : ℤ} {clock : Clock} {now : Time}
variable {expectedVersion : ℕ} {row : ScheduledJob} {selects : OccurrenceColumns → Bool}

inductive Table
  | jobs | occurrences | runs | effects | policies | bindings | assignments | conversations
  deriving DecidableEq

/-- The table is as it was, with what is recorded about it. -/
def Table.Same (s s' : Store) : Table → Prop
  | .jobs => s'.jobs = s.jobs
  | .occurrences => s'.occurrences = s.occurrences ∧ s'.claimsMade = s.claimsMade
  | .runs => s'.runs = s.runs
  | .effects => s'.effects = s.effects
  | .policies => s'.policies = s.policies
  | .bindings => s'.bindings = s.bindings ∧ s'.bindingsMade = s.bindingsMade
  | .assignments => s'.assignments = s.assignments
  | .conversations => s'.conversations = s.conversations

theorem Table.same_refl (t : Table) (s : Store) : t.Same s s := by
  cases t <;> simp [Table.Same]

theorem Table.Same.trans {t : Table} {s1 s2 : Store} (h : t.Same s s1) (h' : t.Same s1 s2) :
    t.Same s s2 := by
  cases t <;> simp_all [Table.Same]

/-- Only the tables of the list may have changed. -/
def Touches (T : List Table) (s s' : Store) : Prop := ∀ t ∉ T, t.Same s s'

instance (T : List Table) : Std.Refl (Touches T) := ⟨fun s t _ => t.same_refl s⟩

instance (T : List Table) : IsTrans Store (Touches T) :=
  ⟨fun _ _ _ h h' t ht => (h t ht).trans (h' t ht)⟩

theorem Touches.mono {T T' : List Table} {s' : Store} (h : Touches T s s') (hT : T ⊆ T') :
    Touches T' s s' := fun t ht => h t fun hin => ht (hT hin)

section
variable {α : Type} {T T' : List Table}

@[simp] theorem touches_refl (s : Store) : Touches T s s := Std.Refl.refl s

theorem moves_mono {x : Work α} (h : x.Moves (Touches T)) (hT : T ⊆ T') : x.Moves (Touches T') :=
  h.imp fun _ _ hs => hs.mono hT

theorem check_readOnly (c : Check) : (check c).ReadOnly := readOnly_ofExcept c

variable {f : Unit → Work α}

theorem check_bind [Std.Refl R] [IsTrans Store R] (h : (f ()).Moves R) : (check c >>= f).Moves R :=
  (check_readOnly c).moves.bind fun _ => h

theorem ok_check_bind {s' : Store} {a : α} (hc : c = .ok ())
    (hf : (f ()).Ok s a s') : (check c >>= f).Ok s a s' := ok_ofExcept_bind hc hf

theorem check_readOnly_bind (h : (f ()).ReadOnly) :
    (check c >>= f).ReadOnly := readOnly_bind (check_readOnly c) fun _ => h

theorem require_bind [Std.Refl R] [IsTrans Store R] {b : Bool} {e : Exc} (h : (f ()).Moves R) :
    (require b e >>= f).Moves R :=
  (readOnly_require b e).moves.bind fun _ => h

theorem moves_get_bind {f : Store → Work α} (h : ∀ s, (f s).Leaves s (R s)) :
    (Tx.get >>= f).Moves R := fun s => leaves_get_bind (h s)

theorem quietly_moves [Std.Refl R] [IsTrans Store R] {x : Work α}
    (h : x.Moves R) : (quietly x).Moves R := h.returning

end

/-! ## Statements -/

section
variable {α : Type}

@[simp] theorem touches_jobs (s : Store) {t : Keyed Uuid ScheduledJob} :
    Touches [.jobs] s { s with jobs := t } := by
  rintro (_ | _) ht <;> simp_all [Table.Same]

@[simp] theorem touches_occurrences (s : Store) {t : Keyed Uuid OccurrenceRow} {made : List Uuid} :
    Touches [.occurrences] s { s with occurrences := t, claimsMade := made } := by
  rintro (_ | _) ht <;> simp_all [Table.Same]

@[simp] theorem touches_runs (s : Store) {t : Keyed Uuid RunColumns} :
    Touches [.runs] s { s with runs := t } := by
  rintro (_ | _) ht <;> simp_all [Table.Same]

@[simp] theorem touches_effects (s : Store) {t : Keyed EffectKey EffectRow} :
    Touches [.effects] s { s with effects := t } := by
  rintro (_ | _) ht <;> simp_all [Table.Same]

@[simp] theorem touches_policies (s : Store) {t : Keyed Uuid PolicyRow} :
    Touches [.policies] s { s with policies := t } := by
  rintro (_ | _) ht <;> simp_all [Table.Same]

@[simp] theorem touches_bindings (s : Store) {t : Keyed (Uuid × String) BindingColumns}
    {made : List CreatedBinding} :
    Touches [.bindings] s { s with bindings := t, bindingsMade := made } := by
  rintro (_ | _) ht <;> simp_all [Table.Same]

theorem loadJob_readOnly : (loadJob row).ReadOnly :=
  readOnly_bind (check_readOnly _) fun _ => readOnly_pure _

theorem loadPolicy_readOnly {row : PolicyRow} : (loadPolicy row).ReadOnly := by
  unfold loadPolicy
  split <;> simp

theorem updateJobSql_touches {selects : ScheduledJob → Bool}
    {written : ScheduledJob → ScheduledJob} :
    (updateJobSql jobId selects written).Moves (Touches [.jobs]) := by
  refine moves_get_bind fun s => ?_
  split <;> simp

theorem requiredOccurrence_readOnly {row : Option OccurrenceRow}
    {message : String} : (requiredOccurrence occurrenceId row message ownerId).ReadOnly := by
  unfold requiredOccurrence
  split <;> simp

theorem updateRunSql_touches {selects : Uuid → RunColumns → Bool} {written : RunColumns → RunColumns} :
    (updateRunSql selects written).Moves (Touches [.runs]) := by
  refine moves_get_bind fun s => ?_
  split <;> simp

theorem insertAttemptRunSql_touches {row : RunColumns} :
    (insertAttemptRunSql runId row).Moves (Touches [.runs]) := by
  refine moves_get_bind fun s => ?_
  split <;> simp

section
variable {κ ρ γ : Type} [DecidableEq κ] {table : Store → Keyed κ ρ} {put : Keyed κ ρ → Store → Store}
  {columns : ρ → γ} {accepted fits : γ → Bool} {row : (c : γ) → accepted c = true → ρ}

/-- What an update does: nothing, or it writes the row that it selects. -/
theorem updateSql_cases (k : κ) (selects : γ → Bool) (written : γ → γ) (s : Store) :
    (updateSql table put columns accepted fits row k selects written).Ends s fun reply s' =>
      (s' = s ∧ reply = .ok none ∧ ∀ r, (table s).lookup k = some r → selects (columns r) = false) ∨
      (s' = s ∧ ∃ e, reply = .error e ∧ e.aborts) ∨
      ∃ r h r', row (written (columns r)) h = r' ∧ (table s).lookup k = some r ∧
        selects (columns r) ∧ reply = .ok (some r') ∧ s' = put ((table s).insert k r') s := by
  refine ends_get_bind ?_
  split
  · rename_i hnone
    refine ends_pure (.inl ⟨rfl, rfl, fun r hr => ?_⟩)
    simpa using Option.filter_eq_none_iff.1 hnone r hr
  · rename_i r hr
    obtain ⟨hlookup, hselects⟩ := Option.filter_eq_some_iff.1 hr
    split
    · rename_i h
      exact ends_require_bind (fun _ => .inr (.inr ⟨r, h, _, rfl, hlookup, hselects, rfl, rfl⟩))
        fun _ => .inr (.inl ⟨rfl, _, rfl, rfl⟩)
    · exact ends_raise (.inr (.inl ⟨rfl, _, rfl, rfl⟩))

theorem updateSql_touches {T : List Table} (h : ∀ t s, Touches T s (put t s)) {k : κ}
    {selects : γ → Bool} {written : γ → γ} :
    (updateSql table put columns accepted fits row k selects written).Moves (Touches T) := by
  intro s
  refine (updateSql_cases k selects written s).leaves ?_
  rintro _ _ (⟨rfl, -⟩ | ⟨rfl, -⟩ | ⟨_, _, _, -, -, -, -, rfl⟩)
  · exact Std.Refl.refl _
  · exact Std.Refl.refl _
  · exact h _ _

end

theorem updateEffectSql_touches {key : EffectKey} {selects : EffectColumns → Bool}
    {written : EffectColumns → EffectColumns} :
    (updateEffectSql key selects written).Moves (Touches [.effects]) :=
  updateSql_touches fun _ s => touches_effects s

theorem updatePolicySql_touches {selects : ScheduledJobPolicy → Bool}
    {written : ScheduledJobPolicy → ScheduledJobPolicy} :
    (updatePolicySql jobId selects written).Moves (Touches [.policies]) :=
  updateSql_touches fun _ s => touches_policies s

end

/-! ## Methods -/

theorem sameDefinition_readOnly : (sameDefinition job row).ReadOnly :=
  readOnly_bind (readOnly_require _ _) fun _ =>
    readOnly_bind loadJob_readOnly fun _ => readOnly_require _ _

theorem loadAll_readOnly {jobs : List ScheduledJob} : (loadAll jobs).ReadOnly :=
  readOnly_each (fun _ => readOnly_bind loadJob_readOnly fun _ => readOnly_pure _) jobs

theorem replayRunNow_readOnly
    (e : Sigma fun _ : Uuid => OccurrenceRow) : (replayRunNow ownerId jobId e).ReadOnly :=
  readOnly_bind (readOnly_require _ _) fun _ => readOnly_pure _

theorem assertCurrentClaim_readOnly (c : Claim) (states : List OccurrenceState) (now : Time) :
    (assertCurrentClaim c states now).ReadOnly := by
  refine check_readOnly_bind <| check_readOnly_bind <| readOnly_bind readOnly_get fun s => ?_
  split <;> simp

theorem assertClaimJobActive_readOnly : (assertClaimJobActive ownerId jobId).ReadOnly := by
  refine check_readOnly_bind <| check_readOnly_bind <| readOnly_bind readOnly_get fun s => ?_
  split <;> simp [loadJob_readOnly]

theorem interruptRun_touches {c : Claim} {current : OccurrenceRow} {attemptNumber : ℕ}
    {operationId : Option Uuid} {operationExecutionGeneration : Option ℕ} :
    (interruptRun c current attemptNumber operationId operationExecutionGeneration endedAt).Moves
      (Touches [.runs]) := by
  refine moves_ite ?_ (readOnly_pure _).moves
  split
  · exact require_bind <| updateRunSql_touches.bind fun _ => (readOnly_require _ _).moves
  · exact (readOnly_raise _).moves

theorem validateEffectAttempt_readOnly : (validateEffectAttempt e now).ReadOnly := by
  refine check_readOnly_bind <| check_readOnly_bind <| check_readOnly_bind <| check_readOnly_bind <|
    check_readOnly_bind <| check_readOnly_bind ?_
  exact readOnly_bind (assertCurrentClaim_readOnly _ _ _) fun _ =>
    readOnly_bind (readOnly_require _ _) fun _ => readOnly_pure _

theorem publishReservedEffect_touches {receipt : Option String} :
    (publishReservedEffect e receipt clock).Moves (Touches [.effects]) := by
  refine validateEffectAttempt_readOnly.moves.bind fun _ => check_bind <|
    readOnly_get.moves.bind fun s => ?_
  split
  · exact (readOnly_raise _).moves
  · exact require_bind <| moves_ite (readOnly_pure _).moves <| require_bind <|
      updateEffectSql_touches.bind fun _ => require_bind (readOnly_pure _).moves

theorem onConversations_touches {α : Type} {x : Tx Conversations Exc α} :
    (onConversations x).Moves (Touches [.conversations]) := by
  intro s
  simp only [Leaves, onConversations, Tx.zoom]
  rcases x s.conversations with ⟨e | a, t⟩
  all_goals rintro (_ | _) ht <;> simp_all [Table.Same]

theorem lockJob_readOnly : (lockJob ownerId jobId).ReadOnly :=
  readOnly_bind readOnly_get fun _ => readOnly_require _ _

theorem lockPolicy_readOnly : (lockPolicy ownerId jobId).ReadOnly := by
  refine readOnly_bind readOnly_get fun s => ?_
  split <;> simp [loadPolicy_readOnly]

/-- An upsert of a policy: an insertion without charges, or an update that keeps charges and
    stops. -/
theorem putJobPolicy_moves [Std.Refl R] [IsTrans Store R] {argument : ScheduledJobPolicy}
    (hinsert : ∀ {row : ScheduledJobPolicy}, row.admittedRuns = 0 → (insertPolicySql row).Moves R)
    (hupdate : ∀ {j selects} {written : ScheduledJobPolicy → ScheduledJobPolicy},
      (∀ p, (written p).admittedRuns = p.admittedRuns) →
      (∀ p, p.terminalStop → (written p).terminalStop) →
      (updatePolicySql j selects written).Moves R) :
    (putJobPolicy argument expectedVersion).Moves R := by
  refine (readOnly_ofExcept _).moves.bind fun policy => check_bind <| check_bind <| check_bind <|
    lockJob_readOnly.moves.bind fun _ => lockPolicy_readOnly.moves.bind fun current => ?_
  refine moves_ite ?_ ?_
  · cases current with
    | some => exact (readOnly_raise _).moves
    | none =>
      refine (hinsert rfl).bind fun row => ReadOnly.moves ?_
      cases row <;> simp [loadPolicy_readOnly]
  · cases current with
    | none => exact (readOnly_raise _).moves
    | some =>
      refine require_bind <| require_bind <| (hupdate ?_ ?_).bind fun row => ReadOnly.moves ?_
      · exact fun _ => rfl
      · exact fun _ hp => hp
      · cases row <;> simp [loadPolicy_readOnly]

theorem bindEpisode_touches (e : Episode) (policy : ScheduledJobPolicy) :
    (bindEpisode e policy).Moves (Touches [.policies, .bindings]) := by
  have hinsert : (insertBindingSql e).Moves (Touches [.bindings]) := by
    refine moves_get_bind fun s => ?_
    split <;> simp
  refine (moves_mono hinsert (by simp)).bind fun _ => require_bind <|
    (moves_mono updatePolicySql_touches (by simp)).bind fun row => ReadOnly.moves ?_
  cases row <;> simp [loadPolicy_readOnly]

theorem checkAssignment_readOnly (e : Episode) : (checkAssignment e).ReadOnly := by
  refine readOnly_bind readOnly_get fun s => ?_
  split <;> simp

theorem stopAssignmentJob_moves [Std.Refl R] [IsTrans Store R] {stoppedAt : ℤ}
    (hpolicy : ∀ {selects} {written : ScheduledJobPolicy → ScheduledJobPolicy},
      (∀ p, (written p).admittedRuns = p.admittedRuns) →
      (∀ p, p.terminalStop → (written p).terminalStop) →
      (updatePolicySql jobId selects written).Moves R)
    (hjob : ∀ {selects written}, (updateJobSql jobId selects written).Moves R)
    (hstop : ∀ o, (stopOccurrence ownerId clock o).Moves R) :
    (stopAssignmentJob ownerId jobId expectedVersion stoppedAt clock).Moves R := by
  refine check_bind <| check_bind <| check_bind <| check_bind <|
    lockJob_readOnly.moves.bind fun _ => lockPolicy_readOnly.moves.bind fun current => ?_
  cases current with
  | none => exact (readOnly_raise _).moves
  | some =>
    refine require_bind <| moves_ite (readOnly_bind readOnly_get fun _ => readOnly_pure _).moves ?_
    refine Moves.bind (hpolicy ?_ ?_) fun row => ?_
    · exact fun _ => rfl
    · exact fun _ _ => rfl
    cases row with
    | none => exact (readOnly_raise _).moves
    | some =>
      exact hjob.bind fun _ => require_bind <| readOnly_get.moves.bind fun s =>
        (Moves.each hstop _).bind fun _ => loadPolicy_readOnly.moves.bind fun _ =>
          readOnly_get.moves.returning

/-! ## Calls -/

/-- The tables that a method writes. -/
def Method.tables : Method → List Table
  | .createJobDefinition _ | .putJob _ | .setJobOfflineGrant .. | .setJobStatus ..
  | .transitionJobAndListUnstarted .. | .updateJobAfterRun .. => [.jobs]
  | .materializeAndClaimDue _ => [.jobs, .occurrences]
  | .cancelUnstartedOccurrence .. | .materializeRunNow .. | .createOccurrence ..
  | .claimOccurrence .. | .renewOccurrenceClaim .. | .attachOperationToClaim .. => [.occurrences]
  | .startLegacyRun .. | .finishRun .. | .reconcileInterrupted _ => [.runs]
  | .assertCurrentClaim .. | .assertClaimJobActive .. => []
  | .startClaimAttempt .. | .markClaimRetryable .. | .finishClaimAttempt .. => [.occurrences, .runs]
  | .reserveEffect .. | .publishReservedEffect .. | .failReservedEffect .. => [.effects]
  | .publishStagedChatEffect .. => [.effects, .conversations]
  | .putJobPolicy .. => [.policies]
  | .admitAssignmentEpisode .. => [.policies, .bindings]
  | .stopAssignmentJob .. => [.jobs, .occurrences, .policies]
  | .environment (.operationPurged _) => [.occurrences, .effects, .runs]
  | .environment (.assignmentChanged ..) => [.assignments]
  | .environment (.assignmentDeleted _) => [.assignments, .bindings]
  | .environment (.conversationsChanged _) => [.conversations]

theorem environment_touches (change : Environment) (s : Store) :
    Touches (Method.environment change).tables s (change.apply s) := by
  cases change <;> rintro (_ | _) ht <;> simp_all [Table.Same, Method.tables, Environment.apply]

/-- A call that does not write occurrences; the others are in `exec_evolves`. -/
theorem exec_touches_of {m : Method} (h : Table.occurrences ∉ m.tables) :
    (exec m).Moves (Touches m.tables) := by
  cases m
  case environment change => exact quietly_moves (environment_touches change)
  all_goals refine Moves.returning ?_
  case assertCurrentClaim => exact (assertCurrentClaim_readOnly _ _ _).moves
  case assertClaimJobActive => exact assertClaimJobActive_readOnly.moves
  case publishReservedEffect => exact publishReservedEffect_touches
  case putJobPolicy =>
    refine putJobPolicy_moves (fun _ => moves_get_bind fun s => ?_) fun _ _ => updatePolicySql_touches
    split
    · simp
    · split <;> simp [Method.tables]
  -- what the other methods do once their arguments are checked
  all_goals repeat refine check_bind ?_
  case createJobDefinition =>
    refine moves_get_bind fun s => ?_
    split
    · simp [Method.tables]
    · exact (readOnly_bind sameDefinition_readOnly fun _ => readOnly_pure _).moves s
  case putJob =>
    refine moves_get_bind fun s => ?_
    split
    · exact leaves_require_bind (Std.Refl.refl s) fun _ => leaves_set_bind.2 <|
        (readOnly_bind sameDefinition_readOnly fun _ => readOnly_pure _).leaves (touches_jobs s)
    · exact (readOnly_bind sameDefinition_readOnly fun _ => readOnly_pure _).moves s
  case setJobOfflineGrant | setJobStatus | updateJobAfterRun =>
    exact updateJobSql_touches.returning
  case transitionJobAndListUnstarted =>
    refine moves_get_bind fun s => ?_
    split
    · exact (readOnly_pure _).moves s
    · exact (updateJobSql_touches.bind fun _ => require_bind
        (readOnly_bind readOnly_get fun _ => readOnly_pure _).moves) s
  case startLegacyRun =>
    refine moves_get_bind fun s => ?_
    split <;> simp [Method.tables]
  case finishRun => exact require_bind <| updateRunSql_touches
  case reconcileInterrupted =>
    exact require_bind <| readOnly_get.moves.bind fun _ => updateRunSql_touches.returning
  case reserveEffect =>
    refine validateEffectAttempt_readOnly.moves.bind fun _ => moves_get_bind fun s => ?_
    split
    · simp [Method.tables]
    · refine (require_bind (moves_ite ?_ (readOnly_pure _).moves)) s
      exact updateEffectSql_touches.bind fun _ => require_bind (readOnly_pure _).moves
  case failReservedEffect =>
    exact validateEffectAttempt_readOnly.moves.bind fun _ => check_bind <|
      updateEffectSql_touches.bind fun _ => require_bind (readOnly_pure _).moves
  case publishStagedChatEffect =>
    refine (readOnly_ofExcept _).moves.bind fun _ =>
      validateEffectAttempt_readOnly.moves.bind fun _ => readOnly_get.moves.bind fun s => ?_
    split
    · exact (readOnly_raise _).moves
    · exact require_bind <| moves_ite (readOnly_pure _).moves <| require_bind <|
        (moves_mono onConversations_touches (by simp [Method.tables])).bind fun _ =>
          moves_mono publishReservedEffect_touches (by simp [Method.tables])
  case admitAssignmentEpisode =>
    refine assertClaimJobActive_readOnly.moves.bind fun _ =>
      lockPolicy_readOnly.moves.bind fun policy => ?_
    cases policy
    · exact (readOnly_pure _).moves
    · refine (assertCurrentClaim_readOnly _ _ _).moves.bind fun _ => require_bind <|
        moves_ite (readOnly_pure _).moves <| readOnly_get.moves.bind fun s => ?_
      split
      · exact require_bind (readOnly_pure _).moves
      · exact (checkAssignment_readOnly _).moves.bind fun _ => moves_ite (readOnly_pure _).moves <|
          moves_ite (readOnly_pure _).moves (bindEpisode_touches _ _)
  all_goals simp [Method.tables] at h

/-- What holds before a call and of all that its body may leave holds after it, up to errors of the
    database. -/
theorem Store.step_of_ends {P : Store → Prop}
    (h : (exec call.method).Ends s fun reply s' => P s' ∨ ∃ err, reply = .error err ∧ err.aborts)
    (hs : P s) : P (s.step call) := by
  unfold Tx.Ends at h
  unfold Store.step
  rcases hr : exec call.method s with ⟨e | a, s'⟩ <;> rw [hr] at h <;> dsimp only at h ⊢
  · split
    · rename_i hkept
      rcases h with h | ⟨err, herr, habort⟩
      · exact h
      · cases herr
        simp [habort] at hkept
    · exact hs
  · rcases h with h | ⟨err, herr, -⟩
    · exact h
    · cases herr

theorem Store.step_leaves {P : Store → Prop} (h : (exec call.method).Leaves s P) (hs : P s) :
    P (s.step call) := Store.step_of_ends (.inl h) hs

theorem Store.step_moves [Std.Refl R]
    (h : (exec call.method).Moves R) (s : Store) : R s (s.step call) :=
  Store.step_leaves (h s) (Std.Refl.refl s)

theorem Store.ok_of_reply {reply : Reply} (h : s.reply call = .ok reply) :
    (exec call.method).Ok s reply (s.step call) := by
  unfold Store.reply at h
  unfold Store.step
  rcases hr : exec call.method s with ⟨e | a, s'⟩ <;> rw [hr] at h <;> cases h
  exact hr

end AstralPlane.Scheduler
