/-
  Job policies, episode admission and the terminal stop.

  A definition may have a policy with an allowance of runs.  An episode is
  admitted under a current claim: its assignment is bound to the occurrence and
  the allowance is charged.  A policy job is stopped once and for all.
-/
import AstralPlane.Scheduler.Definitions
import AstralPlane.Scheduler.Attempts

namespace AstralPlane.Scheduler

open Tx

def policyVersionConflict (ownerId : String) (observedVersion : Option ℕ) : Exc :=
  .plane "scheduled job policy version fence was lost" "scheduled_job_policy_version_conflict"
    [("owner_id", some ownerId),
     ("observed_version", some ((observedVersion.map toString).getD "<none>"))]

def policyMissing (ownerId : String) : Exc :=
  .ofOwner ownerId "scheduled job policy is missing" "scheduled_job_policy_missing"

/-- `_policy`: the row as a `ScheduledJobPolicy`. -/
def loadPolicy (row : PolicyRow) : Work ScheduledJobPolicy :=
  match row.toScheduledJobPolicy.validate with
  | .error _ => raise (.plane "scheduled job policy record is invalid" "scheduler_record_invalid" [])
  | .ok policy => pure policy

def lockJob (ownerId : String) (jobId : Uuid) : Work Unit := do
  let s ← Tx.get
  require (s.job jobId ownerId).isSome
    (.ofOwner ownerId "scheduled job is missing or foreign" "scheduled_job_missing")

def lockPolicy (ownerId : String) (jobId : Uuid) : Work (Option ScheduledJobPolicy) := do
  let s ← Tx.get
  match (s.policies.lookup jobId).filter (·.ownerId = ownerId) with
  | none => pure none
  | some row => some <$> loadPolicy row

/-- `UPDATE scheduled_job_policy … WHERE job_id = %s AND owner_id = %s AND … RETURNING *`. -/
def updatePolicySql : Uuid → (ScheduledJobPolicy → Bool) →
    (ScheduledJobPolicy → ScheduledJobPolicy) → Work (Option PolicyRow) :=
  updateSql (·.policies) (fun t s => { s with policies := t }) (·.toScheduledJobPolicy) (·.accepted)
    (·.fits) .mk

/-- `INSERT INTO scheduled_job_policy … ON CONFLICT job_id DO NOTHING RETURNING *`. -/
def insertPolicySql (row : ScheduledJobPolicy) : Work (Option PolicyRow) := do
  let s ← Tx.get
  if (s.policies.lookup row.jobId).isSome then pure none
  else if h : row.accepted = true then do
    Tx.set { s with policies := s.policies.insert row.jobId ⟨row, h⟩ }
    pure (some ⟨row, h⟩)
  else raise (.database "23514")

/-- The policy as it is created: the fields of the scheduler are unset. -/
def ScheduledJobPolicy.fresh (p : ScheduledJobPolicy) : ScheduledJobPolicy :=
  { p with admittedRuns := 0, terminalStop := false, lastAssignmentId := none }

/-- What a replacement writes: the owner's fields. -/
def ScheduledJobPolicy.replaced (r p : ScheduledJobPolicy) : ScheduledJobPolicy :=
  { r with
    version := p.version
    maxRuns := p.maxRuns
    perEpisodeLimits := p.perEpisodeLimits
    maxOutstandingEpisodes := p.maxOutstandingEpisodes
    monitorChanges := p.monitorChanges
    definitionRevision := p.definitionRevision
    updatedAt := p.updatedAt }

def putJobPolicy (argument : ScheduledJobPolicy) (expectedVersion : ℕ) : Work ScheduledJobPolicy := do
  let policy ← ofExcept argument.validate
  check (ensure (expectedVersion < maxSafe) (.value "expected_version must be a non-negative integer"))
  check (ensure (policy.version = expectedVersion + 1)
    (.value "policy version must advance the expected version by one"))
  check (ensure (expectedVersion ≠ 0 || (policy.admittedRuns = 0 && !policy.terminalStop &&
      policy.lastAssignmentId.isNone)) (.value "scheduler-owned policy fields must start unset"))
  lockJob policy.ownerId policy.jobId
  let current ← lockPolicy policy.ownerId policy.jobId
  if expectedVersion = 0 then
    match current with
    | some current => raise (policyVersionConflict policy.ownerId (some current.version))
    | none => do
      match ← insertPolicySql policy.fresh with
      | none => raise (policyVersionConflict policy.ownerId none)
      | some row => loadPolicy row
  else
    match current with
    | none => raise (policyMissing policy.ownerId)
    | some current => do
      require (current.version = expectedVersion)
        (policyVersionConflict policy.ownerId (some current.version))
      require (policy.admittedRuns = current.admittedRuns &&
          policy.terminalStop = current.terminalStop &&
          policy.lastAssignmentId = current.lastAssignmentId)
        (.ofOwner policy.ownerId "scheduler-owned policy fields cannot be rewritten"
          "scheduled_job_policy_charge_rewrite")
      match ← updatePolicySql policy.jobId
          (fun r => r.ownerId = policy.ownerId && r.version = expectedVersion) (·.replaced policy) with
      | none => raise (policyVersionConflict policy.ownerId none)
      | some row => loadPolicy row

/-! ## Episodes -/

/-- The assignment is active or paused, so its episode is outstanding. -/
def Store.isOutstanding (s : Store) (assignmentId : Uuid) (ownerId : String) : Bool :=
  (s.assignments.lookup assignmentId).any fun a => a.1 = ownerId && !a.2.isTerminal

/-- `_outstanding`: the bound assignments that are outstanding, in the order of their admission. -/
def Store.outstanding (s : Store) (ownerId : String) (jobId : Uuid) : List Uuid :=
  let rows := s.bindings.entries.filter fun e => e.2.jobId = jobId && e.1.2 = ownerId &&
    s.isOutstanding e.2.assignmentId ownerId
  let ordered := (rows.map Sigma.snd).insertionSort fun a b =>
    a.admittedAt < b.admittedAt ∨ a.admittedAt = b.admittedAt ∧ a.assignmentId.int ≤ b.assignmentId.int
  (ordered.map BindingColumns.assignmentId).reverse.dedup.reverse

inductive AdmissionReason
  | admitted | replayed | policyMissing | terminalStop | episodeOutstanding | allowanceExhausted
  deriving DecidableEq

/-- `EpisodeAdmission`; its flags are functions of the reason. -/
structure EpisodeAdmission where
  jobId : Uuid
  ownerId : String
  occurrenceId : Uuid
  assignmentId : Uuid
  reason : AdmissionReason
  spend : ℕ
  policy : Option ScheduledJobPolicy
  deriving DecidableEq

/-- What `admit_assignment_episode` is given beside the claim. -/
structure Episode where
  claim : Claim
  jobId : Uuid
  assignmentId : Uuid
  admittedAt : ℤ
  spend : ℕ := 1
  deriving DecidableEq

/-- The outcome of the admission of an episode. -/
def Episode.outcome (e : Episode) (reason : AdmissionReason) (spend : ℕ)
    (policy : Option ScheduledJobPolicy) : EpisodeAdmission :=
  ⟨e.jobId, e.claim.ownerId, e.claim.occurrenceId, e.assignmentId, reason, spend, policy⟩

def Episode.binding (e : Episode) : BindingColumns :=
  ⟨e.jobId, e.assignmentId, e.spend, e.admittedAt⟩

def Episode.key (e : Episode) : Uuid × String := (e.claim.occurrenceId, e.claim.ownerId)

/-- `INSERT INTO scheduled_occurrence_assignment … ON CONFLICT … DO NOTHING RETURNING occurrence_id`. -/
def insertBindingSql (e : Episode) : Work Bool := do
  let s ← Tx.get
  if (s.bindings.lookup e.key).isSome then pure false
  else do
    require (isBigint e.admittedAt) (.database "22003")
    Tx.set { s with
      bindings := s.bindings.insert e.key e.binding
      bindingsMade := s.bindingsMade ++ [⟨e.claim.occurrenceId, e.claim.ownerId, e.binding⟩] }
    pure true

/-- What the charge of an episode writes. -/
def ScheduledJobPolicy.charged (r : ScheduledJobPolicy) (e : Episode) : ScheduledJobPolicy :=
  { r with
    admittedRuns := r.admittedRuns + e.spend
    lastAssignmentId := some e.assignmentId
    version := r.version + 1
    updatedAt := e.admittedAt.toNat }

/-- The allowance of the policy covers the spend. -/
def ScheduledJobPolicy.covers (p : ScheduledJobPolicy) (spend : ℕ) : Bool :=
  p.maxRuns.all (p.admittedRuns + spend ≤ ·)

/-- The admission of an episode whose claim and policy have been checked. -/
def bindEpisode (e : Episode) (policy : ScheduledJobPolicy) : Work EpisodeAdmission := do
  let bound ← insertBindingSql e
  require bound (.ofOwner e.claim.ownerId "scheduled occurrence binding lost its lock fence"
    "scheduled_occurrence_binding_conflict")
  match ← updatePolicySql e.jobId
      (fun r => r.ownerId = e.claim.ownerId && r.version = policy.version && !r.terminalStop &&
        r.covers e.spend) (·.charged e) with
  | none => raise (.ofOwner e.claim.ownerId
      "scheduled job policy lost its lock fence during admission"
      "scheduled_job_policy_version_conflict")
  | some charged => do
    let policy ← loadPolicy charged
    pure (e.outcome .admitted e.spend (some policy))

/-- The assignment of a new episode must be there and unresolved. -/
def checkAssignment (e : Episode) : Work Unit := do
  let s ← Tx.get
  match (s.assignments.lookup e.assignmentId).filter (·.1 = e.claim.ownerId) with
  | none => raise (.ofOwner e.claim.ownerId "episode assignment is missing or foreign"
      "scheduled_episode_assignment_missing")
  | some assignment =>
    require (!assignment.2.isTerminal)
      (.ofOwner e.claim.ownerId "episode assignment is already resolved"
        "scheduled_episode_assignment_resolved")

/-- The part of the admission under a policy. -/
def admitUnderPolicy (e : Episode) (policy : ScheduledJobPolicy) (now : Time) :
    Work EpisodeAdmission := do
  let occurrence ← assertCurrentClaim e.claim [.claimed, .running] now
  require (occurrence.jobId = e.jobId)
    (.ofOwner e.claim.ownerId "scheduled occurrence belongs to a different definition"
      "scheduled_occurrence_job_mismatch")
  if policy.terminalStop then pure (e.outcome .terminalStop e.spend (some policy))
  else do
    let s ← Tx.get
    match s.bindings.lookup e.key with
    | some existing => do
      require (existing.assignmentId = e.assignmentId)
        (.ofOwner e.claim.ownerId "scheduled occurrence is already bound to another episode"
          "scheduled_occurrence_binding_conflict")
      pure (e.outcome .replayed existing.spend (some policy))
    | none => do
      checkAssignment e
      if policy.maxOutstandingEpisodes ≤ (s.outstanding e.claim.ownerId e.jobId).length then
        pure (e.outcome .episodeOutstanding e.spend (some policy))
      else if !policy.covers e.spend then
        pure (e.outcome .allowanceExhausted e.spend (some policy))
      else bindEpisode e policy

def admitAssignmentEpisode (e : Episode) (clock : Clock) : Work EpisodeAdmission := do
  check (claimIdentity e.claim)
  check (uuid4 "job_id" e.jobId)
  check (uuid4 "assignment_id" e.assignmentId)
  check (millisecond "admitted_at" e.admittedAt)
  check (ensure (e.spend ≤ maxRunsLimit)
    (.value "spend must be an integer between 0 and the run allowance limit"))
  let _ ← assertClaimJobActive e.claim.ownerId e.jobId
  match ← lockPolicy e.claim.ownerId e.jobId with
  | none => pure (e.outcome .policyMissing e.spend none)
  | some policy => admitUnderPolicy e policy (clock 0)

/-! ## The terminal stop -/

structure JobStopOutcome where
  jobId : Uuid
  ownerId : String
  stopped : Bool
  policy : ScheduledJobPolicy
  cancelledOccurrenceIds : List Uuid
  cancelledOperationIds : List Uuid
  outstandingAssignmentIds : List Uuid
  deriving DecidableEq

/-- The cancellation of one of the unstarted occurrences. -/
def stopOccurrence (ownerId : String) (clock : Clock) (o : ScheduledOccurrence) : Work Unit := do
  let cancelled ← cancelUnstartedOccurrence ownerId o.occurrenceId o.row.currentOperationId
    "cancelled_job_stopped" clock
  require cancelled (.ofOwner ownerId "scheduled occurrence cancellation lost its state fence"
    "stale_occurrence_fence")

def stopAssignmentJob (ownerId : String) (jobId : Uuid) (expectedVersion : ℕ) (stoppedAt : ℤ)
    (clock : Clock) : Work JobStopOutcome := do
  check (required "owner_id" ownerId)
  check (uuid4 "job_id" jobId)
  check (ensure (1 ≤ expectedVersion && expectedVersion ≤ maxSafe)
    (.value "expected_version must be a positive integer"))
  check (millisecond "stopped_at" stoppedAt)
  lockJob ownerId jobId
  match ← lockPolicy ownerId jobId with
  | none => raise (policyMissing ownerId)
  | some current => do
    require (current.version = expectedVersion)
      (policyVersionConflict ownerId (some current.version))
    if current.terminalStop then do
      let s ← Tx.get
      pure ⟨jobId, ownerId, false, current, [], [], s.outstanding ownerId jobId⟩
    else do
      let row ← updatePolicySql jobId
        (fun r => r.ownerId = ownerId && r.version = expectedVersion && !r.terminalStop) fun r =>
        { r with terminalStop := true, version := r.version + 1, updatedAt := stoppedAt.toNat }
      match row with
      | none => raise (policyVersionConflict ownerId none)
      | some row => do
        let rowcount ← updateJobSql jobId (·.ownerId = ownerId) fun j =>
          { j with status := .completed, nextRunAt := none, updatedAt := stoppedAt }
        require (rowcount = 1) (.ofOwner ownerId "scheduled definition status fence was lost"
          "scheduled_job_status_conflict")
        let s ← Tx.get
        let unstarted := s.unstarted jobId ownerId
        Tx.each (stopOccurrence ownerId clock) unstarted
        let policy ← loadPolicy row
        let s ← Tx.get
        pure ⟨jobId, ownerId, true, policy, unstarted.map (·.occurrenceId),
          (unstarted.filterMap (·.row.currentOperationId)).reverse.dedup.reverse,
          s.outstanding ownerId jobId⟩

end AstralPlane.Scheduler
