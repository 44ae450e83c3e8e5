/-
  Durable scheduling: values, checks and tables (`repositories/scheduler.py`,
  `repositories/scheduler_models.py`, `database/scheduler_policy_schema.py` and
  the scheduler tables of the baseline schema).

  A definition (`scheduled_job`) has a cadence; each point of it becomes an
  occurrence, which workers claim under a lease, run and settle.  Runs and
  external effects are recorded under the claim that made them.

  * `ScheduledJob` … `ScheduledJobPolicy` are the records, with the checks of
    their constructors;
  * `Store` are the tables, under their primary keys; `OccurrenceRow` carries the
    constraints of its table;
  * `Work` is a transaction body on them.

  UUIDs are values of their type, so that of `_uuid` only the version is left to
  check, and numbers that must not be negative are natural numbers.
-/
import Mathlib.Data.Fintype.Basic
import Mathlib.Data.List.Sort
import Mathlib.Data.String.Basic
import AstralPlane.Keyed
import AstralPlane.Repositories

namespace AstralPlane.Scheduler

/-! ## Values -/

/-- What a method raises: `ValueError`, `PlaneError`, or an error of the database, which also ends
    the transaction. -/
inductive Exc
  | value (message : String)
  | plane (message code : String) (metadata : List (String × Option String))
  | database (sqlstate : String)
  deriving DecidableEq

/-- A `PlaneError` whose metadata is the owner. -/
def Exc.ofOwner (ownerId message code : String) : Exc :=
  .plane message code [("owner_id", some ownerId)]

/-- The transaction can only be rolled back. -/
def Exc.aborts : Exc → Bool
  | .database _ => true
  | .value _ | .plane .. => false

inductive ScheduleKind
  | oneShot | interval | cron
  deriving DecidableEq

inductive JobStatus
  | active | paused | expired | completed | disabled
  deriving DecidableEq

inductive OccurrenceState
  | pending | claimed | running | completed | failed | retryable | cancelled
  deriving DecidableEq

def OccurrenceState.held : OccurrenceState → Bool
  | .claimed | .running => true
  | .pending | .completed | .failed | .retryable | .cancelled => false

def OccurrenceState.terminal : OccurrenceState → Bool
  | .completed | .failed | .cancelled => true
  | .pending | .claimed | .running | .retryable => false

/-- `state IN ('pending', 'retryable', 'claimed')`. -/
def OccurrenceState.unstarted : OccurrenceState → Bool
  | .pending | .retryable | .claimed => true
  | .running | .completed | .failed | .cancelled => false

inductive EffectState
  | reserved | published | failed
  deriving DecidableEq

inductive RunOutcome
  | running | success | failure | interrupted | skippedAuth
  deriving DecidableEq

/-- What `uuid.uuid4()` returns. -/
abbrev Uuid4 := { u : Uuid // u.isVersion4 = true }

/-! ## Checks -/

abbrev Check := Except Exc Unit

def required (name value : String) (maximum : ℕ := 512) : Check :=
  ensure (!Repositories.isBlank value && value.length ≤ maximum)
    (.value (name ++ " must be a non-empty string of at most " ++ toString maximum ++ " characters"))

def boundedCode (name value : String) (maximum : ℕ := 128) : Check :=
  ensure (value.length ≤ maximum && isSnakeCase 127 value)
    (.value (name ++ " must be bounded snake_case"))

/-- `_uuid(…, version=4)`. -/
def uuid4 (name : String) (value : Uuid) : Check :=
  ensure value.isVersion4 (.value (name ++ " must be a canonical non-nil v4"))

def uuid (name : String) (value : Uuid) : Check :=
  ensure (value.int ≠ 0) (.value (name ++ " must be a canonical non-nil UUID"))

def digest (name value : String) : Check :=
  ensure (isSha256 value) (.value (name ++ " must be lowercase SHA-256"))

def limit (value : ℕ) : Check :=
  ensure (1 ≤ value && value ≤ 1000) (.value "limit must be between 1 and 1000")

def millisecond (name : String) (value : ℤ) : Check :=
  ensure (0 ≤ value) (.value (name ++ " must be a non-negative integer millisecond timestamp"))

def instanceId (value : String) : Check :=
  ensure (1 ≤ value.length && value.length ≤ 128 &&
      value.toList.all fun c => c.isAlphanum || "_.:-".toList.contains c)
    (.value "instance_id must be a bounded non-sensitive identifier")

/-- `lease_seconds` of a claim. -/
def leaseSeconds (value : ℕ) : Check :=
  ensure (5 ≤ value && value ≤ 60) (.value "lease_seconds must be between 5 and 60")

/-- A claim as its worker presents it. -/
structure Claim where
  ownerId : String
  occurrenceId : Uuid
  claimGeneration : ℕ
  leaseToken : Uuid
  leaseOwner : String
  deriving DecidableEq

def claimIdentity (c : Claim) : Check := do
  required "owner_id" c.ownerId
  uuid4 "occurrence_id" c.occurrenceId
  uuid4 "lease_token" c.leaseToken
  instanceId c.leaseOwner
  ensure (0 < c.claimGeneration) (.value "claim_generation must be a positive integer")

/-! ## Definitions -/

structure ScheduledJob where
  jobId : Uuid
  ownerId : String
  name : String
  instruction : String
  scheduleKind : ScheduleKind
  scheduleExpression : String
  timezone : String
  status : JobStatus
  nextRunAt : Option ℤ
  createdAt : ℤ
  updatedAt : ℤ
  agentId : Option String
  consentedScopes : List String
  delivery : String
  targetChatId : Option String
  lastRunAt : Option ℤ
  offlineGrantId : Option Uuid
  deriving DecidableEq

/-- A check of a value that may be absent. -/
def optional {α : Type} (value : Option α) (check : α → Check) : Check :=
  match value with
  | none => pure ()
  | some a => check a

/-- `ScheduledJob.__post_init__`. -/
def ScheduledJob.validate (j : ScheduledJob) : Check := do
  uuid4 "job_id" j.jobId
  required "owner_id" j.ownerId
  required "name" j.name 256
  required "instruction" j.instruction 65536
  required "schedule_expression" j.scheduleExpression 512
  required "timezone" j.timezone 128
  ensure (0 ≤ j.createdAt && j.createdAt ≤ j.updatedAt)
    (.value "scheduled job timestamps are invalid")
  optional j.agentId fun agentId => required "agent_id" agentId 256
  ensure (j.consentedScopes.length ≤ 64 &&
      j.consentedScopes.all fun scope => scope ≠ "" && scope.length ≤ 128)
    (.value "consented_scopes must contain at most 64 bounded strings")
  ensure j.consentedScopes.Nodup (.value "consented_scopes must not contain duplicates")
  ensure (j.delivery = "in_app") (.value "only in_app scheduled delivery is supported")
  optional j.targetChatId fun chat => required "target_chat_id" chat 256
  ensure (j.lastRunAt.all (0 ≤ ·)) (.value "last_run_at cannot be negative")
  optional j.offlineGrantId fun grant => uuid "offline_grant_id" grant

def isBigint (value : ℤ) : Bool := -2 ^ 63 ≤ value && value ≤ maxBigint

/-- The numbers that a row of `scheduled_job` can hold. -/
def ScheduledJob.fits (j : ScheduledJob) : Bool :=
  isBigint j.createdAt && isBigint j.updatedAt && j.nextRunAt.all isBigint && j.lastRunAt.all isBigint

/-! ## Occurrences -/

/-- The columns of `scheduled_occurrence` that a statement reads or a method returns. -/
structure OccurrenceColumns where
  jobId : Uuid
  ownerUserId : String
  scheduledFor : Time
  runNowSubmissionId : Option Uuid := none
  state : OccurrenceState := .pending
  leaseToken : Option Uuid := none
  claimGeneration : ℕ := 0
  leaseOwner : Option String := none
  leaseExpiresAt : Option Time := none
  attemptCount : ℕ := 0
  currentOperationId : Option Uuid := none
  operationExecutionGeneration : Option ℕ := none
  terminalAt : Option Time := none
  nextAttemptAt : Option Time := none
  resultCode : Option String := none
  lastErrorCode : Option String := none
  deriving DecidableEq

/-- `scheduled_occurrence_lease_check` and `scheduled_occurrence_terminal_check`. -/
def OccurrenceColumns.accepted (r : OccurrenceColumns) : Bool :=
  (!r.state.held || (r.leaseToken.isSome && r.leaseOwner.isSome && r.leaseExpiresAt.isSome)) &&
  (!r.state.terminal || r.terminalAt.isSome)

/-- The numbers that a row can hold. -/
def OccurrenceColumns.fits (r : OccurrenceColumns) : Bool :=
  r.claimGeneration ≤ maxBigint && r.attemptCount ≤ maxInteger &&
    r.operationExecutionGeneration.all (· ≤ maxBigint)

/-- A row of `scheduled_occurrence`. -/
structure OccurrenceRow extends OccurrenceColumns where
  isAccepted : toOccurrenceColumns.accepted
  deriving DecidableEq

/-- The row that the materialization of a cadence point inserts. -/
def OccurrenceRow.pending (jobId : Uuid) (ownerId : String) (scheduledFor : Time)
    (submissionId : Option Uuid) : OccurrenceRow :=
  ⟨{ jobId := jobId, ownerUserId := ownerId, scheduledFor := scheduledFor,
     runNowSubmissionId := submissionId }, rfl⟩

/-- The pair that a worker presents is the one in the row. -/
def OccurrenceColumns.current (r : OccurrenceColumns) (generation : ℕ) (token : Uuid) : Bool :=
  r.claimGeneration = generation && r.leaseToken = some token

structure ScheduledOccurrence where
  occurrenceId : Uuid
  row : OccurrenceColumns
  deriving DecidableEq

/-! ## Runs and effects -/

/-- A row of `job_run` beside its key. -/
structure RunColumns where
  jobId : Uuid
  userId : String
  startedAt : ℤ
  endedAt : Option ℤ := none
  outcome : RunOutcome := .running
  authRef : Option String := none
  correlationId : Uuid
  summary : Option String := none
  occurrenceId : Option Uuid := none
  attemptNumber : Option ℕ := none
  operationId : Option Uuid := none
  operationExecutionGeneration : Option ℕ := none
  occurrenceClaimGeneration : Option ℕ := none
  deriving DecidableEq

structure JobRunRecord where
  runId : Uuid
  row : RunColumns
  deriving DecidableEq

/-- The primary key of `effect_ledger`. -/
structure EffectKey where
  occurrenceId : Uuid
  effectKind : String
  effectKey : String
  deriving DecidableEq

/-- Which attempt of an occurrence acts: its operation, the execution of that and its claim. -/
structure Attempt where
  operationId : Option Uuid
  executionGeneration : ℕ
  claimGeneration : ℕ
  deriving DecidableEq

structure EffectColumns where
  payloadDigest : String
  state : EffectState
  attempt : Attempt
  publishedAt : Option Time
  failedAt : Option Time
  failureCode : Option String
  downstreamReceiptDigest : Option String
  deriving DecidableEq

/-- `effect_ledger_terminal_check`. -/
def EffectColumns.accepted (r : EffectColumns) : Bool :=
  match r.state with
  | .reserved => r.publishedAt.isNone && r.failedAt.isNone
  | .published => r.publishedAt.isSome && r.failedAt.isNone
  | .failed => r.publishedAt.isNone && r.failedAt.isSome

/-- A row of `effect_ledger`. -/
structure EffectRow extends EffectColumns where
  isAccepted : toEffectColumns.accepted
  deriving DecidableEq

structure EffectReservationOutcome where
  state : EffectState
  created : Bool
  ambiguous : Bool
  deriving DecidableEq

/-! ## Policies -/

def maxRunsLimit : ℕ := 1000000

def maxOutstandingEpisodesLimit : ℕ := 64

def maxPerEpisodeLimitEntries : ℕ := 32

def maxPerEpisodeLimitValue : ℕ := 2147483647

structure ScheduledJobPolicy where
  jobId : Uuid
  ownerId : String
  version : ℕ
  maxRuns : Option ℕ
  admittedRuns : ℕ
  perEpisodeLimits : List (String × ℕ)
  maxOutstandingEpisodes : ℕ
  monitorChanges : Bool
  definitionRevision : ℕ
  terminalStop : Bool
  lastAssignmentId : Option Uuid
  updatedAt : ℕ
  deriving DecidableEq

def boundedInt (name : String) (value low high : ℕ) : Check :=
  ensure (low ≤ value && value ≤ high)
    (.value (name ++ " must be an integer between " ++ toString low ++ " and " ++ toString high))

/-- The entries of `per_episode_limits`, after the names that were seen. -/
def limitEntries (seen : List String) : List (String × ℕ) → Check
  | [] => pure ()
  | (name, value) :: items => do
    ensure (isSnakeCase 63 name) (.value "per_episode_limits names must be bounded snake_case")
    ensure (name ∉ seen) (.value "per_episode_limits names must be unique")
    boundedInt ("per_episode_limits[" ++ name ++ "]") value 0 maxPerEpisodeLimitValue
    limitEntries (name :: seen) items

/-- `normalize_per_episode_limits`, for a tuple of pairs. -/
def normalizePerEpisodeLimits (items : List (String × ℕ)) : Except Exc (List (String × ℕ)) := do
  ensure (items.length ≤ maxPerEpisodeLimitEntries)
    (.value "per_episode_limits declares too many entries")
  limitEntries [] items
  pure (items.insertionSort fun a b => a.1 ≤ b.1)

/-- `ScheduledJobPolicy.__post_init__`. -/
def ScheduledJobPolicy.validate (p : ScheduledJobPolicy) : Except Exc ScheduledJobPolicy := do
  uuid4 "job_id" p.jobId
  required "owner_id" p.ownerId
  boundedInt "version" p.version 1 maxSafe
  optional p.maxRuns fun runs => boundedInt "max_runs" runs 1 maxRunsLimit
  boundedInt "admitted_runs" p.admittedRuns 0 (p.maxRuns.getD maxRunsLimit)
  let limits ← normalizePerEpisodeLimits p.perEpisodeLimits
  boundedInt "max_outstanding_episodes" p.maxOutstandingEpisodes 1 maxOutstandingEpisodesLimit
  boundedInt "definition_revision" p.definitionRevision 1 maxSafe
  optional p.lastAssignmentId fun assignment => uuid4 "last_assignment_id" assignment
  boundedInt "updated_at" p.updatedAt 0 maxBigint
  pure { p with perEpisodeLimits := limits }

/-- The constraints of `scheduled_job_policy` that a statement of the repository could fail. -/
def ScheduledJobPolicy.accepted (p : ScheduledJobPolicy) : Bool :=
  1 ≤ p.version && p.version ≤ maxSafe && p.maxRuns.all (p.admittedRuns ≤ ·)

/-- The numbers that a row can hold. -/
def ScheduledJobPolicy.fits (p : ScheduledJobPolicy) : Bool :=
  p.admittedRuns ≤ maxInteger && p.updatedAt ≤ maxBigint

/-- A row of `scheduled_job_policy`. -/
structure PolicyRow extends ScheduledJobPolicy where
  isAccepted : toScheduledJobPolicy.accepted
  deriving DecidableEq

/-- A row of `scheduled_occurrence_assignment` beside its key. -/
structure BindingColumns where
  jobId : Uuid
  assignmentId : Uuid
  spend : ℕ
  admittedAt : ℤ
  deriving DecidableEq

structure CreatedBinding where
  occurrenceId : Uuid
  ownerId : String
  columns : BindingColumns
  deriving DecidableEq

/-! ## Conversations -/

/-- What the staged publication reads and writes of a row of `chats`. -/
structure ChatColumns where
  userId : String
  title : String
  agentId : Option String
  updatedAt : ℤ
  renderRevision : ℕ := 0
  snapshotCommittedAt : Option Time := none
  conversationCommitId : Option Uuid := none
  hasSavedComponents : Bool := false
  deriving DecidableEq

inductive CommitState
  | staged | committed | aborted
  deriving DecidableEq

/-- A row of `conversation_commit` beside its key. -/
structure CommitColumns where
  chatId : String
  ownerUserId : String
  requestGeneration : Uuid
  state : CommitState
  baseRenderRevision : ℕ
  operationId : Option Uuid
  operationExecutionGeneration : Option ℕ
  committedRenderRevision : Option ℕ
  committedAt : Option Time
  deriving DecidableEq

structure MessageRow where
  chatId : String
  userId : String
  role : String
  content : String
  timestamp : ℤ
  conversationCommitId : Option Uuid
  commitPosition : Option ℕ
  committedRenderRevision : Option ℕ
  deriving DecidableEq

structure ComponentRow where
  chatId : String
  userId : String
  conversationCommitId : Option Uuid
  committedRenderRevision : Option ℕ
  deriving DecidableEq

structure LayoutRow where
  chatId : String
  userId : String
  layoutKey : String
  position : ℕ
  layout : String
  updatedAt : ℤ
  conversationCommitId : Option Uuid
  committedRenderRevision : Option ℕ
  deriving DecidableEq

structure Conversations where
  chats : Keyed String ChatColumns
  commits : Keyed Uuid CommitColumns
  components : List ComponentRow
  messages : List MessageRow
  layouts : List LayoutRow

/-! ## Tables -/

inductive AssignmentLifecycle
  | active | paused | stopped | completed
  deriving DecidableEq

/-- `_TERMINAL`. -/
def AssignmentLifecycle.isTerminal : AssignmentLifecycle → Bool
  | .active | .paused => false
  | .stopped | .completed => true

/-- The tables of the scheduler, and those of conversations.  `assignments` is what it reads of
    `persistent_assignment`.  The last two fields are no tables: they record, for the statements
    about whole runs, every claim and every binding that a statement has made. -/
structure Store where
  jobs : Keyed Uuid ScheduledJob
  occurrences : Keyed Uuid OccurrenceRow
  runs : Keyed Uuid RunColumns
  effects : Keyed EffectKey EffectRow
  policies : Keyed Uuid PolicyRow
  bindings : Keyed (Uuid × String) BindingColumns
  assignments : Keyed Uuid (String × AssignmentLifecycle)
  conversations : Conversations
  claimsMade : List Uuid
  bindingsMade : List CreatedBinding

def Store.empty : Store := ⟨∅, ∅, ∅, ∅, ∅, ∅, ∅, ⟨∅, ∅, [], [], []⟩, [], []⟩

abbrev Work := Tx Store Exc

def check (c : Check) : Work Unit := Tx.ofExcept c

/-- `clock_timestamp()`, at each of its evaluations in a call. -/
abbrev Clock := ℕ → Time

/-- `int(t.timestamp() * 1000)`. -/
def milliseconds (t : Time) : ℤ := t / 1000

/-- `(EXTRACT(EPOCH FROM t) * 1000)::BIGINT`, which rounds a half away from zero. -/
def epochMilliseconds (t : Time) : ℤ :=
  if 0 ≤ t then (t + 500) / 1000 else -((500 - t) / 1000)

/-- `SELECT * FROM scheduled_job WHERE id = %s AND user_id = %s`. -/
def Store.job (s : Store) (jobId : Uuid) (ownerId : String) : Option ScheduledJob :=
  (s.jobs.lookup jobId).filter (·.ownerId = ownerId)

/-- `SELECT * FROM scheduled_occurrence WHERE occurrence_id = %s AND owner_user_id = %s`. -/
def Store.occurrence (s : Store) (occurrenceId : Uuid) (ownerId : String) : Option OccurrenceRow :=
  (s.occurrences.lookup occurrenceId).filter (·.ownerUserId = ownerId)

/-- `_job`: the row as a `ScheduledJob`. -/
def loadJob (row : ScheduledJob) : Work ScheduledJob := do
  check row.validate
  pure row

/-! ## Statements -/

/-- `UPDATE scheduled_job … WHERE id = %s AND …`; the number of rows. -/
def updateJobSql (jobId : Uuid) (selects : ScheduledJob → Bool)
    (written : ScheduledJob → ScheduledJob) : Work ℕ := do
  let s ← Tx.get
  match (s.jobs.lookup jobId).filter selects with
  | none => pure 0
  | some row => do
    Tx.require (written row).fits (.database "22003")
    Tx.set { s with jobs := s.jobs.insert jobId (written row) }
    pure 1

/-- `UPDATE … WHERE … RETURNING *` by the key of a table, whose rows are columns that its constraints
    accept. -/
def updateSql {κ ρ γ : Type} [DecidableEq κ] (table : Store → Keyed κ ρ)
    (put : Keyed κ ρ → Store → Store) (columns : ρ → γ) (accepted fits : γ → Bool)
    (row : (c : γ) → accepted c = true → ρ) (k : κ) (selects : γ → Bool) (written : γ → γ) :
    Work (Option ρ) := do
  let s ← Tx.get
  match ((table s).lookup k).filter fun r => selects (columns r) with
  | none => pure none
  | some r =>
    if h : accepted (written (columns r)) = true then do
      Tx.require (fits (written (columns r))) (.database "22003")
      Tx.set (put ((table s).insert k (row _ h)) s)
      pure (some (row _ h))
    else Tx.raise (.database "23514")

/-- `UPDATE scheduled_occurrence … WHERE occurrence_id = %s AND … RETURNING *`. -/
def updateOccurrenceSql : Uuid → (OccurrenceColumns → Bool) →
    (OccurrenceColumns → OccurrenceColumns) → Work (Option OccurrenceRow) :=
  updateSql (·.occurrences) (fun t s => { s with occurrences := t }) (·.toOccurrenceColumns)
    (·.accepted) (·.fits) .mk

def OccurrenceColumns.claimedBy (r : OccurrenceColumns) (token : Uuid) (worker : String)
    (expiresAt : Time) : OccurrenceColumns :=
  { r with
    state := .claimed
    leaseToken := some token
    claimGeneration := r.claimGeneration + 1
    leaseOwner := some worker
    leaseExpiresAt := some expiresAt
    attemptCount := r.attemptCount + 1
    currentOperationId := none
    operationExecutionGeneration := none
    terminalAt := none
    nextAttemptAt := none
    resultCode := none }

/-- The statements that claim also record the claim. -/
def claimOccurrenceSql (occurrenceId : Uuid) (selects : OccurrenceColumns → Bool)
    (token : Uuid) (worker : String) (expiresAt : Time) : Work (Option OccurrenceRow) := do
  let row ← updateOccurrenceSql occurrenceId selects (·.claimedBy token worker expiresAt)
  Tx.modify fun s =>
    if row.isSome then { s with claimsMade := s.claimsMade ++ [occurrenceId] } else s
  pure row

/-- Some row has the job and the cadence point. -/
def Store.hasCadencePoint (s : Store) (r : OccurrenceColumns) : Bool :=
  s.occurrences.rows.any fun r' => r'.jobId = r.jobId && r'.scheduledFor = r.scheduledFor

/-- Some row has the submission, of the same owner. -/
def Store.hasSubmission (s : Store) (r : OccurrenceColumns) : Bool :=
  s.occurrences.rows.any fun r' => r.runNowSubmissionId.isSome &&
    r'.ownerUserId = r.ownerUserId && r'.runNowSubmissionId = r.runNowSubmissionId

/-- `INSERT INTO scheduled_occurrence … ON CONFLICT … DO NOTHING RETURNING *`.  Where `anyKey` holds,
    every unique key is meant, otherwise only `(job_id, scheduled_for)`. -/
def insertOccurrenceSql (occurrenceId : Uuid) (row : OccurrenceRow) (anyKey : Bool) :
    Work (Option OccurrenceRow) := do
  let s ← Tx.get
  if s.hasCadencePoint row.toOccurrenceColumns then pure none
  else if (s.occurrences.lookup occurrenceId).isSome || s.hasSubmission row.toOccurrenceColumns then
    if anyKey then pure none else Tx.raise (.database "23505")
  else do
    Tx.set { s with occurrences := s.occurrences.insert occurrenceId row }
    pure (some row)

def requiredOccurrence (occurrenceId : Uuid) (row : Option OccurrenceRow) (message ownerId : String) :
    Work ScheduledOccurrence :=
  match row with
  | none => Tx.raise (.ofOwner ownerId message "stale_occurrence_fence")
  | some row => pure ⟨occurrenceId, row.toOccurrenceColumns⟩

/-- `UPDATE job_run … WHERE … RETURNING id`, by the key of the run. -/
def updateRunSql (selects : Uuid → RunColumns → Bool) (written : RunColumns → RunColumns) :
    Work Bool := do
  let s ← Tx.get
  if s.runs.entries.any fun e => selects e.1 e.2 then do
    Tx.set { s with runs := s.runs.mapRows fun k r => if selects k r then written r else r }
    pure true
  else pure false

end AstralPlane.Scheduler
