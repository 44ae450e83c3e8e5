/-
  Definitions and the due scan.

  `materializeAndClaimDue` is the method that drives the scheduler: it turns the
  due cadence points of definitions into occurrences, moves the cadence on as the
  host's callback says, and claims the occurrences that are due.  Both scans go
  on where the last call stopped and take the owners in turn (`scanRows`,
  `rotateOwners`).  `FOR UPDATE SKIP LOCKED` passes over the rows that another
  transaction has locked; a call is given their keys as `locked`.
-/
import AstralPlane.Scheduler.Model

namespace AstralPlane.Scheduler

open Tx

/-! ## Definitions -/

/-- The row under the id of a definition must be the definition. -/
def sameDefinition (job row : ScheduledJob) : Work Unit := do
  let conflict := Exc.ofOwner job.ownerId "scheduled job identity has conflicting semantics"
    "scheduled_job_conflict"
  require (row.ownerId = job.ownerId) conflict
  let row ← loadJob row
  require (row = job) conflict

/-- `create_job_definition`; `put_job` leaves the columns it does not insert at their defaults. -/
def createJobDefinition (job : ScheduledJob) : Work ScheduledJob := do
  check job.validate
  let s ← Tx.get
  match s.jobs.lookup job.jobId with
  | none =>
    require job.fits (.database "22003")
    Tx.set { s with jobs := s.jobs.insert job.jobId job }
    pure job
  | some row =>
    sameDefinition job row
    pure job

def putJob (job : ScheduledJob) : Work ScheduledJob := do
  check job.validate
  let inserted := { job with
    agentId := none, consentedScopes := [], delivery := "in_app", targetChatId := none,
    lastRunAt := none, offlineGrantId := none }
  let s ← Tx.get
  match s.jobs.lookup job.jobId with
  | none =>
    require job.fits (.database "22003")
    Tx.set { s with jobs := s.jobs.insert job.jobId inserted }
    sameDefinition job inserted
    pure job
  | some row =>
    sameDefinition job row
    pure job

def setJobOfflineGrant (ownerId : String) (jobId : Uuid) (grantId : Option Uuid) (updatedAt : ℤ) :
    Work Bool := do
  check (required "owner_id" ownerId)
  check (uuid4 "job_id" jobId)
  check (optional grantId (uuid "grant_id"))
  check (millisecond "updated_at" updatedAt)
  let rowcount ← updateJobSql jobId (·.ownerId = ownerId) fun j =>
    { j with offlineGrantId := grantId, updatedAt := updatedAt }
  pure (rowcount = 1)

def setJobStatus (ownerId : String) (jobId : Uuid) (status : JobStatus) (updatedAt : ℤ) :
    Work Bool := do
  check (required "owner_id" ownerId)
  check (uuid4 "job_id" jobId)
  check (millisecond "updated_at" updatedAt)
  let rowcount ← updateJobSql jobId (·.ownerId = ownerId) fun j =>
    { j with status := status, updatedAt := updatedAt }
  pure (rowcount = 1)

/-- The unstarted occurrences of a definition, by their ids. -/
def Store.unstarted (s : Store) (jobId : Uuid) (ownerId : String) : List ScheduledOccurrence :=
  let rows := s.occurrences.entries.filter fun e =>
    e.2.jobId = jobId && e.2.ownerUserId = ownerId && (s.job jobId ownerId).isSome &&
      e.2.state.unstarted
  (rows.map fun e => ⟨e.1, e.2.toOccurrenceColumns⟩).insertionSort
    fun a b => a.occurrenceId.int ≤ b.occurrenceId.int

def transitionJobAndListUnstarted (ownerId : String) (jobId : Uuid) (status : JobStatus)
    (clock : Clock) : Work (Option (List ScheduledOccurrence)) := do
  check (required "owner_id" ownerId)
  check (uuid4 "job_id" jobId)
  check (ensure (status = .paused || status = .disabled)
    (.value "cancelling unstarted occurrences requires paused or disabled"))
  let s ← Tx.get
  match s.job jobId ownerId with
  | none => pure none
  | some _ => do
    let rowcount ← updateJobSql jobId (·.ownerId = ownerId) fun j =>
      { j with status := status, updatedAt := epochMilliseconds (clock 0) }
    require (rowcount = 1) (.ofOwner ownerId "scheduled definition status fence was lost"
      "scheduled_job_status_conflict")
    let s ← Tx.get
    pure (some (s.unstarted jobId ownerId))

def updateJobAfterRunForAdministration (jobId : Uuid) (lastRunAt : ℤ) (nextRunAt : Option ℤ)
    (completed : Bool) (updatedAt : ℤ) : Work Bool := do
  check (uuid4 "job_id" jobId)
  check (millisecond "last_run_at" lastRunAt)
  check (optional nextRunAt (millisecond "next_run_at"))
  check (millisecond "updated_at" updatedAt)
  let rowcount ← updateJobSql jobId (fun _ => true) fun j =>
    { j with
      status := if completed then .completed else j.status
      lastRunAt := some lastRunAt
      nextRunAt := nextRunAt
      updatedAt := updatedAt }
  pure (rowcount = 1)

/-! ## Scans -/

/-- Where the scans of the last call stopped. -/
structure DueScanContinuation where
  definition : Option (ℤ × Uuid) := none
  occurrence : Option (Time × Uuid) := none
  definitionOwner : Option String := none
  occurrenceOwner : Option String := none
  deriving DecidableEq

/-- `DueScanContinuation.__post_init__`. -/
def DueScanContinuation.validate (c : DueScanContinuation) : Check := do
  optional c.definition fun position => do
    millisecond "definition scan timestamp" position.1
    ensure (position.1 ≤ maxBigint) (.value "definition scan timestamp exceeds storage range")
    uuid4 "scan identifier" position.2
  optional c.occurrence fun position => uuid4 "scan identifier" position.2
  optional c.definitionOwner fun owner => required "scan owner" owner
  optional c.occurrenceOwner fun owner => required "scan owner" owner

/-- The order of a scan: by the time, then by the id. -/
def positionLe (a b : ℤ × Uuid) : Prop := a.1 < b.1 ∨ a.1 = b.1 ∧ a.2.int ≤ b.2.int

instance (a b : ℤ × Uuid) : Decidable (positionLe a b) :=
  inferInstanceAs (Decidable (_ ∨ _ ∧ _))

/-- `SELECT … ORDER BY position LIMIT n`. -/
def orderedRows {α : Type} (position : α → ℤ × Uuid) (n : ℕ) (rows : List α) : List α :=
  (rows.insertionSort fun a b => positionLe (position a) (position b)).take n

/-- `_scan_rows`: from the position on, and from the start for what is left of the limit. -/
def scanRows {α : Type} (position : α → ℤ × Uuid) (start : Option (ℤ × Uuid)) (n : ℕ)
    (rows : List α) : List α :=
  match start with
  | none => orderedRows position n rows
  | some p =>
    let after := orderedRows position n (rows.filter fun r => ¬ positionLe (position r) p)
    if after.length < n then
      after ++ orderedRows position (n - after.length) (rows.filter fun r => positionLe (position r) p)
    else after

/-- The turns of the owners in the ring, each with its candidates that are left. -/
def takeTurns {α : Type} : ℕ → List (String × List α) → Option String → List α × Option String
  | 0, _, last => ([], last)
  | _, [], last => ([], last)
  | n + 1, (_, []) :: ring, last => takeTurns n ring last
  | n + 1, (owner, c :: cs) :: ring, _ =>
    let (selected, last) := takeTurns n (if cs.isEmpty then ring else ring ++ [(owner, cs)]) (some owner)
    (c :: selected, last)

/-- `_rotate_owners`: the candidates of the owners in turn, from the owner after the last one on. -/
def rotateOwners {α : Type} (ownerOf : α → String) (candidates : List α) (n : ℕ)
    (lastOwner : Option String) : List α × Option String :=
  let owners := (candidates.map ownerOf).dedup.insertionSort (· ≤ ·)
  let owners := match lastOwner with
    | none => owners
    | some last => owners.filter (last < ·) ++ owners.filter (· ≤ last)
  takeTurns n (owners.map fun owner => (owner, candidates.filter (ownerOf · = owner))) lastOwner

/-! ## The due scan -/

def Store.dueJobs (s : Store) (locked : List Uuid) (observedMs : ℤ) : List ScheduledJob :=
  s.jobs.rows.filter fun j => j.status = .active && j.nextRunAt.any (· ≤ observedMs) &&
    j.jobId ∉ locked

/-- A definition's place in the scan. -/
def ScheduledJob.position (j : ScheduledJob) : ℤ × Uuid := (j.nextRunAt.getD 0, j.jobId)

/-- An occurrence with its definition, as the second scan reads them. -/
structure Candidate where
  occurrenceId : Uuid
  row : OccurrenceRow
  job : ScheduledJob

def Candidate.position (c : Candidate) : ℤ × Uuid := (c.row.scheduledFor, c.occurrenceId)

/-- The definition is one whose occurrences the scan claims. -/
def ScheduledJob.scanned (j : ScheduledJob) : Bool :=
  j.status = .active || (j.status = .completed && j.scheduleKind = .oneShot)

/-- The occurrence can be claimed at the observed time. -/
def OccurrenceColumns.due (r : OccurrenceColumns) (observedAt : Time) : Bool :=
  match r.state with
  | .pending => r.scheduledFor ≤ observedAt
  | .retryable => r.nextAttemptAt.all (· ≤ observedAt)
  | .claimed | .running => r.leaseExpiresAt.any (· ≤ observedAt)
  | .completed | .failed | .cancelled => false

/-- The occurrences that can be claimed, with their definitions. -/
def Store.candidates (s : Store) (locked : List Uuid) (observedAt : Time) : List Candidate :=
  s.occurrences.entries.filterMap fun e =>
    match s.jobs.lookup e.2.jobId with
    | none => none
    | some job =>
      if job.scanned && e.2.due observedAt && e.1 ∉ locked then some ⟨e.1, e.2, job⟩ else none

/-- The arguments of the due scan, with the identifiers that the call draws. -/
structure DueScan where
  instanceId : String
  limit : ℕ
  leaseSeconds : ℕ
  eligible : ScheduledJob → Bool
  nextRun : ScheduledJob → ℤ → Option ℤ
  continuation : DueScanContinuation := {}
  scanLimit : Option ℕ := none
  clock : Clock
  occurrenceIds : ℕ → Uuid4
  leaseTokens : ℕ → Uuid4
  lockedJobs : List Uuid := []
  lockedOccurrences : List Uuid := []

def DueScan.observedAt (d : DueScan) : Time := d.clock 0

def DueScan.observedMs (d : DueScan) : ℤ := milliseconds d.observedAt

/-- `scan_limit`, with its default. -/
def DueScan.window (d : DueScan) : ℕ := d.scanLimit.getD (min 1000 (max 32 (d.limit * 4)))

/-- A cadence point becomes an occurrence, and the cadence moves on. -/
def materialize (d : DueScan) (n : ℕ) (job : ScheduledJob) : Work Unit :=
  match job.nextRunAt with
  | none => raise (.ofOwner job.ownerId "locked due definition has no cadence timestamp"
      "scheduler_record_invalid")
  | some scheduledMs => do
    let _ ← insertOccurrenceSql (d.occurrenceIds n).val
      (.pending job.jobId job.ownerId (scheduledMs * 1000) none) false
    let following := d.nextRun job scheduledMs
    check (optional following fun next => do
      millisecond "next_run callback result" next
      ensure (scheduledMs < next) (.value "next_run callback must advance the cadence"))
    let completed := job.scheduleKind = .oneShot || following.isNone
    let advanced ← updateJobSql job.jobId
      (fun j => j.ownerId = job.ownerId && j.nextRunAt = some scheduledMs) fun j =>
      { j with
        nextRunAt := following
        status := if completed then .completed else j.status
        updatedAt := max j.updatedAt d.observedMs }
    require (advanced = 1) (.ofOwner job.ownerId "scheduled cadence advancement lost its definition fence"
      "scheduled_job_cadence_conflict")

structure ClaimedOccurrenceRecord where
  occurrence : ScheduledOccurrence
  job : ScheduledJob
  parentOperationId : Option Uuid
  deriving DecidableEq

/-- One of the selected occurrences is claimed. -/
def claimCandidate (d : DueScan) (n : ℕ) (c : Candidate) : Work ClaimedOccurrenceRecord := do
  let claimed ← claimOccurrenceSql c.occurrenceId
    (fun r => r.ownerUserId = c.row.ownerUserId && r.claimGeneration = c.row.claimGeneration &&
      r.state = c.row.state)
    (d.leaseTokens n).val d.instanceId (d.observedAt + d.leaseSeconds * second)
  match claimed with
  | none => raise (.ofOwner c.row.ownerUserId "scheduled occurrence claim lost its locked state fence"
      "stale_occurrence_fence")
  | some row =>
    pure ⟨⟨c.occurrenceId, row.toOccurrenceColumns⟩, c.job, c.row.currentOperationId⟩

structure DueClaimBatch where
  claims : List ClaimedOccurrenceRecord
  recoveredAttempts : List Uuid
  ineligibleJobIds : List Uuid
  continuation : DueScanContinuation
  deriving DecidableEq

def DueScan.validate (d : DueScan) : Check := do
  Scheduler.instanceId d.instanceId
  Scheduler.limit d.limit
  Scheduler.limit d.window
  d.continuation.validate
  Scheduler.leaseSeconds d.leaseSeconds

/-- Every definition that a scan has read must load. -/
def loadAll (jobs : List ScheduledJob) : Work Unit := Tx.each (fun j => do let _ ← loadJob j) jobs

/-- The due definitions that the call looks at. -/
def DueScan.dueRows (d : DueScan) (s : Store) : List ScheduledJob :=
  scanRows ScheduledJob.position d.continuation.definition d.window (s.dueJobs d.lockedJobs d.observedMs)

/-- Those whose cadence it moves on, and the owner that was last in turn. -/
def DueScan.dueTurns (d : DueScan) (s : Store) : List ScheduledJob × Option String :=
  rotateOwners ScheduledJob.ownerId ((d.dueRows s).filter d.eligible) d.limit
    d.continuation.definitionOwner

/-- The first half of the call: the definitions. -/
def materializeDue (d : DueScan) : Work (List ScheduledJob × Option String) := do
  let s ← Tx.get
  loadAll (d.dueRows s)
  Tx.each (fun p => materialize d p.2 p.1) (d.dueTurns s).1.zipIdx
  pure (d.dueRows s, (d.dueTurns s).2)

/-- The occurrences that the call looks at. -/
def DueScan.candidateRows (d : DueScan) (s : Store) : List Candidate :=
  scanRows Candidate.position d.continuation.occurrence d.window
    (s.candidates d.lockedOccurrences d.observedAt)

/-- Those that it claims, and the owner that was last in turn. -/
def DueScan.claimTurns (d : DueScan) (s : Store) : List Candidate × Option String :=
  rotateOwners (fun c => c.job.ownerId) ((d.candidateRows s).filter fun c => d.eligible c.job) d.limit
    d.continuation.occurrenceOwner

/-- The second half: the occurrences. -/
def claimDue (d : DueScan) : Work (List Candidate × List ClaimedOccurrenceRecord × Option String) := do
  let s ← Tx.get
  loadAll ((d.candidateRows s).map Candidate.job)
  let claims ← Tx.collect (fun p => claimCandidate d p.2 p.1) (d.claimTurns s).1.zipIdx
  pure (d.candidateRows s, claims, (d.claimTurns s).2)

/-- What the call returns, from what its halves have read and done; the next call goes on where the
    windows ended. -/
def DueScan.batch (d : DueScan) (due : List ScheduledJob × Option String)
    (claimed : List Candidate × List ClaimedOccurrenceRecord × Option String) : DueClaimBatch :=
  let ineligible := (due.1.filter (!d.eligible ·)).map ScheduledJob.jobId
  let alsoIneligible := ((claimed.1.map Candidate.job).filter (!d.eligible ·)).map ScheduledJob.jobId
  { claims := claimed.2.1
    recoveredAttempts := claimed.2.1.filterMap (·.parentOperationId)
    ineligibleJobIds := ineligible ++ (alsoIneligible.filter (· ∉ ineligible)).reverse.dedup.reverse
    continuation :=
      { definition := (due.1.getLast?.map ScheduledJob.position) <|> d.continuation.definition
        occurrence := (claimed.1.getLast?.map Candidate.position) <|> d.continuation.occurrence
        definitionOwner := due.2
        occurrenceOwner := claimed.2.2 } }

def materializeAndClaimDueForAdministration (d : DueScan) : Work DueClaimBatch := do
  check d.validate
  let due ← materializeDue d
  let claimed ← claimDue d
  check (d.batch due claimed).continuation.validate
  pure (d.batch due claimed)

/-! ## Occurrences on demand -/

structure RunNowMaterialization where
  occurrenceId : Uuid
  jobId : Uuid
  ownerId : String
  scheduledFor : Time
  state : OccurrenceState
  created : Bool
  deriving DecidableEq

def runNow (occurrenceId : Uuid) (row : OccurrenceRow) (created : Bool) : RunNowMaterialization :=
  ⟨occurrenceId, row.jobId, row.ownerUserId, row.scheduledFor, row.state, created⟩

/-- The occurrence of a submission. -/
def Store.submitted (s : Store) (ownerId : String) (submissionId : Uuid) :
    Option (Sigma fun _ : Uuid => OccurrenceRow) :=
  s.occurrences.entries.find? fun e =>
    e.2.ownerUserId = ownerId && e.2.runNowSubmissionId = some submissionId

/-- The occurrence that the submission has already. -/
def replayRunNow (ownerId : String) (jobId : Uuid) (e : Sigma fun _ : Uuid => OccurrenceRow) :
    Work RunNowMaterialization := do
  require (e.2.jobId = jobId) (.ofOwner ownerId "run-now submission identity conflicts with another job"
      "scheduled_run_now_idempotency_conflict")
  pure (runNow e.1 e.2 false)

/-- The insertion, at one microsecond earlier after each collision. -/
def insertRunNow (ownerId : String) (jobId submissionId occurrenceId : Uuid) (scheduledFor : Time) :
    ℕ → Work RunNowMaterialization
  | 0 => raise (.ofOwner ownerId "run-now timestamp collision budget was exhausted"
      "scheduled_run_now_timestamp_conflict")
  | budget + 1 => do
    match ← insertOccurrenceSql occurrenceId (.pending jobId ownerId scheduledFor (some submissionId))
        true with
    | some row => pure (runNow occurrenceId row true)
    | none => do
      let s ← Tx.get
      match s.submitted ownerId submissionId with
      | some existing => replayRunNow ownerId jobId existing
      | none => insertRunNow ownerId jobId submissionId occurrenceId (scheduledFor - 1) budget

def materializeRunNow (ownerId : String) (jobId submissionId : Uuid) (clock : Clock)
    (occurrenceId : Uuid4) : Work RunNowMaterialization := do
  check (required "owner_id" ownerId)
  check (uuid4 "job_id" jobId)
  check (uuid4 "submission_id" submissionId)
  let s ← Tx.get
  match s.job jobId ownerId with
  | none => raise (.ofOwner ownerId "scheduled job was not found"
      "scheduled_job_not_found")
  | some job =>
    match s.submitted ownerId submissionId with
    | some existing => replayRunNow ownerId jobId existing
    | none => do
      require (job.status = .active) (.ofOwner ownerId "scheduled job is not active"
      "scheduled_job_not_active")
      insertRunNow ownerId jobId submissionId occurrenceId.val (clock 0) 32

/-- `INSERT INTO scheduled_occurrence … SELECT … FROM scheduled_job WHERE id = %s AND user_id = %s`. -/
def insertOfJobSql (occurrenceId jobId : Uuid) (ownerId : String) (scheduledFor : Time) :
    Work (Option OccurrenceRow) := do
  let s ← Tx.get
  if (s.job jobId ownerId).isSome then
    insertOccurrenceSql occurrenceId (.pending jobId ownerId scheduledFor none) false
  else pure none

def createOccurrence (occurrenceId jobId : Uuid) (ownerId : String) (scheduledFor : Time) :
    Work ScheduledOccurrence := do
  check (uuid4 "occurrence_id" occurrenceId)
  check (uuid4 "job_id" jobId)
  check (required "owner_id" ownerId)
  match ← insertOfJobSql occurrenceId jobId ownerId scheduledFor with
  | some row => pure ⟨occurrenceId, row.toOccurrenceColumns⟩
  | none => do
    let s ← Tx.get
    match s.occurrences.entries.find? fun e => e.2.jobId = jobId && e.2.ownerUserId = ownerId &&
        e.2.scheduledFor = scheduledFor with
    | some e => pure ⟨e.1, e.2.toOccurrenceColumns⟩
    | none => raise (.ofOwner ownerId "scheduled occurrence owner or job was not found"
      "scheduled_occurrence_not_found")

/-! ## Cancellation -/

def cancelUnstartedOccurrence (ownerId : String) (occurrenceId : Uuid)
    (expectedOperationId : Option Uuid) (terminalCode : String) (clock : Clock) : Work Bool := do
  check (required "owner_id" ownerId)
  check (uuid4 "occurrence_id" occurrenceId)
  check (optional expectedOperationId (uuid4 "expected_operation_id"))
  check (boundedCode "terminal_code" terminalCode)
  let row ← updateOccurrenceSql occurrenceId
    (fun r => r.ownerUserId = ownerId && r.currentOperationId = expectedOperationId &&
      r.state.unstarted) fun r =>
    { r with
      state := .cancelled
      leaseToken := none
      leaseOwner := none
      leaseExpiresAt := none
      nextAttemptAt := none
      terminalAt := some (clock 0)
      resultCode := some terminalCode
      lastErrorCode := some terminalCode }
  if row.isSome then pure true
  else do
    let s ← Tx.get
    match (s.occurrence occurrenceId ownerId).filter (·.state.unstarted) with
    | none => pure false
    | some current => do
      require (current.currentOperationId = expectedOperationId)
        (.ofOwner ownerId "scheduled occurrence operation changed during cancellation"
      "scheduled_occurrence_operation_conflict")
      raise (.ofOwner ownerId "scheduled occurrence cancellation lost its state fence"
      "stale_occurrence_fence")

end AstralPlane.Scheduler
