/-
  Claims, attempts and the effect ledger.

  A worker presents its claim (generation, lease token, lease owner) with every
  call; `assertCurrentClaim` is what most methods check it with, the others have
  it in the condition of their statement.  An attempt starts a run, reserves and
  publishes effects, and ends the occurrence or gives it back.
-/
import AstralPlane.Scheduler.Model

namespace AstralPlane.Scheduler

open Tx

/-! ## Claims -/

def claimOccurrence (ownerId : String) (occurrenceId : Uuid) (workerId : String) (leaseToken : Uuid)
    (now leaseExpiresAt : Time) : Work ScheduledOccurrence := do
  check (required "owner_id" ownerId)
  check (uuid4 "occurrence_id" occurrenceId)
  check (required "worker_id" workerId)
  check (uuid4 "lease_token" leaseToken)
  check (ensure (now < leaseExpiresAt) (.value "occurrence lease must expire after now"))
  let row ← claimOccurrenceSql occurrenceId
    (fun r => r.ownerUserId = ownerId &&
      (((r.state = .pending || r.state = .retryable) && r.scheduledFor ≤ now &&
        r.nextAttemptAt.all (· ≤ now)) ||
       (r.state.held && r.leaseExpiresAt.any (· ≤ now))))
    leaseToken workerId leaseExpiresAt
  requiredOccurrence occurrenceId row "occurrence claim was denied" ownerId

def renewOccurrenceClaim (c : Claim) (leaseSeconds : ℕ) (clock : Clock) : Work (Option Time) := do
  check (claimIdentity c)
  check (Scheduler.leaseSeconds leaseSeconds)
  let row ← updateOccurrenceSql c.occurrenceId
    (fun r => r.ownerUserId = c.ownerId && r.current c.claimGeneration c.leaseToken &&
      r.leaseOwner = some c.leaseOwner && r.state.held && r.leaseExpiresAt.any (clock 0 < ·))
    fun r => { r with leaseExpiresAt := some (clock 1 + leaseSeconds * second) }
  pure (row.bind (·.leaseExpiresAt))

/-- The row is held under the claim, in one of the states, and its lease has not run out. -/
def OccurrenceColumns.heldBy (r : OccurrenceColumns) (c : Claim) (states : List OccurrenceState)
    (now : Time) : Bool :=
  r.current c.claimGeneration c.leaseToken &&
  -- `str(None)` is a text like any other
  r.leaseOwner.getD "None" = c.leaseOwner &&
  r.state ∈ states && r.leaseExpiresAt.any (now < ·)

def assertCurrentClaim (c : Claim) (states : List OccurrenceState) (now : Time) :
    Work OccurrenceRow := do
  check (claimIdentity c)
  check (ensure (states ≠ [] && states.length ≤ 2 && states.all OccurrenceState.held)
    (.value "claim states must contain claimed and/or running"))
  let s ← Tx.get
  match s.occurrence c.occurrenceId c.ownerId with
  | none => raise (.plane "scheduled occurrence claim is stale" "stale_occurrence_claim"
      [("owner_id", some c.ownerId), ("terminal_code", none)])
  | some row => do
    require (row.heldBy c states now)
      (.plane "scheduled occurrence claim is stale" "stale_occurrence_claim"
        [("owner_id", some c.ownerId),
         ("terminal_code", if row.state = .cancelled then row.resultCode else none)])
    pure row

/-- The code of an occurrence that was cancelled with its definition. -/
def terminalCodeOf : JobStatus → Option String
  | .paused => some "cancelled_job_paused"
  | .disabled => some "cancelled_job_deleted"
  | .active | .expired | .completed => none

def assertClaimJobActive (ownerId : String) (jobId : Uuid) : Work ScheduledJob := do
  check (required "owner_id" ownerId)
  check (uuid4 "job_id" jobId)
  let s ← Tx.get
  match s.job jobId ownerId with
  | none => raise (.plane "scheduled claim definition is not executable" "stale_occurrence_claim"
      [("owner_id", some ownerId), ("terminal_code", none)])
  | some row => do
    require (row.status = .active || row.status = .completed)
      (.plane "scheduled claim definition is not executable" "stale_occurrence_claim"
        [("owner_id", some ownerId), ("terminal_code", terminalCodeOf row.status)])
    loadJob row

def attachOperationToClaim (ownerId : String) (occurrenceId : Uuid) (claimGeneration : ℕ)
    (leaseToken operationId : Uuid) (clock : Clock) : Work ScheduledOccurrence := do
  check (required "owner_id" ownerId)
  check (uuid4 "occurrence_id" occurrenceId)
  check (uuid4 "lease_token" leaseToken)
  check (uuid4 "operation_id" operationId)
  check (ensure (0 < claimGeneration) (.value "claim_generation must be positive"))
  let row ← updateOccurrenceSql occurrenceId
    (fun r => r.ownerUserId = ownerId && r.current claimGeneration leaseToken &&
      r.state = .claimed && r.leaseExpiresAt.any (clock 0 < ·) &&
      (r.currentOperationId = none || r.currentOperationId = some operationId))
    fun r => { r with currentOperationId := some operationId }
  requiredOccurrence occurrenceId row
    "scheduled occurrence operation attachment lost its claim fence" ownerId

/-! ## Runs -/

/-- `INSERT INTO job_run … ON CONFLICT (occurrence_id, attempt_number) … DO NOTHING RETURNING *`. -/
def insertAttemptRunSql (runId : Uuid) (row : RunColumns) : Work (Option JobRunRecord) := do
  let s ← Tx.get
  if s.runs.rows.any fun r => r.occurrenceId.isSome && r.occurrenceId = row.occurrenceId &&
      r.attemptNumber = row.attemptNumber then pure none
  else do
    require (s.runs.lookup runId).isNone (.database "23505")
    require (row.attemptNumber.all (· ≤ maxInteger) &&
      row.operationExecutionGeneration.all (· ≤ maxBigint) &&
      row.occurrenceClaimGeneration.all (· ≤ maxBigint)) (.database "22003")
    Tx.set { s with runs := s.runs.insert runId row }
    pure (some ⟨runId, row⟩)

/-- What `start_claim_attempt` is given. -/
structure AttemptStart where
  ownerId : String
  jobId : Uuid
  occurrenceId : Uuid
  attemptNumber : ℕ
  claimGeneration : ℕ
  leaseToken : Uuid
  operationId : Uuid
  operationExecutionGeneration : ℕ
  runId : Uuid
  correlationId : Uuid
  leaseSeconds : ℕ
  deriving DecidableEq

def AttemptStart.validate (a : AttemptStart) : Check := do
  required "owner_id" a.ownerId
  uuid4 "job_id" a.jobId
  uuid4 "occurrence_id" a.occurrenceId
  uuid4 "lease_token" a.leaseToken
  uuid4 "operation_id" a.operationId
  uuid4 "run_id" a.runId
  uuid4 "correlation_id" a.correlationId
  ensure (0 < a.attemptNumber && 0 < a.claimGeneration && 0 < a.operationExecutionGeneration)
    (.value "attempt and execution generations must be positive")
  Scheduler.leaseSeconds a.leaseSeconds

def startClaimAttempt (a : AttemptStart) (clock : Clock) : Work JobRunRecord := do
  check a.validate
  let occurrence ← updateOccurrenceSql a.occurrenceId
    (fun r => r.ownerUserId = a.ownerId && r.current a.claimGeneration a.leaseToken &&
      r.currentOperationId = some a.operationId && r.state = .claimed &&
      r.leaseExpiresAt.any (clock 0 < ·))
    fun r => { r with
      state := .running
      operationExecutionGeneration := some a.operationExecutionGeneration
      leaseExpiresAt := some (clock 1 + a.leaseSeconds * second) }
  require occurrence.isSome (.ofOwner a.ownerId "scheduled occurrence start lost its claim fence"
    "stale_occurrence_claim")
  let inserted ← insertAttemptRunSql a.runId {
    jobId := a.jobId
    userId := a.ownerId
    startedAt := epochMilliseconds (clock 2)
    correlationId := a.correlationId
    occurrenceId := some a.occurrenceId
    attemptNumber := some a.attemptNumber
    operationId := some a.operationId
    operationExecutionGeneration := some a.operationExecutionGeneration
    occurrenceClaimGeneration := some a.claimGeneration }
  let s ← Tx.get
  let row := inserted <|> (s.runs.entries.find? fun e => e.2.occurrenceId = some a.occurrenceId &&
    e.2.attemptNumber = some a.attemptNumber).map fun e => ⟨e.1, e.2⟩
  match row with
  | none => raise (.ofOwner a.ownerId "scheduled occurrence run row is missing"
      "scheduler_record_invalid")
  | some record => do
    require (record.row.userId = a.ownerId && record.row.jobId = a.jobId &&
        record.row.operationId = some a.operationId &&
        record.row.operationExecutionGeneration = some a.operationExecutionGeneration &&
        record.row.occurrenceClaimGeneration = some a.claimGeneration)
      (.ofOwner a.ownerId "scheduled run replay conflicts with the execution fence"
        "scheduled_run_fence_conflict")
    pure record

def startLegacyRun (runId jobId : Uuid) (ownerId : String) (correlationId : Uuid) (startedAt : ℤ) :
    Work JobRunRecord := do
  check (uuid4 "run_id" runId)
  check (uuid4 "job_id" jobId)
  check (required "owner_id" ownerId)
  check (uuid "correlation_id" correlationId)
  check (millisecond "started_at" startedAt)
  let s ← Tx.get
  match s.runs.lookup runId, s.job jobId ownerId with
  | none, some job => do
    require (isBigint startedAt) (.database "22003")
    let row : RunColumns :=
      { jobId := job.jobId, userId := job.ownerId, startedAt := startedAt, correlationId := correlationId }
    Tx.set { s with runs := s.runs.insert runId row }
    pure ⟨runId, row⟩
  | some row, _ => do
    require (row.jobId = jobId && row.userId = ownerId)
      (.ofOwner ownerId "scheduled job was not found for run creation" "scheduled_job_not_found")
    require (row.startedAt = startedAt && row.correlationId = correlationId)
      (.ofOwner ownerId "scheduled run identity has conflicting semantics" "scheduled_run_conflict")
    pure ⟨runId, row⟩
  | none, none => raise (.ofOwner ownerId "scheduled job was not found for run creation"
      "scheduled_job_not_found")

/-- The outcomes that a caller may report. -/
def RunOutcome.settled : RunOutcome → Bool
  | .running => false
  | .success | .failure | .interrupted | .skippedAuth => true

/-- The checks of what is reported about a run. -/
def reportChecks (summary authRef : Option String) : Check := do
  ensure (summary.all (·.length ≤ 2000)) (.value "summary exceeds 2000 characters")
  optional authRef fun ref => required "auth_ref" ref 512

def finishRunForAdministration (runId : Uuid) (outcome : RunOutcome) (summary authRef : Option String)
    (endedAt : ℤ) : Work Bool := do
  check (uuid4 "run_id" runId)
  check (ensure outcome.settled (.value "unsupported scheduled run outcome"))
  check (reportChecks summary authRef)
  check (millisecond "ended_at" endedAt)
  require (isBigint endedAt) (.database "22003")
  updateRunSql (fun k _ => k = runId) fun r =>
    { r with endedAt := some endedAt, outcome := outcome, summary := summary, authRef := authRef }

def reconcileInterruptedForAdministration (endedAt : ℤ) : Work ℕ := do
  check (millisecond "ended_at" endedAt)
  require (isBigint endedAt) (.database "22003")
  let s ← Tx.get
  let _ ← updateRunSql (fun _ r => r.outcome = .running) fun r =>
    { r with outcome := .interrupted, endedAt := some endedAt }
  pure (s.runs.rows.countP (·.outcome = .running))

/-! ## Settlement -/

/-- The operation of an attempt and its execution, which are given together. -/
def operationPair (operationId : Option Uuid) (generation : Option ℕ) : Check := do
  ensure (operationId.isNone = generation.isNone)
    (.value "operation identity and generation are all-or-none")
  optional operationId (uuid4 "operation_id")
  ensure (generation.all (0 < ·)) (.value "operation_execution_generation must be positive")

/-- The run of an attempt, while it is running. -/
def RunColumns.ofAttempt (r : RunColumns) (occurrenceId : Uuid) (attemptNumber : ℕ)
    (operationId : Uuid) (executionGeneration claimGeneration : ℕ) : Bool :=
  r.occurrenceId = some occurrenceId && r.attemptNumber = some attemptNumber &&
    r.operationId = some operationId && r.operationExecutionGeneration = some executionGeneration &&
    r.occurrenceClaimGeneration = some claimGeneration && r.outcome = .running

/-- A worker that gives back a running occurrence also ends its run. -/
def interruptRun (c : Claim) (current : OccurrenceRow) (attemptNumber : ℕ) (operationId : Option Uuid)
    (operationExecutionGeneration : Option ℕ) (endedAt : ℤ) : Work Unit :=
  if current.state = .running then
    match operationId, operationExecutionGeneration with
    | some operation, some generation => do
      require (current.currentOperationId = some operation &&
          current.operationExecutionGeneration = some generation)
        (.ofOwner c.ownerId "running occurrence has a conflicting operation identity"
          "scheduled_run_fence_conflict")
      let interrupted ← updateRunSql
        (fun _ r => r.ofAttempt c.occurrenceId attemptNumber operation generation c.claimGeneration)
        fun r => { r with outcome := .interrupted, endedAt := some endedAt }
      require interrupted (.ofOwner c.ownerId "running occurrence has no current job run"
        "scheduler_record_invalid")
    | _, _ => raise (.ofOwner c.ownerId "running occurrence has a conflicting operation identity"
        "scheduled_run_fence_conflict")
  else pure ()

def markClaimRetryable (c : Claim) (attemptNumber : ℕ) (operationId : Option Uuid)
    (operationExecutionGeneration : Option ℕ) (errorCode : String) (retryAfterSeconds : ℕ)
    (clock : Clock) : Work ScheduledOccurrence := do
  check (required "owner_id" c.ownerId)
  check (uuid4 "occurrence_id" c.occurrenceId)
  check (uuid4 "lease_token" c.leaseToken)
  check (ensure (0 < attemptNumber && 0 < c.claimGeneration)
    (.value "attempt_number and claim_generation must be positive"))
  check (operationPair operationId operationExecutionGeneration)
  check (boundedCode "error_code" errorCode 64)
  check (ensure (retryAfterSeconds ≤ 86400) (.value "retry_after_seconds is out of range"))
  let current ← assertCurrentClaim c [.claimed, .running] (clock 0)
  interruptRun c current attemptNumber operationId operationExecutionGeneration
    (epochMilliseconds (clock 1))
  let row ← updateOccurrenceSql c.occurrenceId
    (fun r => r.ownerUserId = c.ownerId && r.current c.claimGeneration c.leaseToken) fun r =>
    { r with
      state := .retryable
      leaseToken := none
      leaseOwner := none
      leaseExpiresAt := none
      nextAttemptAt := some (clock 2 + retryAfterSeconds * second)
      lastErrorCode := some errorCode }
  requiredOccurrence c.occurrenceId row "scheduled retry transition lost its claim fence" c.ownerId

/-- What `finish_claim_attempt` is given. -/
structure Settlement where
  claim : Claim
  jobId : Uuid
  attemptNumber : ℕ
  operationId : Uuid
  operationExecutionGeneration : ℕ
  runId : Uuid
  jobOutcome : RunOutcome
  occurrenceState : OccurrenceState
  safeCode : String
  summary : Option String
  authRef : Option String
  retryAfterSeconds : ℕ
  deriving DecidableEq

/-- The states that a settlement can end an attempt in. -/
def OccurrenceState.settles : OccurrenceState → Bool
  | .completed | .failed | .retryable => true
  | .pending | .claimed | .running | .cancelled => false

def Settlement.validate (t : Settlement) : Check := do
  required "owner_id" t.claim.ownerId
  uuid4 "job_id" t.jobId
  uuid4 "occurrence_id" t.claim.occurrenceId
  uuid4 "lease_token" t.claim.leaseToken
  instanceId t.claim.leaseOwner
  uuid4 "operation_id" t.operationId
  uuid4 "run_id" t.runId
  ensure (0 < t.attemptNumber && 0 < t.claim.claimGeneration && 0 < t.operationExecutionGeneration)
    (.value "attempt and execution generations must be positive")
  ensure t.jobOutcome.settled (.value "unsupported job run outcome")
  ensure t.occurrenceState.settles (.value "unsupported occurrence settlement state")
  boundedCode "safe_code" t.safeCode 64
  reportChecks t.summary t.authRef
  ensure (t.retryAfterSeconds ≤ 86400) (.value "retry_after_seconds is out of range")

def finishClaimAttempt (t : Settlement) (clock : Clock) : Work ScheduledOccurrence := do
  check t.validate
  let current ← assertCurrentClaim t.claim [.running] (clock 0)
  require (current.jobId = t.jobId && current.currentOperationId = some t.operationId &&
      current.operationExecutionGeneration = some t.operationExecutionGeneration)
    (.ofOwner t.claim.ownerId "scheduled settlement authority differs from the running occurrence"
      "stale_occurrence_claim")
  let run ← updateRunSql
    (fun k r => k = t.runId && r.jobId = t.jobId && r.userId = t.claim.ownerId &&
      r.ofAttempt t.claim.occurrenceId t.attemptNumber t.operationId t.operationExecutionGeneration
        t.claim.claimGeneration)
    fun r => { r with
      endedAt := some (epochMilliseconds (clock 1))
      outcome := t.jobOutcome
      summary := t.summary
      authRef := t.authRef }
  require run (.ofOwner t.claim.ownerId "scheduled job run is no longer running"
    "scheduled_run_fence_conflict")
  let row ← updateOccurrenceSql t.claim.occurrenceId
    (fun r => r.ownerUserId = t.claim.ownerId &&
      r.current t.claim.claimGeneration t.claim.leaseToken &&
      r.currentOperationId = some t.operationId &&
      r.operationExecutionGeneration = some t.operationExecutionGeneration && r.state = .running)
    fun r => { r with
      state := t.occurrenceState
      leaseToken := none
      leaseOwner := none
      leaseExpiresAt := none
      terminalAt := if t.occurrenceState.terminal then some (clock 2) else none
      nextAttemptAt := if t.occurrenceState = .retryable then
        some (clock 2 + t.retryAfterSeconds * second) else none
      resultCode := if t.occurrenceState = .completed then some t.safeCode else none
      lastErrorCode := if t.occurrenceState ≠ .completed then some t.safeCode else none }
  requiredOccurrence t.claim.occurrenceId row "scheduled occurrence settlement lost its claim fence"
    t.claim.ownerId

/-! ## Effects -/

/-- An attempt that acts on an effect of its occurrence. -/
structure EffectAttempt where
  claim : Claim
  operationId : Uuid
  operationExecutionGeneration : ℕ
  effectKind : String
  effectKey : String
  payloadDigest : String
  deriving DecidableEq

def EffectAttempt.key (e : EffectAttempt) : EffectKey :=
  ⟨e.claim.occurrenceId, e.effectKind, e.effectKey⟩

def EffectAttempt.attempt (e : EffectAttempt) : Attempt :=
  ⟨some e.operationId, e.operationExecutionGeneration, e.claim.claimGeneration⟩

/-- `_validate_effect_attempt`; the reservation makes the same checks. -/
def validateEffectAttempt (e : EffectAttempt) (now : Time) : Work OccurrenceRow := do
  check (claimIdentity e.claim)
  check (uuid4 "operation_id" e.operationId)
  check (ensure (0 < e.operationExecutionGeneration)
    (.value "operation_execution_generation must be positive"))
  check (boundedCode "effect_kind" e.effectKind 64)
  check (required "effect_key" e.effectKey 256)
  check (digest "payload_digest" e.payloadDigest)
  let current ← assertCurrentClaim e.claim [.running] now
  require (current.currentOperationId = some e.operationId &&
      current.operationExecutionGeneration = some e.operationExecutionGeneration)
    (.ofOwner e.claim.ownerId "effect authority differs from the running occurrence"
      "stale_occurrence_claim")
  pure current

/-- `UPDATE effect_ledger … WHERE occurrence_id = %s AND effect_kind = %s AND effect_key = %s AND …`. -/
def updateEffectSql : EffectKey → (EffectColumns → Bool) → (EffectColumns → EffectColumns) →
    Work (Option EffectRow) :=
  updateSql (·.effects) (fun t s => { s with effects := t }) (·.toEffectColumns) (·.accepted)
    (fun r => r.attempt.executionGeneration ≤ maxBigint && r.attempt.claimGeneration ≤ maxBigint) .mk

def EffectRow.reserve (payloadDigest : String) (attempt : Attempt) : EffectRow :=
  ⟨⟨payloadDigest, .reserved, attempt, none, none, none, none⟩, rfl⟩

def reserveEffectForAttempt (e : EffectAttempt) (recoverReserved : Bool) (clock : Clock) :
    Work EffectReservationOutcome := do
  let _ ← validateEffectAttempt e (clock 0)
  let s ← Tx.get
  match s.effects.lookup e.key with
  | none => do
    require (e.operationExecutionGeneration ≤ maxBigint) (.database "22003")
    Tx.set { s with effects := s.effects.insert e.key (.reserve e.payloadDigest e.attempt) }
    pure ⟨.reserved, true, false⟩
  | some existing => do
    require (existing.payloadDigest = e.payloadDigest)
      (.ofOwner e.claim.ownerId "effect key was reused with another payload"
        "effect_idempotency_conflict")
    if existing.state = .failed || (recoverReserved && existing.state = .reserved) then do
      let updated ← updateEffectSql e.key (fun r => r.state = .reserved || r.state = .failed) fun r =>
        { r with
          state := .reserved
          attempt := e.attempt
          publishedAt := none
          failedAt := none
          failureCode := none
          downstreamReceiptDigest := none }
      require updated.isSome (.ofOwner e.claim.ownerId "effect recovery lost its locked state fence"
        "effect_reservation_conflict")
      pure ⟨.reserved, existing.state = .failed, false⟩
    else pure ⟨existing.state, false, existing.state = .reserved && existing.attempt ≠ e.attempt⟩

/-- The reservation that an attempt owns. -/
def EffectColumns.ownedBy (r : EffectColumns) (e : EffectAttempt) : Bool :=
  r.payloadDigest = e.payloadDigest && r.state = .reserved && r.attempt = e.attempt

def publishReservedEffect (e : EffectAttempt) (downstreamReceiptDigest : Option String)
    (clock : Clock) : Work EffectReservationOutcome := do
  let _ ← validateEffectAttempt e (clock 0)
  check (optional downstreamReceiptDigest (digest "downstream_receipt_digest"))
  let s ← Tx.get
  match s.effects.lookup e.key with
  | none => raise (.ofOwner e.claim.ownerId "effect reservation was not found"
      "effect_reservation_not_found")
  | some existing => do
    require (existing.payloadDigest = e.payloadDigest)
      (.ofOwner e.claim.ownerId "effect key was reused with another payload"
        "effect_idempotency_conflict")
    if existing.state = .published then pure ⟨.published, false, false⟩
    else do
      require (existing.state = .reserved && existing.attempt = e.attempt)
        (.ofOwner e.claim.ownerId "effect reservation belongs to another attempt"
          "effect_reservation_conflict")
      let updated ← updateEffectSql e.key (·.ownedBy e) fun r =>
        { r with
          state := .published
          publishedAt := some (clock 1)
          failedAt := none
          failureCode := none
          downstreamReceiptDigest := downstreamReceiptDigest }
      require updated.isSome (.ofOwner e.claim.ownerId "effect publication lost its reservation fence"
        "effect_reservation_conflict")
      pure ⟨.published, false, false⟩

def failReservedEffect (e : EffectAttempt) (failureCode : String) (clock : Clock) :
    Work EffectReservationOutcome := do
  let _ ← validateEffectAttempt e (clock 0)
  check (boundedCode "failure_code" failureCode 64)
  let row ← updateEffectSql e.key (·.ownedBy e) fun r =>
    { r with
      state := .failed
      failedAt := some (clock 1)
      publishedAt := none
      failureCode := some failureCode }
  require row.isSome (.ofOwner e.claim.ownerId "effect failure transition lost its reservation fence"
    "effect_reservation_conflict")
  pure ⟨.failed, false, false⟩

end AstralPlane.Scheduler
