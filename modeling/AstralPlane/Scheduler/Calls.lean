/-
  Calls of the scheduler repository, and its runs.

  A call is one method in the caller's transaction.  A caller that catches a
  `ValueError` or `PlaneError` may go on and commit what the method had written
  (`kept`); an error of the database ends the transaction.  A transaction that
  commits is the sequence of its calls, one that is rolled back leaves none.

  `Method.environment` stands for what other repositories do to rows that the
  scheduler refers to: an operation record is purged, an assignment changes its
  lifecycle or is deleted, conversations change.
-/
import AstralPlane.Scheduler.Policy
import AstralPlane.Scheduler.Publication

namespace AstralPlane.Scheduler

/-- A change by another repository. -/
inductive Environment
  /-- `ON DELETE SET NULL` of the references to an operation -/
  | operationPurged (operationId : Uuid)
  /-- the assignment is created, or its lifecycle changes -/
  | assignmentChanged (assignmentId : Uuid) (ownerId : String) (lifecycle : AssignmentLifecycle)
  /-- `ON DELETE CASCADE` of its bindings -/
  | assignmentDeleted (assignmentId : Uuid)
  | conversationsChanged (conversations : Conversations)

/-- The reference without the operation that is purged. -/
def detached (operationId : Uuid) (reference : Option Uuid) : Option Uuid :=
  if reference = some operationId then none else reference

/-- An occurrence without the operation. -/
def OccurrenceRow.detach (r : OccurrenceRow) (operationId : Uuid) : OccurrenceRow :=
  ⟨{ r.toOccurrenceColumns with currentOperationId := detached operationId r.currentOperationId },
    r.isAccepted⟩

/-- An effect without the operation. -/
def EffectRow.detach (r : EffectRow) (operationId : Uuid) : EffectRow :=
  ⟨{ r.toEffectColumns with
      attempt := { r.attempt with operationId := detached operationId r.attempt.operationId } },
    r.isAccepted⟩

def Environment.apply (s : Store) : Environment → Store
  | .operationPurged operationId =>
    { s with
      occurrences := s.occurrences.mapRows fun _ r => r.detach operationId
      effects := s.effects.mapRows fun _ r => r.detach operationId
      runs := s.runs.mapRows fun _ r => { r with operationId := detached operationId r.operationId } }
  | .assignmentChanged assignmentId ownerId lifecycle =>
    -- an assignment keeps its owner
    let owner := ((s.assignments.lookup assignmentId).map Prod.fst).getD ownerId
    { s with assignments := s.assignments.insert assignmentId (owner, lifecycle) }
  | .assignmentDeleted assignmentId =>
    { s with
      assignments := s.assignments.erase assignmentId
      bindings := s.bindings.keep fun _ b => b.assignmentId ≠ assignmentId }
  | .conversationsChanged conversations => { s with conversations := conversations }

inductive Method
  | createJobDefinition (job : ScheduledJob)
  | putJob (job : ScheduledJob)
  | setJobOfflineGrant (ownerId : String) (jobId : Uuid) (grantId : Option Uuid) (updatedAt : ℤ)
  | setJobStatus (ownerId : String) (jobId : Uuid) (status : JobStatus) (updatedAt : ℤ)
  | transitionJobAndListUnstarted (ownerId : String) (jobId : Uuid) (status : JobStatus) (clock : Clock)
  | cancelUnstartedOccurrence (ownerId : String) (occurrenceId : Uuid)
      (expectedOperationId : Option Uuid) (terminalCode : String) (clock : Clock)
  | updateJobAfterRun (jobId : Uuid) (lastRunAt : ℤ) (nextRunAt : Option ℤ) (completed : Bool)
      (updatedAt : ℤ)
  | materializeAndClaimDue (d : DueScan)
  | startLegacyRun (runId jobId : Uuid) (ownerId : String) (correlationId : Uuid) (startedAt : ℤ)
  | finishRun (runId : Uuid) (outcome : RunOutcome) (summary authRef : Option String) (endedAt : ℤ)
  | reconcileInterrupted (endedAt : ℤ)
  | materializeRunNow (ownerId : String) (jobId submissionId : Uuid) (clock : Clock)
      (occurrenceId : Uuid4)
  | createOccurrence (occurrenceId jobId : Uuid) (ownerId : String) (scheduledFor : Time)
  | claimOccurrence (ownerId : String) (occurrenceId : Uuid) (workerId : String) (leaseToken : Uuid)
      (now leaseExpiresAt : Time)
  | renewOccurrenceClaim (c : Claim) (leaseSeconds : ℕ) (clock : Clock)
  | assertCurrentClaim (c : Claim) (states : List OccurrenceState) (clock : Clock)
  | assertClaimJobActive (ownerId : String) (jobId : Uuid)
  | attachOperationToClaim (ownerId : String) (occurrenceId : Uuid) (claimGeneration : ℕ)
      (leaseToken operationId : Uuid) (clock : Clock)
  | startClaimAttempt (a : AttemptStart) (clock : Clock)
  | markClaimRetryable (c : Claim) (attemptNumber : ℕ) (operationId : Option Uuid)
      (operationExecutionGeneration : Option ℕ) (errorCode : String) (retryAfterSeconds : ℕ)
      (clock : Clock)
  | finishClaimAttempt (t : Settlement) (clock : Clock)
  | reserveEffect (e : EffectAttempt) (recoverReserved : Bool) (clock : Clock)
  | publishReservedEffect (e : EffectAttempt) (downstreamReceiptDigest : Option String) (clock : Clock)
  | failReservedEffect (e : EffectAttempt) (failureCode : String) (clock : Clock)
  | publishStagedChatEffect (claim : Claim) (operationId : Uuid) (operationExecutionGeneration : ℕ)
      (effectKey payloadDigest : String) (publication : StagedChatPublication) (clock : Clock)
  | putJobPolicy (policy : ScheduledJobPolicy) (expectedVersion : ℕ)
  | admitAssignmentEpisode (e : Episode) (clock : Clock)
  | stopAssignmentJob (ownerId : String) (jobId : Uuid) (expectedVersion : ℕ) (stoppedAt : ℤ)
      (clock : Clock)
  | environment (change : Environment)

/-- What a call returns that a later statement is about. -/
inductive Reply
  | done
  | effect (outcome : EffectReservationOutcome)
  | admission (outcome : EpisodeAdmission)
  | batch (batch : DueClaimBatch)
  deriving DecidableEq

/-- A body whose result is of no concern. -/
def quietly {α : Type} (x : Work α) : Work Reply := do
  let _ ← x
  pure .done

def exec : Method → Work Reply
  | .createJobDefinition job => quietly (createJobDefinition job)
  | .putJob job => quietly (putJob job)
  | .setJobOfflineGrant owner job grant at_ => quietly (setJobOfflineGrant owner job grant at_)
  | .setJobStatus owner job status at_ => quietly (setJobStatus owner job status at_)
  | .transitionJobAndListUnstarted owner job status clock =>
    quietly (transitionJobAndListUnstarted owner job status clock)
  | .cancelUnstartedOccurrence owner occurrence operation code clock =>
    quietly (cancelUnstartedOccurrence owner occurrence operation code clock)
  | .updateJobAfterRun job last next completed at_ =>
    quietly (updateJobAfterRunForAdministration job last next completed at_)
  | .materializeAndClaimDue d => do
    let batch ← materializeAndClaimDueForAdministration d
    pure (.batch batch)
  | .startLegacyRun run job owner correlation at_ =>
    quietly (startLegacyRun run job owner correlation at_)
  | .finishRun run outcome summary ref at_ =>
    quietly (finishRunForAdministration run outcome summary ref at_)
  | .reconcileInterrupted at_ => quietly (reconcileInterruptedForAdministration at_)
  | .materializeRunNow owner job submission clock occurrence =>
    quietly (materializeRunNow owner job submission clock occurrence)
  | .createOccurrence occurrence job owner at_ => quietly (createOccurrence occurrence job owner at_)
  | .claimOccurrence owner occurrence worker token now expires =>
    quietly (claimOccurrence owner occurrence worker token now expires)
  | .renewOccurrenceClaim c seconds clock => quietly (renewOccurrenceClaim c seconds clock)
  | .assertCurrentClaim c states clock => quietly (assertCurrentClaim c states (clock 0))
  | .assertClaimJobActive owner job => quietly (assertClaimJobActive owner job)
  | .attachOperationToClaim owner occurrence generation token operation clock =>
    quietly (attachOperationToClaim owner occurrence generation token operation clock)
  | .startClaimAttempt a clock => quietly (startClaimAttempt a clock)
  | .markClaimRetryable c attempt operation generation code seconds clock =>
    quietly (markClaimRetryable c attempt operation generation code seconds clock)
  | .finishClaimAttempt t clock => quietly (finishClaimAttempt t clock)
  | .reserveEffect e recover clock => do
    let outcome ← reserveEffectForAttempt e recover clock
    pure (.effect outcome)
  | .publishReservedEffect e receipt clock => do
    let outcome ← publishReservedEffect e receipt clock
    pure (.effect outcome)
  | .failReservedEffect e code clock => do
    let outcome ← failReservedEffect e code clock
    pure (.effect outcome)
  | .publishStagedChatEffect claim operation generation key payload publication clock => do
    let outcome ← publishStagedChatEffect claim operation generation key payload publication clock
    pure (.effect outcome)
  | .putJobPolicy policy version => quietly (putJobPolicy policy version)
  | .admitAssignmentEpisode e clock => do
    let outcome ← admitAssignmentEpisode e clock
    pure (.admission outcome)
  | .stopAssignmentJob owner job version at_ clock =>
    quietly (stopAssignmentJob owner job version at_ clock)
  | .environment change => quietly (Tx.modify change.apply)

structure Call where
  method : Method
  kept : Bool

def Store.step (call : Call) (s : Store) : Store :=
  match exec call.method s with
  | (.ok _, s') => s'
  | (.error e, s') => if call.kept && !e.aborts then s' else s

/-- What the call returns, if it does. -/
def Store.reply (call : Call) (s : Store) : Except Exc Reply := (exec call.method s).1

def Store.run (calls : List Call) (s : Store) : Store := AstralPlane.run Store.step calls s

end AstralPlane.Scheduler
