/-
  The boot lifecycle (`database/bootstrap.py`): initializers of one identity and
  the state that they share.

  Every call of `initialize` runs in a thread of its own, and the threads meet
  only in the shared state, which they read and write under its condition.
  `act` is the next stretch of one thread: a critical section, the return of a
  runner, or an interrupt.  A thread that waits for the condition may wake at any
  time and looks at the status again, so waiting is the same place in the code as
  arriving.  A run is any list of such stretches by any threads.
-/
import AstralPlane.Migrations.Model
import AstralPlane.Reconciliation.Model

namespace AstralPlane.Boot

open Migrations (MigrationReport)

/-- What is raised: `SchemaRevisionError`, `InitializationError`, an `Exception` of a runner by the
    name of its type, or an interrupt. -/
inductive Exc
  | schemaRevision (message : String)
  | initialization (message : String) (metadata : List (String × String))
  | exception (typeName : String)
  | interrupt
  deriving DecidableEq

/-- `type(exc).__name__`. -/
def Exc.typeName : Exc → String
  | .schemaRevision _ => "SchemaRevisionError"
  | .initialization _ _ => "InitializationError"
  | .exception name => name
  | .interrupt => "KeyboardInterrupt"

/-- `BootStatus`. -/
inductive Status
  | new | running | ready | failed
  deriving DecidableEq, Repr

/-- `InitializationFailure`. -/
structure Failure where
  errorType : String
  message : String
  deriving DecidableEq

/-- `InitializationReport`. -/
structure Report where
  identity : String
  expectedRevision : String
  migration : MigrationReport
  reconciliation : Reconciliation.Report
  deriving DecidableEq

/-- `_SharedBootState`, but for its condition. -/
structure Shared where
  status : Status := .new
  expectedRevision : Option String := none
  planDigest : Option String := none
  report : Option Report := none
  failure : Option Failure := none
  deriving DecidableEq

/-- The boot plan that a call of `initialize` asks for. -/
structure Request where
  expected : String
  planDigest : String
  deriving DecidableEq

/-- The report is the one of the request. -/
def Report.Answers (r : Report) (q : Request) : Prop :=
  r.expectedRevision = q.expected ∧ r.reconciliation.planDigest = q.planDigest

/-! ## Critical sections -/

def Shared.holds (sh : Shared) (q : Request) : Bool :=
  sh.expectedRevision == some q.expected && sh.planDigest == some q.planDigest

/-- Where a thread stands in `initialize`. -/
inductive Pc
  /-- Outside of it. -/
  | idle
  /-- Before the condition, or waiting for it. -/
  | calling (q : Request)
  /-- The status is `running`, and the `try` block has not been entered. -/
  | started (q : Request)
  /-- In the migration runner. -/
  | migrating (q : Request)
  /-- In the reconciler. -/
  | reconciling (q : Request) (migration : MigrationReport)
  /-- Before the section that publishes the report. -/
  | publishing (q : Request) (report : Report)
  /-- In the handler of an `Exception`. -/
  | failing (e : Exc)
  /-- Before the section of the `finally` clause. -/
  | unwinding (e : Exc)
  | returned (q : Request) (report : Report)
  | raised (e : Exc)
  deriving DecidableEq

def Pc.isRest : Pc → Bool
  | .idle | .returned _ _ | .raised _ => true
  | _ => false

def Shared.raiseFailed (identity : String) (sh : Shared) : Exc :=
  .initialization "a prior explicit boot initialization failed"
    [("identity", identity), ("error_type", (sh.failure.map (·.errorType)).getD "unknown")]

/-- The first section of `initialize`, from the top of its loop. -/
def Shared.enter (identity : String) (sh : Shared) (q : Request) : Shared × Pc :=
  match sh.status with
  | .running =>
    if sh.holds q then (sh, .calling q)
    else (sh, .raised (.schemaRevision "concurrent initializer requested a different boot plan"))
  | .ready =>
    if sh.holds q then
      match sh.report with
      | some report => (sh, .returned q report)
      | none => (sh, .raised (.exception "AssertionError"))
    else (sh, .raised (.schemaRevision
      "initialized data plane does not match the requested boot plan"))
  | .failed => (sh, .raised (sh.raiseFailed identity))
  | .new =>
    ({ sh with
      status := .running
      expectedRevision := some q.expected
      planDigest := some q.planDigest
      failure := none }, .started q)

/-- The section that publishes the report. -/
def Shared.publish (sh : Shared) (report : Report) : Shared :=
  { sh with status := .ready, report := some report, failure := none }

def Shared.publishFailure (sh : Shared) (errorType : String) : Shared :=
  { sh with
    status := .failed
    failure := some ⟨errorType, "initialization attempt failed"⟩
    report := none }

/-- The section of the `finally` clause, for an attempt that is not complete. -/
def Shared.unwind (sh : Shared) : Shared :=
  if sh.status = .running then sh.publishFailure "InterruptedInitialization" else sh

def Shared.resetFailed (sh : Shared) : Except Exc Bool × Shared :=
  match sh.status with
  | .running => (.error (.initialization "cannot reset an initializer while it is running" []), sh)
  | .failed => (.ok true, {})
  | .new | .ready => (.ok false, sh)

/-! ## The runners -/

/-- `initialize` up to its first section: the revision and the digest of the plan. -/
def request (expectedRevision : String) (planDigest : Except String String) : Except Exc Request :=
  if isRevision expectedRevision then
    match planDigest with
    | .error name => .error (.exception name)
    | .ok digest =>
      if isSha256 digest then .ok ⟨expectedRevision, digest⟩
      else .error (.initialization "reconciliation runner returned an invalid plan digest" [])
  else .error (.schemaRevision "expected revision must be a canonical numeric revision")

/-- What follows the migration runner. -/
def migrated (q : Request) : Except String MigrationReport → Pc
  | .error name => .failing (.exception name)
  | .ok migration =>
    if migration.targetRevision = q.expected then .reconciling q migration
    else .failing (.initialization "migration runner returned the wrong target revision"
      [("expected", q.expected), ("observed", migration.targetRevision)])

/-- The reconciliation report proves the plan of the request complete. -/
def Request.proves (q : Request) (r : Reconciliation.Report) : Bool :=
  r.schemaRevision == q.expected && r.planDigest == q.planDigest &&
    r.advisoryLock == Reconciliation.advisoryLock && r.durablyComplete && !r.hooks.isEmpty

/-- What follows the reconciler. -/
def reconciled (identity : String) (q : Request) (migration : MigrationReport) :
    Except String Reconciliation.Report → Pc
  | .error name => .failing (.exception name)
  | .ok r =>
    if q.proves r then .publishing q ⟨identity, q.expected, migration, r⟩
    else .failing (.initialization
      "reconciliation runner did not prove the required durable plan complete" [])

/-! ## Threads -/

/-- The next stretch of a thread.  A call brings the digest that its reconciler computes, the return
    of a runner its report or the type of its exception. -/
inductive Move
  | call (expectedRevision : String) (planDigest : Except String String)
  | enter
  | begin
  | migrated (outcome : Except String MigrationReport)
  | reconciled (outcome : Except String Reconciliation.Report)
  | publish
  | fail
  | unwind
  | interrupt
  | reset

/-- Where an interrupt takes a thread: past the handler to the `finally` clause, if it is in the `try`
    block; otherwise out of the call. -/
def Pc.interrupted : Pc → Pc
  | .calling _ | .started _ | .unwinding _ => .raised .interrupt
  | .migrating _ | .reconciling _ _ | .publishing _ _ | .failing _ => .unwinding .interrupt
  | pc => pc

/-- A thread that makes a call. -/
def Pc.called (pc : Pc) : Except Exc Request → Pc
  | .ok q => if pc.isRest then .calling q else pc
  | .error e => if pc.isRest then .raised e else pc

/-- One stretch of a thread; a move that is not the next one of the thread does nothing. -/
def act (identity : String) : Move → Shared → Pc → Shared × Pc
  | .call expectedRevision planDigest, sh, pc =>
    (sh, pc.called (request expectedRevision planDigest))
  | .enter, sh, .calling q => sh.enter identity q
  | .begin, sh, .started q => (sh, .migrating q)
  | .migrated outcome, sh, .migrating q => (sh, migrated q outcome)
  | .reconciled outcome, sh, .reconciling q migration =>
    (sh, reconciled identity q migration outcome)
  | .publish, sh, .publishing q report => (sh.publish report, .returned q report)
  | .fail, sh, .failing e => (sh.publishFailure e.typeName, .unwinding e)
  | .unwind, sh, .unwinding e => (sh.unwind, .raised e)
  | .interrupt, sh, pc => (sh, pc.interrupted)
  | .reset, sh, pc => (if pc.isRest then sh.resetFailed.2 else sh, pc)
  | _, sh, pc => (sh, pc)

/-- The shared state, and where every thread stands. -/
structure State (Thread : Type) where
  shared : Shared := {}
  pc : Thread → Pc := fun _ => .idle

section
variable {Thread : Type} [DecidableEq Thread] (identity : String)

def step (a : Thread × Move) (s : State Thread) : State Thread :=
  let next := act identity a.2 s.shared (s.pc a.1)
  ⟨next.1, Function.update s.pc a.1 next.2⟩

/-- The state after the moves, from a fresh registry. -/
def after (moves : List (Thread × Move)) : State Thread := run (step identity) moves {}

end

/-- The thread is in the migration runner or in the reconciler. -/
def Pc.executes : Pc → Bool
  | .migrating _ | .reconciling _ _ => true
  | _ => false

/-- The thread is between the section that set `running` and the end of its attempt. -/
def Pc.inAttempt : Pc → Bool
  | .started _ | .migrating _ | .reconciling _ _ | .publishing _ _ | .failing _ | .unwinding _ => true
  | _ => false

/-- The plan that the attempt of the thread is working on. -/
def Pc.attempt : Pc → Option Request
  | .started q | .migrating q | .reconciling q _ | .publishing q _ => some q
  | _ => none

def Pc.isUnwinding : Pc → Bool
  | .unwinding _ => true
  | _ => false

end AstralPlane.Boot
