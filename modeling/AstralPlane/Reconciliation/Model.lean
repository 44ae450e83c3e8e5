/-
  Reconciliation hooks and their durable markers (`reconciliation.py`,
  `reconciliation_store.py`, table `astralplane_reconciliation_marker`).

  A run takes the advisory lock, goes through the hooks of its plan in order and
  keeps a marker for each: started before the hook is invoked, completed or
  failed after it.  Every change of a marker is a transaction of its own.

  Whatever the driver and the hooks do is given to a run as lists of `Fault`s and
  `Outcome`s, one for each call in order.  A call of the driver may raise; a
  commit that raises may have taken effect or not; any call may be the last one
  of the process (`Exc.crash`).  The lock makes runs follow each other.  The log
  keeps the markers that were committed and the hooks that were invoked.
-/
import AstralPlane.Rows
import AstralPlane.Migrations.Revision
import AstralPlane.Python.Json

namespace AstralPlane.Reconciliation

open Python

/-! ## Values -/

/-- What is raised: `ReconciliationError`, `SchemaRevisionError` or another `Exception` by the name of
    its type; `KeyboardInterrupt` or `SystemExit`; another `BaseException`; or the process ends. -/
inductive Exc where
  | reconciliation (message : String) (metadata : List (String × String))
  | schemaRevision (message : String)
  | exception (typeName : String)
  | exit
  | base
  | crash
deriving DecidableEq

/-- `isinstance(exc, Exception)`. -/
def Exc.isException : Exc → Bool
  | .reconciliation _ _ | .schemaRevision _ | .exception _ => true
  | .exit | .base | .crash => false

/-- `type(exc).__name__`. -/
def Exc.typeName : Exc → String
  | .reconciliation _ _ => "ReconciliationError"
  | .schemaRevision _ => "SchemaRevisionError"
  | .exception name => name
  | .exit | .base | .crash => "BaseException"

/-- `^[A-Za-z0-9][A-Za-z0-9._-]{0,127}$`. -/
def isSafeIdentity (s : String) : Bool :=
  match s.toList with
  | [] => false
  | c :: cs => c.isAlphanum && cs.length ≤ 127 &&
      cs.all fun d => d.isAlphanum || d == '.' || d == '_' || d == '-'

structure HookIdentity where
  name : String
  version : String
deriving DecidableEq

def HookIdentity.isSafe (h : HookIdentity) : Bool := isSafeIdentity h.name && isSafeIdentity h.version

/-- The metadata of an error about a hook. -/
def HookIdentity.metadata (h : HookIdentity) : List (String × String) :=
  [("hook", h.name), ("version", h.version)]

structure Plan where
  schemaRevision : String
  planDigest : String
  hooks : List HookIdentity
deriving DecidableEq

/-- The primary key of a marker. -/
structure Key where
  schemaRevision : String
  planDigest : String
  hook : HookIdentity
deriving DecidableEq

def Plan.key (p : Plan) (hook : HookIdentity) : Key := ⟨p.schemaRevision, p.planDigest, hook⟩

/-- The state of a marker with the columns that `astralplane_reconciliation_state_shape_check` lets
    it have. -/
inductive MarkerState where
  | started
  | completed (resultDigest : String)
  | failed (errorType : String)
deriving DecidableEq

inductive StateName where
  | started
  | completed
  | failed
deriving DecidableEq

def StateName.value : StateName → String
  | .started => "started"
  | .completed => "completed"
  | .failed => "failed"

def MarkerState.name : MarkerState → StateName
  | .started => .started
  | .completed _ => .completed
  | .failed _ => .failed

structure Marker where
  key : Key
  state : MarkerState
  attempt : ℕ
  attempt_pos : 1 ≤ attempt
deriving DecidableEq

def Marker.isCompleted (m : Marker) : Bool := m.state.name == .completed

/-! ## Digests -/

def canonicalPlanDigest (sha256 : Bytes → String) (schemaRevision : String)
    (hooks : List HookIdentity) : String :=
  let document := Value.obj [
    (ofString "hooks", .arr (hooks.map fun hook => .obj [
      (ofString "name", .str (ofString hook.name)),
      (ofString "version", .str (ofString hook.version))])),
    (ofString "schemaRevision", .str (ofString schemaRevision))]
  sha256 ((encode (dumps true document)).getD [])

/-- What a hook returns: nothing, a mapping, or something else.  A key that is not a string, and a
    value that JSON does not have, are `none`. -/
inductive HookResult where
  | nothing
  | mapping (fields : List (Option Text × Option Value))
  | other

def resultDigest (sha256 : Bytes → String) : HookResult → Except Exc String
  | .nothing => .ok (sha256 ((encode (dumps false (.obj []))).getD []))
  | .other => .error (.reconciliation "reconciliation hook result must be a mapping" [])
  | .mapping fields => do
    ensure (fields.all fun f => f.1.any fun key => !key.isEmpty)
      (.reconciliation "reconciliation hook result keys must be non-empty strings" [])
    let refused := Exc.reconciliation "reconciliation hook result must be canonical JSON metadata" []
    ensure (fields.all fun f => f.2.isSome) refused
    let value := Value.obj (fields.map fun f => (f.1.getD [], f.2.getD .null))
    match encode (dumps false value) with
    | some bytes => .ok (sha256 bytes)
    | none => .error refused

/-! ## The store -/

/-- How a call of the driver ends; of a commit that raises, whether it took effect. -/
structure Fault where
  raised : Option Exc
  effective : Bool

inductive Outcome where
  | raises (e : Exc)
  | returns (result : HookResult)

inductive Event where
  | committed (marker : Marker)
  | invoked (key : Key) (attempt : ℕ)
deriving DecidableEq

structure State where
  markers : List Marker
  active : Bool
  faults : List Fault
  outcomes : List Outcome
  log : List Event

abbrev Code := Tx State Exc

/-- How the next call of the driver ends. -/
def nextFault : Code Fault := fun s =>
  match s.faults with
  | [] => (.ok ⟨none, true⟩, s)
  | f :: faults => (.ok f, { s with faults := faults })

def discard : Code Unit := .modify fun s => { s with active := false }

def rollbackAfterFailure : Code Unit := do
  match (← nextFault).raised with
  | none => pure ()
  | some .crash => .raise .crash
  | some _ => discard

/-- `raise` of what a call raised, where all but a `ReconciliationError` and an exit is wrapped. -/
def wrapped (message : String) : Exc → Exc
  | .reconciliation m metadata => .reconciliation m metadata
  | .exit => .exit
  | .crash => .crash
  | .schemaRevision _ | .exception _ | .base => .reconciliation message []

/-- As `wrapped`, but a `ReconciliationError` is wrapped as well. -/
def rewrapped (message : String) : Exc → Exc
  | .exit => .exit
  | .crash => .crash
  | .reconciliation _ _ | .schemaRevision _ | .exception _ | .base => .reconciliation message []

def requireActive : Code Unit := do
  let s ← Tx.get
  Tx.require s.active (.reconciliation "reconciliation session is no longer active" [])

/-- `_read_row`: a statement on the markers. -/
def readRow {α : Type} (statement : List Marker → Except Exc α) (action : String) : Code α := do
  requireActive
  let fault ← nextFault
  let s ← Tx.get
  match fault.raised with
  | some e => do
    rollbackAfterFailure
    .raise (wrapped ("reconciliation marker " ++ action ++ " failed") e)
  | none =>
    match statement s.markers with
    | .error e => do
      rollbackAfterFailure
      .raise (wrapped ("reconciliation marker " ++ action ++ " failed") e)
    | .ok a => pure a

/-- `_marker_from_row`; the constraints of the table leave only these checks. -/
def markerFromRow (m : Marker) : Except Exc Unit := do
  validateRevision .schemaRevision m.key.schemaRevision "reconciliation marker schema revision"
  ensure (isSha256 m.key.planDigest)
    (.reconciliation "reconciliation marker plan digest must be a lowercase SHA-256 digest" [])
  ensure m.key.hook.isSafe
    (.reconciliation "reconciliation hook name and version must be bounded identifiers" [])
  match m.state with
  | .started => pure ()
  | .completed digest =>
    ensure (isSha256 digest) (.reconciliation "completed reconciliation marker is malformed" [])
  | .failed errorType =>
    ensure (isSafeIdentity errorType)
      (.reconciliation "failed reconciliation marker is malformed" [])

/-- A transaction on the marker of a key; `none` if no row was affected. -/
abbrev Transition := List Marker → Except Exc (Option (List Marker × Marker))

def State.commit (markers : List Marker) (marker : Marker) (s : State) : State :=
  { s with markers := markers, log := s.log ++ [.committed marker] }

/-- The end of `_commit_marker`: the commit itself. -/
def commitRow (markers : List Marker) (marker : Marker) (action : String) : Code Marker := do
  let fault ← nextFault
  match fault.raised with
  | none => do
    .modify (State.commit markers marker)
    pure marker
  | some e => do
    .modify (if fault.effective then State.commit markers marker else id)
    rollbackAfterFailure
    discard
    .raise (rewrapped ("reconciliation marker " ++ action ++ " could not be committed durably") e)

def commitMarker (key : Key) (transition : Transition) (expected : StateName) (action : String) :
    Code Marker := do
  match ← readRow transition action with
  | none => do
    rollbackAfterFailure
    .raise (.reconciliation ("reconciliation marker cannot transition to " ++ expected.value)
      key.hook.metadata)
  | some (markers, marker) =>
    match markerFromRow marker with
    | .error e => do
      rollbackAfterFailure
      .raise (wrapped ("reconciliation marker " ++ action ++ " returned invalid data") e)
    | .ok () =>
      if marker.key ≠ key ∨ marker.state.name ≠ expected then do
        rollbackAfterFailure
        .raise (.reconciliation
          "reconciliation marker transition did not preserve its exact identity" [])
      else commitRow markers marker action

def validateHook (hook : HookIdentity) : Except Exc Unit :=
  ensure hook.isSafe
    (.reconciliation "reconciliation hook name and version must be bounded identifiers" [])

def validateDigest (value field : String) : Except Exc Unit :=
  ensure (isSha256 value) (.reconciliation (field ++ " must be a lowercase SHA-256 digest") [])

/-! ### Statements -/

/-- The `WHERE` of `_MARK_STARTED_SQL`. -/
def Marker.canStart (m : Marker) : Bool :=
  match m.state with
  | .started => true
  | .failed errorType => isSafeIdentity errorType
  | .completed _ => false

def Marker.restart (m : Marker) : Marker := { m with
  state := .started
  attempt := m.attempt + 1
  attempt_pos := Nat.succ_pos _ }

def markStartedSql (key : Key) : Transition := fun markers =>
  match markers.find? fun m => m.key = key with
  | none =>
    let marker : Marker := ⟨key, .started, 1, Nat.one_pos⟩
    .ok (some (markers ++ [marker], marker))
  | some m =>
    if !m.canStart then .ok none
    else if maxInteger < m.attempt + 1 then .error (.exception "NumericValueOutOfRange")
    else .ok (some (updateWhere (fun m' => m'.key = key) Marker.restart markers, m.restart))

def Marker.finish (state : MarkerState) (m : Marker) : Marker := { m with state := state }

/-- `_MARK_COMPLETED_SQL` and `_MARK_FAILED_SQL`: the end of a marker that is started. -/
def finishSql (key : Key) (state : MarkerState) : Transition := fun markers =>
  match markers.find? fun m => m.key = key with
  | none => .ok none
  | some m =>
    if m.state = .started then
      .ok (some (updateWhere (fun m' => m'.key = key) (Marker.finish state) markers,
        m.finish state))
    else .ok none

/-! ### `PostgresReconciliationSession` -/

def getMarker (plan : Plan) (hook : HookIdentity) : Code (Option Marker) := do
  .ofExcept (validateHook hook)
  let found ← readRow (fun markers => .ok (markers.find? fun m => m.key = plan.key hook)) "read"
  match found.elim (.ok ()) markerFromRow with
  | .error e => do
    rollbackAfterFailure
    .raise e
  | .ok () =>
    match (← nextFault).raised with
    | none => pure found
    | some e => do
      discard
      .raise (rewrapped "reconciliation marker read could not be closed" e)

def markStarted (plan : Plan) (hook : HookIdentity) : Code Marker := do
  .ofExcept (validateHook hook)
  commitMarker (plan.key hook) (markStartedSql (plan.key hook)) .started "start"

def markCompleted (plan : Plan) (hook : HookIdentity) (digest : String) : Code Marker := do
  .ofExcept (validateDigest digest "reconciliation result digest")
  .ofExcept (validateHook hook)
  commitMarker (plan.key hook) (finishSql (plan.key hook) (.completed digest)) .completed "completion"

def markFailed (plan : Plan) (hook : HookIdentity) (errorType : String) : Code Marker := do
  Tx.require (isSafeIdentity errorType)
    (.reconciliation "reconciliation error type must be a bounded identifier" [])
  .ofExcept (validateHook hook)
  commitMarker (plan.key hook) (finishSql (plan.key hook) (.failed errorType)) .failed "failure"

/-! ## The runner -/

structure HookReport where
  hook : HookIdentity
  attempt : ℕ
  alreadyComplete : Bool
  resultDigest : String
deriving DecidableEq

/-- `RECONCILIATION_ADVISORY_LOCK`. -/
def advisoryLock : ℕ × ℕ := (1095980114, 60002)

structure Report where
  schemaRevision : String
  planDigest : String
  advisoryLock : ℕ × ℕ
  hooks : List HookReport
  durablyComplete : Bool
deriving DecidableEq

/-- The loop of `ReconciliationRunner.__init__`; `names` are those of the hooks before. -/
def checkHooks : List String → List HookIdentity → Except Exc Unit
  | _, [] => .ok ()
  | names, hook :: hooks => do
    validateHook hook
    ensure (!names.contains hook.name)
      (.reconciliation "reconciliation hook names must be unique" [])
    checkHooks (names ++ [hook.name]) hooks

/-- `ReconciliationRunner`, by the identities of its hooks. -/
structure Runner where
  identities : List HookIdentity
  nonempty : ensure (!identities.isEmpty)
    (Exc.reconciliation "at least one required reconciliation hook is needed" []) = .ok ()
  accepted : checkHooks [] identities = .ok ()

def Runner.plan (sha256 : Bytes → String) (runner : Runner) (schemaRevision : String) :
    Except Exc Plan := do
  validateRevision .schemaRevision schemaRevision "reconciliation schema revision"
  pure ⟨schemaRevision, canonicalPlanDigest sha256 schemaRevision runner.identities,
    runner.identities⟩

/-- `_validate_marker`; the shape of a marker leaves only these checks. -/
def validateMarker (plan : Plan) (hook : HookIdentity) (expected : Option StateName) (m : Marker) :
    Except Exc Unit := do
  ensure (decide (m.key = plan.key hook))
    (.reconciliation "reconciliation marker does not match the required plan" hook.metadata)
  ensure (expected.all (· == m.state.name))
    (.reconciliation "reconciliation marker has an unexpected state"
      [("hook", hook.name), ("state", m.state.name.value)])
  match m.state with
  | .started => pure ()
  | .completed digest =>
    ensure (isSha256 digest)
      (.reconciliation "completed reconciliation marker lacks a canonical result digest" [])
  | .failed errorType =>
    ensure (isSafeIdentity errorType)
      (.reconciliation "failed reconciliation marker is malformed" [])

def durableFailure (plan : Plan) (hook : HookIdentity) (errorType : String) : Code Marker := do
  let marker ← markFailed plan hook errorType
  .ofExcept (validateMarker plan hook (some .failed) marker)
  pure marker

/-- `hook.reconcile(context)`. -/
def reconcile (plan : Plan) (hook : HookIdentity) (attempt : ℕ) : Code HookResult := do
  .modify fun s => { s with log := s.log ++ [.invoked (plan.key hook) attempt] }
  let s ← Tx.get
  match s.outcomes with
  | [] => pure .nothing
  | outcome :: outcomes => do
    .set { s with outcomes := outcomes }
    match outcome with
    | .raises e => .raise e
    | .returns result => pure result

/-- The body of `try` for a hook that is started. -/
def completeHook (sha256 : Bytes → String) (plan : Plan) (hook : HookIdentity) (started : Marker)
    (expectedAttempt : ℕ) : Code String := do
  Tx.require (started.attempt = expectedAttempt)
    (.reconciliation "reconciliation marker attempt is not monotonic" [])
  let result ← reconcile plan hook started.attempt
  let digest ← .ofExcept (resultDigest sha256 result)
  let marker ← markCompleted plan hook digest
  .ofExcept (validateMarker plan hook (some .completed) marker)
  Tx.require (marker.attempt = started.attempt)
    (.reconciliation "reconciliation completion changed the attempt identity" [])
  Tx.require (marker.state = .completed digest)
    (.reconciliation "reconciliation completion changed the result digest" [])
  pure digest

/-- `except Exception`: the failure is kept in the marker. -/
def recordFailure (plan : Plan) (hook : HookIdentity) (started : Marker) (e : Exc) :
    Code Marker := do
  let failed ← durableFailure plan hook e.typeName
  Tx.require (failed.attempt = started.attempt)
    (.reconciliation "reconciliation failure changed the attempt identity" [])
  pure failed

/-- What follows on what the body of `try` raised: `except Exception`, or `finally` for an
    interruption. -/
def failHook (plan : Plan) (hook : HookIdentity) (started : Marker) (e : Exc) : Code String :=
  if e.isException then do
    match ← Tx.attempt (recordFailure plan hook started e) with
    | .ok failed => .raise (.reconciliation "required reconciliation hook failed"
        (hook.metadata ++ [("attempt", toString failed.attempt)]))
    | .error e' =>
      if e'.isException then .raise (.reconciliation
        "reconciliation failure marker could not be persisted" hook.metadata)
      else .raise e'
  else if e = .crash then .raise .crash
  else do
    match ← Tx.attempt (durableFailure plan hook "Interrupted") with
    | .ok _ => .raise e
    | .error e' => if e'.isException then .raise e else .raise e'

/-- The loop's body for a hook that is not complete. -/
def startHook (sha256 : Bytes → String) (plan : Plan) (hook : HookIdentity) (expectedAttempt : ℕ) :
    Code HookReport := do
  let started ← markStarted plan hook
  .ofExcept (validateMarker plan hook (some .started) started)
  let digest ← Tx.handle (completeHook sha256 plan hook started expectedAttempt)
    (failHook plan hook started)
  pure ⟨hook, started.attempt, false, digest⟩

/-- The loop's body. -/
def runHook (sha256 : Bytes → String) (plan : Plan) (hook : HookIdentity) : Code HookReport := do
  match ← getMarker plan hook with
  | none => startHook sha256 plan hook 1
  | some existing => do
    .ofExcept (validateMarker plan hook none existing)
    match existing.state with
    | .completed digest => pure ⟨hook, existing.attempt, true, digest⟩
    | .started | .failed _ => startHook sha256 plan hook (existing.attempt + 1)

/-- A completion that turns out not to be durable. -/
def failCompletion (plan : Plan) (hook : HookIdentity) : Code Unit := do
  match ← Tx.attempt (durableFailure plan hook "CompletionNotDurable") with
  | .ok _ => .raise (.reconciliation "required reconciliation completion is not durable"
      hook.metadata)
  | .error e =>
    if e.isException then .raise (.reconciliation
      "reconciliation completion and failure markers are not durable" hook.metadata)
    else .raise e

/-- The second loop's body: the completed marker is read back. -/
def verifyHook (plan : Plan) (hook : HookIdentity) : Code Unit := do
  match ← getMarker plan hook with
  | none => failCompletion plan hook
  | some marker =>
    match validateMarker plan hook (some .completed) marker with
    | .ok () => pure ()
    | .error _ => failCompletion plan hook

/-- A call that takes or gives back the lock. -/
def lockCall (message : String) : Code Unit := do
  match (← nextFault).raised with
  | none => pure ()
  | some e => .raise (wrapped message e)

def coordinate {α : Type} (plan : Plan) (body : Code α) : Code α := do
  .ofExcept (validateRevision .schemaRevision plan.schemaRevision "reconciliation schema revision")
  .ofExcept (validateDigest plan.planDigest "reconciliation plan digest")
  lockCall "reconciliation advisory lock acquisition failed"
  .modify fun s => { s with active := true }
  match ← Tx.attempt body with
  | .ok a => do
    discard
    lockCall "reconciliation advisory lock release failed"
    pure a
  | .error .crash => .raise .crash
  | .error e => do
    discard
    match ← Tx.attempt (lockCall "reconciliation advisory lock release failed") with
    | .error .crash => .raise .crash
    | _ => .raise e

/-- The body of `with` in `ReconciliationRunner.run`. -/
def runPlan (sha256 : Bytes → String) (plan : Plan) : Code (List HookReport) := do
  let reports ← Tx.collect (runHook sha256 plan) plan.hooks
  Tx.each (verifyHook plan) plan.hooks
  pure reports

def Runner.run (sha256 : Bytes → String) (runner : Runner) (schemaRevision : String) :
    Code Report := do
  let plan ← .ofExcept (runner.plan sha256 schemaRevision)
  let reports ← coordinate plan (runPlan sha256 plan)
  pure ⟨plan.schemaRevision, plan.planDigest, advisoryLock, reports, true⟩

/-! ## Sequences of runs -/

/-- A run of a runner, with what the driver and the hooks do in it. -/
structure Run where
  runner : Runner
  schemaRevision : String
  faults : List Fault
  outcomes : List Outcome

/-- A run on the markers and the log that earlier runs left. -/
def Run.start (r : Run) (s : State) : State := ⟨s.markers, false, r.faults, r.outcomes, s.log⟩

def Run.code (sha256 : Bytes → String) (r : Run) : Code Report := r.runner.run sha256 r.schemaRevision

/-- What is left after a run, whether it returns, raises or crashes. -/
def Run.exec (sha256 : Bytes → String) (r : Run) (s : State) : State :=
  (r.code sha256 (r.start s)).2

def Run.reply (sha256 : Bytes → String) (r : Run) (s : State) : Except Exc Report :=
  (r.code sha256 (r.start s)).1

/-- The markers that are stored before the first run. -/
def State.initial (markers : List Marker) : State := ⟨markers, false, [], [], []⟩

end AstralPlane.Reconciliation
