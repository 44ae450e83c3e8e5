/-
  Transactions and savepoints on a pooled connection (`database/transaction.py`, `database/pool.py`).

  The driver is a parameter: what each call of it does may depend in any way on
  the calls before it.  A session records every call with its outcome, next to
  the fields of the `Transaction` object, the pool's bookkeeping for the
  connection, and the memory of the program that uses the transaction.
-/
import AstralPlane.Tx
import AstralPlane.Base

namespace AstralPlane.Database

open Tx

/-! ## Errors -/

/-- The errors of `errors.py` that transactions and the pool raise, and those of others. -/
inductive PlaneError where
  | poolClosed
  | poolCheckout
  | connectionReset
  | poolRelease
  | transactionState (message : String)
  | transactionStatement (operation : String)
  | transactionCleanup (message : String)
  | transactionCommitOutcomeUnknown
  | transactionRollback
  | sqlContract (message : String)
  | other (n : ℕ) (discardConnection : Bool)
deriving DecidableEq, Repr

/-- An exception: one of ours, another `Exception`, or a bare `BaseException` such as an
    interrupt. -/
inductive Exc where
  | plane (e : PlaneError)
  | exception (n : ℕ) (discardConnection : Bool)
  | base (n : ℕ) (discardConnection : Bool)
deriving DecidableEq, Repr

/-- `isinstance(exc, Exception)`. -/
def Exc.isException : Exc → Bool
  | .base .. => false
  | .plane _ | .exception .. => true

/-- `isinstance(exc, PlaneError)`. -/
def Exc.isPlaneError : Exc → Bool
  | .plane _ => true
  | .exception .. | .base .. => false

/-- The class attribute `discard_connection`. -/
def PlaneError.discardConnection : PlaneError → Bool
  | .transactionStatement _ | .transactionCleanup _ | .transactionCommitOutcomeUnknown
  | .transactionRollback => true
  | .poolClosed | .poolCheckout | .connectionReset | .poolRelease | .transactionState _
  | .sqlContract _ => false
  | .other _ discard => discard

/-- `getattr(exc, "discard_connection", False)`. -/
def Exc.discardConnection : Exc → Bool
  | .plane e => e.discardConnection
  | .exception _ discard | .base _ discard => discard

def stateError (message : String) : Exc := .plane (.transactionState message)

/-! ## Statements and results -/

inductive IsolationLevel where
  | readCommitted | repeatableRead | serializable
deriving DecidableEq, Repr

/-- The parameters of a statement: a sequence, a mapping, or something that is neither. -/
inductive Parameters (V : Type) where
  | positional (values : List V)
  | named (entries : List (Option String × V))
  | malformed

inductive NativeParameters (V : Type) where
  | positional (values : List V)
  | named (entries : List (String × V))
deriving DecidableEq

def validateStatement (statement : String) : Except Exc String := do
  ensure (statement.toList.any fun c => !isSpace c)
    (.plane (.sqlContract "statement must not be empty"))
  ensure (statement.toList.all (· ≠ '\x00'))
    (.plane (.sqlContract "statement must not contain a NUL byte"))
  pure statement

/-- A key of a mapping of parameters; `none` is a key that is not a string. -/
def normalizeKey {V : Type} : Option String × V → Except Exc (String × V)
  | (some key, value) =>
    if key.isEmpty then
      .error (.plane (.sqlContract "named parameter keys must be non-empty strings"))
    else .ok (key, value)
  | (none, _) => .error (.plane (.sqlContract "named parameter keys must be non-empty strings"))

def normalizeParameters {V : Type} : Parameters V → Except Exc (Option (NativeParameters V))
  | .named entries => do
    let entries ← entries.mapM normalizeKey
    pure (if entries.isEmpty then none else some (.named entries))
  | .positional values => pure (if values.isEmpty then none else some (.positional values))
  | .malformed =>
    .error (.plane (.sqlContract "parameters must be a positional sequence or named mapping"))

/-- What is sent on a cursor: a statement of the caller, `SAVEPOINT`, `ROLLBACK TO SAVEPOINT` or
    `RELEASE SAVEPOINT` with a name, or `BEGIN ISOLATION LEVEL`. -/
inductive Command (V : Type) where
  | statement (text : String) (parameters : Option (NativeParameters V))
  | savepoint (name : String)
  | rollbackTo (name : String)
  | release (name : String)
  | begin (isolation : IsolationLevel)
deriving DecidableEq

/-- A row as the driver returns it: a mapping, a sequence of values, or something else. -/
inductive DriverRow (V : Type) where
  | mapping (entries : List (Option String × V))
  | values (values : List V)
  | opaqueRow

/-- `DetachedRecord`: columns and values, one entry for each column. -/
abbrev DetachedRecord (V : Type) := List (String × V)

/-- Put an entry in a dictionary, at its old place if the key is there. -/
def setItem {V : Type} (record : DetachedRecord V) (item : String × V) : DetachedRecord V :=
  if record.any (·.1 = item.1) then record.map fun i => if i.1 = item.1 then item else i
  else record ++ [item]

/-- A column of a driver's mapping; `none` is a name that is not a string. -/
def columnName {V : Type} : Option String × V → Except Exc (String × V)
  | (some name, value) => .ok (name, value)
  | (none, _) => .error (stateError "driver record column names must be strings")

def detachRow {V : Type} (description : Option (List String)) :
    DriverRow V → Except Exc (DetachedRecord V)
  | .mapping entries => do
    let entries ← entries.mapM columnName
    pure (entries.foldl setItem [])
  | .values values => do
    let names := description.getD []
    ensure (!names.isEmpty) (stateError "driver returned a row without column metadata")
    ensure (values.length = names.length)
      (stateError "driver row width does not match column metadata")
    pure ((names.zip values).foldl setItem [])
  | .opaqueRow => do
    ensure (!(description.getD []).isEmpty)
      (stateError "driver returned a row without column metadata")
    .error (stateError "driver returned a non-iterable row")

structure CommandResult (V : Type) where
  rowcount : ℤ
  statusMessage : Option String
  returnedRecords : List (DetachedRecord V)

/-! ## The driver and the session -/

/-- What is done to a connection.  `validate` and `detach` are checks of our own on the way of a
    statement: nothing is sent, but they may fail. -/
inductive Op (V : Type) where
  | getconn
  | readAutocommit
  | setAutocommit (value : Bool)
  | cursor
  | validate
  | execute (command : Command V)
  | fetchone
  | fetchall
  | detach
  | closeCursor
  | commit
  | rollback
  | putconn (close : Bool)
  | close
deriving DecidableEq

/-- An operation on the connection, with the exception it raised if any. -/
structure Event (V : Type) where
  op : Op V
  raised : Option Exc
deriving DecidableEq

/-- What the driver answers; each operation looks at some of it. -/
structure Reply (V : Type) where
  autocommit : Bool
  description : Option (List String)
  rowcount : ℤ
  statusMessage : Option String
  rows : List (DriverRow V)

/-- A driver and its connection. -/
structure Driver (V : Type) where
  /-- The answer to an operation, after those before it. -/
  answer : List (Event V) → Op V → Except Exc (Reply V)
  /-- Whether the connection is closed or its status unknown (`_connection_interrupted`). -/
  interrupted : List (Event V) → Bool
  hasAutocommit : Bool

/-- The state around one checked-out connection; `M` is the memory of the program that uses it. -/
structure Session (V M : Type) where
  trace : List (Event V)
  -- the fields of `Transaction`
  active : Bool
  failed : Bool
  priorAutocommit : Option Bool
  discardRequired : Bool
  -- the pool's
  borrowed : ℕ
  closed : Bool
  marked : Bool
  memory : M

/-- Code that runs on a session. -/
abbrev Code (V M : Type) := Tx (Session V M) Exc

variable {V M α : Type} (driver : Driver V)

def Session.log (s : Session V M) (op : Op V) (raised : Option Exc) : Session V M :=
  { s with trace := s.trace ++ [⟨op, raised⟩] }

def logged (op : Op V) (outcome : Except Exc α) : Code V M α := fun s =>
  match outcome with
  | .ok a => (.ok a, s.log op none)
  | .error e => (.error e, s.log op (some e))

def call (op : Op V) : Code V M (Reply V) := fun s => logged op (driver.answer s.trace op) s

def setFailed (failed : Bool) : Code V M Unit := Tx.modify fun s => { s with failed := failed }

def setActive (active : Bool) : Code V M Unit := Tx.modify fun s => { s with active := active }

def setPriorAutocommit (prior : Option Bool) : Code V M Unit :=
  Tx.modify fun s => { s with priorAutocommit := prior }

def requireDiscard : Code V M Unit := Tx.modify fun s => { s with discardRequired := true }

/-! ## `Transaction` -/

def raiseIfInterrupted (e : Exc) (operation : String) : Code V M Unit := do
  if e.isException && !e.isPlaneError then
    let s ← Tx.get
    if driver.interrupted s.trace then
      requireDiscard
      raise (.plane (.transactionStatement operation))

/-- The statement of `_control`, on its cursor. -/
def executeControl (command : Command V) : Code V M (Reply V) :=
  (call driver (.execute command)).handle fun e => do
    raiseIfInterrupted driver e "control"
    raise e

def control (command : Command V) : Code V M Unit := do
  let _ ← call driver .cursor
  let _ ← (executeControl driver command).ending fun _ => do
    let _ ← call driver .closeCursor

def restoreAutocommit : Code V M Unit := do
  let s ← Tx.get
  match s.priorAutocommit with
  | none => pure ()
  | some prior =>
    setPriorAutocommit none
    let _ ← call driver (.setAutocommit prior)

def leaveAutocommit : Code V M Unit := do
  let reply ← call driver .readAutocommit
  setPriorAutocommit (some reply.autocommit)
  if reply.autocommit then
    let _ ← call driver (.setAutocommit false)

/-- Run a cleanup whose exception only means that the connection is to be discarded. -/
def discardOnError (cleanup : Code V M Unit) : Code V M (Option Exc) := do
  match ← cleanup.attempt with
  | .ok () => pure none
  | .error e =>
    requireDiscard
    pure (some e)

/-- The first half of `_begin`: the connection leaves autocommit. -/
def setUpConnection : Code V M Unit :=
  if driver.hasAutocommit then
    (leaveAutocommit driver).handle fun e => do
      setPriorAutocommit none
      requireDiscard
      raise (if e.isException then
        .plane (.transactionCleanup "transaction connection setup failed") else e)
  else pure ()

/-- Its second half: the isolation level. -/
def beginIsolation : Option IsolationLevel → Code V M Unit
  | none => pure ()
  | some level =>
    (control driver (.begin level)).handle fun e => do
      setActive false
      let _ ← discardOnError (restoreAutocommit driver)
      raiseIfInterrupted driver e "begin"
      raise e

def begin (isolation : Option IsolationLevel) : Code V M Unit := do
  let s ← Tx.get
  require (!s.active) (stateError "transaction is already active")
  setUpConnection driver
  setActive true
  beginIsolation driver isolation

def ensureUsable : Code V M Unit := do
  let s ← Tx.get
  require s.active (stateError "transaction is not active")
  require (!s.failed) (stateError "transaction is aborted and must roll back")

/-- The handler of a failed statement. -/
def failStatement (operation : String) (e : Exc) : Code V M α := do
  setFailed true
  raiseIfInterrupted driver e operation
  raise e

def cursor : Code V M Unit := do
  ensureUsable
  let _ ← (call driver .cursor).handle (failStatement driver "cursor")

def closeCursor (preserveActiveError : Bool) : Code V M Unit := do
  match ← (call driver .closeCursor).attempt with
  | .ok _ => pure ()
  | .error e =>
    setFailed true
    if !preserveActiveError then
      raiseIfInterrupted driver e "cursor_close"
      raise e

def executeNative (statement : String) (parameters : Parameters V) : Code V M (Reply V) := do
  let checked ← logged .validate (do
    let text ← validateStatement statement
    let native ← normalizeParameters parameters
    pure (text, native))
  call driver (.execute (.statement checked.1 checked.2))

/-- The frame of `execute`, `fetch_one` and `fetch_all`: a cursor, and what is done with it. -/
def withCursor (operation : String) (body : Code V M α) : Code V M α := do
  cursor driver
  (body.handle (failStatement driver operation)).ending (closeCursor driver)

/-- All rows of a cursor, detached. -/
def fetchRows (description : Option (List String)) : Code V M (List (DetachedRecord V)) := do
  let reply ← call driver .fetchall
  logged .detach (reply.rows.mapM (detachRow description))

/-- The records of `execute`: those of a statement that has a description. -/
def fetchReturned (description : Option (List String)) : Code V M (List (DetachedRecord V)) :=
  if description.isSome then fetchRows driver description else pure []

def execute (statement : String) (parameters : Parameters V) : Code V M (CommandResult V) :=
  withCursor driver "execute" do
    let reply ← executeNative driver statement parameters
    let records ← fetchReturned driver reply.description
    pure ⟨reply.rowcount, reply.statusMessage, records⟩

def fetchOne (statement : String) (parameters : Parameters V) :
    Code V M (Option (DetachedRecord V)) :=
  withCursor driver "fetch_one" do
    let reply ← executeNative driver statement parameters
    let fetched ← call driver .fetchone
    match fetched.rows.head? with
    | none => pure none
    | some row => some <$> logged .detach (detachRow reply.description row)

def fetchAll (statement : String) (parameters : Parameters V) :
    Code V M (List (DetachedRecord V)) :=
  withCursor driver "fetch_all" do
    let reply ← executeNative driver statement parameters
    fetchRows driver reply.description

/-- `_SAVEPOINT_NAME`. -/
def safeSavepointName (name : String) : Bool :=
  match name.toList with
  | [] => false
  | c :: rest => (c.isAlpha || c = '_') && rest.all (fun c => c.isAlphanum || c = '_') &&
    rest.length ≤ 62

/-- A control statement of a savepoint, whose failure fails the transaction. -/
def savepointControl (command : Command V) : Code V M Unit :=
  (control driver command).handle fun e => do
    setFailed true
    raise e

/-- The end of a savepoint whose body raised. -/
def undoSavepoint (name : String) (failedBefore : Bool) : Code V M Unit :=
  Tx.handle
    (do
      setFailed false
      control driver (.rollbackTo name)
      control driver (.release name)
      setFailed failedBefore)
    fun _ => setFailed true

/-- `savepoint`, around the body of its `with` statement. -/
def savepoint (name : String) (body : Code V M α) : Code V M α := do
  ensureUsable
  require (safeSavepointName name)
    (stateError "savepoint name is not a safe PostgreSQL identifier")
  savepointControl driver (.savepoint name)
  let s ← Tx.get
  match ← body.attempt with
  | .error e =>
    undoSavepoint driver name s.failed
    raise e
  | .ok a =>
    savepointControl driver (.release name)
    pure a

/-- The transaction's end on the connection: the exception of the rollback or commit, if any. -/
def endOnConnection (shouldRollback : Bool) : Code V M (Option Exc) :=
  if shouldRollback then discardOnError (do let _ ← call driver .rollback)
  else do
    match ← (call driver .commit).attempt with
    | .ok _ => pure none
    | .error e =>
      requireDiscard
      let _ ← (call driver .rollback).attempt
      pure (some e)

/-- What `_finish` raises. -/
def finishError (shouldRollback handled : Bool) (primary cleanup : Option Exc) : Except Exc Unit :=
  match primary, cleanup with
  | some e, _ =>
    if e.isException = false then .error e
    else if shouldRollback then .error (.plane .transactionRollback)
    else .error (.plane .transactionCommitOutcomeUnknown)
  | none, some e =>
    if e.isException = false then .error e
    else .error (.plane (.transactionCleanup "transaction connection cleanup failed"))
  | none, none =>
    if handled then .error (stateError "transaction rolled back after a handled command failure")
    else .ok ()

def finish (failed : Bool) : Code V M Unit := do
  let s ← Tx.get
  require s.active (stateError "transaction is not active")
  let shouldRollback := failed || s.failed
  let primary ← endOnConnection driver shouldRollback
  setActive false
  let cleanup ← discardOnError (restoreAutocommit driver)
  ofExcept (finishError shouldRollback (s.failed && !failed) primary cleanup)

/-! ## `ConnectionPool` -/

def borrow : Code V M Unit := do
  let s ← Tx.get
  require (!s.closed) (.plane .poolClosed)
  Tx.modify fun s => { s with borrowed := s.borrowed + 1 }
  let _ ← (call driver .getconn).handle fun e => do
    Tx.modify fun s => { s with borrowed := s.borrowed - 1 }
    if !e.isException || e.isPlaneError then raise e else raise (.plane .poolCheckout)

def release (discard : Bool) : Code V M Unit := do
  match ← (call driver (.putconn discard)).attempt with
  | .ok _ => Tx.modify fun s => { s with borrowed := s.borrowed - 1 }
  | .error _ =>
    let _ ← (call driver .close).attempt
    Tx.modify fun s => { s with borrowed := s.borrowed - 1 }
    raise (.plane .poolRelease)

def discardOnReturn : Code V M Unit := Tx.modify fun s => { s with marked := true }

def takeDiscard : Code V M Bool := do
  let s ← Tx.get
  Tx.set { s with marked := false }
  pure s.marked

/-- `connection`, around the body of its `with` statement. -/
def connection (body : Code V M α) : Code V M α := do
  borrow driver
  let outcome ← body.attempt
  let reset ← (call driver .rollback).attempt
  let marked ← takeDiscard
  let bodyDiscard := match outcome with
    | .error e => e.discardConnection
    | .ok _ => false
  let released ← (release driver (!reset.isOk || bodyDiscard || marked)).attempt
  match outcome, reset, released with
  | .error e, _, _ => raise e
  | .ok _, .error _, _ => raise (.plane .connectionReset)
  | .ok _, .ok _, .error e => raise e
  | .ok a, .ok _, .ok () => pure a

/-! ## `PlaneDatabase` -/

/-- A `Transaction` object as it is built. -/
def Session.begun (s : Session V M) : Session V M :=
  { s with active := false, failed := false, priorAutocommit := none, discardRequired := false }

/-- The body of `transaction` from begin to finish. -/
def beginToFinish (isolation : Option IsolationLevel) (body : Code V M α) : Code V M α := do
  Tx.modify Session.begun
  begin driver isolation
  match ← body.attempt with
  | .error e =>
    let _ ← (finish driver true).attempt
    raise e
  | .ok a =>
    finish driver false
    pure a

/-- The handler around it. -/
def markAndRaise (e : Exc) : Code V M α := do
  let s ← Tx.get
  if s.discardRequired then discardOnReturn
  raise e

/-- `transaction`, around the body of its `with` statement. -/
def transaction (isolation : Option IsolationLevel) (body : Code V M α) : Code V M α :=
  connection driver ((beginToFinish driver isolation body).handle markAndRaise)

/-- The programs that callers write: statements, savepoints, `try … except`, and their own
    computations, which may depend on everything they have seen. -/
inductive Program : {α : Type} → Code V M α → Prop
  | pure {α : Type} (a : α) : Program (pure a)
  | raise {α : Type} (e : Exc) : Program (raise e : Code V M α)
  | bind {α β : Type} {x : Code V M α} {f : α → Code V M β} (hx : Program x)
      (hf : ∀ a, Program (f a)) : Program (x >>= f)
  | handle {α : Type} {x : Code V M α} {h : Exc → Code V M α} (hx : Program x)
      (hh : ∀ e, Program (h e)) : Program (x.handle h)
  | execute (statement : String) (parameters : Parameters V) :
      Program (execute driver statement parameters)
  | fetchOne (statement : String) (parameters : Parameters V) :
      Program (fetchOne driver statement parameters)
  | fetchAll (statement : String) (parameters : Parameters V) :
      Program (fetchAll driver statement parameters)
  | savepoint {α : Type} {x : Code V M α} (name : String) (hx : Program x) :
      Program (savepoint driver name x)
  | reread : Program (Tx.get >>= fun s => pure s.memory)
  | remember (f : M → M) : Program (Tx.modify fun s => { s with memory := f s.memory })
  | active : Program (Tx.get >>= fun s => pure s.active)
  | discardRequired : Program (Tx.get >>= fun s => pure s.discardRequired)

/-- A session as a connection is asked for: of a pool, by a program with a memory. -/
def Session.initial (borrowed : ℕ) (closed : Bool) (memory : M) : Session V M where
  trace := []
  active := false
  failed := false
  priorAutocommit := none
  discardRequired := false
  borrowed := borrowed
  closed := closed
  marked := false
  memory := memory

end AstralPlane.Database
