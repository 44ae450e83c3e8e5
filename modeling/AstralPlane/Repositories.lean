/-
  Argument checks that the repositories share (`repositories/__init__.py`).

  A check returns its argument or raises `RepositoryValidationError` with a
  message that names the field.  That an argument has the type it is annotated
  with is a matter of the types here.
-/
import AstralPlane.Tx
import AstralPlane.Base

namespace AstralPlane.Repositories

/-- `RepositoryValidationError`, with its message and metadata. -/
structure ValidationError where
  message : String
  metadata : List (String × String) := []
  deriving DecidableEq

/-- What a repository raises; `database` is what comes from PostgreSQL, by its SQLSTATE. -/
inductive Failure
  | validation (e : ValidationError)
  | conflict (message : String)
  | notFound (message : String)
  | data (message : String)
  | database (sqlstate : String)
  deriving DecidableEq

/-- The check of an argument. -/
def argument {σ α : Type} (r : Except ValidationError α) : Tx σ Failure α :=
  Tx.ofExcept (r.mapError Failure.validation)

theorem ok_argument {σ α : Type} {r : Except ValidationError α} {a : α} {s s' : σ} :
    (argument r).Ok s a s' ↔ r = .ok a ∧ s = s' := by
  rw [argument, Tx.ok_ofExcept]
  cases r <;> simp [Except.mapError]

/-- `value.strip()` is empty. -/
def isBlank (value : String) : Bool := value.toList.all isSpace

/-- `len(value) <= maximum`. -/
def withinLength (value field : String) (maximum : ℕ) : Except ValidationError Unit :=
  ensure (value.length ≤ maximum) ⟨field ++ " exceeds its maximum length",
    [("field", field), ("maximum", toString maximum)]⟩

def requiredId (value field : String) (maximum : ℕ := 512) : Except ValidationError String := do
  ensure (!isBlank value) ⟨field ++ " must be a non-empty string", []⟩
  withinLength value field maximum
  pure value

def boundedText (value field : String) (maximum : ℕ) (allowEmpty : Bool := false) :
    Except ValidationError String := do
  ensure (allowEmpty || !isBlank value) ⟨field ++ " must not be empty", []⟩
  withinLength value field maximum
  pure value

/-- `_non_negative_int`, of an integer. -/
def nonNegativeInt (value : ℤ) (field : String) : Except ValidationError ℕ := do
  ensure (0 ≤ value) ⟨field ++ " must be a non-negative integer", []⟩
  pure value.toNat

def boundedLimit (limit maximum : ℕ) : Except ValidationError Unit :=
  ensure (1 ≤ limit && limit ≤ maximum)
    ⟨"limit is outside the supported range", [("maximum", toString maximum)]⟩

/-- PostgreSQL takes no NUL in a text, and the driver does not send one. -/
def isSendable (value : String) : Bool := value.toList.all (· ≠ '\x00')

end AstralPlane.Repositories
