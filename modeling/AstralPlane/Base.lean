/-
  Values shared by the repositories: UUIDs, points in time and bounded texts.
-/
import Mathlib.Data.Nat.Digits.Defs

namespace AstralPlane

/-- A `uuid.UUID`, by its integer value; PostgreSQL and `uuid.int` order UUIDs by it. -/
structure Uuid where
  int : ℕ
  deriving DecidableEq, Repr

namespace Uuid

/-- The 32 hexadecimal digits, most significant first. -/
def hex (u : Uuid) : List Char :=
  let digits := Nat.toDigits 16 u.int
  List.replicate (32 - digits.length) '0' ++ digits

/-- `str(uuid)`: the digits in groups of 8, 4, 4, 4 and 12. -/
def str (u : Uuid) : String :=
  let h := u.hex
  String.ofList (h.take 8 ++ '-' :: (h.drop 8).take 4 ++ '-' :: (h.drop 12).take 4 ++
    '-' :: (h.drop 16).take 4 ++ '-' :: h.drop 20)

/-- `uuid.version == 4`: the version digit of the RFC 4122 layout is 4. -/
def isVersion4 (u : Uuid) : Bool :=
  u.int < 2 ^ 128 && u.int / 2 ^ 76 % 16 == 4 && u.int / 2 ^ 62 % 4 == 2

end Uuid

/-! ## Points in time -/

/-- A timezone-aware instant in microseconds since 1970; a duration is a difference of instants. -/
abbrev Time := Int

/-- Microseconds in a millisecond. -/
def millisecond : Time := 1000

def second : Time := 1000000

/-- The day of an instant, counted from 1970-01-01. -/
def Time.day (t : Time) : ℤ := t / (86400 * second)

/-- The digits of `n`, at least `width` of them. -/
def paddedDigits (width n : ℕ) : List Char :=
  let digits := Nat.toDigits 10 n
  List.replicate (width - digits.length) '0' ++ digits

/-- The date of a day as `YYYY-MM-DD`, in the proleptic Gregorian calendar. -/
def dateText (day : ℤ) : List Char :=
  -- years start in March here, so that a leap day is the last of its year
  let z := day + 719468
  let era := z / 146097
  let doe := z - era * 146097
  let yoe := (doe - doe / 1460 + doe / 36524 - doe / 146096) / 365
  let doy := doe - (365 * yoe + yoe / 4 - yoe / 100)
  let month := (5 * doy + 2) / 153
  let year := yoe + era * 400 + if month < 10 then 0 else 1
  paddedDigits 4 year.toNat ++ '-' ::
    paddedDigits 2 (if month < 10 then month + 3 else month - 9).toNat ++ '-' ::
    paddedDigits 2 (doy - (153 * month + 2) / 5 + 1).toNat

/-- `value.astimezone(UTC).isoformat()`. -/
def isoformat (t : Time) : String :=
  let within := (t - t.day * (86400 * second)).toNat
  let seconds := within / 1000000
  let micros := within % 1000000
  String.ofList (dateText t.day ++ 'T' :: paddedDigits 2 (seconds / 3600) ++ ':' ::
    paddedDigits 2 (seconds / 60 % 60) ++ ':' :: paddedDigits 2 (seconds % 60) ++
    (if micros = 0 then [] else '.' :: paddedDigits 6 micros) ++ "+00:00".toList)

example : isoformat 1767323045000001 = "2026-01-02T03:04:05.000001+00:00" := by decide +kernel

/-! ## Texts and numbers -/

/-- `^[a-z][a-z0-9_]{0,tail}$`. -/
def isSnakeCase (tail : ℕ) (s : String) : Bool :=
  match s.toList with
  | [] => false
  | c :: cs => c.isLower && cs.length ≤ tail && cs.all fun d => d.isLower || d.isDigit || d == '_'

/-- `^[0-9a-f]{64}$`. -/
def isSha256 (s : String) : Bool :=
  s.toList.length == 64 && s.toList.all fun c => c.isDigit || ('a' ≤ c && c ≤ 'f')

/-- `str.isspace` of one character. -/
def isSpace (c : Char) : Bool :=
  let n := c.toNat
  (9 ≤ n && n ≤ 13) || (28 ≤ n && n ≤ 32) || n == 0x85 || n == 0xa0 || n == 0x1680 ||
    (0x2000 ≤ n && n ≤ 0x200a) || n == 0x2028 || n == 0x2029 || n == 0x202f || n == 0x205f ||
    n == 0x3000

/-- `[A-Za-z0-9][A-Za-z0-9._:/@-]*`. -/
def isIdentifier (s : String) : Bool :=
  match s.toList with
  | [] => false
  | c :: cs => c.isAlphanum && cs.all fun d => d.isAlphanum || ".-_:/@".toList.contains d

/-- The largest integer that a JSON number holds exactly. -/
def maxSafe : ℕ := 2 ^ 53 - 1

/-- The largest value of an INTEGER column. -/
def maxInteger : ℕ := 2 ^ 31 - 1

/-- The largest value of a BIGINT column. -/
def maxBigint : ℕ := 2 ^ 63 - 1

end AstralPlane
