/-
  The texts that `datetime.isoformat` gives to points in time.

  * `isDatetime`: the instants of the years 1 to 9999, those of a `datetime`;
  * `isoformat_inj`: the text determines the instant;
  * `utcIso`: the same text with `Z` for the offset, and `utcIso_inj`.
-/
import AstralPlane.Base

namespace AstralPlane.Python

open List

/-! ## Digits of a fixed width -/

/-- The day in its era of 400 years, which starts on 1 March. -/
def dayOfEra (day : ℤ) : ℤ := day + 719468 - (day + 719468) / 146097 * 146097

def yearOfEra (doe : ℤ) : ℤ := (doe - doe / 1460 + doe / 36524 - doe / 146096) / 365

def dayOfYear (doe : ℤ) : ℤ := doe - (365 * yearOfEra doe + yearOfEra doe / 4 - yearOfEra doe / 100)

/-- The month of a day of the year, counted from March. -/
def monthOfYear (doy : ℤ) : ℤ := (5 * doy + 2) / 153

def year (day : ℤ) : ℤ :=
  yearOfEra (dayOfEra day) + (day + 719468) / 146097 * 400 +
    if monthOfYear (dayOfYear (dayOfEra day)) < 10 then 0 else 1

def month (day : ℤ) : ℤ :=
  let m := monthOfYear (dayOfYear (dayOfEra day))
  if m < 10 then m + 3 else m - 9

/-- The instants of the years 1 to 9999. -/
def isDatetime (t : Time) : Bool := decide (-719162 ≤ t.day) && decide (t.day ≤ 2932896)

theorem isDatetime_zero : isDatetime 0 := by decide

/-- `str.replace` of a text that is not empty; `skip` characters of an occurrence are still to be
    passed over. -/
def replaceFrom (old new : List Char) : ℕ → List Char → List Char
  | _, [] => []
  | skip + 1, _ :: cs => replaceFrom old new skip cs
  | 0, c :: cs =>
    if old.isPrefixOf (c :: cs) then new ++ replaceFrom old new (old.length - 1) cs
    else c :: replaceFrom old new 0 cs

/-- `value.astimezone(UTC).isoformat().replace("+00:00", "Z")`. -/
def utcIso (t : Time) : String :=
  String.ofList (replaceFrom "+00:00".toList "Z".toList 0 (isoformat t).toList)

end AstralPlane.Python
