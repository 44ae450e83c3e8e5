/-
  Python texts, their UTF-8 bytes and their JSON literals.

  A `str` is a list of code points, lone surrogates included.  `encode` is
  `str.encode("utf-8")`, which refuses surrogates.  A JSON literal is written
  with or without `ensure_ascii`; `readChar` reads one character of a literal
  back, and `quoted_inj` says that a literal determines its text, in whichever
  way it was written, unless it was written with `ensure_ascii` and the text
  has surrogates: a pair of them is written like the character it stands for.
-/
import Mathlib.Data.Option.Basic
import Mathlib.Data.String.Basic

namespace AstralPlane.Python

open List

/-! ## Code points -/

/-- A character of a `str`: a Unicode scalar value, or the surrogate U+D800 + `n`. -/
inductive CodePoint where
  | scalar (c : Char)
  | surrogate (n : Fin 0x800)
deriving DecidableEq, Repr

def CodePoint.code : CodePoint → ℕ
  | .scalar c => c.toNat
  | .surrogate n => 0xD800 + n

def CodePoint.isSurrogate : CodePoint → Bool
  | .scalar _ => false
  | .surrogate _ => true

/-- The code point of a number below 0x110000. -/
def CodePoint.ofNat (n : ℕ) : CodePoint :=
  if h : 0xD800 ≤ n ∧ n < 0xE000 then .surrogate ⟨n - 0xD800, by omega⟩ else .scalar (Char.ofNat n)

theorem CodePoint.ofNat_code (c : Char) : CodePoint.ofNat c.toNat = .scalar c := by
  have hv : c.toNat < 0xD800 ∨ 0xDFFF < c.toNat ∧ c.toNat < 0x110000 := c.valid
  rw [CodePoint.ofNat, dif_neg (by omega), Char.ofNat_toNat]

abbrev Text := List CodePoint

def ofChars (l : List Char) : Text := l.map .scalar

def ofString (s : String) : Text := ofChars s.toList

theorem ofChars_injective : Function.Injective ofChars :=
  map_injective_iff.2 fun _ _ h => CodePoint.scalar.inj h

def Text.wellFormed (t : Text) : Bool := t.all fun c => !c.isSurrogate

/-! ## UTF-8 -/

def CodePoint.char? : CodePoint → Option Char
  | .scalar c => some c
  | .surrogate _ => none

abbrev Bytes := List UInt8

/-- `str.encode("utf-8")`. -/
def encode (t : Text) : Option Bytes :=
  (t.mapM CodePoint.char?).map fun l => l.flatMap String.utf8EncodeChar

theorem mapM_char?_eq_some {t : Text} {l : List Char} :
    t.mapM CodePoint.char? = some l ↔ t = ofChars l := by
  induction t generalizing l with
  | nil => cases l <;> simp [ofChars]
  | cons c t ih =>
    rw [mapM_cons]
    cases c with
    | surrogate => cases l <;> simp [CodePoint.char?, ofChars]
    | scalar =>
      cases l with
      | nil => cases t.mapM CodePoint.char? <;> simp [CodePoint.char?, ofChars]
      | cons d l =>
        cases ht : t.mapM CodePoint.char? <;> rw [ht] at ih <;> simp_all [CodePoint.char?, ofChars]

theorem flatMap_utf8EncodeChar_injective :
    Function.Injective fun l : List Char => l.flatMap String.utf8EncodeChar := by
  intro l l' h
  have hl : l.utf8Encode = l'.utf8Encode := by
    exact congrArg List.toByteArray h
  have hd := List.utf8Decode?_utf8Encode (l := l)
  rw [hl, List.utf8Decode?_utf8Encode] at hd
  simpa using hd.symm

theorem encode_inj {t t' : Text} {b : Bytes} (h : encode t = some b) (h' : encode t' = some b) :
    t = t' := by
  simp only [encode, Option.map_eq_some_iff] at h h'
  obtain ⟨l, hl, hb⟩ := h
  obtain ⟨l', hl', hb'⟩ := h'
  have hll := flatMap_utf8EncodeChar_injective (hb.trans hb'.symm)
  rw [mapM_char?_eq_some.1 hl, mapM_char?_eq_some.1 hl', hll]

theorem ofString_injective : Function.Injective ofString :=
  fun _ _ h => String.toList_inj.1 (ofChars_injective h)

theorem encode_eq_some {t : Text} (h : t.wellFormed) : ∃ b, encode t = some b := by
  have hchars : ∃ l, t = ofChars l := by
    induction t with
    | nil => exact ⟨[], rfl⟩
    | cons c t ih =>
      simp only [Text.wellFormed, all_cons, Bool.and_eq_true] at h ih
      obtain ⟨l, rfl⟩ := ih h.2
      cases c with
      | scalar c => exact ⟨c :: l, rfl⟩
      | surrogate => simp [CodePoint.isSurrogate] at h
  obtain ⟨l, hl⟩ := hchars
  exact ⟨_, by rw [encode, mapM_char?_eq_some.2 hl]; rfl⟩

theorem wellFormed_append {t t' : Text} : (t ++ t').wellFormed = (t.wellFormed && t'.wellFormed) :=
  all_append

theorem wellFormed_ofChars (l : List Char) : (ofChars l).wellFormed := by
  simp [Text.wellFormed, ofChars, CodePoint.isSurrogate]

/-! ## JSON literals -/

def backslash : CodePoint := .scalar '\\'

def quote : CodePoint := .scalar '"'

/-- The escape sequences with a letter. -/
def shortEscape (c : Char) : Option Char :=
  if c = '"' then some '"'
  else if c = '\\' then some '\\'
  else if c = '\n' then some 'n'
  else if c = '\r' then some 'r'
  else if c = '\t' then some 't'
  else if c = '\x08' then some 'b'
  else if c = '\x0c' then some 'f'
  else none

def hexDigit (n : ℕ) : Char := Nat.digitChar (n % 16)

/-- The four hexadecimal digits of a number below 0x10000. -/
def hex4 (n : ℕ) : Text :=
  ofChars [hexDigit (n / 4096), hexDigit (n / 256), hexDigit (n / 16), hexDigit n]

def unicodeEscape (n : ℕ) : Text := backslash :: .scalar 'u' :: hex4 n

/-- The escape of a code point with `ensure_ascii`: a pair of surrogates beyond U+FFFF. -/
def asciiEscape (n : ℕ) : Text :=
  if n < 0x10000 then unicodeEscape n
  else unicodeEscape (0xD800 + (n - 0x10000) / 0x400) ++
    unicodeEscape (0xDC00 + (n - 0x10000) % 0x400)

/-- A character of a JSON literal as `json.dumps` writes it. -/
def escape (ensureAscii : Bool) : CodePoint → Text
  | .surrogate n => if ensureAscii then asciiEscape (0xD800 + n) else [.surrogate n]
  | .scalar c =>
    match shortEscape c with
    | some e => [backslash, .scalar e]
    | none =>
      if c.toNat < 32 then unicodeEscape c.toNat
      else if ensureAscii && decide (126 < c.toNat) then asciiEscape c.toNat
      else [.scalar c]

/-- A JSON literal. -/
def quoted (ensureAscii : Bool) (t : Text) : Text :=
  quote :: t.flatMap (escape ensureAscii) ++ [quote]

/-! ### Reading a character of a literal -/

def hexValue : CodePoint → Option ℕ
  | .scalar c =>
    if '0' ≤ c ∧ c ≤ '9' then some (c.toNat - 48)
    else if 'a' ≤ c ∧ c ≤ 'f' then some (c.toNat - 87)
    else none
  | .surrogate _ => none

def readHex4 : Text → Option (ℕ × Text)
  | a :: b :: c :: d :: rest => do
    let a ← hexValue a
    let b ← hexValue b
    let c ← hexValue c
    let d ← hexValue d
    pure (a * 4096 + b * 256 + c * 16 + d, rest)
  | _ => none

/-- The character of an escape with the number `n`: a high surrogate is joined with the escape of a
    low one after it. -/
def joinPair (n : ℕ) (rest : Text) : CodePoint × Text :=
  if 0xD800 ≤ n ∧ n < 0xDC00 then
    match rest with
    | a :: b :: rest' =>
      if a = backslash ∧ b = .scalar 'u' then
        match readHex4 rest' with
        | some (m, rest'') =>
          if 0xDC00 ≤ m ∧ m < 0xE000 then
            (.scalar (Char.ofNat (0x10000 + (n - 0xD800) * 0x400 + (m - 0xDC00))), rest'')
          else (.ofNat n, rest)
        | none => (.ofNat n, rest)
      else (.ofNat n, rest)
    | _ => (.ofNat n, rest)
  else (.ofNat n, rest)

/-- The character of a short escape. -/
def shortValue (e : CodePoint) : CodePoint :=
  if e = .scalar 'n' then .scalar '\n'
  else if e = .scalar 'r' then .scalar '\r'
  else if e = .scalar 't' then .scalar '\t'
  else if e = .scalar 'b' then .scalar '\x08'
  else if e = .scalar 'f' then .scalar '\x0c'
  else e

/-- The first character of the inside of a literal, and what follows it. -/
def readChar : Text → Option (CodePoint × Text)
  | [] => none
  | c :: rest =>
    if c = backslash then
      match rest with
      | [] => none
      | e :: rest =>
        if e = .scalar 'u' then (readHex4 rest).map fun (n, rest) => joinPair n rest
        else some (shortValue e, rest)
    else some (c, rest)

theorem hexValue_hexDigit (n : ℕ) : hexValue (.scalar (hexDigit n)) = some (n % 16) := by
  have h : ∀ d : Fin 16, hexValue (.scalar (Nat.digitChar d)) = some d.val := by decide
  exact h ⟨n % 16, Nat.mod_lt _ (by decide)⟩

theorem readHex4_hex4 {n : ℕ} (h : n < 0x10000) (rest : Text) :
    readHex4 (hex4 n ++ rest) = some (n, rest) := by
  simp only [hex4, ofChars, map_cons, map_nil, cons_append, nil_append, readHex4,
    hexValue_hexDigit, Option.pure_def, Option.bind_eq_bind, Option.bind_some, Option.some.injEq,
    Prod.mk.injEq, and_true]
  omega

theorem readChar_unicodeEscape {n : ℕ} (h : n < 0x10000) (rest : Text) :
    readChar (unicodeEscape n ++ rest) = some (joinPair n rest) := by
  rw [unicodeEscape, cons_append, cons_append, readChar, if_pos rfl, if_pos rfl, readHex4_hex4 h]
  rfl

theorem joinPair_of_not_high {n : ℕ} (h : ¬ (0xD800 ≤ n ∧ n < 0xDC00)) (rest : Text) :
    joinPair n rest = (.ofNat n, rest) := if_neg h

/-- A pair of escaped surrogates is one character. -/
theorem joinPair_pair {hi lo : ℕ} (hhi : 0xD800 ≤ hi ∧ hi < 0xDC00) (hlo : 0xDC00 ≤ lo ∧ lo < 0xE000)
    (rest : Text) : joinPair hi (unicodeEscape lo ++ rest) =
      (.scalar (Char.ofNat (0x10000 + (hi - 0xD800) * 0x400 + (lo - 0xDC00))), rest) := by
  simp only [joinPair, if_pos hhi, unicodeEscape, cons_append, and_self, if_true]
  rw [readHex4_hex4 (by omega)]
  simp only [hlo, and_self, if_true]

theorem char_valid (c : Char) : c.toNat < 0xD800 ∨ 0xDFFF < c.toNat ∧ c.toNat < 0x110000 := c.valid

variable {c : CodePoint}

theorem readChar_raw (h : c ≠ backslash) (rest : Text) : readChar (c :: rest) = some (c, rest) := by
  simp only [readChar, if_neg h]

variable {ensureAscii : Bool}

/-- Every character is read back from a literal, a surrogate only if it was written as it is. -/
theorem readChar_escape (h : ensureAscii → c.isSurrogate = false) (rest : Text) :
    readChar (escape ensureAscii c ++ rest) = some (c, rest) := by
  cases c with
  | surrogate =>
    have hascii : ensureAscii = false := by
      by_contra hne
      exact absurd (h (by simpa using hne)) (by simp [CodePoint.isSurrogate])
    rw [escape, hascii]
    exact readChar_raw (by simp [backslash]) rest
  | scalar c =>
    rw [escape]
    cases hs : shortEscape c with
    | some e =>
      unfold shortEscape at hs
      split_ifs at hs with h1 h2 h3 h4 h5 h6 h7
      all_goals
        obtain rfl := Option.some.inj hs
        subst_vars
        rfl
    | none =>
      have hne : CodePoint.scalar c ≠ backslash := by
        rintro hc
        obtain rfl := CodePoint.scalar.inj hc
        exact absurd hs (by decide)
      split_ifs with h1 h2
      · rw [readChar_unicodeEscape (by omega), joinPair_of_not_high (by omega), CodePoint.ofNat_code]
      · have hv := char_valid c
        change readChar (asciiEscape c.toNat ++ rest) = _
        rw [asciiEscape]
        split
        · rename_i hlt
          rw [readChar_unicodeEscape hlt, joinPair_of_not_high (by omega), CodePoint.ofNat_code]
        · rw [append_assoc, readChar_unicodeEscape (by omega), joinPair_pair (by omega) (by omega)]
          have hn : 0x10000 + (0xD800 + (c.toNat - 0x10000) / 0x400 - 0xD800) * 0x400 +
              (0xDC00 + (c.toNat - 0x10000) % 0x400 - 0xDC00) = c.toNat := by omega
          rw [hn, Char.ofNat_toNat]
      · exact readChar_raw hne rest

theorem head_escape_ne_quote {rest rest' : Text} :
    escape ensureAscii c ++ rest ≠ quote :: rest' := by
  have hescape : ∀ n : ℕ, ∀ l, asciiEscape n ++ l ≠ quote :: rest' := by
    intro n l
    rw [asciiEscape]
    split_ifs <;> simp [unicodeEscape, backslash, quote]
  cases c with
  | surrogate =>
    rw [escape]
    split_ifs
    · exact hescape _ _
    · simp [quote]
  | scalar c =>
    rw [escape]
    cases hs : shortEscape c with
    | some => simp [backslash, quote]
    | none =>
      have hne : c ≠ '"' := by
        rintro rfl
        exact absurd hs (by decide)
      split_ifs
      · simp [unicodeEscape, backslash, quote]
      · exact hescape _ _
      · simp [quote, hne]

/-- A text that a literal determines, when the literal is written this way. -/
def Text.readable (ensureAscii : Bool) (t : Text) : Bool := !ensureAscii || t.wellFormed

theorem readable_cons {t : Text} (h : Text.readable ensureAscii (c :: t)) :
    (ensureAscii → c.isSurrogate = false) ∧ Text.readable ensureAscii t := by
  cases ensureAscii <;> simp_all [Text.readable, Text.wellFormed]

/-- What is inside of a literal, up to its closing quote, determines the text. -/
theorem inside_inj {a a' : Bool} : ∀ {t t' rest rest' : Text}, Text.readable a t →
    Text.readable a' t' →
    t.flatMap (escape a) ++ quote :: rest = t'.flatMap (escape a') ++ quote :: rest' →
    t = t' ∧ rest = rest'
  | [], [], _, _, _, _, h => ⟨rfl, (cons.inj h).2⟩
  | [], c :: t', _, _, _, _, h => by
    rw [flatMap_cons, append_assoc] at h
    exact absurd h.symm head_escape_ne_quote
  | c :: t, [], _, _, _, _, h => by
    rw [flatMap_cons, append_assoc] at h
    exact absurd h head_escape_ne_quote
  | c :: t, c' :: t', rest, rest', ht, ht', h => by
    obtain ⟨hc, hr⟩ := readable_cons ht
    obtain ⟨hc', hr'⟩ := readable_cons ht'
    rw [flatMap_cons, append_assoc, flatMap_cons, append_assoc] at h
    have hread := congrArg readChar h
    rw [readChar_escape hc, readChar_escape hc'] at hread
    obtain ⟨rfl, hrest⟩ := Prod.mk.inj (Option.some.inj hread)
    obtain ⟨rfl, rfl⟩ := inside_inj hr hr' hrest
    exact ⟨rfl, rfl⟩

theorem quoted_inj {a a' : Bool} {t t' rest rest' : Text} (ht : Text.readable a t)
    (ht' : Text.readable a' t') (h : quoted a t ++ rest = quoted a' t' ++ rest') :
    t = t' ∧ rest = rest' := by
  simp only [quoted, cons_append, append_assoc, cons.injEq, true_and] at h
  exact inside_inj ht ht' h

theorem wellFormed_quoted (t : Text) : (quoted true t).wellFormed := by
  have hascii : ∀ n, (asciiEscape n).wellFormed := by
    intro n
    unfold asciiEscape
    split <;> rfl
  have hescape : ∀ c, (escape true c).wellFormed := by
    intro c
    cases c with
    | surrogate => exact hascii _
    | scalar c =>
      unfold escape
      dsimp only
      repeat' split
      all_goals first | rfl | exact hascii _
  have hinside : Text.wellFormed (t.flatMap (escape true)) := by
    induction t with
    | nil => rfl
    | cons c t ih => rw [flatMap_cons, wellFormed_append, hescape, ih, Bool.and_self]
  change Text.wellFormed (t.flatMap (escape true) ++ [quote])
  rw [wellFormed_append, hinside]
  rfl

end AstralPlane.Python
