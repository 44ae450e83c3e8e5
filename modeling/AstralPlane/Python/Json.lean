/-
  JSON values and the texts that `json.dumps` gives them.

  * `dumps` is `json.dumps` with `sort_keys=True` and `separators=(",", ":")`,
    with or without `ensure_ascii`;
  * `dumps_inj`: the text determines the value up to the order of keys, in
    whichever way it was written;
  * `insertionSort_eq_of_perm`: the order in which an object lists its keys
    does not matter to its text.
-/
import AstralPlane.Python.Text
import Mathlib.Data.List.Sort
import Mathlib.Data.Nat.Digits.Defs

namespace AstralPlane.Python

open List

variable {c : Char} {a a' : Bool} {rest rest' t : Text} {ts : List Text}

/-! ## Numbers -/

/-- The two forms in which `repr` writes a finite `float`. -/
inductive FloatForm where
  | fixed (whole : ℕ) (fraction : List (Fin 10))
  | scientific (lead : Fin 10) (fraction : List (Fin 10)) (exponent : ℤ)
deriving DecidableEq

/-- `repr` writes 17 significant digits at most, and uses an exponent below 1e-4 and from 1e16 on. -/
def FloatForm.valid : FloatForm → Bool
  | .fixed _ fraction => !fraction.isEmpty
  | .scientific _ fraction exponent =>
    decide (16 ≤ exponent ∧ fraction.length ≤ 16) || decide (exponent ≤ -5)

/-- A finite `float`, which is the one that its `repr` stands for. -/
structure PyFloat where
  negative : Bool
  form : FloatForm
  isValid : form.valid
deriving DecidableEq

def digit (d : Fin 10) : Char := Nat.digitChar d

/-- At least two digits. -/
def padded (l : List Char) : List Char := if l.length < 2 then '0' :: l else l

def exponentChars (e : ℤ) : List Char :=
  (if e < 0 then '-' else '+') :: padded (Nat.toDigits 10 e.natAbs)

def FloatForm.chars : FloatForm → List Char
  | .fixed whole fraction => Nat.toDigits 10 whole ++ '.' :: fraction.map digit
  | .scientific lead fraction exponent =>
    digit lead :: ((if fraction = [] then [] else '.' :: fraction.map digit) ++
      'e' :: exponentChars exponent)

/-- `float.__repr__`. -/
def PyFloat.chars (x : PyFloat) : List Char :=
  if x.negative then '-' :: x.form.chars else x.form.chars

/-- `int.__repr__`. -/
def encodeInt : ℤ → List Char
  | .ofNat n => Nat.toDigits 10 n
  | .negSucc n => '-' :: Nat.toDigits 10 (n + 1)

def isNumberChar (c : Char) : Bool := c.isDigit || c = '-' || c = '+' || c = '.' || c = 'e'

theorem isDigit_digit (d : Fin 10) : (digit d).isDigit := by
  revert d
  decide

theorem digit_injective : Function.Injective digit := by
  intro a b h
  revert a b
  decide

theorem isDigit_toDigits {n : ℕ} (h : c ∈ Nat.toDigits 10 n) : c.isDigit :=
  Nat.isDigit_of_mem_toDigits (by decide) (by decide) h

theorem toDigits_injective : Function.Injective (Nat.toDigits 10) := by
  intro m n h
  rw [← Nat.ofDigitChars_ten_toDigits (n := m), h, Nat.ofDigitChars_ten_toDigits]

/-- Two lists that are cut where a property first fails are cut alike. -/
theorem append_inj_of_stop {α : Type} {p : α → Bool} {l l' r r' : List α}
    (hl : ∀ x ∈ l, p x) (hl' : ∀ x ∈ l', p x) (hr : ∀ x ∈ r.head?, p x = false)
    (hr' : ∀ x ∈ r'.head?, p x = false) (h : l ++ r = l' ++ r') : l = l' ∧ r = r' := by
  have hcut : ∀ {l r : List α}, (∀ x ∈ l, p x) → (∀ x ∈ r.head?, p x = false) →
      (l ++ r).takeWhile p = l := by
    intro l r hl hr
    rw [takeWhile_append_of_pos hl]
    cases r with
    | nil => simp
    | cons x => simp [hr x rfl]
  have hll : l = l' := by rw [← hcut hl hr, h, hcut hl' hr']
  subst hll
  exact ⟨rfl, append_cancel_left h⟩

theorem mem_padded {l : List Char} (h : c ∈ padded l) : c = '0' ∨ c ∈ l := by
  rw [padded] at h
  split at h
  · exact mem_cons.1 h
  · exact .inr h

theorem ofDigitChars_padded (l : List Char) :
    Nat.ofDigitChars 10 (padded l) 0 = Nat.ofDigitChars 10 l 0 := by
  rw [padded]
  split
  · rfl
  · rfl

theorem exponentChars_injective : Function.Injective exponentChars := by
  intro e e' h
  obtain ⟨hsign, hdigits⟩ := cons.inj h
  have habs : e.natAbs = e'.natAbs := by
    have := congrArg (Nat.ofDigitChars 10 · 0) hdigits
    simpa [ofDigitChars_padded, Nat.ofDigitChars_ten_toDigits] using this
  split_ifs at hsign with h1 h2 h2
  · omega
  · exact absurd hsign (by decide)
  · exact absurd hsign (by decide)
  · omega

theorem e_not_mem_fixed (whole : ℕ) (fraction : List (Fin 10)) :
    'e' ∉ (FloatForm.fixed whole fraction).chars := by
  intro h
  rcases mem_append.1 h with h | h
  · exact absurd (isDigit_toDigits h) (by decide)
  · rcases mem_cons.1 h with h | h
    · exact absurd h (by decide)
    · obtain ⟨d, -, hd⟩ := mem_map.1 h
      exact absurd (hd ▸ isDigit_digit d) (by decide)

theorem e_mem_scientific (lead : Fin 10) (fraction : List (Fin 10)) (exponent : ℤ) :
    'e' ∈ (FloatForm.scientific lead fraction exponent).chars := by
  simp [FloatForm.chars]

theorem fractionChars_injective {f f' : List (Fin 10)}
    (h : (if f = [] then [] else '.' :: f.map digit) =
      (if f' = [] then [] else '.' :: f'.map digit)) : f = f' := by
  split_ifs at h with h1 h2 h2
  · rw [h1, h2]
  · exact map_injective_iff.2 digit_injective (cons.inj h).2

theorem FloatForm.chars_injective : Function.Injective FloatForm.chars := by
  intro x x' h
  match x, x' with
  | .fixed w f, .fixed w' f' =>
    obtain ⟨hw, hf⟩ := append_inj_of_stop (p := Char.isDigit) (fun _ => isDigit_toDigits)
      (fun _ => isDigit_toDigits) (by simp) (by simp) h
    rw [toDigits_injective hw, map_injective_iff.2 digit_injective (cons.inj hf).2]
  | .fixed w f, .scientific l f' e => exact absurd (h ▸ e_mem_scientific l f' e) (e_not_mem_fixed w f)
  | .scientific l f e, .fixed w f' => exact absurd (h ▸ e_mem_scientific l f e) (e_not_mem_fixed w f')
  | .scientific l f e, .scientific l' f' e' =>
    obtain ⟨hl, h⟩ := cons.inj h
    have hno : ∀ f : List (Fin 10), ∀ c ∈ (if f = [] then [] else '.' :: f.map digit),
        decide (c ≠ 'e') := by
      intro f c hc
      split_ifs at hc
      · cases hc
      · rcases mem_cons.1 hc with rfl | hc
        · decide
        · obtain ⟨d, -, rfl⟩ := mem_map.1 hc
          exact (by decide : ∀ d : Fin 10, decide (digit d ≠ 'e')) d
    obtain ⟨hf, he⟩ := append_inj_of_stop (hno f) (hno f') (by simp) (by simp) h
    rw [digit_injective hl, fractionChars_injective hf, exponentChars_injective (cons.inj he).2]

theorem head_toDigits (n : ℕ) : ∃ c l, Nat.toDigits 10 n = c :: l ∧ c.isDigit := by
  cases hd : Nat.toDigits 10 n with
  | nil => exact absurd hd Nat.toDigits_ne_nil
  | cons c l => exact ⟨c, l, rfl, isDigit_toDigits (hd ▸ mem_cons_self)⟩

theorem head_form (x : FloatForm) : ∃ c l, x.chars = c :: l ∧ c.isDigit := by
  cases x with
  | fixed w =>
    obtain ⟨c, l, hd, hc⟩ := head_toDigits w
    exact ⟨c, _, by rw [FloatForm.chars, hd]; rfl, hc⟩
  | scientific l => exact ⟨digit l, _, rfl, isDigit_digit l⟩

theorem ne_minus {l rest : List Char} (h : ∃ c l', l = c :: l' ∧ c.isDigit) : l ≠ '-' :: rest := by
  rintro rfl
  obtain ⟨c, l', heq, hc⟩ := h
  rw [← (cons.inj heq).1] at hc
  exact absurd hc (by decide)

theorem PyFloat.chars_injective : Function.Injective PyFloat.chars := by
  rintro ⟨s, f, hf⟩ ⟨s', f', hf'⟩ h
  cases s <;> cases s'
  · obtain rfl := FloatForm.chars_injective h
    rfl
  · exact absurd h (ne_minus (head_form _))
  · exact absurd h.symm (ne_minus (head_form _))
  · obtain rfl := FloatForm.chars_injective (cons.inj h).2
    rfl

theorem encodeInt_injective : Function.Injective encodeInt := by
  rintro (m | m) (n | n) h
  · rw [toDigits_injective h]
  · exact absurd h (ne_minus (head_toDigits m))
  · exact absurd h.symm (ne_minus (head_toDigits n))
  · have := toDigits_injective (cons.inj h).2
    rw [Nat.succ.inj this]

theorem isDigit_or_minus {n : ℤ} (h : c ∈ encodeInt n) : c.isDigit ∨ c = '-' := by
  cases n with
  | ofNat => exact .inl (isDigit_toDigits h)
  | negSucc =>
    rcases mem_cons.1 h with rfl | h
    · exact .inr rfl
    · exact .inl (isDigit_toDigits h)

/-- A `float` has a point or an exponent, an `int` has neither. -/
theorem encodeInt_ne_chars (n : ℤ) (x : PyFloat) : encodeInt n ≠ x.chars := by
  intro h
  have hmark : ∃ c ∈ x.chars, c = '.' ∨ c = 'e' := by
    rcases x with ⟨s, f, hf⟩
    have hform : ∃ c ∈ f.chars, c = '.' ∨ c = 'e' := by
      cases f with
      | fixed => exact ⟨'.', by simp [FloatForm.chars], .inl rfl⟩
      | scientific l f e => exact ⟨'e', e_mem_scientific l f e, .inr rfl⟩
    obtain ⟨c, hc, hce⟩ := hform
    refine ⟨c, ?_, hce⟩
    rw [PyFloat.chars]
    split_ifs
    · exact mem_cons_of_mem _ hc
    · exact hc
  obtain ⟨c, hc, hce⟩ := hmark
  rw [← h] at hc
  rcases hce with rfl | rfl <;> rcases isDigit_or_minus hc with hd | hd <;> revert hd <;> decide

/-! ## Values -/

inductive Value where
  | null
  | bool (b : Bool)
  | int (n : ℤ)
  | float (x : PyFloat)
  | str (t : Text)
  | arr (items : List Value)
  | obj (fields : List (Text × Value))

def comma : CodePoint := .scalar ','

def colon : CodePoint := .scalar ':'

mutual
/-- A value, with the keys of its objects in the order in which they stand. -/
def render (a : Bool) : Value → Text
  | .null => ofChars ['n', 'u', 'l', 'l']
  | .bool true => ofChars ['t', 'r', 'u', 'e']
  | .bool false => ofChars ['f', 'a', 'l', 's', 'e']
  | .int n => ofChars (encodeInt n)
  | .float x => ofChars x.chars
  | .str t => quoted a t
  | .arr [] => ofChars ['[', ']']
  | .arr (item :: items) => .scalar '[' :: (render a item ++ renderItems a items)
  | .obj [] => ofChars ['\x7b', '\x7d']
  | .obj ((key, value) :: fields) =>
    .scalar '\x7b' :: (quoted a key ++ colon :: (render a value ++ renderFields a fields))

/-- The further items of an array and its closing bracket. -/
def renderItems (a : Bool) : List Value → Text
  | [] => [.scalar ']']
  | item :: items => comma :: (render a item ++ renderItems a items)

/-- The further fields of an object and its closing brace. -/
def renderFields (a : Bool) : List (Text × Value) → Text
  | [] => [.scalar '\x7d']
  | (key, value) :: fields =>
    comma :: (quoted a key ++ colon :: (render a value ++ renderFields a fields))
end

/-- Keys are compared by their code points. -/
def keyLe (x y : Text × Value) : Prop := x.1.map CodePoint.code ≤ y.1.map CodePoint.code

instance : DecidableRel keyLe := fun _ _ => inferInstanceAs (Decidable (_ ≤ _))

mutual
/-- The value with the keys of its objects sorted. -/
def sorted : Value → Value
  | .arr items => .arr (sortedItems items)
  | .obj fields => .obj ((sortedFields fields).insertionSort keyLe)
  | .null => .null
  | .bool b => .bool b
  | .int n => .int n
  | .float x => .float x
  | .str t => .str t

def sortedItems : List Value → List Value
  | [] => []
  | item :: items => sorted item :: sortedItems items

def sortedFields : List (Text × Value) → List (Text × Value)
  | [] => []
  | (key, value) :: fields => (key, sorted value) :: sortedFields fields
end

/-- `json.dumps(v, sort_keys=True, separators=(",", ":"), ensure_ascii=a)`. -/
def dumps (a : Bool) (v : Value) : Text := render a (sorted v)

mutual
/-- The texts in a value: strings and keys. -/
def texts : Value → List Text
  | .str t => [t]
  | .arr items => textsItems items
  | .obj fields => textsFields fields
  | .null | .bool _ | .int _ | .float _ => []

def textsItems : List Value → List Text
  | [] => []
  | item :: items => texts item ++ textsItems items

def textsFields : List (Text × Value) → List Text
  | [] => []
  | (key, value) :: fields => key :: (texts value ++ textsFields fields)
end

/-! ## A text determines its value -/

/-- What the first character of a value says about the value. -/
inductive Shape where
  | null | true | false | number | str | arr | obj
deriving DecidableEq

def Value.shape : Value → Shape
  | .null => .null
  | .bool b => if b then .true else .false
  | .int _ | .float _ => .number
  | .str _ => .str
  | .arr _ => .arr
  | .obj _ => .obj

def isNumberPoint : CodePoint → Bool
  | .scalar c => isNumberChar c
  | .surrogate _ => false

/-- The shape of the values that start with a character. -/
def leading (c : CodePoint) : Option Shape :=
  if c = .scalar 'n' then some .null
  else if c = .scalar 't' then some .true
  else if c = .scalar 'f' then some .false
  else if c = quote then some .str
  else if c = .scalar '[' then some .arr
  else if c = .scalar '\x7b' then some .obj
  else if isNumberPoint c then some .number
  else none

/-- A text that does not go on with a number. -/
def Stops (rest : Text) : Prop := ∀ c ∈ rest.head?, isNumberPoint c = false

theorem stops_nil : Stops [] := by
  simp [Stops]

theorem leading_number (h : c.isDigit ∨ c = '-') : leading (.scalar c) = some .number := by
  rcases h with h | rfl
  · have hne : ∀ d : Char, d.isDigit = false → c ≠ d := by
      rintro d hd rfl
      cases h.symm.trans hd
    have hn : isNumberPoint (.scalar c) := by simp [isNumberPoint, isNumberChar, h]
    simp [leading, quote, hn, hne 'n' (by decide), hne 't' (by decide), hne 'f' (by decide),
      hne '"' (by decide), hne '[' (by decide), hne '\x7b' (by decide)]
  · decide

theorem isNumberChar_int {n : ℤ} (h : c ∈ encodeInt n) : isNumberChar c := by
  rcases isDigit_or_minus h with hd | rfl
  · simp [isNumberChar, hd]
  · decide

theorem isNumberChar_float {x : PyFloat} (h : c ∈ x.chars) : isNumberChar c := by
  have hdigit : ∀ d : Fin 10, isNumberChar (digit d) := by decide
  have hdigits : ∀ n : ℕ, ∀ c ∈ Nat.toDigits 10 n, isNumberChar c := by
    intro n c hc
    simp [isNumberChar, isDigit_toDigits hc]
  have hfraction : ∀ f : List (Fin 10), ∀ c ∈ '.' :: f.map digit, isNumberChar c := by
    intro f c hc
    rcases mem_cons.1 hc with rfl | hc
    · decide
    · obtain ⟨d, -, rfl⟩ := mem_map.1 hc
      exact hdigit d
  have hform : ∀ c ∈ x.form.chars, isNumberChar c := by
    intro c hc
    cases hx : x.form with
    | fixed w f =>
      rw [hx] at hc
      exact (mem_append.1 hc).elim (hdigits w c) (hfraction f c)
    | scientific l f =>
      rw [hx] at hc
      rcases mem_cons.1 hc with rfl | hc
      · exact hdigit l
      · rcases mem_append.1 hc with hc | hc
        · split_ifs at hc
          · cases hc
          · exact hfraction f c hc
        · rcases mem_cons.1 hc with rfl | hc
          · decide
          · rcases mem_cons.1 hc with rfl | hc
            · split_ifs <;> decide
            · rcases mem_padded hc with rfl | hc
              · decide
              · exact hdigits _ c hc
  rw [PyFloat.chars] at h
  split_ifs at h
  · rcases mem_cons.1 h with rfl | h
    · decide
    · exact hform c h
  · exact hform c h

theorem head_encodeInt (n : ℤ) : ∃ c l, encodeInt n = c :: l ∧ (c.isDigit ∨ c = '-') := by
  cases hn : encodeInt n with
  | nil => cases n <;> simp [encodeInt] at hn
  | cons c l => exact ⟨c, l, rfl, isDigit_or_minus (hn ▸ mem_cons_self)⟩

theorem head_float (x : PyFloat) : ∃ c l, x.chars = c :: l ∧ (c.isDigit ∨ c = '-') := by
  rw [PyFloat.chars]
  split_ifs
  · exact ⟨'-', _, rfl, .inr rfl⟩
  · obtain ⟨c, l, h, hd⟩ := head_form x.form
    exact ⟨c, l, h, .inl hd⟩

theorem head_render (a : Bool) (v : Value) :
    ∃ c l, render a v = c :: l ∧ leading c = some v.shape := by
  cases v with
  | null => exact ⟨_, _, rfl, by decide⟩
  | bool b => cases b <;> exact ⟨_, _, rfl, by decide⟩
  | int n =>
    obtain ⟨c, l, h, hc⟩ := head_encodeInt n
    exact ⟨.scalar c, ofChars l, by rw [render, h]; rfl, leading_number hc⟩
  | float x =>
    obtain ⟨c, l, h, hc⟩ := head_float x
    exact ⟨.scalar c, ofChars l, by rw [render, h]; rfl, leading_number hc⟩
  | str => exact ⟨quote, _, rfl, show leading quote = some .str by decide⟩
  | arr items =>
    have h : leading (.scalar '[') = some .arr := by decide
    cases items with
    | nil => exact ⟨_, _, rfl, h⟩
    | cons => exact ⟨_, _, by rw [render], h⟩
  | obj fields =>
    have h : leading (.scalar '\x7b') = some .obj := by decide
    rcases fields with _ | ⟨⟨key, value⟩, fields⟩
    · exact ⟨_, _, rfl, h⟩
    · exact ⟨_, _, by rw [render], h⟩

theorem shape_eq {v v' : Value}
    (h : render a v ++ rest = render a' v' ++ rest') : v.shape = v'.shape := by
  obtain ⟨c, l, hv, hc⟩ := head_render a v
  obtain ⟨c', l', hv', hc'⟩ := head_render a' v'
  rw [hv, hv'] at h
  obtain rfl := (cons.inj h).1
  exact Option.some.inj (hc.symm.trans hc')

/-- A character that starts no value is not the first of one. -/
theorem render_ne_of_leading {v : Value} {c : CodePoint}
    (hc : leading c = none) : render a v ++ rest ≠ c :: rest' := by
  obtain ⟨c', l, hv, hc'⟩ := head_render a v
  intro h
  rw [hv] at h
  rw [(cons.inj h).1, hc] at hc'
  cases hc'

theorem stops_renderItems {a : Bool} {items : List Value} {rest : Text} :
    Stops (renderItems a items ++ rest) := by
  cases items <;> simp only [renderItems] <;> rintro c ⟨⟩ <;> decide

variable {fields : List (Text × Value)}

theorem stops_renderFields {a : Bool} {rest : Text} : Stops (renderFields a fields ++ rest) := by
  rcases fields with _ | ⟨⟨key, value⟩,
    fields⟩ <;> simp only [renderFields] <;> rintro c ⟨⟩ <;> decide

theorem number_inj {l l' : List Char} (hl : ∀ c ∈ l, isNumberChar c)
    (hl' : ∀ c ∈ l', isNumberChar c) (hr : Stops rest) (hr' : Stops rest')
    (h : ofChars l ++ rest = ofChars l' ++ rest') : l = l' ∧ rest = rest' := by
  have hpoint : ∀ {l : List Char}, (∀ c ∈ l, isNumberChar c) →
      ∀ c ∈ ofChars l, isNumberPoint c := by
    intro l hl c hc
    obtain ⟨d, hd, rfl⟩ := mem_map.1 hc
    exact hl d hd
  obtain ⟨hll, hrr⟩ := append_inj_of_stop (hpoint hl) (hpoint hl') hr hr' h
  exact ⟨ofChars_injective hll, hrr⟩

/-- All texts of the value are determined by their literals. -/
def Readable (a : Bool) (ts : List Text) : Prop := ∀ t ∈ ts, Text.readable a t

theorem Readable.left {ts' : List Text} (h : Readable a (ts ++ ts')) : Readable a ts :=
  fun t ht => h t (mem_append_left _ ht)

theorem Readable.right {ts' : List Text} (h : Readable a (ts ++ ts')) :
    Readable a ts' := fun t ht => h t (mem_append_right _ ht)

theorem Readable.head (h : Readable a (t :: ts)) : Text.readable a t := h t mem_cons_self

theorem Readable.tail (h : Readable a (t :: ts)) :
    Readable a ts := fun t ht => h t (mem_cons_of_mem _ ht)

theorem shape_eq_true {v : Value} (h : v.shape = .true) : v = .bool true := by
  rcases v with _ | b | _ | _ | _ | _ | _ <;> first | cases h | (cases b <;> first | rfl | cases h)

theorem shape_eq_false {v : Value} (h : v.shape = .false) : v = .bool false := by
  rcases v with _ | b | _ | _ | _ | _ | _ <;> first | cases h | (cases b <;> first | rfl | cases h)

theorem shape_eq_number {v : Value} (h : v.shape = .number) :
    (∃ n, v = .int n) ∨ ∃ x, v = .float x := by
  rcases v with _ | b | n | x | _ | _ | _
  · cases h
  · cases b <;> cases h
  · exact .inl ⟨n, rfl⟩
  · exact .inr ⟨x, rfl⟩
  all_goals cases h

mutual
theorem render_inj : ∀ (v v' : Value) {rest rest' : Text}, Readable a (texts v) →
    Readable a' (texts v') → Stops rest → Stops rest' →
    render a v ++ rest = render a' v' ++ rest' → v = v' ∧ rest = rest'
  | .null, v', rest, rest', _, _, _, _, h => by
    obtain rfl : v' = .null := by
      have hs := (shape_eq h).symm
      rcases v' with _ | b | _ | _ | _ | _ | _ <;> first | rfl | cases hs | (cases b <;> cases hs)
    exact ⟨rfl, append_cancel_left h⟩
  | .bool true, v', _, _, _, _, _, _, h => by
    obtain rfl := shape_eq_true (shape_eq h).symm
    exact ⟨rfl, append_cancel_left h⟩
  | .bool false, v', _, _, _, _, _, _, h => by
    obtain rfl := shape_eq_false (shape_eq h).symm
    exact ⟨rfl, append_cancel_left h⟩
  | .int m, v', _, _, _, _, hr, hr', h => by
    rcases shape_eq_number (shape_eq h).symm with ⟨n, rfl⟩ | ⟨y, rfl⟩
    · obtain ⟨hmn, hrest⟩ :=
        number_inj (fun _ => isNumberChar_int) (fun _ => isNumberChar_int) hr hr' h
      exact ⟨by rw [encodeInt_injective hmn], hrest⟩
    · have := number_inj (fun _ => isNumberChar_int) (fun _ => isNumberChar_float) hr hr' h
      exact absurd this.1 (encodeInt_ne_chars m y)
  | .float x, v', _, _, _, _, hr, hr', h => by
    rcases shape_eq_number (shape_eq h).symm with ⟨n, rfl⟩ | ⟨y, rfl⟩
    · have := number_inj (fun _ => isNumberChar_float) (fun _ => isNumberChar_int) hr hr' h
      exact absurd this.1.symm (encodeInt_ne_chars n x)
    · obtain ⟨hxy, hrest⟩ :=
        number_inj (fun _ => isNumberChar_float) (fun _ => isNumberChar_float) hr hr' h
      exact ⟨by rw [PyFloat.chars_injective hxy], hrest⟩
  | .str t, v', _, _, hv, hv', _, _, h => by
    obtain ⟨t', rfl⟩ : ∃ t', v' = .str t' := by
      have hs := (shape_eq h).symm
      rcases v' with _ | b | _ | _ | t' | _ | _ <;>
        first | exact ⟨t', rfl⟩ | cases hs | (cases b <;> cases hs)
    obtain ⟨rfl, hrest⟩ := quoted_inj hv.head hv'.head h
    exact ⟨rfl, hrest⟩
  | .arr items, v', _, _, hv, hv', _, _, h => by
    obtain ⟨items', rfl⟩ : ∃ items', v' = .arr items' := by
      have hs := (shape_eq h).symm
      rcases v' with _ | b | _ | _ | _ | items' | _ <;>
        first | exact ⟨items', rfl⟩ | cases hs | (cases b <;> cases hs)
    match items, items' with
    | [], [] => exact ⟨rfl, append_cancel_left h⟩
    | [], item :: items =>
      simp only [render, cons_append, append_assoc] at h
      exact absurd (cons.inj h).2.symm (render_ne_of_leading (by decide))
    | item :: items, [] =>
      simp only [render, cons_append, append_assoc] at h
      exact absurd (cons.inj h).2 (render_ne_of_leading (by decide))
    | item :: items, item' :: items' =>
      -- the items of an array after its bracket are those after a comma
      obtain ⟨hl, hrest⟩ := renderItems_inj (item :: items) (item' :: items') hv hv'
        (congrArg (List.cons comma) (cons.inj h).2)
      exact ⟨congrArg Value.arr hl, hrest⟩
  | .obj fields, v', _, _, hv, hv', _, _, h => by
    obtain ⟨fields', rfl⟩ : ∃ fields', v' = .obj fields' := by
      have hs := (shape_eq h).symm
      rcases v' with _ | b | _ | _ | _ | _ | fields' <;>
        first | exact ⟨fields', rfl⟩ | cases hs | (cases b <;> cases hs)
    match fields, fields' with
    | [], [] => exact ⟨rfl, append_cancel_left h⟩
    | [], (_, _) :: _ | (_, _) :: _, [] =>
      simp only [render, quoted, cons_append, append_assoc] at h
      exact absurd (cons.inj (cons.inj h).2).1 (by decide)
    | (key, value) :: fields, (key', value') :: fields' =>
      obtain ⟨hl, hrest⟩ := renderFields_inj ((key, value) :: fields) ((key', value') :: fields')
        hv hv' (congrArg (List.cons comma) (cons.inj h).2)
      exact ⟨congrArg Value.obj hl, hrest⟩

theorem renderItems_inj : ∀ (l l' : List Value) {rest rest' : Text},
    Readable a (textsItems l) → Readable a' (textsItems l') →
    renderItems a l ++ rest = renderItems a' l' ++ rest' → l = l' ∧ rest = rest'
  | [], [], _, _, _, _, h => ⟨rfl, (cons.inj h).2⟩
  | [], _ :: _, _, _, _, _, h | _ :: _, [], _, _, _, _, h => by
    simp only [renderItems, cons_append] at h
    exact absurd (cons.inj h).1 (by decide)
  | item :: items, item' :: items', _, _, hv, hv', h => by
    simp only [renderItems, cons_append, append_assoc] at h
    obtain ⟨rfl, h1⟩ := render_inj item item' hv.left hv'.left stops_renderItems
      stops_renderItems (cons.inj h).2
    obtain ⟨rfl, hrest⟩ := renderItems_inj items items' hv.right hv'.right h1
    exact ⟨rfl, hrest⟩

theorem renderFields_inj : ∀ (l l' : List (Text × Value)) {rest rest' : Text},
    Readable a (textsFields l) → Readable a' (textsFields l') →
    renderFields a l ++ rest = renderFields a' l' ++ rest' → l = l' ∧ rest = rest'
  | [], [], _, _, _, _, h => ⟨rfl, (cons.inj h).2⟩
  | [], (_, _) :: _, _, _, _, _, h | (_, _) :: _, [], _, _, _, _, h => by
    simp only [renderFields, cons_append] at h
    exact absurd (cons.inj h).1 (by decide)
  | (key, value) :: fields, (key', value') :: fields', _, _, hv, hv', h => by
    simp only [renderFields, cons_append, append_assoc] at h
    obtain ⟨rfl, h1⟩ := quoted_inj hv.head hv'.head (cons.inj h).2
    obtain ⟨rfl, h2⟩ := render_inj value value' hv.tail.left hv'.tail.left
      stops_renderFields stops_renderFields (cons.inj h1).2
    obtain ⟨rfl, hrest⟩ := renderFields_inj fields fields' hv.tail.right hv'.tail.right h2
    exact ⟨rfl, hrest⟩
end

/-! ## Sorting the keys -/

instance : IsTrans (Text × Value) keyLe := ⟨fun _ _ _ => le_trans⟩

instance : Std.Total (α := Text × Value) keyLe := ⟨fun _ _ => le_total _ _⟩

theorem code_injective : Function.Injective CodePoint.code := by
  rintro (c | m) (d | n) h <;> simp only [CodePoint.code] at h
  · rw [Char.toNat_inj.1 h]
  · have := char_valid c
    omega
  · have := char_valid d
    omega
  · rw [Fin.ext (Nat.add_left_cancel h)]

variable {l l' : List (Text × Value)}

/-- Fields with distinct keys have one sorted order. -/
theorem insertionSort_eq_of_perm (h : l.Perm l')
    (hn : (l.map Prod.fst).Nodup) : l.insertionSort keyLe = l'.insertionSort keyLe := by
  have hp : (l.insertionSort keyLe).Perm (l'.insertionSort keyLe) :=
    (perm_insertionSort _ l).trans (h.trans (perm_insertionSort _ l').symm)
  refine hp.eq_of_pairwise ?_ (pairwise_insertionSort _ _) (pairwise_insertionSort _ _)
  intro x y hx hy hxy hyx
  have hmem : ∀ {z}, z ∈ l.insertionSort keyLe → z ∈ l :=
    fun hz => (perm_insertionSort _ l).mem_iff.1 hz
  have hkey : x.1 = y.1 := map_injective_iff.2 code_injective (le_antisymm hxy hyx)
  exact inj_on_of_nodup_map hn (hmem hx) (hmem (hp.mem_iff.2 hy)) hkey

theorem mem_textsItems {items : List Value} : t ∈ textsItems items ↔ ∃ v ∈ items, t ∈ texts v := by
  induction items with
  | nil => simp [textsItems]
  | cons item items ih => simp [textsItems, ih]

theorem mem_textsFields : t ∈ textsFields fields ↔ ∃ f ∈ fields, t = f.1 ∨ t ∈ texts f.2 := by
  induction fields with
  | nil => simp [textsFields]
  | cons f fields ih =>
    simp [textsFields, ih, or_assoc]

mutual
theorem mem_texts_sorted : ∀ v : Value, t ∈ texts (sorted v) → t ∈ texts v
  | .null, h | .bool _, h | .int _, h | .float _, h | .str _, h => h
  | .arr items, h => mem_texts_sortedItems items h
  | .obj fields, h => by
    rw [sorted, texts, mem_textsFields] at h
    obtain ⟨f, hf, ht⟩ := h
    refine mem_texts_sortedFields fields (mem_textsFields.2 ⟨f, ?_, ht⟩)
    exact (perm_insertionSort _ _).mem_iff.1 hf

theorem mem_texts_sortedItems :
    ∀ items : List Value, t ∈ textsItems (sortedItems items) → t ∈ textsItems items
  | [], h => h
  | item :: items, h => by
    rcases mem_append.1 h with h | h
    · exact mem_append_left _ (mem_texts_sorted item h)
    · exact mem_append_right _ (mem_texts_sortedItems items h)

theorem mem_texts_sortedFields :
    ∀ fields : List (Text × Value), t ∈ textsFields (sortedFields fields) → t ∈ textsFields fields
  | [], h => h
  | (key, value) :: fields, h => by
    rcases mem_cons.1 h with rfl | h
    · exact mem_cons_self
    · rcases mem_append.1 h with h | h
      · exact mem_cons_of_mem _ (mem_append_left _ (mem_texts_sorted value h))
      · exact mem_cons_of_mem _ (mem_append_right _ (mem_texts_sortedFields fields h))
end

/-- The text of a value determines the value up to the order of its keys. -/
theorem dumps_inj {v v' : Value} (hv : Readable a (texts v))
    (hv' : Readable a' (texts v')) (h : dumps a v = dumps a' v') : sorted v = sorted v' := by
  refine (render_inj (sorted v) (sorted v') (fun t ht => hv t (mem_texts_sorted v ht))
    (fun t ht => hv' t (mem_texts_sorted v' ht)) stops_nil stops_nil ?_).1
  rw [append_nil, append_nil]
  exact h

/-- Values are compared by their texts. -/
instance : DecidableEq Value := fun v v' =>
  decidable_of_iff (render false v = render false v') (by
    refine ⟨fun h => ?_, fun h => h ▸ rfl⟩
    have hr : ∀ ts, Readable false ts := fun _ _ _ => rfl
    exact (render_inj v v' (hr _) (hr _) stops_nil stops_nil
      ((List.append_nil _).trans (h.trans (List.append_nil _).symm))).1)

/-! ## Canonical values -/

theorem sortedFields_eq (fields : List (Text × Value)) :
    sortedFields fields = fields.map fun f => (f.1, sorted f.2) := by
  induction fields with
  | nil => rfl
  | cons f fields ih => rw [sortedFields, ih, map_cons]

theorem keys_sortedFields (fields : List (Text × Value)) :
    (sortedFields fields).map Prod.fst = fields.map Prod.fst := by
  rw [sortedFields_eq, map_map]
  rfl

mutual
def distinct : Value → Bool
  | .arr items => distinctItems items
  | .obj fields => decide (fields.map Prod.fst).Nodup && distinctFields fields
  | .null | .bool _ | .int _ | .float _ | .str _ => true

def distinctItems : List Value → Bool
  | [] => true
  | item :: items => distinct item && distinctItems items

def distinctFields : List (Text × Value) → Bool
  | [] => true
  | (_, value) :: fields => distinct value && distinctFields fields
end

theorem distinctFields_iff : distinctFields fields ↔ ∀ f ∈ fields, distinct f.2 := by
  induction fields with
  | nil => simp [distinctFields]
  | cons f fields ih => simp [distinctFields, ih]

mutual
theorem sorted_sorted : ∀ v : Value, sorted (sorted v) = sorted v
  | .null | .bool _ | .int _ | .float _ | .str _ => rfl
  | .arr items => congrArg Value.arr (sortedItems_sortedItems items)
  | .obj fields => by
    have hmap := map_insertionSort keyLe keyLe (fun f : Text × Value => (f.1, sorted f.2))
      (sortedFields fields) (fun _ _ _ _ => Iff.rfl)
    rw [sorted, sorted, sortedFields_eq (List.insertionSort _ _), hmap, ← sortedFields_eq,
      sortedFields_sortedFields fields, (pairwise_insertionSort keyLe _).insertionSort_eq]

theorem sortedItems_sortedItems : ∀ items : List Value,
    sortedItems (sortedItems items) = sortedItems items
  | [] => rfl
  | item :: items => congrArg₂ List.cons (sorted_sorted item) (sortedItems_sortedItems items)

theorem sortedFields_sortedFields : ∀ fields : List (Text × Value),
    sortedFields (sortedFields fields) = sortedFields fields
  | [] => rfl
  | (key, value) :: fields =>
    congrArg₂ List.cons (congrArg (Prod.mk key) (sorted_sorted value))
      (sortedFields_sortedFields fields)
end

mutual
theorem distinct_sorted : ∀ v : Value, distinct v → distinct (sorted v)
  | .null, h | .bool _, h | .int _, h | .float _, h | .str _, h => h
  | .arr items, h => distinctItems_sortedItems items h
  | .obj fields, h => by
    simp only [distinct, bool_to_prop] at h
    have hp : ((sortedFields fields).insertionSort keyLe).Perm (sortedFields fields) :=
      perm_insertionSort _ _
    have hd := distinctFields_sortedFields fields h.2
    simp only [sorted, distinct, bool_to_prop]
    refine ⟨(hp.map _).nodup_iff.2 (keys_sortedFields fields ▸ h.1), distinctFields_iff.2 fun f hf => ?_⟩
    exact distinctFields_iff.1 hd f (hp.mem_iff.1 hf)

theorem distinctItems_sortedItems : ∀ items : List Value, distinctItems items →
    distinctItems (sortedItems items)
  | [], h => h
  | item :: items, h => by
    simp only [distinctItems, sortedItems, Bool.and_eq_true] at h ⊢
    exact ⟨distinct_sorted item h.1, distinctItems_sortedItems items h.2⟩

theorem distinctFields_sortedFields : ∀ fields : List (Text × Value),
    distinctFields fields → distinctFields (sortedFields fields)
  | [], h => h
  | (_, value) :: fields, h => by
    simp only [distinctFields, sortedFields, Bool.and_eq_true] at h ⊢
    exact ⟨distinct_sorted value h.1, distinctFields_sortedFields fields h.2⟩
end

/-- The value that a canonical text stands for. -/
structure Canonical where
  value : Value
  isSorted : sorted value = value
  isDistinct : distinct value
deriving DecidableEq

def Canonical.ofValue (v : Value) (h : distinct v) : Canonical :=
  ⟨sorted v, sorted_sorted v, distinct_sorted v h⟩

/-- Lists of fields with the same keys in the same order are equal if they list the same fields. -/
theorem eq_of_perm_of_keys (hk : l.map Prod.fst = l'.map Prod.fst)
    (hn : (l.map Prod.fst).Nodup) (h : l.Perm l') : l = l' := by
  induction l generalizing l' with
  | nil => exact (map_eq_nil_iff.1 hk.symm).symm
  | cons f l ih =>
    obtain _ | ⟨f', l'⟩ := l'
    · cases hk
    · obtain ⟨hf, hl⟩ := cons.inj hk
      rw [map_cons, nodup_cons] at hn
      rcases mem_cons.1 (h.mem_iff.1 mem_cons_self) with rfl | hmem
      · rw [ih hl hn.2 (Perm.cons_inv h)]
      · exact absurd (hl ▸ mem_map_of_mem hmem) hn.1

theorem sorted_obj_inj (h : sorted (.obj l) = sorted (.obj l'))
    (hk : l.map Prod.fst = l'.map Prod.fst) (hn : (l.map Prod.fst).Nodup) :
    sortedFields l = sortedFields l' := by
  refine eq_of_perm_of_keys (by rw [keys_sortedFields, keys_sortedFields, hk])
    ((keys_sortedFields l).symm ▸ hn) ?_
  exact (perm_insertionSort keyLe _).symm.trans (Value.obj.inj h ▸ perm_insertionSort keyLe _)

theorem dumps_obj_inj (hk : l.map Prod.fst = l'.map Prod.fst) (hn : (l.map Prod.fst).Nodup)
    (hl : Readable a (texts (.obj l))) (hl' : Readable a' (texts (.obj l')))
    (h : dumps a (.obj l) = dumps a' (.obj l')) : sortedFields l = sortedFields l' :=
  sorted_obj_inj (dumps_inj hl hl' h) hk hn

theorem sortedItems_eq (items : List Value) : sortedItems items = items.map sorted := by
  induction items with
  | nil => rfl
  | cons item items ih => rw [sortedItems, ih, map_cons]

mutual
theorem wellFormed_render : ∀ v : Value, (render true v).wellFormed
  | .null | .bool true | .bool false | .arr [] | .obj [] => rfl
  | .int _ | .float _ => wellFormed_ofChars _
  | .str t => wellFormed_quoted t
  | .arr (item :: items) => wellFormed_renderItems (item :: items)
  | .obj ((key, value) :: fields) => wellFormed_renderFields ((key, value) :: fields)

theorem wellFormed_renderItems : ∀ items : List Value, (renderItems true items).wellFormed
  | [] => rfl
  | item :: items => by
    change (render true item ++ renderItems true items).wellFormed
    rw [wellFormed_append, wellFormed_render item, wellFormed_renderItems items]
    rfl

theorem wellFormed_renderFields : ∀ fields : List (Text × Value), (renderFields true fields).wellFormed
  | [] => rfl
  | (key, value) :: fields => by
    change (quoted true key ++ colon :: (render true value ++ renderFields true fields)).wellFormed
    rw [wellFormed_append, wellFormed_quoted]
    change (render true value ++ renderFields true fields).wellFormed
    rw [wellFormed_append, wellFormed_render value, wellFormed_renderFields fields]
    rfl
end

theorem encode_dumps (v : Value) : ∃ b, encode (dumps true v) = some b :=
  encode_eq_some (wellFormed_render _)

end AstralPlane.Python
