/-
  Tables as lists of rows.

  `updateWhere p f` is `UPDATE … SET f WHERE p`, `firstBy` is `ORDER BY … LIMIT 1`.
  Both come with the lemmas by which an invariant of the rows is carried across
  a statement: what a row of the new table was in the old one, and that keys
  which `f` does not write keep their order.
-/
import Mathlib.Data.List.Dedup
import Mathlib.Data.List.Perm.Basic
import Mathlib.Data.List.Sort

namespace AstralPlane

open List

variable {α κ : Type}

/-! ## `UPDATE … WHERE …` -/

/-- The rows after `f` has been applied to those that satisfy `p`. -/
def updateWhere (p : α → Bool) (f : α → α) (rows : List α) : List α :=
  rows.map fun r => if p r then f r else r

variable {rows : List α} {f : α → α} {p : α → Bool}

theorem mem_updateWhere {r' : α} :
    r' ∈ updateWhere p f rows ↔ (∃ r ∈ rows, p r ∧ r' = f r) ∨ (r' ∈ rows ∧ p r' = false) := by
  simp only [updateWhere, mem_map]
  constructor
  · rintro ⟨r, hr, rfl⟩
    by_cases h : p r
    · exact .inl ⟨r, hr, h, by simp [h]⟩
    · exact .inr (by simp [h, hr])
  · rintro (⟨r, hr, h, rfl⟩ | ⟨hr, h⟩)
    · exact ⟨r, hr, by simp [h]⟩
    · exact ⟨r', hr, by simp [h]⟩

/-- A column that the statement does not write keeps its values, in order. -/
theorem map_updateWhere {k : α → κ} (h : ∀ r, k (f r) = k r)
    (rows : List α) : (updateWhere p f rows).map k = rows.map k := by
  simp only [updateWhere, map_map]
  refine map_congr_left fun r _ => ?_
  by_cases hp : p r = true <;> simp [hp, h]

theorem updateWhere_of_none (h : ∀ r ∈ rows, p r = false) : updateWhere p f rows = rows := by
  rw [updateWhere, map_congr_left (g := id) fun r hr => by simp [h r hr], map_id]

variable {p q : α → Bool}

/-- Selecting rows by a condition that the statement does not change commutes with it. -/
theorem filter_updateWhere (h : ∀ r, p r → q (f r) = q r)
    (rows : List α) : (updateWhere p f rows).filter q = updateWhere p f (rows.filter q) := by
  simp only [updateWhere, filter_map]
  congr 1
  refine filter_congr fun r _ => ?_
  by_cases hp : p r = true <;> simp [hp, h]

/-- Looking up a key that the statement does not change finds the updated row. -/
theorem find?_updateWhere (h : ∀ r, p r → q (f r) = q r)
    (rows : List α) : (updateWhere p f rows).find? q =
      (rows.find? q).map fun r => if p r then f r else r := by
  simp only [updateWhere, List.find?_map]
  congr 2
  funext r
  by_cases hp : p r = true <;> simp [hp, h]

/-- The first row that a looser condition finds is the first that a stricter one finds. -/
theorem find?_of_imp {a : α} (h : rows.find? q = some a)
    (hpq : ∀ b, p b → q b) (ha : p a) : rows.find? p = some a := by
  obtain ⟨-, before, rest, rfl, hno⟩ := List.find?_eq_some_iff_append.1 h
  refine List.find?_eq_some_iff_append.2 ⟨ha, before, rest, rfl, fun b hb => ?_⟩
  have hq := hno b hb
  cases hp : p b with
  | false => rfl
  | true => simp [hpq b hp] at hq

/-- A statement that selects exactly one row changes that row and leaves the rest. -/
theorem updateWhere_one (h : rows.countP p = 1) :
    ∃ a rest, p a ∧ rows.Perm (a :: rest) ∧ (∀ b ∈ rest, p b = false) ∧
      (updateWhere p f rows).Perm (f a :: rest) := by
  have hf : (rows.filter p).length = 1 := by rw [← countP_eq_length_filter]; exact h
  obtain ⟨a, ha⟩ := length_eq_one_iff.1 hf
  have hp : rows.Perm (a :: rows.filter (fun r => !p r)) := by
    have := filter_append_perm p rows
    rw [ha] at this
    exact this.symm
  have hpa : p a := of_mem_filter (by rw [ha]; exact mem_singleton_self a)
  have hrest : ∀ b ∈ rows.filter (fun r => !p r), p b = false := by
    intro b hb; simpa using of_mem_filter hb
  refine ⟨a, _, hpa, hp, hrest, ?_⟩
  have hu := hp.map (fun r => if p r then f r else r)
  rw [map_cons, if_pos hpa] at hu
  have := updateWhere_of_none (f := f) hrest
  rw [updateWhere] at this
  rw [this] at hu
  exact hu

/-! ## `ORDER BY … LIMIT 1` -/

/-- The first row in the order `lt`; of rows that are not ordered, the one that comes first. -/
def firstBy (lt : α → α → Bool) : List α → Option α
  | [] => none
  | a :: l =>
    match firstBy lt l with
    | none => some a
    | some b => if lt b a then some b else some a

variable {lt : α → α → Bool}

theorem firstBy_mem : ∀ {l : List α} {a : α}, firstBy lt l = some a → a ∈ l
  | [], _, h => by cases h
  | b :: l, a, h => by
    rw [firstBy] at h
    split at h
    · cases h; exact mem_cons_self
    · rename_i c hc
      split at h <;> cases h
      · exact mem_cons_of_mem _ (firstBy_mem hc)
      · exact mem_cons_self

variable {l : List α}

theorem firstBy_eq_none : firstBy lt l = none ↔ l = [] := by
  cases l with
  | nil => simp [firstBy]
  | cons =>
    simp only [firstBy, reduceCtorEq, iff_false]
    split
    · simp
    · split <;> simp

/-- The first row has the least key. -/
theorem firstBy_le [LinearOrder κ] {f : α → κ}
    (hlt : ∀ a b, lt a b ↔ f a < f b) {a : α} (h : firstBy lt l = some a) : ∀ b ∈ l, f a ≤ f b := by
  induction l generalizing a with
  | nil => cases h
  | cons b l ih =>
    rw [firstBy] at h
    split at h
    · rename_i hn
      cases h
      simp [firstBy_eq_none.1 hn]
    · rename_i c hc
      split at h <;> rename_i hcb <;> cases h
      · exact forall_mem_cons.2 ⟨((hlt _ _).1 hcb).le, ih hc⟩
      · have hbc : f b ≤ f c := not_lt.1 fun h => hcb ((hlt _ _).2 h)
        exact forall_mem_cons.2 ⟨le_rfl, fun d hd => hbc.trans (ih hc d hd)⟩

/-! ## `ORDER BY` -/

/-- The rows in the order of a key of two parts. -/
def orderBy (key : α → ℕ × ℕ) (rows : List α) : List α :=
  rows.insertionSort fun a b => (key a).1 < (key b).1 ∨ ((key a).1 = (key b).1 ∧ (key a).2 ≤ (key b).2)

theorem orderBy_perm (key : α → ℕ × ℕ) (rows : List α) : (orderBy key rows).Perm rows :=
  perm_insertionSort _ rows

@[simp] theorem mem_orderBy {key : α → ℕ × ℕ} {a : α} :
    a ∈ orderBy key rows ↔ a ∈ rows := (orderBy_perm key rows).mem_iff

section
variable {order : α → α → Prop} [DecidableRel order] {limit : ℕ}

/-- `LIMIT` of an `ORDER BY` of a `WHERE`. -/
theorem mem_candidates {a : α} (h : a ∈ ((rows.filter p).insertionSort order).take limit) :
    a ∈ rows ∧ p a :=
  mem_filter.1 ((mem_insertionSort order).1 (mem_of_mem_take h))

/-- The keys that are left when some of the rows that satisfy `p` are deleted. -/
structure Swept (p : α → Bool) (key : α → κ) (rows : List α) (left : List κ) : Prop where
  rest : left.Sublist (rows.map key)
  only : ∀ a ∈ rows, key a ∉ left → p a
  some : left.length < rows.length ↔ ∃ a ∈ rows, p a

theorem swept_candidates [DecidableEq κ] {key : α → κ} (hk : (rows.map key).Nodup) (hl : 0 < limit) :
    Swept p key rows ((rows.filter fun a =>
      key a ∉ (((rows.filter p).insertionSort order).take limit).map key).map key) where
  rest := filter_sublist.map _
  only a ha hleft := by
    have hgone : key a ∈ (((rows.filter p).insertionSort order).take limit).map key := by
      by_contra hn
      exact hleft (mem_map_of_mem (mem_filter.2 ⟨ha, decide_eq_true hn⟩))
    obtain ⟨c, hc, hkey⟩ := mem_map.1 hgone
    obtain ⟨hrow, hp⟩ := mem_candidates hc
    rwa [inj_on_of_nodup_map hk hrow ha hkey] at hp
  some := by
    rw [length_map, length_filter_lt_length_iff_exists]
    constructor
    · rintro ⟨_, -, hgone⟩
      obtain ⟨c, hc, -⟩ := mem_map.1 (not_not.1 fun hn => hgone (decide_eq_true hn))
      exact ⟨c, mem_candidates hc⟩
    · rintro ⟨a, ha, hp⟩
      obtain ⟨c, hc⟩ : ∃ c, c ∈ ((rows.filter p).insertionSort order).take limit := by
        refine exists_mem_of_ne_nil _ fun hnil => ?_
        rcases take_eq_nil_iff.1 hnil with h | h
        · omega
        · have hmem := (mem_insertionSort order).2 (mem_filter.2 ⟨ha, hp⟩)
          rw [h] at hmem
          cases hmem
      refine ⟨c, (mem_candidates hc).1, fun hn => ?_⟩
      exact of_decide_eq_true hn (mem_map_of_mem hc)

end

/-! ## Lists that go together -/

section
variable {β : Type} {R : α → β → Prop}

theorem map_eq_of_forall₂ {f : α → κ} {g : β → κ} (hR : ∀ a b, R a b → f a = g b) :
    ∀ {l : List α} {l' : List β}, List.Forall₂ R l l' → l.map f = l'.map g
  | _, _, .nil => rfl
  | _, _, .cons h hs => by rw [map_cons, map_cons, hR _ _ h, map_eq_of_forall₂ hR hs]

theorem forall₂_mem_left : ∀ {l : List α} {l' : List β}, List.Forall₂ R l l' →
    ∀ {a : α}, a ∈ l → ∃ b ∈ l', R a b
  | _, _, .cons h hs, a, ha => by
    rcases mem_cons.1 ha with rfl | ha
    · exact ⟨_, mem_cons_self, h⟩
    · obtain ⟨b, hb, hr⟩ := forall₂_mem_left hs ha
      exact ⟨b, mem_cons_of_mem _ hb, hr⟩

/-- What goes together still does where it is only shown for members. -/
theorem forall₂_imp_mem {S : α → β → Prop} : ∀ {l : List α} {l' : List β}, List.Forall₂ R l l' →
    (∀ a b, a ∈ l → R a b → S a b) → List.Forall₂ S l l'
  | _, _, .nil, _ => .nil
  | _, _, .cons h hs, hi =>
    .cons (hi _ _ mem_cons_self h) (forall₂_imp_mem hs fun _ _ ha =>
      hi _ _ (mem_cons_of_mem _ ha))

theorem forall₂_mem_right {l' : List β} (h : List.Forall₂ R l l') {b : β}
    (hb : b ∈ l') : ∃ a ∈ l, R a b :=
  forall₂_mem_left (R := fun b a => R a b) h.flip hb

end

/-! ## Keys -/

theorem eq_of_key_eq {key : α → κ} (hn : (rows.map key).Nodup) {a b : α}
    (ha : a ∈ rows) (hb : b ∈ rows) (h : key a = key b) : a = b :=
  inj_on_of_nodup_map hn ha hb h

/-- Where the keys are distinct, looking a key up finds the row that has it. -/
theorem find?_key_iff [DecidableEq κ] {key : α → κ} (hn : (rows.map key).Nodup)
    {k : κ} {a : α} : rows.find? (fun r => key r = k) = some a ↔ a ∈ rows ∧ key a = k := by
  constructor
  · intro h
    exact ⟨mem_of_find?_eq_some h, by simpa using List.find?_some h⟩
  · rintro ⟨ha, rfl⟩
    cases h : rows.find? (fun r => key r = key a) with
    | none => exact (List.find?_eq_none.1 h a ha (by simp)).elim
    | some b =>
      have hb : key b = key a := by simpa using List.find?_some h
      rw [eq_of_key_eq hn (mem_of_find?_eq_some h) ha hb]

/-- Selecting by the key of a row gives that row, where the keys are distinct. -/
theorem filter_key [DecidableEq κ] {key : α → κ} :
    ∀ {rows : List α}, (rows.map key).Nodup → ∀ {a : α}, a ∈ rows →
      rows.filter (fun r => key r = key a) = [a]
  | [], _, _, ha => by cases ha
  | b :: rows, hn, a, ha => by
    rw [map_cons, nodup_cons] at hn
    have hrest : ∀ r ∈ rows, key r ≠ key b := fun r hr he => hn.1 (he ▸ mem_map_of_mem hr)
    rcases mem_cons.1 ha with rfl | ha
    · rw [filter_cons_of_pos (by simp), filter_eq_nil_iff.2 (by simpa using hrest)]
    · rw [filter_cons_of_neg (by simpa using (hrest a ha).symm), filter_key hn.2 ha]

/-- `COUNT(DISTINCT …) = 1`. -/
theorem dedup_length_one [DecidableEq α] : l.dedup.length = 1 ↔ l ≠ [] ∧ ∃ a, ∀ b ∈ l, b = a := by
  rw [length_eq_one_iff]
  constructor
  · rintro ⟨a, ha⟩
    refine ⟨?_, a, fun b hb => ?_⟩
    · rintro rfl; cases ha
    · simpa [ha] using mem_dedup.2 hb
  · rintro ⟨hne, a, ha⟩
    refine ⟨a, ?_⟩
    obtain ⟨b, hb⟩ := exists_mem_of_ne_nil l hne
    rw [ha b hb] at hb
    refine perm_singleton.1 ((perm_ext_iff_of_nodup (nodup_dedup l)
      (nodup_singleton a)).2 fun c => ?_)
    rw [mem_dedup, mem_singleton]
    exact ⟨ha c, fun hc => hc ▸ hb⟩

end AstralPlane
