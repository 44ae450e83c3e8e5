/-
  Tables with a primary key.

  A table is a finite association of rows with keys, so that two rows of one key
  cannot be written down.  `rows` is what a statement without a condition on the
  key goes through, `mapRows` an update of every row, `keep` the deletion of the
  rows that fail a condition; their lemmas give `lookup` after each.
-/
import Mathlib.Data.List.AList

namespace AstralPlane

/-- A table of rows `α` under a primary key `κ`. -/
abbrev Keyed (κ α : Type) := AList fun _ : κ => α

namespace Keyed

variable {κ α : Type} [DecidableEq κ]

def rows (t : Keyed κ α) : List α := t.entries.map Sigma.snd

variable {t : Keyed κ α}

theorem mem_entries {k : κ} {a : α} :
    (⟨k, a⟩ : Sigma fun _ : κ => α) ∈ t.entries ↔ t.lookup k = some a :=
  AList.mem_lookup_iff.symm

theorem mem_rows {a : α} : a ∈ t.rows ↔ ∃ k, t.lookup k = some a := by
  simp only [rows, List.mem_map]
  constructor
  · rintro ⟨⟨k, a⟩, h, rfl⟩
    exact ⟨k, mem_entries.1 h⟩
  · rintro ⟨k, h⟩
    exact ⟨⟨k, a⟩, mem_entries.2 h, rfl⟩

/-- Every row is rewritten, under its key. -/
def mapRows (t : Keyed κ α) (f : κ → α → α) : Keyed κ α where
  entries := t.entries.map fun e => ⟨e.1, f e.1 e.2⟩
  nodupKeys := by
    have hkeys : (t.entries.map fun e => (⟨e.1, f e.1 e.2⟩ : Sigma fun _ : κ => α)).keys =
        t.entries.keys := by simp [List.keys]
    rw [List.NodupKeys, hkeys]
    exact t.nodupKeys

@[simp] theorem lookup_mapRows (t : Keyed κ α) (f : κ → α → α) (k : κ) :
    (t.mapRows f).lookup k = (t.lookup k).map (f k) := by
  ext a
  rw [← mem_entries]
  simp only [mapRows, List.mem_map, Option.map_eq_some_iff]
  constructor
  · rintro ⟨⟨k', a'⟩, h, heq⟩
    cases heq
    exact ⟨a', mem_entries.1 h, rfl⟩
  · rintro ⟨a', h, rfl⟩
    exact ⟨⟨k, a'⟩, mem_entries.2 h, rfl⟩

def keep (t : Keyed κ α) (p : κ → α → Bool) : Keyed κ α where
  entries := t.entries.filter fun e => p e.1 e.2
  nodupKeys := t.nodupKeys.sublist List.filter_sublist

@[simp] theorem lookup_keep (t : Keyed κ α) (p : κ → α → Bool) (k : κ) :
    (t.keep p).lookup k = (t.lookup k).filter (p k) := by
  ext a
  rw [← mem_entries]
  simp only [keep, List.mem_filter, Option.filter_eq_some_iff]
  rw [mem_entries]

theorem lookup_write (t : Keyed κ α) (k k' : κ) (a : α) :
    (t.insert k a).lookup k' = if k' = k then some a else t.lookup k' := by
  split
  · subst_vars
    exact AList.lookup_insert t
  · exact AList.lookup_insert_ne ‹_›

/-- A row after a write is the one that was written, or was there before. -/
theorem write_cases {k k' : κ} {a b : α} (h : (t.insert k a).lookup k' = some b) :
    (k' = k ∧ a = b) ∨ (k' ≠ k ∧ t.lookup k' = some b) := by
  rw [lookup_write] at h
  split at h
  · exact .inl ⟨‹_›, Option.some.inj h⟩
  · exact .inr ⟨‹_›, h⟩

theorem lookup_write_of_none {k k' : κ} {b : α} (h : t.lookup k = none)
    (h' : t.lookup k' = some b) (a : α) : (t.insert k a).lookup k' = some b := by
  have hne : k' ≠ k := by
    rintro rfl
    cases h.symm.trans h'
  rw [lookup_write, if_neg hne, h']

end Keyed

end AstralPlane
