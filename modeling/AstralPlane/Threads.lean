/-
  Threads over a shared state.

  A thread has a phase, which says where in its code it is and what it has read;
  a move takes one thread one step on, unless the step blocks.  What an invariant
  says of the threads it says of the multiset of their phases, so that one rule
  (`move_keeps`) serves every system: the moving thread is the first, the others
  are a rest that stays.
-/
import Mathlib.Data.Multiset.Basic
import AstralPlane.Tx

namespace AstralPlane

structure Threads (σ φ : Type) where
  shared : σ
  phases : List φ

namespace Threads

variable {σ φ ι : Type} {s : Threads σ φ}

/-- The thread `i` takes a step, if it is there and the step does not block. -/
def move (step : σ → φ → Option (σ × φ)) (i : ℕ) (s : Threads σ φ) : Threads σ φ :=
  match s.phases[i]? with
  | none => s
  | some p =>
    match step s.shared p with
    | none => s
    | some (sh, q) => ⟨sh, s.phases.set i q⟩

/-- One step of one thread, whatever the others are doing. -/
theorem move_keeps {step : σ → φ → Option (σ × φ)} {P : σ → Multiset φ → Prop} {i : ℕ}
    (h : ∀ {sh p sh' q rest}, (s.phases : Multiset φ) = p ::ₘ rest → s.shared = sh →
      step sh p = some (sh', q) → P sh (p ::ₘ rest) → P sh' (q ::ₘ rest))
    (hs : P s.shared s.phases) : P (s.move step i).shared (s.move step i).phases := by
  unfold move
  split
  · exact hs
  · rename_i p hp
    split
    · exact hs
    · rename_i sh' q hstep
      obtain ⟨hi, rfl⟩ := List.getElem?_eq_some_iff.1 hp
      have hbefore : (s.phases : Multiset φ) = s.phases[i] ::ₘ (s.phases.eraseIdx i : Multiset φ) :=
        Multiset.coe_eq_coe.2 (List.getElem_cons_eraseIdx_perm hi).symm
      have hafter : (s.phases.set i q : Multiset φ) = q ::ₘ (s.phases.eraseIdx i : Multiset φ) :=
        Multiset.coe_eq_coe.2 (List.set_perm_cons_eraseIdx hi q)
      simp only [hafter]
      exact h hbefore rfl hstep (hbefore ▸ hs)

/-- The moves of a schedule, each of a thread and with what the thread is to do. -/
def run (step : ι → σ → φ → Option (σ × φ)) : List (ℕ × ι) → Threads σ φ → Threads σ φ :=
  AstralPlane.run fun m => move (step m.2) m.1

/-- Every move of the schedule is made in a state that allows it. -/
abbrev Allowed (step : ι → σ → φ → Option (σ × φ)) (ok : Threads σ φ → ι → Prop)
    (s : Threads σ φ) (l : List (ℕ × ι)) : Prop :=
  AstralPlane.Allowed (fun m => move (step m.2) m.1) (fun s m => ok s m.2) l s

end Threads

end AstralPlane
