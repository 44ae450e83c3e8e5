/-
  Statements on a table with a primary key.

  The rows of a table meet its constraints: a row that the database would refuse
  cannot be written down (`Row`).  A statement returns the row that it has
  written, or nothing if it has written none; one that raises writes nothing.
-/
import AstralPlane.Tx
import AstralPlane.Keyed

namespace AstralPlane

/-- The columns of a table, with the SQLSTATE under which it refuses a row. -/
class Columns (α : Type) where
  refusal : α → Option String

/-- A row that the constraints of its table accept. -/
def Row (α : Type) [Columns α] := { a : α // Columns.refusal a = none }

instance {α : Type} [Columns α] [DecidableEq α] : DecidableEq (Row α) :=
  inferInstanceAs (DecidableEq { a : α // Columns.refusal a = none })

namespace Sql

variable {κ α : Type} [DecidableEq κ] [Columns α]

/-- The row is written, if the table accepts it. -/
def write (k : κ) (a : α) (t : Keyed κ (Row α)) : Tx (Keyed κ (Row α)) String (Option α) :=
  match h : Columns.refusal a with
  | some sqlstate => Tx.raise sqlstate
  | none => do
    Tx.set (t.insert k ⟨a, h⟩)
    pure (some a)

/-- `UPDATE … WHERE key = k AND … RETURNING …`. -/
def updateReturning (k : κ) (selects : α → Bool) (written : α → α) :
    Tx (Keyed κ (Row α)) String (Option α) := do
  let t ← Tx.get
  match (t.lookup k).filter (selects ·.val) with
  | none => pure none
  | some row => write k (written row.val) t

/-- `INSERT … ON CONFLICT (key) DO NOTHING RETURNING …`; `clashes` is what the other unique
    constraints of the table say.  The constraints on the row itself come first. -/
def insertReturning (k : κ) (a : α) (clashes : α → Bool) :
    Tx (Keyed κ (Row α)) String (Option α) := do
  let t ← Tx.get
  match Columns.refusal a with
  | some sqlstate => Tx.raise sqlstate
  | none =>
    if (t.lookup k).isSome then pure none
    else do
      Tx.require (t.rows.all fun row => !clashes row.val) "23505"
      write k a t

/-- `INSERT … ON CONFLICT DO NOTHING RETURNING …`, whichever constraint the row runs into. -/
def insertOrNothing (k : κ) (a : α) (clashes : α → Bool) :
    Tx (Keyed κ (Row α)) String (Option α) := do
  let t ← Tx.get
  if (t.lookup k).isSome || t.rows.any (fun row => clashes row.val) then
    match Columns.refusal a with
    | some sqlstate => Tx.raise sqlstate
    | none => pure none
  else write k a t

/-- `UPDATE … FROM … RETURNING …`, where the rows of some keys are selected beforehand. -/
def updateKeys (written : α → α) : List κ → Tx (Keyed κ (Row α)) String (List (κ × α))
  | [] => pure []
  | k :: keys => do
    let updated ← updateReturning k (fun _ => true) written
    let rest ← updateKeys written keys
    pure ((updated.map (k, ·)).toList ++ rest)

theorem write_settles (k : κ) (a : α) (t : Keyed κ (Row α)) :
    (write k a t).Settles t fun reply t' =>
      ∃ row : Row α, row.val = a ∧ reply = some a ∧ t' = t.insert k row := by
  unfold write
  split
  · exact Tx.settles_raise
  · rename_i h
    exact ⟨⟨a, h⟩, rfl, rfl, rfl⟩

/-- A write that raises names the constraint of the row. -/
theorem write_ends (k : κ) (a : α) (t : Keyed κ (Row α)) : (write k a t).Ends t fun reply t' =>
      (∃ row : Row α, row.val = a ∧ reply = .ok (some a) ∧ t' = t.insert k row) ∨
      ∃ sqlstate, Columns.refusal a = some sqlstate ∧ reply = .error sqlstate ∧ t' = t := by
  unfold write
  split
  · rename_i sqlstate h
    exact .inr ⟨sqlstate, h, rfl, rfl⟩
  · rename_i h
    exact .inl ⟨⟨a, h⟩, rfl, rfl, rfl⟩

variable {written : α → α} {selects : α → Bool} {k : κ} {t : Keyed κ (Row α)}

theorem updateReturning_of_none (h : (t.lookup k).filter (selects ·.val) = none) :
    updateReturning k selects written t = (.ok none, t) := by
  simp only [updateReturning, bind, Tx.bind, Tx.get, h]
  rfl

theorem updateReturning_of_some {row : Row α} (h : (t.lookup k).filter (selects ·.val) = some row) :
    updateReturning k selects written t = write k (written row.val) t t := by
  simp only [updateReturning, bind, Tx.bind, Tx.get, h]

/-- A row that is selected is rewritten, unless the table refuses what is written. -/
theorem updateReturning_selected (selects : α → Bool) (written : α → α) {row : Row α}
    (hrow : t.lookup k = some row) (hs : selects row.val) :
    (∃ row' : Row α, row'.val = written row.val ∧
      (updateReturning k selects written).Ok t (some row'.val) (t.insert k row')) ∨
    ∃ sqlstate, Columns.refusal (written row.val) = some sqlstate ∧
      updateReturning k selects written t = (.error sqlstate, t) := by
  have hfilter : (t.lookup k).filter (selects ·.val) = some row :=
    Option.filter_eq_some_iff.2 ⟨hrow, hs⟩
  simp only [Tx.Ok, updateReturning_of_some hfilter]
  rcases write_ends k (written row.val) t with ⟨row', hrow', hok, hset⟩ | ⟨sqlstate, hr, hraise,
    hset⟩
  · exact .inl ⟨row', hrow', Prod.ext (hok.trans (by rw [hrow'])) hset⟩
  · exact .inr ⟨sqlstate, hr, Prod.ext hraise hset⟩

theorem updateReturning_settles (k : κ) (selects : α → Bool) (written : α → α)
    (t : Keyed κ (Row α)) : (updateReturning k selects written).Settles t fun reply t' =>
      (reply = none ∧ t' = t ∧ ∀ row, t.lookup k = some row → selects row.val = false) ∨
      ∃ row row' : Row α, t.lookup k = some row ∧ selects row.val ∧
        row'.val = written row.val ∧ reply = some row'.val ∧ t' = t.insert k row' := by
  refine Tx.ends_get_bind ?_
  split
  · rename_i hnone
    refine .inl ⟨rfl, rfl, fun row hrow => ?_⟩
    rw [hrow, Option.filter_some] at hnone
    simpa using hnone
  · rename_i row hrow
    obtain ⟨hlookup, hselects⟩ := Option.filter_eq_some_iff.1 hrow
    refine (write_settles k (written row.val) t).imp ?_
    rintro reply t' ⟨row', hrow', rfl, rfl⟩
    exact .inr ⟨row, row', hlookup, hselects, hrow', by rw [hrow'], rfl⟩

theorem insertReturning_settles (k : κ) (a : α) (clashes : α → Bool) (t : Keyed κ (Row α)) :
    (insertReturning k a clashes).Settles t fun reply t' => (reply = none ∧ t' = t) ∨
      ∃ row : Row α, t.lookup k = none ∧ (∀ k' row', t.lookup k' = some row' → clashes row'.val = false) ∧
        row.val = a ∧ reply = some a ∧ t' = t.insert k row := by
  refine Tx.ends_get_bind ?_
  split
  · exact Tx.settles_raise
  · split
    · exact .inl ⟨rfl, rfl⟩
    · rename_i hnone
      refine Tx.settles_readOnly_bind (Tx.readOnly_require _ _) fun _ hunique => ?_
      have hclash := (Tx.ok_require.1 hunique).1
      refine (write_settles k a t).imp ?_
      rintro reply t' ⟨row, hrow, rfl, rfl⟩
      refine .inr ⟨row, by simpa using hnone, fun k' row' hlookup => ?_, hrow, rfl, rfl⟩
      simpa using List.all_eq_true.1 hclash row' (Keyed.mem_rows.2 ⟨k', hlookup⟩)

theorem insertOrNothing_ok {a : α} {clashes : α → Bool} {t' : Keyed κ (Row α)}
    {reply : Option α} (h : (insertOrNothing k a clashes).Ok t reply t') :
    Columns.refusal a = none ∧ ((reply = none ∧ t' = t) ∨
      ∃ row : Row α, t.lookup k = none ∧ (∀ row' ∈ t.rows, clashes row'.val = false) ∧
        row.val = a ∧ reply = some a ∧ t' = t.insert k row) := by
  simp only [insertOrNothing, ok_rules, Tx.ok_ite] at h
  obtain ⟨_, rfl, ⟨-, hnothing⟩ | ⟨hfree, hwrite⟩⟩ := h
  · split at hnothing
    · exact absurd hnothing Tx.ok_raise
    · rename_i hrefusal
      obtain ⟨rfl, rfl⟩ := Tx.ok_pure.1 hnothing
      exact ⟨hrefusal, .inl ⟨rfl, rfl⟩⟩
  · obtain ⟨row, rfl, rfl, rfl⟩ := (write_settles k a t).of_ok hwrite
    simp only [Bool.or_eq_true, not_or, Bool.not_eq_true, Option.isSome_eq_false_iff,
      Option.isNone_iff_eq_none, List.any_eq_false] at hfree
    exact ⟨row.property, .inr ⟨row, hfree.1, hfree.2, rfl, rfl, rfl⟩⟩

/-! ## The rows of some keys -/

/-- What an update of the rows of some keys does to the table, and what it returns. -/
structure Updated (written : α → α) (keys : List κ) (t : Keyed κ (Row α)) (reply : List (κ × α))
    (t' : Keyed κ (Row α)) : Prop where
  returned : reply.map Prod.fst = keys
  others : ∀ k, k ∉ keys → t'.lookup k = t.lookup k
  rows : ∀ k ∈ keys, ∃ row row' : Row α, t.lookup k = some row ∧ t'.lookup k = some row' ∧
    row'.val = written row.val ∧ (k, row'.val) ∈ reply

section
variable {keys : List κ} {t t' : Keyed κ (Row α)} {reply : List (κ × α)}

theorem Updated.row (h : Updated written keys t reply t') {row : Row α} (hk : k ∈ keys)
    (hrow : t.lookup k = some row) :
    ∃ row' : Row α, t'.lookup k = some row' ∧ row'.val = written row.val := by
  obtain ⟨row1, row', hrow1, hrow', hw, -⟩ := h.rows k hk
  cases hrow.symm.trans hrow1
  exact ⟨row', hrow', hw⟩

/-- A row that is written is another one, if no row is written as it was. -/
theorem Updated.changes (h : Updated written keys t reply t') (hw : ∀ a, written a ≠ a)
    {row : Row α} (hk : k ∈ keys) (hrow : t.lookup k = some row) : t'.lookup k ≠ some row := by
  obtain ⟨row', hrow', hval⟩ := h.row hk hrow
  intro hsame
  cases hsame.symm.trans hrow'
  exact hw _ hval.symm

theorem Updated.returns (h : Updated written keys t reply t') (hn : keys.Nodup) {r : κ × α}
    (hr : r ∈ reply) : ∃ row row' : Row α, t.lookup r.1 = some row ∧ t'.lookup r.1 = some row' ∧
      row'.val = r.2 ∧ r.2 = written row.val := by
  have hk : r.1 ∈ keys := h.returned ▸ List.mem_map_of_mem hr
  obtain ⟨row, row', hrow, hrow', hw, hin⟩ := h.rows r.1 hk
  have hsame : r = (r.1, row'.val) := List.inj_on_of_nodup_map (h.returned.symm ▸ hn) hr hin rfl
  have hval : row'.val = r.2 := by rw [hsame]
  exact ⟨row, row', hrow, hrow', hval, hval ▸ hw⟩

end

theorem updateKeys_ok : ∀ {keys : List κ} {t t' : Keyed κ (Row α)}
    {reply : List (κ × α)}, keys.Nodup → (∀ k ∈ keys, ∃ row, t.lookup k = some row) →
    (updateKeys written keys).Ok t reply t' → Updated written keys t reply t'
  | [], t, t', reply, _, _, h => by
    obtain ⟨rfl, rfl⟩ := Tx.ok_pure.1 h
    exact ⟨rfl, fun _ _ => rfl, fun _ hk => by cases hk⟩
  | k :: keys, t, t', reply, hn, hk, h => by
    obtain ⟨hnotin, hn⟩ := List.nodup_cons.1 hn
    simp only [updateKeys, ok_rules] at h
    obtain ⟨updated, t1, hupdate, rest, _, hrest, rfl, rfl⟩ := h
    rcases (updateReturning_settles ..).of_ok hupdate with ⟨-, -, hnone⟩ | ⟨row, row', hrow, -,
      hwritten, rfl, rfl⟩
    · obtain ⟨row, hrow⟩ := hk k List.mem_cons_self
      cases hnone row hrow
    have hlookup : ∀ k', k' ≠ k → (t.insert k row').lookup k' = t.lookup k' := fun k' hne => by
      rw [Keyed.lookup_write, if_neg hne]
    have hpresent : ∀ k' ∈ keys, ∃ row, (t.insert k row').lookup k' = some row := fun k' hk' => by
      rw [hlookup k' fun he => hnotin (he ▸ hk')]
      exact hk k' (List.mem_cons_of_mem _ hk')
    obtain ⟨hreply, hothers, hrows⟩ := updateKeys_ok hn hpresent hrest
    refine ⟨by simp [hreply], fun k' hk' => ?_, fun k' hk' => ?_⟩
    · simp only [List.mem_cons, not_or] at hk'
      rw [hothers k' hk'.2, hlookup k' hk'.1]
    · rcases List.mem_cons.1 hk' with rfl | hmem
      · refine ⟨row, row', hrow, ?_, hwritten, by simp⟩
        rw [hothers _ hnotin, Keyed.lookup_write, if_pos rfl]
      · obtain ⟨r, r', hr, hr', hw, hin⟩ := hrows k' hmem
        rw [hlookup k' fun he => hnotin (he ▸ hmem)] at hr
        exact ⟨r, r', hr, hr', hw, List.mem_append_right _ hin⟩

/-- The update goes through if the table accepts every row that it writes. -/
theorem updateKeys_returns : ∀ {keys : List κ} {t : Keyed κ (Row α)}, keys.Nodup →
    (∀ k ∈ keys, ∃ row, t.lookup k = some row ∧ Columns.refusal (written row.val) = none) →
    ∃ reply t', (updateKeys written keys).Ok t reply t' ∧ Updated written keys t reply t'
  | [], t, hn, _ => ⟨[], t, rfl, updateKeys_ok hn (fun _ hk => by cases hk) rfl⟩
  | k :: keys, t, hkeys, hk => by
    obtain ⟨hnotin, hn⟩ := List.nodup_cons.1 hkeys
    obtain ⟨row, hrow, haccepts⟩ := hk k List.mem_cons_self
    rcases updateReturning_selected (fun _ => true) written hrow rfl with
      ⟨row', -, hok⟩ | ⟨sqlstate, hrefusal, -⟩
    · have hrest : ∀ k' ∈ keys, ∃ row, (t.insert k row').lookup k' = some row ∧
          Columns.refusal (written row.val) = none := fun k' hk' => by
        have hne : k' ≠ k := fun he => hnotin (he ▸ hk')
        rw [Keyed.lookup_write, if_neg hne]
        exact hk k' (List.mem_cons_of_mem _ hk')
      obtain ⟨reply, t', hrest, -⟩ := updateKeys_returns hn hrest
      have hall : (updateKeys written (k :: keys)).Ok t _ t' :=
        hok.bind (hrest.bind (Tx.ok_pure.2 ⟨rfl, rfl⟩))
      exact ⟨_, t', hall, updateKeys_ok hkeys (fun k hmem => (hk k hmem).imp fun _ h => h.1) hall⟩
    · cases haccepts.symm.trans hrefusal

/-! ## A table among others -/

section
variable {σ ε : Type} {part : σ → Keyed κ (Row α)} {put : Keyed κ (Row α) → σ → σ} {wrap : String → ε}

theorem zoom_update_settles {s : σ} (hput : put (part s) s = s) :
    (Tx.zoom part put wrap (updateReturning k selects written)).Settles s fun reply s' =>
      (reply = none ∧ s' = s ∧ ∀ row, (part s).lookup k = some row → selects row.val = false) ∨
      ∃ row row' : Row α, (part s).lookup k = some row ∧ selects row.val ∧
        row'.val = written row.val ∧ reply = some row'.val ∧ s' = put ((part s).insert k row') s := by
  refine Tx.settles_zoom (updateReturning_settles k selects written (part s)) hput ?_
  rintro reply t (⟨rfl, rfl, hmiss⟩ | ⟨row, row', hrow, hselects, hrow', rfl, rfl⟩)
  · exact .inl ⟨rfl, hput, hmiss⟩
  · exact .inr ⟨row, row', hrow, hselects, hrow', rfl, rfl⟩

/-- A method that looks for the reason where its update selects no row. -/
theorem update_or_miss {β : Type} {s : σ}
    {g : Option α → Tx σ ε β} {f : α → β} {R : β → σ → Prop} (hput : put (part s) s = s)
    (hreply : ∀ a, g (some a) = pure (f a)) (hmiss : (g none).Settles s R)
    (hrow : ∀ row row' : Row α, (part s).lookup k = some row → selects row.val →
      row'.val = written row.val → R (f row'.val) (put ((part s).insert k row') s)) :
    (Tx.zoom part put wrap (updateReturning k selects written) >>= g).Settles s R := by
  refine (zoom_update_settles hput).bind ?_
  rintro _ _ (⟨rfl, rfl, -⟩ | ⟨row, row', hlookup, hselects, hw, rfl, rfl⟩)
  · exact .inl ⟨rfl, hmiss⟩
  · rw [hreply]
    exact .inr ⟨_, _, Tx.ok_pure.2 ⟨rfl, rfl⟩, hrow row row' hlookup hselects hw⟩

theorem zoom_insert_settles {a : α} {clashes : α → Bool} {s : σ} (hput : put (part s) s = s) :
    (Tx.zoom part put wrap (insertReturning k a clashes)).Settles s fun reply s' =>
      (reply = none ∧ s' = s) ∨ ∃ row : Row α, (part s).lookup k = none ∧
        (∀ k' row', (part s).lookup k' = some row' → clashes row'.val = false) ∧
        row.val = a ∧ reply = some a ∧ s' = put ((part s).insert k row) s := by
  refine Tx.settles_zoom (insertReturning_settles k a clashes (part s)) hput ?_
  rintro reply t (⟨rfl, rfl⟩ | ⟨row, hnone, hclash, hrow, rfl, rfl⟩)
  · exact .inl ⟨rfl, hput⟩
  · exact .inr ⟨row, hnone, hclash, hrow, rfl, rfl⟩

end

end Sql

end AstralPlane
