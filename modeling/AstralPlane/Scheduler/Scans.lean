/-
  The scans of the due call, as operations on lists.

  A window of a scan has rows of the table only, none of them twice, and has one
  as long as the table has; so has the selection by owners in turn.  That is all
  the call's progress rests on; that no owner has to wait for a second row of
  another one is `rotation_by_rounds`.
-/
import AstralPlane.Scheduler.Definitions

namespace AstralPlane.Scheduler

open List

variable {start : Option (ℤ × Uuid)} {n : ℕ} {lastOwner : Option String}

section
variable {α : Type} {position : α → ℤ × Uuid} {rows : List α}

/-! ## Windows -/

theorem mem_of_mem_orderedRows {a : α} (h : a ∈ orderedRows position n rows) : a ∈ rows :=
  (mem_insertionSort _).1 (mem_of_mem_take h)

theorem orderedRows_nodup (h : rows.Nodup) : (orderedRows position n rows).Nodup :=
  ((perm_insertionSort _ rows).nodup_iff.2 h).sublist (take_sublist _ _)

theorem orderedRows_ne_nil (hn : 0 < n) (h : rows ≠ []) : orderedRows position n rows ≠ [] := by
  intro hnil
  have hlength : (orderedRows position n rows).length = min n rows.length := by
    simp [orderedRows]
  rw [hnil, length_nil] at hlength
  have := length_pos_of_ne_nil h
  omega

theorem mem_of_mem_scanRows {a : α} (h : a ∈ scanRows position start n rows) : a ∈ rows := by
  unfold scanRows at h
  split at h
  · exact mem_of_mem_orderedRows h
  · dsimp only at h
    split at h
    · rcases mem_append.1 h with h | h <;>
        exact (mem_filter.1 (mem_of_mem_orderedRows h)).1
    · exact (mem_filter.1 (mem_of_mem_orderedRows h)).1

theorem scanRows_nodup (h : rows.Nodup) : (scanRows position start n rows).Nodup := by
  unfold scanRows
  split
  · exact orderedRows_nodup h
  · dsimp only
    split
    · refine Nodup.append (orderedRows_nodup (h.filter _)) (orderedRows_nodup (h.filter _)) ?_
      -- the two parts are on either side of the position
      intro a ha hb
      have hafter := (mem_filter.1 (mem_of_mem_orderedRows ha)).2
      have hbefore := (mem_filter.1 (mem_of_mem_orderedRows hb)).2
      simp only [decide_eq_true_eq] at hafter hbefore
      exact hafter hbefore
    · exact orderedRows_nodup (h.filter _)

theorem scanRows_ne_nil (hn : 0 < n) (h : rows ≠ []) : scanRows position start n rows ≠ [] := by
  unfold scanRows
  split
  · exact orderedRows_ne_nil hn h
  · rename_i p
    dsimp only
    split
    · by_cases hafter : rows.filter (fun r => ¬ positionLe (position r) p) = []
      · have hbefore : rows.filter (fun r => positionLe (position r) p) ≠ [] := by
          obtain ⟨a, ha⟩ := exists_mem_of_ne_nil _ h
          have := filter_eq_nil_iff.1 hafter a ha
          exact ne_nil_of_mem (mem_filter.2 ⟨ha, by simpa using this⟩)
        exact append_ne_nil_of_right_ne_nil _ (orderedRows_ne_nil (by omega) hbefore)
      · exact append_ne_nil_of_left_ne_nil (orderedRows_ne_nil hn hafter) _
    · rename_i hlength
      intro hnil
      rw [hnil] at hlength
      simp at hlength
      omega

end

/-! ## Turns -/

section
variable {α : Type}

/-- The candidates that are left in the ring. -/
def ringRows (ring : List (String × List α)) : List α := ring.flatMap Prod.snd

theorem takeTurns_subperm (n : ℕ) : ∀ (ring : List (String × List α)) (last : Option String),
    (takeTurns n ring last).1.Subperm (ringRows ring) := by
  induction n with
  | zero => exact fun _ _ => nil_subperm
  | succ n ih =>
    intro ring last
    match ring with
    | [] => exact nil_subperm
    | (_, []) :: ring => exact ih ring last
    | (owner, c :: cs) :: ring =>
      have hring : (ringRows (if cs.isEmpty then ring else ring ++ [(owner, cs)])).Perm
          (cs ++ ringRows ring) := by
        split
        · rename_i hcs
          rw [isEmpty_iff.1 hcs]
          exact Perm.refl _
        · simp only [ringRows, flatMap_append, flatMap_singleton]
          exact perm_append_comm
      exact (subperm_cons c).2 ((ih _ (some owner)).trans hring.subperm)

/-- The owner that was last in turn is the one of before, or one of the ring. -/
theorem takeTurns_owner (n : ℕ) : ∀ (ring : List (String × List α)) (last : Option String),
    (takeTurns n ring last).2 = last ∨
      ∃ owner ∈ ring.map Prod.fst, (takeTurns n ring last).2 = some owner := by
  induction n with
  | zero => exact fun _ _ => .inl rfl
  | succ n ih =>
    intro ring last
    match ring with
    | [] => exact .inl rfl
    | (_, []) :: ring =>
      exact (ih ring last).imp id fun ⟨owner, hmem, heq⟩ => ⟨owner, mem_cons_of_mem _ hmem, heq⟩
    | (owner, c :: cs) :: ring =>
      refine .inr ?_
      rcases ih (if cs.isEmpty then ring else ring ++ [(owner, cs)]) (some owner) with
        heq | ⟨other, hmem, heq⟩
      · exact ⟨owner, mem_cons_self, heq⟩
      · refine ⟨other, ?_, heq⟩
        split at hmem
        · exact mem_cons_of_mem _ hmem
        · simp only [map_append, mem_append, map_cons, map_nil, mem_singleton] at hmem
          exact mem_cons.2 hmem.symm

variable {ownerOf : α → String} {candidates : List α}

/-- The owners of the candidates, from the one after the last one on. -/
def turns (ownerOf : α → String) (candidates : List α) (lastOwner : Option String) : List String :=
  let owners := (candidates.map ownerOf).dedup.insertionSort (· ≤ ·)
  match lastOwner with
  | none => owners
  | some last => owners.filter (last < ·) ++ owners.filter (· ≤ last)

theorem turns_perm (lastOwner : Option String) :
    (turns ownerOf candidates lastOwner).Perm (candidates.map ownerOf).dedup := by
  have hsort := perm_insertionSort (· ≤ ·) (candidates.map ownerOf).dedup
  cases lastOwner with
  | none => exact hsort
  | some last =>
    refine Perm.trans ?_ hsort
    have hle : ∀ owner : String, decide (owner ≤ last) = !decide (last < owner) := by
      intro owner
      rw [← decide_not, decide_eq_decide]
      exact not_lt.symm
    simp only [turns, hle]
    exact filter_append_perm _ _

theorem mem_of_mem_rotateOwners {a : α}
    (h : a ∈ (rotateOwners ownerOf candidates n lastOwner).1) : a ∈ candidates := by
  have hring := (takeTurns_subperm _ _ _).subset h
  simp only [ringRows, flatMap_map, mem_flatMap] at hring
  obtain ⟨_, _, hmem⟩ := hring
  exact (mem_filter.1 hmem).1

theorem rotateOwners_nodup (h : candidates.Nodup) :
    (rotateOwners ownerOf candidates n lastOwner).1.Nodup := by
  obtain ⟨taken, hperm, hsublist⟩ := takeTurns_subperm n ((turns ownerOf candidates lastOwner).map
    fun owner => (owner, candidates.filter (ownerOf · = owner))) lastOwner
  refine hperm.nodup_iff.1 (Nodup.sublist hsublist ?_)
  rw [ringRows, flatMap_map, nodup_flatMap]
  refine ⟨fun owner _ => h.filter _, ?_⟩
  -- a candidate has one owner, and an owner has one place in the ring
  refine ((turns_perm lastOwner).nodup_iff.2 (nodup_dedup _)).imp fun hne a ha hb => hne ?_
  have hfirst := (mem_filter.1 ha).2
  have hsecond := (mem_filter.1 hb).2
  simp only [decide_eq_true_eq] at hfirst hsecond
  rw [← hfirst, hsecond]

theorem rotateOwners_ne_nil (hn : 0 < n) (h : candidates ≠ []) :
    (rotateOwners ownerOf candidates n lastOwner).1 ≠ [] := by
  have hperm : (turns ownerOf candidates lastOwner).Perm (candidates.map ownerOf).dedup :=
    turns_perm lastOwner
  change (takeTurns n ((turns ownerOf candidates lastOwner).map _) lastOwner).1 ≠ []
  rcases hturns : turns ownerOf candidates lastOwner with _ | ⟨owner, rest⟩
  · rw [hturns] at hperm
    obtain ⟨a, ha⟩ := exists_mem_of_ne_nil _ h
    have hmem : ownerOf a ∈ (candidates.map ownerOf).dedup := mem_dedup.2 (mem_map_of_mem ha)
    exact absurd (hperm.mem_iff.2 hmem) not_mem_nil
  · have hmem : owner ∈ (candidates.map ownerOf).dedup := by
      rw [← hperm.mem_iff, hturns]
      exact mem_cons_self
    obtain ⟨a, ha, hao⟩ := mem_map.1 (mem_dedup.1 hmem)
    have hrow : a ∈ candidates.filter (ownerOf · = owner) := mem_filter.2 ⟨ha, by simpa using hao⟩
    obtain ⟨c, cs, hrows⟩ := exists_cons_of_ne_nil (ne_nil_of_mem hrow)
    obtain ⟨n, rfl⟩ := Nat.exists_eq_succ_of_ne_zero hn.ne'
    simp [takeTurns, hrows]

theorem rotateOwners_owner (n : ℕ) (lastOwner : Option String) :
    (rotateOwners ownerOf candidates n lastOwner).2 = lastOwner ∨
      ∃ a ∈ candidates, (rotateOwners ownerOf candidates n lastOwner).2 = some (ownerOf a) := by
  refine (takeTurns_owner n _ lastOwner).imp id ?_
  rintro ⟨owner, hmem, heq⟩
  rw [map_map] at hmem
  obtain ⟨_, hturn, rfl⟩ := mem_map.1 hmem
  obtain ⟨a, ha, rfl⟩ := mem_map.1 (mem_dedup.1 ((turns_perm lastOwner).mem_iff.1 hturn))
  exact ⟨a, ha, heq⟩

/-! ## Rounds -/

/-- One candidate of each owner in the order of the ring, then the next one of each, and so on. -/
def rounds (n : ℕ) (ring : List (String × List α)) : List α :=
  (range n).flatMap fun j => ring.flatMap fun e => e.2[j]?.toList

/-- What opens a round may as well close the round before. -/
theorem flatMap_range_shift (first rest : ℕ → List α) (n : ℕ) :
    (range n).flatMap (fun j => first j ++ rest j) ++ first n =
      first 0 ++ (range n).flatMap fun j => rest j ++ first (j + 1) := by
  induction n with
  | zero => simp
  | succ n ih =>
    rw [range_succ, flatMap_append, flatMap_append, ← append_assoc (first 0), ← ih]
    simp

theorem rounds_cons {n : ℕ} {owner : String} {c : α} {cs : List α} (h : cs.length < n)
    (ring : List (String × List α)) :
    rounds n ((owner, c :: cs) :: ring) = c :: rounds n (ring ++ [(owner, cs)]) := by
  have hshift := flatMap_range_shift (fun j => (c :: cs)[j]?.toList)
    (fun j => ring.flatMap fun e => e.2[j]?.toList) n
  rw [getElem?_eq_none h, Option.toList_none, append_nil] at hshift
  simpa [rounds] using hshift

theorem takeTurns_eq {m : ℕ} (n : ℕ) {ring : List (String × List α)} (last : Option String)
    (hring : ∀ e ∈ ring, e.2 ≠ [] ∧ e.2.length ≤ m) :
    (takeTurns n ring last).1 = (rounds m ring).take n := by
  induction n generalizing ring last with
  | zero => rfl
  | succ n ih =>
    rcases ring with _ | ⟨⟨owner, _ | ⟨c, cs⟩⟩, ring⟩
    · simp [takeTurns, rounds]
    · exact absurd rfl (hring _ mem_cons_self).1
    · obtain ⟨⟨-, hlength⟩, hrest⟩ := forall_mem_cons.1 hring
      rw [rounds_cons hlength, take_succ_cons, takeTurns]
      cases cs with
      | nil => simp [ih _ hrest, rounds]
      | cons c' cs =>
        refine congrArg (c :: ·) (ih _ (forall_mem_append.2 ⟨hrest, ?_⟩))
        exact forall_mem_singleton.2 ⟨cons_ne_nil _ _, Nat.le_of_lt hlength⟩

/-- **The owners are served in rounds**: the loop selects the first `n` candidates of the rounds. -/
theorem rotation_by_rounds (ownerOf : α → String) (candidates : List α) (n : ℕ)
    (lastOwner : Option String) : (rotateOwners ownerOf candidates n lastOwner).1 =
      (rounds candidates.length ((turns ownerOf candidates lastOwner).map fun owner =>
        (owner, candidates.filter (ownerOf · = owner)))).take n := by
  refine takeTurns_eq n lastOwner fun e he => ?_
  obtain ⟨owner, howner, rfl⟩ := mem_map.1 he
  obtain ⟨a, ha, hao⟩ := mem_map.1 (mem_dedup.1 ((turns_perm lastOwner).mem_iff.1 howner))
  exact ⟨ne_nil_of_mem (mem_filter.2 ⟨ha, decide_eq_true hao⟩), length_filter_le _ _⟩

end

/-! ## The scans of a call -/

section
variable {d : DueScan} {s : Store}

theorem mem_of_mem_dueTurns {j : ScheduledJob} (h : j ∈ (d.dueTurns s).1) :
    j ∈ s.dueJobs d.lockedJobs d.observedMs :=
  mem_of_mem_scanRows (mem_filter.1 (mem_of_mem_rotateOwners h)).1

theorem mem_of_mem_claimTurns {c : Candidate} (h : c ∈ (d.claimTurns s).1) :
    c ∈ s.candidates d.lockedOccurrences d.observedAt :=
  mem_of_mem_scanRows (mem_filter.1 (mem_of_mem_rotateOwners h)).1

end

end AstralPlane.Scheduler
