/-
  The life of an operation.

  `Grew r r'` is how a row may differ at a later time: a terminal row stays as it
  is, any change but the loss of its parent raises the revision, and the
  execution generation never falls.  `RowSound` collects what holds of a row at
  every time: its table's checks, and that its id and its token were drawn from
  the supply of UUIDs.  Both are kept by every step of the protocol.
-/
import AstralPlane.WorkAdmission.Coherence

namespace AstralPlane.WorkAdmission

open Relation

variable {s s' : Store} {configs : List AdmissionClassConfig}
  {r r' : OperationRecord} {fresh : Uuid → Prop} {id : Uuid} {v v' : View}

/-! ## Rows over time -/

/-- `r'` is `r`, or `r` after a purge of its parent cleared the reference to it. -/
def SameButParent (r r' : OperationRecord) : Prop :=
  r' = r ∨ r' = { r with parentOperationId := none }

/-- How a row may have changed at a later time. -/
structure Grew (r r' : OperationRecord) : Prop where
  terminal : r.state.isTerminal → SameButParent r r'
  revision : SameButParent r r' ∨ r.stateRevision < r'.stateRevision
  generation : r.executionGeneration ≤ r'.executionGeneration

theorem SameButParent.trans {r1 r2 r3 : OperationRecord} (h : SameButParent r1 r2)
    (h' : SameButParent r2 r3) : SameButParent r1 r3 := by
  rcases h with rfl | rfl
  · exact h'
  · rcases h' with rfl | rfl <;> exact .inr rfl

theorem SameButParent.revision (h : SameButParent r r') :
    r'.stateRevision = r.stateRevision := by rcases h with rfl | rfl <;> rfl

theorem SameButParent.state (h : SameButParent r r') :
    r'.state = r.state := by rcases h with rfl | rfl <;> rfl

theorem Grew.refl (r : OperationRecord) : Grew r r :=
  ⟨fun _ => .inl rfl, .inl (.inl rfl), le_rfl⟩

theorem Grew.trans {r1 r2 r3 : OperationRecord} (h : Grew r1 r2) (h' : Grew r2 r3) :
    Grew r1 r3 where
  terminal ht := by
    have h1 := h.terminal ht
    exact h1.trans (h'.terminal (by rw [h1.state]; exact ht))
  revision := by
    rcases h.revision with h1 | h1 <;> rcases h'.revision with h2 | h2
    · exact .inl (h1.trans h2)
    · rw [← h1.revision]; exact .inr h2
    · rw [← h2.revision] at h1; exact .inr h1
    · exact .inr (h1.trans h2)
  generation := h.generation.trans h'.generation

/-- A live row that was written again. -/
theorem Grew.of_write (hs : r.state.isTerminal = false)
    (hr : r'.stateRevision = r.stateRevision + 1)
    (hg : r.executionGeneration ≤ r'.executionGeneration) : Grew r r' where
  terminal ht := by rw [hs] at ht; cases ht
  revision := .inr (by rw [hr]; exact Nat.lt_succ_self _)
  generation := hg

theorem running_not_terminal (h : r.state = .running) : r.state.isTerminal = false := by rw [h]; rfl

theorem queued_not_terminal (h : r.state = .queued) : r.state.isTerminal = false := by rw [h]; rfl

/-- An id that the supply has already given out. -/
def Drawn (s : Store) (u : Uuid) : Prop := ∃ k, k < s.draws ∧ u = s.uuid4 k

/-- With distinct UUIDs, what has been drawn is not drawn again. -/
theorem Drawn.not_fresh (hinj : Function.Injective s.uuid4) {u : Uuid} {hi : ℕ} (h : Drawn s u) :
    ¬ Fresh s.uuid4 s.draws hi u := by
  rintro ⟨k, hlo, -, rfl⟩
  obtain ⟨j, hj, he⟩ := h
  have := hinj he
  omega

theorem Drawn.mono {u : Uuid} (h : Drawn s u) (he : Evolves s s') : Drawn s' u := by
  obtain ⟨k, hk, rfl⟩ := h
  exact ⟨k, hk.trans_le he.draws, by rw [he.uuid4]⟩

/-- The row of an operation that was there, as it may be later: gone, or grown. -/
def RowLater (r : OperationRecord) (v : View) : Prop :=
  ∀ r', v.row = some r' → Grew r r'

theorem OpStep.rowLater
    (h : OpStep configs fresh id v v') (hid : ¬ fresh id) (hv : RowLater r v) : RowLater r v' := by
  intro r' hr'
  cases h with
  | enqueue _ hf => exact absurd hf hid
  | start _ hf => exact absurd hf hid
  | select hs hr =>
    cases hr'
    obtain ⟨updated, started, rfl⟩ := hr
    exact (hv _ rfl).trans (.of_write (queued_not_terminal hs) rfl (Nat.le_succ _))
  | handover | renew => cases hr'; exact hv _ rfl
  | reselect hs hr =>
    cases hr'
    obtain ⟨updated, rfl⟩ := hr
    exact (hv _ rfl).trans (.of_write (running_not_terminal hs) rfl (Nat.le_succ _))
  | touch hs hr =>
    cases hr'
    obtain ⟨_, _, _, _, _, rfl⟩ := hr
    exact (hv _ rfl).trans (.of_write (running_not_terminal hs) rfl le_rfl)
  | lapse hs hr =>
    cases hr'
    obtain ⟨-, _, _, _, _, _, _, _, _, _, rfl⟩ := hr
    exact (hv _ rfl).trans (.of_write (queued_not_terminal hs) rfl le_rfl)
  | finish hs hr =>
    cases hr'
    obtain ⟨-, _, _, _, _, _, _, _, _, _, rfl⟩ := hr
    exact (hv _ rfl).trans (.of_write hs rfl le_rfl)
  | release => exact hv _ hr'
  | orphan =>
    cases hr'
    exact (hv _ rfl).trans ⟨fun _ => .inr rfl, .inl (.inr rfl), le_rfl⟩
  | forget => cases hr'

theorem OpStep.absent
    (h : OpStep configs fresh id v v') (hid : ¬ fresh id) (hv : v.row = none) : v'.row = none := by
  cases h with
  | enqueue _ hf => exact absurd hf hid
  | start _ hf => exact absurd hf hid
  | release => exact hv
  | forget => rfl
  | _ => cases hv

/-! ## Sound rows -/

theorem check_token (h : r.check) : r.executionLeaseToken.isSome ↔ r.state = .running := by
  simp only [OperationRecord.check, Bool.and_eq_true] at h
  cases hs : r.state <;> simp_all

theorem check_orphan (h : r.check) :
    ({ r with parentOperationId := none } : OperationRecord).check := by
  simp only [OperationRecord.check, Bool.and_eq_true] at h ⊢
  exact ⟨⟨⟨⟨h.1.1.1.1, rfl⟩, h.1.1.2⟩, h.1.2⟩, h.2⟩

/-- A row that passes its table's checks, whose id and token come from the supply. -/
structure RowSound (s : Store) (id : Uuid) (v : View) : Prop where
  check : ∀ r, v.row = some r → r.check
  queued : ∀ r, v.row = some r → r.state = .queued → r.cancelRequestedAt = none
  drawn : ∀ r, v.row = some r → Drawn s id
  token : ∀ r t, v.row = some r → r.executionLeaseToken = some t → Drawn s t

theorem RowSound.of_none {held : Multiset SlotRow} : RowSound s id ⟨none, held⟩ := by
  constructor <;> simp

theorem RowSound.of_some {held : Multiset SlotRow}
    (hc : r.check) (hq : r.state = .queued → r.cancelRequestedAt = none) (hd : Drawn s id)
    (ht : ∀ t, r.executionLeaseToken = some t → Drawn s t) : RowSound s id ⟨some r, held⟩ where
  check r' h := by cases h; exact hc
  queued r' h := by cases h; exact hq
  drawn r' h := hd
  token r' t h := by cases h; exact ht t

/-- A row whose execution has ended has no token. -/
theorem token_of_ended (he : Ended r r') (hc : r'.check) (t : Uuid) :
    r'.executionLeaseToken ≠ some t := by
  intro ht
  exact he.not_running ((check_token hc).1 (by rw [ht]; rfl))

theorem OpStep.rowSound
    (hf : ∀ u, fresh u → Drawn s u) (h : OpStep configs fresh id v v') (hv : RowSound s id v) :
    RowSound s id v' := by
  cases h with
  | enqueue hid hfid hs hc hn =>
    refine .of_some hc (fun _ => hn) (hf _ hfid) fun t ht => ?_
    have := (check_token hc).1 (by rw [ht]; rfl)
    rw [hs] at this
    cases this
  | start hid hfid hs hc hn ht hft =>
    refine .of_some hc (fun _ => hn) (hf _ hfid) fun t ht' => ?_
    rw [ht] at ht'
    obtain rfl := Option.some.inj ht'
    exact hf _ hft
  | select hs hr hc hft =>
    obtain ⟨updated, started, rfl⟩ := hr
    refine .of_some hc (fun h => nomatch h) (hv.drawn _ rfl) fun t ht => ?_
    obtain rfl := Option.some.inj ht
    exact hf _ hft
  | handover | renew =>
    exact .of_some (hv.check _ rfl) (hv.queued _ rfl) (hv.drawn _ rfl) fun t => hv.token _ t rfl
  | reselect hs hr hc hft =>
    obtain ⟨updated, rfl⟩ := hr
    refine .of_some hc (fun h => ?_) (hv.drawn _ rfl) fun t ht => ?_
    · exact absurd (hs.symm.trans h) (by decide)
    · obtain rfl := Option.some.inj ht
      exact hf _ hft
  | touch hs hr hc =>
    obtain ⟨_, _, _, _, _, rfl⟩ := hr
    refine .of_some hc (fun h => ?_) (hv.drawn _ rfl) fun t ht => hv.token _ t rfl ht
    exact absurd (hs.symm.trans h) (by decide)
  | lapse hs hr hc =>
    refine .of_some hc (fun h => ?_) (hv.drawn _ rfl) fun t ht => absurd ht (token_of_ended hr hc t)
    have := hr.1
    rw [h] at this
    cases this
  | finish hs hr hc =>
    refine .of_some hc (fun h => ?_) (hv.drawn _ rfl) fun t ht => absurd ht (token_of_ended hr hc t)
    have := hr.1
    rw [h] at this
    cases this
  | release => exact ⟨hv.check, hv.queued, hv.drawn, hv.token⟩
  | @orphan r held =>
    exact .of_some (check_orphan (hv.check r rfl)) (hv.queued r rfl) (hv.drawn r rfl) fun t =>
      hv.token r t rfl
  | forget => exact .of_none

theorem RowSound.mono (h : RowSound s id v) (he : Evolves s s') : RowSound s' id v :=
  ⟨h.check, h.queued, fun r hr => (h.drawn r hr).mono he, fun r t hr ht => (h.token r t hr ht).mono he⟩

def Sound (s : Store) : Prop := ∀ id, RowSound s id (s.view id)

theorem Sound.evolves (h : Sound s) (he : Evolves s s') : Sound s' := by
  intro id
  have hfresh : ∀ u, Fresh s.uuid4 s.draws s'.draws u → Drawn s' u := by
    rintro u ⟨k, -, hk, rfl⟩
    exact ⟨k, hk, by rw [he.uuid4]⟩
  exact he.keeps (fun _ _ hstep hv => hstep.rowSound hfresh hv) ((h id).mono he)

theorem Vacant.sound (h : Vacant s) : Sound s := by
  intro id
  rw [h.view]
  exact .of_none

end AstralPlane.WorkAdmission
