/-
  Transactions over a store.

  A transaction body reads and writes a store and may raise; what it wrote
  before it raised is still there until its caller rolls back.  `Tx.commit` is
  the store after the caller has ended the transaction: the new store if the
  body returned, the old one if it raised.

  * `Tx.Ok x s a s'`: run on `s`, the body `x` returns `a` and leaves `s'`; the
    `ok_*` lemmas take a body apart along its binds;
  * `Tx.Ends`, `Tx.Leaves`, `Tx.Moves`: what holds however a body ends, by rules
    that follow its structure;
  * `run`: a run of a system given by one step function, with the induction
    rules that lift what one step keeps to whole runs.
-/
import Mathlib.Data.List.Forall2

namespace AstralPlane

open List

/-- A transaction body over the store `σ`, raising errors `ε`. -/
def Tx (σ ε α : Type) : Type := σ → Except ε α × σ

namespace Tx

variable {σ ε α β : Type}

/-- Run one body after another; a raised error ends the sequence. -/
def bind (x : Tx σ ε α) (f : α → Tx σ ε β) : Tx σ ε β := fun s =>
  match x s with
  | (.ok a, s') => f a s'
  | (.error e, s') => (.error e, s')

instance : Monad (Tx σ ε) where
  pure a := fun s => (.ok a, s)
  bind := Tx.bind

def get : Tx σ ε σ := fun s => (.ok s, s)

def set (s : σ) : Tx σ ε Unit := fun _ => (.ok (), s)

def modify (f : σ → σ) : Tx σ ε Unit := fun s => (.ok (), f s)

def raise (e : ε) : Tx σ ε α := fun s => (.error e, s)

/-- Raise `e` unless `b` holds. -/
def require (b : Bool) (e : ε) : Tx σ ε Unit := if b then pure () else raise e

/-- A computation that does not look at the store. -/
def ofExcept (r : Except ε α) : Tx σ ε α := fun s => (r, s)

/-- Run a body for every element of a list, in order. -/
def each (f : α → Tx σ ε Unit) : List α → Tx σ ε Unit
  | [] => pure ()
  | a :: l => do f a; each f l

/-- The bodies of a list in order, with the list of their results. -/
def collect (f : α → Tx σ ε β) : List α → Tx σ ε (List β)
  | [] => pure []
  | a :: l => do
    let b ← f a
    let bs ← collect f l
    pure (b :: bs)

/-- A body under a savepoint: if it raises, what it wrote is undone before the error is passed on. -/
def savepoint (x : Tx σ ε α) : Tx σ ε α := fun s =>
  match x s with
  | (.ok a, s') => (.ok a, s')
  | (.error e, _) => (.error e, s)

/-- A body on a part of the store, whose errors are passed on as `wrap` says. -/
def zoom {τ ε' : Type} (part : σ → τ) (put : τ → σ → σ) (wrap : ε' → ε) (x : Tx τ ε' α) :
    Tx σ ε α := fun s =>
  match x (part s) with
  | (.ok a, t) => (.ok a, put t s)
  | (.error e, t) => (.error (wrap e), put t s)

/-- A body whose errors the caller looks at; what the body wrote stays. -/
def attempt (x : Tx σ ε α) : Tx σ ε (Except ε α) := fun s => (.ok (x s).1, (x s).2)

/-- `try … except`: what the body wrote before it raised is there for the handler. -/
def handle (x : Tx σ ε α) (h : ε → Tx σ ε α) : Tx σ ε α := fun s =>
  match x s with
  | (.ok a, s') => (.ok a, s')
  | (.error e, s') => h e s'

/-- `try … finally`: the ending is told whether the body raised, and may raise in its place. -/
def ending (x : Tx σ ε α) (f : Bool → Tx σ ε Unit) : Tx σ ε α := fun s =>
  match f (x s).1.isOk.not (x s).2 with
  | (.ok (), s') => ((x s).1, s')
  | (.error e, s') => (.error e, s')

/-- The store after the caller has ended the transaction. -/
def commit (x : Tx σ ε α) (s : σ) : σ :=
  match x s with
  | (.ok _, s') => s'
  | (.error _, _) => s

/-- What the caller gets. -/
def reply (x : Tx σ ε α) (s : σ) : Except ε α := (x s).1

/-! ## Runs that return -/

/-- Run on `s`, the body returns `a` and leaves `s'`. -/
def Ok (x : Tx σ ε α) (s : σ) (a : α) (s' : σ) : Prop := x s = (.ok a, s')

section
variable {x y : Tx σ ε α} {f : α → Tx σ ε β} {g : Unit → Tx σ ε α} {r : Except ε α} {a : α} {b : β}
  {e : ε} {u : Unit} {s s1 s' t : σ}

@[simp] theorem ok_pure {a' : α} : (pure a : Tx σ ε α).Ok s a' s' ↔ a = a' ∧ s = s' := by
  simp only [Ok, pure, Prod.mk.injEq, Except.ok.injEq]

@[simp] theorem ok_bind : (x >>= f).Ok s b s' ↔ ∃ a s1, x.Ok s a s1 ∧ (f a).Ok s1 b s' := by
  simp only [Ok, Bind.bind, Tx.bind]
  constructor
  · intro h
    split at h
    · rename_i a s1 hx; exact ⟨a, s1, hx, h⟩
    · cases h
  · rintro ⟨a, s1, hx, hf⟩; rw [hx]; exact hf

theorem Ok.bind (hx : x.Ok s a s1) (hf : (f a).Ok s1 b s') : (x >>= f).Ok s b s' :=
  ok_bind.2 ⟨a, s1, hx, hf⟩

/-- A body that returns goes on from where it returned. -/
theorem bind_of_ok (h : x.Ok s a s1) : (x >>= f) s = f a s1 := by
  simp only [Bind.bind, Tx.bind]
  rw [h]

theorem bind_of_error (h : x s = (.error e, s')) : (x >>= f) s = (.error e, s') := by
  simp only [Bind.bind, Tx.bind]
  rw [h]

@[simp] theorem ok_map {f : α → β} : (f <$> x).Ok s b s' ↔ ∃ a, x.Ok s a s' ∧ f a = b := by
  have h : f <$> x = (x >>= fun a => pure (f a) : Tx σ ε β) := rfl
  rw [h, ok_bind]
  constructor
  · rintro ⟨a, s1, hx, hp⟩
    obtain ⟨rfl, rfl⟩ := ok_pure.1 hp
    exact ⟨a, hx, rfl⟩
  · rintro ⟨a, hx, rfl⟩
    exact ⟨a, s', hx, ok_pure.2 ⟨rfl, rfl⟩⟩

theorem ok_return {f : α → β} :
    (x >>= fun a => pure (f a)).Ok s b s' ↔ ∃ a, x.Ok s a s' ∧ f a = b := ok_map

@[simp] theorem ok_get : (get : Tx σ ε σ).Ok s t s' ↔ s = t ∧ s = s' := by
  simp only [Ok, get, Prod.mk.injEq, Except.ok.injEq]

@[simp] theorem ok_set : (set t : Tx σ ε Unit).Ok s u s' ↔ t = s' := by
  simp only [Ok, set, Prod.mk.injEq, true_and]

@[simp] theorem ok_modify {f : σ → σ} : (modify f : Tx σ ε Unit).Ok s u s' ↔ f s = s' := by
  simp only [Ok, modify, Prod.mk.injEq, true_and]

@[simp] theorem ok_raise : ¬ (raise e : Tx σ ε α).Ok s a s' := by
  simp [Ok, raise]

@[simp] theorem ok_require {b : Bool} : (require b e : Tx σ ε Unit).Ok s u s' ↔ b ∧ s = s' := by
  cases b <;> simp [require]

@[simp] theorem ok_ofExcept : (ofExcept r : Tx σ ε α).Ok s a s' ↔ r = .ok a ∧ s = s' := by
  simp only [Ok, ofExcept, Prod.mk.injEq]

theorem ok_read {P : α → Prop} {Q : α → σ → Prop} :
    (∃ a s1, (P a ∧ s = s1) ∧ Q a s1) ↔ ∃ a, P a ∧ Q a s := by
  simp only [and_assoc, exists_and_left, exists_eq_left']

theorem ok_require_bind {b : Bool} (hb : b) (hg : (g ()).Ok s a s') :
    (require b e >>= g).Ok s a s' := ok_bind.2 ⟨(), s, ok_require.2 ⟨hb, rfl⟩, hg⟩

theorem ok_ofExcept_bind (hr : r = .ok a) (hf : (f a).Ok s b s') : (ofExcept r >>= f).Ok s b s' :=
  ok_bind.2 ⟨a, s, ok_ofExcept.2 ⟨hr, rfl⟩, hf⟩

theorem ok_set_bind (hg : (g ()).Ok t a s') : (set t >>= g).Ok s a s' :=
  ok_bind.2 ⟨(), t, ok_set.2 rfl, hg⟩

@[simp] theorem ok_ite {c : Prop} [Decidable c] :
    (if c then x else y).Ok s a s' ↔ (c ∧ x.Ok s a s') ∨ (¬ c ∧ y.Ok s a s') := by
  by_cases h : c <;> simp [h]

@[simp] theorem ok_savepoint : (savepoint x).Ok s a s' ↔ x.Ok s a s' := by
  simp only [Ok, savepoint]
  rcases x s with ⟨_ | b, t⟩ <;> simp

@[simp] theorem ok_zoom {τ ε' : Type} {part : σ → τ} {put : τ → σ → σ} {wrap : ε' → ε}
    {x : Tx τ ε' α} : (zoom part put wrap x).Ok s a s' ↔ ∃ t, x.Ok (part s) a t ∧ put t s = s' := by
  simp only [Ok, zoom]
  rcases x (part s) with ⟨_ | b, t⟩ <;> simp

@[simp] theorem ok_attempt : (attempt x).Ok s r s' ↔ x s = (r, s') := by
  simp only [Ok, attempt, Prod.mk.injEq, Except.ok.injEq]
  exact ⟨fun h => Prod.ext h.1 h.2, fun h => by rw [h]; exact ⟨rfl, rfl⟩⟩

theorem Ok.inj {a' : α} (h : x.Ok s a s1) (h' : x.Ok s a' s') : a = a' ∧ s1 = s' := by
  have := h.symm.trans h'
  simpa using this

theorem commit_ok (h : x.Ok s a s') : x.commit s = s' := by
  rw [commit, h]

/-- A transaction either commits what its body left, or changes nothing. -/
theorem commit_cases (x : Tx σ ε α) (s : σ) : (∃ a, x.Ok s a (x.commit s)) ∨ x.commit s = s := by
  unfold commit Ok
  rcases h : x s with ⟨_ | a, s'⟩
  · exact .inr rfl
  · exact .inl ⟨a, rfl⟩

theorem commit_of_ok {P : σ → Prop} (hs : P s) (h : ∀ a s', x.Ok s a s' → P s') : P (x.commit s) := by
  rcases commit_cases x s with ⟨a, ha⟩ | ha
  · exact h a _ ha
  · rwa [ha]

/-! ## Bodies that write nothing -/

/-- The body leaves the store as it is, also when it raises. -/
def ReadOnly (x : Tx σ ε α) : Prop := ∀ s, (x s).2 = s

@[simp] theorem readOnly_pure (a : α) : (pure a : Tx σ ε α).ReadOnly := fun _ => rfl

@[simp] theorem readOnly_get : (get : Tx σ ε σ).ReadOnly := fun _ => rfl

@[simp] theorem readOnly_raise (e : ε) : (raise e : Tx σ ε α).ReadOnly := fun _ => rfl

@[simp] theorem readOnly_ofExcept (r : Except ε α) : (ofExcept r : Tx σ ε α).ReadOnly := fun _ => rfl

@[simp] theorem readOnly_require (b : Bool) (e : ε) : (require b e : Tx σ ε Unit).ReadOnly := by
  intro s; cases b <;> rfl

@[simp] theorem readOnly_bind (hx : x.ReadOnly) (hf : ∀ a, (f a).ReadOnly) :
    (x >>= f).ReadOnly := by
  intro s
  have h := hx s
  simp only [Bind.bind, Tx.bind]
  rcases hr : x s with ⟨_ | a, s'⟩
  · rw [hr] at h; exact h
  · rw [hr] at h; subst h; exact hf a _

@[simp] theorem readOnly_require_bind {b : Bool} {f : Unit → Tx σ ε α} :
    (require b e >>= f).ReadOnly ↔ (b → (f ()).ReadOnly) := by
  cases b
  · exact ⟨fun _ h => absurd h Bool.false_ne_true, fun _ _ => rfl⟩
  · exact ⟨fun h _ => h, fun h => h rfl⟩

theorem collect_returns :
    ∀ {l : List α}, (∀ a ∈ l, ∃ b, (f a).Ok s b s) → ∃ bs, (collect f l).Ok s bs s
  | [], _ => ⟨[], rfl⟩
  | a :: l, h => by
    obtain ⟨b, hb⟩ := h a mem_cons_self
    obtain ⟨bs, hbs⟩ := collect_returns fun a' ha' => h a' (mem_cons_of_mem a ha')
    exact ⟨b :: bs, hb.bind (hbs.bind (ok_pure.2 ⟨rfl, rfl⟩))⟩

@[simp] theorem readOnly_map (hx : x.ReadOnly) (f : α → β) : (f <$> x).ReadOnly :=
  readOnly_bind hx fun _ => readOnly_pure _

@[simp] theorem readOnly_ite {c : Prop} [Decidable c] (hx : x.ReadOnly) (hy : y.ReadOnly) :
    (if c then x else y).ReadOnly := by
  split <;> assumption

@[simp] theorem readOnly_each {f : α → Tx σ ε Unit} (hf : ∀ a, (f a).ReadOnly) :
    ∀ l : List α, (each f l).ReadOnly
  | [] => readOnly_pure ()
  | a :: l => readOnly_bind (hf a) fun _ => readOnly_each hf l

theorem ReadOnly.ok (h : x.ReadOnly) (ho : x.Ok s a s') : s = s' := by
  have := h s
  rw [ho] at this
  exact this.symm

theorem collect_readOnly_ok (hf : ∀ a, (f a).ReadOnly) :
    ∀ {l : List α} {bs : List β} {s' : σ}, (collect f l).Ok s bs s' →
      s' = s ∧ List.Forall₂ (fun a b => (f a).Ok s b s) l bs
  | [], _, _, h => by
    obtain ⟨rfl, rfl⟩ := ok_pure.1 h
    exact ⟨rfl, .nil⟩
  | a :: l, _, _, h => by
    simp only [collect, ok_bind, ok_pure] at h
    obtain ⟨b, s1, hb, bs, s2, hbs, rfl, rfl⟩ := h
    obtain rfl := (hf a).ok hb
    obtain ⟨rfl, hrest⟩ := collect_readOnly_ok hf hbs
    exact ⟨rfl, .cons hb hrest⟩

/-! ## How a body ends -/

/-- Run on `s`, the body ends as `Q` says: with what it returns or raises, and the store it leaves. -/
def Ends (x : Tx σ ε α) (s : σ) (Q : Except ε α → σ → Prop) : Prop := Q (x s).1 (x s).2

section
variable {Q Q' : Except ε α → σ → Prop} {R : Except ε β → σ → Prop}

theorem Ends.imp (hx : x.Ends s Q) (h : ∀ r s', Q r s' → Q' r s') : x.Ends s Q' := h _ _ hx

theorem Ends.of_ok (hx : x.Ends s Q) (h : x.Ok s a s') : Q (.ok a) s' := by
  rwa [Ends, h] at hx

theorem ends_pure (h : Q (.ok a) s) : (pure a : Tx σ ε α).Ends s Q := h

theorem ends_raise (h : Q (.error e) s) : (raise e : Tx σ ε α).Ends s Q := h

theorem Ends.bind (hx : x.Ends s Q) (hok : ∀ a s', Q (.ok a) s' → (f a).Ends s' R)
    (herror : ∀ e s', Q (.error e) s' → R (.error e) s') : (x >>= f).Ends s R := by
  simp only [Ends, Bind.bind, Tx.bind] at hx ⊢
  rcases hr : x s with ⟨e | a, s'⟩ <;> rw [hr] at hx
  · exact herror e s' hx
  · exact hok a s' hx

theorem Ends.handle (hx : x.Ends s Q) {h : ε → Tx σ ε α}
    (hok : ∀ a s', Q (.ok a) s' → Q' (.ok a) s')
    (herror : ∀ e s', Q (.error e) s' → (h e).Ends s' Q') : (handle x h).Ends s Q' := by
  simp only [Ends, Tx.handle] at hx ⊢
  rcases hr : x s with ⟨e | a, s'⟩ <;> rw [hr] at hx
  · exact herror e s' hx
  · exact hok a s' hx

theorem Ends.attempt_bind {g : Except ε α → Tx σ ε β} (hx : x.Ends s Q)
    (h : ∀ r s', Q r s' → (g r).Ends s' R) : (attempt x >>= g).Ends s R := h _ _ hx

theorem Ends.ending (hx : x.Ends s Q) {f : Bool → Tx σ ε Unit}
    (hf : ∀ r s', Q r s' → (f r.isOk.not).Ends s' fun r' s'' =>
      Q' (match r' with | .ok () => r | .error e => .error e) s'') : (ending x f).Ends s Q' := by
  have h := hf _ _ hx
  simp only [Ends, Tx.ending] at h ⊢
  split <;> (rename_i hr; rw [hr] at h; exact h)

theorem ends_readOnly_bind (hx : x.ReadOnly) (hok : ∀ a, x.Ok s a s → (f a).Ends s R)
    (herror : ∀ e, R (.error e) s) : (x >>= f).Ends s R := by
  have hs := hx s
  simp only [Ends, Bind.bind, Tx.bind]
  rcases hr : x s with ⟨e | a, s'⟩ <;> rw [hr] at hs
  · obtain rfl : s' = s := hs
    exact herror e
  · obtain rfl : s' = s := hs
    exact hok a hr

theorem ends_get_bind {f : σ → Tx σ ε β} (h : (f s).Ends s R) : (get >>= f).Ends s R := h

theorem ends_set_bind (h : (g ()).Ends t Q) : (set t >>= g).Ends s Q := h

theorem ends_modify_bind {f : σ → σ} (h : (g ()).Ends (f s) Q) : (modify f >>= g).Ends s Q := h

theorem ends_require_bind {b : Bool} (hg : b → (g ()).Ends s Q)
    (he : b = false → Q (.error e) s) : (require b e >>= g).Ends s Q := by
  cases b
  · exact he rfl
  · exact hg rfl

end

/-! ## What a body leaves, also when it raises -/

/-- Run on `s`, the body leaves a store with `P`, whether it returns or raises. -/
def Leaves (x : Tx σ ε α) (s : σ) (P : σ → Prop) : Prop := P (x s).2

theorem ReadOnly.leaves (hx : x.ReadOnly) (h : P s) : x.Leaves s P := by
  rw [Leaves, hx s]
  exact h

theorem Ends.leaves {Q : Except ε α → σ → Prop} (hx : x.Ends s Q) (h : ∀ r s', Q r s' → P s') :
    x.Leaves s P := h _ _ hx

/-- What follows a body whose end is known leaves. -/
theorem Ends.leaves_bind {Q : Except ε α → σ → Prop} (hx : x.Ends s Q)
    (hok : ∀ a s', Q (.ok a) s' → (f a).Leaves s' P)
    (herror : ∀ e s', Q (.error e) s' → P s') : (x >>= f).Leaves s P :=
  hx.bind (R := fun _ => P) hok herror

/-- One body after another, where the first may end the sequence. -/
theorem Leaves.bind {Q : σ → Prop} (hx : x.Leaves s Q) (h : ∀ s', Q s' → P s')
    (hf : ∀ a s', Q s' → (f a).Leaves s' P) : (x >>= f).Leaves s P :=
  Ends.leaves_bind (Q := fun _ => Q) hx hf fun _ => h

/-- What follows a body and only reads leaves what the body has left. -/
theorem Leaves.bind_readOnly (hx : x.Leaves s P) (hf : ∀ a, (f a).ReadOnly) :
    (x >>= f).Leaves s P := hx.bind (fun _ h => h) fun a _ h => (hf a).leaves h

theorem leaves_readOnly_bind (hx : x.ReadOnly) (h : P s)
    (hf : ∀ a, x.Ok s a s → (f a).Leaves s P) : (x >>= f).Leaves s P :=
  ends_readOnly_bind (R := fun _ => P) hx hf fun _ => h

/-- What holds of the store that a body leaves holds after the transaction, if it held before. -/
theorem Leaves.commit (hx : x.Leaves s P) (h : P s) : P (x.commit s) := by
  rcases commit_cases x s with ⟨a, ha⟩ | ha
  · rwa [Leaves, ha] at hx
  · rwa [ha]

@[simp] theorem leaves_pure : (pure a : Tx σ ε α).Leaves s P ↔ P s := Iff.rfl

@[simp] theorem leaves_raise : (raise e : Tx σ ε α).Leaves s P ↔ P s := Iff.rfl

theorem leaves_get_bind {f : σ → Tx σ ε β} (h : (f s).Leaves s P) : (get >>= f).Leaves s P := h

theorem leaves_require_bind {b : Bool} (h : P s) (hg : b → (g ()).Leaves s P) :
    (require b e >>= g).Leaves s P := ends_require_bind (Q := fun _ => P) hg fun _ => h

@[simp] theorem leaves_require_bind_iff {b : Bool} :
    (require b e >>= g).Leaves s P ↔ (b = false → P s) ∧ (b → (g ()).Leaves s P) := by
  cases b <;> simp [Leaves, require, Bind.bind, Tx.bind, raise, pure]

@[simp] theorem leaves_set_bind : (set t >>= g).Leaves s P ↔ (g ()).Leaves t P := Iff.rfl

/-- Run on `s`, the body leaves `s`, whether it returns or raises. -/
def Quiet (x : Tx σ ε α) (s : σ) : Prop := (x s).2 = s

theorem ReadOnly.quiet (h : x.ReadOnly) (s : σ) : x.Quiet s := h s

theorem quiet_bind (hx : x.ReadOnly) (hf : ∀ a, x.Ok s a s → (f a).Quiet s) :
    (x >>= f).Quiet s := leaves_readOnly_bind (P := (· = s)) hx rfl hf

theorem Quiet.map (h : x.Quiet s) (f : α → β) : (x >>= fun a => pure (f a)).Quiet s :=
  Leaves.bind_readOnly (P := (· = s)) h fun _ => readOnly_pure _

theorem Quiet.commit (h : x.Quiet s) : x.commit s = s := Leaves.commit (P := (· = s)) h rfl

end

/-- Whether it returns or raises, the body leaves a store related to the one it was run on. -/
def Moves (R : σ → σ → Prop) (x : Tx σ ε α) : Prop := ∀ s, x.Leaves s (R s)

section
variable {R : σ → σ → Prop} {x : Tx σ ε α} {f : α → Tx σ ε β}

theorem ReadOnly.moves [Std.Refl R] (hx : x.ReadOnly) : x.Moves R :=
  fun s => hx.leaves (Std.Refl.refl s)

theorem Moves.bind [IsTrans σ R] (hx : x.Moves R) (hf : ∀ a, (f a).Moves R) :
    (x >>= f).Moves R := fun s =>
  (hx s).bind (fun _ h => h) fun a s' h => IsTrans.trans _ _ _ h (hf a s')

theorem Moves.returning (hx : x.Moves R) {g : α → β} : (x >>= fun a => pure (g a)).Moves R :=
  fun s => (hx s).bind_readOnly fun _ => readOnly_pure _

theorem Moves.handle [IsTrans σ R] (hx : x.Moves R) {h : ε → Tx σ ε α}
    (hh : ∀ e, (h e).Moves R) : (handle x h).Moves R := by
  intro s
  change Ends _ s fun _ => R s
  refine Ends.handle (Q := fun _ => R s) (hx s) (fun _ _ hs => hs) fun e s' hs => ?_
  exact IsTrans.trans _ _ _ hs (hh e s')

theorem Moves.ending [IsTrans σ R] (hx : x.Moves R) {f : Bool → Tx σ ε Unit}
    (hf : ∀ b, (f b).Moves R) : (ending x f).Moves R := by
  intro s
  have hsnd : (Tx.ending x f s).2 = (f (x s).1.isOk.not (x s).2).2 := by
    simp only [Tx.ending]
    split <;> (rename_i h; rw [h])
  rw [Leaves, hsnd]
  exact IsTrans.trans _ _ _ (hx s) (hf _ _)

theorem Moves.attempt (hx : x.Moves R) : (attempt x).Moves R := hx

theorem Moves.imp {R' : σ → σ → Prop} (hx : x.Moves R) (h : ∀ s s', R s s' → R' s s') :
    x.Moves R' := fun s => h _ _ (hx s)

theorem moves_ite {c : Prop} [Decidable c] {y : Tx σ ε α} (hx : x.Moves R) (hy : y.Moves R) :
    (if c then x else y).Moves R := by
  split <;> assumption

theorem Moves.each_mem [Std.Refl R] [IsTrans σ R] {g : α → Tx σ ε Unit} :
    ∀ l : List α, (∀ a ∈ l, (g a).Moves R) → (each g l).Moves R
  | [], _ => (readOnly_pure ()).moves
  | a :: l, hg => (hg a mem_cons_self).bind fun _ =>
    Moves.each_mem l fun b hb => hg b (mem_cons_of_mem a hb)

theorem Moves.each [Std.Refl R] [IsTrans σ R] {g : α → Tx σ ε Unit} (hg : ∀ a, (g a).Moves R)
    (l : List α) : (each g l).Moves R := Moves.each_mem l fun a _ => hg a

theorem Moves.collect_mem [Std.Refl R] [IsTrans σ R] :
    ∀ l : List α, (∀ a ∈ l, (f a).Moves R) → (collect f l).Moves R
  | [], _ => (readOnly_pure []).moves
  | a :: l, hf => (hf a mem_cons_self).bind fun _ =>
    (Moves.collect_mem l fun b hb => hf b (mem_cons_of_mem a hb)).bind fun _ =>
      (readOnly_pure _).moves

theorem Moves.collect [Std.Refl R] [IsTrans σ R] (hf : ∀ a, (f a).Moves R) (l : List α) :
    (collect f l).Moves R := Moves.collect_mem l fun a _ => hf a

end

/-- The step keeps `P`. -/
def Keeping (P : σ → Prop) (s s' : σ) : Prop := P s → P s'

instance (P : σ → Prop) : Std.Refl (Keeping P) := ⟨fun _ h => h⟩

instance (P : σ → Prop) : IsTrans σ (Keeping P) := ⟨fun _ _ _ h h' hs => h' (h hs)⟩

theorem Moves.leaves {P : σ → Prop} {x : Tx σ ε α} {s : σ} (hx : x.Moves (Keeping P)) (hs : P s) :
    x.Leaves s P := hx s hs

/-- From a store with `P`, the step is one of `R` and keeps `P`. -/
def Under (P : σ → Prop) (R : σ → σ → Prop) (s s' : σ) : Prop := P s → R s s' ∧ P s'

instance (P : σ → Prop) (R : σ → σ → Prop) [Std.Refl R] : Std.Refl (Under P R) :=
  ⟨fun s h => ⟨Std.Refl.refl s, h⟩⟩

instance (P : σ → Prop) (R : σ → σ → Prop) [IsTrans σ R] : IsTrans σ (Under P R) :=
  ⟨fun _ _ _ h h' hs => ⟨IsTrans.trans _ _ _ (h hs).1 (h' (h hs).2).1, (h' (h hs).2).2⟩⟩

/-! ## All or nothing -/

/-- Run on `s`, the body raises and leaves the store as it was, or returns as `Q` says. -/
def Settles (x : Tx σ ε α) (s : σ) (Q : α → σ → Prop) : Prop :=
  x.Ends s fun reply s' =>
    match reply with
    | .ok a => Q a s'
    | .error _ => s' = s

section
variable {x : Tx σ ε α} {s : σ} {f : α → Tx σ ε β} {Q Q' : α → σ → Prop} {R : β → σ → Prop}

theorem settles_pure {a : α} (h : Q a s) : (pure a : Tx σ ε α).Settles s Q := h

theorem settles_raise : (raise e : Tx σ ε α).Settles s Q := rfl

theorem Settles.imp (hx : x.Settles s Q) (h : ∀ a s', Q a s' → Q' a s') : x.Settles s Q' := by
  refine Ends.imp hx fun reply s' => ?_
  cases reply with
  | ok a => exact h a s'
  | error => exact id

theorem Settles.of_ok {a : α} {s' : σ} (hx : x.Settles s Q) (h : x.Ok s a s') : Q a s' :=
  Ends.of_ok hx h

theorem Settles.raises {s' : σ} (hx : x.Settles s Q) (h : x s = (.error e, s')) : s' = s := by
  rwa [Settles, Ends, h] at hx

theorem settles_readOnly_bind (hx : x.ReadOnly) (hf : ∀ a, x.Ok s a s → (f a).Settles s R) :
    (x >>= f).Settles s R := ends_readOnly_bind hx hf fun _ => rfl

theorem ReadOnly.settles (hx : x.ReadOnly) (h : ∀ a, x.Ok s a s → Q a s) : x.Settles s Q := by
  have hs := hx s
  rw [Settles, Ends]
  rcases hr : x s with ⟨e | a, s'⟩ <;> rw [hr] at hs <;> obtain rfl : s' = s := hs
  · rfl
  · exact h a hr

theorem settles_get_bind {f : σ → Tx σ ε β} (h : (f s).Settles s R) : (get >>= f).Settles s R := h

theorem settles_require_bind {f : Unit → Tx σ ε β} {b : Bool}
    (h : b → (f ()).Settles s R) : (require b e >>= f).Settles s R :=
  ends_require_bind h fun _ => rfl

/-- What follows a body that may have written: nothing was written yet, or nothing raises any more. -/
theorem Settles.bind (hx : x.Settles s Q) (hf : ∀ a s', Q a s' →
      (s' = s ∧ (f a).Settles s R) ∨ ∃ b s'', (f a).Ok s' b s'' ∧ R b s'') :
    (x >>= f).Settles s R := by
  refine Ends.bind hx (fun a s' hq => ?_) fun _ _ hs => hs
  rcases hf a s' hq with ⟨rfl, hrest⟩ | ⟨b, s'', hok, hr⟩
  · exact hrest
  · rw [Ends, hok]
    exact hr

/-- Under a savepoint, what the body does when it returns is all there is to show. -/
theorem settles_savepoint (h : ∀ a s', x.Ok s a s' → Q a s') : (savepoint x).Settles s Q := by
  rw [Settles, Ends, savepoint]
  rcases hr : x s with ⟨e | a, s'⟩
  · rfl
  · exact h a s' hr

theorem settles_zoom {τ ε' : Type} {part : σ → τ} {put : τ → σ → σ} {wrap : ε' → ε} {y : Tx τ ε' α}
    {P : α → τ → Prop} (hy : y.Settles (part s) P) (hput : put (part s) s = s)
    (h : ∀ a t, P a t → Q a (put t s)) : (zoom part put wrap y).Settles s Q := by
  rw [Settles, Ends] at hy ⊢
  rw [zoom]
  rcases hr : y (part s) with ⟨e | a, t⟩ <;> rw [hr] at hy
  · rw [show t = part s from hy]
    exact hput
  · exact h a t hy

end

theorem savepoint_error {x : Tx σ ε α} {s s' : σ} (h : x.savepoint s = (.error e, s')) :
    s' = s := by
  simp only [savepoint] at h
  split at h
  · cases h
  · cases h; rfl

theorem quiet_of_error {x : Tx σ ε α} {f : α → Tx σ ε β} {s : σ} (hx : x.ReadOnly)
    (h : ∀ a, ¬ x.Ok s a s) : (x >>= f).Quiet s :=
  quiet_bind hx fun a ha => absurd ha (h a)

end Tx

/-! ## Computations that may raise -/

section
variable {ε α β : Type}

theorem bind_eq_ok {x : Except ε α} {f : α → Except ε β} {b : β} :
    (x >>= f) = .ok b ↔ ∃ a, x = .ok a ∧ f a = .ok b := by
  cases x with
  | error | ok => simp [bind, Except.bind]

theorem pure_eq_ok {a b : α} : (pure a : Except ε α) = .ok b ↔ a = b := by
  simp [pure, Except.pure]

/-- Raise `e` unless `b` holds. -/
def ensure (b : Bool) (e : ε) : Except ε Unit := if b then .ok () else .error e

theorem ensure_eq_ok {b : Bool} {u : Unit} : ensure b e = .ok u ↔ b := by
  cases b <;> simp [ensure]

/-- What a body or a computation that returns has done, step by step: the rules for `simp only`. -/
theorem ok_rules : (∀ {σ ε α β : Type} {x : Tx σ ε α} {f : α → Tx σ ε β} {s s' : σ} {b : β},
      (x >>= f).Ok s b s' ↔ ∃ a s1, x.Ok s a s1 ∧ (f a).Ok s1 b s') ∧
    (∀ {σ α : Type} {P : α → Prop} {Q : α → σ → Prop} {s : σ},
      (∃ a s1, (P a ∧ s = s1) ∧ Q a s1) ↔ ∃ a, P a ∧ Q a s) ∧
    (∀ {σ ε α : Type} {a b : α} {s s' : σ}, (pure a : Tx σ ε α).Ok s b s' ↔ a = b ∧ s = s') ∧
    (∀ {σ ε : Type} {s t s' : σ}, (Tx.get : Tx σ ε σ).Ok s t s' ↔ s = t ∧ s = s') ∧
    (∀ {σ ε : Type} {t s s' : σ} {u : Unit}, (Tx.set t : Tx σ ε Unit).Ok s u s' ↔ t = s') ∧
    (∀ {σ ε : Type} {f : σ → σ} {s s' : σ} {u : Unit},
      (Tx.modify f : Tx σ ε Unit).Ok s u s' ↔ f s = s') ∧
    (∀ {σ ε : Type} {b : Bool} {e : ε} {s s' : σ} {u : Unit},
      (Tx.require b e : Tx σ ε Unit).Ok s u s' ↔ b ∧ s = s') ∧
    (∀ {σ ε α : Type} {r : Except ε α} {a : α} {s s' : σ},
      (Tx.ofExcept r : Tx σ ε α).Ok s a s' ↔ r = .ok a ∧ s = s') ∧
    (∀ {ε α β : Type} {x : Except ε α} {f : α → Except ε β} {b : β},
      (x >>= f) = .ok b ↔ ∃ a, x = .ok a ∧ f a = .ok b) ∧
    (∀ {ε α : Type} {a b : α}, (pure a : Except ε α) = .ok b ↔ a = b) ∧
    (∀ {ε : Type} {b : Bool} {e : ε} {u : Unit}, ensure b e = .ok u ↔ b) :=
  ⟨Tx.ok_bind, Tx.ok_read, Tx.ok_pure, Tx.ok_get, Tx.ok_set, Tx.ok_modify, Tx.ok_require,
    Tx.ok_ofExcept, bind_eq_ok, pure_eq_ok, ensure_eq_ok⟩

theorem mapM_eq_ok {f : α → Except ε β} {l : List α} {l' : List β} :
    l.mapM f = .ok l' ↔ List.Forall₂ (fun a b => f a = .ok b) l l' := by
  induction l generalizing l' with
  | nil => rw [mapM_nil, pure_eq_ok, forall₂_nil_left_iff, eq_comm]
  | cons a l ih =>
    simp only [mapM_cons, bind_eq_ok, pure_eq_ok, ih, forall₂_cons_left_iff]
    constructor
    · rintro ⟨b, hb, bs, hbs, rfl⟩
      exact ⟨b, bs, hb, hbs, rfl⟩
    · rintro ⟨b, bs, hb, hbs, rfl⟩
      exact ⟨b, hb, bs, hbs, rfl⟩

theorem forM_eq_ok {f : α → Except ε Unit} {l : List α} {u : Unit} :
    l.forM f = .ok u ↔ ∀ a ∈ l, f a = .ok () := by
  induction l with
  | nil => simp [List.forM, pure, Except.pure]
  | cons b l ih =>
    change (f b >>= fun _ => l.forM f) = .ok u ↔ _
    simp only [bind_eq_ok, ih, forall_mem_cons]
    constructor
    · rintro ⟨_, hb, hl⟩
      exact ⟨hb, hl⟩
    · exact fun h => ⟨(), h⟩

end

/-! ## Runs of a system -/

section
variable {σ ι : Type}

/-- The state after the steps `l`, in order. -/
def run (step : ι → σ → σ) (l : List ι) (s : σ) : σ := l.foldl (fun s i => step i s) s

@[simp] theorem run_nil (step : ι → σ → σ) (s : σ) : run step [] s = s := rfl

@[simp] theorem run_cons (step : ι → σ → σ) (i : ι) (l : List ι) (s : σ) :
    run step (i :: l) s = run step l (step i s) := rfl

theorem run_append (step : ι → σ → σ) (l1 l2 : List ι) (s : σ) :
    run step (l1 ++ l2) s = run step l2 (run step l1 s) := by
  simp [run, foldl_append]

theorem run_snoc (step : ι → σ → σ) (l : List ι) (i : ι) (s : σ) :
    run step (l ++ [i]) s = step i (run step l s) := by simp [run_append]

/-- **What every step keeps, every run keeps.** -/
theorem run_keeps {step : ι → σ → σ} {P : σ → Prop} (h : ∀ i s, P s → P (step i s)) :
    ∀ (l : List ι) {s : σ}, P s → P (run step l s)
  | [], _, hP => hP
  | i :: l, _, hP => run_keeps h l (h i _ hP)

end

section
variable {ι σ : Type} {step : ι → σ → σ} {ok : σ → ι → Prop}

/-- Every step of the run is made in a state that allows it. -/
def Allowed (step : ι → σ → σ) (ok : σ → ι → Prop) : List ι → σ → Prop
  | [], _ => True
  | i :: l, s => ok s i ∧ Allowed step ok l (step i s)

instance decidableAllowed (step : ι → σ → σ) (ok : σ → ι → Prop) [∀ s i, Decidable (ok s i)] :
    ∀ l s, Decidable (Allowed step ok l s)
  | [], _ => isTrue trivial
  | i :: l, s =>
    have := decidableAllowed step ok l (step i s)
    inferInstanceAs (Decidable (ok s i ∧ Allowed step ok l (step i s)))

theorem allowed_append {l l' : List ι} {s : σ} : Allowed step ok (l ++ l') s ↔
    Allowed step ok l s ∧ Allowed step ok l' (run step l s) := by
  induction l generalizing s with
  | nil => exact (iff_of_eq (true_and _)).symm
  | cons i l ih => exact (and_congr_right fun _ => ih).trans and_assoc.symm

theorem Allowed.of_forall {l : List ι} {s : σ} (h : ∀ i ∈ l, ∀ s, ok s i) : Allowed step ok l s := by
  induction l generalizing s with
  | nil => trivial
  | cons i l ih => exact ⟨h i mem_cons_self s, ih fun j hj => h j (mem_cons_of_mem _ hj)⟩

/-- What every step that is allowed keeps, a run of such steps keeps. -/
theorem Allowed.keeps {P : σ → Prop} (h : ∀ i s, ok s i → P s → P (step i s)) {l : List ι} {s : σ}
    (hl : Allowed step ok l s) (hs : P s) : P (run step l s) := by
  induction l generalizing s with
  | nil => exact hs
  | cons i l ih => exact ih hl.2 (h i s hl.1 hs)

/-- A step that brings what is wanted, or less to do, brings it when it is repeated. -/
theorem run_replicate {i : ι} {P Q : σ → Prop} (todo : σ → ℕ)
    (h : ∀ s, P s → Q (step i s) ∨ (P (step i s) ∧ todo (step i s) < todo s)) :
    ∀ {s : σ}, P s → ∃ n, Q (run step (List.replicate n i) s) := by
  intro s hs
  induction hn : todo s using Nat.strongRecOn generalizing s with
  | ind n ih =>
    rcases h s hs with hq | ⟨hp, hlt⟩
    · exact ⟨1, hq⟩
    · obtain ⟨m, hm⟩ := ih (todo (step i s)) (hn ▸ hlt) hp rfl
      exact ⟨m + 1, hm⟩

end

/-! ## Traces -/

section
variable {ε : Type} {P : List ε → ε → Prop} {t : List ε}

/-- Every event of the trace may follow those before it. -/
def Along (P : List ε → ε → Prop) (t : List ε) : Prop :=
  ∀ before e, before ++ [e] <+: t → P before e

theorem along_nil : Along P [] := by
  intro before e h
  simp at h

theorem Along.snoc (h : Along P t) (he : P t e) : Along P (t ++ [e]) := by
  intro before e' hp
  rcases prefix_concat_iff.1 hp with ht | hp
  · obtain ⟨rfl, hlast⟩ := append_inj' ht rfl
    obtain rfl := (cons.inj hlast).1
    exact he
  · exact h before e' hp

/-- Events that may follow anything. -/
theorem Along.append (h : Along P t) {more : List ε} (hm : ∀ e ∈ more, ∀ before, P before e) :
    Along P (t ++ more) := by
  induction more generalizing t with
  | nil => simpa using h
  | cons e more ih =>
    have hsnoc : Along P (t ++ [e]) := h.snoc (hm e mem_cons_self t)
    simpa using ih hsnoc fun e' he' => hm e' (mem_cons_of_mem _ he')

end

end AstralPlane
