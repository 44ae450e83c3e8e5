/-
  What programs do with statements and savepoints.

  The ledger of a trace keeps, as PostgreSQL does, the stack of open savepoints,
  and with each failed operation the number of savepoints it lies in.  A
  successful ROLLBACK TO settles the failures that lie in its savepoint; a
  RELEASE hands them on to the savepoint around it.  The `Transaction` object
  only has one flag; `Honest` says what the flag knows of the ledger.
-/
import AstralPlane.Database.Transaction

namespace AstralPlane.Database

open Tx List

variable {V M α β : Type} {name : String} {s' : Session V M}

/-! ## The ledger of a trace -/

/-- A failed operation and the number of savepoints it lies in. -/
structure Failure (V : Type) where
  op : Op V
  depth : ℕ

/-- The open savepoints, innermost first, and the failures that no rollback has settled. -/
structure Ledger (V : Type) where
  savepoints : List String
  failures : List (Failure V)

def Ledger.empty : Ledger V := ⟨[], []⟩

/-- The savepoints from the innermost one of that name outwards; none if there is none. -/
def Ledger.upTo (l : Ledger V) (name : String) : List String :=
  l.savepoints.dropWhile (· ≠ name)

/-- A successful operation. -/
def Ledger.succeed (l : Ledger V) : Op V → Ledger V
  | .execute (.savepoint name) => { l with savepoints := name :: l.savepoints }
  | .execute (.rollbackTo name) =>
    if l.upTo name = [] then l
    else ⟨l.upTo name, l.failures.filter (·.depth < (l.upTo name).length)⟩
  | .execute (.release name) =>
    if l.upTo name = [] then l
    else ⟨(l.upTo name).tail,
      l.failures.map fun f => { f with depth := min f.depth (l.upTo name).tail.length }⟩
  | _ => l

def Ledger.blame (l : Ledger V) (op : Op V) : Ledger V :=
  { l with failures := l.failures ++ [⟨op, l.savepoints.length⟩] }

def Ledger.record (l : Ledger V) (e : Event V) : Ledger V :=
  match e.raised with
  | none => l.succeed e.op
  | some _ => l.blame e.op

def ledger (trace : List (Event V)) : Ledger V := trace.foldl Ledger.record .empty

@[simp] theorem ledger_snoc {t : List (Event V)} {e : Event V} :
    ledger (t ++ [e]) = (ledger t).record e := by
  simp [ledger]

abbrev Session.ledger (s : Session V M) : Ledger V := Database.ledger s.trace

/-- All failures lie in the innermost savepoint. -/
def Ledger.Innermost (l : Ledger V) : Prop := ∀ f ∈ l.failures, f.depth = l.savepoints.length

/-- The same savepoints, and perhaps more failures in the innermost. -/
structure Ledger.Blamed (l l' : Ledger V) : Prop where
  savepoints : l'.savepoints = l.savepoints
  failures : ∃ more, l'.failures = l.failures ++ more ∧ ∀ f ∈ more, f.depth = l.savepoints.length

theorem Ledger.Blamed.refl (l : Ledger V) : l.Blamed l := ⟨rfl, [], by simp, by simp⟩

theorem Ledger.Blamed.trans {l1 l2 l3 : Ledger V} (h1 : l1.Blamed l2) (h2 : l2.Blamed l3) :
    l1.Blamed l3 := by
  obtain ⟨m1, e1, d1⟩ := h1.failures
  obtain ⟨m2, e2, d2⟩ := h2.failures
  refine ⟨h2.savepoints.trans h1.savepoints, m1 ++ m2, by simp [e2, e1], fun f hf => ?_⟩
  rcases mem_append.1 hf with hf | hf
  · exact d1 f hf
  · rw [← h1.savepoints]
    exact d2 f hf

variable {l : Ledger V} {op : Op V}

theorem Ledger.blamed_blame : l.Blamed (l.blame op) :=
  ⟨rfl, [⟨op, l.savepoints.length⟩], rfl, by simp⟩

theorem Ledger.Blamed.innermost {l' : Ledger V} (h : l.Blamed l') (hi : l.Innermost) :
    l'.Innermost := by
  obtain ⟨more, he, hm⟩ := h.failures
  intro f hf
  rw [he] at hf
  rw [h.savepoints]
  exact (mem_append.1 hf).elim (hi f) (hm f)

/-- Operations that leave the ledger alone when they succeed. -/
def Op.plain : Op V → Bool
  | .execute (.savepoint _) | .execute (.rollbackTo _) | .execute (.release _) => false
  | _ => true

theorem Ledger.succeed_plain (h : op.plain) : l.succeed op = l := by
  cases op with
  | execute c => cases c <;> first | rfl | cases h
  | _ => rfl

theorem dropWhile_suffix_of {l l' : List String} (h : (name :: l) <:+ l') :
    (name :: l) <:+ l'.dropWhile (· ≠ name) := by
  induction l' with
  | nil => exact absurd h (by simp)
  | cons n l' ih =>
    rw [dropWhile_cons]
    split
    · rename_i hn
      rcases suffix_cons_iff.1 h with he | hs
      · cases he
        simp at hn
      · exact ih hs
    · exact h

/-- An open savepoint is found by its name, or one of its name that was opened in it. -/
theorem Ledger.upTo_suffix {outer : List String} (h : (name :: outer) <:+ l.savepoints) :
    ∃ inner, l.upTo name = name :: inner ∧ (name :: outer) <:+ name :: inner := by
  have hs := dropWhile_suffix_of h
  have hne : l.upTo name ≠ [] := by
    intro he
    rw [Ledger.upTo] at he
    rw [he] at hs
    exact absurd hs (by simp)
  have hhead := head_dropWhile_not (fun n : String => decide (n ≠ name)) hne
  rcases hl : l.upTo name with _ | ⟨n, inner⟩
  · exact absurd hl hne
  · rw [Ledger.upTo] at hl
    simp only [hl] at hhead hs
    obtain rfl : n = name := not_not.1 (of_decide_eq_false hhead)
    exact ⟨inner, rfl, hs⟩

theorem Ledger.upTo_length_le (l : Ledger V) (name : String) :
    (l.upTo name).length ≤ l.savepoints.length :=
  (dropWhile_suffix _).length_le

/-- All failures are innermost, and the savepoints of `outer` are open. -/
def Held (outer : List String) (l : Ledger V) : Prop :=
  l.Innermost ∧ outer <:+ l.savepoints

theorem Held.blamed {outer : List String} {l' : Ledger V} (h : Held outer l) (hb : l.Blamed l') :
    Held outer l' := ⟨hb.innermost h.1, hb.savepoints ▸ h.2⟩

/-- A successful ROLLBACK TO settles everything when all failures are innermost. -/
theorem Held.rolledBack {outer : List String} (h : Held (name :: outer) l) :
    Held (name :: outer) (l.succeed (.execute (.rollbackTo name))) ∧
      (l.succeed (.execute (.rollbackTo name))).failures = [] := by
  obtain ⟨inner, hu, ho⟩ := l.upTo_suffix h.2
  have hle := l.upTo_length_le name
  rw [hu] at hle
  have hnil : l.failures.filter (·.depth < (name :: inner).length) = [] := by
    refine filter_eq_nil_iff.2 fun f hf => ?_
    have := h.1 f hf
    simp only [decide_eq_true_eq]
    omega
  rw [Ledger.succeed, hu, if_neg (cons_ne_nil _ _), hnil]
  exact ⟨⟨nofun, ho⟩, rfl⟩

theorem Held.released {outer : List String} (h : Held (name :: outer) l) :
    Held outer (l.succeed (.execute (.release name))) ∧
      (l.failures = [] → (l.succeed (.execute (.release name))).failures = []) := by
  obtain ⟨inner, hu, ho⟩ := l.upTo_suffix h.2
  have hle := l.upTo_length_le name
  rw [hu, length_cons] at hle
  rw [Ledger.succeed, hu, if_neg (cons_ne_nil _ _)]
  refine ⟨⟨fun f hf => ?_, ?_⟩, fun hnil => by simp [hnil]⟩
  · obtain ⟨g, hg, rfl⟩ := mem_map.1 hf
    have := h.1 g hg
    simp only [tail_cons]
    omega
  · rcases suffix_cons_iff.1 ho with he | hs
    · rw [(cons.inj he).2]
      exact suffix_rfl
    · exact (suffix_cons _ _).trans hs

theorem Held.outer {outer : List String}
    (h : Held (name :: outer) l) : Held outer l := ⟨h.1, (suffix_cons _ _).trans h.2⟩

/-! ## What a program does to a session -/

/-- What the flag knows: the failures are innermost, and there are none unless it is set. -/
structure Honest (s : Session V M) : Prop where
  innermost : s.ledger.Innermost
  flagged : s.failed = false → s.ledger.failures = []

/-- Operations that programs make. -/
def Op.inBody : Op V → Bool
  | .cursor | .validate | .execute _ | .fetchone | .fetchall | .detach | .closeCursor => true
  | _ => false

/-- Operations of programs were added to the trace. -/
structure Sent (s s' : Session V M) : Prop where
  active : s'.active = s.active
  events : ∃ more, s'.trace = s.trace ++ more ∧ ∀ e ∈ more, e.op.inBody

theorem Sent.refl (s : Session V M) : Sent s s := ⟨rfl, [], by simp, by simp⟩

theorem Sent.trans {s1 s2 s3 : Session V M} (h1 : Sent s1 s2) (h2 : Sent s2 s3) : Sent s1 s3 := by
  obtain ⟨m1, t1, b1⟩ := h1.events
  obtain ⟨m2, t2, b2⟩ := h2.events
  refine ⟨h2.active.trans h1.active, m1 ++ m2, by simp [t2, t1], fun e he => ?_⟩
  exact (mem_append.1 he).elim (b1 e) (b2 e)

instance : Std.Refl (Sent : Session V M → Session V M → Prop) := ⟨Sent.refl⟩

instance : IsTrans (Session V M) Sent := ⟨fun _ _ _ => Sent.trans⟩

/-- What a piece of a program does: nothing if the transaction is not active; it keeps the flag
    honest, and leaves the savepoints around it open. -/
structure Body (s s' : Session V M) : Prop extends Sent s s' where
  silent : s.active = false → s'.trace = s.trace
  honest : Honest s → Honest s' ∧ s.ledger.savepoints <:+ s'.ledger.savepoints

instance : Std.Refl (Body : Session V M → Session V M → Prop) where
  refl s := ⟨.refl s, fun _ => rfl, fun h => ⟨h, List.suffix_rfl⟩⟩

instance : IsTrans (Session V M) Body where
  trans s₁ s₂ s₃ h₁ h₂ := by
    refine ⟨h₁.toSent.trans h₂.toSent, fun hs => ?_, fun hs => ?_⟩
    · rw [h₂.silent (h₁.active.trans hs), h₁.silent hs]
    · obtain ⟨hh₁, hs₁⟩ := h₁.honest hs
      obtain ⟨hh₂, hs₂⟩ := h₂.honest hh₁
      exact ⟨hh₂, hs₁.trans hs₂⟩

/-- What an action on a cursor does: it leaves the savepoints alone and never clears the flag. -/
structure OnCursor (s s' : Session V M) : Prop extends Sent s s' where
  failed : s.failed → s'.failed
  blamed : s.ledger.Blamed s'.ledger

instance : Std.Refl (OnCursor : Session V M → Session V M → Prop) where
  refl s := ⟨.refl s, id, .refl _⟩

instance : IsTrans (Session V M) OnCursor where
  trans _ _ _ h₁ h₂ :=
    ⟨h₁.toSent.trans h₂.toSent, h₂.failed ∘ h₁.failed, h₁.blamed.trans h₂.blamed⟩

/-- An action on a cursor that leaves no failure without setting the flag. -/
structure Careful (s s' : Session V M) : Prop extends OnCursor s s' where
  clean : s'.failed = false → s'.ledger = s.ledger

instance : Std.Refl (Careful : Session V M → Session V M → Prop) where
  refl s := ⟨Std.Refl.refl s, fun _ => rfl⟩

instance : IsTrans (Session V M) Careful where
  trans s₁ s₂ s₃ h₁ h₂ := by
    refine ⟨IsTrans.trans _ _ _ h₁.toOnCursor h₂.toOnCursor, fun hf => ?_⟩
    have hf₂ : s₂.failed = false := Bool.eq_false_iff.2 fun ht =>
      absurd (h₂.failed ht) (Bool.eq_false_iff.1 hf)
    exact (h₂.clean hf).trans (h₁.clean hf₂)

variable {s : Session V M}

theorem Careful.body (h : Careful s s')
    (hs : s.active = false → s'.trace = s.trace) : Body s s' := by
  refine ⟨h.toSent, hs, fun hh => ⟨⟨h.blamed.innermost hh.innermost, fun hf => ?_⟩, ?_⟩⟩
  · rw [h.clean hf]
    refine hh.flagged (Bool.eq_false_iff.2 fun ht => ?_)
    exact absurd (h.failed ht) (Bool.eq_false_iff.1 hf)
  · exact h.blamed.savepoints ▸ suffix_rfl

/-- A body that returns leaves the ledger and the flag as they were. -/
def Clean (x : Code V M α) : Prop :=
  ∀ s a s', x.Ok s a s' → s'.ledger = s.ledger ∧ s'.failed = s.failed

variable {x : Code V M α}

theorem Clean.bind {f : α → Code V M β} (hx : Clean x) (hf : ∀ a, Clean (f a)) :
    Clean (x >>= f) := by
  intro s b s' h
  obtain ⟨a, s1, h1, h2⟩ := ok_bind.1 h
  obtain ⟨hl1, hf1⟩ := hx s a s1 h1
  obtain ⟨hl2, hf2⟩ := hf a s1 b s' h2
  exact ⟨hl2.trans hl1, hf2.trans hf1⟩

/-- A body on a cursor that leaves ledger and flag as they were if it returns. -/
def Tidy (x : Code V M α) : Prop := x.Moves OnCursor ∧ Clean x

theorem tidy_pure {a : α} : Tidy (pure a : Code V M α) := by
  refine ⟨(readOnly_pure a).moves, fun s b s' h => ?_⟩
  obtain ⟨-, rfl⟩ := ok_pure.1 h
  exact ⟨rfl, rfl⟩

theorem Tidy.bind {f : α → Code V M β} (hx : Tidy x) (hf : ∀ a, Tidy (f a)) :
    Tidy (x >>= f) := ⟨hx.1.bind fun a => (hf a).1, hx.2.bind fun a => (hf a).2⟩

section
variable {driver : Driver V}

@[simp] theorem ledger_log (s : Session V M) (op : Op V) (raised : Option Exc) :
    (s.log op raised).ledger = s.ledger.record ⟨op, raised⟩ := ledger_snoc

theorem onCursor_log (op : Op V) (hb : op.inBody) (hp : op.plain) (s : Session V M)
    (raised : Option Exc) : OnCursor s (s.log op raised) := by
  refine ⟨⟨rfl, [⟨op, raised⟩], rfl, by simpa using hb⟩, id, ?_⟩
  rw [ledger_log]
  cases raised with
  | none => rw [Ledger.record, Ledger.succeed_plain hp]; exact .refl _
  | some => exact Ledger.blamed_blame

/-- The outcome of an operation is in the trace. -/
def Logged (op : Op V) (s : Session V M) (outcome : Except Exc α) (s' : Session V M) : Prop :=
  (∃ a, outcome = .ok a ∧ s' = s.log op none) ∨ ∃ e, outcome = .error e ∧ s' = s.log op (some e)

theorem ends_call (driver : Driver V) (op : Op V) (s : Session V M) :
    (call driver op).Ends s (Logged op s) := by
  change (logged op (driver.answer s.trace op)).Ends s _
  cases driver.answer s.trace op with
  | error e => exact .inr ⟨e, rfl, rfl⟩
  | ok a => exact .inl ⟨a, rfl, rfl⟩

theorem ends_call_bind {f : Reply V → Code V M α}
    {Q : Except Exc α → Session V M → Prop} (hok : ∀ a, (f a).Ends (s.log op none) Q)
    (herror : ∀ e, Q (.error e) (s.log op (some e))) : (call driver op >>= f).Ends s Q := by
  refine (ends_call driver op s).bind ?_ ?_
  · rintro a s' (⟨_, -, rfl⟩ | ⟨_, he, -⟩)
    · exact hok a
    · cases he
  · rintro e s' (⟨_, he, -⟩ | ⟨_, he, rfl⟩) <;> cases he
    exact herror e

theorem tidy_logged (hb : op.inBody) (hp : op.plain)
    {outcome : Except Exc α} : Tidy (logged op outcome : Code V M α) := by
  cases outcome with
  | error e => exact ⟨fun s => onCursor_log _ hb hp s (some e), fun s a s' h => by cases h⟩
  | ok =>
    refine ⟨fun s => onCursor_log _ hb hp s none, fun s a s' h => ?_⟩
    cases h
    exact ⟨by simp [Session.ledger, Ledger.record, Ledger.succeed_plain hp], rfl⟩

theorem tidy_call (hb : op.inBody) (hp : op.plain) : Tidy (call driver op : Code V M (Reply V)) :=
  ⟨fun s => (tidy_logged hb hp).1 s, fun s a s' h => (tidy_logged hb hp).2 s a s' h⟩

/-! ### Statements -/

/-- After the handler of a failed statement the flag is set. -/
theorem failStatement_leaves (operation : String) (e : Exc) {s1 : Session V M} (h : OnCursor s s1) :
    (failStatement driver operation e : Code V M α).Leaves s1 (Careful s) := by
  have hrest : (do raiseIfInterrupted driver e operation; raise e : Code V M α).Moves OnCursor := by
    refine Moves.bind (moves_ite ?_ (readOnly_pure ()).moves) fun _ => (readOnly_raise e).moves
    refine readOnly_get.moves.bind fun s => moves_ite ?_ (readOnly_pure ()).moves
    exact Moves.bind (fun s => ⟨⟨rfl, [], (append_nil _).symm, by simp⟩, id, .refl _⟩)
      fun _ => (readOnly_raise _).moves
  have hset : OnCursor s1 { s1 with failed := true } :=
    ⟨⟨rfl, [], by simp, by simp⟩, fun _ => rfl, .refl _⟩
  have hend := hrest { s1 with failed := true }
  refine ⟨IsTrans.trans _ _ _ h (IsTrans.trans _ _ _ hset hend), fun hf => ?_⟩
  exact absurd (hend.failed rfl) (Bool.eq_false_iff.1 hf)

theorem careful_handle (hx : Tidy x) (operation : String) :
    (x.handle (failStatement driver operation)).Moves Careful := by
  intro s
  have hs := hx.1 s
  simp only [Tx.Leaves, Tx.handle] at hs ⊢
  rcases hr : x s with ⟨e | a, s'⟩ <;> rw [hr] at hs
  · exact failStatement_leaves operation e hs
  · exact ⟨hs, fun _ => (hx.2 s a s' hr).1⟩

theorem careful_closeCursor (preserve : Bool) :
    (closeCursor driver preserve : Code V M Unit).Moves Careful := by
  intro s
  show (closeCursor driver preserve).Ends s fun _ => Careful s
  refine (ends_call driver .closeCursor s).attempt_bind ?_
  rintro r s' (⟨a, rfl, rfl⟩ | ⟨e, rfl, rfl⟩)
  · exact ⟨onCursor_log _ rfl rfl s none, fun _ => ledger_log s _ _⟩
  · have hs := onCursor_log .closeCursor rfl rfl s (some e)
    cases preserve with
    | false => exact failStatement_leaves "cursor_close" e hs
    | true =>
      refine ⟨IsTrans.trans _ _ _ hs ⟨⟨rfl, [], (append_nil _).symm, by simp⟩,
        fun _ => rfl, .refl _⟩, fun hf => ?_⟩
      cases hf

theorem readOnly_ensureUsable : (ensureUsable : Code V M Unit).ReadOnly :=
  readOnly_bind readOnly_get fun _ =>
    readOnly_bind (readOnly_require _ _) fun _ => readOnly_require _ _

theorem withCursor_body {operation : String} (hx : Tidy x) :
    (withCursor driver operation x).Moves Body := by
  have hcursor : (cursor driver : Code V M Unit).Moves Careful :=
    readOnly_ensureUsable.moves.bind fun _ =>
      (careful_handle (tidy_call rfl rfl) _).bind fun _ => (readOnly_pure ()).moves
  have hmoves : (withCursor driver operation x).Moves Careful :=
    hcursor.bind fun _ => (careful_handle hx operation).ending careful_closeCursor
  intro s
  refine (hmoves s).body fun ha => ?_
  simp [withCursor, cursor, ensureUsable, Bind.bind, Tx.bind, Tx.get, require, ha, raise]

theorem tidy_executeNative {statement : String} {parameters : Parameters V} :
    Tidy (executeNative driver statement parameters : Code V M (Reply V)) :=
  (tidy_logged rfl rfl).bind fun _ => tidy_call rfl rfl

theorem tidy_fetchRows {description : Option (List String)} :
    Tidy (fetchRows driver description : Code V M (List (DetachedRecord V))) :=
  (tidy_call rfl rfl).bind fun _ => tidy_logged rfl rfl

/-! ### Savepoints -/

/-- What a control statement does, with the outcome it had. -/
structure Controlled (c : Command V) (s : Session V M) (outcome : Except Exc Unit)
    (s' : Session V M) : Prop extends Sent s s' where
  failed : s'.failed = s.failed
  /-- It took effect or not, and perhaps there are more failures after it. -/
  ledger : s.ledger.Blamed s'.ledger ∨ (s.ledger.succeed (.execute c)).Blamed s'.ledger
  returned : outcome = .ok () → s'.ledger = s.ledger.succeed (.execute c)

theorem sent_log (op : Op V) (hb : op.inBody) (s : Session V M) (raised : Option Exc) :
    Sent s (s.log op raised) :=
  ⟨rfl, [⟨op, raised⟩], rfl, by simpa using hb⟩

/-- An exception is passed on, perhaps as that of an interrupted connection. -/
theorem ends_interrupted (driver : Driver V) (e : Exc) (operation : String) (s : Session V M) :
    (do raiseIfInterrupted driver e operation; raise e : Code V M α).Ends s fun r s' =>
      (∃ e', r = .error e') ∧ ∃ discard, s' = { s with discardRequired := discard } := by
  have h : (raiseIfInterrupted driver e operation : Code V M Unit).Ends s fun _ s' =>
      ∃ discard, s' = { s with discardRequired := discard } := by
    rw [raiseIfInterrupted]
    split
    · refine ends_get_bind ?_
      split
      · exact ⟨true, rfl⟩
      · exact ⟨s.discardRequired, rfl⟩
    · exact ⟨s.discardRequired, rfl⟩
  exact h.bind (fun _ s' hs => ⟨⟨e, rfl⟩, hs⟩) fun e' s' hs => ⟨⟨e', rfl⟩, hs⟩

/-- What the driver did with a control statement. -/
structure Executed (c : Command V) (s : Session V M) (outcome : Except Exc (Reply V))
    (s' : Session V M) : Prop extends Sent s s' where
  failed : s'.failed = s.failed
  ledger : (∃ r, outcome = .ok r) ∧ s'.ledger = s.ledger.succeed (.execute c) ∨
    (∃ e, outcome = .error e) ∧ s'.ledger = s.ledger.blame (.execute c)

theorem ends_executeControl (driver : Driver V) (c : Command V) :
    (executeControl driver c).Ends s (Executed c s) := by
  refine (ends_call driver (.execute c) s).handle ?_ ?_
  · rintro a s' (⟨_, -, rfl⟩ | ⟨e, he, -⟩)
    · exact ⟨sent_log _ rfl s none, rfl, .inl ⟨⟨a, rfl⟩, ledger_log s _ _⟩⟩
    · cases he
  · rintro e s' (⟨_, ha, -⟩ | ⟨_, he, rfl⟩)
    · cases ha
    · cases he
      refine (ends_interrupted driver e "control" _).imp ?_
      rintro r s' ⟨hr, discard, rfl⟩
      have hsent := sent_log (.execute c) rfl s (some e)
      exact ⟨⟨hsent.active, hsent.events⟩, rfl, .inr ⟨hr, ledger_log s _ _⟩⟩

theorem Executed.controlled {c : Command V} {s1 s2 : Session V M}
    {outcome : Except Exc (Reply V)} (h : Executed c s1 outcome s2) (hs : Sent s s1)
    (hf : s1.failed = s.failed) (hl : s1.ledger = s.ledger) (raised : Option Exc)
    {r : Except Exc Unit} (hr : r = .ok () → raised = none ∧ ∃ a, outcome = .ok a) :
    Controlled c s r (s2.log .closeCursor raised) := by
  have hclose := onCursor_log .closeCursor rfl rfl s2 raised
  refine ⟨(hs.trans h.toSent).trans hclose.toSent, h.failed.trans hf, ?_, fun hok => ?_⟩
  · rcases h.ledger with ⟨-, hx⟩ | ⟨-, hx⟩ <;> rw [hl] at hx
    · exact .inr (hx ▸ hclose.blamed)
    · exact .inl (Ledger.blamed_blame.trans (hx ▸ hclose.blamed))
  · obtain ⟨rfl, a, rfl⟩ := hr hok
    rcases h.ledger with ⟨-, hx⟩ | ⟨⟨e, he⟩, -⟩
    · rw [ledger_log, hx, hl]
      rfl
    · cases he

theorem ends_control (driver : Driver V) (c : Command V) (s : Session V M) :
    (control driver c).Ends s (Controlled c s) := by
  refine ends_call_bind (fun _ => ?_) fun e =>
    ⟨sent_log _ rfl s _, rfl, .inl (onCursor_log _ rfl rfl s _).blamed, nofun⟩
  have hcursor := onCursor_log .cursor rfl rfl s none
  have hend : ((executeControl driver c).ending fun _ => do
      let _ ← call driver .closeCursor).Ends (s.log .cursor none) fun r s' =>
        Controlled c s (r.map fun _ => ()) s' := by
    refine (ends_executeControl driver c).ending fun r s2 hx => ends_call_bind (fun _ => ?_) fun e =>
      hx.controlled hcursor.toSent rfl (ledger_log s _ _) _ nofun
    refine hx.controlled hcursor.toSent rfl (ledger_log s _ _) none fun hok => ⟨rfl, ?_⟩
    cases r with
    | ok a => exact ⟨a, rfl⟩
    | error => cases hok
  exact hend.bind (fun a s' h => h) fun e s' h => h

/-- Whether or not it took effect, a control statement leaves what it would. -/
theorem Controlled.held {c : Command V} {outcome : Except Exc Unit}
    {outer : List String} (h : Controlled c s outcome s') (hs : Held outer s.ledger)
    (hc : Held outer (s.ledger.succeed (.execute c))) : Held outer s'.ledger :=
  h.ledger.elim hs.blamed hc.blamed

theorem Held.opened (h : Honest s) (hf : s.failed = false) (name : String) :
    Held s.ledger.savepoints (s.ledger.succeed (.execute (.savepoint name))) := by
  refine ⟨fun f hm => ?_, suffix_cons _ _⟩
  rw [Ledger.succeed, h.flagged hf] at hm
  cases hm

theorem Honest.of_held {outer : List String} (h : Held outer s.ledger)
    (hf : s.failed = false → s.ledger.failures = []) : Honest s ∧ outer <:+ s.ledger.savepoints :=
  ⟨⟨h.1, hf⟩, h.2⟩

theorem ends_savepointControl (driver : Driver V) (c : Command V) (s : Session V M) :
    (savepointControl driver c).Ends s fun r s' => (r = .ok () ∧ Controlled c s r s') ∨
      ∃ e s1, r = .error e ∧ Controlled c s r s1 ∧ s' = { s1 with failed := true } := by
  refine (ends_control driver c s).handle (fun _ s' h => .inl ⟨rfl, h⟩) fun e s' h => ?_
  exact .inr ⟨e, s', rfl, h, rfl⟩

theorem ends_undoSavepoint (driver : Driver V) (name : String) {outer : List String}
    (s : Session V M) (h : Held (name :: outer) s.ledger) :
    (undoSavepoint driver name false).Ends s fun _ s' => Honest s' ∧
      outer <:+ s'.ledger.savepoints := by
  have hundo : (do
      setFailed false
      control driver (.rollbackTo name)
      control driver (.release name)
      setFailed false : Code V M Unit).Ends s fun r s' => Held outer s'.ledger ∧
        (r = .ok () → s'.ledger.failures = []) := by
    refine ends_modify_bind ?_
    refine (ends_control driver (.rollbackTo name) { s with failed := false }).bind ?_ ?_
    · intro _ s1 h1
      have hl1 : s1.ledger = s.ledger.succeed (.execute (.rollbackTo name)) := h1.returned rfl
      obtain ⟨hheld, hnil⟩ := h.rolledBack
      rw [← hl1] at hheld hnil
      refine (ends_control driver (.release name) s1).bind ?_ ?_
      · intro _ s2 h2
        have hl2 := h2.returned rfl
        refine ⟨?_, fun _ => ?_⟩
        · show Held outer s2.ledger
          rw [hl2]
          exact hheld.released.1
        · show s2.ledger.failures = []
          rw [hl2]
          exact hheld.released.2 hnil
      · intro e s2 h2
        exact ⟨h2.held hheld.outer hheld.released.1, nofun⟩
    · intro e s1 h1
      exact ⟨h1.held h.outer h.rolledBack.1.outer, nofun⟩
  refine hundo.handle ?_ ?_
  · rintro _ s' ⟨hh, hnil⟩
    exact Honest.of_held hh fun _ => hnil rfl
  · rintro e s' ⟨hh, -⟩
    exact Honest.of_held hh nofun

theorem ends_savepoint (driver : Driver V) (name : String) (hx : x.Moves Body)
    (s : Session V M) (h : Honest s) : (savepoint driver name x).Ends s fun _ s' => Honest s' ∧
      s.ledger.savepoints <:+ s'.ledger.savepoints := by
  have husable : (ensureUsable : Code V M Unit).Ends s fun r s' => s = s' ∧
      (r = .ok () → s.failed = false) := by
    refine ⟨(readOnly_ensureUsable s).symm, fun hr => ?_⟩
    have hok : (ensureUsable : Code V M Unit).Ok s () _ := Prod.ext hr rfl
    simp [ensureUsable] at hok
    exact hok.2
  refine husable.bind ?_ (fun e s' hs => hs.1 ▸ ⟨h, suffix_rfl⟩)
  rintro _ _ ⟨rfl, hf⟩
  replace hf := hf rfl
  refine ends_require_bind (fun _ => ?_) fun _ => ⟨h, suffix_rfl⟩
  have hopened := Held.opened h hf name
  have hheld : Held s.ledger.savepoints s.ledger := ⟨h.innermost, suffix_rfl⟩
  refine (ends_savepointControl driver (.savepoint name) s).bind ?_ ?_
  · rintro _ s1 (⟨-, h1⟩ | ⟨e, _, he, -⟩)
    swap
    · cases he
    refine ends_get_bind ?_
    have hl1 := h1.returned rfl
    have hf1 : s1.failed = false := h1.failed.trans hf
    have hh1 : Honest s1 := ⟨by rw [hl1]; exact hopened.1, fun _ => by rw [hl1]; exact h.flagged hf⟩
    rw [hf1]
    have hbody : x.Ends s1 fun _ s2 => Honest s2 ∧
        Held (name :: s.ledger.savepoints) s2.ledger := by
      obtain ⟨hh2, hs2⟩ := (hx s1).honest hh1
      rw [hl1] at hs2
      exact ⟨hh2, hh2.innermost, hs2⟩
    refine hbody.attempt_bind ?_
    rintro (e | a) s2 ⟨hh2, hheld2⟩
    · refine (ends_undoSavepoint driver name s2 hheld2).bind (fun _ _ h => h) fun _ _ h => h
    · refine (ends_savepointControl driver (.release name) s2).bind ?_ ?_
      · rintro _ s3 (⟨-, h3⟩ | ⟨e, _, he, -⟩)
        · have hl3 := h3.returned rfl
          refine ends_pure (Honest.of_held ?_ fun hf3 => ?_)
          · rw [hl3]
            exact hheld2.released.1
          · rw [hl3]
            exact hheld2.released.2 (hh2.flagged (h3.failed.symm.trans hf3))
        · cases he
      · rintro e s3 (⟨he, -⟩ | ⟨_, s3, -, h3, rfl⟩)
        · cases he
        · have hheld3 := h3.held hheld2.outer hheld2.released.1
          exact Honest.of_held hheld3 nofun
  · rintro e s1 (⟨he, -⟩ | ⟨_, s1, -, h1, rfl⟩)
    · cases he
    · exact Honest.of_held (h1.held hheld hopened) nofun

theorem sent_control (c : Command V) : (control driver c : Code V M Unit).Moves Sent :=
  fun s => (ends_control driver c s).toSent

theorem sent_setFailed (failed : Bool) : (setFailed failed : Code V M Unit).Moves Sent :=
  fun _ => ⟨rfl, [], (append_nil _).symm, by simp⟩

theorem sent_savepointControl {c : Command V} :
    (savepointControl driver c : Code V M Unit).Moves Sent :=
  (sent_control c).handle fun e => (sent_setFailed true).bind fun _ => (readOnly_raise e).moves

theorem sent_savepoint (name : String) (hx : x.Moves Sent) :
    (savepoint driver name x).Moves Sent := by
  refine readOnly_ensureUsable.moves.bind fun _ => (readOnly_require _ _).moves.bind fun _ => ?_
  refine sent_savepointControl.bind fun _ => readOnly_get.moves.bind fun s => ?_
  refine hx.attempt.bind fun outcome => ?_
  cases outcome with
  | error e =>
    refine Moves.bind (Moves.handle ?_ fun _ => sent_setFailed true) fun _ => (readOnly_raise e).moves
    exact (sent_setFailed false).bind fun _ => (sent_control _).bind fun _ =>
      (sent_control _).bind fun _ => sent_setFailed _
  | ok a => exact sent_savepointControl.bind fun _ => (readOnly_pure a).moves

theorem Program.body (h : Program driver x) : x.Moves Body := by
  induction h with
  | pure a => exact (readOnly_pure a).moves
  | raise e => exact (readOnly_raise e).moves
  | bind _ _ hx hf => exact hx.bind hf
  | handle _ _ hx hh => exact hx.handle hh
  | execute statement parameters =>
    refine withCursor_body (tidy_executeNative.bind fun reply => Tidy.bind ?_ fun _ => tidy_pure)
    rw [fetchReturned]
    split
    · exact tidy_fetchRows
    · exact tidy_pure
  | fetchOne statement parameters =>
    refine withCursor_body
      (tidy_executeNative.bind fun reply => (tidy_call rfl rfl).bind fun fetched => ?_)
    cases fetched.rows.head? with
    | none => exact tidy_pure
    | some => exact (tidy_logged rfl rfl).bind fun _ => tidy_pure
  | fetchAll => exact withCursor_body (tidy_executeNative.bind fun _ => tidy_fetchRows)
  | savepoint name _ hx =>
    intro s
    refine ⟨sent_savepoint name (hx.imp fun _ _ h => h.toSent) s, fun ha => ?_,
      ends_savepoint driver name hx s⟩
    simp [Database.savepoint, ensureUsable, Bind.bind, Tx.bind, Tx.get, require, ha, Tx.raise]
  | remember =>
    exact fun s => ⟨⟨rfl, [], (append_nil _).symm, by simp⟩, fun _ => rfl,
      fun h => ⟨⟨h.innermost, h.flagged⟩, suffix_rfl⟩⟩
  | reread | active | discardRequired =>
    exact (readOnly_bind readOnly_get fun _ => readOnly_pure _).moves

end

end AstralPlane.Database
