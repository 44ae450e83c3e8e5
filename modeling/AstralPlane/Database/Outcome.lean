/-
  How a transaction ends.

  COMMIT is sent only with an empty list of failures in the ledger; otherwise
  the connection is rolled back or discarded and the caller gets an exception.
  Once the connection is back in the pool nothing is sent on it any more.
-/
import AstralPlane.Database.Savepoints

namespace AstralPlane.Database

open Tx List

variable {V M α : Type} {driver : Driver V} {s s' : Session V M}

/-! ## Traces -/

/-- Every COMMIT was sent with all failures settled. -/
def CommitsClean : List (Event V) → Prop :=
  Along fun before e => e.op = .commit → (ledger before).failures = []

def Committed (t : List (Event V)) : Prop := ⟨.commit, none⟩ ∈ t

/-- Operations other than those that end a transaction or give the connection back. -/
def Op.ordinary : Op V → Bool
  | .commit | .rollback | .putconn _ | .close => false
  | _ => true

theorem Op.ordinary_of_inBody {op : Op V} (h : op.inBody) : op.ordinary := by
  cases op <;> first | rfl | cases h

/-- Ordinary operations were added to the trace. -/
def Added (s s' : Session V M) : Prop :=
  ∃ more, s'.trace = s.trace ++ more ∧ ∀ e ∈ more, e.op.ordinary

theorem Added.refl (s : Session V M) : Added s s := ⟨[], by simp, by simp⟩

theorem Added.trans {s1 s2 s3 : Session V M} (h1 : Added s1 s2) (h2 : Added s2 s3) :
    Added s1 s3 := by
  obtain ⟨m1, t1, b1⟩ := h1
  obtain ⟨m2, t2, b2⟩ := h2
  refine ⟨m1 ++ m2, by simp [t2, t1], fun e he => ?_⟩
  exact (mem_append.1 he).elim (b1 e) (b2 e)

theorem Sent.added (h : Sent s s') : Added s s' := by
  obtain ⟨more, ht, hm⟩ := h.events
  exact ⟨more, ht, fun e he => Op.ordinary_of_inBody (hm e he)⟩

theorem added_log (op : Op V) (h : op.ordinary) (s : Session V M) (raised : Option Exc) :
    Added s (s.log op raised) := ⟨[⟨op, raised⟩], rfl, by simpa using h⟩

/-! ## The beginning -/

/-- What a step of `_begin` does; if it returns, no operation of it failed. -/
structure Prepared (s : Session V M) (outcome : Except Exc α) (s' : Session V M) : Prop where
  added : Added s s'
  failed : s'.failed = s.failed
  active : s'.active = s.active
  ledger : ∀ a, outcome = .ok a → s'.ledger = s.ledger

theorem prepared_call {op : Op V} (ho : op.ordinary) (hp : op.plain)
    (s : Session V M) : (call driver op).Ends s (Prepared s) := by
  refine (ends_call driver op s).imp ?_
  rintro r s' (⟨a, rfl, rfl⟩ | ⟨e, rfl, rfl⟩)
  · refine ⟨added_log _ ho s _, rfl, rfl, fun _ _ => ?_⟩
    rw [ledger_log, Ledger.record, Ledger.succeed_plain hp]
  · exact ⟨added_log _ ho s _, rfl, rfl, fun _ hr => by cases hr⟩

theorem ends_leaveAutocommit (s : Session V M) : (leaveAutocommit driver).Ends s (Prepared s) := by
  refine (prepared_call rfl rfl s).bind ?_ fun e s1 h => ⟨h.added, h.failed, h.active, nofun⟩
  intro reply s1 h
  split
  · refine (prepared_call rfl rfl _).bind ?_ ?_
    · intro _ s2 h2
      exact ⟨h.added.trans h2.added, h2.failed.trans h.failed, h2.active.trans h.active,
        fun _ _ => (h2.ledger _ rfl).trans (h.ledger _ rfl)⟩
    · intro e s2 h2
      exact ⟨h.added.trans h2.added, h2.failed.trans h.failed, h2.active.trans h.active, nofun⟩
  · exact ⟨h.added, h.failed, h.active, fun _ _ => h.ledger _ rfl⟩

/-- What `_begin` does. -/
structure Started (s : Session V M) (outcome : Except Exc Unit) (s' : Session V M) : Prop where
  added : Added s s'
  failed : s'.failed = s.failed
  returned : outcome = .ok () → s'.active ∧ s'.ledger = s.ledger
  raised : ∀ e, outcome = .error e → s'.active = false

theorem ends_restoreAutocommit (s : Session V M) :
    (restoreAutocommit driver).Ends s fun _ s' => Added s s' ∧ s'.failed = s.failed ∧
      s'.active = s.active ∧ s'.discardRequired = s.discardRequired := by
  refine ends_get_bind ?_
  cases s.priorAutocommit with
  | none => exact ⟨.refl s, rfl, rfl, rfl⟩
  | some prior =>
    exact ends_modify_bind (ends_call_bind
      (fun _ => ⟨added_log (.setAutocommit prior) rfl s none, rfl, rfl, rfl⟩)
      fun e => ⟨added_log (.setAutocommit prior) rfl s _, rfl, rfl, rfl⟩)

/-- The cleanup of the connection returns, perhaps with an exception to report. -/
theorem ends_restore_discard :
    (discardOnError (restoreAutocommit driver)).Ends s fun r s' => (∃ cleanup, r = .ok cleanup) ∧
      Added s s' ∧ s'.failed = s.failed ∧ s'.active = s.active ∧
      (s.discardRequired → s'.discardRequired) := by
  refine (ends_restoreAutocommit s).attempt_bind ?_
  rintro (e | _) s' ⟨ha, hf, hact, hd⟩
  · exact ⟨⟨some e, rfl⟩, ha, hf, hact, fun _ => rfl⟩
  · exact ⟨⟨none, rfl⟩, ha, hf, hact, fun h => hd.trans h⟩

theorem ends_setUpConnection (s : Session V M) : (setUpConnection driver).Ends s (Prepared s) := by
  rw [setUpConnection]
  split
  · exact (ends_leaveAutocommit s).handle (fun _ _ h => h) fun e s1 h =>
      ⟨h.added, h.failed, h.active, nofun⟩
  · exact ⟨.refl s, rfl, rfl, fun _ _ => rfl⟩

theorem ends_beginIsolation (isolation : Option IsolationLevel)
    (h : s.active) : (beginIsolation driver isolation).Ends s (Started s) := by
  cases isolation with
  | none => exact ⟨.refl s, rfl, fun _ => ⟨h, rfl⟩, nofun⟩
  | some level =>
    refine (ends_control driver (.begin level) s).handle ?_ ?_
    · intro _ s1 h1
      exact ⟨h1.added, h1.failed, fun _ => ⟨h1.active.trans h, h1.returned rfl⟩, nofun⟩
    · intro e s1 h1
      refine ends_modify_bind (ends_restore_discard.bind ?_ ?_)
      · rintro _ s2 ⟨-, ha, hf, hact, -⟩
        refine (ends_interrupted driver e "begin" s2).imp ?_
        rintro r s3 ⟨⟨e', rfl⟩, discard, rfl⟩
        exact ⟨h1.added.trans ha, hf.trans h1.failed, nofun, fun _ _ => hact⟩
      · rintro e' s2 ⟨⟨_, hr⟩, -⟩
        cases hr

theorem ends_begin (isolation : Option IsolationLevel) (s : Session V M) (h : s.active = false) :
    (begin driver isolation).Ends s (Started s) := by
  refine ends_get_bind (ends_require_bind (fun _ => ?_) fun hs => ?_)
  · refine (ends_setUpConnection s).bind ?_ ?_
    · intro _ s1 h1
      refine ends_modify_bind ((ends_beginIsolation isolation rfl).imp fun r s2 h2 => ?_)
      refine ⟨h1.added.trans h2.added, h2.failed.trans h1.failed, fun hr => ?_, h2.raised⟩
      exact ⟨(h2.returned hr).1, (h2.returned hr).2.trans (h1.ledger _ rfl)⟩
    · intro e s1 h1
      exact ⟨h1.added, h1.failed, nofun, fun _ _ => h1.active.trans h⟩
  · simp [h] at hs

/-! ## The end -/

/-- What rollback or commit does; `primary` is its exception. -/
structure EndedOn (rolledBack : Bool) (s : Session V M) (outcome : Except Exc (Option Exc))
    (s' : Session V M) : Prop where
  ends : ∃ primary more, outcome = .ok primary ∧
    s'.trace = s.trace ++ ⟨if rolledBack then .rollback else .commit, primary⟩ :: more ∧
    (∀ e ∈ more, e.op = .rollback) ∧ (primary = none → more = []) ∧
    (primary ≠ none → s'.discardRequired)

theorem ends_endOnConnection (rolledBack : Bool) (s : Session V M) :
    (endOnConnection driver rolledBack).Ends s (EndedOn rolledBack s) := by
  cases rolledBack with
  | true =>
    have hcall : (do let _ ← call driver .rollback : Code V M Unit).Ends s (Logged .rollback s) :=
      ends_call_bind (fun _ => .inl ⟨(), rfl, rfl⟩) fun e => .inr ⟨e, rfl, rfl⟩
    refine hcall.attempt_bind ?_
    rintro r s1 (⟨_, rfl, rfl⟩ | ⟨e, rfl, rfl⟩)
    · exact ⟨none, [], rfl, rfl, by simp, fun _ => rfl, fun h => absurd rfl h⟩
    · exact ⟨some e, [], rfl, rfl, by simp, fun _ => rfl, fun _ => rfl⟩
  | false =>
    refine (ends_call driver .commit s).attempt_bind ?_
    rintro r s1 (⟨_, rfl, rfl⟩ | ⟨e, rfl, rfl⟩)
    · exact ⟨none, [], rfl, rfl, by simp, fun _ => rfl, fun h => absurd rfl h⟩
    · refine ends_modify_bind ((ends_call driver .rollback _).attempt_bind ?_)
      have htrace : ∀ raised, s.trace ++ [⟨.commit, some e⟩] ++ [⟨.rollback, raised⟩] =
          s.trace ++ (⟨.commit, some e⟩ :: [⟨.rollback, raised⟩] : List (Event V)) := by simp
      rintro r s2 (⟨_, -, rfl⟩ | ⟨e', -, rfl⟩)
      all_goals exact ⟨some e, _, rfl, htrace _, by simp, by simp, fun _ => rfl⟩

/-- What `_finish` does to an active transaction. -/
structure Finished (failed : Bool) (s : Session V M) (outcome : Except Exc Unit)
    (s' : Session V M) : Prop where
  active : s'.active = false
  /-- It commits or rolls back first. -/
  events : ∃ raised more,
    s'.trace = s.trace ++ ⟨if failed || s.failed then .rollback else .commit, raised⟩ :: more ∧
      (∀ e ∈ more, e.op = .rollback ∨ e.op.ordinary) ∧
      (raised = none → ∀ e ∈ more, e.op ≠ .rollback) ∧
      (raised ≠ none → s'.discardRequired ∧ ∃ e, outcome = .error e)
  returned : failed = false → outcome = .ok () → s.failed = false ∧
    ∃ more, s'.trace = s.trace ++ ⟨.commit, none⟩ :: more

theorem finishError_primary (shouldRollback handled : Bool) (e : Exc) (cleanup : Option Exc) :
    ∃ e', finishError shouldRollback handled (some e) cleanup = .error e' := by
  rw [finishError]
  split_ifs <;> exact ⟨_, rfl⟩

theorem finishError_ok {shouldRollback handled : Bool} {primary cleanup : Option Exc}
    (h : finishError shouldRollback handled primary cleanup = .ok ()) :
    primary = none ∧ handled = false := by
  cases primary with
  | some e =>
    obtain ⟨e', he⟩ := finishError_primary shouldRollback handled e cleanup
    cases he.symm.trans h
  | none =>
    refine ⟨rfl, Bool.eq_false_iff.2 fun ht => ?_⟩
    subst ht
    cases cleanup with
    | none => cases h
    | some =>
      rw [finishError] at h
      split_ifs at h

theorem ends_finish (failed : Bool) (s : Session V M) (h : s.active) :
    (finish driver failed).Ends s (Finished failed s) := by
  refine ends_get_bind (ends_require_bind (fun _ => ?_) fun hs => by cases h.symm.trans hs)
  refine (ends_endOnConnection (failed || s.failed) s).bind ?_ ?_
  swap
  · rintro e s1 ⟨_, _, hr, -⟩
    cases hr
  rintro primary s1 ⟨_, more, hr, htrace, hmore, hnone, hsome⟩
  cases hr
  refine ends_modify_bind (ends_restore_discard.bind ?_ ?_)
  swap
  · rintro e s2 ⟨⟨_, hr⟩, -⟩
    cases hr
  rintro cleanup s2 ⟨-, ⟨rest, htrace2, hrest⟩, -, hact, hd⟩
  have ht : s2.trace = s.trace ++
      ⟨if (failed || s.failed) = true then .rollback else .commit, primary⟩ :: (more ++ rest) := by
    rw [htrace2]
    rw [htrace, append_assoc, cons_append]
  show Finished failed s (finishError _ _ primary cleanup) s2
  refine ⟨hact, ⟨primary, more ++ rest, ht, fun e he => ?_, fun hp e he => ?_, fun hp => ?_⟩,
    fun hfailed hok => ?_⟩
  · exact (mem_append.1 he).imp (hmore e) (hrest e)
  · rw [hnone hp, nil_append] at he
    intro hroll
    have := hrest e he
    rw [hroll] at this
    cases this
  · obtain ⟨e, rfl⟩ := Option.ne_none_iff_exists'.1 hp
    exact ⟨hd (hsome hp), finishError_primary _ _ e cleanup⟩
  · obtain ⟨rfl, hh⟩ := finishError_ok hok
    subst hfailed
    have hf : s.failed = false := by simpa using hh
    simp only [hf] at ht
    exact ⟨hf, _, ht⟩

/-- A transaction as it ends on its connection, which is still checked out. -/
structure Ended (outcome : Except Exc α) (s : Session V M) : Prop where
  active : s.active = false
  commits : CommitsClean s.trace
  raises : ¬ Committed s.trace → ∃ e, outcome = .error e
  /-- After a failed COMMIT or ROLLBACK the connection is to be discarded. -/
  discards : ∀ e ∈ s.trace, e.op = .commit ∨ e.op = .rollback → e.raised ≠ none → s.marked
  checkedOut : ∀ e ∈ s.trace, e.op = .commit ∨ e.op = .rollback ∨ e.op.ordinary

/-- The trace of a checked-out connection before the end of its transaction. -/
def Ordinary (s : Session V M) : Prop := ∀ e ∈ s.trace, e.op.ordinary

theorem Added.ordinary (h : Added s s') (hs : Ordinary s) : Ordinary s' := by
  obtain ⟨more, ht, hm⟩ := h
  intro e he
  rw [ht] at he
  exact (mem_append.1 he).elim (hs e) (hm e)

theorem Ordinary.not_ending (h : Ordinary s) {e : Event V} (he : e ∈ s.trace) :
    e.op ≠ .commit ∧ e.op ≠ .rollback := by
  have ho := h e he
  constructor <;>
  · intro hop
    rw [hop] at ho
    cases ho

theorem Ordinary.commitsClean (h : Ordinary s) : CommitsClean s.trace := by
  have hall : CommitsClean ([] ++ s.trace) :=
    along_nil.append fun e he _ hop => absurd hop (h.not_ending he).1
  exact hall

/-- `_finish` ends the transaction; the connection is marked if the end asks for it. -/
theorem Finished.ended {failed : Bool} {s'' : Session V M} {outcome : Except Exc Unit}
    {result : Except Exc α} (h : Finished failed s outcome s') (hs : Ordinary s) (hh : Honest s)
    (htrace : s''.trace = s'.trace) (hactive : s''.active = s'.active)
    (hmarked : s'.discardRequired → (∃ e, result = .error e) → s''.marked)
    (hresult : failed ∨ (∃ e, outcome = .error e) → ∃ e, result = .error e) : Ended result s'' := by
  obtain ⟨raised, more, ht, hmore, hnone, hsome⟩ := h.events
  have hwhole := htrace.trans ht
  have hfirst : CommitsClean (s.trace ++
      [⟨if (failed || s.failed) = true then .rollback else .commit, raised⟩]) := by
    refine hs.commitsClean.snoc fun hop => hh.flagged ?_
    by_contra hf
    simp [hf] at hop
  have hnot : ∀ e ∈ more, e.op ≠ .commit := by
    intro e he hop
    rcases hmore e he with hr | ho
    · cases hop.symm.trans hr
    · rw [hop] at ho
      cases ho
  have hmem : ∀ e ∈ s''.trace, e ∈ s.trace ∨
      e = ⟨if (failed || s.failed) = true then .rollback else .commit, raised⟩ ∨ e ∈ more := by
    intro e he
    rw [hwhole] at he
    simpa using he
  refine ⟨hactive.trans h.active, ?_, fun hc => ?_, fun e he hop hr => ?_, fun e he => ?_⟩
  · rw [hwhole, append_cons]
    exact hfirst.append fun e he _ hop => absurd hop (hnot e he)
  · cases failed with
    | true => exact hresult (.inl rfl)
    | false =>
      cases houtcome : outcome with
      | error e => exact hresult (.inr ⟨e, houtcome⟩)
      | ok =>
        obtain ⟨-, more', ht'⟩ := h.returned rfl houtcome
        refine absurd ?_ hc
        rw [Committed, htrace, ht']
        simp
  · have hraised : raised ≠ none := by
      intro hn
      rcases hmem e he with he | rfl | he
      · exact absurd hop (not_or.2 (hs.not_ending he))
      · exact hr hn
      · exact hop.elim (hnot e he) (hnone hn e he)
    obtain ⟨hd, he⟩ := hsome hraised
    exact hmarked hd (hresult (.inr he))
  · rcases hmem e he with he | rfl | he
    · exact .inr (.inr (hs e he))
    · split_ifs
      · exact .inr (.inl rfl)
      · exact .inl rfl
    · exact .inr (hmore e he)

/-- The transaction has ended once the connection is marked as it asks. -/
def EndsMarked (outcome : Except Exc α) (s : Session V M) : Prop :=
  ∀ s' : Session V M, s'.trace = s.trace → s'.active = s.active →
    (s.discardRequired → (∃ e, outcome = .error e) → s'.marked) → Ended outcome s'

theorem ends_beginToFinish {x : Code V M α} (isolation : Option IsolationLevel)
    (hx : Program driver x) (s : Session V M) (hs : Ordinary s) (hl : s.ledger = .empty) :
    (beginToFinish driver isolation x).Ends s EndsMarked := by
  refine ends_modify_bind ((ends_begin isolation s.begun rfl).bind ?_ ?_)
  · intro _ s1 h1
    obtain ⟨hact1, hl1⟩ := h1.returned rfl
    have hempty : s1.ledger = .empty := hl1.trans hl
    have hh1 : Honest s1 := ⟨by rw [hempty]; exact nofun, fun _ => by rw [hempty]; rfl⟩
    have hbody : x.Ends s1 fun _ s2 => s2.active ∧ Ordinary s2 ∧ Honest s2 :=
      ⟨(hx.body s1).active.trans hact1,
        (hx.body s1).toSent.added.ordinary (h1.added.ordinary hs), ((hx.body s1).honest hh1).1⟩
    refine hbody.attempt_bind ?_
    rintro (e | a) s2 ⟨hact2, ho2, hh2⟩
    · refine (ends_finish true s2 hact2).attempt_bind fun r s3 h3 => ?_
      refine ends_raise fun s' ht ha hm => ?_
      exact h3.ended ho2 hh2 ht ha hm fun _ => ⟨e, rfl⟩
    · refine (ends_finish false s2 hact2).bind ?_ ?_
      · intro _ s3 h3
        refine ends_pure fun s' ht ha hm => h3.ended ho2 hh2 ht ha hm ?_
        rintro (h | ⟨e, he⟩)
        · cases h
        · cases he
      · intro e s3 h3 s' ht ha hm
        exact h3.ended ho2 hh2 ht ha hm fun _ => ⟨e, rfl⟩
  · intro e s1 h1 s' ht ha _
    -- the transaction could not begin
    have ho : Ordinary s' := fun e he => h1.added.ordinary hs e (ht ▸ he)
    exact ⟨ha.trans (h1.raised e rfl), ho.commitsClean, fun _ => ⟨e, rfl⟩,
      fun _ he hop _ => absurd hop (not_or.2 (ho.not_ending he)), fun e he => .inr (.inr (ho e he))⟩

theorem ends_marked {x : Code V M α} (isolation : Option IsolationLevel) (hx : Program driver x)
    (s : Session V M) (hs : Ordinary s) (hl : s.ledger = .empty) :
    ((beginToFinish driver isolation x).handle markAndRaise).Ends s Ended := by
  refine (ends_beginToFinish isolation hx s hs hl).handle (fun a s' h => ?_) fun e s' h => ?_
  · refine h s' rfl rfl ?_
    rintro - ⟨e, he⟩
    cases he
  · refine ends_get_bind ?_
    split
    · exact h _ rfl rfl fun _ _ => rfl
    · rename_i hd
      exact h _ rfl rfl fun hd' _ => absurd hd' hd

/-! ## Back to the pool -/

/-- Operations that reach the server as part of the transaction. -/
def Op.sends : Op V → Bool
  | .execute _ | .commit => true
  | _ => false

/-- Whatever was sent is rolled back, or its connection is closed on its return. -/
def Undone (t : List (Event V)) : Prop :=
  ∃ before after, t = before ++ after ∧ (∀ e ∈ after, e.op.sends = false) ∧
    ((∀ e ∈ before, e.op.sends = false) ∨ ⟨.rollback, none⟩ ∈ after ∨
      ∃ raised, ⟨.putconn true, raised⟩ ∈ after)

/-- Once the connection is back in the pool, nothing but a close is done to it. -/
def ClosesOnly : List (Event V) → Prop :=
  Along fun before e => (∃ close raised, ⟨.putconn close, raised⟩ ∈ before) → e.op = .close

/-- The outcome of a transaction: what its caller gets, and the session it leaves. -/
structure Outcome (driver : Driver V) (outcome : Except Exc α) (s : Session V M) : Prop where
  /-- COMMIT is issued only if every failed operation lies in a savepoint that was rolled back. -/
  commits : CommitsClean s.trace
  /-- Otherwise the caller gets an exception, -/
  raises : ¬ Committed s.trace → ∃ e, outcome = .error e
  /-- the connection is rolled back or discarded, -/
  undone : ¬ Committed s.trace → Undone s.trace
  /-- and it is discarded if COMMIT or ROLLBACK failed. -/
  discards : ∀ e ∈ s.trace, e.op = .commit ∨ e.op = .rollback → e.raised ≠ none →
    ∃ raised, ⟨.putconn true, raised⟩ ∈ s.trace
  /-- No statement is sent on it once it is back in the pool, -/
  returned : ClosesOnly s.trace
  /-- not even by a program that still has the transaction. -/
  silent : ∀ {β : Type} (y : Code V M β), Program driver y → (y s).2.trace = s.trace

theorem silent_of_inactive (h : s.active = false) {β : Type} (y : Code V M β)
    (hy : Program driver y) : (y s).2.trace = s.trace := (hy.body s).silent h

theorem closesOnly_of_not_putconn {t : List (Event V)}
    (h : ∀ e ∈ t, ∀ close, e.op ≠ .putconn close) : ClosesOnly t := by
  rintro before e hp ⟨close, raised, hm⟩
  exact absurd rfl (h _ (hp.subset (mem_append_left _ hm)) close)

/-- A connection that could not be checked out. -/
theorem Ordinary.outcome (h : Ordinary s) (ha : s.active = false)
    (hsent : ∀ e ∈ s.trace, e.op.sends = false) (e : Exc) :
    Outcome driver (.error e : Except Exc α) s where
  commits := h.commitsClean
  raises := fun _ => ⟨e, rfl⟩
  undone := fun _ => ⟨s.trace, [], by simp, by simp, .inl hsent⟩
  discards := fun _ he hop _ => absurd hop (not_or.2 (h.not_ending he))
  returned := by
    refine closesOnly_of_not_putconn fun e he close hop => ?_
    have := h e he
    rw [hop] at this
    cases this
  silent := silent_of_inactive ha

/-- A connection that is given back: rolled back, then returned, and closed where that fails. -/
theorem Ended.outcome {outcome result : Except Exc α} (h : Ended outcome s)
    {reset raised : Option Exc} {discard : Bool} {more : List (Event V)}
    (ht : s'.trace = s.trace ++ [⟨.rollback, reset⟩] ++ ⟨.putconn discard, raised⟩ :: more)
    (hmore : ∀ e ∈ more, e.op = .close) (hactive : s'.active = s.active)
    (hreset : reset ≠ none → discard) (hmarked : s.marked → discard)
    (hresult : (∃ e, outcome = .error e) → ∃ e, result = .error e) : Outcome driver result s' := by
  have hmem : ∀ e ∈ s'.trace, e ∈ s.trace ∨ e = ⟨.rollback, reset⟩ ∨ e = ⟨.putconn discard, raised⟩ ∨
      e ∈ more := by
    intro e he
    rw [ht] at he
    simpa [or_assoc] using he
  have hput : ⟨.putconn discard, raised⟩ ∈ s'.trace := by
    rw [ht]
    simp
  have hafter : ∀ e ∈ [⟨.rollback, reset⟩] ++ ⟨.putconn discard, raised⟩ :: more,
      e.op.sends = false := by
    intro e he
    simp only [cons_append, nil_append, mem_cons] at he
    rcases he with rfl | rfl | he
    · rfl
    · rfl
    · rw [hmore e he]
      rfl
  refine ⟨?_, fun hc => ?_, fun hc => ?_, fun e he hop hr => ?_, ?_, ?_⟩
  · rw [ht, append_assoc]
    refine h.commits.append fun e he _ hop => ?_
    have := hafter e he
    rw [hop] at this
    cases this
  · refine hresult (h.raises fun hs => hc ?_)
    rw [Committed, ht, append_assoc]
    exact mem_append_left _ hs
  · refine ⟨s.trace, _, by rw [ht, append_assoc], hafter, .inr ?_⟩
    cases reset with
    | none => exact .inl (by simp)
    | some e =>
      refine .inr ⟨raised, ?_⟩
      rw [hreset (Option.some_ne_none e)]
      simp
  · have hd : discard := by
      rcases hmem e he with he | rfl | rfl | he
      · exact hmarked (h.discards e he hop hr)
      · exact hreset hr
      · rcases hop with hop | hop <;> cases hop
      · rw [hmore e he] at hop
        rcases hop with hop | hop <;> cases hop
    exact ⟨raised, hd ▸ hput⟩
  · have hout : ∀ e ∈ s.trace ++ [⟨.rollback, reset⟩], ∀ close, e.op ≠ .putconn close := by
      intro e he close hop
      rcases mem_append.1 he with he | he
      · have := h.checkedOut e he
        rw [hop] at this
        rcases this with hc | hc | hc <;> cases hc
      · rw [mem_singleton.1 he] at hop
        cases hop
    rw [ht, append_cons]
    refine Along.append ((closesOnly_of_not_putconn hout).snoc ?_) fun e he _ _ => hmore e he
    rintro ⟨close, raised', hm⟩
    exact absurd rfl (hout _ hm close)
  · exact silent_of_inactive (hactive.trans h.active)

theorem ends_borrow (s : Session V M) (hs : s.trace = []) :
    (borrow driver).Ends s fun r s' => s'.active = s.active ∧ Ordinary s' ∧
      (∀ e ∈ s'.trace, e.op.sends = false) ∧ (r = .ok () → s'.ledger = .empty) := by
  refine ends_get_bind (ends_require_bind (fun _ => ends_modify_bind ?_) fun _ => ?_)
  · have hlog : ∀ raised, ∀ e ∈ s.trace ++ [(⟨.getconn, raised⟩ : Event V)],
        e.op.ordinary ∧ e.op.sends = false := by
      intro raised e he
      rw [hs, nil_append, mem_singleton] at he
      rw [he]
      exact ⟨rfl, rfl⟩
    have hcall : ((call driver .getconn).handle fun e => do
        Tx.modify fun s => { s with borrowed := s.borrowed - 1 }
        if !e.isException || e.isPlaneError then raise e
        else raise (.plane .poolCheckout)).Ends { s with borrowed := s.borrowed + 1 } fun r s' =>
          s'.active = s.active ∧ ∃ raised, s'.trace = s.trace ++ [⟨.getconn, raised⟩] ∧
            (∀ a, r = .ok a → raised = none) := by
      refine (ends_call driver .getconn _).handle ?_ ?_
      · rintro _ s' (⟨_, -, rfl⟩ | ⟨_, he, -⟩)
        · exact ⟨rfl, none, rfl, fun _ _ => rfl⟩
        · cases he
      · rintro e s' (⟨_, ha, -⟩ | ⟨_, he, rfl⟩)
        · cases ha
        · cases he
          split
          all_goals exact ⟨rfl, some e, rfl, nofun⟩
    refine hcall.bind ?_ ?_
    · rintro _ s' ⟨ha, raised, ht, hr⟩
      obtain rfl := hr _ rfl
      refine ends_pure ⟨ha, fun e he => (hlog _ e (ht ▸ he)).1, fun e he => (hlog _ e (ht ▸ he)).2,
        fun _ => ?_⟩
      rw [Session.ledger, ht, hs]
      rfl
    · rintro e s' ⟨ha, raised, ht, -⟩
      exact ⟨ha, fun e he => (hlog _ e (ht ▸ he)).1, fun e he => (hlog _ e (ht ▸ he)).2, nofun⟩
  · exact ⟨rfl, by simp [Ordinary, hs], by simp [hs], nofun⟩

theorem ends_release {discard : Bool} :
    (release driver discard).Ends s fun _ s' => s'.active = s.active ∧
      ∃ raised more, s'.trace = s.trace ++ ⟨.putconn discard, raised⟩ :: more ∧
        ∀ e ∈ more, e.op = .close := by
  refine (ends_call driver (.putconn discard) s).attempt_bind ?_
  rintro r s1 (⟨_, rfl, rfl⟩ | ⟨e, rfl, rfl⟩)
  · exact ⟨rfl, none, [], rfl, by simp⟩
  · refine (ends_call driver .close _).attempt_bind ?_
    have htrace : ∀ raised, s.trace ++ [⟨.putconn discard, some e⟩] ++ [⟨.close, raised⟩] =
        s.trace ++ (⟨.putconn discard, some e⟩ :: [⟨.close, raised⟩] : List (Event V)) := by simp
    rintro r s2 (⟨_, -, rfl⟩ | ⟨e', -, rfl⟩)
    all_goals exact ⟨rfl, some e, _, htrace _, by simp⟩

theorem ends_takeDiscard (s : Session V M) :
    (takeDiscard : Code V M Bool).Ends s fun r s' => r = .ok s.marked ∧
      s' = { s with marked := false } := ⟨rfl, rfl⟩

/-- **The outcome of every transaction**: whatever its caller's program does and however the
    driver fails. -/
theorem transaction_outcome (driver : Driver V) (isolation : Option IsolationLevel) (borrowed : ℕ)
    (closed : Bool) (memory : M) {x : Code V M α} (hx : Program driver x) :
    (transaction driver isolation x).Ends (.initial borrowed closed memory) (Outcome driver) := by
  refine (ends_borrow (.initial borrowed closed memory) rfl).bind ?_ ?_
  · rintro _ s₁ ⟨-, hs₁, -, hl₁⟩
    refine (ends_marked isolation hx s₁ hs₁ (hl₁ rfl)).attempt_bind fun outcome s₂ h₂ => ?_
    refine (ends_call driver .rollback s₂).attempt_bind fun reset s₃ h₃ => ?_
    obtain ⟨raised, rfl, hreset⟩ : ∃ raised, s₃ = s₂.log .rollback raised ∧
        (raised ≠ none → reset.isOk = false) := by
      rcases h₃ with ⟨_, -, rfl⟩ | ⟨e, rfl, rfl⟩
      · exact ⟨none, rfl, fun h => absurd rfl h⟩
      · exact ⟨some e, rfl, fun _ => rfl⟩
    refine (ends_takeDiscard (s₂.log .rollback raised)).bind ?_ ?_
    swap
    · rintro e s₄ ⟨he, -⟩
      cases he
    rintro marked s₄ ⟨hmarked, rfl⟩
    refine ends_release.attempt_bind ?_
    rintro released s₅ ⟨ha, raised', more, ht, hmore⟩
    have hend : ∀ result : Except Exc α, ((∃ e, outcome = .error e) → ∃ e, result = .error e) →
        Outcome driver result s₅ := by
      refine fun result hresult => h₂.outcome ht hmore ha (fun h => ?_) (fun h => ?_) hresult
      · simp [hreset h]
      · simp [Except.ok.inj hmarked, Session.log, h]
    rcases outcome with e | a
    · exact hend _ fun _ => ⟨e, rfl⟩
    · rcases reset with e | r
      · exact hend _ fun _ => ⟨_, rfl⟩
      · rcases released with e | u
        · exact hend _ fun _ => ⟨e, rfl⟩
        · exact hend _ fun ⟨e, he⟩ => nomatch he
  · rintro e s₁ ⟨ha, hs₁, hsent, -⟩
    exact hs₁.outcome ha hsent e

def refusingDriver : Driver Unit where
  answer _ op :=
    match op with
    | .execute (.statement text _) =>
      if text = "INSERT" then .error (.exception 0 false) else .ok ⟨false, none, 1, none, []⟩
    | _ => .ok ⟨false, none, 1, none, []⟩
  interrupted _ := false
  hasAutocommit := true

/-- The statement is tried in a savepoint; another one follows. -/
def tryInsert : Code Unit Unit (CommandResult Unit) := do
  (do
    let _ ← savepoint refusingDriver "first" (execute refusingDriver "INSERT" (.positional []))
    pure ()).handle fun _ => pure ()
  execute refusingDriver "UPDATE" (.positional [])

/-- The failed statement was undone by its savepoint, so the transaction commits. -/
theorem transaction_outcome_tryInsert :
    ((transaction refusingDriver none tryInsert) (.initial 0 false ())).2.trace.getLast? =
        some ⟨.putconn false, none⟩ ∧
      Committed ((transaction refusingDriver none tryInsert) (.initial 0 false ())).2.trace ∧
      CommitsClean ((transaction refusingDriver none tryInsert) (.initial 0 false ())).2.trace :=
  ⟨by decide, mem_of_elem_eq_true (by decide),
    (transaction_outcome refusingDriver none 0 false () (.bind (.handle (.bind
      (.savepoint _ (.execute _ _)) fun _ => .pure ()) fun _ => .pure ()) fun _ => .execute _ _)).commits⟩

end AstralPlane.Database
