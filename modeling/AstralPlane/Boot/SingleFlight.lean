/-
  Boot initialisation is single-flight, as long as no failed attempt is reset
  while its thread is still on its way out.

  The `finally` clause of `initialize` looks at the status alone: it takes
  `running` for its own attempt.  An attempt that has published its failure may
  find there the attempt that another thread has begun after a reset, and then
  marks that one as failed (`second_runner`).  In a run without such a reset, and
  without an interrupt in the two places that no handler guards, every thread
  agrees with the shared state (`Shared.Fits`) and at most one is in an attempt.
-/
import Mathlib.Data.List.Induction
import AstralPlane.Boot.Model

namespace AstralPlane.Boot

open Migrations (MigrationReport)

variable {identity : String}
  {sh sh' : Shared} {pc pc' : Pc} {m : Move} {moves : List (Thread × Move)}

/-! ## What one stretch does -/

/-- A thread that has no part in an attempt and no report. -/
def Pc.isFree : Pc → Bool
  | .idle | .calling _ | .raised _ => true
  | _ => false

/-- What a stretch of a thread does to the shared state and to the thread. -/
inductive Transition (m : Move) (sh : Shared) : Pc → Shared → Pc → Prop
  | stay (pc : Pc) : Transition m sh pc sh pc
  | turn {pc pc' : Pc} (before : pc.inAttempt = false) (after : pc'.isFree) :
      Transition m sh pc sh pc'
  | join {q : Request} {r : Report} (ready : sh.status = .ready) (holds : sh.holds q)
      (report : sh.report = some r) : Transition m sh (.calling q) sh (.returned q r)
  | start {q : Request} (new : sh.status = .new) :
      Transition m sh (.calling q) { sh with
        status := .running
        expectedRevision := some q.expected
        planDigest := some q.planDigest
        failure := none } (.started q)
  | advance {pc pc' : Pc} {q : Request} (before : pc.attempt = some q)
      (after : pc'.attempt = some q) (report : ∀ r, pc' = .publishing q r → r.Answers q) :
      Transition m sh pc sh pc'
  | giveUp {pc : Pc} {q : Request} (e : Exc) (before : pc.attempt = some q) :
      Transition m sh pc sh (.failing e)
  | publish (q : Request) (r : Report) :
      Transition m sh (.publishing q r) (sh.publish r) (.returned q r)
  | fail (e : Exc) : Transition m sh (.failing e) (sh.publishFailure e.typeName) (.unwinding e)
  | unwind (e : Exc) : Transition m sh (.unwinding e) sh.unwind (.raised e)
  | cut {pc : Pc} (before : pc.attempt.isSome ∨ ∃ e, pc = .failing e) :
      Transition m sh pc sh (.unwinding .interrupt)
  | leave {pc : Pc} (call : m = .interrupt) (before : (∃ q, pc = .started q) ∨ pc.isUnwinding) :
      Transition m sh pc sh (.raised .interrupt)
  | reset {pc : Pc} (call : m = .reset) (failed : sh.status = .failed) (rest : pc.isRest) :
      Transition m sh pc {} pc

theorem act_transition (m : Move) :
    Transition m sh pc (act identity m sh pc).1 (act identity m sh pc).2 := by
  cases m with
  | call revision digest =>
    have hcalled : ∀ r, Transition (.call revision digest) sh pc sh (pc.called r) := by
      intro r
      by_cases hr : pc.isRest
      · have hfree : pc.inAttempt = false := by cases pc <;> first | rfl | cases hr
        cases r <;> rw [Pc.called, if_pos hr] <;> exact .turn hfree rfl
      · cases r <;> rw [Pc.called, if_neg hr] <;> exact .stay pc
    exact hcalled _
  | interrupt =>
    cases pc with
    | idle | returned | raised => exact .stay _
    | calling => exact .turn rfl rfl
    | started q => exact .leave rfl (.inl ⟨q, rfl⟩)
    | unwinding => exact .leave rfl (.inr rfl)
    | migrating | reconciling | publishing => exact .cut (.inl rfl)
    | failing e => exact .cut (.inr ⟨e, rfl⟩)
  | reset =>
    change Transition .reset sh pc (if pc.isRest then sh.resetFailed.2 else sh) pc
    split
    · rename_i rest
      unfold Shared.resetFailed
      cases hs : sh.status with
      | failed => exact .reset rfl hs rest
      | new | running | ready => exact .stay pc
    · exact .stay pc
  | enter =>
    cases pc with
    | calling q =>
      change Transition _ sh (.calling q) (sh.enter identity q).1 (sh.enter identity q).2
      unfold Shared.enter
      cases hs : sh.status with
      | new => exact .start hs
      | failed => exact .turn rfl rfl
      | running =>
        dsimp only
        split
        · exact .stay _
        · exact .turn rfl rfl
      | ready =>
        dsimp only
        split
        · rename_i holds
          cases hr : sh.report with
          | none => exact .turn rfl rfl
          | some => exact .join hs holds hr
        · exact .turn rfl rfl
    | _ => exact .stay _
  | begin =>
    cases pc with
    | started => exact .advance rfl rfl nofun
    | _ => exact .stay _
  | migrated outcome =>
    cases pc with
    | migrating q =>
      cases outcome with
      | error => exact .giveUp _ rfl
      | ok =>
        simp only [act, migrated]
        split
        · exact .advance rfl rfl nofun
        · exact .giveUp _ rfl
    | _ => exact .stay _
  | reconciled outcome =>
    cases pc with
    | reconciling q migration =>
      cases outcome with
      | error => exact .giveUp _ rfl
      | ok r =>
        simp only [act, reconciled]
        split
        · rename_i hp
          refine .advance rfl rfl fun r' hr' => ?_
          cases hr'
          simp only [Request.proves, Bool.and_eq_true, beq_iff_eq] at hp
          exact ⟨rfl, hp.1.1.1.2⟩
        · exact .giveUp _ rfl
    | _ => exact .stay _
  | publish =>
    cases pc with
    | publishing q r => exact .publish q r
    | _ => exact .stay _
  | fail =>
    cases pc with
    | failing e => exact .fail e
    | _ => exact .stay _
  | unwind =>
    cases pc with
    | unwinding e => exact .unwind e
    | _ => exact .stay _

/-! ## Threads and the shared state -/

/-- The shared state is as a thread at `pc` takes it to be. -/
def Shared.Fits (sh : Shared) : Pc → Prop
  | .started q | .migrating q | .reconciling q _ => sh.status = .running ∧ sh.holds q
  | .publishing q r => sh.status = .running ∧ sh.holds q ∧ r.Answers q
  | .failing _ => sh.status = .running
  | .unwinding _ => sh.status = .running ∨ sh.status = .failed
  | .returned q r => sh.status = .ready ∧ sh.report = some r ∧ r.Answers q
  | .idle | .calling _ | .raised _ => True

/-- The report that is ready is the one of the plan. -/
def Shared.Reports (sh : Shared) : Prop :=
  sh.status = .ready → ∃ r, sh.report = some r ∧ sh.expectedRevision = some r.expectedRevision ∧
    sh.planDigest = some r.reconciliation.planDigest

theorem Shared.holds_iff {q : Request} : sh.holds q ↔
    sh.expectedRevision = some q.expected ∧ sh.planDigest = some q.planDigest := by
  simp [Shared.holds]

theorem Shared.Fits.attempt {q : Request} (h : sh.Fits pc)
    (ha : pc.attempt = some q) : sh.status = .running ∧ sh.holds q := by
  cases pc <;> simp only [Pc.attempt, Option.some.injEq, reduceCtorEq] at ha <;> subst ha
  · exact h
  · exact h
  · exact h
  · exact ⟨h.1, h.2.1⟩

theorem Pc.attempt_inAttempt {q : Request} (ha : pc.attempt = some q) : pc.inAttempt := by
  cases pc <;> first | rfl | cases ha

theorem Pc.isFree_inAttempt (h : pc.isFree) : pc.inAttempt = false := by
  cases pc <;> first | rfl | cases h

theorem Shared.fits_of_free (sh : Shared) (h : pc.isFree) : sh.Fits pc := by
  cases pc <;> trivial

/-- A thread outside of every attempt knows nothing of a state that is not ready. -/
theorem Shared.Fits.free (h : sh.Fits pc) (ha : pc.inAttempt = false)
    (hr : sh.status ≠ .ready) : pc.isFree := by
  cases pc with
  | returned => exact absurd h.1 hr
  | idle | calling | raised => rfl
  | started | migrating | reconciling | publishing | failing | unwinding => cases ha

/-- While nothing is running or unwinding there is no attempt. -/
theorem Shared.Fits.not_inAttempt (h : sh.Fits pc)
    (hrun : sh.status ≠ .running) (hun : pc.isUnwinding = false) : pc.inAttempt = false := by
  cases pc with
  | started | migrating | reconciling | publishing => exact absurd h.1 hrun
  | failing => exact absurd h hrun
  | unwinding => cases hun
  | idle | calling | raised | returned => rfl

/-- What holds between two stretches. -/
structure Invariant {Thread : Type} (s : State Thread) : Prop where
  fits : ∀ t, s.shared.Fits (s.pc t)
  single : ∀ t t', (s.pc t).inAttempt → (s.pc t').inAttempt → t = t'
  busy : s.shared.status = .running → ∃ t, (s.pc t).inAttempt
  reports : s.shared.Reports

section
variable {Thread : Type} [DecidableEq Thread] {s : State Thread}

/-- The state that a stretch of the thread `t` leaves. -/
def State.move (s : State Thread) (t : Thread) (sh : Shared) (pc : Pc) : State Thread :=
  ⟨sh, Function.update s.pc t pc⟩

/-- A stretch by a thread that does not touch the shared state. -/
theorem Invariant.turn (h : Invariant s) (t : Thread) (fits : s.shared.Fits pc)
    (same : pc.inAttempt = (s.pc t).inAttempt) : Invariant (s.move t s.shared pc) := by
  have hin : ∀ t', ((s.move t s.shared pc).pc t').inAttempt = (s.pc t').inAttempt := by
    intro t'
    by_cases ht : t' = t
    · subst ht; simp [State.move, same]
    · simp [State.move, ht]
  refine ⟨fun t' => ?_, fun t1 t2 h1 h2 => ?_, fun hrun => ?_, h.reports⟩
  · by_cases ht : t' = t
    · subst ht
      simpa [State.move] using fits
    · simpa [State.move, ht] using h.fits t'
  · rw [hin] at h1 h2
    exact h.single t1 t2 h1 h2
  · obtain ⟨t', ht'⟩ := h.busy hrun
    exact ⟨t', (hin t').trans ht'⟩

/-- A stretch that writes the shared state while every other thread is free. -/
theorem Invariant.write {t : Thread} (others : ∀ t', t' ≠ t → (s.pc t').isFree) (fits : sh.Fits pc)
    (busy : sh.status = .running → pc.inAttempt) (reports : sh.Reports) :
    Invariant (s.move t sh pc) := by
  have hfree : ∀ t', t' ≠ t → ((s.move t sh pc).pc t').isFree := by
    intro t' ht
    simpa [State.move, ht] using others t' ht
  have hself : ∀ t', ((s.move t sh pc).pc t').inAttempt → t' = t := by
    intro t' hin
    by_contra ht
    rw [Pc.isFree_inAttempt (hfree t' ht)] at hin
    cases hin
  refine ⟨fun t' => ?_, fun t1 t2 h1 h2 => (hself t1 h1).trans (hself t2 h2).symm,
    fun hrun => ⟨t, ?_⟩, reports⟩
  · by_cases ht : t' = t
    · subst ht
      simpa [State.move] using fits
    · exact sh.fits_of_free (hfree t' ht)
  · simpa [State.move] using busy hrun

omit [DecidableEq Thread] in
/-- While one thread is in an attempt and nothing is ready, every other thread is free. -/
theorem Invariant.others (h : Invariant s) {t : Thread} (ha : (s.pc t).inAttempt)
    (hr : s.shared.status ≠ .ready) (t' : Thread) (ht : t' ≠ t) : (s.pc t').isFree := by
  refine (h.fits t').free ?_ hr
  cases hin : (s.pc t').inAttempt with
  | false => rfl
  | true => exact absurd (h.single t' t hin ha) ht

/-! ## Calm runs -/

/-- A move that is not made while the thread of a failed attempt is still on its way out, if it is a
    reset, and that hits no thread outside of the `try` block of its attempt, if it is an
    interrupt. -/
def Calm (s : State Thread) : Thread × Move → Prop
  | (_, .reset) => ∀ t, (s.pc t).isUnwinding = false
  | (t, .interrupt) => (s.pc t).isUnwinding = false ∧ ∀ q, s.pc t ≠ .started q
  | _ => True

/-- **A calm stretch keeps the invariant.** -/
theorem Transition.invariant {t : Thread}
    (hx : Transition m s.shared pc sh' pc') (hpc : s.pc t = pc) (hc : Calm s (t, m))
    (h : Invariant s) : Invariant (s.move t sh' pc') := by
  have hfits := h.fits t
  rw [hpc] at hfits
  cases hx with
  | stay => exact h.turn t hfits (by rw [hpc])
  | turn before after =>
    refine h.turn t (s.shared.fits_of_free after) ?_
    rw [hpc, before, Pc.isFree_inAttempt after]
  | @join q r ready holds report =>
    refine h.turn t ⟨ready, report, ?_⟩ (by rw [hpc]; rfl)
    -- the plan that is ready is both the one asked for and the one of the report
    obtain ⟨r', hr', he, hp⟩ := h.reports ready
    cases report.symm.trans hr'
    obtain ⟨he', hp'⟩ := Shared.holds_iff.1 holds
    exact ⟨Option.some.inj (he.symm.trans he'), Option.some.inj (hp.symm.trans hp')⟩
  | @start q new =>
    have hne : s.shared.status ≠ .ready := by rw [new]; decide
    refine .write (fun t' _ => (h.fits t').free ?_ hne) ⟨rfl, Shared.holds_iff.2 ⟨rfl, rfl⟩⟩
      (fun _ => rfl) nofun
    refine (h.fits t').not_inAttempt (by rw [new]; decide) ?_
    cases hp : s.pc t' with
    | unwinding =>
      have hf := h.fits t'
      rw [hp] at hf
      rcases hf with hf | hf <;> (rw [new] at hf; cases hf)
    | _ => rfl
  | @advance _ _ q before after report =>
    obtain ⟨hrun, hholds⟩ := hfits.attempt before
    refine h.turn t ?_ (by rw [hpc, Pc.attempt_inAttempt before, Pc.attempt_inAttempt after])
    cases pc' <;> simp only [Pc.attempt, Option.some.injEq, reduceCtorEq] at after <;> subst after
    · exact ⟨hrun, hholds⟩
    · exact ⟨hrun, hholds⟩
    · exact ⟨hrun, hholds⟩
    · exact ⟨hrun, hholds, report _ rfl⟩
  | giveUp e before =>
    refine h.turn t (hfits.attempt before).1 ?_
    rw [hpc, Pc.attempt_inAttempt before]
    rfl
  | publish q r =>
    obtain ⟨hrun, hholds, hanswers⟩ := hfits
    obtain ⟨he, hp⟩ := Shared.holds_iff.1 hholds
    refine .write (h.others (by rw [hpc]; rfl) (by rw [hrun]; decide)) ⟨rfl, rfl, hanswers⟩ nofun ?_
    exact fun _ => ⟨r, rfl, he.trans (congrArg some hanswers.1.symm),
      hp.trans (congrArg some hanswers.2.symm)⟩
  | fail =>
    refine .write (h.others (by rw [hpc]; rfl) ?_) (.inr rfl) nofun nofun
    rw [show s.shared.status = .running from hfits]
    decide
  | unwind =>
    have hne : s.shared.status ≠ .ready := by
      rcases hfits with hs | hs <;> (rw [hs]; decide)
    refine .write (h.others (by rw [hpc]; rfl) hne) trivial ?_ ?_
    · intro hrun
      unfold Shared.unwind at hrun
      split at hrun
      · cases hrun
      · contradiction
    · intro hready
      unfold Shared.unwind at hready
      split at hready
      · cases hready
      · exact absurd hready hne
  | cut before =>
    have hrun : s.shared.status = .running := by
      rcases before with ha | ⟨e, rfl⟩
      · obtain ⟨q, hq⟩ := Option.isSome_iff_exists.1 ha
        exact (hfits.attempt hq).1
      · exact hfits
    refine h.turn t (.inl hrun) ?_
    rw [hpc]
    rcases before with ha | ⟨e, rfl⟩
    · obtain ⟨q, hq⟩ := Option.isSome_iff_exists.1 ha
      exact (Pc.attempt_inAttempt hq).symm
    · rfl
  | leave call before =>
    subst call
    rw [← hpc] at before
    rcases before with ⟨q, hq⟩ | hu
    · exact absurd hq (hc.2 q)
    · cases hc.1.symm.trans hu
  | reset call failed =>
    subst call
    have hfree : ∀ t', (s.pc t').isFree := fun t' => (h.fits t').free
      ((h.fits t').not_inAttempt (by rw [failed]; decide) (hc t')) (by rw [failed]; decide)
    refine .write (fun t' _ => hfree t') ?_ nofun nofun
    rw [← hpc]
    exact Shared.fits_of_free _ (hfree t)

end

/-! ## Single flight -/

/-- What is ready or has failed is left alone, but for a reset. -/
theorem Transition.settled (hx : Transition m sh pc sh' pc') (hf : sh.Fits pc)
    (hs : sh.status = .ready ∨ sh.status = .failed ∧ m ≠ .reset) : sh' = sh := by
  have hne : sh.status ≠ .new ∧ sh.status ≠ .running := by
    rcases hs with hs | ⟨hs, -⟩ <;> rw [hs] <;> decide
  cases hx with
  | stay | turn | join | advance | giveUp | cut | leave => rfl
  | start new => exact absurd new hne.1
  | publish => exact absurd hf.1 hne.2
  | fail => exact absurd hf hne.2
  | unwind => rw [Shared.unwind, if_neg hne.2]
  | reset call failed =>
    rcases hs with hs | ⟨-, hm⟩
    · cases hs.symm.trans failed
    · exact absurd call hm

/-- What a state shows of single flight: one runner at a time, on the plan that is published as
    running; no status `running` without an attempt; and replies with the report that is ready. -/
structure SingleFlight {Thread : Type} (s : State Thread) : Prop where
  runner : ∀ t t', (s.pc t).executes → (s.pc t').executes → t = t'
  plan : ∀ t, (s.pc t).executes → s.shared.status = .running ∧
    ∃ q, (s.pc t).attempt = some q ∧ s.shared.expectedRevision = some q.expected ∧
      s.shared.planDigest = some q.planDigest
  left : s.shared.status = .running → ∃ t, (s.pc t).inAttempt
  reply : ∀ t q r, s.pc t = .returned q r →
    s.shared.status = .ready ∧ s.shared.report = some r ∧ r.Answers q

theorem Pc.executes_attempt (h : pc.executes) : ∃ q, pc.attempt = some q := by
  cases pc <;> first | exact ⟨_, rfl⟩ | cases h

theorem Invariant.singleFlight {Thread : Type} {s : State Thread} (h : Invariant s) :
    SingleFlight s where
  runner t t' ht ht' := by
    obtain ⟨q, hq⟩ := Pc.executes_attempt ht
    obtain ⟨q', hq'⟩ := Pc.executes_attempt ht'
    exact h.single t t' (Pc.attempt_inAttempt hq) (Pc.attempt_inAttempt hq')
  plan t ht := by
    obtain ⟨q, hq⟩ := Pc.executes_attempt ht
    obtain ⟨hrun, hholds⟩ := (h.fits t).attempt hq
    exact ⟨hrun, q, hq, Shared.holds_iff.1 hholds⟩
  left := h.busy
  reply t q r ht := by
    have hf := h.fits t
    rw [ht] at hf
    exact hf

section
variable {Thread : Type} [DecidableEq Thread] (identity)

def CalmRun (moves : List (Thread × Move)) : Prop := Allowed (step identity) Calm moves {}

variable {identity}

theorem CalmRun.invariant {moves : List (Thread × Move)} (h : CalmRun identity moves) :
    Invariant (after identity moves) :=
  Allowed.keeps (P := Invariant) (fun a _ hcalm hs => (act_transition a.2).invariant rfl hcalm hs) h
    ⟨fun _ => trivial, nofun, nofun, nofun⟩

/-- What is ready is never changed by a run that goes on calmly. -/
theorem CalmRun.ready {moves more : List (Thread × Move)} (h : CalmRun identity (moves ++ more))
    (hs : (after identity moves).shared.status = .ready) :
    (after identity (moves ++ more)).shared = (after identity moves).shared := by
  obtain ⟨hmoves, hmore⟩ := allowed_append.1 h
  rw [after, run_append]
  refine (hmore.keeps (P := fun s => Invariant s ∧ s.shared = (after identity moves).shared)
    (fun a s hcalm h => ?_) ⟨CalmRun.invariant hmoves, rfl⟩).2
  refine ⟨(act_transition a.2).invariant rfl hcalm h.1,
    ((act_transition a.2).settled (h.1.fits a.1) (.inl ?_)).trans h.2⟩
  rw [h.2]
  exact hs

/-- **Boot initialisation is single-flight in every calm run**: in every state at most one runner is
    at work, on the plan that is running, and every reply is the report that is ready; what is ready
    stays as it is, and a failure stays until it is reset. -/
theorem boot_single_flight (moves : List (Thread × Move)) (calm : CalmRun identity moves) :
    (∀ l, l <+: moves → SingleFlight (after identity l)) ∧
    (∀ l more, l ++ more <+: moves → (after identity l).shared.status = .ready →
      (after identity (l ++ more)).shared = (after identity l).shared) ∧
    ∀ l a, l ++ [a] <+: moves → (after identity l).shared.status = .failed → a.2 ≠ .reset →
      (after identity (l ++ [a])).shared = (after identity l).shared := by
  have hcalm : ∀ l, l <+: moves → CalmRun identity l := by
    rintro l ⟨rest, rfl⟩
    exact (allowed_append.1 calm).1
  refine ⟨fun l hl => (hcalm l hl).invariant.singleFlight, ?_, ?_⟩
  · intro l more hl hs
    exact (hcalm _ hl).ready hs
  · intro l a hl hs hm
    have hbefore := hcalm l ((List.prefix_append _ _).trans hl)
    rw [after, run_snoc]
    exact (act_transition a.2).settled (hbefore.invariant.fits a.1) (.inr ⟨hs, hm⟩)

end

/-! ## Runs -/

/-- A digest that stands for the plan of the runs below. -/
def planA : String := "aaaaaaaaaaaaaaaaaaaaaaaaaaaaaaaaaaaaaaaaaaaaaaaaaaaaaaaaaaaaaaaa"

def migrationA : MigrationReport := ⟨some "065.001", "066.001", ["065-to-066"], false, planA⟩

def reconciliationA : Reconciliation.Report :=
  ⟨"066.001", planA, Reconciliation.advisoryLock, [⟨⟨"required", "1"⟩, 1, false, planA⟩], true⟩

def reportA : Report := ⟨"plane", "066.001", migrationA, reconciliationA⟩

def attemptBy (t : ℕ) : List (ℕ × Move) :=
  [(t, .call "066.001" (.ok planA)), (t, .enter), (t, .begin)]

/-- The runners of the attempt of a thread return, and it publishes its report. -/
def successBy (t : ℕ) : List (ℕ × Move) :=
  [(t, .migrated (.ok migrationA)), (t, .reconciled (.ok reconciliationA)), (t, .publish)]

/-- Moves that are calm in every state. -/
def Move.isPlain : Move → Bool
  | .reset | .interrupt => false
  | _ => true

theorem CalmRun.of_plain {Thread : Type} [DecidableEq Thread] {moves : List (Thread × Move)}
    (h : ∀ a ∈ moves, a.2.isPlain) : CalmRun identity moves := by
  refine Allowed.of_forall fun a ha s => ?_
  have hm := h a ha
  obtain ⟨t, m⟩ := a
  cases m <;> trivial

/-- Two threads that ask for one plan: the second waits for the first and gets its report. -/
theorem boot_single_flight_two :
    (after "plane" (attemptBy 0 ++ [(1, .call "066.001" (.ok planA)), (1, .enter)] ++ successBy 0 ++
      [(1, .enter)])).pc 1 = .returned ⟨"066.001", planA⟩ reportA ∧
    SingleFlight (after "plane" (attemptBy 0 ++ [(1, .call "066.001" (.ok planA)), (1, .enter)] ++
      successBy 0 ++ [(1, .enter)])) :=
  ⟨by decide +kernel, (boot_single_flight _ (CalmRun.of_plain (by decide))).1 _ List.prefix_rfl⟩

/-- The runs that are not calm.  A failed attempt of thread 0 is reset before its `finally` clause,
    which then marks the attempt of thread 1 as failed, and after another reset thread 2 runs beside
    thread 1.  An interrupt before the `try` block leaves the status `running` behind. -/
def overlap : List (ℕ × Move) :=
  attemptBy 0 ++ [(0, .migrated (.error "ValueError")), (0, .fail), (1, .reset)] ++ attemptBy 1 ++
    [(0, .unwind), (2, .reset)] ++ attemptBy 2

theorem second_runner :
    (((after "plane" overlap).pc 1).executes = true ∧
      ((after "plane" overlap).pc 2).executes = true) ∧
    ((after "plane" (overlap ++ successBy 1)).shared.status = .ready ∧
      (after "plane" (overlap ++ successBy 1 ++
        [(2, .migrated (.error "ValueError")), (2, .fail)])).shared.status = .failed) ∧
    (after "plane" [(0, .call "066.001" (.ok planA)), (0, .enter), (0, .interrupt)]).shared.status =
        .running ∧
      ∀ t : ℕ, ((after "plane" [(0, .call "066.001" (.ok planA)), (0, .enter),
        (0, .interrupt)]).pc t).inAttempt = false := by
  refine ⟨by decide +kernel, by decide +kernel, by decide +kernel, fun t => ?_⟩
  by_cases ht : t = 0
  · subst ht
    decide +kernel
  · simp [after, step, ht, Pc.inAttempt]

end AstralPlane.Boot
