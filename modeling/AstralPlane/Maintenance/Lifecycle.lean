/-
  The life of a maintenance unit.

  The log counts the claims of a unit, and says under which claim an operation
  was bound; the row of the unit and its inputs agree with it (`Sound`).  That
  holds as long as every replay of `create_unit` gives inputs that the unit has:
  the replay inserts the inputs that it is given before it compares them with
  those of the unit, so that further ones are not refused (`replay_adds_input`).
-/
import Mathlib.Data.List.Induction
import AstralPlane.Maintenance.Effects

namespace AstralPlane.Maintenance

open Tx List Keyed
open Repositories

variable {row : Row UnitRecord} {u : UnitRecord}

/-! ## What the log says of a unit -/

def Event.unitId : Event → Uuid
  | .claimed unitId _ _ | .bound unitId _ _ _ _ => unitId

def Event.isClaimOf (unitId : Uuid) : Event → Bool
  | .claimed unitId' _ _ => unitId' = unitId
  | .bound .. => false

/-- The number of times that a unit was claimed. -/
def claimCount (log : List Event) (unitId : Uuid) : ℕ := log.countP (·.isClaimOf unitId)

structure UnitSound (log : List Event) (unitId : Uuid) (u : UnitRecord) : Prop where
  valid : u.validate unitId = .ok ()
  generation : u.claimGeneration = u.attemptCount
  claims : u.attemptCount = claimCount log unitId
  claimable : u.phase.isClaimable → u.attemptCount < u.maxAttempts
  leased : u.phase.isLeased → ∃ token, u.leaseToken = some token ∧
    Event.claimed unitId token u.claimGeneration ∈ log
  running : u.phase = .running → ∃ token operationId execution, u.leaseToken = some token ∧
    u.operationId = some operationId ∧ u.operationExecutionGeneration = some execution ∧
    Event.bound unitId token u.claimGeneration operationId execution ∈ log

/-- The input was completed by an operation that was bound under a claim of its unit. -/
def CompletedUnderClaim (log : List Event) (unitId : Uuid) (i : InputRecord) : Prop :=
  ∃ token generation operationId execution, i.operationId = some operationId ∧
    i.operationExecutionGeneration = some execution ∧
    Event.claimed unitId token generation ∈ log ∧
    Event.bound unitId token generation operationId execution ∈ log

structure InputSound (s : Store) (log : List Event) (key : InputKey) (i : InputRecord) : Prop where
  unit : (s.units.lookup key.unitId).isSome
  valid : i.validate key key.unitId = .ok ()
  completed : i.completed → CompletedUnderClaim log key.unitId i

structure Sound (s : Store) (log : List Event) : Prop where
  unit : ∀ unitId row, s.units.lookup unitId = some row → UnitSound log unitId row.val
  absent : ∀ unitId, s.units.lookup unitId = none → claimCount log unitId = 0
  input : ∀ key row, s.inputs.lookup key = some row → InputSound s log key row.val
  members : ∀ unitId row, s.units.lookup unitId = some row → s.members unitId ≠ []
  succeeded : ∀ unitId row, s.units.lookup unitId = some row → row.val.phase = .succeeded →
    ∀ key i, key.unitId = unitId → s.inputs.lookup key = some i → i.val.completed

variable {unitId : Uuid}

theorem mem_members {s : Store} {m : InputKey × InputRecord} : m ∈ s.members unitId ↔
      m.1.unitId = unitId ∧ ∃ row, s.inputs.lookup m.1 = some row ∧ row.val = m.2 := by
  simp only [Store.members, mem_map, mem_filter, decide_eq_true_eq, Sigma.exists, mem_entries]
  constructor
  · rintro ⟨k, row, ⟨hrow, hunit⟩, rfl⟩
    exact ⟨hunit, row, hrow, rfl⟩
  · rintro ⟨hunit, row, hrow, hval⟩
    exact ⟨_, row, ⟨hrow, hunit⟩, Prod.ext rfl hval⟩

/-! ## One step of a unit -/

section
variable {s : Store} {log l : List Event} {u u' : UnitRecord}

theorem UnitStep.events (h : UnitStep s unitId u l u') : ∀ e ∈ l, e.unitId = unitId := by
  cases h with
  | claim | bind =>
    intro e he
    rw [mem_singleton.1 he]
    rfl
  | renew | fail | complete =>
    intro e he
    cases he

theorem claimCount_append (log l : List Event) (unitId : Uuid) :
    claimCount (log ++ l) unitId = claimCount log unitId + claimCount l unitId :=
  countP_append

theorem claimCount_other {unitId' : Uuid} (h : ∀ e ∈ l, e.unitId = unitId) (hne : unitId' ≠ unitId) :
    claimCount l unitId' = 0 := by
  rw [claimCount, countP_eq_zero]
  intro e he
  have hunit := h e he
  cases e with
  | claimed k =>
    obtain rfl : k = unitId := hunit
    simpa [Event.isClaimOf] using Ne.symm hne
  | bound => exact nofun

/-- A unit is not touched by what the log keeps of others. -/
theorem UnitSound.append (h : UnitSound log unitId u) (hl : claimCount l unitId = 0) :
    UnitSound (log ++ l) unitId u where
  valid := h.valid
  generation := h.generation
  claims := by rw [claimCount_append, hl, Nat.add_zero]; exact h.claims
  claimable := h.claimable
  leased := fun hp => by
    obtain ⟨token, ht, hmem⟩ := h.leased hp
    exact ⟨token, ht, mem_append_left _ hmem⟩
  running := fun hp => by
    obtain ⟨token, op, ex, ht, hop, hex, hmem⟩ := h.running hp
    exact ⟨token, op, ex, ht, hop, hex, mem_append_left _ hmem⟩

theorem UnitSound.step (h : UnitSound log unitId u) (hs : UnitStep s unitId u l u')
    (hvalid : u'.validate unitId = .ok ()) : UnitSound (log ++ l) unitId u' := by
  cases hs with
  | @claim q claimable attempts =>
    constructor
    · exact hvalid
    · exact congrArg (· + 1) h.generation
    · rw [claimCount_append, ← h.claims]
      simp [claimCount, Event.isClaimOf, UnitRecord.claimed]
    · exact nofun
    · exact fun _ => ⟨q.token.val, rfl, by simp [UnitRecord.claimed]⟩
    · exact nofun
  | @bind f operationId execution meets claimed =>
    simp only [Fence.meets, bool_to_prop] at meets
    obtain ⟨⟨htoken, hgeneration⟩, -⟩ := meets
    constructor
    · exact hvalid
    · exact h.generation
    · rw [claimCount_append]
      exact h.claims
    · exact nofun
    · intro _
      obtain ⟨token, ht, hmem⟩ := h.leased (by rw [claimed]; rfl)
      exact ⟨token, ht, mem_append_left _ hmem⟩
    · intro _
      refine ⟨f.token, operationId, execution, htoken, rfl, rfl, mem_append_right _ ?_⟩
      rw [← hgeneration]
      exact mem_singleton_self _
  | renew =>
    rw [append_nil]
    exact ⟨hvalid, h.generation, h.claims, h.claimable, h.leased, h.running⟩
  | fail =>
    rw [append_nil]
    refine ⟨hvalid, h.generation, h.claims, ?_, ?_, ?_⟩
    · intro hp
      simp only [UnitRecord.failed] at hp ⊢
      split at hp
      · cases hp
      · omega
    all_goals
      intro hp
      simp only [UnitRecord.failed] at hp
      split at hp <;> cases hp
  | complete =>
    rw [append_nil]
    exact ⟨hvalid, h.generation, h.claims, nofun, nofun, nofun⟩

end

/-! ## One effect -/

section
variable {s s' : Store} {log l : List Event}

theorem attempts_of_row (row : Row UnitRecord) :
    row.val.attemptCount ≤ row.val.maxAttempts ∧ 0 < row.val.maxAttempts := by
  have h := row.property
  simp only [Columns.refusal] at h
  split at h
  · cases h
  · split at h
    · cases h
    · rename_i hs
      simp only [Bool.not_eq_true', Bool.not_eq_false, bool_to_prop] at hs
      exact ⟨hs.1.1.1.1, hs.1.1.1.2⟩

theorem CompletedUnderClaim.append {i : InputRecord}
    (h : CompletedUnderClaim log unitId i) : CompletedUnderClaim (log ++ l) unitId i := by
  obtain ⟨token, generation, op, ex, hop, hex, hclaimed, hbound⟩ := h
  exact ⟨token, generation, op, ex, hop, hex, mem_append_left _ hclaimed, mem_append_left _ hbound⟩

theorem InputSound.mono {key : InputKey} {i : InputRecord} (h : InputSound s log key i)
    (hunits : ∀ unitId, (s.units.lookup unitId).isSome →
      (s'.units.lookup unitId).isSome) : InputSound s' (log ++ l) key i :=
  ⟨hunits _ h.unit, h.valid, fun hc => (h.completed hc).append⟩

theorem isSome_insert {units : Keyed Uuid (Row UnitRecord)} {k : Uuid}
    (h : (units.lookup k).isSome) : ((units.insert unitId row).lookup k).isSome := by
  rw [lookup_write]
  split
  · rfl
  · exact h

theorem members_nonempty_iff :
    s.members unitId ≠ [] ↔ ∃ key i, key.unitId = unitId ∧ s.inputs.lookup key = some i := by
  constructor
  · intro h
    obtain ⟨m, hm⟩ := exists_mem_of_ne_nil _ h
    obtain ⟨hunit, row, hrow, -⟩ := mem_members.1 hm
    exact ⟨m.1, row, hunit, hrow⟩
  · rintro ⟨key, i, hunit, hi⟩
    have hm : (key, i.val) ∈ s.members unitId := mem_members.2 ⟨hunit, i, hi, rfl⟩
    exact ne_nil_of_mem hm

theorem Sound.update (h : Sound s log) {row' : Row UnitRecord}
    (hrow : s.units.lookup unitId = some row) (hstep : UnitStep s unitId row.val l row'.val)
    (hvalid : row'.val.validate unitId = .ok ()) :
    Sound { s with units := s.units.insert unitId row' } (log ++ l) := by
  have hevents := hstep.events
  constructor
  · intro k r hr
    rcases write_cases hr with ⟨rfl, rfl⟩ | ⟨hne, hr⟩
    · exact (h.unit _ row hrow).step hstep hvalid
    · exact (h.unit k r hr).append (claimCount_other hevents hne)
  · intro k hk
    simp only [lookup_write] at hk
    split at hk
    · cases hk
    · rename_i hne
      rw [claimCount_append, claimCount_other hevents hne]
      exact h.absent k hk
  · intro key i hi
    exact (h.input key i hi).mono fun _ => isSome_insert
  · intro k r hr
    rcases write_cases hr with ⟨rfl, -⟩ | ⟨-, hr⟩
    · exact h.members _ row hrow
    · exact h.members k r hr
  · intro k r hr hphase key i hkey hi
    rcases write_cases hr with ⟨rfl, rfl⟩ | ⟨-, hr⟩
    · -- a unit that has succeeded only now was completed with all its inputs
      generalize hu' : row'.val = u' at hstep hphase
      cases hstep with
      | complete running inputs =>
        exact all_eq_true.1 inputs (key, i.val) (mem_members.2 ⟨hkey, i, hi, rfl⟩)
      | claim | bind => cases hphase
      | fail =>
        simp only [UnitRecord.failed] at hphase
        split at hphase <;> cases hphase
      | renew leased =>
        have hp : row.val.phase = .succeeded := hphase
        rw [hp] at leased
        cases leased
    · exact h.succeeded k r hr hphase key i hkey hi

theorem Sound.completeInput (h : Sound s log) {key : InputKey} {row row' : Row InputRecord}
    (hrow : s.inputs.lookup key = some row) (hstep : InputStep s key row.val row'.val)
    (hvalid : row'.val.validate key key.unitId = .ok ()) :
    Sound { s with inputs := s.inputs.insert key row' } log := by
  constructor
  · exact h.unit
  · exact h.absent
  · intro k i hi
    rcases write_cases hi with ⟨rfl, rfl⟩ | ⟨-, hi⟩
    · refine ⟨(h.input _ row hrow).unit, hvalid, fun _ => ?_⟩
      obtain ⟨unit, f, hunit, hmeets, hop, hex⟩ := hstep.running
      simp only [InputFence.meets, bool_to_prop] at hmeets
      obtain ⟨⟨⟨⟨hrunning, htoken⟩, -⟩, hoperation⟩, hexecution⟩ := hmeets
      have hsound := h.unit _ unit hunit
      obtain ⟨token, ht, hclaimed⟩ := hsound.leased (by rw [hrunning]; rfl)
      obtain ⟨token', op, ex, ht', hop', hex', hbound⟩ := hsound.running hrunning
      cases ht.symm.trans ht'
      refine ⟨token, _, op, ex, ?_, ?_, hclaimed, hbound⟩
      · rw [hop, ← hop', hoperation]
      · rw [hex, ← hex', hexecution]
    · exact ⟨(h.input k i hi).unit, (h.input k i hi).valid, (h.input k i hi).completed⟩
  · intro k r hr
    obtain ⟨key', i, hkey', hi⟩ := members_nonempty_iff.1 (h.members k r hr)
    refine members_nonempty_iff.2 ?_
    by_cases hk : key' = key
    · subst hk
      exact ⟨key', row', hkey', by simp only [lookup_write, if_pos]⟩
    · exact ⟨key', i, hkey', by simp only [lookup_write, if_neg hk, hi]⟩
  · intro k r hr hphase key' i hkey' hi
    rcases write_cases hi with ⟨-, rfl⟩ | ⟨-, hi⟩
    · exact hstep.completed
    · exact h.succeeded k r hr hphase key' i hkey' hi

theorem Sound.create (h : Sound s log)
    (fresh : s.units.lookup unitId = none) (unit : ∃ u now, row.val = UnitRecord.created u now)
    (valid : row.val.validate unitId = .ok ()) (units : s'.units = s.units.insert unitId row)
    (kept : ∀ key i, s.inputs.lookup key = some i → s'.inputs.lookup key = some i)
    (new : ∀ key i, s.inputs.lookup key = none → s'.inputs.lookup key = some i →
      key.unitId = unitId ∧ i.val.completed = false) (inputs : s'.members unitId ≠ [])
    (validInputs : ∀ m ∈ s'.members unitId, m.2.validate m.1 unitId = .ok ()) : Sound s' log := by
  have hlookup : ∀ k, s'.units.lookup k = if k = unitId then some row else s.units.lookup k :=
    fun k => by rw [units, lookup_write]
  obtain ⟨u, now, hcreated⟩ := unit
  constructor
  · intro k r hr
    rw [hlookup] at hr
    split at hr
    · cases hr
      subst_vars
      refine ⟨valid, by rw [hcreated]; rfl, ?_, fun _ => ?_, ?_, ?_⟩
      · rw [h.absent _ fresh, hcreated]
        rfl
      · have hpos := (attempts_of_row row).2
        have hzero : row.val.attemptCount = 0 := by rw [hcreated]; rfl
        omega
      all_goals
        rw [hcreated]
        exact nofun
    · exact h.unit k r hr
  · intro k hk
    rw [hlookup] at hk
    split at hk
    · cases hk
    · exact h.absent k hk
  · intro key i hi
    cases hold : s.inputs.lookup key with
    | some j =>
      cases (kept key j hold).symm.trans hi
      have hsound := h.input key _ hold
      refine ⟨?_, hsound.valid, hsound.completed⟩
      rw [units]
      exact isSome_insert hsound.unit
    | none =>
      obtain ⟨hunit, hpending⟩ := new key i hold hi
      refine ⟨?_, ?_, fun hc => by rw [hpending] at hc; cases hc⟩
      · rw [hlookup, if_pos hunit]
        rfl
      · rw [hunit]
        exact validInputs (key, i.val) (mem_members.2 ⟨hunit, i, hi, rfl⟩)
  · intro k r hr
    rw [hlookup] at hr
    split at hr
    · subst_vars
      exact inputs
    · obtain ⟨key, i, hkey, hi⟩ := members_nonempty_iff.1 (h.members k r hr)
      exact members_nonempty_iff.2 ⟨key, i, hkey, kept key i hi⟩
  · intro k r hr hphase key i hkey hi
    rw [hlookup] at hr
    split at hr
    · cases hr
      rw [hcreated] at hphase
      cases hphase
    · rename_i hne
      cases hold : s.inputs.lookup key with
      | some j =>
        cases (kept key j hold).symm.trans hi
        exact h.succeeded k r hr hphase key _ hkey hold
      | none => exact absurd (hkey.symm.trans (new key i hold hi).1) hne

theorem Sound.effect (h : Sound s log) (he : Effect s l s') : Sound s' (log ++ l) := by
  cases he with
  | idle => rwa [append_nil]
  | create fresh unit valid units kept new inputs validInputs =>
    rw [append_nil]
    exact h.create fresh unit valid units kept new inputs validInputs
  | update found step valid => exact h.update found step valid
  | completeInput found step valid =>
    rw [append_nil]
    exact h.completeInput found step valid

theorem Sound.effects (h : Sound s log) (he : Effects s l s') : Sound s' (log ++ l) := by
  induction he generalizing log with
  | nil => rwa [append_nil]
  | cons hfirst _ ih =>
    rw [← append_assoc]
    exact ih (h.effect hfirst)

end

/-! ## What stays -/

def Phase.isOver (p : Phase) : Bool := p = .succeeded || p = .failedTerminal

/-- Units that are over stay as they are, and units keep their inputs. -/
structure Keeps (s s' : Store) : Prop where
  units : ∀ unitId, (s.units.lookup unitId).isSome → (s'.units.lookup unitId).isSome
  settled : ∀ unitId row, s.units.lookup unitId = some row → row.val.phase.isOver →
    s'.units.lookup unitId = some row
  membership : ∀ key : InputKey, (s.units.lookup key.unitId).isSome →
    (s'.inputs.lookup key).map (·.val.digest) = (s.inputs.lookup key).map (·.val.digest)

theorem Keeps.refl (s : Store) : Keeps s s := ⟨fun _ h => h, fun _ _ h _ => h, fun _ _ => rfl⟩

theorem Keeps.trans {s s1 s2 : Store} (h : Keeps s s1) (h' : Keeps s1 s2) : Keeps s s2 where
  units := fun unitId hu => h'.units unitId (h.units unitId hu)
  settled := fun unitId row hrow ho => h'.settled unitId row (h.settled unitId row hrow ho) ho
  membership := fun key hu => (h'.membership key (h.units _ hu)).trans (h.membership key hu)

section
variable {s s' : Store} {log l : List Event}

theorem UnitStep.not_over {u' : UnitRecord} (h : UnitStep s unitId u l u') :
    u.phase.isOver = false := by
  cases h with
  | claim claimable => cases hp : u.phase <;> rw [hp] at claimable <;> first | rfl | cases claimable
  | bind _ claimed => rw [claimed]; rfl
  | renew leased | fail leased =>
    cases hp : u.phase <;> rw [hp] at leased <;> first | rfl | cases leased
  | complete running => rw [running]; rfl

theorem Effect.keeps (he : Effect s l s') : Keeps s s' := by
  cases he with
  | idle => exact Keeps.refl s
  | @create _ unitId row fresh unit valid units kept new inputs validInputs =>
    have hne : ∀ k, (s.units.lookup k).isSome → k ≠ unitId := by
      rintro k hk rfl
      rw [fresh] at hk
      cases hk
    refine ⟨fun k hk => ?_, fun k r hr _ => ?_, fun key hu => ?_⟩
    · rw [units]
      exact isSome_insert hk
    · rw [units, lookup_write, if_neg (hne k (Option.isSome_of_eq_some hr)), hr]
    · cases hold : s.inputs.lookup key with
      | some i => rw [kept key i hold]
      | none =>
        cases hnew : s'.inputs.lookup key with
        | none => rfl
        | some i => exact absurd (new key i hold hnew).1 (hne _ hu)
  | update found step valid =>
    rename_i unitId row row'
    refine ⟨fun k => isSome_insert, fun k r hr ho => ?_, fun _ _ => rfl⟩
    have hne : k ≠ unitId := by
      rintro rfl
      cases found.symm.trans hr
      rw [step.not_over] at ho
      cases ho
    simp only [lookup_write, if_neg hne, hr]
  | @completeInput key row row' found step valid =>
    refine ⟨fun _ h => h, fun _ _ h _ => h, fun k _ => ?_⟩
    by_cases hk : k = key
    · subst hk
      simp only [lookup_write, if_pos, found, Option.map_some, step.digest]
    · simp only [lookup_write, if_neg hk]

theorem Effects.keeps (he : Effects s l s') : Keeps s s' := by
  induction he with
  | nil => exact Keeps.refl _
  | cons hfirst _ ih => exact hfirst.keeps.trans ih

end

/-! ## A claim that is no longer the current one -/

/-- The fence shows a token, a generation or a revision that is not the one of the unit. -/
def Fence.Superseded (f : Fence) (s : Store) : Prop :=
  ∀ row, s.units.lookup f.unitId = some row → row.val.leaseToken ≠ some f.token ∨
    row.val.claimGeneration ≠ f.generation ∨ row.val.stateRevision ≠ f.revision

def InputFence.Superseded (f : InputFence) (s : Store) : Prop :=
  ∀ row, s.units.lookup f.key.unitId = some row → row.val.leaseToken ≠ some f.token ∨
    row.val.claimGeneration ≠ f.generation

def Call.Superseded (c : Call) (s : Store) : Prop :=
  match c with
  | .bind f _ _ _ | .renew f _ _ | .complete f _ _ _ _ | .fail f _ _ _ => f.Superseded s
  | .completeInput f _ => f.Superseded s
  | .create .. | .claimNext .. | .recover .. => False

section
variable {s s' : Store}

theorem Fence.Superseded.not_meets {f : Fence} (h : f.Superseded s) :
    ¬ ∃ row, s.units.lookup f.unitId = some row ∧ f.meets row.val := by
  rintro ⟨row, hrow, hmeets⟩
  simp only [Fence.meets, bool_to_prop] at hmeets
  rcases h row hrow with ht | hg | hr
  · exact ht hmeets.1.1
  · exact hg hmeets.1.2
  · exact hr hmeets.2

theorem InputFence.Superseded.not_meets {f : InputFence} (h : f.Superseded s) :
    ¬ ∃ row, s.units.lookup f.key.unitId = some row ∧ f.meets row.val := by
  rintro ⟨row, hrow, hmeets⟩
  simp only [InputFence.meets, bool_to_prop] at hmeets
  rcases h row hrow with ht | hg
  · exact ht hmeets.1.1.1.2
  · exact hg hmeets.1.1.2

theorem superseded_raises {c : Call} {l : List Event} (h : c.Superseded s) : ¬ c.exec.Ok s l s' := by
  intro hok
  cases c with
  | create | claimNext | recover => exact h
  | _ =>
    simp only [Call.exec, ok_bind] at hok
    obtain ⟨_, _, hcall, -⟩ := hok
    first
    | exact Fence.Superseded.not_meets h (bindOperation_effect hcall).2
    | exact Fence.Superseded.not_meets h (renewClaim_effect hcall).2
    | exact InputFence.Superseded.not_meets h (completeInput_effect hcall).2
    | exact Fence.Superseded.not_meets h (completeUnit_effect hcall).2
    | exact Fence.Superseded.not_meets h (failUnit_effect hcall).2

end

/-! ## `claim_next` finds the units that are due -/

/-- The arguments of `claim_next` pass their checks. -/
structure ClaimRequest.WellFormed (q : ClaimRequest) : Prop where
  worker : Repositories.boundedText q.workerId "worker_id" 128 = .ok q.workerId
  lease : q.now < q.leaseExpiresAt
  kinds : codes q.kinds "unit_kinds" = .ok ()
  eligible : (q.eligible.getD []).forM (uuid4 · "eligible_unit_id") = .ok ()

/-- Some unit that the worker may claim is not locked. -/
def ClaimRequest.Due (q : ClaimRequest) (locked : Uuid → Bool) (s : Store) : Prop :=
  ∃ unitId row, s.units.lookup unitId = some row ∧ q.takes unitId row.val ∧
    locked unitId = false

section
variable {s s' : Store} {log : List Event} {q : ClaimRequest} {locked : Uuid → Bool}

theorem ClaimRequest.Due.eligible (h : q.Due locked s) : q.eligible ≠ some [] := by
  obtain ⟨unitId, row, -, htakes, -⟩ := h
  intro hnil
  simp [ClaimRequest.takes, hnil] at htakes

theorem ClaimRequest.Due.candidate (h : q.Due locked s) :
    ∃ unitId row, s.candidate q locked = some unitId ∧ s.units.lookup unitId = some row ∧
      q.takes unitId row.val := by
  obtain ⟨unitId, row, hrow, htakes, hlocked⟩ := h
  cases hc : s.candidate q locked with
  | some first =>
    obtain ⟨row', hrow', htakes'⟩ := candidate_takes hc
    exact ⟨first, row', rfl, hrow', htakes'⟩
  | none =>
    rw [Store.candidate, Option.map_eq_none_iff, firstBy_eq_none] at hc
    have hmem : (⟨unitId, row⟩ : Sigma fun _ : Uuid => Row UnitRecord) ∈
        s.units.entries.filter fun e => q.takes e.1 e.2.val && !locked e.1 :=
      mem_filter.2 ⟨mem_entries.2 hrow, by simp [htakes, hlocked]⟩
    rw [hc] at hmem
    cases hmem

theorem validate_claimed (hq : q.WellFormed)
    (h : u.validate unitId = .ok ()) (hc : u.phase.isClaimable)
    (ha : u.attemptCount < u.maxAttempts) : (u.claimed q).validate unitId = .ok () := by
  simp only [UnitRecord.validate, bind_eq_ok] at h ⊢
  obtain ⟨_, hidentity, hprogress⟩ := h
  refine ⟨(), hidentity, ?_⟩
  simp only [UnitRecord.validateProgress, ok_rules, check] at hprogress ⊢
  obtain ⟨_, -, _, -, _, -, _, -, _, hexecution, _, hoperation, _, hpath, _, hdigest, _, hterminal,
    -⟩ := hprogress
  have hphase : u.phase.isTerminal = false := by
    cases hp : u.phase <;> rw [hp] at hc <;> first | rfl | cases hc
  rw [hphase] at hterminal
  refine ⟨(), decide_eq_true ha, (), ?_, (), ?_, (), rfl, (), hexecution, (),
    hoperation, (), hpath, (), hdigest, (), hterminal, rfl⟩
  · simp [UnitRecord.claimed, optional, uuid4, check, ensure_eq_ok, q.token.property]
  · have hworker := hq.worker
    simp only [Repositories.boundedText, Repositories.withinLength, ok_rules] at hworker
    obtain ⟨_, hblank, _, hlength, -⟩ := hworker
    simp only [UnitRecord.claimed, optional, Repositories.boundedText, Repositories.withinLength,
      ensure, hblank, hlength]
    rfl

theorem refusal_claimed {sqlstate : String} (ha : row.val.attemptCount < row.val.maxAttempts)
    (h : Columns.refusal (row.val.claimed q) = some sqlstate) : sqlstate = "22003" := by
  have hrow := row.property
  simp only [Columns.refusal] at h hrow
  split at hrow
  · cases hrow
  · split at hrow
    · cases hrow
    · rename_i hchecks
      split at h
      · exact (Option.some.inj h).symm
      · rw [if_neg] at h
        · cases h
        · simp only [Bool.not_eq_true', Bool.not_eq_false, bool_to_prop] at hchecks ⊢
          refine ⟨⟨⟨⟨ha, hchecks.1.1.1.2⟩, hchecks.1.1.2⟩, .inr rfl⟩, .inl fun h => by cases h⟩

theorem listInputs_returns (h : Sound s log)
    (hrow : s.units.lookup unitId = some row) : (listInputs unitId).Ok s (s.members unitId) s := by
  have hvalid := (h.unit unitId row hrow).valid
  simp only [UnitRecord.validate, UnitRecord.validateIdentity, bind_eq_ok] at hvalid
  obtain ⟨_, ⟨_, huuid, -⟩, -⟩ := hvalid
  simp only [listInputs, ok_bind, ok_argument, ok_get, ok_require, ok_pure]
  refine ⟨(), s, ⟨huuid, rfl⟩, s, s, ⟨rfl, rfl⟩, (), s, ⟨?_, rfl⟩, rfl, rfl⟩
  refine all_eq_true.2 fun m hm => ?_
  obtain ⟨hunit, i, hi, hval⟩ := mem_members.1 hm
  have hinput := (h.input m.1 i hi).valid
  rw [hval, hunit] at hinput
  simp only [hinput]

/-- The update of a candidate: it is claimed, unless a counter of it is used up. -/
theorem claimCandidate_returns (h : Sound s log) (hq : q.WellFormed)
    (hrow : s.units.lookup unitId = some row) (htakes : q.takes unitId row.val) :
    (∃ c s', (claimCandidate q (some unitId)).Ok s (some c) s') ∨
      (claimCandidate q (some unitId)).reply s = .error (.database "22003") := by
  have hsound := h.unit unitId row hrow
  have hclaimable := ClaimRequest.takes_claimable htakes
  have hattempts := hsound.claimable hclaimable
  rcases Sql.updateReturning_selected (fun u => u.attemptCount < u.maxAttempts) (·.claimed q) hrow
      (decide_eq_true hattempts) with
    ⟨row', hwritten, hok⟩ | ⟨sqlstate, hrefusal, hraise⟩
  · left
    have hupdate : (onUnits (Sql.updateReturning unitId
        (fun u => u.attemptCount < u.maxAttempts) (·.claimed q))).Ok s (some row'.val)
        { s with units := s.units.insert unitId row' } := by
      rw [onUnits, ok_zoom]
      exact ⟨_, hok, rfl⟩
    have hvalid : row'.val.validate unitId = .ok () := by
      rw [hwritten]
      exact validate_claimed hq hsound.valid hclaimable hattempts
    have hstep : UnitStep s unitId row.val
        [.claimed unitId q.token.val (row.val.claimGeneration + 1)] row'.val := by
      rw [hwritten]
      exact .claim hclaimable hattempts
    have hsound' := h.update hrow hstep hvalid
    have hfound : (s.units.insert unitId row').lookup unitId = some row' := by
      rw [lookup_write, if_pos rfl]
    refine ⟨⟨unitId, row'.val, s.members unitId⟩, { s with units := s.units.insert unitId row' },
      hupdate.bind ?_⟩
    refine Ok.bind (a := row'.val) ?_ ((listInputs_returns hsound' hfound).bind ?_)
    · simp only [readUnit, ok_ofExcept, hvalid, and_self]
    · have hmembers := h.members unitId row hrow
      simpa [Store.members] using hmembers
  · right
    cases refusal_claimed hattempts hrefusal
    simp only [claimCandidate, onUnits, Tx.reply, Bind.bind, Tx.bind, Tx.zoom, hraise]

theorem claimNext_returns (h : Sound s log) (hq : q.WellFormed) (hdue : q.Due locked s) :
    (∃ c, (claimNext q locked).reply s = .ok (some c)) ∨
      (claimNext q locked).reply s = .error (.database "22003") := by
  obtain ⟨unitId, row, hc, hrow, htakes⟩ := hdue.candidate
  have hclaim : (claimNext q locked) s = claimCandidate q (some unitId) s := by
    rw [claimNext, bind_of_ok (ok_argument.2 ⟨hq.worker, rfl⟩),
      bind_of_ok (a := ()) (ok_argument.2 ⟨by simp [check, ensure_eq_ok, hq.lease], rfl⟩),
      bind_of_ok (a := ()) (ok_argument.2 ⟨hq.kinds, rfl⟩),
      bind_of_ok (a := ()) (ok_argument.2 ⟨hq.eligible, rfl⟩), if_neg hdue.eligible,
      bind_of_ok (ok_get.2 ⟨rfl, rfl⟩), hc]
  simp only [Tx.reply, hclaim]
  rcases claimCandidate_returns h hq hrow htakes with ⟨c, s', hok⟩ | herror
  · exact .inl ⟨c, by rw [hok]⟩
  · exact .inr herror

/-- Whatever the arguments, the reply is not `None`. -/
theorem claimNext_some (h : Sound s log) (hdue : q.Due locked s) :
    (claimNext q locked).reply s ≠ .ok none := by
  intro hnone
  rcases hs : (claimNext q locked) s with ⟨r, s'⟩
  obtain rfl : r = .ok none := by rw [Tx.reply, hs] at hnone; exact hnone
  have hok : (claimNext q locked).Ok s none s' := hs
  simp only [claimNext, ok_rules, ok_argument, ok_ite] at hok
  obtain ⟨worker, hworker, _, hlease, _, hkinds, _, heligible, -⟩ := hok
  have hq : q.WellFormed := by
    refine ⟨?_, ?_, hkinds, heligible⟩
    · simp only [Repositories.boundedText, Repositories.withinLength, ok_rules] at hworker ⊢
      obtain ⟨_, hblank, _, hlength, -⟩ := hworker
      exact ⟨(), hblank, (), hlength, trivial⟩
    · simpa [check, ensure_eq_ok] using hlease
  rcases claimNext_returns h hq hdue with ⟨c, hc⟩ | herror
  · cases hnone.symm.trans hc
  · cases hnone.symm.trans herror

end

/-! ## Runs -/

/-- What holds of the units after some calls. -/
structure LifeCycle (s : State) : Prop where
  attempts : ∀ unitId row, s.store.units.lookup unitId = some row →
    row.val.claimGeneration = row.val.attemptCount ∧
    row.val.attemptCount = claimCount s.log unitId ∧ row.val.attemptCount ≤ row.val.maxAttempts
  claimable : ∀ unitId row, s.store.units.lookup unitId = some row →
    row.val.phase.isClaimable → row.val.attemptCount < row.val.maxAttempts
  due : ∀ q locked, q.Due locked s.store → (claimNext q locked).reply s.store ≠ .ok none ∧
    (q.WellFormed → (∃ c, (claimNext q locked).reply s.store = .ok (some c)) ∨
      (claimNext q locked).reply s.store = .error (.database "22003"))
  succeeded : ∀ unitId row, s.store.units.lookup unitId = some row → row.val.phase = .succeeded →
    ∀ key i, key.unitId = unitId → s.store.inputs.lookup key = some i →
      i.val.completed ∧ CompletedUnderClaim s.log unitId i.val
  superseded : ∀ c : Call, c.Superseded s.store → step c s = s

theorem Sound.lifeCycle {s : State} (h : Sound s.store s.log) : LifeCycle s where
  attempts := fun unitId row hrow =>
    ⟨(h.unit unitId row hrow).generation, (h.unit unitId row hrow).claims, (attempts_of_row row).1⟩
  claimable := fun unitId row hrow => (h.unit unitId row hrow).claimable
  due := fun _ _ hdue => ⟨claimNext_some h hdue, fun hq => claimNext_returns h hq hdue⟩
  succeeded := fun unitId row hrow hphase key i hkey hi => by
    have hcompleted := h.succeeded unitId row hrow hphase key i hkey hi
    refine ⟨hcompleted, ?_⟩
    rw [← hkey]
    exact (h.input key i hi).completed hcompleted
  superseded := fun c hsuperseded => by
    rcases hc : c.exec s.store with ⟨e | l, s1⟩
    · have hstore : c.exec.commit s.store = s.store := by rw [Tx.commit, hc]
      have hreply : c.exec.reply s.store = .error e := by rw [Tx.reply, hc]
      rw [step, hstore, hreply]
      simp [eventsOf]
    · exact absurd hc (superseded_raises hsuperseded)

/-- Every replay of `create_unit` in the run gives inputs that the unit has. -/
def FaithfulRun (calls : List Call) : Prop :=
  Allowed step (fun s c => c.Faithful s.store) calls ⟨⟨∅, ∅⟩, []⟩

theorem sound_empty : Sound ⟨∅, ∅⟩ [] := by
  constructor <;> simp [claimCount]

/-- The life of the units along every run, in whatever order the calls come. -/
theorem maintenance_lifecycle (calls more : List Call) (h : FaithfulRun (calls ++ more)) :
    LifeCycle (after calls) ∧ Keeps (after calls).store (after (calls ++ more)).store := by
  obtain ⟨hcalls, hmore⟩ := allowed_append.1 h
  constructor
  · refine Sound.lifeCycle (hcalls.keeps (P := fun s => Sound s.store s.log) ?_ sound_empty)
    intro c s hfaithful hsound
    obtain ⟨l, heffects, hlog⟩ := step_effects hfaithful
    rw [hlog]
    exact hsound.effects heffects
  · rw [after, after, run_append]
    refine hmore.keeps (P := fun s => Keeps (after calls).store s.store) ?_ (Keeps.refl _)
    intro c s hfaithful hkeeps
    obtain ⟨l, heffects, -⟩ := step_effects hfaithful
    exact hkeeps.trans heffects.keeps

section
variable (inputs : List (InputKey × InputRecord))

def unitOne : Uuid := ⟨0x40008000000000000001⟩

def tokenOne : { u : Uuid // u.isVersion4 = true } := ⟨⟨0x40008000000000000007⟩, by decide +kernel⟩

def inputOf (inputId : String) : InputKey × InputRecord :=
  (⟨unitOne, "audit_event", inputId⟩, { digest := none })

def recordOne : UnitRecord where
  kind := "memory_compaction"
  ownerId := none
  scopeKey := "user"
  idempotencyKey := "key"
  maxAttempts := 3
  outputGeneration := some ⟨0x40008000000000000003⟩

def createOne : Call := .create unitOne recordOne inputs 0

def requestOne : ClaimRequest where
  workerId := "worker"
  now := 0
  leaseExpiresAt := 10
  kinds := ["memory_compaction"]
  eligible := none
  token := tokenOne

/-- A worker that claims the unit and completes it with its only input. -/
def workOne : List Call :=
  [.claimNext requestOne fun _ => false,
    .bind ⟨unitOne, tokenOne.val, 1, 1⟩ ⟨5⟩ 1 true,
    .completeInput ⟨(inputOf "a").1, tokenOne.val, 1, ⟨5⟩, 1⟩ 1,
    .complete ⟨unitOne, tokenOne.val, 1, 2⟩ ⟨0x40008000000000000003⟩ "out"
      "0000000000000000000000000000000000000000000000000000000000000000" 2]

end

theorem faithfulRun_one :
    FaithfulRun (createOne [inputOf "a"] :: workOne ++ [createOne [inputOf "a"]]) := by
  have hnone : (after []).store.byIdempotency recordOne.kind recordOne.idempotencyKey = none := rfl
  refine ⟨fun e he => ?_, trivial, trivial, trivial, trivial, fun e he m hm => ?_, trivial⟩
  · cases hnone.symm.trans he
  · have hunit : ((after (createOne [inputOf "a"] :: workOne)).store.byIdempotency recordOne.kind
        recordOne.idempotencyKey).map (·.1) = some unitOne := by decide +kernel
    have he' : some e.1 = some unitOne := by rw [← hunit, ← Option.map_some]; exact congrArg _ he.symm
    rw [Option.some.inj he', mem_singleton.1 hm]
    decide +kernel

theorem maintenance_lifecycle_replayed :
    FaithfulRun (createOne [inputOf "a"] :: workOne ++ [createOne [inputOf "a"]]) ∧
    LifeCycle (after (createOne [inputOf "a"] :: workOne)) ∧
    Keeps (after (createOne [inputOf "a"] :: workOne)).store
      (after (createOne [inputOf "a"] :: workOne ++ [createOne [inputOf "a"]])).store :=
  ⟨faithfulRun_one, maintenance_lifecycle _ _ faithfulRun_one⟩

/-- A replay with one more input: a unit that has succeeded gets an input that is pending. -/
theorem replay_adds_input :
    ((after (createOne [inputOf "a"] :: workOne)).store.units.lookup unitOne).map (·.val.phase) =
      some .succeeded ∧
    (after (createOne [inputOf "a"] :: workOne)).store.inputs.lookup (inputOf "b").1 = none ∧
    ((after (createOne [inputOf "a"] :: workOne ++ [createOne [inputOf "a", inputOf "b"]])
      ).store.units.lookup unitOne).map (·.val.phase) = some .succeeded ∧
    ((after (createOne [inputOf "a"] :: workOne ++ [createOne [inputOf "a", inputOf "b"]])
      ).store.inputs.lookup (inputOf "b").1).map (·.val.completed) = some false := by
  decide +kernel

end AstralPlane.Maintenance
