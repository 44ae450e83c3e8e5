/-
  What a call does to the maintenance units, said once.

  `UnitStep` lists the ways in which the row of a unit changes, with the claim
  or the operation that the log keeps of it; `Effect` adds the creation of a
  unit and the completion of an input.  Every call that returns is a sequence of
  effects, and one that raises has none (`exec_effect`).
-/
import AstralPlane.Maintenance.Model

namespace AstralPlane.Maintenance

open Tx
open Repositories

variable {u : UnitRecord} {selects : UnitRecord → Bool} {written : UnitRecord → UnitRecord}
  {f : Fence} {q : ClaimRequest} {observedAt : Time}
variable {l : List (InputKey × InputRecord)} {locked : Uuid → Bool} {m : InputKey × InputRecord}
  {unitId : Uuid}

/-! ## Effects -/

def UnitRecord.bound (operationId : Uuid) (execution : ℕ) (u : UnitRecord) : UnitRecord :=
  { u with
    phase := .running
    operationId := some operationId
    operationExecutionGeneration := some execution
    stateRevision := u.stateRevision + 1 }

/-- The row of a unit changes, and what the log keeps of it. -/
inductive UnitStep (s : Store) (unitId : Uuid) (u : UnitRecord) : List Event → UnitRecord → Prop
  | claim {q : ClaimRequest} (claimable : u.phase.isClaimable)
      (attempts : u.attemptCount < u.maxAttempts) :
      UnitStep s unitId u [.claimed unitId q.token.val (u.claimGeneration + 1)] (u.claimed q)
  | bind {f : Fence} {operationId : Uuid} {execution : ℕ} (meets : f.meets u)
      (claimed : u.phase = .claimed) :
      UnitStep s unitId u [.bound unitId f.token f.generation operationId execution]
        (u.bound operationId execution)
  | renew {expires : Time} (leased : u.phase.isLeased) :
      UnitStep s unitId u [] { u with
        leaseExpiresAt := some expires, stateRevision := u.stateRevision + 1 }
  | fail {errorCode : String} {retryAt : Option Time} {observedAt : Time}
      (leased : u.phase.isLeased) :
      UnitStep s unitId u [] (u.failed errorCode retryAt observedAt)
  | complete {path digest : String} {completedAt : Time} (running : u.phase = .running)
      (inputs : (s.members unitId).all (·.2.completed)) :
      UnitStep s unitId u [] { u with
        phase := .succeeded
        outputRelativePath := some path
        outputDigest := some digest
        terminalAt := some completedAt
        leaseToken := none
        claimedBy := none
        leaseExpiresAt := none
        stateRevision := u.stateRevision + 1 }

/-- The input is completed under the claim and the operation of its unit. -/
structure InputStep (s : Store) (key : InputKey) (i i' : InputRecord) : Prop where
  open' : i.completed = false
  digest : i'.digest = i.digest
  completed : i'.completed
  running : ∃ row f, s.units.lookup key.unitId = some row ∧ InputFence.meets f row.val ∧
    i'.operationId = some f.operationId ∧ i'.operationExecutionGeneration = some f.execution

inductive Effect : Store → List Event → Store → Prop
  | idle (s : Store) : Effect s [] s
  /-- A new unit, with the inputs that the call gives; other inputs stay. -/
  | create {s s' : Store} {unitId : Uuid} {row : Row UnitRecord}
      (fresh : s.units.lookup unitId = none) (unit : ∃ u now, row.val = UnitRecord.created u now)
      (valid : row.val.validate unitId = .ok ()) (units : s'.units = s.units.insert unitId row)
      (kept : ∀ key i, s.inputs.lookup key = some i → s'.inputs.lookup key = some i)
      (new : ∀ key i, s.inputs.lookup key = none → s'.inputs.lookup key = some i →
        key.unitId = unitId ∧ i.val.completed = false)
      (inputs : s'.members unitId ≠ [])
      (validInputs : ∀ m ∈ s'.members unitId, m.2.validate m.1 unitId = .ok ()) :
      Effect s [] s'
  | update {s : Store} {unitId : Uuid} {row row' : Row UnitRecord} {l : List Event}
      (found : s.units.lookup unitId = some row) (step : UnitStep s unitId row.val l row'.val)
      (valid : row'.val.validate unitId = .ok ()) :
      Effect s l { s with units := s.units.insert unitId row' }
  | completeInput {s : Store} {key : InputKey} {row row' : Row InputRecord}
      (found : s.inputs.lookup key = some row) (step : InputStep s key row.val row'.val)
      (valid : row'.val.validate key key.unitId = .ok ()) :
      Effect s [] { s with inputs := s.inputs.insert key row' }

inductive Effects : Store → List Event → Store → Prop
  | nil (s : Store) : Effects s [] s
  | cons {s s₁ s₂ : Store} {l l' : List Event} : Effect s l s₁ → Effects s₁ l' s₂ →
      Effects s (l ++ l') s₂

theorem Effect.effects {s s' : Store} {l : List Event} (h : Effect s l s') : Effects s l s' := by
  have := Effects.cons h (.nil s')
  rwa [List.append_nil] at this

/-! ## The statements -/

section
variable {s s' : Store}

theorem readUnit_ok {u' : UnitRecord} (h : (readUnit unitId u).Ok s u' s') :
    u' = u ∧ s' = s ∧ u.validate unitId = .ok () := by
  rw [readUnit, ok_ofExcept] at h
  obtain ⟨hr, rfl⟩ := h
  split at hr
  · rename_i hv
    cases hr
    exact ⟨rfl, rfl, hv⟩
  · cases hr

theorem raiseClaimMiss_ok {α : Type} {a : α} :
    ¬ (raiseClaimMiss unitId : Tx Store Failure α).Ok s a s' := by
  intro h
  simp only [raiseClaimMiss, ok_rules] at h
  obtain ⟨_, rfl, h⟩ := h
  split at h
  · exact ok_raise h
  · simp only [ok_bind] at h
    obtain ⟨_, _, -, h⟩ := h
    exact ok_raise h

/-- A call under a fence that returns has rewritten the row that the fence meets. -/
theorem fencedUpdate_ok (h : (fencedUpdate f selects written).Ok s u s') :
    ∃ row row' : Row UnitRecord, s.units.lookup f.unitId = some row ∧ f.meets row.val ∧
      selects row.val ∧ row'.val = written row.val ∧ row'.val.validate f.unitId = .ok () ∧
      s' = { s with units := s.units.insert f.unitId row' } := by
  simp only [fencedUpdate, ok_bind] at h
  obtain ⟨updated, s1, hupdate, hrest⟩ := h
  rcases (Sql.zoom_update_settles rfl).of_ok hupdate with
    ⟨rfl, rfl, -⟩ | ⟨row, row', hrow, hselects, hw, rfl, rfl⟩
  · exact absurd hrest raiseClaimMiss_ok
  · obtain ⟨-, rfl, hvalid⟩ := readUnit_ok hrest
    simp only [Bool.and_eq_true] at hselects
    exact ⟨row, row', hrow, hselects.1, hselects.2, hw, hvalid, rfl⟩

theorem Fence.check_ok {u : Unit} (h : f.check.Ok s u s') : s' = s := by
  simp only [Fence.check, ok_rules, ok_argument] at h
  obtain ⟨_, -, _, -, -, rfl⟩ := h
  rfl

/-! ## The calls -/

theorem listInputs_ok (h : (listInputs unitId).Ok s l s') :
    l = s.members unitId ∧ s' = s ∧ ∀ m ∈ s.members unitId, m.2.validate m.1 unitId = .ok () := by
  simp only [listInputs, ok_rules, ok_argument] at h
  obtain ⟨_, -, _, rfl, _, hall, rfl, rfl⟩ := h
  refine ⟨rfl, rfl, fun m hm => ?_⟩
  have hv := List.all_eq_true.1 hall m hm
  split at hv
  · assumption
  · cases hv

theorem insertInput_ok {u : Unit} (h : (insertInput unitId m).Ok s u s') :
    s' = s ∨ ∃ row : Row InputRecord, s.inputs.lookup ⟨unitId, m.1.kind, m.1.inputId⟩ = none ∧
      row.val.completed = false ∧
      s' = { s with inputs := s.inputs.insert ⟨unitId, m.1.kind, m.1.inputId⟩ row } := by
  simp only [insertInput, ok_rules] at h
  obtain ⟨reply, _, hinsert, -, rfl⟩ := h
  rcases (Sql.zoom_insert_settles rfl).of_ok hinsert with ⟨-, rfl⟩ | ⟨row, hnone, -, hrow, -, rfl⟩
  · exact .inl rfl
  · exact .inr ⟨row, hnone, by rw [hrow], rfl⟩

/-- The inputs of one unit grow by pending ones. -/
structure Extends (unitId : Uuid) (s s' : Store) : Prop where
  units : s'.units = s.units
  kept : ∀ key i, s.inputs.lookup key = some i → s'.inputs.lookup key = some i
  new : ∀ key i, s.inputs.lookup key = none → s'.inputs.lookup key = some i →
    key.unitId = unitId ∧ i.val.completed = false

theorem Extends.refl (unitId : Uuid) (s : Store) : Extends unitId s s :=
  ⟨rfl, fun _ _ h => h, fun _ _ h h' => by rw [h] at h'; cases h'⟩

theorem insertInput_extends {u : Unit} (h : (insertInput unitId m).Ok s u s') :
    Extends unitId s s' := by
  rcases insertInput_ok h with rfl | ⟨row, hnone, hpending, rfl⟩
  · exact Extends.refl _ _
  · refine ⟨rfl, fun key i hi => ?_, fun key i hi hi' => ?_⟩
    · have hkey : key ≠ ⟨unitId, m.1.kind, m.1.inputId⟩ := by
        rintro rfl
        cases hnone.symm.trans hi
      simpa only [Keyed.lookup_write, if_neg hkey] using hi
    · rcases Keyed.write_cases hi' with ⟨rfl, rfl⟩ | ⟨-, hi'⟩
      · exact ⟨rfl, hpending⟩
      · cases hi.symm.trans hi'

theorem insertInputs_extends :
    ∀ {l : List (InputKey × InputRecord)} {s s' : Store} {u : Unit},
      (Tx.each (insertInput unitId) l).Ok s u s' → Extends unitId s s'
  | [], s, s', u, h => by
    obtain ⟨-, rfl⟩ := ok_pure.1 h
    exact Extends.refl _ _
  | m :: l, s, s', u, h => by
    simp only [Tx.each, ok_bind] at h
    obtain ⟨_, s1, hfirst, hrest⟩ := h
    have h1 := insertInput_extends hfirst
    have h2 := insertInputs_extends hrest
    refine ⟨h2.units.trans h1.units, fun key i hi => h2.kept key i (h1.kept key i hi), ?_⟩
    intro key i hi hi'
    cases hmid : s1.inputs.lookup key with
    | none => exact h2.new key i hmid hi'
    | some j =>
      have hj := h2.kept key j hmid
      rw [hj] at hi'
      cases hi'
      exact h1.new key _ hi hmid

theorem insertInputs_present :
    ∀ {l : List (InputKey × InputRecord)} {s s' : Store} {u : Unit},
      (∀ m ∈ l, (s.inputs.lookup ⟨unitId, m.1.kind, m.1.inputId⟩).isSome) →
      (Tx.each (insertInput unitId) l).Ok s u s' → s' = s
  | [], s, s', u, _, h => (ok_pure.1 h).2.symm
  | m :: l, s, s', u, hall, h => by
    simp only [Tx.each, ok_bind] at h
    obtain ⟨_, s1, hfirst, hrest⟩ := h
    have hsame : s1 = s := by
      rcases insertInput_ok hfirst with hsame | ⟨row, hnone, -, -⟩
      · exact hsame
      · have hsome := hall m List.mem_cons_self
        rw [hnone] at hsome
        cases hsome
    subst hsame
    exact insertInputs_present (fun m' hm' => hall m' (List.mem_cons_of_mem _ hm')) hrest

/-- A replay of `create_unit` gives inputs that the unit has. -/
def Call.Faithful (c : Call) (s : Store) : Prop :=
  match c with
  | .create _ u inputs _ => ∀ e, s.byIdempotency u.kind u.idempotencyKey = some e →
      ∀ m ∈ inputs, (s.inputs.lookup ⟨e.1, m.1.kind, m.1.inputId⟩).isSome
  | _ => True

theorem createUnit_effect {inputs : List (InputKey × InputRecord)} {now : Time}
    {r : Uuid × UnitRecord} (hf : (Call.create unitId u inputs now).Faithful s)
    (h : (createUnit unitId u inputs now).Ok s r s') : Effect s [] s' := by
  simp only [createUnit, ok_rules, ok_argument] at h
  obtain ⟨_, -, _, -, _, hinputs, _, -, inserted, s1, hinsert, stable, s2, hstable, _, -, _, s3,
    heach, persisted, _, hlist, _, hsame, -, rfl⟩ := h
  obtain ⟨rfl, rfl, hvalidInputs⟩ := listInputs_ok hlist
  rw [onUnits, ok_zoom] at hinsert
  obtain ⟨t, ht, rfl⟩ := hinsert
  simp only [insertUnit, ok_rules, ok_ite] at ht
  obtain ⟨_, rfl, ⟨-, rfl, rfl⟩ | ⟨-, _, hnone, hwrite⟩⟩ := ht
  · -- the unit was there: nothing is inserted
    simp only [stableUnit, ok_rules] at hstable
    obtain ⟨_, rfl, hstable⟩ := hstable
    split at hstable
    · exact absurd hstable ok_raise
    · rename_i e he
      simp only [ok_rules] at hstable
      obtain ⟨_, _, hread, rfl, rfl⟩ := hstable
      obtain ⟨-, rfl, -⟩ := readUnit_ok hread
      obtain rfl := insertInputs_present (hf e he) heach
      exact .idle _
  · obtain ⟨row, hrow, rfl, rfl⟩ := (Sql.write_settles unitId _ s.units).of_ok hwrite
    simp only [stableUnit, ok_rules] at hstable
    obtain ⟨_, _, hread, rfl, rfl⟩ := hstable
    obtain ⟨-, rfl, hvalid⟩ := readUnit_ok hread
    have hextends := insertInputs_extends heach
    refine .create (Option.isNone_iff_eq_none.1 hnone) ⟨u, now, hrow⟩ (by rw [hrow]; exact hvalid)
      hextends.units hextends.kept hextends.new ?_ hvalidInputs
    intro hnil
    cases inputs with
    | nil => cases hinputs
    | cons => simp [hnil, sameMembers] at hsame

end

section
variable {s s' : Store}

theorem candidate_takes (h : s.candidate q locked = some unitId) :
    ∃ row, s.units.lookup unitId = some row ∧ q.takes unitId row.val := by
  rw [Store.candidate, Option.map_eq_some_iff] at h
  obtain ⟨e, he, rfl⟩ := h
  have hmem := List.mem_filter.1 (firstBy_mem he)
  simp only [Bool.and_eq_true] at hmem
  exact ⟨e.2, Keyed.mem_entries.1 hmem.1, hmem.2.1⟩

theorem ClaimRequest.takes_claimable (h : q.takes unitId u) : u.phase.isClaimable := by
  simp only [ClaimRequest.takes, Bool.and_eq_true] at h
  exact h.1.1.2

theorem claimNext_effect {r : Option Claim} (h : (claimNext q locked).Ok s r s') :
    Effect s (claimEvents r) s' := by
  simp only [claimNext, ok_rules, ok_argument, ok_ite] at h
  obtain ⟨_, -, _, -, _, -, _, -, ⟨-, rfl, rfl⟩ | ⟨-, _, rfl, hclaim⟩⟩ := h
  · exact .idle _
  · cases hc : s.candidate q locked with
    | none =>
      rw [hc] at hclaim
      obtain ⟨rfl, rfl⟩ := ok_pure.1 hclaim
      exact .idle _
    | some unitId =>
      rw [hc] at hclaim
      simp only [claimCandidate, ok_bind] at hclaim
      obtain ⟨updated, s1, hupdate, hrest⟩ := hclaim
      rcases (Sql.zoom_update_settles rfl).of_ok hupdate with
    ⟨rfl, rfl, -⟩ | ⟨row, row', hrow, hselects, hw, rfl, rfl⟩
      · obtain ⟨rfl, rfl⟩ := ok_pure.1 hrest
        exact .idle _
      · simp only [claimOf, ok_rules] at hrest
        obtain ⟨_, _, hread, inputs, _, hlist, _, -, rfl, rfl⟩ := hrest
        obtain ⟨rfl, rfl, hvalid⟩ := readUnit_ok hread
        obtain ⟨-, rfl, -⟩ := listInputs_ok hlist
        obtain ⟨row0, hrow0, htakes⟩ := candidate_takes hc
        cases hrow.symm.trans hrow0
        have hstep : UnitStep s unitId row.val
            (claimEvents (some ⟨unitId, row'.val, inputs⟩)) row'.val := by
          rw [claimEvents, hw]
          exact .claim (ClaimRequest.takes_claimable htakes) (by simpa using hselects)
        exact .update hrow hstep hvalid

/-- A call on a claim has the effect of its step on the row that it meets. -/
theorem claimUpdate_effect {events : List Event} (h : (claimUpdate f selects written).Ok s u s')
    (hstep : ∀ u, f.meets u → selects u → UnitStep s f.unitId u events
      { written u with stateRevision := u.stateRevision + 1 }) :
    Effect s events s' ∧ ∃ row, s.units.lookup f.unitId = some row ∧ f.meets row.val := by
  simp only [claimUpdate, ok_bind] at h
  obtain ⟨_, _, hcheck, hupdate⟩ := h
  obtain rfl := Fence.check_ok hcheck
  obtain ⟨row, row', hrow, hmeets, hselects, hw, hvalid, rfl⟩ := fencedUpdate_ok hupdate
  exact ⟨.update hrow (hw ▸ hstep row.val hmeets hselects) hvalid, row, hrow, hmeets⟩

theorem bindOperation_effect {operationId : Uuid} {execution : ℕ} {known : Bool}
    (h : (bindOperation f operationId execution known).Ok s u s') :
    Effect s [.bound f.unitId f.token f.generation operationId execution] s' ∧
      ∃ row, s.units.lookup f.unitId = some row ∧ f.meets row.val := by
  simp only [bindOperation, ok_rules, ok_argument] at h
  obtain ⟨_, -, _, _, hupdate, _, -, -, rfl⟩ := h
  exact claimUpdate_effect hupdate fun u hmeets hselects => .bind hmeets (by simpa using hselects)

theorem renewClaim_effect {expires : Time} (h : (renewClaim f expires observedAt).Ok s u s') :
    Effect s [] s' ∧ ∃ row, s.units.lookup f.unitId = some row ∧ f.meets row.val := by
  simp only [renewClaim, ok_rules, ok_argument] at h
  obtain ⟨_, -, hupdate⟩ := h
  exact claimUpdate_effect hupdate fun _ _ hselects => .renew hselects

theorem failUnit_effect {errorCode : String} {nextAttemptAt : Option Time}
    (h : (failUnit f errorCode observedAt nextAttemptAt).Ok s u s') :
    Effect s [] s' ∧ ∃ row, s.units.lookup f.unitId = some row ∧ f.meets row.val := by
  simp only [failUnit, ok_rules, ok_argument] at h
  obtain ⟨_, -, _, -, hupdate⟩ := h
  exact claimUpdate_effect hupdate fun _ _ hselects => .fail hselects

theorem completeUnit_effect {outputGeneration : Uuid} {path digest : String} {completedAt : Time}
    (h : (completeUnit f outputGeneration path digest completedAt).Ok s u s') :
    Effect s [] s' ∧ ∃ row, s.units.lookup f.unitId = some row ∧ f.meets row.val := by
  simp only [completeUnit, ok_rules, ok_argument] at h
  obtain ⟨_, -, _, -, _, -, _, _, hcheck, _, rfl, hupdate⟩ := h
  obtain rfl := Fence.check_ok hcheck
  obtain ⟨row, row', hrow, hmeets, hselects, hw, hvalid, rfl⟩ := fencedUpdate_ok hupdate
  simp only [bool_to_prop] at hselects
  refine ⟨.update hrow ?_ hvalid, row, hrow, hmeets⟩
  rw [hw]
  exact .complete hselects.1.1 hselects.2

theorem completeInput_effect {f : InputFence} {completedAt : Time} {i : InputRecord}
    (h : (completeInput f completedAt).Ok s i s') :
    Effect s [] s' ∧ ∃ row, s.units.lookup f.key.unitId = some row ∧ f.meets row.val := by
  simp only [completeInput, ok_rules, ok_argument] at h
  obtain ⟨_, -, _, -, _, -, _, -, _, -, _, -, _, rfl, updated, s1, hupdate, hrest⟩ := h
  rcases (Sql.zoom_update_settles rfl).of_ok hupdate with
    ⟨rfl, rfl, -⟩ | ⟨row, row', hrow, hselects, hw, rfl, rfl⟩
  · exact absurd hrest ok_raise
  · simp only [ok_rules, ok_argument] at hrest
    obtain ⟨_, hvalid, -, rfl⟩ := hrest
    simp only [Bool.and_eq_true, Bool.not_eq_true'] at hselects
    cases hunit : s.units.lookup f.key.unitId with
    | none =>
      rw [hunit] at hselects
      cases hselects.2
    | some unit =>
      rw [hunit] at hselects
      have hmeets : f.meets unit.val := by simpa using hselects.2
      refine ⟨.completeInput hrow ⟨hselects.1, by rw [hw], by rw [hw], unit, f, hunit, hmeets,
        by rw [hw], by rw [hw]⟩ hvalid, unit, rfl, hmeets⟩

theorem recoverUnit_effect {r : Option UnitRecord} (h : (recoverUnit observedAt unitId).Ok s r s') :
    Effect s [] s' := by
  simp only [recoverUnit, ok_bind] at h
  obtain ⟨updated, s1, hupdate, hrest⟩ := h
  rcases (Sql.zoom_update_settles rfl).of_ok hupdate with
    ⟨rfl, rfl, -⟩ | ⟨row, row', hrow, hselects, hw, rfl, rfl⟩
  · obtain ⟨-, rfl⟩ := ok_pure.1 hrest
    exact .idle _
  · obtain ⟨_, hread, -⟩ := ok_map.1 hrest
    obtain ⟨-, rfl, hvalid⟩ := readUnit_ok hread
    simp only [UnitRecord.isExpired, Bool.and_eq_true] at hselects
    refine .update hrow ?_ hvalid
    rw [hw]
    exact .fail hselects.1

theorem recoverUnits_effects :
    ∀ {l : List Uuid} {s s' : Store} {r : List (Option UnitRecord)},
      (Tx.collect (recoverUnit observedAt) l).Ok s r s' → Effects s [] s'
  | [], s, s', r, h => by
    obtain ⟨-, rfl⟩ := ok_pure.1 h
    exact .nil s
  | unitId :: l, s, s', r, h => by
    simp only [Tx.collect, ok_rules] at h
    obtain ⟨_, s1, hfirst, _, _, hrest, -, rfl⟩ := h
    exact .cons (recoverUnit_effect hfirst) (recoverUnits_effects hrest)

theorem exec_effects {c : Call} {l : List Event} (hf : c.Faithful s) (h : c.exec.Ok s l s') :
    Effects s l s' := by
  cases c with
  | create =>
    obtain ⟨_, hcall, rfl⟩ := ok_return.1 h
    exact (createUnit_effect hf hcall).effects
  | claimNext =>
    obtain ⟨_, hcall, rfl⟩ := ok_return.1 h
    exact (claimNext_effect hcall).effects
  | bind =>
    obtain ⟨_, hcall, rfl⟩ := ok_return.1 h
    exact (bindOperation_effect hcall).1.effects
  | renew =>
    obtain ⟨_, hcall, rfl⟩ := ok_return.1 h
    exact (renewClaim_effect hcall).1.effects
  | completeInput =>
    obtain ⟨_, hcall, rfl⟩ := ok_return.1 h
    exact (completeInput_effect hcall).1.effects
  | complete =>
    obtain ⟨_, hcall, rfl⟩ := ok_return.1 h
    exact (completeUnit_effect hcall).1.effects
  | fail =>
    obtain ⟨_, hcall, rfl⟩ := ok_return.1 h
    exact (failUnit_effect hcall).1.effects
  | recover =>
    simp only [Call.exec, recoverExpired, ok_rules, ok_argument] at h
    obtain ⟨_, _, ⟨_, -, _, rfl, hcall⟩, rfl, rfl⟩ := h
    exact recoverUnits_effects hcall

theorem step_effects {c : Call} {s : State} (hf : c.Faithful s.store) :
    ∃ l, Effects s.store l (step c s).store ∧ (step c s).log = s.log ++ l := by
  rcases h : c.exec s.store with ⟨e | l, s1⟩
  · refine ⟨[], ?_, ?_⟩
    · rw [step, Tx.commit, h]
      exact .nil _
    · rw [step, Tx.reply, h]
      rfl
  · refine ⟨l, ?_, ?_⟩
    · rw [step, Tx.commit, h]
      exact exec_effects hf h
    · rw [step, Tx.reply, h]
      rfl

end

end AstralPlane.Maintenance
