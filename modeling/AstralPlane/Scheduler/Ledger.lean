/-
  The effect ledger.

  An effect has one row under its key, whatever attempts reserve it, fail, take it
  over and publish it.  `LedgerStep` is what a call does to the ledger: payload
  digests stay, a published row stays published with its receipt, and a row is
  published by the attempt that holds its reservation, under a live claim.
-/
import AstralPlane.Scheduler.Occurrences

namespace AstralPlane.Scheduler

open Tx

variable {e : EffectAttempt} {s s' : Store} {m : Method}
  {clock : Clock} {k : EffectKey} {recoverReserved : Bool}

/-! ## Publications -/

/-- The attempt that a call publishes an effect for, and when it checks the claim. -/
def Method.publishing : Method → Option (EffectAttempt × Time)
  | .publishReservedEffect e _ clock => some (e, clock 0)
  | .publishStagedChatEffect claim operationId generation effectKey payloadDigest _ clock =>
    some (⟨claim, operationId, generation, "chat_history", effectKey, payloadDigest⟩, clock 2)
  | _ => none

/-- The attempt runs its occurrence, under a claim that is current and whose lease has not run out. -/
def Store.isLive (s : Store) (e : EffectAttempt) (now : Time) : Bool :=
  (s.occurrences.lookup e.claim.occurrenceId).any fun o =>
    o.ownerUserId = e.claim.ownerId && o.heldBy e.claim [.running] now &&
      o.currentOperationId = some e.operationId &&
      o.operationExecutionGeneration = some e.operationExecutionGeneration

/-- The call publishes the effect, whose reservation its attempt holds. -/
def Method.Publishes (m : Method) (s : Store) (k : EffectKey) (r : EffectColumns) : Prop :=
  ∃ e now, m.publishing = some (e, now) ∧ e.key = k ∧ r.state = .reserved ∧ r.attempt = e.attempt ∧
    s.isLive e now

/-! ## Steps of the ledger -/

/-- The row is the same effect later: with its payload, and as it was published if it was. -/
structure EffectColumns.Later (r r' : EffectColumns) : Prop where
  digest : r'.payloadDigest = r.payloadDigest
  published : r.state = .published → r'.state = .published ∧
    r'.downstreamReceiptDigest = r.downstreamReceiptDigest ∧ r'.publishedAt = r.publishedAt

theorem EffectColumns.later_refl (r : EffectColumns) : r.Later r := ⟨rfl, fun h => ⟨h, rfl, rfl⟩⟩

theorem EffectColumns.Later.trans {r r1 r2 : EffectColumns} (h : r.Later r1) (h' : r1.Later r2) :
    r.Later r2 := by
  refine ⟨h'.digest.trans h.digest, fun hr => ?_⟩
  obtain ⟨hstate, hreceipt, hat⟩ := h.published hr
  obtain ⟨hstate', hreceipt', hat'⟩ := h'.published hstate
  exact ⟨hstate', hreceipt'.trans hreceipt, hat'.trans hat⟩

structure LedgerStep (m : Method) (s s' : Store) : Prop where
  rows : ∀ k r, s.effects.lookup k = some r →
    ∃ r', s'.effects.lookup k = some r' ∧ r.Later r'.toEffectColumns
  publishes : ∀ k r', s'.effects.lookup k = some r' → r'.state = .published →
    ∃ r, s.effects.lookup k = some r ∧ (r.state = .published ∨ m.Publishes s k r.toEffectColumns)

theorem LedgerStep.of_same (h : s'.effects = s.effects) :
    LedgerStep m s s' where
  rows k r hr := ⟨r, by rw [h, hr], r.later_refl⟩
  publishes k r' hr' hstate := ⟨r', by rw [← h, hr'], .inl hstate⟩

instance (m : Method) : Std.Refl (LedgerStep m) := ⟨fun _ => .of_same rfl⟩

@[simp] theorem ledgerStep_refl : LedgerStep m s s := .of_same rfl

theorem LedgerStep.write {r' : EffectRow} (heffects : s'.effects = s.effects.insert k r')
    (hlater : ∀ r, s.effects.lookup k = some r → r.Later r'.toEffectColumns)
    (hpublished : r'.state = .published → ∃ r, s.effects.lookup k = some r ∧
      (r.state = .published ∨ m.Publishes s k r.toEffectColumns)) :
    LedgerStep m s s' where
  rows k' r hr := by
    rw [heffects, Keyed.lookup_write]
    split
    · subst_vars
      exact ⟨r', rfl, hlater r hr⟩
    · exact ⟨r, hr, r.later_refl⟩
  publishes k' a ha hstate := by
    rw [heffects] at ha
    rcases Keyed.write_cases ha with ⟨rfl, rfl⟩ | ⟨-, ha⟩
    · exact hpublished hstate
    · exact ⟨a, ha, .inl hstate⟩

/-! ## Statements -/

theorem updateEffectSql_step {selects : EffectColumns → Bool}
    {written : EffectColumns → EffectColumns} (hlater : ∀ r, selects r → r.Later (written r))
    (hpublished : ∀ r : EffectRow, s.effects.lookup k = some r → selects r.toEffectColumns →
      (written r.toEffectColumns).state = .published → m.Publishes s k r.toEffectColumns) :
    (updateEffectSql k selects written).Leaves s (LedgerStep m s) := by
  refine (updateSql_cases k selects written s).leaves ?_
  rintro _ _ (⟨rfl, -⟩ | ⟨rfl, -⟩ | ⟨r, _, _, rfl, hr, hselects, -, rfl⟩)
  · simp
  · simp
  · refine LedgerStep.write rfl (fun a ha => ?_) fun hstate =>
      ⟨r, hr, .inr (hpublished r hr hselects hstate)⟩
    cases hr.symm.trans ha
    exact hlater _ hselects

/-- A row that is not published may become anything but another payload. -/
theorem EffectColumns.later_of_unpublished {r r' : EffectColumns} (hr : r.state ≠ .published)
    (hdigest : r'.payloadDigest = r.payloadDigest) : r.Later r' :=
  ⟨hdigest, fun h => absurd h hr⟩

/-! ## Methods -/

theorem publishReservedEffect_step {receipt : Option String} (hm : m.publishing = some (e, clock 0)) :
    (publishReservedEffect e receipt clock).Moves (LedgerStep m) := by
  intro s
  refine leaves_readOnly_bind validateEffectAttempt_readOnly ledgerStep_refl fun _ hvalid =>
    leaves_readOnly_bind (check_readOnly _) ledgerStep_refl fun _ _ => leaves_get_bind ?_
  split
  · simp
  · refine leaves_require_bind ledgerStep_refl fun _ => ?_
    split
    · simp
    · refine leaves_require_bind ledgerStep_refl fun _ => Leaves.bind_readOnly
        (updateEffectSql_step (fun r hselects => ?_) fun r _ hselects _ => ?_) fun _ =>
          readOnly_bind (readOnly_require _ _) fun _ => readOnly_pure _
      · simp only [EffectColumns.ownedBy, bool_to_prop] at hselects
        exact EffectColumns.later_of_unpublished (by simp [hselects.1.2]) rfl
      · simp only [EffectColumns.ownedBy, bool_to_prop] at hselects
        obtain ⟨-, hassert, hoperation, hgeneration⟩ := validateEffectAttempt_ok hvalid
        obtain ⟨-, hlookup, howner, hheld⟩ := assertCurrentClaim_ok hassert
        refine ⟨e, clock 0, hm, rfl, hselects.1.2, hselects.2, ?_⟩
        simp [Store.isLive, hlookup, howner, hheld, hoperation, hgeneration]

theorem LedgerStep.congr {s1 s2 : Store} (h : LedgerStep m s1 s2)
    (heffects : s1.effects = s.effects) (hoccurrences : s1.occurrences = s.occurrences) :
    LedgerStep m s s2 where
  rows k r hr := h.rows k r (by rw [heffects, hr])
  publishes k r' hr' hstate := by
    obtain ⟨r, hr, hpublished⟩ := h.publishes k r' hr' hstate
    refine ⟨r, by rw [← heffects, hr], ?_⟩
    simpa only [Method.Publishes, Store.isLive, hoccurrences] using hpublished

theorem exec_ledgerStep (m : Method) : (exec m).Moves (LedgerStep m) := by
  by_cases htables : Table.effects ∈ m.tables
  swap
  · exact (exec_evolves m).imp fun _ _ h => .of_same (h.touches .effects htables)
  cases m
  case environment change =>
    cases change with
    | operationPurged operationId =>
      intro s
      show LedgerStep _ s ((Environment.operationPurged operationId).apply s)
      refine ⟨fun k r hr => ?_, fun k r' hr' hstate => ?_⟩
      · exact ⟨r.detach operationId, by simp [Environment.apply, hr], rfl, fun h => ⟨h, rfl, rfl⟩⟩
      · simp only [Environment.apply, Keyed.lookup_mapRows, Option.map_eq_some_iff] at hr'
        obtain ⟨r, hr, rfl⟩ := hr'
        exact ⟨r, hr, .inl hstate⟩
    | _ => simp [Method.tables] at htables
  all_goals refine Moves.returning ?_
  case publishReservedEffect => exact publishReservedEffect_step rfl
  all_goals intro s
  case reserveEffect =>
    refine leaves_readOnly_bind validateEffectAttempt_readOnly ledgerStep_refl fun _ _ =>
      leaves_get_bind ?_
    split
    · rename_i hnone
      refine leaves_require_bind ledgerStep_refl fun _ => leaves_set_bind.2
        (LedgerStep.write rfl (fun r hr => ?_) fun hstate => ?_)
      · cases hnone.symm.trans hr
      · cases hstate
    · refine leaves_require_bind ledgerStep_refl fun _ => ?_
      split
      · refine Leaves.bind_readOnly (updateEffectSql_step (fun r hselects => ?_) ?_) fun _ =>
          readOnly_bind (readOnly_require _ _) fun _ => readOnly_pure _
        · refine EffectColumns.later_of_unpublished (fun hr => ?_) rfl
          simp [hr] at hselects
        · intro r _ _ hstate
          cases hstate
      · simp
  case failReservedEffect =>
    refine leaves_readOnly_bind validateEffectAttempt_readOnly ledgerStep_refl fun _ _ =>
      leaves_readOnly_bind (check_readOnly _) ledgerStep_refl fun _ _ => Leaves.bind_readOnly
        (updateEffectSql_step (fun r hselects => ?_) fun r _ _ hstate => ?_) fun _ =>
          readOnly_bind (readOnly_require _ _) fun _ => readOnly_pure _
    · simp only [EffectColumns.ownedBy, bool_to_prop] at hselects
      exact EffectColumns.later_of_unpublished (by simp [hselects.1.2]) rfl
    · cases hstate
  case publishStagedChatEffect =>
    refine leaves_readOnly_bind (readOnly_ofExcept _) ledgerStep_refl fun _ _ =>
      leaves_readOnly_bind validateEffectAttempt_readOnly ledgerStep_refl fun _ _ =>
        leaves_get_bind ?_
    split
    · simp
    · refine leaves_require_bind ledgerStep_refl fun _ => ?_
      split
      · simp
      · refine leaves_require_bind ledgerStep_refl fun _ =>
          Leaves.bind (onConversations_touches s) (fun s1 h1 => ?_) fun _ s1 h1 => ?_
        · exact .of_same (h1 .effects (by simp))
        · exact LedgerStep.congr (publishReservedEffect_step rfl s1) (h1 .effects (by simp))
            (h1 .occurrences (by simp)).1
  all_goals simp [Method.tables] at htables

theorem Store.step_ledger (call : Call) (s : Store) : LedgerStep call.method s (s.step call) :=
  Store.step_moves (exec_ledgerStep call.method) s

theorem Store.run_later (calls : List Call) {r : EffectRow} (hr : s.effects.lookup k = some r) :
    ∃ r', (s.run calls).effects.lookup k = some r' ∧ r.Later r'.toEffectColumns := by
  refine @run_keeps _ _ Store.step (fun s => ∃ r', s.effects.lookup k = some r' ∧
    r.Later r'.toEffectColumns) ?_ calls s ⟨r, hr, r.later_refl⟩
  rintro call s ⟨r1, hr1, hlater⟩
  obtain ⟨r2, hr2, hlater'⟩ := (Store.step_ledger call s).rows k r1 hr1
  exact ⟨r2, hr2, hlater.trans hlater'⟩

/-! ## What a reservation reports -/

/-- The reservation is in another attempt's hands. -/
def Store.heldElsewhere (s : Store) (e : EffectAttempt) : Bool :=
  (s.effects.lookup e.key).any fun r => r.state = .reserved && r.attempt ≠ e.attempt

theorem reserveEffect_ok {o : EffectReservationOutcome}
    (h : (reserveEffectForAttempt e recoverReserved clock).Ok s o s') :
    (o.ambiguous → s.heldElsewhere e ∧ s = s') ∧ (s'.heldElsewhere e → o.ambiguous) := by
  simp only [reserveEffectForAttempt, ok_rules] at h
  obtain ⟨_, _, hvalid, _, rfl, h⟩ := h
  obtain rfl := validateEffectAttempt_readOnly.ok hvalid
  rcases hr : s.effects.lookup e.key with _ | r <;> rw [hr] at h
  · -- the effect is new
    simp only [ok_rules] at h
    obtain ⟨_, -, _, _, rfl, rfl, rfl⟩ := h
    simp [Store.heldElsewhere, hr, EffectRow.reserve]
  · simp only [ok_rules, ok_ite] at h
    obtain ⟨_, -, ⟨hcond, updated, _, hupdate, _, hsome, rfl, rfl⟩ | ⟨hcond, rfl, rfl⟩⟩ := h
    · -- the effect failed, or its reservation is taken over
      rcases (updateSql_cases _ _ _ s).of_ok hupdate with
        ⟨-, hreply, -⟩ | ⟨-, _, hreply, -⟩ | ⟨_, _, _, rfl, -, -, -, rfl⟩
      · cases hreply
        cases hsome
      · cases hreply
      · simp [Store.heldElsewhere, AList.lookup_insert]
    · -- nothing is written
      simp [Store.heldElsewhere, hr]

/-- **The effect ledger is exactly-once under a key.** -/
theorem effect_ledger_exactly_once (calls : List Call) :
    -- a key has one row
    (Store.empty.run calls).effects.keys.Nodup ∧
    -- whose payload stays, and which stays published with its receipt
    (∀ k r, (Store.empty.run calls).effects.lookup k = some r → ∀ later,
      ∃ r', ((Store.empty.run calls).run later).effects.lookup k = some r' ∧
        r'.payloadDigest = r.payloadDigest ∧
        (r.state = .published → r'.state = .published ∧
          r'.downstreamReceiptDigest = r.downstreamReceiptDigest)) ∧
    -- it is published by the attempt that holds the reservation, under a live claim
    (∀ call k r', ((Store.empty.run calls).step call).effects.lookup k = some r' →
      r'.state = .published → ∃ r, (Store.empty.run calls).effects.lookup k = some r ∧
        (r.state = .published ∨
          call.method.Publishes (Store.empty.run calls) k r.toEffectColumns)) ∧
    -- a reservation is ambiguous where another attempt has it and keeps it
    (∀ e recoverReserved clock kept outcome,
      (Store.empty.run calls).reply ⟨.reserveEffect e recoverReserved clock, kept⟩ =
        .ok (.effect outcome) →
      (outcome.ambiguous = true ↔ ∃ r, (Store.empty.run calls).effects.lookup e.key = some r ∧
        r.state = .reserved ∧ r.attempt ≠ e.attempt ∧
        ((Store.empty.run calls).step ⟨.reserveEffect e recoverReserved clock, kept⟩).effects.lookup
          e.key = some r)) := by
  generalize Store.empty.run calls = s
  refine ⟨s.effects.nodupKeys, ?_, ?_, ?_⟩
  · intro k r hr later
    obtain ⟨r', hr', hlater⟩ := Store.run_later later hr
    exact ⟨r', hr', hlater.digest, fun h => ⟨(hlater.published h).1, (hlater.published h).2.1⟩⟩
  · intro call k r' hr' hstate
    exact (Store.step_ledger call s).publishes k r' hr' hstate
  · intro e recoverReserved clock kept outcome hreply
    obtain ⟨o, s', hreserve, hpure⟩ := ok_bind.1 (Store.ok_of_reply hreply)
    obtain ⟨houtcome, rfl⟩ := ok_pure.1 hpure
    cases houtcome
    obtain ⟨hambiguous, hheld⟩ := reserveEffect_ok hreserve
    constructor
    · intro h
      obtain ⟨hbefore, hsame⟩ := hambiguous h
      simp only [Store.heldElsewhere, Option.any_eq_true, bool_to_prop] at hbefore
      obtain ⟨r, hr, hstate, hattempt⟩ := hbefore
      exact ⟨r, hr, hstate, hattempt, by rw [← hsame, hr]⟩
    · rintro ⟨r, -, hstate, hattempt, hafter⟩
      exact hheld (by simp [Store.heldElsewhere, hafter, hstate, hattempt])

end AstralPlane.Scheduler
