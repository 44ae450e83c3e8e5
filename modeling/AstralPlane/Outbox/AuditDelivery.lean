/-
  The retry schedule of audit delivery (`audit_delivery.py`).

  A delivery that the sink refuses gives its claim up with `_settle_failure`:
  the entry gets another attempt after a delay that doubles with every claim,
  or is moved to the dead letters.

  * `timedelta`, `datetime`: the arithmetic of Python, which raises on a result
    out of its range;
  * `Policy` are the arguments of the constructor, `Policy.delay` is the delay
    that is meant, `retryTime_eq` that it is the one that is computed;
  * `retry_schedule`: what a refused delivery does, in every state that calls
    of the outbox and refused deliveries lead to.
-/
import AstralPlane.Outbox.Delivery
import AstralPlane.Python.Datetime

namespace AstralPlane.AuditDelivery

open Tx Outbox Python

/-! ## Model -/

/-- What a delivery raises: an error of the outbox or of its own, or an `OverflowError`. -/
inductive Exc
  | fault (fault : Fault)
  | overflow
  deriving DecidableEq

/-- `timedelta.max`; a `timedelta` has at least minus 999999999 days. -/
def timedeltaMax : Time := 1000000000 * (86400 * second) - 1

/-- A duration that is the result of an operation. -/
def timedelta (value : Time) : Except Exc Time := do
  ensure (-(999999999 * (86400 * second)) ≤ value ∧ value ≤ timedeltaMax) .overflow
  pure value

/-- A point in time that is the result of an operation. -/
def datetime (value : Time) : Except Exc Time := do
  ensure (isDatetime value) .overflow
  pure value

/-- `datetime.max`. -/
def datetimeMax : Time := 2932897 * (86400 * second) - 1

/-- The arguments that the constructor of `AuditOutboxDelivery` accepts. -/
structure Policy where
  maxAttempts : ℕ
  baseRetryDelay : Time
  maxRetryDelay : Time
  attempts_pos : 1 ≤ maxAttempts
  base_pos : 0 < baseRetryDelay
  base_le : baseRetryDelay ≤ maxRetryDelay
  max_le : maxRetryDelay ≤ timedeltaMax

inductive AuditDeliveryState
  | noWork
  | delivered
  | retryScheduled
  | deadLettered
  deriving DecidableEq

structure AuditDeliveryResult where
  state : AuditDeliveryState
  entryId : Option String
  attempt : Option ℕ
  retryAvailableAt : Option Time
  errorCode : Option String
  deriving DecidableEq

def errorCode : String := "audit_sink_unavailable"

def outOfRange (claim : ClaimedOutboxEntry) : Exc :=
  .fault (.plane "audit retry time exceeds the supported datetime range" "audit_retry_out_of_range"
    [("entry_id", claim.entry.entryId)])

/-- The computation of `retry_delay`. -/
def Policy.retryDelay (p : Policy) (attempt : ℕ) : Except Exc Time := do
  let multiplier : ℤ := 2 ^ min (attempt - 1) 30
  let share ← timedelta (p.maxRetryDelay / multiplier)
  if share < p.baseRetryDelay then pure p.maxRetryDelay
  else timedelta (p.baseRetryDelay * multiplier)

/-- The computation of `retry_available_at`. -/
def Policy.retryTime (p : Policy) (claim : ClaimedOutboxEntry) (now : Time) : Except Exc Time := do
  let retryDelay ← p.retryDelay claim.attempt
  let rest ← timedelta (datetimeMax - now)
  ensure (retryDelay ≤ rest) (outOfRange claim)
  datetime (now + retryDelay)

/-- A call of the outbox, with `_require_applied`. -/
def applied (claim : ClaimedOutboxEntry) (operation : String) (call : Work ℕ) : Tx Table Exc Unit := do
  let rowcount ← zoom id (fun rows _ => rows) .fault call
  require (rowcount = 1)
    (.fault (.plane "audit delivery state transition was not durably applied"
      "audit_delivery_fence_conflict"
      [("entry_id", claim.entry.entryId), ("operation", operation)]))

def Policy.settleFailure (p : Policy) (claim : ClaimedOutboxEntry) (now : Time) :
    Tx Table Exc AuditDeliveryResult := do
  if p.maxAttempts ≤ claim.attempt then
    applied claim "dead-letter"
      (deadLetter claim.entry.entryId claim.workerId claim.expectedVersion errorCode now)
    pure ⟨.deadLettered, some claim.entry.entryId, some claim.attempt, none, some errorCode⟩
  else
    let retryAvailableAt ← ofExcept (p.retryTime claim now)
    applied claim "retry" (retry claim.entry.entryId claim.workerId claim.expectedVersion
      retryAvailableAt errorCode now)
    pure ⟨.retryScheduled, some claim.entry.entryId, some claim.attempt, some retryAvailableAt,
      some errorCode⟩

/-- What happens to the outbox: a call, or a delivery that the sink refuses. -/
inductive Happening
  | call (call : Call)
  | refused (claim : ClaimedOutboxEntry) (now : Time)

def Policy.step (p : Policy) (sha256 : List UInt8 → String) : Happening → State → State
  | .call call, o => o.step sha256 call
  | .refused claim now, o =>
    { table := (p.settleFailure claim now).commit o.table
      log := o.log ++ (((p.settleFailure claim now).reply o.table).toOption.map fun _ =>
        .settled claim.entry.entryId claim.workerId claim.expectedVersion).toList }

/-! ## The delay -/

variable {p : Policy} {c : ClaimedOutboxEntry} {now : Time} {o : State}

/-- The delay after the `n`-th claim. -/
def Policy.delay (p : Policy) (n : ℕ) : Time :=
  min p.maxRetryDelay (p.baseRetryDelay * 2 ^ min (n - 1) 30)

theorem Policy.delay_mono (p : Policy) {m n : ℕ} (h : m ≤ n) : p.delay m ≤ p.delay n := by
  have hpow : (2 : ℤ) ^ min (m - 1) 30 ≤ 2 ^ min (n - 1) 30 :=
    pow_le_pow_right₀ (by decide) (by omega)
  exact min_le_min_left _ (mul_le_mul_of_nonneg_left hpow p.base_pos.le)

theorem timedelta_of {value : Time} (h0 : 0 ≤ value) (h1 : value ≤ timedeltaMax) :
    timedelta value = .ok value := by
  have hmin : -(999999999 * (86400 * second)) ≤ (0 : Time) := by decide
  rw [timedelta, decide_eq_true (And.intro (hmin.trans h0) h1)]
  rfl

theorem isDatetime_iff {t : Time} : isDatetime t ↔ -62135596800000000 ≤ t ∧ t ≤ datetimeMax := by
  have h : ∀ n : ℤ, (-719162 ≤ n / 86400000000 ∧ n / 86400000000 ≤ 2932896) ↔
      (-62135596800000000 ≤ n ∧ n ≤ 253402300799999999) := by
    omega
  rw [isDatetime, Bool.and_eq_true, decide_eq_true_iff, decide_eq_true_iff]
  exact h t

theorem Policy.retryDelay_eq (p : Policy) (n : ℕ) : p.retryDelay n = .ok (p.delay n) := by
  have hm : (0 : ℤ) < 2 ^ min (n - 1) 30 := by positivity
  rw [Policy.retryDelay, Policy.delay]
  generalize (2 : ℤ) ^ min (n - 1) 30 = m at hm ⊢
  have hmax : 0 ≤ p.maxRetryDelay := p.base_pos.le.trans p.base_le
  have hshare : timedelta (p.maxRetryDelay / m) = .ok (p.maxRetryDelay / m) :=
    timedelta_of (Int.ediv_nonneg hmax hm.le) ((Int.ediv_le_self m hmax).trans p.max_le)
  rw [hshare]
  show (if p.maxRetryDelay / m < p.baseRetryDelay then _ else _) = _
  by_cases h : p.maxRetryDelay < p.baseRetryDelay * m
  · rw [if_pos ((Int.ediv_lt_iff_lt_mul hm).2 h), min_eq_left h.le]
    rfl
  · have hle := not_lt.1 h
    rw [if_neg (mt (Int.ediv_lt_iff_lt_mul hm).1 h), min_eq_right hle]
    exact timedelta_of (mul_pos p.base_pos hm).le (hle.trans p.max_le)

/-- **The delay is the one that is meant, and no step overflows.** -/
theorem Policy.retryTime_eq (p : Policy) (c : ClaimedOutboxEntry) (hnow : isDatetime now) :
    p.retryTime c now = if now + p.delay c.attempt ≤ datetimeMax then .ok (now + p.delay c.attempt)
      else .error (outOfRange c) := by
  obtain ⟨h0, h1⟩ := isDatetime_iff.1 hnow
  have hrest : timedelta (datetimeMax - now) = .ok (datetimeMax - now) :=
    timedelta_of (sub_nonneg.2 h1) ((sub_le_sub_left h0 _).trans (by decide))
  rw [Policy.retryTime, p.retryDelay_eq, hrest]
  show (do ensure (p.delay c.attempt ≤ datetimeMax - now) (outOfRange c); datetime _) = _
  by_cases h : now + p.delay c.attempt ≤ datetimeMax
  · have hpos : 0 < p.delay c.attempt :=
      lt_min (p.base_pos.trans_le p.base_le) (mul_pos p.base_pos (by positivity))
    have hdt : isDatetime (now + p.delay c.attempt) :=
      isDatetime_iff.2 ⟨h0.trans (le_add_of_nonneg_right hpos.le), h⟩
    rw [if_pos h, decide_eq_true (le_sub_iff_add_le'.2 h), datetime, hdt]
    rfl
  · rw [if_neg h, decide_eq_false (mt le_sub_iff_add_le'.1 h)]
    rfl

/-! ## The schedule -/

/-- What a refused delivery settles its claim with. -/
def Policy.outcome (p : Policy) (c : ClaimedOutboxEntry) (now : Time) : Outcome :=
  if p.maxAttempts ≤ c.attempt then .deadLetter errorCode
  else .retry (now + p.delay c.attempt) errorCode

def Policy.result (p : Policy) (c : ClaimedOutboxEntry) (now : Time) : AuditDeliveryResult :=
  if p.maxAttempts ≤ c.attempt then
    ⟨.deadLettered, some c.entry.entryId, some c.attempt, none, some errorCode⟩
  else ⟨.retryScheduled, some c.entry.entryId, some c.attempt,
    some (now + p.delay c.attempt), some errorCode⟩

/-- The retry time, if there is to be a retry, is a `datetime`. -/
def Policy.InRange (p : Policy) (c : ClaimedOutboxEntry) (now : Time) : Prop :=
  c.attempt < p.maxAttempts → now + p.delay c.attempt ≤ datetimeMax

/-- What a refused delivery does while its claim holds the row `r`. -/
def Policy.Refuses (p : Policy) (c : ClaimedOutboxEntry) (now : Time) (rows : Table)
    (r : OutboxRow) : Prop :=
  (p.InRange c now → p.settleFailure c now rows =
    if r.version < maxBigint then
      (.ok (p.result c now), updateWhere (· = r) (·.settle (p.outcome c now)) rows)
    else (.error (.fault (.database "22003")), rows)) ∧
  (¬ p.InRange c now → p.settleFailure c now rows = (.error (outOfRange c), rows))

variable {rows rows' : Table} {r : OutboxRow} {result : AuditDeliveryResult} {outcome : Outcome}
  {sha256 : List UInt8 → String}

/-- A settlement whose error is that of the sink, by a claim that holds its row. -/
theorem applied_held (operation : String) (hk : Outbox.Keyed rows) (hr : r ∈ rows) (hc : c.Fenced)
    (hh : r.heldBy c.entry.entryId c.workerId c.expectedVersion now)
    (ho : outcome.errorCode = some errorCode) (result : AuditDeliveryResult) :
    (do applied c operation
          (settle outcome operation c.entry.entryId c.workerId c.expectedVersion now)
        pure result : Tx Table Exc AuditDeliveryResult) rows =
      if r.version < maxBigint then (.ok result, updateWhere (· = r) (·.settle outcome) rows)
      else (.error (.fault (.database "22003")), rows) := by
  have hs := settle_held operation hk hr hc hh fun code hcode => by
    cases ho.symm.trans hcode
    decide
  by_cases h : r.version < maxBigint
  · rw [if_pos h] at hs ⊢
    have happ : (applied c operation (settle outcome operation c.entry.entryId c.workerId
        c.expectedVersion now)).Ok rows () _ :=
      ok_bind.2 ⟨1, _, ok_zoom.2 ⟨_, hs, rfl⟩, ok_require.2 ⟨rfl, rfl⟩⟩
    exact bind_of_ok happ
  · rw [if_neg h] at hs ⊢
    refine bind_of_error (bind_of_error ?_)
    rw [zoom, id, hs]

theorem Policy.settleFailure_held (p : Policy) (hk : Outbox.Keyed rows) (hr : r ∈ rows) (hc : c.Fenced)
    (hh : r.heldBy c.entry.entryId c.workerId c.expectedVersion now)
    (hnow : isDatetime now) : p.Refuses c now rows r := by
  rw [Policy.Refuses, Policy.settleFailure, Policy.result, Policy.outcome, Policy.InRange]
  by_cases ha : p.maxAttempts ≤ c.attempt
  · rw [if_pos ha, if_pos ha, if_pos ha]
    exact ⟨fun _ => applied_held _ hk hr hc hh rfl _, fun h => absurd ha (fun _ => h (by omega))⟩
  · rw [if_neg ha, if_neg ha, if_neg ha]
    have htime := p.retryTime_eq c hnow
    refine ⟨fun h => ?_, fun h => ?_⟩
    · rw [if_pos (h (by omega))] at htime
      rw [bind_of_ok (ok_ofExcept.2 ⟨htime, rfl⟩)]
      exact applied_held _ hk hr hc hh rfl _
    · rw [if_neg (by tauto)] at htime
      exact bind_of_error (congrArg (·, rows) htime)

theorem Policy.settleFailure_ok (sha256 : List UInt8 → String)
    (h : (p.settleFailure c now).Ok rows result rows') : ∃ call : Call,
      call.settlement = some (c.entry.entryId, c.workerId, (c.expectedVersion : ℤ), now) ∧
      (exec sha256 call).Ok rows [.settled c.entry.entryId c.workerId c.expectedVersion] rows' := by
  simp only [Policy.settleFailure, applied, ok_ite, ok_bind, ok_zoom, ok_require, ok_pure,
    ok_ofExcept] at h
  obtain ⟨-, _, _, ⟨n, _, ⟨_, hcall, rfl⟩, -, rfl⟩, -, rfl⟩ |
    ⟨-, at_, _, ⟨-, rfl⟩, _, _, ⟨n, _, ⟨_, hcall, rfl⟩, -, rfl⟩, -, rfl⟩ := h
  · exact ⟨.deadLetter c.entry.entryId c.workerId c.expectedVersion errorCode now, rfl,
      ok_return.2 ⟨n, hcall, rfl⟩⟩
  · exact ⟨.retry c.entry.entryId c.workerId c.expectedVersion at_ errorCode now, rfl,
      ok_return.2 ⟨n, hcall, rfl⟩⟩

/-- **The retry schedule**: a delivery that is refused while its claim holds its row moves the entry
    to the dead letters if the claim is the last one allowed, and otherwise makes it available again
    after the delay; only a value out of range makes it raise. -/
theorem retry_schedule (p : Policy) (sha256 : List UInt8 → String) (history : List Happening)
    (c : ClaimedOutboxEntry) (now : Time)
    (hc : .claimed c ∈ (run (p.step sha256) history ⟨[], []⟩).log) (hnow : isDatetime now = true) :
    let o := run (p.step sha256) history ⟨[], []⟩
    (∃ n, ((o.log.filter fun e => e.entryId = c.entry.entryId).filterMap Event.claim?).map
      (·.attempt) = List.range' 1 n) ∧
    (∀ m n, m ≤ n → p.delay m ≤ p.delay n ∧ p.delay n ≤ p.maxRetryDelay) ∧
    (∀ r ∈ o.table, r.heldBy c.entry.entryId c.workerId c.expectedVersion now →
      p.Refuses c now o.table r) ∧
    (¬ Holds o.table c now → (p.settleFailure c now).commit o.table = o.table) := by
  intro o
  have ht : Traced o := by
    refine run_keeps (P := Traced) (fun happening o h => ?_) history traced_empty
    cases happening with
    | call call => exact h.step call
    | refused c now =>
      rw [Policy.step, Tx.commit, Tx.reply]
      rcases hx : p.settleFailure c now o.table with ⟨e | result, rows'⟩
      · simpa [Except.toOption] using h
      · obtain ⟨call, -, hcall⟩ := Policy.settleFailure_ok sha256 hx
        exact (exec_step h.keyed hcall).traced h
  obtain ⟨r, hr, hid, hmem⟩ := ht.told_claim hc
  have htold := ht.told hr
  refine ⟨⟨r.attemptCount, ?_⟩, fun m n h => ⟨p.delay_mono h, min_le_left _ _⟩,
    fun x hx hh => p.settleFailure_held ht.keyed hx (htold.fenced c hmem) hh hnow, fun hno => ?_⟩
  · rw [← hid]
    exact htold.ordinals
  · refine ((p.settleFailure c now).commit_cases o.table).resolve_left ?_
    rintro ⟨result, hok⟩
    obtain ⟨call, hcall, hexec⟩ := Policy.settleFailure_ok sha256 hok
    exact hno (exec_settlement hcall hexec)

def sampleDigest : String := String.ofList (List.replicate 64 '0')

def sampleEntry : OutboxEntry := ⟨"e", "audit.publish", [0], sampleDigest, "e", 0⟩

/-- The outbox with one entry, which is claimed for a second. -/
def claimedOnce (p : Policy) : State :=
  run (p.step fun _ => sampleDigest) [.call (.enqueue sampleEntry),
    .call (.claim (fun _ => false) "w" ["audit.publish"] 0 second 1)] ⟨[], []⟩

def sampleClaim : ClaimedOutboxEntry := ⟨sampleEntry, "w", second, 1, 1⟩

def samplePolicy : Policy := ⟨8, 5, 60, by decide, by decide, by decide, by decide⟩

def longPolicy : Policy :=
  ⟨8, timedeltaMax, timedeltaMax, by decide, by decide, by decide, by decide⟩

theorem retry_schedule_claimed :
    ∃ r ∈ (claimedOnce samplePolicy).table,
      samplePolicy.Refuses sampleClaim 7 (claimedOnce samplePolicy).table r := by
  have hholds : Holds (claimedOnce samplePolicy).table sampleClaim 7 := by
    unfold Holds
    decide +kernel
  obtain ⟨r, hr, hh⟩ := hholds
  exact ⟨r, hr, (retry_schedule _ _ _ sampleClaim 7 (by decide +kernel) (by decide)).2.2.1 r hr hh⟩

/-- A claim that holds its row and is not the last one allowed, whose failure schedules nothing. -/
theorem retry_out_of_range :
    Holds (claimedOnce longPolicy).table sampleClaim 7 ∧
    sampleClaim.attempt < longPolicy.maxAttempts ∧
    (longPolicy.settleFailure sampleClaim 7).reply (claimedOnce longPolicy).table =
      .error (outOfRange sampleClaim) := by
  unfold Holds
  decide +kernel

end AstralPlane.AuditDelivery
