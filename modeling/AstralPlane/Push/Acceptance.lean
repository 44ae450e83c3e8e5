/-
  The rows that the statements on deliveries write, and whether the table takes them.

  A new claim, a dead letter and a pending delivery that is withdrawn meet the
  constraints of the table; a delivery that waits for a retry and is withdrawn
  does not (`refusal_superseded_retry`): `expire_stale_deliveries` leaves its
  error code in place, and a delivery that is superseded may have none.
-/
import AstralPlane.Push.Lifecycle

namespace AstralPlane.Push

open Delivery

open Repositories
open Python (Bytes)

/-! ## Constraints -/

structure Delivery.Accepted (d : Delivery) : Prop where
  inRange : d.inRange
  identity : d.identityInRange
  status : d.statusShape
  claim : d.claimShape
  terminal : d.terminalShape
  error : d.errorShape
  time : d.timeOrder

theorem refusal_eq_none {d : Delivery} : Columns.refusal d = none ↔ d.Accepted := by
  simp only [Columns.refusal]
  constructor
  · intro h
    split at h
    · rename_i hall
      simp only [Bool.and_eq_true] at hall
      obtain ⟨⟨⟨⟨⟨⟨hr, hi⟩, hs⟩, hc⟩, ht⟩, he⟩, ho⟩ := hall
      exact ⟨hr, hi, hs, hc, ht, he, ho⟩
    · cases h
  · rintro ⟨hr, hi, hs, hc, ht, he, ho⟩
    rw [if_pos]
    simp only [hr, hi, hs, hc, ht, he, ho, Bool.and_self]

theorem accepted_of_row (row : Row Delivery) : row.val.Accepted := refusal_eq_none.1 row.property

section
variable {d : Delivery}

theorem Delivery.Accepted.unacknowledged (h : d.Accepted) (hd : d.status ≠ .delivered) :
    d.acknowledgedAt = none := by
  have hterminal := h.terminal
  rw [terminalShape, if_neg hd] at hterminal
  exact Option.isNone_iff_eq_none.1 hterminal

theorem Delivery.Accepted.bounds (h : d.Accepted) : d.maxAttempts ≤ maxAttemptsBound ∧
    1 ≤ d.maxAttempts ∧ d.createdAt ≤ maxSafeInteger ∧ d.availableAt ≤ maxSafeInteger ∧
    d.createdAt ≤ d.availableAt := by
  have hr := h.inRange
  have hi := h.identity
  have ht := h.time
  simp only [Delivery.inRange, Delivery.identityInRange, Delivery.timeOrder, bool_to_prop] at hr hi ht
  omega

/-- A lease that has expired was taken after the delivery was made. -/
theorem Delivery.Accepted.expired (h : d.Accepted) {now : ℕ} (he : d.leaseExpired now) :
    d.status = .claimed ∧ ∃ claimedAt, d.claimedAt = some claimedAt ∧ d.createdAt ≤ claimedAt ∧
      claimedAt < now := by
  simp only [leaseExpired, bool_to_prop, Option.any_eq_true] at he
  obtain ⟨hstatus, lease, hlease, hle⟩ := he
  have ht := h.time
  simp only [timeOrder, bool_to_prop, hlease, Option.all_some, Option.any_eq_true] at ht
  obtain ⟨⟨⟨⟨⟨⟨-, -⟩, hcreated⟩, claimedAt, hclaimedAt, hlt⟩, -⟩, -⟩, -⟩ := ht
  rw [hclaimedAt] at hcreated
  exact ⟨hstatus, claimedAt, hclaimedAt, by simpa using hcreated, by omega⟩

theorem Delivery.isDue_spec {ownerId : String} {now : ℕ} (h : d.isDue ownerId now) :
    d.ownerId = ownerId ∧ d.attemptCount < d.maxAttempts ∧
      ((d.status.isWaiting ∧ d.availableAt ≤ now) ∨ d.leaseExpired now) := by
  simp only [isDue, bool_to_prop] at h
  exact ⟨h.1.1, h.1.2, h.2⟩

theorem Status.isWaiting_iff {p : Status} : p.isWaiting ↔ p = .pending ∨ p = .retry := by
  simp [Status.isWaiting]

/-- What the checks of `claim_deliveries` say of its arguments. -/
structure ClaimRequest.Valid (q : ClaimRequest) : Prop where
  worker : 1 ≤ q.workerId.length ∧ q.workerId.length ≤ 512
  lease : q.now < q.leaseExpiresAt ∧ q.leaseExpiresAt ≤ maxSafeInteger

theorem accepts_claimed (h : d.Accepted) {q : ClaimRequest} (hq : q.Valid)
    (hdue : d.isDue q.ownerId q.now) (hv : d.version < maxSafeInteger) :
    (d.claimed q).Accepted := by
  obtain ⟨-, hattempts, hready⟩ := isDue_spec hdue
  obtain ⟨hmax, -, -, -, havailable⟩ := h.bounds
  have hundelivered : d.status ≠ .delivered := by
    rcases hready with ⟨hwaiting, -⟩ | hexpired
    · rcases Status.isWaiting_iff.1 hwaiting with hp | hp <;> rw [hp] <;> nofun
    · rw [(h.expired hexpired).1]
      nofun
  have hack := h.unacknowledged hundelivered
  have hcreated : d.createdAt ≤ q.now := by
    rcases hready with ⟨-, hle⟩ | hexpired
    · omega
    · obtain ⟨-, claimedAt, -, hle, hlt⟩ := h.expired hexpired
      omega
  have hr := h.inRange
  have hlease := hq.lease
  simp only [inRange, bool_to_prop] at hr
  constructor
  · simp only [inRange, claimed, bool_to_prop, Option.all_some, Option.all_none, isName, hack]
    refine ⟨⟨⟨⟨⟨⟨⟨⟨⟨?_, ?_⟩, hq.worker⟩, ?_⟩, ?_⟩, trivial⟩, ?_⟩, trivial⟩, ?_⟩, ?_⟩ <;> omega
  · exact h.identity
  · simp [statusShape, claimed, hack]
  · simp [claimShape, claimed]
  · simp [terminalShape, claimed, hack]
  · simp [errorShape, claimed, Status.hasError]
  · simp [timeOrder, claimed, Status.hasError, hack, hcreated, havailable,
      hlease.1]

theorem accepts_deadLettered (h : d.Accepted) {now : ℕ} (hnow : now ≤ maxSafeInteger)
    (he : d.leaseExpired now) (hv : d.version < maxSafeInteger) :
    (d.deadLettered now).Accepted := by
  obtain ⟨hstatus, claimedAt, hclaimedAt, hcreated, hlt⟩ := h.expired he
  have hack := h.unacknowledged (by rw [hstatus]; nofun)
  have hr := h.inRange
  have hclaim := h.claim
  obtain ⟨-, -, -, -, havailable⟩ := h.bounds
  have hle : d.createdAt ≤ now := by omega
  have hcode : isErrorCode "lease_expired" := by decide
  simp only [inRange, bool_to_prop] at hr
  constructor
  · simp only [inRange, deadLettered, bool_to_prop, Option.all_some,
      Option.all_none, hack, hcode]
    refine ⟨⟨⟨⟨⟨⟨⟨⟨⟨?_, ?_⟩, trivial⟩, trivial⟩, hr.1.1.1.1.1.2⟩, trivial⟩, ?_⟩, trivial⟩, ?_⟩, ?_⟩ <;>
      omega
  · exact h.identity
  · simp [statusShape, deadLettered]
  · exact hclaim
  · simp [terminalShape, deadLettered, hack]
  · simp [errorShape, deadLettered, Status.hasError]
  · simp [timeOrder, deadLettered, Status.hasError, hack, hle, havailable,
      hclaimedAt, hcreated, hlt.le]

theorem accepts_superseded (h : d.Accepted) {expiredAt : ℕ} (ht : expiredAt ≤ maxSafeInteger)
    (hc : d.createdAt ≤ expiredAt) (hp : d.status = .pending) (hv : d.version < maxSafeInteger) :
    (d.superseded expiredAt).Accepted := by
  have hack := h.unacknowledged (by rw [hp]; nofun)
  have hr := h.inRange
  have herror := h.error
  have htime := h.time
  simp only [errorShape, hp, Status.hasError] at herror
  have hnone : d.lastErrorCode = none := by simpa using herror
  simp only [timeOrder, bool_to_prop] at htime
  simp only [inRange, bool_to_prop] at hr
  constructor
  · simp only [inRange, superseded, bool_to_prop, Option.all_none, hack, hnone]
    refine ⟨⟨⟨⟨⟨⟨⟨⟨⟨?_, ?_⟩, trivial⟩, trivial⟩, hr.1.1.1.1.1.2⟩, trivial⟩, ?_⟩, trivial⟩, ht⟩, ?_⟩ <;>
      omega
  · exact h.identity
  · simp [statusShape, superseded]
  · exact h.claim
  · simp [terminalShape, superseded, hack]
  · simp [errorShape, superseded, Status.hasError, hnone]
  · simp [timeOrder, superseded, Status.hasError, hack, hc, htime.1.1.1.1.1.2,
      htime.1.1.1.1.2]

/-- The error code of a delivery that waits for a retry stays where it is withdrawn. -/
theorem refusal_superseded_retry (h : d.Accepted) (hp : d.status = .retry) {expiredAt : ℕ} :
    ¬ (d.superseded expiredAt).Accepted := by
  intro hs
  have herror := h.error
  have herror' := hs.error
  simp only [errorShape, hp, Status.hasError] at herror
  simp only [errorShape, superseded, Status.hasError] at herror'
  cases hcode : d.lastErrorCode <;> simp [hcode] at herror herror'

end

end AstralPlane.Push
