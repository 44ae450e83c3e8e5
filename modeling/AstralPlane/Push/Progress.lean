/-
  Which deliveries go on.

  A delivery that waits, or whose claim has expired, is changed by calls of
  `claim_deliveries` or `expire_stale_deliveries`, as long as a destination is
  not rotated, revoked or deleted while a delivery to it waits for a retry or is
  claimed with attempts left (`Call.Careful`).  Where that happens the delivery
  stays: it is no longer claimed, `expire_stale_deliveries` does not look at
  claims, and on a delivery that waits for a retry the table refuses what it
  writes (`moved_deliveries_stay`).
-/
import Mathlib.Data.List.Induction
import AstralPlane.Push.Acceptance

namespace AstralPlane.Push

open Tx List Delivery
open Repositories
open Python (Bytes)

variable {l : List Claimed} {q : ClaimRequest} {row : Row Delivery} {e : Uuid × Delivery} {k : Uuid}

/-! ## Careful calls -/

/-- The time at which a call makes a delivery available. -/
def Call.availableAt : Call → Option ℕ
  | .enqueue q => some q.availableAt
  | .fail _ _ _ retryAt => retryAt
  | _ => none

/-- A delivery that a worker may still claim again. -/
def Delivery.mayReturn (d : Delivery) : Bool :=
  d.status = .retry || (d.status = .claimed && d.attemptCount < d.maxAttempts)

/-- The condition on a call that leads from `s` to `s'`. -/
structure Call.Careful (c : Call) (s s' : Store) : Prop where
  /-- No destination is revised while a delivery to it may be claimed again. -/
  destinations : ∀ deliveryId row, s.deliveries.lookup deliveryId = some row →
    c.revises = some row.val.destinationId → s'.destinations ≠ s.destinations →
      row.val.mayReturn = false
  /-- The last moment of the clock is not one at which something becomes available. -/
  available : ∀ t, c.availableAt = some t → t < maxSafeInteger
  /-- No delivery is at its last version. -/
  versions : ∀ deliveryId row, s.deliveries.lookup deliveryId = some row →
    row.val.version + 1 < maxSafeInteger

structure DeliveryReady (s : Store) (d : Delivery) : Prop where
  owner : requiredId d.ownerId "owner_id" = .ok d.ownerId
  version : d.version < maxSafeInteger
  waiting : d.status.isWaiting →
    d.attemptCount < d.maxAttempts ∧ d.availableAt < maxSafeInteger
  current : d.mayReturn → ∃ t, s.joined d = some t ∧ t.isTargetOf d

def Ready (s : Store) : Prop :=
  ∀ deliveryId row, s.deliveries.lookup deliveryId = some row → DeliveryReady s row.val

theorem requiredId_ok {value field text : String} (h : requiredId value field = .ok text) :
    requiredId value field = .ok value := by
  simp only [requiredId, Repositories.withinLength, ok_rules] at h ⊢
  obtain ⟨_, hblank, _, hlength, -⟩ := h
  exact ⟨(), hblank, (), hlength, trivial⟩

section
variable {c : Call} {s s' : Store} {d d' : Delivery} {deliveryId : Uuid}

theorem DeliveryReady.step (h : DeliveryReady s d) (hd : s'.destinations = s.destinations)
    (hs : DeliveryStep c s deliveryId d l d')
    (hv : d.version + 1 < maxSafeInteger) (ha : ∀ t, c.availableAt = some t → t < maxSafeInteger) :
    DeliveryReady s' d' := by
  cases hs with
  | deadLetter | acknowledge | supersede =>
    exact ⟨h.owner, hv, by simp [deadLettered, acknowledged, superseded,
      Status.isWaiting], by simp [deadLettered, acknowledged, superseded,
      mayReturn]⟩
  | @claim q t token due joined target hasToken =>
    refine ⟨h.owner, hv, by simp [claimed, Status.isWaiting], fun _ =>
      ⟨t, (joined_congr hd rfl rfl).trans joined, target⟩⟩
  | @fail k errorCode failedAt retryAt call taken =>
    by_cases hg : d.givesUp retryAt
    · refine ⟨h.owner, hv, ?_, ?_⟩
      · simp [failed, hg, Status.isWaiting]
      · simp [failed, hg, mayReturn]
    · -- there is an attempt left and a time for it
      simp only [givesUp, Bool.or_eq_true, decide_eq_true_eq, not_or, not_le,
        Option.isNone_iff_eq_none] at hg
      obtain ⟨t, rfl⟩ := Option.ne_none_iff_exists'.1 hg.2
      have hgives : d.givesUp (some t) = false := by simp [givesUp, hg.1]
      refine ⟨h.owner, hv, fun _ => ⟨hg.1, ?_⟩, fun _ => ?_⟩
      · simp only [failed, hgives, Bool.false_eq_true, if_false, Option.getD_some]
        refine ha t ?_
        rw [call]
        rfl
      · have hmay : d.mayReturn := by
          rcases taken with hp | hp <;> simp [mayReturn, hp, hg.1]
        obtain ⟨target, hjoined, htarget⟩ := h.current hmay
        exact ⟨target, (joined_congr hd rfl rfl).trans hjoined, htarget⟩

/-- A destination is written that the delivery does not belong to, or that it has left. -/
theorem DeliveryReady.destination (h : DeliveryReady s d) {destinationId : Uuid}
    {row' : Row Destination} (hd : d.mayReturn → d.destinationId ≠ destinationId) :
    DeliveryReady { s with destinations := s.destinations.insert destinationId row' } d := by
  refine ⟨h.owner, h.version, h.waiting, fun hmay => ?_⟩
  obtain ⟨t, ht, htarget⟩ := h.current hmay
  refine ⟨t, ?_, htarget⟩
  simp only [Store.joined, Store.destination, Keyed.lookup_write, if_neg (hd hmay)]
  exact ht

theorem Ready.effect (h : Ready s) (hc : c.Careful s s') (he : Effect c s l s') : Ready s' := by
  intro k row hrow
  cases he with
  | @destination i row' call revises =>
    by_cases hsame : s.destinations.insert i row' = s.destinations
    · rw [hsame]
      exact h k row hrow
    refine (h k row hrow).destination fun hmay => ?_
    rintro rfl
    rcases call with hnone | hrevises
    · obtain ⟨t, ht, -⟩ := (h k row hrow).current hmay
      obtain ⟨target, htarget, -⟩ := joined_eq_some ht
      cases hnone.symm.trans htarget
    · cases (hc.destinations k row hrow hrevises hsame).symm.trans hmay
  | enqueue call valid fresh _ initial =>
    rcases Keyed.write_cases hrow with ⟨-, rfl⟩ | ⟨-, hrow⟩
    · obtain ⟨-, hmax, -⟩ := (accepted_of_row _).bounds
      simp only [EnqueueRequest.check, bind_eq_ok] at valid
      obtain ⟨_, howner, -⟩ := valid
      rw [initial] at hmax ⊢
      refine ⟨requiredId_ok howner, ?_, fun _ => ⟨hmax, ?_⟩, ?_⟩
      · simp [EnqueueRequest.delivery, maxSafeInteger]
      · refine hc.available _ ?_
        rw [call]
        rfl
      · simp [EnqueueRequest.delivery, mayReturn]
    · have hready := h k row hrow
      exact ⟨hready.owner, hready.version, hready.waiting, hready.current⟩
  | deliveries advances =>
    obtain ⟨row0, hold, ⟨rfl, -⟩ | hstep⟩ := advances.before hrow
    · have hready := h k row hold
      refine ⟨hready.owner, hready.version, hready.waiting, fun hmay => ?_⟩
      obtain ⟨t, ht, htarget⟩ := hready.current hmay
      refine ⟨t, ?_, htarget⟩
      rw [joined_congr advances.destinations rfl rfl]
      exact ht
    · exact (h k row0 hold).step advances.destinations hstep (hc.versions k row0 hold) hc.available

end

def CarefulRun (hash : Bytes → String) (calls : List Call) : Prop :=
  Allowed (step hash) (fun s c => c.Careful s.store (step hash c s).store) calls ⟨⟨∅, ∅⟩, []⟩

theorem ready_after (hash : Bytes → String) (calls : List Call) (h : CarefulRun hash calls) :
    Ready (after hash calls).store := by
  refine Allowed.keeps (P := fun s => Ready s.store) (fun c s hc hs => ?_) h fun _ _ hrow => by
    cases hrow
  obtain ⟨l, heffect, -⟩ := step_effect hash c s
  exact hs.effect hc heffect

/-! ## Calls that return -/

section
variable {s s' : Store}

theorem deliveryRecord_returns (row : Row Delivery) : (deliveryRecord row.val).Ok s row.val s := by
  have hstatus := (accepted_of_row row).status
  have hclaim := (accepted_of_row row).claim
  simp only [deliveryRecord, ok_bind, ok_require, ok_pure]
  refine ⟨(), s, ⟨?_, rfl⟩, (), s, ⟨?_, rfl⟩, (), s, ⟨?_, rfl⟩, trivial, rfl⟩
  · by_cases hp : row.val.status = .claimed
    · simp only [statusShape, hp, if_true, Bool.and_eq_true] at hstatus
      simp [hstatus]
    · simp [hp]
  · by_cases ha : row.val.attemptCount = 0
    · simp only [claimShape, ha] at hclaim
      simpa [ha] using hclaim
    · simp [ha]
  · by_cases ha : row.val.attemptCount = 0
    · simp [ha]
    · have hpos : 0 < row.val.attemptCount := Nat.pos_of_ne_zero ha
      simpa [claimShape, ha, hpos] using hclaim

theorem token_of_live (row : Row Destination) (h : row.val.isLive) :
    ∃ token, row.val.token = some token := by
  have hrow := row.property
  simp only [Columns.refusal] at hrow
  split at hrow
  · rename_i hall
    simp only [bool_to_prop] at hall
    simp only [Destination.isLive, Bool.and_eq_true] at h
    have htoken := hall.1.1.1.1.1.1.1.2
    rw [h.2] at htoken
    exact Option.isSome_iff_exists.1 htoken.symm
  · cases hrow

theorem ClaimRequest.valid_of_check (h : q.check = .ok ()) : q.Valid := by
  simp only [ClaimRequest.check, leaseBounds, requiredInteger, boundedText,
    Repositories.withinLength, ok_rules, bool_to_prop] at h
  obtain ⟨_, -, _, ⟨_, hblank, _, hlength, -⟩, _, ⟨_, -, _, hmax, _, hlt, -⟩, -⟩ := h
  refine ⟨⟨?_, hlength⟩, hlt, hmax.2⟩
  -- a text that is not blank is not empty
  by_contra hzero
  have hnil : q.workerId.toList = [] := by
    rw [← length_eq_zero_iff, String.length_toList]
    omega
  simp [Repositories.isBlank, hnil] at hblank

/-- The statement of `claim_deliveries` goes through if no dead letter is at its last version. -/
theorem claimSql_returns (hq : q.Valid) (hdead : ∀ k row, s.deliveries.lookup k = some row →
      row.val.isExhausted q.ownerId q.now → row.val.version < maxSafeInteger) :
    ∃ rows s', (claimSql q).Ok s rows s' := by
  have hlease := hq.lease
  have hfirst : ∀ k ∈ s.exhausted q, ∃ row, s.deliveries.lookup k = some row ∧
      Columns.refusal (row.val.deadLettered q.now) = none := fun k hk => by
    obtain ⟨row, hrow, hexhausted⟩ := mem_exhausted.1 hk
    have hversion := hdead k row hrow hexhausted
    simp only [isExhausted, Bool.and_eq_true] at hexhausted
    exact ⟨row, hrow, refusal_eq_none.2 (accepts_deadLettered (accepted_of_row row) (by omega)
      hexhausted.1.2 hversion)⟩
  obtain ⟨dead, t, hok, hupdated⟩ := Sql.updateKeys_returns (exhausted_nodup s q) hfirst
  have hsecond : ∀ k ∈ s.toClaim q, ∃ row, t.lookup k = some row ∧
      Columns.refusal (row.val.claimed q) = none := fun k hk => by
    obtain ⟨row, _, hrow, hdue, -⟩ := toClaim_claimable hk
    have hversion := toClaim_version hk hrow
    refine ⟨row, ?_, refusal_eq_none.2 (accepts_claimed (accepted_of_row row) hq hdue hversion)⟩
    rw [hupdated.others k (toClaim_not_exhausted hk), hrow]
  obtain ⟨rows, t', hok', -⟩ := Sql.updateKeys_returns (toClaim_nodup s q) hsecond
  refine ⟨rows, { s with deliveries := t' }, ?_⟩
  simp only [claimSql, ok_bind, ok_get, onDeliveries, ok_zoom]
  exact ⟨s, s, ⟨rfl, rfl⟩, dead, { s with deliveries := t }, ⟨t, hok, rfl⟩, t', hok', rfl⟩

theorem claimSql_row {rows : List (Uuid × Delivery)}
    (h : (claimSql q).Ok s rows s') {row : Uuid × Delivery} (hrow : row ∈ rows) :
    ∃ old new : Row Delivery, s.deliveries.lookup row.1 = some old ∧
      s'.deliveries.lookup row.1 = some new ∧ new.val = row.2 ∧ row.2 = old.val.claimed q ∧
      ∃ t : Row Destination, s'.joined row.2 = some t.val ∧ t.val.isLive := by
  obtain ⟨hd, dead, t, hfirst, hsecond⟩ := claimSql_ok h
  have hmem : row.1 ∈ s.toClaim q := hsecond.returned ▸ mem_map_of_mem hrow
  obtain ⟨old, new, hold, hnew, hval, hw⟩ := hsecond.returns (toClaim_nodup s q) hrow
  rw [hfirst.others row.1 (toClaim_not_exhausted hmem)] at hold
  obtain ⟨row0, target, hrow0, -, hjoined, htarget⟩ := toClaim_claimable hmem
  cases hold.symm.trans hrow0
  obtain ⟨dest, hdest, rfl⟩ := joined_eq_some hjoined
  refine ⟨old, new, hold, hnew, hval, hw, dest, ?_, ?_⟩
  · rw [hw]
    exact (joined_congr hd rfl rfl).trans hjoined
  · simp only [Destination.isTargetOf, Bool.and_eq_true] at htarget
    exact htarget.1.1

theorem claimDeliveries_returns (hq : q.check = .ok ())
    (hdead : ∀ k row, s.deliveries.lookup k = some row →
      row.val.isExhausted q.ownerId q.now → row.val.version < maxSafeInteger) :
    ∃ rows l s', (claimSql q).Ok s rows s' ∧ (claimDeliveries q).Ok s l s' := by
  obtain ⟨rows, s', hsql⟩ := claimSql_returns (ClaimRequest.valid_of_check hq) hdead
  have hrecords : ∀ row ∈ rows, ∃ c, (claimedRecord s' row).Ok s' c s' := fun row hrow => by
    obtain ⟨-, new, -, -, hnew, -, t, hjoined, hlive⟩ := claimSql_row hsql hrow
    obtain ⟨token, htoken⟩ := token_of_live t hlive
    have hread : (deliveryRecord row.2).Ok s' row.2 s' := by
      rw [← hnew]
      exact deliveryRecord_returns new
    refine ⟨⟨row.1, row.2, token⟩, hread.bind ?_⟩
    simp only [hjoined, Option.bind_some, htoken]
    exact ok_pure.2 ⟨rfl, rfl⟩
  obtain ⟨claimed, hcollect⟩ := Tx.collect_returns hrecords
  have hworker : (claimed.all fun c => c.delivery.leaseOwner = some q.workerId) := by
    refine all_eq_true.2 fun c hc => ?_
    obtain ⟨-, hall⟩ := Tx.collect_readOnly_ok (readOnly_claimedRecord s') hcollect
    obtain ⟨row, hrow, hok⟩ := forall₂_mem_right hall hc
    obtain ⟨-, hdelivery, -⟩ := claimedRecord_ok hok
    obtain ⟨old, -, -, -, -, hclaimed, -⟩ := claimSql_row hsql hrow
    rw [hdelivery, hclaimed]
    simp [Delivery.claimed]
  refine ⟨rows, orderBy (fun c => (c.delivery.availableAt, c.deliveryId.int)) claimed, s', hsql, ?_⟩
  simp only [claimDeliveries, ok_bind, ok_argument, ok_get, ok_require, ok_pure]
  exact ⟨(), s, ⟨hq, rfl⟩, rows, s', hsql, s', s', ⟨rfl, rfl⟩, claimed, s', hcollect, (), s',
    ⟨hworker, rfl⟩, rfl, rfl⟩

end

/-! ## Less to do -/

/-- What is left to do is less, where something of it was taken and nothing is added. -/
theorem length_lt_of_taken {l l' : List (Uuid × Delivery)} {taken : List Uuid}
    (hn : (l'.map (·.1)).Nodup) (hsub : ∀ e ∈ l', e ∈ l ∧ e.1 ∉ taken)
    (he : e ∈ l) (ht : e.1 ∈ taken) : l'.length < l.length := by
  have hnot : e.1 ∉ l'.map (·.1) := fun hmem => by
    obtain ⟨e', he', heq⟩ := mem_map.1 hmem
    exact (hsub e' he').2 (heq ▸ ht)
  have hsubset : (e.1 :: l'.map (·.1)) ⊆ l.map (·.1) := by
    refine cons_subset.2 ⟨mem_map_of_mem he, fun k hk => ?_⟩
    obtain ⟨e', he', rfl⟩ := mem_map.1 hk
    exact mem_map_of_mem (hsub e' he').1
  have hle := (subperm_of_subset (nodup_cons.2 ⟨hnot, hn⟩) hsubset).length_le
  rw [length_cons, length_map, length_map] at hle
  exact hle

theorem exists_mem_take (key : Uuid × Delivery → ℕ × ℕ) {l : List (Uuid × Delivery)} {n : ℕ}
    (hn : 1 ≤ n) (he : e ∈ l) : ∃ e' ∈ (orderBy key l).take n, e' ∈ l := by
  have hne : (orderBy key l).take n ≠ [] := by
    rw [ne_eq, take_eq_nil_iff, not_or]
    exact ⟨by omega, ne_nil_of_mem (mem_orderBy.2 he)⟩
  obtain ⟨e', he'⟩ := exists_mem_of_ne_nil _ hne
  exact ⟨e', he', mem_orderBy.1 (mem_of_mem_take he')⟩

theorem mem_take_of_length_le {key : Uuid × Delivery → ℕ × ℕ} {l : List (Uuid × Delivery)} {n : ℕ}
    (hn : l.length ≤ n) (he : e ∈ l) : e ∈ (orderBy key l).take n := by
  rw [take_of_length_le (by rw [(orderBy_perm key l).length_eq]; exact hn)]
  exact mem_orderBy.2 he

section
variable {s s' : Store} {rows : List (Uuid × Delivery)}

theorem mem_toClaim (he : e ∈ s.candidates q)
    (hv : e.2.version < maxSafeInteger) : e.1 ∈ s.toClaim q :=
  mem_map_of_mem (mem_filter.2 ⟨he, decide_eq_true hv⟩)

theorem not_due_claimed (hq : q.Valid) {d : Delivery} :
    (d.claimed q).isDue q.ownerId q.now = false ∧
      (d.claimed q).isExhausted q.ownerId q.now = false := by
  have hlease := hq.lease.1
  simp [isDue, isExhausted, claimed, leaseExpired,
    Status.isWaiting, hlease]

theorem not_due_deadLettered {d : Delivery} {now : ℕ} :
    (d.deadLettered now).isDue q.ownerId q.now = false ∧
      (d.deadLettered now).isExhausted q.ownerId q.now = false := by
  simp [isDue, isExhausted, deadLettered, leaseExpired,
    Status.isWaiting]

/-- A delivery that is due or exhausted after the statement was not written by it. -/
theorem claimSql_unwritten (hq : q.Valid) (h : (claimSql q).Ok s rows s')
    (hrow : s'.deliveries.lookup k = some row)
    (hdue : row.val.isDue q.ownerId q.now ∨ row.val.isExhausted q.ownerId q.now) :
    s.deliveries.lookup k = some row ∧ k ∉ s.toClaim q := by
  obtain ⟨-, dead, t, hfirst, hsecond⟩ := claimSql_ok h
  have hclaim : k ∉ s.toClaim q := fun hmem => by
    obtain ⟨row1, row2, -, hrow2, hw, -⟩ := hsecond.rows k hmem
    cases hrow.symm.trans hrow2
    rw [hw, (not_due_claimed hq).1, (not_due_claimed hq).2] at hdue
    simp at hdue
  have hdead : k ∉ s.exhausted q := fun hmem => by
    obtain ⟨row1, row2, -, hrow2, hw, -⟩ := hfirst.rows k hmem
    rw [hsecond.others k hclaim] at hrow
    cases hrow.symm.trans hrow2
    rw [hw, not_due_deadLettered.1, not_due_deadLettered.2] at hdue
    simp at hdue
  rw [hsecond.others k hclaim, hfirst.others k hdead] at hrow
  exact ⟨hrow, hclaim⟩

theorem claimSql_claimable (hq : q.Valid) (h : (claimSql q).Ok s rows s')
    (he : e ∈ s'.claimable q) : e ∈ s.claimable q ∧ e.1 ∉ s.toClaim q := by
  obtain ⟨hd, -⟩ := claimSql_ok h
  obtain ⟨row, hrow, hval, hp⟩ := mem_select.1 he
  have hdue : row.val.isDue q.ownerId q.now := by
    simp only [Bool.and_eq_true] at hp
    rw [hval]
    exact hp.1.1
  obtain ⟨hrow0, hclaim⟩ := claimSql_unwritten hq h hrow (.inl hdue)
  refine ⟨mem_select.2 ⟨row, hrow0, hval, ?_⟩, hclaim⟩
  rw [joined_congr hd rfl rfl] at hp
  exact hp

/-- The state of a delivery that is to be claimed. -/
structure Queued (q : ClaimRequest) (deliveryId : Uuid) (row : Row Delivery) (s : Store) : Prop where
  found : s.deliveries.lookup deliveryId = some row
  claimable : (deliveryId, row.val) ∈ s.claimable q
  versions : ∀ e ∈ s.claimable q, e.2.version < maxSafeInteger
  dead : ∀ k r, s.deliveries.lookup k = some r → r.val.isExhausted q.ownerId q.now →
    r.val.version < maxSafeInteger

theorem ne_of_version {d d' : Delivery} (h : d'.version = d.version + 1) : d' ≠ d := by
  rintro rfl
  omega

theorem claimSql_changes (h : (claimSql q).Ok s rows s')
    (hrow : s.deliveries.lookup k = some row) (hk : k ∈ s.toClaim q ∨ k ∈ s.exhausted q) :
    s'.deliveries.lookup k ≠ some row := by
  obtain ⟨-, dead, t, hfirst, hsecond⟩ := claimSql_ok h
  by_cases hclaim : k ∈ s.toClaim q
  · refine hsecond.changes (fun d => ne_of_version rfl) hclaim ?_
    rw [hfirst.others k (toClaim_not_exhausted hclaim), hrow]
  · rw [hsecond.others k hclaim]
    exact hfirst.changes (fun d => ne_of_version rfl) (hk.resolve_left hclaim) hrow

/-- The call takes the delivery, or there are fewer before it. -/
theorem Queued.claimSql (hs : Queued q deliveryId row s)
    (hq : q.Valid) (hlimit : 1 ≤ q.limit) (h : (claimSql q).Ok s rows s') :
    s'.deliveries.lookup deliveryId ≠ some row ∨
      (Queued q deliveryId row s' ∧ (s'.claimable q).length < (s.claimable q).length) := by
  by_cases hmem : deliveryId ∈ s.toClaim q
  · exact .inl (claimSql_changes h hs.found (.inl hmem))
  · right
    obtain ⟨hd, dead, t, hfirst, hsecond⟩ := claimSql_ok h
    obtain ⟨_, _, -, -, hdue, hjoined, htarget⟩ := mem_claimable hs.claimable
    have hnotDead : deliveryId ∉ s.exhausted q := fun hex => by
      obtain ⟨row', hrow', hexhausted⟩ := mem_exhausted.1 hex
      cases hs.found.symm.trans hrow'
      have hattempts : row.val.attemptCount < row.val.maxAttempts := (isDue_spec hdue).2.1
      simp only [isExhausted, bool_to_prop] at hexhausted
      omega
    have hfound : s'.deliveries.lookup deliveryId = some row := by
      rw [hsecond.others _ hmem, hfirst.others _ hnotDead]
      exact hs.found
    have hclaimable : (deliveryId, row.val) ∈ s'.claimable q := by
      obtain ⟨row', hrow', hval, hp⟩ := mem_select.1 hs.claimable
      cases hs.found.symm.trans hrow'
      refine mem_select.2 ⟨row, hfound, rfl, ?_⟩
      rw [joined_congr hd rfl rfl]
      exact hp
    refine ⟨⟨hfound, hclaimable, fun e he => hs.versions e (claimSql_claimable hq h he).1, ?_⟩, ?_⟩
    · intro k r hr hexhausted
      exact hs.dead k r (claimSql_unwritten hq h hr (.inr hexhausted)).1 hexhausted
    · obtain ⟨e, htake, he⟩ := exists_mem_take (fun e => (e.2.availableAt, e.1.int)) hlimit
        hs.claimable
      exact length_lt_of_taken (select_nodup s') (fun e he => claimSql_claimable hq h he) he
        (mem_toClaim htake (hs.versions e he))

end

/-! ## Deliveries that are withdrawn -/

section
variable {s s' : Store} {q : ExpireRequest}

/-- The state of a delivery that is to be withdrawn; all that are withdrawn with it are pending. -/
structure Stale (q : ExpireRequest) (deliveryId : Uuid) (row : Row Delivery) (s : Store) :
    Prop where
  found : s.deliveries.lookup deliveryId = some row
  withdrawable : (deliveryId, row.val) ∈ s.withdrawable q
  pending : ∀ e ∈ s.withdrawable q, e.2.status = .pending

theorem expireStale_returns (howner : requiredId q.ownerId "owner_id" = .ok q.ownerId)
    (hat : q.expiredAt = maxSafeInteger) (hlimit : 1 ≤ q.limit ∧ q.limit ≤ 100)
    (hp : ∀ e ∈ s.withdrawable q, e.2.status = .pending) :
    ∃ l reply t', Sql.Updated (·.superseded q.expiredAt) (s.stale q) s.deliveries reply t' ∧
      (expireStaleDeliveries q).Ok s l { s with deliveries := t' } := by
  have haccepts : ∀ k ∈ s.stale q, ∃ row, s.deliveries.lookup k = some row ∧
      Columns.refusal (row.val.superseded q.expiredAt) = none := fun k hk => by
    obtain ⟨row, _, hrow, hmem, -⟩ := stale_withdrawable hk
    obtain ⟨_, -, -, hsel⟩ := mem_select.1 hmem
    simp only [bool_to_prop] at hsel
    have hbounds := (accepted_of_row row).bounds
    exact ⟨row, hrow, refusal_eq_none.2 (accepts_superseded (accepted_of_row row) (by omega)
      (by omega) (hp _ hmem) hsel.1.1.2)⟩
  obtain ⟨reply, t', hok, hupdated⟩ := Sql.updateKeys_returns (stale_nodup s q) haccepts
  have hrecords : ∀ row ∈ reply, ∃ b, ((row.1, ·) <$> deliveryRecord row.2 :
      Tx Store Failure (Uuid × Delivery)).Ok { s with deliveries := t' } b
        { s with deliveries := t' } := fun row hrow => by
    obtain ⟨_, new, -, -, hval, -⟩ := hupdated.returns (stale_nodup s q) hrow
    refine ⟨row, ok_map.2 ⟨row.2, ?_, rfl⟩⟩
    rw [← hval]
    exact deliveryRecord_returns new
  obtain ⟨records, hcollect⟩ := Tx.collect_returns hrecords
  refine ⟨(orderBy (fun e => (e.2.createdAt, e.1.int)) records).map (·.2), reply, t', hupdated, ?_⟩
  simp only [expireStaleDeliveries, ok_bind, ok_argument, ok_get, ok_pure, onDeliveries, ok_zoom]
  refine ⟨_, s, ⟨howner, rfl⟩, (), s, ⟨?_, rfl⟩, (), s, ⟨?_, rfl⟩, s, s, ⟨rfl, rfl⟩, reply, _,
    ⟨t', hok, rfl⟩, records, _, hcollect, rfl, rfl⟩
  · simp [requiredInteger, ensure_eq_ok, hat]
  · simp [boundedLimit, ensure_eq_ok, hlimit]

/-- The call withdraws the delivery, or there are fewer before it. -/
theorem Stale.expire (hs : Stale q deliveryId row s)
    (hlimit : 1 ≤ q.limit) {reply : List (Uuid × Delivery)} {t' : Keyed Uuid (Row Delivery)}
    (h : Sql.Updated (·.superseded q.expiredAt) (s.stale q) s.deliveries reply t') :
    (t'.lookup deliveryId ≠ some row) ∨ (Stale q deliveryId row { s with deliveries := t' } ∧
      (Store.withdrawable { s with deliveries := t' } q).length < (s.withdrawable q).length) := by
  have hsub : ∀ e ∈ Store.withdrawable { s with deliveries := t' } q,
      e ∈ s.withdrawable q ∧ e.1 ∉ s.stale q := fun e he => by
    obtain ⟨r, hr, hval, hp⟩ := mem_select.1 he
    have hnot : e.1 ∉ s.stale q := fun hmem => by
      obtain ⟨_, row2, -, hrow2, hw, -⟩ := h.rows e.1 hmem
      cases hr.symm.trans hrow2
      rw [← hval, hw] at hp
      simp [superseded, Status.isWaiting] at hp
    have hr' : t'.lookup e.1 = some r := hr
    rw [h.others e.1 hnot] at hr'
    exact ⟨mem_select.2 ⟨r, hr', hval, hp⟩, hnot⟩
  by_cases hmem : deliveryId ∈ s.stale q
  · exact .inl (h.changes (fun d => ne_of_version rfl) hmem hs.found)
  · right
    have hfound : t'.lookup deliveryId = some row := by
      rw [h.others _ hmem]
      exact hs.found
    refine ⟨⟨hfound, ?_, fun e he => hs.pending e (hsub e he).1⟩, ?_⟩
    · obtain ⟨row', hrow', hval, hp⟩ := mem_select.1 hs.withdrawable
      exact mem_select.2 ⟨row, hfound, rfl, hp⟩
    · obtain ⟨e, htake, he⟩ := exists_mem_take (fun e => (e.2.createdAt, e.1.int)) hlimit
        hs.withdrawable
      exact length_lt_of_taken (select_nodup _) hsub he (mem_map_of_mem htake)

end

/-! ## Deliveries that go on -/

/-- A call of `claim_deliveries` or `expire_stale_deliveries`. -/
def Call.owner : Call → Option String
  | .claim q => some q.ownerId
  | .expireStale q => some q.ownerId
  | _ => none

/-- The deliveries that such a call chooses from. -/
def Store.sweptBy (s : Store) : Call → List (Uuid × Delivery)
  | .claim q => s.claimable q
  | .expireStale q => s.withdrawable q
  | _ => []

/-- A call for the owner changes the delivery; it is repeated if more than a hundred deliveries
    are to be changed, which is the most that a call may ask for. -/
def Stirs (hash : Bytes → String) (s : State) (deliveryId : Uuid) (row : Row Delivery) : Prop :=
  ∃ c : Call, c.owner = some row.val.ownerId ∧
    ((s.store.sweptBy c).length ≤ 100 →
      (step hash c s).store.deliveries.lookup deliveryId ≠ some row) ∧
    ∃ n, (run (step hash) (List.replicate n c) s).store.deliveries.lookup deliveryId ≠ some row

section
variable {hash : Bytes → String} {s : State} {deliveryId : Uuid}

theorem step_claim (hash : Bytes → String) (hq : q.check = .ok ())
    (hdead : ∀ k row, s.store.deliveries.lookup k = some row →
      row.val.isExhausted q.ownerId q.now → row.val.version < maxSafeInteger) :
    ∃ rows, (claimSql q).Ok s.store rows (step hash (.claim q) s).store := by
  obtain ⟨rows, l, s', hsql, hok⟩ := claimDeliveries_returns hq hdead
  have hstore : (step hash (.claim q) s).store = s' := commit_ok hok
  exact ⟨rows, by rw [hstore]; exact hsql⟩

theorem Queued.stirs (hq : q.check = .ok ()) (howner : q.ownerId = row.val.ownerId)
    (hlimit : q.limit = 100) (hs : Queued q deliveryId row s.store) :
    Stirs hash s deliveryId row := by
  have hvalid := ClaimRequest.valid_of_check hq
  refine ⟨.claim q, congrArg some howner, fun hlength => ?_, ?_⟩
  · obtain ⟨rows, hsql⟩ := step_claim hash hq hs.dead
    refine claimSql_changes hsql hs.found (.inl (mem_toClaim (e := (deliveryId, row.val)) ?_ ?_))
    · exact mem_take_of_length_le (by rw [hlimit]; exact hlength) hs.claimable
    · exact hs.versions _ hs.claimable
  · refine run_replicate (P := fun s : State => Queued q deliveryId row s.store)
      (Q := fun s => s.store.deliveries.lookup deliveryId ≠ some row)
      (fun s => (s.store.claimable q).length) (fun s hs => ?_) hs
    obtain ⟨rows, hsql⟩ := step_claim hash hq hs.dead
    exact hs.claimSql hvalid (by omega) hsql

theorem Stale.stirs {q : ExpireRequest} (hq : requiredId q.ownerId "owner_id" = .ok q.ownerId)
    (hat : q.expiredAt = maxSafeInteger) (howner : q.ownerId = row.val.ownerId)
    (hlimit : q.limit = 100) (hs : Stale q deliveryId row s.store) :
    Stirs hash s deliveryId row := by
  have hstep : ∀ s : State, Stale q deliveryId row s.store → ∃ reply,
      Sql.Updated (·.superseded q.expiredAt) (s.store.stale q) s.store.deliveries reply
        (step hash (.expireStale q) s).store.deliveries ∧
      (step hash (.expireStale q) s).store =
        { s.store with deliveries := (step hash (.expireStale q) s).store.deliveries } := by
    intro s hs
    obtain ⟨l, reply, t', hupdated, hok⟩ := expireStale_returns hq hat (by omega) hs.pending
    have hstore : (step hash (.expireStale q) s).store = { s.store with deliveries := t' } :=
      commit_ok (ok_map.2 ⟨l, hok, rfl⟩)
    rw [hstore]
    exact ⟨reply, hupdated, rfl⟩
  refine ⟨.expireStale q, congrArg some howner, fun hlength => ?_, ?_⟩
  · obtain ⟨reply, hupdated, -⟩ := hstep s hs
    have hmem : deliveryId ∈ s.store.stale q := by
      refine mem_map_of_mem (f := (·.1)) (a := (deliveryId, row.val)) ?_
      exact mem_take_of_length_le (by rw [hlimit]; exact hlength) hs.withdrawable
    exact hupdated.changes (fun d => ne_of_version rfl) hmem hs.found
  · refine run_replicate (P := fun s : State => Stale q deliveryId row s.store)
      (Q := fun s => s.store.deliveries.lookup deliveryId ≠ some row)
      (fun s => (s.store.withdrawable q).length) (fun s hs => ?_) hs
    obtain ⟨reply, hupdated, hstore⟩ := hstep s hs
    rcases hs.expire (by omega) hupdated with hchanged | ⟨hstale, hlt⟩
    · exact .inl hchanged
    · rw [← hstore] at hstale hlt
      exact .inr ⟨hstale, hlt⟩

def claimAt (ownerId : String) (now : ℕ) : ClaimRequest where
  ownerId := ownerId
  workerId := "worker"
  now := now
  leaseExpiresAt := now + 1
  limit := 100
  claimId := ⟨0⟩

theorem claimAt_check {ownerId : String} {now : ℕ}
    (howner : requiredId ownerId "owner_id" = .ok ownerId) (hnow : now < maxSafeInteger) :
    (claimAt ownerId now).check = .ok () := by
  have hworker : boundedText "worker" "worker_id" 512 = .ok "worker" := by decide
  simp only [ClaimRequest.check, claimAt, howner, hworker, ok_rules, leaseBounds, requiredInteger,
    boundedLimit]
  refine ⟨_, rfl, _, rfl, (), ⟨(), ?_, (), ?_, (), ?_, ?_⟩, rfl⟩
  · exact Bool.and_eq_true_iff.2 ⟨decide_eq_true now.zero_le, decide_eq_true hnow.le⟩
  · exact Bool.and_eq_true_iff.2 ⟨decide_eq_true (Nat.le_add_left 1 now), decide_eq_true hnow⟩
  · simp
  · simp [maxLeaseSeconds]

theorem Ready.queued (h : Ready s.store) (hrow : s.store.deliveries.lookup deliveryId = some row)
    (now : ℕ) (hdue : row.val.isDue row.val.ownerId now) {t : Destination}
    (ht : s.store.joined row.val = some t) (htarget : t.isTargetOf row.val) :
    Queued (claimAt row.val.ownerId now) deliveryId row s.store := by
  refine ⟨hrow, mem_select.2 ⟨row, hrow, rfl, ?_⟩, fun e he => ?_, fun k r hr _ => (h k r hr).version⟩
  · simp only [Bool.and_eq_true, Option.any_eq_true]
    exact ⟨⟨hdue, t, ht, htarget⟩, rfl⟩
  · obtain ⟨r, hr, hval, -⟩ := mem_select.1 he
    rw [← hval]
    exact (h _ r hr).version

theorem Ready.stirs_waiting (h : Ready s.store) (hsound : Sound s.store s.log)
    (hrow : s.store.deliveries.lookup deliveryId = some row)
    (hwaiting : row.val.status.isWaiting) : Stirs hash s deliveryId row := by
  have hready := h deliveryId row hrow
  obtain ⟨hattempts, havailable⟩ := hready.waiting hwaiting
  obtain ⟨t, ht⟩ := Option.isSome_iff_exists.1 (hsound.delivery deliveryId row hrow).joined
  by_cases htarget : t.isTargetOf row.val
  · -- the destination is where it was: the delivery is claimed when it is available
    refine (h.queued hrow row.val.availableAt ?_ ht htarget).stirs
      (claimAt_check hready.owner havailable) rfl rfl
    simp [isDue, hattempts, hwaiting]
  · -- the destination has moved: every delivery that is withdrawn is a pending one
    refine Stale.stirs (q := ⟨row.val.ownerId, maxSafeInteger, 100, fun _ => false⟩) hready.owner rfl
      rfl rfl ⟨hrow, mem_select.2 ⟨row, hrow, rfl, ?_⟩, fun e he => ?_⟩
    · simp only [bool_to_prop, Option.any_eq_true]
      exact ⟨⟨⟨⟨trivial, hwaiting⟩, hready.version⟩, t, ht, by simpa using htarget⟩, rfl⟩
    · obtain ⟨r, hr, hval, hp⟩ := mem_select.1 he
      simp only [Bool.and_eq_true, Option.any_eq_true] at hp
      obtain ⟨⟨⟨⟨-, hwaits⟩, -⟩, t', ht', hmoved⟩, -⟩ := hp
      refine (Status.isWaiting_iff.1 hwaits).resolve_right fun hretry => ?_
      rw [← hval] at ht' hmoved hretry
      obtain ⟨t0, ht0, htarget0⟩ := (h _ r hr).current (by simp [mayReturn, hretry])
      cases ht'.symm.trans ht0
      simp [htarget0] at hmoved

theorem Ready.stirs_expired (h : Ready s.store)
    (hrow : s.store.deliveries.lookup deliveryId = some row) {now : ℕ} (hnow : now < maxSafeInteger)
    (hexpired : row.val.leaseExpired now) : Stirs hash s deliveryId row := by
  have hready := h deliveryId row hrow
  have hq := claimAt_check hready.owner hnow
  by_cases hattempts : row.val.attemptCount < row.val.maxAttempts
  · have hstatus := ((accepted_of_row row).expired hexpired).1
    obtain ⟨t, ht, htarget⟩ := hready.current (by simp [mayReturn, hstatus, hattempts])
    refine (h.queued hrow now ?_ ht htarget).stirs hq rfl rfl
    simp [isDue, hattempts, hexpired]
  · obtain ⟨rows, hsql⟩ := step_claim hash hq fun k r hr _ => (h k r hr).version
    have hchanged := claimSql_changes hsql hrow (.inr (mem_exhausted.2 ⟨row, hrow, by
      simp only [isExhausted, claimAt, hexpired, decide_true, Bool.and_self, Bool.true_and,
        decide_eq_true_eq]
      omega⟩))
    exact ⟨.claim (claimAt row.val.ownerId now), rfl, fun _ => hchanged, 1, hchanged⟩

end

/-- The deliveries in every run; where the calls are careful, none is left where it is. -/
theorem push_deliveries_go_on (hash : Bytes → String) (calls : List Call) :
    Machine hash (after hash calls) ∧
    (CarefulRun hash calls → ∀ deliveryId row,
      (after hash calls).store.deliveries.lookup deliveryId = some row →
      (row.val.status.isWaiting = true ∨ ∃ now < maxSafeInteger, row.val.leaseExpired now = true) →
      Stirs hash (after hash calls) deliveryId row) := by
  refine ⟨(sound_after hash calls).machine, fun hcareful deliveryId row hrow hneeds => ?_⟩
  have hready := ready_after hash calls hcareful
  rcases hneeds with hwaiting | ⟨now, hnow, hexpired⟩
  · exact hready.stirs_waiting (sound_after hash calls) hrow hwaiting
  · exact hready.stirs_expired hrow hnow hexpired

/-! ## Deliveries that stay -/

section
variable {hash : Bytes → String} {s s' : Store} {deliveryId : Uuid}

/-- The destination of the delivery is no longer the one that it was enqueued for. -/
def Moved (s : Store) (d : Delivery) : Prop :=
  ∃ t, s.joined d = some t ∧ t.isTargetOf d = false

theorem Advances.stays {c : Call} (h : Advances c s l s')
    (hc : c.owner.isSome) (hrow : s.deliveries.lookup deliveryId = some row)
    (hmay : row.val.mayReturn) (hmoved : Moved s row.val) :
    s'.deliveries.lookup deliveryId = some row := by
  obtain ⟨row', hrow', ⟨rfl, -⟩ | hstep⟩ := h.present deliveryId row hrow
  · exact hrow'
  · exfalso
    obtain ⟨t, ht, hnot⟩ := hmoved
    have hstatus := (accepted_of_row row')
    simp only [mayReturn, bool_to_prop] at hmay
    generalize row'.val = d' at hstep hstatus
    generalize claimsFor deliveryId l = mine at hstep
    cases hstep with
    | deadLetter expired =>
      simp only [leaseExpired, bool_to_prop] at expired
      rcases hmay with hretry | ⟨-, hattempts⟩
      · rw [hretry] at expired
        cases expired.1
      · omega
    | claim due joined target =>
      cases ht.symm.trans joined
      rw [hnot] at target
      cases target
    | acknowledge call | fail call =>
      rw [call] at hc
      cases hc
    | supersede waiting =>
      rcases hmay with hretry | ⟨hclaimed, -⟩
      · exact refusal_superseded_retry (accepted_of_row row) hretry hstatus
      · rw [hclaimed] at waiting
        cases waiting

end

/-- A delivery that may be claimed again and whose destination has moved stays as it is, however
    often `claim_deliveries` and `expire_stale_deliveries` are called. -/
theorem moved_stays (hash : Bytes → String) (more : List Call)
    (hmore : ∀ c ∈ more, c.owner.isSome) (s : State)
    (hrow : s.store.deliveries.lookup deliveryId = some row) (hmay : row.val.mayReturn)
    (hmoved : Moved s.store row.val) :
    (run (step hash) more s).store.deliveries.lookup deliveryId = some row := by
  induction more generalizing s with
  | nil => exact hrow
  | cons c more ih =>
    have hc := hmore c mem_cons_self
    have hadvances : ∃ l, Advances c s.store l (step hash c s).store := by
      rcases commit_cases (c.exec hash) s.store with ⟨l, hok⟩ | hsame
      · cases c with
        | claim => exact ⟨l, claim_effect hok⟩
        | expireStale =>
          obtain ⟨_, hcall, rfl⟩ := ok_map.1 hok
          exact ⟨[], expire_effect hcall⟩
        | register | rotate | revoke | delete | enqueue | acknowledge | fail => cases hc
      · refine ⟨[], ?_⟩
        have hstore : (step hash c s).store = s.store := hsame
        rw [hstore]
        exact .refl c s.store
    obtain ⟨l, h⟩ := hadvances
    obtain ⟨t, ht, hnot⟩ := hmoved
    refine ih (fun c' hc' => hmore c' (mem_cons_of_mem c hc')) _
      (h.stays hc hrow hmay ⟨t, ht, hnot⟩) ⟨t, ?_, hnot⟩
    exact (joined_congr h.destinations rfl rfl).trans ht

/-! ## A run -/

def zeros : String := "0000000000000000000000000000000000000000000000000000000000000000"

def tokenOf (byte : UInt8) : Token := ⟨"v1", [byte], zeros⟩

/-- A delivery to the destination 1 of the example, with two attempts. -/
def requestOf (deliveryId : Uuid) (key : String) : EnqueueRequest where
  deliveryId := deliveryId
  ownerId := "owner"
  entryId := ⟨9⟩
  destinationId := ⟨1⟩
  key := key
  destinationRevision := 1
  tokenVersion := 1
  maxAttempts := 2
  availableAt := 0
  createdAt := 0
  inbox := some ⟨.completion, "v1", [1], zeros⟩

/-- Two deliveries are claimed, and one of them fails. -/
def twoClaims : List Call :=
  [.register ⟨1⟩ "owner" "phone" (tokenOf 1) 0, .enqueue (requestOf ⟨2⟩ "a"),
    .enqueue (requestOf ⟨3⟩ "b"), .claim (claimAt "owner" 1),
    .fail ⟨"owner", ⟨2⟩, ⟨0⟩⟩ "transport_error" 2 (some 3)]

/-- The owner rotates the token of the destination. -/
def rotated : List Call := twoClaims ++ [.rotate "owner" ⟨1⟩ 1 1 (tokenOf 2) 4]

def hashOf (_ : Bytes) : String := zeros

theorem careful_of_entries {c : Call} {s s' : Store}
    (h : (s.deliveries.entries.all fun e => e.2.val.version + 1 < maxSafeInteger &&
      (c.revises ≠ some e.2.val.destinationId || !e.2.val.mayReturn)))
    (ha : c.availableAt.all (· < maxSafeInteger)) : c.Careful s s' := by
  have hall := fun k row (hrow : s.deliveries.lookup k = some row) =>
    all_eq_true.1 h ⟨k, row⟩ (Keyed.mem_entries.2 hrow)
  simp only [bool_to_prop, Bool.not_eq_true'] at hall
  refine ⟨fun k row hrow hrevises _ => ?_, fun t ht => ?_, fun k row hrow => (hall k row hrow).1⟩
  · exact (hall k row hrow).2.resolve_left fun hne => hne hrevises
  · rw [ht] at ha
    exact of_decide_eq_true ha

theorem carefulRun_one : CarefulRun hashOf (twoClaims.take 2) :=
  ⟨careful_of_entries (by decide +kernel) (by decide +kernel),
    careful_of_entries (by decide +kernel) (by decide +kernel), trivial⟩

theorem push_deliveries_go_on_pending : CarefulRun hashOf (twoClaims.take 2) ∧
    ∃ row, (after hashOf (twoClaims.take 2)).store.deliveries.lookup ⟨2⟩ = some row ∧
      Stirs hashOf (after hashOf (twoClaims.take 2)) ⟨2⟩ row := by
  have hwaits : ((after hashOf (twoClaims.take 2)).store.deliveries.lookup ⟨2⟩).any
      (fun row => row.val.status.isWaiting) := by decide +kernel
  obtain ⟨row, hrow, hwaiting⟩ := (Option.any_eq_true _ _).1 hwaits
  exact ⟨carefulRun_one, row, hrow, (push_deliveries_go_on hashOf (twoClaims.take 2)).2
    carefulRun_one ⟨2⟩ row hrow (.inl hwaiting)⟩

/-- The token is rotated while one delivery waits for a retry and another is claimed: both stay as
    they are, the second one claimed with a lease that has expired. -/
theorem moved_deliveries_stay :
    ∃ a b : Row Delivery,
      (after hashOf rotated).store.deliveries.lookup ⟨2⟩ = some a ∧ a.val.status = .retry ∧
      (after hashOf rotated).store.deliveries.lookup ⟨3⟩ = some b ∧ b.val.leaseExpired 2 = true ∧
      ∀ more : List Call, (∀ c ∈ more, c.owner.isSome = true) →
        (run (step hashOf) more (after hashOf rotated)).store.deliveries.lookup ⟨2⟩ = some a ∧
        (run (step hashOf) more (after hashOf rotated)).store.deliveries.lookup ⟨3⟩ = some b := by
  have hboth : (fun s : Store =>
      (s.deliveries.lookup ⟨2⟩).any (fun row => row.val.status = .retry && row.val.mayReturn &&
        (s.joined row.val).any (!·.isTargetOf row.val)) &&
      (s.deliveries.lookup ⟨3⟩).any (fun row => row.val.leaseExpired 2 && row.val.mayReturn &&
        (s.joined row.val).any (!·.isTargetOf row.val))) (after hashOf rotated).store := by
    decide +kernel
  simp only [Option.any_eq_true, bool_to_prop, Bool.not_eq_true'] at hboth
  obtain ⟨hfirst, hsecond⟩ := hboth
  obtain ⟨a, ha, ⟨hretry, hmay⟩, hmoved⟩ := hfirst
  obtain ⟨b, hb, ⟨hexpired, hmay'⟩, hmoved'⟩ := hsecond
  refine ⟨a, b, ha, hretry, hb, hexpired, fun more hmore => ⟨?_, ?_⟩⟩
  · exact moved_stays hashOf more hmore _ ha hmay hmoved
  · exact moved_stays hashOf more hmore _ hb hmay' hmoved'

end AstralPlane.Push
