/-
  What a call does to the deliveries and destinations, said once.

  `DeliveryStep` lists the ways in which the row of a delivery changes, with the
  claim that is returned for it.  A call writes one destination, or enqueues one
  delivery, or moves each delivery by one such step at most (`Effect`); a call
  that raises changes nothing.
-/
import AstralPlane.Push.Deliveries

namespace AstralPlane.Push

open Tx List
open Repositories
open Python (Bytes)

variable {d existing : Destination} {ownerId : String} {destinationId k : Uuid} {token : Token}
  {c : Call} {hash : Bytes → String} {q : ClaimRequest} {row : Row Delivery}
  {l : List Claimed}
variable {deliveryId : Uuid} {e : Uuid × Delivery} {p : Uuid → Delivery → Bool}
  {rows : List (Uuid × Delivery)}

/-! ## Effects -/

/-- The row of a delivery changes, with the claims that are returned for it. -/
inductive DeliveryStep (c : Call) (s : Store) (deliveryId : Uuid) (d : Delivery) :
    List Claimed → Delivery → Prop
  | deadLetter {now : ℕ} (expired : d.leaseExpired now)
      (last : d.maxAttempts ≤ d.attemptCount) :
      DeliveryStep c s deliveryId d [] (d.deadLettered now)
  | claim {q : ClaimRequest} {t : Destination} {token : Token}
      (due : d.isDue q.ownerId q.now) (joined : s.joined d = some t)
      (target : t.isTargetOf d) (hasToken : t.token = some token) :
      DeliveryStep c s deliveryId d [⟨deliveryId, d.claimed q, token⟩] (d.claimed q)
  | acknowledge {k : ClaimKey} {at_ : ℕ} (call : c = .acknowledge k at_)
      (waits : d.status ≠ .pending) (undelivered : d.status ≠ .delivered) :
      DeliveryStep c s deliveryId d [] (d.acknowledged at_)
  | fail {k : ClaimKey} {errorCode : String} {failedAt : ℕ} {retryAt : Option ℕ}
      (call : c = .fail k errorCode failedAt retryAt)
      (taken : d.status = .claimed ∨ d.status = .retry) :
      DeliveryStep c s deliveryId d [] (d.failed errorCode failedAt retryAt)
  | supersede {t : Destination} {expiredAt : ℕ} (waiting : d.status.isWaiting)
      (joined : s.joined d = some t) (moved : t.isTargetOf d = false) :
      DeliveryStep c s deliveryId d [] (d.superseded expiredAt)

/-- The claims of one delivery. -/
def claimsFor (deliveryId : Uuid) (l : List Claimed) : List Claimed :=
  l.filter fun c => c.deliveryId = deliveryId

/-- Each delivery is as before, or has made a step. -/
structure Advances (c : Call) (s : Store) (l : List Claimed) (s' : Store) : Prop where
  destinations : s'.destinations = s.destinations
  absent : ∀ deliveryId, s.deliveries.lookup deliveryId = none →
    s'.deliveries.lookup deliveryId = none ∧ claimsFor deliveryId l = []
  present : ∀ deliveryId row, s.deliveries.lookup deliveryId = some row →
    ∃ row', s'.deliveries.lookup deliveryId = some row' ∧
      ((row' = row ∧ claimsFor deliveryId l = []) ∨
        DeliveryStep c s deliveryId row.val (claimsFor deliveryId l) row'.val)

theorem Advances.refl (c : Call) (s : Store) : Advances c s [] s :=
  ⟨rfl, fun _ h => ⟨h, rfl⟩, fun _ row h => ⟨row, h, .inl ⟨rfl, rfl⟩⟩⟩

theorem Advances.before {s s' : Store} {row' : Row Delivery} (h : Advances c s l s')
    (hrow' : s'.deliveries.lookup k = some row') :
    ∃ row, s.deliveries.lookup k = some row ∧ ((row' = row ∧ claimsFor k l = []) ∨
      DeliveryStep c s k row.val (claimsFor k l) row'.val) := by
  cases hrow : s.deliveries.lookup k with
  | none => cases (h.absent k hrow).1.symm.trans hrow'
  | some row =>
    obtain ⟨_, hnew, hstep⟩ := h.present k row hrow
    cases hnew.symm.trans hrow'
    exact ⟨row, rfl, hstep⟩

/-- A new destination, or the next revision of one. -/
def Revises : Option (Row Destination) → Destination → Prop
  | none, d' => d'.revision = 1
  | some row, d' => d'.revision = row.val.revision + 1 ∧ d'.ownerId = row.val.ownerId

/-- The destination that a call may revise. -/
def Call.revises : Call → Option Uuid
  | .rotate _ destinationId _ _ _ _ | .revoke _ destinationId _ _ | .delete _ destinationId _ _ =>
    some destinationId
  | _ => none

inductive Effect (c : Call) : Store → List Claimed → Store → Prop
  | destination {s : Store} {destinationId : Uuid} {row' : Row Destination}
      (call : s.destinations.lookup destinationId = none ∨ c.revises = some destinationId)
      (revises : Revises (s.destinations.lookup destinationId) row'.val) :
      Effect c s [] { s with destinations := s.destinations.insert destinationId row' }
  | enqueue {s : Store} {deliveryId : Uuid} {row : Row Delivery} {q : EnqueueRequest}
      {content : Content} {t : Destination} (call : c = .enqueue q)
      (valid : q.check = .ok ()) (fresh : s.deliveries.lookup deliveryId = none)
      (unclaimed : ∀ row' ∈ s.deliveries.rows,
        ¬ (row'.val.ownerId = row.val.ownerId ∧ row'.val.key = row.val.key))
      (initial : row.val = q.delivery content) (joined : s.joined row.val = some t)
      (target : t.isTargetOf row.val) :
      Effect c s [] { s with deliveries := s.deliveries.insert deliveryId row }
  | deliveries {s s' : Store} {l : List Claimed} (advances : Advances c s l s') : Effect c s l s'

theorem Effect.idle (c : Call) (s : Store) : Effect c s [] s := .deliveries (.refl c s)

/-! ## Reading -/

section
variable {s s' : Store}

theorem destinationRecord_ok {d' : Destination} (h : (destinationRecord d).Ok s d' s') :
    d' = d ∧ s' = s := by
  simp only [destinationRecord, ok_rules] at h
  obtain ⟨_, -, _, -, rfl, rfl⟩ := h
  exact ⟨rfl, rfl⟩

theorem deliveryRecord_ok {d d' : Delivery} (h : (deliveryRecord d).Ok s d' s') :
    d' = d ∧ s' = s := by
  simp only [deliveryRecord, ok_rules] at h
  obtain ⟨_, -, _, -, _, -, rfl, rfl⟩ := h
  exact ⟨rfl, rfl⟩

theorem getDestination_ok (h : (getDestination ownerId destinationId).Ok s d s') :
    s.destination ownerId destinationId = some d ∧ s' = s := by
  simp only [getDestination, ok_rules] at h
  obtain ⟨_, rfl, h⟩ := h
  split at h
  · exact absurd h ok_raise
  · rename_i d0 hd0
    obtain ⟨rfl, rfl⟩ := destinationRecord_ok h
    exact ⟨hd0, rfl⟩

theorem getDelivery_ok {d : Delivery} (h : (getDelivery ownerId deliveryId).Ok s d s') :
    (∃ row, s.deliveries.lookup deliveryId = some row ∧ row.val = d) ∧ s' = s := by
  simp only [getDelivery, ok_rules] at h
  obtain ⟨_, rfl, h⟩ := h
  split at h
  · exact absurd h ok_raise
  · rename_i d0 hd0
    obtain ⟨rfl, rfl⟩ := deliveryRecord_ok h
    obtain ⟨hrow, -⟩ := Option.filter_eq_some_iff.1 hd0
    exact ⟨Option.map_eq_some_iff.1 hrow, rfl⟩

/-! ## Destinations -/

/-- A statement that revises a destination; where it finds none, the destination is read again. -/
theorem revise_effect {selects : Destination → Bool}
    {written : Destination → Destination} {changed : Option Destination} {s1 : Store}
    {miss : Destination → Tx Store Failure Destination}
    (hupdate : (onDestinations (Sql.updateReturning destinationId selects written)).Ok s changed s1)
    (h : (match changed with
      | some d => destinationRecord d
      | none => getDestination ownerId destinationId >>= miss).Ok s1 d s')
    (hc : c.revises = some destinationId)
    (hrevision : ∀ d, (written d).revision = d.revision + 1 ∧ (written d).ownerId = d.ownerId)
    (hmiss : ∀ existing, (miss existing).ReadOnly) : Effect c s [] s' := by
  rcases (Sql.zoom_update_settles rfl).of_ok hupdate with
    ⟨rfl, rfl, -⟩ | ⟨row, row', hrow, -, hw, rfl, rfl⟩
  · obtain ⟨existing, _, hget, hexisting⟩ := ok_bind.1 h
    obtain ⟨-, rfl⟩ := getDestination_ok hget
    obtain rfl := (hmiss existing).ok hexisting
    exact .idle _ _
  · obtain ⟨-, rfl⟩ := destinationRecord_ok h
    refine .destination (.inr hc) ?_
    rw [hrow, hw]
    exact hrevision row.val

/-! ## Enqueueing -/

/-- What a call of `enqueue_delivery` that returns has found, and what it has done. -/
theorem enqueueDelivery_ok {q : EnqueueRequest} {d : Delivery} (h : (enqueueDelivery q).Ok s d s') :
    q.check = .ok () ∧ ∃ content t, q.inbox = some content ∧
      s.joined (q.delivery content) = some t ∧ t.isTargetOf (q.delivery content) ∧
      Columns.refusal (q.delivery content) = none ∧
      ((s' = s ∧ s.deliveryByKey q.ownerId q.key = some d ∧
          d.semantics = (q.delivery content).semantics) ∨
        ∃ row : Row Delivery, row.val = q.delivery content ∧
          s.deliveries.lookup q.deliveryId = none ∧
          (∀ row' ∈ s.deliveries.rows, ¬ (row'.val.ownerId = q.ownerId ∧ row'.val.key = q.key)) ∧
          s' = { s with deliveries := s.deliveries.insert q.deliveryId row }) := by
  simp only [enqueueDelivery, ok_rules, ok_argument] at h
  obtain ⟨_, hvalid, t, _, hget, _, _, hcheck, h⟩ := h
  obtain ⟨hjoined, rfl⟩ := getDestination_ok hget
  simp only [EnqueueRequest.checkTarget, ok_rules] at hcheck
  obtain ⟨_, hdeleted, _, hrevoked, _, hrevision, hversion, rfl⟩ := hcheck
  have htarget : ∀ content, t.isTargetOf (q.delivery content) := fun content => by
    simp only [Destination.isTargetOf, Destination.isLive, hdeleted, hrevoked, Bool.and_self,
      Bool.true_and, Bool.and_eq_true]
    exact ⟨hversion, hrevision⟩
  split at h
  · exact absurd h ok_raise
  · rename_i content hinbox
    refine ⟨hvalid, content, t, hinbox, hjoined, htarget content, ?_⟩
    simp only [insertDelivery, ok_bind, onDeliveries, ok_zoom] at h
    obtain ⟨inserted, _, ⟨t', ht, rfl⟩, h⟩ := h
    obtain ⟨hrefusal, ⟨rfl, rfl⟩ | ⟨row, hnone, hfree, hrow, rfl, rfl⟩⟩ := Sql.insertOrNothing_ok ht
    · simp only [enqueuedBefore, ok_rules] at h
      obtain ⟨_, rfl, h⟩ := h
      split at h
      · exact absurd h ok_raise
      · rename_i hfound
        simp only [ok_rules, decide_eq_true_eq] at h
        obtain ⟨_, _, hread, _, hsame, rfl, rfl⟩ := h
        obtain ⟨rfl, rfl⟩ := deliveryRecord_ok hread
        exact ⟨hrefusal, .inl ⟨rfl, hfound, hsame⟩⟩
    · obtain ⟨-, rfl⟩ := deliveryRecord_ok h
      refine ⟨hrefusal, .inr ⟨row, hrow, hnone, fun row' hrow' hsame => ?_, rfl⟩⟩
      have hclash := hfree row' hrow'
      simp [EnqueueRequest.delivery, hsame.1, hsame.2] at hclash

/-! ## One delivery -/

theorem Advances.single {row' : Row Delivery} (hrow : s.deliveries.lookup deliveryId = some row)
    (hstep : DeliveryStep c s deliveryId row.val [] row'.val) :
    Advances c s [] { s with deliveries := s.deliveries.insert deliveryId row' } := by
  refine ⟨rfl, fun k hk => ?_, fun k r hr => ?_⟩
  · have hne : k ≠ deliveryId := by
      rintro rfl
      cases hrow.symm.trans hk
    exact ⟨by rw [Keyed.lookup_write, if_neg hne, hk], rfl⟩
  · simp only [Keyed.lookup_write]
    by_cases hk : k = deliveryId
    · subst hk
      cases hrow.symm.trans hr
      exact ⟨row', if_pos rfl, .inr hstep⟩
    · exact ⟨r, by rw [if_neg hk, hr], .inl ⟨rfl, rfl⟩⟩

/-- A statement that settles a claim; where it finds none, the delivery is read again. -/
theorem settle_effect {key : ClaimKey} {selects : Delivery → Bool} {written : Delivery → Delivery}
    {changed : Option Delivery} {s1 : Store} {miss : Delivery → Tx Store Failure Delivery}
    {d : Delivery}
    (hupdate : (onDeliveries (Sql.updateReturning key.deliveryId selects written)).Ok s changed s1)
    (h : (match changed with
      | some d => deliveryRecord d
      | none => getDelivery key.ownerId key.deliveryId >>= miss).Ok s1 d s')
    (hstep : ∀ d, selects d → d.claimId = some key.claimId ∧
      DeliveryStep c s key.deliveryId d [] (written d))
    (hmiss : ∀ existing, (miss existing).Ok s d s' → existing.claimId = some key.claimId ∧ s' = s) :
    Effect c s [] s' ∧
      ∃ row, s.deliveries.lookup key.deliveryId = some row ∧ row.val.claimId = some key.claimId := by
  rcases (Sql.zoom_update_settles rfl).of_ok hupdate with
    ⟨rfl, rfl, -⟩ | ⟨row, row', hrow, hselects, hw, rfl, rfl⟩
  · obtain ⟨existing, _, hget, hexisting⟩ := ok_bind.1 h
    obtain ⟨⟨row, hrow, rfl⟩, rfl⟩ := getDelivery_ok hget
    obtain ⟨hclaim, rfl⟩ := hmiss _ hexisting
    exact ⟨.idle _ _, row, hrow, hclaim⟩
  · obtain ⟨-, rfl⟩ := deliveryRecord_ok h
    obtain ⟨hclaim, hstep⟩ := hstep _ hselects
    refine ⟨.deliveries (.single hrow ?_), row, hrow, hclaim⟩
    rwa [hw]

theorem acknowledge_effect {k : ClaimKey} {at_ : ℕ} {d : Delivery}
    (h : (acknowledgeDelivery k at_).Ok s d s') : Effect (.acknowledge k at_) s [] s' ∧
      ∃ row, s.deliveries.lookup k.deliveryId = some row ∧ row.val.claimId = some k.claimId := by
  simp only [acknowledgeDelivery, ok_rules, ok_argument] at h
  obtain ⟨_, -, _, -, changed, s1, hupdate, h⟩ := h
  refine settle_effect hupdate h (fun d hd => ?_) fun existing hmiss => ?_
  · simp only [ClaimKey.meets, bool_to_prop] at hd
    obtain ⟨⟨⟨⟨⟨⟨⟨-, hclaim⟩, hpending⟩, hdelivered⟩, -⟩, -⟩, -⟩, -⟩ := hd
    exact ⟨hclaim, .acknowledge rfl hpending hdelivered⟩
  · simp only [acknowledgmentMiss, ok_ite, ok_rules, ok_raise, and_false, exists_false, or_false,
      bool_to_prop] at hmiss
    exact ⟨hmiss.1.1.2, hmiss.2.2.symm⟩

theorem fail_effect {k : ClaimKey} {errorCode : String} {failedAt : ℕ} {retryAt : Option ℕ}
    {d : Delivery} (h : (failDelivery k errorCode failedAt retryAt).Ok s d s') :
    Effect (.fail k errorCode failedAt retryAt) s [] s' ∧
      ∃ row, s.deliveries.lookup k.deliveryId = some row ∧ row.val.claimId = some k.claimId := by
  simp only [failDelivery, ok_rules, ok_argument] at h
  obtain ⟨_, -, _, -, _, -, _, -, changed, s1, hupdate, h⟩ := h
  refine settle_effect hupdate h (fun d hd => ?_) fun existing hmiss => ?_
  · simp only [ClaimKey.meets, bool_to_prop] at hd
    obtain ⟨⟨⟨⟨⟨⟨-, hclaim⟩, hstatus⟩, -⟩, -⟩, -⟩, -⟩ := hd
    exact ⟨hclaim, .fail rfl hstatus⟩
  · simp only [failureMiss, ok_ite, ok_rules, ok_raise, and_false, exists_false, or_false,
      bool_to_prop] at hmiss
    exact ⟨hmiss.1.1.1.1.1, hmiss.2.2.symm⟩

/-! ## The deliveries of a statement -/

theorem mem_select : e ∈ s.select p ↔
      ∃ row, s.deliveries.lookup e.1 = some row ∧ row.val = e.2 ∧ p e.1 e.2 := by
  simp only [Store.select, mem_map, mem_filter, Sigma.exists, Keyed.mem_entries]
  constructor
  · rintro ⟨k, row, ⟨hrow, hp⟩, rfl⟩
    exact ⟨row, hrow, rfl, hp⟩
  · rintro ⟨row, hrow, hval, hp⟩
    exact ⟨_, row, ⟨hrow, hval ▸ hp⟩, Prod.ext rfl hval⟩

theorem select_nodup (s : Store) : ((s.select p).map (·.1)).Nodup := by
  have hkeys : (s.select p).map (·.1) =
      (s.deliveries.entries.filter fun e => p e.1 e.2.val).keys := by
    simp only [Store.select, map_map, List.keys]
    rfl
  rw [hkeys]
  exact s.deliveries.nodupKeys.sublist filter_sublist

theorem orderBy_keys_nodup {key : Uuid × Delivery → ℕ × ℕ} {l : List (Uuid × Delivery)}
    (h : (l.map (·.1)).Nodup) (n : ℕ) : (((orderBy key l).take n).map (·.1)).Nodup := by
  have hall : ((orderBy key l).map (·.1)).Nodup := ((orderBy_perm key l).map (·.1)).nodup_iff.2 h
  exact hall.sublist ((take_sublist n _).map _)

theorem exhausted_nodup (s : Store) (q : ClaimRequest) : (s.exhausted q).Nodup := select_nodup s

theorem toClaim_nodup (s : Store) (q : ClaimRequest) : (s.toClaim q).Nodup :=
  (orderBy_keys_nodup (select_nodup s) q.limit).sublist (filter_sublist.map _)

theorem stale_nodup (s : Store) (q : ExpireRequest) : (s.stale q).Nodup :=
  orderBy_keys_nodup (select_nodup s) q.limit

theorem mem_exhausted : k ∈ s.exhausted q ↔
    ∃ row, s.deliveries.lookup k = some row ∧ row.val.isExhausted q.ownerId q.now := by
  simp only [Store.exhausted, mem_map, mem_select]
  constructor
  · rintro ⟨e, ⟨row, hrow, hval, hp⟩, rfl⟩
    exact ⟨row, hrow, hval ▸ hp⟩
  · rintro ⟨row, hrow, hp⟩
    exact ⟨(k, row.val), ⟨row, hrow, rfl, hp⟩, rfl⟩

theorem mem_claimable (h : e ∈ s.claimable q) :
    ∃ row t, s.deliveries.lookup e.1 = some row ∧ row.val = e.2 ∧
      e.2.isDue q.ownerId q.now ∧ s.joined e.2 = some t ∧ t.isTargetOf e.2 := by
  obtain ⟨row, hrow, hval, hp⟩ := mem_select.1 h
  simp only [Bool.and_eq_true, Option.any_eq_true] at hp
  obtain ⟨⟨hdue, t, ht, htarget⟩, -⟩ := hp
  exact ⟨row, t, hrow, hval, hdue, ht, htarget⟩

theorem toClaim_claimable (h : k ∈ s.toClaim q) :
    ∃ row t, s.deliveries.lookup k = some row ∧ row.val.isDue q.ownerId q.now ∧
      s.joined row.val = some t ∧ t.isTargetOf row.val := by
  simp only [Store.toClaim, Store.candidates, mem_map, mem_filter] at h
  obtain ⟨e, ⟨hmem, -⟩, rfl⟩ := h
  obtain ⟨row, t, hrow, hval, hdue, ht, htarget⟩ :=
    mem_claimable (mem_orderBy.1 (mem_of_mem_take hmem))
  rw [← hval] at hdue ht htarget
  exact ⟨row, t, hrow, hdue, ht, htarget⟩

theorem toClaim_version (h : k ∈ s.toClaim q)
    (hrow : s.deliveries.lookup k = some row) : row.val.version < maxSafeInteger := by
  simp only [Store.toClaim, Store.candidates, mem_map, mem_filter] at h
  obtain ⟨e, ⟨hmem, hversion⟩, rfl⟩ := h
  obtain ⟨row', _, hrow', hval, -⟩ := mem_claimable (mem_orderBy.1 (mem_of_mem_take hmem))
  cases hrow.symm.trans hrow'
  rw [hval]
  simpa using hversion

theorem toClaim_not_exhausted (h : k ∈ s.toClaim q) : k ∉ s.exhausted q := by
  intro hex
  obtain ⟨row, _, hrow, hdue, -⟩ := toClaim_claimable h
  obtain ⟨row', hrow', hlast⟩ := mem_exhausted.1 hex
  cases hrow.symm.trans hrow'
  simp only [Delivery.isDue, Delivery.isExhausted, bool_to_prop] at hdue hlast
  omega

theorem stale_withdrawable {q : ExpireRequest} (h : k ∈ s.stale q) :
    ∃ row t, s.deliveries.lookup k = some row ∧ (k, row.val) ∈ s.withdrawable q ∧
      row.val.status.isWaiting ∧ s.joined row.val = some t ∧ t.isTargetOf row.val = false := by
  simp only [Store.stale, mem_map] at h
  obtain ⟨⟨_, d⟩, hmem, rfl⟩ := h
  have hin := mem_orderBy.1 (mem_of_mem_take hmem)
  obtain ⟨row, hrow, rfl, hp⟩ := mem_select.1 hin
  simp only [Bool.and_eq_true, Option.any_eq_true, Bool.not_eq_true'] at hp
  obtain ⟨⟨⟨⟨-, hwaiting⟩, -⟩, t, ht, hmoved⟩, -⟩ := hp
  exact ⟨row, t, hrow, hin, hwaiting, ht, hmoved⟩

theorem updateDeliveries_ok {written : Delivery → Delivery} {keys : List Uuid}
    {reply : List (Uuid × Delivery)} (hn : keys.Nodup)
    (hk : ∀ k ∈ keys, ∃ row, s.deliveries.lookup k = some row)
    (h : (onDeliveries (Sql.updateKeys written keys)).Ok s reply s') :
    s'.destinations = s.destinations ∧
      Sql.Updated written keys s.deliveries reply s'.deliveries := by
  rw [onDeliveries, ok_zoom] at h
  obtain ⟨t, ht, rfl⟩ := h
  exact ⟨rfl, Sql.updateKeys_ok hn hk ht⟩

theorem claimedRecord_ok {row : Uuid × Delivery} {c : Claimed}
    (h : (claimedRecord s row).Ok s' c s') : c.deliveryId = row.1 ∧ c.delivery = row.2 ∧
      ∃ t, s.joined row.2 = some t ∧ t.token = some c.token := by
  simp only [claimedRecord, ok_bind] at h
  obtain ⟨_, _, hread, h⟩ := h
  obtain ⟨rfl, rfl⟩ := deliveryRecord_ok hread
  split at h
  · exact absurd h ok_raise
  · rename_i token htoken
    obtain ⟨rfl, -⟩ := ok_pure.1 h
    exact ⟨rfl, rfl, Option.bind_eq_some_iff.1 htoken⟩

theorem readOnly_deliveryRecord (d : Delivery) : (deliveryRecord d).ReadOnly := by
  refine readOnly_bind (readOnly_require _ _) fun _ => ?_
  simp

theorem readOnly_claimedRecord (s : Store) (row : Uuid × Delivery) :
    (claimedRecord s row).ReadOnly := by
  refine readOnly_bind (readOnly_deliveryRecord row.2) fun _ => ?_
  split <;> simp

theorem joined_congr {d d' : Delivery} (h : s'.destinations = s.destinations)
    (howner : d'.ownerId = d.ownerId) (hid : d'.destinationId = d.destinationId) :
    s'.joined d' = s.joined d := by
  rw [Store.joined, Store.joined, Store.destination, Store.destination, h, howner, hid]

/-- The claims that a statement returns, by their deliveries. -/
structure Returned (s : Store) (rows : List (Uuid × Delivery)) (l : List Claimed) : Prop where
  keys : (l.map (·.deliveryId)).Perm (rows.map (·.1))
  rows : ∀ row ∈ rows, ∃ c ∈ l, c.deliveryId = row.1 ∧ c.delivery = row.2 ∧
    ∃ t, s.joined row.2 = some t ∧ t.token = some c.token

theorem returned_of_collect {claimed : List Claimed} (key : Claimed → ℕ × ℕ)
    (h : (Tx.collect (claimedRecord s) rows).Ok s claimed s') :
    s' = s ∧ Returned s rows (orderBy key claimed) := by
  obtain ⟨rfl, hall⟩ := Tx.collect_readOnly_ok (readOnly_claimedRecord s) h
  refine ⟨rfl, ?_, fun row hrow => ?_⟩
  · have hkeys := map_eq_of_forall₂ (f := (·.1)) (g := (·.deliveryId))
      (fun _ _ hc => (claimedRecord_ok hc).1.symm) hall
    rw [hkeys]
    exact (orderBy_perm key claimed).map _
  · obtain ⟨c, hc, hok⟩ := forall₂_mem_left hall hrow
    exact ⟨c, mem_orderBy.2 hc, claimedRecord_ok hok⟩

theorem Returned.claimsFor_some (h : Returned s rows l) (hn : (rows.map (·.1)).Nodup)
    {row : Uuid × Delivery} (hrow : row ∈ rows) :
    ∃ t token, claimsFor row.1 l = [⟨row.1, row.2, token⟩] ∧ s.joined row.2 = some t ∧
      t.token = some token := by
  obtain ⟨c, hc, hid, hdelivery, t, ht, htoken⟩ := h.rows row hrow
  refine ⟨t, c.token, ?_, ht, htoken⟩
  have hfilter : l.filter (fun c' => c'.deliveryId = c.deliveryId) = [c] :=
    filter_key (h.keys.nodup_iff.2 hn) hc
  rw [hid] at hfilter
  rw [claimsFor, hfilter, ← hid, ← hdelivery]

theorem claimSql_ok (h : (claimSql q).Ok s rows s') : s'.destinations = s.destinations ∧ ∃ dead t,
      Sql.Updated (·.deadLettered q.now) (s.exhausted q) s.deliveries dead t ∧
      Sql.Updated (·.claimed q) (s.toClaim q) t rows s'.deliveries := by
  simp only [claimSql, ok_rules] at h
  obtain ⟨_, rfl, dead, s1, hdead, hclaim⟩ := h
  obtain ⟨hd1, hfirst⟩ := updateDeliveries_ok (exhausted_nodup s q)
    (fun k hk => (mem_exhausted.1 hk).imp fun _ h => h.1) hdead
  have hpresent : ∀ k ∈ s.toClaim q, ∃ row, s1.deliveries.lookup k = some row := fun k hk => by
    obtain ⟨row, _, hrow, -⟩ := toClaim_claimable hk
    exact ⟨row, by rw [hfirst.others k (toClaim_not_exhausted hk), hrow]⟩
  obtain ⟨hd2, hsecond⟩ := updateDeliveries_ok (toClaim_nodup s q) hpresent hclaim
  exact ⟨hd2.trans hd1, dead, s1.deliveries, hfirst, hsecond⟩

theorem claimSql_advances (h : (claimSql q).Ok s rows s') (hl : Returned s' rows l) :
    Advances (.claim q) s l s' := by
  obtain ⟨hd, dead, t, hfirst, hsecond⟩ := claimSql_ok h
  have hnone : ∀ k, k ∉ s.toClaim q → s'.deliveries.lookup k = t.lookup k ∧ claimsFor k l = [] :=
    fun k hk => by
      refine ⟨hsecond.others k hk, filter_eq_nil_iff.2 fun c hc hck => hk ?_⟩
      rw [← of_decide_eq_true hck, ← hsecond.returned]
      exact hl.keys.mem_iff.1 (mem_map_of_mem hc)
  refine ⟨hd, fun k hk => ?_, fun k row hrow => ?_⟩
  · have hnotClaim : k ∉ s.toClaim q := fun hmem => by
      obtain ⟨row, _, hrow, -⟩ := toClaim_claimable hmem
      cases hk.symm.trans hrow
    have hnotDead : k ∉ s.exhausted q := fun hmem => by
      obtain ⟨row, hrow, -⟩ := mem_exhausted.1 hmem
      cases hk.symm.trans hrow
    refine ⟨?_, (hnone k hnotClaim).2⟩
    rw [(hnone k hnotClaim).1, hfirst.others k hnotDead, hk]
  · by_cases hmem : k ∈ s.toClaim q
    · obtain ⟨row1, row2, hrow1, hrow2, hw, hin⟩ := hsecond.rows k hmem
      rw [hfirst.others k (toClaim_not_exhausted hmem)] at hrow1
      cases hrow.symm.trans hrow1
      obtain ⟨row0, target, hrow0, hdue, hjoined, htarget⟩ := toClaim_claimable hmem
      cases hrow.symm.trans hrow0
      have hn : (rows.map (·.1)).Nodup := by
        rw [hsecond.returned]
        exact toClaim_nodup s q
      obtain ⟨target', token, hclaims, hjoined', htoken⟩ := hl.claimsFor_some hn hin
      have hsame : s'.joined row2.val = s.joined row.val := by
        rw [hw]
        exact joined_congr hd rfl rfl
      cases (hsame.symm.trans hjoined').symm.trans hjoined
      refine ⟨row2, hrow2, .inr ?_⟩
      rw [hclaims, hw]
      exact .claim hdue hjoined htarget htoken
    · rw [(hnone k hmem).1, (hnone k hmem).2]
      -- a dead letter, or as before
      by_cases hdead : k ∈ s.exhausted q
      · obtain ⟨row', hrow', hw⟩ := hfirst.row hdead hrow
        obtain ⟨row0, hrow0, hexhausted⟩ := mem_exhausted.1 hdead
        cases hrow.symm.trans hrow0
        simp only [Delivery.isExhausted, bool_to_prop] at hexhausted
        refine ⟨row', hrow', .inr ?_⟩
        rw [hw]
        exact .deadLetter hexhausted.1.2 hexhausted.2
      · exact ⟨row, by rw [hfirst.others k hdead, hrow], .inl ⟨rfl, rfl⟩⟩

theorem claim_effect (h : (claimDeliveries q).Ok s l s') : Advances (.claim q) s l s' := by
  simp only [claimDeliveries, ok_rules, ok_argument] at h
  obtain ⟨_, -, rows, s1, hsql, _, rfl, claimed, _, hcollect, _, -, rfl, rfl⟩ := h
  obtain ⟨rfl, hreturned⟩ := returned_of_collect
    (fun c => (c.delivery.availableAt, c.deliveryId.int)) hcollect
  exact claimSql_advances hsql hreturned

theorem expire_effect {q : ExpireRequest} {l : List Delivery}
    (h : (expireStaleDeliveries q).Ok s l s') : Advances (.expireStale q) s [] s' := by
  simp only [expireStaleDeliveries, ok_rules, ok_argument] at h
  obtain ⟨_, -, _, -, _, -, _, rfl, rows, s1, hupdate, _, s2, hcollect, -, rfl⟩ := h
  have hpresent : ∀ k ∈ s.stale q, ∃ row, s.deliveries.lookup k = some row := fun k hk => by
    obtain ⟨row, _, hrow, -⟩ := stale_withdrawable hk
    exact ⟨row, hrow⟩
  obtain ⟨hd, hupdated⟩ := updateDeliveries_ok (stale_nodup s q) hpresent hupdate
  have hread : ∀ row : Uuid × Delivery,
      ((row.1, ·) <$> deliveryRecord row.2 : Tx Store Failure _).ReadOnly := fun row => by
    exact readOnly_map (readOnly_deliveryRecord row.2) _
  obtain ⟨rfl, -⟩ := Tx.collect_readOnly_ok hread hcollect
  refine ⟨hd, fun k hk => ⟨?_, rfl⟩, fun k row hrow => ?_⟩
  · rw [hupdated.others k, hk]
    intro hmem
    obtain ⟨row, hrow⟩ := hpresent k hmem
    cases hk.symm.trans hrow
  · by_cases hmem : k ∈ s.stale q
    · obtain ⟨row', hrow', hw⟩ := hupdated.row hmem hrow
      obtain ⟨row0, t, hrow0, -, hwaiting, ht, hmoved⟩ := stale_withdrawable hmem
      cases hrow.symm.trans hrow0
      refine ⟨row', hrow', .inr ?_⟩
      rw [hw]
      exact .supersede hwaiting ht hmoved
    · exact ⟨row, by rw [hupdated.others k hmem, hrow], .inl ⟨rfl, rfl⟩⟩

/-! ## Calls -/

theorem exec_effect (h : (c.exec hash).Ok s l s') : Effect c s l s' := by
  cases c
  case claim => exact .deliveries (claim_effect h)
  all_goals obtain ⟨_, hcall, rfl⟩ := ok_map.1 h
  case register =>
    simp only [registerDestination, ok_rules, ok_argument] at hcall
    obtain ⟨_, -, _, -, _, -, _, -, inserted, s1, hinsert, hcall⟩ := hcall
    rw [onDestinations, ok_zoom] at hinsert
    obtain ⟨t, ht, rfl⟩ := hinsert
    obtain ⟨-, ⟨rfl, rfl⟩ | ⟨row, hnone, -, hrow, rfl, rfl⟩⟩ := Sql.insertOrNothing_ok ht
    · simp only [registeredBefore, ok_rules] at hcall
      obtain ⟨_, rfl, hcall⟩ := hcall
      split at hcall
      · exact absurd hcall ok_raise
      · simp only [ok_rules] at hcall
        obtain ⟨_, _, hread, _, -, -, rfl⟩ := hcall
        obtain ⟨-, rfl⟩ := destinationRecord_ok hread
        exact .idle _ _
    · obtain ⟨-, rfl⟩ := destinationRecord_ok hcall
      refine .destination (.inl hnone) ?_
      rw [hnone, hrow]
      rfl
  case rotate =>
    simp only [rotateDestinationToken, ok_rules, ok_argument] at hcall
    obtain ⟨_, -, _, -, _, -, _, -, _, -, _, -, changed, s1, hupdate, hcall⟩ := hcall
    refine revise_effect hupdate hcall rfl (fun _ => ⟨rfl, rfl⟩) fun _ => ?_
    rw [rotationMiss]
    split <;> simp
  case revoke =>
    simp only [revokeDestination, ok_rules, ok_argument] at hcall
    obtain ⟨_, -, _, -, _, -, _, -, changed, s1, hupdate, hcall⟩ := hcall
    refine revise_effect hupdate hcall rfl (fun _ => ⟨rfl, rfl⟩) fun _ => ?_
    rw [revocationMiss]
    split <;> simp
  case delete =>
    simp only [deleteDestination, ok_rules, ok_argument] at hcall
    obtain ⟨_, -, _, -, _, -, _, -, changed, s1, hupdate, hcall⟩ := hcall
    refine revise_effect hupdate hcall rfl (fun _ => ⟨rfl, rfl⟩) fun _ => ?_
    rw [deletionMiss]
    split <;> simp
  case enqueue =>
    obtain ⟨hvalid, content, t, -, hjoined, htarget, -, ⟨rfl, -⟩ | ⟨row, hrow, hnone, hfree, rfl⟩⟩ :=
      enqueueDelivery_ok hcall
    · exact .idle _ _
    · rw [← hrow] at hjoined htarget
      refine .enqueue rfl hvalid hnone ?_ hrow hjoined htarget
      rw [hrow]
      exact hfree
  case acknowledge => exact (acknowledge_effect hcall).1
  case fail => exact (fail_effect hcall).1
  case expireStale => exact .deliveries (expire_effect hcall)

end

/-- A call has one effect, which the log tells of. -/
theorem step_effect (hash : Bytes → String) (c : Call) (s : State) :
    ∃ l, Effect c s.store l (step hash c s).store ∧
      (step hash c s).log = s.log ++ storedEvents s.store (step hash c s).store ++
        enqueuedEvents s.store (step hash c s).store ++ l.map Claimed.event := by
  rcases hc : (c.exec hash) s.store with ⟨e | l, s1⟩
  · have hstore : (step hash c s).store = s.store := by simp only [step, Tx.commit, hc]
    refine ⟨[], ?_, ?_⟩
    · rw [hstore]
      exact .idle _ _
    · simp only [step, Tx.reply, hc, claimsOf, map_nil, append_nil]
  · have hstore : (step hash c s).store = s1 := by simp only [step, Tx.commit, hc]
    refine ⟨l, ?_, ?_⟩
    · rw [hstore]
      exact exec_effect hc
    · simp only [step, Tx.reply, hc, claimsOf]

end AstralPlane.Push
