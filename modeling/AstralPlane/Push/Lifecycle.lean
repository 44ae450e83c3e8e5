/-
  What the log says of the deliveries, in every run.

  The log has the tokens that a destination had at each revision, the revision
  that a delivery was enqueued for, and every claim with the token that it
  returned.  The rows agree with it (`Sound`): the attempts of a delivery are its
  claims, its claim id is that of the last one, and every claim has returned the
  token of the revision that the delivery was enqueued for.
-/
import AstralPlane.Push.Effects

namespace AstralPlane.Push

open List Keyed
open Python (Bytes)

variable {e : Event} {deliveryId destinationId : Uuid} {row' : Row Destination} {d : Delivery}
  {row : Row Delivery} {c : Call} {l : List Claimed}

/-! ## The log -/

def Event.claimOf (deliveryId : Uuid) : Event → Option Uuid
  | .claimed deliveryId' claimId _ _ _ => if deliveryId' = deliveryId then some claimId else none
  | _ => none

/-- The claims of a delivery, in their order. -/
def claims (log : List Event) (deliveryId : Uuid) : List Uuid :=
  log.filterMap (·.claimOf deliveryId)

theorem claims_append (log l : List Event) (deliveryId : Uuid) :
    claims (log ++ l) deliveryId = claims log deliveryId ++ claims l deliveryId :=
  filterMap_append

theorem claims_events (deliveryId : Uuid) (l : List Claimed) :
    claims (l.map Claimed.event) deliveryId =
      (claimsFor deliveryId l).map fun c => c.delivery.claimId.getD ⟨0⟩ := by
  induction l with
  | nil => rfl
  | cons c l ih =>
    rw [map_cons, claims, claimsFor]
    by_cases hc : c.deliveryId = deliveryId
    · have hclaim : c.event.claimOf deliveryId = some (c.delivery.claimId.getD ⟨0⟩) := if_pos hc
      rw [filterMap_cons_some hclaim, filter_cons_of_pos (by simpa using hc), map_cons]
      exact congrArg _ ih
    · have hclaim : c.event.claimOf deliveryId = none := if_neg hc
      rw [filterMap_cons_none hclaim, filter_cons_of_neg (by simpa using hc)]
      exact ih

section
variable {s s' : Store} {log l : List Event}

theorem mem_storedEvents : e ∈ storedEvents s s' ↔
    ∃ destinationId row, s'.destinations.lookup destinationId = some row ∧
      s.destinations.lookup destinationId ≠ some row ∧
      e = .stored destinationId row.val.revision row.val.token := by
  simp only [storedEvents, mem_map, mem_filter, decide_eq_true_eq, Sigma.exists,
    mem_entries, and_assoc, @eq_comm _ e]

theorem mem_enqueuedEvents : e ∈ enqueuedEvents s s' ↔
    ∃ deliveryId row, s'.deliveries.lookup deliveryId = some row ∧
      s.deliveries.lookup deliveryId = none ∧
      e = .enqueued deliveryId row.val.destinationId row.val.destinationRevision := by
  simp only [enqueuedEvents, mem_map, mem_filter, Option.isNone_iff_eq_none, Sigma.exists,
    mem_entries, and_assoc, @eq_comm _ e]

/-- An event that is not a claim of the delivery does not count for it. -/
theorem claims_append_event (h : ∀ e', e' ∈ l ↔ e' = e)
    (he : e.claimOf deliveryId = none) : claims (log ++ l) deliveryId = claims log deliveryId := by
  have hnone : claims l deliveryId = [] := filterMap_eq_nil_iff.2 fun e' hl => (h e').1 hl ▸ he
  rw [claims_append, hnone, append_nil]

theorem mem_enqueuedEvents_insert
    (fresh : s.deliveries.lookup deliveryId = none) (row : Row Delivery) :
    e ∈ enqueuedEvents s { s with deliveries := s.deliveries.insert deliveryId row } ↔
      e = .enqueued deliveryId row.val.destinationId row.val.destinationRevision := by
  rw [mem_enqueuedEvents]
  constructor
  · rintro ⟨k, r, hr, hnone, rfl⟩
    rcases write_cases hr with ⟨rfl, rfl⟩ | ⟨-, hr⟩
    · rfl
    · cases hnone.symm.trans hr
  · rintro rfl
    exact ⟨deliveryId, row, by simp only [lookup_write, if_pos], fresh, rfl⟩

theorem storedEvents_of_same (h : s'.destinations = s.destinations) : storedEvents s s' = [] := by
  refine eq_nil_iff_forall_not_mem.2 fun e he => ?_
  obtain ⟨k, row, hrow, hne, -⟩ := mem_storedEvents.1 he
  rw [h] at hrow
  exact hne hrow

theorem enqueuedEvents_of_absent
    (h : ∀ k, s.deliveries.lookup k = none → s'.deliveries.lookup k = none) :
    enqueuedEvents s s' = [] := by
  refine eq_nil_iff_forall_not_mem.2 fun e he => ?_
  obtain ⟨k, row, hrow, hnone, -⟩ := mem_enqueuedEvents.1 he
  cases (h k hnone).symm.trans hrow

end

/-! ## The invariant -/

structure DeliverySound (s : Store) (log : List Event) (deliveryId : Uuid) (d : Delivery) :
    Prop where
  attempts : d.attemptCount = (claims log deliveryId).length
  latest : d.claimId = (claims log deliveryId).getLast?
  enqueued : Event.enqueued deliveryId d.destinationId d.destinationRevision ∈ log
  joined : (s.joined d).isSome

structure DestinationSound (log : List Event) (destinationId : Uuid) (d : Destination) : Prop where
  stored : Event.stored destinationId d.revision d.token ∈ log
  last : ∀ revision token, Event.stored destinationId revision token ∈ log → revision ≤ d.revision

structure Sound (s : Store) (log : List Event) : Prop where
  delivery : ∀ deliveryId row, s.deliveries.lookup deliveryId = some row →
    DeliverySound s log deliveryId row.val
  absent : ∀ deliveryId, s.deliveries.lookup deliveryId = none → claims log deliveryId = [] ∧
    ∀ destinationId revision, Event.enqueued deliveryId destinationId revision ∉ log
  destination : ∀ destinationId row, s.destinations.lookup destinationId = some row →
    DestinationSound log destinationId row.val
  destinationAbsent : ∀ destinationId, s.destinations.lookup destinationId = none →
    ∀ revision token, Event.stored destinationId revision token ∉ log
  storedOnce : ∀ destinationId revision token token',
    Event.stored destinationId revision token ∈ log →
    Event.stored destinationId revision token' ∈ log → token = token'
  enqueuedOnce : ∀ deliveryId destinationId revision destinationId' revision',
    Event.enqueued deliveryId destinationId revision ∈ log →
    Event.enqueued deliveryId destinationId' revision' ∈ log →
    destinationId = destinationId' ∧ revision = revision'
  tokens : ∀ deliveryId claimId destinationId revision token,
    Event.claimed deliveryId claimId destinationId revision token ∈ log →
    Event.enqueued deliveryId destinationId revision ∈ log ∧
      Event.stored destinationId revision (some token) ∈ log

theorem sound_empty : Sound ⟨∅, ∅⟩ [] := by
  constructor <;> simp [claims]

section
variable {s s' : Store} {log : List Event}

theorem joined_eq_some {t : Destination} (h : s.joined d = some t) :
    ∃ row, s.destinations.lookup d.destinationId = some row ∧ row.val = t := by
  obtain ⟨hmap, -⟩ := Option.filter_eq_some_iff.1 h
  exact Option.map_eq_some_iff.1 hmap

theorem DeliverySound.mono {log' : List Event}
    (h : DeliverySound s log deliveryId d) (hsub : log ⊆ log')
    (hclaims : claims log' deliveryId = claims log deliveryId)
    (hjoined : (s'.joined d).isSome) : DeliverySound s' log' deliveryId d where
  attempts := by rw [hclaims]; exact h.attempts
  latest := by rw [hclaims]; exact h.latest
  enqueued := hsub h.enqueued
  joined := hjoined

theorem joined_destination (hr : Revises (s.destinations.lookup destinationId) row'.val)
    (h : (s.joined d).isSome) :
    (Store.joined { s with destinations := s.destinations.insert destinationId row' } d).isSome =
      true := by
  obtain ⟨t, ht⟩ := Option.isSome_iff_exists.1 h
  obtain ⟨hmap, howner⟩ := Option.filter_eq_some_iff.1 ht
  obtain ⟨row, hrow, rfl⟩ := Option.map_eq_some_iff.1 hmap
  simp only [Store.joined, Store.destination, lookup_write]
  by_cases hid : d.destinationId = destinationId
  · subst hid
    rw [hrow] at hr
    rw [if_pos rfl, Option.map_some, Option.filter_some, if_pos]
    · rfl
    · rw [hr.2]
      exact howner
  · rw [if_neg hid, hrow, Option.map_some, Option.filter_some, if_pos howner]
    rfl

theorem Sound.writeDestination (h : Sound s log)
    (hr : Revises (s.destinations.lookup destinationId) row'.val) :
    Sound { s with destinations := s.destinations.insert destinationId row' }
      (log ++ storedEvents s { s with destinations := s.destinations.insert destinationId row' }) := by
  -- every event before is of an earlier revision
  have hnewer : ∀ revision token, Event.stored destinationId revision token ∈ log →
      revision < row'.val.revision := by
    intro revision token hmem
    cases hold : s.destinations.lookup destinationId with
    | none => exact absurd hmem (h.destinationAbsent destinationId hold revision token)
    | some row =>
      have hle := (h.destination destinationId row hold).last revision token hmem
      rw [hold] at hr
      have hrevision := hr.1
      omega
  have hevent : ∀ e, e ∈ storedEvents s
      { s with destinations := s.destinations.insert destinationId row' } ↔
        e = .stored destinationId row'.val.revision row'.val.token := by
    intro e
    rw [mem_storedEvents]
    constructor
    · rintro ⟨k, row, hrow, hchanged, rfl⟩
      rcases write_cases hrow with ⟨rfl, rfl⟩ | ⟨-, hrow⟩
      · rfl
      · exact absurd hrow hchanged
    · rintro rfl
      exact ⟨destinationId, row', by simp only [lookup_write, if_pos], fun hold =>
        lt_irrefl _ (hnewer _ _ (h.destination destinationId row' hold).stored), rfl⟩
  generalize storedEvents s { s with destinations := s.destinations.insert destinationId row' } = l
    at hevent
  have hmem : ∀ e, e ∈ log ++ l ↔ e ∈ log ∨
      e = .stored destinationId row'.val.revision row'.val.token := by
    simp only [mem_append, hevent, implies_true]
  have hsub : log ⊆ log ++ l := subset_append_left log l
  have hclaims : ∀ k, claims (log ++ l) k = claims log k := fun _ => claims_append_event hevent rfl
  constructor
  · intro k row hrow
    have hsound := h.delivery k row hrow
    exact hsound.mono hsub (hclaims k) (joined_destination hr hsound.joined)
  · intro k hk
    rw [hclaims]
    exact ⟨(h.absent k hk).1, fun d r he => (h.absent k hk).2 d r (by simpa [hmem] using he)⟩
  · intro k row hrow
    rcases write_cases hrow with ⟨rfl, rfl⟩ | ⟨hne, hrow⟩
    · refine ⟨(hmem _).2 (.inr rfl), fun r t he => ?_⟩
      rcases (hmem _).1 he with he | he
      · exact (hnewer r t he).le
      · cases he
        exact le_rfl
    · refine ⟨hsub (h.destination k row hrow).stored, fun r t he => ?_⟩
      rcases (hmem _).1 he with he | he
      · exact (h.destination k row hrow).last r t he
      · cases he
        exact absurd rfl hne
  · intro k hk r t he
    simp only [lookup_write] at hk
    split at hk
    · cases hk
    · rename_i hne
      rcases (hmem _).1 he with he | he
      · exact h.destinationAbsent k hk r t he
      · cases he
        exact hne rfl
  · intro k r t t' he he'
    rcases (hmem _).1 he with he | he <;> rcases (hmem _).1 he' with he' | he'
    · exact h.storedOnce k r t t' he he'
    · cases he'
      exact absurd (hnewer _ _ he) (lt_irrefl _)
    · cases he
      exact absurd (hnewer _ _ he') (lt_irrefl _)
    · cases he
      cases he'
      rfl
  · simpa only [hmem, reduceCtorEq, or_false] using h.enqueuedOnce
  · intro k c d r t he
    obtain ⟨henqueued, hstored⟩ := h.tokens k c d r t (by simpa [hmem] using he)
    exact ⟨hsub henqueued, hsub hstored⟩

end

section
variable {s s' : Store} {log : List Event}

theorem Sound.enqueue (h : Sound s log) {q : EnqueueRequest} {content : Content} {t : Destination}
    (fresh : s.deliveries.lookup deliveryId = none) (initial : row.val = q.delivery content)
    (joined : s.joined row.val = some t) :
    Sound { s with deliveries := s.deliveries.insert deliveryId row }
      (log ++ enqueuedEvents s { s with deliveries := s.deliveries.insert deliveryId row }) := by
  have hevent := fun e => mem_enqueuedEvents_insert (e := e) fresh row
  generalize enqueuedEvents s { s with deliveries := s.deliveries.insert deliveryId row } = l
    at hevent
  have hmem : ∀ e, e ∈ log ++ l ↔ e ∈ log ∨
      e = .enqueued deliveryId row.val.destinationId row.val.destinationRevision := by
    simp only [mem_append, hevent, implies_true]
  have hsub : log ⊆ log ++ l := subset_append_left log l
  have hclaims : ∀ k, claims (log ++ l) k = claims log k := fun _ => claims_append_event hevent rfl
  constructor
  · intro k r hr
    rcases write_cases hr with ⟨rfl, rfl⟩ | ⟨-, hr⟩
    · have hnone := (h.absent _ fresh).1
      refine ⟨?_, ?_, (hmem _).2 (.inr rfl), Option.isSome_of_eq_some joined⟩ <;>
        rw [hclaims, hnone, initial] <;> rfl
    · exact (h.delivery k r hr).mono hsub (hclaims k) (h.delivery k r hr).joined
  · intro k hk
    simp only [lookup_write] at hk
    split at hk
    · cases hk
    · rename_i hne
      rw [hclaims]
      refine ⟨(h.absent k hk).1, fun d r he => ?_⟩
      rcases (hmem _).1 he with he | he
      · exact (h.absent k hk).2 d r he
      · cases he
        exact hne rfl
  · intro k r hr
    exact ⟨hsub (h.destination k r hr).stored,
      fun n t he => (h.destination k r hr).last n t (by simpa [hmem] using he)⟩
  · simpa only [hmem, reduceCtorEq, or_false] using h.destinationAbsent
  · simpa only [hmem, reduceCtorEq, or_false] using h.storedOnce
  · intro k d r d' r' he he'
    rcases (hmem _).1 he with he | he <;> rcases (hmem _).1 he' with he' | he'
    · exact h.enqueuedOnce k d r d' r' he he'
    · cases he'
      exact absurd he ((h.absent _ fresh).2 _ _)
    · cases he
      exact absurd he' ((h.absent _ fresh).2 _ _)
    · cases he
      cases he'
      exact ⟨rfl, rfl⟩
  · intro k c d r t he
    obtain ⟨henqueued, hstored⟩ := h.tokens k c d r t (by simpa [hmem] using he)
    exact ⟨hsub henqueued, hsub hstored⟩

theorem DeliverySound.step {d' : Delivery} {more : List Event}
    (h : DeliverySound s log deliveryId d) (hd : s'.destinations = s.destinations)
    (hs : DeliveryStep c s deliveryId d l d')
    (hmore : claims more deliveryId = l.map fun c => c.delivery.claimId.getD ⟨0⟩) :
    DeliverySound s' (log ++ more) deliveryId d' := by
  have hclaims : claims (log ++ more) deliveryId =
      claims log deliveryId ++ l.map fun c => c.delivery.claimId.getD ⟨0⟩ := by
    rw [claims_append, hmore]
  have hjoined : ∀ d1 : Delivery, d1.ownerId = d.ownerId → d1.destinationId = d.destinationId →
      (s'.joined d1).isSome := fun d1 howner hid => by
    rw [joined_congr hd howner hid]
    exact h.joined
  cases hs with
  | claim =>
    refine ⟨?_, ?_, mem_append_left _ h.enqueued, hjoined _ rfl rfl⟩
    · rw [hclaims, length_append, ← h.attempts]
      rfl
    · rw [hclaims, map_singleton, List.getLast?_concat]
      rfl
  | deadLetter | acknowledge | fail | supersede =>
    rw [map_nil, append_nil] at hclaims
    refine ⟨?_, ?_, mem_append_left _ h.enqueued, hjoined _ rfl rfl⟩
    · rw [hclaims]
      exact h.attempts
    · rw [hclaims]
      exact h.latest

theorem Sound.advances (h : Sound s log) (ha : Advances c s l s') :
    Sound s' (log ++ l.map Claimed.event) := by
  have hsub : log ⊆ log ++ l.map Claimed.event := subset_append_left _ _
  have hstored : ∀ k r t, Event.stored k r t ∈ log ++ l.map Claimed.event ↔
      Event.stored k r t ∈ log := by simp [Claimed.event]
  have henqueued : ∀ k d r, Event.enqueued k d r ∈ log ++ l.map Claimed.event ↔
      Event.enqueued k d r ∈ log := by simp [Claimed.event]
  constructor
  · intro k row hrow
    obtain ⟨row0, hrow0, ⟨rfl, hnone⟩ | hstep⟩ := ha.before hrow
    · refine (h.delivery k row hrow0).mono hsub ?_ ?_
      · rw [claims_append, claims_events, hnone, map_nil, append_nil]
      · rw [joined_congr ha.destinations rfl rfl]
        exact (h.delivery k row hrow0).joined
    · exact (h.delivery k row0 hrow0).step ha.destinations hstep (claims_events k l)
  · intro k hk
    have hold : s.deliveries.lookup k = none := by
      cases hs : s.deliveries.lookup k with
      | none => rfl
      | some row =>
        obtain ⟨row', hrow', -⟩ := ha.present k row hs
        cases hk.symm.trans hrow'
    refine ⟨?_, fun d r he => (h.absent k hold).2 d r ((henqueued k d r).1 he)⟩
    rw [claims_append, claims_events, (ha.absent k hold).2, (h.absent k hold).1]
    rfl
  · intro k row hrow
    rw [ha.destinations] at hrow
    exact ⟨hsub (h.destination k row hrow).stored,
      fun r t he => (h.destination k row hrow).last r t ((hstored k r t).1 he)⟩
  · simpa only [hstored, ha.destinations] using h.destinationAbsent
  · simpa only [hstored] using h.storedOnce
  · simpa only [henqueued] using h.enqueuedOnce
  · intro k c d r t hmem
    rcases mem_append.1 hmem with hold | hl
    · exact ⟨hsub (h.tokens k c d r t hold).1, hsub (h.tokens k c d r t hold).2⟩
    · -- a new claim: the destination is at the revision of the delivery
      obtain ⟨c', hc', hevent⟩ := mem_map.1 hl
      have hmine : c' ∈ claimsFor c'.deliveryId l := mem_filter.2 ⟨hc', by simp⟩
      cases hold : s.deliveries.lookup c'.deliveryId with
      | none =>
        rw [(ha.absent _ hold).2] at hmine
        cases hmine
      | some row =>
        obtain ⟨row', -, ⟨-, hnone⟩ | hstep⟩ := ha.present _ row hold
        · rw [hnone] at hmine
          cases hmine
        · have hsound := h.delivery _ row hold
          generalize claimsFor c'.deliveryId l = mine at hmine hstep
          generalize row'.val = d' at hstep
          cases hstep with
          | @claim q target token due joined isTarget hasToken =>
            obtain ⟨row0, hrow0, rfl⟩ := joined_eq_some joined
            have hstoredAt := (h.destination _ row0 hrow0).stored
            simp only [Destination.isTargetOf, bool_to_prop] at isTarget
            rw [isTarget.2, hasToken] at hstoredAt
            rw [mem_singleton] at hmine
            rw [hmine] at hevent
            cases hevent
            exact ⟨hsub hsound.enqueued, hsub hstoredAt⟩
          | deadLetter | acknowledge | fail | supersede => cases hmine

theorem Sound.effect (h : Sound s log) (he : Effect c s l s') :
    Sound s' (log ++ storedEvents s s' ++ enqueuedEvents s s' ++ l.map Claimed.event) := by
  cases he with
  | destination _ revises =>
    rw [enqueuedEvents_of_absent (s := s), append_nil, map_nil, append_nil]
    · exact h.writeDestination revises
    · exact fun _ hk => hk
  | enqueue _ _ fresh _ initial joined =>
    rw [storedEvents_of_same (s := s), append_nil, map_nil, append_nil]
    · exact h.enqueue fresh initial joined
    · rfl
  | deliveries advances =>
    rw [storedEvents_of_same advances.destinations, append_nil,
      enqueuedEvents_of_absent fun k hk => (advances.absent k hk).1, append_nil]
    exact h.advances advances

end

theorem sound_after (hash : Bytes → String) (calls : List Call) :
    Sound (after hash calls).store (after hash calls).log := by
  refine run_keeps (P := fun s : State => Sound s.store s.log) (fun c s hs => ?_) calls sound_empty
  obtain ⟨l, heffect, hlog⟩ := step_effect hash c s
  rw [hlog]
  exact hs.effect heffect

/-! ## What a delivery comes to -/

section
variable {s s' : Store}

theorem DeliveryStep.undelivered {d' : Delivery}
    (h : DeliveryStep c s deliveryId d l d') : d.status ≠ .delivered := by
  intro hd
  cases h with
  | deadLetter expired => simp [Delivery.leaseExpired, hd] at expired
  | claim due => simp [Delivery.isDue, Delivery.leaseExpired, Status.isWaiting, hd] at due
  | acknowledge _ _ undelivered => exact undelivered hd
  | fail _ taken => simp [hd] at taken
  | supersede waiting => simp [Status.isWaiting, hd] at waiting

theorem Effect.delivered (he : Effect c s l s') (hrow : s.deliveries.lookup deliveryId = some row)
    (hd : row.val.status = .delivered) : s'.deliveries.lookup deliveryId = some row := by
  cases he with
  | destination => exact hrow
  | enqueue call valid fresh => exact lookup_write_of_none fresh hrow _
  | deliveries advances =>
    obtain ⟨row', hrow', ⟨rfl, -⟩ | hstep⟩ := advances.present deliveryId row hrow
    · exact hrow'
    · exact absurd hd hstep.undelivered

end

/-- The attempts, the claims and the tokens of the deliveries, whatever was called before. -/
structure Machine (hash : Bytes → String) (s : State) : Prop where
  attempts : ∀ deliveryId row, s.store.deliveries.lookup deliveryId = some row →
    row.val.attemptCount = (claims s.log deliveryId).length ∧
    row.val.attemptCount ≤ row.val.maxAttempts
  delivered : ∀ deliveryId row, s.store.deliveries.lookup deliveryId = some row →
    row.val.status = .delivered →
    ∀ more, (run (step hash) more s).store.deliveries.lookup deliveryId = some row
  acknowledge : ∀ k at_ d s', (acknowledgeDelivery k at_).Ok s.store d s' →
    (claims s.log k.deliveryId).getLast? = some k.claimId
  fail : ∀ k errorCode failedAt retryAt d s',
    (failDelivery k errorCode failedAt retryAt).Ok s.store d s' →
    (claims s.log k.deliveryId).getLast? = some k.claimId
  tokens : ∀ deliveryId claimId destinationId revision token,
    Event.claimed deliveryId claimId destinationId revision token ∈ s.log →
    Event.enqueued deliveryId destinationId revision ∈ s.log ∧
      ∀ token', Event.stored destinationId revision token' ∈ s.log ↔ token' = some token
  enqueued : ∀ deliveryId destinationId revision destinationId' revision',
    Event.enqueued deliveryId destinationId revision ∈ s.log →
    Event.enqueued deliveryId destinationId' revision' ∈ s.log →
    destinationId = destinationId' ∧ revision = revision'

theorem attempts_of_row (row : Row Delivery) : row.val.attemptCount ≤ row.val.maxAttempts := by
  have hrow := row.property
  simp only [Columns.refusal] at hrow
  split at hrow
  · rename_i h
    simp only [bool_to_prop, Delivery.inRange] at h
    omega
  · cases hrow

theorem Sound.machine {hash : Bytes → String} {s : State} (h : Sound s.store s.log) :
    Machine hash s where
  attempts := fun deliveryId row hrow =>
    ⟨(h.delivery deliveryId row hrow).attempts, attempts_of_row row⟩
  delivered := fun deliveryId row hrow hd more => by
    refine run_keeps (P := fun s : State => s.store.deliveries.lookup deliveryId = some row)
      (fun c s hrow => ?_) more hrow
    obtain ⟨l, heffect, -⟩ := step_effect hash c s
    exact heffect.delivered hrow hd
  acknowledge := fun k at_ d s' hok => by
    obtain ⟨-, row, hrow, hclaim⟩ := acknowledge_effect hok
    rw [← (h.delivery _ row hrow).latest, hclaim]
  fail := fun k errorCode failedAt retryAt d s' hok => by
    obtain ⟨-, row, hrow, hclaim⟩ := fail_effect hok
    rw [← (h.delivery _ row hrow).latest, hclaim]
  tokens := fun deliveryId claimId destinationId revision token hmem => by
    obtain ⟨henqueued, hstored⟩ := h.tokens deliveryId claimId destinationId revision token hmem
    refine ⟨henqueued, fun token' => ⟨fun hmem' => ?_, fun heq => heq ▸ hstored⟩⟩
    exact h.storedOnce destinationId revision token' (some token) hmem' hstored
  enqueued := h.enqueuedOnce

end AstralPlane.Push
