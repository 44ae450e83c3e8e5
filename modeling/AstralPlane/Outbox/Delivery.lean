/-
  The delivery state machine of the outbox, over whole runs.

  * `Change` is what one call can do to one row, with what it reports about it;
    `TableStep` the same for the table, `exec_step` shows that every call is
    one;
  * `Follows log r`: the row `r` has come about by the changes that `log`
    reports; `Told` are the facts that this gives, by induction on it;
  * `delivery`: in every state that a run reaches, the claims that have been
    reported and the rows of the table agree, a claim is settled once at most,
    and what does not hold its row settles nothing.
-/
import AstralPlane.Outbox.Model

namespace AstralPlane.Outbox

open Tx List

variable {sha256 : List UInt8 → String}
variable {r r' : OutboxRow} {events : List Event} {c : ClaimedOutboxEntry} {e : Event}
  {workerId : String} {outcome : Outcome} {rows rows' : Table} {p : OutboxRow → Bool}
  {f : OutboxRow → OutboxRow} {v : ℤ} {entry : OutboxEntry} {limit n : ℕ} {locked : String → Bool}
  {now : Time} {call : Call} {o : State}

/-! ## What one call does to a row -/

/-- The entry that an event is about. -/
def Event.entryId : Event → String
  | .claimed c => c.entry.entryId
  | .settled entryId _ _ => entryId
  | .reclaimed item => item.entryId

/-- The version of the row after the event. -/
def Event.version : Event → ℕ
  | .claimed c => c.expectedVersion
  | .settled _ _ expectedVersion => expectedVersion + 1
  | .reclaimed item => item.expectedVersion

def Event.claim? : Event → Option ClaimedOutboxEntry
  | .claimed c => some c
  | .settled _ _ _ | .reclaimed _ => none

/-- The claim `c` is the one that the row is leased under. -/
structure OutboxRow.LeasedTo (r : OutboxRow) (c : ClaimedOutboxEntry) : Prop where
  entryId : r.entryId = c.entry.entryId
  status : r.status = .claimed
  owner : r.leaseOwner = some c.workerId
  expires : r.leaseExpiresAt = some c.leaseExpiresAt
  version : r.version = c.expectedVersion

/-- The fence of the claim is one that the settlements take. -/
def ClaimedOutboxEntry.Fenced (c : ClaimedOutboxEntry) : Prop :=
  safeId.fullmatch c.entry.entryId ∧ safeId.fullmatch c.workerId ∧
    1 ≤ c.expectedVersion

/-- What one call can do to a row, and what it reports about it. -/
inductive Change : OutboxRow → OutboxRow → List Event → Prop
  | keep (r : OutboxRow) : Change r r []
  | claim {r : OutboxRow} {workerId : String} {expires : Time} {c : ClaimedOutboxEntry}
      (hs : r.status = .pending ∨ r.status = .retry)
      (hc : (r.claim workerId expires).LeasedTo c) (ha : c.attempt = r.attemptCount + 1)
      (hn : c.Fenced) : Change r (r.claim workerId expires) [.claimed c]
  | settle {r : OutboxRow} {workerId : String} (outcome : Outcome) (hs : r.status = .claimed)
      (ho : r.leaseOwner = some workerId) :
      Change r (r.settle outcome) [.settled r.entryId workerId r.version]
  | reclaim {r : OutboxRow} {workerId : String} {expires now : Time} (hs : r.status = .claimed)
      (ho : r.leaseOwner = some workerId) (he : r.leaseExpiresAt = some expires)
      (hn : expires ≤ now) :
      Change r (r.settle (.retry now "lease_expired"))
        [.reclaimed ⟨r.entryId, workerId, r.version + 1, now⟩]

theorem Change.entryId (h : Change r r' events) : r'.entryId = r.entryId := by
  cases h <;> rfl

/-- **Every change advances the version.** -/
theorem Change.version (h : Change r r' events) : r' = r ∨ r.version < r'.version := by
  cases h with
  | keep => exact .inl rfl
  | claim | settle | reclaim => exact .inr (Nat.lt_succ_self _)

/-- **Delivered and dead-lettered rows are absorbing.** -/
theorem Change.final (h : Change r r' events) (hr : r.status.isFinal) : r' = r := by
  cases h with
  | keep => rfl
  | claim hs => rcases hs with hs | hs <;> simp [hs, Status.isFinal] at hr
  | settle _ hs => simp [hs, Status.isFinal] at hr
  | reclaim hs => simp [hs, Status.isFinal] at hr

/-! ## What the log tells about a row -/

/-- The row has come about by the changes that the log reports. -/
inductive Follows : List Event → OutboxRow → Prop
  | new (entry : OutboxEntry) : Follows [] (.ofEntry entry)
  | step {log events : List Event} {r r' : OutboxRow} (h : Follows log r)
      (hc : Change r r' events) : Follows (log ++ events) r'

/-- What has become of a claim: the row is leased under it, it was settled, or it had expired when
    it was taken back. -/
def Outcomes (log : List Event) (r : OutboxRow) (c : ClaimedOutboxEntry) : Prop :=
  r.LeasedTo c ∨ .settled c.entry.entryId c.workerId c.expectedVersion ∈ log ∨
    ∃ item, .reclaimed item ∈ log ∧ item.expectedVersion = c.expectedVersion + 1 ∧
      c.leaseExpiresAt ≤ item.availableAt

/-- What the log of a row tells about it. -/
structure Told (log : List Event) (r : OutboxRow) : Prop where
  about : ∀ e ∈ log, e.entryId = r.entryId
  versions : log.Pairwise fun a b => a.version < b.version
  bound : ∀ e ∈ log, e.version ≤ r.version
  /-- The claims have the attempt numbers 1, 2, … -/
  ordinals : (log.filterMap Event.claim?).map (·.attempt) = List.range' 1 r.attemptCount
  fenced : ∀ c, .claimed c ∈ log → c.Fenced
  leased : r.status = .claimed → ∃ c, .claimed c ∈ log ∧ r.LeasedTo c
  settled : ∀ entryId workerId v, .settled entryId workerId v ∈ log →
    ∃ c, .claimed c ∈ log ∧ c.workerId = workerId ∧ c.expectedVersion = v
  outcomes : ∀ c, .claimed c ∈ log → Outcomes log r c

theorem Outcomes.mono {log log' : List Event}
    (h : Outcomes log r c) (hl : ∀ e ∈ log, e ∈ log') (hr : r.LeasedTo c → Outcomes log' r' c) :
    Outcomes log' r' c := by
  rcases h with h | h | ⟨item, h, hv, he⟩
  · exact hr h
  · exact .inr (.inl (hl _ h))
  · exact .inr (.inr ⟨item, hl _ h, hv, he⟩)

section
variable {log : List Event}

/-- One more event, with the version that the row has after it. -/
theorem Told.snoc_versions (h : Told log r) (he : r.version < e.version) :
    (log ++ [e]).Pairwise fun a b => a.version < b.version := by
  refine pairwise_append.2 ⟨h.versions, pairwise_singleton _ _, fun a ha b hb => ?_⟩
  obtain rfl := mem_singleton.1 hb
  exact Nat.lt_of_le_of_lt (h.bound a ha) he

theorem Told.snoc_bound (h : Told log r) (hv : r.version ≤ r'.version)
    (he : e.version ≤ r'.version) : ∀ a ∈ log ++ [e], a.version ≤ r'.version :=
  forall_mem_append.2 ⟨fun a ha => (h.bound a ha).trans hv, forall_mem_singleton.2 he⟩

theorem Told.snoc_about (h : Told log r) (hr : r'.entryId = r.entryId)
    (he : e.entryId = r.entryId) : ∀ a ∈ log ++ [e], a.entryId = r'.entryId := by
  rw [hr]
  exact forall_mem_append.2 ⟨h.about, forall_mem_singleton.2 he⟩

/-- An event that is not a claim settles nothing that was not claimed. -/
theorem Told.snoc_settled (h : Told log r)
    (he : ∀ entryId workerId v, e = .settled entryId workerId v →
      ∃ c, .claimed c ∈ log ∧ c.workerId = workerId ∧ c.expectedVersion = v) :
    ∀ entryId workerId v, .settled entryId workerId v ∈ log ++ [e] →
      ∃ c, .claimed c ∈ log ++ [e] ∧ c.workerId = workerId ∧ c.expectedVersion = v := by
  intro entryId workerId v hs
  have hold : ∃ c, .claimed c ∈ log ∧ c.workerId = workerId ∧ c.expectedVersion = v := by
    rcases mem_append.1 hs with hs | hs
    · exact h.settled _ _ _ hs
    · exact he _ _ _ (mem_singleton.1 hs).symm
  obtain ⟨c, hc, hw, hv⟩ := hold
  exact ⟨c, mem_append_left _ hc, hw, hv⟩

theorem Told.claim (h : Told log r) {expires : Time}
    (hs : r.status = .pending ∨ r.status = .retry) (hc : (r.claim workerId expires).LeasedTo c)
    (ha : c.attempt = r.attemptCount + 1) (hn : c.Fenced) :
    Told (log ++ [.claimed c]) (r.claim workerId expires) where
  about := h.snoc_about rfl hc.entryId.symm
  versions := h.snoc_versions (show r.version < c.expectedVersion by
    rw [← hc.version]; exact Nat.lt_succ_self _)
  bound := h.snoc_bound (Nat.le_succ _) hc.version.ge
  ordinals := by
    show _ = List.range' 1 (r.attemptCount + 1)
    rw [filterMap_append, map_append, h.ordinals, range'_1_concat, Nat.add_comm 1, ← ha]
    rfl
  fenced d hd := by
    rcases mem_append.1 hd with hd | hd
    · exact h.fenced d hd
    · cases mem_singleton.1 hd
      exact hn
  leased _ := ⟨c, mem_append_right _ (mem_singleton_self _), hc⟩
  settled := h.snoc_settled nofun
  outcomes d hd := by
    rcases mem_append.1 hd with hd | hd
    · refine (h.outcomes d hd).mono (fun _ => mem_append_left _) fun hl => absurd hl.status ?_
      rcases hs with hs | hs <;> rw [hs] <;> exact nofun
    · cases mem_singleton.1 hd
      exact .inl hc

theorem mem_of_claimed (he : e.claim? = none) (hc : .claimed c ∈ log ++ [e]) : .claimed c ∈ log := by
  rcases mem_append.1 hc with hc | hc
  · exact hc
  · rw [← mem_singleton.1 hc] at he; cases he

theorem Told.release (h : Told log r) (hs : r.status = .claimed)
    (hid : e.entryId = r.entryId) (hv : e.version = r.version + 1) (hc : e.claim? = none)
    (hsettled : ∀ entryId workerId v, e = .settled entryId workerId v →
      r.leaseOwner = some workerId ∧ v = r.version)
    (hout : ∀ c, r.LeasedTo c → Outcomes (log ++ [e]) (r.settle outcome) c) :
    Told (log ++ [e]) (r.settle outcome) where
  about := h.snoc_about rfl hid
  versions := h.snoc_versions (by omega)
  bound := h.snoc_bound (Nat.le_succ _) hv.le
  ordinals := by
    rw [filterMap_append, filterMap_cons_none hc, filterMap_nil, append_nil]
    exact h.ordinals
  fenced d hd := h.fenced d (mem_of_claimed hc hd)
  leased hs' := by cases outcome <;> cases hs'
  settled := h.snoc_settled fun entryId workerId v he => by
    obtain ⟨ho, rfl⟩ := hsettled entryId workerId v he
    obtain ⟨c, hmem, hl⟩ := h.leased hs
    exact ⟨c, hmem, Option.some.inj (hl.owner.symm.trans ho), hl.version.symm⟩
  outcomes d hd := (h.outcomes d (mem_of_claimed hc hd)).mono (fun _ => mem_append_left _) (hout d)

theorem Told.step (h : Told log r) (hc : Change r r' events) : Told (log ++ events) r' := by
  cases hc with
  | keep => rw [append_nil]; exact h
  | claim hs hc ha hn => exact h.claim hs hc ha hn
  | settle outcome hs ho =>
    refine h.release hs rfl rfl rfl (fun _ _ _ he => ?_) fun c hc => .inr (.inl ?_)
    · cases he; exact ⟨ho, rfl⟩
    · rw [← hc.entryId, ← hc.version, Option.some.inj (hc.owner.symm.trans ho)]
      exact mem_append_right _ (mem_singleton_self _)
  | reclaim hs ho he hn =>
    refine h.release hs rfl rfl rfl (fun _ _ _ h => nomatch h) fun c hc => .inr (.inr ?_)
    refine ⟨_, mem_append_right _ (mem_singleton_self _), ?_, ?_⟩
    · rw [← hc.version]
    · rw [Option.some.inj (hc.expires.symm.trans he)]
      exact hn

/-- **What the log of a row tells about it**, by induction on its changes. -/
theorem Follows.told (h : Follows log r) : Told log r := by
  induction h with
  | new entry => exact ⟨nofun, .nil, nofun, rfl, nofun, nofun, nofun, nofun⟩
  | step _ hc ih => exact ih.step hc

end

/-! ## What one call does to the table -/

def Keyed (rows : Table) : Prop := (rows.map (·.entryId)).Nodup

/-- What one call can do to the table: a new row, or a change of the rows that are there. -/
inductive TableStep (rows : Table) : Table → List Event → Prop
  | insert {entry : OutboxEntry} (h : ∀ r ∈ rows, r.entryId ≠ entry.entryId) :
      TableStep rows (rows ++ [.ofEntry entry]) []
  | update {f : OutboxRow → OutboxRow} {events : List Event}
      (h : ∀ r ∈ rows, Change r (f r) (events.filter fun e => e.entryId = r.entryId))
      (he : ∀ e ∈ events, ∃ r ∈ rows, r.entryId = e.entryId) : TableStep rows (rows.map f) events

theorem TableStep.refl (rows : Table) : TableStep rows rows [] := by
  have h : TableStep rows (rows.map id) [] := .update (fun r _ => .keep r) nofun
  rwa [map_id] at h

/-- A statement that changes the selected rows, each of which is reported once. -/
theorem tableStep_updateWhere (hids : (events.map Event.entryId).Nodup)
    (hmem : ∀ e ∈ events, ∃ r ∈ rows, p r ∧ e.entryId = r.entryId) (hk : Keyed rows)
    (hchange : ∀ r ∈ rows, p r → ∃ e ∈ events, e.entryId = r.entryId ∧ Change r (f r) [e]) :
    TableStep rows (updateWhere p f rows) events := by
  refine .update (fun r hr => ?_) fun e he => ?_
  · by_cases hp : p r
    · obtain ⟨e, he, hid, hc⟩ := hchange r hr hp
      rw [if_pos hp, ← hid, filter_key hids he]
      exact hc
    · rw [if_neg hp, filter_eq_nil_iff.2]
      · exact .keep r
      · intro e he hid
        obtain ⟨r', hr', hp', hid'⟩ := hmem e he
        have hid := of_decide_eq_true hid
        rw [eq_of_key_eq hk hr' hr (hid'.symm.trans hid)] at hp'
        exact hp hp'
  · obtain ⟨r, hr, -, hid⟩ := hmem e he
    exact ⟨r, hr, hid.symm⟩

theorem tableStep_reported {ι : Type} {items reported : List ι} {event : ι → Event}
    (hk : Keyed rows)
    (hall : List.Forall₂ (fun r i => (event i).entryId = r.entryId ∧ Change r (f r) [event i])
      (rows.filter p) items) (hperm : reported.Perm items) :
    TableStep rows (updateWhere p f rows) (reported.map event) := by
  have hids : (rows.filter p).map (·.entryId) = items.map fun i => (event i).entryId :=
    map_eq_of_forall₂ (fun _ _ h => h.1.symm) hall
  have hnodup : ((reported.map event).map Event.entryId).Nodup := by
    rw [map_map, ((hperm.map _).nodup_iff), show Event.entryId ∘ event =
      fun i => (event i).entryId from rfl, ← hids]
    exact hk.sublist (filter_sublist.map _)
  refine tableStep_updateWhere hnodup (fun e he => ?_) hk fun r hr hp => ?_
  · obtain ⟨i, hi, rfl⟩ := mem_map.1 he
    obtain ⟨r, hr, hid, -⟩ := forall₂_mem_right hall (hperm.mem_iff.1 hi)
    obtain ⟨hr, hp⟩ := mem_filter.1 hr
    exact ⟨r, hr, hp, hid⟩
  · obtain ⟨i, hi, hid, hc⟩ := forall₂_mem_left hall (mem_filter.2 ⟨hr, hp⟩)
    exact ⟨event i, mem_map_of_mem (hperm.mem_iff.2 hi), hid, hc⟩

/-! ### Enqueueing -/

theorem boundedText_ok {value name v : String} {pattern : Pattern}
    (h : boundedText value name pattern = .ok v) : pattern.fullmatch value ∧ v = value := by
  rw [boundedText] at h
  split at h <;> cases h
  exact ⟨‹_›, rfl⟩

/-- A validated entry differs in the case of its digest at most. -/
theorem validateEntry_ok {exact : OutboxEntry} (h : validateEntry sha256 entry = .ok exact) :
    safeId.fullmatch entry.entryId ∧
      exact = { entry with payloadSha256 := entry.payloadSha256.toLower } := by
  simp only [validateEntry, ok_rules] at h
  obtain ⟨_, hid, _, htopic, _, hkey, _, -, _, -, _, -, rfl⟩ := h
  rw [(boundedText_ok hid).2, (boundedText_ok htopic).2, (boundedText_ok hkey).2]
  exact ⟨(boundedText_ok hid).1, rfl⟩

theorem ok_enqueueSql : (enqueueSql entry).Ok rows n rows' ↔
    (n = 0 ∧ rows' = rows ∧ ∃ r ∈ rows, r.entry.idempotencyKey = entry.idempotencyKey) ∨
    (n = 1 ∧ rows' = rows ++ [.ofEntry entry] ∧
      ∀ r ∈ rows, r.entry.idempotencyKey ≠ entry.idempotencyKey ∧ r.entryId ≠ entry.entryId) := by
  simp only [enqueueSql, ok_rules, ok_ite]
  constructor
  · rintro ⟨_, rfl, ⟨hany, rfl, rfl⟩ | ⟨hnone, _, hid, _, _, rfl, rfl, rfl⟩⟩
    · exact .inl ⟨rfl, rfl, by simpa using hany⟩
    · simp_all
  · rintro (⟨rfl, rfl, hany⟩ | ⟨rfl, rfl, hnone⟩)
    · exact ⟨_, rfl, .inl ⟨by simpa using hany, rfl, rfl⟩⟩
    · refine ⟨_, rfl, .inr ⟨?_, (), ?_, (), _, rfl, rfl, rfl⟩⟩
      · simpa using fun r hr => (hnone r hr).1
      · simpa using fun r hr => (hnone r hr).2

/-- The row that an idempotency key is on file under. -/
def Table.under (rows : Table) (idempotencyKey : String) : Option OutboxRow :=
  rows.find? fun r => r.entry.idempotencyKey = idempotencyKey

/-- An entry is inserted under a new key; under a key on file it has to be the entry there. -/
theorem ok_enqueue : (enqueue sha256 entry).Ok rows n rows' ↔
    ∃ exact, validateEntry sha256 entry = .ok exact ∧
      ((n = 0 ∧ rows' = rows ∧ ∃ r, rows.under exact.idempotencyKey = some r ∧
        validateEntry sha256 r.entry = .ok exact) ∨
      (n = 1 ∧ rows' = rows ++ [.ofEntry exact] ∧ ∀ r ∈ rows,
        r.entry.idempotencyKey ≠ exact.idempotencyKey ∧ r.entryId ≠ exact.entryId)) := by
  simp only [enqueue, ok_rules, ok_enqueueSql, ok_ite, readIdempotentSql]
  constructor
  · rintro ⟨exact, hexact, m, rows1, ⟨rfl, rfl, -⟩ | ⟨rfl, rfl, hnew⟩, h⟩
    · obtain ⟨hone, -⟩ | ⟨-, found, _, ⟨_, rfl, rfl, rfl⟩, h⟩ := h
      · cases hone
      cases hf : Table.under rows1 exact.idempotencyKey with
      | none =>
        rw [Table.under] at hf
        simp [hf, ok_raise] at h
      | some r =>
        rw [Table.under] at hf
        simp only [hf, Option.map_some, ok_rules, ok_ite, ok_raise, and_false, false_or, ne_eq,
          not_not] at h
        obtain ⟨_, hstored, rfl, rfl, rfl⟩ := h
        exact ⟨_, hexact, .inl ⟨rfl, rfl, r, hf, hstored⟩⟩
    · obtain ⟨-, rfl, rfl⟩ | ⟨hne, -⟩ := h
      · exact ⟨exact, hexact, .inr ⟨rfl, rfl, hnew⟩⟩
      · exact absurd rfl hne
  · rintro ⟨exact, hexact, ⟨rfl, rfl, r, hr, hstored⟩ | ⟨rfl, rfl, hnew⟩⟩
    · rw [Table.under] at hr
      have hkey : r.entry.idempotencyKey = exact.idempotencyKey := by simpa using List.find?_some hr
      refine ⟨exact, hexact, 0, _, .inl ⟨rfl, rfl, r, mem_of_find?_eq_some hr, hkey⟩,
        .inr ⟨by decide, _, _, ⟨_, rfl, rfl, rfl⟩, ?_⟩⟩
      simp [hr, hstored, ok_ofExcept]
    · exact ⟨exact, hexact, 1, _, .inr ⟨rfl, rfl, hnew⟩, .inl ⟨rfl, rfl, rfl⟩⟩

/-! ### Claiming -/

theorem ok_updateReturning {candidates recs : List OutboxRow} :
    (updateReturning candidates f).Ok rows recs rows' ↔ (candidates.all fun c => (f c).countersFit) ∧
      updateWhere (fun r => candidates.any fun c => c.entryId = r.entryId) f rows = rows' ∧
      (rows.filter fun r => candidates.any fun c => c.entryId = r.entryId).map f = recs := by
  simp only [updateReturning, ok_rules, exists_eq_left', exists_const]
  exact and_congr_right' and_comm

/-- The rows that a statement selects by the ids of candidates are the candidates. -/
theorem candidate_of_id {rows candidates : List OutboxRow} (hk : Keyed rows)
    (hc : ∀ c ∈ candidates, c ∈ rows ∧ p c) (hr : r ∈ rows)
    (h : (candidates.any fun c => c.entryId = r.entryId)) : p r := by
  obtain ⟨c, hmem, hid⟩ := any_eq_true.1 h
  obtain ⟨hrow, hp⟩ := hc c hmem
  rwa [eq_of_key_eq hk hrow hr (of_decide_eq_true hid)] at hp

theorem claimSql_ok {topics : List String} {expires : Time} {recs : List OutboxRow}
    (hk : Keyed rows) (h : (claimSql locked topics now limit workerId expires).Ok rows recs rows') :
    ∃ p : OutboxRow → Bool, (∀ r ∈ rows, p r → r.status = .pending ∨ r.status = .retry) ∧
      updateWhere p (·.claim workerId expires) rows = rows' ∧
      (rows.filter p).map (·.claim workerId expires) = recs := by
  simp only [claimSql, ok_rules] at h
  obtain ⟨_, rfl, h⟩ := h
  obtain ⟨-, hrows, hrecs⟩ := ok_updateReturning.1 h
  refine ⟨_, fun r hr hp => ?_, hrows, hrecs⟩
  have hc := candidate_of_id hk (fun c => mem_candidates) hr hp
  simp only [OutboxRow.claimable, bool_to_prop] at hc
  exact hc.1.1.1

theorem claim_step {topics : List String} {leaseDuration : Time}
    {limit : ℤ} {claimed : List ClaimedOutboxEntry} (hk : Keyed rows)
    (h : (claim sha256 locked workerId topics now leaseDuration limit).Ok rows claimed rows') :
    TableStep rows rows' (claimed.map .claimed) := by
  simp only [claim, ok_rules] at h
  obtain ⟨worker, hworker, _, -, topics', -, _, -, _, -, limit', -, recs, _, hsql, items, hitems, _,
    -, rfl, rfl⟩ := h
  obtain ⟨hsafe, rfl⟩ := boundedText_ok hworker
  obtain ⟨p, hp, rfl, rfl⟩ := claimSql_ok hk hsql
  have hall := forall₂_map_left_iff.1 (mapM_eq_ok.1 hitems)
  refine tableStep_reported hk ?_ (perm_insertionSort claimedOrder items)
  refine forall₂_imp_mem hall fun r c hr hc => ?_
  obtain ⟨hr, hpr⟩ := mem_filter.1 hr
  simp only [claimedEntry, ok_rules] at hc
  obtain ⟨entry, he, owner, ho, expires, hx, rfl⟩ := hc
  obtain ⟨hid, rfl⟩ := validateEntry_ok he
  cases ho
  cases hx
  exact ⟨rfl, .claim (hp r hr hpr) ⟨rfl, rfl, rfl, rfl, rfl⟩ rfl ⟨hid, hsafe, Nat.succ_pos _⟩⟩

/-! ### Settling and taking back -/

variable {entryId : String}

theorem heldBy_iff : r.heldBy entryId workerId v now ↔ r.entryId = entryId ∧ r.status = .claimed ∧
      r.leaseOwner = some workerId ∧ (r.version : ℤ) = v ∧
      ∃ expires, r.leaseExpiresAt = some expires ∧ now < expires := by
  cases h : r.leaseExpiresAt <;> simp [OutboxRow.heldBy, h, and_assoc]

theorem settle_ok {operation : String}
    (h : (settle outcome operation entryId workerId v now).Ok rows n rows') :
    rows.countP (·.heldBy entryId workerId v now) = 1 ∧
      updateWhere (·.heldBy entryId workerId v now) (·.settle outcome) rows = rows' := by
  simp only [settle, ok_rules] at h
  obtain ⟨⟨id, w, v'⟩, hf, _, -, m, _, hsql, hm, rfl⟩ := h
  simp only [fenceInputs, ok_rules, Prod.mk.injEq] at hf
  obtain ⟨_, hid, _, hw, _, -, rfl, rfl, rfl⟩ := hf
  obtain ⟨-, rfl⟩ := boundedText_ok hid
  obtain ⟨-, rfl⟩ := boundedText_ok hw
  simp only [settleSql, ok_rules] at hsql
  obtain ⟨_, rfl, _, -, _, _, rfl, rfl, rfl⟩ := hsql
  rw [requireSingleUpdate] at hm
  split at hm
  · cases hm
  · rename_i hone
    exact ⟨not_not.1 hone, rfl⟩

section
variable (hk : Keyed rows) (hr : r ∈ rows) (hh : r.heldBy entryId workerId v now = true)
include hk hr hh

theorem heldBy_eq : ∀ x ∈ rows, x.heldBy entryId workerId v now = decide (x = r) := by
  intro x hx
  rw [Bool.eq_iff_iff, decide_eq_true_iff]
  refine ⟨fun h => eq_of_key_eq hk hx hr ?_, fun h => h ▸ hh⟩
  exact (heldBy_iff.1 h).1.trans (heldBy_iff.1 hh).1.symm

theorem settleSql_held : settleSql outcome entryId workerId v now rows =
      if r.version < maxBigint then (.ok 1, updateWhere (· = r) (·.settle outcome) rows)
      else (.error (.database "22003"), rows) := by
  have hheld := heldBy_eq hk hr hh
  have hone : rows.countP (·.heldBy entryId workerId v now) = 1 := by
    rw [countP_congr fun x hx => by rw [hheld x hx]]
    exact count_eq_one_of_mem hk.of_map hr
  have hrows : updateWhere (·.heldBy entryId workerId v now) (·.settle outcome) rows =
      updateWhere (· = r) (·.settle outcome) rows :=
    map_congr_left fun x hx => by simp only [hheld x hx]
  have hfit : (rows.all fun x => !x.heldBy entryId workerId v now || x.version + 1 ≤ maxBigint) =
      decide (r.version < maxBigint) := by
    rw [Bool.eq_iff_iff, all_eq_true, decide_eq_true_iff, ← Nat.succ_le_iff]
    constructor
    · intro h
      simpa [hh] using h r hr
    · intro h x hx
      rw [hheld x hx]
      by_cases hxr : x = r
      · simpa [hxr] using h
      · simp [hxr]
  rw [settleSql, bind_of_ok (ok_get.2 ⟨rfl, rfl⟩), hone, hrows, hfit]
  by_cases h : r.version < maxBigint
  · rw [decide_eq_true h, if_pos h]
    rfl
  · rw [decide_eq_false h, if_neg h]
    rfl

end

theorem settle_held (operation : String) (hk : Keyed rows) (hr : r ∈ rows) (hc : c.Fenced)
    (hh : r.heldBy c.entry.entryId c.workerId c.expectedVersion now)
    (hcode : ∀ code ∈ outcome.errorCode, safeErrorCode.fullmatch code) :
    settle outcome operation c.entry.entryId c.workerId c.expectedVersion now rows =
      if r.version < maxBigint then (.ok 1, updateWhere (· = r) (·.settle outcome) rows)
      else (.error (.database "22003"), rows) := by
  have hv : (1 : ℤ) ≤ c.expectedVersion := by exact_mod_cast hc.2.2
  have hf : fenceInputs c.entry.entryId c.workerId c.expectedVersion =
      .ok (c.entry.entryId, c.workerId, (c.expectedVersion : ℤ)) := by
    rw [fenceInputs, boundedText, if_pos hc.1, boundedText, if_pos hc.2.1, decide_eq_true hv]
    rfl
  have hm : outcome.errorCode.mapM (boundedText · "error_code" safeErrorCode) =
      .ok outcome.errorCode := by
    cases outcome with
    | succeeded => rfl
    | retry | deadLetter =>
      have hcode := hcode _ rfl
      simp only [Outcome.errorCode, Option.mapM_some, boundedText, if_pos hcode]
      rfl
  have hsql : settleSql outcome c.entry.entryId c.workerId c.expectedVersion now rows = _ :=
    settleSql_held hk hr hh
  rw [settle, bind_of_ok (ok_ofExcept.2 ⟨hf, rfl⟩)]
  dsimp only
  rw [bind_of_ok (ok_ofExcept.2 ⟨hm, rfl⟩)]
  by_cases h : r.version < maxBigint
  · rw [if_pos h] at hsql ⊢
    rw [bind_of_ok hsql]
    rfl
  · rw [if_neg h] at hsql ⊢
    exact bind_of_error hsql

theorem settle_step {operation : String} (hk : Keyed rows)
    (h : (settle outcome operation entryId workerId v now).Ok rows n rows') :
    TableStep rows rows' [.settled entryId workerId v.toNat] := by
  obtain ⟨hone, rfl⟩ := settle_ok h
  have hmem : ∃ r ∈ rows, r.heldBy entryId workerId v now := countP_pos_iff.1 (by omega)
  refine tableStep_updateWhere (nodup_singleton _) (fun e he => ?_) hk fun r hr hp => ?_
  · obtain ⟨r, hr, hp⟩ := hmem
    refine ⟨r, hr, hp, ?_⟩
    rw [mem_singleton.1 he]
    exact (heldBy_iff.1 hp).1.symm
  · obtain ⟨rfl, hs, ho, rfl, -⟩ := heldBy_iff.1 hp
    exact ⟨_, mem_singleton_self _, rfl, .settle outcome hs ho⟩

theorem reclaimSql_ok {recs : List (OutboxRow × OutboxRow)} (hk : Keyed rows)
    (h : (reclaimSql locked now limit).Ok rows recs rows') :
    ∃ p : OutboxRow → Bool, (∀ r ∈ rows, p r → r.expired now) ∧
      updateWhere p (·.settle (.retry now "lease_expired")) rows = rows' ∧
      (rows.filter p).map (fun r => (r, r.settle (.retry now "lease_expired"))) = recs := by
  simp only [reclaimSql, ok_rules] at h
  obtain ⟨_, rfl, written, _, hu, hrecs, rfl⟩ := h
  obtain ⟨-, hrows, rfl⟩ := ok_updateReturning.1 hu
  refine ⟨_, fun r hr hp => ?_, hrows, ?_⟩
  · have hc := candidate_of_id hk (fun c => mem_candidates) hr hp
    exact (Bool.and_eq_true _ _ ▸ hc).1
  · -- the row with the id of a written row is the row it was written from
    rw [← hrecs, filterMap_map, ← filterMap_eq_map]
    refine filterMap_congr fun r hr => ?_
    have hfind : rows.find? (fun before => before.entryId = r.entryId) = some r :=
      (find?_key_iff hk).2 ⟨(mem_filter.1 hr).1, rfl⟩
    show some _ = Option.map _ (rows.find? fun before => before.entryId = r.entryId)
    rw [hfind]
    rfl

theorem reclaimExpired_step {limit : ℤ} {items : List ReclaimedOutboxEntry} (hk : Keyed rows)
    (h : (reclaimExpired locked now limit).Ok rows items rows') :
    TableStep rows rows' (items.map .reclaimed) := by
  simp only [reclaimExpired, readMalformedClaimSql, ok_rules] at h
  obtain ⟨_, _, ⟨_, rfl, -, rfl⟩, _, -, limit', -, recs, _, hsql, found, hfound, rfl, rfl⟩ := h
  obtain ⟨p, hp, rfl, rfl⟩ := reclaimSql_ok hk hsql
  have hall := forall₂_map_left_iff.1 (mapM_eq_ok.1 hfound)
  refine tableStep_reported hk ?_ (perm_insertionSort reclaimedOrder found)
  refine forall₂_imp_mem hall fun r item hr hitem => ?_
  obtain ⟨hr, hpr⟩ := mem_filter.1 hr
  simp only [reclaimedEntry, ok_rules] at hitem
  obtain ⟨id, hid, worker, hw, _, -, rfl⟩ := hitem
  have hid : id = r.entryId := by
    split at hid <;> cases hid
    rfl
  have ho : r.leaseOwner = some worker := by
    cases ho : r.leaseOwner <;> rw [ho] at hw
    · cases hw
    · simp only [Option.elim] at hw
      split at hw <;> cases hw
      rfl
  rw [hid]
  have hx := hp r hr hpr
  simp only [OutboxRow.expired, bool_to_prop, Option.any_eq_true] at hx
  obtain ⟨hs, expires, hexp, hle⟩ := hx
  exact ⟨rfl, .reclaim hs ho hexp hle⟩

/-- **Every call is a step of the table.** -/
theorem exec_step (hk : Keyed rows)
    (h : (exec sha256 call).Ok rows events rows') : TableStep rows rows' events := by
  cases call <;> obtain ⟨_, hcall, rfl⟩ := ok_return.1 h
  case enqueue =>
    obtain ⟨_, -, ⟨-, rfl, -⟩ | ⟨-, rfl, hnew⟩⟩ := ok_enqueue.1 hcall
    · exact .refl _
    · exact .insert fun r hr => (hnew r hr).2
  case claim => exact claim_step hk hcall
  case reclaimExpired => exact reclaimExpired_step hk hcall
  all_goals exact settle_step hk hcall

/-! ## Runs -/

/-- The rows have distinct keys, each has come about as the log says, and the log is about rows. -/
structure Traced (o : State) : Prop where
  keyed : Keyed o.table
  follows : ∀ r ∈ o.table, Follows (o.log.filter fun e => e.entryId = r.entryId) r
  known : ∀ e ∈ o.log, ∃ r ∈ o.table, r.entryId = e.entryId

theorem TableStep.keyed (h : TableStep rows rows' events) (hk : Keyed rows) : Keyed rows' := by
  cases h with
  | insert hnew =>
    rw [Keyed, map_append, nodup_append]
    refine ⟨hk, nodup_singleton _, fun a ha b hb => ?_⟩
    obtain ⟨r, hr, rfl⟩ := mem_map.1 ha
    rw [mem_singleton.1 hb]
    exact hnew r hr
  | update hc =>
    have hids : (rows.map fun r => OutboxRow.entryId _) = _ := map_congr_left fun r hr =>
      (hc r hr).entryId
    rw [Keyed, map_map]
    exact (congrArg List.Nodup hids).mpr hk

theorem TableStep.traced (h : Traced o)
    (hs : TableStep o.table rows' events) : Traced ⟨rows', o.log ++ events⟩ := by
  refine ⟨hs.keyed h.keyed, ?_, ?_⟩
  · cases hs with
    | insert hnew =>
      intro r hr
      simp only [append_nil]
      rcases mem_append.1 hr with hr | hr
      · exact h.follows r hr
      · obtain rfl := mem_singleton.1 hr
        -- nothing has been reported about a new key
        rw [filter_eq_nil_iff.2]
        · exact .new _
        · intro e he hid
          obtain ⟨r, hr, hid'⟩ := h.known e he
          exact hnew r hr (hid'.trans (of_decide_eq_true hid))
    | update hc =>
      intro r' hr'
      obtain ⟨r, hr, rfl⟩ := mem_map.1 hr'
      rw [(hc r hr).entryId, filter_append]
      exact (h.follows r hr).step (hc r hr)
  · intro e he
    cases hs with
    | insert =>
      simp only [append_nil] at he
      obtain ⟨r, hr, hid⟩ := h.known e he
      exact ⟨r, mem_append_left _ hr, hid⟩
    | update hc hknown =>
      have hold : ∃ r ∈ o.table, r.entryId = e.entryId := by
        rcases mem_append.1 he with he | he
        · exact h.known e he
        · exact hknown e he
      obtain ⟨r, hr, hid⟩ := hold
      exact ⟨_, mem_map_of_mem hr, (hc r hr).entryId.trans hid⟩

theorem State.exec_cases (sha256 : List UInt8 → String) (call : Call) (o : State) :
    (∃ events rows', (exec sha256 call).Ok o.table events rows' ∧
      o.step sha256 call = ⟨rows', o.log ++ events⟩) ∨ o.step sha256 call = o := by
  cases h : exec sha256 call o.table with
  | mk reply rows' =>
    cases reply with
    | ok events =>
      refine .inl ⟨events, rows', h, ?_⟩
      rw [State.step, commit_ok h, Tx.reply, h]
      rfl
    | error =>
      refine .inr ?_
      simp only [State.step, Tx.commit, Tx.reply, h, Except.toOption, Option.getD_none, append_nil]

theorem State.step_cases (sha256 : List UInt8 → String) (call : Call) (hk : Keyed o.table) :
    (∃ events, TableStep o.table (o.step sha256 call).table events ∧
      (o.step sha256 call).log = o.log ++ events) ∨ o.step sha256 call = o := by
  refine (State.exec_cases sha256 call o).imp_left ?_
  rintro ⟨events, rows', hok, hstep⟩
  rw [hstep]
  exact ⟨events, exec_step hk hok, rfl⟩

theorem Traced.step (h : Traced o) (call : Call) : Traced (o.step sha256 call) := by
  rcases State.step_cases sha256 call h.keyed with ⟨events, hs, hlog⟩ | he
  · have := hs.traced h
    rwa [← hlog] at this
  · rw [he]; exact h

theorem Traced.run (h : Traced o) (sha256 : List UInt8 → String) (calls : List Call) :
    Traced (o.run sha256 calls) :=
  run_keeps (fun call _ h => h.step call) calls h

theorem traced_empty : Traced ⟨[], []⟩ := ⟨nodup_nil, nofun, nofun⟩

/-! ## The state machine -/

/-- Rows stay, a row that changes gets a greater version, and a final row does not change. -/
def Advances (rows rows' : Table) : Prop :=
  ∀ r ∈ rows, ∃ r' ∈ rows', r'.entryId = r.entryId ∧
    (r' = r ∨ (r.version < r'.version ∧ r.status.isFinal = false))

theorem Advances.refl (rows : Table) : Advances rows rows := fun r hr => ⟨r, hr, rfl, .inl rfl⟩

theorem Advances.trans {a b c : Table} (h1 : Advances a b) (h2 : Advances b c) : Advances a c := by
  intro r hr
  obtain ⟨r1, hr1, hid1, hc1⟩ := h1 r hr
  obtain ⟨r2, hr2, hid2, hc2⟩ := h2 r1 hr1
  refine ⟨r2, hr2, hid2.trans hid1, ?_⟩
  rcases hc1 with rfl | ⟨hv1, hf⟩
  · exact hc2
  · rcases hc2 with rfl | ⟨hv2, -⟩
    · exact .inr ⟨hv1, hf⟩
    · exact .inr ⟨hv1.trans hv2, hf⟩

theorem TableStep.advances (h : TableStep rows rows' events) : Advances rows rows' := by
  intro r hr
  cases h with
  | insert => exact ⟨r, mem_append_left _ hr, rfl, .inl rfl⟩
  | update hc =>
    refine ⟨_, mem_map_of_mem hr, (hc r hr).entryId, ?_⟩
    cases hf : r.status.isFinal with
    | true => exact .inl ((hc r hr).final hf)
    | false => exact (hc r hr).version.imp_right fun hv => ⟨hv, rfl⟩

theorem Traced.advances (h : Traced o) (calls : List Call) :
    Advances o.table (o.run sha256 calls).table := by
  induction calls generalizing o with
  | nil => exact .refl _
  | cons call calls ih =>
    have hstep : Advances o.table (o.step sha256 call).table := by
      rcases State.step_cases sha256 call h.keyed with ⟨events, hs, -⟩ | he
      · exact hs.advances
      · rw [he]; exact .refl _
    exact hstep.trans (ih (h.step call))

theorem Told.event_eq {log : List Event} (h : Told log r) {e' : Event}
    (he : e ∈ log) (he' : e' ∈ log) (hv : e.version = e'.version) : e = e' := by
  have hn : (log.map Event.version).Nodup :=
    pairwise_map.2 (h.versions.imp fun hlt => Nat.ne_of_lt hlt)
  exact eq_of_key_eq hn he he' hv

theorem Traced.told (h : Traced o) (hr : r ∈ o.table) :
    Told (o.log.filter fun e => e.entryId = r.entryId) r :=
  (h.follows r hr).told

theorem Traced.told_claim (h : Traced o)
    (hc : .claimed c ∈ o.log) : ∃ r ∈ o.table, r.entryId = c.entry.entryId ∧
      .claimed c ∈ o.log.filter (fun e => e.entryId = r.entryId) := by
  obtain ⟨r, hr, hid⟩ := h.known _ hc
  exact ⟨r, hr, hid, mem_filter.2 ⟨hc, decide_eq_true hid.symm⟩⟩

/-- The claim holds its row at `now`: a settlement that carries it is accepted. -/
def Holds (rows : Table) (c : ClaimedOutboxEntry) (now : Time) : Prop :=
  ∃ r ∈ rows, r.heldBy c.entry.entryId c.workerId c.expectedVersion now

/-- The fence of a settlement, with its clock. -/
def Call.settlement : Call → Option (String × String × ℤ × Time)
  | .ack entryId workerId v now | .retry entryId workerId v _ _ now
  | .deadLetter entryId workerId v _ now => some (entryId, workerId, v, now)
  | .enqueue _ | .claim .. | .reclaimExpired .. => none

def Event.settles (c : ClaimedOutboxEntry) : Event → Bool
  | .settled entryId _ v => entryId = c.entry.entryId && v = c.expectedVersion
  | .claimed _ | .reclaimed _ => false

/-- The log has later news of the entry that was claimed. -/
def Superseded (log : List Event) (c : ClaimedOutboxEntry) : Prop :=
  ∃ e ∈ log, e.entryId = c.entry.entryId ∧ c.expectedVersion < e.version

/-- The delivery state machine at a state, and in whatever follows it. -/
structure Delivery (sha256 : List UInt8 → String) (o : State) : Prop where
  /-- The version of an entry grows with every change, and final rows do not change. -/
  advances : ∀ later, Advances o.table (o.run sha256 later).table
  /-- `attempt_count` is the number of claims that were made. -/
  attempts : ∀ r ∈ o.table, r.attemptCount =
    ((o.log.filter fun e => e.entryId = r.entryId).filterMap Event.claim?).length
  /-- One claim at most holds its entry. -/
  holder : ∀ c d now, .claimed c ∈ o.log → .claimed d ∈ o.log →
    c.entry.entryId = d.entry.entryId → Holds o.table c now → Holds o.table d now → c = d
  /-- One claim at most is neither settled nor expired, at a time that no reclaim was ahead of. -/
  unexpired : ∀ c d now, .claimed c ∈ o.log → .claimed d ∈ o.log →
    c.entry.entryId = d.entry.entryId → (∀ item, .reclaimed item ∈ o.log → item.availableAt ≤ now) →
    (∀ e ∈ o.log, e.settles c = false ∧ e.settles d = false) →
    now < c.leaseExpiresAt → now < d.leaseExpiresAt → c = d
  /-- A settlement is of a claim that was made, by the worker who made it. -/
  settled : ∀ entryId workerId v, .settled entryId workerId v ∈ o.log →
    ∃ c, .claimed c ∈ o.log ∧ c.entry.entryId = entryId ∧ c.workerId = workerId ∧
      c.expectedVersion = v
  /-- A claim is settled once at most. -/
  once : ∀ c, (o.log.filter (·.settles c)).length ≤ 1
  /-- A settlement with an expired or superseded claim changes nothing. -/
  stale : ∀ call c now, .claimed c ∈ o.log →
    call.settlement = some (c.entry.entryId, c.workerId, (c.expectedVersion : ℤ), now) →
    c.leaseExpiresAt ≤ now ∨ Superseded o.log c → o.step sha256 call = o

/-- A settlement that returns has met its row. -/
theorem exec_settlement (hc : call.settlement = some (entryId, workerId, v, now))
    (h : (exec sha256 call).Ok rows events rows') :
    ∃ r ∈ rows, r.heldBy entryId workerId v now := by
  cases call with
  | enqueue | claim | reclaimExpired => cases hc
  | ack | retry | deadLetter =>
    cases hc
    obtain ⟨n, hcall, -⟩ := ok_return.1 h
    obtain ⟨hone, -⟩ := settle_ok hcall
    exact countP_pos_iff.1 (by omega)

section
variable {d : ClaimedOutboxEntry}

section
variable (h : Traced o) (hc : .claimed c ∈ o.log)
include h hc

theorem Traced.held (hr : r ∈ o.table)
    (hh : r.heldBy c.entry.entryId c.workerId c.expectedVersion now) :
    .claimed c ∈ o.log.filter (fun e => e.entryId = r.entryId) ∧
      r.version = c.expectedVersion ∧ now < c.leaseExpiresAt := by
  obtain ⟨hid, -, -, hv, expires, hx, hlt⟩ := heldBy_iff.1 hh
  have hv : r.version = c.expectedVersion := by exact_mod_cast hv
  have hmem : .claimed c ∈ o.log.filter (fun e => e.entryId = r.entryId) :=
    mem_filter.2 ⟨hc, decide_eq_true hid.symm⟩
  have ht := h.told hr
  refine ⟨hmem, hv, ?_⟩
  -- a claim that was settled or taken back has a version below that of the row
  rcases ht.outcomes c hmem with hl | hs | ⟨item, hi, hiv, -⟩
  · rwa [Option.some.inj (hl.expires.symm.trans hx)]
  · have hb : c.expectedVersion + 1 ≤ r.version := ht.bound _ hs
    omega
  · have hb : item.expectedVersion ≤ r.version := ht.bound _ hi
    omega

theorem Traced.holder (hd : .claimed d ∈ o.log)
    (hid : c.entry.entryId = d.entry.entryId) (hhc : Holds o.table c now)
    (hhd : Holds o.table d now) : c = d := by
  obtain ⟨r, hr, hrc⟩ := hhc
  obtain ⟨r', hr', hrd⟩ := hhd
  have hrr : r = r' := eq_of_key_eq h.keyed hr hr'
    ((heldBy_iff.1 hrc).1.trans (hid.trans (heldBy_iff.1 hrd).1.symm))
  subst hrr
  obtain ⟨hmc, hvc, -⟩ := h.held hc hr hrc
  obtain ⟨hmd, hvd, -⟩ := h.held hd hr' hrd
  have he : Event.claimed c = .claimed d := (h.told hr).event_eq hmc hmd (hvc.symm.trans hvd)
  exact Event.claimed.inj he

/-- A claim that is neither settled nor expired is the one that its row is leased under. -/
theorem Traced.leased (hre : ∀ item, .reclaimed item ∈ o.log → item.availableAt ≤ now)
    (hs : ∀ e ∈ o.log, e.settles c = false) (hx : now < c.leaseExpiresAt) :
    ∃ r ∈ o.table, r.LeasedTo c ∧ .claimed c ∈ o.log.filter (fun e => e.entryId = r.entryId) := by
  obtain ⟨r, hr, hid, hmem⟩ := h.told_claim hc
  refine ⟨r, hr, ?_, hmem⟩
  rcases (h.told hr).outcomes c hmem with hl | hset | ⟨item, hi, -, hle⟩
  · exact hl
  · have := hs _ (mem_filter.1 hset).1
    simp [Event.settles] at this
  · exact absurd (hle.trans (hre item (mem_filter.1 hi).1)) (not_le.2 hx)

theorem Traced.unexpired (hd : .claimed d ∈ o.log) (hid : c.entry.entryId = d.entry.entryId)
    (hre : ∀ item, .reclaimed item ∈ o.log → item.availableAt ≤ now)
    (hs : ∀ e ∈ o.log, e.settles c = false ∧ e.settles d = false)
    (hxc : now < c.leaseExpiresAt) (hxd : now < d.leaseExpiresAt) : c = d := by
  obtain ⟨r, hr, hlc, hmc⟩ := h.leased hc hre (fun e he => (hs e he).1) hxc
  obtain ⟨r', hr', hld, hmd⟩ := h.leased hd hre (fun e he => (hs e he).2) hxd
  have hrr : r = r' := eq_of_key_eq h.keyed hr hr' (hlc.entryId.trans (hid.trans hld.entryId.symm))
  subst hrr
  have he : Event.claimed c = .claimed d :=
    (h.told hr).event_eq hmc hmd (hlc.version.symm.trans hld.version)
  exact Event.claimed.inj he

end

theorem Traced.settled (h : Traced o) {v : ℕ}
    (hs : .settled entryId workerId v ∈ o.log) : ∃ c, .claimed c ∈ o.log ∧
      c.entry.entryId = entryId ∧ c.workerId = workerId ∧ c.expectedVersion = v := by
  obtain ⟨r, hr, hid⟩ := h.known _ hs
  obtain ⟨c, hc, hw, hv⟩ := (h.told hr).settled entryId workerId v
    (mem_filter.2 ⟨hs, decide_eq_true hid.symm⟩)
  obtain ⟨hc, hcid⟩ := mem_filter.1 hc
  exact ⟨c, hc, (of_decide_eq_true hcid).trans hid, hw, hv⟩

/-- Events with one version, in the order of their versions. -/
theorem length_le_one_of_versions {l : List Event}
    (h : l.Pairwise fun a b => a.version < b.version) {v : ℕ} (hv : ∀ e ∈ l, e.version = v) :
    l.length ≤ 1 := by
  match l with
  | [] => exact Nat.zero_le _
  | [_] => exact le_rfl
  | a :: b :: l =>
    have hlt := (pairwise_cons.1 h).1 b mem_cons_self
    rw [hv a mem_cons_self, hv b (mem_cons_of_mem _ mem_cons_self)] at hlt
    exact absurd hlt (Nat.lt_irrefl v)

theorem Event.settles_iff : e.settles c ↔
    ∃ workerId, e = .settled c.entry.entryId workerId c.expectedVersion := by
  cases e <;> simp [Event.settles]

theorem Traced.once (h : Traced o) (c : ClaimedOutboxEntry) :
    (o.log.filter (·.settles c)).length ≤ 1 := by
  cases hl : o.log.filter (·.settles c) with
  | nil => exact Nat.zero_le _
  | cons e =>
    have he : e ∈ o.log.filter (·.settles c) := by rw [hl]; exact mem_cons_self
    obtain ⟨he, hset⟩ := mem_filter.1 he
    obtain ⟨worker, rfl⟩ := Event.settles_iff.1 hset
    obtain ⟨r, hr, hid⟩ := h.known _ he
    -- the settlements of the claim are among the events of its row
    have hsub : (o.log.filter (·.settles c)).Sublist
        (o.log.filter fun e => e.entryId = r.entryId) := by
      refine monotone_filter_right _ fun e he => ?_
      obtain ⟨w, rfl⟩ := Event.settles_iff.1 he
      exact decide_eq_true hid.symm
    rw [← hl]
    refine length_le_one_of_versions (v := c.expectedVersion + 1)
      ((h.told hr).versions.sublist hsub) fun e he => ?_
    obtain ⟨w, rfl⟩ := Event.settles_iff.1 (mem_filter.1 he).2
    rfl

theorem Traced.stale (h : Traced o) (hc : .claimed c ∈ o.log)
    (hx : c.leaseExpiresAt ≤ now ∨ Superseded o.log c) (hr : r ∈ o.table) :
    r.heldBy c.entry.entryId c.workerId c.expectedVersion now = false := by
  rw [Bool.eq_false_iff]
  intro hh
  obtain ⟨-, hv, hlt⟩ := h.held hc hr hh
  rcases hx with hx | ⟨e, he, hid, hgt⟩
  · exact absurd hx (not_le.2 hlt)
  · have hb := (h.told hr).bound e (mem_filter.2 ⟨he, decide_eq_true
      (hid.trans (heldBy_iff.1 hh).1.symm)⟩)
    omega

end

/-- **The outbox delivers as its state machine says**, over every interleaving of its calls. -/
theorem delivery (sha256 : List UInt8 → String) (calls : List Call) :
    Delivery sha256 ((⟨[], []⟩ : State).run sha256 calls) := by
  have h := traced_empty.run sha256 calls
  exact {
    advances := h.advances
    attempts := fun r hr => by simpa using (congrArg List.length (h.told hr).ordinals).symm
    holder := fun c d now hc hd => h.holder hc hd
    unexpired := fun c d now hc hd => h.unexpired hc hd
    settled := fun _ _ _ hs => h.settled hs
    once := h.once
    stale := fun call c now hc hcall hx => by
      refine (State.exec_cases sha256 call _).resolve_left ?_
      rintro ⟨events, rows', hok, -⟩
      obtain ⟨r, hr, hheld⟩ := exec_settlement hcall hok
      cases (h.stale hc hx hr).symm.trans hheld }

/-- **The log tells the table**: every row has come about by the changes that are reported of it. -/
theorem rows_follow_log (sha256 : List UInt8 → String) (calls : List Call) :
    Traced ((⟨[], []⟩ : State).run sha256 calls) := traced_empty.run sha256 calls

end AstralPlane.Outbox
