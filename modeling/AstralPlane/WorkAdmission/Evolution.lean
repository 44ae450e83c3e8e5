/-
  What a statement does to one operation.

  `Store.view s id` is one operation as the two tables show it: its row and the
  slots it holds.  `OpStep` lists every change that the repository makes to a
  view, with the guard it makes it under; it is the protocol of one operation,
  and every invariant of operations is proved against it.  `Evolves s s'` says
  that `s'` comes from `s` by such changes, operation by operation.  `FileStep`
  lists what a statement may do to the answers on file and to the identities of
  the operations; `Proceeds` is both.  The lemmas of this file give the effect of
  each statement on the views.
-/
import Mathlib.Data.Multiset.MapFold
import AstralPlane.WorkAdmission.Repository

namespace AstralPlane.WorkAdmission

open Relation Tx List SlotRow

variable {s s' s1 s2 s3 : Store} {r r' : OperationRecord} {p : OperationRecord → Bool}
  {f : OperationRecord → OperationRecord} {expiresAt : Time}
variable {configs : List AdmissionClassConfig} {fresh : Uuid → Prop} {leaseToken : Option Uuid}
  {one : AdmissionClass × ℕ} {α : Type}

/-! ## Views -/

/-- One operation: its row and the slots it holds. -/
@[ext] structure View where
  row : Option OperationRecord
  held : Multiset SlotRow

/-- The slots that carry an operation's id. -/
def heldBy (slots : List SlotRow) (id : Uuid) : List SlotRow :=
  slots.filter (·.operationId = some id)

def Store.view (s : Store) (id : Uuid) : View :=
  ⟨s.operations.find? (·.operationId = id), ↑(heldBy s.slots id)⟩

def SlotRow.key (r : SlotRow) : AdmissionClass × ℕ := (r.className, r.slotNumber)

/-- A UUID drawn between two counts of the supply. -/
def Fresh (supply : ℕ → Uuid) (lo hi : ℕ) (u : Uuid) : Prop := ∃ k, lo ≤ k ∧ k < hi ∧ u = supply k

/-- `slot` is leased to `id` under `token`. -/
structure Leased (id token : Uuid) (slot : SlotRow) : Prop where
  operationId : slot.operationId = some id
  leaseToken : slot.leaseToken = some token
  claimed : 0 < slot.claimGeneration

/-! ## The protocol of one operation -/

/-- `r'` is `r` after an update that leaves its execution alone. -/
def Touched (r r' : OperationRecord) : Prop :=
  ∃ phase chat generation cancelled updated, r' = { r with
    phaseCode := phase
    chatId := chat
    requestGeneration := generation
    cancelRequestedAt := cancelled
    updatedAt := updated
    stateRevision := r.stateRevision + 1 }

/-- `r'` is `r` after the update that ended it. -/
def Ended (r r' : OperationRecord) : Prop :=
  r'.state.isTerminal ∧ ∃ state code summary retry token cancelled updated terminal purge,
    r' = { r with
      state := state
      terminalCode := code
      safeSummary := summary
      retryAfterMs := retry
      executionLeaseToken := token
      cancelRequestedAt := cancelled
      updatedAt := updated
      terminalAt := terminal
      purgeAfter := purge
      stateRevision := r.stateRevision + 1 }

/-- `r'` is `r` after it was taken from the queue. -/
def Started (r r' : OperationRecord) (token : Uuid) : Prop :=
  ∃ updated started, r' = { r with
    state := .running
    executionGeneration := r.executionGeneration + 1
    executionLeaseToken := some token
    stateRevision := r.stateRevision + 1
    updatedAt := updated
    startedAt := started }

/-- `r'` is `r` after its execution was selected again. -/
def Reselected (r r' : OperationRecord) (token : Uuid) : Prop :=
  ∃ updated, r' = { r with
    executionGeneration := r.executionGeneration + 1
    executionLeaseToken := some token
    stateRevision := r.stateRevision + 1
    updatedAt := updated }

/-- Every change the repository makes to one operation.  `fresh` holds of the UUIDs drawn on the
    way. -/
inductive OpStep (configs : List AdmissionClassConfig) (fresh : Uuid → Prop) (id : Uuid) :
    View → View → Prop
  | enqueue {r : OperationRecord} {held : Multiset SlotRow} (hid : r.operationId = id)
      (hf : fresh id) (hs : r.state = .queued) (hc : r.check)
      (hn : r.cancelRequestedAt = none) : OpStep configs fresh id ⟨none, held⟩ ⟨some r, held⟩
  | start {r : OperationRecord} {held new : Multiset SlotRow} {token : Uuid}
      {members : List AdmissionClass} (hid : r.operationId = id) (hf : fresh id)
      (hs : r.state = .running) (hc : r.check) (hn : r.cancelRequestedAt = none)
      (ht : r.executionLeaseToken = some token) (hft : fresh token)
      (hm : chainOf configs r.admissionClass = .ok members) (hnew : new.map (·.className) = members)
      (hl : ∀ slot ∈ new, Leased id token slot) :
      OpStep configs fresh id ⟨none, held⟩ ⟨some r, held + new⟩
  | select {r r' : OperationRecord} {held new : Multiset SlotRow} {token : Uuid}
      {members : List AdmissionClass} (hs : r.state = .queued) (hr : Started r r' token)
      (hc : r'.check) (hft : fresh token)
      (hm : chainOf configs r.admissionClass = .ok members) (hnew : new.map (·.className) = members)
      (hl : ∀ slot ∈ new, ∃ t, fresh t ∧ Leased id t slot) :
      OpStep configs fresh id ⟨some r, held⟩ ⟨some r', held + new⟩
  | handover {r : OperationRecord} {held : Multiset SlotRow} {marker token : Uuid}
      {members : List AdmissionClass} {expiresAt : Time} (hs : r.state = .running)
      (ht : r.executionLeaseToken = some marker) (hft : fresh token)
      (hm : chainOf configs r.admissionClass = .ok members)
      (hn : held.countP (·.leaseToken = some marker) = members.length) :
      OpStep configs fresh id ⟨some r, held⟩ ⟨some r,
        held.map fun slot => if slot.leaseToken = some marker then slot.relabel token expiresAt
          else slot⟩
  | renew {r : OperationRecord} {held : Multiset SlotRow} {token : Uuid} {expiresAt : Time}
      (hs : r.state = .running) (hft : fresh token) :
      OpStep configs fresh id ⟨some r, held⟩ ⟨some r, held.map (SlotRow.relabel token expiresAt)⟩
  | reselect {r r' : OperationRecord} {held : Multiset SlotRow} {token slotToken : Uuid}
      {expiresAt : Time} (hs : r.state = .running) (hr : Reselected r r' token)
      (hc : r'.check) (hft : fresh token) (hfs : fresh slotToken) :
      OpStep configs fresh id ⟨some r, held⟩ ⟨some r', held.map (SlotRow.relabel slotToken expiresAt)⟩
  | touch {r r' : OperationRecord} {held : Multiset SlotRow} (hs : r.state = .running)
      (hr : Touched r r') (hc : r'.check) :
      OpStep configs fresh id ⟨some r, held⟩ ⟨some r', held⟩
  | lapse {r r' : OperationRecord} {held : Multiset SlotRow} (hs : r.state = .queued)
      (hr : Ended r r') (hc : r'.check) :
      OpStep configs fresh id ⟨some r, held⟩ ⟨some r', held⟩
  | finish {r r' : OperationRecord} {held : Multiset SlotRow} (hs : r.state.isTerminal = false)
      (hr : Ended r r') (hc : r'.check) :
      OpStep configs fresh id ⟨some r, held⟩ ⟨some r', 0⟩
  | release {row : Option OperationRecord} {held : Multiset SlotRow}
      (hs : ∀ r ∈ row, r.state ≠ .running) : OpStep configs fresh id ⟨row, held⟩ ⟨row, 0⟩
  | orphan {r : OperationRecord} {held : Multiset SlotRow} :
      OpStep configs fresh id ⟨some r, held⟩ ⟨some { r with parentOperationId := none }, held⟩
  | forget {r : OperationRecord} {held : Multiset SlotRow} (hs : r.state.isTerminal) :
      OpStep configs fresh id ⟨some r, held⟩ ⟨none, 0⟩

variable {id : Uuid}

theorem OpStep.mono {fresh' : Uuid → Prop} (h : ∀ u, fresh u → fresh' u) {v v' : View}
    (hs : OpStep configs fresh id v v') : OpStep configs fresh' id v v' := by
  cases hs with
  | enqueue hid hf hs hc hn => exact .enqueue hid (h _ hf) hs hc hn
  | start hid hf hs hc hn ht hft hm hnew hl =>
    exact .start hid (h _ hf) hs hc hn ht (h _ hft) hm hnew hl
  | select hs hr hc hft hm hnew hl =>
    refine .select hs hr hc (h _ hft) hm hnew fun slot hslot => ?_
    obtain ⟨t, ht, hlt⟩ := hl slot hslot
    exact ⟨t, h t ht, hlt⟩
  | handover hs ht hft hm hn => exact .handover hs ht (h _ hft) hm hn
  | renew hs hft => exact .renew hs (h _ hft)
  | reselect hs hr hc hft hfs => exact .reselect hs hr hc (h _ hft) (h _ hfs)
  | touch hs hr hc => exact .touch hs hr hc
  | lapse hs hr hc => exact .lapse hs hr hc
  | finish hs hr hc => exact .finish hs hr hc
  | release hs => exact .release hs
  | orphan => exact .orphan
  | forget hs => exact .forget hs

/-! ## Evolution of a store -/

def Keyed (s : Store) : Prop := (s.operations.map (·.operationId)).Nodup

/-- `s'` comes from `s` by the protocol, operation by operation; configuration and the supply of
    UUIDs stay, and slots are only ever removed. -/
structure Evolves (s s' : Store) : Prop where
  configs : s'.configs = s.configs
  classes : s'.classes = s.classes
  uuid4 : s'.uuid4 = s.uuid4
  draws : s.draws ≤ s'.draws
  keyed : Keyed s'
  slots : (s'.slots.map SlotRow.key).Sublist (s.slots.map SlotRow.key)
  views : ∀ id, ReflTransGen (OpStep s.configs (Fresh s.uuid4 s.draws s'.draws) id)
    (s.view id) (s'.view id)

theorem Evolves.refl (h : Keyed s) : Evolves s s where
  configs := rfl
  classes := rfl
  uuid4 := rfl
  draws := le_rfl
  keyed := h
  slots := Sublist.refl _
  views _ := .refl

theorem Evolves.trans (h : Evolves s1 s2) (h' : Evolves s2 s3) :
    Evolves s1 s3 where
  configs := h'.configs.trans h.configs
  classes := h'.classes.trans h.classes
  uuid4 := h'.uuid4.trans h.uuid4
  draws := h.draws.trans h'.draws
  keyed := h'.keyed
  slots := h'.slots.trans h.slots
  views id := by
    refine ReflTransGen.trans (b := s2.view id) ?_ ?_
    · refine ReflTransGen.mono (fun v v' hs => OpStep.mono ?_ hs) _ _ (h.views id)
      rintro u ⟨k, hlo, hhi, rfl⟩
      exact ⟨k, hlo, hhi.trans_le h'.draws, rfl⟩
    · refine ReflTransGen.mono (fun v v' hs => ?_) _ _ (h'.views id)
      rw [h.configs] at hs
      refine OpStep.mono ?_ hs
      rintro u ⟨k, hlo, hhi, rfl⟩
      exact ⟨k, h.draws.trans hlo, hhi, by rw [h.uuid4]⟩

/-- What every step of the protocol keeps, evolution keeps. -/
theorem Evolves.keeps (h : Evolves s s') {P : View → Prop}
    (hP : ∀ v v', OpStep s.configs (Fresh s.uuid4 s.draws s'.draws) id v v' → P v → P v')
    (hs : P (s.view id)) : P (s'.view id) := by
  have hv := h.views id
  generalize s'.view id = v' at hv
  induction hv with
  | refl => exact hs
  | tail _ hstep ih => exact hP _ _ hstep ih

/-! ## Identities and answers -/

/-- What an operation is admitted as; no later statement writes it. -/
@[ext] structure Card where
  operationId : Uuid
  operationKind : String
  admissionClass : AdmissionClass
  partition : OwnerScope × Option String × Option Uuid
  idempotencyNamespace : Option String
  idempotencyKey : Option String
  normalizedInputDigest : Option String
  deriving DecidableEq

def OperationRecord.card (r : OperationRecord) : Card :=
  ⟨r.operationId, r.operationKind, r.admissionClass, r.partition, r.idempotencyNamespace,
    r.idempotencyKey, r.normalizedInputDigest⟩

def Store.cards (s : Store) : List Card := s.operations.map (·.card)

/-- Two operations of one idempotency identity. -/
def Card.Clash (a b : Card) : Prop :=
  a.idempotencyNamespace.isSome ∧ a.partition = b.partition ∧
    a.idempotencyNamespace = b.idempotencyNamespace ∧ a.idempotencyKey = b.idempotencyKey

/-- Two answers to one submission. -/
def SubmissionRow.Clash (a b : SubmissionRow) : Prop :=
  a.submissionId = b.submissionId ∧ a.partition = b.partition

instance (a b : Card) : Decidable (a.Clash b) := inferInstanceAs (Decidable (_ ∧ _))

instance (a b : SubmissionRow) : Decidable (a.Clash b) := inferInstanceAs (Decidable (_ ∧ _))

/-- What one statement may do to the answers on file and to the identities. -/
inductive FileStep (s s' : Store) : Prop
  | keep (cards : s'.cards = s.cards) (submissions : s'.submissions = s.submissions)
      (supply : s'.uuid4 = s.uuid4) (draws : s.draws ≤ s'.draws)
  | insert (card : Card) (cards : s'.cards = s.cards ++ [card])
      (unclaimed : ∀ o ∈ s.cards, ¬ o.Clash card)
      (submissions : s'.submissions = s.submissions)
      (supply : s'.uuid4 = s.uuid4) (draws : s.draws ≤ s'.draws)
  | record (row : SubmissionRow) (cards : s'.cards = s.cards)
      (submissions : s'.submissions = s.submissions ++ [row])
      (unanswered : ∀ r ∈ s.submissions, ¬ r.Clash row)
      (outcome : row.accepted = row.operationId.isSome)
      (known : ∀ id, row.operationId = some id → ∃ o ∈ s.cards, o.operationId = id)
      (drawn : row.submissionResultId = s.uuid4 s.draws)
      (supply : s'.uuid4 = s.uuid4) (draws : s'.draws = s.draws + 1)
  | forget (keep : SubmissionRow → Bool) (cards : s'.cards = s.cards)
      (submissions : s'.submissions = s.submissions.filter keep)
      (supply : s'.uuid4 = s.uuid4) (draws : s'.draws = s.draws)
  | delete (ids : List Uuid) (cards : s'.cards = s.cards.filter (·.operationId ∉ ids))
      (submissions : s'.submissions = s.submissions.map fun r =>
        { r with operationId := r.operationId.filter (· ∉ ids) })
      (unreferenced : ∀ row ∈ s.submissions, row.accepted →
        ∀ id, row.operationId = some id → id ∉ ids)
      (supply : s'.uuid4 = s.uuid4) (draws : s'.draws = s.draws)

def Files : Store → Store → Prop := ReflTransGen FileStep

/-- `s'` comes from `s` by the protocol, and what was filed on the way is accounted for. -/
structure Proceeds (s s' : Store) : Prop extends Evolves s s' where
  files : Files s s'

theorem Proceeds.refl (h : Keyed s) : Proceeds s s := ⟨.refl h, .refl⟩

theorem Proceeds.trans (h : Proceeds s1 s2) (h' : Proceeds s2 s3) :
    Proceeds s1 s3 := ⟨h.toEvolves.trans h'.toEvolves, h.files.trans h'.files⟩

/-! ## Operations that are not admitted anew -/

theorem Ended.not_running (h : Ended r r') : r'.state ≠ .running := by
  intro he
  have ht := h.1
  rw [he] at ht
  cases ht

theorem Ended.not_queued (h : Ended r r') : r'.state ≠ .queued := by
  intro he
  have ht := h.1
  rw [he] at ht
  cases ht

theorem Ended.card (h : Ended r r') : r'.card = r.card := by
  obtain ⟨-, _, _, _, _, _, _, _, _, _, rfl⟩ := h
  rfl

theorem Touched.card (h : Touched r r') : r'.card = r.card := by
  obtain ⟨_, _, _, _, _, rfl⟩ := h
  rfl

/-- `v'` shows the operation of `v` later on: it is not queued anew, and it runs only if it was
    queued or did run, in which case it has kept its slots. -/
def View.Follows (v v' : View) : Prop :=
  ∀ r', v'.row = some r' → ∃ r, v.row = some r ∧ r'.card = r.card ∧
    (r'.state = .queued → r.state = .queued) ∧
    (r'.state = .running → r.state = .queued ∨
      (r.state = .running ∧ v'.held.map SlotRow.key = v.held.map SlotRow.key))

theorem View.Follows.refl (v : View) : v.Follows v :=
  fun r hr => ⟨r, hr, rfl, id, fun h => .inr ⟨h, rfl⟩⟩

theorem View.Follows.trans {v1 v2 v3 : View} (h : v1.Follows v2) (h' : v2.Follows v3) :
    v1.Follows v3 := by
  intro r3 hr3
  obtain ⟨r2, hr2, hc2, hq2, hs2⟩ := h' r3 hr3
  obtain ⟨r1, hr1, hc1, hq1, hs1⟩ := h r2 hr2
  refine ⟨r1, hr1, hc2.trans hc1, fun hq => hq1 (hq2 hq), fun hs => ?_⟩
  rcases hs2 hs with hq | ⟨hrun, hheld⟩
  · exact .inl (hq1 hq)
  · exact (hs1 hrun).imp_right fun h => ⟨h.1, hheld.trans h.2⟩

theorem map_relabel {β : Type} {g : SlotRow → β} {held : Multiset SlotRow} {token : Uuid}
    (hg : ∀ slot, g (slot.relabel token expiresAt) = g slot) (p : SlotRow → Prop)
    [DecidablePred p] :
    (held.map fun slot => if p slot then slot.relabel token expiresAt else slot).map g =
      held.map g := by
  rw [Multiset.map_map]
  refine Multiset.map_congr rfl fun slot _ => ?_
  by_cases hp : p slot <;> simp [hp, hg]

/-- A step that inserts no row is followed. -/
theorem OpStep.follows {v v' : View} (h : OpStep configs fresh id v v')
    (hrow : v.row = none → v'.row = none) : v.Follows v' := by
  have hkeys : ∀ (held : Multiset SlotRow) (token : Uuid) (expiresAt : Time),
      (held.map (relabel token expiresAt)).map key = held.map key :=
    fun held token expiresAt => Multiset.map_map ..
  intro r' hr'
  cases h with
  | enqueue | start => cases hrow rfl
  | select hs hr =>
    cases hr'
    obtain ⟨_, _, rfl⟩ := hr
    exact ⟨_, rfl, rfl, (fun h => by cases h), fun _ => .inl hs⟩
  | handover hs => cases hr'; exact ⟨_, rfl, rfl, fun h => h, fun _ => .inr ⟨hs, map_relabel (fun _ => rfl) _⟩⟩
  | renew hs => cases hr'; exact ⟨_, rfl, rfl, fun h => h, fun _ => .inr ⟨hs, hkeys ..⟩⟩
  | reselect hs hr =>
    cases hr'
    obtain ⟨_, rfl⟩ := hr
    exact ⟨_, rfl, rfl, fun h => h, fun _ => .inr ⟨hs, hkeys ..⟩⟩
  | touch hs hr =>
    cases hr'
    obtain ⟨_, _, _, _, _, rfl⟩ := hr
    exact ⟨_, rfl, rfl, fun h => h, fun h => .inr ⟨h, rfl⟩⟩
  | lapse _ hr | finish _ hr =>
    cases hr'
    exact ⟨_, rfl, hr.card, fun h => absurd h hr.not_queued, fun h => absurd h hr.not_running⟩
  | release hs => exact ⟨r', hr', rfl, fun h => h, fun h => absurd h (hs r' hr')⟩
  | orphan => cases hr'; exact ⟨_, rfl, rfl, fun h => h, fun h => .inr ⟨h, rfl⟩⟩
  | forget => cases hr'

/-- `s'` comes from `s` without the admission of an operation. -/
structure Subsides (s s' : Store) : Prop extends Proceeds s s' where
  follows : ∀ id, (s.view id).Follows (s'.view id)

theorem Subsides.refl (h : Keyed s) : Subsides s s := ⟨.refl h, fun _ => .refl _⟩

theorem Subsides.trans (h : Subsides s1 s2) (h' : Subsides s2 s3) : Subsides s1 s3 :=
  ⟨h.toProceeds.trans h'.toProceeds, fun id => (h.follows id).trans (h'.follows id)⟩

theorem row_none_of_cards (h : s'.cards ⊆ s.cards)
    (hn : (s.view id).row = none) : (s'.view id).row = none := by
  refine List.find?_eq_none.2 fun r' hr' hid => ?_
  obtain ⟨r, hr, hcard⟩ := mem_map.1 (h (mem_map_of_mem hr'))
  have heq : r.operationId = r'.operationId := congrArg Card.operationId hcard
  exact List.find?_eq_none.1 hn r hr (by rw [heq]; exact hid)

/-- Each operation makes at most one step, and none is admitted. -/
theorem Subsides.of_steps (hk : Keyed s') (hc : s'.configs = s.configs)
    (hcl : s'.classes = s.classes) (hu : s'.uuid4 = s.uuid4) (hd : s.draws ≤ s'.draws)
    (hslots : (s'.slots.map SlotRow.key).Sublist (s.slots.map SlotRow.key))
    (hsteps : ∀ id, ReflGen (OpStep s.configs (Fresh s.uuid4 s.draws s'.draws) id)
      (s.view id) (s'.view id)) (hcards : s'.cards ⊆ s.cards) (hfiles : Files s s') :
    Subsides s s' where
  configs := hc
  classes := hcl
  uuid4 := hu
  draws := hd
  keyed := hk
  slots := hslots
  views id := (hsteps id).to_reflTransGen
  files := hfiles
  follows id := by
    rcases (reflGen_iff ..).1 (hsteps id) with heq | hstep
    · rw [heq]; exact .refl _
    · exact hstep.follows (row_none_of_cards hcards)

theorem files_keep (cards : s'.cards = s.cards)
    (submissions : s'.submissions = s.submissions) (hu : s'.uuid4 = s.uuid4)
    (hd : s.draws ≤ s'.draws) : Files s s' := .single (.keep cards submissions hu hd)

theorem Subsides.of_eq (hk : Keyed s) (hc : s'.configs = s.configs)
    (hcl : s'.classes = s.classes) (hu : s'.uuid4 = s.uuid4) (hd : s.draws ≤ s'.draws)
    (ho : s'.operations = s.operations) (hs : s'.slots = s.slots) (hfiles : Files s s') :
    Subsides s s' := by
  refine .of_steps (by rw [Keyed, ho]; exact hk) hc hcl hu hd (by rw [hs]) (fun id => ?_) ?_ hfiles
  · rw [Store.view, Store.view, ho, hs]
  · rw [Store.cards, ho]; exact List.Subset.refl _

/-- A body that evolves every store it returns from. -/
def Evolving {α : Type} (x : Work α) : Prop := ∀ s a s', x.Ok s a s' → Keyed s → Proceeds s s'

/-- A body that admits no operation. -/
def Subsiding {α : Type} (x : Work α) : Prop := ∀ s a s', x.Ok s a s' → Keyed s → Subsides s s'

theorem subsiding_pure (a : α) : Subsiding (pure a : Work α) := by
  intro s b s' h hk
  obtain ⟨-, rfl⟩ := ok_pure.1 h
  exact .refl hk

variable {x : Work α}

theorem subsiding_bind {β : Type} {f : α → Work β} (hx : Subsiding x)
    (hf : ∀ a, Subsiding (f a)) : Subsiding (x >>= f) := by
  intro s b s' h hk
  obtain ⟨a, s1, h1, h2⟩ := ok_bind.1 h
  have e := hx s a s1 h1 hk
  exact e.trans (hf a s1 b s' h2 e.keyed)

theorem subsiding_of_readOnly (hx : x.ReadOnly) : Subsiding x := by
  intro s a s' h hk
  rw [← hx.ok h]
  exact .refl hk

theorem subsiding_readOnly_bind {β : Type} {f : α → Work β} (hx : x.ReadOnly)
    (hf : ∀ a, Subsiding (f a)) : Subsiding (x >>= f) :=
  subsiding_bind (subsiding_of_readOnly hx) hf

theorem Subsiding.returning {β : Type} (hx : Subsiding x) {f : α → β} :
    Subsiding (x >>= fun a => pure (f a)) := subsiding_bind hx fun _ => subsiding_pure _

/-! ## Statements on the two tables -/

@[simp] theorem ok_uuid4 {u : Uuid} :
    uuid4.Ok s u s' ↔ s.uuid4 s.draws = u ∧ { s with draws := s.draws + 1 } = s' := by
  simp only [Tx.Ok, uuid4, Prod.mk.injEq, Except.ok.injEq]

theorem ok_updateSlots {p : SlotRow → Bool} {f : SlotRow → SlotRow} {n : ℕ} :
    (updateSlots p f).Ok s n s' ↔ (∀ r ∈ s.slots, p r → (f r).check) ∧
      s.slots.countP p = n ∧ { s with slots := updateWhere p f s.slots } = s' := by
  simp only [updateSlots, ok_rules, exists_eq_left', exists_const, all_eq_true,
    Bool.or_eq_true, Bool.not_eq_true', imp_iff_not_or, Bool.not_eq_true]

theorem ok_updateOperations {l : List OperationRecord} :
    (updateOperations p f).Ok s l s' ↔ (∀ r ∈ s.operations, p r → (f r).check) ∧
      (s.operations.filter p).map f = l ∧
      { s with operations := updateWhere p f s.operations } = s' := by
  simp only [updateOperations, ok_rules, exists_eq_left', exists_const, all_eq_true,
    Bool.or_eq_true, Bool.not_eq_true', imp_iff_not_or, Bool.not_eq_true]

/-- A slot update that keeps the holders maps the held slots. -/
theorem heldBy_updateWhere {p : SlotRow → Bool} {f : SlotRow → SlotRow}
    (hf : ∀ r, (f r).operationId = r.operationId) (slots : List SlotRow) (id : Uuid) :
    heldBy (updateWhere p f slots) id = updateWhere p f (heldBy slots id) :=
  filter_updateWhere (fun r _ => by simp [hf]) slots

theorem heldBy_relabel_other {p : SlotRow → Bool} {token : Uuid} (slots : List SlotRow)
    (hp : ∀ slot : SlotRow, slot.operationId = some id → p slot = false) :
    heldBy (updateWhere p (SlotRow.relabel token expiresAt) slots) id = heldBy slots id := by
  rw [heldBy_updateWhere (f := relabel token expiresAt) fun _ => rfl]
  exact updateWhere_of_none fun slot hslot => by simpa using hp slot (by simpa using of_mem_filter hslot)

theorem heldBy_relabel (p : SlotRow → Bool) (token : Uuid) (expiresAt : Time)
    (slots : List SlotRow) (id : Uuid) :
    heldBy (updateWhere p (SlotRow.relabel token expiresAt) slots) id =
      updateWhere p (SlotRow.relabel token expiresAt) (heldBy slots id) :=
  heldBy_updateWhere (f := relabel token expiresAt) (fun _ => rfl) slots id

theorem keys_relabel (p : SlotRow → Bool) (token : Uuid) (expiresAt : Time) (slots : List SlotRow) :
    (updateWhere p (SlotRow.relabel token expiresAt) slots).map SlotRow.key =
      slots.map SlotRow.key :=
  map_updateWhere (f := relabel token expiresAt) (k := key) (fun _ => rfl) slots

theorem row_updateWhere
    (hf : ∀ r, (f r).operationId = r.operationId) (rows : List OperationRecord) (id : Uuid) :
    (updateWhere p f rows).find? (·.operationId = id) =
      (rows.find? (·.operationId = id)).map fun r => if p r then f r else r :=
  find?_updateWhere (fun r _ => by simp [hf]) rows

theorem keyed_updateWhere (hf : ∀ r, (f r).operationId = r.operationId) (hk : Keyed s) :
    Keyed { s with operations := updateWhere p f s.operations } := by
  rw [Keyed, map_updateWhere hf]; exact hk

theorem Keyed.find (hk : Keyed s) :
    s.operations.find? (·.operationId = id) = some r ↔ r ∈ s.operations ∧ r.operationId = id :=
  find?_key_iff hk

/-- Under distinct ids, a row found under a further condition is the row of its id. -/
theorem Keyed.find_and (hk : Keyed s) {q : OperationRecord → Prop} [DecidablePred q]
    (h : s.operations.find? (fun r => decide (r.operationId = id ∧ q r)) = some r) :
    s.operations.find? (·.operationId = id) = some r ∧ q r := by
  have hm := mem_of_find?_eq_some h
  have hq := List.find?_some h
  simp only [decide_eq_true_eq] at hq
  exact ⟨hk.find.2 ⟨hm, hq.1⟩, hq.2⟩

/-! ## Releasing slots -/

/-- The slot table after `releaseSlots id`. -/
def freed (s : Store) (id : Uuid) : List SlotRow :=
  (updateWhere (·.operationId = some id) SlotRow.free s.slots).filter fun r =>
      ¬ (r.operationId = none ∧
        s.classes.any fun c => c.className = r.className ∧ c.activeLimit < r.slotNumber)

theorem ok_releaseSlots {u : Unit} (h : (releaseSlots id).Ok s u s') :
    s' = { s with slots := freed s id } := by
  simp only [releaseSlots, ok_rules] at h
  obtain ⟨n, s1, h1, rfl⟩ := h
  obtain ⟨-, -, rfl⟩ := ok_updateSlots.1 h1
  rfl

/-- Dropping free slots takes nothing from an operation. -/
theorem heldBy_filter {slots : List SlotRow} {keep : SlotRow → Bool}
    (hk : ∀ r ∈ slots, r.operationId ≠ none → keep r) (id : Uuid) :
    heldBy (slots.filter keep) id = heldBy slots id := by
  rw [heldBy, heldBy, filter_filter]
  refine filter_congr fun r hr => ?_
  by_cases h : r.operationId = some id
  · simp [h, hk r hr (by simp [h])]
  · simp [h]

theorem heldBy_freed_self (s : Store) (id : Uuid) : heldBy (freed s id) id = [] := by
  rw [freed, heldBy_filter fun r _ hn => by simp [hn]]
  refine filter_eq_nil_iff.2 fun r hr => ?_
  rcases mem_updateWhere.1 hr with ⟨r0, -, -, rfl⟩ | ⟨-, hp⟩
  · simp [free]
  · simpa using hp

theorem heldBy_freed_other (s : Store) {j : Uuid} (h : j ≠ id) :
    heldBy (freed s id) j = heldBy s.slots j := by
  rw [freed, heldBy_filter fun r _ hn => by simp [hn]]
  -- a slot of `id` is not one of `j`, neither before nor after it is freed
  have hq : ∀ r : SlotRow, decide (r.operationId = some id) →
      decide (r.free.operationId = some j) = decide (r.operationId = some j) := by
    intro r hr
    have : r.operationId = some id := by simpa using hr
    simp [free, this, h.symm]
  rw [heldBy, filter_updateWhere hq, updateWhere_of_none]
  · rfl
  · intro r hr
    have : r.operationId = some j := by simpa using of_mem_filter hr
    simp [this, h]

theorem keys_freed (s : Store) (id : Uuid) :
    ((freed s id).map SlotRow.key).Sublist (s.slots.map SlotRow.key) := by
  rw [← map_updateWhere (k := key) (p := fun r => decide (r.operationId = some id))
    (f := free) (fun _ => rfl) s.slots]
  exact filter_sublist.map _

/-! ## Occupying slots -/

/-- Held slots after `_occupy_slots`: the operation gains one slot in each selected class, leased
    to it under the given tokens; nothing else changes hands. -/
structure Occupied (s s' : Store) (id : Uuid) (selected : List (AdmissionClass × ℕ))
    (tokens : List Uuid) (expiresAt : Time) : Prop where
  store : s' = { s with slots := s'.slots, draws := s'.draws }
  keys : s'.slots.map SlotRow.key = s.slots.map SlotRow.key
  others : ∀ j, j ≠ id → heldBy s'.slots j = heldBy s.slots j
  gained : ∃ new : List SlotRow, (heldBy s'.slots id).Perm (new ++ heldBy s.slots id) ∧
    new.map (·.className) = selected.map Prod.fst ∧
    new.map (·.leaseToken) = tokens.map some ∧
    ∀ slot ∈ new, slot.operationId = some id ∧ 0 < slot.claimGeneration ∧
      slot.leaseExpiresAt = some expiresAt

/-- The tokens that `_occupy_slots` writes: the given one, or one drawn for each slot. -/
def slotTokens (supply : ℕ → Uuid) (draws : ℕ) (leaseToken : Option Uuid) (n : ℕ) : List Uuid :=
  match leaseToken with
  | some token => List.replicate n token
  | none => (List.range' draws n).map supply

/-- How far `_occupy_slots` moves the supply. -/
def slotDraws (leaseToken : Option Uuid) (n : ℕ) : ℕ := if leaseToken.isSome then 0 else n

theorem occupied_one (id token : Uuid) (expiresAt : Time)
    (h : s.slots.countP (SlotRow.isFree one) = 1) : Occupied s
      { s with slots := updateWhere (isFree one) (lease id token expiresAt) s.slots }
      id [one] [token] expiresAt where
  store := rfl
  keys := map_updateWhere (f := lease id token expiresAt) (k := key) (fun _ => rfl) _
  others j hj := by
    have hq : ∀ r : SlotRow, r.isFree one →
        decide ((r.lease id token expiresAt).operationId = some j) =
          decide (r.operationId = some j) := by
      intro r hr
      have : r.operationId = none := (of_decide_eq_true hr).2.2
      simp [lease, this, hj.symm]
    simp only [heldBy]
    rw [filter_updateWhere hq, updateWhere_of_none]
    intro r hr
    have : r.operationId = some j := by simpa using of_mem_filter hr
    simp [isFree, this]
  gained := by
    obtain ⟨a, rest, hpa, hp, -, hp'⟩ := updateWhere_one (f := lease id token expiresAt) h
    have ha : a.className = one.1 ∧ a.slotNumber = one.2 ∧ a.operationId = none :=
      of_decide_eq_true hpa
    refine ⟨[a.lease id token expiresAt], ?_, by simp [lease, ha.1], rfl,
      by simp [lease]⟩
    have h1 := hp.filter (fun r => decide (r.operationId = some id))
    have h2 := hp'.filter (fun r => decide (r.operationId = some id))
    rw [filter_cons_of_neg (by simp [ha.2.2])] at h1
    rw [filter_cons_of_pos (by simp [lease])] at h2
    exact h2.trans (h1.symm.cons _)

theorem Occupied.refl (s : Store) (id : Uuid) (expiresAt : Time) :
    Occupied s s id [] [] expiresAt where
  store := rfl
  keys := rfl
  others _ _ := rfl
  gained := ⟨[], .refl _, rfl, rfl, by simp⟩

theorem Occupied.trans {a b : List (AdmissionClass × ℕ)}
    {ta tb : List Uuid} (h : Occupied s1 s2 id a ta expiresAt)
    (h' : Occupied s2 s3 id b tb expiresAt) : Occupied s1 s3 id (a ++ b) (ta ++ tb) expiresAt where
  store := by rw [h'.store, h.store]
  keys := h'.keys.trans h.keys
  others j hj := (h'.others j hj).trans (h.others j hj)
  gained := by
    obtain ⟨new, hp, hc, ht, hl⟩ := h.gained
    obtain ⟨new', hp', hc', ht', hl'⟩ := h'.gained
    refine ⟨new ++ new', ?_, by simp [hc, hc'], by simp [ht, ht'], ?_⟩
    · refine hp'.trans ((hp.append_left new').trans ?_)
      rw [← append_assoc]
      exact perm_append_comm.append_right _
    · intro slot hslot
      rcases mem_append.1 hslot with hs | hs
      · exact hl slot hs
      · exact hl' slot hs

theorem occupySlot_spec {u : Unit} (h : (occupySlot id leaseToken expiresAt one).Ok s u s') :
    Occupied s s' id [one] (slotTokens s.uuid4 s.draws leaseToken 1) expiresAt ∧
      s'.draws = s.draws + slotDraws leaseToken 1 := by
  simp only [occupySlot, ok_rules] at h
  obtain ⟨token, s1, htoken, n, s2, hslots, hone, rfl⟩ := h
  obtain ⟨-, rfl, rfl⟩ := ok_updateSlots.1 hslots
  have hone' : s1.slots.countP (isFree one) = 1 := of_decide_eq_true hone
  cases leaseToken with
  | some t =>
    obtain ⟨rfl, rfl⟩ := ok_pure.1 htoken
    exact ⟨occupied_one id t expiresAt hone', rfl⟩
  | none =>
    obtain ⟨rfl, rfl⟩ := ok_uuid4.1 htoken
    obtain ⟨-, hkeys, hothers, hgained⟩ := occupied_one (s := s) id
      (s.uuid4 s.draws) expiresAt hone'
    exact ⟨⟨rfl, hkeys, hothers, hgained⟩, rfl⟩

/-- **The slots an operation gains** are one in each selected class, under the tokens of
    `slotTokens`. -/
theorem occupySlots_spec :
    ∀ {selected : List (AdmissionClass × ℕ)} {s s' : Store} {u : Unit},
      (occupySlots selected id leaseToken expiresAt).Ok s u s' →
      Occupied s s' id selected (slotTokens s.uuid4 s.draws leaseToken selected.length) expiresAt ∧
        s'.draws = s.draws + slotDraws leaseToken selected.length
  | [], s, s', u, h => by
    obtain ⟨-, rfl⟩ := ok_pure.1 h
    refine ⟨?_, by cases leaseToken <;> rfl⟩
    cases leaseToken <;> exact Occupied.refl _ _ _
  | one :: rest, s, s', u, h => by
    obtain ⟨_, s1, h1, h2⟩ := ok_bind.1 h
    obtain ⟨ho1, hd1⟩ := occupySlot_spec h1
    obtain ⟨ho2, hd2⟩ := occupySlots_spec h2
    have hu : s1.uuid4 = s.uuid4 := by rw [ho1.store]
    rw [hu, hd1] at ho2
    have htokens : slotTokens s.uuid4 s.draws leaseToken (rest.length + 1) =
        slotTokens s.uuid4 s.draws leaseToken 1 ++
          slotTokens s.uuid4 (s.draws + slotDraws leaseToken 1) leaseToken rest.length := by
      cases leaseToken with
      | some => rfl
      | none => simp [slotTokens, slotDraws, range'_succ]
    refine ⟨?_, ?_⟩
    · rw [length_cons, htokens]; exact ho1.trans ho2
    · rw [hd2, hd1, length_cons]
      cases leaseToken <;> simp [slotDraws]; omega

end AstralPlane.WorkAdmission
