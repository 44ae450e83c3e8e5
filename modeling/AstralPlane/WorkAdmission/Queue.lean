/-
  The order of a queue.

  * `queue_order`: an operation that is claimed is the first of its queue, and a
    position counts the operations ahead;
  * a submission takes free slots without a look at the queue, so that it may
    start before operations which were accepted earlier (`queue_overtaken`).
-/
import Mathlib.Data.Prod.Lex
import AstralPlane.WorkAdmission.Capacity

namespace AstralPlane.WorkAdmission

open Tx

variable {s s' s1 : Store} {r r' o : OperationRecord} {a : AcceptedAdmission}
  {gate : HarnessGate} {request : OperationRequest} {retry : Option RetryProof}
variable {now retention slotLease t : Time} {locked : Locked}

/-- The place of an operation in the order of acceptance. -/
def OperationRecord.place (r : OperationRecord) : Time ×ₗ ℕ := toLex (r.acceptedAt, r.operationId.int)

theorem earlier_iff (a b : OperationRecord) : earlier a b ↔ a.place < b.place := by
  simp [earlier, OperationRecord.place, Prod.Lex.toLex_lt_toLex]

/-- At `t`, the operation waits for the class of `r` and was accepted before it. -/
def Awaits (t : Time) (r o : OperationRecord) : Prop :=
  o.admissionClass = r.admissionClass ∧ o.state = .queued ∧ earlier o r ∧
    o.queueDeadlineAt.all (t < ·)

/-! ## Starts -/

/-- A claim starts the first operation of a queue that is not locked. -/
theorem Picked.in_order {result : Option OperationClaim} (hk : Keyed s1)
    (h : Picked s1 s' locked now slotLease result) (hr : r ∈ s'.operations)
    (hnew : r ∉ s1.operations) (ho : o ∈ s'.operations) (hw : Awaits t r o) :
    o ∈ s1.operations ∧ locked.operations o.operationId := by
  obtain ⟨head, token, members, hhead, rfl, -, -, hrow⟩ := h.started hk hr hnew
  obtain ⟨hc, hq, he, -⟩ := hw
  rcases hrow o ho with rfl | ho
  · cases hq
  refine ⟨ho, by_contra fun hfree => ?_⟩
  refine not_lt_of_ge (firstBy_le earlier_iff hhead o ?_) ((earlier_iff o _).1 he)
  exact List.mem_filter.2 ⟨List.mem_filter.2 ⟨ho, by simpa using hfree⟩, decide_eq_true ⟨hc, hq⟩⟩

/-- A submission starts its own operation, and leaves the queue as the expiries do. -/
theorem Admits.in_order (h : Admits s1 s' request r')
    (hs : Subsides s s1) (hc : Cleared s s1) (hr : Starts s s' r)
    (hqueue : ∀ o ∈ s.operations, ¬ Awaits t r o) : ∀ o ∈ s'.operations, ¬ Awaits t r o := by
  intro o ho hw
  have hnew := hr.cleared hc hs.keyed
  have hmem := hr.mem
  rw [h.operations, List.mem_append, List.mem_singleton] at hmem ho
  obtain rfl := hmem.resolve_left hnew
  rcases ho with ho | rfl
  · exact hqueue o (hc.mem hs.keyed ho (by rw [hw.2.1]; rfl)) hw
  · cases hr.running.symm.trans hw.2.1

/-! ## Positions -/

/-- The position of a queued operation is one more than the number of operations ahead. -/
def Positioned (s : Store) (a : AcceptedAdmission) : Prop :=
  a.state = .queued → ∃ r ∈ s.operations, r.operationId = a.operationId ∧
    a.queuePosition = some (1 + s.operations.countP fun o =>
      o.admissionClass = r.admissionClass ∧ o.state = .queued ∧ earlier o r)

theorem not_earlier_iff (hk : Keyed s) (hr : r ∈ s.operations) (ho : o ∈ s.operations) :
    ¬ earlier r o ↔ o = r ∨ earlier o r := by
  rw [earlier_iff, earlier_iff, not_lt, le_iff_eq_or_lt]
  refine or_congr_left ⟨fun h => ?_, fun h => by rw [h]⟩
  obtain ⟨-, hid⟩ := Prod.mk.inj (toLex.injective h)
  exact eq_of_key_eq hk ho hr (congrArg Uuid.mk hid)

theorem accepted_positioned {created : Bool} (hk : Keyed s) (hr : r ∈ s.operations)
    (h : (accepted r created).Ok s (.accepted a) s') : Positioned s' a := by
  simp only [accepted, queuePosition, ok_rules, ok_ite] at h
  obtain ⟨position, _, ⟨_, rfl, hpos⟩, h, rfl⟩ := h
  cases h
  intro hq
  rcases hpos with ⟨hn, -⟩ | ⟨-, rfl, rfl⟩
  · exact absurd hq hn
  refine ⟨r, hr, rfl, congrArg some ?_⟩
  -- the operation itself is counted once, apart from the others
  have hperm := List.perm_cons_erase hr
  have hnd : s.operations.Nodup := List.Nodup.of_map _ hk
  rw [hperm.countP_eq, hperm.countP_eq, List.countP_cons_of_pos, List.countP_cons_of_neg, Nat.add_comm]
  · refine congrArg (1 + ·) (List.countP_congr fun o ho => ?_)
    obtain ⟨hne, ho⟩ := (hnd.mem_erase_iff).1 ho
    simp only [decide_eq_true_eq, not_earlier_iff hk hr ho, hne, false_or]
  · simp [earlier]
  · simpa [earlier] using hq

theorem submitWith_positioned (hk : Keyed s) (hk' : Keyed s')
    (h : (submitWith gate request retry now retention slotLease locked).Ok s (.accepted a) s') :
    Positioned s' a := by
  rcases (submitWith_spec hk h).2 with hrecorded | ⟨row, -, hreplay⟩
  · obtain ⟨o, ho, created, hshown⟩ := hrecorded.shown a rfl
    exact accepted_positioned hk' ho hshown
  · unfold replaySubmission at hreplay
    split at hreplay
    · cases (ok_pure.1 hreplay).1
    split at hreplay
    · exact absurd hreplay ok_raise
    obtain ⟨found, _, hfound, hreplay⟩ := ok_bind.1 hreplay
    obtain ⟨rfl, rfl⟩ := ok_operationRow.1 hfound
    split at hreplay
    · exact absurd hreplay ok_raise
    rename_i hfind
    exact accepted_positioned hk' (mem_of_find hfind) hreplay

/-! ## Every run -/

/-- **A claim starts the first operation of a queue**: in every run, an operation that becomes
    RUNNING leaves no operation of its class in the queue that was accepted earlier and has not
    expired, if none waits before a submission, and none that waits is locked when `claim_next` is
    called.  A queue position counts the operations ahead. -/
theorem queue_order (s₀ : Store) (h₀ : Tidy s₀) (actions : List Action) (call : Call) :
    let s := s₀.act actions
    let s' := call.commit s
    (∀ r t, call.admits → Starts s s' r →
      (call.submission.isSome → ∀ o ∈ s.operations, ¬ Awaits t r o) →
      (∀ o ∈ s.operations, Awaits t r o → call.skips.operations o.operationId = false) →
        ∀ o ∈ s'.operations, ¬ Awaits t r o) ∧
      ∀ a, call.submission.isSome → (exec call).Ok s (.admission (.accepted a)) s' →
        Positioned s' a := by
  intro s s'
  have hk : Keyed s := (tidy_act actions h₀).keyed
  constructor
  · intro r t hcall hr hqueue hfree
    rcases commit_cases (exec call) s with ⟨reply, hok⟩ | hok
    · rcases hcall with hsub | hclaim
      · obtain ⟨_, hargs⟩ := Option.isSome_iff_exists.1 hsub
        obtain ⟨_, -, hok⟩ := exec_submission hargs hok
        rcases (submitWith_spec hk hok).1 with ⟨hs, hc⟩ | ⟨s₁, r', hs, hc, hadmit⟩
        · exact absurd hr.mem (hr.cleared hc hs.keyed)
        · exact hadmit.in_order hs hc hr (hqueue hsub)
      · obtain ⟨_, hargs⟩ := Option.isSome_iff_exists.1 hclaim
        obtain ⟨s₁, result, -, hs, hc, hpicked⟩ := exec_picked hk hargs hok
        intro o ho hw
        obtain ⟨ho, hlocked⟩ :=
          hpicked.in_order hs.keyed hr.mem (hr.cleared hc hs.keyed) ho hw
        have hbefore := hc.mem hs.keyed ho (by rw [hw.2.1]; rfl)
        cases (hfree o hbefore hw).symm.trans hlocked
    · have hsame : s' = s := hok
      rw [hsame] at hr
      exact absurd hr.running (hr.idle r hr.mem rfl)
  · intro a hsub hok
    obtain ⟨_, hargs⟩ := Option.isSome_iff_exists.1 hsub
    obtain ⟨_, ⟨⟩, hok⟩ := exec_submission hargs hok
    exact submitWith_positioned hk (commit_evolves call hk).keyed hok

/-- One request runs, a second one waits, and the first one ends. -/
def slotFreed : List Action :=
  [.configure smallConfigs, .bindConfigs smallConfigs, .call (submitChat 1 0),
    .call (submitChat 2 1), .call (cancelFirst 2)]

/-- A claim then starts the second request. -/
theorem queue_order_claimed :
    let s := emptyStore.act slotFreed
    let s' := (Call.claimNext .interactive 3 1000 1000).commit s
    ∃ r, Starts s s' r ∧ ∀ o ∈ s'.operations, ¬ Awaits 3 r o := by
  intro s s'
  have hstarts : ∃ r ∈ s'.operations, r.state = .running ∧
      ∀ r₀ ∈ s.operations, r₀.operationId = r.operationId → r₀.state ≠ .running := by
    decide +kernel
  obtain ⟨r, hmem, hrun, hidle⟩ := hstarts
  have horder := (queue_order emptyStore tidy_emptyStore slotFreed
    (.claimNext .interactive 3 1000 1000)).1 r 3 (.inr rfl) ⟨hmem, hrun, hidle⟩ (fun h => by cases h)
    fun _ _ _ => rfl
  exact ⟨r, ⟨hmem, hrun, hidle⟩, horder⟩

/-- If the second request is locked, the claim starts a third one that waits behind it. -/
example :
    let s := emptyStore.act (slotFreed.take 4 ++ [.call (submitChat 3 1), .call (cancelFirst 2)])
    let locked : Locked := { operations := fun id =>
      (queueHead s .interactive).any (·.operationId = id) }
    let s' := (Call.claimNext .interactive 3 1000 1000 locked).commit s
    ∃ r ∈ s'.operations, r.state = .running ∧
      ∃ o ∈ s'.operations, o.state = .queued ∧ earlier o r := by
  decide +kernel

/-- A third request takes the slot, and the second one still waits. -/
theorem queue_overtaken :
    let s := emptyStore.act slotFreed
    let s' := (submitChat 3 3).commit s
    ∃ r, Starts s s' r ∧ ∃ o ∈ s'.operations, Awaits 3 r o := by
  intro s s'
  have hstarts : ∃ r ∈ s'.operations, r.state = .running ∧
      (∀ r₀ ∈ s.operations, r₀.operationId = r.operationId → r₀.state ≠ .running) ∧
      ∃ o ∈ s'.operations, o.admissionClass = r.admissionClass ∧ o.state = .queued ∧
        earlier o r ∧ o.queueDeadlineAt.all (3 < ·) := by decide +kernel
  obtain ⟨r, hmem, hrun, hidle, hwaits⟩ := hstarts
  exact ⟨r, ⟨hmem, hrun, hidle⟩, hwaits⟩

end AstralPlane.WorkAdmission
