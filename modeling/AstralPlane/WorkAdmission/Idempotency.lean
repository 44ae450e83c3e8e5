/-
  Admission is idempotent.

  Two keys make a submission repeatable: the submission id, under which its
  answer is filed, and the idempotency identity, which at most one retained
  operation has.  `Filed` is the invariant of the answers on file and of the
  identities that every run keeps.  From it follow the replay of a submission under either key
  and the agreement of `reconcile_submission` with the replay.
-/
import Mathlib.Data.List.Pairwise
import AstralPlane.WorkAdmission.Fences

namespace AstralPlane.WorkAdmission

open Relation Tx List

variable {s s' s1 : Store}
  {row : SubmissionRow} {r : AdmissionResult} {id : Uuid} {o : OperationRecord}
variable {configs : List AdmissionClassConfig}
  {now retention slotLease : Time} {o' r' : OperationRecord} {owner : Option String}

/-! ## The invariant of the file -/

/-- At most one operation has an identity and at most one answer a submission; an accepted answer
    names an operation that is retained. -/
structure Filed (s : Store) : Prop where
  distinct : Function.Injective s.uuid4
  identities : s.cards.Pairwise fun a b => ¬ a.Clash b
  answers : s.submissions.Pairwise fun a b => ¬ a.Clash b
  ids : (s.submissions.map (·.submissionResultId)).Nodup
  outcome : ∀ row ∈ s.submissions, row.accepted = row.operationId.isSome
  known : ∀ row ∈ s.submissions, ∀ id, row.operationId = some id →
    ∃ o ∈ s.cards, o.operationId = id
  drawn : ∀ row ∈ s.submissions, Drawn s row.submissionResultId

theorem Drawn.grow {u : Uuid} (h : Drawn s u) (supply : s'.uuid4 = s.uuid4)
    (draws : s.draws ≤ s'.draws) : Drawn s' u := by
  obtain ⟨k, hk, rfl⟩ := h
  exact ⟨k, hk.trans_le draws, by rw [supply]⟩

theorem Drawn.ne_next (hinj : Function.Injective s.uuid4) {u : Uuid} (h : Drawn s u) :
    u ≠ s.uuid4 s.draws := by
  rintro rfl
  obtain ⟨k, hk, he⟩ := h
  exact absurd (hinj he) (by omega)

/-- No answer refers to the operations that a purge deletes. -/
theorem Filed.unchanged (h : Filed s) {ids : List Uuid}
    (unreferenced : ∀ row ∈ s.submissions, row.accepted →
      ∀ id, row.operationId = some id → id ∉ ids) :
    (s.submissions.map fun r => { r with operationId := r.operationId.filter (· ∉ ids) }) =
      s.submissions := by
  conv_rhs => rw [← map_id s.submissions]
  refine map_congr_left fun row hrow => ?_
  have : row.operationId.filter (· ∉ ids) = row.operationId := by
    cases hid : row.operationId with
    | none => rfl
    | some id =>
      have hacc : row.accepted := by rw [h.outcome row hrow, hid]; rfl
      rw [Option.filter_some, if_pos (by simpa using unreferenced row hrow hacc id hid)]
  rw [this]
  rfl

theorem FileStep.filed (hx : FileStep s s') (h : Filed s) : Filed s' := by
  cases hx with
  | keep cards submissions supply draws =>
    refine ⟨supply ▸ h.distinct, cards ▸ h.identities, submissions ▸ h.answers,
      submissions ▸ h.ids, submissions ▸ h.outcome, ?_, ?_⟩
    · rw [submissions, cards]; exact h.known
    · rw [submissions]; exact fun row hrow => (h.drawn row hrow).grow supply draws
  | insert card cards unclaimed submissions supply draws =>
    refine ⟨supply ▸ h.distinct, ?_, submissions ▸ h.answers, submissions ▸ h.ids,
      submissions ▸ h.outcome, ?_, ?_⟩
    · rw [cards, pairwise_append]
      exact ⟨h.identities, pairwise_singleton _ _, by simpa using unclaimed⟩
    · rw [submissions, cards]
      intro row hrow id hid
      obtain ⟨o, ho, he⟩ := h.known row hrow id hid
      exact ⟨o, mem_append_left _ ho, he⟩
    · rw [submissions]; exact fun row hrow => (h.drawn row hrow).grow supply draws
  | record row cards submissions unanswered outcome known drawn supply =>
    refine ⟨supply ▸ h.distinct, cards ▸ h.identities, ?_, ?_, ?_, ?_, ?_⟩
    · rw [submissions, pairwise_append]
      exact ⟨h.answers, pairwise_singleton _ _, by simpa using unanswered⟩
    · rw [submissions, map_append, nodup_append]
      refine ⟨h.ids, nodup_singleton _, fun a ha b hb => ?_⟩
      obtain ⟨r, hr, rfl⟩ := mem_map.1 ha
      rw [mem_singleton.1 hb]
      show r.submissionResultId ≠ row.submissionResultId
      rw [drawn]
      exact (h.drawn r hr).ne_next h.distinct
    all_goals simp only [submissions, cards, forall_mem_append, forall_mem_singleton]
    · exact ⟨h.outcome, outcome⟩
    · exact ⟨h.known, known⟩
    · refine ⟨fun r hr => (h.drawn r hr).grow supply (by omega), ?_⟩
      rw [drawn]
      exact ⟨s.draws, by omega, by rw [supply]⟩
  | forget keep cards submissions supply draws =>
    have hmem : ∀ r ∈ s'.submissions, r ∈ s.submissions := fun r hr =>
      mem_of_mem_filter (submissions ▸ hr)
    refine ⟨supply ▸ h.distinct, cards ▸ h.identities, ?_, ?_, fun r hr => h.outcome r (hmem r hr),
      ?_, fun r hr => (h.drawn r (hmem r hr)).grow supply draws.ge⟩
    · rw [submissions]; exact h.answers.filter _
    · rw [submissions]; exact h.ids.sublist (filter_sublist.map _)
    · rw [cards]; exact fun r hr => h.known r (hmem r hr)
  | delete ids cards submissions unreferenced supply draws =>
    rw [h.unchanged unreferenced] at submissions
    refine ⟨supply ▸ h.distinct, ?_, submissions ▸ h.answers, submissions ▸ h.ids,
      submissions ▸ h.outcome, ?_, ?_⟩
    · rw [cards]; exact h.identities.filter _
    · rw [submissions, cards]
      intro row hrow id hid
      obtain ⟨o, ho, he⟩ := h.known row hrow id hid
      have hacc : row.accepted := by rw [h.outcome row hrow, hid]; rfl
      refine ⟨o, mem_filter.2 ⟨ho, ?_⟩, he⟩
      rw [he]
      exact decide_eq_true (unreferenced row hrow hacc id hid)
    · rw [submissions]; exact fun row hrow => (h.drawn row hrow).grow supply draws.ge

theorem Files.filed (hx : Files s s') (h : Filed s) : Filed s' := by
  induction hx with
  | refl => exact h
  | tail _ hstep ih => exact hstep.filed ih

/-- An answer on file stays as it is until it is purged, and does not come back then. -/
theorem FileStep.remembers (hx : FileStep s s') (h : Filed s) (hd : Drawn s row.submissionResultId)
    (hr : row ∈ s.submissions ∨
      ∀ r ∈ s.submissions, r.submissionResultId ≠ row.submissionResultId) :
    Drawn s' row.submissionResultId ∧ (row ∈ s'.submissions ∨
      ∀ r ∈ s'.submissions, r.submissionResultId ≠ row.submissionResultId) := by
  cases hx with
  | keep cards submissions supply draws => exact ⟨hd.grow supply draws, submissions ▸ hr⟩
  | insert card cards unclaimed submissions supply draws =>
    exact ⟨hd.grow supply draws, submissions ▸ hr⟩
  | record new cards submissions unanswered outcome known drawn supply =>
    refine ⟨hd.grow supply (by omega), ?_⟩
    rw [submissions]
    refine hr.imp (mem_append_left _) fun hne r hr => ?_
    rcases mem_append.1 hr with hr | hr
    · exact hne r hr
    · rw [mem_singleton.1 hr, drawn]
      exact (hd.ne_next h.distinct).symm
  | forget keep cards submissions supply draws =>
    refine ⟨hd.grow supply draws.ge, ?_⟩
    rw [submissions]
    rcases hr with hr | hr
    · by_cases hk : keep row
      · exact .inl (mem_filter.2 ⟨hr, hk⟩)
      · -- the rows are told apart by their primary key, so none of those kept has this one
        refine .inr fun r hr' he => hk ?_
        obtain ⟨hr', hkeep⟩ := mem_filter.1 hr'
        rwa [eq_of_key_eq h.ids hr' hr he] at hkeep
    · exact .inr fun r hr' => hr r (mem_of_mem_filter hr')
  | delete ids cards submissions unreferenced supply draws =>
    rw [h.unchanged unreferenced] at submissions
    exact ⟨hd.grow supply draws.ge, submissions ▸ hr⟩

theorem Files.remembers (hx : Files s s') (h : Filed s)
    (hr : row ∈ s.submissions) : row ∈ s'.submissions ∨
      ∀ r ∈ s'.submissions, r.submissionResultId ≠ row.submissionResultId := by
  suffices hall : Filed s' ∧ Drawn s' row.submissionResultId ∧ (row ∈ s'.submissions ∨
      ∀ r ∈ s'.submissions, r.submissionResultId ≠ row.submissionResultId) from hall.2.2
  induction hx with
  | refl => exact ⟨h, h.drawn row hr, .inl hr⟩
  | tail _ hstep ih => exact ⟨hstep.filed ih.1, hstep.remembers ih.1 ih.2.1 ih.2.2⟩

/-! ## Submissions and their answers -/

/-- A submission as its caller makes it; `retry` is what `submit_retry` expects. -/
structure Submission where
  gate : HarnessGate
  request : OperationRequest
  retry : Option RetryProof
  now : Time
  retention : Time
  slotLease : Time
  locked : Locked := {}

namespace Submission

def body (x : Submission) : Work AdmissionResult :=
  submitWith x.gate x.request x.retry x.now x.retention x.slotLease x.locked

/-- Nothing refuses the submission before its replay keys are looked up. -/
structure Valid (x : Submission) : Prop where
  retention : 0 < x.retention
  slotLease : 0 < x.slotLease
  owner : ∀ s, ∃ owner, (lockAdmissionRequest x.gate x.request x.retry).Ok s owner s

def answer (x : Submission) (s : Store) : Option SubmissionRow :=
  s.submissions.find? fun r => r.submissionId = x.request.submissionId ∧
    x.request.owner.clause r.ownerScope r.ownerUserId r.connectionScopeId

/-- The submission reuses the idempotency identity of the operation. -/
structure Reuses (x : Submission) (o : OperationRecord) : Prop where
  named : x.request.idempotencyNamespace.isSome
  owner : x.request.owner.owns o
  idempotencyNamespace : o.idempotencyNamespace = x.request.idempotencyNamespace
  idempotencyKey : o.idempotencyKey = x.request.idempotencyKey

/-- The submission asks for what the operation was admitted as. -/
def Matches (x : Submission) (o : OperationRecord) : Prop :=
  o.operationKind = x.request.operationKind ∧ o.admissionClass = x.request.admissionClass ∧
    o.normalizedInputDigest = x.request.normalizedInputDigest

/-- The two submissions carry one submission id of one owner. -/
def Resends (y x : Submission) : Prop :=
  y.request.submissionId = x.request.submissionId ∧ y.request.owner = x.request.owner

end Submission

/-- Two results give one answer: the same refusal, or the same operation. -/
def SameAnswer : AdmissionResult → AdmissionResult → Prop
  | .accepted a, .accepted b => a.operationId = b.operationId
  | .refused a, .refused b => a = b
  | _, _ => False

theorem SubmissionRow.Answers.same {r' : AdmissionResult}
    (h : row.Answers r) (h' : row.Answers r') : SameAnswer r r' := by
  cases r with
  | accepted =>
    cases r' with
    | accepted => exact Option.some_injective _ ((Eq.symm h).trans h')
    | refused => cases (Eq.symm h).trans h'.1
  | refused =>
    cases r' with
    | accepted => cases h.1.symm.trans h'
    | refused => exact h.2.trans h'.2.symm

/-- The clause of an owner selects the rows of its partition. -/
theorem clause_iff {owner : OperationOwner} {scope : OwnerScope} {user : Option String}
    {connection : Option Uuid} : owner.clause scope user connection ↔
      ownerPartition scope user connection =
        ownerPartition owner.ownerScope owner.ownerUserId owner.connectionScopeId := by
  unfold OperationOwner.clause
  cases owner.ownerScope <;> cases scope <;> simp [ownerPartition]

section Replay

variable {x : Submission}

theorem Submission.answer_eq_none : x.answer s = none ↔ ∀ r ∈ s.submissions,
    ¬ (r.submissionId = x.request.submissionId ∧ r.partition = ownerPartition
      x.request.owner.ownerScope x.request.owner.ownerUserId x.request.owner.connectionScopeId) := by
  simp only [Submission.answer, List.find?_eq_none, decide_eq_true_eq, clause_iff]
  rfl

/-- The body of a valid submission looks the submission id up first, and then the identity. -/
theorem Submission.Valid.body (hv : x.Valid) (s : Store) : ∃ owner, x.body s =
    (match x.answer s with
      | some row => replaySubmission row
      | none => do
        match ← existingIdempotentOperation x.request with
        | some operation => replayIdempotent x.request operation x.now x.retention
        | none =>
          admitOperation x.gate x.request x.retry owner x.now x.retention x.slotLease x.locked) s := by
  obtain ⟨owner, ho⟩ := hv.owner s
  have hr : (validatedDuration x.retention "retention").Ok s () s :=
    ok_require.2 ⟨decide_eq_true hv.retention, rfl⟩
  have hl : (validatedDuration x.slotLease "slot_lease").Ok s () s :=
    ok_require.2 ⟨decide_eq_true hv.slotLease, rfl⟩
  have ha : (submissionRow x.request.owner x.request.submissionId).Ok s (x.answer s) s := rfl
  refine ⟨owner, ?_⟩
  rw [Submission.body, submitWith, bind_of_ok hr, bind_of_ok hl, bind_of_ok ho]
  refine (bind_of_ok ha).trans ?_
  cases x.answer s <;> rfl

/-- What an accepted result shows of its operation. -/
structure AcceptedAdmission.Shows (a : AcceptedAdmission) (o : OperationRecord) : Prop where
  operationId : a.operationId = o.operationId
  state : a.state = o.state
  stateRevision : a.stateRevision = o.stateRevision
  queueDeadlineAt : a.queueDeadlineAt = o.queueDeadlineAt

theorem accepted_ok (o : OperationRecord) (created : Bool) (s : Store) :
    ∃ a, (accepted o created).Ok s (.accepted a) s ∧ a.Shows o ∧ a.created = created := by
  have hq : ∃ position, (queuePosition o).Ok s position s := by
    unfold queuePosition
    by_cases hs : o.state = .queued <;> simp [hs]
  obtain ⟨position, hq⟩ := hq
  exact ⟨_, ok_bind.2 ⟨position, s, hq, rfl⟩, ⟨rfl, rfl, rfl, rfl⟩, rfl⟩

/-- What the answer on file says: a refusal, or an operation that is retained. -/
theorem Filed.read (h : Filed s) (hmem : row ∈ s.submissions) :
    (row.operationId = none ∧ row.accepted = false) ∨
      ∃ o, row.operationId = some o.operationId ∧ row.accepted ∧
        (operationRow o.operationId).Ok s (some o) s := by
  have hacc := h.outcome row hmem
  cases hid : row.operationId with
  | none => exact .inl ⟨rfl, by rw [hacc, hid]; rfl⟩
  | some id =>
    obtain ⟨card, hcard, rfl⟩ := h.known row hmem id hid
    obtain ⟨o, ho, rfl⟩ := mem_map.1 hcard
    obtain ⟨found, hfound⟩ := Option.isSome_iff_exists.1
      (List.find?_isSome.2 ⟨o, ho, decide_eq_true rfl⟩ :
        (s.operations.find? (·.operationId = o.card.operationId)).isSome)
    have hsame : found.operationId = o.card.operationId := by simpa using List.find?_some hfound
    refine .inr ⟨found, by rw [hsame], by rw [hacc, hid]; rfl, ?_⟩
    rw [hsame]
    exact ok_operationRow.2 ⟨hfound, rfl⟩

/-- A submission with an answer on file is answered from the file, and writes nothing. -/
theorem Filed.replay (h : Filed s) (hv : x.Valid) (ha : x.answer s = some row) :
    ∃ r, x.body.Ok s r s ∧ row.Answers r := by
  obtain ⟨owner, hbody⟩ := hv.body s
  rw [ha] at hbody
  rcases h.read (mem_of_find?_eq_some ha) with ⟨hid, hacc⟩ | ⟨o, hid, hacc, ho⟩
  · exact ⟨refusalFromRow row, hbody.trans (by simp [replaySubmission, hacc]; rfl), hid, rfl⟩
  · obtain ⟨a, haccepted, hshows, -⟩ := accepted_ok o false s
    refine ⟨.accepted a, hbody.trans ?_, hid.trans (congrArg some hshows.operationId.symm)⟩
    simp only [replaySubmission, hacc, hid, not_true_eq_false, if_false]
    exact (bind_of_ok ho).trans haccepted

/-! ### The idempotency identity -/

theorem Filed.one (h : Filed s) (ho : o ∈ s.operations) (ho' : o' ∈ s.operations)
    (hclash : o.card.Clash o'.card) : o = o' := by
  by_contra hne
  have hp : s.operations.Pairwise fun a b => ¬ a.card.Clash b.card := pairwise_map.1 h.identities
  have hsymm : Std.Symm fun a b : OperationRecord => ¬ a.card.Clash b.card := ⟨by
    rintro a b hab ⟨hn, hpart, hns, hkey⟩
    exact hab ⟨hns ▸ hn, hpart.symm, hns.symm, hkey.symm⟩⟩
  exact hp.forall ho ho' hne hclash

theorem Submission.Reuses.clash (h : x.Reuses o) (h' : x.Reuses o') : o.card.Clash o'.card := by
  refine ⟨?_, ?_, h.idempotencyNamespace.trans h'.idempotencyNamespace.symm,
    h.idempotencyKey.trans h'.idempotencyKey.symm⟩
  · show o.idempotencyNamespace.isSome
    rw [h.idempotencyNamespace]
    exact h.named
  · exact (clause_iff.1 h.owner).trans (clause_iff.1 h'.owner).symm

theorem Filed.existing (h : Filed s) (ho : o ∈ s.operations)
    (hx : x.Reuses o) : (existingIdempotentOperation x.request).Ok s (some o) s := by
  have hns : x.request.idempotencyNamespace.isNone = false := by
    rw [Option.isNone_eq_false_iff]; exact hx.named
  simp only [existingIdempotentOperation, ok_bind, ok_get, hns, Bool.false_eq_true, if_false,
    ok_pure]
  refine ⟨s, s, ⟨rfl, rfl⟩, ?_, rfl⟩
  cases hf : s.operations.find? fun r => x.request.owner.owns r ∧
      r.idempotencyNamespace = x.request.idempotencyNamespace ∧
        r.idempotencyKey = x.request.idempotencyKey with
  | none =>
    refine (List.find?_eq_none.1 hf o ho ?_).elim
    exact decide_eq_true ⟨hx.owner, hx.idempotencyNamespace, hx.idempotencyKey⟩
  | some found =>
    have hsome := List.find?_some hf
    obtain ⟨hown, hns', hkey⟩ := of_decide_eq_true hsome
    have hfound : x.Reuses found := ⟨hx.named, hown, hns', hkey⟩
    rw [h.one (mem_of_find?_eq_some hf) ho (hfound.clash hx)]

theorem Submission.valid_of_ok (h : x.body.Ok s r s') : x.Valid := by
  simp only [Submission.body, submitWith, ok_rules, validatedDuration, decide_eq_true_eq] at h
  obtain ⟨_, hr, _, hl, owner, _, ho, -⟩ := h
  refine ⟨hr, hl, fun t => ⟨owner, ?_⟩⟩
  unfold lockAdmissionRequest at ho ⊢
  dsimp only at ho ⊢
  split at ho
  · exact ok_pure.2 ⟨(ok_pure.1 ho).1, rfl⟩
  · obtain ⟨_, _, hgate, hp⟩ := ok_bind.1 ho
    exact ok_bind.2 ⟨(), t, ok_ofExcept.2 ⟨(ok_ofExcept.1 hgate).1, rfl⟩,
      ok_pure.2 ⟨(ok_pure.1 hp).1, rfl⟩⟩

theorem Filed.insert (h : Filed s) (ha : x.answer s = none) (id : Option Uuid)
    (code : Option String) (retryable : Bool) (retryAfterMs : Option Int) :
    (insertSubmission x.request x.now x.retention id code retryable retryAfterMs).Ok s ()
      (s.file (answerRow x.request (s.uuid4 s.draws) x.now x.retention id code retryable
        retryAfterMs)) :=
  insertSubmission_spec.2 ⟨fun r hr => (h.drawn r hr).ne_next h.distinct,
    fun r hr hclash => Submission.answer_eq_none.1 ha r hr hclash, rfl⟩

theorem Submission.Valid.reuse (hv : x.Valid) (h : Filed s) (ha : x.answer s = none)
    (ho : o ∈ s.operations) (hx : x.Reuses o) :
    x.body s = replayIdempotent x.request o x.now x.retention s := by
  obtain ⟨owner, hbody⟩ := hv.body s
  rw [hbody, ha]
  exact bind_of_ok (h.existing ho hx)

/-! ### The file after a submission -/

/-- The answer of a submission is on file. -/
def OnFile (x : Submission) (s : Store) (r : AdmissionResult) : Prop :=
  ∃ row ∈ s.submissions, row.submissionId = x.request.submissionId ∧
    row.partition = ownerPartition x.request.owner.ownerScope x.request.owner.ownerUserId
      x.request.owner.connectionScopeId ∧ row.Answers r

/-- **A submission that returns has its answer on file.** -/
theorem Filed.onFile (h : Filed s) (hk : Keyed s) (hx : x.body.Ok s r s') : OnFile x s' r := by
  rcases (submitWith_spec hk hx).2 with hrecorded | ⟨row, hrow, -⟩
  · exact hrecorded.filed
  obtain rfl := readOnly_submissionRow.ok hrow
  have ha : x.answer s = some row := Except.ok.inj (congrArg Prod.fst hrow)
  obtain ⟨r', hr', hans⟩ := h.replay (Submission.valid_of_ok hx) ha
  obtain ⟨rfl, -⟩ := hx.inj hr'
  have hfound := List.find?_some ha
  obtain ⟨hid, hown⟩ := of_decide_eq_true hfound
  exact ⟨row, mem_of_find?_eq_some ha, hid, clause_iff.1 hown, hans⟩

theorem Filed.answer (h : Filed s) (hrow : row ∈ s.submissions)
    (hid : row.submissionId = x.request.submissionId)
    (hp : row.partition = ownerPartition x.request.owner.ownerScope x.request.owner.ownerUserId
      x.request.owner.connectionScopeId) : x.answer s = some row := by
  cases hf : x.answer s with
  | none => exact (Submission.answer_eq_none.1 hf row hrow ⟨hid, hp⟩).elim
  | some =>
    have hfound := List.find?_some hf
    obtain ⟨hid', hown⟩ := of_decide_eq_true hfound
    by_contra hne
    have hsymm : Std.Symm fun a b : SubmissionRow => ¬ a.Clash b :=
      ⟨fun a b hab hba => hab ⟨hba.1.symm, hba.2.symm⟩⟩
    refine h.answers.forall (mem_of_find?_eq_some hf) hrow (fun he => hne (by rw [he])) ?_
    exact ⟨hid'.trans hid.symm, (clause_iff.1 hown).trans hp.symm⟩

end Replay

/-! ## Operations keep what they were admitted as -/

theorem Started.card {r : OperationRecord} {token : Uuid} (h : Started r r' token) :
    r'.card = r.card := by
  obtain ⟨_, _, rfl⟩ := h
  rfl

theorem Reselected.card {r : OperationRecord} {token : Uuid} (h : Reselected r r' token) :
    r'.card = r.card := by
  obtain ⟨_, rfl⟩ := h
  rfl

theorem OpStep.card {fresh : Uuid → Prop} {card : Card} {v v' : View}
    (h : OpStep configs fresh id v v') (hid : ¬ fresh id) (hv : ∀ r, v.row = some r → r.card = card)
    : ∀ r, v'.row = some r → r.card = card := by
  intro r' hr'
  cases h with
  | enqueue _ hf | start _ hf => exact absurd hf hid
  | handover | renew | release => exact hv _ hr'
  | select _ hr | reselect _ hr | touch _ hr | lapse _ hr | finish _ hr =>
    cases hr'
    exact hr.card.trans (hv _ rfl)
  | orphan =>
    cases hr'
    have hcard := hv _ rfl
    exact hcard
  | forget => cases hr'

/-- A retained operation keeps its identity and its request until it is purged. -/
theorem Consistent.retained (hc : Consistent s) (he : Evolves s s')
    (ho : o ∈ s.operations) : (∃ o' ∈ s'.operations, o'.card = o.card) ∨
      ∀ o' ∈ s'.operations, o'.operationId ≠ o.operationId := by
  have hrow : (s.view o.operationId).row = some o := hc.keyed.find.2 ⟨ho, rfl⟩
  have hd : Drawn s o.operationId := (hc.sound o.operationId).drawn o hrow
  have hcard := he.keeps (P := fun v => ∀ r, v.row = some r → r.card = o.card)
    (fun _ _ hstep hv => hstep.card (hd.not_fresh hc.distinct) hv) fun r hr => by
      cases hrow.symm.trans hr
      rfl
  cases hf : (s'.view o.operationId).row with
  | some o' => exact .inl ⟨o', mem_of_find?_eq_some hf, hcard o' hf⟩
  | none =>
    exact .inr fun o' ho' hid => by simpa using List.find?_eq_none.1 hf o' ho' (decide_eq_true hid)

/-! ## Reconciliation -/

/-- What `reconcile_submission` and a replay both say. -/
def Agrees : AdmissionResult → SubmissionResult → Prop
  | .accepted a, .accepted p => a.operationId = p.operationId ∧ a.state = p.state ∧
      a.stateRevision = p.stateRevision ∧ a.queueDeadlineAt = p.queueDeadlineAt ∧ a.created = false
  | .refused r, .refused r' => r = r'
  | _, _ => False

/-! ## Every run -/

/-- Admission is idempotent at a state, and in whatever follows it. -/
structure Idempotent (s : Store) : Prop where
  /-- At most one retained operation has an identity. -/
  one : ∀ partition ns key, (s.operations.filter fun o => o.partition = partition ∧
    o.idempotencyNamespace = some ns ∧ o.idempotencyKey = some key).length ≤ 1
  /-- A retained operation keeps its identity and its request until it is purged. -/
  retained : ∀ later, ∀ o ∈ s.operations, (∃ o' ∈ (s.run later).operations, o'.card = o.card) ∨
    ∀ o' ∈ (s.run later).operations, o'.operationId ≠ o.operationId
  /-- A new submission for what the operation of its identity does returns that operation. -/
  same : ∀ x : Submission, x.Valid → x.answer s = none → ∀ o ∈ s.operations, x.Reuses o →
    x.Matches o → ∃ a s', x.body.Ok s (.accepted a) s' ∧ a.Shows o ∧
      s'.operations = s.operations ∧ s'.slots = s.slots
  /-- A new submission for something else is refused, and the refusal is filed. -/
  other : ∀ x : Submission, x.Valid → x.answer s = none → ∀ o ∈ s.operations, x.Reuses o →
    ¬ x.Matches o → ∃ row s', x.body.Ok s (.refused ⟨"idempotency_conflict", false, none⟩) s' ∧
      s'.operations = s.operations ∧ s'.slots = s.slots ∧
      s'.submissions = s.submissions ++ [row] ∧ x.answer s' = some row ∧
      row.Answers (.refused ⟨"idempotency_conflict", false, none⟩)
  /-- A submission files its answer, and while that is retained every submission under its id gets
      it again and writes nothing. -/
  resend : ∀ (x : Submission) (r : AdmissionResult) (s₁ : Store), x.body.Ok s r s₁ →
    ∃ row, x.answer s₁ = some row ∧ ∀ (later : List Call) (y : Submission), y.Valid → y.Resends x →
      (∃ row' ∈ (s₁.run later).submissions, row'.submissionResultId = row.submissionResultId) →
      ∃ r', y.body.Ok (s₁.run later) r' (s₁.run later) ∧ SameAnswer r r'
  /-- `reconcile_submission` says what the replay says. -/
  reconcile : ∀ x : Submission, x.Valid → x.answer s ≠ none → ∃ r q, x.body.Ok s r s ∧
    (reconcileSubmission x.request.owner x.request.submissionId).Ok s q s ∧ Agrees r q

theorem Filed.idempotent (h : Filed s) (hc : Consistent s) : Idempotent s where
  one partition ns key := by
    have hp := (pairwise_map.1 h.identities).filter fun o => decide (o.partition = partition ∧
      o.idempotencyNamespace = some ns ∧ o.idempotencyKey = some key)
    generalize hl : (s.operations.filter fun o => o.partition = partition ∧
      o.idempotencyNamespace = some ns ∧ o.idempotencyKey = some key) = l at hp
    have hall : ∀ o ∈ l, o.partition = partition ∧ o.idempotencyNamespace = some ns ∧
        o.idempotencyKey = some key := by
      intro o ho
      rw [← hl] at ho
      exact of_decide_eq_true (mem_filter.1 ho).2
    match l with
    | [] => exact Nat.zero_le _
    | [_] => exact le_rfl
    | a :: b :: t =>
      obtain ⟨ha, hna, hka⟩ := hall a mem_cons_self
      obtain ⟨hb, hnb, hkb⟩ := hall b (mem_cons_of_mem _ mem_cons_self)
      refine ((pairwise_cons.1 hp).1 b mem_cons_self ?_).elim
      exact ⟨by rw [OperationRecord.card, hna]; rfl, ha.trans hb.symm, hna.trans hnb.symm,
        hka.trans hkb.symm⟩
  retained later _ ho := hc.retained (run_evolves later hc.keyed) ho
  same x hv ha o ho hx hm := by
    obtain ⟨hkind, hclass, hdigest⟩ := hm
    have hins := h.insert ha (some o.operationId) none false none
    obtain ⟨a, hacc, hshows, -⟩ :=
      accepted_ok o false (s.file (answerRow x.request (s.uuid4 s.draws)
      x.now x.retention (some o.operationId) none false none))
    refine ⟨a, s.file (answerRow x.request (s.uuid4 s.draws) x.now x.retention (some o.operationId)
      none false none), (hv.reuse h ha ho hx).trans ?_, hshows, rfl, rfl⟩
    simp only [replayIdempotent, hkind, hclass, hdigest, ne_eq, not_true_eq_false, or_self,
      if_false]
    exact ok_bind.2 ⟨_, _, hins, hacc⟩
  other x hv ha o ho hx hm := by
    have hins := h.insert ha none (some "idempotency_conflict") false none
    have hne : o.operationKind ≠ x.request.operationKind ∨
        o.admissionClass ≠ x.request.admissionClass ∨
          o.normalizedInputDigest ≠ x.request.normalizedInputDigest := by
      by_contra hall
      push Not at hall
      exact hm hall
    refine ⟨answerRow x.request (s.uuid4 s.draws) x.now x.retention none
      (some "idempotency_conflict") false none, s.file _, (hv.reuse h ha ho hx).trans ?_, rfl, rfl, rfl,
      ?_, rfl, rfl⟩
    · simp only [replayIdempotent, if_pos hne]
      exact ok_bind.2 ⟨_, _, hins, rfl⟩
    · unfold Submission.answer at ha ⊢
      rw [Store.file, List.find?_append, ha]
      simp [answerRow, clause_iff]
  resend x r s1 hx := by
    have hbody := evolving_submitWith _ _ _ hx hc.keyed
    have h1 := hbody.files.filed h
    obtain ⟨row, hrow, hid, hp, hans⟩ := h.onFile hc.keyed hx
    refine ⟨row, h1.answer hrow hid hp, fun later y hv hy hkept => ?_⟩
    have hfiles := (run_proceeds later hbody.keyed).files
    have h2 := hfiles.filed h1
    obtain ⟨row', hrow', hsame⟩ := hkept
    -- the answer is unchanged, since its primary key is still there
    have hmem : row ∈ (s1.run later).submissions :=
      (hfiles.remembers h1 hrow).resolve_right fun hgone => hgone row' hrow' hsame
    have hy' : y.answer (s1.run later) = some row :=
      h2.answer hmem (hid.trans hy.1.symm) (by rw [hy.2]; exact hp)
    obtain ⟨r', hok, hans'⟩ := h2.replay hv hy'
    exact ⟨r', hok, hans.same hans'⟩
  reconcile x hv ha := by
    obtain ⟨row, hrow⟩ := Option.ne_none_iff_exists'.1 ha
    obtain ⟨owner, hbody⟩ := hv.body s
    rw [hrow] at hbody
    have hlook : (submissionRow x.request.owner x.request.submissionId).Ok s (some row) s := by
      rw [← hrow]; rfl
    rcases h.read (mem_of_find?_eq_some hrow) with ⟨hid, hacc⟩ | ⟨o, hid, hacc, ho⟩
    · refine ⟨refusalFromRow row, .refused ⟨row.refusalCode.getD "None", row.retryable,
        row.retryAfterMs⟩, hbody.trans (by simp [replaySubmission, hacc]; rfl), ?_, rfl⟩
      refine (bind_of_ok hlook).trans ?_
      simp only [hacc, Bool.false_eq_true, not_false_eq_true, if_true]
      rfl
    · obtain ⟨a, haccepted, hshows, hcreated⟩ := accepted_ok o false s
      refine ⟨.accepted a, .accepted (safeProjection o), hbody.trans ?_,
        (bind_of_ok hlook).trans ?_, hshows.operationId, hshows.state, hshows.stateRevision,
        hshows.queueDeadlineAt, hcreated⟩
      · simp only [replaySubmission, hacc, hid, not_true_eq_false, if_false]
        exact (bind_of_ok ho).trans haccepted
      · simp only [hacc, hid, not_true_eq_false, if_false]
        exact bind_of_ok ho

theorem Vacant.filed (h : Vacant s) (hs : s.submissions = []) (hinj : Function.Injective s.uuid4) :
    Filed s := by
  refine ⟨hinj, ?_, ?_, ?_, ?_, ?_, ?_⟩
  · rw [Store.cards, h.operations]; exact .nil
  · rw [hs]; exact .nil
  · rw [hs]; exact nodup_nil
  all_goals simp [hs]

theorem install_run (hv : validateAdmissionGraph configs = .ok ()) {s0 : Store} (h0 : Vacant s0)
    (hs : s0.submissions = []) (hinj : Function.Injective s0.uuid4) (calls : List Call) :
    Consistent ((install configs s0).run calls) ∧ Filed ((install configs s0).run calls) := by
  obtain ⟨-, hvac, -⟩ := install_spec hv h0
  have hinj' : Function.Injective (install configs s0).uuid4 := by rw [install_uuid4 hv]; exact hinj
  have hfiled : Filed (install configs s0) :=
    hvac.filed (by rw [install_eq hv, (configureAll_keeps _ s0).2.1]; exact hs) hinj'
  have hrun := run_proceeds calls hvac.keyed
  exact ⟨(hvac.consistent hinj').run calls, hrun.files.filed hfiled⟩

/-- **Admission is idempotent** in every state that a run reaches: both replay keys return what was
    admitted or refused first, as long as that is retained. -/
theorem idempotent_admission (configs : List AdmissionClassConfig) (s₀ : Store)
    (hv : validateAdmissionGraph configs = .ok ()) (h₀ : Vacant s₀) (hs : s₀.submissions = [])
    (hinj : Function.Injective s₀.uuid4) (calls : List Call) :
    Idempotent ((install configs s₀).run calls) := by
  obtain ⟨hc, hf⟩ := install_run hv h₀ hs hinj calls
  exact hf.idempotent hc

theorem idempotent_admission_small :
    Idempotent ((install smallConfigs emptyStore).run [submitChat 1 0, submitChat 2 1]) :=
  idempotent_admission smallConfigs emptyStore rfl vacant_emptyStore rfl injective_emptyStore
    [submitChat 1 0, submitChat 2 1]

def digestOf (digit : Char) : String := String.ofList (List.replicate 64 digit)

theorem isSha256_digestOf_a : isSha256 (digestOf 'a') := by decide +kernel

theorem isSha256_digestOf_b : isSha256 (digestOf 'b') := by decide +kernel

/-- A submission under the identity `("chat", "k")`. -/
def keyedChat (n : ℕ) (digest : String) (hd : isSha256 digest) (now retention : Time) : Call :=
  .submit ⟨fun _ => .ok (), fun _ _ _ _ => .ok ()⟩
    { chatRequest n with
      idempotencyNamespace := some "chat"
      idempotencyKey := some "k"
      normalizedInputDigest := some digest
      identity_tuple := ⟨rfl, rfl⟩
      identity_bounds := fun _ => ⟨by decide, by decide, hd⟩ }
    now retention 1000

def firstChat : Call := keyedChat 1 (digestOf 'a') isSha256_digestOf_a 0 1000000

/-- A submission of the identity for something else. -/
def otherChat (n : ℕ) (now retention : Time) : Call :=
  keyedChat n (digestOf 'b') isSha256_digestOf_b now retention

/-- The first operation is admitted, submission 2 is refused, and the operation is purged. -/
def purgedStore (retention : Time) : Store :=
  (install smallConfigs emptyStore).run
    [firstChat, otherChat 2 1 retention, .expireExecutionLeases 5000 1000,
     .purgeExpired 2000000 100 none]

/-- Neither replay key is final. The refusal of submission 2 is forgotten when it is purged, and the
    same submission is then admitted. Where it is retained longer than the operation it was refused
    for, submission 2 stays refused although its identity and digest have a new operation. -/
theorem resend_after_purge :
    (exec (otherChat 2 1 1000) ((install smallConfigs emptyStore).run [firstChat])).1 =
      .ok (.admission (.refused ⟨"idempotency_conflict", false, none⟩)) ∧
    (∃ a, (exec (otherChat 2 3000000 1000) (purgedStore 1000)).1 = .ok (.admission (.accepted a)) ∧
      a.created = true) ∧
    (∃ a, (exec (otherChat 3 3000000 1000) (purgedStore 10000000)).1 =
      .ok (.admission (.accepted a)) ∧ a.created = true) ∧
    (exec (otherChat 2 3000001 1000)
      ((purgedStore 10000000).run [otherChat 3 3000000 1000])).1 =
      .ok (.admission (.refused ⟨"idempotency_conflict", false, none⟩)) :=
  ⟨by rfl, ⟨_, by rfl, by rfl⟩, ⟨_, by rfl, by rfl⟩, by rfl⟩

end AstralPlane.WorkAdmission
