/-
  Feedback and its supersession (`repositories/preferences.py`).

  A superseded record names the record that took its place.  Following those names
  from a record comes to one that is active or retracted (`Settled`), as long as
  `supersede` puts a record in the place of another one only while that record is not
  superseded itself.  An identity is a UUID; the database refuses a text that is none.
-/
import AstralPlane.Repositories
import AstralPlane.Keyed

namespace AstralPlane.Preferences

open Repositories
open Tx (require raise)

/-- The columns `lifecycle` and `superseded_by`, which is set with the one value that needs it. -/
inductive Lifecycle
  | active
  | superseded (supersededBy : Uuid)
  | retracted
  deriving DecidableEq

/-- `FeedbackRecord`, without its identity. -/
structure Feedback where
  ownerId : String
  (conversationId correlationId sourceAgent sourceTool componentId : Option String)
  (sentiment category : String)
  comment : Option String
  commentSafety : String
  commentSafetyReason : Option String
  lifecycle : Lifecycle
  (createdAt updatedAt : Time)
  deriving DecidableEq

/-- The record is active or retracted. -/
def Feedback.live (f : Feedback) : Prop := ∀ new, f.lifecycle ≠ .superseded new

/-- The table `component_feedback`, under its primary key `id`. -/
abbrev Table := Keyed Uuid Feedback

def sentiments : List String := ["negative", "positive"]

def feedbackCategories : List String :=
  ["irrelevant", "layout-broken", "other", "too-slow", "unspecified", "wrong-data"]

def commentSafeties : List String := ["clean", "quarantined"]

/-! ## The calls -/

def optionalId (field : String) : Option String → Except ValidationError Unit
  | none => pure ()
  | some value => discard (requiredId value field)

def optionalText (field : String) (maximum : ℕ) : Option String → Except ValidationError Unit
  | none => pure ()
  | some value => discard (boundedText value field maximum true)

def checkLabels (sentiment category commentSafety : String) : Except ValidationError Unit := do
  ensure (sentiments.contains sentiment) ⟨"feedback sentiment is unsupported", []⟩
  ensure (feedbackCategories.contains category) ⟨"feedback category is unsupported", []⟩
  ensure (commentSafeties.contains commentSafety) ⟨"feedback comment safety is unsupported", []⟩

def checkComment (comment commentSafetyReason : Option String) : Except ValidationError Unit := do
  optionalText "comment" 8192 comment
  optionalText "comment_safety_reason" 1024 commentSafetyReason

def checkRecord (record : Feedback) : Except ValidationError Unit := do
  discard (requiredId record.ownerId "owner_id")
  optionalId "conversation_id" record.conversationId
  optionalId "correlation_id" record.correlationId
  optionalId "source_agent" record.sourceAgent
  optionalId "source_tool" record.sourceTool
  optionalId "component_id" record.componentId
  checkLabels record.sentiment record.category record.commentSafety
  ensure (record.lifecycle = .active) ⟨"new feedback must begin active and unsuperseded", []⟩
  checkComment record.comment record.commentSafetyReason
  ensure (record.createdAt ≤ record.updatedAt)
    ⟨"feedback updated_at cannot precede created_at", []⟩

/-- The record that is there afterwards.  A replay is compared in every field but the lifecycle. -/
def submit (id : Uuid) (record : Feedback) : Tx Table Failure Feedback := do
  argument (checkRecord record)
  let t ← Tx.get
  let row := { record with lifecycle := .active }
  match t.lookup id with
  | none => do
    Tx.set (t.insert id row)
    pure row
  | some existing => do
    require (existing.ownerId = record.ownerId)
      (.conflict "feedback identity is owned by another namespace")
    require (row = { existing with lifecycle := .active })
      (.conflict "feedback idempotency identity was reused with different semantics")
    pure existing

/-- `UPDATE component_feedback … WHERE id AND user_id AND lifecycle = 'active' …`. -/
def updateActive (id : Uuid) (ownerId : String) (selects : Feedback → Bool)
    (written : Feedback → Feedback) : Tx Table Failure (Option Feedback) := do
  let t ← Tx.get
  match (t.lookup id).filter fun row =>
      row.ownerId = ownerId && row.lifecycle = .active && selects row with
  | none => pure none
  | some row => do
    Tx.set (t.insert id (written row))
    pure (some (written row))

def get (id : Uuid) (ownerId : String) : Tx Table Failure (Option Feedback) := do
  let t ← Tx.get
  pure ((t.lookup id).filter (·.ownerId = ownerId))

/-- What `amend_active` writes. -/
structure Amendment where
  (sentiment category commentSafety : String)
  (comment commentSafetyReason : Option String)
  updatedAt : Time

def amendActive (ownerId : String) (id : Uuid) (expectedUpdatedAt : Time) (a : Amendment) :
    Tx Table Failure (Option Feedback) := do
  argument do
    discard (requiredId ownerId "owner_id")
    ensure (expectedUpdatedAt < a.updatedAt) ⟨"feedback updated_at must advance the CAS fence", []⟩
    checkLabels a.sentiment a.category a.commentSafety
    checkComment a.comment a.commentSafetyReason
  let row ← updateActive id ownerId (·.updatedAt = expectedUpdatedAt) fun row =>
    { row with sentiment := a.sentiment, category := a.category, comment := a.comment
               commentSafety := a.commentSafety, commentSafetyReason := a.commentSafetyReason
               updatedAt := a.updatedAt }
  let existing ← get id ownerId
  require (row.isSome || existing.isNone)
    (.conflict "feedback is no longer active at the expected version")
  pure row

def retract (ownerId : String) (id : Uuid) (updatedAt : Time) : Tx Table Failure (Option Feedback) := do
  argument (discard (requiredId ownerId "owner_id"))
  updateActive id ownerId (fun _ => true) fun row =>
    { row with lifecycle := .retracted, updatedAt := updatedAt }

/-- `old` is superseded by `new`, under which the replacement is submitted. -/
def supersede (ownerId : String) (old new : Uuid) (replacement : Feedback) (updatedAt : Time) :
    Tx Table Failure Feedback := do
  argument do
    discard (requiredId ownerId "owner_id")
    ensure (replacement.ownerId = ownerId) ⟨"replacement feedback owner changed", []⟩
  let newRecord ← submit new replacement
  let updated ← updateActive old ownerId (fun _ => true) fun row =>
    { row with lifecycle := .superseded new, updatedAt := updatedAt }
  let existing ← get old ownerId
  require (updated.isSome || existing.isSome) (.notFound "feedback to supersede was not found")
  require (updated.isSome || existing.any (·.lifecycle = .superseded new))
    (.conflict "feedback is no longer active")
  pure newRecord

inductive Call
  | submit (id : Uuid) (record : Feedback)
  | amendActive (ownerId : String) (id : Uuid) (expectedUpdatedAt : Time) (a : Amendment)
  | retract (ownerId : String) (id : Uuid) (updatedAt : Time)
  | supersede (ownerId : String) (old new : Uuid) (replacement : Feedback) (updatedAt : Time)

/-- A call in a transaction of its own. -/
def step : Call → Table → Table
  | .submit id record => (submit id record).commit
  | .amendActive owner id expected a => (amendActive owner id expected a).commit
  | .retract owner id now => (retract owner id now).commit
  | .supersede owner old new replacement now => (supersede owner old new replacement now).commit

/-! ## What the calls keep -/

variable {t t' : Table} {id old new : Uuid} {row r : Feedback} {ownerId : String}

/-- Following `superseded_by` ends at a record that is active or retracted. -/
inductive Settled (t : Table) : Uuid → Prop
  | stop {id : Uuid} {row : Feedback} : t.lookup id = some row → row.live → Settled t id
  | follow {id next : Uuid} {row : Feedback} : t.lookup id = some row →
      row.lifecycle = .superseded next → Settled t next → Settled t id

def AllSettled (t : Table) : Prop := ∀ id row, t.lookup id = some row → Settled t id

/-- Records stay settled, and one that is superseded or retracted stays as it is. -/
structure Keeps (t t' : Table) : Prop where
  settled : AllSettled t → AllSettled t'
  final : ∀ id row, t.lookup id = some row → row.lifecycle ≠ .active → t'.lookup id = some row

theorem Keeps.refl : Keeps t t := ⟨fun h => h, fun _ _ h _ => h⟩

theorem Keeps.trans {t'' : Table} (h : Keeps t t') (h' : Keeps t' t'') : Keeps t t'' :=
  ⟨fun hs => h'.settled (h.settled hs), fun id row hrow hl => h'.final id row (h.final id row hrow hl) hl⟩

theorem Settled.insert (h : Settled t id) {k : Uuid} (hk : Settled (t.insert k row) k) :
    Settled (t.insert k row) id := by
  induction h with
  | @stop id was hrow hl =>
    by_cases he : id = k
    · exact he ▸ hk
    · exact .stop (by rw [Keyed.lookup_write, if_neg he, hrow]) hl
  | @follow id next was hrow hl _ ih =>
    by_cases he : id = k
    · exact he ▸ hk
    · exact .follow (by rw [Keyed.lookup_write, if_neg he, hrow]) hl ih

/-- A write to a free place or an active record; a link goes to another record that is live. -/
theorem keeps_insert (hwas : ∀ was, t.lookup id = some was → was.lifecycle = .active)
    (hlink : ∀ new, row.lifecycle = .superseded new →
      new ≠ id ∧ ∃ next, t.lookup new = some next ∧ next.live) : Keeps t (t.insert id row) := by
  constructor
  · intro hs
    have hid : Settled (t.insert id row) id := by
      by_cases hl : row.live
      · exact .stop (AList.lookup_insert t) hl
      · simp only [Feedback.live, not_forall, not_not] at hl
        obtain ⟨new, hnew⟩ := hl
        obtain ⟨hne, next, hnext, hlive⟩ := hlink new hnew
        exact .follow (AList.lookup_insert t) hnew
          (.stop (by rw [Keyed.lookup_write, if_neg hne, hnext]) hlive)
    intro k b hb
    rcases Keyed.write_cases hb with ⟨rfl, -⟩ | ⟨-, hrow⟩
    · exact hid
    · exact (hs k b hrow).insert hid
  · intro k was hrow hl
    have hne : k ≠ id := fun he => hl (hwas was (he ▸ hrow))
    rwa [Keyed.lookup_write, if_neg hne]

/-- The record of a submission is there afterwards: it was there before, or has been added. -/
theorem submit_ok {record : Feedback} (h : (submit id record).Ok t r t') :
    t'.lookup id = some r ∧ Keeps t t' ∧ (t' = t ∨ r.live) := by
  simp only [submit, ok_rules, ok_argument] at h
  obtain ⟨_, -, _, rfl, h⟩ := h
  split at h
  · rename_i hnone
    obtain ⟨_, _, rfl, rfl, rfl⟩ := h
    refine ⟨AList.lookup_insert t, keeps_insert ?_ ?_, .inr fun new hnew => by cases hnew⟩
    · exact fun was hwas => by cases hnone.symm.trans hwas
    · exact fun new hnew => by cases hnew
  · rename_i existing hrow
    simp only [ok_rules] at h
    obtain ⟨_, -, _, -, rfl, rfl⟩ := h
    exact ⟨hrow, .refl, .inl rfl⟩

section
variable {selects : Feedback → Bool} {written : Feedback → Feedback} {reply : Option Feedback}

theorem update_ok (h : (updateActive id ownerId selects written).Ok t reply t') :
    t' = t ∨ ∃ row, t.lookup id = some row ∧ row.lifecycle = .active ∧
      t' = t.insert id (written row) := by
  simp only [updateActive, ok_rules] at h
  obtain ⟨_, rfl, h⟩ := h
  split at h
  · exact .inl (Tx.ok_pure.1 h).2.symm
  · rename_i row hrow
    obtain ⟨_, _, rfl, -, rfl⟩ := h
    obtain ⟨hlookup, hactive⟩ := Option.filter_eq_some_iff.1 hrow
    simp only [Bool.and_eq_true, decide_eq_true_eq] at hactive
    exact .inr ⟨row, hlookup, hactive.1.2, rfl⟩

theorem keeps_update (h : (updateActive id ownerId selects written).Ok t reply t')
    (hlink : ∀ row new, row.lifecycle = .active → (written row).lifecycle = .superseded new →
      new ≠ id ∧ ∃ next, t.lookup new = some next ∧ next.live) : Keeps t t' := by
  rcases update_ok h with rfl | ⟨row, hrow, hactive, rfl⟩
  · exact .refl
  · refine keeps_insert (fun was hwas => ?_) fun new => hlink row new hactive
    cases hrow.symm.trans hwas
    exact hactive

end

/-- A call of `supersede` puts a record that is not superseded in the place of another one. -/
def Proper (t : Table) : Call → Prop
  | .supersede _ old new _ _ => new ≠ old ∧ ∀ row, t.lookup new = some row → row.live
  | _ => True

theorem supersede_ok {replacement : Feedback} {now : Time}
    (hp : Proper t (.supersede ownerId old new replacement now))
    (h : (supersede ownerId old new replacement now).Ok t r t') :
    Keeps t t' ∧ t'.lookup new = some r ∧ r.live := by
  simp only [supersede, get, ok_rules, ok_argument] at h
  obtain ⟨_, -, r, t1, hsubmit, _, t', hupdate, _, _, ⟨_, rfl, -, rfl⟩, _, -, _, -, rfl, rfl⟩ := h
  obtain ⟨hrow, hkeeps, hadded⟩ := submit_ok hsubmit
  have hlive : r.live := hadded.elim (fun he => hp.2 _ (he ▸ hrow)) fun hl => hl
  refine ⟨hkeeps.trans (keeps_update hupdate fun _ _ _ hsup => ?_), ?_, hlive⟩
  · cases hsup
    exact ⟨hp.1, r, hrow, hlive⟩
  · rcases update_ok hupdate with rfl | ⟨row, -, -, rfl⟩
    · exact hrow
    · rwa [Keyed.lookup_write, if_neg hp.1]

theorem step_keeps {c : Call} (hp : Proper t c) : Keeps t (step c t) := by
  have hcommit : ∀ {α : Type} {x : Tx Table Failure α}, (∀ r t', x.Ok t r t' → Keeps t t') →
      Keeps t (x.commit t) := Tx.commit_of_ok .refl
  cases c with
  | submit => exact hcommit fun r t' h => (submit_ok h).2.1
  | supersede => exact hcommit fun r t' h => (supersede_ok hp h).1
  | amendActive =>
    refine hcommit fun r t' h => ?_
    simp only [amendActive, get, ok_rules, ok_argument] at h
    obtain ⟨_, -, _, t', hupdate, _, _, ⟨_, rfl, -, rfl⟩, _, -, -, rfl⟩ := h
    exact keeps_update hupdate fun row new hactive hsup => by cases hactive.symm.trans hsup
  | retract =>
    refine hcommit fun r t' h => ?_
    simp only [retract, ok_rules, ok_argument] at h
    obtain ⟨_, -, hupdate⟩ := h
    exact keeps_update hupdate fun row new _ hsup => by cases hsup

theorem run_keeps_settled {calls : List Call} (h : Allowed step Proper calls t) :
    Keeps t (run step calls t) :=
  h.keeps (P := Keeps t) (fun _ _ hp hk => hk.trans (step_keeps hp)) .refl

/-- In a run of proper calls every record settles, one that is superseded or retracted stays as it
    is, and what a supersession returns is not superseded. -/
theorem feedback_supersession {before after : List Call} (hbefore : Allowed step Proper before ∅)
    (hafter : Allowed step Proper after (run step before ∅)) :
    let t := run step before ∅
    AllSettled t ∧
    (∀ id row, t.lookup id = some row → row.lifecycle ≠ .active →
      (run step after t).lookup id = some row) ∧
    ∀ ownerId old new replacement now r t', Proper t (.supersede ownerId old new replacement now) →
      (supersede ownerId old new replacement now).Ok t r t' → t'.lookup new = some r ∧ r.live := by
  refine ⟨?_, (run_keeps_settled hafter).final, fun _ _ _ _ _ _ _ hp hok => (supersede_ok hp hok).2⟩
  exact (run_keeps_settled hbefore).settled fun _ _ hrow => by cases hrow

def sample : Feedback :=
  ⟨"owner", none, none, none, none, none, "positive", "other", none, "clean", none, .active, 0, 0⟩

theorem feedback_supersession_sample :
    AllSettled (run step [.submit ⟨1⟩ sample, .supersede "owner" ⟨1⟩ ⟨2⟩ sample 0] ∅) := by
  refine (@feedback_supersession _ [] ?_ trivial).1
  refine ⟨trivial, ⟨by decide, fun row hrow => ?_⟩, trivial⟩
  cases (show (step (.submit ⟨1⟩ sample) ∅).lookup ⟨2⟩ = none by decide +kernel).symm.trans hrow

/-- The replacement of a record is superseded by an exact replay of that record. -/
theorem feedback_supersession_cycle :
    ¬ AllSettled (run step [.submit ⟨1⟩ sample, .supersede "owner" ⟨1⟩ ⟨2⟩ sample 0,
      .supersede "owner" ⟨2⟩ ⟨1⟩ sample 0] ∅) := by
  generalize ht : run step _ ∅ = t
  have h₁ : (t.lookup ⟨1⟩).map (·.lifecycle) = some (.superseded ⟨2⟩) := ht ▸ by decide +kernel
  have h₂ : (t.lookup ⟨2⟩).map (·.lifecycle) = some (.superseded ⟨1⟩) := ht ▸ by decide +kernel
  have hcycle : ∀ id, Settled t id → id ≠ ⟨1⟩ ∧ id ≠ ⟨2⟩ := by
    intro id h
    induction h with
    | stop hrow hl =>
      constructor
      · rintro rfl
        exact hl ⟨2⟩ (by simpa [hrow] using h₁)
      · rintro rfl
        exact hl ⟨1⟩ (by simpa [hrow] using h₂)
    | follow hrow hl _ ih =>
      constructor
      · rintro rfl
        exact ih.2 (by simpa [hrow, hl] using h₁)
      · rintro rfl
        exact ih.1 (by simpa [hrow, hl] using h₂)
  intro hall
  obtain ⟨row, hrow, -⟩ := Option.map_eq_some_iff.1 h₁
  exact (hcycle ⟨1⟩ (hall _ row hrow)).1 rfl

end AstralPlane.Preferences
