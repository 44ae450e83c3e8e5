/-
  A purged tombstone certifies that its blobs were seen to be absent.

  A thread keeps the tombstone that it has read while other threads mark the
  row.  Since every marking raises the version (`Marked`), a row that still has
  the version of the reading is the row that was read (`Later`); what the thread
  has done since then stands at the end of its own log (`Holds`).  A thread that
  finds another version reads the row again and reports what is stored there; for
  a purged row it looks at the blobs once more, and raises if they are not absent.
-/
import Mathlib.Data.List.Induction
import AstralPlane.Purge.Executor

namespace AstralPlane.Purge

open Tx List

variable {env : Env} {t t' : Tombstone} {x : Thread} {q : Execution} {k : Marking} {s : State Thread}
  {id : String} {table table' : Tombstones} {log : List Event} {pc : Pc}

/-! ## Markings -/

/-- What a tombstone says of its target. -/
structure SameTarget (t t' : Tombstone) : Prop where
  ownerId : t'.ownerId = t.ownerId
  objectKind : t'.objectKind = t.objectKind
  objectId : t'.objectId = t.objectId
  storageKey : t'.storageKey = t.storageKey
  locator : t'.storageLocatorSha256 = t.storageLocatorSha256
  scope : t'.scope = t.scope

theorem SameTarget.refl (t : Tombstone) : SameTarget t t := ⟨rfl, rfl, rfl, rfl, rfl, rfl⟩

theorem SameTarget.trans {t'' : Tombstone} (h : SameTarget t t') (h' : SameTarget t' t'') :
    SameTarget t t'' where
  ownerId := h'.ownerId.trans h.ownerId
  objectKind := h'.objectKind.trans h.objectKind
  objectId := h'.objectId.trans h.objectId
  storageKey := h'.storageKey.trans h.storageKey
  locator := h'.locator.trans h.locator
  scope := h'.scope.trans h.scope

/-- What every marking does to a row. -/
structure Marked (t t' : Tombstone) : Prop where
  alive : t.status ≠ .purged
  version : t'.version = t.version + 1
  attempts : t'.attemptCount =
    t.attemptCount + if t'.status = .failed ∨ t'.status = .purged then 1 else 0
  target : SameTarget t t'
  decided : t'.status ≠ .pending
  code : t'.lastErrorCode.all isSafeErrorCode

/-- A row is the one that was read, or has been marked since. -/
def Tombstone.Later (t t' : Tombstone) : Prop :=
  t' = t ∨ (t.version < t'.version ∧ SameTarget t t' ∧ t'.status ≠ .pending ∧
    t'.lastErrorCode.all isSafeErrorCode)

theorem Tombstone.Later.target (h : t.Later t') : SameTarget t t' := by
  rcases h with rfl | h
  · exact SameTarget.refl _
  · exact h.2.1

theorem Tombstone.Later.marked {t'' : Tombstone} (h : t.Later t') (hm : Marked t' t'') :
    t.Later t'' ∧ t.version < t''.version := by
  have hlt : t.version < t''.version := by
    rcases h with rfl | h
    · have := hm.version; omega
    · have := hm.version; have := h.1; omega
  exact ⟨.inr ⟨hlt, h.target.trans hm.target, hm.decided, hm.code⟩, hlt⟩

theorem Tombstone.Later.eq_of_version (h : t.Later t') (hv : t'.version = t.version) : t' = t := by
  rcases h with h | h
  · exact h
  · have := h.1; omega

/-- Between two moments, rows are marked and new rows come in. -/
structure Evolves (table table' : Tombstones) : Prop where
  rows : ∀ id row, table.lookup id = some row →
    ∃ row' : Row Tombstone, table'.lookup id = some row' ∧
      (row' = row ∨ Marked row.val row'.val)
  born : ∀ id row', table.lookup id = none → table'.lookup id = some row' →
    row'.val.status = .pending

/-- What a marking of the rows `selects` leaves: one row is rewritten, or nothing; and a lost fence
    means that the row is none of them. -/
def MarkEnds (id : String) (selects : Tombstone → Bool) (written : Tombstone → Tombstone)
    (table : Tombstones) : Except Error Unit → Tombstones → Prop
  | .ok _, table' =>
    ∃ row row' : Row Tombstone, table.lookup id = some row ∧ selects row.val ∧
      row'.val = written row.val ∧ table' = table.insert id row'
  | .error e, table' =>
    table' = table ∧ (e = fenceConflict → ∀ row, table.lookup id = some row →
      selects row.val = false)

section
variable {selects : Tombstone → Bool} {written : Tombstone → Tombstone}

theorem requireUpdate_ends : (requireUpdate (Sql.updateReturning id selects written)).Ends table
      (MarkEnds id selects written table) := by
  rw [Ends, requireUpdate]
  simp only [Bind.bind, Tx.bind, Tx.zoom]
  cases hfilter : (table.lookup id).filter (selects ·.val) with
  | none =>
    rw [Sql.updateReturning_of_none hfilter]
    refine ⟨rfl, fun _ row hrow => ?_⟩
    rw [hrow, Option.filter_some] at hfilter
    simpa using hfilter
  | some row =>
    obtain ⟨hlookup, hselects⟩ := Option.filter_eq_some_iff.1 hfilter
    rw [Sql.updateReturning_of_some hfilter]
    have hwrite := Sql.write_settles id (written row.val) table
    rw [Tx.Settles, Ends] at hwrite
    rcases hw : Sql.write id (written row.val) table table with ⟨e | a, table'⟩
    · rw [hw] at hwrite
      exact ⟨hwrite, fun he => by cases he⟩
    · rw [hw] at hwrite
      obtain ⟨row', hrow', rfl, rfl⟩ := hwrite
      exact ⟨row, row', hlookup, hselects, hrow', rfl⟩

/-- A check before a marking raises an error of its own. -/
theorem markEnds_require {b : Bool} {message : String} {x : Tx Tombstones Error Unit}
    (h : b → x.Ends table (MarkEnds id selects written table)) :
    (require b (.contract message) >>= fun _ => x).Ends table (MarkEnds id selects written table) :=
  ends_require_bind h fun _ => ⟨rfl, nofun⟩

end

/-! ## The marking of a thread -/

/-- The rows that the marking of an execution meets. -/
def Execution.fences (q : Execution) (t : Tombstone) : Marking → Tombstone → Bool
  | .purged => fun row => row.fenced q.ownerId t.version &&
      row.storageLocatorSha256 = t.storageLocatorSha256
  | .failed | .manualReview => fun row => row.fenced q.ownerId t.version

def Execution.written (q : Execution) : Marking → Tombstone → Tombstone
  | .purged => (·.markedPurged q.now)
  | .failed => (·.markedFailed q.retryAt "blob_delete_failed")
  | .manualReview => (·.markedManualReview "publication_fence_required")

theorem Execution.mark_ends (env : Env) (q : Execution) (t : Tombstone) (k : Marking)
    (table : Tombstones) : (q.mark env t k).Ends table
      (MarkEnds q.tombstoneId (q.fences t k) (q.written k) table) := by
  have hcheck : (checkFence env q.ownerId q.tombstoneId).Ends table fun r table' =>
      table' = table ∧ r ≠ .error fenceConflict := by
    refine ends_require_bind (fun _ => ?_) fun _ => ⟨rfl, nofun⟩
    cases hb : isSafeIdentifier q.tombstoneId
    · exact ⟨rfl, nofun⟩
    · exact ⟨rfl, nofun⟩
  cases k <;> refine hcheck.bind ?_ ?_
  all_goals first
    | rintro _ _ ⟨rfl, -⟩
      exact markEnds_require fun _ => requireUpdate_ends
    | rintro e _ ⟨rfl, he⟩
      exact ⟨rfl, fun hconflict => absurd (congrArg Except.error hconflict) he⟩

def Resolution.fences (r : Resolution) (t row : Tombstone) : Bool :=
  row.ownerId = r.expectedOwnerId && row.storageLocatorSha256 = r.expectedLocatorSha256 &&
    row.version = t.version && row.scope = .exactKey && row.status = .manualReview

theorem Resolution.mark_ends (r : Resolution) (t : Tombstone) (table : Tombstones) :
    (r.mark t).Ends table (MarkEnds r.tombstoneId
      (fun row => isSha256 r.evidenceSha256 && r.fences t row)
      (·.markedResolved r.observedAt r.evidenceSha256) table) := by
  refine markEnds_require fun _ => markEnds_require fun _ => markEnds_require fun _ =>
    markEnds_require fun hevidence => ?_
  rw [hevidence]
  exact requireUpdate_ends

theorem Tombstone.fenced_iff {ownerId : String} {version : ℕ} : t.fenced ownerId version ↔
      t.ownerId = ownerId ∧ t.version = version ∧ t.status.isOpen := by
  simp [Tombstone.fenced, and_assoc]

theorem Execution.written_marked (k : Marking)
    (hopen : t.status.isOpen) : Marked t (q.written k t) := by
  have halive : t.status ≠ .purged := fun h => by
    rw [h] at hopen
    cases hopen
  cases k with
  | purged => exact ⟨halive, rfl, rfl, ⟨rfl, rfl, rfl, rfl, rfl, rfl⟩, nofun, rfl⟩
  | failed =>
    have hcode : isSafeErrorCode "blob_delete_failed" := by decide
    exact ⟨halive, rfl, rfl, ⟨rfl, rfl, rfl, rfl, rfl, rfl⟩, nofun, hcode⟩
  | manualReview =>
    have hcode : isSafeErrorCode "publication_fence_required" := by decide
    exact ⟨halive, rfl, rfl, ⟨rfl, rfl, rfl, rfl, rfl, rfl⟩, nofun, hcode⟩

theorem Resolution.written_marked {r : Resolution} (h : t.status = .manualReview) :
    Marked t (t.markedResolved r.observedAt r.evidenceSha256) :=
  ⟨by rw [h]; exact nofun, rfl, rfl, ⟨rfl, rfl, rfl, rfl, rfl, rfl⟩, nofun, rfl⟩

/-! ## Reading a row again -/

/-- What a load that finds a tombstone has seen. -/
structure Loaded (env : Env) (table : Tombstones) (ownerId id : String) (t : Tombstone) : Prop where
  row : ∃ row : Row Tombstone, table.lookup id = some row ∧ row.val = t
  owner : t.ownerId = ownerId
  validOwner : env.validOwner ownerId
  safe : isSafeIdentifier id
  valid : validateTombstone env id t = .ok ()

theorem fromRecord_ok_iff {o : Option (Row Tombstone)} :
    (fromRecord env id o).Ok table (some t) table' ↔
      (∃ row, o = some row ∧ row.val = t) ∧ validateTombstone env id t = .ok () ∧ table = table' := by
  cases o with
  | none => simp [fromRecord]
  | some row =>
    simp only [fromRecord, ok_bind, ok_ofExcept, ok_pure]
    constructor
    · rintro ⟨⟨⟩, _, ⟨hvalid, rfl⟩, heq, rfl⟩
      obtain rfl : row.val = t := Option.some.inj heq
      exact ⟨⟨row, rfl, rfl⟩, hvalid, rfl⟩
    · rintro ⟨⟨_, heq, rfl⟩, hvalid, rfl⟩
      cases heq
      exact ⟨(), table, ⟨hvalid, rfl⟩, rfl, rfl⟩

theorem load_ok_iff {ownerId : String} :
    (load env ownerId id).Ok table (some t) table ↔ Loaded env table ownerId id t := by
  simp only [load, ok_rules, fromRecord_ok_iff, Option.filter_eq_some_iff, decide_eq_true_eq]
  constructor
  · rintro ⟨_, howner, _, hsafe, _, rfl, ⟨row, ⟨hrow, heq⟩, rfl⟩, hvalid, -⟩
    exact ⟨⟨row, hrow, rfl⟩, heq, howner, hsafe, hvalid⟩
  · rintro ⟨⟨row, hrow, rfl⟩, heq, howner, hsafe, hvalid⟩
    exact ⟨(), howner, (), hsafe, table, rfl, ⟨row, ⟨hrow, heq⟩, rfl⟩, hvalid, trivial⟩

theorem checkTarget_same (h : SameTarget t t')
    (htyped : t.scope ≠ .exactKey) : checkTarget env id t' = checkTarget env id t := by
  unfold checkTarget
  rw [h.scope, h.ownerId, h.objectKind, h.objectId, h.storageKey, h.locator]
  cases hscope : t.scope with
  | exactKey => exact absurd hscope htyped
  | attachmentPrefix | ownerNamespace => rfl

variable {row : Row Tombstone}

/-- The constraints of the table are those of the record. -/
theorem checkEvidence_of_row (htyped : row.val.scope ≠ .exactKey) :
    checkEvidence row.val = .ok () := by
  obtain ⟨hevidence, hresolved⟩ : row.val.evidence = none ∧ row.val.resolvedAt = none := by
    have h := (shapes_of_row row).2
    unfold Tombstone.targetShape at h
    split at h
    · exact absurd ‹_› htyped
    all_goals
      simp only [Bool.and_eq_true, Option.isNone_iff_eq_none] at h
      exact ⟨h.1.2, h.2⟩
  have hstate := (shapes_of_row row).1.2
  unfold Tombstone.stateShape at hstate
  unfold checkEvidence
  rw [hevidence, hresolved]
  cases hscope : row.val.scope with
  | exactKey => exact absurd hscope htyped
  | attachmentPrefix | ownerNamespace =>
    cases hstatus : row.val.status <;> rw [hstatus] at hstate <;>
      simp only [Bool.and_eq_true, Option.isNone_iff_eq_none] at hstate <;>
      simp [hstate, ensure, Bind.bind, Except.bind]

/-- A tombstone of a deletion that was found sound is found sound after every marking. -/
theorem validate_later (h : t.Later row.val)
    (hvalid : validateTombstone env id t = .ok ()) (htyped : t.scope ≠ .exactKey) :
    validateTombstone env id row.val = .ok () := by
  rcases h with heq | ⟨-, htarget, -, hcode⟩
  · rw [heq]
    exact hvalid
  · have htyped' : row.val.scope ≠ .exactKey := by rw [htarget.scope]; exact htyped
    simp only [validateTombstone, ok_rules] at hvalid ⊢
    obtain ⟨_, hid, _, hobject, _, hcheck, -⟩ := hvalid
    refine ⟨(), hid, (), ?_, (), ?_, (), checkEvidence_of_row htyped', hcode⟩
    · rw [htarget.objectId]
      exact hobject
    · rw [checkTarget_same htarget htyped]
      exact hcheck

/-! ## What a thread knows -/

/-- An execution with the tombstone that it has read: the row is that one, or was marked since. -/
structure Claims (env : Env) (table : Tombstones) (q : Execution) (t : Tombstone) : Prop where
  row : ∃ row : Row Tombstone, table.lookup q.tombstoneId = some row ∧ t.Later row.val
  owner : t.ownerId = q.ownerId
  validOwner : env.validOwner q.ownerId
  safe : isSafeIdentifier q.tombstoneId
  valid : validateTombstone env q.tombstoneId t = .ok ()
  typed : t.scope ≠ .exactKey
  isOpen : t.status.isOpen

/-- A purged row of a deletion, as it was read. -/
def Stored (table : Tombstones) (q : Execution) (t : Tombstone) : Prop :=
  ∃ row : Row Tombstone, table.lookup q.tombstoneId = some row ∧ row.val = t ∧
    t.status = .purged ∧ t.scope ≠ .exactKey

/-- Where a thread stands agrees with the table and with its own log. -/
def Holds (env : Env) (table : Tombstones) (log : List Event) : Pc → Prop
  | .deleting q t => Claims env table q t ∧ [.loaded q.tombstoneId t] <:+ log
  | .observing q t => Claims env table q t ∧
      [.loaded q.tombstoneId t, .deleted q.tombstoneId t true] <:+ log
  | .marking q t k => Claims env table q t ∧ (k = .purged →
      [.loaded q.tombstoneId t, .deleted q.tombstoneId t true, .observed q.tombstoneId t true]
        <:+ log)
  | .reconciling q t => Claims env table q t ∧ ∀ row : Row Tombstone,
      table.lookup q.tombstoneId = some row → t.version < row.val.version
  | .certifying q t | .reobserving q t => Stored table q t
  | _ => True

theorem Claims.evolves (h : Claims env table q t)
    (he : Evolves table table') : Claims env table' q t := by
  obtain ⟨row, hrow, hlater⟩ := h.row
  obtain ⟨row', hrow', rfl | hm⟩ := he.rows _ _ hrow
  · exact { h with row := ⟨row', hrow', hlater⟩ }
  · exact { h with row := ⟨row', hrow', (hlater.marked hm).1⟩ }

theorem Stored.evolves (h : Stored table q t) (he : Evolves table table') : Stored table' q t := by
  obtain ⟨row, hrow, rfl, hpurged, htyped⟩ := h
  obtain ⟨row', hrow', rfl | hm⟩ := he.rows _ _ hrow
  · exact ⟨row', hrow', rfl, hpurged, htyped⟩
  · exact absurd hpurged hm.alive

/-- What a thread knows stays true while other threads take their stretches. -/
theorem Holds.evolves (h : Holds env table log pc)
    (he : Evolves table table') : Holds env table' log pc := by
  cases pc with
  | deleting | observing | marking => exact ⟨h.1.evolves he, h.2⟩
  | certifying | reobserving => exact Stored.evolves h he
  | reconciling =>
    refine ⟨h.1.evolves he, fun row' hrow' => ?_⟩
    obtain ⟨row, hrow, hlater⟩ := h.1.row
    obtain ⟨row'', hrow'', hcase⟩ := he.rows _ _ hrow
    cases hrow'.symm.trans hrow''
    rcases hcase with rfl | hm
    · exact h.2 _ hrow
    · exact (hlater.marked hm).2
  | idle | loading | inspecting | resolving | rereading | returned | raised => trivial

/-- A tombstone with a status that an execution still works on is one of a deletion. -/
theorem typed_of_open (row : Row Tombstone) (h : row.val.status.isOpen) :
    row.val.scope ≠ .exactKey := by
  intro hscope
  have hshape := (shapes_of_row row).2
  unfold Tombstone.targetShape at hshape
  rw [hscope] at hshape
  cases hstatus : row.val.status <;> rw [hstatus] at h hshape
  · simp at hshape
  · cases h
  · simp at hshape
  · cases h

theorem Status.isOpen_of_ne {s : Status} (hm : s ≠ .manualReview) (hp : s ≠ .purged) :
    s.isOpen := by
  cases s with
  | pending | failed => rfl
  | manualReview => exact absurd rfl hm
  | purged => exact absurd rfl hp

/-! ## What a stretch does -/

theorem Execution.start_holds (q : Execution) (log : List Event) : Holds env table log q.start := by
  unfold Execution.start
  split <;> trivial

theorem Resolution.start_holds (r : Resolution) (log : List Event) : Holds env table log r.start := by
  unfold Resolution.start
  dsimp only
  split <;> trivial

theorem Execution.loaded_holds (log : List Event) (h : Loaded env table q.ownerId q.tombstoneId t) :
    Holds env table (log ++ [.loaded q.tombstoneId t]) (q.loaded (some t)) := by
  obtain ⟨⟨row, hrow, rfl⟩, howner, hvalidOwner, hsafe, hvalid⟩ := h
  unfold Execution.loaded
  dsimp only
  split
  · trivial
  · rename_i hreview
    split
    · rename_i hpurged
      split
      · trivial
      · rename_i htyped
        exact ⟨row, hrow, rfl, hpurged, htyped⟩
    · rename_i hpurged
      have hopen := Status.isOpen_of_ne hreview hpurged
      have htyped := typed_of_open row hopen
      split
      · trivial
      · exact ⟨⟨⟨row, hrow, .inl rfl⟩, howner, hvalidOwner, hsafe, hvalid, htyped, hopen⟩,
          suffix_append _ _⟩

theorem Execution.reconciled_holds (h : Loaded env table q.ownerId q.tombstoneId t) :
    Holds env table log (q.reconciled (some t)) := by
  obtain ⟨⟨row, hrow, rfl⟩, -⟩ := h
  unfold Execution.reconciled
  dsimp only
  split
  · rename_i hpurged
    split
    · trivial
    · rename_i htyped
      exact ⟨row, hrow, rfl, hpurged, htyped⟩
  all_goals trivial

/-! ## One step of the system -/

/-- What stands behind a purged row: for a legacy key the evidence of an operator, for a deletion
    that the thread has read this very row, deleted its blobs and then seen them absent. -/
def Certificate (id : String) (t t' : Tombstone) (log : List Event) : Prop :=
  if t.scope = .exactKey then t.status = .manualReview ∧ t'.evidence.any isSha256
  else [.loaded id t, .deleted id t true, .observed id t true] <:+ log

/-- The changes of the table in one stretch, by a thread with this log. -/
structure Changes (log : List Event) (table table' : Tombstones) : Prop where
  rows : ∀ id row, table.lookup id = some row →
    ∃ row' : Row Tombstone, table'.lookup id = some row' ∧
      (row' = row ∨ (Marked row.val row'.val ∧
        (row'.val.status = .purged → Certificate id row.val row'.val log)))
  born : ∀ id row', table.lookup id = none → table'.lookup id = some row' →
    row'.val.status = .pending ∧ row'.val.scope ≠ .exactKey

theorem Changes.refl (log : List Event) (table : Tombstones) : Changes log table table :=
  ⟨fun _ row h => ⟨row, h, .inl rfl⟩, fun _ _ h h' => by rw [h] at h'; cases h'⟩

theorem Changes.evolves (h : Changes log table table') : Evolves table table' := by
  refine ⟨fun id row hrow => ?_, fun id row' hnone hrow' => (h.born id row' hnone hrow').1⟩
  obtain ⟨row', hrow', hcase⟩ := h.rows id row hrow
  exact ⟨row', hrow', hcase.imp_right And.left⟩

theorem changes_mark
    {row' : Row Tombstone} (h : table.lookup id = some row) (hm : Marked row.val row'.val)
    (hc : row'.val.status = .purged → Certificate id row.val row'.val log) :
    Changes log table (table.insert id row') := by
  constructor
  · intro k r hk
    by_cases hid : k = id
    · subst hid
      cases h.symm.trans hk
      exact ⟨row', by rw [Keyed.lookup_write, if_pos rfl], .inr ⟨hm, hc⟩⟩
    · exact ⟨r, by rw [Keyed.lookup_write, if_neg hid, hk], .inl rfl⟩
  · intro k r hk hk'
    rcases Keyed.write_cases hk' with ⟨rfl, -⟩ | ⟨-, hk'⟩
    · cases h.symm.trans hk
    · cases hk.symm.trans hk'

theorem changes_insert (h : table.lookup id = none) (hp : row.val.status = .pending)
    (htyped : row.val.scope ≠ .exactKey) : Changes log table (table.insert id row) := by
  refine ⟨fun k r hk => ⟨r, Keyed.lookup_write_of_none h hk _, .inl rfl⟩, fun k r hk hk' => ?_⟩
  rcases Keyed.write_cases hk' with ⟨-, rfl⟩ | ⟨-, hk'⟩
  · exact ⟨hp, htyped⟩
  · cases hk.symm.trans hk'

theorem enqueue_changes (scope : Scope) (ownerId objectId key : String) (requestedAt : Time) :
    Changes log table ((enqueue env scope ownerId objectId key requestedAt).commit table) := by
  rcases Tx.commit_cases (enqueue env scope ownerId objectId key requestedAt) table with
    ⟨a, hok⟩ | h
  · rcases (enqueueScheduled_settles _ _).of_ok hok with heq | ⟨row, hnone, hrow, hvalid, heq⟩
    · rw [heq]
      exact Changes.refl _ _
    · rw [heq]
      refine changes_insert hnone (by rw [hrow]; rfl) ?_
      rw [hrow]
      intro hscope
      simp only [validateTombstone, ok_rules, checkTarget, hscope] at hvalid
      obtain ⟨_, -, _, -, _, ⟨_, -, _, -, _, hstatus, -⟩, -⟩ := hvalid
      cases hstatus
  · rw [h]
    exact Changes.refl _ _

theorem markEnds_commit {selects : Tombstone → Bool}
    {written : Tombstone → Tombstone} {x : Tx Tombstones Error Unit}
    (h : x.Ends table (MarkEnds id selects written table)) :
    x.commit table = table ∨ ∃ row row' : Row Tombstone, table.lookup id = some row ∧
      selects row.val ∧ row'.val = written row.val ∧ x.commit table = table.insert id row' := by
  rcases Tx.commit_cases x table with ⟨a, hok⟩ | hsame
  · exact .inr (h.of_ok hok)
  · exact .inl hsame

theorem mark_changes (h : Holds env table log (.marking q t k)) :
    Changes log table ((q.mark env t k).commit table) := by
  obtain ⟨hclaims, hlog⟩ := h
  rcases markEnds_commit (q.mark_ends env t k table) with
    hsame | ⟨row, row', hrow, hselects, hwritten, heq⟩
  · rw [hsame]
    exact Changes.refl _ _
  · have hfenced : row.val.fenced q.ownerId t.version := by
      cases k with
      | purged => exact (Bool.and_eq_true_iff.1 hselects).1
      | failed | manualReview => exact hselects
    obtain ⟨-, hversion, hopen⟩ := Tombstone.fenced_iff.1 hfenced
    -- a row of the version that was read is the row that was read
    obtain ⟨row0, hrow0, hlater⟩ := hclaims.row
    cases hrow.symm.trans hrow0
    have hread : row.val = t := hlater.eq_of_version hversion
    rw [heq]
    refine changes_mark hrow (by rw [hwritten]; exact Execution.written_marked k hopen) ?_
    intro hpurged
    rw [hwritten] at hpurged
    rw [Certificate, hread, if_neg hclaims.typed]
    cases k with
    | purged => exact hlog rfl
    | failed | manualReview => cases hpurged

theorem resolve_changes (r : Resolution) (t : Tombstone) :
    Changes log table ((r.mark t).commit table) := by
  rcases markEnds_commit (r.mark_ends t table) with
    hsame | ⟨row, row', hrow, hselects, hwritten, heq⟩
  · rw [hsame]
    exact Changes.refl _ _
  · obtain ⟨hevidence, hfence⟩ := Bool.and_eq_true_iff.1 hselects
    simp only [Resolution.fences, bool_to_prop] at hfence
    obtain ⟨⟨-, hscope⟩, hreview⟩ := hfence
    rw [heq]
    refine changes_mark hrow (by rw [hwritten]; exact Resolution.written_marked hreview) ?_
    intro _
    rw [Certificate, if_pos hscope, hwritten]
    exact ⟨hreview, hevidence⟩

/-- What one stretch of a thread does, given that the thread knows what it should. -/
structure Acts (env : Env) (table : Tombstones) (log : List Event)
    (r : Tombstones × Pc × List Event) : Prop where
  changes : Changes log table r.1
  holds : Holds env r.1 (log ++ r.2.2) r.2.1
  deleted : ∀ id t b, Event.deleted id t b ∈ r.2.2 → t.scope ≠ .exactKey

theorem acts_quiet {more : List Event} (h : Holds env table (log ++ more) pc)
    (hd : ∀ id t b, Event.deleted id t b ∈ more → t.scope ≠ .exactKey) :
    Acts env table log (table, pc, more) :=
  ⟨Changes.refl _ _, h, hd⟩

theorem acts_read {r : Except Error (Option Tombstone)} {k : Option Tombstone → Pc}
    (hnone : Holds env table log (k none))
    (hsome : ∀ t, r = .ok (some t) → Holds env table (log ++ [.loaded id t]) (k (some t))) :
    Acts env table log (table, read id r k) := by
  rcases r with e | _ | t
  · exact acts_quiet trivial (by simp)
  · exact acts_quiet (by simpa using hnone) (by simp)
  · exact acts_quiet (hsome t rfl) (by simp)

/-- The log keeps no deletion of a marking. -/
theorem markEvents_deleted {r : Except Error Unit} {id' : String} {b : Bool} :
    Event.deleted id' t b ∉ markEvents id table table' r := by
  unfold markEvents
  split
  · exact not_mem_nil
  · split
    · simp
    · exact not_mem_nil

theorem load_reply {ownerId : String}
    (h : (load env ownerId id).reply table = .ok (some t)) : Loaded env table ownerId id t := by
  have hread : (load env ownerId id).ReadOnly := readOnly_bind (readOnly_require _ _) fun _ =>
      readOnly_bind (readOnly_require _ _) fun _ =>
        readOnly_bind readOnly_get fun _ => readOnly_fromRecord
  exact load_ok_iff.1 (Prod.ext h (hread table))

/-- A marking that has lost its fence: the row is there, with a later version. -/
theorem lost_fence (h : Claims env table q t)
    (hlost : (q.mark env t k).reply table = .error fenceConflict) :
    (q.mark env t k).commit table = table ∧ ∀ row : Row Tombstone,
      table.lookup q.tombstoneId = some row → t.version < row.val.version := by
  have hends := q.mark_ends env t k table
  rcases hx : q.mark env t k table with ⟨e | a, table'⟩
  · rw [Ends, hx] at hends
    rw [Tx.reply, hx] at hlost
    obtain ⟨hsame, hfence⟩ := hends
    refine ⟨by rw [Tx.commit, hx], fun row hrow => ?_⟩
    obtain ⟨row0, hrow0, hlater⟩ := h.row
    cases hrow.symm.trans hrow0
    rcases hlater with heq | hlt
    · have hmiss := hfence (Except.error.inj hlost) row hrow
      have hself := Tombstone.fenced_iff.2 ⟨h.owner, rfl, h.isOpen⟩
      cases k <;> simp [heq, Execution.fences, hself] at hmiss
    · exact hlt.1
  · rw [Tx.reply, hx] at hlost
    cases hlost

theorem mark_acts (h : Holds env table log (.marking q t k)) (answered : Bool) : Acts env table log
      (commitMark q.tombstoneId (q.mark env t k) answered (q.markingDone t k) table) := by
  refine ⟨mark_changes h, ?_, fun _ _ _ hmem => absurd hmem markEvents_deleted⟩
  cases answered with
  | false => trivial
  | true =>
    change Holds env ((q.mark env t k).commit table) _
      (q.markingDone t k ((q.mark env t k).reply table))
    cases hr : (q.mark env t k).reply table with
    | ok => trivial
    | error e =>
      unfold Execution.markingDone
      dsimp only
      split
      · rename_i he
        subst he
        obtain ⟨hsame, hversion⟩ := lost_fence h.1 hr
        exact ⟨h.1.evolves (mark_changes h).evolves, by rw [hsame]; exact hversion⟩
      · trivial

theorem acts_stay (h : Holds env table log pc) : Acts env table log (table, pc, []) :=
  acts_quiet (by rw [append_nil]; exact h) (by simp)

theorem read_acts (h : Holds env table log pc) : Acts env table log (act env .read table pc) := by
  cases pc with
  | loading => exact acts_read trivial fun t ht => Execution.loaded_holds log (load_reply ht)
  | reconciling q t =>
    exact acts_read trivial fun t ht => Execution.reconciled_holds (load_reply ht)
  | inspecting r =>
    refine acts_read trivial fun t _ => ?_
    unfold Resolution.inspected
    repeat' split
    all_goals trivial
  | rereading r =>
    refine acts_read trivial fun t _ => ?_
    unfold Resolution.reread
    repeat' split
    all_goals trivial
  | idle | certifying | deleting | observing | marking | reobserving | resolving | returned
  | raised => exact acts_stay h

theorem observe_acts (h : Holds env table log pc) (reply : Option Bool) :
    Acts env table log (act env (.observe reply) table pc) := by
  cases pc with
  | certifying | reobserving => exact acts_quiet (by rcases reply with _ | _ | _ <;> trivial) (by simp)
  | observing =>
    refine acts_quiet ?_ (by simp)
    obtain ⟨hclaims, before, rfl⟩ := h
    rcases reply with _ | _ | _
    · exact ⟨hclaims, nofun⟩
    · exact ⟨hclaims, nofun⟩
    · exact ⟨hclaims, fun _ => ⟨before, by simp⟩⟩
  | idle | loading | deleting | marking | reconciling | inspecting | resolving | rereading
  | returned | raised => exact acts_stay h

theorem delete_acts (h : Holds env table log pc) (reply : Option (Option Bool)) :
    Acts env table log (act env (.delete reply) table pc) := by
  cases pc with
  | deleting =>
    refine acts_quiet ?_ fun id t' b hmem => ?_
    · obtain ⟨hclaims, before, rfl⟩ := h
      rcases reply with _ | _ | _ | _
      · exact ⟨hclaims, nofun⟩
      · exact ⟨hclaims, before, by simp⟩
      · exact ⟨hclaims, nofun⟩
      · exact ⟨hclaims, before, by simp⟩
    simp only [mem_singleton, Event.deleted.injEq] at hmem
    rw [hmem.2.1]
    exact h.1.typed
  | idle | loading | certifying | observing | marking | reconciling | reobserving | inspecting
  | resolving | rereading | returned | raised => exact acts_stay h

theorem act_acts (m : Move) (h : Holds env table log pc) :
    Acts env table log (act env m table pc) := by
  cases m with
  | execute q =>
    refine acts_quiet ?_ (by simp)
    rw [append_nil]
    split
    · exact q.start_holds log
    · exact h
  | resolve r =>
    refine acts_quiet ?_ (by simp)
    rw [append_nil]
    split
    · exact r.start_holds log
    · exact h
  | enqueue scope owner object key requestedAt =>
    have hchanges : Changes log table
        ((enqueue env scope owner object key requestedAt).commit table) :=
      enqueue_changes scope owner object key requestedAt
    refine ⟨hchanges, ?_, by simp [act]⟩
    exact (by rw [append_nil]; exact h : Holds env table (log ++ []) pc).evolves hchanges.evolves
  | read => exact read_acts h
  | delete reply => exact delete_acts h reply
  | observe reply => exact observe_acts h reply
  | mark answered =>
    cases pc with
    | marking => exact mark_acts h answered
    | resolving r t =>
      refine ⟨resolve_changes r t, ?_, fun _ _ _ hmem => absurd hmem markEvents_deleted⟩
      cases answered with
      | false => trivial
      | true =>
        simp only [act, commitMark, Resolution.markingDone]
        repeat' split
        all_goals trivial
    | idle | loading | certifying | deleting | observing | reconciling | reobserving | inspecting
    | rereading | returned | raised => exact acts_stay h

/-! ## A lost fence -/

theorem mark_lost (h : Claims env table q t)
    (hversion : ∀ row : Row Tombstone, table.lookup q.tombstoneId = some row →
      row.val.version ≠ t.version) (k : Marking) :
    q.mark env t k table = (.error fenceConflict, table) := by
  have hmiss : ∀ row : Row Tombstone, table.lookup q.tombstoneId = some row →
      row.val.fenced q.ownerId t.version = false := by
    intro row hrow
    rw [Bool.eq_false_iff]
    exact fun hf => hversion row hrow (Tombstone.fenced_iff.1 hf).2.1
  -- the checks before the statement pass
  have hfence : (checkFence env q.ownerId q.tombstoneId).Ok table () table :=
    ok_require_bind h.validOwner (ok_require.2 ⟨h.safe, rfl⟩)
  have hmark : ∀ {b : Bool} {message : String} {selects : Tombstone → Bool} {written},
      b → (∀ row : Row Tombstone, table.lookup q.tombstoneId = some row → selects row.val = false) →
      (checkFence env q.ownerId q.tombstoneId >>= fun _ => require b (.contract message) >>=
        fun _ => requireUpdate (Sql.updateReturning q.tombstoneId selects written)) table =
          (.error fenceConflict, table) := by
    intro b message selects written hb hnone
    have hfilter : (table.lookup q.tombstoneId).filter (selects ·.val) = none := by
      cases hl : table.lookup q.tombstoneId with
      | none => rfl
      | some row => rw [Option.filter_some, hnone row hl]; rfl
    rw [Tx.bind_of_ok hfence, Tx.bind_of_ok (a := ()) (ok_require.2 ⟨hb, rfl⟩)]
    simp only [requireUpdate, Bind.bind, Tx.bind, Tx.zoom, Sql.updateReturning_of_none hfilter]
    rfl
  have hlocator : isSha256 t.storageLocatorSha256 := by
    obtain ⟨row, -, hlater⟩ := h.row
    rw [← hlater.target.locator]
    exact (shapes_of_row row).1.1
  cases k with
  | purged => exact hmark hlocator fun row hrow => by rw [hmiss row hrow, Bool.false_and]
  | failed =>
    have hcode : isSafeErrorCode "blob_delete_failed" := by decide
    exact hmark hcode hmiss
  | manualReview =>
    have hcode : isSafeErrorCode "publication_fence_required" := by decide
    exact hmark hcode hmiss

/-! ## Every run -/

section
variable {Thread : Type} [DecidableEq Thread]

/-- Every thread knows what it should, and no blobs of a legacy key were deleted. -/
structure Invariant (env : Env) (s : State Thread) : Prop where
  holds : ∀ x, Holds env s.table (own x s.log) (s.pc x)
  deleted : ∀ x id t b, (x, Event.deleted id t b) ∈ s.log → t.scope ≠ .exactKey

variable {s : State Thread}

theorem Invariant.acts (h : Invariant env s) (e : Thread × Move) :
    Acts env s.table (own e.1 s.log) (act env e.2 s.table (s.pc e.1)) :=
  act_acts e.2 (h.holds e.1)

theorem Invariant.step (h : Invariant env s) (e : Thread × Move) :
    Invariant env (step env e s) := by
  have hacts := h.acts e
  constructor
  · intro x
    by_cases hx : x = e.1
    · subst hx
      simp only [Purge.step, Function.update_self]
      rw [show own e.1 (s.log ++ _) = own e.1 s.log ++ _ by
        simp [own, filterMap_append, filterMap_map]; rfl]
      exact hacts.holds
    · simp only [Purge.step, Function.update_of_ne hx]
      rw [show own x (s.log ++ _) = own x s.log by
        simp [own, filterMap_append, filterMap_map, Ne.symm hx]]
      exact (h.holds x).evolves hacts.changes.evolves
  · intro x id t b hmem
    rcases mem_append.1 hmem with hold | hnew
    · exact h.deleted x id t b hold
    · obtain ⟨ev, hev, heq⟩ := mem_map.1 hnew
      cases heq
      exact hacts.deleted id t b hev

/-- What one step of a run does to the tombstones, and to an execution that has lost its fence. -/
structure Certifies (s : State Thread) (e : Thread × Move) (s' : State Thread) : Prop where
  changes : Changes (own e.1 s.log) s.table s'.table
  deletions : ∀ x id t b, (x, Event.deleted id t b) ∈ s'.log → t.scope ≠ .exactKey
  /-- A marking that comes after another one changes nothing. -/
  lost : ∀ q t k, s.pc e.1 = .marking q t k → e.2 = .mark true →
    (∀ row : Row Tombstone, s.table.lookup q.tombstoneId = some row →
      row.val.version ≠ t.version) →
    s'.table = s.table ∧ s'.pc e.1 = .reconciling q t
  /-- The execution then reports the row as it is stored, or looks at the blobs of a purged one. -/
  reported : ∀ q t, s.pc e.1 = .reconciling q t → e.2 = .read →
    ∃ row : Row Tombstone, s.table.lookup q.tombstoneId = some row ∧
      t.version < row.val.version ∧
      (s'.pc e.1 = .returned (row.val.report q.tombstoneId) ∨
        (row.val.status = .purged ∧ row.val.scope ≠ .exactKey ∧
          s'.pc e.1 = .reobserving q row.val))
  /-- It reports the purged row if they are absent, and raises otherwise. -/
  confirmed : ∀ q t reply, s.pc e.1 = .reobserving q t → e.2 = .observe reply →
    (∃ row : Row Tombstone, s.table.lookup q.tombstoneId = some row ∧ row.val = t) ∧
    if reply = some true then s'.pc e.1 = .returned (t.report q.tombstoneId)
    else s'.pc e.1 = .raised (if reply = some false then notConverged else .blob)

theorem step_pc (s : State Thread) (e : Thread × Move) :
    (step env e s).pc e.1 = (act env e.2 s.table (s.pc e.1)).2.1 := by
  simp [step]

theorem Invariant.certifies (h : Invariant env s) (e : Thread × Move) :
    Certifies s e (Purge.step env e s) where
  changes := (h.acts e).changes
  deletions := (h.step e).deleted
  lost := by
    intro q t k hpc hm hversion
    have hholds := h.holds e.1
    rw [hpc] at hholds
    have hmark := mark_lost hholds.1 hversion k
    rw [step_pc, Purge.step]
    simp only [hpc, hm, act, commitMark, Tx.commit, Tx.reply, hmark, Execution.markingDone, if_true,
      and_self]
  reported := by
    intro q t hpc hm
    have hholds := h.holds e.1
    rw [hpc] at hholds
    obtain ⟨hclaims, hversion⟩ := hholds
    obtain ⟨row, hrow, hlater⟩ := hclaims.row
    have hlt := hversion row hrow
    refine ⟨row, hrow, hlt, ?_⟩
    -- it finds the row that the winner has left
    have hloaded : Loaded env s.table q.ownerId q.tombstoneId row.val :=
      ⟨⟨row, hrow, rfl⟩, hlater.target.ownerId.trans hclaims.owner, hclaims.validOwner,
        hclaims.safe, validate_later hlater hclaims.valid hclaims.typed⟩
    have hload : (load env q.ownerId q.tombstoneId).reply s.table = .ok (some row.val) := by
      rw [Tx.reply, load_ok_iff.2 hloaded]
    rw [step_pc]
    simp only [hpc, hm, act, read, hload]
    rcases hlater with heq | ⟨-, -, hdecided, -⟩
    · rw [heq] at hlt
      exact absurd hlt (lt_irrefl _)
    · unfold Execution.reconciled Tombstone.report
      cases hstatus : row.val.status with
      | pending => exact absurd hstatus hdecided
      | failed | manualReview => exact .inl (by simp [hstatus])
      | purged =>
        by_cases hscope : row.val.scope = .exactKey
        · exact .inl (by simp [hscope, hstatus])
        · exact .inr ⟨rfl, hscope, by simp [hscope, hstatus]⟩
  confirmed := by
    intro q t reply hpc hm
    have hholds := h.holds e.1
    rw [hpc] at hholds
    obtain ⟨row, hrow, heq, hpurged, -⟩ := hholds
    refine ⟨⟨row, hrow, heq⟩, ?_⟩
    rw [step_pc]
    simp only [hpc, hm, act]
    rcases reply with _ | _ | _
    · rfl
    · rfl
    · rw [if_pos rfl, Tombstone.report, if_pos hpurged]
      rfl

/-- What a run and everything that may follow it do to the tombstones. -/
structure CertifiesAbsence (env : Env) (table : Tombstones) (l : List (Thread × Move)) : Prop where
  step : ∀ e, Certifies (after env table l) e (after env table (l ++ [e]))
  absorbing : ∀ more id row, (after env table l).table.lookup id = some row →
    row.val.status = .purged → (after env table (l ++ more)).table.lookup id = some row

/-- **Purge tombstones certify absence.** -/
theorem purge_certifies_absence (env : Env) (table : Tombstones) (l : List (Thread × Move)) :
    CertifiesAbsence env table l := by
  have h : Invariant env (after env table l) :=
    run_keeps (fun e _ h => h.step e) l ⟨fun _ => trivial, fun _ _ _ _ h => by cases h⟩
  constructor
  · intro e
    rw [after, after, run_snoc]
    exact h.certifies e
  · intro more id row hrow hpurged
    rw [after, run_append]
    -- a purged row stays as it is
    have hstays := run_keeps (P := fun s => Invariant env s ∧ s.table.lookup id = some row)
      (fun e s hs => ⟨hs.1.step e, ?_⟩) more ⟨h, hrow⟩
    · exact hstays.2
    obtain ⟨row', hrow', rfl | ⟨hm, -⟩⟩ := (hs.1.acts e).changes.rows id row hs.2
    · exact hrow'
    · exact absurd hpurged hm.alive

end

/-! ## A purged row that is not reported -/

def plainEnv : Env where
  sha256 _ := "aaaaaaaaaaaaaaaaaaaaaaaaaaaaaaaaaaaaaaaaaaaaaaaaaaaaaaaaaaaaaaaa"
  validOwner _ := true
  validKey _ := true

def plainExecution : Execution where
  ownerId := "u"
  tombstoneId := scheduledTombstoneId plainEnv .attachmentPrefix "u" "f"
  now := 1
  retryAt := 2

/-- Two threads execute one tombstone, and the first of them marks it as purged. -/
def race : List (Bool × Move) :=
  [(false, .enqueue .attachmentPrefix "u" "f" "f" 0), (false, .execute plainExecution),
    (true, .execute plainExecution), (false, .read), (true, .read), (false, .delete (some none)),
    (true, .delete (some none)), (false, .observe (some true)), (true, .observe (some true)),
    (false, .mark true), (true, .mark true)]

/-- The second thread has lost its fence, finds the row purged and then blobs in the store: it
    raises, and does not report what is stored. -/
theorem loser_raises :
    ((after plainEnv ∅ race).table.lookup plainExecution.tombstoneId).map (·.val.status) =
        some .purged ∧
      (after plainEnv ∅ race).pc true = .reconciling plainExecution (scheduledTombstone plainEnv
        .attachmentPrefix "u" "f" "f" 0) ∧
      (after plainEnv ∅ (race ++ [(true, .read), (true, .observe (some false))])).pc true =
        .raised notConverged ∧
      ((after plainEnv ∅ (race ++ [(true, .read), (true, .observe (some false))])).table.lookup
        plainExecution.tombstoneId).map (·.val.status) = some .purged := by
  decide +kernel

end AstralPlane.Purge
