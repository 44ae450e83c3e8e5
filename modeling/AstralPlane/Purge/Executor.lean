/-
  The purge executor (`DurablePurgeExecutor`), run by any number of threads.

  Reading a tombstone, deleting the blobs, looking whether they are gone and
  marking the tombstone are separate stretches, and between any two of them the
  other threads take theirs.  A thread that stops anywhere is one that takes no
  further stretch.  What the blob store answers, if it answers, is a part of the
  move; the log keeps what each thread has read, done and seen.
-/
import AstralPlane.Purge.Model

namespace AstralPlane.Purge

inductive AttemptState
  | purged | alreadyPurged | failed
  deriving DecidableEq, Repr

/-- `PurgeAttemptResult`. -/
structure AttemptResult where
  state : AttemptState
  tombstoneId : String
  attempt : ℕ
  errorCode : Option String := none
  deriving DecidableEq

structure Execution where
  ownerId : String
  tombstoneId : String
  now : Time
  retryAt : Time
  deriving DecidableEq

/-- The arguments of `resolve_legacy_exact_for_administration`. -/
structure Resolution where
  tombstoneId : String
  expectedOwnerId : String
  expectedLocatorSha256 : String
  observedAt : Time
  evidenceSha256 : String
  deriving DecidableEq

/-- The marking that an execution goes for. -/
inductive Marking
  | purged | failed | manualReview
  deriving DecidableEq

/-- Where a thread stands: before the next access to the table or to the blob store. -/
inductive Pc
  | idle
  | loading (q : Execution)
  | certifying (q : Execution) (t : Tombstone)
  | deleting (q : Execution) (t : Tombstone)
  | observing (q : Execution) (t : Tombstone)
  | marking (q : Execution) (t : Tombstone) (m : Marking)
  | reconciling (q : Execution) (t : Tombstone)
  | reobserving (q : Execution) (current : Tombstone)
  | inspecting (r : Resolution)
  | resolving (r : Resolution) (t : Tombstone)
  | rereading (r : Resolution)
  | returned (a : AttemptResult)
  | raised (e : Error)
  deriving DecidableEq

/-- What the log keeps of a thread. -/
inductive Event
  | loaded (id : String) (t : Tombstone)
  | deleted (id : String) (t : Tombstone) (returned : Bool)
  | observed (id : String) (t : Tombstone) (absent : Bool)
  | marked (id : String) (before after : Tombstone)
  deriving DecidableEq

/-! ## Between the accesses -/

def fenceConflict : Error :=
  .plane "purge tombstone version fence rejected the transition" "purge_fence_conflict"

def Execution.start (q : Execution) : Pc :=
  if q.retryAt ≤ q.now then .raised (.contract "retry_at must be later than now") else .loading q

/-- `execute` after its `_load`. -/
def Execution.loaded (q : Execution) : Option Tombstone → Pc
  | none => .raised (.plane "purge tombstone was not found in the owner scope" "purge_not_found")
  | some t =>
    if t.status = .manualReview then
      .raised (.plane "purge tombstone requires manual review" "purge_manual_review")
    else if t.status = .purged then
      if t.scope = .exactKey then .returned ⟨.alreadyPurged, q.tombstoneId, t.attemptCount, none⟩
      else .certifying q t
    else if q.now < t.availableAt then
      .raised (.plane "purge tombstone is not yet available for retry" "purge_retry_not_ready")
    else if t.scope = .exactKey then .marking q t .manualReview
    else .deleting q t

/-- The look at the blobs of a tombstone that is purged already; `none` is an exception. -/
def Execution.certified (q : Execution) (t : Tombstone) : Option Bool → Pc
  | none => .raised .blob
  | some false => .raised (.plane "purged tombstone no longer matches physical storage"
      "purge_integrity_failure")
  | some true => .returned ⟨.alreadyPurged, q.tombstoneId, t.attemptCount, none⟩

/-- `_delete_and_verify` after `_delete_for_purge`: an exception (`none`) or a result that does
    not prove absence leads to the failed marking. -/
def Execution.deleted (q : Execution) (t : Tombstone) : Option (Option Bool) → Pc
  | none | some (some false) => .marking q t .failed
  | some none | some (some true) => .observing q t

/-- `_delete_and_verify` after `_is_absent`. -/
def Execution.observed (q : Execution) (t : Tombstone) : Option Bool → Pc
  | some true => .marking q t .purged
  | some false | none => .marking q t .failed

/-- What `execute` returns after a marking of its own. -/
def Execution.result (q : Execution) (t : Tombstone) : Marking → AttemptResult
  | .purged => ⟨.purged, q.tombstoneId, t.attemptCount + 1, none⟩
  | .failed => ⟨.failed, q.tombstoneId, t.attemptCount + 1, some "blob_delete_failed"⟩
  | .manualReview => ⟨.failed, q.tombstoneId, t.attemptCount, some "publication_fence_required"⟩

/-- `execute` after the transaction of a marking. -/
def Execution.markingDone (q : Execution) (t : Tombstone) (m : Marking) : Except Error Unit → Pc
  | .ok _ => .returned (q.result t m)
  | .error e => if e = fenceConflict then .reconciling q t else .raised e

/-- What the stored row says to an execution that comes too late. -/
def Tombstone.report (id : String) (t : Tombstone) : AttemptResult :=
  if t.status = .purged then ⟨.alreadyPurged, id, t.attemptCount, none⟩
  else ⟨.failed, id, t.attemptCount, t.lastErrorCode⟩

def notConverged : Error :=
  .plane "purge concurrent transition did not converge" "purge_fence_conflict"

/-- `_reconcile_concurrent_transition` after its `_load`. -/
def Execution.reconciled (q : Execution) : Option Tombstone → Pc
  | none => .raised (.plane "purge tombstone disappeared during reconciliation"
      "purge_integrity_failure")
  | some t =>
    match t.status with
    | .purged =>
      if t.scope = .exactKey then .returned ⟨.alreadyPurged, q.tombstoneId, t.attemptCount, none⟩
      else .reobserving q t
    | .failed | .manualReview =>
      .returned ⟨.failed, q.tombstoneId, t.attemptCount, t.lastErrorCode⟩
    | .pending => .raised notConverged

/-- `_reconcile_concurrent_transition` after its `_is_absent`. -/
def Execution.reobserved (q : Execution) (t : Tombstone) : Option Bool → Pc
  | none => .raised .blob
  | some false => .raised notConverged
  | some true => .returned ⟨.alreadyPurged, q.tombstoneId, t.attemptCount, none⟩

/-- The start of `resolve_legacy_exact_for_administration`. -/
def Resolution.start (r : Resolution) : Pc :=
  let checked : Except Error Unit := do
    ensure (isSafeIdentifier r.expectedOwnerId)
      (.contract "legacy owner_id is not a bounded predecessor identifier")
    ensure (isSha256 r.expectedLocatorSha256)
      (.contract "expected_storage_locator_sha256 must be a lowercase SHA-256 digest")
    ensure (isSha256 r.evidenceSha256)
      (.contract "resolution_evidence_sha256 must be a lowercase SHA-256 digest")
  match checked with
  | .ok _ => .inspecting r
  | .error e => .raised e

def Resolution.inspects (r : Resolution) (t : Tombstone) : Bool :=
  t.ownerId = r.expectedOwnerId && t.storageLocatorSha256 = r.expectedLocatorSha256

/-- The resolution after its first load. -/
def Resolution.inspected (r : Resolution) : Option Tombstone → Pc
  | none => .raised (.plane "legacy purge tombstone was not found" "purge_not_found")
  | some t =>
    if !r.inspects t then
      .raised (.plane "legacy purge resolution identity changed after operator inspection"
        "purge_resolution_identity_conflict")
    else if t.status = .purged then
      if t.evidence ≠ some r.evidenceSha256 then
        .raised (.plane "legacy purge resolution replay changed its evidence digest"
          "purge_resolution_evidence_conflict")
      else .returned ⟨.alreadyPurged, r.tombstoneId, t.attemptCount, none⟩
    else if t.status ≠ .manualReview then
      .raised (.plane "legacy exact-key tombstone is not awaiting operator resolution"
        "purge_resolution_state_invalid")
    else .resolving r t

/-- The resolution after the transaction of its marking. -/
def Resolution.markingDone (r : Resolution) (t : Tombstone) : Except Error Unit → Pc
  | .ok _ => .returned ⟨.purged, r.tombstoneId, t.attemptCount + 1, none⟩
  | .error e => if e = fenceConflict then .rereading r else .raised e

/-- The resolution after the load that follows a lost fence. -/
def Resolution.reread (r : Resolution) : Option Tombstone → Pc
  | none => .raised (.plane "purge tombstone disappeared during operator resolution"
      "purge_integrity_failure")
  | some t =>
    if !r.inspects t then
      .raised (.plane "concurrent legacy purge resolution changed the inspected identity"
        "purge_resolution_identity_conflict")
    else if t.status = .purged then
      if t.evidence ≠ some r.evidenceSha256 then
        .raised (.plane "concurrent legacy purge resolution used different evidence"
          "purge_resolution_evidence_conflict")
      else .returned ⟨.alreadyPurged, r.tombstoneId, t.attemptCount, none⟩
    else .raised fenceConflict

/-! ## The accesses -/

section
variable (env : Env)

def Execution.mark (q : Execution) (t : Tombstone) : Marking → Tx Tombstones Error Unit
  | .purged => markPurged env q.ownerId q.tombstoneId t.storageLocatorSha256 t.version q.now
  | .failed => markFailed env q.ownerId q.tombstoneId t.version q.retryAt "blob_delete_failed"
  | .manualReview =>
    markManualReview env q.ownerId q.tombstoneId t.version "publication_fence_required"

def Resolution.mark (r : Resolution) (t : Tombstone) : Tx Tombstones Error Unit :=
  markLegacyExactResolved r.expectedOwnerId r.tombstoneId r.expectedLocatorSha256 t.version
    r.observedAt r.evidenceSha256

inductive Move
  | execute (q : Execution)
  | resolve (r : Resolution)
  | enqueue (scope : Scope) (ownerId objectId storageKey : String) (requestedAt : Time)
  | read
  | delete (reply : Option (Option Bool))
  | observe (reply : Option Bool)
  /-- The transaction of a marking; its answer may be lost after the commit. -/
  | mark (answered : Bool)
  deriving DecidableEq

def Pc.isRest : Pc → Bool
  | .idle | .returned _ | .raised _ => true
  | _ => false

/-- What a load leads to, and what the log keeps of it. -/
def read (id : String) (r : Except Error (Option Tombstone)) (k : Option Tombstone → Pc) :
    Pc × List Event :=
  match r with
  | .error e => (.raised e, [])
  | .ok none => (k none, [])
  | .ok (some t) => (k (some t), [.loaded id t])

def markEvents (id : String) (table table' : Tombstones) : Except Error Unit → List Event
  | .error _ => []
  | .ok _ =>
    match table.lookup id, table'.lookup id with
    | some before, some after => [.marked id before.val after.val]
    | _, _ => []

/-- A marking of one thread: the table after it, where the thread goes, and the log. -/
def commitMark (id : String) (x : Tx Tombstones Error Unit) (answered : Bool)
    (k : Except Error Unit → Pc) (table : Tombstones) : Tombstones × Pc × List Event :=
  (x.commit table, if answered then k (x.reply table) else .raised (.database "08006"),
    markEvents id table (x.commit table) (x.reply table))

/-- The enqueuing of a tombstone for a deletion. -/
def enqueue (scope : Scope) (ownerId objectId storageKey : String) (requestedAt : Time) :
    Tx Tombstones Error (Tombstone × Bool) :=
  enqueueScheduled env (scheduledTombstoneId env scope ownerId objectId)
    (scheduledTombstone env scope ownerId objectId storageKey requestedAt)

/-- What a move does for a thread; one that does not fit where the thread stands does nothing. -/
def act (m : Move) (table : Tombstones) (pc : Pc) : Tombstones × Pc × List Event :=
  match m, pc with
  | .execute q, pc => (table, if pc.isRest then q.start else pc, [])
  | .resolve r, pc => (table, if pc.isRest then r.start else pc, [])
  | .enqueue scope owner object key requestedAt, pc =>
    ((enqueue env scope owner object key requestedAt).commit table, pc, [])
  | .read, .loading q =>
    (table, read q.tombstoneId ((load env q.ownerId q.tombstoneId).reply table) q.loaded)
  | .read, .reconciling q _ =>
    (table, read q.tombstoneId ((load env q.ownerId q.tombstoneId).reply table) q.reconciled)
  | .read, .inspecting r =>
    (table, read r.tombstoneId ((loadLegacyExact env r.tombstoneId).reply table) r.inspected)
  | .read, .rereading r =>
    (table, read r.tombstoneId ((loadLegacyExact env r.tombstoneId).reply table) r.reread)
  | .delete reply, .deleting q t =>
    (table, q.deleted t reply, [.deleted q.tombstoneId t reply.isSome])
  | .observe reply, .certifying q t =>
    (table, q.certified t reply, [.observed q.tombstoneId t (reply = some true)])
  | .observe reply, .observing q t =>
    (table, q.observed t reply, [.observed q.tombstoneId t (reply = some true)])
  | .observe reply, .reobserving q t =>
    (table, q.reobserved t reply, [.observed q.tombstoneId t (reply = some true)])
  | .mark answered, .marking q t k =>
    commitMark q.tombstoneId (q.mark env t k) answered (q.markingDone t k) table
  | .mark answered, .resolving r t =>
    commitMark r.tombstoneId (r.mark t) answered (r.markingDone t) table
  | _, pc => (table, pc, [])

/-! ## Runs -/

structure State (Thread : Type) where
  table : Tombstones
  pc : Thread → Pc
  log : List (Thread × Event)

variable {Thread : Type} [DecidableEq Thread]

def step (e : Thread × Move) (s : State Thread) : State Thread :=
  let r := act env e.2 s.table (s.pc e.1)
  { table := r.1
    pc := Function.update s.pc e.1 r.2.1
    log := s.log ++ r.2.2.map (e.1, ·) }

/-- The state after the moves `l` from a table. -/
def after (table : Tombstones) (l : List (Thread × Move)) : State Thread :=
  run (step env) l { table, pc := fun _ => .idle, log := [] }

/-- What the log keeps of a thread. -/
def own (x : Thread) (log : List (Thread × Event)) : List Event :=
  log.filterMap fun e => if e.1 = x then some e.2 else none

end

end AstralPlane.Purge
