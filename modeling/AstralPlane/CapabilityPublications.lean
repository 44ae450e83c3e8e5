/-
  Capability publications (`repositories/capability_publications.py`).

  The row of one owner, capability and audience, which all statements name in full.
  A request carries the revision it expects, and each change takes the row from that
  revision to the next: a request that is behind the row writes nothing any more.

  A row that another transaction inserts between the first read of `publish` and its
  insert is found by the second read; what follows is the same as if the first had
  found it, and `publish` is written that way here.  The conditions of the updates
  repeat what has been checked under the row lock.
-/
import AstralPlane.Repositories

namespace AstralPlane.CapabilityPublications

open Repositories
open Tx (require raise)

/-- `CapabilityPublicationState`. -/
inductive PublicationState
  | published
  | withdrawn
  | expired
  deriving DecidableEq

/-- `_PublicationIntent`. -/
structure PublicationIntent where
  (capabilityRevision metadataCiphertext metadataDigest : String)
  (publishedAt expiresAt : Time)
  deriving DecidableEq

/-- `CapabilityPublicationRecord`, without its key. -/
structure Publication extends PublicationIntent where
  state : PublicationState
  stateRevision : ℤ
  endedAt : Option Time
  endReason : Option String
  deriving DecidableEq

structure Key where
  (ownerId capabilityId audienceId : String)

abbrev Work (α : Type) := Tx (Option Publication) Failure α

def maxRevision : ℤ := 2 ^ 63 - 1

/-! ## The calls -/

def Key.check (key : Key) : Except ValidationError Unit := do
  discard (requiredId key.ownerId "owner_id")
  discard (requiredId key.capabilityId "capability_id")
  discard (requiredId key.audienceId "audience_id")

def checkRevision (value : ℤ) : Except ValidationError Unit :=
  ensure (0 ≤ value && value ≤ maxRevision)
    ⟨"expected_revision must be a bounded non-negative integer", []⟩

def PublicationIntent.check (intent : PublicationIntent) : Except ValidationError Unit := do
  discard (requiredId intent.capabilityRevision "capability_revision")
  discard (boundedText intent.metadataCiphertext "metadata_ciphertext" 65536)
  ensure (isSha256 intent.metadataDigest) ⟨"metadata_digest must be a lowercase SHA-256 digest", []⟩
  ensure (intent.publishedAt < intent.expiresAt) ⟨"expires_at must be later than published_at", []⟩

def checkReason : Option String → Except ValidationError Unit
  | none => pure ()
  | some reason => discard (boundedText reason "reason" 280 true)

def sameWithdrawal (current : Publication) (at_ : Time) (reason : Option String) : Bool :=
  current.endedAt = some at_ && current.endReason = reason

def replayRevision (currentRevision expectedRevision : ℤ) : Bool :=
  expectedRevision = currentRevision || expectedRevision = currentRevision - 1

/-- What every call does with the row it has locked: a replay returns it, and any other call moves
    it on from the expected revision. -/
def settle (expected : ℤ) (replays : Publication → Bool) (allowed : Publication → Except Failure Unit)
    (next : Publication → Publication) (current : Publication) : Work Publication :=
  if replays current && replayRevision current.stateRevision expected then pure current
  else do
    require (current.stateRevision = expected) (.conflict "capability publication revision is stale")
    .ofExcept (allowed current)
    require (current.stateRevision < maxRevision)
      (.conflict "capability publication revision is exhausted")
    let changed := { next current with stateRevision := current.stateRevision + 1 }
    Tx.set (some changed)
    pure changed

def locked : Work Publication := do
  match ← Tx.get with
  | none => raise (.notFound "owner-scoped capability publication was not found")
  | some current => pure current

variable (key : Key)

def publish (intent : PublicationIntent) (expected : ℤ) : Work Publication := do
  argument do
    key.check
    intent.check
    checkRevision expected
  match ← Tx.get with
  | none => do
    require (expected = 0) (.conflict "capability publication is absent at the requested revision")
    Tx.set (some ⟨intent, .published, 1, none, none⟩)
    pure ⟨intent, .published, 1, none, none⟩
  | some current =>
    settle expected (fun row => row.state = .published && row.toPublicationIntent = intent)
      (fun row => ensure (row.state ≠ .published)
        (.conflict "capability publication is already published"))
      (fun _ => ⟨intent, .published, 0, none, none⟩) current

def withdraw (expected : ℤ) (at_ : Time) (reason : Option String) : Work Publication := do
  argument do
    key.check
    checkRevision expected
    checkReason reason
  locked >>= settle expected (fun row => row.state = .withdrawn && sameWithdrawal row at_ reason)
    (fun row => do
      ensure (row.state = .published) (.conflict "only a published capability can be withdrawn")
      ensure (row.publishedAt ≤ at_) (.conflict "withdrawal predates the capability publication"))
    fun row => { row with state := .withdrawn, endedAt := some at_, endReason := reason }

def expire (expected : ℤ) (at_ : Time) : Work Publication := do
  argument do
    key.check
    checkRevision expected
  locked >>= settle expected (fun row => row.state = .expired && row.endedAt = some at_)
    (fun row => do
      ensure (row.state = .published) (.conflict "only a published capability can expire")
      ensure (row.expiresAt ≤ at_) (.conflict "capability publication lifetime has not elapsed"))
    fun row => { row with state := .expired, endedAt := some at_, endReason := none }

inductive Request
  | publish (intent : PublicationIntent) (expectedRevision : ℤ)
  | withdraw (expectedRevision : ℤ) (at_ : Time) (reason : Option String)
  | expire (expectedRevision : ℤ) (at_ : Time)

def Request.expectedRevision : Request → ℤ
  | .publish _ expected | .withdraw expected _ _ | .expire expected _ => expected

def exec : Request → Work Publication
  | .publish intent expected => publish key intent expected
  | .withdraw expected at_ reason => withdraw key expected at_ reason
  | .expire expected at_ => expire key expected at_

/-- A request in a transaction of its own. -/
def step (q : Request) : Option Publication → Option Publication := (exec key q).commit

/-- The revision of the row; a new one is expected at 0. -/
def revisionOf (row : Option Publication) : ℤ := (row.map (·.stateRevision)).getD 0

/-! ## What a request does -/

variable {key} {row row' : Option Publication} {r : Publication}

/-- The row is the same, or goes from the expected revision to the next. -/
def Advances (expected : ℤ) (row row' : Option Publication) : Prop :=
  row' = row ∨ expected = revisionOf row ∧ revisionOf row' = revisionOf row + 1

/-- What is returned is in the row, where the same request meets it as a replay. -/
theorem settle_ok {expected : ℤ} {replays : Publication → Bool}
    {allowed : Publication → Except Failure Unit} {next : Publication → Publication}
    {current : Publication} (hnext : ∀ row n, replays { next row with stateRevision := n })
    (h : (settle expected replays allowed next current).Ok (some current) r row') :
    row' = some r ∧ Advances expected (some current) (some r) ∧
      (settle expected replays allowed next r).Ok (some r) r (some r) := by
  unfold settle at h
  split at h
  · rename_i hreplay
    obtain ⟨rfl, rfl⟩ := Tx.ok_pure.1 h
    exact ⟨rfl, .inl rfl, by rw [settle, if_pos hreplay]; exact Tx.ok_pure.2 ⟨rfl, rfl⟩⟩
  · simp only [ok_rules] at h
    obtain ⟨_, hcurrent, _, _, _, _, _, _, rfl, rfl, rfl⟩ := h
    refine ⟨rfl, .inr ⟨(of_decide_eq_true hcurrent).symm, rfl⟩, ?_⟩
    have hreplay : replayRevision (current.stateRevision + 1) expected := by
      simp [replayRevision, of_decide_eq_true hcurrent]
    rw [settle, if_pos (by rw [hnext, hreplay]; rfl)]
    exact Tx.ok_pure.2 ⟨rfl, rfl⟩

theorem exec_ok {q : Request} (h : (exec key q).Ok row r row') :
    row' = some r ∧ Advances q.expectedRevision row (some r) ∧ (exec key q).Ok (some r) r (some r) := by
  cases q with
  | publish intent expected =>
    simp only [exec, publish, ok_rules, ok_argument] at h ⊢
    obtain ⟨u, hargs, _, rfl, h⟩ := h
    cases row with
    | none =>
      simp only [ok_rules] at h
      obtain ⟨_, hzero, _, _, rfl, rfl, rfl⟩ := h
      cases of_decide_eq_true hzero
      refine ⟨rfl, .inr ⟨rfl, rfl⟩, u, hargs, _, rfl, ?_⟩
      simp [settle, replayRevision]
    | some current =>
      obtain ⟨hrow, hadvances, hrepeat⟩ := settle_ok (by simp) h
      exact ⟨hrow, hadvances, u, hargs, _, rfl, hrepeat⟩
  | withdraw | expire =>
    simp only [exec, withdraw, expire, locked, ok_rules, ok_argument] at h ⊢
    obtain ⟨u, hargs, current, _, ⟨_, rfl, hlocked⟩, h⟩ := h
    cases row with
    | none => exact absurd hlocked Tx.ok_raise
    | some =>
      obtain ⟨rfl, rfl⟩ := Tx.ok_pure.1 hlocked
      obtain ⟨hrow, hadvances, hrepeat⟩ := settle_ok (by simp [sameWithdrawal]) h
      exact ⟨hrow, hadvances, u, hargs, r, _, ⟨_, rfl, Tx.ok_pure.2 ⟨rfl, rfl⟩⟩, hrepeat⟩

theorem step_advances (q : Request) (row : Option Publication) :
    Advances q.expectedRevision row (step key q row) := by
  rcases Tx.commit_cases (exec key q) row with ⟨r, hok⟩ | hsame
  · obtain ⟨hrow, hadvances, -⟩ := exec_ok hok
    rw [step, hrow]
    exact hadvances
  · exact .inl hsame

/-- A run that changes the row leaves it at a later revision. -/
theorem run_later (more : List Request) : ∀ row : Option Publication,
    run (step key) more row = row ∨ revisionOf row < revisionOf (run (step key) more row) := by
  induction more with
  | nil => exact fun _ => .inl rfl
  | cons q more ih =>
    intro row
    rw [run_cons]
    rcases @step_advances key q row, ih (step key q row) with ⟨hsame | ⟨-, hnext⟩, hmore | hmore⟩
    · exact .inl (hmore.trans hsame)
    · exact .inr (by rw [hsame] at hmore ⊢; exact hmore)
    · exact .inr (by rw [hmore]; omega)
    · exact .inr (by omega)

/-- **The lifecycle of a publication**, from every row: a change is made at the expected revision
    and adds one to it, a request that is repeated at once returns the same record, and one that
    named no later revision than the row had is void after a further change. -/
theorem publication_lifecycle (key : Key) (row : Option Publication) (q : Request) :
    (step key q row ≠ row → q.expectedRevision = revisionOf row ∧
      revisionOf (step key q row) = revisionOf row + 1) ∧
    (∀ r row', (exec key q).Ok row r row' → row' = some r ∧ (exec key q).Ok row' r row') ∧
    (q.expectedRevision ≤ revisionOf row → ∀ more : List Request,
      run (step key) more (step key q row) ≠ step key q row →
        step key q (run (step key) more (step key q row)) = run (step key) more (step key q row)) := by
  refine ⟨fun hne => (step_advances q row).resolve_left hne, fun r row' hok => ?_,
    fun hnow more hne => ?_⟩
  · obtain ⟨rfl, -, hrepeat⟩ := exec_ok hok
    exact ⟨rfl, hrepeat⟩
  · have hlater := (run_later more (step key q row)).resolve_left hne
    have hfirst : revisionOf row ≤ revisionOf (step key q row) := by
      rcases @step_advances key q row with hsame | ⟨-, hnext⟩
      · rw [hsame]
      · omega
    exact (step_advances q _).resolve_right fun h => by omega

def sampleIntent : PublicationIntent := ⟨"r1", "m", String.ofList (List.replicate 64 'a'), 0, 1⟩

/-- A withdrawal that found no row is repeated after a publication, and ends it. -/
theorem refused_withdrawal_applies :
    let key : Key := ⟨"owner", "capability", "audience"⟩
    let q : Request := .withdraw 1 0 none
    step key q none = none ∧ step key q (step key (.publish sampleIntent 0) none) ≠
      step key (.publish sampleIntent 0) none := by
  decide +kernel

end AstralPlane.CapabilityPublications
