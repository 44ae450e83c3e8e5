/-
  Offline grants (`repositories/offline_grants.py`).

  A grant carries an encrypted refresh token for a window of time, and may bound how
  often it is charged.  The row of one grant is followed, which every statement names,
  or selects by its owner alone (`revoke_owner`), and with it the times of the calls
  that charged it: they are as many as the row counts, and lie in the window as long as
  none comes before the grant was issued.  The reads of a grant are left out.
-/
import AstralPlane.Repositories

namespace AstralPlane.OfflineGrants

open Repositories
open Tx (require raise)

/-- What `create_grant` is asked for. -/
structure GrantRequest where
  ownerId : String
  agentId : Option String
  encryptedRefreshToken : List UInt8
  (issuedAt expiresAt : Time)
  maxAdmissions : Option ℕ
  deriving DecidableEq

/-- `OfflineGrantRecord`, without its identity. -/
structure Grant extends GrantRequest where
  revokedAt : Option Time
  (createdAt updatedAt : Time)
  consumedAdmissions : Option ℕ
  deriving DecidableEq

/-- `OfflineGrantRevocationState`. -/
inductive RevocationState
  | revoked
  | alreadyRevoked
  | missing

/-- The row of the grant in `user_offline_grant`. -/
abbrev Work (α : Type) := Tx (Option Grant) Failure α

/-! ## The calls -/

def opaqueBytes (value : List UInt8) : Except ValidationError Unit := do
  ensure (value ≠ []) ⟨"encrypted_refresh_token must not be empty", []⟩
  ensure (value.length ≤ 1000000) ⟨"encrypted_refresh_token exceeds its maximum length", []⟩

def GrantRequest.check (q : GrantRequest) : Except ValidationError Unit := do
  discard (requiredId q.ownerId "owner_id")
  q.agentId.forM fun agent => discard (requiredId agent "agent_id")
  opaqueBytes q.encryptedRefreshToken
  discard (nonNegativeInt q.issuedAt "issued_at")
  discard (nonNegativeInt q.expiresAt "expires_at")
  ensure (q.issuedAt < q.expiresAt) ⟨"expires_at must be later than issued_at", []⟩
  ensure (q.maxAdmissions.all fun limit => 1 ≤ limit && limit ≤ 10000)
    ⟨"max_admissions must be between 1 and 10000", []⟩

def storedInt (value : ℤ) : Except Failure Unit :=
  ensure (0 ≤ value) (.data "persisted grant timestamp is not a non-negative integer")

def Grant.check (row : Grant) : Except Failure Unit := do
  storedInt row.issuedAt
  storedInt row.expiresAt
  ensure (row.issuedAt < row.expiresAt) (.data "persisted offline grant expiry is invalid")
  (opaqueBytes row.encryptedRefreshToken).mapError fun _ =>
    .data "persisted offline grant ciphertext is invalid"
  ensure (row.maxAdmissions.isNone = row.consumedAdmissions.isNone &&
      row.maxAdmissions.all fun limit => row.consumedAdmissions.all (· ≤ limit))
    (.data "persisted offline grant allowance is inconsistent")
  row.revokedAt.forM storedInt
  storedInt row.createdAt
  storedInt row.updatedAt

/-- `_grant`. -/
def grant (row : Grant) : Work Grant := do
  .ofExcept row.check
  pure row

def GrantRequest.newGrant (q : GrantRequest) : Grant :=
  ⟨q, none, q.issuedAt, q.issuedAt, q.maxAdmissions.map fun _ => 0⟩

/-- The record that is there afterwards.  A replay is compared in every field but the bound. -/
def createGrant (q : GrantRequest) : Work Grant := do
  argument q.check
  require (q.issuedAt ≤ maxBigint && q.expiresAt ≤ maxBigint) (.database "22003")
  match ← Tx.get with
  | none => do
    Tx.set (some q.newGrant)
    grant q.newGrant
  | some row => do
    require (row.ownerId = q.ownerId)
      (.conflict "offline grant identity is bound to another owner")
    let record ← grant row
    require ({ record.toGrantRequest with maxAdmissions := q.maxAdmissions } = q)
      (.conflict "offline grant replay changed immutable semantics")
    pure record

/-- `UPDATE user_offline_grant … WHERE user_id AND revoked_at IS NULL AND … RETURNING`. -/
def updateGrant (ownerId : String) (now : Time) (selects : Grant → Bool) (written : Grant → Grant) :
    Work (Option Grant) := do
  match (← Tx.get).filter fun g => g.ownerId = ownerId && g.revokedAt.isNone && selects g with
  | none => pure none
  | some g => do
    require (now ≤ maxBigint) (.database "22003")
    Tx.set (some { written g with updatedAt := now })
    Tx.get

def checkCall (ownerId field : String) (time : Time) : Except ValidationError Unit := do
  discard (requiredId ownerId "owner_id")
  discard (nonNegativeInt time field)

def Grant.consumed (g : Grant) : ℕ := g.consumedAdmissions.getD 0

def Grant.charged (g : Grant) : Grant :=
  { g with consumedAdmissions := if g.maxAdmissions.isSome then some (g.consumed + 1)
                                 else g.consumedAdmissions }

def consumeAdmission (ownerId : String) (asOf : Time) : Work Grant := do
  argument (checkCall ownerId "as_of" asOf)
  let row ← updateGrant ownerId asOf
    (fun g => asOf < g.expiresAt && g.maxAdmissions.all (g.consumed < ·)) Grant.charged
  match row with
  | some row => grant row
  | none => do
    match (← Tx.get).filter (·.ownerId = ownerId) with
    | none => raise (.conflict "offline grant is unavailable")
    | some existing => do
      let record ← grant existing
      require (record.revokedAt.isNone && record.issuedAt ≤ asOf && asOf < record.expiresAt)
        (.conflict "offline grant is unavailable")
      raise (.conflict "offline grant allowance exhausted")

def replaceRefreshTokenIfCurrent (ownerId : String) (expected replacement : List UInt8)
    (asOf : Time) : Work (Option Grant) := do
  argument do
    discard (requiredId ownerId "owner_id")
    opaqueBytes expected
    opaqueBytes replacement
    discard (nonNegativeInt asOf "as_of")
  let row ← updateGrant ownerId asOf
    (fun g => g.encryptedRefreshToken = expected && asOf < g.expiresAt) fun g =>
      { g with encryptedRefreshToken := replacement }
  .ofExcept (row.forM Grant.check)
  pure row

/-- The update of `revoke_grant` and `revoke_owner`: whether it wrote the row. -/
def revoke (ownerId : String) (revokedAt : Time) : Work Bool := do
  argument (checkCall ownerId "revoked_at" revokedAt)
  let row ← updateGrant ownerId revokedAt (fun _ => true) fun g =>
    { g with revokedAt := some revokedAt }
  pure row.isSome

def revokeGrant (ownerId : String) (revokedAt : Time) : Work RevocationState := do
  let revoked ← revoke ownerId revokedAt
  let row ← Tx.get
  pure (if revoked then .revoked
    else if row.any (·.ownerId = ownerId) then .alreadyRevoked else .missing)

/-- What the row adds to the count of the rows that were revoked. -/
def revokeOwner (ownerId : String) (revokedAt : Time) : Work ℕ := do
  let revoked ← revoke ownerId revokedAt
  pure revoked.toNat

inductive Call
  | createGrant (q : GrantRequest)
  | consumeAdmission (ownerId : String) (asOf : Time)
  | replaceRefreshTokenIfCurrent (ownerId : String) (expected replacement : List UInt8) (asOf : Time)
  | revokeGrant (ownerId : String) (revokedAt : Time)
  | revokeOwner (ownerId : String) (revokedAt : Time)

/-- The row, and the times of the calls of `consume_admission` that returned. -/
structure State where
  row : Option Grant := none
  charges : List Time := []

/-- A call in a transaction of its own. -/
def step : Call → State → State
  | .createGrant q, s => { s with row := (createGrant q).commit s.row }
  | .consumeAdmission owner asOf, s =>
    match consumeAdmission owner asOf s.row with
    | (.ok _, row) => ⟨row, s.charges ++ [asOf]⟩
    | (.error _, _) => s
  | .replaceRefreshTokenIfCurrent owner expected replacement asOf, s =>
    { s with row := (replaceRefreshTokenIfCurrent owner expected replacement asOf).commit s.row }
  | .revokeGrant owner now, s => { s with row := (revokeGrant owner now).commit s.row }
  | .revokeOwner owner now, s => { s with row := (revokeOwner owner now).commit s.row }

/-! ## What the calls keep -/

variable {s : State} {row row' : Option Grant} {g r : Grant} {q : GrantRequest}

/-- The charges of a grant are those it counts, within its bound and in its window. -/
structure Charged (s : State) : Prop where
  current : ∀ asOf ∈ s.charges, ∃ g, s.row = some g ∧ g.issuedAt ≤ asOf ∧ asOf < g.expiresAt
  counted : ∀ g limit, s.row = some g → g.maxAdmissions = some limit →
    g.consumedAdmissions = some s.charges.length ∧ s.charges.length ≤ limit

/-- Its owner does not charge the grant before it was issued, or ask for it again with another
    bound. -/
def proper (s : State) : Call → Bool
  | .createGrant q => s.row.all fun g => g.ownerId ≠ q.ownerId || g.maxAdmissions = q.maxAdmissions
  | .consumeAdmission owner asOf => s.row.all fun g => g.ownerId ≠ owner || g.issuedAt ≤ asOf
  | _ => true

/-- A proper call leaves the charges in order, and any call leaves a revoked grant alone. -/
structure Keeps (isProper : Prop) (s s' : State) : Prop where
  sound : isProper → Charged s → Charged s'
  final : ∀ g, s.row = some g → g.revokedAt ≠ none → s' = s

theorem Keeps.refl {P : Prop} : Keeps P s s := ⟨fun _ h => h, fun _ _ _ => rfl⟩

theorem grant_ok (h : (grant g).Ok row r row') : r = g ∧ row' = row := by
  simp only [grant, ok_rules] at h
  obtain ⟨_, -, rfl, rfl⟩ := h
  exact ⟨rfl, rfl⟩

theorem createGrant_ok (h : (createGrant q).Ok row r row') :
    row' = some r ∧ { r.toGrantRequest with maxAdmissions := q.maxAdmissions } = q ∧
      (row' = row ∨ row = none ∧ r = q.newGrant) := by
  simp only [createGrant, ok_rules, ok_argument] at h
  obtain ⟨_, -, _, -, _, rfl, h⟩ := h
  cases row with
  | none =>
    simp only [ok_rules] at h
    obtain ⟨_, _, rfl, h⟩ := h
    obtain ⟨rfl, rfl⟩ := grant_ok h
    exact ⟨rfl, rfl, .inr ⟨rfl, rfl⟩⟩
  | some row =>
    simp only [ok_rules] at h
    obtain ⟨_, -, record, _, hgrant, _, hsame, rfl, rfl⟩ := h
    obtain ⟨rfl, rfl⟩ := grant_ok hgrant
    exact ⟨rfl, of_decide_eq_true hsame, .inl rfl⟩

section
variable {ownerId : String} {now : Time} {selects : Grant → Bool} {written : Grant → Grant}
  {reply : Option Grant}

theorem updateGrant_ok (h : (updateGrant ownerId now selects written).Ok row reply row') :
    reply = none ∧ row' = row ∨ ∃ g, row = some g ∧ (g.ownerId = ownerId ∧ g.revokedAt = none) ∧
      selects g ∧ row' = some { written g with updatedAt := now } ∧ reply = row' := by
  simp only [updateGrant, ok_rules] at h
  obtain ⟨_, rfl, h⟩ := h
  split at h
  · obtain ⟨rfl, rfl⟩ := Tx.ok_pure.1 h
    exact .inl ⟨rfl, rfl⟩
  · rename_i g hg
    simp only [ok_rules] at h
    obtain ⟨_, -, _, _, rfl, rfl, rfl⟩ := h
    obtain ⟨hrow, hselects⟩ := Option.filter_eq_some_iff.1 hg
    simp only [bool_to_prop, Option.isNone_iff_eq_none] at hselects
    exact .inr ⟨g, hrow, hselects.1, hselects.2, rfl, rfl⟩

/-- An update that is no charge. -/
theorem keeps_update {P : Prop} (h : (updateGrant ownerId now selects written).Ok s.row reply row')
    (hsame : ∀ g, (written g).issuedAt = g.issuedAt ∧ (written g).expiresAt = g.expiresAt ∧
      (written g).maxAdmissions = g.maxAdmissions ∧
      (written g).consumedAdmissions = g.consumedAdmissions) : Keeps P s { s with row := row' } := by
  rcases updateGrant_ok h with ⟨-, rfl⟩ | ⟨g, hg, ⟨-, hopen⟩, -, rfl, -⟩
  · exact .refl
  obtain ⟨hissued, hexpires, hmax, hconsumed⟩ := hsame g
  refine ⟨fun _ hs => ⟨fun asOf hmem => ?_, ?_⟩, fun g' hg' hr => ?_⟩
  · obtain ⟨g', hg', hwindow⟩ := hs.current asOf hmem
    cases hg.symm.trans hg'
    exact ⟨_, rfl, by simpa only [hissued, hexpires] using hwindow⟩
  · rintro _ limit ⟨⟩ hlimit
    simp only [hmax, hconsumed] at hlimit ⊢
    exact hs.counted g limit hg hlimit
  · cases hg.symm.trans hg'
    exact absurd hopen hr

end

theorem consumeAdmission_ok {ownerId : String} {asOf : Time}
    (h : (consumeAdmission ownerId asOf).Ok row r row') :
    ∃ g, row = some g ∧ (g.ownerId = ownerId ∧ g.revokedAt = none) ∧ asOf < g.expiresAt ∧
      (∀ limit, g.maxAdmissions = some limit → g.consumed < limit) ∧
      row' = some { g.charged with updatedAt := asOf } := by
  simp only [consumeAdmission, ok_rules, ok_argument] at h
  obtain ⟨_, -, _, _, hupdate, h⟩ := h
  rcases updateGrant_ok hupdate with ⟨rfl, rfl⟩ | ⟨g, hg, hopen, hselects, rfl, rfl⟩
  · simp only [ok_rules] at h
    obtain ⟨_, rfl, h⟩ := h
    split at h
    · exact absurd h Tx.ok_raise
    · simp only [ok_rules] at h
      obtain ⟨_, _, -, _, _, h⟩ := h
      exact absurd h Tx.ok_raise
  · obtain ⟨-, rfl⟩ := grant_ok h
    simp only [bool_to_prop, Option.all_eq_true] at hselects
    exact ⟨g, hg, hopen, hselects.1, hselects.2, rfl⟩

theorem step_keeps (c : Call) (s : State) : Keeps (proper s c) s (step c s) := by
  have hcommit : ∀ {P : Prop} {α : Type} {x : Work α},
      (∀ r row', x.Ok s.row r row' → Keeps P s { s with row := row' }) →
        Keeps P s { s with row := x.commit s.row } :=
    Tx.commit_of_ok (P := fun row => Keeps _ s { s with row := row }) .refl
  cases c with
  | createGrant q =>
    refine hcommit fun r row' h => ?_
    obtain ⟨rfl, -, hsame | ⟨hnone, rfl⟩⟩ := createGrant_ok h
    · rw [hsame]
      exact .refl
    · refine ⟨fun _ hs => ?_, fun g hg => by cases hnone.symm.trans hg⟩
      have hnil : s.charges = [] := List.eq_nil_iff_forall_not_mem.2 fun asOf hmem => by
        obtain ⟨_, hg, -⟩ := hs.current asOf hmem
        cases hnone.symm.trans hg
      refine ⟨by simp [hnil], ?_⟩
      rintro _ limit ⟨⟩ hlimit
      have hmax : q.maxAdmissions = some limit := hlimit
      simp [GrantRequest.newGrant, hmax, hnil]
  | consumeAdmission owner asOf =>
    rw [step]
    split
    swap
    · exact .refl
    rename_i r row' h
    obtain ⟨g, hg, ⟨rfl, hopen⟩, hexpires, hlimit, rfl⟩ := consumeAdmission_ok h
    refine ⟨fun hproper hs => ⟨fun time hmem => ?_, ?_⟩, fun g' hg' hr => ?_⟩
    · rcases List.mem_append.1 hmem with hmem | hmem
      · obtain ⟨g', hg', hwindow⟩ := hs.current time hmem
        cases hg.symm.trans hg'
        exact ⟨_, rfl, hwindow⟩
      · cases List.mem_singleton.1 hmem
        have hissued : g.issuedAt ≤ asOf := by simpa [proper, hg] using hproper
        exact ⟨_, rfl, hissued, hexpires⟩
    · rintro _ limit ⟨⟩ hlimit'
      have hmax : g.maxAdmissions = some limit := hlimit'
      have hleft := hlimit limit hmax
      simp only [Grant.consumed, (hs.counted g limit hg hmax).1, Option.getD_some] at hleft
      simpa [Grant.charged, Grant.consumed, (hs.counted g limit hg hmax).1, hmax] using Nat.succ_le_of_lt hleft
    · cases hg.symm.trans hg'
      exact absurd hopen hr
  | replaceRefreshTokenIfCurrent =>
    refine hcommit fun r row' h => ?_
    simp only [replaceRefreshTokenIfCurrent, ok_rules, ok_argument] at h
    obtain ⟨_, -, _, _, hupdate, _, -, -, rfl⟩ := h
    exact keeps_update hupdate fun _ => ⟨rfl, rfl, rfl, rfl⟩
  | revokeGrant =>
    refine hcommit fun r row' h => ?_
    simp only [revokeGrant, revoke, ok_rules, ok_argument] at h
    obtain ⟨_, _, ⟨_, -, _, _, hupdate, -, rfl⟩, _, rfl, -, rfl⟩ := h
    exact keeps_update hupdate fun _ => ⟨rfl, rfl, rfl, rfl⟩
  | revokeOwner =>
    refine hcommit fun r row' h => ?_
    simp only [revokeOwner, revoke, ok_rules, ok_argument] at h
    obtain ⟨_, _, ⟨_, -, _, _, hupdate, -, rfl⟩, -, rfl⟩ := h
    exact keeps_update hupdate fun _ => ⟨rfl, rfl, rfl, rfl⟩

/-- **The authority of a grant**, in a run of proper calls: its charges are those it counts, within
    its bound and its window, and end with its revocation, after which nothing changes it; a record
    that is created is the one asked for, and a token is replaced from the current one. -/
theorem offline_grant_authority {calls : List Call} (hcalls : Allowed step (proper · ·) calls {}) :
    let s := run step calls {}
    Charged s ∧
    (∀ g, s.row = some g → g.revokedAt ≠ none → ∀ later : List Call, run step later s = s) ∧
    (∀ q r row', proper s (.createGrant q) → (createGrant q).Ok s.row r row' →
      row' = some r ∧ r.toGrantRequest = q) ∧
    ∀ ownerId expected replacement asOf r row',
      (replaceRefreshTokenIfCurrent ownerId expected replacement asOf).Ok s.row (some r) row' →
        s.row.map (·.encryptedRefreshToken) = some expected := by
  refine ⟨?_, ?_, ?_, ?_⟩
  · refine hcalls.keeps (fun c s hc hs => (step_keeps c s).sound hc hs) ⟨by simp, ?_⟩
    rintro _ _ ⟨⟩
  · intro g hg hr later
    exact run_keeps (P := (· = run step calls {})) (fun c s' h => by
      subst h
      exact (step_keeps c _).final g hg hr) later rfl
  · intro q r row' hp hok
    obtain ⟨rfl, hsame, hold | ⟨-, rfl⟩⟩ := createGrant_ok hok
    · have howner : r.ownerId = q.ownerId := by rw [← hsame]
      have hmax : r.maxAdmissions = q.maxAdmissions := by simpa [proper, ← hold, howner] using hp
      exact ⟨rfl, by rw [← hsame, ← hmax]⟩
    · exact ⟨rfl, rfl⟩
  · intro ownerId expected replacement asOf r row' hok
    simp only [replaceRefreshTokenIfCurrent, ok_rules, ok_argument] at hok
    obtain ⟨_, -, _, _, hupdate, _, -, rfl, rfl⟩ := hok
    rcases updateGrant_ok hupdate with ⟨hnone, -⟩ | ⟨g, hg, -, hselects, -⟩
    · cases hnone
    · simp only [bool_to_prop] at hselects
      rw [hg, Option.map_some, hselects.1]

def sample (maxAdmissions : ℕ) : GrantRequest := ⟨"owner", none, [0], 5, 9, some maxAdmissions⟩

theorem offline_grant_authority_sample :
    Charged (run step [.createGrant (sample 1), .consumeAdmission "owner" 5] {}) :=
  (offline_grant_authority (by decide +kernel)).1

/-- A grant is charged before it is issued, and asked for again with another bound. -/
theorem offline_grant_slips :
    (run step [.createGrant (sample 1), .consumeAdmission "owner" 0] {}).charges = [0] ∧
    (createGrant (sample 2)).reply (run step [.createGrant (sample 1)] {}).row =
      .ok (sample 1).newGrant := by
  decide +kernel

end AstralPlane.OfflineGrants
