/-
  What the methods of the authority repository do.

  * `BindingsStep` is what one call can do to the bindings: nothing, a new row,
    or the rewriting of one row;
  * `Step` is what one call can do, also when it raises and its caller goes on;
    `Store.step_step` shows that every call is one;
  * the bindings, effects and claims at the end are the ones that sample runs
    are made of.
-/
import AstralPlane.Authority.Repository

namespace AstralPlane.Authority

open Tx

variable {sha256 : List UInt8 → String}
variable {s s' : Store} {watermark : ReceiptSequenceWatermark} {claim : ReceiptClaim}
  {entry : Outbox.OutboxEntry} {effect : ProtectedEffectOperation} {digit : Char} {name : String}
variable {c : ReceiptClaim} {current e : ProtectedEffectOperation} {status : ProtectedEffectStatus}
  {tenantId : String}

/-! ## What one call does to the bindings -/

/-- The row may be moved to the replacement. -/
structure Replaceable (r b : BindingRow) : Prop where
  identity : r.sameIdentity b
  remote : r.remoteIdentities = b.remoteIdentities
  opened : r.state.terminal = false
  version : b.version = r.version + 1

inductive Rewrites (r : BindingRow) : Method sha256 → BindingRow → Prop
  | moved {b : AgentAuthorityBinding sha256} {version : ℤ} (h : Replaceable r b.toBindingRow) :
      Rewrites r (.transitionBinding b r.state version) (r.moved b.toBindingRow)
  | abandoned {b : AgentAuthorityBinding sha256} {version : ℤ} (h : Replaceable r b.toBindingRow)
      (hr : r.state = .provisioning) (hb : b.state = .closed) :
      Rewrites r (.abandonProvisioningBinding b version) (r.moved b.toBindingRow)
  | issued {b : AgentAuthorityBinding sha256} {version : ℤ}
      (identity : r.sameIdentity b.toBindingRow)
      (pending : r.remoteIdentities = pendingIdentities sha256 b.bindingId)
      (hr : r.state = .provisioning) (hb : b.state = .active) (hv : b.version = r.version + 1) :
      Rewrites r (.activateBinding b version) (r.issued b.toBindingRow)

/-- What one call can do to the bindings. -/
inductive BindingsStep (s : Store) (m : Method sha256) (s' : Store) : Prop
  | quiet (h : s'.bindings = s.bindings)
  | created (b : AgentAuthorityBinding sha256) (hm : m = .createBinding b)
      (fresh : ∀ r ∈ s.bindings, r.conflicts b.toBindingRow = false)
      (h : s'.bindings = s.bindings ++ [b.toBindingRow])
  | rewritten (selects : BindingRow → Bool) (written : BindingRow → BindingRow) (b : BindingRow)
      (identity : ∀ r, selects r → r.sameIdentity b)
      (hw : ∀ r, selects r → Rewrites r m (written r))
      (dated : ∀ r, s.bindings.find? selects = some r →
        (written r).createdAt ≤ (written r).updatedAt)
      (h : s'.bindings = updateWhere selects written s.bindings)

/-! ## What one call does -/

/-- Effects, claims and watermarks are as they were. -/
structure SameEvidence (s s' : Store) : Prop where
  effects : s'.effects = s.effects
  claims : s'.claims = s.claims
  watermarks : s'.watermarks = s.watermarks

/-- The watermark of a new claim is inserted, or advances the one that is there. -/
inductive Advanced (w : WatermarkRow) (rows : List WatermarkRow) : List WatermarkRow → Prop
  | first (h : rows.find? (fun r => r.key = w.key) = none) : Advanced w rows (rows ++ [w])
  | next {r : WatermarkRow} (h : rows.find? (fun r => r.key = w.key) = some r)
      (hlt : r.lastSequence < w.lastSequence) :
      Advanced w rows (updateWhere (fun r => r.key = w.key) (fun _ => w) rows)

/-- The effects after the move of an effect: the row that is found was created before. -/
structure Moved (e : EffectRow) (status : ProtectedEffectStatus) (version : ℤ)
    (rows rows' : List EffectRow) : Prop where
  dated : ∀ r, rows.find? (·.atFence e status version) = some r → r.createdAt ≤ e.updatedAt
  rows : rows' = updateWhere (·.atFence e status version) (·.moved e) rows

/-- A claim that has been accepted, with what it was accepted for. -/
structure Accepted (s s' : Store) (claim : ClaimRow) (claimed : EffectRow) : Prop where
  fresh : ∀ r ∈ s.claims, r.conflicts claim = false
  claims : s'.claims = s.claims ++ [claim]
  status : claimed.status = .receiptClaimed
  intent : claimed.ownerId = claim.ownerId ∧ claimed.bindingId = claim.bindingId ∧
    claimed.operationId = claim.operationId
  receipt : claimed.receiptId = some claim.receiptId ∧
    claimed.receiptDigest = some claim.canonicalDigest
  effects : ∃ version, Moved claimed .receiptReceived version s.effects s'.effects
  watermarks : ∃ w : WatermarkRow, w.key = claim.watermarkKey ∧
    w.lastSequence = claim.resultingSequence ∧ Advanced w s.watermarks s'.watermarks
  bindings : s'.bindings = s.bindings

inductive Step (s : Store) : Method sha256 → Store → Prop
  | quiet {m : Method sha256} {s' : Store} (h : SameEvidence s s') (hb : BindingsStep s m s') :
      Step s m s'
  | created {operation : ProtectedEffectOperation} :
      Step s (.createProtectedEffect operation)
        { s with effects := s.effects ++ [operation.toEffectRow] }
  | moved {e : ProtectedEffectOperation} {status : ProtectedEffectStatus} {version : ℤ}
      {effects : List EffectRow} (ht : e.status ∈ status.transitions)
      (h : Moved e.toEffectRow status version s.effects effects) :
      Step s (.transitionProtectedEffect e status version) { s with effects := effects }
  | claimed {claim : ReceiptClaim} {watermark : ReceiptSequenceWatermark}
      {effect : ProtectedEffectOperation} {entry : Outbox.OutboxEntry} {s' : Store}
      (h : Accepted s s' claim.row effect.toEffectRow) :
      Step s (.claimReceipt claim watermark effect entry) s'

variable {m : Method sha256}

theorem Step.refl (s : Store) : Step s m s :=
  .quiet ⟨rfl, rfl, rfl⟩ (.quiet rfl)

theorem Step.bindings (h : Step s m s') : BindingsStep s m s' := by
  cases h with
  | quiet _ hb => exact hb
  | created | moved => exact .quiet rfl
  | claimed h => exact .quiet h.bindings

/-! ### Bindings -/

theorem updateBindingSql_leaves {selects : BindingRow → Bool}
    {written : BindingRow → BindingRow} (b : BindingRow)
    (hw : ∀ r, selects r → r.sameIdentity b ∧ Rewrites r m (written r)) :
    (updateBindingSql selects written).Leaves s (Step s m) := by
  refine leaves_get_bind ?_
  split
  · exact Step.refl s
  · next r hr =>
    refine leaves_require_bind (.refl s) fun _ => leaves_require_bind (.refl s) fun hd => ?_
    refine leaves_set_bind.2 (leaves_pure.2 (.quiet ⟨rfl, rfl, rfl⟩ ?_))
    refine .rewritten selects written b (fun r h => (hw r h).1) (fun r h => (hw r h).2)
      (fun r' hr' => ?_) rfl
    cases hr.symm.trans hr'
    exact of_decide_eq_true hd

theorem readOnly_returnedBinding (replacement : AgentAuthorityBinding sha256)
    (row : Option BindingRow) {stale different : String} :
    (returnedBinding sha256 replacement row stale different).ReadOnly := by
  cases row <;> simp [returnedBinding]

theorem createBinding_leaves (b : AgentAuthorityBinding sha256) (s : Store) :
    (createBinding sha256 b).Leaves s (Step s (.createBinding b)) := by
  have hsql : (insertBindingSql b.toBindingRow).Leaves s (Step s (.createBinding b)) := by
    refine leaves_get_bind (leaves_require_bind (.refl s) fun _ => ?_)
    split
    · exact Step.refl s
    · next hnone =>
      refine leaves_set_bind.2 (leaves_pure.2 (.quiet ⟨rfl, rfl, rfl⟩ ?_))
      refine .created b rfl (fun r hr => ?_) rfl
      have hall := List.any_eq_false.1 (Bool.not_eq_true _ ▸ hnone) r hr
      simpa using hall
  refine hsql.bind_readOnly fun row => ?_
  split
  · simp
  · refine readOnly_bind (by simp [readBindingConflictSql]) fun found => ?_
    split <;> simp

/-- What the statement of `transition_binding` selects can be moved. -/
theorem replaceable_of_selected {r b : BindingRow} {state : AuthorityBindingState} {version : ℤ}
    {u : Unit} (hnext : requireNextVersion b.version version = .ok u) (hopen : state.terminal = false)
    (h : (r.sameIdentity b && decide (r.remoteIdentities = b.remoteIdentities) &&
      decide (r.state = state) && decide ((r.version : ℤ) = version))) :
    r.state = state ∧ Replaceable r b := by
  simp only [bool_to_prop] at h
  obtain ⟨⟨⟨hid, hremote⟩, hstate⟩, hversion⟩ := h
  rw [requireNextVersion, ensure_eq_ok, decide_eq_true_eq] at hnext
  refine ⟨hstate, hid, hremote, hstate ▸ hopen, ?_⟩
  omega

/-! ### Effects -/

theorem createProtectedEffect_leaves (operation : ProtectedEffectOperation) (s : Store) :
    (createProtectedEffect operation).Leaves s
      (Step s (.createProtectedEffect operation : Method sha256)) := by
  have hsql : (insertEffectSql operation.toEffectRow).Leaves s
      (Step s (.createProtectedEffect operation : Method sha256)) := by
    refine leaves_get_bind (leaves_require_bind (.refl s) fun _ => ?_)
    split
    · exact Step.refl s
    · refine leaves_require_bind (.refl s) fun _ => ?_
      exact leaves_set_bind.2 (leaves_pure.2 .created)
  refine hsql.bind_readOnly fun row => ?_
  split
  · simp
  · refine readOnly_bind (by simp [readEffectConflictSql]) fun found => ?_
    split <;> simp

theorem transitionProtectedEffect_leaves (e : ProtectedEffectOperation)
    (status : ProtectedEffectStatus) (version : ℤ) (s : Store) :
    (transitionProtectedEffect e status version).Leaves s
      (Step s (.transitionProtectedEffect e status version : Method sha256)) := by
  refine leaves_readOnly_bind (readOnly_ofExcept _) (.refl s) fun _ _ => ?_
  refine leaves_require_bind (.refl s) fun ht => ?_
  have hsql : (transitionEffectSql e.toEffectRow status version).Leaves s
      (Step s (.transitionProtectedEffect e status version : Method sha256)) := by
    refine leaves_get_bind ?_
    split
    · exact Step.refl s
    · next r hr =>
      refine leaves_require_bind (.refl s) fun _ => leaves_require_bind (.refl s) fun hd =>
        leaves_require_bind (.refl s) fun _ => ?_
      refine leaves_set_bind.2 (leaves_pure.2 (.moved (of_decide_eq_true ht) ⟨?_, rfl⟩))
      intro r' hr'
      cases hr.symm.trans hr'
      exact of_decide_eq_true hd
  refine hsql.bind_readOnly fun row => ?_
  split <;> simp

/-! ### Claims -/

theorem transitionProtectedEffect_ok {e' : ProtectedEffectOperation} {version : ℤ}
    (h : (transitionProtectedEffect e status version).Ok s e' s') :
    s' = { s with effects := s'.effects } ∧
      Moved e.toEffectRow status version s.effects s'.effects := by
  simp only [transitionProtectedEffect, transitionEffectSql, ok_rules] at h
  obtain ⟨_, -, _, -, row, _, ⟨_, rfl, hsql⟩, h⟩ := h
  split at hsql
  · obtain ⟨rfl, rfl⟩ := ok_pure.1 hsql
    exact absurd h ok_raise
  · next r hr =>
    simp only [ok_rules] at hsql
    obtain ⟨_, -, _, hd, _, -, _, _, rfl, rfl, rfl⟩ := hsql
    simp only [ok_rules] at h
    obtain ⟨_, -, _, -, -, rfl⟩ := h
    refine ⟨rfl, fun r' hr' => ?_, rfl⟩
    cases hr.symm.trans hr'
    exact of_decide_eq_true hd

theorem advanceWatermark_ok {claim : ReceiptClaimData} {u : Unit}
    (h : (advanceWatermark watermark claim).Ok s u s') :
    watermark.key = claim.sequenceWatermarkKey ∧ watermark.lastSequence = claim.resultingSequence ∧
      Advanced watermark.toWatermarkRow s.watermarks s'.watermarks ∧
      s' = { s with watermarks := s'.watermarks } := by
  simp only [advanceWatermark, advanceWatermarkSql, ok_rules] at h
  obtain ⟨_, hkey, row, _, ⟨_, rfl, hsql⟩, h⟩ := h
  obtain ⟨hkey, hlast, -⟩ := of_decide_eq_true hkey
  refine ⟨hkey, hlast, ?_⟩
  split at hsql
  · rename_i hfind
    obtain ⟨_, _, rfl, rfl, rfl⟩ := hsql
    simp only [ok_rules] at h
    obtain ⟨_, -, -, rfl⟩ := h
    exact ⟨.first hfind, rfl⟩
  · rename_i r hfind
    simp only [ok_ite, ok_rules] at hsql
    rcases hsql with ⟨⟨hlt, -⟩, _, _, rfl, rfl, rfl⟩ | ⟨-, rfl, rfl⟩
    · simp only [ok_rules] at h
      obtain ⟨_, -, -, rfl⟩ := h
      exact ⟨.next hfind hlt, rfl⟩
    · exact absurd h ok_raise

theorem enqueue_ok {n : ℕ}
    (h : (enqueue sha256 entry).Ok s n s') : s' = { s with outbox := s'.outbox } := by
  simp only [enqueue, ok_zoom] at h
  obtain ⟨t, -, rfl⟩ := h
  rfl

theorem insertClaimSql_ok {c : ClaimRow} {row : Option ClaimRow}
    (h : (insertClaimSql c).Ok s row s') : (row = none ∧ s' = s) ∨
      (row = some c ∧ s' = { s with claims := s.claims ++ [c] } ∧
        ∀ r ∈ s.claims, r.conflicts c = false) := by
  simp only [insertClaimSql, ok_rules, ok_ite] at h
  obtain ⟨_, rfl, ⟨-, rfl, rfl⟩ | ⟨hno, _, -, _, -, _, _, rfl, rfl, rfl⟩⟩ := h
  · exact .inl ⟨rfl, rfl⟩
  · refine .inr ⟨rfl, rfl, fun r hr => ?_⟩
    simpa using fun hc => hno (List.any_eq_true.2 ⟨r, hr, hc⟩)

theorem acceptClaim_ok (hfresh : ∀ r ∈ s.claims, r.conflicts claim.row = false)
    (hcur : current.ownerId = claim.ownerId ∧ current.bindingId = claim.bindingId ∧
      current.operationId = claim.operationId)
    (h : (acceptClaim sha256 claim watermark effect current entry claim.row).Ok
      { s with claims := s.claims ++ [claim.row] } c s') :
    Accepted s s' claim.row effect.toEffectRow := by
  simp only [acceptClaim, ok_rules] at h
  obtain ⟨_, -, _, -, _, hnew, _, s1, hw, _, s2, ht, _, s3, hq, -, rfl⟩ := h
  simp only [validateNewClaimTransition, ok_rules, sameEffectIntent, bool_to_prop] at hnew
  obtain ⟨_, ⟨hintent, -⟩, hcurrent, hstatus, -, hreceipt⟩ := hnew
  obtain ⟨hkey, hlast, hadv, hs1⟩ := advanceWatermark_ok hw
  obtain ⟨hs2, hmoved⟩ := transitionProtectedEffect_ok ht
  have hs3 := enqueue_ok hq
  rw [hcurrent, hs1] at hmoved
  refine ⟨hfresh, ?_, hstatus, ?_, hreceipt, ⟨current.version, ?_⟩, ⟨watermark.toWatermarkRow, hkey,
    hlast, ?_⟩, ?_⟩
  · rw [hs3, hs2, hs1]
  · rw [← hintent]; exact hcur
  · rw [hs3]; exact hmoved
  · rw [hs3, hs2]; exact hadv
  · rw [hs3, hs2, hs1]

/-- The row that `_LOCK_BINDING` finds for a claim. -/
def Store.bindingOf (s : Store) (claim : ReceiptClaim) : Option BindingRow :=
  s.bindings.find? fun r => r.ownerId = claim.ownerId && r.bindingId = claim.bindingId

/-- The row that `_LOCK_EFFECT` finds for a claim. -/
def Store.effectOf (s : Store) (claim : ReceiptClaim) : Option EffectRow :=
  s.effects.find? fun r => r.ownerId = claim.ownerId && r.operationId = claim.operationId

/-- What `_READ_CLAIM_CONFLICT` finds for a claim. -/
def Store.claimOf (s : Store) (claim : ReceiptClaim) : Option ClaimRow :=
  s.claims.find? fun r => r.ownerId = claim.ownerId && r.conflicts claim.row

def OnFile (claim : ReceiptClaim) (s : Store) : Prop :=
  ∃ row, s.claimOf claim = some row ∧ claimFromRow row = .ok claim

theorem ok_existingClaim :
    (existingClaim claim current).Ok s c s' ↔ s = s' ∧ c = claim ∧ OnFile claim s ∧
      current.status.claimed ∧ current.receiptId = some claim.receiptId ∧
        current.receiptDigest = some claim.canonicalDigest := by
  simp only [existingClaim, readClaimConflictSql, ok_rules]
  constructor
  · rintro ⟨row, _, ⟨_, rfl, hrow, rfl⟩, h⟩
    split at h
    · exact absurd h ok_raise
    · simp only [ok_rules, requireExistingClaimEffect, decide_eq_true_eq] at h
      obtain ⟨existing, hread, _, rfl, _, hevidence, rfl, rfl⟩ := h
      exact ⟨rfl, rfl, ⟨_, hrow, hread⟩, hevidence⟩
  · rintro ⟨rfl, rfl, ⟨row, hrow, hread⟩, hevidence⟩
    refine ⟨some row, s, ⟨s, rfl, hrow, rfl⟩, ?_⟩
    simp only [ok_rules, requireExistingClaimEffect, decide_eq_true_eq]
    exact ⟨c, hread, (), rfl, (), hevidence, rfl, trivial⟩

theorem bindingFromRow_eq_ok {row : BindingRow} {b : AgentAuthorityBinding sha256} :
    bindingFromRow sha256 row = .ok b ↔ row = b.toBindingRow := by
  rw [bindingFromRow]
  constructor
  · intro h
    split at h
    · cases h; rfl
    · cases h
  · rintro rfl
    rw [dif_pos b.isValid]

theorem effectFromRow_eq_ok {row : EffectRow} :
    effectFromRow row = .ok e ↔ row = e.toEffectRow := by
  rw [effectFromRow]
  constructor
  · intro h
    split at h
    · cases h; rfl
    · cases h
  · rintro rfl
    rw [dif_pos e.isValid]

/-- A claim that returns has found its binding and its effect, and they fit. -/
theorem ok_claimReceipt : (claimReceipt sha256 claim watermark effect entry).Ok s c s' ↔
      ∃ (binding : AgentAuthorityBinding sha256) (current : ProtectedEffectOperation),
        s.bindingOf claim = some binding.toBindingRow ∧
        s.effectOf claim = some current.toEffectRow ∧
        validateClaimRelationships claim.toReceiptClaimData binding.toBindingRow
          current.toEffectRow = .ok () ∧ ∃ row t, (insertClaimSql claim.row).Ok s row t ∧
          ((row = none ∧ (existingClaim claim current).Ok t c s') ∨ ∃ r, row = some r ∧
            (acceptClaim sha256 claim watermark effect current entry r).Ok t c s') := by
  simp only [claimReceipt, ok_savepoint, lockBindingSql, lockEffectSql, ok_rules]
  constructor
  · rintro ⟨bindingRow, _, ⟨_, rfl, hb, rfl⟩, effectRow, _, ⟨_, rfl, he, rfl⟩, h⟩
    split at h
    · simp only [ok_rules, bindingFromRow_eq_ok, effectFromRow_eq_ok] at h
      obtain ⟨binding, rfl, current, rfl, _, hrel, row, t, hins, h⟩ := h
      refine ⟨binding, current, hb, he, hrel, row, t, hins, ?_⟩
      cases row with
      | none => exact .inl ⟨rfl, h⟩
      | some r => exact .inr ⟨r, rfl, h⟩
    · exact absurd h ok_raise
  · rintro ⟨binding, current, hb, he, hrel, row, t, hins, h⟩
    refine ⟨_, _, ⟨_, rfl, hb, rfl⟩, _, _, ⟨_, rfl, he, rfl⟩, ?_⟩
    simp only [ok_rules, bindingFromRow_eq_ok, effectFromRow_eq_ok]
    refine ⟨binding, rfl, current, rfl, _, hrel, row, t, hins, ?_⟩
    rcases h with ⟨rfl, h⟩ | ⟨r, rfl, h⟩
    all_goals exact h

/-- **A claim that returns is a replay, or a new claim with its effect and watermark.** -/
theorem claimReceipt_ok (h : (claimReceipt sha256 claim watermark effect entry).Ok s c s') :
    (s' = s ∧ OnFile claim s) ∨ Accepted s s' claim.row effect.toEffectRow := by
  obtain ⟨binding, current, -, -, hrel, row, t, hins, hrow⟩ := ok_claimReceipt.1 h
  simp only [validateClaimRelationships, ok_rules, decide_eq_true_eq, Prod.mk.injEq] at hrel
  obtain ⟨_, -, _, -, _, -, _, -, _, -, _, -, _, -, _, hmatch, -⟩ := hrel
  rcases insertClaimSql_ok hins with ⟨rfl, rfl⟩ | ⟨rfl, rfl, hfresh⟩
  · obtain ⟨-, hok⟩ | ⟨_, hnone, -⟩ := hrow
    · obtain ⟨rfl, -, hfile, -⟩ := ok_existingClaim.1 hok
      exact .inl ⟨rfl, hfile⟩
    · cases hnone
  · obtain ⟨hnone, -⟩ | ⟨_, hsome, hok⟩ := hrow
    · cases hnone
    · cases hsome
      exact .inr (acceptClaim_ok hfresh ⟨hmatch.1, hmatch.2.2.1, hmatch.2.1⟩ hok)

/-- **A claim that raises leaves everything as it was.** -/
theorem claimReceipt_error {e : Error}
    (h : claimReceipt sha256 claim watermark effect entry s = (.error e, s')) : s' = s :=
  Tx.savepoint_error h

theorem exec_leaves (m : Method sha256) (s : Store) : (exec sha256 m).Leaves s (Step s m) := by
  cases m <;> refine Leaves.bind_readOnly ?_ fun _ => readOnly_pure _
  case createBinding => exact createBinding_leaves _ s
  case transitionBinding b state version =>
    refine leaves_readOnly_bind (readOnly_ofExcept _) (.refl s) fun _ hnext => ?_
    refine leaves_require_bind (.refl s) fun hopen => ?_
    rw [Bool.not_eq_true'] at hopen
    refine (updateBindingSql_leaves b.toBindingRow fun r hr => ?_).bind_readOnly fun row =>
      readOnly_returnedBinding b row
    obtain ⟨rfl, h⟩ := replaceable_of_selected (ok_ofExcept.1 hnext).1 hopen hr
    exact ⟨h.identity, .moved h⟩
  case activateBinding b version =>
    refine leaves_readOnly_bind (readOnly_ofExcept _) (.refl s) fun _ hnext => ?_
    refine leaves_require_bind (.refl s) fun hactive => ?_
    refine (updateBindingSql_leaves b.toBindingRow fun r hr => ?_).bind_readOnly fun row =>
      readOnly_returnedBinding b row
    simp only [bool_to_prop] at hr
    obtain ⟨⟨⟨⟨⟨⟨hid, _⟩, hpending⟩, _⟩, _⟩, hstate⟩, hversion⟩ := hr
    rw [requireNextVersion, ok_ofExcept, ensure_eq_ok, decide_eq_true_eq] at hnext
    exact ⟨hid, .issued hid hpending hstate (of_decide_eq_true hactive) (by omega)⟩
  case abandonProvisioningBinding b version =>
    refine leaves_require_bind (.refl s) fun hclosed => ?_
    refine leaves_require_bind (.refl s) fun _ => ?_
    refine leaves_readOnly_bind (readOnly_ofExcept _) (.refl s) fun _ hnext => ?_
    refine (updateBindingSql_leaves b.toBindingRow fun r hr => ?_).bind_readOnly fun row =>
      readOnly_returnedBinding b row
    obtain ⟨hstate, h⟩ := replaceable_of_selected (ok_ofExcept.1 hnext).1 rfl hr
    exact ⟨h.identity, .abandoned h hstate (of_decide_eq_true hclosed)⟩
  case createProtectedEffect => exact createProtectedEffect_leaves _ s
  case transitionProtectedEffect => exact transitionProtectedEffect_leaves _ _ _ s
  case claimReceipt claim watermark effect entry =>
    rw [Tx.Leaves]
    cases h : claimReceipt sha256 claim watermark effect entry s with
    | mk reply =>
      cases reply with
      | error =>
        rw [claimReceipt_error h]
        exact .refl s
      | ok =>
        rcases claimReceipt_ok h with ⟨rfl, -⟩ | hacc
        · exact .refl _
        · exact .claimed hacc

/-- **Every call is a step.** -/
theorem Store.step_step (call : Call sha256) (s : Store) :
    Step s call.method (s.step sha256 call) := by
  have h := exec_leaves call.method s
  rw [Store.step]
  split
  · exact h
  · exact h.commit (.refl s)

/-! ## A small store -/

/-- A stand-in for SHA-256, for running the repository on small inputs. -/
def sampleHash : List UInt8 → String := fun _ => String.ofList (List.replicate 64 '0')

def sampleDigest (digit : Char) : String := String.ofList (List.replicate 64 digit)

@[simp] theorem isSha256_sampleDigest (h : digit.isDigit) : isSha256 (sampleDigest digit) := by
  simp [isSha256, sampleDigest, h]

@[simp] theorem isLetsDigest_sampleDigest (h : digit.isDigit) :
    isLetsDigest ("sha256:" ++ sampleDigest digit) := by
  have hlist : ("sha256:" ++ sampleDigest digit).toList =
      "sha256:".toList ++ List.replicate 64 digit := by simp [sampleDigest]
  have hd : isSha256 (String.ofList (List.replicate 64 digit)) := isSha256_sampleDigest h
  rw [isLetsDigest, hlist]
  simpa using hd

/-- An active binding to the lease `lease` of the warden `warden`. -/
def bindingRow (name tenantId : String) (leaseSequence : ℕ) : BindingRow where
  bindingId := "binding-" ++ name
  ownerId := "ada"
  agentId := "agent-" ++ name
  runtimeId := "runtime"
  runtimeGeneration := 1
  population := .byoUser
  tenantId := tenantId
  envelopeId := "envelope"
  wardenId := "warden"
  leaseId := "lease"
  lineageId := "lineage"
  subjectId := "subject"
  policyDigest := "sha256:" ++ sampleDigest '1'
  machineDigest := "sha256:" ++ sampleDigest '2'
  configEpoch := 1
  capabilities := ["tool.run"]
  leaseSequence := leaseSequence
  leaseExpiresAtNs := 1000
  state := .active
  createdAt := 0
  updatedAt := 0
  version := 0

/-- An effect under that binding, whose receipt has been received. -/
def effectRow (name : String) (digit : Char) (expectedSequence : ℕ) : EffectRow where
  operationId := "operation-" ++ name
  ownerId := "ada"
  agentId := "agent-" ++ name
  bindingId := "binding-" ++ name
  toolId := "tool"
  astralScope := .execute
  letsCapability := "tool.run"
  letsTransition := "run"
  executorAudience := "audience"
  nonce := "nonce-0123456789"
  effectDigest := sampleDigest '3'
  expectedSequence := expectedSequence
  auditCorrelationId := "audit"
  status := .receiptReceived
  receiptId := some ("receipt-" ++ name)
  receiptDigest := some (sampleDigest digit)
  effectResultDigest := none
  errorCode := none
  createdAt := 0
  updatedAt := 0
  version := 3

def sampleAnchor (tenantId : String) : AnchorMetadata where
  anchorFormat := executorAnchorFormat
  audience := "audience"
  tenantId := tenantId
  envelopeId := "envelope"
  configEpoch := 1
  executorPolicySha256 := sampleDigest '4'
  trustRegistrySha256 := sampleDigest '5'
  schemaVersion := 1
  databaseInstanceId := sampleDigest '6'
  claimSequence := 1
  claimDigest := sampleDigest '7'
  clockFloorNs := some 0
  confirmedAt := 0

def claimData (name tenantId : String) (digit : Char) (resultingSequence : ℕ) :
    ReceiptClaimData where
  receiptId := "receipt-" ++ name
  operationId := "operation-" ++ name
  ownerId := "ada"
  bindingId := "binding-" ++ name
  tenantId := tenantId
  envelopeId := "envelope"
  wardenId := "warden"
  leaseId := "lease"
  subjectId := "subject"
  lineageId := "lineage"
  policyDigest := "sha256:" ++ sampleDigest '1'
  machineDigest := "sha256:" ++ sampleDigest '2'
  configEpoch := 1
  audience := "audience"
  transition := "run"
  nonce := "nonce-0123456789"
  resultingSequence := resultingSequence
  evidenceDigest := none
  issuedAtNs := 0
  expiresAtNs := 500
  claimedAt := 0
  canonicalDigest := sampleDigest digit
  authorityAnchor := sampleAnchor tenantId

def watermarkRow (lastSequence version : ℕ) : WatermarkRow :=
  ⟨"warden", "lease", "audience", lastSequence, 0, 500, version⟩

def sampleEntry (name : String) : Outbox.OutboxEntry :=
  ⟨"entry-" ++ name, "authority.receipt", [1], sampleHash [], "key-" ++ name, 0⟩

theorem bindingRow_valid {leaseSequence : ℕ}
    (h : ["binding-" ++ name, "agent-" ++ name, tenantId].all isBoundedIdentifier) :
    (bindingRow name tenantId leaseSequence).valid sampleHash := by
  have hfixed : ["ada", "runtime", "envelope", "warden", "lease", "lineage", "subject"].all
      isBoundedIdentifier ∧ canonicalCapabilities ["tool.run"] ∧
      ["warden", "lease", "lineage", "subject"].any isPendingIdentity = false := by decide +kernel
  simp_all [BindingRow.valid, BindingRow.leaseValid, bindingRow, BindingRow.remoteIdentities]

def bindingOne : AgentAuthorityBinding sampleHash :=
  ⟨bindingRow "1" "tenant-1" 0, bindingRow_valid (by decide +kernel)⟩

theorem bounded_bindingTwo :
    ["binding-" ++ "2", "agent-" ++ "2", "tenant-2"].all isBoundedIdentifier := by
  decide +kernel

def bindingTwo : AgentAuthorityBinding sampleHash :=
  ⟨bindingRow "2" "tenant-2" 1, bindingRow_valid bounded_bindingTwo⟩

theorem effectRow_valid {expectedSequence version : ℕ} (hd : digit.isDigit)
    (hs : status = .receiptReceived ∨ status = .receiptClaimed ∨ status = .executing)
    (h : ["operation-" ++ name, "agent-" ++ name, "binding-" ++ name,
      "receipt-" ++ name].all isBoundedIdentifier) : ({ effectRow name digit expectedSequence with
        status := status, version := version } : EffectRow).valid := by
  have hfixed : ["ada", "tool", "tool.run", "run", "audience", "audit"].all
      isBoundedIdentifier ∧ isEffectNonce "nonce-0123456789" := by decide +kernel
  rcases hs with rfl | rfl | rfl <;>
    simp_all [EffectRow.valid, effectRow, ProtectedEffectStatus.receiptRequired,
      ProtectedEffectStatus.receiptForbidden, ProtectedEffectStatus.errorRequired,
      ProtectedEffectStatus.outcomeRequired]

theorem claimData_valid {resultingSequence : ℕ} (hd : digit.isDigit)
    (hseq : isInteger 1 resultingSequence)
    (h : ["operation-" ++ name, "binding-" ++ name, "receipt-" ++ name,
      tenantId].all isBoundedIdentifier) :
    (claimData name tenantId digit resultingSequence).valid := by
  have hfixed : ["ada", "envelope", "warden", "lease", "subject", "lineage", "audience", "run",
      "nonce-0123456789"].all isBoundedIdentifier := by decide +kernel
  simp_all [ReceiptClaimData.valid, AnchorMetadata.valid, claimData, sampleAnchor, isInteger,
    maxBigint]
  exact hseq.2

theorem bounded_effectOne : ["operation-" ++ "1", "agent-" ++ "1", "binding-" ++ "1",
    "receipt-" ++ "1"].all isBoundedIdentifier := by
  decide +kernel

def effectOne : ProtectedEffectOperation :=
  ⟨effectRow "1" '8' 0, effectRow_valid (by decide) (.inl rfl) bounded_effectOne⟩

def effectTwo : ProtectedEffectOperation :=
  ⟨effectRow "2" '9' 1, effectRow_valid (by decide) (.inl rfl) (by decide +kernel)⟩

def claimedOne : ProtectedEffectOperation :=
  ⟨{ effectRow "1" '8' 0 with status := .receiptClaimed, version := 4 },
    effectRow_valid (by decide) (.inr (.inl rfl)) bounded_effectOne⟩

def claimedTwo : ProtectedEffectOperation :=
  ⟨{ effectRow "2" '9' 1 with status := .receiptClaimed, version := 4 },
    effectRow_valid (by decide) (.inr (.inl rfl)) (by decide +kernel)⟩

def claimOne : ReceiptClaim :=
  ⟨claimData "1" "tenant-1" '8' 1, claimData_valid (by decide) (by decide) (by decide +kernel)⟩

def claimTwo : ReceiptClaim :=
  ⟨claimData "2" "tenant-2" '9' 2, claimData_valid (by decide) (by decide) (by decide +kernel)⟩

def watermarkOne : ReceiptSequenceWatermark := ⟨watermarkRow 1 0, by decide +kernel⟩

def watermarkTwo : ReceiptSequenceWatermark := ⟨watermarkRow 2 1, by decide +kernel⟩

/-- The store with both bindings and effects. -/
def preparedStore : Store :=
  { Store.empty with
    bindings := [bindingOne.toBindingRow, bindingTwo.toBindingRow]
    effects := [effectOne.toEffectRow, effectTwo.toEffectRow] }

end AstralPlane.Authority
