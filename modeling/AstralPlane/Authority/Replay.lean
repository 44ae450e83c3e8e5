/-
  Repeated claims of one receipt.

  `claim_receipt` checks the binding and the effect as they stand before it looks
  for the claim, and compares the effect with the receipt once it has found it.
  A repeated claim therefore never writes, but is answered only while the binding
  and the effect are where the claim needs them (`Answerable`).  The rest of what
  is checked stays as it was at the first claim, over all later calls (`Tied`).
-/
import AstralPlane.Authority.Evidence
import AstralPlane.Authority.Bindings

namespace AstralPlane.Authority

open Tx

variable {sha256 : List UInt8 → String} {s s' : Store} {m : Method sha256}
  {claim : ReceiptClaim} {b : BindingRow} {e r : EffectRow}

/-! ## What is checked -/

/-- The lease is still the one that the receipt was issued under. -/
structure Leased (claim : ReceiptClaim) (b : BindingRow) (e : EffectRow) : Prop where
  active : b.state = .active
  sequence : e.expectedSequence = b.leaseSequence
  expiry : claim.expiresAtNs ≤ b.leaseExpiresAtNs

/-- What a repeated claim needs: the lease, and an effect that is past the claim of this receipt. -/
structure Answerable (claim : ReceiptClaim) (b : BindingRow) (e : EffectRow) : Prop where
  leased : Leased claim b e
  evidence : e.status.claimed ∧ e.receiptId = some claim.receiptId ∧
    e.receiptDigest = some claim.canonicalDigest

/-- Of what is checked only the lease can have changed, once the check has been passed. -/
theorem validateClaimRelationships_iff {b0 : BindingRow} {e0 : EffectRow} {u v : Unit}
    (h0 : validateClaimRelationships claim.toReceiptClaimData b0 e0 = .ok u)
    (hi : e.toEffectIntent = e0.toEffectIntent) :
    validateClaimRelationships claim.toReceiptClaimData (b0.moved b) e = .ok v ↔
      Leased claim b e := by
  obtain ⟨i⟩ := e
  cases hi
  simp only [validateClaimRelationships, ok_rules, decide_eq_true_eq] at h0 ⊢
  obtain ⟨_, h1, _, -, _, h3, _, h4, _, -, _, h6, _, -, _, h8, h9⟩ := h0
  constructor
  · rintro ⟨_, -, _, h2, _, -, _, -, _, h5, _, -, _, h7, -⟩
    exact ⟨h2, h5, h7⟩
  · rintro ⟨h2, h5, h7⟩
    exact ⟨(), h1, (), h2, (), h3, (), h4, (), h5, (), h6, (), h7, (), h8, h9⟩

/-- A claim can be read back: the columns that its anchor has not are those of the claim. -/
theorem claimFromRow_row (claim : ReceiptClaim) : claimFromRow claim.row = .ok claim := by
  have hv := claim.isValid
  simp only [ReceiptClaimData.valid, bool_to_prop, Prod.mk.injEq] at hv
  obtain ⟨⟨⟨⟨-, ha, ht, he, hc⟩, -⟩, -⟩, -⟩ := hv
  have hanchor : claim.row.anchor = claim.authorityAnchor := by
    simp only [ClaimRow.anchor, ReceiptClaimData.row, ← ha, ← ht, ← he, ← hc]
  have hdata : claim.row.data = claim.toReceiptClaimData := by
    rw [ClaimRow.data, hanchor]
    rfl
  have hvalid : claim.row.data.valid := by
    rw [hdata]
    exact claim.isValid
  rw [claimFromRow, dif_pos hvalid]
  obtain ⟨data, hv⟩ := claim
  simp only [Except.ok.injEq, ReceiptClaim.mk.injEq]
  exact hdata

/-- The binding of the claim, which has been issued, and its effect: what they were when the claim
    was checked, but for the lease and the state of the effect. -/
def Tied (sha256 : List UInt8 → String) (claim : ReceiptClaim) (s : Store) : Prop :=
  ∃ b₀ e₀, validateClaimRelationships claim.toReceiptClaimData b₀ e₀ = .ok () ∧
    ∃ (b : AgentAuthorityBinding sha256) (e : ProtectedEffectOperation),
      s.bindingOf claim = some b.toBindingRow ∧ b.toBindingRow = b₀.moved b.toBindingRow ∧
      b.state ≠ .provisioning ∧ s.effectOf claim = some e.toEffectRow ∧
      e.toEffectIntent = e₀.toEffectIntent

/-! ## The call -/

section Call
variable {watermark : ReceiptSequenceWatermark} {effect : ProtectedEffectOperation}
  {entry : Outbox.OutboxEntry} {c : ReceiptClaim}

theorem OnFile.conflicts (h : OnFile claim s) : ∃ row ∈ s.claims, row.conflicts claim.row := by
  obtain ⟨row, hrow, -⟩ := h
  have hp := List.find?_some hrow
  simp only [Bool.and_eq_true] at hp
  exact ⟨row, List.mem_of_find?_eq_some hrow, hp.2⟩

theorem OnFile.unchanged (h : OnFile claim s) :
    (claimReceipt sha256 claim watermark effect entry s).2 = s := by
  cases hrun : claimReceipt sha256 claim watermark effect entry s with
  | mk reply =>
    cases reply with
    | error => exact claimReceipt_error hrun
    | ok =>
      refine ((claimReceipt_ok hrun).resolve_right fun ha => ?_).1
      obtain ⟨row, hmem, hconf⟩ := h.conflicts
      cases (ha.fresh row hmem).symm.trans hconf

/-- A claim that is on file is answered only while its binding and effect stand. -/
theorem OnFile.answerable (h : OnFile claim s) (hb : s.bindingOf claim = some b)
    (he : s.effectOf claim = some e)
    (hok : (claimReceipt sha256 claim watermark effect entry).Ok s c s') : Answerable claim b e := by
  obtain ⟨binding, current, hb', he', hrel, row, t, hins, hrow⟩ := ok_claimReceipt.1 hok
  cases hb.symm.trans hb'
  cases he.symm.trans he'
  rcases insertClaimSql_ok hins with ⟨rfl, rfl⟩ | ⟨-, -, hfresh⟩
  · obtain ⟨-, hexisting⟩ | ⟨_, hnone, -⟩ := hrow
    · exact ⟨(validateClaimRelationships_iff hrel rfl).1 hrel, (ok_existingClaim.1 hexisting).2.2.2⟩
    · cases hnone
  · obtain ⟨row, hmem, hconf⟩ := h.conflicts
    rw [hfresh row hmem] at hconf
    cases hconf

end Call

/-! ## Later calls -/

theorem OnFile.step (h : OnFile claim s) (hs : Step s m s') : OnFile claim s' := by
  obtain ⟨row, hrow, hread⟩ := h
  refine ⟨row, ?_, hread⟩
  rw [Store.claimOf] at hrow ⊢
  cases hs with
  | quiet hq => rw [hq.claims]; exact hrow
  | created | moved => exact hrow
  | claimed ha => rw [ha.claims, List.find?_append, hrow]; rfl

theorem Rewrites.moved_of_issued {r r' : BindingRow} (h : Rewrites r m r')
    (hr : r.state ≠ .provisioning) :
    ∃ b : AgentAuthorityBinding sha256, Replaceable r b.toBindingRow ∧
      r' = r.moved b.toBindingRow := by
  cases h with
  | @moved b version h => exact ⟨b, h, rfl⟩
  | abandoned _ hp => exact absurd hp hr
  | issued _ _ hp => exact absurd hp hr

theorem Replaceable.valid {r : BindingRow} {b : AgentAuthorityBinding sha256}
    (h : Replaceable r b.toBindingRow) (hv : r.valid sha256) (hd : r.createdAt ≤ b.updatedAt) :
    (r.moved b.toBindingRow).valid sha256 := by
  simp only [BindingRow.valid, bool_to_prop] at hv ⊢
  exact ⟨⟨hv.1.1, h.leaseValid⟩, hd⟩

/-- An issued binding stays where a claim finds it, and is only moved. -/
theorem BindingsStep.bindingOf {b : AgentAuthorityBinding sha256} (hs : BindingsStep s m s')
    (hb : s.bindingOf claim = some b.toBindingRow) (hp : b.state ≠ .provisioning) :
    ∃ b' : AgentAuthorityBinding sha256, s'.bindingOf claim = some b'.toBindingRow ∧
      b'.toBindingRow = b.moved b'.toBindingRow ∧ b'.state ≠ .provisioning := by
  rw [Store.bindingOf] at hb ⊢
  cases hs with
  | quiet heq => exact ⟨b, by rw [heq]; exact hb, rfl, hp⟩
  | created _ _ _ heq => exact ⟨b, by rw [heq, List.find?_append, hb]; rfl, rfl, hp⟩
  | rewritten selects written x identity hw dated heq =>
    rw [heq, find?_updateWhere fun r hr => by rw [(hw r hr).kept.1, (hw r hr).kept.2.1], hb,
      Option.map_some]
    by_cases hsel : selects b.toBindingRow
    · have hfind : s.bindings.find? selects = some b.toBindingRow := by
        refine find?_of_imp hb (fun r hr => ?_) hsel
        obtain ⟨hid, howner, -⟩ := BindingRow.sameIdentity_iff (identity _ hsel)
        obtain ⟨hid', howner', -⟩ := BindingRow.sameIdentity_iff (identity r hr)
        have hp := List.find?_some hb
        rwa [hid, howner, ← hid', ← howner'] at hp
      have hd := dated _ hfind
      obtain ⟨y, hy, hwritten⟩ := (hw _ hsel).moved_of_issued hp
      rw [if_pos hsel]
      rw [hwritten] at hd ⊢
      exact ⟨⟨_, hy.valid b.isValid hd⟩, rfl, rfl, hy.entering b.leaseValid hp⟩
    · rw [if_neg hsel]
      exact ⟨b, rfl, rfl, hp⟩

theorem Moved.effectOf {next old : ProtectedEffectOperation} {status : ProtectedEffectStatus}
    {version : ℤ} {t : Store} (hm : Moved next.toEffectRow status version s.effects t.effects)
    (he : s.effectOf claim = some old.toEffectRow) :
    ∃ e : ProtectedEffectOperation, t.effectOf claim = some e.toEffectRow ∧
      e.toEffectIntent = old.toEffectIntent := by
  rw [Store.effectOf] at he ⊢
  have hkey : ∀ r : EffectRow, r.atFence next.toEffectRow status version →
      (decide ((r.moved next.toEffectRow).ownerId = claim.ownerId) &&
        decide ((r.moved next.toEffectRow).operationId = claim.operationId)) =
      (decide (r.ownerId = claim.ownerId) && decide (r.operationId = claim.operationId)) :=
    fun _ _ => rfl
  rw [hm.rows, find?_updateWhere hkey, he, Option.map_some]
  by_cases hat : old.atFence next.toEffectRow status version
  · have hfind := find?_of_imp he (p := (·.atFence next.toEffectRow status version)) (fun r hr => ?_) hat
    · rw [if_pos hat]
      have hi := (EffectRow.atFence_iff.1 hat).1
      have hvalid : (old.moved next.toEffectRow).valid := by
        have hv := next.isValid
        simp only [EffectRow.valid, EffectRow.moved, hi, Bool.and_eq_true] at hv ⊢
        exact ⟨hv.1, decide_eq_true (hm.dated _ hfind)⟩
      exact ⟨⟨_, hvalid⟩, rfl, rfl⟩
    · have hp := List.find?_some he
      have hi := (EffectRow.atFence_iff.1 hat).1.trans (EffectRow.atFence_iff.1 hr).1.symm
      have howner := congrArg EffectIntent.ownerId hi
      have hop := congrArg EffectIntent.operationId hi
      rwa [howner, hop] at hp
  · rw [if_neg hat]
    exact ⟨old, rfl, rfl⟩

theorem Step.effectOf {old : ProtectedEffectOperation} (hs : Step s m s')
    (he : s.effectOf claim = some old.toEffectRow) :
    ∃ e : ProtectedEffectOperation, s'.effectOf claim = some e.toEffectRow ∧
      e.toEffectIntent = old.toEffectIntent := by
  cases hs with
  | quiet hq => exact ⟨old, by rw [Store.effectOf, hq.effects]; exact he, rfl⟩
  | created =>
    rw [Store.effectOf] at he ⊢
    exact ⟨old, by rw [List.find?_append, he]; rfl, rfl⟩
  | moved _ hm => exact hm.effectOf (t := { s with effects := _ }) he
  | claimed ha =>
    obtain ⟨version, hm⟩ := ha.effects
    exact hm.effectOf he

theorem Tied.step (h : Tied sha256 claim s) (hs : Step s m s') : Tied sha256 claim s' := by
  obtain ⟨b0, e0, hrel, b, e, hb, hmoved, hp, he, hi⟩ := h
  obtain ⟨b', hb', hmoved', hp'⟩ := hs.bindings.bindingOf hb hp
  obtain ⟨e', he', hi'⟩ := hs.effectOf he
  rw [hmoved] at hmoved'
  exact ⟨b0, e0, hrel, b', e', hb', hmoved', hp', he', hi'.trans hi⟩

theorem onFile_of_ok {watermark : ReceiptSequenceWatermark} {effect : ProtectedEffectOperation}
    {entry : Outbox.OutboxEntry} {c : ReceiptClaim}
    (h : (claimReceipt sha256 claim watermark effect entry).Ok s c s') :
    OnFile claim s' ∧ Tied sha256 claim s' := by
  obtain ⟨b, e, hb, he, hrel, -⟩ := ok_claimReceipt.1 h
  have hleased := (validateClaimRelationships_iff hrel rfl).1 hrel
  have htied : Tied sha256 claim s :=
    ⟨_, _, hrel, b, e, hb, rfl, by rw [hleased.active]; decide, he, rfl⟩
  rcases claimReceipt_ok h with ⟨rfl, hfile⟩ | ha
  · exact ⟨hfile, htied⟩
  · refine ⟨⟨claim.row, ?_, claimFromRow_row claim⟩,
      htied.step (m := .claimReceipt claim watermark effect entry) (.claimed ha)⟩
    have hnone : s.claims.find? (fun r => r.ownerId = claim.ownerId && r.conflicts claim.row) =
        none := List.find?_eq_none.2 fun r hr => by simp [ha.fresh r hr]
    have hrow : claim.row.ownerId = claim.ownerId := rfl
    rw [Store.claimOf, ha.claims, List.find?_append, hnone]
    simp [ClaimRow.conflicts, hrow]

/-- **A repeated claim.**  After a claim has returned and any further calls, the same claim writes
    nothing, and returns exactly while the lease of its binding is the one that the receipt was issued
    under and its effect is past the claim with that receipt. -/
theorem claim_replay (sha256 : List UInt8 → String) {s s' : Store} {claim c : ReceiptClaim}
    {watermark : ReceiptSequenceWatermark} {effect : ProtectedEffectOperation}
    {entry : Outbox.OutboxEntry}
    (h : (claimReceipt sha256 claim watermark effect entry).Ok s c s') (later : List (Call sha256)) :
    (claimReceipt sha256 claim watermark effect entry (s'.run sha256 later)).2 =
        s'.run sha256 later ∧
      ∃ b e, (s'.run sha256 later).bindingOf claim = some b ∧
        (s'.run sha256 later).effectOf claim = some e ∧
        ((claimReceipt sha256 claim watermark effect entry).Ok (s'.run sha256 later) claim
          (s'.run sha256 later) ↔ Answerable claim b e) := by
  obtain ⟨hfile, htied⟩ := run_keeps (P := fun s => OnFile claim s ∧ Tied sha256 claim s)
    (fun call s h => ⟨h.1.step (s.step_step call), h.2.step (s.step_step call)⟩) later
    (onFile_of_ok h)
  obtain ⟨b₀, e₀, hrel, b, e, hb, hmoved, -, he, hi⟩ := htied
  refine ⟨hfile.unchanged, b.toBindingRow, e.toEffectRow, hb, he, hfile.answerable hb he, fun ha => ?_⟩
  have hrel' := (validateClaimRelationships_iff (v := ()) hrel hi).2 ha.leased
  rw [← hmoved] at hrel'
  refine ok_claimReceipt.2 ⟨b, e, hb, he, hrel', none, s'.run sha256 later, ?_, .inl ⟨rfl, ?_⟩⟩
  · simpa [insertClaimSql, Store.run] using hfile.conflicts
  · exact ok_existingClaim.2 ⟨rfl, rfl, hfile, ha.evidence⟩

/-! ### The first receipt -/

def claimFirstReceipt : Work ReceiptClaim :=
  claimReceipt sampleHash claimOne watermarkOne claimedOne (sampleEntry "1")

theorem ok_claimFirstReceipt : ∃ c, claimFirstReceipt.Ok preparedStore c claimedStore := by
  have hne : claimedStore ≠ preparedStore := fun h => by cases congrArg Store.claims h
  have hstep := step_claimOne
  rw [Store.step, if_neg Bool.false_ne_true] at hstep
  obtain ⟨_, hok⟩ := (commit_cases _ preparedStore).resolve_right fun h => hne (hstep.symm.trans h)
  rw [hstep] at hok
  obtain ⟨c, _, hclaim, hpure⟩ := ok_bind.1 hok
  obtain ⟨-, rfl⟩ := ok_pure.1 hpure
  exact ⟨c, hclaim⟩

theorem claim_replay_started :
    claimFirstReceipt.Ok (claimedStore.run sampleHash [startOne '8' rfl]) claimOne
      (claimedStore.run sampleHash [startOne '8' rfl]) := by
  obtain ⟨c, hok⟩ := ok_claimFirstReceipt
  obtain ⟨-, b, e, hb, he, hiff⟩ := claim_replay sampleHash hok [startOne '8' rfl]
  have hb' : (claimedStore.run sampleHash [startOne '8' rfl]).bindingOf claimOne =
      some bindingOne.toBindingRow := by decide +kernel
  have he' : (claimedStore.run sampleHash [startOne '8' rfl]).effectOf claimOne =
      some (executingOne '8' rfl).toEffectRow := by decide +kernel
  cases hb.symm.trans hb'
  cases he.symm.trans he'
  exact hiff.2 ⟨⟨rfl, rfl, by decide⟩, rfl, rfl, rfl⟩

def denyOne : Call sampleHash :=
  ⟨.transitionProtectedEffect
    ⟨{ claimedOne.toEffectRow with status := .denied, errorCode := some "denied", version := 5 },
      by decide +kernel⟩ claimedOne.status claimedOne.version, false⟩

/-- The call that renews the lease of `bindingOne`, as a second claim under it needs. -/
def renewOne : Call sampleHash :=
  ⟨.transitionBinding ⟨{ bindingRow "1" "tenant-1" 1 with version := 1 },
    bindingRow_valid (by decide +kernel)⟩ .active 0, false⟩

/-- A claim is not answered again once its effect has been denied, or once its lease has been
    renewed. -/
theorem claim_replay_refused :
    (∀ c s, ¬ claimFirstReceipt.Ok (Store.empty.run sampleHash (claimFirst ++ [denyOne])) c s) ∧
      ∀ c s, ¬ claimFirstReceipt.Ok (Store.empty.run sampleHash (claimFirst ++ [renewOne])) c s := by
  obtain ⟨c, hok⟩ := ok_claimFirstReceipt
  have hfile : ∀ call, OnFile claimOne (claimedStore.step sampleHash call) := fun call =>
    (onFile_of_ok hok).1.step (claimedStore.step_step call)
  rw [Store.run_append, Store.run_append, run_claimFirst]
  refine ⟨fun c s h => ?_, fun c s h => ?_⟩
  · have hrows : (claimedStore.step sampleHash denyOne).bindingOf claimOne =
          some bindingOne.toBindingRow ∧
        ((claimedStore.step sampleHash denyOne).effectOf claimOne).map (·.status) = some .denied := by
      decide +kernel
    obtain ⟨e, he, hstatus⟩ := Option.map_eq_some_iff.1 hrows.2
    have hclaimed := ((hfile denyOne).answerable hrows.1 he h).evidence.1
    rw [hstatus] at hclaimed
    cases hclaimed
  · have hrows : ((claimedStore.step sampleHash renewOne).bindingOf claimOne).map (·.leaseSequence) =
          some 1 ∧
        (claimedStore.step sampleHash renewOne).effectOf claimOne = some claimedOne.toEffectRow := by
      decide +kernel
    obtain ⟨b, hb, hsequence⟩ := Option.map_eq_some_iff.1 hrows.1
    have hleased := ((hfile renewOne).answerable hb hrows.2 h).leased.sequence
    rw [hsequence] at hleased
    cases hleased

end AstralPlane.Authority
