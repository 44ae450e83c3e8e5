/-
  Receipts as the evidence for protected effects, over whole runs.

  * `Fenced`: the claims of a warden, lease and audience have distinct receipts
    and growing sequences, and the watermark is the last of them;
  * `Backed`: an effect that has passed the claim of its receipt has the claim.
    The repository keeps this for callers that enter `receipt_claimed` through
    `claim_receipt` and do not exchange the receipt later (`Disciplined`).
-/
import AstralPlane.Authority.Receipts

namespace AstralPlane.Authority

open List

variable {sha256 : List UInt8 → String}
  {s s' : Store} {c : ClaimRow} {e r : EffectRow} {status : ProtectedEffectStatus}

/-! ## The anti-replay watermark -/

/-- The claims of a scope, in the order in which they were accepted. -/
def Store.scope (s : Store) (key : WatermarkKey) : List ClaimRow :=
  s.claims.filter fun c => c.watermarkKey = key

/-- The sequence that the watermark of a scope stands at. -/
def Store.watermark (s : Store) (key : WatermarkKey) : Option ℕ :=
  (s.watermarks.find? fun w => w.key = key).map (·.lastSequence)

/-- The claims are fenced by their receipts, nonces and watermarks. -/
structure Fenced (s : Store) : Prop where
  receipts : (s.claims.map (·.receiptId)).Nodup
  nonces : (s.claims.map (·.nonceKey)).Nodup
  sequences : s.claims.Pairwise fun a b => a.watermarkKey = b.watermarkKey →
    a.resultingSequence < b.resultingSequence
  watermark : ∀ key, s.watermark key = ((s.scope key).map (·.resultingSequence)).getLast?

theorem fenced_empty : Fenced .empty := ⟨.nil, .nil, .nil, fun _ => rfl⟩

theorem max?_of_pairwise_lt {l : List ℕ} (h : l.Pairwise (· < ·)) : l.max? = l.getLast? := by
  cases hl : l.getLast? with
  | none => rw [List.getLast?_eq_none_iff.1 hl]; rfl
  | some a =>
    obtain ⟨l', rfl⟩ := List.getLast?_eq_some_iff.1 hl
    refine List.max?_eq_some_iff.2 ⟨by simp, fun b hb => ?_⟩
    rcases mem_append.1 hb with hb | hb
    · exact Nat.le_of_lt ((pairwise_append.1 h).2.2 b hb a (mem_singleton_self a))
    · exact (mem_singleton.1 hb).le

theorem Fenced.scope_sequences (h : Fenced s) (key : WatermarkKey) :
    ((s.scope key).map (·.resultingSequence)).Pairwise (· < ·) := by
  refine pairwise_map.2 ((h.sequences.filter _).imp_of_mem fun ha hb hlt => hlt ?_)
  exact (of_decide_eq_true (mem_filter.1 ha).2).trans (of_decide_eq_true (mem_filter.1 hb).2).symm

/-- The watermark of a scope is the greatest sequence that was accepted in it. -/
theorem Fenced.watermark_max (h : Fenced s) (key : WatermarkKey) :
    s.watermark key = ((s.scope key).map (·.resultingSequence)).max? := by
  rw [h.watermark key, max?_of_pairwise_lt (h.scope_sequences key)]

theorem Fenced.below (h : Fenced s) {w : WatermarkRow} {rows : List WatermarkRow}
    (hw : Advanced w s.watermarks rows) (hc : c ∈ s.claims)
    (hkey : c.watermarkKey = w.key) : c.resultingSequence < w.lastSequence := by
  have hmem : c.resultingSequence ∈ (s.scope w.key).map (·.resultingSequence) :=
    mem_map_of_mem (mem_filter.2 ⟨hc, decide_eq_true hkey⟩)
  have hmax := h.watermark_max w.key
  cases hw with
  | first hfind =>
    rw [Store.watermark, hfind, Option.map_none] at hmax
    rw [List.max?_eq_none_iff.1 hmax.symm] at hmem
    cases hmem
  | next hfind hlt =>
    rw [Store.watermark, hfind, Option.map_some] at hmax
    exact Nat.lt_of_le_of_lt ((List.max?_eq_some_iff.1 hmax.symm).2 _ hmem) hlt

/-- The advanced watermark stands in its scope, and the other scopes are as they were. -/
theorem Advanced.find? {w : WatermarkRow} {rows rows' : List WatermarkRow}
    (h : Advanced w rows rows') (key : WatermarkKey) : rows'.find? (fun r => r.key = key) =
      if key = w.key then some w else rows.find? fun r => r.key = key := by
  cases h with
  | first hfind =>
    by_cases hk : key = w.key
    · subst hk
      simp [hfind]
    · have : ¬ w.key = key := fun he => hk he.symm
      simp [hk, this]
  | next hfind =>
    rw [find?_updateWhere fun r hr => by rw [of_decide_eq_true hr]]
    by_cases hk : key = w.key
    · subst hk
      rw [hfind, if_pos rfl, Option.map_some]
      have := List.find?_some hfind
      rw [if_pos this]
    · rw [if_neg hk]
      cases hf : rows.find? fun r => r.key = key with
      | none => rfl
      | some r =>
        have hr := List.find?_some hf
        have hr : r.key = key := of_decide_eq_true hr
        rw [Option.map_some, if_neg]
        simpa [hr] using hk

theorem ClaimRow.conflicts_eq_false {r : ClaimRow} (h : r.conflicts c = false) :
    r.receiptId ≠ c.receiptId ∧ r.nonceKey ≠ c.nonceKey := by
  simp only [ClaimRow.conflicts, Bool.or_eq_false_iff, decide_eq_false_iff_not] at h
  exact ⟨h.1.1.1.1, h.1.2⟩

theorem nodup_snoc {α κ : Type} {l : List α} {a : α} {key : α → κ} (hl : (l.map key).Nodup)
    (ha : ∀ b ∈ l, key b ≠ key a) : ((l ++ [a]).map key).Nodup := by
  rw [map_append, nodup_append]
  refine ⟨hl, nodup_singleton _, fun k hk k' hk' => ?_⟩
  obtain ⟨b, hb, rfl⟩ := mem_map.1 hk
  rw [mem_singleton.1 hk']
  exact ha b hb

/-- **An accepted claim is beyond every claim of its scope.** -/
theorem Accepted.beyond {claim : ClaimRow} {effect : EffectRow} (h : Fenced s)
    (ha : Accepted s s' claim effect) : ∀ c ∈ s.claims, c.watermarkKey = claim.watermarkKey →
      c.resultingSequence < claim.resultingSequence := by
  obtain ⟨w, hkey, hlast, hadv⟩ := ha.watermarks
  intro c hc hck
  rw [← hlast]
  exact h.below hadv hc (hck.trans hkey.symm)

theorem Accepted.fenced {claim : ClaimRow} {effect : EffectRow} (h : Fenced s)
    (ha : Accepted s s' claim effect) : Fenced s' := by
  refine ⟨?_, ?_, ?_, fun key => ?_⟩
  · rw [ha.claims]
    exact nodup_snoc h.receipts fun r hr => (ClaimRow.conflicts_eq_false (ha.fresh r hr)).1
  · rw [ha.claims]
    exact nodup_snoc h.nonces fun r hr => (ClaimRow.conflicts_eq_false (ha.fresh r hr)).2
  · rw [ha.claims]
    refine pairwise_append.2 ⟨h.sequences, pairwise_singleton _ _, fun a hac b hb => ?_⟩
    rw [mem_singleton.1 hb]
    exact ha.beyond h a hac
  · obtain ⟨w, hkey, hlast, hadv⟩ := ha.watermarks
    rw [Store.watermark, hadv.find? key, Store.scope, ha.claims, filter_append]
    by_cases hk : key = w.key
    · have hck : claim.watermarkKey = key := hkey.symm.trans hk.symm
      rw [if_pos hk]
      simp [hck, hlast]
    · have hck : ¬ claim.watermarkKey = key := fun he => hk (he.symm.trans hkey.symm)
      have hnil : [claim].filter (fun c => c.watermarkKey = key) = [] := by simp [hck]
      rw [if_neg hk, hnil, append_nil]
      exact h.watermark key

theorem SameEvidence.fenced (hs : SameEvidence s s') (h : Fenced s) : Fenced s' := by
  obtain ⟨-, hc, hw⟩ := hs
  obtain ⟨h1, h2, h3, h4⟩ := h
  refine ⟨by rw [hc]; exact h1, by rw [hc]; exact h2, by rw [hc]; exact h3, fun key => ?_⟩
  rw [Store.watermark, Store.scope, hc, hw]
  exact h4 key

variable {m : Method sha256}

theorem Step.fenced (hs : Step s m s') (h : Fenced s) : Fenced s' := by
  cases hs with
  | quiet hq => exact hq.fenced h
  | created | moved => exact ⟨h.receipts, h.nonces, h.sequences, h.watermark⟩
  | claimed ha => exact ha.fenced h

theorem Step.claims (hs : Step s m s') (h : Fenced s) :
    s'.claims = s.claims ∨ ∃ claim, s'.claims = s.claims ++ [claim] ∧
      ∀ c ∈ s.claims, c.watermarkKey = claim.watermarkKey →
        c.resultingSequence < claim.resultingSequence := by
  cases hs with
  | quiet hq => exact .inl hq.claims
  | created | moved => exact .inl rfl
  | claimed ha => exact .inr ⟨_, ha.claims, ha.beyond h⟩

/-- Receipts cannot be replayed at a state. -/
structure AntiReplay (sha256 : List UInt8 → String) (s : Store) : Prop where
  receipts : (s.claims.map (·.receiptId)).Nodup
  /-- Claims of one tenant, envelope and audience have distinct nonces. -/
  nonces : (s.claims.map (·.nonceKey)).Nodup
  sequences : ∀ key, ((s.scope key).map (·.resultingSequence)).Nodup
  /-- A call adds one claim at most, which is beyond all earlier ones of its scope. -/
  advances : ∀ call : Call sha256, (s.step sha256 call).claims = s.claims ∨
    ∃ claim, (s.step sha256 call).claims = s.claims ++ [claim] ∧
      ∀ c ∈ s.claims, c.watermarkKey = claim.watermarkKey →
        c.resultingSequence < claim.resultingSequence
  watermark : ∀ key, s.watermark key = ((s.scope key).map (·.resultingSequence)).max?
  /-- A claim that raises leaves every row as it was. -/
  atomic : ∀ claim watermark effect entry e s',
    claimReceipt sha256 claim watermark effect entry s = (.error e, s') → s' = s

/-- **The watermark keeps receipts from being replayed**, over every interleaving of calls. -/
theorem receipt_watermark (sha256 : List UInt8 → String) (calls : List (Call sha256)) :
    AntiReplay sha256 (Store.empty.run sha256 calls) := by
  have h : Fenced (Store.empty.run sha256 calls) :=
    run_keeps (fun call s h => (s.step_step call).fenced h) calls fenced_empty
  exact {
    receipts := h.receipts
    nonces := h.nonces
    sequences := fun key => (h.scope_sequences key).imp fun hlt => Nat.ne_of_lt hlt
    advances := fun call => (Store.step_step call _).claims h
    watermark := h.watermark_max
    atomic := fun _ _ _ _ _ _ he => claimReceipt_error he }

/-! ### Two tenants that share a lease -/

def claimedStore : Store :=
  { preparedStore with
    effects := [claimedOne.toEffectRow, effectTwo.toEffectRow]
    claims := [claimOne.row]
    watermarks := [watermarkOne.toWatermarkRow]
    outbox := [.ofEntry (sampleEntry "1")] }

def preparation : List (Call sampleHash) :=
  [⟨.createBinding bindingOne, false⟩, ⟨.createBinding bindingTwo, false⟩,
    ⟨.createProtectedEffect effectOne, false⟩, ⟨.createProtectedEffect effectTwo, false⟩]

theorem run_preparation : Store.empty.run sampleHash preparation = preparedStore := by
  decide +kernel

theorem step_claimOne : preparedStore.step sampleHash
    ⟨.claimReceipt claimOne watermarkOne claimedOne (sampleEntry "1"), false⟩ = claimedStore := by
  decide +kernel

theorem step_claimTwo : (claimedStore.step sampleHash
    ⟨.claimReceipt claimTwo watermarkTwo claimedTwo (sampleEntry "2"), false⟩).claims =
      [claimOne.row, claimTwo.row] := by
  decide +kernel

/-- Two tenants that share a lease claim receipts with one nonce: the nonces of a scope need not be
    distinct. -/
theorem shared_nonce :
    ((Store.empty.run sampleHash (preparation ++
      [⟨.claimReceipt claimOne watermarkOne claimedOne (sampleEntry "1"), false⟩,
        ⟨.claimReceipt claimTwo watermarkTwo claimedTwo (sampleEntry "2"), false⟩])).scope
          ("warden", "lease", "audience")).map (·.nonce) =
      ["nonce-0123456789", "nonce-0123456789"] := by
  rw [Store.run_append, run_preparation, Store.run_step sampleHash step_claimOne,
    Store.run_step sampleHash rfl, Store.run_nil, Store.scope, step_claimTwo]
  have hk₁ : claimOne.row.watermarkKey = ("warden", "lease", "audience") := rfl
  have hk₂ : claimTwo.row.watermarkKey = ("warden", "lease", "audience") := rfl
  have hn₁ : claimOne.row.nonce = "nonce-0123456789" := rfl
  have hn₂ : claimTwo.row.nonce = "nonce-0123456789" := rfl
  simp [hk₁, hk₂, hn₁, hn₂]

/-! ## Effects whose receipt has been claimed -/

/-- The claim is the evidence for the effect: same binding, same effect, same receipt. -/
structure ClaimRow.Backs (c : ClaimRow) (e : EffectRow) : Prop where
  ownerId : c.ownerId = e.ownerId
  bindingId : c.bindingId = e.bindingId
  operationId : c.operationId = e.operationId
  receiptId : e.receiptId = some c.receiptId
  receiptDigest : e.receiptDigest = some c.canonicalDigest

/-- Every effect that has passed the claim of its receipt has the claim. -/
def Backed (s : Store) : Prop :=
  ∀ e ∈ s.effects, e.status.claimed → ∃ c ∈ s.claims, c.Backs e

/-- What the repository leaves to its callers: an effect is not created beyond the claim of its
    receipt, enters `receipt_claimed` through `claim_receipt` only, and keeps its receipt. -/
def Disciplined (s : Store) : Method sha256 → Prop
  | .createProtectedEffect operation => operation.status.claimed = false
  | .transitionProtectedEffect e status version => e.status ≠ .receiptClaimed ∧
      ∀ r ∈ s.effects, r.atFence e.toEffectRow status version → r.status.claimed →
        r.receiptId = e.receiptId ∧ r.receiptDigest = e.receiptDigest
  | .createBinding _ | .transitionBinding .. | .activateBinding .. | .abandonProvisioningBinding ..
  | .claimReceipt .. => True

/-- A run whose calls are all disciplined where they are made. -/
def DisciplinedRun : List (Call sha256) → Store → Prop :=
  Allowed (Store.step sha256) fun s call => Disciplined s call.method

theorem EffectRow.atFence_iff {version : ℤ} :
    r.atFence e status version ↔ r.toEffectIntent = e.toEffectIntent ∧
      r.status = status ∧ (r.version : ℤ) = version := by
  simp [EffectRow.atFence, and_assoc]

/-- The claim backs an effect that keeps its intent and receipt. -/
theorem ClaimRow.Backs.moved (h : c.Backs r)
    (hid : r.receiptId = e.receiptId) (hdigest : r.receiptDigest = e.receiptDigest) :
    c.Backs (r.moved e) :=
  ⟨h.ownerId, h.bindingId, h.operationId, hid ▸ h.receiptId, hdigest ▸ h.receiptDigest⟩

/-- An effect that is claimed after a transition other than the claim was claimed before. -/
theorem claimed_of_transition {next : ProtectedEffectStatus} (h : next ∈ status.transitions)
    (hc : next.claimed) (hn : next ≠ .receiptClaimed) : status.claimed := by
  revert h hc hn
  cases status <;> cases next <;> decide

theorem Step.backed (hs : Step s m s') (hd : Disciplined s m) (h : Backed s) : Backed s' := by
  cases hs with
  | quiet hq =>
    intro e he hc
    rw [hq.effects] at he
    rw [hq.claims]
    exact h e he hc
  | created =>
    intro e he hc
    rcases mem_append.1 he with he | he
    · exact h e he hc
    · rw [mem_singleton.1 he] at hc
      exact absurd (hc.symm.trans hd) (by decide)
  | moved ht hm =>
    intro e he hc
    rw [hm.rows] at he
    rcases mem_updateWhere.1 he with ⟨r, hr, hp, rfl⟩ | ⟨he, -⟩
    · have hstatus : r.status.claimed := by
        rw [(EffectRow.atFence_iff.1 hp).2.1]
        exact claimed_of_transition ht hc hd.1
      obtain ⟨c, hmem, hb⟩ := h r hr hstatus
      obtain ⟨hid, hdigest⟩ := hd.2 r hr hp hstatus
      exact ⟨c, hmem, hb.moved hid hdigest⟩
    · exact h e he hc
  | claimed ha =>
    intro e he hc
    obtain ⟨version, -, heff⟩ := ha.effects
    rw [heff] at he
    rw [ha.claims]
    rcases mem_updateWhere.1 he with ⟨r, -, hp, rfl⟩ | ⟨he, -⟩
    · refine ⟨_, mem_append_right _ (mem_singleton_self _), ?_⟩
      have hintent := (EffectRow.atFence_iff.1 hp).1
      obtain ⟨ho, hb, hop⟩ := ha.intent
      rw [← hintent] at ho hb hop
      exact ⟨ho.symm, hb.symm, hop.symm, ha.receipt.1, ha.receipt.2⟩
    · obtain ⟨c, hmem, hb⟩ := h e he hc
      exact ⟨c, mem_append_left _ hmem, hb⟩

/-- The effect has kept its receipt since it was claimed. -/
structure Kept (e e' : EffectRow) : Prop where
  intent : e'.toEffectIntent = e.toEffectIntent
  receiptId : e'.receiptId = e.receiptId
  receiptDigest : e'.receiptDigest = e.receiptDigest
  /-- It is still beyond the claim, or has been denied for good. -/
  settled : e'.status.claimed ∨ e'.status.transitions = []

/-- No transition leads back behind the claim. -/
theorem settled_of_transition {next : ProtectedEffectStatus} (h : next ∈ status.transitions)
    (hc : status.claimed) : next.claimed ∨ next.transitions = [] := by
  revert h hc
  cases status <;> cases next <;> decide

theorem Kept.moved {next : EffectRow} (h : Kept e r) (ht : next.status ∈ r.status.transitions)
    (hr : r.status.claimed → r.receiptId = next.receiptId ∧
      r.receiptDigest = next.receiptDigest) : Kept e (r.moved next) := by
  have hc : r.status.claimed := by
    refine h.settled.resolve_right fun hnil => ?_
    rw [hnil] at ht
    cases ht
  obtain ⟨hid, hdigest⟩ := hr hc
  exact ⟨h.intent, hid.symm.trans h.receiptId, hdigest.symm.trans h.receiptDigest,
    settled_of_transition ht hc⟩

theorem Step.kept (hs : Step s m s') (hd : Disciplined s m) (h : ∃ r ∈ s.effects, Kept e r) :
    ∃ r' ∈ s'.effects, Kept e r' := by
  obtain ⟨r, hr, hk⟩ := h
  cases hs with
  | quiet hq => exact ⟨r, by rw [hq.effects]; exact hr, hk⟩
  | created => exact ⟨r, mem_append_left _ hr, hk⟩
  | @moved next status version _ ht hm =>
    rw [hm.rows]
    by_cases hp : r.atFence next.toEffectRow status version
    · refine ⟨_, mem_updateWhere.2 (.inl ⟨r, hr, hp, rfl⟩), hk.moved ?_ (hd.2 r hr hp)⟩
      rw [(EffectRow.atFence_iff.1 hp).2.1]
      exact ht
    · exact ⟨r, mem_updateWhere.2 (.inr ⟨hr, by simpa using hp⟩), hk⟩
  | claimed ha =>
    obtain ⟨version, -, heff⟩ := ha.effects
    refine ⟨r, ?_, hk⟩
    rw [heff]
    refine mem_updateWhere.2 (.inr ⟨hr, Bool.eq_false_iff.2 fun hp => ?_⟩)
    -- a receipt is claimed from `receipt_received`, where the effect no longer is
    have hst := (EffectRow.atFence_iff.1 hp).2.1
    rcases hk.settled with hc | hc <;> rw [hst] at hc <;> revert hc <;> decide

/-- **Protected effects need a claimed receipt**: in a disciplined run, an effect that has passed
    the claim of its receipt has the claim, and both keep the receipt ever after. -/
theorem protected_effects_claimed (sha256 : List UInt8 → String) (calls later : List (Call sha256))
    (hd : DisciplinedRun (calls ++ later) .empty) :
    ∀ e ∈ (Store.empty.run sha256 calls).effects, e.status.claimed = true →
      ∃ c ∈ (Store.empty.run sha256 calls).claims, c.Backs e ∧
        c ∈ (Store.empty.run sha256 (calls ++ later)).claims ∧
        ∃ e' ∈ (Store.empty.run sha256 (calls ++ later)).effects,
          e'.toEffectIntent = e.toEffectIntent ∧ e'.receiptId = e.receiptId ∧
          e'.receiptDigest = e.receiptDigest := by
  obtain ⟨hcalls, hlater⟩ := allowed_append.1 hd
  intro e he hc
  obtain ⟨c, hmem, hb⟩ := hcalls.keeps (fun call s hd h => (s.step_step call).backed hd h)
    (fun _ he => absurd he not_mem_nil) e he hc
  refine ⟨c, hmem, hb, ?_, ?_⟩
  · rw [Store.run_append]
    refine run_keeps (P := fun s : Store => c ∈ s.claims) (fun call s h => ?_) later hmem
    have hstep := s.step_step call
    generalize call.method = m, s.step sha256 call = s' at hstep ⊢
    cases hstep with
    | quiet hq => rw [hq.claims]; exact h
    | created | moved => exact h
    | claimed ha => rw [ha.claims]; exact mem_append_left _ h
  · obtain ⟨e', he', hk⟩ := hlater.keeps (fun call s hd h => (s.step_step call).kept hd h)
      ⟨e, he, rfl, rfl, rfl, .inl hc⟩
    rw [Store.run_append]
    exact ⟨e', he', hk.intent, hk.receiptId, hk.receiptDigest⟩

/-- `claimedOne` at work, under the given receipt digest. -/
def executingOne (digit : Char) (hd : digit.isDigit) : ProtectedEffectOperation :=
  ⟨{ effectRow "1" digit 0 with status := .executing, version := 5 },
    effectRow_valid hd (.inr (.inr rfl)) bounded_effectOne⟩

/-- The call that starts the effect under that digest. -/
def startOne (digit : Char) (hd : digit.isDigit) : Call sampleHash :=
  ⟨.transitionProtectedEffect (executingOne digit hd) claimedOne.status claimedOne.version, false⟩

def claimFirst : List (Call sampleHash) :=
  preparation ++ [⟨.claimReceipt claimOne watermarkOne claimedOne (sampleEntry "1"), false⟩]

theorem run_claimFirst : Store.empty.run sampleHash claimFirst = claimedStore := by
  rw [claimFirst, Store.run_append, run_preparation, Store.run_step sampleHash step_claimOne,
    Store.run_nil]

theorem protected_effects_claimed_small :
    ∃ c ∈ (Store.empty.run sampleHash claimFirst).claims, c.Backs claimedOne.toEffectRow := by
  have hlater : DisciplinedRun [startOne '8' rfl] (Store.empty.run sampleHash claimFirst) := by
    rw [run_claimFirst]
    refine ⟨⟨by decide, fun r hr _ hc => ?_⟩, trivial⟩
    rcases mem_cons.1 hr with rfl | hr
    · exact ⟨rfl, rfl⟩
    · rw [mem_singleton.1 hr] at hc
      cases hc
  have hmem : claimedOne.toEffectRow ∈ (Store.empty.run sampleHash claimFirst).effects := by
    rw [run_claimFirst]
    exact mem_cons_self
  obtain ⟨c, hc, hb, -⟩ := protected_effects_claimed sampleHash claimFirst _
    (allowed_append.2 ⟨⟨trivial, trivial, rfl, rfl, trivial, trivial⟩, hlater⟩) _ hmem rfl
  exact ⟨c, hc, hb⟩

theorem not_backed (he : e ∈ s.effects) (hc : e.status.claimed)
    (hn : ∀ c ∈ s.claims, e.receiptDigest ≠ some c.canonicalDigest) : ¬ Backed s := fun h => by
  obtain ⟨c, hmem, hb⟩ := h e he hc
  exact hn c hmem hb.receiptDigest

/-- The three ways around the claim: an effect created beyond it, a transition to
    `receipt_claimed` without one, and a later transition that names another receipt. -/
theorem unclaimed_effects :
    ¬ Backed (Store.empty.run sampleHash
        [⟨.createBinding bindingOne, false⟩, ⟨.createProtectedEffect claimedOne, false⟩]) ∧
      ¬ Backed (Store.empty.run sampleHash
        (preparation ++ [⟨.transitionProtectedEffect claimedOne effectOne.status effectOne.version,
        false⟩])) ∧
      ¬ Backed (Store.empty.run sampleHash (claimFirst ++ [startOne '7' rfl])) := by
  have hcreate : Store.empty.run sampleHash
      [⟨.createBinding bindingOne, false⟩, ⟨.createProtectedEffect claimedOne, false⟩] =
        { Store.empty with
          bindings := [bindingOne.toBindingRow]
          effects := [claimedOne.toEffectRow] } := by decide +kernel
  have hmove : preparedStore.step sampleHash
      ⟨.transitionProtectedEffect claimedOne effectOne.status effectOne.version, false⟩ =
        { preparedStore with effects := [claimedOne.toEffectRow, effectTwo.toEffectRow] } := by
    decide +kernel
  have hstart : claimedStore.step sampleHash (startOne '7' rfl) = { claimedStore with
        effects := [(executingOne '7' rfl).toEffectRow, effectTwo.toEffectRow] } := by decide +kernel
  have hd : sampleDigest '7' ≠ sampleDigest '8' := by simp [sampleDigest]
  refine ⟨?_, ?_, ?_⟩
  · rw [hcreate]
    exact not_backed (mem_singleton_self _) rfl fun c hc => by cases hc
  · rw [Store.run_append, run_preparation, Store.run_step sampleHash hmove, Store.run_nil]
    exact not_backed mem_cons_self rfl fun c hc => by cases hc
  · rw [Store.run_append, run_claimFirst, Store.run_step sampleHash hstart, Store.run_nil]
    refine not_backed mem_cons_self rfl fun c hc => ?_
    rw [mem_singleton.1 hc]
    exact fun h => hd (Option.some.inj h)

end AstralPlane.Authority
