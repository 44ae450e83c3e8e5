/-
  The lifecycle of a binding.

  * `Lifecycle` is what one call can do to the row of a binding;
  * `binding_lifecycle` puts it together for every sequence of calls.

  The four remote identities of a binding in provisioning are placeholders made
  from its id.  Only `activate_binding` replaces them, but `create_binding` takes
  a binding that is issued already; and the lease sequence of an issued binding
  is what the caller of `transition_binding` writes (`binding_shortcuts`).
-/
import Mathlib.Data.List.Pairwise
import AstralPlane.Authority.Receipts

namespace AstralPlane.Authority

open Tx List BindingRow

variable {sha256 : List UInt8 → String} {b r r' : BindingRow}

/-! ## The rows of a reachable store -/

/-- Two open bindings of one owner, agent and population. -/
def BindingRow.Rival (r r' : BindingRow) : Prop :=
  r.state.terminal = false ∧ r'.state.terminal = false ∧ r.ownerId = r'.ownerId ∧
    r.agentId = r'.agentId ∧ r.population = r'.population

instance : Std.Symm BindingRow.Rival :=
  ⟨fun _ _ h => ⟨h.2.1, h.1, h.2.2.1.symm, h.2.2.2.1.symm, h.2.2.2.2.symm⟩⟩

/-- What holds of the bindings in every reachable store. -/
structure Ordered (sha256 : List UInt8 → String) (bindings : List BindingRow) : Prop where
  ids : (bindings.map BindingRow.bindingId).Nodup
  lease : ∀ r ∈ bindings, r.leaseValid sha256
  rivals : bindings.Pairwise fun r r' => ¬ r.Rival r'

theorem BindingRow.sameIdentity_iff (h : r.sameIdentity b) :
    r.bindingId = b.bindingId ∧ r.ownerId = b.ownerId ∧ r.agentId = b.agentId ∧
      r.population = b.population := by
  simp only [sameIdentity, bool_to_prop] at h
  tauto

/-- The lease fields of a row are those of the binding whose identities it carries. -/
theorem leaseValid_congr (hid : r.bindingId = b.bindingId)
    (hremote : r.remoteIdentities = b.remoteIdentities) (hstate : r.state = b.state)
    (hsequence : r.leaseSequence = b.leaseSequence)
    (hexpires : r.leaseExpiresAtNs = b.leaseExpiresAtNs) :
    r.leaseValid sha256 = b.leaseValid sha256 := by
  simp only [leaseValid, hid, hremote, hstate, hsequence, hexpires]

theorem AgentAuthorityBinding.leaseValid (b : AgentAuthorityBinding sha256) :
    b.toBindingRow.leaseValid sha256 := by
  have h := b.isValid
  simp only [valid, Bool.and_eq_true] at h
  exact h.1.2

theorem pending_of_provisioning (h : r.leaseValid sha256) (hr : r.state = .provisioning) :
    r.remoteIdentities = pendingIdentities sha256 r.bindingId ∧ r.leaseSequence = 0 ∧
      r.leaseExpiresAtNs = 0 ∧ r.remoteIdentities.any isPendingIdentity := by
  rw [leaseValid] at h
  by_cases hp : r.remoteIdentities.any isPendingIdentity
  · rw [if_pos ⟨.inl hr, hp⟩] at h
    simp only [bool_to_prop] at h
    exact ⟨h.1.1, h.1.2, h.2, hp⟩
  · rw [if_neg fun hc => hp hc.2, if_pos hr] at h
    cases h

/-- Only a binding in provisioning, or closed from it, has a placeholder. -/
theorem state_of_pending (h : r.leaseValid sha256) (hp : r.remoteIdentities.any isPendingIdentity) :
    (r.state = .provisioning ∨ r.state = .closed) ∧
      r.remoteIdentities = pendingIdentities sha256 r.bindingId ∧ r.leaseSequence = 0 ∧
        r.leaseExpiresAtNs = 0 := by
  rw [leaseValid] at h
  by_cases hs : r.state = .provisioning ∨ r.state = .closed
  · rw [if_pos ⟨hs, hp⟩] at h
    simp only [bool_to_prop] at h
    exact ⟨hs, h.1.1, h.1.2, h.2⟩
  · rw [if_neg fun hc => hs hc.1] at h
    split at h
    · cases h
    · simp [hp] at h

/-! ### What a rewriting does -/

def Method.Activates (m : Method sha256) : Prop := ∃ b version, m = .activateBinding b version

/-- The call abandons a binding: it is `abandon_provisioning_binding`, or `transition_binding` with
    what that passes on. -/
def Method.Abandons (m : Method sha256) : Prop :=
  ∃ (b : AgentAuthorityBinding sha256) (version : ℤ),
    (m = .abandonProvisioningBinding b version ∨ m = .transitionBinding b .provisioning version) ∧
    b.state = .closed ∧ b.remoteIdentities = pendingIdentities sha256 b.bindingId ∧
    b.leaseSequence = 0 ∧ b.leaseExpiresAtNs = 0

/-- The call names the binding that it writes. -/
def Method.Replaces (m : Method sha256) (b : AgentAuthorityBinding sha256) : Prop :=
  (∃ state version, m = .transitionBinding b state version) ∨
    ∃ version, m = .activateBinding b version ∨ m = .abandonProvisioningBinding b version

/-- What one call does to a binding. -/
structure Lifecycle (m : Method sha256) (r r' : BindingRow) : Prop where
  bindingId : r'.bindingId = r.bindingId
  terminal : r.state.terminal → r' = r
  version : r' = r ∨ r'.version = r.version + 1
  identities : r'.remoteIdentities = r.remoteIdentities ∨
    r.state = .provisioning ∧ r'.state = .active ∧ m.Activates
  leaving : r.state = .provisioning → r'.state = .provisioning ∨
    r'.state = .active ∧ m.Activates ∨ r'.state = .closed ∧ m.Abandons
  entering : r.state ≠ .provisioning → r'.state ≠ .provisioning
  sequence : r'.leaseSequence = r.leaseSequence ∨
    ∃ b : AgentAuthorityBinding sha256, m.Replaces b ∧ r'.leaseSequence = b.leaseSequence

theorem Lifecycle.refl (m : Method sha256) (r : BindingRow) : Lifecycle m r r :=
  ⟨rfl, fun _ => rfl, .inl rfl, .inl rfl, fun h => .inl h, id, .inl rfl⟩

theorem Replaceable.leaseValid {b : AgentAuthorityBinding sha256}
    (h : Replaceable r b.toBindingRow) : (r.moved b.toBindingRow).leaseValid sha256 := by
  have hid := (sameIdentity_iff h.identity).1
  exact (leaseValid_congr (r := r.moved b.toBindingRow) hid h.remote rfl rfl rfl).trans b.leaseValid

variable {m : Method sha256}

/-- A rewritten row keeps the columns that identify a binding, and its lease fields fit. -/
theorem Rewrites.kept (h : Rewrites r m r') :
    r'.bindingId = r.bindingId ∧ r'.ownerId = r.ownerId ∧ r'.agentId = r.agentId ∧
      r'.population = r.population ∧ r.state.terminal = false ∧ r'.leaseValid sha256 := by
  cases h with
  | moved h => exact ⟨rfl, rfl, rfl, rfl, h.opened, h.leaseValid⟩
  | abandoned h => exact ⟨rfl, rfl, rfl, rfl, h.opened, h.leaseValid⟩
  | @issued b _ identity _ hr _ _ =>
    have hid := (sameIdentity_iff identity).1
    refine ⟨rfl, rfl, rfl, rfl, by rw [hr]; rfl, ?_⟩
    exact (leaseValid_congr (r := r.issued b.toBindingRow) hid rfl rfl rfl rfl).trans b.leaseValid

section
variable {b : AgentAuthorityBinding sha256} (h : Replaceable r b.toBindingRow)
    (hl : r.leaseValid sha256 = true)
include h hl

/-- A move out of provisioning is an abandonment: the placeholders fit no other state. -/
theorem Replaceable.leaving (hr : r.state = .provisioning) : b.state = .provisioning ∨
      b.state = .closed ∧ b.remoteIdentities = pendingIdentities sha256 b.bindingId ∧
        b.leaseSequence = 0 ∧ b.leaseExpiresAtNs = 0 := by
  have hpending := (pending_of_provisioning hl hr).2.2.2
  rw [h.remote] at hpending
  obtain ⟨hs | hs, hrest⟩ := state_of_pending b.leaseValid hpending
  · exact .inl hs
  · exact .inr ⟨hs, hrest⟩

theorem Replaceable.entering (hr : r.state ≠ .provisioning) : b.state ≠ .provisioning := by
  intro hb
  have hpending := (pending_of_provisioning b.leaseValid hb).2.2.2
  rw [← h.remote] at hpending
  rcases (state_of_pending hl hpending).1 with hs | hs
  · exact hr hs
  · have hopen := h.opened
    rw [hs] at hopen
    cases hopen

end

/-- **What a rewriting does to a binding.** -/
theorem Rewrites.lifecycle (h : Rewrites r m r') (hl : r.leaseValid sha256) : Lifecycle m r r' := by
  have hopen : r.state.terminal → r' = r := fun ht => by
    cases h.kept.2.2.2.2.1.symm.trans ht
  refine ⟨h.kept.1, hopen, ?_, ?_, ?_, ?_, ?_⟩
  · cases h with
    | moved h => exact .inr h.version
    | abandoned h => exact .inr h.version
    | issued _ _ _ _ hv => exact .inr hv
  · cases h with
    | moved | abandoned => exact .inl rfl
    | issued _ _ hr hb => exact .inr ⟨hr, hb, _, _, rfl⟩
  · intro hr
    cases h with
    | @moved b version h =>
      rcases h.leaving hl hr with hb | hb
      · exact .inl hb
      · exact .inr (.inr ⟨hb.1, b, version, .inr (by rw [hr]), hb⟩)
    | @abandoned b version h _ hb =>
      rcases h.leaving hl hr with hb' | hb'
      · exact .inl hb'
      · exact .inr (.inr ⟨hb, b, version, .inl rfl, hb'⟩)
    | issued _ _ _ hb => exact .inr (.inl ⟨hb, _, _, rfl⟩)
  · intro hr
    cases h with
    | moved h => exact h.entering hl hr
    | abandoned h => exact h.entering hl hr
    | issued _ _ hr' => exact absurd hr' hr
  · cases h with
    | @moved b version h => exact .inr ⟨b, .inl ⟨_, version, rfl⟩, rfl⟩
    | @abandoned b version h => exact .inr ⟨b, .inr ⟨version, .inr rfl⟩, rfl⟩
    | @issued b version => exact .inr ⟨b, .inr ⟨version, .inl rfl⟩, rfl⟩

/-! ## Runs -/

section
variable {s s' : Store}

theorem BindingsStep.ordered (hs : BindingsStep s m s') (h : Ordered sha256 s.bindings) :
    Ordered sha256 s'.bindings := by
  cases hs with
  | quiet heq => rwa [heq]
  | created b _ fresh heq =>
    have hne : ∀ r ∈ s.bindings, r.bindingId ≠ b.bindingId ∧ ¬ r.Rival b.toBindingRow := by
      intro r hr
      have hc := fresh r hr
      simp only [conflicts, Bool.or_eq_false_iff, Bool.and_eq_false_iff,
        decide_eq_false_iff_not, Bool.not_eq_false'] at hc
      refine ⟨hc.1.1, ?_⟩
      rintro ⟨h1, h2, h3, h4, h5⟩
      rcases hc.2 with ((((hc | hc) | hc) | hc) | hc)
      · cases hc.symm.trans h1
      · cases hc.symm.trans h2
      · exact hc h3
      · exact hc h4
      · exact hc h5
    rw [heq]
    refine ⟨?_, ?_, ?_⟩
    · rw [map_append, nodup_append]
      refine ⟨h.ids, nodup_singleton _, ?_⟩
      rintro _ hin _ hb rfl
      obtain ⟨r, hr, hid⟩ := mem_map.1 hin
      exact (hne r hr).1 (hid.trans (mem_singleton.1 hb))
    · intro r hr
      rcases mem_append.1 hr with hr | hr
      · exact h.lease r hr
      · obtain rfl := mem_singleton.1 hr
        exact b.leaseValid
    · rw [pairwise_append]
      refine ⟨h.rivals, pairwise_singleton _ _, fun r hr r' hr' => ?_⟩
      obtain rfl := mem_singleton.1 hr'
      exact (hne r hr).2
  | rewritten selects written _ _ hw _ heq =>
    -- the rows are related one by one, and only an open row is rewritten
    have hrow : ∀ r, let r' := if selects r then written r else r
        r'.bindingId = r.bindingId ∧ r'.ownerId = r.ownerId ∧ r'.agentId = r.agentId ∧
          r'.population = r.population ∧ (r'.state.terminal = false → r.state.terminal = false) := by
      intro r
      by_cases hr : selects r
      · simp only [hr, if_true]
        obtain ⟨h1, h2, h3, h4, h5, _⟩ := (hw r hr).kept
        exact ⟨h1, h2, h3, h4, fun _ => h5⟩
      · simp only [hr]
        exact ⟨rfl, rfl, rfl, rfl, id⟩
    rw [heq, updateWhere]
    refine ⟨?_, ?_, ?_⟩
    · rw [map_map]
      have hids : s.bindings.map (bindingId ∘ fun r => if selects r then written r else r) =
          s.bindings.map bindingId :=
        map_congr_left fun r _ => (hrow r).1
      rw [hids]
      exact h.ids
    · intro r hr
      obtain ⟨r0, hr0, rfl⟩ := mem_map.1 hr
      by_cases hsel : selects r0
      · simp only [hsel, if_true]
        exact (hw r0 hsel).kept.2.2.2.2.2
      · simp only [hsel]
        exact h.lease r0 hr0
    · rw [pairwise_map]
      refine h.rivals.imp fun {r r'} hn hrival => hn ?_
      obtain ⟨ht, ht', ho, ha, hp⟩ := hrival
      obtain ⟨_, o, a, p, t⟩ := hrow r
      obtain ⟨_, o', a', p', t'⟩ := hrow r'
      exact ⟨t ht, t' ht', o.symm.trans (ho.trans o'), a.symm.trans (ha.trans a'),
        p.symm.trans (hp.trans p')⟩

theorem BindingsStep.lifecycle (hs : BindingsStep s m s') (h : Ordered sha256 s.bindings)
    (hr : r ∈ s.bindings) : ∃ r' ∈ s'.bindings, Lifecycle m r r' := by
  cases hs with
  | quiet heq => exact ⟨r, heq ▸ hr, .refl m r⟩
  | created b _ _ heq => exact ⟨r, heq ▸ mem_append_left _ hr, .refl m r⟩
  | rewritten selects written _ _ hw _ heq =>
    rw [heq]
    by_cases hsel : selects r
    · exact ⟨written r, mem_updateWhere.2 (.inl ⟨r, hr, hsel, rfl⟩), (hw r hsel).lifecycle (h.lease r hr)⟩
    · exact ⟨r, mem_updateWhere.2 (.inr ⟨hr, by simpa using hsel⟩), .refl m r⟩

end

theorem ordered_run (calls : List (Call sha256)) : Ordered sha256
    (Store.empty.run sha256 calls).bindings := by
  have hempty : Ordered sha256 Store.empty.bindings := by
    refine ⟨nodup_nil, ?_, Pairwise.nil⟩
    intro r hr
    cases hr
  exact run_keeps (P := fun s : Store => Ordered sha256 s.bindings)
    (fun call s h => (s.step_step call).bindings.ordered h) calls hempty

/-- What later calls leave of a binding. -/
structure Outlived (r r' : BindingRow) : Prop where
  bindingId : r'.bindingId = r.bindingId
  terminal : r.state.terminal → r' = r
  version : r.version ≤ r'.version
  identities : r.state ≠ .provisioning → r'.remoteIdentities = r.remoteIdentities ∧
    r'.state ≠ .provisioning

theorem Outlived.step {r0 : BindingRow} (h : Outlived r0 r)
    (hs : Lifecycle m r r') : Outlived r0 r' := by
  refine ⟨hs.bindingId.trans h.bindingId, fun ht => ?_, ?_, fun hr => ?_⟩
  · have heq := h.terminal ht
    subst heq
    exact hs.terminal ht
  · rcases hs.version with rfl | hv
    · exact h.version
    · exact h.version.trans (by omega)
  · obtain ⟨hi, hp⟩ := h.identities hr
    refine ⟨?_, hs.entering hp⟩
    rcases hs.identities with he | ⟨he, _⟩
    · exact he.trans hi
    · exact absurd he hp

theorem outlived_run (later : List (Call sha256)) {s : Store} (h : Ordered sha256 s.bindings)
    {r0 : BindingRow} (hr : r ∈ s.bindings) (ho : Outlived r0 r) :
    ∃ r' ∈ (s.run sha256 later).bindings, Outlived r0 r' := by
  induction later generalizing s r with
  | nil => exact ⟨r, hr, ho⟩
  | cons call later ih =>
    have hstep := (s.step_step call).bindings
    obtain ⟨r', hr', hlife⟩ := hstep.lifecycle h hr
    exact ih (hstep.ordered h) hr' (ho.step hlife)

/-- **The lifecycle of a binding.**  After any calls there is at most one open binding for an owner,
    agent and population, each further call changes a binding only as `Lifecycle` says, and a terminal
    binding stays as it is. -/
theorem binding_lifecycle (sha256 : List UInt8 → String) (calls : List (Call sha256)) :
    let s := Store.empty.run sha256 calls
    (∀ r ∈ s.bindings, ∀ r' ∈ s.bindings, r.Rival r' → r = r') ∧
    (∀ r ∈ s.bindings, r.state = .provisioning →
      r.remoteIdentities = pendingIdentities sha256 r.bindingId ∧ r.leaseSequence = 0) ∧
    (∀ r ∈ s.bindings, r.remoteIdentities.any isPendingIdentity →
      r.state = .provisioning ∨ r.state = .closed) ∧
    (∀ call : Call sha256,
      (∀ r ∈ s.bindings, ∃ r' ∈ (s.step sha256 call).bindings, Lifecycle call.method r r') ∧
      ∀ r' ∈ (s.step sha256 call).bindings, (∃ r ∈ s.bindings, r.bindingId = r'.bindingId) ∨
        ∃ b : AgentAuthorityBinding sha256, call.method = .createBinding b ∧ r' = b.toBindingRow) ∧
    ∀ later, ∀ r ∈ s.bindings, ∃ r' ∈ (s.run sha256 later).bindings, Outlived r r' := by
  intro s
  have h : Ordered sha256 s.bindings := ordered_run calls
  refine ⟨fun r hr r' hr' hrival => ?_, fun r hr hp => ?_, fun r hr hp => ?_, fun call => ⟨?_, ?_⟩, ?_⟩
  · by_contra hne
    have hsymm : Std.Symm fun r r' : BindingRow => ¬ r.Rival r' :=
      ⟨fun a b hn hc => hn (Std.Symm.symm _ _ hc)⟩
    exact h.rivals.forall hr hr' hne hrival
  · obtain ⟨h₁, h₂, _⟩ := pending_of_provisioning (h.lease r hr) hp
    exact ⟨h₁, h₂⟩
  · exact (state_of_pending (h.lease r hr) hp).1
  · exact fun r hr => (s.step_step call).bindings.lifecycle h hr
  · intro r' hr'
    cases (s.step_step call).bindings with
    | quiet heq => exact .inl ⟨r', heq ▸ hr', rfl⟩
    | created b hm _ heq =>
      rw [heq] at hr'
      rcases mem_append.1 hr' with hr' | hr'
      · exact .inl ⟨r', hr', rfl⟩
      · exact .inr ⟨b, hm, mem_singleton.1 hr'⟩
    | rewritten selects written _ _ hw _ heq =>
      rw [heq] at hr'
      rcases mem_updateWhere.1 hr' with ⟨r, hin, hsel, rfl⟩ | ⟨hin, _⟩
      · exact .inl ⟨r, hin, (hw r hsel).kept.1.symm⟩
      · exact .inl ⟨r', hin, rfl⟩
  · exact fun later r hr => outlived_run later h hr ⟨rfl, fun _ => rfl, le_rfl, fun hp => ⟨rfl, hp⟩⟩

/-! ## What `create_binding` and `transition_binding` take -/

/-- The second binding with the sequence before its own. -/
def bindingLowered : AgentAuthorityBinding sampleHash :=
  ⟨{ bindingRow "2" "tenant-2" 0 with version := 1 }, bindingRow_valid bounded_bindingTwo⟩

/-- A binding that waits for its warden, or that never got one. -/
def pendingRow (state : AuthorityBindingState) (version : ℕ) : BindingRow :=
  { bindingRow "3" "tenant-3" 0 with
    wardenId := pendingAuthorityIdentity sampleHash "binding-3" .warden
    leaseId := pendingAuthorityIdentity sampleHash "binding-3" .lease
    lineageId := pendingAuthorityIdentity sampleHash "binding-3" .lineage
    subjectId := pendingAuthorityIdentity sampleHash "binding-3" .subject
    leaseExpiresAtNs := 0
    state := state
    version := version }

theorem pendingRow_valid {state : AuthorityBindingState} {version : ℕ}
    (h : state = .provisioning ∨ state = .closed) :
    (pendingRow state version).valid sampleHash := by
  have hbounded : (["binding-3", "agent-3", "tenant-3", "ada", "runtime", "envelope"] ++
      pendingIdentities sampleHash "binding-3").all isBoundedIdentifier ∧
      canonicalCapabilities ["tool.run"] ∧
      (pendingIdentities sampleHash "binding-3").any isPendingIdentity := by decide +kernel
  simp_all [valid, leaseValid, pendingRow, bindingRow,
    remoteIdentities, pendingIdentities]

def bindingPending : AgentAuthorityBinding sampleHash :=
  ⟨pendingRow .provisioning 0, pendingRow_valid (.inl rfl)⟩

def bindingClosed : AgentAuthorityBinding sampleHash :=
  ⟨pendingRow .closed 1, pendingRow_valid (.inr rfl)⟩

/-- `create_binding` takes a binding that is issued already, `transition_binding` lowers its sequence,
    and `transition_binding` also abandons. -/
theorem binding_shortcuts :
    (Store.empty.run sampleHash [⟨.createBinding bindingTwo, false⟩]).bindings =
      [bindingTwo.toBindingRow] ∧
    (Store.empty.run sampleHash [⟨.createBinding bindingTwo, false⟩,
      ⟨.transitionBinding bindingLowered .active 0, false⟩]).bindings = [bindingLowered.toBindingRow] ∧
    (Store.empty.run sampleHash [⟨.createBinding bindingPending, false⟩,
      ⟨.transitionBinding bindingClosed .provisioning 0, false⟩]).bindings =
        [bindingClosed.toBindingRow] ∧
    bindingTwo.state = .active ∧ bindingLowered.leaseSequence < bindingTwo.leaseSequence ∧
    bindingPending.state = .provisioning ∧ bindingClosed.state = .closed := by
  all_goals decide +kernel

end AstralPlane.Authority
