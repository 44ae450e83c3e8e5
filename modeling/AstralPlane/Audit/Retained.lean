/-
  Chains under appends and prunes.

  A chain starts with its first event, or after the last row that was pruned; in
  that case an anchor holds the digest of that row (`Starts`).  Each append and
  each prune keeps this (`Retained.append`, `Retained.prune`), so the rows that
  are left verify after every run (`retained_chain_verifies`).
-/
import AstralPlane.Audit.Retention

namespace AstralPlane.Audit

open Python Tx List

variable {a : AuditRetentionAnchor} {d : Digest} {last : Option EventRow} {n : ℤ}
  {previous : EventRow}

/-! ## What a prune does -/

section
variable {authenticator : AnchorAuthenticator} {q : PruneRequest} {s s' : Store}

theorem buildAnchor_ok {f : AnchorFields} (h : buildAnchor f authenticator = .ok a) :
    ∃ authentication, a.toAnchorFields = { f with authentication := authentication } := by
  simp only [buildAnchor, AuditRetentionAnchor.make, bind_eq_ok] at h
  obtain ⟨_, _, _, _, authentication, _, h⟩ := h
  split at h <;> cases h
  exact ⟨authentication, rfl⟩

theorem loadAnchor_snoc (s : Store) (a : AuditRetentionAnchor) (chainId : Text) (n : ℤ) :
    Store.loadAnchor { s with anchors := s.anchors ++ [a] } chainId n =
      (s.loadAnchor chainId n).or
        (if a.chainId = chainId ∧ a.firstRetainedSequence = n then some a else none) := by
  rw [Store.loadAnchor, Store.loadAnchor, List.find?_append, List.find?_singleton]
  simp

/-- After the statement the candidate is the anchor if it was inserted, and no other anchor has
    changed. -/
theorem insertAnchor_ok {r : Option AuditRetentionAnchor} (h : (insertAnchor a).Ok s r s') :
    s'.events = s.events ∧
      (r = none ∨ r = some a ∧ s'.loadAnchor a.chainId a.firstRetainedSequence = some a) ∧
      ∀ chainId n b, s.loadAnchor chainId n = some b → s'.loadAnchor chainId n = some b := by
  simp only [insertAnchor, ok_rules] at h
  obtain ⟨_, _, _, rfl, h⟩ := h
  split at h
  · obtain ⟨rfl, rfl⟩ := ok_pure.1 h
    exact ⟨rfl, .inl rfl, fun _ _ _ hb => hb⟩
  · next hnone =>
    simp only [ok_rules] at h
    obtain ⟨_, _, _, _, rfl, rfl, rfl⟩ := h
    refine ⟨rfl, .inr ⟨rfl, ?_⟩, fun chainId n b hb => ?_⟩
    · rw [loadAnchor_snoc, hnone, if_pos ⟨rfl, rfl⟩]
      rfl
    · rw [loadAnchor_snoc, hb]
      rfl

/-- What is left after a prune up to a boundary: the rows from there on, and an anchor with the
    digest of the row before. -/
structure Pruned (authenticator : AnchorAuthenticator) (chainId : Text) (k : ℤ) (previous : EventRow)
    (s s' : Store) : Prop where
  events : s'.events = s.events.filter fun row => !isBefore chainId k row
  anchor : ∃ anchor, s'.loadAnchor chainId k = some anchor ∧
    anchor.previousEntryDigest = previous.entryHash ∧
    verifyAnchor anchor.toAnchorFields authenticator
  anchors : ∀ chainId n b, s.loadAnchor chainId n = some b → s'.loadAnchor chainId n = some b

theorem pruneRows_ok {policy : Digest} {boundary : EventRow} {r : RetentionPruneResult}
    (h : (pruneRows authenticator q policy boundary previous).Ok s r s') :
    Pruned authenticator q.chainId q.firstRetainedSequence previous s s' := by
  simp only [pruneRows, deleteBefore, ok_rules, bool_to_prop] at h
  obtain ⟨_, _, candidate, hbuild, inserted, s1, hinsert, _, rfl, _, ⟨hdurable, hverify⟩, _, _,
    ⟨_, rfl, _, _, hset, _, rfl⟩, _, rfl⟩ := h
  obtain ⟨hevents, hins, hkept⟩ := insertAnchor_ok hinsert
  obtain ⟨authentication, hfields⟩ := buildAnchor_ok hbuild
  subst hset
  have hload : s1.loadAnchor q.chainId q.firstRetainedSequence = some candidate := by
    rcases hins with rfl | ⟨rfl, hload⟩
    · exact hdurable
    · rwa [hfields] at hload
  refine ⟨by rw [hevents], ⟨candidate, hload, ?_, hverify⟩, hkept⟩
  rw [hfields]
  rfl

/-- A prune that returns has changed nothing, or has pruned up to a row that was there, like the row
    before it. -/
theorem prunePrefix_ok {r : RetentionPruneResult} (h : (prunePrefix authenticator q).Ok s r s') :
    s' = s ∨ ∃ boundary previous,
      s.selectSequence q.chainId q.firstRetainedSequence = some boundary ∧
      s.selectSequence q.chainId (q.firstRetainedSequence - 1) = some previous ∧
      Pruned authenticator q.chainId q.firstRetainedSequence previous s s' := by
  simp only [prunePrefix, ok_rules] at h
  obtain ⟨_, _, policy, _, _, _, _, rfl, h⟩ := h
  cases hb : s.selectSequence q.chainId q.firstRetainedSequence with
  | none =>
    rw [hb] at h
    exact absurd h ok_raise
  | some boundary =>
    rw [hb] at h
    cases hp : s.selectSequence q.chainId (q.firstRetainedSequence - 1) with
    | none =>
      rw [hp] at h
      simp only [confirmPruned, ok_rules] at h
      obtain ⟨_, rfl, h⟩ := h
      split at h
      · exact absurd h ok_raise
      · simp only [ok_rules] at h
        obtain ⟨_, -, -, rfl⟩ := h
        exact .inl rfl
    | some previous =>
      rw [hp] at h
      exact .inr ⟨boundary, previous, rfl, rfl, pruneRows_ok h⟩

end

/-! ## Rows before and from a boundary -/

/-- Rows in the order of their sequences are cut by a sequence. -/
theorem filter_append_filter_not {rows : List EventRow} {k : ℤ}
    (h : rows.Pairwise fun a b => a.chainSequence < b.chainSequence) :
    rows.filter (fun row => decide ((row.chainSequence : ℤ) < k)) ++
      rows.filter (fun row => !decide ((row.chainSequence : ℤ) < k)) = rows := by
  induction rows with
  | nil => rfl
  | cons row rows ih =>
    rw [pairwise_cons] at h
    by_cases hk : (row.chainSequence : ℤ) < k
    · simpa [hk] using ih h.2
    · -- no later row comes before the boundary either
      have hlater : ∀ row' ∈ rows, ¬ (row'.chainSequence : ℤ) < k := by
        intro row' hrow
        have := h.1 row' hrow
        omega
      have hnone : rows.filter (fun row => decide ((row.chainSequence : ℤ) < k)) = [] :=
        filter_eq_nil_iff.2 fun row' hrow => by simpa using hlater row' hrow
      have hall : rows.filter (fun row => !decide ((row.chainSequence : ℤ) < k)) = rows :=
        filter_eq_self.2 fun row' hrow => by simpa using hlater row' hrow
      simp [hk, hnone, hall]

/-- A chain that is cut after a row goes on from the digest of that row. -/
theorem chained_cut {auth : Authenticator} {chainId : Text} {k : ℤ} {rows : List EventRow}
    (h : Chained (RowAccepts auth chainId) EventRow.entryHash n d rows) (hmem : previous ∈ rows)
    (hseq : (previous.chainSequence : ℤ) = k - 1) :
    ∃ before after, rows.filter (fun row => decide ((row.chainSequence : ℤ) < k)) =
        before ++ [previous] ∧
      rows.filter (fun row => !decide ((row.chainSequence : ℤ) < k)) = after ∧
      n + (before.length + 1) = k ∧
      Chained (RowAccepts auth chainId) EventRow.entryHash k previous.entryHash after := by
  have hcut := filter_append_filter_not (k := k) (chained_rows_lt h)
  have hp : previous ∈ rows.filter (fun row => decide ((row.chainSequence : ℤ) < k)) :=
    mem_filter.2 ⟨hmem, by rw [hseq]; simp⟩
  rcases (rows.filter fun row => decide ((row.chainSequence : ℤ) < k)).eq_nil_or_concat' with
    hnil | ⟨before, last, hbefore⟩
  · rw [hnil] at hp
    cases hp
  · rw [hbefore] at hcut hp
    rw [← hcut] at h
    obtain ⟨hfirst, hafter⟩ := chained_append.1 h
    have hlt := chained_rows_lt hfirst
    have hlast : (last.chainSequence : ℤ) < k := by
      have : last ∈ rows.filter (fun row => decide ((row.chainSequence : ℤ) < k)) := by
        rw [hbefore]
        exact mem_append_right _ mem_cons_self
      simpa using (mem_filter.1 this).2
    -- the row before the boundary is the last that comes before it
    obtain rfl : previous = last := by
      rcases mem_append.1 hp with hin | hin
      · have := (pairwise_append.1 hlt).2.2 previous hin last mem_cons_self
        omega
      · exact mem_singleton.1 hin
    have hpos := (chained_singleton.1 (chained_append.1 hfirst).2).sequence
    have hk : n + (before.length + 1) = k := by omega
    refine ⟨before, _, hbefore, rfl, hk, ?_⟩
    rw [lastEntry_snoc, length_append] at hafter
    push_cast at hafter
    rwa [show n + ((before.length : ℤ) + ([previous] : List EventRow).length) = k from hk] at hafter

/-! ## Runs of appends and prunes -/

inductive Op where
  | append (call : Call)
  | prune (request : PruneRequest)

/-- The tables after a call; a call that raises is rolled back. -/
def Op.exec (signed : Bool) (auth : Authenticator) (authenticator : AnchorAuthenticator) (s : Store) :
    Op → Store
  | .append call => { s with events := call.exec signed auth s.events }
  | .prune request => (prunePrefix authenticator request).commit s

/-- The tables, with the rows that were ever added to `audit_events` and those that were deleted. -/
structure History where
  store : Store
  appended : Events
  pruned : Events

def History.initial : History := ⟨⟨[], []⟩, [], []⟩

def History.step (signed : Bool) (auth : Authenticator) (authenticator : AnchorAuthenticator)
    (op : Op) (h : History) : History :=
  let store := op.exec signed auth authenticator h.store
  { store := store
    appended := h.appended ++ store.events.filter fun row => row ∉ h.store.events
    pruned := h.pruned ++ h.store.events.filter fun row => row ∉ store.events }

/-- Where a chain starts: at its first event, or after the last row that was pruned, whose digest
    an anchor holds. -/
def Starts (authenticator : AnchorAuthenticator) (s : Store) (chainId : Text) (n : ℤ) (d : Digest) :
    Option EventRow → Prop
  | none => n = 1 ∧ d = genesisDigest
  | some last => n = last.chainSequence + 1 ∧ d = last.entryHash ∧ s.events.chain chainId ≠ [] ∧
    ∃ anchor, s.loadAnchor chainId n = some anchor ∧ anchor.previousEntryDigest = d ∧
      verifyAnchor anchor.toAnchorFields authenticator

/-- What holds of a chain after every run. -/
def Retained (auth : Authenticator) (authenticator : AnchorAuthenticator) (chainId : Text)
    (h : History) : Prop :=
  ∃ n d, Chained (RowAccepts auth chainId) EventRow.entryHash n d (h.store.events.chain chainId) ∧
    ((h.appended.chain chainId).length : ℤ) = n - 1 + (h.store.events.chain chainId).length ∧
    Starts authenticator h.store chainId n d (h.pruned.chain chainId).getLast?

section
variable {signed : Bool} {auth : Authenticator} {authenticator : AnchorAuthenticator}
  {chainId : Text} {h : History}

theorem Events.chain_append (events added : Events) (chainId : Text) :
    Events.chain (events ++ added) chainId = events.chain chainId ++ added.chain chainId :=
  filter_append ..

theorem exec_events (c : Call) (events : Events) :
    ∃ added, c.exec signed auth events = events ++ added ∧ ∀ row ∈ added, row ∉ events := by
  rcases commit_cases (append signed auth c.event c.now) events with ⟨r, hok⟩ | hsame
  · obtain ⟨_, ⟨_, heq⟩ | ⟨_, hext⟩⟩ := append_ok hok
    · exact ⟨[], by rw [Call.exec, heq, append_nil], by simp⟩
    · obtain ⟨_, _, _, row, _, _, _, _, heq, hnew, _⟩ := extend_ok hext
      exact ⟨[row], heq, by simpa using fun hmem => hnew row hmem rfl⟩
  · exact ⟨[], by rw [Call.exec, hsame, append_nil], by simp⟩

theorem Starts.imp {s s' : Store} (hs : Starts authenticator s chainId n d last)
    (hne : s.events.chain chainId ≠ [] → s'.events.chain chainId ≠ [])
    (hload : ∀ n b, s.loadAnchor chainId n = some b → s'.loadAnchor chainId n = some b) :
    Starts authenticator s' chainId n d last := by
  cases last with
  | none => exact hs
  | some =>
    obtain ⟨hn, hd, hrows, anchor, ha, hrest⟩ := hs
    exact ⟨hn, hd, hne hrows, anchor, hload _ _ ha, hrest⟩

/-- A chain without rows has never had any. -/
theorem Starts.of_nil {s : Store} (hs : Starts authenticator s chainId n d last)
    (hnil : s.events.chain chainId = []) : n = 1 ∧ d = genesisDigest := by
  cases last with
  | none => exact hs
  | some => exact absurd hnil hs.2.2.1

theorem Retained.append (hr : Retained auth authenticator chainId h) (c : Call)
    (hc : ReadsBack signed c.event) :
    Retained auth authenticator chainId (h.step signed auth authenticator (.append c)) := by
  obtain ⟨n, d, hchain, hlen, hstart⟩ := hr
  obtain ⟨new, hnew, hcont, _⟩ := exec_chain c hc hchain hstart.of_nil
  obtain ⟨added, hadded, hfresh⟩ := @exec_events signed auth c h.store.events
  have hstore : (h.step signed auth authenticator (.append c)).store.events =
      h.store.events ++ added := hadded
  have happended : (h.step signed auth authenticator (.append c)).appended = h.appended ++ added := by
    have hin : (h.store.events ++ added).filter (fun row => row ∉ h.store.events) = added := by
      rw [filter_append, filter_eq_nil_iff.2 (by simp), nil_append]
      exact filter_eq_self.2 fun row hrow => by simpa using hfresh row hrow
    rw [← hin, ← hstore]
    rfl
  have hpruned : (h.step signed auth authenticator (.append c)).pruned = h.pruned := by
    have hout : h.store.events.filter (fun row => row ∉ h.store.events ++ added) = [] :=
      filter_eq_nil_iff.2 fun row hrow => by simp [hrow]
    rw [← hstore] at hout
    exact (congrArg _ hout).trans (append_nil _)
  obtain rfl : added.chain chainId = new := by
    rw [hadded, Events.chain_append] at hnew
    exact append_cancel_left hnew
  refine ⟨n, d, ?_, ?_, ?_⟩
  · rw [hstore, Events.chain_append]
    exact chained_append.2 ⟨hchain, hcont⟩
  · rw [hstore, happended, Events.chain_append, Events.chain_append, length_append, length_append]
    omega
  · rw [hpruned]
    refine hstart.imp (fun hne => ?_) fun _ _ hb => hb
    rw [hstore, Events.chain_append]
    exact append_ne_nil_of_left_ne_nil hne _

theorem chain_filter_isBefore (events : Events) (k : ℤ) :
    Events.chain (events.filter (isBefore chainId k)) chainId =
        (events.chain chainId).filter (fun row => decide ((row.chainSequence : ℤ) < k)) ∧
      Events.chain (events.filter fun row => !isBefore chainId k row) chainId =
        (events.chain chainId).filter (fun row => !decide ((row.chainSequence : ℤ) < k)) := by
  simp only [Events.chain, filter_filter]
  constructor <;> refine filter_congr fun row _ => ?_ <;>
    by_cases hrow : row.actorUserId = chainId <;> simp [isBefore, hrow]

theorem chain_filter_other {events : Events} {k : ℤ} {other : Text} (hne : other ≠ chainId) :
    Events.chain (events.filter (isBefore other k)) chainId = [] ∧
      Events.chain (events.filter fun row => !isBefore other k row) chainId =
        events.chain chainId := by
  simp only [Events.chain, filter_filter]
  constructor
  · refine filter_eq_nil_iff.2 fun row _ => ?_
    by_cases hrow : row.actorUserId = chainId <;> simp [isBefore, hrow, hne.symm]
  · refine filter_congr fun row _ => ?_
    by_cases hrow : row.actorUserId = chainId <;> simp [isBefore, hrow, hne.symm]

theorem step_of_filter {op : Op} {p : EventRow → Bool}
    (hop : (op.exec signed auth authenticator h.store).events = h.store.events.filter (!p ·)) :
    (h.step signed auth authenticator op).appended = h.appended ∧
      (h.step signed auth authenticator op).pruned = h.pruned ++ h.store.events.filter p := by
  have hin : (h.store.events.filter (!p ·)).filter (fun row => row ∉ h.store.events) = [] := by
    refine filter_eq_nil_iff.2 fun row hrow => ?_
    simp [(mem_filter.1 hrow).1]
  have hout : h.store.events.filter (fun row => row ∉ h.store.events.filter (!p ·)) =
      h.store.events.filter p := by
    refine filter_congr fun row hrow => ?_
    cases hp : p row <;> simp [hrow, hp]
  rw [← hop] at hin hout
  exact ⟨(congrArg _ hin).trans (append_nil _), congrArg _ hout⟩

theorem selectSequence_eq_some {s : Store} {k : ℤ} {row : EventRow}
    (hrow : s.selectSequence chainId k = some row) :
    row ∈ s.events.chain chainId ∧ (row.chainSequence : ℤ) = k := by
  have hp := List.find?_some hrow
  simp only [decide_eq_true_eq] at hp
  exact ⟨mem_filter.2 ⟨mem_of_find?_eq_some hrow, by simpa using hp.1⟩, hp.2⟩

/-- A prune of the chain: it starts after the last row that was deleted. -/
theorem Retained.prune_self {q : PruneRequest} (hr : Retained auth authenticator q.chainId h)
    {boundary : EventRow}
    (hb : h.store.selectSequence q.chainId q.firstRetainedSequence = some boundary)
    (hp : h.store.selectSequence q.chainId (q.firstRetainedSequence - 1) = some previous)
    (hpruned : Pruned authenticator q.chainId q.firstRetainedSequence previous h.store
      (h.step signed auth authenticator (.prune q)).store) :
    Retained auth authenticator q.chainId (h.step signed auth authenticator (.prune q)) := by
  obtain ⟨n, d, hchain, hlen, _⟩ := hr
  obtain ⟨happended, hdeleted⟩ :=
    @step_of_filter signed auth authenticator h (.prune q) _ hpruned.events
  obtain ⟨hgone, hleft⟩ := @chain_filter_isBefore q.chainId h.store.events q.firstRetainedSequence
  obtain ⟨hpm, hps⟩ := selectSequence_eq_some hp
  obtain ⟨hbm, hbs⟩ := selectSequence_eq_some hb
  obtain ⟨before, after, hbefore, hafter, hk, hcut⟩ := chained_cut hchain hpm hps
  rw [hbefore] at hgone
  rw [hafter] at hleft
  refine ⟨q.firstRetainedSequence, previous.entryHash, ?_, ?_, ?_⟩
  · rw [hpruned.events, hleft]
    exact hcut
  · have hrows : before ++ [previous] ++ after = h.store.events.chain q.chainId := by
      rw [← hbefore, ← hafter]
      exact filter_append_filter_not (chained_rows_lt hchain)
    rw [hpruned.events, hleft, happended, hlen, ← hrows]
    simp only [length_append, length_singleton]
    omega
  · rw [hdeleted, Events.chain_append, hgone, ← append_assoc, List.getLast?_concat]
    refine ⟨by omega, rfl, ?_, hpruned.anchor⟩
    rw [hpruned.events, hleft, ← hafter]
    exact ne_nil_of_mem (mem_filter.2 ⟨hbm, by simp [hbs]⟩)

theorem Retained.prune_other {q : PruneRequest} (hr : Retained auth authenticator chainId h)
    (hq : q.chainId ≠ chainId)
    (hpruned : Pruned authenticator q.chainId q.firstRetainedSequence previous h.store
      (h.step signed auth authenticator (.prune q)).store) :
    Retained auth authenticator chainId (h.step signed auth authenticator (.prune q)) := by
  obtain ⟨n, d, hchain, hlen, hstart⟩ := hr
  obtain ⟨happended, hdeleted⟩ :=
    @step_of_filter signed auth authenticator h (.prune q) _ hpruned.events
  obtain ⟨hgone, hleft⟩ :=
    @chain_filter_other chainId h.store.events q.firstRetainedSequence q.chainId hq
  refine ⟨n, d, ?_, ?_, ?_⟩
  · rw [hpruned.events, hleft]
    exact hchain
  · rw [hpruned.events, hleft, happended]
    exact hlen
  · rw [hdeleted, Events.chain_append, hgone, append_nil]
    refine hstart.imp (fun hne => ?_) (hpruned.anchors chainId)
    rw [hpruned.events, hleft]
    exact hne

theorem Retained.prune (hr : Retained auth authenticator chainId h) (q : PruneRequest) :
    Retained auth authenticator chainId (h.step signed auth authenticator (.prune q)) := by
  have hsame : (prunePrefix authenticator q).commit h.store = h.store →
      Retained auth authenticator chainId (h.step signed auth authenticator (.prune q)) := by
    intro heq
    obtain ⟨ha, hp⟩ := @step_of_filter signed auth authenticator h (.prune q) (fun _ => false)
      (by rw [Op.exec, heq]; simp)
    rw [filter_false, append_nil] at hp
    have hs : (h.step signed auth authenticator (.prune q)).store = h.store := heq
    simpa only [Retained, ha, hp, hs] using hr
  rcases commit_cases (prunePrefix authenticator q) h.store with ⟨r, hok⟩ | heq
  · rcases prunePrefix_ok hok with heq | ⟨boundary, previous, hb, hp, hpruned⟩
    · exact hsame heq
    · by_cases hq : q.chainId = chainId
      · subst hq
        exact hr.prune_self hb hp hpruned
      · exact hr.prune_other hq hpruned
  · exact hsame heq

/-! ## Verification -/

theorem loadAnchor_eq_some {s : Store} {anchor : AuditRetentionAnchor}
    (ha : s.loadAnchor chainId n = some anchor) :
    anchor.chainId = chainId ∧ anchor.firstRetainedSequence = n := by
  have hp := List.find?_some ha
  simpa only [decide_eq_true_eq] using hp

/-- Records that follow each other from where the chain starts pass. -/
theorem verifyRetained_eq {s : Store} {records : List AuditRecord}
    (hr : Chained (Accepts auth chainId) AuditRecord.entryDigest n d records)
    (hs : Starts authenticator s chainId n d last) (hnil : records = [] → n = 1) :
    ∃ digest, verifyRetained auth authenticator chainId s records =
      .ok (.passed (n + records.length - 1) digest) := by
  cases records with
  | nil =>
    rw [hnil rfl]
    exact ⟨genesisDigest, rfl⟩
  | cons first =>
    obtain ⟨_, hseq, hprev, _⟩ := accepts_iff.1 hr.1
    rw [verifyRetained]
    cases last with
    | none =>
      obtain ⟨rfl, rfl⟩ := hs
      rw [if_pos (by exact_mod_cast hseq), verifyRecords_eq hr]
      exact ⟨_, rfl⟩
    | some last =>
      obtain ⟨hn, _, _, anchor, ha, hd, hv⟩ := hs
      obtain ⟨hchain, hfirst⟩ := loadAnchor_eq_some ha
      have hne : first.sequence ≠ 1 := by
        have := last.chainSequence_pos
        omega
      rw [if_neg hne, hseq, ha]
      simp only [hv, Bool.not_true, Bool.false_eq_true, if_false]
      rw [if_neg (by simp [hchain, hd, hprev, hfirst]), hd, verifyRecords_eq hr]
      exact ⟨_, rfl⟩

theorem Retained.verifies (hr : Retained auth authenticator chainId h)
    (hc : storable chainId) : ∃ v,
      (verifyRetainedChain auth authenticator chainId).reply h.store = .ok v ∧ v.valid ∧
      v.lastSequence = (h.appended.chain chainId).length := by
  obtain ⟨n, d, hchain, hlen, hstart⟩ := hr
  have hn : 1 ≤ n := by
    cases hl : (h.pruned.chain chainId).getLast? with
    | none =>
      rw [hl] at hstart
      exact hstart.1.ge
    | some =>
      rw [hl] at hstart
      rw [hstart.1]
      omega
  obtain ⟨records, hload, hcount, hrec, _⟩ := loadChain_of_chained hc hchain one_pos hn
  obtain ⟨digest, hv⟩ := verifyRetained_eq hrec hstart fun hnil =>
    (hstart.of_nil (length_eq_zero_iff.1 (hcount ▸ hnil ▸ rfl))).1
  have hreply : (loadChain chainId 1).reply h.store.events = .ok records := congrArg Prod.fst hload
  have hok : (verifyRetainedChain auth authenticator chainId).Ok h.store
      (.passed (n + records.length - 1) digest) h.store :=
    Ok.bind (ok_get.2 ⟨rfl, rfl⟩) (ok_ofExcept_bind hreply (ok_ofExcept.2 ⟨hv, rfl⟩))
  refine ⟨_, congrArg Prod.fst hok, rfl, ?_⟩
  rw [ChainVerification.passed, hlen, hcount]
  ring

end

theorem retained_run {signed : Bool} {auth : Authenticator} {authenticator : AnchorAuthenticator}
    {chainId : Text} (ops : List Op) (hops : ∀ c, Op.append c ∈ ops → ReadsBack signed c.event)
    (h : History) (hr : Retained auth authenticator chainId h) :
    Retained auth authenticator chainId (run (History.step signed auth authenticator) ops h) := by
  induction ops generalizing h with
  | nil => exact hr
  | cons op ops ih =>
    refine ih (fun c hc => hops c (mem_cons_of_mem _ hc)) _ ?_
    cases op with
    | append c => exact hr.append c (hops c mem_cons_self)
    | prune q => exact hr.prune q

/-- **Retention keeps the chain verifiable**, in every run of appends and prunes; its last sequence is
    the number of events that were ever appended, and where rows were pruned an anchor holds the digest
    of the last of them. -/
theorem retained_chain_verifies (signed : Bool) (auth : Authenticator)
    (authenticator : AnchorAuthenticator) (ops : List Op)
    (hops : ∀ c, Op.append c ∈ ops → ReadsBack signed c.event) (chainId : Text)
    (hchain : storable chainId = true) (h : History)
    (hh : h = run (History.step signed auth authenticator) ops .initial) :
    (∃ v, (verifyRetainedChain auth authenticator chainId).reply h.store = .ok v ∧
      v.valid = true ∧ v.lastSequence = (h.appended.chain chainId).length) ∧
    ∀ last, (h.pruned.chain chainId).getLast? = some last → ∃ first anchor,
      (h.store.events.chain chainId).head? = some first ∧
      first.chainSequence = last.chainSequence + 1 ∧
      h.store.loadAnchor chainId first.chainSequence = some anchor ∧
      anchor.firstRetainedSequence = last.chainSequence + 1 ∧
      anchor.previousEntryDigest = last.entryHash := by
  have hr : Retained auth authenticator chainId h := by
    rw [hh]
    exact retained_run ops hops _ ⟨1, genesisDigest, trivial, rfl, rfl, rfl⟩
  refine ⟨hr.verifies hchain, fun last hlast => ?_⟩
  obtain ⟨n, d, hc, _, hs⟩ := hr
  rw [hlast] at hs
  obtain ⟨hn, hd, hne, anchor, ha, hdigest, _⟩ := hs
  obtain ⟨first, rows, hrows⟩ := exists_cons_of_ne_nil hne
  rw [hrows] at hc
  have hfirst := hc.1.sequence
  rw [← hfirst] at ha
  refine ⟨first, anchor, by rw [hrows]; rfl, by omega, ha, ?_, hdigest.trans hd⟩
  rw [(loadAnchor_eq_some ha).2]
  omega

/-- A keyed checksum for examples. -/
def sumAnchorAuthenticator : AnchorAuthenticator :=
  HMACAnchorAuthenticator (fun key payload => [(key ++ payload).foldl (· + ·) 0])
    fun _ => List.replicate 32 1

def sampleRequest : PruneRequest :=
  ⟨ofString "c", 2, ofString "a", List.replicate 32 0, ⟨0, isDatetime_zero⟩, ofString "k"⟩

def sampleOps : List Op := [.append halfCall, .append nextCall, .prune sampleRequest]

def sampleHistory : History :=
  run (History.step true sumAuthenticator sumAnchorAuthenticator) sampleOps .initial

theorem retained_chain_verifies_sample : (sampleHistory.pruned.chain (ofString "c")).length = 1 ∧
    ∃ v, (verifyRetainedChain sumAuthenticator sumAnchorAuthenticator (ofString "c")).reply
        sampleHistory.store = .ok v ∧ v.valid = true ∧
      v.lastSequence = (sampleHistory.appended.chain (ofString "c")).length := by
  refine ⟨by decide +kernel, (retained_chain_verifies true sumAuthenticator sumAnchorAuthenticator
    sampleOps ?_ (ofString "c") ?_ sampleHistory rfl).1⟩
  · intro c hc
    simp only [sampleOps, mem_cons, Op.append.injEq, not_mem_nil, or_false, reduceCtorEq] at hc
    rcases hc with rfl | rfl
    · exact readsBack_of_kept (by decide +kernel)
    · exact readsBack_of_kept (by decide +kernel)
  · decide +kernel

end AstralPlane.Audit
