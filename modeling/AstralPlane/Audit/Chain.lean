/-
  Chains of appended events.

  An event that the columns give back as it was written (`Kept`) is read back as
  the same event (`readsBack_of_kept`), so the digest that `append` stored is the one
  that `verify_chain` computes.  A chain of such events verifies after every
  sequence of appends (`appended_events_verify`).

  A `float` from 1e16 on is read back as an `int`, and its event does not verify
  (`float_breaks_chain`).
-/
import AstralPlane.Audit.Tamper
import AstralPlane.Audit.Table

namespace AstralPlane.Audit

open Python Tx List

variable {signed : Bool} {t : JsonType} {v : Value} {row : EventRow} {auth : Authenticator}
  {chainId : Text} {n : ℤ} {d : Digest} {events : Events}

/-! ## Values that are read back as they were written -/

/-- A `float` that a `jsonb` column gives back. -/
def keptFloat (signed : Bool) (x : PyFloat) : Bool :=
  match x.form with
  | .scientific _ _ exponent => decide (exponent < 0)
  | .fixed _ _ => signed || !isNegativeZero x

mutual
/-- Every `float` in the value is one that a `jsonb` column gives back. -/
def keptValue (signed : Bool) : Value → Bool
  | .float x => keptFloat signed x
  | .arr items => keptItems signed items
  | .obj fields => keptFields signed fields
  | .null | .bool _ | .int _ | .str _ => true

def keptItems (signed : Bool) : List Value → Bool
  | [] => true
  | item :: items => keptValue signed item && keptItems signed items

def keptFields (signed : Bool) : List (Text × Value) → Bool
  | [] => true
  | (_, value) :: fields => keptValue signed value && keptFields signed fields
end

theorem jsonbFloat_eq {x : PyFloat} (h : keptFloat signed x) : jsonbFloat signed x = .float x := by
  rw [keptFloat] at h
  rw [jsonbFloat]
  split
  · next lead fraction exponent hf =>
    rw [hf, decide_eq_true_eq] at h
    rw [if_neg (not_le.2 h)]
  · next whole fraction hf =>
    cases signed <;> simp_all

theorem keys_jsonbFields (signed : Bool) (fields : List (Text × Value)) :
    (jsonbFields signed fields).map Prod.fst = fields.map Prod.fst := by
  induction fields with
  | nil => rfl
  | cons f fields ih => rw [jsonbFields, map_cons, ih, map_cons]

mutual
theorem distinct_jsonb : ∀ v : Value, distinct v →
    distinct (jsonb signed v)
  | .null, h | .bool _, h | .int _, h | .str _, h => h
  | .float x, _ => by
    rw [jsonb, jsonbFloat]
    split
    · split <;> rfl
    · rfl
  | .arr items, h => distinctItems_jsonbItems items h
  | .obj fields, h => by
    simp only [distinct, bool_to_prop] at h
    have hp : ((jsonbFields signed fields).insertionSort jsonbKeyLe).Perm
        (jsonbFields signed fields) := perm_insertionSort _ _
    have hd : distinctFields (jsonbFields signed fields) := distinctFields_jsonbFields fields h.2
    simp only [jsonb, distinct, bool_to_prop]
    refine ⟨(hp.map _).nodup_iff.2 (keys_jsonbFields signed fields ▸ h.1), ?_⟩
    exact distinctFields_iff.2 fun f hf => distinctFields_iff.1 hd f (hp.mem_iff.1 hf)

theorem distinctItems_jsonbItems : ∀ items : List Value,
    distinctItems items → distinctItems (jsonbItems signed items)
  | [], h => h
  | item :: items, h => by
    simp only [distinctItems, jsonbItems, Bool.and_eq_true] at h ⊢
    exact ⟨distinct_jsonb item h.1, distinctItems_jsonbItems items h.2⟩

theorem distinctFields_jsonbFields : ∀ fields : List (Text × Value),
    distinctFields fields → distinctFields (jsonbFields signed fields)
  | [], h => h
  | (_, value) :: fields, h => by
    simp only [distinctFields, jsonbFields, Bool.and_eq_true] at h ⊢
    exact ⟨distinct_jsonb value h.1, distinctFields_jsonbFields fields h.2⟩
end

mutual
/-- A kept value is read back with another order of its keys at most. -/
theorem sorted_jsonb : ∀ v : Value, distinct v →
    keptValue signed v → sorted (jsonb signed v) = sorted v
  | .null, _, _ | .bool _, _, _ | .int _, _, _ | .str _, _, _ => rfl
  | .float x, _, hk => by rw [jsonb, jsonbFloat_eq hk]
  | .arr items, hd, hk => congrArg Value.arr (sortedItems_jsonbItems items hd hk)
  | .obj fields, hd, hk => by
    simp only [distinct, bool_to_prop] at hd
    have hp : (sortedFields ((jsonbFields signed fields).insertionSort jsonbKeyLe)).Perm
        (sortedFields fields) := by
      rw [← sortedFields_jsonbFields fields hd.2 hk, sortedFields_eq, sortedFields_eq]
      exact (perm_insertionSort _ _).map _
    rw [jsonb, sorted, sorted, insertionSort_eq_of_perm hp]
    exact (hp.map _).nodup_iff.2 (keys_sortedFields fields ▸ hd.1)

theorem sortedItems_jsonbItems : ∀ items : List Value,
    distinctItems items → keptItems signed items →
    sortedItems (jsonbItems signed items) = sortedItems items
  | [], _, _ => rfl
  | item :: items, hd, hk => by
    simp only [distinctItems, keptItems, Bool.and_eq_true] at hd hk
    rw [jsonbItems, sortedItems, sortedItems, sorted_jsonb item hd.1 hk.1,
      sortedItems_jsonbItems items hd.2 hk.2]

theorem sortedFields_jsonbFields : ∀ fields : List (Text × Value),
    distinctFields fields → keptFields signed fields →
    sortedFields (jsonbFields signed fields) = sortedFields fields
  | [], _, _ => rfl
  | (key, value) :: fields, hd, hk => by
    simp only [distinctFields, keptFields, Bool.and_eq_true] at hd hk
    rw [jsonbFields, sortedFields, sortedFields, sorted_jsonb value hd.1 hk.1,
      sortedFields_jsonbFields fields hd.2 hk.2]
end

theorem holds_jsonb (h : t.holds v) : t.holds (jsonb signed v) := by
  cases t <;> cases v <;> first | rfl | cases h

/-- The empty value of a type, which `_record` puts for a column without a value. -/
def JsonType.empty : JsonType → Value
  | .dict => .obj []
  | .list => .arr []

theorem eq_empty (h : t.holds v) (hv : isFalsy v) : v = t.empty := by
  cases t with
  | dict =>
    cases v with
    | obj fields =>
      cases fields with
      | nil => rfl
      | cons => cases hv
    | _ => cases h
  | list =>
    cases v with
    | arr items =>
      cases items with
      | nil => rfl
      | cons => cases hv
    | _ => cases h

/-- A JSON column gives a kept value back. -/
theorem canonicalJson_jsonb {c : Canonical} (ht : t.holds c.value) (hk : keptValue signed c.value) :
    canonicalJson (orDefault (jsonb signed c.value) t.empty) t = .ok c := by
  have hdefault : orDefault (jsonb signed c.value) t.empty = jsonb signed c.value := by
    rw [orDefault]
    split
    · next hv => rw [eq_empty (holds_jsonb ht) hv]
    · rfl
  rw [hdefault, canonicalJson, dif_pos ⟨distinct_jsonb _ c.isDistinct, holds_jsonb ht⟩]
  refine congrArg Except.ok (canonical_value_injective ?_)
  exact (sorted_jsonb _ c.isDistinct hk).trans c.isSorted

/-! ## Events that are read back as they were written -/

/-- A text that a `uuid` column gives back. -/
def keptUuid (t : Text) : Bool :=
  match uuidInput t with
  | some u => uuidText u = t
  | none => true

/-- The columns give the event back as it was written, if they take it: its UUIDs are written in
    their usual form, no `float` is 1e16 or more, and none is -0.0 unless its sign is kept. -/
def EventFields.isKept (signed : Bool) (e : EventFields) : Bool :=
  keptUuid e.eventId && keptUuid e.correlationId && keptValue signed e.inputsJson.value &&
    keptValue signed e.outputsJson.value && keptValue signed e.artifactPointersJson.value

theorem uuidText_of_parameter {t : Text} {u : Uuid} (h : uuidParameter t = .ok u)
    (hk : keptUuid t) : uuidText u = t := by
  rw [uuidParameter] at h
  rw [keptUuid] at hk
  split at h
  · next hu =>
    cases h
    simpa [hu] using hk
  · cases h

theorem canonicalJson_holds {c : Canonical} (h : canonicalJson v t = .ok c) : t.holds v := by
  rw [canonicalJson] at h
  split at h
  · next hv => exact hv.2
  · cases h

/-- Every row that is made of the event is read back as the event. -/
def ReadsBack (signed : Bool) (e : AuditEvent) : Prop :=
  ∀ eventId correlationId now n previous entry (hn : 0 < n),
    uuidParameter e.eventId = .ok eventId → uuidParameter e.correlationId = .ok correlationId →
    (EventRow.ofEvent signed e eventId correlationId now n previous entry hn).record =
      .ok ⟨e, n, now, previous, entry, hn⟩

/-- **A kept event is read back from its row.** -/
theorem readsBack_of_kept {e : AuditEvent} (hk : e.isKept signed) : ReadsBack signed e := by
  intro eventId correlationId now n previous entry hn he hc
  simp only [EventFields.isKept, Bool.and_eq_true] at hk
  obtain ⟨⟨⟨⟨hid, hcor⟩, hin⟩, hout⟩, hptr⟩ := hk
  have hjson := e.accepted
  simp only [EventFields.postInit, bind_eq_ok] at hjson
  obtain ⟨_, _, _, _, _, _, _, _, _, _, _, _, _, _, _, _, _, _, c1, h1, c2, h2, c3, h3, _⟩ := hjson
  have hi := canonicalJson_jsonb (canonicalJson_holds h1) hin
  have ho := canonicalJson_jsonb (canonicalJson_holds h2) hout
  have hp := canonicalJson_jsonb (canonicalJson_holds h3) hptr
  simp only [JsonType.empty] at hi ho hp
  simp only [EventRow.record, EventRow.ofEvent, hi, ho, hp, uuidText_of_parameter he hid,
    uuidText_of_parameter hc hcor]
  change (do
    let event ← AuditEvent.make e.toEventFields
    pure (⟨event, n, now, previous, entry, hn⟩ : AuditRecord)) = _
  rw [AuditEvent.make]
  split
  · rfl
  · next err h => exact absurd (e.accepted.symm.trans h) nofun

/-! ## Rows of a chain -/

/-- A row whose record is accepted at a position after a digest. -/
def RowAccepts (auth : Authenticator) (chainId : Text) (n : ℤ) (d : Digest) (row : EventRow) : Prop :=
  ∃ r, row.record = .ok r ∧ Accepts auth chainId n d r

theorem make_eq_ok {f : EventFields} {e : AuditEvent} (h : AuditEvent.make f = .ok e) :
    e.toEventFields = f := by
  rw [AuditEvent.make] at h
  split at h
  · cases h
    rfl
  · cases h

theorem EventRow.record_columns {r : AuditRecord} (h : row.record = .ok r) :
    r.event.chainId = row.actorUserId ∧ r.sequence = row.chainSequence ∧
      r.previousDigest = row.prevHash ∧ r.entryDigest = row.entryHash := by
  simp only [EventRow.record, ok_rules] at h
  obtain ⟨_, _, _, _, _, _, e, he, rfl⟩ := h
  have hf := make_eq_ok he
  exact ⟨by rw [hf], rfl, rfl, rfl⟩

section
variable {auth : Authenticator} {chainId : Text} {n : ℤ} {d : Digest} {rows : List EventRow}

theorem RowAccepts.sequence (h : RowAccepts auth chainId n d row) :
    (row.chainSequence : ℤ) = n := by
  obtain ⟨r, hr, ha⟩ := h
  rw [← (EventRow.record_columns hr).2.1]
  exact (accepts_iff.1 ha).2.1

theorem chained_rows_le (h : Chained (RowAccepts auth chainId) EventRow.entryHash n d rows) :
    ∀ row ∈ rows, n ≤ row.chainSequence := by
  induction rows generalizing n d with
  | nil => simp
  | cons row rows ih =>
    intro row' hrow
    rcases mem_cons.1 hrow with rfl | hmem
    · exact h.1.sequence.ge
    · exact (Int.le_add_one le_rfl).trans (ih h.2 row' hmem)

theorem chained_rows_lt (h : Chained (RowAccepts auth chainId) EventRow.entryHash n d rows) :
    rows.Pairwise fun a b => a.chainSequence < b.chainSequence := by
  induction rows generalizing n d with
  | nil => exact .nil
  | cons row rows ih =>
    refine .cons (fun row' hrow => ?_) (ih h.2)
    have h1 := h.1.sequence
    have h2 := chained_rows_le h.2 row' hrow
    omega

/-- The row with the largest number is the last one. -/
theorem firstBy_eq_getLast? (h : rows.Pairwise fun a b => a.chainSequence < b.chainSequence) :
    firstBy (fun a b => decide (b.chainSequence < a.chainSequence)) rows = rows.getLast? := by
  induction rows with
  | nil => rfl
  | cons row rows ih =>
    rw [pairwise_cons] at h
    rw [firstBy, ih h.2]
    cases hl : rows.getLast? with
    | none => simp [List.getLast?_eq_none_iff.1 hl]
    | some last =>
      have hlt := h.1 last (mem_of_getLast? hl)
      simp [hlt, List.getLast?_cons, hl]

theorem next_of_chained (h : Chained (RowAccepts auth chainId) EventRow.entryHash n d rows)
    (hempty : rows = [] → n = 1 ∧ d = genesisDigest) :
    (nextSequence rows.getLast? : ℤ) = n + rows.length ∧
      nextDigest rows.getLast? = lastEntry EventRow.entryHash d rows := by
  rcases rows.eq_nil_or_concat' with rfl | ⟨rows, row, rfl⟩
  · obtain ⟨rfl, rfl⟩ := hempty rfl
    exact ⟨rfl, rfl⟩
  · have hrow := (chained_singleton.1 (chained_append.1 h).2).sequence
    rw [List.getLast?_concat, lastEntry_snoc, nextDigest, nextSequence, length_append]
    push_cast
    exact ⟨by rw [hrow, add_assoc]; rfl, rfl⟩

theorem mapM_record_of_chained (h : Chained (RowAccepts auth chainId) EventRow.entryHash n d rows) :
    ∃ records, rows.mapM EventRow.record = .ok records ∧ records.length = rows.length ∧
      Chained (Accepts auth chainId) AuditRecord.entryDigest n d records ∧
      lastEntry AuditRecord.entryDigest d records = lastEntry EventRow.entryHash d rows := by
  induction rows generalizing n d with
  | nil => exact ⟨[], rfl, rfl, trivial, rfl⟩
  | cons row rows ih =>
    obtain ⟨⟨r, hr, ha⟩, hrest⟩ := h
    obtain ⟨records, hm, hlen, hc, hl⟩ := ih hrest
    have he := (EventRow.record_columns hr).2.2.2
    refine ⟨r :: records, ?_, by rw [length_cons, length_cons, hlen], ⟨ha, ?_⟩, ?_⟩
    · simp only [mapM_cons, ok_rules]
      exact ⟨r, hr, records, hm, rfl⟩
    · rwa [he]
    · rw [lastEntry_cons, lastEntry_cons, he, hl]

end

/-! ## Verification of a stored chain -/

theorem loadChain_of_chained (hc : storable chainId)
    (h : Chained (RowAccepts auth chainId) EventRow.entryHash n d (events.chain chainId))
    {start : ℤ} (hs : 0 < start) (hsn : start ≤ n) : ∃ records,
      (loadChain chainId start).Ok events records events ∧
      records.length = (events.chain chainId).length ∧
      Chained (Accepts auth chainId) AuditRecord.entryDigest n d records ∧
      lastEntry AuditRecord.entryDigest d records =
        lastEntry EventRow.entryHash d (events.chain chainId) := by
  obtain ⟨records, hm, hlen, hr, hl⟩ := mapM_record_of_chained h
  have hfilter : (events.chain chainId).filter
      (fun row => start ≤ (row.chainSequence : ℤ)) = events.chain chainId := by
    refine filter_eq_self.2 fun row hrow => ?_
    exact decide_eq_true (hsn.trans (chained_rows_le h row hrow))
  have hsort : (events.chain chainId).insertionSort sequenceLe = events.chain chainId :=
    Pairwise.insertionSort_eq ((chained_rows_lt h).imp fun hlt => .inl hlt)
  refine ⟨records, ?_, hlen, hr, hl⟩
  refine ok_require_bind (decide_eq_true hs) (ok_require_bind hc ?_)
  refine Ok.bind (ok_get.2 ⟨rfl, rfl⟩) (ok_ofExcept.2 ⟨?_, rfl⟩)
  rw [hfilter, hsort]
  exact hm

/-- **A stored chain verifies from its first row on.** -/
theorem verifyChain_of_chained (hc : storable chainId) (hn : 0 < n)
    (h : Chained (RowAccepts auth chainId) EventRow.entryHash n d (events.chain chainId)) :
    (verifyChain auth chainId n d).Ok events (.passed (n + (events.chain chainId).length - 1)
        (lastEntry EventRow.entryHash d (events.chain chainId))) events := by
  obtain ⟨records, hload, hlen, hr, hl⟩ := loadChain_of_chained hc h hn le_rfl
  refine hload.bind (ok_ofExcept.2 ⟨?_, rfl⟩)
  rw [verifyRecords_eq hr, hlen, hl]

/-! ## Appending -/

section
variable {signed : Bool} {auth : Authenticator} {e : AuditEvent} {now : Datetime}
  {events events' : Events} {r : AuditRecord}

theorem extend_ok (h : (extend signed auth e now).Ok events r events') :
    ∃ eventId correlationId entry row, uuidParameter e.eventId = .ok eventId ∧
      uuidParameter e.correlationId = .ok correlationId ∧
      entryOf auth e.keyId e.toEventFields (nextSequence (events.last e.chainId))
        (nextDigest (events.last e.chainId)) = .ok entry ∧
      row = EventRow.ofEvent signed e eventId correlationId now
        (nextSequence (events.last e.chainId)) (nextDigest (events.last e.chainId)) entry
        (nextSequence_pos _) ∧
      events' = events ++ [row] ∧ (∀ other ∈ events, other.eventId ≠ row.eventId) ∧
      row.record = .ok r := by
  simp only [extend, insertEvent, ok_rules] at h
  obtain ⟨_, rfl, entry, hentry, row, _, ⟨eventId, hid, correlationId, hcor, _, _, _, rfl, _, hkey,
    _, _, hset, rfl, rfl⟩, _, hrecord, _, _, rfl, rfl⟩ := h
  refine ⟨eventId, correlationId, entry, _, hid, hcor, hentry, rfl, hset.symm,
    fun other hmem => ?_, hrecord⟩
  -- the primary key
  have hne := all_eq_true.1 hkey other hmem
  simp only [bool_to_prop, bne_iff_ne] at hne
  exact hne.1

/-- The event is stored under its identifier. -/
def Events.has (events : Events) (e : AuditEvent) : Bool :=
  events.any fun row => row.actorUserId = e.chainId ∧ some row.eventId = uuidInput e.eventId

/-- `append` returns the record of a stored event and adds a row for any other. -/
theorem append_ok (h : (append signed auth e now).Ok events r events') :
    storable e.chainId ∧ (events.has e ∧ events' = events ∨
      events.has e = false ∧ (extend signed auth e now).Ok events r events') := by
  simp only [append, selectEvent, ok_rules] at h
  obtain ⟨_, hc, found, _, ⟨id, hid, _, rfl, rfl, rfl⟩, h⟩ := h
  have hid : uuidInput e.eventId = some id := by
    rw [uuidParameter] at hid
    cases hu : uuidInput e.eventId <;> simp_all
  have hhas : Events.has events e =
      (events.find? fun row => row.actorUserId = e.chainId ∧ row.eventId = id).isSome := by
    rw [Events.has, hid, Bool.eq_iff_iff, any_eq_true, List.find?_isSome]
    simp
  refine ⟨hc, ?_⟩
  cases hf : events.find? fun row => row.actorUserId = e.chainId ∧ row.eventId = id with
  | none =>
    rw [hf] at h hhas
    exact .inr ⟨hhas, h⟩
  | some existing =>
    rw [hf] at h hhas
    simp only [replay, ok_rules] at h
    obtain ⟨_, _, _, _, _, _, _, rfl⟩ := h
    exact .inl ⟨hhas, rfl⟩

theorem Events.chain_snoc (events : Events) (row : EventRow) (chainId : Text) :
    Events.chain (events ++ [row]) chainId =
      events.chain chainId ++ if row.actorUserId = chainId then [row] else [] := by
  rw [Events.chain, Events.chain, filter_append]
  by_cases h : row.actorUserId = chainId <;> simp [h]

/-- An appended event that is read back as it was written continues its chain. -/
theorem extend_accepts (hk : ReadsBack signed e)
    (h : (extend signed auth e now).Ok events r events')
    (hc : Chained (RowAccepts auth e.chainId) EventRow.entryHash n d (events.chain e.chainId))
    (hempty : events.chain e.chainId = [] → n = 1 ∧ d = genesisDigest) : ∃ row,
      events' = events ++ [row] ∧ row ∉ events ∧ row.actorUserId = e.chainId ∧
      RowAccepts auth e.chainId (n + (events.chain e.chainId).length)
        (lastEntry EventRow.entryHash d (events.chain e.chainId)) row := by
  obtain ⟨eventId, correlationId, entry, row, hid, hcor, hentry, rfl, rfl, hnew, _⟩ := extend_ok h
  have hlast : events.last e.chainId = (events.chain e.chainId).getLast? :=
    firstBy_eq_getLast? (chained_rows_lt hc)
  obtain ⟨hseq, hdigest⟩ := next_of_chained hc hempty
  rw [← hlast] at hseq hdigest
  refine ⟨_, rfl, fun hmem => hnew _ hmem rfl, rfl, _, hk _ _ _ _ _ _ _ hid hcor, accepts_iff.2 ?_⟩
  exact ⟨rfl, hseq, hdigest, hdigest ▸ hentry⟩

end

/-! ## Runs of appends -/

/-- A call of `append`, with the time of the database. -/
structure Call where
  event : AuditEvent
  now : Datetime

/-- The table after a call; a call that raises is rolled back. -/
def Call.exec (signed : Bool) (auth : Authenticator) (c : Call) (events : Events) : Events :=
  (append signed auth c.event c.now).commit events

/-- The call appends to the chain: it returns, and its event was not stored. -/
def Call.appends (signed : Bool) (auth : Authenticator) (chainId : Text) (c : Call)
    (events : Events) : Bool :=
  c.event.chainId = chainId && !events.has c.event &&
    ((append signed auth c.event c.now).reply events).isOk

/-- How many of the calls append to the chain. -/
def countAppends (signed : Bool) (auth : Authenticator) (chainId : Text) : List Call → Events → ℕ
  | [], _ => 0
  | c :: calls, events => (c.appends signed auth chainId events).toNat +
      countAppends signed auth chainId calls (c.exec signed auth events)

/-- The rows `new` can follow the rows of the chain. -/
def Continues (auth : Authenticator) (chainId : Text) (n : ℤ) (d : Digest)
    (rows new : List EventRow) : Prop :=
  Chained (RowAccepts auth chainId) EventRow.entryHash (n + rows.length)
    (lastEntry EventRow.entryHash d rows) new

theorem exec_chain (c : Call) (hk : ReadsBack signed c.event)
    (hc : Chained (RowAccepts auth chainId) EventRow.entryHash n d (events.chain chainId))
    (hempty : events.chain chainId = [] → n = 1 ∧ d = genesisDigest) : ∃ new,
      (c.exec signed auth events).chain chainId = events.chain chainId ++ new ∧
      Continues auth chainId n d (events.chain chainId) new ∧
      new.length = (c.appends signed auth chainId events).toNat := by
  have hsame : c.appends signed auth chainId events = false →
      (c.exec signed auth events).chain chainId = events.chain chainId → ∃ new,
        (c.exec signed auth events).chain chainId = events.chain chainId ++ new ∧
        Continues auth chainId n d (events.chain chainId) new ∧
        new.length = (c.appends signed auth chainId events).toNat :=
    fun ha he => ⟨[], by rw [he, append_nil], trivial, by rw [ha]; rfl⟩
  obtain ⟨r | r, events', happ⟩ : ∃ r events', append signed auth c.event c.now events =
    (r, events') := ⟨_, _, rfl⟩
  · refine hsame ?_ ?_
    · simp [Call.appends, Tx.reply, happ, Except.isOk, Except.toBool]
    · rw [Call.exec, Tx.commit, happ]
  · have hexec : c.exec signed auth events = events' := commit_ok happ
    obtain ⟨_, ⟨hhas, rfl⟩ | ⟨hhas, hext⟩⟩ := append_ok happ
    · exact hsame (by simp [Call.appends, hhas]) (by rw [hexec])
    · by_cases hchain : c.event.chainId = chainId
      · subst hchain
        obtain ⟨row, rfl, _, hactor, hacc⟩ := extend_accepts hk hext hc hempty
        refine ⟨[row], ?_, chained_singleton.2 hacc, ?_⟩
        · rw [hexec, Events.chain_snoc, if_pos hactor]
        · simp [Call.appends, hhas, Tx.reply, happ, Except.isOk, Except.toBool]
      · -- the row belongs to another chain
        obtain ⟨_, _, _, _, _, _, _, rfl, rfl, _⟩ := extend_ok hext
        refine hsame (by simp [Call.appends, hchain]) ?_
        rw [hexec, Events.chain_snoc]
        exact (congrArg _ (if_neg hchain)).trans (append_nil _)

/-- A chain stays a chain, and grows by a row with every append. -/
theorem chained_run (calls : List Call)
    (hk : ∀ c ∈ calls, ReadsBack signed c.event) (events : Events)
    (hc : Chained (RowAccepts auth chainId) EventRow.entryHash 1 genesisDigest
      (events.chain chainId)) : Chained (RowAccepts auth chainId) EventRow.entryHash 1 genesisDigest
        ((run (Call.exec signed auth) calls events).chain chainId) ∧
      ((run (Call.exec signed auth) calls events).chain chainId).length =
        (events.chain chainId).length + countAppends signed auth chainId calls events := by
  induction calls generalizing events with
  | nil => exact ⟨hc, rfl⟩
  | cons c calls ih =>
    obtain ⟨new, hnew, hcont, hlen⟩ := exec_chain c (hk c mem_cons_self) hc fun _ => ⟨rfl, rfl⟩
    obtain ⟨hr, hl⟩ := ih (fun c' hc' => hk c' (mem_cons_of_mem _ hc'))
      (c.exec signed auth events) (hnew ▸ chained_append.2 ⟨hc, hcont⟩)
    rw [run_cons, countAppends, hl, hnew, length_append, hlen]
    exact ⟨hr, by rw [add_assoc]⟩

/-- **Appended events verify.**  After every sequence of appends of events that the columns give
    back as they were written, `verify_chain` succeeds for every chain, and its last sequence is
    the number of appends to the chain. -/
theorem appended_events_verify (signed : Bool) (auth : Authenticator) (calls : List Call)
    (hk : ∀ c ∈ calls, c.event.isKept signed = true) (chainId : Text)
    (hchain : storable chainId = true) : ∃ v,
      (verifyChain auth chainId 1 genesisDigest).reply (run (Call.exec signed auth) calls []) =
        .ok v ∧ v.valid = true ∧ v.lastSequence = countAppends signed auth chainId calls [] := by
  obtain ⟨hc, hlen⟩ := @chained_run signed auth chainId calls
    (fun c hc => readsBack_of_kept (hk c hc)) [] trivial
  have hv := verifyChain_of_chained hchain one_pos hc
  refine ⟨_, congrArg Prod.fst hv, rfl, ?_⟩
  rw [ChainVerification.passed, hlen]
  simp [Events.chain]

def sampleId : Text := ofString "00000000-0000-0000-0000-000000000001"

/-- An event with one input, a number. -/
def numberFields (x : PyFloat) : EventFields :=
  { noteFields .v2 (ofString "a") with
    eventId := sampleId
    correlationId := sampleId
    inputsJson := .ofValue (.obj [(ofString "n", .float x)]) rfl }

/-- A half more than a whole number. -/
def andHalf (whole : ℕ) : PyFloat := ⟨false, .fixed whole [5], rfl⟩

def halfCall : Call :=
  ⟨⟨numberFields (andHalf 0), by decide +kernel⟩, ⟨0, isDatetime_zero⟩⟩

/-- A second event of the chain of `halfCall`. -/
def nextCall : Call :=
  ⟨⟨{ numberFields (andHalf 1) with
      eventId := ofString "00000000-0000-0000-0000-000000000002" }, by decide +kernel⟩,
    ⟨0, isDatetime_zero⟩⟩

def bigCall : Call :=
  ⟨⟨numberFields ⟨false, .scientific 1 [] 16, rfl⟩, by decide +kernel⟩, ⟨0, isDatetime_zero⟩⟩

theorem appended_events_verify_half :
    countAppends true sumAuthenticator (ofString "c") [halfCall, nextCall] [] = 2 ∧ ∃ v,
      (verifyChain sumAuthenticator (ofString "c") 1 genesisDigest).reply
        (run (Call.exec true sumAuthenticator) [halfCall, nextCall] []) = .ok v ∧ v.valid = true ∧
      v.lastSequence = countAppends true sumAuthenticator (ofString "c") [halfCall, nextCall] [] := by
  refine ⟨by decide +kernel, appended_events_verify true sumAuthenticator [halfCall, nextCall] ?_ _ ?_⟩
  · decide +kernel
  · decide +kernel

/-- The append of 1e16 returns, but its chain does not verify. -/
theorem float_breaks_chain :
    countAppends true sumAuthenticator (ofString "c") [bigCall] [] = 1 ∧
    (verifyChain sumAuthenticator (ofString "c") 1 genesisDigest).reply
      (run (Call.exec true sumAuthenticator) [bigCall] []) =
        .ok (.failed sampleId .entryDigestMismatch 0 genesisDigest) := by
  constructor
  · decide +kernel
  · decide +kernel

end AstralPlane.Audit
