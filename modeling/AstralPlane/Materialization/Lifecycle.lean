/-
  Materialisation and purge never meet.

  A prefix tombstone is only ever written for an attachment that is deleted in
  the same transaction, and a deleted attachment is written no more (`Coherent`);
  an owner that is retired has no attachment that is not deleted.  The statements
  of a publisher select the row by its lease, so that a publisher whose lease is
  not the current one finds none.
-/
import AstralPlane.Materialization.Calls

namespace AstralPlane.Materialization

open Tx Keyed Option
open Purge (Env Tombstone Tombstones)

variable {env : Env} {k ownerId : String} {s s' : Store} {row row' : Row Attachment} {a : Attachment}
  {now requestedAt : Time} {holder : Holder} {f : Fence} {r : Tombstone × Bool} {deletedAt : ℕ}

/-! ## What the tables say -/

def Store.Retired (s : Store) (ownerId : String) : Prop :=
  ∃ o, s.owners.lookup ownerId = some o ∧ o.state = .retired

def Store.Active (s : Store) (ownerId : String) : Prop :=
  ∃ o, s.owners.lookup ownerId = some o ∧ o.state = .active

/-- There is a purge tombstone for the prefix of the attachment. -/
def Store.Tombstoned (s : Store) (ownerId attachmentId : String) : Prop :=
  ∃ k row, s.tombstones.lookup k = some row ∧ row.val.scope = .attachmentPrefix ∧
    row.val.ownerId = ownerId ∧ row.val.objectId = attachmentId

structure Coherent (s : Store) : Prop where
  tombstoned : ∀ owner id, s.Tombstoned owner id →
    ∃ row, s.attachments.lookup id = some row ∧ row.val.ownerId = owner ∧
      row.val.deletedAt.isSome
  retired : ∀ id row, s.attachments.lookup id = some row → s.Retired row.val.ownerId →
    row.val.deletedAt.isSome
  owned : ∀ id row, s.attachments.lookup id = some row → row.val.leaseId.isSome →
    (s.owners.lookup row.val.ownerId).isSome

/-! ## The owner -/

@[simp] theorem ensureOwner_attachments : (s.ensureOwner ownerId).attachments = s.attachments := by
  unfold Store.ensureOwner
  split <;> rfl

@[simp] theorem ensureOwner_tombstones : (s.ensureOwner ownerId).tombstones = s.tombstones := by
  unfold Store.ensureOwner
  split <;> rfl

theorem Store.ensureOwner_of_isSome (h : (s.owners.lookup ownerId).isSome) :
    s.ensureOwner ownerId = s := by
  obtain ⟨o, ho⟩ := isSome_iff_exists.1 h
  exact if_pos (List.any_eq_true.2 ⟨_, mem_entries.2 ho, decide_eq_true rfl⟩)

theorem ensureOwner_owners (s : Store) (ownerId k : String) :
    (s.ensureOwner ownerId).owners.lookup k = s.owners.lookup k ∨
      (k = ownerId ∧ s.owners.lookup k = none ∧ (s.ensureOwner ownerId).owners.lookup k = some {}) := by
  by_cases hsome : (s.owners.lookup ownerId).isSome
  · exact .inl (by rw [s.ensureOwner_of_isSome hsome])
  unfold Store.ensureOwner
  split
  · exact .inl rfl
  · by_cases hk : k = ownerId
    · subst hk
      exact .inr ⟨rfl, by simpa using hsome, by rw [lookup_write, if_pos rfl]⟩
    · exact .inl (by rw [lookup_write, if_neg hk])

theorem retired_ensureOwner : (s.ensureOwner ownerId).Retired k ↔ s.Retired k := by
  unfold Store.Retired
  rcases ensureOwner_owners s ownerId k with h | ⟨-, hnone, h⟩
  · rw [h]
  · rw [h, hnone]
    constructor
    · rintro ⟨o, ho, hr⟩
      cases ho
      cases hr
    · rintro ⟨o, ho, -⟩
      cases ho

theorem lockActiveBlobOwner_ok {operation : String} {u : Unit}
    (h : (lockActiveBlobOwner ownerId operation).Ok s u s') :
    s' = s.ensureOwner ownerId ∧ s'.Active ownerId := by
  simp only [lockActiveBlobOwner, ok_rules] at h
  obtain ⟨_, _, rfl, _, rfl, hactive, rfl⟩ := h
  refine ⟨rfl, ?_⟩
  cases ho : (s.ensureOwner ownerId).owners.lookup ownerId with
  | none =>
    rw [ho] at hactive
    cases hactive
  | some o =>
    rw [ho] at hactive
    exact ⟨o, ho, by simpa using hactive⟩

/-! ## One step of the tables -/

structure RowAdvances (s' : Store) (a a' : Attachment) : Prop where
  owner : a'.ownerId = a.ownerId
  deleted : a.deletedAt.isSome → a'.deletedAt.isSome ∧ a'.stage = a.stage
  ready : a.stage = .ready → a'.stage = .ready
  /-- An attachment becomes ready while its owner is active. -/
  published : a.stage = .pending → a'.stage = .ready →
    a.deletedAt = none ∧ a'.deletedAt = none ∧ s'.Active a.ownerId

theorem RowAdvances.refl (s' : Store) (a : Attachment) : RowAdvances s' a a :=
  ⟨rfl, fun h => ⟨h, rfl⟩, id, fun h h' => by rw [h] at h'; cases h'⟩

structure Advances (s s' : Store) : Prop where
  coherent : Coherent s'
  rows : ∀ id row, s.attachments.lookup id = some row →
    ∃ row', s'.attachments.lookup id = some row' ∧ RowAdvances s' row.val row'.val
  born : ∀ id row', s.attachments.lookup id = none → s'.attachments.lookup id = some row' →
    row'.val.stage = .pending ∧ row'.val.deletedAt = none ∧ s'.Active row'.val.ownerId
  retired : ∀ owner, s.Retired owner → s'.Retired owner
  tombstoned : ∀ owner id, s.Tombstoned owner id → s'.Tombstoned owner id

/-- An attachment that is deleted, or stays as it is. -/
structure Thinned (a a' : Attachment) : Prop where
  owner : a'.ownerId = a.ownerId
  stage : a'.stage = a.stage
  lease : a'.leaseId = a.leaseId
  deleted : a.deletedAt.isSome → a'.deletedAt.isSome

theorem Thinned.refl (a : Attachment) : Thinned a a := ⟨rfl, rfl, rfl, id⟩

/-- The attachments are those that there were, and what was deleted stays so. -/
structure Thins (s s' : Store) : Prop where
  rows : ∀ id row, s.attachments.lookup id = some row →
    ∃ row', s'.attachments.lookup id = some row' ∧ Thinned row.val row'.val
  born : ∀ id, s.attachments.lookup id = none → s'.attachments.lookup id = none

section
variable {s1 s2 : Store}

theorem Thins.of_eq (h : s'.attachments = s.attachments) : Thins s s' :=
  ⟨fun _ row hrow => ⟨row, by rw [h, hrow], .refl _⟩, fun _ hnone => by rw [h, hnone]⟩

theorem Thins.trans (h : Thins s s1) (h' : Thins s1 s2) : Thins s s2 where
  rows := by
    intro id row hrow
    obtain ⟨row1, hrow1, ht⟩ := h.rows id row hrow
    obtain ⟨row2, hrow2, ht'⟩ := h'.rows id row1 hrow1
    exact ⟨row2, hrow2, ht'.owner.trans ht.owner, ht'.stage.trans ht.stage, ht'.lease.trans ht.lease,
      fun h => ht'.deleted (ht.deleted h)⟩
  born := fun id hnone => h'.born id (h.born id hnone)

theorem Thins.before (h : Thins s s') {id : String} (hrow' : s'.attachments.lookup id = some row') :
    ∃ row, s.attachments.lookup id = some row ∧ Thinned row.val row'.val := by
  cases hrow : s.attachments.lookup id with
  | none =>
    cases (h.born id hrow).symm.trans hrow'
  | some row =>
    obtain ⟨row'', hrow'', ht⟩ := h.rows id row hrow
    cases hrow'.symm.trans hrow''
    exact ⟨row, rfl, ht⟩

theorem Thins.delete {id : String} (hrow : s.attachments.lookup id = some row)
    (hatt : ∀ k, s'.attachments.lookup k = if k = id then some row' else s.attachments.lookup k)
    (ht : Thinned row.val row'.val) : Thins s s' := by
  refine ⟨fun k r hr => ?_, fun k hnone => ?_⟩
  · by_cases hk : k = id
    · subst hk
      cases hrow.symm.trans hr
      exact ⟨row', by rw [hatt, if_pos rfl], ht⟩
    · exact ⟨r, by rw [hatt, if_neg hk, hr], .refl _⟩
  · rw [hatt]
    split
    · subst_vars
      rw [hrow] at hnone
      cases hnone
    · exact hnone

/-- A purge only deletes rows: those of the prefixes with a new tombstone, and all those of an
    owner that it retires. -/
structure Sweeps (s s' : Store) : Prop where
  thins : Thins s s'
  owners : ∀ k, (s.owners.lookup k).isSome → (s'.owners.lookup k).isSome
  retires : ∀ o, s.Retired o → s'.Retired o
  retired : ∀ o, s'.Retired o → s.Retired o ∨ ∀ id row', s'.attachments.lookup id = some row' →
    row'.val.ownerId = o → row'.val.deletedAt.isSome
  kept : ∀ o k, s.Tombstoned o k → s'.Tombstoned o k
  tombstoned : ∀ o k, s'.Tombstoned o k → s.Tombstoned o k ∨
    ∃ row', s'.attachments.lookup k = some row' ∧ row'.val.ownerId = o ∧
      row'.val.deletedAt.isSome

theorem Thins.sweeps (h : Thins s s') (howners : s'.owners = s.owners)
    (hkept : ∀ o k, s.Tombstoned o k → s'.Tombstoned o k)
    (hnew : ∀ o k, s'.Tombstoned o k → s.Tombstoned o k ∨
      ∃ row', s'.attachments.lookup k = some row' ∧ row'.val.ownerId = o ∧
        row'.val.deletedAt.isSome) : Sweeps s s' := by
  have hretired : ∀ o, s'.Retired o ↔ s.Retired o := fun o => by rw [Store.Retired, howners]; rfl
  exact ⟨h, fun _ hk => by rwa [howners], fun o => (hretired o).2, fun o ho => .inl ((hretired o).1 ho),
    hkept, hnew⟩

theorem Sweeps.refl (s : Store) : Sweeps s s :=
  (Thins.of_eq rfl).sweeps rfl (fun _ _ h => h) fun _ _ => .inl

theorem Sweeps.trans (h : Sweeps s s1) (h' : Sweeps s1 s2) : Sweeps s s2 where
  thins := h.thins.trans h'.thins
  owners := fun k hk => h'.owners k (h.owners k hk)
  retires := fun o ho => h'.retires o (h.retires o ho)
  retired := by
    intro o ho
    rcases h'.retired o ho with ho1 | hall
    · rcases h.retired o ho1 with hs | hall
      · exact .inl hs
      · refine .inr fun id row hrow hown => ?_
        obtain ⟨row1, hrow1, ht⟩ := h'.thins.before hrow
        exact ht.deleted (hall id row1 hrow1 (ht.owner.symm.trans hown))
    · exact .inr hall
  kept := fun o k ht => h'.kept o k (h.kept o k ht)
  tombstoned := by
    intro o k ht
    rcases h'.tombstoned o k ht with ht1 | hrow
    · rcases h.tombstoned o k ht1 with hs | ⟨row1, hrow1, hown, hd⟩
      · exact .inl hs
      · obtain ⟨row2, hrow2, hthin⟩ := h'.thins.rows k row1 hrow1
        exact .inr ⟨row2, hrow2, hthin.owner.trans hown, hthin.deleted hd⟩
    · exact .inr hrow

theorem Sweeps.advances (h : Sweeps s s') (hc : Coherent s) : Advances s s' where
  coherent := by
    refine ⟨fun o k ht => ?_, fun id row' hrow' hr => ?_, fun id row' hrow' hl => ?_⟩
    · rcases h.tombstoned o k ht with hs | hrow
      · obtain ⟨row, hrow, hown, hd⟩ := hc.tombstoned o k hs
        obtain ⟨row', hrow', hthin⟩ := h.thins.rows k row hrow
        exact ⟨row', hrow', hthin.owner.trans hown, hthin.deleted hd⟩
      · exact hrow
    · rcases h.retired _ hr with hs | hall
      · obtain ⟨row, hrow, ht⟩ := h.thins.before hrow'
        rw [ht.owner] at hs
        exact ht.deleted (hc.retired id row hrow hs)
      · exact hall id row' hrow' rfl
    · obtain ⟨row, hrow, ht⟩ := h.thins.before hrow'
      rw [ht.lease] at hl
      rw [ht.owner]
      exact h.owners _ (hc.owned id row hrow hl)
  rows := by
    intro id row hrow
    obtain ⟨row', hrow', ht⟩ := h.thins.rows id row hrow
    refine ⟨row', hrow', ht.owner, fun hd => ⟨ht.deleted hd, ht.stage⟩, ht.stage.trans, ?_⟩
    intro hp hr
    rw [ht.stage, hp] at hr
    cases hr
  born := fun id row' hnone hrow' => by rw [h.thins.born id hnone] at hrow'; cases hrow'
  retired := h.retires
  tombstoned := h.kept

/-- The row of an attachment is deleted, and a tombstone for its prefix may be new. -/
theorem Sweeps.delete {id : String} (hrow : s.attachments.lookup id = some row)
    (hatt : ∀ k, s'.attachments.lookup k = if k = id then some row' else s.attachments.lookup k)
    (howners : s'.owners = s.owners) (hthin : Thinned row.val row'.val)
    (hdeleted : row'.val.deletedAt.isSome)
    (hnew : ∀ o k, s'.Tombstoned o k → s.Tombstoned o k ∨ (o = row.val.ownerId ∧ k = id))
    (hkept : ∀ o k, s.Tombstoned o k → s'.Tombstoned o k) : Sweeps s s' := by
  refine (Thins.delete hrow hatt hthin).sweeps howners hkept fun o k ht => ?_
  rcases hnew o k ht with hold | ⟨rfl, rfl⟩
  · exact .inl hold
  · exact .inr ⟨row', by rw [hatt, if_pos rfl], hthin.owner, hdeleted⟩

theorem Sweeps.ensureOwner (s : Store) (ownerId : String) : Sweeps s (s.ensureOwner ownerId) where
  thins := .of_eq ensureOwner_attachments
  owners := by
    intro k hk
    rcases ensureOwner_owners s ownerId k with heq | ⟨-, -, heq⟩
    · rwa [heq]
    · rw [heq]
      rfl
  retires := fun _ => retired_ensureOwner.2
  retired := fun _ ho => .inl (retired_ensureOwner.1 ho)
  kept := fun _ _ ht => by rwa [Store.Tombstoned, ensureOwner_tombstones]
  tombstoned := fun _ _ ht => .inl (by rwa [Store.Tombstoned, ensureOwner_tombstones] at ht)

theorem Advances.of_ensureOwner (h : Advances (s.ensureOwner ownerId) s') : Advances s s' where
  coherent := h.coherent
  rows := by simpa only [ensureOwner_attachments] using h.rows
  born := by simpa only [ensureOwner_attachments] using h.born
  retired := fun o ho => h.retired o (retired_ensureOwner.2 ho)
  tombstoned := fun o k ht => h.tombstoned o k ((Sweeps.ensureOwner s ownerId).kept o k ht)

/-- A publisher writes its attachment: a new one, or one that is pending and not deleted. -/
theorem Coherent.write (h : Coherent s) {id : String} (hactive : s.Active ownerId)
    (howner : row'.val.ownerId = ownerId)
    (hold : ∀ row, s.attachments.lookup id = some row → row.val.ownerId = ownerId ∧
      row.val.stage = .pending ∧ row.val.deletedAt = none)
    (hnew : s.attachments.lookup id = none → row'.val.stage = .pending)
    (hlive : row'.val.deletedAt = none) :
    Advances s { s with attachments := s.attachments.insert id row' } := by
  refine ⟨⟨fun owner k ht => ?_, fun k row hrow hr => ?_, fun k row hrow hlease => ?_⟩,
    fun k row hrow => ?_, fun k row hnone hrow => ?_, fun _ hr => hr, fun _ _ ht => ht⟩
  · obtain ⟨row, hrow, hown, hdeleted⟩ := h.tombstoned owner k ht
    by_cases hk : k = id
    · subst hk
      rw [(hold row hrow).2.2] at hdeleted
      cases hdeleted
    · exact ⟨row, by rw [lookup_write, if_neg hk, hrow], hown, hdeleted⟩
  · rcases write_cases hrow with ⟨-, rfl⟩ | ⟨-, hrow⟩
    · rw [howner] at hr
      obtain ⟨o, ho, hr⟩ := hr
      obtain ⟨o', ho', ha⟩ := hactive
      cases ho.symm.trans ho'
      rw [hr] at ha
      cases ha
    · exact h.retired k row hrow hr
  · rcases write_cases hrow with ⟨-, rfl⟩ | ⟨-, hrow⟩
    · obtain ⟨o, ho, -⟩ := hactive
      rw [howner]
      exact isSome_of_eq_some ho
    · exact h.owned k row hrow hlease
  · by_cases hk : k = id
    · subst hk
      obtain ⟨hown, hstage, hdeleted⟩ := hold row hrow
      refine ⟨row', by rw [lookup_write, if_pos rfl], howner.trans hown.symm, ?_, ?_, ?_⟩
      · intro hd
        rw [hdeleted] at hd
        cases hd
      · intro hr
        cases hstage.symm.trans hr
      · intro _ _
        refine ⟨hdeleted, hlive, ?_⟩
        rw [hown]
        exact hactive
    · exact ⟨row, by rw [lookup_write, if_neg hk, hrow], RowAdvances.refl _ _⟩
  · rcases write_cases hrow with ⟨rfl, rfl⟩ | ⟨-, hrow⟩
    · exact ⟨hnew hnone, hlive, howner ▸ hactive⟩
    · cases hnone.symm.trans hrow

end

/-! ## The statements -/

theorem ok_ofArguments {α : Type} {r : Except Repositories.ValidationError α} {a : α} :
    (Failure.ofArguments r).Ok s a s' ↔ r = .ok a ∧ s = s' := by
  rw [Failure.ofArguments, ok_ofExcept]
  cases r <;> simp [Except.mapError]

theorem slashed_of_physical {v : String} (h : isPhysicalAttachmentId v) : Purge.slashed v = v := by
  have hchars : ∀ c ∈ v.toList, c ≠ '\\' := by
    rintro c hc rfl
    unfold isPhysicalAttachmentId at h
    split at h
    · cases h
    · rename_i c cs heq
      rw [heq] at hc
      simp only [Bool.and_eq_true, List.all_eq_true] at h
      rcases List.mem_cons.1 hc with rfl | hc
      · exact absurd h.1.1 (by decide)
      · exact absurd (h.2 _ hc) (by decide)
  have hmap : (v.toList.map fun c => if c = '\\' then '/' else c) = v.toList := by
    conv_rhs => rw [← List.map_id v.toList]
    exact List.map_congr_left fun c hc => if_neg (hchars c hc)
  rw [Purge.slashed, hmap, String.ofList_toList]

theorem physicalAttachmentId_ok {v n : String} (h : physicalAttachmentId env v = .ok n) : n = v := by
  simp only [physicalAttachmentId, ok_rules] at h
  obtain ⟨_, hphysical, h⟩ := h
  split at h
  · cases h
  · rename_i normalized hnormal
    simp only [ok_rules] at h
    obtain ⟨_, -, rfl⟩ := h
    unfold Purge.Env.storageKey at hnormal
    split at hnormal
    · cases hnormal
      exact slashed_of_physical hphysical
    · cases hnormal

theorem Holder.check_ok {h : Holder} {id : String} (hok : (h.check env).Ok s id s') :
    id = h.attachmentId ∧ s' = s := by
  simp only [Holder.check, requireOwner, checkLeaseId, requireArgument, ok_rules,
    ok_ofArguments] at hok
  obtain ⟨_, -, _, hid, _, -, rfl, rfl⟩ := hok
  exact ⟨physicalAttachmentId_ok hid, rfl⟩

theorem Attachment.leased_iff {leaseId : String} {version : ℕ} :
    a.leased ownerId leaseId version now ↔
      a.ownerId = ownerId ∧ a.stage = .pending ∧ a.deletedAt = none ∧ a.leaseId = some leaseId ∧
        a.leaseVersion = some version ∧ a.leaseExpiresAt.any (now < ·) := by
  simp [Attachment.leased, and_assoc]

/-! ## Publishing -/

theorem beginPendingMaterialization_ok (h : Coherent s) {q : Begin} {stage : Stage}
    (hok : (beginPendingMaterialization env q now).Ok s stage s') : Advances s s' := by
  simp only [beginPendingMaterialization, requireOwner, requireArgument, checkMaxBytes,
    checkLeaseId, checkLeaseSeconds, ok_rules, ok_ofArguments] at hok
  obtain ⟨id, -, _, -, _, -, _, -, _, -, _, -, identity, -, _, _, ⟨_, -, -, rfl⟩, _, -, _, -, _,
    s1, hlock, inserted, s2, hinsert, hrest⟩ := hok
  obtain ⟨rfl, hactive⟩ := lockActiveBlobOwner_ok hlock
  -- what follows the insertion only reads
  have hread : s' = s2 := by
    cases inserted with
    | some =>
      simp only [ok_rules] at hrest
      obtain ⟨_, -, -, rfl⟩ := hrest
      rfl
    | none =>
      simp only [ok_rules] at hrest
      obtain ⟨_, -, -, rfl⟩ := hrest
      rfl
  subst hread
  have htouch := (Sweeps.ensureOwner s q.ownerId).advances h
  rw [onAttachments, ok_zoom] at hinsert
  obtain ⟨t, ht, rfl⟩ := hinsert
  simp only [insertAttachment, ok_rules, ok_ite] at ht
  obtain ⟨_, rfl, ⟨-, rfl, rfl⟩ | ⟨hnone, _, -, hwrite⟩⟩ := ht
  · exact htouch
  · obtain ⟨row, hrow, -, rfl⟩ := (Sql.write_settles id _ _).of_ok hwrite
    refine .of_ensureOwner (htouch.coherent.write hactive (by rw [hrow]; rfl) (fun row' hrow' => ?_)
      (fun _ => by rw [hrow]; rfl) (by rw [hrow]; rfl))
    rw [ensureOwner_attachments] at hrow'
    simp [hrow'] at hnone

@[simp] theorem getLifecycle_ensureOwner (owner ownerId id : String) :
    (s.ensureOwner owner).getLifecycle ownerId id = s.getLifecycle ownerId id := by
  rw [Store.getLifecycle, Store.getLifecycle, ensureOwner_attachments]

theorem getLifecycle_eq_some {id : String} : s.getLifecycle ownerId id = some a ↔
      ∃ row, s.attachments.lookup id = some row ∧ row.val = a ∧ a.ownerId = ownerId := by
  simp only [Store.getLifecycle, map_eq_some_iff, filter_eq_some_iff,
    decide_eq_true_eq]
  constructor
  · rintro ⟨row, ⟨hrow, hown⟩, rfl⟩
    exact ⟨row, hrow, rfl, hown⟩
  · rintro ⟨row, hrow, rfl, hown⟩
    exact ⟨row, ⟨hrow, hown⟩, rfl⟩

theorem Coherent.ensureOwner_eq (h : Coherent s) {id : String}
    (ha : s.getLifecycle ownerId id = some a) (hlease : a.leaseId.isSome) :
    s.ensureOwner ownerId = s := by
  obtain ⟨row, hrow, rfl, rfl⟩ := getLifecycle_eq_some.1 ha
  exact s.ensureOwner_of_isSome (h.owned id row hrow hlease)

/-- The holder has no lease on its attachment that is neither abandoned nor expired. -/
def Holder.Stale (h : Holder) (s : Store) (now : Time) : Prop :=
  ∀ row, s.attachments.lookup h.attachmentId = some row →
    row.val.leased h.ownerId h.leaseId h.version now = false

/-- A call of a publisher, and what it does with a lease that is not the current one. -/
def Publishes (s s' : Store) (stale : Prop) : Prop := Advances s s' ∧ (stale → s' = s)

/-- The holder of a lease rewrites its attachment. -/
theorem Coherent.rewrite (h : Coherent s) (holder : Holder)
    (hactive : (s.ensureOwner holder.ownerId).Active holder.ownerId)
    (hrow : (s.ensureOwner holder.ownerId).attachments.lookup holder.attachmentId = some row)
    (hleased : row.val.leased holder.ownerId holder.leaseId holder.version now)
    (howner : row'.val.ownerId = row.val.ownerId)
    (hdeleted : row'.val.deletedAt = row.val.deletedAt) :
    Publishes s { s.ensureOwner holder.ownerId with
      attachments := (s.ensureOwner holder.ownerId).attachments.insert holder.attachmentId row' }
      (holder.Stale s now) := by
  obtain ⟨hown, hstage, hlive, -⟩ := Attachment.leased_iff.1 hleased
  refine ⟨.of_ensureOwner (((Sweeps.ensureOwner s holder.ownerId).advances h).coherent.write hactive
    (howner.trans hown) (fun r hr => ?_) (fun hnone => ?_) (hdeleted.trans hlive)), fun hstale => ?_⟩
  · cases hrow.symm.trans hr
    exact ⟨hown, hstage, hlive⟩
  · cases hnone.symm.trans hrow
  · rw [ensureOwner_attachments] at hrow
    cases (hstale row hrow).symm.trans hleased

theorem Coherent.replay (h : Coherent s) {id : String} {p : Attachment → Bool} {stale : Prop}
    (leaseId : String)
    (ha : ((s.ensureOwner ownerId).getLifecycle ownerId id).filter p = some a)
    (hlease : p a → a.leaseId = some leaseId) : Publishes s (s.ensureOwner ownerId) stale := by
  rw [getLifecycle_ensureOwner] at ha
  obtain ⟨hlifecycle, hp⟩ := filter_eq_some_iff.1 ha
  exact ⟨(Sweeps.ensureOwner _ _).advances h, fun _ => h.ensureOwner_eq hlifecycle (by rw [hlease hp]; rfl)⟩

theorem renewPendingMaterialization_ok (h : Coherent s) {seconds : ℕ}
    (hok : (renewPendingMaterialization env holder seconds now).Ok s f s') :
    Publishes s s' (holder.Stale s now) := by
  simp only [renewPendingMaterialization, checkLeaseSeconds, requireArgument, ok_rules] at hok
  obtain ⟨id, _, hcheck, _, -, _, _, hlock, updated, s2, hupdate, hrest⟩ := hok
  obtain ⟨rfl, rfl⟩ := Holder.check_ok hcheck
  obtain ⟨rfl, hactive⟩ := lockActiveBlobOwner_ok hlock
  rcases (Sql.zoom_update_settles rfl).of_ok hupdate with
    ⟨rfl, rfl, -⟩ | ⟨row, row', hrow, hleased, hw, rfl, rfl⟩
  · simp only [ok_rules] at hrest
    obtain ⟨_, rfl, hrest⟩ := hrest
    split at hrest
    · rename_i a ha
      obtain ⟨-, rfl⟩ := ok_ofExcept.1 hrest
      refine h.replay holder.leaseId ha fun hrenewed => ?_
      simp only [Holder.renewed, bool_to_prop] at hrenewed
      exact hrenewed.1.2
    · exact absurd hrest ok_raise
  · obtain ⟨-, rfl⟩ := ok_ofExcept.1 hrest
    exact h.rewrite holder hactive hrow hleased (by rw [hw]; rfl) (by rw [hw]; rfl)

theorem finalizePendingMaterialization_ok (h : Coherent s) {c : Content}
    (hok : (finalizePendingMaterialization env f c now).Ok s a s') :
    Publishes s s' (f.holder.Stale s now) := by
  simp only [finalizePendingMaterialization, checkMaxBytes, requireArgument, Content.check,
    ok_rules, ok_ofArguments] at hok
  obtain ⟨id, _, hcheck, _, -, identity, -, _, _, ⟨_, -, -, rfl⟩, _, _, hlock, _, _, ⟨_, -, _, -,
    -, rfl⟩, _, -, updated, s2, hupdate, hrest⟩ := hok
  obtain ⟨rfl, rfl⟩ := Holder.check_ok hcheck
  obtain ⟨rfl, hactive⟩ := lockActiveBlobOwner_ok hlock
  rcases (Sql.zoom_update_settles rfl).of_ok hupdate with
    ⟨rfl, rfl, -⟩ | ⟨row, row', hrow, hselects, hw, rfl, rfl⟩
  · simp only [ok_rules] at hrest
    obtain ⟨_, rfl, hrest⟩ := hrest
    split at hrest
    · rename_i a ha
      obtain ⟨-, rfl⟩ := ok_pure.1 hrest
      refine h.replay f.leaseId ha fun hbefore => ?_
      simp only [Fence.finalizedBefore, bool_to_prop] at hbefore
      exact hbefore.1.1.1.1.1.1.1.2
    · exact absurd hrest ok_raise
  · obtain ⟨-, rfl⟩ := ok_pure.1 hrest
    have hleased : row.val.leased f.ownerId f.leaseId f.leaseVersion now := by
      simp only [Fence.selects, Bool.and_eq_true] at hselects
      exact hselects.1.1.1.1
    exact h.rewrite f.holder hactive hrow hleased (by rw [hw]; rfl) (by rw [hw]; rfl)

theorem pendingMaterialization_holder {id : String} (h : pendingMaterialization env id a = .ok f) :
    f.ownerId = a.ownerId ∧ f.attachmentId = id ∧ a.leaseId = some f.leaseId ∧
      a.leaseVersion = some f.leaseVersion := by
  simp only [pendingMaterialization, ok_rules] at h
  obtain ⟨_, -, _, -, h⟩ := h
  split at h
  · rename_i leaseId version maxBytes key hlease hversion hmax hkey
    split at h
    · rename_i id' locator key' howner hid hidentity
      cases h
      exact ⟨rfl, physicalAttachmentId_ok hid, hlease, hversion⟩
    · cases h
  · cases h

theorem lockPendingMaterializationForPublish_ok (h : Coherent s)
    (hok : (lockPendingMaterializationForPublish env holder now).Ok s f s') :
    s' = s ∧ f.holder = holder ∧ ¬ holder.Stale s now := by
  simp only [lockPendingMaterializationForPublish, ok_rules] at hok
  obtain ⟨id, _, hcheck, _, _, hlock, _, rfl, hrest⟩ := hok
  obtain ⟨rfl, rfl⟩ := Holder.check_ok hcheck
  obtain ⟨rfl, hactive⟩ := lockActiveBlobOwner_ok hlock
  rw [ensureOwner_attachments] at hrest
  split at hrest
  · rename_i row hfilter
    obtain ⟨hrow, hleased⟩ := filter_eq_some_iff.1 hfilter
    obtain ⟨hpending, rfl⟩ := ok_ofExcept.1 hrest
    obtain ⟨hown, -, -, hlease, hversion, -⟩ := Attachment.leased_iff.1 hleased
    obtain ⟨hfowner, hfid, hflease, hfversion⟩ := pendingMaterialization_holder hpending
    refine ⟨?_, ?_, fun hstale => ?_⟩
    · refine h.ensureOwner_eq (getLifecycle_eq_some.2 ⟨row, hrow, rfl, hown⟩) ?_
      rw [hlease]
      rfl
    · have hid : f.leaseId = holder.leaseId := some.inj (hflease.symm.trans hlease)
      have hv : f.leaseVersion = holder.version := some.inj (hfversion.symm.trans hversion)
      rw [Fence.holder, hfowner, hown, hfid, hid, hv]
    · cases (hstale row hrow).symm.trans hleased
  · exact absurd hrest ok_raise

theorem publishPendingMaterialization_ok (h : Coherent s) {staged : Content}
    {written : Written} {later : Time}
    (hok : (publishPendingMaterialization env holder staged written now later).Ok s a s') :
    Publishes s s' (holder.Stale s now ∨ holder.Stale s later) := by
  simp only [publishPendingMaterialization, Content.check, requireArgument, ok_rules,
    ok_ofArguments] at hok
  obtain ⟨id, _, hcheck, _, _, ⟨_, -, _, -, -, rfl⟩, f, _, hlock, _, -, hrest⟩ := hok
  obtain ⟨rfl, rfl⟩ := Holder.check_ok hcheck
  obtain ⟨rfl, hholder, hlive⟩ := lockPendingMaterializationForPublish_ok h hlock
  cases written with
  | raised => exact absurd hrest ok_raise
  | wrote =>
    obtain ⟨hadvances, hstale⟩ := finalizePendingMaterialization_ok h hrest
    refine ⟨hadvances, ?_⟩
    rintro (hnow | hlater)
    · exact absurd hnow hlive
    · rw [hholder] at hstale
      exact hstale hlater

/-! ## Scheduling for a purge -/

theorem enqueue_ok {id : String} {t : Tombstone}
    (h : (onTombstones (Purge.enqueueScheduled env id t)).Ok s r s') :
    s'.attachments = s.attachments ∧ s'.owners = s.owners ∧
      (∀ o k, s.Tombstoned o k → s'.Tombstoned o k) ∧ ∀ o k, s'.Tombstoned o k → s.Tombstoned o k ∨
        (t.scope = .attachmentPrefix ∧ o = t.ownerId ∧ k = t.objectId) := by
  rw [onTombstones, ok_zoom] at h
  obtain ⟨table, htable, rfl⟩ := h
  refine ⟨rfl, rfl, ?_⟩
  rcases (Purge.enqueueScheduled_settles id t).of_ok htable with rfl | ⟨row, hnone, rfl, -, rfl⟩
  · exact ⟨fun _ _ h => h, fun _ _ => .inl⟩
  · constructor
    · rintro o k ⟨k', row', hrow', hrest⟩
      exact ⟨k', row', lookup_write_of_none hnone hrow' _, hrest⟩
    · rintro o k ⟨k', row', hrow', hscope, hown, hobject⟩
      rcases write_cases hrow' with ⟨-, rfl⟩ | ⟨-, hrow'⟩
      · exact .inr ⟨hscope, hown.symm, hobject.symm⟩
      · exact .inl ⟨k', row', hrow', hscope, hown, hobject⟩

theorem readOnly_onTombstones {α : Type} {x : Tx Tombstones Purge.Error α} (h : x.ReadOnly) :
    (onTombstones x).ReadOnly := by
  intro s
  have := h s.tombstones
  unfold onTombstones Tx.zoom
  split <;> (rename_i heq; rw [heq] at this; subst this; rfl)

theorem Sweeps.deletePrefix {s1 : Store} {id : String}
    (hrow : s.attachments.lookup id = some row) (hown : row.val.ownerId = ownerId)
    (hs1 : s1 = { s with attachments := s.attachments.insert id row' })
    (hthin : Thinned row.val row'.val) (hdeleted : row'.val.deletedAt.isSome)
    (henqueue : (enqueuePrefix env ownerId id now).Ok s1 r s') : Sweeps s s' := by
  subst hs1
  obtain ⟨hattachments, howners, hkept, hnew⟩ := enqueue_ok henqueue
  refine .delete hrow (fun k => ?_) howners hthin hdeleted (fun o k ht => ?_) hkept
  · rw [hattachments]
    exact lookup_write _ _ _ _
  · rcases hnew o k ht with hold | ⟨-, ho, hk⟩
    · exact .inl hold
    · exact .inr ⟨ho.trans hown.symm, hk⟩

theorem abandonPendingMaterialization_ok (h : Coherent s) {r : Scheduled}
    (hok : (abandonPendingMaterialization env holder deletedAt now).Ok s r s') :
    Publishes s s' (∀ row, s.attachments.lookup holder.attachmentId = some row →
      row.val.deletedAt.isSome ∨ row.val.leaseId ≠ some holder.leaseId ∨
        row.val.leaseVersion ≠ some holder.version) := by
  simp only [abandonPendingMaterialization, requireOwner, checkIdentifier, ok_rules] at hok
  obtain ⟨_, -, _, -, _, -, updated, s1, hupdate, hrest⟩ := hok
  rcases (Sql.zoom_update_settles rfl).of_ok hupdate with
    ⟨rfl, rfl, -⟩ | ⟨row, row', hrow, hselects, hw, rfl, hs1⟩
  · simp only [ok_rules] at hrest
    obtain ⟨_, rfl, existing, s2, hload, hrest⟩ := hrest
    have hs2 := (readOnly_onTombstones (Purge.readOnly_loadByObject _)).ok hload
    subst hs2
    have hsame : s' = s1 := by
      unfold Holder.abandonReplay at hrest
      split at hrest
      · simp only [requireScheduledTarget, ok_rules] at hrest
        obtain ⟨_, -, -, rfl⟩ := hrest
        rfl
      · exact absurd hrest ok_raise
    subst hsame
    exact ⟨(Sweeps.refl _).advances h, fun _ => rfl⟩
  · simp only [ok_rules] at hrest
    obtain ⟨scheduled, _, henqueue, -, rfl⟩ := hrest
    simp only [bool_to_prop, isNone_iff_eq_none] at hselects
    obtain ⟨⟨⟨⟨hown, hstage⟩, hlive⟩, hlease⟩, hversion⟩ := hselects
    constructor
    · exact (Sweeps.deletePrefix hrow hown hs1 (by rw [hw]; exact ⟨rfl, rfl, rfl, fun _ => rfl⟩)
        (by rw [hw]; rfl) henqueue).advances h
    · intro hstale
      rcases hstale row hrow with hd | hl | hv
      · rw [hlive] at hd
        cases hd
      · exact absurd hlease hl
      · exact absurd hversion hv

theorem scheduleExpired_ok {id : String} {r : Option Scheduled}
    (hok : (scheduleExpired env now id).Ok s r s') : Sweeps s s' := by
  simp only [scheduleExpired, ok_bind] at hok
  obtain ⟨updated, s1, hupdate, hrest⟩ := hok
  rcases (Sql.zoom_update_settles rfl).of_ok hupdate with
    ⟨rfl, rfl, -⟩ | ⟨row, row', hrow, hselects, hw, rfl, hs1⟩
  · obtain ⟨-, rfl⟩ := ok_pure.1 hrest
    exact .refl _
  · simp only [requireOwner, checkIdentifier, ok_rules] at hrest
    obtain ⟨_, -, _, -, scheduled, _, henqueue, -, rfl⟩ := hrest
    have hown : row.val.ownerId = row'.val.ownerId := by rw [hw]; rfl
    exact .deletePrefix hrow hown hs1 (by rw [hw]; exact ⟨rfl, rfl, rfl, fun _ => rfl⟩)
      (by rw [hw]; rfl) henqueue

theorem scheduleExpired_collect :
    ∀ {ids : List String} {s s' : Store} {r : List (Option Scheduled)},
      (Tx.collect (scheduleExpired env now) ids).Ok s r s' → Sweeps s s'
  | [], s, s', r, hok => by
    obtain ⟨-, rfl⟩ := ok_pure.1 hok
    exact .refl s
  | id :: ids, s, s', r, hok => by
    simp only [Tx.collect, ok_rules] at hok
    obtain ⟨b, s1, hfirst, bs, _, hrest, -, rfl⟩ := hok
    exact (scheduleExpired_ok hfirst).trans (scheduleExpired_collect hrest)

/-- `schedule_attachment_prefix` deletes the attachment whose tombstone it has enqueued or found. -/
theorem Sweeps.deleteReady {s2 : Store} {id : String} {changed : Option Attachment}
    (hrow : s.attachments.lookup id = some row) (hown : row.val.ownerId = ownerId)
    (hready : row.val.stage = .ready) (hatt : s2.attachments = s.attachments)
    (howners : s2.owners = s.owners) (hkept : ∀ o k, s.Tombstoned o k → s2.Tombstoned o k)
    (hnew : ∀ o k, s2.Tombstoned o k → s.Tombstoned o k ∨ (o = ownerId ∧ k = id))
    (hupdate : (onAttachments (Sql.updateReturning id
      (fun a => a.ownerId = ownerId && a.stage = .ready && a.deletedAt.isNone)
      ({ · with deletedAt := some deletedAt }))).Ok s2 changed s') : Sweeps s s' := by
  subst hown
  rcases (Sql.zoom_update_settles rfl).of_ok hupdate with
    ⟨-, rfl, hnone⟩ | ⟨r, r', hr, -, hw, -, rfl⟩
  · have hdeleted : row.val.deletedAt.isSome := by
      have hmiss := hnone row (by rw [hatt]; exact hrow)
      cases hd : row.val.deletedAt with
      | none => simp [hready, hd] at hmiss
      | some => rfl
    refine .delete hrow (fun k => ?_) howners (.refl _) hdeleted hnew hkept
    rw [hatt]
    split
    · subst_vars
      exact hrow
    · rfl
  · rw [hatt] at hr
    cases hrow.symm.trans hr
    refine .delete hrow (fun k => ?_) howners (by rw [hw]; exact ⟨rfl, rfl, rfl, fun _ => rfl⟩)
      (by rw [hw]; rfl) hnew hkept
    rw [hatt]
    exact lookup_write _ _ _ _

theorem scheduleAttachmentPrefix_ok {id : String} {r : Scheduled}
    (hok : (scheduleAttachmentPrefix env ownerId id requestedAt deletedAt).Ok s r s') :
    Sweeps s s' := by
  simp only [scheduleAttachmentPrefix, requireOwner, checkIdentifier, ok_rules] at hok
  obtain ⟨_, -, _, -, existing, s1, hload, scheduled, s2, hschedule, changed, _, hupdate, -,
    rfl⟩ := hok
  have hs1 := (readOnly_onTombstones (Purge.readOnly_loadByObject _)).ok hload
  subst hs1
  cases existing with
  | some =>
    simp only [schedulePrefix, requireScheduledTarget, ok_rules] at hschedule
    obtain ⟨_, -, -, rfl⟩ := hschedule
    rcases (Sql.zoom_update_settles rfl).of_ok hupdate with
    ⟨-, rfl, -⟩ | ⟨row, -, hrow, hselects, -, -, -⟩
    · exact .refl _
    · simp only [bool_to_prop] at hselects
      exact .deleteReady hrow hselects.1.1 hselects.1.2 rfl rfl (fun _ _ ht => ht)
        (fun _ _ => .inl) hupdate
  | none =>
    simp only [schedulePrefix, getReady, ok_rules, ok_ofArguments] at hschedule
    obtain ⟨_, _, ⟨_, -, _, -, _, rfl, rfl, rfl⟩, _, hsome, henqueue⟩ := hschedule
    obtain ⟨a, ha⟩ := isSome_iff_exists.1 hsome
    obtain ⟨hlifecycle, hready⟩ := filter_eq_some_iff.1 ha
    obtain ⟨row, hrow, rfl, hown⟩ := getLifecycle_eq_some.1 hlifecycle
    obtain ⟨hatt, howners, hkept, hnew⟩ := enqueue_ok henqueue
    refine .deleteReady hrow hown (by simpa using hready) hatt howners hkept (fun o k ht => ?_)
      hupdate
    rcases hnew o k ht with hold | ⟨-, ho, hk⟩
    · exact .inl hold
    · exact .inr ⟨ho, hk⟩

/-! ## Retiring an owner -/

/-- Of the attachments, some of an owner are deleted. -/
structure Deletes (ownerId : String) (done : String → Prop) (s s' : Store) : Prop where
  thins : Thins s s'
  owners : s'.owners = s.owners
  tombstones : s'.tombstones = s.tombstones
  deleted : ∀ id row', s'.attachments.lookup id = some row' → done id →
    row'.val.ownerId = ownerId → row'.val.deletedAt.isSome

theorem deleteAttachment_ok {id : String} {b : Bool}
    (hok : (deleteAttachment ownerId deletedAt id).Ok s b s') : Deletes ownerId (· = id) s s' := by
  simp only [deleteAttachment, ok_rules] at hok
  obtain ⟨updated, _, hupdate, -, rfl⟩ := hok
  rcases (Sql.zoom_update_settles rfl).of_ok hupdate with
    ⟨-, rfl, hnone⟩ | ⟨row, row', hrow, hselects, hw, -, rfl⟩
  · refine ⟨.of_eq rfl, rfl, rfl, ?_⟩
    rintro k r hr rfl hown
    have hmiss := hnone r hr
    cases hd : r.val.deletedAt with
    | none => simp [hown, hd] at hmiss
    | some => rfl
  · have hdeleted : row'.val.deletedAt.isSome := by rw [hw]; rfl
    refine ⟨.delete hrow (lookup_write _ _ · _)
      (by rw [hw]; exact ⟨rfl, rfl, rfl, fun _ => rfl⟩), rfl, rfl, ?_⟩
    rintro k r hr rfl -
    rw [lookup_write, if_pos rfl] at hr
    cases hr
    exact hdeleted

theorem deleteAttachment_collect :
    ∀ {ids : List String} {s s' : Store} {r : List Bool},
      (Tx.collect (deleteAttachment ownerId deletedAt) ids).Ok s r s' →
        Deletes ownerId (· ∈ ids) s s'
  | [], s, s', r, hok => by
    obtain ⟨-, rfl⟩ := ok_pure.1 hok
    exact ⟨.of_eq rfl, rfl, rfl, fun _ _ _ h => by cases h⟩
  | id :: ids, s, s', r, hok => by
    simp only [Tx.collect, ok_rules] at hok
    obtain ⟨b, s1, hfirst, bs, _, hrest, -, rfl⟩ := hok
    have h1 := deleteAttachment_ok hfirst
    have h2 := deleteAttachment_collect hrest
    refine ⟨h1.thins.trans h2.thins, h2.owners.trans h1.owners, h2.tombstones.trans h1.tombstones,
      fun k row hrow hmem hown => ?_⟩
    rcases List.mem_cons.1 hmem with hk | hmem
    · obtain ⟨row1, hrow1, ht⟩ := h2.thins.before hrow
      exact ht.deleted (h1.deleted k row1 hrow1 hk (ht.owner.symm.trans hown))
    · exact h2.deleted k row hrow hmem hown

theorem retireBlobOwner_ok {u : Unit} (hok : (retireBlobOwner ownerId requestedAt).Ok s u s') :
    (s'.attachments = s.attachments ∧ s'.tombstones = s.tombstones) ∧ ∃ o : Owner,
      o.state = .retired ∧ ∀ k, s'.owners.lookup k = if k = ownerId then some o else s.owners.lookup k := by
  simp only [retireBlobOwner, ok_rules] at hok
  obtain ⟨_, _, rfl, _, rfl, hok⟩ := hok
  split at hok
  · exact absurd hok ok_raise
  rename_i o _
  obtain rfl := ok_set.1 hok
  refine ⟨⟨ensureOwner_attachments, ensureOwner_tombstones⟩, o.retire requestedAt, rfl, fun k => ?_⟩
  rw [lookup_write]
  split
  · rfl
  · rename_i hk
    exact (ensureOwner_owners s ownerId k).resolve_right fun h => hk h.1

/-- The tombstone of an owner is none of a prefix. -/
theorem scheduleOwner_ok {existing : Option Tombstone}
    (hok : (scheduleOwner env ownerId requestedAt existing).Ok s r s') :
    s'.attachments = s.attachments ∧ s'.owners = s.owners ∧
      ∀ o k, s'.Tombstoned o k ↔ s.Tombstoned o k := by
  cases existing with
  | some =>
    simp only [scheduleOwner, requireScheduledTarget, ok_rules] at hok
    obtain ⟨_, -, -, rfl⟩ := hok
    exact ⟨rfl, rfl, fun _ _ => Iff.rfl⟩
  | none =>
    obtain ⟨hatt, howners, hkept, hnew⟩ := enqueue_ok hok
    refine ⟨hatt, howners, fun o k => ⟨fun ht => ?_, hkept o k⟩⟩
    rcases hnew o k ht with hold | ⟨hscope, -⟩
    · exact hold
    · cases hscope

theorem Thins.retire (h : Thins s s') (ownerId : String) {o : Owner} (ho : o.state = .retired)
    (howners : ∀ k, s'.owners.lookup k = if k = ownerId then some o else s.owners.lookup k)
    (htombs : ∀ o k, s'.Tombstoned o k ↔ s.Tombstoned o k)
    (hall : ∀ id row', s'.attachments.lookup id = some row' → row'.val.ownerId = ownerId →
      row'.val.deletedAt.isSome) : Sweeps s s' := by
  have hretired : ∀ k, s'.Retired k ↔ k = ownerId ∨ s.Retired k := by
    intro k
    rw [Store.Retired, howners]
    split
    · simp_all
    · simp_all [Store.Retired]
  refine ⟨h, fun k hk => ?_, fun k hk => (hretired k).2 (.inr hk), fun k hk => ?_,
    fun o k => (htombs o k).2, fun o k ht => .inl ((htombs o k).1 ht)⟩
  · rw [howners]
    split
    · rfl
    · exact hk
  · rcases (hretired k).1 hk with rfl | hk
    · exact .inr hall
    · exact .inl hk

theorem scheduleOwnerNamespace_ok {r : Scheduled}
    (hok : (scheduleOwnerNamespace env ownerId requestedAt deletedAt).Ok s r s') : Sweeps s s' := by
  simp only [scheduleOwnerNamespace, requireOwner, ok_rules] at hok
  obtain ⟨_, -, _, s1, hs1, existing, s2, hload, scheduled, s3, hschedule, _, rfl, changed, s4,
    hdelete, -, hs4⟩ := hok
  obtain ⟨⟨hatt1, htombs1⟩, o, ho, hretire⟩ := retireBlobOwner_ok hs1
  have hs2 := (readOnly_onTombstones (Purge.readOnly_loadByObject _)).ok hload
  subst hs2 hs4
  obtain ⟨hatt, howners, htombs⟩ := scheduleOwner_ok hschedule
  have hdeletes := deleteAttachment_collect hdelete
  have hattachments : s3.attachments = s.attachments := by
    rw [hatt, hatt1]
  have hthins : Thins s s4 := (Thins.of_eq hattachments).trans hdeletes.thins
  refine hthins.retire ownerId ho (fun k => ?_) (fun o k => ?_) fun id row hrow => ?_
  · rw [hdeletes.owners, howners, hretire]
  · have hlast : s4.Tombstoned o k ↔ s3.Tombstoned o k := by
      unfold Store.Tombstoned
      rw [hdeletes.tombstones]
    have hfirst : s1.Tombstoned o k ↔ s.Tombstoned o k := by
      unfold Store.Tombstoned
      rw [htombs1]
    rw [hlast, htombs, hfirst]
  · obtain ⟨row3, hrow3, -⟩ := hdeletes.thins.before hrow
    refine hdeletes.deleted id row hrow ?_
    exact AList.mem_keys.2 (AList.lookup_isSome.1 (isSome_of_eq_some hrow3))

/-! ## Every call -/

/-- The call is one of a publisher whose lease on the attachment was abandoned, has expired, or has
    another id or version by now. -/
def Call.Stale (c : Call) (s : Store) : Prop :=
  match c with
  | .renew h _ now | .lock h now => h.Stale s now
  | .finalize f _ now => f.holder.Stale s now
  | .publish h _ _ now later => h.Stale s now ∨ h.Stale s later
  | .abandon h _ _ => ∀ row, s.attachments.lookup h.attachmentId = some row →
      row.val.deletedAt.isSome ∨ row.val.leaseId ≠ some h.leaseId ∨
        row.val.leaseVersion ≠ some h.version
  | .begin .. | .schedulePrefix .. | .scheduleExpired .. | .retire .. => False

theorem exec_ok (h : Coherent s) {c : Call} {u : Unit} (hok : (c.exec env).Ok s u s') :
    Publishes s s' (c.Stale s) := by
  cases c with
  | begin =>
    obtain ⟨_, hcall, -⟩ := ok_return.1 hok
    exact ⟨beginPendingMaterialization_ok h hcall, False.elim⟩
  | renew =>
    obtain ⟨_, hcall, -⟩ := ok_return.1 hok
    exact renewPendingMaterialization_ok h hcall
  | finalize =>
    obtain ⟨_, hcall, -⟩ := ok_return.1 hok
    exact finalizePendingMaterialization_ok h hcall
  | lock =>
    obtain ⟨_, hcall, -⟩ := ok_return.1 hok
    obtain ⟨rfl, -⟩ := lockPendingMaterializationForPublish_ok h hcall
    exact ⟨(Sweeps.refl _).advances h, fun _ => rfl⟩
  | publish =>
    obtain ⟨_, hcall, -⟩ := ok_return.1 hok
    exact publishPendingMaterialization_ok h hcall
  | schedulePrefix =>
    obtain ⟨_, hcall, -⟩ := ok_return.1 hok
    exact ⟨(scheduleAttachmentPrefix_ok hcall).advances h, False.elim⟩
  | abandon =>
    obtain ⟨_, hcall, -⟩ := ok_return.1 hok
    exact abandonPendingMaterialization_ok h hcall
  | scheduleExpired =>
    simp only [Call.exec, scheduleExpiredPendingMaterializations, ok_rules] at hok
    obtain ⟨_, _, ⟨_, -, hcall⟩, -, rfl⟩ := hok
    exact ⟨(scheduleExpired_collect hcall).advances h, False.elim⟩
  | retire =>
    obtain ⟨_, hcall, -⟩ := ok_return.1 hok
    exact ⟨(scheduleOwnerNamespace_ok hcall).advances h, False.elim⟩

theorem step_publishes (env : Env) (h : Coherent s) (c : Call) : Publishes s (step env c s)
    (c.Stale s) := by
  rcases commit_cases (c.exec env) s with ⟨u, hok⟩ | hsame
  · exact exec_ok h hok
  · rw [step, hsame]
    exact ⟨(Sweeps.refl _).advances h, fun _ => rfl⟩

/-! ## Every run -/

theorem run_coherent (calls : List Call) (h : Coherent s) : Coherent (run (step env) calls s) :=
  run_keeps (P := Coherent) (fun c _ h => (step_publishes env h c).1.coherent) calls h

theorem tombstoned_run (calls : List Call) (h : Coherent s) {owner id : String}
    (ht : s.Tombstoned owner id) : ∃ row row', s.attachments.lookup id = some row ∧
      (run (step env) calls s).attachments.lookup id = some row' ∧
      row'.val.stage = row.val.stage ∧ row'.val.deletedAt.isSome := by
  induction calls generalizing s with
  | nil =>
    obtain ⟨row, hrow, -, hd⟩ := h.tombstoned owner id ht
    exact ⟨row, row, hrow, hrow, rfl, hd⟩
  | cons c calls ih =>
    obtain ⟨row, hrow, -, hd⟩ := h.tombstoned owner id ht
    have hstep := (step_publishes env h c).1
    obtain ⟨row1, hrow1, hadvances⟩ := hstep.rows id row hrow
    obtain ⟨row2, row', hrow2, hrow', hstage, hdeleted⟩ :=
      ih hstep.coherent (hstep.tombstoned owner id ht)
    cases hrow1.symm.trans hrow2
    exact ⟨row, row', hrow, hrow', hstage.trans (hadvances.deleted hd).2, hdeleted⟩

theorem retired_run (calls : List Call) (h : Coherent s) {owner id : String} (hr : s.Retired owner)
    (hrow' : (run (step env) calls s).attachments.lookup id = some row')
    (hown : row'.val.ownerId = owner) :
    ∃ row, s.attachments.lookup id = some row ∧ row.val.ownerId = owner ∧
      row'.val.stage = row.val.stage ∧ row.val.deletedAt.isSome := by
  induction calls generalizing s with
  | nil => exact ⟨row', hrow', hown, rfl, h.retired id row' hrow' (by rw [hown]; exact hr)⟩
  | cons c calls ih =>
    have hstep := (step_publishes env h c).1
    obtain ⟨row1, hrow1, hown1, hstage1, hd1⟩ := ih hstep.coherent (hstep.retired owner hr) hrow'
    cases hrow : s.attachments.lookup id with
    | none =>
      obtain ⟨-, hlive, -⟩ := hstep.born id row1 hrow hrow1
      rw [hlive] at hd1
      cases hd1
    | some row =>
      obtain ⟨row2, hrow2, hadvances⟩ := hstep.rows id row hrow
      cases hrow1.symm.trans hrow2
      have hd : row.val.deletedAt.isSome := by
        refine h.retired id row hrow ?_
        rw [← hadvances.owner, hown1]
        exact hr
      exact ⟨row, rfl, hadvances.owner.symm.trans hown1, hstage1.trans (hadvances.deleted hd).2, hd⟩

/-- What holds in a state of the tables, and of every call and run from there. -/
structure NeverMeet (env : Env) (s : Store) : Prop where
  live : ∀ id row, s.attachments.lookup id = some row → row.val.stage = .ready →
    row.val.deletedAt = none → ¬ s.Tombstoned row.val.ownerId id
  call : ∀ c, Advances s (step env c s)
  stale : ∀ c : Call, c.Stale s → step env c s = s
  /-- An attachment with a tombstone stays what it is, and deleted. -/
  tombstoned : ∀ calls owner id, s.Tombstoned owner id →
    ∃ row row', s.attachments.lookup id = some row ∧
      (run (step env) calls s).attachments.lookup id = some row' ∧
      row'.val.stage = row.val.stage ∧ row'.val.deletedAt.isSome
  /-- The attachments of a retired owner are those it had, and deleted. -/
  retired : ∀ calls owner, s.Retired owner → ∀ id row',
    (run (step env) calls s).attachments.lookup id = some row' → row'.val.ownerId = owner →
      ∃ row, s.attachments.lookup id = some row ∧ row.val.ownerId = owner ∧
        row'.val.stage = row.val.stage ∧ row.val.deletedAt.isSome

/-- **Materialisation and purge never meet**, from any tables in which they have not met. -/
theorem materialization_never_meets_purge (env : Env) (start : Store) (h : Coherent start)
    (calls : List Call) : NeverMeet env (run (step env) calls start) := by
  have hc : Coherent (run (step env) calls start) := run_coherent calls h
  refine ⟨?_, fun c => (step_publishes env hc c).1, fun c => (step_publishes env hc c).2,
    fun more owner id ht => tombstoned_run more hc ht,
    fun more owner hr id row' hrow' hown => retired_run more hc hr hrow' hown⟩
  intro id row hrow _ hlive ht
  obtain ⟨row', hrow', -, hd⟩ := hc.tombstoned _ _ ht
  cases hrow.symm.trans hrow'
  rw [hlive] at hd
  cases hd

def digest : String := "aaaaaaaaaaaaaaaaaaaaaaaaaaaaaaaaaaaaaaaaaaaaaaaaaaaaaaaaaaaaaaaa"

def constantHash : Env := ⟨fun _ => digest, fun _ => true, fun _ => true⟩

/-- An attachment is published, another one is abandoned, and another owner is retired. -/
def purging : Store :=
  run (step constantHash) [.begin ⟨"f", "u", "n", "data", "", "u/f/n", "f/n", 1, 0, "l", 60⟩ 0,
    .publish ⟨"u", "f", "l", 0⟩ ⟨"text/plain", 1, digest⟩ (.wrote 1 digest) 1 1,
    .begin ⟨"g", "u", "n", "data", "", "u/g/n", "g/n", 1, 0, "l", 60⟩ 0,
    .abandon ⟨"u", "g", "l", 0⟩ 2 2, .retire "v" 3 3] ⟨∅, ∅, ∅⟩

theorem coherent_purging : Coherent purging := by
  refine run_coherent _ ⟨fun owner id ht => ?_, fun id row hrow => ?_, fun id row hrow => ?_⟩
  · obtain ⟨k, row, hrow, -⟩ := ht
    cases hrow
  · cases hrow
  · cases hrow

/-- Then the owner of both is retired too. -/
theorem materialization_never_meets_purge_purging :
    ((purging.attachments.lookup "f").any (fun row =>
        row.val.stage = .ready && row.val.deletedAt.isNone) ∧
      purging.tombstones.rows.any (fun row =>
        row.val.scope = .attachmentPrefix && row.val.objectId = "g") ∧
      (purging.owners.lookup "v").any (·.state = .retired)) ∧ Coherent purging ∧
      NeverMeet constantHash (run (step constantHash) [.retire "u" 4 4] purging) :=
  ⟨by decide +kernel, coherent_purging, materialization_never_meets_purge _ _ coherent_purging _⟩

end AstralPlane.Materialization
