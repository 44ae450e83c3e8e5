/-
  Epochs and invitations over whole runs.

  * `Epochs`: a mesh counts its activations and its revocations, so that every
    epoch is given out once;
  * `Invitations`: an invitation goes from pending to consumed, inside its window,
    and from consumed to confirmed, so that it activates at most one member;
  * `Inactive`: a member that was revoked or retired stays so until it is
    activated again.

  Whether a challenge was proven is no condition of any method, and a member that
  was revoked or retired can be activated again: possession proof and admission
  are the host's (`enrolled_without_challenge`).
-/
import AstralPlane.MeshEnrollment.Effects

namespace AstralPlane.MeshEnrollment

open List Keyed

variable {k' : String} {member : Row MemberColumns} {mesh row : Row MeshColumns}
  {record : MeshMemberRecord} {row' : Row InvitationColumns}

/-! ## Counting -/

/-- The member that the call has activated. -/
def Reply.activation : Reply → Option MeshMemberRecord
  | .activated member | .confirmed _ member => some member
  | _ => none

/-- How many of the calls have activated a member of the mesh. -/
def activations (k : String) (t : List Reply) : ℕ :=
  (t.filterMap Reply.activation).countP (·.meshId = k)

/-- The membership epoch of a mesh; before it is there it has the one that it starts with. -/
def Store.membershipEpoch (s : Store) (k : String) : ℕ :=
  ((s.meshes.lookup k).map (·.val.membershipEpoch)).getD 1

def Store.revocationEpoch (s : Store) (k : String) : ℕ :=
  ((s.meshes.lookup k).map (·.val.revocationEpoch)).getD 0

/-- How many revocations of members of the mesh are recorded. -/
def Store.revocationsOf (s : Store) (k : String) : ℕ :=
  s.revocations.rows.countP (·.val.meshId = k)

section
variable {t : List Reply} {r : Reply} {k : String} {s : Store}

theorem activations_of_none (h : r.activation = none) : activations k (t ++ [r]) = activations k t := by
  simp [activations, h]

theorem activations_of_none_add (h : r.activation = none) (k : String) :
    ∀ k', activations k' (t ++ [r]) = activations k' t + if k' = k then 0 else 0 := by
  intro k'
  rw [activations_of_none h, ite_self, Nat.add_zero]

theorem membershipEpoch_of (h : s.meshes.lookup k = some row) :
    s.membershipEpoch k = row.val.membershipEpoch := by simp [Store.membershipEpoch, h]

theorem revocationEpoch_of (h : s.meshes.lookup k = some row) :
    s.revocationEpoch k = row.val.revocationEpoch := by simp [Store.revocationEpoch, h]

theorem isSome_write (h : (s.meshes.lookup k).isSome) :
    ((s.meshes.insert k' row).lookup k).isSome := by
  rw [lookup_write]
  split
  · rfl
  · exact h

/-- The epochs of the meshes after one row was written, whose epoch has grown. -/
theorem membershipEpoch_write {s' : Store} {n : ℕ} (h : s'.meshes = s.meshes.insert k' row)
    (hn : row.val.membershipEpoch = s.membershipEpoch k' + n) :
    s'.membershipEpoch k = s.membershipEpoch k + if k = k' then n else 0 := by
  unfold Store.membershipEpoch at hn ⊢
  rw [h, lookup_write]
  split
  · subst_vars
    exact hn
  · rfl

theorem revocationEpoch_write {u : Store} {n : ℕ} (h : u.meshes = s.meshes.insert k' row)
    (hn : row.val.revocationEpoch = s.revocationEpoch k' + n) :
    u.revocationEpoch k = s.revocationEpoch k + if k = k' then n else 0 := by
  unfold Store.revocationEpoch at hn ⊢
  rw [h, lookup_write]
  split
  · subst_vars
    exact hn
  · rfl

end

/-! ## Epochs -/

/-- What the replies so far and the tables have to do with each other. -/
structure Epochs (t : List Reply) (s : Store) : Prop where
  membership : ∀ k, s.membershipEpoch k = 1 + activations k t
  revocation : ∀ k, s.revocationEpoch k = s.revocationsOf k
  /-- a member has a mesh, whose epoch it has not passed -/
  member : ∀ k m row, s.members.lookup (k, m) = some row →
    (s.meshes.lookup k).isSome ∧ row.val.membershipEpoch ≤ s.membershipEpoch k
  members : ∀ k m m' row row', s.members.lookup (k, m) = some row →
    s.members.lookup (k, m') = some row' → row.val.membershipEpoch = row'.val.membershipEpoch → m = m'
  /-- so has a revocation -/
  recorded : ∀ i row, s.revocations.lookup i = some row →
    (s.meshes.lookup row.val.meshId).isSome ∧ row.val.revocationEpoch ≤ s.revocationEpoch row.val.meshId
  revocations : ∀ i i' row row', s.revocations.lookup i = some row →
    s.revocations.lookup i' = some row' → row.val.meshId = row'.val.meshId →
    row.val.revocationEpoch = row'.val.revocationEpoch → i = i'

theorem epochs_empty : Epochs [] Store.empty where
  membership _ := rfl
  revocation _ := rfl
  member _ _ _ h := by cases h
  members _ _ _ _ _ h := by cases h
  recorded _ _ h := by cases h
  revocations _ _ _ _ h := by cases h

section
variable {t : List Reply} {s s' : Store} {r : Reply}

section
variable (h : Epochs t s)
include h

/-- A call that writes neither meshes nor members nor revocations. -/
theorem Epochs.same (hr : r.activation = none) (hmeshes : s'.meshes = s.meshes)
    (hmembers : s'.members = s.members) (hrevocations : s'.revocations = s.revocations) :
    Epochs (t ++ [r]) s' where
  membership k := by
    rw [activations_of_none hr, ← h.membership k, Store.membershipEpoch, hmeshes]
    rfl
  revocation k := by
    rw [Store.revocationsOf, hrevocations, Store.revocationEpoch, hmeshes]
    exact h.revocation k
  member k m row hrow := by
    rw [Store.membershipEpoch, hmeshes]
    exact h.member k m row (by rw [← hmembers, hrow])
  members k m m' row row' hrow hrow' :=
    h.members k m m' row row' (by rw [← hmembers, hrow]) (by rw [← hmembers, hrow'])
  recorded i row hrow := by
    rw [Store.revocationEpoch, hmeshes]
    exact h.recorded i row (by rw [← hrevocations, hrow])
  revocations i i' row row' hrow hrow' :=
    h.revocations i i' row row' (by rw [← hrevocations, hrow]) (by rw [← hrevocations, hrow'])

/-- A mesh is written that has counted the activations of the call, if any. -/
theorem Epochs.writeMesh {k : String} {grown : ℕ}
    (hcount : ∀ k', activations k' (t ++ [r]) = activations k' t + if k' = k then grown else 0)
    (hmembership : row.val.membershipEpoch = s.membershipEpoch k + grown)
    (hrevocation : row.val.revocationEpoch = s.revocationEpoch k) :
    Epochs (t ++ [r]) { s with meshes := s.meshes.insert k row } := by
  have hrevoked : ∀ k', Store.revocationEpoch { s with meshes := s.meshes.insert k row } k' =
      s.revocationEpoch k' := by
    intro k'
    rw [revocationEpoch_write (n := 0) rfl hrevocation, ite_self, Nat.add_zero]
  refine ⟨fun k' => ?_, fun k' => ?_, fun k' m memberRow hrow => ?_, h.members,
    fun i revoked hrow => ?_, h.revocations⟩
  · rw [membershipEpoch_write rfl hmembership, hcount, h.membership, Nat.add_assoc]
  · rw [hrevoked, h.revocation]
    rfl
  · rw [membershipEpoch_write rfl hmembership]
    exact ⟨isSome_write (h.member k' m memberRow hrow).1,
      (h.member k' m memberRow hrow).2.trans (Nat.le_add_right _ _)⟩
  · rw [hrevoked]
    exact ⟨isSome_write (h.recorded i revoked hrow).1, (h.recorded i revoked hrow).2⟩

theorem Epochs.enroll {k m : String} (hmesh : (s.meshes.lookup k).isSome)
    (hle : member.val.membershipEpoch ≤ s.membershipEpoch k)
    (hnew : ∀ m' row, s.members.lookup (k, m') = some row → m' ≠ m →
      row.val.membershipEpoch ≠ member.val.membershipEpoch) :
    Epochs t { s with members := s.members.insert (k, m) member } := by
  refine ⟨h.membership, h.revocation, fun k' m' row hrow => ?_, fun k' m1 m2 row row' hrow hrow' heq => ?_,
    h.recorded, h.revocations⟩
  · rw [lookup_write] at hrow
    split at hrow
    · rename_i hkey
      cases hkey
      cases hrow
      exact ⟨hmesh, hle⟩
    · exact h.member k' m' row hrow
  · by_contra hne
    rw [lookup_write] at hrow hrow'
    split at hrow <;> split at hrow'
    · rename_i hkey hkey'
      cases hkey
      cases hkey'
      exact hne rfl
    · rename_i hkey _
      cases hkey
      cases hrow
      exact hnew m2 row' hrow' (Ne.symm hne) heq.symm
    · rename_i _ hkey'
      cases hkey'
      cases hrow'
      exact hnew m1 row hrow hne heq
    · exact hne (h.members k' m1 m2 row row' hrow hrow' heq)

theorem Epochs.writeMember {k m : String} {member' : Row MemberColumns}
    (hmember : s.members.lookup (k, m) = some member)
    (hepoch : member'.val.membershipEpoch = member.val.membershipEpoch) :
    Epochs t { s with members := s.members.insert (k, m) member' } := by
  obtain ⟨hmesh, hle⟩ := h.member k m member hmember
  refine h.enroll hmesh (hepoch ▸ hle) fun m' row hrow hne heq => hne ?_
  exact h.members k m' m row member hrow hmember (heq.trans hepoch)

theorem Epochs.activate (hr : r.activation = some record)
    (ha : Activation s record s') : Epochs (t ++ [r]) s' := by
  obtain ⟨mesh, mesh', member, hmesh, hmesh', hmember, hepoch, rfl⟩ := ha.tables
  have hcount : ∀ k', activations k' (t ++ [r]) =
      activations k' t + if k' = record.meshId then 1 else 0 := by
    simp [activations, hr, countP_singleton, eq_comm]
  have hcounted : Epochs (t ++ [r]) { s with meshes := s.meshes.insert record.meshId mesh' } :=
    h.writeMesh hcount (by rw [hmesh', membershipEpoch_of hmesh])
      (by rw [hmesh', revocationEpoch_of hmesh])
  have hnow : Store.membershipEpoch { s with meshes := s.meshes.insert record.meshId mesh' }
      record.meshId = record.membershipEpoch := by
    rw [membershipEpoch_of (AList.lookup_insert _), hmesh', hepoch]
  refine hcounted.enroll ?_ ?_ fun m' row hrow _ heq => ?_
  · rw [lookup_write, if_pos rfl]
    rfl
  · rw [hnow, hmember]
  · -- the other members have epochs that the mesh had reached before
    have hle := (h.member _ m' row hrow).2
    rw [membershipEpoch_of hmesh] at hle
    rw [hmember] at heq
    omega

theorem Epochs.bootstrap {k m : String} (hr : r.activation = none)
    (hnew : s.meshes.lookup k = none)
    (hepochs : mesh.val.membershipEpoch = 1 ∧ mesh.val.revocationEpoch = 0)
    (hmember : member.val.membershipEpoch = 1) :
    Epochs (t ++ [r]) { s with
      meshes := s.meshes.insert k mesh
      members := s.members.insert (k, m) member } := by
  have hmesh : Epochs (t ++ [r]) { s with meshes := s.meshes.insert k mesh } :=
    h.writeMesh (activations_of_none_add hr k) (by rw [hepochs.1, Store.membershipEpoch, hnew]; rfl)
      (by rw [hepochs.2, Store.revocationEpoch, hnew]; rfl)
  refine hmesh.enroll ?_ ?_ fun m' row hrow _ => ?_
  · rw [lookup_write, if_pos rfl]
    rfl
  · rw [membershipEpoch_of (AList.lookup_insert _), hepochs.1, hmember]
  · -- a mesh that was not there had no members
    have hthere := (h.member k m' row hrow).1
    rw [hnew] at hthere
    cases hthere

/-- A mesh is written that has counted one more revocation, which is recorded. -/
theorem Epochs.revoke {k i : String} {mesh' : Row MeshColumns}
    {revoked : Row RevocationColumns} (hr : r.activation = none)
    (hmesh : s.meshes.lookup k = some mesh)
    (hmembership : mesh'.val.membershipEpoch = mesh.val.membershipEpoch)
    (hrevocation : mesh'.val.revocationEpoch = mesh.val.revocationEpoch + 1)
    (hnew : s.revocations.lookup i = none) (hid : revoked.val.meshId = k)
    (hepoch : revoked.val.revocationEpoch = mesh.val.revocationEpoch + 1) :
    Epochs (t ++ [r]) { s with
      meshes := s.meshes.insert k mesh'
      revocations := s.revocations.insert i revoked } := by
  have hsame : ∀ k', Store.membershipEpoch { s with
      meshes := s.meshes.insert k mesh', revocations := s.revocations.insert i revoked } k' =
      s.membershipEpoch k' := by
    intro k'
    rw [membershipEpoch_write (n := 0) rfl (by rw [hmembership, membershipEpoch_of hmesh]; rfl),
      ite_self, Nat.add_zero]
  have hgrows := fun k' => revocationEpoch_write (k := k') (u := { s with
      meshes := s.meshes.insert k mesh', revocations := s.revocations.insert i revoked }) rfl
    (by rw [hrevocation, revocationEpoch_of hmesh])
  -- the earlier revocations have epochs that the mesh had reached before
  have hbefore : ∀ j row, s.revocations.lookup j = some row → row.val.meshId = revoked.val.meshId →
      row.val.revocationEpoch ≠ revoked.val.revocationEpoch := by
    intro j row hrow hmeshId heq
    have hle := (h.recorded j row hrow).2
    rw [hmeshId, hid, revocationEpoch_of hmesh] at hle
    omega
  refine ⟨fun k' => ?_, fun k' => ?_, fun k' m row hrow => ?_, h.members, fun j row hrow => ?_,
    fun j j' row row' hrow hrow' hmeshId heq => ?_⟩
  · rw [hsame, activations_of_none hr, h.membership]
  · rw [hgrows, Store.revocationsOf, rows,
      AList.entries_insert_of_notMem (AList.lookup_eq_none.1 hnew), map_cons, countP_cons,
      ← rows, ← Store.revocationsOf, h.revocation]
    simp only [hid, decide_eq_true_eq, eq_comm (a := k)]
  · rw [hsame]
    exact ⟨isSome_write (h.member k' m row hrow).1, (h.member k' m row hrow).2⟩
  · rw [hgrows]
    rcases write_cases hrow with ⟨-, rfl⟩ | ⟨-, hrow⟩
    · rw [hid, if_pos rfl, lookup_write, if_pos rfl, revocationEpoch_of hmesh, hepoch]
      exact ⟨rfl, le_rfl⟩
    · exact ⟨isSome_write (h.recorded j row hrow).1,
        (h.recorded j row hrow).2.trans (Nat.le_add_right _ _)⟩
  · rw [lookup_write] at hrow hrow'
    split at hrow <;> split at hrow'
    · subst_vars
      rfl
    · cases hrow
      exact absurd heq.symm (hbefore j' row' hrow' hmeshId.symm)
    · cases hrow'
      exact absurd heq (hbefore j row hrow hmeshId)
    · exact h.revocations j j' row row' hrow hrow' hmeshId heq

end

theorem Effect.epochs (he : Effect s r s') (h : Epochs t s) : Epochs (t ++ [r]) s' := by
  cases he with
  | replayedBootstrap | current | bound | rotated | identityRevoked | challenged | proven
  | challengeCancelled | replayedInvitation | invited | consumed | expired | invitationRevoked =>
    exact h.same rfl rfl rfl rfl
  | bootstrapped hnew hepochs hmember => exact h.bootstrap rfl hnew hepochs hmember
  | renamed hmesh hepochs =>
    exact h.writeMesh (activations_of_none_add rfl _)
      (by rw [hepochs.1, membershipEpoch_of hmesh, Nat.add_zero])
      (by rw [hepochs.2, revocationEpoch_of hmesh])
  | activated ha => exact h.activate rfl ha
  | retired hmember hepoch =>
    exact (h.writeMember hmember hepoch).same rfl rfl rfl rfl
  | revoked hmesh hmesh' hmember hepoch hstatus hnew hrow =>
    exact (h.writeMember hmember hepoch).revoke rfl hmesh (by rw [hmesh']) (by rw [hmesh']) hnew hrow.1
      hrow.2
  | confirmed hrow hconsumed hstate ha =>
    -- the invitation is none of the tables that the epochs are about
    have hsame : ∀ invitations, Epochs t { s with invitations := invitations } := fun _ =>
      ⟨h.membership, h.revocation, h.member, h.members, h.recorded, h.revocations⟩
    exact (hsame _).activate rfl ha

end

/-! ## Invitations -/

/-- The invitation was consumed in its window. -/
def MeshEnrollmentInvitationRecord.InWindow (record : MeshEnrollmentInvitationRecord) : Prop :=
  ∃ observed, record.consumedAt = some observed ∧ record.issuedAt ≤ observed ∧
    observed < record.expiresAt

/-- A confirmation may follow replies with a consumption of its invitation and no confirmation of it. -/
def MayFollow (before : List Reply) (r : Reply) : Prop :=
  ∀ record member, r = .confirmed record member →
    (∃ consumed, .consumed consumed ∈ before ∧ consumed.invitationId = record.invitationId ∧
      consumed.InWindow) ∧
    ∀ record' member', .confirmed record' member' ∈ before →
      record'.invitationId ≠ record.invitationId

structure Invitations (t : List Reply) (s : Store) : Prop where
  along : Along MayFollow t
  consumed : ∀ i row, s.invitations.lookup i = some row → row.val.invitationState = .consumed →
    ∃ record, .consumed record ∈ t ∧ record.invitationId = i ∧ record.InWindow
  confirmed : ∀ record member, .confirmed record member ∈ t →
    ∃ row, s.invitations.lookup record.invitationId = some row ∧ row.val.invitationState = .confirmed

theorem invitations_empty : Invitations [] Store.empty :=
  ⟨along_nil, fun _ _ h => (Option.some_ne_none _ h.symm).elim, fun _ _ h => absurd h not_mem_nil⟩

section
variable {t : List Reply} {s s' : Store} {r : Reply}

theorem mayFollow_other (hr : ∀ record member, r ≠ .confirmed record member) : MayFollow t r :=
  fun record member h => absurd h (hr record member)

/-- A call that writes no invitation. -/
theorem Invitations.same (h : Invitations t s) (hr : ∀ record member, r ≠ .confirmed record member)
    (hsame : s'.invitations = s.invitations) : Invitations (t ++ [r]) s' where
  along := h.along.snoc (mayFollow_other hr)
  consumed i row hrow hstate := by
    obtain ⟨record, hmem, hrecord⟩ := h.consumed i row (by rw [← hsame, hrow]) hstate
    exact ⟨record, mem_append_left _ hmem, hrecord⟩
  confirmed record member hmem := by
    rw [hsame]
    rcases mem_append.1 hmem with hmem | hmem
    · exact h.confirmed record member hmem
    · exact absurd (mem_singleton.1 hmem).symm (hr record member)

theorem Invitations.write (h : Invitations t s) (hr : ∀ record member, r ≠ .confirmed record member)
    {i : String}
    (hopen : ∀ row, s.invitations.lookup i = some row → row.val.invitationState ≠ .confirmed)
    (hstate : row'.val.invitationState = .consumed → ∃ record, r = .consumed record ∧
      record.invitationId = i ∧ record.InWindow) :
    Invitations (t ++ [r]) { s with invitations := s.invitations.insert i row' } where
  along := h.along.snoc (mayFollow_other hr)
  consumed j row hrow hconsumed := by
    rw [lookup_write] at hrow
    split at hrow
    · cases hrow
      obtain ⟨record, rfl, hid, hwindow⟩ := hstate hconsumed
      exact ⟨record, mem_append_right _ mem_cons_self, by rw [hid, ‹j = i›], hwindow⟩
    · obtain ⟨record, hmem, hrecord⟩ := h.consumed j row hrow hconsumed
      exact ⟨record, mem_append_left _ hmem, hrecord⟩
  confirmed record member hmem := by
    rcases mem_append.1 hmem with hmem | hmem
    · obtain ⟨row, hrow, hconfirmed⟩ := h.confirmed record member hmem
      have hne : record.invitationId ≠ i := fun heq => hopen row (heq ▸ hrow) hconfirmed
      exact ⟨row, by rw [lookup_write, if_neg hne, hrow], hconfirmed⟩
    · exact absurd (mem_singleton.1 hmem).symm (hr record member)

theorem Invitations.confirm (h : Invitations t s) {record : MeshEnrollmentInvitationRecord}
    {member : MeshMemberRecord} {row : Row InvitationColumns}
    (hrow : s.invitations.lookup record.invitationId = some row)
    (hconsumed : row.val.invitationState = .consumed)
    (hstate : row'.val.invitationState = .confirmed)
    (hs' : s'.invitations = s.invitations.insert record.invitationId row') :
    Invitations (t ++ [.confirmed record member]) s' where
  along := by
    refine h.along.snoc fun record' member' heq => ?_
    cases heq
    refine ⟨h.consumed _ row hrow hconsumed, fun record' member' hmem hid => ?_⟩
    -- an invitation that was confirmed before is not consumed now
    obtain ⟨row1, hrow1, hconfirmed⟩ := h.confirmed record' member' hmem
    rw [hid, hrow] at hrow1
    cases hrow1
    cases hconsumed.symm.trans hconfirmed
  consumed j row1 hrow1 hconsumed1 := by
    rw [hs', lookup_write] at hrow1
    split at hrow1
    · cases hrow1
      cases hstate.symm.trans hconsumed1
    · obtain ⟨consumed, hmem, hrecord⟩ := h.consumed j row1 hrow1 hconsumed1
      exact ⟨consumed, mem_append_left _ hmem, hrecord⟩
  confirmed record' member' hmem := by
    rw [hs', lookup_write]
    split
    · exact ⟨row', rfl, hstate⟩
    · rename_i hne
      rcases mem_append.1 hmem with hmem | hmem
      · exact h.confirmed record' member' hmem
      · cases mem_singleton.1 hmem
        exact absurd rfl hne

theorem Effect.invitations (he : Effect s r s') (h : Invitations t s) : Invitations (t ++ [r]) s' := by
  cases he with
  | replayedBootstrap | current | bound | rotated | identityRevoked | challenged | proven
  | challengeCancelled | replayedInvitation | bootstrapped | renamed | retired | revoked =>
    exact h.same (fun _ _ => Reply.noConfusion) rfl
  | activated ha =>
    obtain ⟨_, _, _, -, -, -, -, rfl⟩ := ha.tables
    exact h.same (fun _ _ => Reply.noConfusion) rfl
  | invited hnew hstate =>
    refine h.write (fun _ _ => Reply.noConfusion) (fun row hrow => ?_) fun hconsumed => ?_
    · cases hnew.symm.trans hrow
    · cases hstate.symm.trans hconsumed
  | consumed hrow hpending hrow' hstate hat hwindow =>
    refine h.write (fun _ _ => Reply.noConfusion) (fun row hrow1 => ?_) fun _ => ?_
    · cases hrow.symm.trans hrow1
      rw [hpending]
      decide
    · exact ⟨_, rfl, rfl, _, hat, hwindow.1, hwindow.2⟩
  | expired hrow hopen hstate | invitationRevoked hrow hopen hstate =>
    refine h.write (fun _ _ => Reply.noConfusion) (fun row hrow1 => ?_) fun hconsumed => ?_
    · cases hrow.symm.trans hrow1
      exact hopen
    · cases hstate.symm.trans hconsumed
  | confirmed hrow hconsumed hstate ha =>
    obtain ⟨_, _, _, -, -, -, -, rfl⟩ := ha.tables
    exact h.confirm hrow hconsumed hstate rfl

end

/-! ## Members that are not active -/

/-- One of the calls has activated the member. -/
def Reactivated (k m : String) (t : List Reply) : Prop :=
  ∃ r ∈ t, ∃ record, r.activation = some record ∧ record.meshId = k ∧ record.memberId = m

/-- The member is not active, unless it was activated in the meantime. -/
def Inactive (k m : String) (t : List Reply) (s : Store) : Prop :=
  Reactivated k m t ∨ ∃ row, s.members.lookup (k, m) = some row ∧ row.val.memberStatus ≠ .active

section
variable {k m : String} {t : List Reply} {s s' : Store} {r : Reply}

/-- A call after which the member is not active if it was not. -/
theorem Inactive.step (h : Inactive k m t s) (hstep : ∀ row, s.members.lookup (k, m) = some row →
    row.val.memberStatus ≠ .active →
    ∃ row', s'.members.lookup (k, m) = some row' ∧ row'.val.memberStatus ≠ .active) :
    Inactive k m (t ++ [r]) s' := by
  rcases h with ⟨r', hmem, hrest⟩ | ⟨row, hrow, hstatus⟩
  · exact .inl ⟨r', mem_append_left _ hmem, hrest⟩
  · exact .inr (hstep row hrow hstatus)

theorem Inactive.activate (h : Inactive k m t s) (hr : r.activation = some record)
    (ha : Activation s record s') : Inactive k m (t ++ [r]) s' := by
  by_cases hkey : (k, m) = (record.meshId, record.memberId)
  · cases hkey
    exact .inl ⟨r, mem_append_right _ mem_cons_self, record, hr, rfl, rfl⟩
  · obtain ⟨_, _, _, -, -, -, -, rfl⟩ := ha.tables
    exact h.step fun row hrow hstatus => ⟨row, by rw [lookup_write, if_neg hkey, hrow], hstatus⟩

/-- A call that writes members which are not active afterwards, or new ones. -/
theorem Inactive.write (h : Inactive k m t s) {key : String × String}
    (hmembers : s'.members = s.members.insert key member)
    (hmember : s.members.lookup key = none ∨ member.val.memberStatus ≠ .active) :
    Inactive k m (t ++ [r]) s' := by
  refine h.step fun row hrow hstatus => ?_
  rw [hmembers]
  by_cases hkey : (k, m) = key
  · subst hkey
    refine ⟨member, AList.lookup_insert _, hmember.resolve_left fun hnone => ?_⟩
    cases hrow.symm.trans hnone
  · exact ⟨row, by rw [lookup_write, if_neg hkey, hrow], hstatus⟩

theorem Effect.inactive (he : Effect s r s') (h : Inactive k m t s) : Inactive k m (t ++ [r]) s' := by
  cases he with
  | replayedBootstrap | current | bound | rotated | identityRevoked | challenged | proven
  | challengeCancelled | replayedInvitation | renamed | invited | consumed | expired
  | invitationRevoked => exact h.step fun row hrow hstatus => ⟨row, hrow, hstatus⟩
  | bootstrapped hnew hepochs hmember hfree => exact h.write rfl (.inl hfree)
  | activated ha => exact h.activate rfl ha
  | retired hmember hepoch hstatus | revoked _ _ hmember hepoch hstatus =>
    refine h.write rfl (.inr ?_)
    rw [hstatus]
    decide
  | confirmed hrow hconsumed hstate ha =>
    have hsame : ∀ invitations, Inactive k m t { s with invitations := invitations } := fun _ => h
    exact (hsame _).activate rfl ha

theorem assertCurrentMember_inactive {row : Row MemberColumns}
    (hrow : s.members.lookup (k, m) = some row) (hstatus : row.val.memberStatus ≠ .active)
    (ownerId : String) (membership revocation version : Option ℤ) (kept : Bool) :
    ∃ e, s.reply ⟨.assertCurrentMember ownerId k m membership revocation version, kept⟩ = .error e := by
  have hsettles := assertCurrentMember_settles (s := s) ownerId k m membership revocation version
  rcases hr : assertCurrentMember ownerId k m membership revocation version s with ⟨e | r, s'⟩
  · refine ⟨e, ?_⟩
    simp only [Store.reply, exec, Bind.bind, Tx.bind]
    rw [hr]
  · obtain ⟨rfl, rfl, heffect⟩ := hsettles.of_ok hr
    cases heffect with
    | current hmember hactive =>
      cases hrow.symm.trans hmember
      exact absurd hactive hstatus

end

/-! ## The records of a mesh -/

/-- **Mesh enrollment: epochs and invitations.** -/
theorem mesh_enrollment (calls : List Call) :
    -- the membership epoch starts at 1 and counts the activations
    (∀ k row, (Store.empty.run calls).meshes.lookup k = some row →
      row.val.membershipEpoch = 1 + activations k (Store.empty.trace calls)) ∧
    -- the revocation epoch counts the revocations that are recorded
    (∀ k row, (Store.empty.run calls).meshes.lookup k = some row →
      row.val.revocationEpoch = (Store.empty.run calls).revocationsOf k) ∧
    -- no two members of a mesh have one epoch, and no two revocations
    (∀ k m m' row row', (Store.empty.run calls).members.lookup (k, m) = some row →
      (Store.empty.run calls).members.lookup (k, m') = some row' →
      row.val.membershipEpoch = row'.val.membershipEpoch → m = m') ∧
    (∀ i i' row row', (Store.empty.run calls).revocations.lookup i = some row →
      (Store.empty.run calls).revocations.lookup i' = some row' → row.val.meshId = row'.val.meshId →
      row.val.revocationEpoch = row'.val.revocationEpoch → i = i') ∧
    -- an invitation is confirmed once, and was consumed in its window before
    Along MayFollow (Store.empty.trace calls) ∧
    -- a member that is not active is not current until it is activated again
    (∀ k m row, (Store.empty.run calls).members.lookup (k, m) = some row →
      row.val.memberStatus ≠ .active → ∀ later,
      ¬ Reactivated k m ((Store.empty.run calls).trace later) →
      ∀ ownerId membership revocation version kept, ∃ e,
        ((Store.empty.run calls).run later).reply
          ⟨.assertCurrentMember ownerId k m membership revocation version, kept⟩ = .error e) ∧
    -- a call that raises leaves every table as it was
    (∀ m e s', exec m (Store.empty.run calls) = (.error e, s') → s' = Store.empty.run calls) := by
  have hepochs : Epochs (Store.empty.trace calls) (Store.empty.run calls) :=
    Store.run_trace (fun _ _ _ _ h he => he.epochs h) calls epochs_empty
  have hinvitations : Invitations (Store.empty.trace calls) (Store.empty.run calls) :=
    Store.run_trace (fun _ _ _ _ h he => he.invitations h) calls invitations_empty
  generalize Store.empty.run calls = s at hepochs hinvitations ⊢
  refine ⟨?_, ?_, hepochs.members, hepochs.revocations, hinvitations.along, ?_,
    fun m e s' h => (exec_settles m s).raises h⟩
  · intro k row hrow
    rw [← membershipEpoch_of hrow, hepochs.membership]
  · intro k row hrow
    rw [← revocationEpoch_of hrow, hepochs.revocation]
  · intro k m row hrow hstatus later hnot ownerId membership revocation version kept
    have hinactive : Inactive k m ([] ++ s.trace later) (s.run later) :=
      Store.run_trace (fun _ _ _ _ h he => he.inactive h) later (.inr ⟨row, hrow, hstatus⟩)
    obtain ⟨row', hrow', hstatus'⟩ := hinactive.resolve_left hnot
    exact assertCurrentMember_inactive hrow' hstatus' ownerId membership revocation version kept

/-- A device is invited, consumes the invitation and is confirmed. -/
def enrollment : List Call :=
  [⟨.bootstrapMesh "mesh" "owner" "home" "hub" "device" none, true⟩,
    ⟨.issueInvitation "owner" "mesh" "invitation" "device"
      "0123456789abcdef0123456789abcdef0123456789abcdef0123456789abcdef" none 0 100, true⟩,
    ⟨.consumeInvitation "owner" "invitation"
      "0123456789abcdef0123456789abcdef0123456789abcdef0123456789abcdef" 10, true⟩,
    ⟨.confirmInvitation "owner" "invitation" "phone" 2 1 0 20 none, true⟩]

/-- The first member is retired, and then activated again. -/
def retirement : List Call :=
  [⟨.bootstrapMesh "mesh" "owner" "home" "hub" "device" none, true⟩,
    ⟨.retireMember "owner" "mesh" "hub" 1, true⟩]

def reenrollment : List Call := [⟨.activateMember "owner" "mesh" "hub" "device" 1 2 none, true⟩]

/-- A member is enrolled by an invitation although no challenge was ever issued, and a member that was
    retired is current again once it was activated with its version. -/
theorem enrolled_without_challenge :
    (((Store.empty.run enrollment).members.lookup ("mesh", "phone")).map (·.val.memberStatus) =
        some .active ∧
      ((Store.empty.run enrollment).invitations.lookup "invitation").map (·.val.invitationState) =
        some .confirmed ∧
      (Store.empty.run enrollment).challenges.entries.length = 0) ∧
    ((Store.empty.run retirement).members.lookup ("mesh", "hub")).map (·.val.memberStatus) =
      some .retired ∧
    (((Store.empty.run retirement).run reenrollment).reply
      ⟨.assertCurrentMember "owner" "mesh" "hub" none none none, true⟩).isOk = true := by
  refine ⟨⟨?_, ?_, ?_⟩, ?_, ?_⟩ <;> decide +kernel

end AstralPlane.MeshEnrollment
