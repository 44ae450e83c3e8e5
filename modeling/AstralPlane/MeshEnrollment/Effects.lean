/-
  What a call does to the tables.

  * `exec_settles`: a call that raises leaves the tables as they were, and one
    that returns has one of the effects of `Effect`;
  * `Store.run_trace`: what an effect keeps, of the replies so far and the tables,
    every run keeps.
-/
import AstralPlane.MeshEnrollment.Repository

namespace AstralPlane.MeshEnrollment

open Tx

variable {member mesh owner : String} {kind : MeshMemberKind} {label : Option String}
  {epoch memberVersion meshVersion : ℕ} {reply : Option MemberColumns}
variable {invitation memberId meshId ownerId revocation : String}
  {expectedMemberVersion expectedMeshVersion : ℤ} {displayLabel reason : Option String}

/-! ## Effects -/

/-- The member is active, at the next membership epoch of its mesh. -/
structure Activation (s : Store) (record : MeshMemberRecord) (s' : Store) : Prop where
  active : record.memberStatus = .active
  tables : ∃ (mesh mesh' : Row MeshColumns) (member : Row MemberColumns),
    s.meshes.lookup record.meshId = some mesh ∧
    mesh'.val = { mesh.val with
      membershipEpoch := mesh.val.membershipEpoch + 1
      recordVersion := mesh.val.recordVersion + 1 } ∧
    member.val = record.toMemberColumns ∧
    record.membershipEpoch = mesh.val.membershipEpoch + 1 ∧
    s' = { s with
      meshes := s.meshes.insert record.meshId mesh'
      members := s.members.insert (record.meshId, record.memberId) member }

/-- What a method that returned has done. -/
inductive Effect (s : Store) : Reply → Store → Prop
  | replayedBootstrap {mesh : MeshRecord} {member : MeshMemberRecord} :
    Effect s (.bootstrapped mesh member) s
  | bootstrapped {record : MeshRecord} {memberRecord : MeshMemberRecord} {mesh : Row MeshColumns}
      {member : Row MemberColumns} (hnew : s.meshes.lookup record.meshId = none)
      (hepochs : mesh.val.membershipEpoch = 1 ∧ mesh.val.revocationEpoch = 0)
      (hmember : member.val.membershipEpoch = 1)
      (hfree : s.members.lookup (record.meshId, memberRecord.memberId) = none) :
    Effect s (.bootstrapped record memberRecord) { s with
      meshes := s.meshes.insert record.meshId mesh
      members := s.members.insert (record.meshId, memberRecord.memberId) member }
  | renamed {record : MeshRecord} {mesh mesh' : Row MeshColumns}
      (hmesh : s.meshes.lookup record.meshId = some mesh)
      (hepochs : mesh'.val.membershipEpoch = mesh.val.membershipEpoch ∧
        mesh'.val.revocationEpoch = mesh.val.revocationEpoch) :
    Effect s (.renamed record) { s with meshes := s.meshes.insert record.meshId mesh' }
  | activated {record : MeshMemberRecord} {s' : Store} (h : Activation s record s') :
    Effect s (.activated record) s'
  | current {mesh : MeshRecord} {record : MeshMemberRecord} {member : Row MemberColumns}
      (hmember : s.members.lookup (record.meshId, record.memberId) = some member)
      (hactive : member.val.memberStatus = .active) : Effect s (.current mesh record) s
  | retired {record : MeshMemberRecord} {member member' : Row MemberColumns}
      (hmember : s.members.lookup (record.meshId, record.memberId) = some member)
      (hepoch : member'.val.membershipEpoch = member.val.membershipEpoch)
      (hstatus : member'.val.memberStatus = .retired) :
    Effect s (.retired record) { s with
      members := s.members.insert (record.meshId, record.memberId) member' }
  | revoked {record : MeshMemberRecord} {revocation : MeshMemberRevocationRecord}
      {mesh mesh' : Row MeshColumns} {member member' : Row MemberColumns}
      {row : Row RevocationColumns} (hmesh : s.meshes.lookup record.meshId = some mesh)
      (hmesh' : mesh'.val = { mesh.val with
        revocationEpoch := mesh.val.revocationEpoch + 1
        recordVersion := mesh.val.recordVersion + 1 })
      (hmember : s.members.lookup (record.meshId, record.memberId) = some member)
      (hepoch : member'.val.membershipEpoch = member.val.membershipEpoch)
      (hstatus : member'.val.memberStatus = .revoked)
      (hnew : s.revocations.lookup revocation.revocationId = none)
      (hrow : row.val.meshId = record.meshId ∧
        row.val.revocationEpoch = mesh.val.revocationEpoch + 1) :
    Effect s (.revoked record revocation) { s with
      meshes := s.meshes.insert record.meshId mesh'
      members := s.members.insert (record.meshId, record.memberId) member'
      revocations := s.revocations.insert revocation.revocationId row }
  | bound {record : MeshPublicIdentityRecord} {t : Keyed String (Row IdentityColumns)} :
    Effect s (.bound record) { s with identities := t }
  | rotated {record : MeshPublicIdentityRecord} {t : Keyed String (Row IdentityColumns)} :
    Effect s (.rotated record) { s with identities := t }
  | identityRevoked {record : MeshPublicIdentityRecord} {t : Keyed String (Row IdentityColumns)} :
    Effect s (.identityRevoked record) { s with identities := t }
  | challenged {record : MeshEnrollmentChallengeRecord} {t : Keyed String (Row ChallengeColumns)} :
    Effect s (.challenged record) { s with challenges := t }
  | proven {record : MeshEnrollmentChallengeRecord} {t : Keyed String (Row ChallengeColumns)} :
    Effect s (.proven record) { s with challenges := t }
  | challengeCancelled {record : MeshEnrollmentChallengeRecord}
      {t : Keyed String (Row ChallengeColumns)} :
    Effect s (.challengeCancelled record) { s with challenges := t }
  | replayedInvitation {record : MeshEnrollmentInvitationRecord} : Effect s (.invited record) s
  | invited {record : MeshEnrollmentInvitationRecord} {invitation : Row InvitationColumns}
      (hnew : s.invitations.lookup record.invitationId = none)
      (hstate : invitation.val.invitationState = .pending) :
    Effect s (.invited record) { s with
      invitations := s.invitations.insert record.invitationId invitation }
  | consumed {record : MeshEnrollmentInvitationRecord} {invitation invitation' : Row InvitationColumns}
      {observed : ℕ} (hrow : s.invitations.lookup record.invitationId = some invitation)
      (hpending : invitation.val.invitationState = .pending)
      (hrow' : invitation'.val = record.toInvitationColumns)
      (hstate : record.invitationState = .consumed) (hat : record.consumedAt = some observed)
      (hwindow : record.issuedAt ≤ observed ∧ observed < record.expiresAt) :
    Effect s (.consumed record) { s with
      invitations := s.invitations.insert record.invitationId invitation' }
  | expired {record : MeshEnrollmentInvitationRecord} {invitation invitation' : Row InvitationColumns}
      (hrow : s.invitations.lookup record.invitationId = some invitation)
      (hopen : invitation.val.invitationState ≠ .confirmed)
      (hstate : invitation'.val.invitationState = .expired) :
    Effect s (.expired record) { s with
      invitations := s.invitations.insert record.invitationId invitation' }
  | invitationRevoked {record : MeshEnrollmentInvitationRecord}
      {invitation invitation' : Row InvitationColumns}
      (hrow : s.invitations.lookup record.invitationId = some invitation)
      (hopen : invitation.val.invitationState ≠ .confirmed)
      (hstate : invitation'.val.invitationState = .revoked) :
    Effect s (.invitationRevoked record) { s with
      invitations := s.invitations.insert record.invitationId invitation' }
  | confirmed {record : MeshEnrollmentInvitationRecord} {member : MeshMemberRecord}
      {invitation invitation' : Row InvitationColumns} {s' : Store}
      (hrow : s.invitations.lookup record.invitationId = some invitation)
      (hconsumed : invitation.val.invitationState = .consumed)
      (hstate : invitation'.val.invitationState = .confirmed)
      (h : Activation { s with
        invitations := s.invitations.insert record.invitationId invitation' } member s') :
    Effect s (.confirmed record member) s'

/-! ## Steps of the methods -/

section
variable {s : Store} {α β : Type}

theorem checked_readOnly (r : Except Repositories.ValidationError α) : (checked r).ReadOnly :=
  readOnly_ofExcept _

theorem settles_checked_bind {r : Except Repositories.ValidationError α} {f : α → Work β}
    {Q : β → Store → Prop} (h : ∀ a, r = .ok a → (f a).Settles s Q) :
    (checked r >>= f).Settles s Q := by
  refine settles_readOnly_bind (checked_readOnly r) fun a ha => h a ?_
  have heq := (ok_ofExcept.1 ha).1
  cases r with
  | error => cases heq
  | ok => exact congrArg _ (Except.ok.inj heq)

section
variable {challenge identity : String} {digest : Option String} {Q : α → Store → Prop}

theorem identityWriteMiss_settles : (identityWriteMiss owner identity : Work α).Settles s Q := by
  refine settles_get_bind ?_
  split <;> exact settles_raise

theorem challengeMiss_settles : (challengeMiss owner challenge digest : Work α).Settles s Q := by
  refine settles_get_bind ?_
  repeat' split
  all_goals exact settles_raise

theorem invitationMiss_settles : (invitationMiss owner invitation digest : Work α).Settles s Q := by
  refine settles_get_bind ?_
  repeat' split
  all_goals exact settles_raise

end

theorem getMesh_readOnly : (getMesh owner mesh).ReadOnly := by
  refine readOnly_bind readOnly_get fun s => ?_
  split <;> simp

theorem lockMesh_readOnly (owner mesh : String) (version : ℕ) :
    (lockMesh owner mesh version).ReadOnly := by
  refine readOnly_bind readOnly_get fun s => ?_
  split
  · refine readOnly_bind readOnly_get fun s => ?_
    split <;> exact readOnly_raise _
  · exact readOnly_pure _

end

/-! ## Methods that insert or replay -/

section
variable {s : Store}

section
variable {κ α : Type} [DecidableEq κ] [Columns α] {part : Store → Keyed κ (Row α)}
  {put : Keyed κ (Row α) → Store → Store} {wrap : String → Exc} {condition : Bool} {k : κ} {a : α}
  {clashes : α → Bool}

/-- `INSERT … SELECT … WHERE condition`, on one table of the store. -/
theorem selectWhere_settles (hput : put (part s) s = s) :
    (selectWhere condition (zoom part put wrap (Sql.insertReturning k a clashes))).Settles s
      fun reply s' => (reply = none ∧ s' = s) ∨ ∃ row : Row α, (part s).lookup k = none ∧
        row.val = a ∧ reply = some row.val ∧ s' = put ((part s).insert k row) s := by
  unfold selectWhere
  split
  · refine (Sql.zoom_insert_settles hput).imp ?_
    rintro _ _ (hnone | ⟨row, hnew, -, rfl, hreply⟩)
    · exact .inl hnone
    · exact .inr ⟨row, hnew, rfl, hreply⟩
  · exact .inl ⟨rfl, rfl⟩

/-- A row that is not inserted is the replay of an earlier call, or an error. -/
theorem insert_or_replay {β : Type} {g : Option α → Work β} {f : α → β} {Q : β → Store → Prop}
    (hput : put (part s) s = s) (hreply : ∀ a, g (some a) = pure (f a)) (hreplay : (g none).Settles s Q)
    (hrow : ∀ row : Row α, (part s).lookup k = none → row.val = a →
      Q (f row.val) (put ((part s).insert k row) s)) :
    (selectWhere condition (zoom part put wrap (Sql.insertReturning k a clashes)) >>= g).Settles s
      Q := by
  refine (selectWhere_settles hput).bind ?_
  rintro _ _ (⟨rfl, rfl⟩ | ⟨row, hnew, ha, rfl, rfl⟩)
  · exact .inl ⟨rfl, hreplay⟩
  · rw [hreply]
    exact .inr ⟨_, _, ok_pure.2 ⟨rfl, rfl⟩, hrow row hnew ha⟩

end

end

/-! ## Methods of several statements -/

section
variable {s s' : Store}

theorem writeMember_ok {existing : Option MeshMemberRecord}
    (h : (writeMember existing owner mesh member kind label meshVersion memberVersion epoch).Ok s
      reply s') : reply = none ∨ ∃ row : Row MemberColumns, reply = some row.val ∧
      row.val.memberStatus = .active ∧ row.val.membershipEpoch = epoch ∧
      s' = { s with members := s.members.insert (mesh, member) row } := by
  cases existing with
  | none =>
    have hsettles : (insertMember owner mesh member kind label meshVersion memberVersion
      epoch).Settles s _ := settles_get_bind (selectWhere_settles rfl)
    rcases hsettles.of_ok h with ⟨hnone, -⟩ | ⟨row, -, hrow, hreply, heq⟩
    · exact .inl hnone
    · exact .inr ⟨row, hreply, by rw [hrow], by rw [hrow], heq⟩
  | some =>
    rcases (Sql.zoom_update_settles rfl).of_ok h with ⟨hnone, -⟩ | ⟨_, row, -, -, hrow, hreply, heq⟩
    · exact .inl hnone
    · exact .inr ⟨row, hreply, by rw [hrow], by rw [hrow], heq⟩

theorem activate_ok {record : MeshMemberRecord}
    (h : (activate owner mesh member kind label meshVersion memberVersion).Ok s record s') :
    Activation s record s' := by
  simp only [activate, ok_rules] at h
  obtain ⟨_, _, hlock, _, rfl, _, -, reply, _, hmesh, h⟩ := h
  obtain rfl := (lockMesh_readOnly owner mesh meshVersion).ok hlock
  rcases (Sql.zoom_update_settles rfl).of_ok hmesh with
    ⟨rfl, -⟩ | ⟨row, row', hrow, -, hrow', rfl, rfl⟩
  · exact absurd h ok_raise
  obtain ⟨reply, s5, hmember, h⟩ := ok_bind.1 h
  rcases writeMember_ok hmember with rfl | ⟨memberRow, rfl, hactive, hepoch, rfl⟩
  · exact absurd h ok_raise
  · obtain ⟨rfl, rfl⟩ := ok_pure.1 h
    refine ⟨hactive, row, row', memberRow, hrow, hrow', rfl, ?_, rfl⟩
    rw [hepoch, hrow']

theorem activateMember_settles {memberKind : String} :
    (activateMember ownerId meshId memberId memberKind expectedMeshVersion expectedMemberVersion
      displayLabel).Settles s fun record s' => Activation s record s' := by
  repeat refine settles_checked_bind fun _ _ => ?_
  exact settles_savepoint fun _ _ => activate_ok

theorem replayBootstrap_readOnly {name : String} :
    (replayBootstrap mesh owner name member kind label).ReadOnly := by
  refine readOnly_bind readOnly_get fun s => ?_
  split
  · exact readOnly_raise _
  · split <;> simp

theorem bootstrap_ok {name : String} {r : MeshRecord × MeshMemberRecord}
    (hok : (bootstrap mesh owner name member kind label).Ok s r s') :
    Effect s (.bootstrapped r.1 r.2) s' := by
  obtain ⟨reply, s1, hmesh, h⟩ := ok_bind.1 hok
  rcases (Sql.zoom_insert_settles rfl).of_ok hmesh with
    ⟨rfl, rfl⟩ | ⟨row, hnew, -, hrow, rfl, rfl⟩
  · obtain rfl := replayBootstrap_readOnly.ok h
    exact .replayedBootstrap
  obtain ⟨reply, s2, hmember, h⟩ := ok_bind.1 h
  have hsettles : (insertBootstrapMember mesh owner member kind label).Settles
      { s with meshes := s.meshes.insert mesh row } _ := settles_get_bind (selectWhere_settles rfl)
  rcases hsettles.of_ok hmember with ⟨rfl, -⟩ | ⟨memberRow, hfree, hmemberRow, rfl, rfl⟩
  · exact absurd h ok_raise
  · obtain ⟨rfl, rfl⟩ := ok_pure.1 h
    exact .bootstrapped hnew (by rw [hrow]; exact ⟨rfl, rfl⟩) (by rw [hmemberRow]) hfree

theorem revoke_ok {r : MeshMemberRecord × MeshMemberRevocationRecord}
    (hok : (revoke owner mesh member revocation reason meshVersion memberVersion).Ok s r s') :
    Effect s (.revoked r.1 r.2) s' := by
  simp only [revoke, ok_rules] at hok
  obtain ⟨_, _, hlock, _, rfl, h⟩ := hok
  obtain rfl := (lockMesh_readOnly owner mesh meshVersion).ok hlock
  split at h
  · exact absurd h ok_raise
  · simp only [ok_rules] at h
    obtain ⟨_, -, reply, _, hmesh, h⟩ := h
    rcases (Sql.zoom_update_settles rfl).of_ok hmesh with
      ⟨rfl, -⟩ | ⟨row, row', hrow, -, hrow', rfl, rfl⟩
    · exact absurd h ok_raise
    obtain ⟨reply, s5, hmember, h⟩ := ok_bind.1 h
    rcases (Sql.zoom_update_settles rfl).of_ok hmember with
      ⟨rfl, -⟩ | ⟨memberRow, memberRow', hmemberRow, -, hmemberRow', rfl, rfl⟩
    · exact absurd h ok_raise
    obtain ⟨reply, s6, hrevocation, h⟩ := ok_bind.1 h
    have hinserted := Settles.of_ok (by exact settles_get_bind (selectWhere_settles rfl)) hrevocation
    rcases hinserted with ⟨rfl, -⟩ | ⟨revocationRow, hnew, hvalue, rfl, rfl⟩
    · exact absurd h ok_raise
    · obtain ⟨rfl, rfl⟩ := ok_pure.1 h
      refine .revoked hrow hrow' hmemberRow ?_ ?_ hnew ⟨?_, ?_⟩
      · rw [hmemberRow']
      · rw [hmemberRow']
      · rw [hvalue]
      · rw [hvalue, hrow']

theorem confirm_ok {invitationVersion observed : ℕ}
    {r : MeshEnrollmentInvitationRecord × MeshMemberRecord}
    (hok : (confirm owner mesh invitation member label invitationVersion meshVersion memberVersion
      observed).Ok s r s') : Effect s (.confirmed r.1 r.2) s' := by
  obtain ⟨_, s1, hlock, h⟩ := ok_bind.1 hok
  obtain rfl := (lockMesh_readOnly owner mesh meshVersion).ok hlock
  obtain ⟨reply, s2, hinvitation, h⟩ := ok_bind.1 h
  rcases (Sql.zoom_update_settles rfl).of_ok hinvitation with
    ⟨rfl, -⟩ | ⟨row, row', hrow, hselects, hrow', rfl, rfl⟩
  · exact absurd h ok_raise
  simp only [bool_to_prop] at hselects
  obtain ⟨⟨⟨⟨-, hconsumed⟩, -⟩, -⟩, -⟩ := hselects
  obtain ⟨record, s3, hmember, h⟩ := ok_bind.1 h
  obtain ⟨rfl, rfl⟩ := ok_pure.1 h
  exact .confirmed hrow hconsumed (by rw [hrow']) (activateMember_settles.of_ok hmember)

theorem getInvitation_readOnly : (getInvitation owner invitation).ReadOnly := by
  refine readOnly_bind readOnly_get fun s => ?_
  split <;> simp

theorem identified_ok {value field a : String} (h : identified value field = .ok a) : a = value := by
  simp only [identified, Repositories.requiredId, ok_rules] at h
  obtain ⟨_, -, _, -, rfl⟩ := h
  rfl

/-- The assertion holds of a member that is active, under the ids of its arguments. -/
theorem assertCurrentMember_settles (ownerId meshId memberId : String)
    (expectedMembershipEpoch expectedRevocationEpoch expectedMemberVersion : Option ℤ) :
    (assertCurrentMember ownerId meshId memberId expectedMembershipEpoch expectedRevocationEpoch
      expectedMemberVersion).Settles s fun r s' =>
        r.2.meshId = meshId ∧ r.2.memberId = memberId ∧ Effect s (.current r.1 r.2) s' := by
  refine settles_checked_bind fun owner _ => settles_checked_bind fun mesh hmesh =>
    settles_checked_bind fun member hmember => settles_require_bind fun _ =>
    settles_get_bind ?_
  obtain rfl := identified_ok hmesh
  obtain rfl := identified_ok hmember
  split
  · exact settles_raise
  · split
    · exact settles_raise
    · rename_i record hrecord
      obtain ⟨row, hrow, rfl⟩ := Option.map_eq_some_iff.1 hrecord
      refine settles_require_bind fun hactive => settles_require_bind fun _ =>
        settles_require_bind fun _ => settles_require_bind fun _ => settles_pure ?_
      exact ⟨rfl, rfl, .current (Option.filter_eq_some_iff.1 hrow).1 (of_decide_eq_true hactive)⟩

end

/-! ## Calls -/

/-- A call raises and leaves the tables as they were, or returns and has its effect. -/
theorem exec_settles (m : Method) (s : Store) : (exec m).Settles s (Effect s) := by
  have hmap : ∀ {α : Type} {x : Work α} {f : α → Reply}, x.Settles s (fun a s' => Effect s (f a) s') →
      (f <$> x).Settles s (Effect s) := fun hx =>
    hx.bind fun _ s' h => .inr ⟨_, s', ok_pure.2 ⟨rfl, rfl⟩, h⟩
  cases m
  all_goals refine hmap ?_
  case activateMember => exact activateMember_settles.imp fun _ _ => .activated
  case assertCurrentMember =>
    exact (assertCurrentMember_settles _ _ _ _ _ _).imp fun _ _ h => h.2.2
  -- what the other methods do once their arguments are checked
  all_goals repeat refine settles_checked_bind fun _ _ => ?_
  case bootstrapMesh => exact settles_savepoint fun _ _ => bootstrap_ok
  case renameMesh =>
    refine Sql.update_or_miss rfl (fun _ => rfl) (settles_get_bind ?_) fun row row' hrow _ hrow' =>
      .renamed hrow ?_
    · split <;> exact settles_raise
    · rw [hrow']
      exact ⟨rfl, rfl⟩
  case retireMember =>
    refine Sql.update_or_miss rfl (fun _ => rfl) (settles_get_bind ?_) fun row row' hrow _ hrow' =>
      .retired hrow (by rw [hrow']) (by rw [hrow'])
    repeat' split
    all_goals exact settles_raise
  case revokeMember => exact settles_savepoint fun _ _ => revoke_ok
  case bindPublicIdentity =>
    refine settles_get_bind ?_
    split
    · exact settles_raise
    · refine settles_require_bind fun _ => insert_or_replay rfl (fun _ => rfl)
        (ReadOnly.settles (readOnly_bind readOnly_get fun s => ?_) fun _ _ => .bound) fun _ _ _ => .bound
      split <;> simp
  case rotatePublicIdentity =>
    exact Sql.update_or_miss rfl (fun _ => rfl) identityWriteMiss_settles fun _ _ _ _ _ => .rotated
  case revokePublicIdentity =>
    exact Sql.update_or_miss rfl (fun _ => rfl) identityWriteMiss_settles
      fun _ _ _ _ _ => .identityRevoked
  case issueEnrollmentChallenge =>
    refine settles_get_bind (insert_or_replay rfl (fun _ => rfl)
      (ReadOnly.settles (readOnly_bind getMesh_readOnly fun _ => readOnly_bind readOnly_get
        fun s => ?_) fun _ _ => .challenged) fun _ _ _ => .challenged)
    split <;> simp
  case proveEnrollmentChallenge =>
    exact Sql.update_or_miss rfl (fun _ => rfl) challengeMiss_settles fun _ _ _ _ _ => .proven
  case cancelEnrollmentChallenge =>
    exact Sql.update_or_miss rfl (fun _ => rfl) challengeMiss_settles
      fun _ _ _ _ _ => .challengeCancelled
  case issueInvitation =>
    refine settles_get_bind (insert_or_replay rfl (fun _ => rfl)
      (ReadOnly.settles (readOnly_bind getMesh_readOnly fun _ => readOnly_bind readOnly_get
        fun s => ?_) fun _ _ => .replayedInvitation)
      fun row hnew hrow => .invited hnew (by rw [hrow]))
    split <;> simp
  case consumeInvitation =>
    refine Sql.update_or_miss rfl (fun _ => rfl) invitationMiss_settles
      fun row row' hrow hselects hrow' => ?_
    simp only [bool_to_prop] at hselects
    obtain ⟨⟨⟨-, hpending⟩, hissued⟩, hexpires⟩ := hselects
    refine .consumed hrow hpending rfl ?_ (congrArg (·.consumedAt) hrow') ?_ <;> simp only [hrow']
    exact ⟨hissued, hexpires⟩
  case expireInvitation =>
    refine Sql.update_or_miss rfl (fun _ => rfl) invitationMiss_settles
      fun row row' hrow hselects hrow' => .expired hrow ?_ (by rw [hrow'])
    simp only [bool_to_prop] at hselects
    rw [hselects.1.2]
    decide
  case revokeInvitation =>
    refine Sql.update_or_miss rfl (fun _ => rfl) invitationMiss_settles
      fun row row' hrow hselects hrow' => .invitationRevoked hrow ?_ (by rw [hrow'])
    simp only [bool_to_prop] at hselects
    rcases hselects.2 with h | h <;> rw [h] <;> decide
  case confirmInvitation =>
    exact settles_readOnly_bind getInvitation_readOnly fun _ _ => settles_savepoint fun _ _ => confirm_ok

theorem Store.step_cases (call : Call) (s : Store) :
    (∃ e, s.reply call = .error e ∧ s.step call = s) ∨
      ∃ r, s.reply call = .ok r ∧ Effect s r (s.step call) := by
  have hsettles := exec_settles call.method s
  unfold Store.reply Store.step
  rcases hr : exec call.method s with ⟨e | r, s'⟩
  · obtain rfl := hsettles.raises hr
    refine .inl ⟨e, rfl, ?_⟩
    rw [Tx.commit, hr]
    split <;> rfl
  · refine .inr ⟨r, rfl, ?_⟩
    rw [commit_ok hr]
    split <;> exact hsettles.of_ok hr

/-- What every effect keeps, of the replies so far and the tables, a run keeps. -/
theorem Store.run_trace {P : List Reply → Store → Prop}
    (hstep : ∀ t s r s', P t s → Effect s r s' → P (t ++ [r]) s') :
    ∀ (calls : List Call) {t : List Reply} {s : Store}, P t s → P (t ++ s.trace calls) (s.run calls)
  | [], t, s, h => by rwa [Store.trace, List.append_nil]
  | call :: calls, t, s, h => by
    rw [Store.trace, ← List.append_assoc]
    refine Store.run_trace hstep calls ?_
    rcases Store.step_cases call s with ⟨e, hreply, hsame⟩ | ⟨r, hreply, heffect⟩ <;> rw [hreply]
    · rw [hsame]
      exact (List.append_nil t).symm ▸ h
    · exact hstep t s r _ h heffect

end AstralPlane.MeshEnrollment
