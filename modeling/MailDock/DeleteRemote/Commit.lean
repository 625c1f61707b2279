import MailDock.DeleteRemote.Guard
import MailDock.Repository.Rows

/-!
# The database after a completed deletion

The statements of `_commit_completed_state` change the status of the candidate's
own membership; every other server UID keeps its status, or is the new membership
in the trash folder.
-/

namespace MailDock

open Relational

/-- The candidate describes the membership `r` of the stored message. -/
structure CandidateOf (t : Tables) (candidate : DeleteCandidate) (message : Message)
    (r : Membership) : Prop where
  message_mem : message ∈ t.messages
  messageId : candidate.messageId = message.id
  accountId : candidate.accountId = message.accountId
  row_mem : r ∈ t.memberships
  row_message : r.messageId = message.id
  folderId : candidate.folderId = some r.folderId
  serverUid : r.serverUid = some (r.folderId,candidate.uidvalidity,candidate.uid)
  folderName : t.folderRawName r.folderId = some candidate.folderRawName

/-- The server UID of a candidate whose membership is `r`. -/
def DeleteCandidate.serverUid (candidate : DeleteCandidate) (r : Membership) : ServerUid :=
  (r.folderId,candidate.uidvalidity,candidate.uid)

theorem CandidateOf.ownerAccount {t : Tables} {candidate : DeleteCandidate} {message : Message}
    {r : Membership} (h : CandidateOf t candidate message r) :
    t.OwnerAccount (candidate.serverUid r) candidate.accountId :=
  ⟨r,h.row_mem,h.serverUid,message,h.message_mem,h.row_message.symm,h.accountId.symm⟩

/-- From `t` to `t'` at most the status of `k` was changed, or a present membership added. -/
structure SettledAt (k : ServerUid) (t t' : Tables) : Prop where
  kept : DatabaseKept t t'
  others : ∀ k', k' ≠ k → t'.status k' = t.status k' ∨
    ∃ movedTo, t'.status k' = some (.present,movedTo)

theorem SettledAt.trans {k : ServerUid} {t t' t'' : Tables} (h : SettledAt k t t')
    (h' : SettledAt k t' t'') : SettledAt k t t'' where
  kept := h.kept.trans h'.kept
  others k' hk := by
    rcases h'.others k' hk with hsame | hpresent
    · rw [hsame]
      exact h.others k' hk
    · exact .inr hpresent

/-- A statement on tables other than messages, memberships and folders. -/
theorem SettledAt.of_frame {t t' : Tables} (hfolders : t'.folders = t.folders)
    (hmessages : t'.messages = t.messages) (hmemberships : t'.memberships = t.memberships)
    (k : ServerUid) : SettledAt k t t' where
  kept := ⟨hfolders,fun m hm => ⟨m,hmessages ▸ hm,rfl,rfl⟩,
    fun _ _ h => h.congr hmemberships hmessages⟩
  others k' _ := .inl (Tables.status_congr hmemberships k')

theorem SettledAt.accounted {t t' : Tables} {candidate : DeleteCandidate} {message : Message}
    {r : Membership} (h : SettledAt (candidate.serverUid r) t t')
    (hcandidate : CandidateOf t candidate message r) {mode : RemoteDeleteMode}
    {timestamp : String} {events : List ManifestEvent}
    (hevent : remoteDeleteEvent .completed candidate mode timestamp ∈ events) :
    Accounted t t' events := by
  intro k'
  by_cases hk : k' = candidate.serverUid r
  · refine .inr (.inr ⟨candidate.accountId,candidate.folderRawName,mode,timestamp,?_,?_,?_⟩)
    · rw [hk]
      exact h.kept.owners _ _ hcandidate.ownerAccount
    · rw [hk,Tables.folderRawName,h.kept.folders]
      exact hcandidate.folderName
    · rw [hk]
      exact hevent
  · rcases h.others k' hk with hsame | hpresent
    · exact .inl hsame
    · exact .inr (.inl hpresent)

section
variable {repo repo' : Repository} {candidate : DeleteCandidate} {message : Message}
  {r : Membership}

theorem updateRemoteState_settledAt (hr : r ∈ repo.tables.memberships)
    {k : ServerUid} (hk : r.serverUid = some k) {state : RemoteState} {movedTo : Option Nat}
    (h : WriteOp.apply repo (.updateRemoteState r.messageId state movedTo (some r.folderId)) =
      .ok repo') : SettledAt k repo.tables repo'.tables := by
  rw [WriteOp.apply,Repository.exec_eq_ok] at h
  rw [h]
  refine ⟨⟨rfl,fun m hm => ⟨m,hm,rfl,rfl⟩,fun _ _ howner => howner.update _ _ fun _ => ⟨rfl,rfl⟩⟩,
    fun k' hne => .inl ?_⟩
  rw [repo.valid.status_updateRemoteState hr hk,if_neg hne]

theorem mergeDuplicateMessage_settledAt {accountId : String} {c d : Nat}
    (h : WriteOp.apply repo (.mergeDuplicateMessage accountId c d) = .ok repo') (k : ServerUid) :
    SettledAt k repo.tables repo'.tables := by
  rw [WriteOp.apply] at h
  refine ⟨⟨(Repository.mergeDuplicateMessage_frame h).2.1,?_,
    fun k' a => (Repository.mergeDuplicateMessage_status h k').2 a⟩,
    fun k' _ => .inl (Repository.mergeDuplicateMessage_status h k').1⟩
  by_cases hcd : c = d
  · simp only [Repository.mergeDuplicateMessage,if_pos hcd] at h
    cases h
    exact fun m hm => ⟨m,hm,rfl,rfl⟩
  · obtain ⟨canonical,hc,duplicate,-,rfl,rfl,-,-,hmerged⟩ :=
      Repository.mergeDuplicateMessage_spec hcd h
    intro m' hm'
    by_cases hid : m'.id = canonical.id
    · obtain ⟨m,hm,hmid,haccount,-⟩ := hmerged.canonical
      have hmm : m' = m := repo'.valid.message_eq hm' hm (hid.trans hmid.symm)
      exact ⟨canonical,hc,hid.symm,by rw [hmm,haccount]⟩
    · exact ⟨m',(hmerged.messages m' hid (hmerged.duplicate m' hm')).mp hm',rfl,rfl⟩

/-- The membership of the canonical message is still there after the merge. -/
theorem mem_mergeDuplicateMessage {accountId : String} {d : Nat}
    (hr : r ∈ repo.tables.memberships) (huid : r.serverUid ≠ none) (hne : r.messageId ≠ d)
    (h : WriteOp.apply repo (.mergeDuplicateMessage accountId r.messageId d) = .ok repo') :
    r ∈ repo'.tables.memberships := by
  rw [WriteOp.apply] at h
  obtain ⟨canonical,-,duplicate,-,hc,hd,-,-,hmerged⟩ := Repository.mergeDuplicateMessage_spec hne h
  obtain ⟨r',hr',heq,hid⟩ := hmerged.carried r hr huid
  have hsame : r'.messageId = r.messageId := by
    rcases hid with hid | ⟨hid,-⟩
    · exact hid
    · exact absurd (hid.trans hd) hne
  have : r' = r := by
    cases r
    cases r'
    simp_all
  rwa [← this]

theorem addMessageIdentityAlias_settledAt {accountId : String} {key : SourceItemKey} {id : Nat}
    {kind : EvidenceKind}
    (h : WriteOp.apply repo (.addMessageIdentityAlias accountId key id kind) = .ok repo')
    (k : ServerUid) : SettledAt k repo.tables repo'.tables := by
  simp only [WriteOp.apply,Repository.addMessageIdentityAlias,Except.bind_eq_ok_iff,
    Repository.exec_eq_ok] at h
  obtain ⟨inserted,hinserted,h⟩ := h
  have hsame : repo' = inserted := by
    split at h
    · split at h
      · exact (Except.ok.inj h).symm
      · cases h
    · cases h
  have hframe : ∀ row : Alias, (repo.tables.insertOrIgnoreAlias row).folders =
      repo.tables.folders ∧ (repo.tables.insertOrIgnoreAlias row).messages =
      repo.tables.messages ∧ (repo.tables.insertOrIgnoreAlias row).memberships =
      repo.tables.memberships := by
    intro row
    unfold Tables.insertOrIgnoreAlias
    split <;> exact ⟨rfl,rfl,rfl⟩
  rw [hsame,hinserted]
  obtain ⟨hf,hm,hr⟩ := hframe ⟨accountId,key,id,kind⟩
  exact .of_frame hf hm hr k

theorem recordAudit_settledAt {entry : AuditEntry}
    (h : WriteOp.apply repo (.recordAudit entry) = .ok repo') (k : ServerUid) :
    SettledAt k repo.tables repo'.tables := by
  rw [WriteOp.apply,Repository.exec_eq_ok] at h
  refine SettledAt.of_frame ?_ ?_ ?_ k
  all_goals rw [h,Tables.recordAudit]

theorem updateFlags_settledAt {accountId : String} {folderId uidvalidity uid : Nat}
    {flags : Option String} {seenAt : String}
    (h : WriteOp.apply repo (.updateFlags accountId folderId uidvalidity uid flags seenAt) =
      .ok repo') (k : ServerUid) : SettledAt k repo.tables repo'.tables ∧
      ∀ k', repo'.tables.status k' = repo.tables.status k' := by
  rw [WriteOp.apply,Repository.exec_eq_ok] at h
  have hstatus := Tables.status_updateFlags (t := repo.tables) accountId folderId uidvalidity uid
    flags seenAt
  rw [h]
  exact ⟨⟨⟨rfl,fun m hm => ⟨m,hm,rfl,rfl⟩,fun _ _ howner => howner.update _ _ fun _ => ⟨rfl,rfl⟩⟩,
    fun k' _ => .inl (hstatus k')⟩,hstatus⟩

/-! The memberships written after a COPYUID-confirmed move. -/

/-- Replacing the memberships by the moved ones and the new one in the trash
settles the candidate's server UID and touches no other. -/
theorem replaceMoved_settledAt (hcandidate : CandidateOf repo.tables candidate message r)
    {trashId : Nat} {trashName : String} {arrived : MembershipRow}
    (harrived : arrived.membership.remoteState = .present)
    (h : WriteOp.apply repo (.replaceMessageMemberships message.id
      ((movedRows (repo.tables.listMessageMemberships message.accountId message.sourceItemKey)
        candidate.folderId trashId trashName ++ [arrived]).map fun r => r.membership.toRecord)) =
      .ok repo') : SettledAt (candidate.serverUid r) repo.tables repo'.tables := by
  rw [WriteOp.apply] at h
  have htables := Repository.replaceMessageMemberships_spec h
  set rows := repo.tables.listMessageMemberships message.accountId message.sourceItemKey
  have hmem : ∀ s, s ∈ repo'.tables.memberships ↔
      (s ∈ repo.tables.memberships ∧ s.messageId ≠ message.id) ∨
      (∃ row ∈ rows, some row.membership.folderId ≠ candidate.folderId ∧ row.membership = s) ∨
      (∃ row ∈ rows, some row.membership.folderId = candidate.folderId ∧
        { row.membership with remoteState := .moved, movedToFolderId := some trashId } = s) ∨
      arrived.membership.toRecord.toMembership message.id = s := by
    have hrow : ∀ row ∈ rows, row.membership.messageId = message.id := fun row hrow =>
      ((mem_listMessageMemberships repo.valid hcandidate.message_mem).mp hrow).2.1
    intro s
    rw [htables]
    simp only [List.mem_append,mem_deleteWhere,movedRows,List.map_append,List.map_map,
      List.mem_map,Function.comp,List.map_cons,List.map_nil,List.mem_singleton,
      beq_eq_false_iff_ne]
    constructor
    · rintro (h | ⟨row,hrows,rfl⟩ | rfl)
      · exact .inl h
      · by_cases hf : some row.membership.folderId = candidate.folderId
        · refine .inr (.inr (.inl ⟨row,hrows,hf,?_⟩))
          rw [if_pos hf,← hrow row hrows]
          rfl
        · refine .inr (.inl ⟨row,hrows,hf,?_⟩)
          rw [if_neg hf,← hrow row hrows]
          rfl
      · exact .inr (.inr (.inr rfl))
    · rintro (h | ⟨row,hrows,hf,rfl⟩ | ⟨row,hrows,hf,rfl⟩ | rfl)
      · exact .inl h
      · refine .inr (.inl ⟨row,hrows,?_⟩)
        rw [if_neg hf,← hrow row hrows]
        rfl
      · refine .inr (.inl ⟨row,hrows,?_⟩)
        rw [if_pos hf,← hrow row hrows]
        rfl
      · exact .inr (.inr rfl)
  -- every membership of the message is among the listed rows
  have hlisted : ∀ s ∈ repo.tables.memberships, s.messageId = message.id → ∃ row ∈ rows,
      row.membership = s := by
    intro s hs hid
    obtain ⟨f,hf,hfid⟩ := repo.valid.membershipFolder s hs
    have hname : (repo.tables.folderRawName s.folderId).isSome := by
      simp only [Tables.folderRawName,Option.isSome_map,List.find?_isSome,beq_iff_eq]
      exact ⟨f,hf,hfid⟩
    obtain ⟨name,hname⟩ := Option.isSome_iff_exists.mp hname
    exact ⟨⟨s,name,s.movedToFolderId.bind repo.tables.folderRawName⟩,
      (mem_listMessageMemberships repo.valid hcandidate.message_mem).mpr ⟨hs,hid,hname,rfl⟩,rfl⟩
  have hmessage : ∀ row ∈ rows, row.membership ∈ repo.tables.memberships ∧
      row.membership.messageId = message.id := fun row hrow =>
    ⟨((mem_listMessageMemberships repo.valid hcandidate.message_mem).mp hrow).1,
      ((mem_listMessageMemberships repo.valid hcandidate.message_mem).mp hrow).2.1⟩
  -- a listed row of the candidate's folder is the candidate's membership
  have hown : ∀ row ∈ rows, some row.membership.folderId = candidate.folderId →
      row.membership = r := by
    intro row hrow hf
    rw [hcandidate.folderId] at hf
    exact repo.valid.membership_eq (hmessage row hrow).1 hcandidate.row_mem
      ((hmessage row hrow).2.trans hcandidate.row_message.symm) (Option.some.inj hf)
  refine ⟨⟨by rw [htables],fun m hm => ⟨m,by rwa [htables] at hm,rfl,rfl⟩,?_⟩,?_⟩
  · rintro k a ⟨s,hs,hk,m,hm,hid,haccount⟩
    have hm' : m ∈ repo'.tables.messages := by rwa [htables]
    by_cases hsid : s.messageId = message.id
    · obtain ⟨row,hrow,rfl⟩ := hlisted s hs hsid
      by_cases hf : some row.membership.folderId = candidate.folderId
      · exact ⟨_,(hmem _).mpr (.inr (.inr (.inl ⟨row,hrow,hf,rfl⟩))),hk,m,hm',hid,haccount⟩
      · exact ⟨_,(hmem _).mpr (.inr (.inl ⟨row,hrow,hf,rfl⟩)),hk,m,hm',hid,haccount⟩
    · exact ⟨s,(hmem s).mpr (.inl ⟨hs,hsid⟩),hk,m,hm',hid,haccount⟩
  · intro k hk
    cases hstatus : repo'.tables.status k with
    | none =>
      left
      rw [Tables.status_eq_none_iff] at hstatus
      symm
      rw [Tables.status_eq_none_iff]
      intro s hs hsk
      by_cases hsid : s.messageId = message.id
      · obtain ⟨row,hrow,rfl⟩ := hlisted s hs hsid
        by_cases hf : some row.membership.folderId = candidate.folderId
        · exact hstatus _ ((hmem _).mpr (.inr (.inr (.inl ⟨row,hrow,hf,rfl⟩)))) hsk
        · exact hstatus _ ((hmem _).mpr (.inr (.inl ⟨row,hrow,hf,rfl⟩))) hsk
      · exact hstatus s ((hmem s).mpr (.inl ⟨hs,hsid⟩)) hsk
    | some st =>
      obtain ⟨s,hs,hsk,hstate,hmoved⟩ := repo'.valid.status_eq_some_iff.mp hstatus
      rcases (hmem s).mp hs with ⟨hs',-⟩ | ⟨row,hrow,hf,rfl⟩ | ⟨row,hrow,hf,rfl⟩ | rfl
      · exact .inl (repo.valid.status_eq_some_iff.mpr ⟨s,hs',hsk,hstate,hmoved⟩).symm
      · exact .inl (repo.valid.status_eq_some_iff.mpr
          ⟨row.membership,(hmessage row hrow).1,hsk,hstate,hmoved⟩).symm
      · have hrk : r.serverUid = some k := by
          rw [← hown row hrow hf]
          exact hsk
        rw [hcandidate.serverUid] at hrk
        exact absurd (Option.some.inj hrk).symm hk
      · have hpresent : st.1 = .present := by
          rw [← hstate,← harrived]
          rfl
        exact .inr ⟨st.2,by rw [← hpresent]⟩

end

end MailDock
