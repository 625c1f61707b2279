import MailDock.Repository.Frames

/-!
# Membership rows under a write

Most writes of a synchronisation leave the identity and the status of every
membership row alone; the four that do not have one lemma each about the server
UIDs whose status they change.

## Main definitions

- `Tables.SameRows` — the same rows up to flags, labels and time stamps
- `Tables.Superseded` — the row of a server UID now stands for another one
- `WriteOp.PlacesRows` — where the rows after a write come from
-/

namespace MailDock

open Relational

/-- A membership row without its flags and time stamps. -/
def Membership.core (r : Membership) : Membership :=
  { r with imapFlags := none, flagsSeenAt := none, lastSeenAt := none }

/-- A message row without its Gmail labels. -/
def Message.core (m : Message) : Message := { m with gmailLabels := none }

theorem Membership.core_eq {r s : Membership} (h : r.core = s.core) :
    r.messageId = s.messageId ∧ r.folderId = s.folderId ∧ r.serverUid = s.serverUid ∧
      r.remoteState = s.remoteState ∧ r.movedToFolderId = s.movedToFolderId := by
  simp only [core,Membership.mk.injEq] at h
  refine ⟨h.1,h.2.1,?_,h.2.2.2.2.1,h.2.2.2.2.2.1⟩
  rw [serverUid,serverUid,h.2.1,h.2.2.1,h.2.2.2.1]

theorem Message.core_eq {m n : Message} (h : m.core = n.core) :
    m.id = n.id ∧ m.accountId = n.accountId ∧ m.sourceItemKey = n.sourceItemKey := by
  simp only [core,Message.mk.injEq] at h
  exact ⟨h.1,h.2.1,h.2.2.2.2.1⟩

namespace Tables

structure SameRows (t t' : Tables) : Prop where
  memberships : t'.memberships.map Membership.core = t.memberships.map Membership.core
  messages : t'.messages.map Message.core = t.messages.map Message.core

variable {t t' : Tables}

theorem SameRows.symm (h : t.SameRows t') : t'.SameRows t := ⟨h.1.symm,h.2.symm⟩

theorem SameRows.trans {t'' : Tables} (h : t.SameRows t') (h' : t'.SameRows t'') :
    t.SameRows t'' :=
  ⟨h'.1.trans h.1,h'.2.trans h.2⟩

theorem SameRows.membership (h : t.SameRows t') {r' : Membership} (hr : r' ∈ t'.memberships) :
    ∃ r ∈ t.memberships, r.core = r'.core := by
  have hmem : r'.core ∈ t'.memberships.map Membership.core := List.mem_map_of_mem hr
  rw [h.memberships] at hmem
  exact List.mem_map.mp hmem

theorem SameRows.message (h : t.SameRows t') {m' : Message} (hm : m' ∈ t'.messages) :
    ∃ m ∈ t.messages, m.core = m'.core := by
  have hmem : m'.core ∈ t'.messages.map Message.core := List.mem_map_of_mem hm
  rw [h.messages] at hmem
  exact List.mem_map.mp hmem

theorem SameRows.status_eq (h : t.SameRows t') (ht : t.Valid) (ht' : t'.Valid) (k : ServerUid) :
    t'.status k = t.status k := by
  cases hstatus : t.status k with
  | none =>
    rw [status_eq_none_iff] at hstatus ⊢
    intro r' hr' hk
    obtain ⟨r,hr,hcore⟩ := h.membership hr'
    exact hstatus r hr ((Membership.core_eq hcore).2.2.1.trans hk)
  | some s =>
    obtain ⟨r,hr,hk,hstate,hmoved⟩ := ht.status_eq_some_iff.mp hstatus
    obtain ⟨r',hr',hcore⟩ := h.symm.membership hr
    obtain ⟨-,-,huid,hs,hm⟩ := Membership.core_eq hcore
    exact ht'.status_eq_some_iff.mpr ⟨r',hr',huid.trans hk,hs.trans hstate,hm.trans hmoved⟩

/-- The message and folder of the row that stood for `k` now stand for `k'`. -/
def Superseded (t t' : Tables) (k k' : ServerUid) : Prop :=
  ∃ r ∈ t.memberships, r.serverUid = some k ∧ ∃ r' ∈ t'.memberships,
    r'.messageId = r.messageId ∧ r'.folderId = r.folderId ∧ r'.serverUid = some k'

end Tables

theorem map_update_of_eq {α β : Type*} {p : α → Bool} {f : α → α} {g : α → β}
    (h : ∀ a, g (f a) = g a) (rows : List α) : (update p f rows).map g = rows.map g := by
  rw [update,List.map_map]
  refine List.map_congr_left fun a _ => ?_
  simp only [Function.comp_apply]
  split
  · exact h a
  · rfl

theorem Membership.toRecord_toMembership (r : Membership) :
    r.toRecord.toMembership r.messageId = r := rfl

theorem mem_listMessageMemberships {t : Tables} (ht : t.Valid) {message : Message}
    (hm : message ∈ t.messages) {row : MembershipRow} :
    row ∈ t.listMessageMemberships message.accountId message.sourceItemKey ↔
      row.membership ∈ t.memberships ∧ row.membership.messageId = message.id ∧
      t.folderRawName row.membership.folderId = some row.folderRawName ∧
      row.movedToFolderRawName = row.membership.movedToFolderId.bind t.folderRawName := by
  have hfind : t.findMessage message.accountId message.sourceItemKey = some message := by
    cases hfound : t.findMessage message.accountId message.sourceItemKey with
    | none =>
      have := List.find?_eq_none.mp hfound message hm
      simp [Message.hasKey] at this
    | some n =>
      obtain ⟨hn,hkey⟩ := Tables.findMessage_eq_some hfound
      rw [ht.message_eq_of_key hn hm (Message.hasKey_iff.mp hkey).1
        (Message.hasKey_iff.mp hkey).2]
  rw [Tables.listMessageMemberships,hfind]
  simp only [Tables.membershipsOf,List.mem_filterMap,List.mem_insertionSort,List.mem_filter,
    beq_iff_eq,Option.map_eq_some_iff]
  constructor
  · rintro ⟨r,⟨hr,hid⟩,name,hname,rfl⟩
    exact ⟨hr,hid,hname,rfl⟩
  · rintro ⟨hr,hid,hname,hmoved⟩
    refine ⟨row.membership,⟨hr,hid⟩,row.folderRawName,hname,?_⟩
    rw [← hmoved]

/-- The writes that change neither the identity nor the status of a row. -/
def WriteOp.keepsRows : WriteOp → Bool
  | .addMessageIdentityAlias .. | .updateFlags .. | .touchFlagsSeenAt .. | .updateGmailLabels ..
  | .setHighestModseq .. | .initializeSyncCursors .. | .updateSyncCursors .. | .recordFailure ..
  | .clearFailure .. | .recordAudit _ | .deleteMessageContents _ => true
  | _ => false

/-- A merge hands the duplicate over to the canonical row. -/
def WriteOp.heir : WriteOp → Nat → Nat
  | .mergeDuplicateMessage _ canonicalId duplicateId,id =>
    if id = duplicateId then canonicalId else id
  | _,id => id

/-- The record that a write puts in the place of the row with its key. -/
def WriteOp.upserted : WriteOp → Option MessageRecord
  | .addMessage record _ => some record
  | _ => none

/-- Each row after the write was there before it, of a message whose heir has it now, or it
is the row of the record that is written. -/
def WriteOp.PlacesRows (op : WriteOp) (t t' : Tables) : Prop :=
  ∀ r' ∈ t'.memberships,
    (∃ r ∈ t.memberships, r.folderId = r'.folderId ∧ r.serverUid = r'.serverUid ∧
      op.heir r.messageId = r'.messageId) ∨
    ∃ record ∈ op.upserted, r' = record.toMembership r'.messageId

open Repository

theorem WriteOp.apply_sameRows {op : WriteOp} {repo repo' : Repository}
    (hop : op.keepsRows = true) (h : op.apply repo = .ok repo') :
    repo.tables.SameRows repo'.tables := by
  cases op with
  | addMessageIdentityAlias accountId key messageId kind =>
    obtain ⟨aliases,htables⟩ := addMessageIdentityAlias_frame h
    rw [htables]
    exact ⟨rfl,rfl⟩
  | updateFlags accountId folderId uidvalidity uid flags seenAt =>
    rw [WriteOp.apply,exec_eq_ok] at h
    rw [h]
    exact ⟨map_update_of_eq (f := fun r : Membership => { r with
      imapFlags := flags, flagsSeenAt := some seenAt }) (fun _ => rfl) _,rfl⟩
  | touchFlagsSeenAt accountId folderId uidvalidity uids seenAt =>
    rw [WriteOp.apply,exec_eq_ok] at h
    rw [h]
    exact ⟨map_update_of_eq (f := fun r : Membership => { r with flagsSeenAt := some seenAt })
      (fun _ => rfl) _,rfl⟩
  | updateGmailLabels messageId labels =>
    rw [WriteOp.apply,exec_eq_ok] at h
    rw [h]
    exact ⟨rfl,map_update_of_eq (f := fun m : Message => { m with gmailLabels := some labels })
      (fun _ => rfl) _⟩
  | recordFailure accountId folderId uidvalidity uid errorClass message =>
    rw [WriteOp.apply,exec_eq_ok] at h
    rw [h]
    unfold Tables.recordFailure
    split <;> exact ⟨rfl,rfl⟩
  | addMessage _ _ => cases hop
  | mergeDuplicateMessage _ _ _ => cases hop
  | replaceMessageMemberships _ _ => cases hop
  | updateRemoteState _ _ _ _ => cases hop
  | setLocalState _ _ _ => cases hop
  | updateMessageStorage _ _ _ => cases hop
  | _ =>
    rw [WriteOp.apply,exec_eq_ok] at h
    rw [h]
    exact ⟨rfl,rfl⟩

theorem WriteOp.heir_keepsRows {op : WriteOp} (hop : op.keepsRows = true) (id : Nat) :
    op.heir id = id := by
  cases op <;> first | rfl | exact Bool.noConfusion hop

theorem WriteOp.placesRows_keepsRows {op : WriteOp} {repo repo' : Repository}
    (hop : op.keepsRows = true) (h : op.apply repo = .ok repo') :
    op.PlacesRows repo.tables repo'.tables := by
  intro r' hr'
  obtain ⟨r,hr,hcore⟩ := (apply_sameRows hop h).membership hr'
  obtain ⟨hid,hfolder,huid,-⟩ := Membership.core_eq hcore
  exact .inl ⟨r,hr,hfolder,huid,(heir_keepsRows hop _).trans hid⟩

namespace Repository

variable {repo repo' : Repository}

theorem addMessage_rows {record : MessageRecord} {contents : Option MessageContents} {id : Nat}
    (h : repo.addMessage record contents = .ok (id,repo')) {r : Membership} :
    r ∈ repo'.tables.memberships ↔ (r ∈ repo.tables.memberships ∧
      r.isOf id record.folderId = false) ∨ r = record.toMembership id := by
  rw [(addMessage_spec h).memberships,Tables.mem_upsertMembership]
  rfl

theorem addMessage_placesRows {record : MessageRecord} {contents : Option MessageContents}
    {id : Nat} (h : repo.addMessage record contents = .ok (id,repo')) :
    (WriteOp.addMessage record contents).PlacesRows repo.tables repo'.tables := by
  intro r' hr'
  rcases (addMessage_rows h).mp hr' with ⟨hr,-⟩ | rfl
  · exact .inl ⟨r',hr,rfl,rfl,rfl⟩
  · exact .inr ⟨record,rfl,rfl⟩

/-- A merge hands the rows of the duplicate over to the canonical message. -/
theorem mergeDuplicateMessage_placesRows {accountId : String} {c d : Nat}
    (h : repo.mergeDuplicateMessage accountId c d = .ok repo') :
    (WriteOp.mergeDuplicateMessage accountId c d).PlacesRows repo.tables repo'.tables := by
  intro r' hr'
  by_cases hcd : c = d
  · -- nothing is merged
    simp only [mergeDuplicateMessage,if_pos hcd,Except.ok.injEq] at h
    rw [← h] at hr'
    refine .inl ⟨r',hr',rfl,rfl,?_⟩
    simp only [WriteOp.heir]
    split
    · next hid => rw [hcd,hid]
    · rfl
  · obtain ⟨canonical,-,duplicate,-,rfl,rfl,-,-,hmerged⟩ := mergeDuplicateMessage_spec hcd h
    obtain ⟨r,hr,heq,hid⟩ := hmerged.origin r' hr'
    simp only [Membership.mk.injEq,true_and] at heq
    refine .inl ⟨r,hr,heq.1.symm,?_,?_⟩
    · rw [Membership.serverUid,Membership.serverUid,heq.1,heq.2.1,heq.2.2.1]
    · simp only [WriteOp.heir]
      split
      · next hduplicate =>
        rcases hid with hid | ⟨-,hid⟩
        · obtain ⟨m,hm,hmid⟩ := repo'.valid.membershipMessage r' hr'
          exact absurd (hmid.trans (hid.trans hduplicate)) (hmerged.duplicate m hm)
        · exact hid.symm
      · next hother =>
        rcases hid with hid | ⟨hid,-⟩
        · exact hid.symm
        · exact absurd hid hother

theorem updateRemoteState_placesRows {messageId : Nat} {state : RemoteState}
    {movedTo folderId : Option Nat}
    (h : (WriteOp.updateRemoteState messageId state movedTo folderId).apply repo = .ok repo') :
    (WriteOp.updateRemoteState messageId state movedTo folderId).PlacesRows repo.tables
      repo'.tables := by
  rw [WriteOp.apply,exec_eq_ok] at h
  intro r' hr'
  rw [h] at hr'
  rcases mem_update.mp hr' with ⟨hr,-⟩ | ⟨r,hr,-,rfl⟩
  · exact .inl ⟨r',hr,rfl,rfl,rfl⟩
  · exact .inl ⟨r,hr,rfl,rfl,rfl⟩

/-- The message row that `add_message` returns the id of. -/
theorem addMessage_message {record : MessageRecord} {contents : Option MessageContents} {id : Nat}
    (h : repo.addMessage record contents = .ok (id,repo')) :
    ∃ m ∈ repo'.tables.messages, m.id = id ∧ m.accountId = record.accountId ∧
      m.sourceItemKey = record.sourceItemKey := by
  have hadded := addMessage_spec h
  rw [hadded.messages,hadded.id_eq,Tables.upsertedId]
  cases hfind : repo.tables.findMessage record.accountId record.sourceItemKey with
  | none => exact ⟨_,(Tables.mem_upsertMessage record _).mpr (.inr (.inr ⟨hfind,rfl⟩)),rfl,rfl,rfl⟩
  | some n =>
    obtain ⟨hn,hkey⟩ := Tables.findMessage_eq_some hfind
    exact ⟨_,(Tables.mem_upsertMessage record _).mpr (.inr (.inl ⟨n,hn,hkey,rfl⟩)),rfl,rfl,rfl⟩

/-- `add_message` keeps the id and the key of every message row. -/
theorem addMessage_keeps_message {record : MessageRecord} {contents : Option MessageContents}
    {id : Nat} (h : repo.addMessage record contents = .ok (id,repo')) {m : Message}
    (hm : m ∈ repo.tables.messages) : ∃ m' ∈ repo'.tables.messages, m'.id = m.id ∧
      m'.accountId = m.accountId ∧ m'.sourceItemKey = m.sourceItemKey := by
  rw [(addMessage_spec h).messages]
  cases hkey : m.hasKey record.accountId record.sourceItemKey with
  | false => exact ⟨m,(Tables.mem_upsertMessage record m).mpr (.inl ⟨hm,hkey⟩),rfl,rfl,rfl⟩
  | true =>
    obtain ⟨haccount,hsource⟩ := Message.hasKey_iff.mp hkey
    exact ⟨_,(Tables.mem_upsertMessage record _).mpr (.inr (.inl ⟨m,hm,hkey,rfl⟩)),rfl,
      haccount.symm,hsource.symm⟩

/-- `add_message` changes the status of the record's server UID, and of the one the row
of the message stood for before. -/
theorem addMessage_status {record : MessageRecord} {contents : Option MessageContents} {id : Nat}
    (h : repo.addMessage record contents = .ok (id,repo')) {k k' : ServerUid}
    (hrecord : (record.toMembership id).serverUid = some k')
    (hk : repo'.tables.status k ≠ repo.tables.status k) :
    k = k' ∨ repo.tables.Superseded repo'.tables k k' := by
  by_cases hnew : k = k'
  · exact .inl hnew
  · refine .inr ?_
    cases hstatus : repo.tables.status k with
    | none =>
      rw [hstatus] at hk
      refine absurd (Tables.status_eq_none_iff.mpr ?_) hk
      intro r hr hrk
      rcases (addMessage_rows h).mp hr with ⟨hr,-⟩ | rfl
      · exact Tables.status_eq_none_iff.mp hstatus r hr hrk
      · rw [hrecord] at hrk
        exact hnew (Option.some.inj hrk).symm
    | some s =>
      obtain ⟨r,hr,hrk,hstate,hmoved⟩ := repo.valid.status_eq_some_iff.mp hstatus
      cases hisOf : r.isOf id record.folderId with
      | false =>
        -- the row is still there, so the status is the same
        rw [hstatus] at hk
        exact absurd (repo'.valid.status_eq_some_iff.mpr
          ⟨r,(addMessage_rows h).mpr (.inl ⟨hr,hisOf⟩),hrk,hstate,hmoved⟩) hk
      | true =>
        rw [Membership.isOf_iff] at hisOf
        exact ⟨r,hr,hrk,record.toMembership id,(addMessage_rows h).mpr (.inr rfl),hisOf.1.symm,
          hisOf.2.symm,hrecord⟩

/-- `update_remote_state` for a message and a folder changes the status of their row only. -/
theorem updateRemoteState_status {messageId folderId : Nat} {state : RemoteState}
    {movedTo : Option Nat} {k : ServerUid}
    (h : (WriteOp.updateRemoteState messageId state movedTo (some folderId)).apply repo = .ok repo')
    (hk : repo'.tables.status k ≠ repo.tables.status k) :
    ∃ r ∈ repo.tables.memberships, r.messageId = messageId ∧ r.folderId = folderId ∧
      r.serverUid = some k := by
  rw [WriteOp.apply,exec_eq_ok] at h
  rw [Tables.status,h,Tables.rowOf_update
    (f := fun r => { r with remoteState := state, movedToFolderId := movedTo })
    (fun _ => rfl) rfl,Option.map_map,Tables.status] at hk
  cases hrow : repo.tables.rowOf k with
  | none => simp [hrow] at hk
  | some r =>
    obtain ⟨hr,hrk⟩ := repo.valid.rowOf_eq_some_iff.mp hrow
    by_cases hp : r.messageId = messageId ∧ r.folderId = folderId
    · exact ⟨r,hr,hp.1,hp.2,hrk⟩
    · simp [hrow,hp] at hk

/-- Replacing the memberships of a message by those outside one folder removes one row. -/
theorem removeMembership_rows {message : Message} {folderId : Nat}
    (hm : message ∈ repo.tables.messages)
    (h : repo.replaceMessageMemberships message.id
      (((repo.tables.listMessageMemberships message.accountId message.sourceItemKey).filter
        fun r => r.membership.folderId ≠ folderId).map fun r => r.membership.toRecord) = .ok repo')
    {r : Membership} : r ∈ repo'.tables.memberships ↔ r ∈ repo.tables.memberships ∧
      ¬ (r.messageId = message.id ∧ r.folderId = folderId) := by
  rw [replaceMessageMemberships_spec h]
  simp only [List.mem_append,mem_deleteWhere,List.map_map,List.mem_map,List.mem_filter,
    Function.comp_apply,beq_eq_false_iff_ne,decide_eq_true_eq]
  constructor
  · rintro (⟨hr,hid⟩ | ⟨row,⟨hrow,hfolder⟩,rfl⟩)
    · exact ⟨hr,fun hsame => hid hsame.1⟩
    · obtain ⟨hr,hid,-⟩ := (mem_listMessageMemberships repo.valid hm).mp hrow
      rw [← hid,Membership.toRecord_toMembership]
      exact ⟨hr,fun hsame => hfolder hsame.2⟩
  · rintro ⟨hr,hother⟩
    by_cases hid : r.messageId = message.id
    · -- the row comes back under the name of its folder
      obtain ⟨f,hf,hfid⟩ := repo.valid.membershipFolder r hr
      have hname : (repo.tables.folderRawName r.folderId).isSome := by
        simp only [Tables.folderRawName,Option.isSome_map,List.find?_isSome,beq_iff_eq]
        exact ⟨f,hf,hfid⟩
      obtain ⟨name,hname⟩ := Option.isSome_iff_exists.mp hname
      refine .inr ⟨⟨r,name,r.movedToFolderId.bind repo.tables.folderRawName⟩,⟨?_,?_⟩,?_⟩
      · exact (mem_listMessageMemberships repo.valid hm).mpr ⟨hr,hid,hname,rfl⟩
      · exact fun hfolder => hother ⟨hid,hfolder⟩
      · rw [← hid]
        exact Membership.toRecord_toMembership r
    · exact .inl ⟨hr,hid⟩

end Repository

end MailDock
