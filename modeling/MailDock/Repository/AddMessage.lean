import MailDock.Repository.Merge

/-!
# When `add_message` succeeds

`add_message` is an upsert of a `messages` row followed by an upsert of a
`message_folders` row.  Each statement is accepted exactly when the tables after
it are valid, and the lemmas here turn that into conditions on the tables before.
-/

namespace MailDock

open Relational

namespace Tables

variable {t : Tables}

theorem findMessage_eq_some {accountId : String} {key : SourceItemKey} {m : Message}
    (h : t.findMessage accountId key = some m) :
    m ∈ t.messages ∧ m.hasKey accountId key = true :=
  ⟨List.mem_of_find?_eq_some h,List.find?_some h⟩

theorem Valid.findMessage_eq (ht : t.Valid) {accountId : String} {key : SourceItemKey}
    {m : Message} (hm : m ∈ t.messages) (hkey : m.hasKey accountId key = true) :
    t.findMessage accountId key = some m := by
  cases hfind : t.findMessage accountId key with
  | none => exact absurd hkey (List.find?_eq_none.mp hfind m hm)
  | some n =>
    obtain ⟨hn,hnkey⟩ := findMessage_eq_some hfind
    rw [Message.hasKey_iff] at hkey hnkey
    rw [ht.message_eq_of_key hn hm (hnkey.1.trans hkey.1.symm) (hnkey.2.trans hkey.2.symm)]

@[simp] theorem toMessage_hasKey (record : MessageRecord) (id : Nat) (trashedAt : Option String) :
    (record.toMessage id trashedAt).hasKey record.accountId record.sourceItemKey = true := by
  simp [MessageRecord.toMessage,Message.hasKey]

/-- The rows of `messages` after the upsert: every other key is untouched, and the
record's key has one row, under its old id or the next free one. -/
theorem mem_upsertMessage (record : MessageRecord) (m : Message) :
    m ∈ (t.upsertMessage record).messages ↔
      (m ∈ t.messages ∧ m.hasKey record.accountId record.sourceItemKey = false) ∨
      (∃ n ∈ t.messages, n.hasKey record.accountId record.sourceItemKey = true ∧
        m = record.toMessage n.id n.trashedAt) ∨
      (t.findMessage record.accountId record.sourceItemKey = none ∧
        m = record.toMessage t.nextMessageId none) := by
  unfold upsertMessage
  cases hfind : t.findMessage record.accountId record.sourceItemKey with
  | none =>
    have hnone := List.find?_eq_none.mp hfind
    simp only [Option.isSome_none,Bool.false_eq_true,if_false,List.mem_append,List.mem_singleton,
      true_and]
    constructor
    · rintro (hm | rfl)
      · exact .inl ⟨hm,by simpa using hnone m hm⟩
      · exact .inr (.inr rfl)
    · rintro (⟨hm,-⟩ | ⟨n,hn,hkey,-⟩ | rfl)
      · exact .inl hm
      · exact absurd hkey (hnone n hn)
      · exact .inr rfl
  | some n =>
    simp only [Option.isSome_some,if_true,mem_update,reduceCtorEq,false_and,or_false]
    constructor
    · rintro (h | ⟨a,ha,hkey,rfl⟩)
      · exact .inl h
      · exact .inr ⟨a,ha,hkey,rfl⟩
    · rintro (h | ⟨a,ha,hkey,rfl⟩)
      · exact .inl h
      · exact .inr ⟨a,ha,hkey,rfl⟩

theorem upsertMessage_hasMessage (record : MessageRecord) {id : Nat} (h : t.HasMessage id) :
    (t.upsertMessage record).HasMessage id := by
  obtain ⟨m,hm,hid⟩ := h
  cases hkey : m.hasKey record.accountId record.sourceItemKey with
  | false => exact ⟨m,(mem_upsertMessage record m).mpr (.inl ⟨hm,hkey⟩),hid⟩
  | true => exact ⟨_,(mem_upsertMessage record _).mpr (.inr (.inl ⟨m,hm,hkey,rfl⟩)),hid⟩

/-- The upsert touches `messages` and its id counter only. -/
theorem upsertMessage_frame (record : MessageRecord) : ∃ messages nextMessageId,
    t.upsertMessage record = { t with messages := messages, nextMessageId := nextMessageId } := by
  unfold upsertMessage
  split
  · exact ⟨_,t.nextMessageId,rfl⟩
  · exact ⟨_,_,rfl⟩

/-- The statement on `messages` is accepted exactly when the account exists. -/
theorem Valid.upsertMessage_iff (ht : t.Valid) (record : MessageRecord) :
    (t.upsertMessage record).Valid ↔ t.HasAccount record.accountId := by
  constructor
  · intro h
    obtain ⟨messages,next,hframe⟩ := upsertMessage_frame (t := t) record
    have hrow : ∃ m ∈ (t.upsertMessage record).messages, m.accountId = record.accountId := by
      cases hfind : t.findMessage record.accountId record.sourceItemKey with
      | none => exact ⟨_,(mem_upsertMessage record _).mpr (.inr (.inr ⟨hfind,rfl⟩)),rfl⟩
      | some n =>
        obtain ⟨hn,hkey⟩ := findMessage_eq_some hfind
        exact ⟨_,(mem_upsertMessage record _).mpr (.inr (.inl ⟨n,hn,hkey,rfl⟩)),rfl⟩
    obtain ⟨m,hm,hma⟩ := hrow
    have hacc := h.messageAccount m hm
    rw [hma,hframe] at hacc
    exact hacc
  · intro hacc
    have hmessage : ∀ id, t.HasMessage id → (t.upsertMessage record).HasMessage id :=
      fun _ h => upsertMessage_hasMessage record h
    have hall : ∀ m ∈ (t.upsertMessage record).messages, t.HasAccount m.accountId := by
      intro m hm
      rcases (mem_upsertMessage record m).mp hm with ⟨hm,-⟩ | ⟨n,-,-,rfl⟩ | ⟨-,rfl⟩
      · exact ht.messageAccount m hm
      · exact hacc
      · exact hacc
    unfold upsertMessage at hmessage hall ⊢
    split
    · next hsome =>
      rw [if_pos hsome] at hmessage hall
      refine { ht with
        messageId := ht.messageId.update_of_key fun _ _ _ => rfl
        messageKey := ht.messageKey.update_of_key ?_
        messageNext := ?_
        messageAccount := hall
        membershipMessage := fun r hr => hmessage _ (ht.membershipMessage r hr)
        aliasMessage := fun a ha => hmessage _ (ht.aliasMessage a ha)
        contentsMessage := fun c hc => hmessage _ (ht.contentsMessage c hc)
        pstItemMessage := fun i hi id hid => hmessage _ (ht.pstItemMessage i hi id hid) }
      · intro m _ hkey
        rw [Message.hasKey_iff] at hkey
        simp [MessageRecord.toMessage,hkey]
      · intro m hm
        rcases mem_update.mp hm with ⟨hm,-⟩ | ⟨n,hn,-,rfl⟩
        · exact ht.messageNext m hm
        · exact ht.messageNext n hn
    · next hnone =>
      rw [if_neg hnone] at hmessage hall
      have hfind := List.find?_eq_none.mp (Option.not_isSome_iff_eq_none.mp hnone)
      refine { ht with
        messageId := ht.messageId.concat ?_
        messageKey := ht.messageKey.concat ?_
        messageNext := ?_
        messageAccount := hall
        membershipMessage := fun r hr => hmessage _ (ht.membershipMessage r hr)
        aliasMessage := fun a ha => hmessage _ (ht.aliasMessage a ha)
        contentsMessage := fun c hc => hmessage _ (ht.contentsMessage c hc)
        pstItemMessage := fun i hi id hid => hmessage _ (ht.pstItemMessage i hi id hid) }
      · intro m hm
        have := ht.messageNext m hm
        refine .inr fun heq => ?_
        simp only [MessageRecord.toMessage,Option.some.injEq] at heq
        omega
      · intro m hm
        refine .inr fun heq => hfind m hm ?_
        simpa [MessageRecord.toMessage,Message.hasKey] using heq
      · intro m hm
        rcases List.mem_append.mp hm with hm | hm
        · have := ht.messageNext m hm
          show m.id < t.nextMessageId + 1
          omega
        · rw [List.mem_singleton.mp hm]
          exact Nat.lt_succ_self _

/-- No membership of another message has the server UID of `row`. -/
def UidFree (t : Tables) (row : Membership) : Prop :=
  ∀ r ∈ t.memberships, r.serverUid ≠ none → r.serverUid = row.serverUid →
    r.messageId = row.messageId

theorem serverUid_eq_some {r : Membership} {f v u : Nat} :
    r.serverUid = some (f,v,u) ↔ r.folderId = f ∧ r.uidvalidity = some v ∧ r.uid = some u := by
  unfold Membership.serverUid
  cases r.uidvalidity <;> cases r.uid <;> simp

theorem serverUid_folderId {r s : Membership} (hr : r.serverUid ≠ none)
    (h : r.serverUid = s.serverUid) : r.folderId = s.folderId := by
  obtain ⟨⟨f,v,u⟩,hk⟩ := Option.ne_none_iff_exists'.mp hr
  have hs := h.symm.trans hk
  rw [serverUid_eq_some] at hk hs
  rw [hk.1,hs.1]

theorem findMembership_isSome {messageId folderId : Nat} :
    (t.findMembership messageId folderId).isSome ↔
      ∃ r ∈ t.memberships, r.isOf messageId folderId = true := by
  simp [findMembership]

theorem mem_upsertMembership (row r : Membership) :
    r ∈ (t.upsertMembership row).memberships ↔
      (r ∈ t.memberships ∧ r.isOf row.messageId row.folderId = false) ∨ r = row := by
  unfold upsertMembership
  by_cases hsome : (t.findMembership row.messageId row.folderId).isSome
  · rw [if_pos hsome]
    obtain ⟨a,ha,hisOf⟩ := findMembership_isSome.mp hsome
    show r ∈ update _ _ _ ↔ _
    rw [mem_update]
    constructor
    · rintro (h | ⟨-,-,-,rfl⟩)
      · exact .inl h
      · exact .inr rfl
    · rintro (h | rfl)
      · exact .inl h
      · exact .inr ⟨a,ha,hisOf,rfl⟩
  · rw [if_neg hsome]
    simp only [List.mem_append,List.mem_singleton]
    constructor
    · rintro (hr | rfl)
      · refine .inl ⟨hr,?_⟩
        by_contra hisOf
        exact hsome (findMembership_isSome.mpr ⟨r,hr,by simpa using hisOf⟩)
      · exact .inr rfl
    · rintro (⟨hr,-⟩ | rfl)
      · exact .inl hr
      · exact .inr rfl

theorem upsertMembership_frame (row : Membership) : ∃ memberships,
    t.upsertMembership row = { t with memberships := memberships } := by
  unfold upsertMembership
  split <;> exact ⟨_,rfl⟩

/-- The statement on `message_folders` is accepted exactly when the message and
the folders exist and no other message has the server UID. -/
theorem Valid.upsertMembership_iff (ht : t.Valid) (row : Membership) :
    (t.upsertMembership row).Valid ↔ t.HasMessage row.messageId ∧ t.HasFolder row.folderId ∧
      (∀ f ∈ row.movedToFolderId, t.HasFolder f) ∧ t.UidFree row := by
  constructor
  · intro h
    obtain ⟨memberships,hframe⟩ := upsertMembership_frame (t := t) row
    have hrow : row ∈ (t.upsertMembership row).memberships :=
      (mem_upsertMembership row row).mpr (.inr rfl)
    have hmessage := h.membershipMessage row hrow
    have hfolder := h.membershipFolder row hrow
    have hmoved := h.membershipMovedTo row hrow
    rw [hframe] at hmessage hfolder hmoved
    refine ⟨hmessage,hfolder,hmoved,?_⟩
    intro r hr hne heq
    by_contra hother
    obtain ⟨k,hk⟩ := Option.ne_none_iff_exists'.mp hne
    have hr' : r ∈ (t.upsertMembership row).memberships :=
      (mem_upsertMembership row r).mpr (.inl ⟨hr,by simp [Membership.isOf,hother]⟩)
    exact hother (congrArg Membership.messageId
      (h.membershipUid.eq_of_key hr' hrow hk (heq.symm.trans hk)))
  · rintro ⟨hmessage,hfolder,hmoved,hfree⟩
    have hall : ∀ r ∈ (t.upsertMembership row).memberships, t.HasMessage r.messageId ∧
        t.HasFolder r.folderId ∧ ∀ f ∈ r.movedToFolderId, t.HasFolder f := by
      intro r hr
      rcases (mem_upsertMembership row r).mp hr with ⟨hr,-⟩ | rfl
      · exact ⟨ht.membershipMessage r hr,ht.membershipFolder r hr,ht.membershipMovedTo r hr⟩
      · exact ⟨hmessage,hfolder,hmoved⟩
    have huid : ∀ r ∈ t.memberships, r.isOf row.messageId row.folderId = false →
        r.serverUid = none ∨ r.serverUid ≠ row.serverUid := by
      intro r hr hisOf
      by_cases hne : r.serverUid = none
      · exact .inl hne
      · refine .inr fun heq => ?_
        rw [Membership.isOf_iff.mpr ⟨hfree r hr hne heq,serverUid_folderId hne heq⟩] at hisOf
        cases hisOf
    unfold upsertMembership at hall ⊢
    split
    · next hsome =>
      rw [if_pos hsome] at hall
      refine { ht with
        membershipKey := ht.membershipKey.update_of_key ?_
        membershipUid := ht.membershipUid.update_const ?_ huid
        membershipMessage := fun r hr => (hall r hr).1
        membershipFolder := fun r hr => (hall r hr).2.1
        membershipMovedTo := fun r hr => (hall r hr).2.2 }
      · intro r _ hisOf
        rw [Membership.isOf_iff] at hisOf
        simp [hisOf]
      · refine List.Pairwise.imp ?_ ht.membershipKey
        intro a b hab
        simp only [reduceCtorEq,false_or,ne_eq,Option.some.injEq,Prod.mk.injEq,not_and] at hab
        simp only [Membership.isOf,Bool.and_eq_false_iff,beq_eq_false_iff_ne]
        grind
    · next hnone =>
      rw [if_neg hnone] at hall
      have hfalse : ∀ r ∈ t.memberships, r.isOf row.messageId row.folderId = false := by
        intro r hr
        by_contra hisOf
        exact hnone (findMembership_isSome.mpr ⟨r,hr,by simpa using hisOf⟩)
      refine { ht with
        membershipKey := ht.membershipKey.concat ?_
        membershipUid := ht.membershipUid.concat fun r hr => huid r hr (hfalse r hr)
        membershipMessage := fun r hr => (hall r hr).1
        membershipFolder := fun r hr => (hall r hr).2.1
        membershipMovedTo := fun r hr => (hall r hr).2.2 }
      intro r hr
      have := hfalse r hr
      simp only [Membership.isOf,Bool.and_eq_false_iff,beq_eq_false_iff_ne] at this
      simp only [reduceCtorEq,false_or,ne_eq,Option.some.injEq,Prod.mk.injEq,not_and]
      grind

theorem Valid.putContents (ht : t.Valid) {messageId : Nat} (hm : t.HasMessage messageId)
    (contents : MessageContents) : (t.putContents messageId contents).Valid where
  __ := ht
  contentsKey := by
    refine (ht.contentsKey.sublist List.filter_sublist).concat ?_
    intro c hc
    have := (mem_deleteWhere.mp hc).2
    simp only [beq_eq_false_iff_ne] at this
    exact .inr (by simpa using this)
  contentsMessage := by
    intro c hc
    rcases List.mem_append.mp hc with hc | hc
    · exact ht.contentsMessage c (mem_deleteWhere.mp hc).1
    · rw [List.mem_singleton.mp hc]
      exact hm

/-- The id under which the record's key is stored after the upsert. -/
def upsertedId (t : Tables) (record : MessageRecord) : Nat :=
  match t.findMessage record.accountId record.sourceItemKey with
  | some m => m.id
  | none => t.nextMessageId

theorem exists_findMessage_upsertMessage {record : MessageRecord}
    (h : (t.upsertMessage record).Valid) :
    ∃ m, (t.upsertMessage record).findMessage record.accountId record.sourceItemKey = some m ∧
      m.id = t.upsertedId record := by
  unfold upsertedId
  cases hfind : t.findMessage record.accountId record.sourceItemKey with
  | none =>
    refine ⟨_,h.findMessage_eq ((mem_upsertMessage record _).mpr (.inr (.inr ⟨hfind,rfl⟩))) ?_,rfl⟩
    exact toMessage_hasKey _ _ _
  | some n =>
    obtain ⟨hn,hkey⟩ := findMessage_eq_some hfind
    refine ⟨_,h.findMessage_eq
      ((mem_upsertMessage record _).mpr (.inr (.inl ⟨n,hn,hkey,rfl⟩))) ?_,rfl⟩
    exact toMessage_hasKey _ _ _

/-- A membership row other than the next message's is one of a stored message. -/
theorem Valid.upsertedId_eq_iff (ht : t.Valid) {record : MessageRecord} {id : Nat}
    (hid : t.HasMessage id) : t.upsertedId record = id ↔
      ∃ m ∈ t.messages, m.id = id ∧ m.hasKey record.accountId record.sourceItemKey = true := by
  unfold upsertedId
  cases hfind : t.findMessage record.accountId record.sourceItemKey with
  | none =>
    constructor
    · intro heq
      obtain ⟨m,hm,hmid⟩ := hid
      have hlt := ht.messageNext m hm
      simp only at heq
      omega
    · rintro ⟨m,hm,-,hkey⟩
      exact absurd hkey (List.find?_eq_none.mp hfind m hm)
  | some n =>
    obtain ⟨hn,hkey⟩ := findMessage_eq_some hfind
    constructor
    · exact fun heq => ⟨n,hn,heq,hkey⟩
    · rintro ⟨m,hm,hmid,hmkey⟩
      have hmn := ht.findMessage_eq hm hmkey
      rw [hfind,Option.some.injEq] at hmn
      rw [hmn]
      exact hmid

end Tables

namespace Repository

/-- What a successful `add_message` leaves in the tables other than `message_contents`. -/
structure Added (record : MessageRecord) (id : Nat) (t t' : Tables) : Prop where
  id_eq : id = t.upsertedId record
  messages : t'.messages = (t.upsertMessage record).messages
  memberships : t'.memberships = (t.upsertMembership (record.toMembership id)).memberships
  accounts : t'.accounts = t.accounts
  folders : t'.folders = t.folders
  aliases : t'.aliases = t.aliases
  failures : t'.failures = t.failures

theorem addMessage_spec {repo repo' : Repository} {record : MessageRecord}
    {contents : Option MessageContents} {id : Nat}
    (h : repo.addMessage record contents = .ok (id,repo')) :
    Added record id repo.tables repo'.tables := by
  simp only [addMessage,Except.bind_eq_ok_iff,exec_eq_ok] at h
  obtain ⟨upserted,hupserted,h⟩ := h
  have hvalid := upserted.valid
  rw [hupserted] at h hvalid
  obtain ⟨m,hm,hmid⟩ := Tables.exists_findMessage_upsertMessage hvalid
  obtain ⟨messages,next,hframe⟩ := Tables.upsertMessage_frame (t := repo.tables) record
  rw [hm] at h
  simp only [Except.bind_eq_ok_iff,exec_eq_ok] at h
  obtain ⟨stored,hstored,h⟩ := h
  have hmemberships : (Tables.upsertMembership (record.toMembership m.id)
      (repo.tables.upsertMessage record)).memberships =
      (repo.tables.upsertMembership (record.toMembership m.id)).memberships := by
    rw [hframe]
    unfold Tables.upsertMembership Tables.findMembership
    split <;> rfl
  obtain ⟨rows,hframe'⟩ := Tables.upsertMembership_frame (t := repo.tables.upsertMessage record)
    (record.toMembership m.id)
  have hadded : ∀ t' : Tables, (∃ contents, t' = { stored.tables with contents := contents }) →
      Added record m.id repo.tables t' := by
    rintro t' ⟨contents,rfl⟩
    refine ⟨hmid,?_,by rw [← hmemberships,hstored],?_,?_,?_,?_⟩ <;> rw [hstored,hframe']
    all_goals rw [hframe]
  cases contents with
  | none =>
    simp only [Except.ok.injEq,Prod.mk.injEq] at h
    rw [← h.1,← h.2]
    exact hadded _ ⟨stored.tables.contents,rfl⟩
  | some contents =>
    simp only [Except.bind_eq_ok_iff,exec_eq_ok,Except.ok.injEq,Prod.mk.injEq] at h
    obtain ⟨written,hwritten,hid,rfl⟩ := h
    rw [← hid,hwritten]
    exact hadded _ ⟨_,rfl⟩

/-- `add_message` succeeds exactly when account and folders exist and the server
UID of the record is free or held by the message with the record's key. -/
theorem addMessage_ok_iff (repo : Repository) (record : MessageRecord)
    (contents : Option MessageContents) :
    (∃ r, repo.addMessage record contents = .ok r) ↔
      repo.tables.HasAccount record.accountId ∧ repo.tables.HasFolder record.folderId ∧
      (∀ f ∈ record.movedToFolderId, repo.tables.HasFolder f) ∧
      repo.tables.UidFree (record.toMembership (repo.tables.upsertedId record)) := by
  obtain ⟨messages,next,hframe⟩ := Tables.upsertMessage_frame (t := repo.tables) record
  have hfolder : ∀ f, (repo.tables.upsertMessage record).HasFolder f ↔ repo.tables.HasFolder f := by
    intro f
    rw [hframe]
    rfl
  have hfree : ∀ row, (repo.tables.upsertMessage record).UidFree row ↔ repo.tables.UidFree row := by
    intro row
    rw [hframe]
    rfl
  have hmembership : ∀ ht : (repo.tables.upsertMessage record).Valid, ∀ m,
      (repo.tables.upsertMessage record).findMessage record.accountId record.sourceItemKey =
        some m → m.id = repo.tables.upsertedId record →
      ((Tables.upsertMembership (record.toMembership m.id)
        (repo.tables.upsertMessage record)).Valid ↔ repo.tables.HasFolder record.folderId ∧
        (∀ f ∈ record.movedToFolderId, repo.tables.HasFolder f) ∧
        repo.tables.UidFree (record.toMembership (repo.tables.upsertedId record))) := by
    intro ht m hm hmid
    rw [ht.upsertMembership_iff,← hmid,hfree]
    simp only [hfolder]
    exact and_iff_right ⟨m,(Tables.findMessage_eq_some hm).1,rfl⟩
  constructor
  · rintro ⟨r,h⟩
    simp only [addMessage,Except.bind_eq_ok_iff,exec_eq_ok] at h
    obtain ⟨upserted,hupserted,h⟩ := h
    have hvalid := upserted.valid
    rw [hupserted] at h hvalid
    obtain ⟨m,hm,hmid⟩ := Tables.exists_findMessage_upsertMessage hvalid
    rw [hm] at h
    simp only [Except.bind_eq_ok_iff,exec_eq_ok] at h
    obtain ⟨stored,hstored,-⟩ := h
    have hvalid' := stored.valid
    rw [hstored] at hvalid'
    exact ⟨(repo.valid.upsertMessage_iff record).mp hvalid,(hmembership hvalid m hm hmid).mp hvalid'⟩
  · rintro ⟨haccount,hrest⟩
    have hvalid := (repo.valid.upsertMessage_iff record).mpr haccount
    obtain ⟨m,hm,hmid⟩ := Tables.exists_findMessage_upsertMessage hvalid
    have hvalid' := (hmembership hvalid m hm hmid).mpr hrest
    rw [addMessage,exec_of_valid hvalid]
    simp only [bind,Except.bind,hm,exec_of_valid hvalid']
    cases contents with
    | none => exact ⟨_,rfl⟩
    | some contents =>
      have hmessage : (Tables.upsertMembership (record.toMembership m.id)
          (repo.tables.upsertMessage record)).HasMessage m.id := by
        obtain ⟨rows,hframe'⟩ := Tables.upsertMembership_frame
          (t := repo.tables.upsertMessage record) (record.toMembership m.id)
        rw [hframe']
        exact ⟨m,(Tables.findMessage_eq_some hm).1,rfl⟩
      simp only [exec_of_valid (hvalid'.putContents hmessage contents)]
      exact ⟨_,rfl⟩

end Repository

end MailDock
