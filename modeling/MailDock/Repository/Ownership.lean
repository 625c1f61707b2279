import MailDock.Repository.AddMessage
import MailDock.Repository.Statements

/-!
# Owners of a server UID

Identity is resolved by `source_item_key`, ownership of a server UID by the unique
index on memberships.  A run is any sequence of the writes that sync, remote
delete and reindex issue; a write that raises leaves the database as it was.
-/

namespace MailDock

open Relational

def runWrites (start : Repository) (ops : List WriteOp) : Repository :=
  ops.foldl (fun repo op =>
    match op.apply repo with
    | .ok repo' => repo'
    | .error _ => repo) start

namespace Tables

/-- One server UID belongs to at most one message. -/
def AtMostOneOwner (t : Tables) : Prop :=
  ∀ i j folderId uidvalidity uid, t.Owns i folderId (some uidvalidity) (some uid) →
    t.Owns j folderId (some uidvalidity) (some uid) → i = j

/-- The record's server UID belongs to the message, or its key is one of the message's aliases. -/
def Reobserved (t : Tables) (record : MessageRecord) (id : Nat) : Prop :=
  (∃ v u, record.uidvalidity = some v ∧ record.uid = some u ∧
    t.Owns id record.folderId (some v) (some u)) ∨
  ∃ a ∈ t.aliases, a.messageId = id ∧ a.hasKey record.accountId record.sourceItemKey = true

/-- Every message the record observes again is stored under the record's own key,
and the folders the record names exist. -/
def ReobservedUnderOwnKey (t : Tables) (record : MessageRecord) : Prop :=
  ∀ id, t.Reobserved record id →
    (∃ m ∈ t.messages, m.id = id ∧ m.hasKey record.accountId record.sourceItemKey = true) ∧
    t.HasFolder record.folderId ∧ ∀ f ∈ record.movedToFolderId, t.HasFolder f

theorem Valid.atMostOneOwner {t : Tables} (ht : t.Valid) : t.AtMostOneOwner := by
  rintro i j f v u ⟨r,hr,rfl,hrf,hrv,hru⟩ ⟨s,hs,rfl,hsf,hsv,hsu⟩
  exact congrArg Membership.messageId (ht.membershipUid.eq_of_key hr hs
    (serverUid_eq_some.mpr ⟨hrf,hrv,hru⟩) (serverUid_eq_some.mpr ⟨hsf,hsv,hsu⟩))

theorem Valid.hasMessage_of_reobserved {t : Tables} (ht : t.Valid) {record : MessageRecord}
    {id : Nat} (h : t.Reobserved record id) : t.HasMessage id := by
  rcases h with ⟨v,u,-,-,r,hr,rfl,-⟩ | ⟨a,ha,rfl,-⟩
  · exact ht.membershipMessage r hr
  · exact ht.aliasMessage a ha

/-- A membership with the record's server UID makes its message a re-observed one. -/
theorem reobserved_of_serverUid {t : Tables} {record : MessageRecord} {id : Nat} {r : Membership}
    (hr : r ∈ t.memberships) (hne : r.serverUid ≠ none)
    (heq : r.serverUid = (record.toMembership id).serverUid) : t.Reobserved record r.messageId := by
  obtain ⟨⟨f,v,u⟩,hk⟩ := Option.ne_none_iff_exists'.mp hne
  obtain ⟨hrf,hrv,hru⟩ := serverUid_eq_some.mp hk
  obtain ⟨hf,hv,hu⟩ := serverUid_eq_some.mp (heq.symm.trans hk)
  refine .inl ⟨v,u,hv,hu,r,hr,rfl,?_,hrv,hru⟩
  rw [hrf]
  exact hf.symm

end Tables

namespace Repository

/-- Adding the record again answers with the message it observes. -/
def ReobservationSucceeds (repo : Repository) (record : MessageRecord)
    (contents : Option MessageContents) : Prop :=
  ∀ id, repo.tables.Reobserved record id →
    ∃ repo', repo.addMessage record contents = .ok (id,repo')

theorem reobservationSucceeds_iff (repo : Repository) (record : MessageRecord)
    (contents : Option MessageContents) :
    repo.ReobservationSucceeds record contents ↔ repo.tables.ReobservedUnderOwnKey record := by
  constructor
  · intro h id hid
    obtain ⟨repo',hok⟩ := h id hid
    obtain ⟨-,hfolder,hmoved,-⟩ := (addMessage_ok_iff repo record contents).mp ⟨_,hok⟩
    have hmessage := repo.valid.hasMessage_of_reobserved hid
    exact ⟨(repo.valid.upsertedId_eq_iff hmessage).mp (addMessage_spec hok).id_eq.symm,
      hfolder,hmoved⟩
  · intro h id hid
    obtain ⟨⟨m,hm,hmid,hkey⟩,hfolder,hmoved⟩ := h id hid
    have haccount : repo.tables.HasAccount record.accountId := by
      rw [← (Message.hasKey_iff.mp hkey).1]
      exact repo.valid.messageAccount m hm
    have hfree : repo.tables.UidFree
        (record.toMembership (repo.tables.upsertedId record)) := by
      intro r hr hne heq
      have hagain := Tables.reobserved_of_serverUid hr hne heq
      exact ((repo.valid.upsertedId_eq_iff (repo.valid.membershipMessage r hr)).mpr
        (h r.messageId hagain).1).symm
    obtain ⟨⟨id',repo'⟩,hok⟩ :=
      (addMessage_ok_iff repo record contents).mpr ⟨haccount,hfolder,hmoved,hfree⟩
    have hid' : id' = id := (addMessage_spec hok).id_eq.trans
      ((repo.valid.upsertedId_eq_iff ⟨m,hm,hmid⟩).mpr ⟨m,hm,hmid,hkey⟩)
    exact ⟨repo',hid' ▸ hok⟩

/-- In every state a run reaches, a server UID has at most one owner, and adding
a record again finds the owner exactly when the owner is stored under the record's key. -/
theorem runWrites_owner (start : Repository) (ops : List WriteOp) :
    (runWrites start ops).tables.AtMostOneOwner ∧
    ∀ record contents, (runWrites start ops).ReobservationSucceeds record contents ↔
      (runWrites start ops).tables.ReobservedUnderOwnKey record :=
  ⟨(runWrites start ops).valid.atMostOneOwner,fun record contents =>
    reobservationSucceeds_iff (runWrites start ops) record contents⟩

/-- One account with two tracked folders and no message. -/
def twoFolders : Repository where
  tables :=
    { accounts := [{ id := "work" }]
      folders := [⟨1,"work","INBOX","INBOX",some 9,0,true,none,none,false,none⟩,
        ⟨2,"work","Trash","Trash",some 9,0,true,none,none,false,none⟩]
      nextFolderId := 3 }
  valid := by decide

/-- A message fetched from INBOX. -/
def inboxRecord : MessageRecord :=
  { accountId := "work", folderId := 1, contentKey := "k", sourceItemKey := .imap "INBOX" 9 12,
    uid := some 12, uidvalidity := some 9, relativePath := some "a.eml", fileHash := some "h" }

/-- What remote delete commits after COPYUID confirmed the move of that message to
Trash under UID 5. -/
def copyuidMove : List WriteOp :=
  [.addMessage inboxRecord none,
    .replaceMessageMemberships 1 [⟨1,some 12,some 9,.moved,some 2,none,none,none⟩,
      ⟨2,some 5,some 9,.present,none,none,none,none⟩],
    .addMessageIdentityAlias "work" (.imap "Trash" 9 5) 1 .copyuid]

/-- The moved message, fetched from Trash. -/
def trashRecord : MessageRecord :=
  { inboxRecord with folderId := 2, sourceItemKey := .imap "Trash" 9 5, uid := some 5 }

theorem addMessage_after_copyuid_raises :
    (runWrites twoFolders copyuidMove).tables.Reobserved trashRecord 1 ∧
    (runWrites twoFolders copyuidMove).addMessage trashRecord none =
      .error ⟨.database,"SQLite operation failed: add message"⟩ ∧
    ¬(runWrites twoFolders copyuidMove).ReobservationSucceeds trashRecord none := by
  have hagain : (runWrites twoFolders copyuidMove).tables.Reobserved trashRecord 1 :=
    .inl ⟨9,5,rfl,rfl,by decide⟩
  have herror : (runWrites twoFolders copyuidMove).addMessage trashRecord none =
    .error ⟨.database,"SQLite operation failed: add message"⟩ := rfl
  refine ⟨hagain,herror,?_⟩
  intro h
  obtain ⟨repo',hok⟩ := h 1 hagain
  rw [herror] at hok
  cases hok

end Repository

end MailDock
