import MailDock.Repository.Rows
import MailDock.Sync.Walk

/-!
# What the detection pass does to the rows

A message is found missing in a folder by its server UID.  The event that is
staged for it names a message row; between staging and writing, other events of
the same pass may have merged that row away, but they never make it stand for
another server UID.

## Main definitions

- `RowEffect` — what a write of the pass does to the tables
- `StagedRow` — the row a staged event is about
- `DetectKeeps` — the invariants that the pass keeps
-/

namespace MailDock

open Hoare Relational

/-- Everything a write of the detection pass for the server UID `k` does to the rows. -/
structure RowEffect (google : Bool) (t t' : Tables) (k : ServerUid) : Prop where
  accounts : t'.accounts = t.accounts
  folders : t'.folders = t.folders
  failures : t'.failures = t.failures
  status : ∀ k', k' ≠ k → t'.status k' = t.status k'
  messages : ∀ m' ∈ t'.messages, ∃ m ∈ t.messages, m.id = m'.id ∧ m.accountId = m'.accountId ∧
    m.sourceItemKey = m'.sourceItemKey
  rows : ∀ r' ∈ t'.memberships, ∃ r ∈ t.memberships, r.serverUid = r'.serverUid ∧
    r.folderId = r'.folderId ∧ (t'.HasMessage r.messageId → r.messageId = r'.messageId)
  flags : t'.messages = t.messages → ∀ r' ∈ t'.memberships, ∃ r ∈ t.memberships,
    r.messageId = r'.messageId ∧ r.serverUid = r'.serverUid ∧ r.imapFlags = r'.imapFlags
  sameMessages : google = true → t'.messages = t.messages
  kept : google = false → ∀ r ∈ t.memberships, r.serverUid ≠ none → t'.HasMessage r.messageId →
    ∃ r' ∈ t'.memberships, r'.messageId = r.messageId ∧ r'.folderId = r.folderId ∧
      r'.serverUid = r.serverUid

theorem RowEffect.hasMessage {google : Bool} {t t' : Tables} {k : ServerUid}
    (h : RowEffect google t t' k) {id : Nat} (hid : t'.HasMessage id) : t.HasMessage id := by
  obtain ⟨m',hm',rfl⟩ := hid
  obtain ⟨m,hm,hmid,-⟩ := h.messages m' hm'
  exact ⟨m,hm,hmid⟩

theorem RowEffect.keepsMessage {google : Bool} {t t' : Tables} {k : ServerUid}
    (h : RowEffect google t t' k) (hgoogle : google = true) (ht : t.Valid) {r : Membership}
    (hr : r ∈ t.memberships) : t'.HasMessage r.messageId := by
  rw [Tables.HasMessage,h.sameMessages hgoogle]
  exact ht.membershipMessage r hr

/-- Where the rows after a write of the pass come from. -/
theorem RowEffect.placesRows {google : Bool} {op : WriteOp} {repo repo' : Repository}
    {k : ServerUid} (h : RowEffect google repo.tables repo'.tables k)
    (hop : detectFootprint.op op) (happly : op.apply repo = .ok repo') :
    op.PlacesRows repo.tables repo'.tables := by
  cases op with
  | replaceMessageMemberships messageId memberships =>
    intro r' hr'
    obtain ⟨r,hr,huid,hfolder,hid⟩ := h.rows r' hr'
    refine .inl ⟨r,hr,hfolder,huid,hid ?_⟩
    -- the message rows are left alone
    rw [Tables.HasMessage,Repository.replaceMessageMemberships_spec happly]
    exact repo.valid.membershipMessage r hr
  | mergeDuplicateMessage accountId c d => exact Repository.mergeDuplicateMessage_placesRows happly
  | updateRemoteState messageId state movedTo folderId =>
    exact Repository.updateRemoteState_placesRows happly
  | _ => exact hop.elim

section
variable {google : Bool} {accountId : String} {t t' : Tables}

/-- The entries of `known_messages` are right about the rows they name, unless the
row was merged away. -/
def KnownRows (google : Bool) (accountId : String)
    (known : List ((Nat × Nat × Nat) × LocalMessage)) (t : Tables) : Prop :=
  ∀ k entry, known.lookup k = some entry →
    ((∀ r ∈ t.memberships, r.serverUid = some k → r.messageId = entry.messageId) ∧
      (google = true → ∃ m ∈ t.messages, m.id = entry.messageId ∧ m.accountId = accountId ∧
        m.sourceItemKey = entry.record.sourceItemKey)) ∨
    (google = false ∧ ¬ t.HasMessage entry.messageId)

/-- The row of the message a staged event names stands for `k`, if it is still there. -/
structure StagedRow (google : Bool) (accountId : String) (t : Tables) (k : ServerUid)
    (item : MoveStateEvent) : Prop where
  rows : ∀ r ∈ t.memberships, r.messageId = item.messageId → r.folderId = k.1 →
    r.serverUid = some k
  message : google = true → ∃ m ∈ t.messages, m.id = item.messageId ∧ m.accountId = accountId ∧
    m.sourceItemKey = item.event.sourceItemKey
  stays : google = false → (∃ r ∈ t.memberships, r.messageId = item.messageId ∧
    r.folderId = k.1) ∨ ¬ t.HasMessage item.messageId

/-- Before any merge the entries are right without exception. -/
theorem KnownRows.weaken {known : List ((Nat × Nat × Nat) × LocalMessage)}
    (h : KnownRows true accountId known t) (google : Bool) : KnownRows google accountId known t := by
  intro k entry hentry
  rcases h k entry hentry with ⟨hrows,hmessage⟩ | ⟨hfalse,-⟩
  · exact .inl ⟨hrows,fun _ => hmessage rfl⟩
  · cases hfalse

theorem KnownRows.sameRows {known : List ((Nat × Nat × Nat) × LocalMessage)}
    (h : KnownRows true accountId known t) (hs : t.SameRows t') :
    KnownRows true accountId known t' := by
  intro k entry hentry
  rcases h k entry hentry with ⟨hrows,hmessage⟩ | ⟨hfalse,-⟩
  · refine .inl ⟨fun r' hr' hk => ?_,fun _ => ?_⟩
    · obtain ⟨r,hr,hcore⟩ := hs.membership hr'
      obtain ⟨hid,-,huid,-⟩ := Membership.core_eq hcore
      rw [← hid]
      exact hrows r hr (huid.trans hk)
    · obtain ⟨m,hm,hid,haccount,hkey⟩ := hmessage rfl
      obtain ⟨m',hm',hcore⟩ := hs.symm.message hm
      obtain ⟨hid',haccount',hkey'⟩ := Message.core_eq hcore
      exact ⟨m',hm',hid'.trans hid,haccount'.trans haccount,hkey'.trans hkey⟩
  · cases hfalse

/-- A fetched message is remembered under the row it was written to. -/
theorem KnownRows.added {known : List ((Nat × Nat × Nat) × LocalMessage)}
    {repo repo' : Repository} {record : MessageRecord} {contents : Option MessageContents}
    {id v u : Nat} (h : KnownRows true record.accountId known repo.tables)
    (hadd : repo.addMessage record contents = .ok (id,repo'))
    (huid : record.uid = some u ∧ record.uidvalidity = some v) :
    KnownRows true record.accountId (((record.folderId,v,u),⟨id,record⟩) :: known)
      repo'.tables := by
  intro k entry hentry
  have hnew : (record.toMembership id).serverUid = some (record.folderId,v,u) :=
    Tables.serverUid_eq_some.mpr ⟨rfl,huid.2,huid.1⟩
  rw [List.lookup_cons] at hentry
  by_cases hk : k = (record.folderId,v,u)
  · rw [hk,beq_self_eq_true] at hentry
    cases hentry
    refine .inl ⟨fun r hr hrk => ?_,fun _ => Repository.addMessage_message hadd⟩
    rw [repo'.valid.membershipUid.eq_of_key hr ((Repository.addMessage_rows hadd).mpr (.inr rfl))
      hrk (hk ▸ hnew)]
    rfl
  · rw [beq_eq_false_iff_ne.mpr hk] at hentry
    rcases h k entry hentry with ⟨hrows,hmessage⟩ | ⟨hfalse,-⟩
    · refine .inl ⟨fun r hr hrk => ?_,fun _ => ?_⟩
      · rcases (Repository.addMessage_rows hadd).mp hr with ⟨hr,-⟩ | rfl
        · exact hrows r hr hrk
        · rw [hnew] at hrk
          exact absurd (Option.some.inj hrk).symm hk
      · obtain ⟨m,hm,hid,haccount,hkey⟩ := hmessage rfl
        obtain ⟨m',hm',hid',haccount',hkey'⟩ := Repository.addMessage_keeps_message hadd hm
        exact ⟨m',hm',hid'.trans hid,haccount'.trans haccount,hkey'.trans hkey⟩
    · cases hfalse

theorem KnownRows.effect {known : List ((Nat × Nat × Nat) × LocalMessage)} {k : ServerUid}
    (h : KnownRows google accountId known t) (ht : t.Valid) (ht' : t'.Valid)
    (he : RowEffect google t t' k) :
    KnownRows google accountId known t' := by
  intro k₀ entry hentry
  rcases h k₀ entry hentry with ⟨hrows,hmessage⟩ | ⟨hgoogle,hgone⟩
  · cases hg : google with
    | true =>
      refine .inl ⟨fun r' hr' hk => ?_,fun _ => ?_⟩
      · obtain ⟨r,hr,huid,-,hid⟩ := he.rows r' hr'
        rw [← hid (he.keepsMessage hg ht hr)]
        exact hrows r hr (huid.trans hk)
      · rw [he.sameMessages hg]
        exact hmessage hg
    | false =>
      by_cases hmem : t'.HasMessage entry.messageId
      · refine .inl ⟨fun r' hr' hk => ?_,fun hgoogle => by cases hgoogle⟩
        obtain ⟨r,hr,huid,-⟩ := he.rows r' hr'
        have hrid := hrows r hr (huid.trans hk)
        have hne : r.serverUid ≠ none := by simp [huid.trans hk]
        obtain ⟨r'',hr'',hid,-,huid''⟩ := he.kept hg r hr hne (hrid ▸ hmem)
        rw [ht'.membershipUid.eq_of_key hr' hr'' hk (huid''.trans (huid.trans hk)),hid,hrid]
      · exact .inr ⟨rfl,hmem⟩
  · exact .inr ⟨hgoogle,fun hmem => hgone (he.hasMessage hmem)⟩

theorem StagedRow.effect {k k' : ServerUid} {item : MoveStateEvent}
    (h : StagedRow google accountId t k item) (ht : t.Valid) (ht' : t'.Valid)
    (he : RowEffect google t t' k') : StagedRow google accountId t' k item where
  rows := by
    intro r' hr' hid hfolder
    obtain ⟨r,hr,huid,hrfolder,hrid⟩ := he.rows r' hr'
    cases hg : google with
    | true =>
      exact huid ▸ h.rows r hr ((hrid (he.keepsMessage hg ht hr)).trans hid)
        (hrfolder.trans hfolder)
    | false =>
      -- the row of the message in the folder is still the one that stands for `k`
      have hmem : t'.HasMessage item.messageId := hid ▸ ht'.membershipMessage r' hr'
      rcases h.stays hg with ⟨s,hs,hsid,hsfolder⟩ | hgone
      · have hsk := h.rows s hs hsid hsfolder
        obtain ⟨s',hs',hs'id,hs'folder,hs'uid⟩ := he.kept hg s hs (by simp [hsk]) (hsid ▸ hmem)
        have hsame : r' = s' := ht'.membership_eq hr' hs' (by rw [hid,hs'id,hsid])
          (by rw [hfolder,hs'folder,hsfolder])
        rw [hsame,hs'uid,hsk]
      · exact absurd (he.hasMessage hmem) hgone
  message hg := by
    rw [he.sameMessages hg]
    exact h.message hg
  stays := by
    intro hg
    by_cases hmem : t'.HasMessage item.messageId
    · rcases h.stays hg with ⟨s,hs,hsid,hsfolder⟩ | hgone
      · have hsk := h.rows s hs hsid hsfolder
        obtain ⟨s',hs',hs'id,hs'folder,-⟩ := he.kept hg s hs (by simp [hsk]) (hsid ▸ hmem)
        exact .inl ⟨s',hs',hs'id.trans hsid,hs'folder.trans hsfolder⟩
      · exact absurd (he.hasMessage hmem) hgone
    · exact .inr hmem

end

/-! The writes of the pass. -/

section
variable {accountId : String} {repo repo' : Repository}

open Repository

theorem updateRemoteState_effect {google : Bool} {messageId : Nat} {state : RemoteState}
    {movedTo : Option Nat} {k : ServerUid}
    (h : (WriteOp.updateRemoteState messageId state movedTo (some k.1)).apply repo = .ok repo')
    (hrows : ∀ r ∈ repo.tables.memberships, r.messageId = messageId → r.folderId = k.1 →
      r.serverUid = some k) : RowEffect google repo.tables repo'.tables k := by
  have hstatus : ∀ k', k' ≠ k → repo'.tables.status k' = repo.tables.status k' := by
    intro k' hne
    by_contra hchanged
    obtain ⟨r,hr,hid,hfolder,hk'⟩ := updateRemoteState_status h hchanged
    rw [hrows r hr hid hfolder] at hk'
    exact hne (Option.some.inj hk').symm
  rw [WriteOp.apply,exec_eq_ok] at h
  have hmemberships : repo'.tables.memberships = update
      (fun r => r.messageId == messageId && (some k.1).all (r.folderId == ·))
      (fun r => { r with remoteState := state, movedToFolderId := movedTo })
      repo.tables.memberships := by rw [h]; rfl
  have hmessages : repo'.tables.messages = repo.tables.messages := by rw [h]; rfl
  exact
    { accounts := by rw [h]; rfl
      folders := by rw [h]; rfl
      failures := by rw [h]; rfl
      status := hstatus
      messages := fun m hm => ⟨m,hmessages ▸ hm,rfl,rfl,rfl⟩
      rows := by
        intro r' hr'
        rw [hmemberships,mem_update] at hr'
        rcases hr' with ⟨hr',-⟩ | ⟨r,hr,-,rfl⟩
        · exact ⟨r',hr',rfl,rfl,fun _ => rfl⟩
        · exact ⟨r,hr,rfl,rfl,fun _ => rfl⟩
      flags := by
        intro _ r' hr'
        rw [hmemberships,mem_update] at hr'
        rcases hr' with ⟨hr',-⟩ | ⟨r,hr,-,rfl⟩
        · exact ⟨r',hr',rfl,rfl,rfl⟩
        · exact ⟨r,hr,rfl,rfl,rfl⟩
      sameMessages := fun _ => hmessages
      kept := by
        intro _ r hr _ _
        rw [hmemberships]
        cases hp : (r.messageId == messageId && (some k.1).all (r.folderId == ·)) with
        | false => exact ⟨r,mem_update.mpr (.inl ⟨hr,hp⟩),rfl,rfl,rfl⟩
        | true => exact ⟨_,mem_update.mpr (.inr ⟨r,hr,hp,rfl⟩),rfl,rfl,rfl⟩ }

theorem folderId_of_moved {c : Nat} {r r' : Membership}
    (h : { r' with messageId := c } = { r with messageId := c }) : r'.folderId = r.folderId := by
  simp only [Membership.mk.injEq] at h
  exact h.2.1

/-- A merge moves rows to another message; no server UID notices. -/
theorem mergeDuplicateMessage_effect {c d : Nat} {k : ServerUid}
    (h : repo.mergeDuplicateMessage accountId c d = .ok repo') :
    RowEffect false repo.tables repo'.tables k := by
  obtain ⟨haccounts,hfolders,hfailures⟩ := mergeDuplicateMessage_frame h
  have hstatus : ∀ k', repo'.tables.status k' = repo.tables.status k' := fun k' =>
    (mergeDuplicateMessage_status h k').1
  by_cases hcd : c = d
  · simp only [mergeDuplicateMessage,if_pos hcd] at h
    cases h
    exact
      { accounts := rfl
        folders := rfl
        failures := rfl
        status := fun _ _ => rfl
        messages := fun m hm => ⟨m,hm,rfl,rfl,rfl⟩
        rows := fun r hr => ⟨r,hr,rfl,rfl,fun _ => rfl⟩
        flags := fun _ r hr => ⟨r,hr,rfl,rfl,rfl⟩
        sameMessages := fun hg => by cases hg
        kept := fun _ r hr _ _ => ⟨r,hr,rfl,rfl,rfl⟩ }
  · obtain ⟨canonical,hc,duplicate,hd,rfl,rfl,-,-,hmerged⟩ := mergeDuplicateMessage_spec hcd h
    exact
      { accounts := haccounts
        folders := hfolders
        failures := hfailures
        status := fun k' _ => hstatus k'
        messages := by
          intro m hm
          by_cases hmc : m.id = canonical.id
          · obtain ⟨m',hm',hid,haccount,hkey,-⟩ := hmerged.canonical
            rw [repo'.valid.message_eq hm hm' (hmc.trans hid.symm)]
            exact ⟨canonical,hc,hid.symm,haccount.symm,hkey.symm⟩
          · exact ⟨m,(hmerged.messages m hmc (hmerged.duplicate m hm)).mp hm,rfl,rfl,rfl⟩
        rows := by
          intro r' hr'
          obtain ⟨r,hr,heq,hid⟩ := hmerged.origin r' hr'
          refine ⟨r,hr,(serverUid_of_moved heq).symm,(folderId_of_moved heq).symm,?_⟩
          rintro ⟨m,hm,hmid⟩
          rcases hid with hid | ⟨hid,-⟩
          · exact hid.symm
          · exact absurd (hmid.trans hid) (hmerged.duplicate m hm)
        flags := by
          -- the duplicate is gone, so the messages are not the same
          intro hsame
          exact absurd rfl (hmerged.duplicate duplicate (hsame ▸ hd))
        sameMessages := fun hg => by cases hg
        kept := by
          intro _ r hr huid hmem
          obtain ⟨r',hr',heq,hid⟩ := hmerged.carried r hr huid
          refine ⟨r',hr',?_,folderId_of_moved heq,serverUid_of_moved heq⟩
          -- the rows of the duplicate are the ones that move, and it is gone
          rcases hid with hid | ⟨hid,-⟩
          · exact hid
          · obtain ⟨m,hm,hmid⟩ := hmem
            exact absurd (hmid.trans hid) (hmerged.duplicate m hm) }

/-- The removal of a Gmail label: the row of the message in one folder goes. -/
theorem removeMembership_effect {message : Message} {k : ServerUid}
    (hm : message ∈ repo.tables.messages)
    (h : repo.replaceMessageMemberships message.id
      (((repo.tables.listMessageMemberships message.accountId message.sourceItemKey).filter
        fun r => r.membership.folderId ≠ k.1).map fun r => r.membership.toRecord) = .ok repo')
    (hrows : ∀ r ∈ repo.tables.memberships, r.messageId = message.id → r.folderId = k.1 →
      r.serverUid = some k) : RowEffect true repo.tables repo'.tables k := by
  have hmem : ∀ r, r ∈ repo'.tables.memberships ↔ r ∈ repo.tables.memberships ∧
      ¬ (r.messageId = message.id ∧ r.folderId = k.1) := fun _ => removeMembership_rows hm h
  have htables := replaceMessageMemberships_spec h
  have hmessages : repo'.tables.messages = repo.tables.messages := by rw [htables]
  exact
    { accounts := by rw [htables]
      folders := by rw [htables]
      failures := by rw [htables]
      status := by
        intro k' hne
        cases hstatus : repo.tables.status k' with
        | none =>
          rw [Tables.status_eq_none_iff] at hstatus ⊢
          exact fun r hr => hstatus r ((hmem r).mp hr).1
        | some s =>
          obtain ⟨r,hr,hk',hstate,hmoved⟩ := repo.valid.status_eq_some_iff.mp hstatus
          have hother : ¬ (r.messageId = message.id ∧ r.folderId = k.1) := by
            rintro ⟨hid,hfolder⟩
            rw [hrows r hr hid hfolder] at hk'
            exact hne (Option.some.inj hk').symm
          exact repo'.valid.status_eq_some_iff.mpr ⟨r,(hmem r).mpr ⟨hr,hother⟩,hk',hstate,hmoved⟩
      messages := fun m hm => ⟨m,hmessages ▸ hm,rfl,rfl,rfl⟩
      rows := fun r hr => ⟨r,((hmem r).mp hr).1,rfl,rfl,fun _ => rfl⟩
      flags := fun _ r hr => ⟨r,((hmem r).mp hr).1,rfl,rfl,rfl⟩
      sameMessages := fun _ => hmessages
      kept := fun hg => by cases hg }

end

/-! The pass over one folder. -/

/-- The server listed the UIDs of the folder, and this one is not among them. -/
def Absent (log : List Effect) (folderRawName : String) (uid : Nat) : Prop :=
  ∃ t uids, .answer t (.uids folderRawName uids) ∈ log ∧ uid ∉ uids

/-- The invariants that the detection pass over a folder keeps. -/
structure DetectKeeps (google : Bool) (folder : Folder) (uidvalidity : Nat) (I : World → Prop) :
    Prop where
  closed : Closed lookFootprint I
  event : ∀ w e last, I w → e.folderRawName = folder.rawName → e.uidvalidity = uidvalidity →
    Absent w.log folder.rawName e.uid →
    (∃ r ∈ w.db.tables.memberships, r.serverUid = some (folder.id,uidvalidity,e.uid)) →
    I (w.appended (.state e) last)
  write : ∀ w op db uid, I w → detectFootprint.op op → op.apply w.db = .ok db →
    RowEffect google w.db.tables db.tables (folder.id,uidvalidity,uid) →
    Absent w.log folder.rawName uid → I (w.written op db)

/-- What is known about a staged event until it is written. -/
structure Staged (accountId : String) (google : Bool) (folder : Folder) (uidvalidity : Nat)
    (remoteUids : List Nat) (t : Tables) (item : MoveStateEvent) : Prop where
  folderId : item.folderId = folder.id
  removes : item.removeMembership = google
  place : item.event.folderRawName = folder.rawName ∧ item.event.uidvalidity = uidvalidity
  absent : item.event.uid ∉ remoteUids
  row : StagedRow google accountId t (folder.id,uidvalidity,item.event.uid) item

theorem Tables.isServerUid_iff {t : Tables} {accountId : String} {folderId uidvalidity uid : Nat}
    {r : Membership} : t.isServerUid accountId folderId uidvalidity uid r = true ↔
      r.serverUid = some (folderId,uidvalidity,uid) ∧
      ∃ m ∈ t.messages, m.id = r.messageId ∧ m.accountId = accountId := by
  simp only [isServerUid,Bool.and_eq_true,beq_iff_eq,List.any_eq_true,serverUid_eq_some,and_assoc]

theorem mem_missingUids {t : Tables} {accountId : String} {folderId uidvalidity uid : Nat}
    {remoteUids : List Nat} :
    uid ∈ missingUids accountId t folderId uidvalidity remoteUids ↔ uid ∉ remoteUids ∧
      ∃ r ∈ t.memberships, t.isServerUid accountId folderId uidvalidity uid r = true := by
  simp only [missingUids,List.mem_insertionSort,List.mem_filter,Tables.localUids,List.mem_dedup,
    List.mem_filterMap,Option.bind_eq_some_iff,Option.ite_none_right_eq_some,Option.some.injEq,
    Bool.not_eq_true',List.contains_eq_mem,decide_eq_false_iff_not]
  constructor
  · rintro ⟨⟨r,hr,u,-,huid,rfl⟩,hremote⟩
    exact ⟨hremote,r,hr,huid⟩
  · rintro ⟨hremote,r,hr,huid⟩
    have hu : r.uid = some uid := by
      simp only [Tables.isServerUid,Bool.and_eq_true,beq_iff_eq] at huid
      exact huid.1.2
    exact ⟨⟨r,hr,uid,hu,huid,rfl⟩,hremote⟩

/-- A row found by its server UID, as a staged event refers to it. -/
theorem StagedRow.of_row {google : Bool} {accountId : String} {t : Tables} (ht : t.Valid)
    {k : ServerUid} {r : Membership} {item : MoveStateEvent} (hr : r ∈ t.memberships)
    (hk : r.serverUid = some k) (hfolder : r.folderId = k.1) (hid : r.messageId = item.messageId)
    (hmessage : google = true → ∃ m ∈ t.messages, m.id = item.messageId ∧
      m.accountId = accountId ∧ m.sourceItemKey = item.event.sourceItemKey) :
    StagedRow google accountId t k item where
  rows := by
    intro s hs hsid hsfolder
    rw [ht.membership_eq hs hr (hsid.trans hid.symm) (hsfolder.trans hfolder.symm)]
    exact hk
  message := hmessage
  stays _ := .inl ⟨r,hr,hid,hfolder⟩

/-- A row that was merged away leaves nothing to write. -/
theorem StagedRow.of_gone {accountId : String} {t : Tables} (ht : t.Valid) {k : ServerUid}
    {item : MoveStateEvent} (hgone : ¬ t.HasMessage item.messageId) :
    StagedRow false accountId t k item where
  rows r hr hid _ := absurd (hid ▸ ht.membershipMessage r hr) hgone
  message hg := by cases hg
  stays _ := .inr hgone

section
variable {env : Env} {accountId : String} {d : Detection} {folder : Folder} {uidvalidity : Nat}
  {I : World → Prop} {known : List ((Nat × Nat × Nat) × LocalMessage)} {selected : List (Nat × Nat)}

/-- The session of the pass; only the counters of the result may change. -/
def SyncSession.Remembers (known : List ((Nat × Nat × Nat) × LocalMessage))
    (selected : List (Nat × Nat)) (s : SyncSession) : Prop :=
  s.knownMessages = known ∧ s.selected = selected

theorem SyncSession.Remembers.sameScan {s s' : SyncSession} (hs : s.SameScan s')
    (h : s.Remembers known selected) : s'.Remembers known selected :=
  ⟨hs.2.2.2.1.trans h.1,hs.1.trans h.2⟩

/-- The event staged for a missing UID names the row of that UID. -/
theorem stateEvent_staged {t : Tables} (ht : t.Valid) {remoteUids : List Nat} {uid : Nat}
    {found : LocalMessage} {candidates : List LocalMessage} {now : String} {r : Membership}
    (hr : r ∈ t.memberships) (hk : r.serverUid = some (folder.id,uidvalidity,uid))
    (habsent : uid ∉ remoteUids)
    (hfound : (r.messageId = found.messageId ∧ (d.google = true → ∃ m ∈ t.messages,
        m.id = found.messageId ∧ m.accountId = accountId ∧
          m.sourceItemKey = found.record.sourceItemKey)) ∨
      (d.google = false ∧ ¬ t.HasMessage found.messageId)) :
    Staged accountId d.google folder uidvalidity remoteUids t
      (d.stateEvent accountId folder uidvalidity uid known found candidates now) where
  folderId := rfl
  removes := rfl
  place := ⟨rfl,rfl⟩
  absent := habsent
  row := by
    rcases hfound with ⟨hid,hmessage⟩ | ⟨hgoogle,hgone⟩
    · exact StagedRow.of_row ht hr hk (Tables.serverUid_eq_some.mp hk).1 hid hmessage
    · rw [hgoogle]
      exact StagedRow.of_gone ht hgone

/-- While the pass looks, it changes neither the database nor what it remembers. -/
def Looking (I : World → Prop) (known : List ((Nat × Nat × Nat) × LocalMessage))
    (selected : List (Nat × Nat)) (folderRawName : String) (remoteUids : List Nat)
    (repo : Repository) (w : World) : Prop :=
  I w ∧ w.session.Remembers known selected ∧ w.db = repo ∧
    ∃ t, .answer t (.uids folderRawName remoteUids) ∈ w.log

theorem Looking.closed {folderRawName : String} {remoteUids : List Nat} {repo : Repository}
    (hI : Closed lookFootprint I) :
    Closed lookFootprint (Looking I known selected folderRawName remoteUids repo) :=
  hI.and <| (Closed.ofScan (φ := SyncSession.Remembers known selected)
    fun _ _ hs h => h.sameScan hs).and <|
    (Closed.ofDb (φ := fun db => db = repo) fun _ h => h).and <| Closed.ofLog (φ := fun log =>
      ∃ t, .answer t (.uids folderRawName remoteUids) ∈ log)
      fun _ e ⟨t,ht⟩ => ⟨t,List.mem_cons_of_mem e ht⟩

/-- The events staged so far, each with the row it is about. -/
def AllStaged (accountId : String) (google : Bool) (folder : Folder) (uidvalidity : Nat)
    (remoteUids : List Nat) (t : Tables) (events : List MoveStateEvent) : Prop :=
  ∀ item ∈ events, Staged accountId google folder uidvalidity remoteUids t item ∧
    ∃ r ∈ t.memberships, r.serverUid = some (folder.id,uidvalidity,item.event.uid)

theorem getLocalMessage_found {t : Tables} (ht : t.Valid) {uid : Nat} {m : Message}
    {r s : Membership} (h : t.getMessageByUid accountId folder.id uidvalidity uid = some (m,s))
    (hr : r ∈ t.memberships) (hk : r.serverUid = some (folder.id,uidvalidity,uid)) :
    r.messageId = m.id ∧ m ∈ t.messages ∧ m.accountId = accountId := by
  simp only [Tables.getMessageByUid,Option.bind_eq_some_iff,Option.map_eq_some_iff,
    Prod.mk.injEq] at h
  obtain ⟨s',hs,n,hn,rfl,rfl⟩ := h
  obtain ⟨hsk,m',hm',hm'id,haccount⟩ := Tables.isServerUid_iff.mp (List.find?_some hs)
  have hrs : r = s' := ht.membershipUid.eq_of_key hr (List.mem_of_find?_eq_some hs) hk hsk
  have hnid : n.id = s'.messageId := by simpa using List.find?_some hn
  have hnmem := List.mem_of_find?_eq_some hn
  exact ⟨by rw [hrs,hnid],hnmem,by rw [ht.message_eq hnmem hm' (hnid.trans hm'id.symm),haccount]⟩

theorem detectMissing_rule (hI : Closed lookFootprint I) {remoteUids : List Nat} {uid : Nat}
    {repo : Repository} (hknown : KnownRows d.google accountId known repo.tables)
    (huid : uid ∈ missingUids accountId repo.tables folder.id uidvalidity remoteUids)
    {events : List MoveStateEvent}
    (hevents : AllStaged accountId d.google folder uidvalidity remoteUids repo.tables events) :
    Triple (Looking I known selected folder.rawName remoteUids repo)
      (detectMissing env accountId d folder uidvalidity events uid)
      (fun events w => Looking I known selected folder.rawName remoteUids repo w ∧
        AllStaged accountId d.google folder uidvalidity remoteUids repo.tables events)
      (fun _ => I) := by
  obtain ⟨habsent,r,hr,hserver⟩ := mem_missingUids.mp huid
  obtain ⟨hk,-⟩ := Tables.isServerUid_iff.mp hserver
  let J := Looking I known selected folder.rawName remoteUids repo
  have hJ : Closed lookFootprint J := Looking.closed hI
  let Found := fun found : LocalMessage =>
    (r.messageId = found.messageId ∧ (d.google = true → ∃ m ∈ repo.tables.messages,
      m.id = found.messageId ∧ m.accountId = accountId ∧
        m.sourceItemKey = found.record.sourceItemKey)) ∨
    (d.google = false ∧ ¬ repo.tables.HasMessage found.messageId)
  have hquiet : ∀ {α : Type} {p : App α}, Within lookFootprint p →
      Triple J p (fun _ => J) (fun _ => I) := fun hp =>
    (hp J hJ).consequence (fun _ hw => hw) (fun _ _ hw => hw) fun _ _ hw => hw.1
  refine Triple.seq (Triple.read (Q := fun v w => J w ∧ v.session.knownMessages = known)
    fun w hw => ⟨hw,hw.2.1.1⟩) fun v => Triple.assume fun hv => ?_
  rw [hv]
  refine Triple.seq (Q := fun found w => J w ∧ ∀ m ∈ found, Found m) ?_ fun found =>
    Triple.assume fun hfound => ?_
  · split
    · next entry hentry =>
      refine Triple.ret fun w hw => ⟨hw,fun m hm => ?_⟩
      cases hm
      rcases hknown _ entry hentry with ⟨hrows,hmessage⟩ | hgone
      · exact .inl ⟨hrows r hr hk,hmessage⟩
      · exact .inr hgone
    · refine Triple.seq (queryRepo_rule (Q := fun row w => J w ∧
        row = repo.tables.getMessageByUid accountId folder.id uidvalidity uid) (fun w hw => ?_)
        fun w _ hw _ => (hJ.ticked w hw).1) fun row => Triple.ret fun w hw => ⟨hw.1,fun m hm => ?_⟩
      · exact ⟨hJ.ticked w hw,by rw [hw.2.2.1]⟩
      · obtain ⟨⟨message,s⟩,hrow,rfl⟩ := Option.map_eq_some_iff.mp hm
        rw [hw.2] at hrow
        obtain ⟨hid,hmem,haccount⟩ := getLocalMessage_found repo.valid hrow hr hk
        exact .inl ⟨hid,fun _ => ⟨message,hmem,rfl,haccount,rfl⟩⟩
  · split
    · exact Triple.ret fun w hw => ⟨hw,hevents⟩
    · next found =>
      refine (hquiet ?_).seq fun candidates => (hquiet Within.nowIso).seq fun now =>
        Triple.ret fun w hw => ⟨hw,?_⟩
      · unfold moveCandidates
        split
        · exact .ret _
        · exact Within.queryRepo
      · intro item hitem
        rcases List.mem_append.mp hitem with hitem | hitem
        · exact hevents item hitem
        · rw [List.mem_singleton.mp hitem]
          exact ⟨stateEvent_staged repo.valid hr hk habsent (hfound found rfl),r,hr,hk⟩

/-- Between two writes of the events of a folder. -/
def Restating (I : World → Prop) (accountId : String) (google : Bool) (folder : Folder)
    (uidvalidity : Nat) (known : List ((Nat × Nat × Nat) × LocalMessage))
    (selected : List (Nat × Nat)) (remoteUids : List Nat) (events : List MoveStateEvent)
    (w : World) : Prop :=
  I w ∧ w.session.Remembers known selected ∧
    (KnownRows google accountId known w.db.tables ∧ ∀ item ∈ events,
      Staged accountId google folder uidvalidity remoteUids w.db.tables item) ∧
    ∃ t, .answer t (.uids folder.rawName remoteUids) ∈ w.log

section
variable {google : Bool} {remoteUids : List Nat} {events : List MoveStateEvent}

theorem Restating.closed (hI : Closed lookFootprint I) : Closed lookFootprint
    (Restating I accountId google folder uidvalidity known selected remoteUids events) :=
  hI.and <| (Closed.ofScan (φ := SyncSession.Remembers known selected)
    fun _ _ hs h => h.sameScan hs).and <|
    (Closed.ofDb (φ := fun db => KnownRows google accountId known db.tables ∧ ∀ item ∈ events,
      Staged accountId google folder uidvalidity remoteUids db.tables item) fun _ h => h).and <|
    Closed.ofLog (φ := fun log => ∃ t, .answer t (.uids folder.rawName remoteUids) ∈ log)
      fun _ e ⟨t,ht⟩ => ⟨t,List.mem_cons_of_mem e ht⟩

/-- A write for one UID leaves the other staged events as good as they were. -/
theorem Restating.wrote (hI : DetectKeeps google folder uidvalidity I) {w : World} {op : WriteOp}
    {db : Repository} {uid : Nat}
    (hw : Restating I accountId google folder uidvalidity known selected remoteUids events w)
    (hop : detectFootprint.op op) (happly : op.apply w.db = .ok db) (huid : uid ∉ remoteUids)
    (heffect : RowEffect google w.db.tables db.tables (folder.id,uidvalidity,uid)) :
    Restating I accountId google folder uidvalidity known selected remoteUids events
      (w.written op db) := by
  obtain ⟨hI',hsession,⟨hknown,hstaged⟩,t,hanswer⟩ := hw
  refine ⟨hI.write w op db uid hI' hop happly heffect ⟨t,remoteUids,hanswer,huid⟩,?_,?_,?_⟩
  · rwa [World.written_session]
  · rw [World.written_db]
    refine ⟨hknown.effect w.db.valid db.valid heffect,fun item hitem => ?_⟩
    obtain ⟨hfolder,hremoves,hplace,habsent,hrow⟩ := hstaged item hitem
    exact ⟨hfolder,hremoves,hplace,habsent,hrow.effect w.db.valid db.valid heffect⟩
  · refine ⟨t,?_⟩
    unfold World.written
    split
    · exact List.mem_cons_of_mem _ hanswer
    · exact List.mem_cons_of_mem _ (List.mem_cons_of_mem _ hanswer)

theorem writeStateEvent_rule (hI : DetectKeeps google folder uidvalidity I)
    {item : MoveStateEvent} (hitem : item ∈ events) :
    Triple (Restating I accountId google folder uidvalidity known selected remoteUids events)
      (writeStateEvent env accountId item)
      (fun _ => Restating I accountId google folder uidvalidity known selected remoteUids events)
      (fun _ => I) := by
  let J := Restating I accountId google folder uidvalidity known selected remoteUids events
  have hJ : Closed lookFootprint J := Restating.closed hI.closed
  have hraised : ∀ (w : World) (e : Error), J w → e.isLocal = true → I w.ticked :=
    fun w _ hw _ => (hJ.ticked w hw).1
  have hupdate : ∀ state movedTo, Triple J
      (writeRepo env (.updateRemoteState item.messageId state movedTo (some item.folderId)))
      (fun _ => J) (fun _ => I) := by
    intro state movedTo
    refine writeRepo_rule (fun w db hw happly => ?_) hraised
    have hstaged := hw.2.2.1.2 item hitem
    refine Restating.wrote hI (hJ.ticked w hw) trivial happly hstaged.absent ?_
    rw [hstaged.folderId] at happly
    exact updateRemoteState_effect happly hstaged.row.rows
  unfold writeStateEvent
  split
  · next hremove =>
    refine Triple.seq (queryRepo_rule (Q := fun rows w => J w ∧
      rows = w.db.tables.listMessageMemberships accountId item.event.sourceItemKey)
      (fun w hw => ⟨hJ.ticked w hw,rfl⟩) hraised) fun rows => ?_
    refine writeRepo_rule (fun w db hw happly => ?_) fun w e hw he => hraised w e hw.1 he
    have hstaged := hw.1.2.2.1.2 item hitem
    have hgoogle : google = true := by rw [← hstaged.removes,hremove]
    obtain ⟨m,hm,hid,rfl,hkey⟩ := hstaged.row.message hgoogle
    refine Restating.wrote hI (hJ.ticked w hw.1) trivial happly hstaged.absent ?_
    have happly : w.db.replaceMessageMemberships m.id
        (((w.db.tables.listMessageMemberships m.accountId m.sourceItemKey).filter
          fun r => r.membership.folderId ≠ folder.id).map fun r => r.membership.toRecord) =
        .ok db := by
      rw [hid,hkey,← hstaged.folderId,← hw.2]
      exact happly
    rw [hgoogle]
    exact removeMembership_effect hm happly (hid ▸ hstaged.row.rows)
  · next hremove =>
    split
    · next candidate _ =>
      refine Triple.seq (writeRepo_rule (Q := fun _ => J) (fun w db hw happly => ?_) hraised)
        fun _ => hupdate _ _
      have hstaged := hw.2.2.1.2 item hitem
      have hgoogle : google = false := by
        rw [← hstaged.removes]
        simpa using hremove
      refine Restating.wrote hI (hJ.ticked w hw) trivial happly hstaged.absent ?_
      rw [hgoogle]
      exact mergeDuplicateMessage_effect happly
    · exact hupdate _ _

theorem commitStateEvents_rule (hI : DetectKeeps google folder uidvalidity I) {repo : Repository}
    (hknown : KnownRows google accountId known repo.tables)
    (hevents : AllStaged accountId google folder uidvalidity remoteUids repo.tables events) :
    Triple (Looking I known selected folder.rawName remoteUids repo)
      (commitStateEvents env accountId events)
      (fun _ w => I w ∧ w.session.Remembers known selected ∧
        KnownRows google accountId known w.db.tables) (fun _ => I) := by
  let J := Looking I known selected folder.rawName remoteUids repo
  have hJ : Closed lookFootprint J := Looking.closed hI.closed
  have hquiet : ∀ {α : Type} {p : App α}, Within lookFootprint p →
      Triple J p (fun _ => J) (fun _ => I) := fun hp =>
    (hp J hJ).consequence (fun _ hw => hw) (fun _ _ hw => hw) fun _ _ hw => hw.1
  let K := Restating I accountId google folder uidvalidity known selected remoteUids events
  have hK : Closed lookFootprint K := Restating.closed hI.closed
  unfold commitStateEvents
  split
  · exact Triple.ret fun w hw => ⟨hw.1,hw.2.1,by rw [hw.2.2.1]; exact hknown⟩
  · refine Triple.seq (Triple.loop (I := J) _ fun item hitem => ?_) fun _ =>
      (hquiet (Within.loop _ fun item _ => appendStateSnapshot_within item)).seq fun _ =>
      (hquiet (Within.flushAndSync trivial)).seq fun _ => (hquiet Within.beginBatch).seq fun _ => ?_
    · obtain ⟨hstaged,hrow⟩ := hevents item hitem
      refine appendManifest_rule (fun w last hw _ => ?_) fun w _ hw _ => (hJ.ticked w hw).1
      obtain ⟨hI',hsession,hdb,t,hanswer⟩ := hJ.ticked w hw
      refine ⟨hI.event w.ticked item.event last hI' hstaged.place.1 hstaged.place.2
        ⟨t,remoteUids,hanswer,hstaged.absent⟩ ?_,hsession,hdb,t,List.mem_cons_of_mem _ hanswer⟩
      rw [hdb]
      exact hrow
    · have hstart : ∀ w, J w → K w := by
        rintro w ⟨hI',hsession,hdb,hanswer⟩
        refine ⟨hI',hsession,?_,hanswer⟩
        rw [hdb]
        exact ⟨hknown,fun item hitem => (hevents item hitem).1⟩
      refine Triple.seq ((Triple.loop (I := K) _ fun item hitem =>
        writeStateEvent_rule hI hitem).weaken_pre hstart) fun _ => ?_
      exact (Within.commitBatch K hK).consequence (fun _ hw => hw)
        (fun _ w hw => ⟨hw.1,hw.2.1,hw.2.2.1.1⟩) fun _ _ hw => hw.1

end

/-- The generation of a folder the pass works with: the one of this run's SELECT, or
else the one in the database. -/
def generation (selected : List (Nat × Nat)) (folder : Folder) : Nat :=
  (selected.lookup folder.id).getD (folder.uidvalidity.getD 0)

theorem listExistingUids_closed {J : World → Prop} (hJ : Closed lookFootprint J)
    (folderRawName : String) : Triple J (listExistingUids env folderRawName)
      (fun uids w => J w ∧ ∃ t, .answer t (.uids folderRawName uids) ∈ w.log) (fun _ => J) := by
  refine Triple.seq (Within.imapCommand_past hJ trivial) fun t => ?_
  refine Triple.seq (emit_rule (Q := fun _ w => J w ∧
    .answer t (.uids folderRawName (env.mailbox t folderRawName)) ∈ w.log) ?_) fun _ =>
      Triple.ret fun w hw => ⟨hw.1,t,hw.2⟩
  exact fun w hw => ⟨hJ.logged w _ trivial hw.2 hw.1,List.mem_cons_self⟩

theorem detectFolder_rule (hI : DetectKeeps d.google folder (generation selected folder) I) :
    Triple (fun w => I w ∧ w.session.Remembers known selected ∧
        KnownRows d.google accountId known w.db.tables)
      (detectFolder env accountId d folder)
      (fun _ w => I w ∧ w.session.Remembers known selected ∧
        KnownRows d.google accountId known w.db.tables) (fun _ => I) := by
  let J := fun w : World => I w ∧ w.session.Remembers known selected ∧
    KnownRows d.google accountId known w.db.tables
  have hJ : Closed lookFootprint J :=
    hI.closed.and <| (Closed.ofScan (φ := SyncSession.Remembers known selected)
      fun _ _ hs h => h.sameScan hs).and <|
      Closed.ofDb (φ := fun db => KnownRows d.google accountId known db.tables) fun _ h => h
  refine Triple.seq (Triple.read (Q := fun v w => J w ∧ v.session.selected = selected)
    fun w hw => ⟨hw,hw.2.1.2⟩) fun v => Triple.assume fun hv => ?_
  dsimp only
  rw [hv]
  refine Triple.seq (outcome_rule (R := fun answer w => J w ∧ ∀ uids, answer = .ok uids →
    ∃ t, .answer t (.uids folder.rawName uids) ∈ w.log) ?_) fun answer => ?_
  · refine (listExistingUids_closed hJ folder.rawName).consequence (fun _ hw => hw) ?_ ?_
    · rintro uids w ⟨hw,hanswer⟩
      refine ⟨hw,fun uids' h => ?_⟩
      cases h
      exact hanswer
    · exact fun e w hw => ⟨hw,fun uids h => by cases h⟩
  · split
    · split
      · exact Triple.ret fun w hw => hw.1
      · exact Triple.raise fun w hw => hw.1.1
    · next remoteUids =>
      -- from here on the database is the one the missing UIDs were read from
      rintro w ⟨hw,hanswer⟩
      have hlook : Looking I known selected folder.rawName remoteUids w.db w :=
        ⟨hw.1,hw.2.1,rfl,hanswer remoteUids rfl⟩
      refine Triple.seq (queryRepo_rule (P := Looking I known selected folder.rawName remoteUids
        w.db) (Q := fun missing v => Looking I known selected folder.rawName remoteUids w.db v ∧
          missing = missingUids accountId w.db.tables folder.id (generation selected folder)
            remoteUids) ?_ ?_) (fun missing => Triple.assume fun hmissing => ?_) w hlook
      · exact fun v hv => ⟨(Looking.closed hI.closed).ticked v hv,by rw [hv.2.2.1]; rfl⟩
      · exact fun v _ hv _ => (Looking.closed hI.closed).ticked v hv |>.1
      · refine Triple.seq ((Triple.accumulate (I := fun events v =>
          Looking I known selected folder.rawName remoteUids w.db v ∧
            AllStaged accountId d.google folder (generation selected folder) remoteUids
              w.db.tables events) missing (fun events uid huid => Triple.assume fun hevents =>
                detectMissing_rule hI.closed hw.2.2 (hmissing ▸ huid) hevents) []).weaken_pre
          fun v hv => ⟨hv,by simp [AllStaged]⟩) fun events => Triple.assume fun hevents => ?_
        exact commitStateEvents_rule hI hw.2.2 hevents

end

end MailDock
