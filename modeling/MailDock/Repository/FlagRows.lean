import MailDock.Repository.Rows

/-!
# The rows a flag refresh works on

A refresh of flags reads a membership together with the date of its message, and compares the
MODSEQ of the folder.  Here is what each write does to these rows, and to the two columns of a
folder that belong to the server's numbering.

## Main definitions

- `FlagRow`, `Tables.ShowsFlags` — a membership as the refresh reads it
- `Tables.KeepsWindow` — a write that moves no membership into a window

## Main results

- `WriteOp.apply_shows` — where the rows after a write come from
- `WriteOp.apply_numbering` — where the MODSEQ of a folder after a write comes from
-/

namespace MailDock

open Relational

/-- A folder at the server. -/
structure Mailbox where
  accountId : String
  rawName : String
deriving DecidableEq, Repr

def Folder.mailbox (f : Folder) : Mailbox := ⟨f.accountId,f.rawName⟩

theorem Folder.mailbox_of {f : Folder} {accountId : String} (h : f.accountId = accountId) :
    f.mailbox = ⟨accountId,f.rawName⟩ := by
  rw [mailbox,h]

/-- A membership with a server UID, with the account and the date of its message. -/
structure FlagRow where
  accountId : String
  folderId : Nat
  uidvalidity : Nat
  uid : Nat
  internalDate : String
  imapFlags : Option String
deriving DecidableEq, Repr

/-- The row of a membership `r` of the message `m`. -/
def flagRow (m : Message) (r : Membership) : Option FlagRow :=
  match r.uidvalidity,r.uid,m.envelope.internalDate with
  | some v,some u,some d => some ⟨m.accountId,r.folderId,v,u,d,r.imapFlags⟩
  | _,_,_ => none

theorem flagRow_eq_some {m : Message} {r : Membership} {row : FlagRow} :
    flagRow m r = some row ↔ m.accountId = row.accountId ∧ r.folderId = row.folderId ∧
      r.uidvalidity = some row.uidvalidity ∧ r.uid = some row.uid ∧
      m.envelope.internalDate = some row.internalDate ∧ r.imapFlags = row.imapFlags := by
  unfold flagRow
  constructor
  · intro h
    split at h
    · next hv hu hd =>
      cases h
      exact ⟨rfl,rfl,hv,hu,hd,rfl⟩
    · cases h
  · rintro ⟨haccount,hfolder,hv,hu,hd,hflags⟩
    rw [hv,hu,hd,haccount,hfolder,hflags]

/-- The columns of a message and a membership that make the row. -/
theorem flagRow_congr {m n : Message} {r s : Membership} (haccount : m.accountId = n.accountId)
    (hdate : m.envelope.internalDate = n.envelope.internalDate) (hfolder : r.folderId = s.folderId)
    (hserver : r.uidvalidity = s.uidvalidity ∧ r.uid = s.uid) (hflags : r.imapFlags = s.imapFlags) :
    flagRow m r = flagRow n s := by
  unfold flagRow
  rw [haccount,hdate,hfolder,hserver.1,hserver.2,hflags]

/-- The date `new` is not moved from before a window that begins between `low` and `high` into
it. -/
def KeepsDate (low high : String) (old new : Option String) : Prop :=
  ∀ d ∈ new, low ≤ d → ∃ d' ∈ old, d ≤ d' ∨ high ≤ d'

namespace Tables

def ShowsFlags (t : Tables) (row : FlagRow) : Prop :=
  ∃ r ∈ t.memberships, ∃ m ∈ t.messages, m.id = r.messageId ∧ flagRow m r = some row

instance instDecidableShowsFlags (t : Tables) (row : FlagRow) : Decidable (t.ShowsFlags row) :=
  inferInstanceAs (Decidable (∃ r ∈ t.memberships, _))

variable {t t' : Tables} {row : FlagRow}

/-- Two tables with the same rows show the same, flags apart. -/
theorem SameRows.shows (h : t.SameRows t') (hrow : t'.ShowsFlags row) :
    ∃ flags, t.ShowsFlags { row with imapFlags := flags } := by
  obtain ⟨r',hr',m',hm',hid,hrow⟩ := hrow
  obtain ⟨r,hr,hcore⟩ := h.membership hr'
  obtain ⟨m,hm,hmcore⟩ := h.message hm'
  obtain ⟨haccount,hfolder,hv,hu,hd,-⟩ := flagRow_eq_some.mp hrow
  simp only [Membership.core,Membership.mk.injEq] at hcore
  simp only [Message.core,Message.mk.injEq] at hmcore
  refine ⟨r.imapFlags,r,hr,m,hm,by simp [hmcore,hcore,hid],flagRow_eq_some.mpr ?_⟩
  exact ⟨by simp [hmcore,haccount],by simp [hcore,hfolder],by simp [hcore,hv],by simp [hcore,hu],
    by simp [hmcore,hd],rfl⟩

/-- A server UID of a folder has one row. -/
theorem Valid.shows_eq (ht : t.Valid) {row' : FlagRow} (hrow : t.ShowsFlags row)
    (hrow' : t.ShowsFlags row')
    (hfolder : row.folderId = row'.folderId) (hv : row.uidvalidity = row'.uidvalidity)
    (hu : row.uid = row'.uid) : row = row' := by
  obtain ⟨r,hr,m,hm,hid,hrow⟩ := hrow
  obtain ⟨r',hr',m',hm',hid',hrow'⟩ := hrow'
  obtain ⟨-,hf,hrv,hru,-⟩ := flagRow_eq_some.mp hrow
  obtain ⟨-,hf',hrv',hru',-⟩ := flagRow_eq_some.mp hrow'
  have hk : r.serverUid = some (row.folderId,row.uidvalidity,row.uid) :=
    serverUid_eq_some.mpr ⟨hf,hrv,hru⟩
  have hk' : r'.serverUid = some (row.folderId,row.uidvalidity,row.uid) :=
    serverUid_eq_some.mpr ⟨hf'.trans hfolder.symm,by rw [hrv',hv],by rw [hru',hu]⟩
  have hsame := ht.membershipUid.eq_of_key hr hr' hk hk'
  have hmessage : m = m' := ht.message_eq hm hm' (by rw [hid,hid',hsame])
  rw [hsame,hmessage] at hrow
  exact Option.some.inj (hrow.symm.trans hrow')

/-- The table shows the row, perhaps under a later date or one from `high` on. -/
def ShowsLater (high : String) (t : Tables) (row : FlagRow) : Prop :=
  ∃ d, (row.internalDate ≤ d ∨ high ≤ d) ∧ t.ShowsFlags { row with internalDate := d }

theorem ShowsFlags.showsLater {high : String} (h : t.ShowsFlags row) : t.ShowsLater high row :=
  ⟨row.internalDate,.inl (String.le_refl _),h⟩

/-- The write moves no membership into a window that begins between `low` and `high`. -/
def KeepsWindow (low high : String) (t : Tables) : WriteOp → Prop
  | .addMessage record _ => ∀ m ∈ t.messages,
      m.hasKey record.accountId record.sourceItemKey = true →
      (∃ r ∈ t.memberships, r.messageId = m.id ∧ r.folderId ≠ record.folderId) →
      KeepsDate low high m.envelope.internalDate record.envelope.internalDate
  | .mergeDuplicateMessage _ canonicalId duplicateId => ∀ m ∈ t.messages, ∀ n ∈ t.messages,
      m.id = canonicalId → n.id = duplicateId →
      KeepsDate low high n.envelope.internalDate m.envelope.internalDate
  | _ => True

instance instDecidableKeepsWindow (low high : String) (t : Tables) (op : WriteOp) :
    Decidable (t.KeepsWindow low high op) := by
  cases op with
  | addMessage record contents =>
    unfold KeepsWindow KeepsDate
    infer_instance
  | mergeDuplicateMessage accountId canonicalId duplicateId =>
    exact decidable_of_iff (∀ m ∈ t.messages.filter fun m : Message => m.id == canonicalId,
        ∀ n ∈ t.messages.filter fun n : Message => n.id == duplicateId,
          ∀ d ∈ m.envelope.internalDate, low ≤ d →
            ∃ d' ∈ n.envelope.internalDate, d ≤ d' ∨ high ≤ d') (by
      simp only [KeepsWindow,KeepsDate,List.mem_filter,beq_iff_eq,and_imp]
      exact ⟨fun h m hm n hn hmid hnid => h m hm hmid n hn hnid,
        fun h m hm hmid n hn hnid => h m hm n hn hmid hnid⟩)
  | _ => exact isTrue trivial

end Tables

open Repository

section
variable {repo repo' : Repository} {row : FlagRow} {low high : String}

theorem addMessage_shows {record : MessageRecord} {contents : Option MessageContents} {id : Nat}
    (h : repo.addMessage record contents = .ok (id,repo'))
    (hdates : repo.tables.KeepsWindow low high (.addMessage record contents))
    (hin : low ≤ row.internalDate) (hrow : repo'.tables.ShowsFlags row) :
    repo.tables.ShowsLater high row ∨ (record.folderId = row.folderId ∧
      record.uidvalidity = some row.uidvalidity ∧ record.uid = some row.uid ∧
      record.imapFlags = row.imapFlags) := by
  obtain ⟨r,hr,m',hm',hid,hrow⟩ := hrow
  rcases (addMessage_rows h).mp hr with ⟨hr,hother⟩ | rfl
  · refine Or.inl ?_
    rw [(addMessage_spec h).messages,Tables.mem_upsertMessage] at hm'
    rcases hm' with ⟨hm',-⟩ | ⟨n,hn,hkey,rfl⟩ | ⟨-,rfl⟩
    · exact Tables.ShowsFlags.showsLater ⟨r,hr,m',hm',hid,hrow⟩
    · -- a membership of the message in another folder
      have hnid : id = n.id := by
        rw [(addMessage_spec h).id_eq,Tables.upsertedId,repo.valid.findMessage_eq hn hkey]
      have hrid : r.messageId = n.id := hid.symm
      have hfolder : r.folderId ≠ record.folderId := by
        intro hsame
        rw [Membership.isOf_iff.mpr ⟨hrid.trans hnid.symm,hsame⟩] at hother
        cases hother
      obtain ⟨haccount,hrf,hv,hu,hd,hflags⟩ := flagRow_eq_some.mp hrow
      obtain ⟨d,hdn,hle⟩ := hdates n hn hkey ⟨r,hr,hrid,hfolder⟩ _ hd hin
      exact ⟨d,hle,r,hr,n,hn,hid,flagRow_eq_some.mpr
        ⟨(Message.hasKey_iff.mp hkey).1.trans haccount,hrf,hv,hu,hdn,hflags⟩⟩
    · -- the next id has no membership yet
      obtain ⟨n,hn,hnid⟩ := repo.valid.membershipMessage r hr
      have hlt := repo.valid.messageNext n hn
      have hnext : repo.tables.nextMessageId = r.messageId := hid
      omega
  · obtain ⟨-,hfolder,hv,hu,-,hflags⟩ := flagRow_eq_some.mp hrow
    exact Or.inr ⟨hfolder,hv,hu,hflags⟩

theorem mergeDuplicateMessage_shows {accountId : String} {c d : Nat}
    (h : repo.mergeDuplicateMessage accountId c d = .ok repo')
    (hdates : repo.tables.KeepsWindow low high (.mergeDuplicateMessage accountId c d))
    (hin : low ≤ row.internalDate) (hrow : repo'.tables.ShowsFlags row) :
    repo.tables.ShowsLater high row := by
  by_cases hcd : c = d
  · simp only [mergeDuplicateMessage,if_pos hcd] at h
    cases h
    exact hrow.showsLater
  · obtain ⟨canonical,hc,duplicate,hd,rfl,rfl,hcaccount,hdaccount,hmerged⟩ :=
      mergeDuplicateMessage_spec hcd h
    obtain ⟨r',hr',m',hm',hid,hrow⟩ := hrow
    obtain ⟨r,hr,heq,hmoved⟩ := hmerged.origin r' hr'
    obtain ⟨m,hm,hmid,haccount,henvelope⟩ := mergeDuplicateMessage_message h hm'
    simp only [Membership.mk.injEq] at heq
    obtain ⟨hra,hrf,hrv,hru,hrd,hflags⟩ := flagRow_eq_some.mp hrow
    have hold : ∀ n : Message, ∀ d, n.accountId = row.accountId →
        d ∈ n.envelope.internalDate → flagRow n r = some { row with internalDate := d } :=
      fun n d hna hnd => flagRow_eq_some.mpr ⟨hna,heq.2.1.symm.trans hrf,
        heq.2.2.2.1.symm.trans hrv,heq.2.2.1.symm.trans hru,hnd,by rw [← hflags]; simp [heq]⟩
    rcases hmoved with hsame | ⟨hrd',hrc⟩
    · exact ⟨row.internalDate,.inl (String.le_refl _),r,hr,m,hm,by rw [← hmid,hid,hsame],
        hold m _ (haccount.symm.trans hra) (henvelope ▸ hrd)⟩
    · -- the membership was the duplicate's
      have hmc : m = canonical := repo.valid.message_eq hm hc (by rw [← hmid,hid,hrc])
      obtain ⟨d,hdd,hle⟩ := hdates canonical hc duplicate hd rfl rfl row.internalDate
        (by rw [← hmc,← henvelope]; exact hrd) hin
      refine ⟨d,hle,r,hr,duplicate,hd,hrd'.symm,hold duplicate d ?_ hdd⟩
      rw [hdaccount,← hcaccount,← hmc,← haccount,hra]

theorem Tables.ShowsFlags.of_same {t t' : Tables} (hrow : t'.ShowsFlags row)
    (hmessages : ∀ m' ∈ t'.messages, ∃ m ∈ t.messages, m.id = m'.id ∧
      m.accountId = m'.accountId ∧ m.envelope = m'.envelope)
    (hrows : ∀ r' ∈ t'.memberships, ∃ r ∈ t.memberships, r.messageId = r'.messageId ∧
      r.folderId = r'.folderId ∧ r.uidvalidity = r'.uidvalidity ∧ r.uid = r'.uid ∧
      r.imapFlags = r'.imapFlags) : t.ShowsFlags row := by
  obtain ⟨r',hr',m',hm',hid,hrow⟩ := hrow
  obtain ⟨m,hm,hmid,haccount,henvelope⟩ := hmessages m' hm'
  obtain ⟨r,hr,hrid,hfolder,hv,hu,hflags⟩ := hrows r' hr'
  refine ⟨r,hr,m,hm,by rw [hmid,hid,hrid],?_⟩
  rw [← hrow]
  exact flagRow_congr haccount (by rw [henvelope]) hfolder ⟨hv,hu⟩ hflags

/-- The row is the one of this server UID. -/
def FlagRow.IsAt (row : FlagRow) (accountId : String) (folderId uidvalidity uid : Nat) : Prop :=
  row.accountId = accountId ∧ row.folderId = folderId ∧ row.uidvalidity = uidvalidity ∧
    row.uid = uid

theorem updateFlags_shows {accountId : String} {folderId uidvalidity uid : Nat}
    {flags : Option String} {seenAt : String}
    (h : (WriteOp.updateFlags accountId folderId uidvalidity uid flags seenAt).apply repo =
      .ok repo')
    (hrow : repo'.tables.ShowsFlags row) :
    (¬ row.IsAt accountId folderId uidvalidity uid ∧ repo.tables.ShowsFlags row) ∨
      (row.IsAt accountId folderId uidvalidity uid ∧ row.imapFlags = flags) := by
  rw [WriteOp.apply,exec_eq_ok] at h
  obtain ⟨r',hr',m,hm,hid,hrow⟩ := hrow
  rw [h] at hr' hm
  obtain ⟨haccount,hfolder,hv,hu,-,hflags⟩ := flagRow_eq_some.mp hrow
  rcases mem_update.mp hr' with ⟨hr,hother⟩ | ⟨r,hr,hserver,rfl⟩
  · refine Or.inl ⟨?_,r',hr,m,hm,hid,hrow⟩
    rintro ⟨rfl,rfl,rfl,rfl⟩
    have hmatch : repo.tables.isServerUid row.accountId row.folderId row.uidvalidity row.uid r' =
        true := by
      simp only [Tables.isServerUid,Bool.and_eq_true,beq_iff_eq,List.any_eq_true]
      exact ⟨⟨⟨hfolder,hv⟩,hu⟩,m,hm,hid,haccount⟩
    rw [hmatch] at hother
    cases hother
  · simp only [Tables.isServerUid,Bool.and_eq_true,beq_iff_eq,List.any_eq_true] at hserver
    obtain ⟨⟨⟨hf,hrv⟩,hru⟩,n,hn,hnid,hnaccount⟩ := hserver
    have hmn : m = n := repo.valid.message_eq hm hn (hid.trans hnid.symm)
    refine Or.inr ⟨⟨?_,?_,?_,?_⟩,hflags.symm⟩
    · rw [← haccount,hmn,hnaccount]
    · exact hfolder.symm.trans hf
    · exact Option.some.inj (hv.symm.trans hrv)
    · exact Option.some.inj (hu.symm.trans hru)

/-- The write gives the row its flags, or replaces the memberships of a message. -/
def WriteOp.BringsFlags (row : FlagRow) : WriteOp → Prop
  | .addMessage record _ => record.folderId = row.folderId ∧
      record.uidvalidity = some row.uidvalidity ∧ record.uid = some row.uid ∧
      record.imapFlags = row.imapFlags
  | .updateFlags accountId folderId uidvalidity uid flags _ =>
      row.IsAt accountId folderId uidvalidity uid ∧ row.imapFlags = flags
  | .replaceMessageMemberships .. => True
  | _ => False

/-- A row after a write was there before, perhaps under a later date, unless the write brings its
flags. -/
theorem WriteOp.apply_shows {op : WriteOp} (h : op.apply repo = .ok repo')
    (hdates : repo.tables.KeepsWindow low high op) (hin : low ≤ row.internalDate)
    (hrow : repo'.tables.ShowsFlags row) :
    repo.tables.ShowsLater high row ∨ op.BringsFlags row := by
  have hsame : (∀ m' ∈ repo'.tables.messages, ∃ m ∈ repo.tables.messages, m.id = m'.id ∧
      m.accountId = m'.accountId ∧ m.envelope = m'.envelope) →
      repo'.tables.memberships = repo.tables.memberships →
      repo.tables.ShowsLater high row ∨ op.BringsFlags row := by
    intro hmessages hmemberships
    refine Or.inl (hrow.of_same hmessages fun r' hr' => ?_).showsLater
    rw [hmemberships] at hr'
    exact ⟨r',hr',rfl,rfl,rfl,rfl,rfl⟩
  -- the statements that update columns of messages no refresh reads
  have hcolumns : ∀ (p : Message → Bool) (f : Message → Message),
      repo'.tables.messages = update p f repo.tables.messages →
      (∀ m, (f m).id = m.id ∧ (f m).accountId = m.accountId ∧ (f m).envelope = m.envelope) →
      ∀ m' ∈ repo'.tables.messages, ∃ m ∈ repo.tables.messages, m.id = m'.id ∧
        m.accountId = m'.accountId ∧ m.envelope = m'.envelope := by
    intro p f hmessages hf m' hm'
    rw [hmessages] at hm'
    rcases mem_update.mp hm' with ⟨hm,-⟩ | ⟨m,hm,-,rfl⟩
    · exact ⟨m',hm,rfl,rfl,rfl⟩
    · exact ⟨m,hm,(hf m).1.symm,(hf m).2.1.symm,(hf m).2.2.symm⟩
  have hrefl : repo'.tables.messages = repo.tables.messages → ∀ m' ∈ repo'.tables.messages,
      ∃ m ∈ repo.tables.messages, m.id = m'.id ∧ m.accountId = m'.accountId ∧
        m.envelope = m'.envelope :=
    fun heq m' hm' => ⟨m',heq ▸ hm',rfl,rfl,rfl⟩
  cases op with
  | addMessage record contents =>
    obtain ⟨id,hadd⟩ := WriteOp.apply_addMessage h
    exact addMessage_shows hadd hdates hin hrow
  | mergeDuplicateMessage accountId c d =>
    exact Or.inl (mergeDuplicateMessage_shows h hdates hin hrow)
  | replaceMessageMemberships messageId memberships => exact Or.inr trivial
  | addMessageIdentityAlias accountId key messageId kind =>
    obtain ⟨aliases,htables⟩ := addMessageIdentityAlias_frame h
    exact hsame (hrefl (by rw [htables])) (by rw [htables])
  | updateFlags accountId folderId uidvalidity uid flags seenAt =>
    exact (updateFlags_shows h hrow).imp (fun hold => hold.2.showsLater) id
  | updateRemoteState messageId state movedTo folderId =>
    rw [WriteOp.apply,exec_eq_ok] at h
    refine Or.inl (hrow.of_same (hrefl (by rw [h]; rfl)) fun r' hr' => ?_).showsLater
    rw [h] at hr'
    rcases mem_update.mp hr' with ⟨hr,-⟩ | ⟨r,hr,-,rfl⟩
    · exact ⟨r',hr,rfl,rfl,rfl,rfl,rfl⟩
    · exact ⟨r,hr,rfl,rfl,rfl,rfl,rfl⟩
  | touchFlagsSeenAt accountId folderId uidvalidity uids seenAt =>
    rw [WriteOp.apply,exec_eq_ok] at h
    refine Or.inl (hrow.of_same (hrefl (by rw [h]; rfl)) fun r' hr' => ?_).showsLater
    rw [h] at hr'
    rcases mem_update.mp hr' with ⟨hr,-⟩ | ⟨r,hr,-,rfl⟩
    · exact ⟨r',hr,rfl,rfl,rfl,rfl,rfl⟩
    · exact ⟨r,hr,rfl,rfl,rfl,rfl,rfl⟩
  | updateGmailLabels messageId labels =>
    rw [WriteOp.apply,exec_eq_ok] at h
    exact hsame (hcolumns (fun m => m.id == messageId)
      (fun m => { m with gmailLabels := some labels }) (by rw [h]; rfl)
      fun _ => ⟨rfl,rfl,rfl⟩) (by rw [h]; rfl)
  | setLocalState messageId state trashedAt =>
    rw [WriteOp.apply,exec_eq_ok] at h
    exact hsame (hcolumns (fun m => m.id == messageId)
      (fun m => { m with localState := state, trashedAt := trashedAt }) (by rw [h]; rfl)
      fun _ => ⟨rfl,rfl,rfl⟩) (by rw [h]; rfl)
  | updateMessageStorage messageId relativePath fileHash =>
    rw [WriteOp.apply,exec_eq_ok] at h
    exact hsame (hcolumns (fun m => m.id == messageId)
      (fun m => { m with relativePath := relativePath, fileHash := fileHash }) (by rw [h]; rfl)
      fun _ => ⟨rfl,rfl,rfl⟩) (by rw [h]; rfl)
  | recordFailure accountId folderId uidvalidity uid errorClass message =>
    rw [WriteOp.apply,exec_eq_ok] at h
    refine hsame (hrefl ?_) ?_ <;>
      rw [h,Tables.recordFailure] <;> split <;> rfl
  | _ =>
    rw [WriteOp.apply,exec_eq_ok] at h
    exact hsame (hrefl (by rw [h]; rfl)) (by rw [h]; rfl)

/-- A write that keeps the rows shows what was shown, unless it brings the flags. -/
theorem WriteOp.keepsRows_shows {op : WriteOp} (hop : op.keepsRows = true)
    (h : op.apply repo = .ok repo') (hrow : repo'.tables.ShowsFlags row) :
    repo.tables.ShowsFlags row ∨ op.BringsFlags row := by
  have hdates : repo.tables.KeepsWindow row.internalDate row.internalDate op := by
    cases op <;> trivial
  rcases apply_shows h hdates (String.le_refl _) hrow with ⟨d,-,hold⟩ | hnew
  · obtain ⟨flags,hsame⟩ := (apply_sameRows hop h).shows hrow
    have heq := repo.valid.shows_eq hold hsame rfl rfl rfl
    have hdate : d = row.internalDate := congrArg FlagRow.internalDate heq
    rw [hdate] at hold
    exact .inl hold
  · exact .inr hnew

/-- New cursors forget the MODSEQ of the folder, and of no other. -/
theorem initializeSyncCursors_numbering {folderId uidvalidity maxUid : Nat}
    (h : (WriteOp.initializeSyncCursors folderId uidvalidity maxUid).apply repo = .ok repo')
    {f' : Folder} (hf' : f' ∈ repo'.tables.folders) :
    ∃ f ∈ repo.tables.folders, f'.id = f.id ∧ f'.mailbox = f.mailbox ∧
      (f.id = folderId → f'.uidvalidity = some uidvalidity ∧ f'.highestModseq = none) ∧
      (f.id ≠ folderId → f' = f) := by
  rw [WriteOp.apply,exec_eq_ok] at h
  rw [h] at hf'
  rcases mem_update.mp hf' with ⟨hf,hother⟩ | ⟨f,hf,hid,rfl⟩
  · have hne : f'.id ≠ folderId := by simpa using hother
    exact ⟨f',hf,rfl,rfl,fun heq => (hne heq).elim,fun _ => rfl⟩
  · exact ⟨f,hf,rfl,rfl,fun _ => ⟨rfl,rfl⟩,fun hne => (hne (by simpa using hid)).elim⟩

/-- The UIDVALIDITY and the MODSEQ of a folder are those before the write, unless it sets them. -/
def WriteOp.Renumbers (op : WriteOp) (f f' : Folder) : Prop :=
  f'.id = f.id ∧ f'.mailbox = f.mailbox ∧
    ((f'.uidvalidity = f.uidvalidity ∧ f'.highestModseq = f.highestModseq) ∨
    (∃ value, op = .setHighestModseq f.id value ∧ f'.uidvalidity = f.uidvalidity ∧
      f'.highestModseq = value) ∨
    ∃ v maxUid, op = .initializeSyncCursors f.id v maxUid ∧ f'.uidvalidity = some v ∧
      f'.highestModseq = none)

theorem WriteOp.apply_numbering {op : WriteOp} (h : op.apply repo = .ok repo') {f' : Folder}
    (hf' : f' ∈ repo'.tables.folders) : ∃ f ∈ repo.tables.folders, op.Renumbers f f' := by
  have hsame : repo'.tables.folders = repo.tables.folders → ∃ f ∈ repo.tables.folders,
      op.Renumbers f f' :=
    fun heq => ⟨f',heq ▸ hf',rfl,rfl,.inl ⟨rfl,rfl⟩⟩
  cases op with
  | addMessage record contents =>
    obtain ⟨id,hadd⟩ := WriteOp.apply_addMessage h
    exact hsame (addMessage_spec hadd).folders
  | mergeDuplicateMessage accountId c d => exact hsame (mergeDuplicateMessage_frame h).2.1
  | replaceMessageMemberships messageId memberships =>
    exact hsame (by rw [replaceMessageMemberships_spec h])
  | addMessageIdentityAlias accountId key messageId kind =>
    obtain ⟨aliases,htables⟩ := addMessageIdentityAlias_frame h
    exact hsame (by rw [htables])
  | recordFailure accountId folderId uidvalidity uid errorClass message =>
    rw [WriteOp.apply,exec_eq_ok] at h
    refine hsame ?_
    rw [h]
    unfold Tables.recordFailure
    split <;> rfl
  | setHighestModseq folderId value =>
    rw [WriteOp.apply,exec_eq_ok] at h
    rw [h] at hf'
    rcases mem_update.mp hf' with ⟨hf,-⟩ | ⟨f,hf,hid,rfl⟩
    · exact ⟨f',hf,rfl,rfl,.inl ⟨rfl,rfl⟩⟩
    · obtain rfl : f.id = folderId := by simpa using hid
      exact ⟨f,hf,rfl,rfl,.inr (.inl ⟨value,rfl,rfl,rfl⟩)⟩
  | initializeSyncCursors folderId uidvalidity maxUid =>
    obtain ⟨f,hf,hid,hmailbox,hnew,hold⟩ := initializeSyncCursors_numbering h hf'
    refine ⟨f,hf,hid,hmailbox,?_⟩
    by_cases hsame : f.id = folderId
    · exact .inr (.inr ⟨uidvalidity,maxUid,by rw [hsame],hnew hsame⟩)
    · exact .inl (by rw [hold hsame]; exact ⟨rfl,rfl⟩)
  | updateSyncCursors folderId lastSeenUid backfillNextUid initialSyncCompleted =>
    rw [WriteOp.apply,exec_eq_ok] at h
    rw [h] at hf'
    rcases mem_update.mp hf' with ⟨hf,-⟩ | ⟨f,hf,-,rfl⟩
    · exact ⟨f',hf,rfl,rfl,.inl ⟨rfl,rfl⟩⟩
    · exact ⟨f,hf,rfl,rfl,.inl ⟨rfl,rfl⟩⟩
  | _ =>
    rw [WriteOp.apply,exec_eq_ok] at h
    exact hsame (by rw [h]; rfl)

end

end MailDock
