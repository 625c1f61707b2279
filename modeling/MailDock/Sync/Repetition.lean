import MailDock.App.Calm
import MailDock.Sync.Retention

/-!
# Synchronising again

A second synchronisation against a server that has not changed should find
nothing to do.  The detection pass compares the UIDs of all membership rows with
the server's, also of rows that already say `deleted`, `moved` or `unknown`; so a
database is at rest only when no such row is left in a folder it looks at.

## Main definitions

- `Server`, `Env.Serves` — a server that does not change, and an environment that shows it
- `Tables.Keeps` — the rows of one database are the rows of another
- `Quiet` — the manifest events of a run that finds no change
- `AtRest` — the databases a synchronisation leaves as they are
-/

namespace MailDock

open Hoare Relational

/-- What an unchanged server shows of its folders. -/
structure Server where
  uidvalidity : String → Nat
  mailbox : String → List Nat
  message : String → Nat → RemoteMessageRef

/-- Every folder, message and membership of `t` is still in `t'`, the membership with
the same remote state. -/
structure Tables.Keeps (t t' : Tables) : Prop where
  folder : ∀ f ∈ t.folders, ∃ f' ∈ t'.folders, f'.id = f.id ∧ f'.accountId = f.accountId ∧
    f'.rawName = f.rawName
  message : ∀ m ∈ t.messages, ∃ m' ∈ t'.messages, m'.id = m.id ∧ m'.accountId = m.accountId ∧
    m'.sourceItemKey = m.sourceItemKey
  membership : ∀ r ∈ t.memberships, ∃ r' ∈ t'.memberships, r'.messageId = r.messageId ∧
    r'.folderId = r.folderId ∧ r'.remoteState = r.remoteState ∧
    r'.movedToFolderId = r.movedToFolderId

namespace Tables.Keeps

theorem refl (t : Tables) : t.Keeps t where
  folder f hf := ⟨f,hf,rfl,rfl,rfl⟩
  message m hm := ⟨m,hm,rfl,rfl,rfl⟩
  membership r hr := ⟨r,hr,rfl,rfl,rfl,rfl⟩

theorem trans {t₁ t₂ t₃ : Tables} (h : t₁.Keeps t₂) (h' : t₂.Keeps t₃) : t₁.Keeps t₃ where
  folder f hf := by
    obtain ⟨f₂,hf₂,hid,haccount,hname⟩ := h.folder f hf
    obtain ⟨f₃,hf₃,hid',haccount',hname'⟩ := h'.folder f₂ hf₂
    exact ⟨f₃,hf₃,hid'.trans hid,haccount'.trans haccount,hname'.trans hname⟩
  message m hm := by
    obtain ⟨m₂,hm₂,hid,haccount,hkey⟩ := h.message m hm
    obtain ⟨m₃,hm₃,hid',haccount',hkey'⟩ := h'.message m₂ hm₂
    exact ⟨m₃,hm₃,hid'.trans hid,haccount'.trans haccount,hkey'.trans hkey⟩
  membership r hr := by
    obtain ⟨r₂,hr₂,hid,hfolder,hstate,hmoved⟩ := h.membership r hr
    obtain ⟨r₃,hr₃,hid',hfolder',hstate',hmoved'⟩ := h'.membership r₂ hr₂
    exact ⟨r₃,hr₃,hid'.trans hid,hfolder'.trans hfolder,hstate'.trans hstate,
      hmoved'.trans hmoved⟩

theorem sameRows {repo repo' : Repository} {op : WriteOp} (hop : op.keepsRows = true)
    (happly : op.apply repo = .ok repo') : repo.tables.Keeps repo'.tables where
  folder _ hf := WriteOp.apply_folder happly hf
  message m hm := by
    obtain ⟨m',hm',hcore⟩ := (WriteOp.apply_sameRows hop happly).symm.message hm
    exact ⟨m',hm',Message.core_eq hcore⟩
  membership r hr := by
    obtain ⟨r',hr',hcore⟩ := (WriteOp.apply_sameRows hop happly).symm.membership hr
    obtain ⟨hid,hfolder,-,hstate,hmoved⟩ := Membership.core_eq hcore
    exact ⟨r',hr',hid,hfolder,hstate,hmoved⟩

/-- A fetched message keeps the rows when its own row, if there is one, is as the
fetch writes it. -/
theorem added {start repo repo' : Repository} {record : MessageRecord}
    {contents : Option MessageContents} {id : Nat} (h : start.tables.Keeps repo.tables)
    (hadd : repo.addMessage record contents = .ok (id,repo'))
    (hrow : ∀ m ∈ start.tables.messages, m.accountId = record.accountId →
      m.sourceItemKey = record.sourceItemKey → ∀ r ∈ start.tables.memberships,
      r.messageId = m.id → r.folderId = record.folderId →
      r.remoteState = record.remoteState ∧ r.movedToFolderId = record.movedToFolderId) :
    start.tables.Keeps repo'.tables where
  folder f hf := by
    obtain ⟨f',hf',hsame⟩ := h.folder f hf
    exact ⟨f',(Repository.addMessage_spec hadd).folders ▸ hf',hsame⟩
  message m hm := by
    obtain ⟨m₁,hm₁,hid,haccount,hkey⟩ := h.message m hm
    obtain ⟨m₂,hm₂,hid',haccount',hkey'⟩ := Repository.addMessage_keeps_message hadd hm₁
    exact ⟨m₂,hm₂,hid'.trans hid,haccount'.trans haccount,hkey'.trans hkey⟩
  membership r hr := by
    obtain ⟨r',hr',hid,hfolder,hstate,hmoved⟩ := h.membership r hr
    cases hisOf : r'.isOf id record.folderId with
    | false => exact ⟨r',(Repository.addMessage_rows hadd).mpr (.inl ⟨hr',hisOf⟩),hid,hfolder,
        hstate,hmoved⟩
    | true =>
      -- the row is written anew; it belongs to the message with the record's key
      obtain ⟨hrid,hrfolder⟩ := Membership.isOf_iff.mp hisOf
      obtain ⟨m,hm,hmid⟩ := start.valid.membershipMessage r hr
      obtain ⟨m₁,hm₁,hid₁,haccount₁,hkey₁⟩ := h.message m hm
      obtain ⟨m₂,hm₂,hid₂,haccount₂,hkey₂⟩ := Repository.addMessage_keeps_message hadd hm₁
      obtain ⟨m₃,hm₃,hid₃,haccount₃,hkey₃⟩ := Repository.addMessage_message hadd
      have hsame : m₂ = m₃ := repo'.valid.message_eq hm₂ hm₃
        (by rw [hid₂,hid₁,hmid,hid₃,← hrid,hid])
      obtain ⟨hpresent,hnowhere⟩ := hrow m hm (by rw [← haccount₁,← haccount₂,hsame,haccount₃])
        (by rw [← hkey₁,← hkey₂,hsame,hkey₃]) r hr hmid.symm (hfolder ▸ hrfolder)
      refine ⟨record.toMembership id,(Repository.addMessage_rows hadd).mpr (.inr rfl),?_,?_,
        hpresent.symm,hnowhere.symm⟩
      · exact hrid.symm.trans hid
      · exact hrfolder.symm.trans hfolder

end Tables.Keeps

/-! Events of a run that changes nothing. -/

/-- The snapshot names every folder that the message is in. -/
def MembershipSnapshotEvent.Covers (t : Tables) (e : MembershipSnapshotEvent) : Prop :=
  ∀ m ∈ t.messages, m.accountId = e.accountId → m.sourceItemKey = e.sourceItemKey →
    ∀ r ∈ t.memberships, r.messageId = m.id → ∀ f ∈ t.folders, f.id = r.folderId →
    ∃ entry ∈ e.memberships, entry.folderRawName = f.rawName

/-- Fetches, cursors and snapshots without a removal; no state event and no identity link. -/
def Quiet (t : Tables) : ManifestEvent → Prop
  | .fetch _ | .fetchSkipped _ | .checkpoint _ | .folderSnapshot _ => True
  | .membershipSnapshot e => e.Covers t
  | _ => False

theorem MembershipSnapshotEvent.Covers.mono {t t' : Tables} {e : MembershipSnapshotEvent}
    (h : e.Covers t') (hk : t.Keeps t') : e.Covers t := by
  intro m hm haccount hkey r hr hid f hf hfid
  obtain ⟨m',hm',hmid,haccount',hkey'⟩ := hk.message m hm
  obtain ⟨r',hr',hrid,hfolder,-⟩ := hk.membership r hr
  obtain ⟨f',hf',hfid',-,hname⟩ := hk.folder f hf
  obtain ⟨entry,hentry,hentryName⟩ := h m' hm' (haccount'.trans haccount) (hkey'.trans hkey) r' hr'
    (by rw [hrid,hid,hmid]) f' hf' (by rw [hfid',hfid,hfolder])
  exact ⟨entry,hentry,hentryName.trans hname⟩

theorem Quiet.mono {t t' : Tables} {e : ManifestEvent} (h : Quiet t' e) (hk : t.Keeps t') :
    Quiet t e := by
  cases e with
  | membershipSnapshot s => exact MembershipSnapshotEvent.Covers.mono h hk
  | _ => exact h

/-! Snapshots without a removal. -/

section
variable {env : Env} {accountId : String} {I : World → Prop}

end

/-! Databases at rest. -/

section
variable (env : Env) (server : Server) (accountId : String) (options : SyncOptions)

/-- The generations under which the detection pass may look at a folder: the server's,
and the one in the database when the SELECT of the folder can fail. -/
def Compared (folder : Folder) (uidvalidity : Nat) : Prop :=
  uidvalidity = server.uidvalidity folder.rawName ∨
    (uidvalidity = folder.uidvalidity.getD 0 ∧ ∃ t, env.fetchFault t ≠ none)

/-- A failure that the next run tries again. -/
def SyncFailure.Retried (folder : Folder) (failure : SyncFailure) : Prop :=
  failure.accountId = accountId ∧ failure.folderId = folder.id ∧
    failure.uidvalidity = server.uidvalidity folder.rawName ∧ failure.attemptCount < 10 ∧
    (failure.errorClass = .oversize && (server.message folder.rawName failure.uid).sizeBytes.any
      (options.maxMessageBytes < ·)) = false

/-- The next run may fetch this UID of the folder. -/
def Tables.Due (t : Tables) (folder : Folder) (uid : Nat) : Prop :=
  folder.uidvalidity ≠ some (server.uidvalidity folder.rawName) ∨ folder.lastSeenUid < uid ∨
    (folder.initialSyncCompleted = false ∧ ∀ next ∈ folder.backfillNextUid, uid ≤ next) ∨
    ∃ failure ∈ t.failures, failure.uid = uid ∧
      failure.Retried server accountId options folder

/-- Fetching the UID adds no identity link and leaves the row of its message in the
folder, if there is one, as it is. -/
def Tables.Refetchable (t : Tables) (folder : Folder) (uid : Nat) : Prop :=
  ((server.message folder.rawName uid).gmailMsgid = none ∨
    options.maxMessageBytes < (server.message folder.rawName uid).sizeBytes.getD 0) ∧
  ∀ m ∈ t.messages, m.accountId = accountId →
    remoteSourceItemKey folder.rawName (server.uidvalidity folder.rawName) uid
      (server.message folder.rawName uid).gmailMsgid = .ok m.sourceItemKey →
    ∀ r ∈ t.memberships, r.messageId = m.id → r.folderId = folder.id →
      r.remoteState = .present ∧ r.movedToFolderId = none

/-- Every local UID of a target is still on the server, whatever its row says, and
what the next run may fetch is refetchable. -/
structure AtRest (t : Tables) : Prop where
  listed : ∀ folder ∈ t.listSyncTargets accountId, ∀ v, Compared env server folder v →
    ∀ uid ∈ t.localUids accountId folder.id v, uid ∈ server.mailbox folder.rawName
  refetchable : ∀ folder ∈ t.listSyncTargets accountId, ∀ uid ∈ server.mailbox folder.rawName,
    t.Due server accountId options folder uid →
    t.Refetchable server accountId options folder uid

/-- The tables in the course of a run that started on a database at rest. -/
structure Steady (start : Repository) (t : Tables) : Prop where
  keeps : start.tables.Keeps t
  listed : ∀ folder ∈ start.tables.listSyncTargets accountId, ∀ v, Compared env server folder v →
    ∀ uid, ∀ r ∈ t.memberships, t.isServerUid accountId folder.id v uid r = true →
    uid ∈ server.mailbox folder.rawName
  failures : ∀ folder ∈ start.tables.listSyncTargets accountId, ∀ failure ∈ t.failures,
    failure.Retried server accountId options folder →
    failure.uid ∈ server.mailbox folder.rawName →
    start.tables.Refetchable server accountId options folder failure.uid

end

section
variable {env : Env} {server : Server} {accountId : String} {options : SyncOptions}
  {start repo repo' : Repository}

theorem mem_localUids {t : Tables} {folderId uidvalidity uid : Nat} :
    uid ∈ t.localUids accountId folderId uidvalidity ↔
      ∃ r ∈ t.memberships, t.isServerUid accountId folderId uidvalidity uid r = true := by
  have hmissing : uid ∈ missingUids accountId t folderId uidvalidity [] ↔ _ := mem_missingUids
  simpa [missingUids] using hmissing

theorem AtRest.steady (h : AtRest env server accountId options start.tables) :
    Steady env server accountId options start start.tables where
  keeps := .refl _
  listed folder hf v hv uid r hr huid := h.listed folder hf v hv uid (mem_localUids.mpr ⟨r,hr,huid⟩)
  failures folder hf failure hfailure hretried huid :=
    h.refetchable folder hf failure.uid huid
      (.inr (.inr (.inr ⟨failure,hfailure,rfl,hretried⟩)))

/-- A write that leaves the rows alone; a failure is recorded for what was fetched only. -/
theorem Steady.sameRows {op : WriteOp}
    (h : Steady env server accountId options start repo.tables) (hop : op.keepsRows = true)
    (happly : op.apply repo = .ok repo')
    (hrecorded : ∀ folder ∈ start.tables.listSyncTargets accountId, ∀ uid errorClass message,
      op = .recordFailure accountId folder.id (server.uidvalidity folder.rawName) uid errorClass
        message → start.tables.Refetchable server accountId options folder uid) :
    Steady env server accountId options start repo'.tables where
  keeps := h.keeps.trans (.sameRows hop happly)
  listed := by
    intro folder hf v hv uid r' hr' huid
    have hsame := WriteOp.apply_sameRows hop happly
    obtain ⟨hk,m',hm',hid',haccount'⟩ := Tables.isServerUid_iff.mp huid
    obtain ⟨r,hr,hcore⟩ := hsame.membership hr'
    obtain ⟨m,hm,hmcore⟩ := hsame.message hm'
    obtain ⟨hid,-,hserver,-⟩ := Membership.core_eq hcore
    obtain ⟨hmid,haccount,-⟩ := Message.core_eq hmcore
    exact h.listed folder hf v hv uid r hr (Tables.isServerUid_iff.mpr
      ⟨hserver.trans hk,m,hm,by rw [hmid,hid',hid],haccount.trans haccount'⟩)
  failures := by
    intro folder hf failure hfailure hretried huid
    rcases WriteOp.apply_failure happly hfailure with hold | ⟨errorClass,message,hnew⟩
    · exact h.failures folder hf failure hold hretried huid
    · obtain ⟨haccount,hfolder,hvalidity,-⟩ := hretried
      rw [haccount,hfolder,hvalidity] at hnew
      exact hrecorded folder hf failure.uid errorClass message hnew

/-- The references that a run over a database at rest may process. -/
def Admitted (server : Server) (accountId : String) (options : SyncOptions) (start : Repository)
    (folder : Folder) (ref : RemoteMessageRef) : Prop :=
  ref = server.message folder.rawName ref.uid ∧ ref.uid ∈ server.mailbox folder.rawName ∧
    start.tables.Refetchable server accountId options folder ref.uid

theorem targets_id {t : Tables} (ht : t.Valid) {f g : Folder} (hf : f ∈ t.listSyncTargets accountId)
    (hg : g ∈ t.listSyncTargets accountId) (hid : f.id = g.id) : f = g := by
  simp only [Tables.listSyncTargets,Tables.listFolders,List.mem_filter,List.mem_insertionSort]
    at hf hg
  exact ht.folderId.eq_of_key hf.1.1 hg.1.1 (congrArg some hid) rfl

theorem Steady.added {folder : Folder} {ref : RemoteMessageRef} {record : MessageRecord}
    {contents : Option MessageContents} {id : Nat}
    (h : Steady env server accountId options start repo.tables)
    (hf : folder ∈ start.tables.listSyncTargets accountId)
    (href : Admitted server accountId options start folder ref)
    (hrecord : RecordOf accountId folder (server.uidvalidity folder.rawName) ref record)
    (hadd : repo.addMessage record contents = .ok (id,repo')) :
    Steady env server accountId options start repo'.tables where
  keeps := by
    refine h.keeps.added hadd fun m hm haccount hkey r hr hid hfolder => ?_
    have hmsgid : ref.gmailMsgid = (server.message folder.rawName ref.uid).gmailMsgid :=
      congrArg RemoteMessageRef.gmailMsgid href.1
    have hkey' := hrecord.key
    rw [hmsgid,← hkey] at hkey'
    rw [hrecord.present.1,hrecord.present.2]
    exact href.2.2.2 m hm (haccount.trans hrecord.account) hkey' r hr hid
      (hfolder.trans hrecord.folderId)
  listed := by
    intro g hg v hv uid r hr huid
    obtain ⟨hk,m',hm',hid',haccount'⟩ := Tables.isServerUid_iff.mp huid
    rcases (Repository.addMessage_rows hadd).mp hr with ⟨hr,-⟩ | rfl
    · -- the message of an old row has kept its account
      obtain ⟨m,hm,hid⟩ := repo.valid.membershipMessage r hr
      obtain ⟨n,hn,hnid,hnaccount,-⟩ := Repository.addMessage_keeps_message hadd hm
      have hsame : n = m' := repo'.valid.message_eq hn hm' (by rw [hnid,hid,hid'])
      exact h.listed g hg v hv uid r hr (Tables.isServerUid_iff.mpr
        ⟨hk,m,hm,hid,by rw [← hnaccount,hsame,haccount']⟩)
    · obtain ⟨hfolder,-,hu⟩ := Tables.serverUid_eq_some.mp hk
      have hgf : folder = g := targets_id start.valid hf hg (hrecord.folderId.symm.trans hfolder)
      have huid : some ref.uid = some uid := hrecord.serverUid.1.symm.trans hu
      cases huid
      exact hgf ▸ href.2.1
  failures := by
    intro g hg failure hfailure
    rw [(Repository.addMessage_spec hadd).failures] at hfailure
    exact h.failures g hg failure hfailure

end

/-! A run over a database at rest. -/

/-- Steps that say nothing new about a message. -/
def restFootprint : Footprint where
  note _ := True
  event e := ∀ t, Quiet t e
  op o := o.keepsRows = true ∧ ∀ accountId folderId uidvalidity uid errorClass message,
    o ≠ .recordFailure accountId folderId uidvalidity uid errorClass message

/-- Folders are selected under the server's generation, and those that were visited were
selected, unless a SELECT can fail. -/
def SelectedAs (env : Env) (server : Server) (accountId : String) (start : Repository)
    (done : List Folder) (selected : List (Nat × Nat)) : Prop :=
  (∀ f ∈ start.tables.listSyncTargets accountId, ∀ v,
    selected.lookup f.id = some v → v = server.uidvalidity f.rawName) ∧
  ∀ f ∈ done, selected.lookup f.id ≠ none ∨ ∃ t, env.fetchFault t ≠ none

/-- The world in the course of the run, after the folders `done` were visited. -/
structure Repeating (env : Env) (server : Server) (accountId : String) (options : SyncOptions)
    (start : Repository) (before : List ManifestEvent) (done : List Folder) (w : World) :
    Prop where
  db : Steady env server accountId options start w.db.tables
  committed : Steady env server accountId options start w.committed.tables
  manifest : ∃ new, w.manifest = before ++ new ∧ ∀ e ∈ new, Quiet start.tables e
  selected : SelectedAs env server accountId start done w.session.selected

section
variable {env : Env} {server : Server} {accountId : String} {options : SyncOptions}
  {start : Repository} {before : List ManifestEvent} {done : List Folder}

theorem Repeating.written {w : World}
    (h : Repeating env server accountId options start before done w) (op : WriteOp) {db : Repository}
    (hdb : Steady env server accountId options start db.tables) :
    Repeating env server accountId options start before done (w.written op db) := by
  unfold World.written
  split
  · exact ⟨hdb,h.committed,h.manifest,h.selected⟩
  · exact ⟨hdb,hdb,h.manifest,h.selected⟩

theorem Repeating.appended {w : World}
    (h : Repeating env server accountId options start before done w) {e : ManifestEvent}
    (he : Quiet start.tables e) (last : Option Nat) :
    Repeating env server accountId options start before done (w.appended e last) := by
  obtain ⟨new,hnew,hquiet⟩ := h.manifest
  refine ⟨h.db,h.committed,⟨new ++ [e],?_,?_⟩,h.selected⟩
  · show w.manifest ++ [e] = before ++ (new ++ [e])
    rw [hnew,List.append_assoc]
  · intro e' he'
    rcases List.mem_append.mp he' with he' | he'
    · exact hquiet e' he'
    · rw [List.mem_singleton.mp he']
      exact he

theorem Repeating.closed :
    Closed restFootprint (Repeating env server accountId options start before done) where
  ticked _ h := ⟨h.db,h.committed,h.manifest,h.selected⟩
  logged _ _ _ _ h := ⟨h.db,h.committed,h.manifest,h.selected⟩
  saved _ _ _ _ h := ⟨h.db,h.committed,h.manifest,h.selected⟩
  appended _ _ last he h := h.appended (he _) last
  began _ _ h := ⟨h.db,h.committed,h.manifest,h.selected⟩
  written w op db hop happly h := h.written op (h.db.sameRows hop.1 happly
    fun _ _ _ _ _ heq => (hop.2 _ _ _ _ _ _ heq).elim)
  committed _ h := ⟨h.db,h.db,h.manifest,h.selected⟩
  counted w s hs h := ⟨h.db,h.committed,h.manifest,by rw [hs.1]; exact h.selected⟩

/-- A pending item of a reference that the run may process. -/
def Harmless (server : Server) (accountId : String) (options : SyncOptions) (start : Repository)
    (folder : Folder) (item : PendingItem) : Prop :=
  ∃ ref, Admitted server accountId options start folder ref ∧ item.uid = ref.uid ∧
    (∀ f ∈ item.failure, f.1 = server.uidvalidity folder.rawName ∧
      item.failureFolderId = some folder.id) ∧
    (∀ r ∈ item.record,
      RecordOf accountId folder (server.uidvalidity folder.rawName) ref r) ∧
    (∀ e ∈ item.event, ∀ t, Quiet t e) ∧
    ∀ e, item.event = some (.fetch e) → ref.gmailMsgid = none

/-- While a folder is scanned. -/
def RepeatScan (env : Env) (server : Server) (accountId : String) (options : SyncOptions)
    (start : Repository) (before : List ManifestEvent) (done : List Folder) (folder : Folder)
    (w : World) : Prop :=
  Repeating env server accountId options start before done w ∧
    ∀ item ∈ w.session.pending, Harmless server accountId options start folder item

variable {folder : Folder}

theorem RepeatScan.closed :
    Closed restFootprint (RepeatScan env server accountId options start before done folder) :=
  Repeating.closed.and (Closed.ofPending (φ := fun pending _ => ∀ item ∈ pending,
    Harmless server accountId options start folder item) fun _ _ _ h => h)

theorem RepeatScan.within {α : Type} {p : App α} (hp : Within restFootprint p) :
    Triple (RepeatScan env server accountId options start before done folder) p
      (fun _ => RepeatScan env server accountId options start before done folder)
      (fun _ => RepeatScan env server accountId options start before done folder) :=
  hp _ RepeatScan.closed

theorem SelectedAs.nil : SelectedAs env server accountId start [] [] := by
  simp [SelectedAs]

theorem SelectedAs.cons {selected : List (Nat × Nat)}
    (h : SelectedAs env server accountId start done selected)
    (hf : folder ∈ start.tables.listSyncTargets accountId) :
    SelectedAs env server accountId start (folder :: done)
      ((folder.id,server.uidvalidity folder.rawName) :: selected) := by
  refine ⟨fun f hf' v hv => ?_,fun f hf' => ?_⟩
  · rw [List.lookup_cons] at hv
    by_cases hid : f.id = folder.id
    · rw [hid,beq_self_eq_true] at hv
      rw [targets_id start.valid hf' hf hid]
      exact (Option.some.inj hv).symm
    · rw [beq_eq_false_iff_ne.mpr hid] at hv
      exact h.1 f hf' v hv
  · rw [List.lookup_cons]
    by_cases hid : f.id = folder.id
    · rw [hid,beq_self_eq_true]
      exact .inl (Option.some_ne_none _)
    · rw [beq_eq_false_iff_ne.mpr hid]
      rcases List.mem_cons.mp hf' with rfl | hf'
      · exact (hid rfl).elim
      · exact h.2 f hf'

/-- A folder whose SELECT failed counts as visited too. -/
theorem Repeating.failed {w : World} {t : Nat}
    (h : Repeating env server accountId options start before done w)
    (hfault : env.fetchFault t ≠ none) :
    Repeating env server accountId options start before (folder :: done) w :=
  ⟨h.db,h.committed,h.manifest,h.selected.1,fun _ _ => .inr ⟨t,hfault⟩⟩

end

/-! Sequences of runs. -/

/-- The step returned its result and was not cancelled. -/
def SyncStep.completed (step : SyncStep) (w : World) : Bool :=
  match (step.program w.reopened).1 with
  | .ok result => !result.cancelled
  | .error _ => false

end MailDock
