import MailDock.Sync.Durability

/-!
# Refreshing the folder list

`refresh_folders` writes every folder of a LIST response through `upsert_folder`.  A LIST response
knows no UIDVALIDITY, and `upsert_folder` overwrites every column its record has a key for.

## Main definitions

- `FolderRecord`, `Tables.upsertFolder` — the record and the upsert
- `refreshFolders` — the use case
- `Folder.NeedsInitialization` — the test by which `sync_folder` starts a folder afresh
-/

namespace MailDock

open Hoare Except Relational

/-- A folder of a LIST response. -/
structure RemoteFolder where
  rawName : String
  displayName : String
  uidvalidity : Option Nat := none
  delimiter : Option String := none
deriving DecidableEq, Repr

/-- The record `upsert_folder` takes; a field is `none` when the record has no such key. -/
structure FolderRecord where
  accountId : String
  rawName : String
  displayName : Option String := none
  uidvalidity : Option (Option Nat) := none
  delimiter : Option String := none
  lastSeenUid : Option Nat := none
  isSyncTarget : Option Bool := none
  lastSyncedAt : Option (Option String) := none
  backfillNextUid : Option (Option Nat) := none
  initialSyncCompleted : Option Bool := none
  highestModseq : Option (Option Nat) := none
deriving DecidableEq, Repr

namespace FolderRecord

def names (record : FolderRecord) (f : Folder) : Bool :=
  f.accountId == record.accountId && f.rawName == record.rawName

/-- The row that is inserted. -/
def row (record : FolderRecord) (id : Nat) : Folder where
  id := id
  accountId := record.accountId
  rawName := record.rawName
  displayName := record.displayName.getD record.rawName
  uidvalidity := record.uidvalidity.join
  lastSeenUid := record.lastSeenUid.getD 0
  isSyncTarget := record.isSyncTarget.getD false
  lastSyncedAt := record.lastSyncedAt.join
  backfillNextUid := record.backfillNextUid.join
  initialSyncCompleted := record.initialSyncCompleted.getD false
  highestModseq := record.highestModseq.join

/-- `ON CONFLICT … DO UPDATE SET`: of the three columns those the record has a key for. -/
def onConflict (record : FolderRecord) (f : Folder) : Folder :=
  { f with
    displayName := record.displayName.getD f.displayName
    uidvalidity := record.uidvalidity.getD f.uidvalidity
    lastSyncedAt := record.lastSyncedAt.getD f.lastSyncedAt }

end FolderRecord

def Tables.upsertFolder (record : FolderRecord) (t : Tables) : Tables :=
  if t.folders.any record.names then
    { t with folders := update record.names record.onConflict t.folders }
  else
    { t with
      folders := t.folders ++ [record.row t.nextFolderId], nextFolderId := t.nextFolderId + 1 }

def FolderRecord.snapshotEvent (accountId : String) (record : FolderRecord) (timestamp : String) :
    FolderSnapshotEvent where
  accountId := accountId
  folderRawName := record.rawName
  displayName := record.displayName.getD record.rawName
  uidvalidity := record.uidvalidity.join
  delimiter := record.delimiter
  isSyncTarget := record.isSyncTarget.getD false
  timestamp := timestamp

/-- `_previous_snapshot`: the last snapshot of a folder. -/
def previousFolderSnapshot (events : List ManifestEvent) (folderRawName : String) :
    Option FolderSnapshotEvent :=
  (events.filterMap fun
    | .folderSnapshot e => if e.folderRawName = folderRawName then some e else none
    | _ => none).getLast?

/-- `_matches_previous` with `_FOLDER_FIELDS`: all fields but the timestamp. -/
def FolderSnapshotEvent.matchesPrevious (e previous : FolderSnapshotEvent) : Bool :=
  { e with timestamp := previous.timestamp } == previous

structure FolderRefreshResult where
  newCount : Nat
  removedRawNames : List String
deriving DecidableEq, Repr

section
variable (env : Env)

def World.folderWritten (w : World) (db : Repository) : World :=
  if w.inBatch then { w with db := db }
  else { w with db := db, committed := db, log := .commit db :: w.log }

def upsertFolder (record : FolderRecord) : App Nat := do
  repoCall env
  let w ← get
  let db ← Prog.ofExcept (Repository.exec "upsert folder" (w.db.tables.upsertFolder record))
  set (w.folderWritten db)
  match db.tables.folders.find? record.names with
  | some f => pure f.id
  | none => throw ⟨.database,"Folder upsert did not return an id"⟩

def recordFolderSnapshot (accountId : String) (record : FolderRecord) : App Unit := do
  let now ← timestamp env
  let w ← get
  let event := record.snapshotEvent accountId now
  if (previousFolderSnapshot w.manifest record.rawName).any event.matchesPrevious then pure ()
  else
    appendManifest env (.folderSnapshot event)
    flushAndSync env

variable (remoteFolders : List RemoteFolder) (accountId : String) (recordsSnapshots : Bool)

def refreshRecord (existing : List Folder) (remote : RemoteFolder) : FolderRecord where
  accountId := accountId
  rawName := remote.rawName
  displayName := some remote.displayName
  uidvalidity := some remote.uidvalidity
  delimiter := remote.delimiter
  isSyncTarget := some
    (((existing.find? fun f => f.rawName == remote.rawName).map fun f => f.isSyncTarget).getD false)

/-- One round of the loop of `refresh_folders`. -/
def refreshFolder (existing : List Folder) (remote : RemoteFolder) : App Unit := do
  let record := refreshRecord accountId existing remote
  (if recordsSnapshots then recordFolderSnapshot env accountId record else pure () : App Unit)
  let _ ← upsertFolder env record
  pure ()

/-- `remoteFolders` is the answer to the LIST command of the run. -/
def refreshFolders : App FolderRefreshResult := do
  ensureImapAccount env accountId
  let existing ← queryRepo env fun t => t.listFolders accountId
  let _ ← imapCommand env .list
  remoteFolders.forM (refreshFolder env accountId recordsSnapshots existing)
  let known := existing.map fun f => f.rawName
  let listed := remoteFolders.map fun r => r.rawName
  pure ⟨remoteFolders.countP fun r => !known.contains r.rawName,
    known.filter fun name => !listed.contains name⟩

end

/-- The test by which `sync_folder` starts the cursors of a folder afresh. -/
def Folder.NeedsInitialization (f : Folder) (uidvalidity : Nat) : Prop :=
  f.uidvalidity ≠ some uidvalidity

instance (f : Folder) (uidvalidity : Nat) : Decidable (f.NeedsInitialization uidvalidity) :=
  inferInstanceAs (Decidable (f.uidvalidity ≠ some uidvalidity))

theorem openCursors_known {env : Env} {accountId : String} {folder : Folder} {uidvalidity : Nat}
    (h : ¬folder.NeedsInitialization uidvalidity) {next : Nat}
    (hnext : folder.backfillNextUid = some next) :
    openCursors env accountId folder uidvalidity =
      pure ⟨folder.lastSeenUid,next,folder.initialSyncCompleted⟩ := by
  rw [openCursors,if_neg (show ¬folder.uidvalidity ≠ some uidvalidity from h),hnext]

/-- A folder row before and after some of the listed folders have been written back. -/
structure Folder.RefreshedFrom (f : Folder) (listed : Bool) (f' : Folder) : Prop where
  id : f'.id = f.id
  accountId : f'.accountId = f.accountId
  rawName : f'.rawName = f.rawName
  lastSeenUid : f'.lastSeenUid = f.lastSeenUid
  backfillNextUid : f'.backfillNextUid = f.backfillNextUid
  initialSyncCompleted : f'.initialSyncCompleted = f.initialSyncCompleted
  isSyncTarget : f'.isSyncTarget = f.isSyncTarget
  highestModseq : f'.highestModseq = f.highestModseq
  uidvalidity : f'.uidvalidity = if listed then none else f.uidvalidity

namespace Folder.RefreshedFrom

theorem refl (f : Folder) : f.RefreshedFrom false f := ⟨rfl,rfl,rfl,rfl,rfl,rfl,rfl,rfl,rfl⟩

/-- The row is written back without a UIDVALIDITY. -/
theorem onConflict {f f' : Folder} {listed : Bool} (h : f.RefreshedFrom listed f')
    {record : FolderRecord} (hrecord : record.uidvalidity = some none) :
    f.RefreshedFrom true (record.onConflict f') :=
  ⟨h.id,h.accountId,h.rawName,h.lastSeenUid,h.backfillNextUid,h.initialSyncCompleted,
    h.isSyncTarget,h.highestModseq,by rw [FolderRecord.onConflict,hrecord]; rfl⟩

end Folder.RefreshedFrom

/-- Every row is still there after an upsert, the row of that name as the record updates it. -/
theorem Tables.mem_upsertFolder {t : Tables} {f : Folder} (hf : f ∈ t.folders)
    (record : FolderRecord) :
    (if record.names f then record.onConflict f else f) ∈ (t.upsertFolder record).folders := by
  by_cases hname : record.names f = true
  · have hany : t.folders.any record.names = true := List.any_eq_true.mpr ⟨f,hf,hname⟩
    rw [upsertFolder,if_pos hany,if_pos hname]
    exact mem_update.mpr (.inr ⟨f,hf,hname,rfl⟩)
  · rw [if_neg hname,upsertFolder]
    split
    · exact mem_update.mpr (.inl ⟨hf,by simpa using hname⟩)
    · exact List.mem_append_left _ hf

section
variable {env : Env} {P : World → Prop} {E : Error → World → Prop}

theorem World.folderWritten_db (w : World) (db : Repository) : (w.folderWritten db).db = db := by
  rw [folderWritten]
  split <;> rfl

theorem upsertFolder_rule {record : FolderRecord} {Q : Nat → World → Prop}
    (hQ : ∀ w db id, P w → db.tables = w.db.tables.upsertFolder record →
      Q id (w.ticked.folderWritten db))
    (hE : ∀ w e, E e w) : Triple P (upsertFolder env record) Q E := by
  refine (repoCall_rule (Q := fun _ w' => ∃ w, P w ∧ w' = w.ticked)
    (fun w hw => ⟨w,hw,rfl⟩) fun w e _ _ => hE _ e).seq fun _ => ?_
  rintro _ ⟨w,hw,rfl⟩
  show Holds Q E (Prog.bind (Prog.ofExcept (Repository.exec "upsert folder" _)) _ w.ticked)
  unfold Prog.bind Prog.ofExcept
  cases h : Repository.exec "upsert folder" (w.ticked.db.tables.upsertFolder record) with
  | error e => exact hE _ e
  | ok db =>
    have hdb := Repository.exec_eq_ok.mp h
    show Holds Q E ((match db.tables.folders.find? record.names with
      | some f => pure f.id
      | none => throw ⟨.database,"Folder upsert did not return an id"⟩ : App Nat)
        (w.ticked.folderWritten db))
    cases db.tables.folders.find? record.names with
    | some f => exact hQ w db f.id hw hdb
    | none => exact hE _ _

/-- Recording a snapshot leaves the database alone. -/
theorem recordFolderSnapshot_db {accountId : String} {record : FolderRecord}
    {φ : Repository → Prop} :
    Triple (fun w : World => φ w.db) (recordFolderSnapshot env accountId record)
      (fun _ w => φ w.db) fun _ _ => True := by
  refine (timestamp_rule (Q := fun _ w => φ w.db) fun w s hw => hw).seq fun now => ?_
  refine (Triple.read (Q := fun _ (w : World) => φ w.db) fun w hw => hw).seq fun w => ?_
  dsimp only
  split
  · exact Triple.ret fun _ hw => hw
  · refine (appendManifest_rule (Q := fun _ w => φ w.db) ?_ ?_).seq fun _ => flushAndSync_rule ?_ ?_
    · exact fun w last hw _ => hw
    · exact fun w e _ _ => trivial
    · exact fun w hw => hw
    · exact fun w e _ _ => trivial

end

section
variable {env : Env} {remoteFolders : List RemoteFolder} {accountId : String}
  {recordsSnapshots : Bool}

/-- Where a row stands when some of the listed folders are done. -/
def RowAfter (f : Folder) (done : List RemoteFolder) (w : World) : Prop :=
  ∃ f' ∈ w.db.tables.folders, f.RefreshedFrom (done.any fun r => r.rawName == f.rawName) f'

/-- One round of the loop writes the row of its folder back and keeps the others. -/
theorem refreshFolder_row {f : Folder} (hf : f.accountId = accountId) {existing : List Folder}
    {done : List RemoteFolder} {remote : RemoteFolder} (hremote : remote.uidvalidity = none) :
    Triple (RowAfter f done) (refreshFolder env accountId recordsSnapshots existing remote)
      (fun _ => RowAfter f (done ++ [remote])) fun _ _ => True := by
  have hsnapshot : Triple (RowAfter f done)
      (if recordsSnapshots then
        recordFolderSnapshot env accountId (refreshRecord accountId existing remote)
      else pure () : App Unit) (fun _ => RowAfter f done) fun _ _ => True := by
    split
    · exact recordFolderSnapshot_db (φ := fun db => ∃ f' ∈ db.tables.folders,
        f.RefreshedFrom (done.any fun r => r.rawName == f.rawName) f')
    · exact Triple.ret fun _ hw => hw
  have hupsert : Triple (RowAfter f done)
      (upsertFolder env (refreshRecord accountId existing remote))
      (fun _ => RowAfter f (done ++ [remote])) fun _ _ => True := by
    refine upsertFolder_rule ?_ fun _ _ => trivial
    rintro w db id ⟨f',hf',hfrom⟩ hdb
    have hmem := Tables.mem_upsertFolder hf' (refreshRecord accountId existing remote)
    rw [RowAfter,World.folderWritten_db,hdb]
    have hnames : (refreshRecord accountId existing remote).names f' =
        (remote.rawName == f.rawName) := by
      rw [FolderRecord.names,refreshRecord,hfrom.accountId,hf,hfrom.rawName,beq_self_eq_true,
        Bool.true_and,Bool.beq_comm]
    rw [hnames] at hmem
    refine ⟨_,hmem,?_⟩
    cases hname : remote.rawName == f.rawName with
    | true =>
      have hrecord : (refreshRecord accountId existing remote).uidvalidity = some none := by
        rw [refreshRecord,hremote]
      simpa [hname] using hfrom.onConflict hrecord
    | false => simpa [hname] using hfrom
  exact hsnapshot.seq fun _ => hupsert.seq fun _ =>
    Triple.ret (Q := fun _ => RowAfter f (done ++ [remote])) fun _ hw => hw

theorem refreshFolders_row {w w' : World} {result : FolderRefreshResult}
    (hrun : refreshFolders env remoteFolders accountId recordsSnapshots w = (.ok result,w'))
    (hlist : ∀ r ∈ remoteFolders, r.uidvalidity = none) {f : Folder}
    (hf : f ∈ w.db.tables.folders) (haccount : f.accountId = accountId) :
    RowAfter f remoteFolders w' := by
  have hspec : Triple (fun w => f ∈ w.db.tables.folders)
      (refreshFolders env remoteFolders accountId recordsSnapshots)
      (fun _ => RowAfter f remoteFolders) fun _ _ => True := by
    have hquiet : Triple (fun w : World => f ∈ w.db.tables.folders)
        (ensureImapAccount env accountId) (fun _ w => f ∈ w.db.tables.folders)
        fun _ _ => True := by
      refine (ensureImapAccount_within (fun w => f ∈ w.db.tables.folders)
        (Closed.ofDb (F := {}) (φ := fun db => f ∈ db.tables.folders) fun _ h => h)).consequence
          (fun _ hw => hw) (fun _ _ hw => hw) fun _ _ _ => trivial
    refine hquiet.seq fun _ => ?_
    refine (queryRepo_rule (Q := fun _ w => f ∈ w.db.tables.folders) (fun w hw => hw)
      fun _ _ _ _ => trivial).seq fun existing => ?_
    refine (imapCommand_rule (Q := fun _ w => f ∈ w.db.tables.folders) (fun w hw => hw)
      fun _ _ _ => trivial).seq fun _ => ?_
    have hloop : Triple (RowAfter f [])
        (remoteFolders.forM (refreshFolder env accountId recordsSnapshots existing))
        (fun _ => RowAfter f ([] ++ remoteFolders)) fun _ _ => True :=
      Triple.loop_prefix remoteFolders
        (fun done r hr => refreshFolder_row haccount (hlist r hr)) []
    exact (hloop.weaken_pre fun w hw => ⟨f,hw,.refl f⟩).seq fun _ => Triple.ret fun _ hw => hw
  have hrow := hspec w hf
  rw [hrun] at hrow
  exact hrow

end

/-- What a refresh leaves alone: the sync progress of every stored folder that is listed again,
and with it the UIDVALIDITY by which the next sync recognises the folder. -/
def KeepsProgress (accountId : String) (remoteFolders : List RemoteFolder) (w w' : World) :
    Prop :=
  ∀ f ∈ w.db.tables.folders, f.accountId = accountId →
    f.rawName ∈ remoteFolders.map (fun r => r.rawName) →
    ∃ f' ∈ w'.db.tables.folders, f'.id = f.id ∧ f'.uidvalidity = f.uidvalidity ∧
      f'.lastSeenUid = f.lastSeenUid ∧ f'.backfillNextUid = f.backfillNextUid ∧
      f'.initialSyncCompleted = f.initialSyncCompleted ∧ f'.isSyncTarget = f.isSyncTarget ∧
      f'.highestModseq = f.highestModseq ∧
      ∀ uidvalidity ∈ f.uidvalidity, ¬f'.NeedsInitialization uidvalidity

/-- A refresh keeps the sync progress exactly when no stored folder that is listed again has a
UIDVALIDITY; all columns but that one are kept in any case. -/
theorem refreshFolders_keepsProgress_iff (env : Env) (remoteFolders : List RemoteFolder)
    (accountId : String) (recordsSnapshots : Bool) (w w' : World) (result : FolderRefreshResult)
    (hlist : ∀ r ∈ remoteFolders, r.uidvalidity = none)
    (hrun : refreshFolders env remoteFolders accountId recordsSnapshots w = (.ok result,w')) :
    KeepsProgress accountId remoteFolders w w' ↔
      ∀ f ∈ w.db.tables.folders, f.accountId = accountId →
        f.rawName ∈ remoteFolders.map (fun r => r.rawName) → f.uidvalidity = none := by
  constructor
  · intro hkeeps f hf haccount hlisted
    obtain ⟨kept,hkept,hid,huidvalidity,-⟩ := hkeeps f hf haccount hlisted
    obtain ⟨f',hf',hfrom⟩ := refreshFolders_row hrun hlist hf haccount
    have hsame : kept = f' := w'.db.valid.folderId.eq_of_key hkept hf' (congrArg some hid)
      (congrArg some hfrom.id)
    rw [← huidvalidity,hsame,hfrom.uidvalidity,if_pos]
    obtain ⟨r,hr,hname⟩ := List.mem_map.mp hlisted
    exact List.any_eq_true.mpr ⟨r,hr,beq_iff_eq.mpr hname⟩
  · intro hnone f hf haccount hlisted
    obtain ⟨f',hf',hfrom⟩ := refreshFolders_row hrun hlist hf haccount
    have huidvalidity : f'.uidvalidity = f.uidvalidity := by
      rw [hfrom.uidvalidity,hnone f hf haccount hlisted]
      split <;> rfl
    refine ⟨f',hf',hfrom.id,huidvalidity,hfrom.lastSeenUid,hfrom.backfillNextUid,
      hfrom.initialSyncCompleted,hfrom.isSyncTarget,hfrom.highestModseq,?_⟩
    intro uidvalidity hu hneeds
    exact hneeds (huidvalidity.trans hu)

/-- An inbox whose history has been fetched down to UID 2. -/
def inboxRow (uidvalidity : Option Nat) : Folder :=
  { id := 1, accountId := "a", rawName := "INBOX", displayName := "INBOX",
    uidvalidity := uidvalidity, lastSeenUid := 3, isSyncTarget := true,
    backfillNextUid := some 1, highestModseq := some 9 }

def unseenInbox : World :=
  World.opened ⟨{ accounts := [{ id := "a" }], folders := [inboxRow none], nextFolderId := 2 },
    by decide⟩ [] none [] 0

def inboxInProgress : World :=
  World.opened ⟨{ accounts := [{ id := "a" }], folders := [inboxRow (some 7)], nextFolderId := 2 },
    by decide⟩ [] none [] 0

def inboxServer : Env := steadyServer 7 fun _ => [1,2,3]

def inboxListed : List RemoteFolder := [⟨"INBOX","Inbox",none,some "/"⟩]

def refreshInbox (w : World) : Except Error FolderRefreshResult × World :=
  refreshFolders inboxServer inboxListed "a" true w

theorem refreshFolders_keepsProgress_unseen :
    KeepsProgress "a" inboxListed unseenInbox (refreshInbox unseenInbox).2 := by
  refine (refreshFolders_keepsProgress_iff inboxServer inboxListed "a" true unseenInbox _ ⟨0,[]⟩
    ?_ ?_).mpr ?_
  · intro r hr
    rw [List.mem_singleton.mp hr]
  · rfl
  · intro f hf _ _
    rw [List.mem_singleton.mp hf]
    rfl

/-- The inbox loses its UIDVALIDITY, and the next sync starts it afresh from UID 3. -/
theorem refresh_forgets_uidvalidity :
    (refreshInbox inboxInProgress).1 = .ok ⟨0,[]⟩ ∧
    (refreshInbox inboxInProgress).2.db.tables.folders =
      [{ inboxRow none with displayName := "Inbox" }] ∧
    ¬KeepsProgress "a" inboxListed inboxInProgress (refreshInbox inboxInProgress).2 ∧
    (openCursors inboxServer "a" { inboxRow none with displayName := "Inbox" } 7
      (refreshInbox inboxInProgress).2).1 = .ok ⟨3,3,false⟩ ∧
    openCursors inboxServer "a" (inboxRow (some 7)) 7 = pure ⟨3,1,false⟩ := by
  have hrows : (refreshInbox inboxInProgress).2.db.tables.folders =
      [{ inboxRow none with displayName := "Inbox" }] := by decide
  refine ⟨by decide,hrows,fun hkeeps => ?_,by decide,
    openCursors_known (by decide) rfl⟩
  obtain ⟨f',hf',-,huidvalidity,-⟩ :=
    hkeeps (inboxRow (some 7)) List.mem_cons_self rfl (by decide)
  rw [hrows] at hf'
  rw [List.mem_singleton.mp hf'] at huidvalidity
  cases huidvalidity

end MailDock
