import MailDock.Sync.FlagHistory
import MailDock.Sync.Retention

/-!
# The flags a folder scan brings

Before it refreshes the flags of a folder, a run starts the cursors of the folder and writes the
messages it fetches, each with the flags it was listed with.  These flags were read in the run,
after the server had reached the MODSEQ that was stored before it.

## Main definitions

- `KeepsFlags` — the writes after which the flags of a folder are known up to its stored MODSEQ
- `Following` — the invariant of a run, and the folders it has not come to
- `Folder.numbered` — a folder row after the cursors were opened

## Main results

- `scanSteps_following` — the steps of a folder scan keep the invariant
-/

namespace MailDock

open Hoare Trace

/-- The folder and the MODSEQ a write stores for it. -/
def WriteOp.storedModseq : WriteOp → Option (Nat × Nat)
  | .setHighestModseq id (some m) => some (id,m)
  | _ => none

/-- A MODSEQ that is stored for a folder whose UIDVALIDITY has changed since the run began is below
the one that was stored for the old UIDVALIDITY. -/
def StoresKnown (first t : Tables) (op : WriteOp) : Prop :=
  ∀ s ∈ op.storedModseq, ∀ f ∈ first.folders, ∀ g ∈ t.folders, f.id = s.1 → g.id = s.1 →
    f.uidvalidity ≠ g.uidvalidity → ∀ saved ∈ validSqliteModseq f.highestModseq, s.2 < saved

instance (first t : Tables) (op : WriteOp) : Decidable (StoresKnown first t op) :=
  inferInstanceAs (Decidable (∀ s ∈ op.storedModseq, _))

/-- The write moves no membership into the window and stores no MODSEQ a refresh was misled
about. -/
def KeepsFlags (S : FlagHistory) (start stop : Nat) (first : Repository) (before : List Effect)
    (e : Effect) : Prop :=
  ∀ op ∈ e.written, (replay first before).tables.KeepsWindow (S.since start) (S.since stop) op ∧
    StoresKnown first.tables (replay first before).tables op

instance (S : FlagHistory) (start stop : Nat) (first : Repository) (before : List Effect)
    (e : Effect) : Decidable (KeepsFlags S start stop first before e) :=
  inferInstanceAs (Decidable (∀ op ∈ e.written, _))

theorem KeepsFlags.of_written {S : FlagHistory} {start stop : Nat} {first : Repository} {w : World}
    {op : WriteOp} {db : Repository}
    (h : Always (KeepsFlags S start stop first) (w.written op db).log) :
    KeepsFlags S start stop first w.log (.write op) ∧
      Always (KeepsFlags S start stop first) w.log := by
  unfold World.written at h
  split at h
  · exact h
  · exact h.2

/-- The write leaves the UIDVALIDITY and the MODSEQ of every folder alone. -/
def WriteOp.KeepsNumbering : WriteOp → Prop
  | .setHighestModseq .. | .initializeSyncCursors .. => False
  | _ => True

structure Folder.SameNumbering (f g : Folder) : Prop where
  mailbox : f.mailbox = g.mailbox
  uidvalidity : f.uidvalidity = g.uidvalidity
  highestModseq : f.highestModseq = g.highestModseq

/-- The window of a folder, when the run has not come to those in `known`. -/
def refreshWindow (start stop : Nat) (known : List Folder) (id : Nat) : Nat :=
  if id ∈ known.map Folder.id then start else stop

theorem refreshWindow_le {start stop : Nat} (h : start ≤ stop) (known : List Folder) (id : Nat) :
    refreshWindow start stop known id ≤ stop := by
  unfold refreshWindow
  split
  · exact h
  · exact le_rfl

/-- The window begins between those of the two ends of the run. -/
theorem FlagHistory.since_refreshWindow (S : FlagHistory) {start stop : Nat} (h : start ≤ stop)
    (known : List Folder) (id : Nat) : S.since start ≤ S.since (refreshWindow start stop known id) ∧
      S.since (refreshWindow start stop known id) ≤ S.since stop := by
  unfold refreshWindow
  split
  · exact ⟨String.le_refl _,S.since_le _ _ h⟩
  · exact ⟨S.since_le _ _ h,String.le_refl _⟩

theorem refreshWindow_mono {start stop : Nat} (h : start ≤ stop) {known known' : List Folder}
    (hle : ∀ id ∈ known'.map Folder.id, id ∈ known.map Folder.id) (id : Nat) :
    refreshWindow start stop known id ≤ refreshWindow start stop known' id := by
  unfold refreshWindow
  split
  · split
    · exact le_rfl
    · exact h
  · next hnot => rw [if_neg fun hmem => hnot (hle id hmem)]

/-- Every state a crash may leave is sound. -/
structure FlagHistory.SoundWorld (S : FlagHistory) (window : Nat → Nat) (now : Nat) (w : World) :
    Prop where
  db : S.Sound window now w.db.tables
  committed : S.Sound (fun _ => now) now w.committed.tables
  commits : ∀ db, .commit db ∈ w.log → S.Sound (fun _ => now) now db.tables

/-- What holds all along a run that began with `first`.  The rows of the folders in `known` are as
the run knows them. -/
structure Following (S : FlagHistory) (start stop : Nat) (first : Repository) (known : List Folder)
    (w : World) : Prop where
  ordered : start ≤ stop
  replayed : w.db = replay first w.log
  folders : ∀ g ∈ known, ∀ f ∈ w.db.tables.folders, f.id = g.id → f.SameNumbering g
  sound : Always (KeepsFlags S start stop first) w.log →
    S.SoundWorld (refreshWindow start stop known) stop w

section
variable {S : FlagHistory} {start stop : Nat} {first : Repository} {known : List Folder}

theorem WriteOp.KeepsNumbering.apply {repo repo' : Repository} {op : WriteOp} {f' : Folder}
    (hop : op.KeepsNumbering) (happly : op.apply repo = .ok repo')
    (hf' : f' ∈ repo'.tables.folders) :
    ∃ f ∈ repo.tables.folders, f'.id = f.id ∧ f'.SameNumbering f := by
  obtain ⟨f,hf,hid,hmailbox,hcase⟩ := WriteOp.apply_numbering happly hf'
  rcases hcase with ⟨hv,hm⟩ | ⟨value,rfl,-⟩ | ⟨v,maxUid,rfl,-⟩
  · exact ⟨f,hf,hid,hmailbox,hv,hm⟩
  · exact hop.elim
  · exact hop.elim

namespace Following

theorem mono {known' : List Folder} {w : World} (h : Following S start stop first known w)
    (hle : ∀ g ∈ known', g ∈ known) : Following S start stop first known' w where
  ordered := h.ordered
  replayed := h.replayed
  folders g hg := h.folders g (hle g hg)
  sound halways := by
    obtain ⟨hdb,hcommitted,hcommits⟩ := h.sound halways
    refine ⟨hdb.later (refreshWindow_mono h.ordered fun id hid => ?_) le_rfl,hcommitted,hcommits⟩
    obtain ⟨g,hg,rfl⟩ := List.mem_map.mp hid
    exact List.mem_map_of_mem (hle g hg)

/-- An effect that writes nothing. -/
theorem logged {w w' : World} {e : Effect} (h : Following S start stop first known w)
    (hdb : w'.db = w.db) (hlog : w'.log = e :: w.log)
    (hcommitted : w'.committed = w.committed ∨ w'.committed = w.db) (he : e.written = none)
    (hcommit : ∀ db, e = .commit db → db = w.db) : Following S start stop first known w' where
  ordered := h.ordered
  replayed := by
    rw [hdb,hlog,h.replayed]
    cases e with
    | write op => cases he
    | _ => rfl
  folders := by
    rw [hdb]
    exact h.folders
  sound halways := by
    rw [hlog] at halways
    obtain ⟨hsdb,hscommitted,hscommits⟩ := h.sound halways.2
    have hkept : S.Sound (fun _ => stop) stop w.db.tables :=
      hsdb.later (fun id => refreshWindow_le h.ordered known id) le_rfl
    refine ⟨hdb ▸ hsdb,?_,fun db hmem => ?_⟩
    · rcases hcommitted with hsame | hsame
      · exact hsame ▸ hscommitted
      · exact hsame ▸ hkept
    · rw [hlog] at hmem
      rcases List.mem_cons.mp hmem with heq | hmem
      · exact hcommit db heq.symm ▸ hkept
      · exact hscommits db hmem

/-- A write keeps it, if it keeps what is sound and `known'` is known of the rows after it. -/
theorem wrote {known' : List Folder} {w : World} {op : WriteOp} {db : Repository}
    (h : Following S start stop first known w) (happly : op.apply w.db = .ok db)
    (hknown : ∀ g ∈ known', ∀ f ∈ db.tables.folders, f.id = g.id → f.SameNumbering g)
    (hsound : w.db.tables.KeepsWindow (S.since start) (S.since stop) op →
      StoresKnown first.tables w.db.tables op →
      S.Sound (refreshWindow start stop known) stop w.db.tables →
      S.Sound (refreshWindow start stop known') stop db.tables) :
    Following S start stop first known' (w.written op db) := by
  have hbatch : Following S start stop first known'
      { w with db := db, log := .write op :: w.log } :=
    { ordered := h.ordered
      replayed := (replay_write (h.replayed ▸ happly)).symm
      folders := hknown
      sound := by
        intro halways
        obtain ⟨hsdb,hscommitted,hscommits⟩ := h.sound halways.2
        have hkeeps := halways.1 op rfl
        rw [← h.replayed] at hkeeps
        refine ⟨hsound hkeeps.1 hkeeps.2 hsdb,hscommitted,fun db' hmem => ?_⟩
        rcases List.mem_cons.mp hmem with heq | hmem
        · cases heq
        · exact hscommits db' hmem }
  unfold World.written
  split
  · exact hbatch
  · exact hbatch.logged rfl rfl (.inr rfl) rfl fun db' heq => by cases heq; rfl

/-- The flags of the row were read in the run, in a folder whose stored MODSEQ was anchored
before. -/
def Reads (S : FlagHistory) (start stop : Nat) (known : List Folder) (row : FlagRow) : Prop :=
  ∃ g ∈ known, S.Anchored start g ∧ row.folderId = g.id ∧ ∃ r, start ≤ r ∧ r ≤ stop ∧
    row.imapFlags = some (flagText (S.flags r g.mailbox row.uid))

theorem writing {w : World} {op : WriteOp} {db : Repository}
    (h : Following S start stop first known w) (happly : op.apply w.db = .ok db)
    (hnumbering : op.KeepsNumbering)
    (hreads : ∀ row, db.tables.ShowsFlags row → op.BringsFlags row → Reads S start stop known row) :
    Following S start stop first known (w.written op db) := by
  refine h.wrote happly (fun g hg f' hf' hid => ?_) fun hdates _ hsound =>
    hsound.write happly hdates (S.since_refreshWindow h.ordered known) (fun id value heq => ?_)
      fun f hf m hm row hrow hbrings _ hfolder hv => ?_
  · obtain ⟨f,hf,hfid,hsame⟩ := hnumbering.apply happly hf'
    have hknown := h.folders g hg f hf (hfid.symm.trans hid)
    exact ⟨hsame.mailbox.trans hknown.mailbox,hsame.uidvalidity.trans hknown.uidvalidity,
      hsame.highestModseq.trans hknown.highestModseq⟩
  · rw [heq] at hnumbering
    exact hnumbering
  · obtain ⟨g,hg,hanchored,hgid,r,hstart,hr,hflags⟩ := hreads row hrow hbrings
    have hknown := h.folders g hg f hf (hfolder.symm.trans hgid)
    rw [hknown.highestModseq] at hm
    rw [hknown.uidvalidity] at hv
    rw [hknown.mailbox]
    exact hanchored.agrees hm hv hstart hr hflags

/-- A step that leaves the database and the log alone. -/
theorem same {w w' : World} (h : Following S start stop first known w) (hdb : w'.db = w.db)
    (hcommitted : w'.committed = w.committed) (hlog : w'.log = w.log) :
    Following S start stop first known w' where
  ordered := h.ordered
  replayed := by rw [hdb,hlog,h.replayed]
  folders := by rw [hdb]; exact h.folders
  sound halways := by
    obtain ⟨hsdb,hscommitted,hscommits⟩ := h.sound (hlog ▸ halways)
    exact ⟨hdb ▸ hsdb,hcommitted ▸ hscommitted,hlog ▸ hscommits⟩

theorem closed {F : Footprint} (hnote : ∀ e, F.note e → syncFootprint.note e)
    (hnumbering : ∀ op, F.op op → op.KeepsNumbering)
    (hreads : ∀ op, F.op op → ∀ row, op.BringsFlags row → Reads S start stop known row) :
    Closed F (Following S start stop first known) where
  ticked _ h := h.same rfl rfl rfl
  logged w e he _ h := by
    have hquiet := hnote e he
    refine h.logged rfl rfl (.inl rfl) ?_ fun db heq => ?_
    · cases e with
      | write op => exact hquiet.elim
      | _ => rfl
    · rw [heq] at hquiet
      exact hquiet.elim
  saved _ _ _ _ h := h.logged rfl rfl (.inl rfl) rfl fun _ heq => by cases heq
  appended _ _ _ _ h := h.logged rfl rfl (.inl rfl) rfl fun _ heq => by cases heq
  began _ _ h := h.same rfl rfl rfl
  written w op _ hop happly h := h.writing happly (hnumbering op hop) fun row _ => hreads op hop row
  committed _ h := h.logged rfl rfl (.inr rfl) rfl fun _ heq => by cases heq; rfl
  counted _ _ _ h := h.same rfl rfl rfl

theorem session {w : World} (h : Following S start stop first known w) (s : SyncSession) :
    Following S start stop first known { w with session := s } :=
  h.same rfl rfl rfl

end Following

/-- The steps that bring no flags and store no MODSEQ. -/
def stillFootprint : Footprint :=
  { syncFootprint with op := fun op => op.KeepsNumbering ∧ ∀ row, ¬ op.BringsFlags row }

theorem Following.still : Closed stillFootprint (Following S start stop first known) :=
  Following.closed (fun _ he => he) (fun _ ho => ho.1)
    fun _ ho row hbrings => (ho.2 row hbrings).elim

/-! The cursors of a folder. -/

/-- The row of a folder after the cursors were opened under a UIDVALIDITY. -/
def Folder.numbered (folder : Folder) (uidvalidity : Nat) : Folder :=
  { folder with
    uidvalidity := some uidvalidity
    highestModseq := if folder.uidvalidity = some uidvalidity then folder.highestModseq else none }

theorem FlagHistory.Anchored.numbered {folder : Folder} (h : S.Anchored start folder)
    (uidvalidity : Nat) : S.Anchored start (folder.numbered uidvalidity) := by
  intro m hm v hv
  by_cases hsame : folder.uidvalidity = some uidvalidity
  · simp only [Folder.numbered,if_pos hsame] at hm
    exact h m hm v (hsame.trans hv)
  · simp only [Folder.numbered,if_neg hsame] at hm
    cases hm

variable {env : Env} {accountId : String} {folder : Folder} {rest : List Folder}

theorem openCursors_following (uidvalidity : Nat) (hrest : ∀ g ∈ rest, g.id ≠ folder.id) :
    Triple (Following S start stop first (folder :: rest))
      (openCursors env accountId folder uidvalidity)
      (fun _ => Following S start stop first (folder.numbered uidvalidity :: rest))
      (fun _ => Following S start stop first rest) := by
  have hquiet : ∀ {f : Folder} {α : Type} {p : App α}, Within stillFootprint p →
      Triple (Following S start stop first (f :: rest)) p
        (fun _ => Following S start stop first (f :: rest))
        (fun _ => Following S start stop first rest) := fun hp =>
    (hp _ Following.still).consequence (fun _ hw => hw) (fun _ _ hw => hw)
      fun _ _ hw => hw.mono fun _ hg => List.mem_cons_of_mem _ hg
  unfold openCursors
  split
  · next hnew =>
    refine (hquiet (Within.getMaxUid trivial)).seq fun maxUid =>
      (hquiet Within.beginBatch).seq fun _ => Triple.seq (writeRepo_rule
        (Q := fun _ => Following S start stop first (folder.numbered uidvalidity :: rest))
        (fun w db hw happly => ?_) fun w e hw _ =>
          (Following.still.ticked w hw).mono fun _ hg => List.mem_cons_of_mem _ hg) fun _ =>
      (hquiet Within.commitBatch).seq fun _ => (hquiet Within.timestamp).seq fun now =>
      (hquiet (Within.appendManifest trivial)).seq fun _ =>
      (hquiet (Within.flushAndSync trivial)).seq fun _ => Triple.ret fun _ hw => hw
    refine (Following.still.ticked w hw).wrote happly (fun g hg f' hf' hid => ?_)
      fun hdates _ hsound => hsound.write happly hdates (S.since_refreshWindow hw.ordered _)
        (fun _ _ heq => by cases heq) fun _ _ _ _ _ _ hbrings => hbrings.elim
    obtain ⟨f,hf,hfid,hmailbox,hfirst,hother⟩ := initializeSyncCursors_numbering happly hf'
    rcases List.mem_cons.mp hg with rfl | hg
    · have hsame : f.id = folder.id := hfid.symm.trans hid
      have hknown := hw.folders folder List.mem_cons_self f hf hsame
      obtain ⟨hv,hm⟩ := hfirst hsame
      exact ⟨hmailbox.trans hknown.mailbox,hv,hm.trans (if_neg hnew).symm⟩
    · have hsame : f.id = g.id := hfid.symm.trans hid
      rw [hother (hsame ▸ hrest g hg)]
      exact hw.folders g (List.mem_cons_of_mem _ hg) f hf hsame
  · next hsame =>
    have hsame : folder.uidvalidity = some uidvalidity := by simpa using hsame
    have hnumbered : folder.numbered uidvalidity = folder := by
      rw [Folder.numbered,if_pos hsame,← hsame]
    rw [hnumbered]
    split
    · exact Triple.ret fun _ hw => hw
    · have hcursor : ∀ maxUid, stillFootprint.op (.updateSyncCursors folder.id none (some maxUid)
          (some folder.initialSyncCompleted)) := fun _ => ⟨trivial,fun _ hbrings => hbrings⟩
      exact (hquiet (Within.getMaxUid trivial)).seq fun _ => (hquiet Within.beginBatch).seq fun _ =>
        (hquiet (Within.writeRepo (hcursor _))).seq fun _ =>
        (hquiet Within.commitBatch).seq fun _ => Triple.ret fun _ hw => hw

/-! The messages of a folder. -/

/-- The record of a fetched message has the flags of a moment of the run. -/
def MessageRecord.FlaggedIn (S : FlagHistory) (start stop : Nat) (folder : Folder)
    (record : MessageRecord) : Prop :=
  record.folderId = folder.id ∧ ∀ u ∈ record.uid, ∃ r, start ≤ r ∧ r ≤ stop ∧
    record.imapFlags = some (flagText (S.flags r folder.mailbox u))

theorem recordForMessage_flags {F : Footprint} {folderRawName : String} {folderId uidvalidity : Nat}
    {ref : RemoteMessageRef} (parsed : ParsedMessage) (stored : Option StoredEml) (size : Nat) :
    Yields F (recordForMessage env accountId folderRawName folderId uidvalidity ref parsed stored
      size) fun r => r.folderId = folderId ∧ r.uid = some ref.uid ∧
        r.imapFlags = some (flagText ref.flags) :=
  (Within.ofExcept _).yields fun _ => Within.nowIso.yields fun _ => Within.nowIso.yields fun _ =>
    Yields.ret ⟨rfl,rfl,rfl⟩

/-- The run has seen the folder under the UIDVALIDITY it works with. -/
theorem Observed.closed {F : Footprint} {opened : Nat} {folderRawName : String}
    {uidvalidity : Nat} : Closed F fun w => Observed env opened w.tick folderRawName uidvalidity where
  ticked _ h := h.later (Nat.le_succ _)
  logged _ _ _ _ h := h
  saved _ _ _ _ h := h
  appended _ _ _ _ h := h
  began _ _ h := h
  written w op db _ _ h := by
    unfold World.written
    split <;> exact h
  committed _ h := h
  counted _ _ _ h := h

/-- Between two steps of the scan of a folder, before its flags are refreshed. -/
def FlagScan (S : FlagHistory) (start stop : Nat) (first : Repository) (env : Env) (folder : Folder)
    (uidvalidity : Nat) (rest : List Folder) (w : World) : Prop :=
  Following S start stop first (folder.numbered uidvalidity :: rest) w ∧
    Observed env 0 w.tick folder.rawName uidvalidity

variable {windowDays uidvalidity : Nat} {options : SyncOptions}

theorem FlagScan.session (w : World) (s : SyncSession)
    (h : FlagScan S start stop first env folder uidvalidity rest w) :
    FlagScan S start stop first env folder uidvalidity rest { w with session := s } :=
  ⟨h.1.session s,h.2⟩

theorem FlagScan.closed (hanchored : S.Anchored start folder) :
    Closed (batchFootprint (MessageRecord.FlaggedIn S start stop folder))
      (FlagScan S start stop first env folder uidvalidity rest) := by
  refine Closed.and (Following.closed (fun e he => ?_) (fun op ho => ?_)
    fun op ho row hbrings => ?_) Observed.closed
  · exact he
  · cases op with
    | setHighestModseq | initializeSyncCursors => exact ho
    | _ => trivial
  · cases op with
    | addMessage record contents =>
      obtain ⟨hfolder,hv,hu,hflags⟩ := hbrings
      obtain ⟨hid,hread⟩ := ho
      obtain ⟨r,hstart,hr,hread⟩ := hread _ hu
      exact ⟨folder.numbered uidvalidity,List.mem_cons_self,hanchored.numbered uidvalidity,
        hfolder.symm.trans hid,r,hstart,hr,hflags.symm.trans hread⟩
    | updateFlags | replaceMessageMemberships => exact ho.elim
    | _ => exact hbrings.elim

/-- What a raised error leaves behind: a scan, or the flags were refreshed and nothing waits. -/
def ScanLeft (S : FlagHistory) (start stop : Nat) (first : Repository) (env : Env) (folder : Folder)
    (uidvalidity : Nat) (rest : List Folder) (w : World) : Prop :=
  Stocked (MessageRecord.FlaggedIn S start stop folder)
      (FlagScan S start stop first env folder uidvalidity rest) w ∨
    (Following S start stop first rest w ∧ w.session.pending = [])

theorem ScanLeft.following {w : World}
    (h : ScanLeft S start stop first env folder uidvalidity rest w) :
    Following S start stop first rest w := by
  rcases h with hscan | hrefreshed
  · exact hscan.1.1.mono fun _ hg => List.mem_cons_of_mem _ hg
  · exact hrefreshed.1

section
variable (W : S.Watch env accountId windowDays start stop) (haccount : folder.accountId = accountId)
  (hanchored : S.Anchored start folder)

include W haccount

theorem makeItem_flagged {t minUid maxUid : Nat} {ref : RemoteMessageRef}
    (href : env.nextRef t folder.rawName minUid maxUid = some ref) :
    Yields itemFootprint (makeItem env accountId options folder.rawName folder.id uidvalidity ref)
      fun item => ∀ r ∈ item.record, r.FlaggedIn S start stop folder := by
  obtain ⟨s,hstart,hs,hflags⟩ := W.nextRef t folder.rawName minUid maxUid ref href
  have hrecord : ∀ parsed stored size, Yields itemFootprint (recordForMessage env accountId
      folder.rawName folder.id uidvalidity ref parsed stored size)
      (MessageRecord.FlaggedIn S start stop folder) := by
    intro parsed stored size I hI
    refine (recordForMessage_flags parsed stored size I hI).strengthen_post
      fun r _ hr => ⟨hr.1,hr.2.1,fun u hu => ⟨s,hstart,hs.trans (W.stopped t),?_⟩⟩
    rw [hr.2.2.1] at hu
    cases hu
    rw [hr.2.2.2,hflags,Folder.mailbox,haccount]
  exact makeItem_record (fun parsed size _ => hrecord parsed none size)
    fun parsed stored size => hrecord parsed (some stored) size

include hanchored

theorem scanSteps_following : ScanSteps env accountId options folder uidvalidity
    (fun ref => ∃ t minUid maxUid, env.nextRef t folder.rawName minUid maxUid = some ref)
    (fun _ _ => True)
    (Stocked (MessageRecord.FlaggedIn S start stop folder)
      (FlagScan S start stop first env folder uidvalidity rest))
    (fun _ => ScanLeft S start stop first env folder uidvalidity rest) := by
  have hclosed : Closed (batchFootprint (MessageRecord.FlaggedIn S start stop folder))
      (FlagScan S start stop first env folder uidvalidity rest) := FlagScan.closed hanchored
  exact
    { closed := (Stocked.closed hclosed).mono stepFootprint_le_batch
      raised := fun _ _ hw => .inl hw
      attempted := fun w uids hw => ⟨FlagScan.session w _ hw.1,hw.2⟩
      refs := fun t minUid maxUid ref _ href => ⟨⟨t,minUid,maxUid,href⟩,trivial⟩
      failures := (Within.queryRepo _ (Stocked.closed hclosed)).consequence (fun _ hw => hw)
        (fun _ _ hw => ⟨hw,fun _ _ t ref href _ => ⟨t,_,_,href⟩⟩) fun _ _ hw => .inl hw
      processRef := fun ref href => by
        obtain ⟨t,minUid,maxUid,href⟩ := href
        exact (processRef_stocked hclosed FlagScan.session
          (makeItem_flagged W haccount href)).weaken_error fun _ _ hw => .inl hw
      commitPending := fun cursor =>
        (commitPending_stocked hclosed FlagScan.session cursor).weaken_error fun _ _ hw => .inl hw }

end

/-- The last batch before the refresh leaves nothing waiting. -/
theorem commitPending_scanned (hanchored : S.Anchored start folder) :
    Triple (Stocked (MessageRecord.FlaggedIn S start stop folder)
        (FlagScan S start stop first env folder uidvalidity rest)) (commitPending env accountId none)
      (fun _ w =>
        FlagScan S start stop first env folder uidvalidity rest w ∧ w.session.pending = [])
      (fun _ => ScanLeft S start stop first env folder uidvalidity rest) :=
  ((commitPending_stocked (FlagScan.closed hanchored) FlagScan.session none).and
    (commitPending_empties none)).consequence (fun _ hw => ⟨hw,trivial⟩)
      (fun _ _ hw => ⟨hw.1.1,hw.2⟩) fun _ _ hw => .inl hw.1

end

end MailDock
