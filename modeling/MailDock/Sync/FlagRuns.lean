import MailDock.Sync.FlagRefresh

/-!
# Flags over a whole run

The scan and the refresh of one folder after the other, and the detection pass after them, keep what
is known of the flags.

## Main definitions

- `RunTargets` — the folder rows a run works on

## Main results

- `syncAccount_following` — a run keeps the invariant, however it ends
-/

namespace MailDock

open Hoare Trace

section
variable {S : FlagHistory} {start stop : Nat} {first : Repository} {env : Env} {accountId : String}
  {windowDays : Nat} {options : SyncOptions} {folder : Folder} {rest : List Folder}

/-! ## One folder -/

theorem commitPending_nothing {w : World} (h : w.session.pending = []) :
    commitPending env accountId none w = (.ok (),w) := by
  have hread : (get : App World) w = (.ok w,w) := rfl
  rw [commitPending,Prog.bind_of_ok hread,h]
  rfl

/-- A folder is entered; its cursors are open and nothing is pending. -/
theorem enterFolder_following (hrest : ∀ g ∈ rest, g.id ≠ folder.id) :
    Triple (Following S start stop first (folder :: rest)) (enterFolder env accountId folder)
      (fun entered => Stocked (MessageRecord.FlaggedIn S start stop folder)
        (FlagScan S start stop first env folder entered.1 rest))
      (fun _ => Following S start stop first rest) := by
  have hclosed : Closed stillFootprint (Following S start stop first (folder :: rest)) :=
    Following.still
  refine Triple.seq (Q := fun uidvalidity w => Following S start stop first (folder :: rest) w ∧
    Observed env 0 w.tick folder.rawName uidvalidity) ((selectFolder_observed hclosed trivial
    fun _ _ => Nat.zero_le _).weaken_error fun _ _ hw => hw.mono fun _ hg =>
      List.mem_cons_of_mem _ hg) fun uidvalidity => ?_
  refine Triple.seq (Q := fun _ w => Following S start stop first (folder :: rest) w ∧
    Observed env 0 w.tick folder.rawName uidvalidity)
    (Triple.write fun w hw => ⟨hw.1.session _,hw.2⟩) fun _ => ?_
  refine Triple.seq (((openCursors_following uidvalidity hrest).and (openCursors_within folder
    uidvalidity _ Observed.closed)).weaken_error fun _ _ hw => hw.1) fun cursors => ?_
  refine Triple.seq (Q := fun _ => Stocked (MessageRecord.FlaggedIn S start stop folder)
    (FlagScan S start stop first env folder uidvalidity rest))
    (Triple.write fun w hw => ⟨FlagScan.session w _ hw,fun _ hi => by cases hi⟩) fun _ =>
    Triple.ret fun _ hw => hw

variable (W : S.Watch env accountId windowDays start stop) (hfolder : folder.accountId = accountId)
  (hanchored : S.Anchored start folder) (hfirst : folder ∈ first.tables.folders)
  (hrest : ∀ g ∈ rest, g.id ≠ folder.id) (hwindow : options.flagRefreshWindowDays = windowDays)

include W hfolder hanchored

/-- The folder is scanned, and nothing is pending when its refresh begins. -/
theorem scanMessages_following {uidvalidity : Nat} (cursors : FolderCursors) :
    Triple (Stocked (MessageRecord.FlaggedIn S start stop folder)
        (FlagScan S start stop first env folder uidvalidity rest))
      (scanMessages env accountId options folder uidvalidity cursors)
      (fun _ w =>
        FlagScan S start stop first env folder uidvalidity rest w ∧ w.session.pending = [])
      (fun _ => ScanLeft S start stop first env folder uidvalidity rest) :=
  (scanSteps_following W hfolder hanchored).scanMessages cursors (fun _ _ _ => trivial)
    (fun _ => trivial) (commitPending_scanned hanchored)

include hfirst hrest hwindow

theorem syncFolder_following (google : Bool) :
    Triple (Following S start stop first (folder :: rest))
      (syncFolder env accountId google options folder)
      (fun _ => Following S start stop first rest)
      (fun _ => Following S start stop first rest) := by
  rw [syncFolder_eq]
  refine (enterFolder_following hrest).seq fun entered => ?_
  have hcommit : Triple (ScanLeft S start stop first env folder entered.1 rest)
      (commitPending env accountId none) (fun _ => Following S start stop first rest)
      (fun _ => Following S start stop first rest) := by
    intro w hw
    rcases hw with hscan | hrefreshed
    · refine (commitPending_scanned hanchored).consequence (fun _ h => h) (fun _ w hw => ?_)
        (fun _ w hw => hw.following) w hscan
      exact hw.1.1.mono fun _ hg => List.mem_cons_of_mem _ hg
    · rw [commitPending_nothing hrefreshed.2]
      exact hrefreshed.1
  refine Triple.handle (F := fun _ => ScanLeft S start stop first env folder entered.1 rest)
    (((scanSteps_following W hfolder hanchored).scanFolder (J := fun w => FlagScan S start stop first
      env folder entered.1 rest w ∧ w.session.pending = []) (K := RefreshLeft S start stop first rest)
      google entered.2 (fun _ _ _ => trivial) (fun _ => trivial) (commitPending_scanned hanchored)
      (fun completed w hw => ?_) fun w _ hw => .inr ⟨hw.following,hw.pending⟩).strengthen_post
        fun _ _ hw => hw.following) fun e => ?_
  · exact (refreshFlags_settled W hfolder hanchored hfirst hrest google hwindow completed w.tick
      w.db.valid).consequence (fun _ h => h) (fun _ _ h => h.1) (fun _ _ h => h) w ⟨hw,rfl,rfl⟩
  · split
    · exact hcommit.seq fun _ => Triple.ret fun _ hw => hw
    · split
      · exact hcommit.seq fun _ => Triple.raise fun _ hw => hw
      · exact Triple.raise fun _ hw => hw.following

end

/-! ## The folders of a run -/

/-- The folder rows a run works on, as the database held them when the run began. -/
structure RunTargets (S : FlagHistory) (start : Nat) (first : Repository) (accountId : String)
    (targets : List Folder) : Prop where
  account : ∀ f ∈ targets, f.accountId = accountId
  anchored : ∀ f ∈ targets, S.Anchored start f
  first : ∀ f ∈ targets, f ∈ first.tables.folders
  distinct : targets.Pairwise fun f g => g.id ≠ f.id

theorem RunTargets.tail {S : FlagHistory} {start : Nat} {first : Repository} {accountId : String}
    {folder : Folder} {targets : List Folder}
    (h : RunTargets S start first accountId (folder :: targets)) :
    RunTargets S start first accountId targets where
  account f hf := h.account f (List.mem_cons_of_mem _ hf)
  anchored f hf := h.anchored f (List.mem_cons_of_mem _ hf)
  first f hf := h.first f (List.mem_cons_of_mem _ hf)
  distinct := h.distinct.tail

section
variable {S : FlagHistory} {start stop : Nat} {first : Repository} {env : Env} {accountId : String}
  {windowDays : Nat} {options : SyncOptions} (W : S.Watch env accountId windowDays start stop)
  (hwindow : options.flagRefreshWindowDays = windowDays)

include W hwindow

/-- The folders `later` are still to come. -/
theorem syncFolders_following (google : Bool) (targets later : List Folder)
    (h : RunTargets S start first accountId (targets ++ later)) (scanned : List Nat) :
    Triple (Following S start stop first (targets ++ later))
      (syncFolders env accountId google options targets scanned)
      (fun _ => Following S start stop first later)
      (fun _ => Following S start stop first later) := by
  induction targets generalizing scanned with
  | nil => exact Triple.ret fun _ hw => hw
  | cons folder rest ih =>
    have hrest : ∀ {w}, Following S start stop first (rest ++ later) w →
        Following S start stop first later w := fun hw =>
      hw.mono fun _ hg => List.mem_append_right _ hg
    have hmem : folder ∈ folder :: rest ++ later := List.mem_cons_self
    refine Triple.seq (outcome_rule (R := fun _ => Following S start stop first (rest ++ later))
      (syncFolder_following W (h.account _ hmem) (h.anchored _ hmem) (h.first _ hmem)
        (List.pairwise_cons.mp h.distinct).1 hwindow google)) fun result => ?_
    rcases result with e | cancelled
    · dsimp only
      split
      · exact Triple.raise fun _ hw => hrest hw
      · split
        · exact ih h.tail scanned
        · exact Triple.raise fun _ hw => hrest hw
    · cases cancelled with
      | true => exact Triple.ret fun _ hw => hrest hw
      | false => exact ih h.tail _

end

/-! ## The detection pass -/

section
variable {S : FlagHistory} {start stop : Nat} {first : Repository} {env : Env} {accountId : String}
  {options : SyncOptions} {targets : List Folder}

/-- The rows of a message are replaced by some of them. -/
theorem Following.replaced {w : World} {messageId : Nat} {memberships : List MembershipRecord}
    {db : Repository} {google : Bool} {k : ServerUid} (h : Following S start stop first [] w)
    (happly : (WriteOp.replaceMessageMemberships messageId memberships).apply w.db = .ok db)
    (heffect : RowEffect google w.db.tables db.tables k) :
    Following S start stop first [] (w.written (.replaceMessageMemberships messageId memberships)
      db) := by
  refine h.wrote happly (fun _ hg => by cases hg) fun hdates _ hsound =>
    hsound.write happly hdates (S.since_refreshWindow h.ordered [])
      (fun _ _ heq => by cases heq) fun f hf m hm row hrow _ haccount hfolder hv => ?_
  refine hsound.agrees f hf m hm row ?_ haccount hfolder hv
  have hmessages : db.tables.messages = w.db.tables.messages := by
    rw [Repository.replaceMessageMemberships_spec happly]
  obtain ⟨r',hr',n,hn,hid,hflag⟩ := hrow
  obtain ⟨r,hr,hrid,huid,hflags⟩ := heffect.flags hmessages r' hr'
  obtain ⟨hna,hrf,hrv,hru,hrd,hri⟩ := flagRow_eq_some.mp hflag
  have hserver : r.serverUid = some (row.folderId,row.uidvalidity,row.uid) :=
    huid.trans (Tables.serverUid_eq_some.mpr ⟨hrf,hrv,hru⟩)
  obtain ⟨hrf,hrv,hru⟩ := Tables.serverUid_eq_some.mp hserver
  exact ⟨r,hr,n,hmessages ▸ hn,hid.trans hrid.symm,
    flagRow_eq_some.mpr ⟨hna,hrf,hrv,hru,hrd,hflags.trans hri⟩⟩

theorem Following.detects (google : Bool) (folder : Folder) (uidvalidity : Nat) :
    DetectKeeps google folder uidvalidity (Following S start stop first []) where
  closed := Following.closed
    (fun e he => detectFootprint_le_sync.note e (lookFootprint_le_detect.note e he))
    (fun _ ho => ho.elim) fun _ ho => ho.elim
  event _ _ _ hw _ _ _ _ := hw.logged rfl rfl (.inl rfl) rfl fun _ heq => by cases heq
  write w op db uid hw hop happly heffect _ := by
    cases op with
    | replaceMessageMemberships messageId memberships => exact hw.replaced happly heffect
    | mergeDuplicateMessage | updateRemoteState =>
      exact hw.writing happly trivial fun _ _ hbrings => hbrings.elim
    | _ => exact hop.elim

end

/-! ## The account -/

theorem Tables.Valid.syncTargets_distinct {t : Tables} (ht : t.Valid) (accountId : String) :
    (t.listSyncTargets accountId).Pairwise fun f g => g.id ≠ f.id := by
  have hrows : (t.folders.filter fun f => f.accountId == accountId).Pairwise
      fun f g => g.id ≠ f.id :=
    (List.Pairwise.sublist List.filter_sublist ht.folderId).imp fun h heq => by simp [heq] at h
  refine List.Pairwise.sublist List.filter_sublist ?_
  exact (List.Perm.pairwise_iff (fun h => Ne.symm h) (List.perm_insertionSort _ _)).mpr hrows

section
variable {S : FlagHistory} {start stop : Nat} {first : Repository} {env : Env} {accountId : String}
  {windowDays opened : Nat} {options : SyncOptions}

theorem runTargets (hsound : S.Sound (fun _ => start) start first.tables) :
    RunTargets S start first accountId (first.tables.listSyncTargets accountId) := by
  have hmem : ∀ f ∈ first.tables.listSyncTargets accountId,
      f ∈ first.tables.folders ∧ f.accountId = accountId := by
    intro f hf
    simp only [Tables.listSyncTargets,Tables.listFolders,List.mem_filter,List.mem_insertionSort,
      beq_iff_eq] at hf
    exact hf.1
  exact
    { account := fun f hf => (hmem f hf).2
      anchored := fun f hf => hsound.anchored f (hmem f hf).1
      first := fun f hf => (hmem f hf).1
      distinct := first.valid.syncTargets_distinct accountId }

theorem following_opened {manifest : List ManifestEvent} {lastCheckpoint : Option Nat}
    {files : List (String × Bytes)} (hordered : start ≤ stop)
    (hsound : S.Sound (fun _ => start) start first.tables) :
    Following S start stop first (first.tables.listSyncTargets accountId)
      (World.opened first manifest lastCheckpoint files opened) where
  ordered := hordered
  replayed := rfl
  folders g hg f hf hid := by
    have hsame : f = g := first.valid.folderId.eq_of_key hf ((runTargets hsound).first g hg)
      (congrArg some hid) rfl
    rw [hsame]
    exact ⟨rfl,rfl,rfl⟩
  sound _ :=
    { db := hsound.later (fun id => by unfold refreshWindow; split <;> omega) hordered
      committed := hsound.later (fun _ => hordered) hordered
      commits := fun _ hdb => by cases hdb }

/-- The first statements of a run write nothing. -/
theorem openRun_following {manifest : List ManifestEvent} {lastCheckpoint : Option Nat}
    {files : List (String × Bytes)} (hordered : start ≤ stop)
    (hsound : S.Sound (fun _ => start) start first.tables) :
    Triple (fun w => w = World.opened first manifest lastCheckpoint files opened)
      (openRun env accountId)
      (fun result w => (Following S start stop first (first.tables.listSyncTargets accountId) w ∧
        Surveyed env accountId first opened (first.tables.listSyncTargets accountId) w) ∧
          result.2 = first.tables.listSyncTargets accountId)
      (fun _ => Following S start stop first []) := by
  let Fresh := fun w : World =>
    (Following S start stop first (first.tables.listSyncTargets accountId) w ∧
      Surveyed env accountId first opened (first.tables.listSyncTargets accountId) w) ∧ w.db = first
  have hticked : ∀ w, Fresh w → Fresh w.ticked := fun w hw =>
    ⟨⟨Following.still.ticked w hw.1.1,Surveyed.closed.ticked w hw.1.2⟩,hw.2⟩
  have hraised : ∀ w, Fresh w → Following S start stop first [] w := fun w hw =>
    hw.1.1.mono fun _ hg => by cases hg
  have haccount : Triple (fun w => w = World.opened first manifest lastCheckpoint files opened)
      (ensureImapAccount env accountId) (fun _ => Fresh)
      (fun _ => Following S start stop first []) := by
    have hopened : ∀ w, w = World.opened first manifest lastCheckpoint files opened →
        Fresh w.ticked := by
      rintro w rfl
      exact ⟨⟨Following.still.ticked _ (following_opened hordered hsound),surveyed_opened rfl⟩,rfl⟩
    refine Triple.seq (queryRepo_rule (Q := fun _ => Fresh) (fun w hw => hopened w hw)
      fun w _ hw _ => hraised _ (hopened w hw)) fun accounts => ?_
    split
    · split
      · exact Triple.raise fun w hw => hraised w hw
      · exact Triple.ret fun _ hw => hw
    · exact Triple.ret fun _ hw => hw
  refine haccount.seq fun _ => Triple.seq (queryRepo_rule (Q := fun _ => Fresh)
    (fun w hw => hticked w hw) fun w _ hw _ => hraised _ (hticked w hw)) fun accounts =>
    Triple.seq (queryRepo_rule (Q := fun ts w => Fresh w ∧
      ts = first.tables.listSyncTargets accountId) (fun w hw => ⟨hticked w hw,by rw [hw.2]⟩)
      fun w _ hw _ => hraised _ (hticked w hw)) fun ts => Triple.assume ?_
  rintro rfl
  refine Triple.seq (Q := fun _ w =>
    Following S start stop first (first.tables.listSyncTargets accountId) w ∧
      Surveyed env accountId first opened (first.tables.listSyncTargets accountId) w)
    (Triple.write ?_) fun _ => Triple.ret fun _ hw => ⟨hw,rfl⟩
  rintro w ⟨⟨hfollowing,htracked,-⟩,hdb⟩
  refine ⟨hfollowing.session _,?_⟩
  exact
    { tracked :=
        { begun := htracked.begun
          replayed := htracked.replayed
          guarded := htracked.guarded
          placing := htracked.placing
          answers := htracked.answers
          selected := fun f _ v hv => by cases hv
          rows := fun r hr k hk _ => ⟨r,hdb ▸ hr,hk⟩ }
      known := fun k entry h => by cases h }

variable (W : S.Watch env accountId windowDays start stop)
  (hwindow : options.flagRefreshWindowDays = windowDays)

include W hwindow

theorem syncTargets_following (google : Bool) {targets : List Folder}
    (h : RunTargets S start first accountId targets) :
    Triple (fun w => Following S start stop first targets w ∧
        Surveyed env accountId first opened targets w)
      (syncTargets env accountId options google targets) (fun _ => Following S start stop first [])
      (fun _ => Following S start stop first []) := by
  have hid : ∀ f ∈ targets, ∀ g ∈ targets, g.id = f.id → g = f := fun f hf g hg hgf =>
    first.valid.folderId.eq_of_key (h.first g hg) (h.first f hf) (congrArg some hgf) rfl
  have hresult : ∀ cancelled, Triple (Following S start stop first []) (syncResult cancelled)
      (fun _ => Following S start stop first []) (fun _ => Following S start stop first []) :=
    fun _ => (Triple.read fun _ hw => hw).seq fun _ => Triple.ret fun _ hw => hw
  have hfolders : Triple (fun w => Following S start stop first targets w ∧
        Surveyed env accountId first opened targets w)
      (syncFolders env accountId google options targets [])
      (fun _ w => Following S start stop first [] w ∧
        Surveyed env accountId first opened targets w)
      (fun _ => Following S start stop first []) := by
    have hsynced := syncFolders_following W hwindow google targets [] (by rwa [List.append_nil]) []
    rw [List.append_nil] at hsynced
    exact (hsynced.and (syncFolders_walk (E := fun _ => Surveyed env accountId first opened targets)
      (fun _ _ hw _ => hw) targets (fun folder hf => syncFolder_surveyed google hf (hid folder hf))
      [])).weaken_error fun _ _ hw => hw.1
  refine hfolders.seq fun scanned => ?_
  split
  · exact (hresult true).weaken_pre fun _ hw => hw.1
  · next scanned =>
    refine Triple.seq (Q := fun _ w => Following S start stop first [] w ∧
      Surveyed env accountId first opened targets w) ?_ fun _ => ?_
    · split
      · exact Triple.ret fun _ hw => hw
      · exact repoCall_rule
          (fun w hw => ⟨Following.still.ticked w hw.1,Surveyed.closed.ticked w hw.2⟩) fun w _ hw _ => Following.still.ticked w hw.1
    · intro w hw
      refine Triple.seq (Triple.loop (I := fun v => Following S start stop first [] v ∧
        v.session.Remembers w.session.knownMessages w.session.selected ∧
        KnownRows google accountId w.session.knownMessages v.db.tables) targets
        fun folder _ => detectFolder_rule (d := ⟨google,targets,scanned⟩)
          (Following.detects google folder (generation w.session.selected folder)))
        (fun _ => (hresult false).weaken_pre fun _ h => h.1) w ?_
      exact ⟨hw.1,⟨rfl,rfl⟩,hw.2.known.weaken google⟩

end

section
variable {S : FlagHistory} {start stop : Nat} {first : Repository} {env : Env} {accountId : String}
  {windowDays opened : Nat} {options : SyncOptions}
  (W : S.Watch env accountId windowDays start stop)
  (hwindow : options.flagRefreshWindowDays = windowDays)

theorem FlagHistory.Watch.ordered (W : S.Watch env accountId windowDays start stop) :
    start ≤ stop :=
  (W.started 0).trans (W.stopped 0)

include W hwindow

theorem syncAccount_following {manifest : List ManifestEvent} {lastCheckpoint : Option Nat}
    {files : List (String × Bytes)} (hsound : S.Sound (fun _ => start) start first.tables) :
    Triple (fun w => w = World.opened first manifest lastCheckpoint files opened)
      (syncAccount env accountId options) (fun _ => Following S start stop first [])
      (fun _ => Following S start stop first []) := by
  rw [syncAccount_eq]
  refine (openRun_following W.ordered hsound).seq fun result => Triple.assume fun htargets => ?_
  rw [htargets]
  exact syncTargets_following W hwindow result.1 (runTargets hsound)

end

end MailDock
