import MailDock.Pst.Lifecycle

/-!
# Generations and the trash

A switch and a restore set the local state of the messages of the two generations: those of the
generation that is shown become active, those of the other go to the trash.  What the user had
decided about a single message is not kept, but for one thing: a generation with a purged message
does not verify, so none of them shows a purged message again.

## Main definitions

- `PurgedAway` — a message that has no EML and is not active
- `ShowsGeneration` — the messages after a change of the active generation

## Main results

- `generation_changes_decisions`
-/

namespace MailDock

open Hoare Relational

/-! ## What a verified generation holds -/

section
variable {env : PstEnv} {t : PstTables} {importId : Nat}

theorem verifyItem_ok {record : PstImport} {events : List PstEvent} {files : List (String × Bytes)}
    {item : PstItem} {b : Bool} (h : verifyItem env t record events files item = .ok b) :
    ∃ id m, item.messageRowId = some id ∧ t.findMessage id = some m ∧ m.relativePath ≠ none := by
  simp only [verifyItem,unreadable] at h
  split at h
  · cases h
  split at h
  · cases h
  split at h
  case h_2 => cases h
  next id _ _ _ _ hid _ =>
  split at h
  case h_2 => cases h
  split at h
  · cases h
  split at h
  · cases h
  next m hm =>
  split at h
  · cases h
  next hrow =>
  simp only [not_or,not_not,ne_eq] at hrow
  exact ⟨id,m,hid,hm,by simp [hrow.2.2.2.1]⟩

theorem verification_ok {manifest : PstManifest} {files : List (String × Bytes)} {u : String}
    {allowSuperseded : Bool} {v : GenerationVerification}
    (h : verification env t manifest files importId u allowSuperseded = .ok v) :
    (∃ record, t.findImport importId = some record ∧ record.importUuid = u) ∧
    ∀ i ∈ t.items, i.importId = importId →
      ∃ id m, i.messageRowId = some id ∧ t.findMessage id = some m ∧ m.relativePath ≠ none := by
  simp only [verification,unreadable] at h
  split at h
  · cases h
  next record hrecord =>
  split at h
  · cases h
  next huuid =>
  split at h
  · cases h
  split at h
  case h_2 => cases h
  split at h
  · cases h
  split at h
  · cases h
  split at h
  · cases h
  split at h
  · cases h
  refine ⟨⟨record,hrecord,by simpa using huuid⟩,fun i hi hid => ?_⟩
  rw [Except.bind_eq_ok_iff] at h
  obtain ⟨failed,hfailed,-⟩ := h
  have hmem : i ∈ t.listItems importId := by
    rw [PstTables.listItems,List.mem_mergeSort,List.mem_filter]
    exact ⟨hi,by simp [hid]⟩
  obtain ⟨b,-,hb⟩ := Except.ok_of_mapM hfailed i hmem
  exact verifyItem_ok hb

end

/-! ## Purged messages -/

/-- The message has no EML and is not active. -/
def PurgedAway (id : Nat) (t : PstTables) : Prop :=
  ∀ m ∈ t.mail.messages, m.id = id → m.relativePath = none ∧ m.localState ≠ .active

section
variable {id : Nat} {t : PstTables}

theorem PurgedAway.setLocalState (h : PurgedAway id t) {i : Nat} {state : LocalState}
    (hstate : i = id → state ≠ .active) (trashedAt : Option String) :
    PurgedAway id { t with mail := t.mail.setLocalState i state trashedAt } := by
  intro m hm hid
  rcases mem_update.mp hm with ⟨hm,-⟩ | ⟨n,hn,hni,rfl⟩
  · exact h m hm hid
  · have hid : n.id = id := hid
    exact ⟨(h n hn hid).1,hstate (by rw [← hid]; exact (beq_iff_eq.mp hni).symm)⟩

theorem PurgedAway.purgeKeeps (id : Nat) : PurgeKeeps (PurgedAway id) where
  contents _ _ h := h
  storage t i h := by
    intro m hm hid
    rcases mem_update.mp hm with ⟨hm,-⟩ | ⟨n,hn,-,rfl⟩
    · exact h m hm hid
    · exact ⟨rfl,(h n hn hid).2⟩
  state _ _ h := h.setLocalState (fun _ => by decide) none
  audit _ _ h := h

/-- A generation that verifies does not hold the message. -/
theorem PurgedAway.not_holds {env : PstEnv} {manifest : PstManifest} {files : List (String × Bytes)}
    {u : String} {allowSuperseded : Bool} {v : GenerationVerification} {importId : Nat}
    (h : PurgedAway id t)
    (hv : verification env t manifest files importId u allowSuperseded = .ok v) {m : Message}
    (hid : m.id = id) : t.holds importId m = false := by
  rw [← Bool.not_eq_true]
  intro hholds
  obtain ⟨i,hi,hboth⟩ := List.any_eq_true.mp hholds
  rw [Bool.and_eq_true,beq_iff_eq,beq_iff_eq] at hboth
  obtain ⟨n,m',hn,hm',hpath⟩ := (verification_ok hv).2 i hi hboth.1
  have hnid : n = m.id := by simpa using hn.symm.trans hboth.2
  have hmem : m' ∈ t.mail.messages := List.mem_of_find?_eq_some hm'
  have hm'id : m'.id = n := by simpa using List.find?_some hm'
  exact hpath (h m' hmem (by rw [hm'id,hnid,hid])).1

theorem PurgedAway.exchanged (h : PurgedAway id t) {now : String} {shown retired : Nat}
    {onShown onRetired : PstImport → PstImport}
    (hshown : ∀ m : Message, m.id = id → t.holds shown m = false) :
    PurgedAway id (t.exchanged now shown retired onShown onRetired) := by
  intro m hm hid
  have hm : m ∈ ((t.setGenerationState shown .active none).setGenerationState retired .trashed
      (some now)).mail.messages := hm
  have hfirst : PurgedAway id (t.setGenerationState shown .active none) := by
    intro m hm hid
    rcases mem_update.mp hm with ⟨hm,-⟩ | ⟨n,hn,hholds,rfl⟩
    · exact h m hm hid
    · rw [hshown n hid] at hholds
      cases hholds
  rcases mem_update.mp hm with ⟨hm,-⟩ | ⟨n,hn,-,rfl⟩
  · exact hfirst m hm hid
  · exact ⟨(hfirst n hn hid).1,LocalState.noConfusion⟩

/-- The audit log has no part in it. -/
theorem PurgedAway.audited {t' : PstTables} (h : PurgedAway id t) (haudit : t.AuditedFrom t') : PurgedAway id t' := by
  obtain ⟨audit,rfl⟩ := haudit
  exact h

end

/-! ## The messages after a change -/

/-- The messages of the one generation are active, and those of the other that had not been purged
before are in the trash. -/
structure ShowsGeneration (before t : PstTables) (shown retired : Nat) : Prop where
  active : ∀ m ∈ t.mail.messages, t.holds shown m = true → t.holds retired m = false →
    m.localState = .active
  trashed : ∀ m ∈ t.mail.messages, t.holds retired m = true →
    (∀ old ∈ before.mail.messages, old.id = m.id → old.localState ≠ .purged) →
    m.localState = .trashed

theorem PstTables.showsGeneration_exchanged (t : PstTables) (now : String) (shown retired : Nat)
    (onShown onRetired : PstImport → PstImport) :
    ShowsGeneration t (t.exchanged now shown retired onShown onRetired) shown retired where
  active m hm hshown hretired := by
    -- The second statement does not reach the message, so it is as the first left it.
    rcases mem_update.mp hm with ⟨hm,-⟩ | ⟨n,-,hn,rfl⟩
    · rcases mem_update.mp hm with ⟨hm,hnot⟩ | ⟨n,-,-,rfl⟩
      · have hshown : t.holds shown m = true := hshown
        rw [hshown] at hnot
        cases hnot
      · rfl
    · have hretired : t.holds retired n = false := hretired
      have hn : t.holds retired n = true := hn
      rw [hretired] at hn
      cases hn
  trashed m hm hretired _ := by
    rcases mem_update.mp hm with ⟨-,hnot⟩ | ⟨n,-,-,rfl⟩
    · have hretired : t.holds retired m = true := hretired
      have hnot : t.holds retired m = false := hnot
      rw [hretired] at hnot
      cases hnot
    · rfl

theorem ShowsGeneration.audited {before t t' : PstTables} {shown retired : Nat}
    (h : ShowsGeneration before t shown retired) (haudit : t.AuditedFrom t') :
    ShowsGeneration before t' shown retired := by
  obtain ⟨audit,rfl⟩ := haudit
  exact ⟨h.active,h.trashed⟩

section
variable {d : PstDisk} {u old : String} {env : PstEnv} {gated : Bool} {v : GenerationVerification}
  {w : PstWorld}

theorem switchGeneration_shows {newId oldId tick : Nat}
    (h : switchGeneration env gated newId u oldId old (d.opened tick) = (.ok v,w)) :
    ShowsGeneration d.db.tables w.committed.tables newId oldId := by
  have hstops := @switchGeneration_stops d u old env gated newId oldId _ (d.at_opened u tick)
  rw [h] at hstops
  obtain ⟨s,hs,hw⟩ := hstops
  obtain ⟨now,db,hdb,-,haudit⟩ := hs.committed
  obtain ⟨-,-,-,-,-,htables⟩ := PstRepository.activateGeneration_ok_iff.mp hdb
  have hcommitted : w.committed = s.committed := congrArg Spot.committed hw.spot
  rw [hcommitted]
  rw [htables] at haudit
  exact (d.db.tables.showsGeneration_exchanged now newId oldId _ _).audited haudit

theorem restoreGeneration_shows {importId tick : Nat}
    (h : restoreGeneration env gated importId u old (d.opened tick) = (.ok v,w)) :
    ∃ current ∈ d.db.tables.imports, current.isActive = true ∧ current.replacesId = some importId ∧
      ShowsGeneration d.db.tables w.committed.tables importId current.id := by
  have hstops := @restoreGeneration_stops d u old env gated importId _ (d.at_opened u tick)
  rw [h] at hstops
  obtain ⟨s,hs,hw⟩ := hstops
  obtain ⟨now,db,hdb,haudit⟩ := hs.committed
  obtain ⟨-,current,-,-,hcurrent,hreplaces,htables⟩ :=
    PstRepository.restoreGeneration_ok_iff.mp hdb
  obtain ⟨hmem,hactive,-,-⟩ := PstTables.newestActive_eq_some hcurrent
  have hcommitted : w.committed = s.committed := congrArg Spot.committed hw.spot
  refine ⟨current,hmem,hactive,hreplaces.1,?_⟩
  rw [hcommitted]
  rw [htables] at haudit
  exact (d.db.tables.showsGeneration_exchanged now importId current.id _ _).audited haudit

end

/-! ## Histories -/

/-- The operations between which a purged message is followed: switches and restores of generations,
and what the user does with single messages, but for a restore of this one. -/
def PstOp.Follows (id : Nat) : PstOp → Prop
  | switchGeneration .. | restoreGeneration .. | trash .. | purge .. => True
  | untrash messageIds => id ∉ messageIds
  | recoverGenerationSwitch .. => False

theorem PurgedAway.step {id : Nat} {op : PstOp} {d d' : PstDisk} (hop : op.Follows id)
    (h : PurgedAway id d.db.tables) (hstep : OpStep op d d') : PurgedAway id d'.db.tables := by
  obtain ⟨env,tick,hsurvives⟩ := hstep
  cases op with
  | switchGeneration gated newId u oldId old =>
    obtain ⟨s,hs,hw⟩ := switchGeneration_stopped d u old env gated newId oldId tick
    have hdb : d'.db = s.committed := hsurvives.db.trans (congrArg Spot.committed hw.spot)
    rw [hdb]
    rcases hs with hs | hs
    · rw [hs.committed]
      exact h
    · obtain ⟨v,hv⟩ := hs.verified
      obtain ⟨now,db,hok,-,haudit⟩ := hs.committed
      obtain ⟨-,-,-,-,-,htables⟩ := PstRepository.activateGeneration_ok_iff.mp hok
      refine PurgedAway.audited ?_ haudit
      rw [htables]
      exact h.exchanged fun m hm => h.not_holds hv hm
  | restoreGeneration gated importId u old =>
    obtain ⟨s,hs,hw⟩ := restoreGeneration_stopped d u old env gated importId tick
    have hdb : d'.db = s.committed := hsurvives.db.trans (congrArg Spot.committed hw.spot)
    rw [hdb]
    rcases hs with hs | hs
    · rw [hs.committed]
      exact h
    · obtain ⟨v,hv⟩ := hs.verified
      obtain ⟨now,db,hok,haudit⟩ := hs.committed
      obtain ⟨-,current,-,-,-,-,htables⟩ := PstRepository.restoreGeneration_ok_iff.mp hok
      refine PurgedAway.audited ?_ haudit
      rw [htables]
      exact h.exchanged fun m hm => h.not_holds hv hm
  | recoverGenerationSwitch _ _ _ => exact hop.elim
  | trash ids trashedAt =>
    have hkeeps : Triple (Keeping d (PurgedAway id) fun _ _ => True) (trashPst env ids trashedAt)
        (fun _ => Keeping d (PurgedAway id) fun _ _ => True) fun _ => Keeping d (PurgedAway id) fun _ _ => True :=
      trashPst_keeps fun i _ repo hrepo => hrepo.setLocalState (fun _ => by decide) _
    exact (hkeeps.final (Keeping.opened h (fun _ => trivial) tick)).survives hsurvives |>.1
  | untrash ids =>
    have hkeeps : Triple (Keeping d (PurgedAway id) fun _ _ => True) (untrashPst env ids)
        (fun _ => Keeping d (PurgedAway id) fun _ _ => True) fun _ => Keeping d (PurgedAway id) fun _ _ => True :=
      untrashPst_keeps fun i hi repo hrepo =>
        hrepo.setLocalState (fun heq => absurd (heq ▸ hi) hop) _
    exact (hkeeps.final (Keeping.opened h (fun _ => trivial) tick)).survives hsurvives |>.1
  | purge u ids =>
    have hkeeps : Triple (Keeping d (PurgedAway id) fun _ _ => True) (purgePst env u ids)
        (fun _ => Keeping d (PurgedAway id) fun _ _ => True) fun _ => Keeping d (PurgedAway id) fun _ _ => True :=
      purgePst_keeps (PurgedAway.purgeKeeps id) (fun _ _ _ _ _ => trivial) ids
    exact (hkeeps.final (Keeping.opened h (fun _ => trivial) tick)).survives hsurvives |>.1

/-- A purged message stays without an EML and does not become active, through any switches and
restores and whatever the user does with other messages, until the user restores it from the trash.
A switch and a restore that succeed make every message of the generation they show active, also one
that the user had put into the trash, and every message of the other generation that had not been
purged a trashed one. -/
theorem generation_changes_decisions {id : Nat} {d d' : PstDisk}
    (hrun : Relation.ReflTransGen (fun d d' => ∃ op, op.Follows id ∧ OpStep op d d') d d') :
    ((∀ m ∈ d.db.tables.mail.messages, m.id = id → m.localState = .purged ∧ m.relativePath = none) →
      PurgedAway id d'.db.tables) ∧
    (∀ env gated newId u oldId old tick v w,
      switchGeneration env gated newId u oldId old (d'.opened tick) = (.ok v,w) →
        ShowsGeneration d'.db.tables w.committed.tables newId oldId) ∧
    ∀ env gated importId u old tick v w,
      restoreGeneration env gated importId u old (d'.opened tick) = (.ok v,w) →
        ∃ current ∈ d'.db.tables.imports, current.isActive = true ∧
          current.replacesId = some importId ∧
          ShowsGeneration d'.db.tables w.committed.tables importId current.id := by
  refine ⟨fun hpurged => ?_,fun _ _ _ _ _ _ _ _ _ => switchGeneration_shows,
    fun _ _ _ _ _ _ _ _ => restoreGeneration_shows⟩
  have hgone : PurgedAway id d.db.tables := by
    intro m hm hid
    obtain ⟨hstate,hpath⟩ := hpurged m hm hid
    exact ⟨hpath,by rw [hstate]; decide⟩
  induction hrun with
  | refl => exact hgone
  | tail _ hstep ih =>
    obtain ⟨op,hop,hstep⟩ := hstep
    exact ih.step hop hstep

/-! ## Two messages -/

/-- A message of the first generation. -/
def heldMessage (state : LocalState) (relativePath fileHash : Option String) : Message where
  id := 1
  accountId := "pst_a"
  messageId := none
  contentKey := ""
  sourceItemKey := .legacy "k"
  localState := state
  relativePath := relativePath
  fileHash := fileHash
  envelope := {}
  sizeBytes := some 0

/-- A generation with one message and a finished one without messages to replace it. -/
def heldTables (m : Message) (remoteStates : List (Nat × RemoteState)) : PstTables where
  mail :=
    { accounts := [{ id := "pst_a" },{ id := "pst_b" }]
      folders := [{ id := 1, accountId := "pst_a", rawName := "f", displayName := "f" }]
      messages := [m]
      nextMessageId := 2
      nextFolderId := 2 }
  remoteStates := remoteStates
  imports := [replacedImport,replacingImport]
  items := [{ importId := 1, sourceItemKey := "k", sourceRelativePath := "f/k.eml"
              folderRelativePath := "f", sourceSizeBytes := 0, sourceSha256 := oneHash
              finalRelativePath := some "p", messageRowId := some 1, status := .completed }]
  nextImportId := 3

def heldManifests : String → PstManifest :=
  Function.update (Function.update (fun _ => {}) "u1" {
    importJson := some [("import_uuid",.str "u1"),("account_id",.str "pst_a")]
    folders := some []
    events := [⟨"u1","t",.itemDiscovered ⟨"k","f/k.eml","f",0,oneHash⟩⟩,
      ⟨"u1","t",.importReady 1 "" ""⟩,⟨"u1","t",.itemSaved "k" "p" oneHash 0⟩] }) "u2" {
    importJson := some [("import_uuid",.str "u2"),("account_id",.str "pst_b")]
    folders := some []
    events := [⟨"u2","t",.importReady 0 "" ""⟩] }

/-- The message is purged, in the schema without `remote_state`. -/
def purgedDisk : PstDisk where
  db := ⟨heldTables (heldMessage .purged none none) [],by decide⟩
  manifests := heldManifests

/-- The message is in the trash, in the schema with `remote_state`. -/
def trashedDisk : PstDisk where
  db := ⟨heldTables (heldMessage .trashed (some "p") (some oneHash)) [(1,.noRemote)],
    by decide⟩
  manifests := heldManifests
  files := [("p",[])]

def hashingEnv : PstEnv := { crashingEnv none with sha256 := fun _ => oneHash }

/-- The local states of the messages, as committed. -/
def PstWorld.localStates (w : PstWorld) : List LocalState :=
  w.committed.tables.mail.messages.map Message.localState

/-- The disk after the second generation has replaced the first one. -/
def switched (d : PstDisk) : PstDisk :=
  (switchGeneration hashingEnv false 2 "u2" 1 "u1" (d.opened 0)).2.disk

theorem opStep_switched {d : PstDisk}
    (h : (switchGeneration hashingEnv false 2 "u2" 1 "u1" (d.opened 0)).2.flushed "u2" ≤
      ((switchGeneration hashingEnv false 2 "u2" 1 "u1" (d.opened 0)).2.manifests
        "u2").events.length) :
    OpStep (.switchGeneration false 2 "u2" 1 "u1") d (switched d) := by
  obtain ⟨s,-,hw⟩ := switchGeneration_stopped d "u2" "u1" hashingEnv false 2 1 0
  exact ⟨hashingEnv,0,hw.survives_disk h⟩

/-- A purged message stays away through a switch; a message in the trash is shown again by a switch
and a restore. -/
theorem generation_changes_decisions_purgedDisk :
    PurgedAway 1 (switched purgedDisk).db.tables ∧
    ∃ v w, restoreGeneration hashingEnv false 1 "u1" "u2" ((switched trashedDisk).opened 0) =
        (.ok v,w) ∧
      ∃ current ∈ (switched trashedDisk).db.tables.imports, current.isActive = true ∧
        current.replacesId = some 1 ∧
        ShowsGeneration (switched trashedDisk).db.tables w.committed.tables 1 current.id := by
  have hfollows := fun d h => @generation_changes_decisions 1 _ _ (Relation.ReflTransGen.single
    ⟨.switchGeneration false 2 "u2" 1 "u1",trivial,@opStep_switched d h⟩)
  refine ⟨(hfollows purgedDisk (by decide +kernel)).1 (by decide),?_⟩
  have hok : (restoreGeneration hashingEnv false 1 "u1" "u2"
      ((switched trashedDisk).opened 0)).1.isOk = true := by decide +kernel
  rcases hrestored : restoreGeneration hashingEnv false 1 "u1" "u2"
      ((switched trashedDisk).opened 0) with ⟨outcome,w⟩
  rw [hrestored] at hok
  cases outcome with
  | error e => cases hok
  | ok v =>
    exact ⟨v,w,rfl,(hfollows trashedDisk (by decide +kernel)).2.2 hashingEnv false 1 "u1" "u2" 0
      v w hrestored⟩

/-- A switch puts a purged message into the trash; a switch and a restore make a trashed message
active. -/
theorem switch_restore_forget_decisions :
    (purgedDisk.opened 0).localStates = [.purged] ∧
    (switchGeneration hashingEnv false 2 "u2" 1 "u1" (purgedDisk.opened 0)).2.localStates =
      [.trashed] ∧
    (trashedDisk.opened 0).localStates = [.trashed] ∧
    (restoreGeneration hashingEnv false 1 "u1" "u2"
      ((switchGeneration hashingEnv false 2 "u2" 1 "u1" (trashedDisk.opened 0)).2.disk.opened
        0)).2.localStates = [.active] := by
  refine ⟨?_,?_,?_,?_⟩
  · decide
  · decide +kernel
  · decide
  · decide +kernel

end MailDock
