import MailDock.Storage.Quarantine

/-!
# Which files the orphan scan moves

`orphan_scan` decides by the paths and hashes of the database and the last event of each path in
the manifests of the IMAP accounts.  What it leaves alone is said for every outcome of the scan,
what it moves for a scan that comes to its end.
-/

namespace MailDock

open Hoare

section
variable (env : Env) (events : List ProvenanceEvent) (t : Tables) (files : List (String × Bytes))

/-- The database has the path, or the last event of the path has the hash and the database has
no message with it. -/
def Recognised (relativePath fileHash : String) : Prop :=
  relativePath ∈ t.knownPaths ∨
    (∃ e, provenanceOf events relativePath = some e ∧ e.fileHash = fileHash) ∧
      fileHash ∉ t.knownHashes

/-- A file the scan moves when it gets to it. -/
def Condemned (relativePath : String) : Prop :=
  ∃ raw, files.lookup relativePath = some raw ∧ ¬Recognised events t relativePath (env.sha256 raw)

/-- The files below `eml` when some paths are done. -/
def ScannedTo (done : List String) (w : World) : Prop :=
  ∀ p, isEmlPath p = true → (p ∈ done → Condemned env events t files p → w.files.lookup p = none) ∧
    (¬(p ∈ done ∧ Condemned env events t files p) → w.files.lookup p = files.lookup p)

end

section
variable {env : Env} {events : List ProvenanceEvent} {t : Tables} {files : List (String × Bytes)}
  {done : List String}

theorem registerable_isSome_iff {relativePath fileHash : String}
    (hunknown : relativePath ∉ t.knownPaths) :
    (registerable events t.knownHashes relativePath fileHash).isSome = true ↔
      Recognised events t relativePath fileHash := by
  rw [registerable,Recognised,or_iff_right hunknown]
  cases hevent : provenanceOf events relativePath with
  | none => simp
  | some e =>
    by_cases h : e.fileHash = fileHash ∧ fileHash ∉ t.knownHashes
    · simp [h.1,h.2]
    · simp only [if_neg h,Option.isSome_none,Bool.false_eq_true,false_iff]
      rintro ⟨⟨e',he',hhash⟩,hnew⟩
      cases he'
      exact h ⟨hhash,hnew⟩

theorem scannedTo_closed : Closed checkFootprint (ScannedTo env events t files done) where
  ticked _ h := h
  logged _ _ _ _ h := h
  saved _ _ _ hnote := hnote.elim
  appended _ _ _ he := he.elim
  began _ _ h := h
  written w op db _ _ h := by
    rw [World.written]
    split
    · exact h
    · exact h
  committed _ h := h
  counted _ _ _ h := h

/-- A path that is not moved is done without any change. -/
theorem ScannedTo.skip {w : World} (h : ScannedTo env events t files done w) {p : String}
    (hkept : ¬Condemned env events t files p) :
    ScannedTo env events t files (done ++ [p]) w := by
  intro q hq
  obtain ⟨hgone,hleft⟩ := h q hq
  refine ⟨fun hmem hcondemned => ?_,fun hnot => hleft fun hboth => ?_⟩
  · rw [List.mem_append,List.mem_singleton] at hmem
    obtain hmem | rfl := hmem
    · exact hgone hmem hcondemned
    · exact (hkept hcondemned).elim
  · exact hnot ⟨List.mem_append_left _ hboth.1,hboth.2⟩

theorem not_isEmlPath_quarantine {p : String} (h : inQuarantine p = true) : isEmlPath p = false := by
  rw [inQuarantine,List.isPrefixOf_iff_prefix] at h
  obtain ⟨rest,hrest⟩ := h
  have htmp : "tmp/quarantine/".toList = 't' :: "mp/quarantine/".toList := by decide
  have heml : "eml/".toList = ['e','m','l','/'] := by decide
  rw [isEmlPath,← hrest,htmp,heml]
  rfl

/-- A condemned file is gone after its move, and no other file below `eml` is touched. -/
theorem ScannedTo.moved {w : World} (h : ScannedTo env events t files done w) {p : String}
    (hcondemned : Condemned env events t files p) {uuid : String} {raw : Bytes} :
    ScannedTo env events t files (done ++ [p]) (w.movedFile p (quarantinePath p uuid) raw) := by
  intro q hq
  obtain ⟨hgone,hleft⟩ := h q hq
  have hdest : q ≠ quarantinePath p uuid := by
    rintro rfl
    rw [not_isEmlPath_quarantine (inQuarantine_quarantinePath p uuid)] at hq
    cases hq
  rw [World.lookup_movedFile,if_neg hdest]
  by_cases hsame : q = p
  · subst hsame
    refine ⟨fun _ _ => if_pos rfl,fun hnot => ?_⟩
    exact (hnot ⟨List.mem_append_right _ List.mem_cons_self,hcondemned⟩).elim
  · rw [if_neg hsame,List.mem_append,List.mem_singleton,or_iff_left hsame]
    exact ⟨hgone,hleft⟩

theorem hashChunks_scanned (p : String) :
    Triple (ScannedTo env events t files done) (hashChunks env p)
      (fun found w => ScannedTo env events t files done w ∧
        ∀ actual, found = .hash actual → ∃ raw, w.files.lookup p = some raw ∧
          actual = env.sha256 raw)
      fun _ => ScannedTo env events t files done := by
  refine (Within.storageCall _ scannedTo_closed).seq fun tick => ?_
  refine (Triple.read (Q := fun v w => v = w ∧ ScannedTo env events t files done w)
    fun w hw => ⟨rfl,hw⟩).seq fun v => ?_
  cases hlookup : v.files.lookup p with
  | none =>
    refine Triple.ret ?_
    rintro _ ⟨rfl,hw⟩
    exact ⟨hw,fun actual h => by cases h⟩
  | some raw =>
    dsimp only
    split
    · refine Triple.ret ?_
      rintro _ ⟨rfl,hw⟩
      exact ⟨hw,fun actual h => by cases h⟩
    · refine Triple.ret ?_
      rintro _ ⟨rfl,hw⟩
      refine ⟨hw,fun actual h => ⟨raw,hlookup,?_⟩⟩
      cases h
      rfl

/-- The scan of the rest of the paths, from any place of the loop. -/
theorem orphanScanLoop_scanned (rest : List String) (hpaths : ∀ p ∈ rest, isEmlPath p = true)
    (result : OrphanScanResult) :
    Triple (ScannedTo env events t files done)
      (orphanScanLoop env events t.knownPaths t.knownHashes rest result)
      (fun r w => (∃ d, ScannedTo env events t files d w) ∧
        (r.cancelled = false → ScannedTo env events t files (done ++ rest) w))
      fun _ w => ∃ d, ScannedTo env events t files d w := by
  induction rest generalizing done result with
  | nil =>
    refine Triple.ret fun w hw => ⟨⟨done,hw⟩,fun _ => ?_⟩
    rwa [List.append_nil]
  | cons p rest ih =>
    have hp := hpaths p List.mem_cons_self
    have hcontinue := fun done => @ih done fun q hq => hpaths q (List.mem_cons_of_mem _ hq)
    have hquiet : ∀ {α : Type} {program : App α}, Within checkFootprint program → ∀ d,
        Triple (ScannedTo env events t files d) program
          (fun _ => ScannedTo env events t files d)
          (fun _ w => ∃ d, ScannedTo env events t files d w) :=
      fun hwithin d => (hwithin _ scannedTo_closed).consequence (fun _ h => h) (fun _ _ h => h)
        fun _ w h => ⟨d,h⟩
    refine (hquiet Within.isCancelled done).seq fun stop => ?_
    split
    · exact Triple.ret fun w hw => ⟨⟨done,hw⟩,fun h => by cases h⟩
    · rw [List.append_cons]
      dsimp only
      split
      · next hknown =>
        refine (hcontinue (done ++ [p]) _).weaken_pre fun w hw => hw.skip ?_
        rintro ⟨raw,-,hnot⟩
        exact hnot (.inl hknown)
      · next hunknown =>
        refine ((hashChunks_scanned p).consequence (fun _ h => h) (fun _ _ h => h)
          fun _ w h => ⟨done,h⟩).seq fun found => ?_
        cases found with
        | cancelled => exact Triple.ret fun w hw => ⟨⟨done,hw.1⟩,fun h => by cases h⟩
        | missing => exact Triple.raise fun w hw => ⟨done,hw.1⟩
        | hash actual =>
          -- the file still has the content it had when the scan began
          refine Triple.weaken_pre (P := fun w => (ScannedTo env events t files done w ∧
            ∃ raw, w.files.lookup p = some raw) ∧ ∃ raw, files.lookup p = some raw ∧
              actual = env.sha256 raw) (Triple.assume ?_) fun w hw => ?_
          · rintro ⟨raw,hraw,rfl⟩
            dsimp only
            split
            · next hregister =>
              refine (hcontinue (done ++ [p]) _).weaken_pre fun w hw => hw.1.skip ?_
              rintro ⟨raw',hraw',hnot⟩
              rw [hraw,Option.some.injEq] at hraw'
              subst hraw'
              exact hnot ((registerable_isSome_iff hunknown).mp (by rw [hregister]; rfl))
            · next hregister =>
              have hcondemned : Condemned env events t files p := by
                refine ⟨raw,hraw,fun hrecognised => ?_⟩
                have hsome := (registerable_isSome_iff hunknown).mpr hrecognised
                rw [hregister] at hsome
                cases hsome
              refine Triple.seq (Q := fun _ => ScannedTo env events t files (done ++ [p])) ?_
                fun _ => (hquiet Within.timestamp _).seq fun now =>
                  (hquiet (Within.writeRepo trivial) _).seq fun _ => hcontinue (done ++ [p]) _
              refine quarantineEml_rule ?_ ?_ fun w e hw _ => ⟨done,hw.1⟩
              · rintro w ⟨-,raw',hfound⟩ hnone
                rw [hfound] at hnone
                cases hnone
              · exact fun w raw' hw _ => ScannedTo.moved (w := w.ticked) hw.1 hcondemned
          · obtain ⟨raw,hraw,hactual⟩ := hw.2 actual rfl
            refine ⟨⟨hw.1,raw,hraw⟩,raw,?_,hactual⟩
            obtain ⟨hgone,hleft⟩ := hw.1 p hp
            rw [← hraw]
            refine (hleft fun hboth => ?_).symm
            rw [hgone hboth.1 hboth.2] at hraw
            cases hraw

/-- A whole scan, however it ends. -/
theorem orphanScan_scanned (w : World) :
    Triple (fun v => v = w) (orphanScan env events)
      (fun r v => (∃ d, ScannedTo env events w.db.tables w.files d v) ∧
        (r.cancelled = false → ScannedTo env events w.db.tables w.files
          ((w.files.map Prod.fst).filter isEmlPath) v))
      fun _ v => ∃ d, ScannedTo env events w.db.tables w.files d v := by
  have hstart : ∀ v : World, v.files = w.files →
      ScannedTo env events w.db.tables w.files [] v := by
    intro v hv p _
    refine ⟨fun hmem => ?_,fun _ => by rw [hv]⟩
    cases hmem
  have hraise : ∀ v : World, v.files = w.files ∧ v.db = w.db →
      ∃ d, ScannedTo env events w.db.tables w.files d v := fun v hv => ⟨[],hstart v hv.1⟩
  have hpaths : Triple (fun v => v = w) (iterEmlPaths env)
      (fun paths v => (v.files = w.files ∧ v.db = w.db) ∧
        ∀ p, p ∈ paths ↔ p ∈ (w.files.map Prod.fst).filter isEmlPath)
      fun _ v => ∃ d, ScannedTo env events w.db.tables w.files d v := by
    refine (storageCall_rule (Q := fun _ v => v.files = w.files ∧ v.db = w.db) ?_ ?_).seq
      fun _ => ?_
    · rintro _ rfl
      exact ⟨rfl,rfl⟩
    · rintro _ e rfl -
      exact hraise _ ⟨rfl,rfl⟩
    · refine (Triple.read (Q := fun v (v' : World) => (v'.files = w.files ∧ v'.db = w.db) ∧
        World.files v = w.files) fun v hv => ⟨hv,hv.1⟩).seq fun v => Triple.ret ?_
      rintro v' ⟨hv',hv⟩
      refine ⟨hv',fun p => ?_⟩
      rw [List.mem_insertionSort,List.mem_dedup,hv]
  refine hpaths.seq fun paths => Triple.assume fun hmem => ?_
  refine (queryRepo_rule (Q := fun known v => (v.files = w.files ∧ v.db = w.db) ∧
    known = w.db.tables.knownPaths)
      (fun v hv => ⟨hv,congrArg (fun db => db.tables.knownPaths) hv.2⟩)
      fun v _ hv _ => hraise _ hv).seq fun known => Triple.assume ?_
  rintro rfl
  refine (queryRepo_rule (Q := fun known v => (v.files = w.files ∧ v.db = w.db) ∧
    known = w.db.tables.knownHashes)
      (fun v hv => ⟨hv,congrArg (fun db => db.tables.knownHashes) hv.2⟩)
      fun v _ hv _ => hraise _ hv).seq fun known => Triple.assume ?_
  rintro rfl
  have hloop := @orphanScanLoop_scanned env events w.db.tables w.files [] paths
    (fun p hp => (List.mem_filter.mp ((hmem p).mp hp)).2) {}
  refine hloop.consequence (fun v hv => hstart v hv.1) (fun r v hv => ⟨hv.1,fun hr => ?_⟩)
    fun _ _ hv => hv
  -- only which paths are done matters, not their order
  intro p hp
  have hdone := hv.2 hr p hp
  rw [List.nil_append] at hdone
  rw [← hmem]
  exact hdone

end

/-- A fetch of some account or a saved item of some PST import has the path and the hash. -/
def HasProvenance (manifests : String → List ManifestEvent) (directories : List String)
    (pstManifests : List (List ProvenanceEvent)) (relativePath fileHash : String) : Prop :=
  (∃ account ∈ directories, ∃ event ∈ manifests account, ∃ e, event.provenance = some e ∧
    e.relativePath = relativePath ∧ e.fileHash = fileHash) ∨
  ∃ generation ∈ pstManifests, ∃ e ∈ generation,
    e.relativePath = relativePath ∧ e.fileHash = fileHash

/-- The events the application hands to the scan. -/
def scannedEvents (manifests : String → List ManifestEvent) (directories : List String)
    (t : Tables) : List ProvenanceEvent :=
  (combinedManifest manifests directories t).filterMap ManifestEvent.provenance

section
variable (env : Env) (manifests : String → List ManifestEvent) (directories : List String)
  (pstManifests : List (List ProvenanceEvent))

def LeavesProvenance (w w' : World) : Prop :=
  ∀ p raw, isEmlPath p = true → w.files.lookup p = some raw →
    HasProvenance manifests directories pstManifests p (env.sha256 raw) →
    w'.files.lookup p = some raw

def ProvenanceRecognised (w : World) : Prop :=
  ∀ p raw, isEmlPath p = true → w.files.lookup p = some raw →
    HasProvenance manifests directories pstManifests p (env.sha256 raw) →
    Recognised (scannedEvents manifests directories w.db.tables) w.db.tables p (env.sha256 raw)

/-- When every EML with a provenance is recognised, a scan leaves these files alone, however it
ends; a scan that comes to its end leaves them alone only then. -/
theorem orphanScan_leavesProvenance_iff (w : World) :
    (ProvenanceRecognised env manifests directories pstManifests w →
      LeavesProvenance env manifests directories pstManifests w
        (orphanScan env (scannedEvents manifests directories w.db.tables) w).2) ∧
    ∀ result w',
      orphanScan env (scannedEvents manifests directories w.db.tables) w = (.ok result,w') →
      result.cancelled = false →
      (LeavesProvenance env manifests directories pstManifests w w' ↔
        ProvenanceRecognised env manifests directories pstManifests w) := by
  have hscan := @orphanScan_scanned env (scannedEvents manifests directories w.db.tables) w w rfl
  have hsafe : ∀ w' : World, (∃ d, ScannedTo env
      (scannedEvents manifests directories w.db.tables) w.db.tables w.files d w') →
      ProvenanceRecognised env manifests directories pstManifests w →
      LeavesProvenance env manifests directories pstManifests w w' := by
    rintro w' ⟨d,hd⟩ hrecognised p raw hp hlookup hprovenance
    rw [(hd p hp).2,hlookup]
    rintro ⟨-,raw',hraw',hnot⟩
    rw [hlookup,Option.some.injEq] at hraw'
    subst hraw'
    exact hnot (hrecognised p raw hp hlookup hprovenance)
  constructor
  · rcases hrun : orphanScan env (scannedEvents manifests directories w.db.tables) w with ⟨r,w'⟩
    rw [hrun] at hscan
    cases r with
    | ok r => exact hsafe w' hscan.1
    | error e => exact hsafe w' hscan
  · intro result w' hrun hcompleted
    rw [hrun] at hscan
    refine ⟨fun hleaves p raw hp hlookup hprovenance => ?_,hsafe w' hscan.1⟩
    by_contra hnot
    have hmem : p ∈ (w.files.map Prod.fst).filter isEmlPath := by
      obtain ⟨before,after,hsplit,-⟩ := List.lookup_eq_some_iff.mp hlookup
      rw [List.mem_filter,hsplit]
      exact ⟨by simp,hp⟩
    have hgone := (hscan.2 hcompleted p hp).1 hmem ⟨raw,hlookup,hnot⟩
    rw [hleaves p raw hp hlookup hprovenance] at hgone
    cases hgone

end

/-- One EML in the storage and an empty database. -/
def loneEml : World := World.opened .empty [] none [("eml/a/2024/01/5.eml",[1])] 0

/-- A fetch of the lone EML. -/
def loneFetch : FetchEvent :=
  { accountId := "a", folderId := 1, folderRawName := "INBOX", uid := 3, uidvalidity := 7,
    sourceItemKey := .imap "INBOX" 7 3, messageId := none, relativePath := "eml/a/2024/01/5.eml",
    fileHash := "5", sizeBytes := 1, internalDate := none, timestamp := "", deduplicated := false }

theorem lone_eml_left_alone :
    LeavesProvenance tallyEnv (fun _ => [.fetch loneFetch]) ["a"] [] loneEml
      (orphanScan tallyEnv (scannedEvents (fun _ => [.fetch loneFetch]) ["a"] loneEml.db.tables)
        loneEml).2 := by
  have hevents : scannedEvents (fun _ => [.fetch loneFetch]) ["a"] loneEml.db.tables =
      [⟨"eml/a/2024/01/5.eml","5",.imap "INBOX" 7 3⟩] := by decide
  refine (orphanScan_leavesProvenance_iff tallyEnv (fun _ => [.fetch loneFetch]) ["a"] []
    loneEml).1 ?_
  rintro p raw - hlookup (⟨account,-,event,hevent,e,he,rfl,hhash⟩ | ⟨generation,hgeneration,-⟩)
  · rw [List.mem_singleton.mp hevent] at he
    cases he
    rw [hevents]
    refine .inr ⟨⟨_,by decide,hhash⟩,?_⟩
    rw [show loneEml.db.tables.knownHashes = [] from rfl]
    exact List.not_mem_nil
  · cases hgeneration

/-- The EML was saved by a PST import; its manifest is not among those the scan reads. -/
theorem pst_item_quarantined :
    HasProvenance (fun _ => []) [] [[⟨"eml/a/2024/01/5.eml","5",.legacy "pst-item"⟩]]
      "eml/a/2024/01/5.eml" (tallyEnv.sha256 [1]) ∧
    (orphanScan tallyEnv (scannedEvents (fun _ => []) [] loneEml.db.tables) loneEml).1 =
      .ok { checkedCount := 1, quarantinedPaths := ["eml/a/2024/01/5.eml"] } ∧
    ¬LeavesProvenance tallyEnv (fun _ => []) []
      [[⟨"eml/a/2024/01/5.eml","5",.legacy "pst-item"⟩]] loneEml
      (orphanScan tallyEnv (scannedEvents (fun _ => []) [] loneEml.db.tables) loneEml).2 := by
  have hprovenance : HasProvenance (fun _ => []) []
      [[⟨"eml/a/2024/01/5.eml","5",.legacy "pst-item"⟩]] "eml/a/2024/01/5.eml"
      (tallyEnv.sha256 [1]) :=
    .inr ⟨_,List.mem_cons_self,_,List.mem_cons_self,rfl,rfl⟩
  refine ⟨hprovenance,by decide,fun hleaves => ?_⟩
  have hkept := hleaves "eml/a/2024/01/5.eml" [1] (by decide) rfl hprovenance
  have hgone : (orphanScan tallyEnv (scannedEvents (fun _ => []) [] loneEml.db.tables)
      loneEml).2.files.lookup "eml/a/2024/01/5.eml" = none := by decide
  rw [hgone] at hkept
  cases hkept

end MailDock
