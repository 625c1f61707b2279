import MailDock.Sync.Steps

/-!
# Walking through a folder

Every range of a folder is made of the same few steps: an item becomes pending, a
batch is committed, a cursor moves.  An invariant kept by these steps is kept by
`scanFolder`, on every path through it.

## Main definitions

- `ScanSteps` — an invariant kept by the steps of a folder scan before it refreshes the flags
- `ScanWalk` — an invariant kept by the steps of a folder scan that meets certain references
- `FolderWalk` — an invariant kept by the steps of any folder scan
-/

namespace MailDock

open Hoare

def scanFootprint : Footprint where
  note
    | .flush | .command (.select _) | .answer _ (.flags _ _ _) => True
    | _ => False
  event
    | .membershipSnapshot _ => True
    | _ => False
  op
    | .updateFlags .. | .touchFlagsSeenAt .. | .updateGmailLabels .. | .setHighestModseq ..
    | .updateSyncCursors .. => True
    | _ => False

theorem flagFootprint_le_scan : flagFootprint.Le scanFootprint where
  note e he := by
    cases e with
    | flush => trivial
    | command c => cases c <;> exact he
    | answer t a => cases a <;> exact he
    | _ => exact he
  event e he := by cases e <;> exact he
  op o ho := by cases o <;> first | exact ho | trivial

/-- A folder scan without its snapshots. -/
def scanStoreFootprint : Footprint := { scanFootprint with event := fun _ => False }

theorem scanStoreFootprint_le : scanStoreFootprint.Le scanFootprint where
  note _ he := he
  event _ he := he.elim
  op _ ho := ho

theorem flagStoreFootprint_le_scan : flagStoreFootprint.Le scanStoreFootprint where
  note := flagFootprint_le_scan.note
  event _ he := he
  op := flagFootprint_le_scan.op

/-- What a folder scan does itself before it refreshes the flags. -/
def stepFootprint : Footprint where
  note
    | .command (.select _) => True
    | _ => False
  op
    | .updateSyncCursors .. => True
    | _ => False

theorem stepFootprint_le : stepFootprint.Le scanStoreFootprint where
  note e he := by
    cases e with
    | command c => cases c <;> exact he
    | _ => exact he.elim
  event _ he := he
  op o ho := by cases o <;> first | exact ho.elim | trivial

/-! The parts of a run. -/

section
variable (env : Env) (accountId : String)

/-- A folder scan before the refresh of flags; the result is the new `initial_completed`. -/
def scanMessages (options : SyncOptions) (folder : Folder) (uidvalidity : Nat)
    (cursors : FolderCursors) : App Bool := do
  retryPendingFailures env accountId options folder uidvalidity
  let lastSeenUid ← scanNew env accountId options folder uidvalidity cursors.lastSeenUid
  let completed ←
    (if !cursors.initialCompleted && 0 < cursors.backfillNextUid then
      scanHistory env accountId options folder uidvalidity cursors.backfillNextUid
    else pure cursors.initialCompleted : App Bool)
  let _ ← scanNew env accountId options folder uidvalidity lastSeenUid
  commitPending env accountId none
  pure completed

theorem scanFolder_eq (options : SyncOptions) (folder : Folder) (uidvalidity : Nat) (google : Bool)
    (cursors : FolderCursors) : scanFolder env accountId options folder uidvalidity google cursors =
      (scanMessages env accountId options folder uidvalidity cursors >>= fun completed =>
        (tryCatch (refreshFlags env accountId google options folder uidvalidity completed) fun e =>
          if e.isAuthentication || e.isCancelled then throw e
          else if e.isFetchError then pure ()
          else throw e) >>= fun _ => pure false) := by
  simp only [scanFolder,scanMessages,Prog.bind_assoc]
  rfl

/-- What `sync_folder` does before its `try`. -/
def enterFolder (folder : Folder) : App (Nat × FolderCursors) := do
  let uidvalidity ← selectFolder env folder.rawName
  modifySession fun s => { s with selected := (folder.id,uidvalidity) :: s.selected }
  let cursors ← openCursors env accountId folder uidvalidity
  modifySession fun s => { s with pending := [], attempted := [] }
  pure (uidvalidity,cursors)

theorem syncFolder_eq (google : Bool) (options : SyncOptions) (folder : Folder) :
    syncFolder env accountId google options folder =
      (enterFolder env accountId folder >>= fun opened =>
        tryCatch (scanFolder env accountId options folder opened.1 google opened.2) fun e =>
          if e.isCancelled then do
            commitPending env accountId none
            pure true
          else if e.isAuthentication then do
            commitPending env accountId none
            throw e
          else throw e) := by
  simp only [syncFolder,enterFolder,Prog.bind_assoc]
  rfl

/-- What `sync_account` does before it scans a folder. -/
def openRun : App (Bool × List Folder) := do
  ensureImapAccount env accountId
  let accounts ← queryRepo env Tables.listAccounts
  let targets ← queryRepo env fun t => t.listSyncTargets accountId
  modify fun w => { w with session :=
    { checkpointSequence := w.lastCheckpointSequence.getD 0 } }
  pure (isGoogleAccount accountId accounts,targets)

theorem syncAccount_eq (options : SyncOptions) :
    syncAccount env accountId options =
      (openRun env accountId >>= fun opened =>
        syncTargets env accountId options opened.1 opened.2) := by
  simp only [syncAccount,openRun,Prog.bind_assoc]
  rfl

end

/-- The steps of a folder scan before the refresh of flags keep `I`, as long as every reference
is one of those `admitted`; what they raise leaves `E`.  A range `isOpen` when the references it
yields are admitted. -/
structure ScanSteps (env : Env) (accountId : String) (options : SyncOptions) (folder : Folder)
    (uidvalidity : Nat) (admitted : RemoteMessageRef → Prop) (isOpen : Nat → Nat → Prop)
    (I : World → Prop) (E : Error → World → Prop) : Prop where
  closed : Closed stepFootprint I
  raised : ∀ w e, I w → E e w
  attempted : ∀ w uids, I w → I { w with session := { w.session with attempted := uids } }
  refs : ∀ t minUid maxUid ref, isOpen minUid maxUid →
    env.nextRef t folder.rawName minUid maxUid = some ref →
    admitted ref ∧ isOpen minUid (ref.uid - 1)
  failures : Triple I (queryRepo env fun t => t.pendingFailures accountId folder.id uidvalidity)
    (fun failures w => I w ∧ ∀ failure ∈ failures, ∀ t ref,
      env.nextRef t folder.rawName failure.uid failure.uid = some ref →
      (failure.errorClass = .oversize && ref.sizeBytes.any (options.maxMessageBytes < ·)) = false →
      admitted ref) E
  processRef : ∀ ref, admitted ref → Triple I
    (processRef env accountId options folder.rawName folder.id uidvalidity ref) (fun _ => I) E
  commitPending : ∀ cursor, Triple I (commitPending env accountId cursor) (fun _ => I) E

namespace ScanSteps

variable {env : Env} {accountId : String} {options : SyncOptions} {folder : Folder}
  {uidvalidity : Nat} {admitted : RemoteMessageRef → Prop} {isOpen : Nat → Nat → Prop}
  {I : World → Prop} {E : Error → World → Prop}

theorem within {α : Type} {p : App α}
    (h : ScanSteps env accountId options folder uidvalidity admitted isOpen I E)
    (hp : Within stepFootprint p) : Triple I p (fun _ => I) E :=
  (hp I h.closed).consequence (fun _ hw => hw) (fun _ _ hw => hw) fun e w hw => h.raised w e hw

variable (h : ScanSteps env accountId options folder uidvalidity admitted isOpen I E)

include h

theorem nextRef (minUid maxUid : Nat) :
    Triple I (nextRef env folder.rawName minUid maxUid) (fun found w => I w ∧ ∀ ref ∈ found,
      ∃ t, env.nextRef t folder.rawName minUid maxUid = some ref) E := by
  refine (h.within Within.nextTick).seq fun t => (h.within (Within.raiseFault _)).seq fun _ =>
    Triple.ret fun w hw => ⟨hw,fun ref href => ⟨t,href⟩⟩

theorem markAttempted (uid : Nat) : Triple I (markAttempted uid) (fun _ => I) E :=
  Triple.write fun w hw => h.attempted w _ hw

theorem commitIfFull (cursor : Option CursorUpdate) :
    Triple I (commitIfFull env accountId cursor) (fun _ => I) E := by
  refine (h.within Within.read).seq fun w => ?_
  split
  · exact (h.commitPending cursor).seq fun _ => Triple.ret fun _ hw => hw
  · exact Triple.ret fun _ hw => hw

theorem retryPendingFailures :
    Triple I (retryPendingFailures env accountId options folder uidvalidity) (fun _ => I) E := by
  refine h.failures.seq fun failures => Triple.assume fun hadmitted =>
    Triple.loop _ fun failure hmem => ?_
  refine (h.nextRef _ _).seq fun found => Triple.assume fun hfound => ?_
  split
  · exact Triple.ret fun _ hw => hw
  · next ref =>
    refine (h.markAttempted _).seq fun _ => ?_
    split
    · exact Triple.ret fun _ hw => hw
    · next hretried =>
      obtain ⟨t,href⟩ := hfound ref rfl
      have href : admitted ref := hadmitted failure hmem t ref href (by simpa using hretried)
      exact (h.processRef ref href).seq fun _ => (h.commitIfFull none).seq fun _ =>
        Triple.ret fun _ hw => hw

theorem processRangeRef (history : Bool) {ref : RemoteMessageRef} (href : admitted ref)
    (minimumSeen : Option Nat) :
    Triple I (processRangeRef env accountId options folder uidvalidity history ref minimumSeen)
      (fun _ => I) E := by
  refine (h.within Within.read).seq fun w => ?_
  split
  · exact Triple.ret fun _ hw => hw
  · exact (h.markAttempted _).seq fun _ => (h.processRef ref href).seq fun _ =>
      (h.commitIfFull _).seq fun _ => Triple.ret fun _ hw => hw

theorem processRefs (history : Bool) (minUid limit maxUid : Nat) (minimumSeen : Option Nat)
    (hopen : isOpen minUid maxUid) :
    Triple I (processRefs env accountId options folder uidvalidity history minUid limit maxUid
      minimumSeen) (fun _ => I) E := by
  induction limit generalizing maxUid minimumSeen with
  | zero => exact Triple.ret fun _ hw => hw
  | succ limit ih =>
    refine (h.nextRef _ _).seq fun found => Triple.assume fun hfound => ?_
    split
    · exact Triple.ret fun _ hw => hw
    · next ref =>
      obtain ⟨t,href⟩ := hfound ref rfl
      obtain ⟨hadmitted,hrest⟩ := h.refs t minUid maxUid ref hopen href
      exact (h.processRangeRef _ hadmitted _).seq fun seen => ih _ seen hrest

theorem processRange (history : Bool) (minUid maxUid : Nat) (hopen : isOpen minUid maxUid) :
    Triple I (processRange env accountId options folder uidvalidity history minUid maxUid)
      (fun _ => I) E :=
  (h.within Within.nextTick).seq fun _ => h.processRefs _ _ _ _ _ hopen

/-- The result is never below the cursor it started from. -/
theorem scanNew (lastSeenUid : Nat) (hopen : ∀ maxUid, isOpen (lastSeenUid + 1) maxUid) :
    Triple I (scanNew env accountId options folder uidvalidity lastSeenUid)
      (fun last w => I w ∧ lastSeenUid ≤ last) E := by
  refine (h.within (Within.getMaxUid trivial)).seq fun maxUid => ?_
  split
  · next hnew =>
    exact (h.processRange _ _ _ (hopen maxUid)).seq fun _ => (h.commitPending _).seq fun _ =>
      Triple.ret fun _ hw => ⟨hw,hnew.le⟩
  · exact Triple.ret fun _ hw => ⟨hw,le_refl _⟩

theorem commitHistory (minimumSeen : Option Nat) :
    Triple I (commitHistory env accountId folder minimumSeen) (fun _ => I) E := by
  refine (h.within Within.read).seq fun w => ?_
  split
  · split
    · exact h.within (Within.beginBatch.seq fun _ => (Within.writeRepo trivial).seq fun _ =>
        Within.commitBatch)
    · exact Triple.ret fun _ hw => hw
  · exact h.commitPending _

theorem scanHistory (limit : Nat) (hopen : isOpen 1 limit) :
    Triple I (scanHistory env accountId options folder uidvalidity limit) (fun _ => I) E :=
  (h.processRange _ _ _ hopen).seq fun seen => (h.commitHistory seen).seq fun _ =>
    Triple.ret fun _ hw => hw

theorem scanMessages {J : World → Prop} (cursors : FolderCursors)
    (hnew : ∀ minUid maxUid, cursors.lastSeenUid < minUid → isOpen minUid maxUid)
    (hhistory : cursors.initialCompleted = false → isOpen 1 cursors.backfillNextUid)
    (hcommit : Triple I (MailDock.commitPending env accountId none) (fun _ => J) E) :
    Triple I (scanMessages env accountId options folder uidvalidity cursors) (fun _ => J) E := by
  refine h.retryPendingFailures.seq fun _ =>
    (h.scanNew _ fun maxUid => hnew _ maxUid (Nat.lt_succ_self _)).seq fun last =>
    Triple.assume fun hlast =>
    Triple.seq (Q := fun _ => I) ?_ fun completed =>
    (h.scanNew _ fun maxUid => hnew _ maxUid (by omega)).seq fun _ => Triple.assume fun _ =>
    hcommit.seq fun _ => Triple.ret fun _ hw => hw
  split
  · next hunfinished =>
    rw [Bool.and_eq_true,Bool.not_eq_true'] at hunfinished
    exact h.scanHistory _ (hhistory hunfinished.1)
  · exact Triple.ret fun _ hw => hw

/-- The refresh of flags comes last, and leads from `J` to `K`. -/
theorem scanFolder {J K : World → Prop} (google : Bool) (cursors : FolderCursors)
    (hnew : ∀ minUid maxUid, cursors.lastSeenUid < minUid → isOpen minUid maxUid)
    (hhistory : cursors.initialCompleted = false → isOpen 1 cursors.backfillNextUid)
    (hcommit : Triple I (MailDock.commitPending env accountId none) (fun _ => J) E)
    (hrefresh : ∀ completed, Triple J
      (refreshFlags env accountId google options folder uidvalidity completed) (fun _ => K)
      (fun _ => K)) (hraised : ∀ w e, K w → E e w) :
    Triple I (scanFolder env accountId options folder uidvalidity google cursors) (fun _ => K)
      E := by
  rw [scanFolder_eq]
  refine (h.scanMessages cursors hnew hhistory hcommit).seq fun completed =>
    Triple.seq (Q := fun _ => K) ?_ fun _ => Triple.ret fun _ hw => hw
  refine Triple.handle (F := fun _ => K) (hrefresh completed) fun e => ?_
  split
  · exact Triple.raise fun w hw => hraised w e hw
  · split
    · exact Triple.ret fun _ hw => hw
    · exact Triple.raise fun w hw => hraised w e hw

end ScanSteps

/-- The steps of a folder scan keep `I`, as long as every reference is one of those
`admitted`; what they raise leaves `E`.  A range `isOpen` when the references it
yields are admitted. -/
structure ScanWalk (env : Env) (accountId : String) (options : SyncOptions) (folder : Folder)
    (uidvalidity : Nat) (admitted : RemoteMessageRef → Prop) (isOpen : Nat → Nat → Prop)
    (I : World → Prop) (E : Error → World → Prop) : Prop where
  closed : Closed scanStoreFootprint I
  raised : ∀ w e, I w → E e w
  attempted : ∀ w uids, I w → I { w with session := { w.session with attempted := uids } }
  refs : ∀ t minUid maxUid ref, isOpen minUid maxUid →
    env.nextRef t folder.rawName minUid maxUid = some ref →
    admitted ref ∧ isOpen minUid (ref.uid - 1)
  failures : Triple I (queryRepo env fun t => t.pendingFailures accountId folder.id uidvalidity)
    (fun failures w => I w ∧ ∀ failure ∈ failures, ∀ t ref,
      env.nextRef t folder.rawName failure.uid failure.uid = some ref →
      (failure.errorClass = .oversize && ref.sizeBytes.any (options.maxMessageBytes < ·)) = false →
      admitted ref) E
  processRef : ∀ ref, admitted ref → Triple I
    (processRef env accountId options folder.rawName folder.id uidvalidity ref) (fun _ => I) E
  commitPending : ∀ cursor, Triple I (commitPending env accountId cursor) (fun _ => I) E
  snapshots : ∀ records : List MessageRecord, (∀ m ∈ records, m.folderId = folder.id) →
    Triple I (appendSnapshots env accountId records) (fun _ => I) (fun _ => I)

namespace ScanWalk

variable {env : Env} {accountId : String} {options : SyncOptions} {folder : Folder}
  {uidvalidity : Nat} {admitted : RemoteMessageRef → Prop} {isOpen : Nat → Nat → Prop}
  {I : World → Prop} {E : Error → World → Prop}
  (h : ScanWalk env accountId options folder uidvalidity admitted isOpen I E)

include h

theorem steps : ScanSteps env accountId options folder uidvalidity admitted isOpen I E where
  closed := h.closed.mono stepFootprint_le
  raised := h.raised
  attempted := h.attempted
  refs := h.refs
  failures := h.failures
  processRef := h.processRef
  commitPending := h.commitPending

theorem scanFolder (google : Bool) (cursors : FolderCursors)
    (hnew : ∀ minUid maxUid, cursors.lastSeenUid < minUid → isOpen minUid maxUid)
    (hhistory : cursors.initialCompleted = false → isOpen 1 cursors.backfillNextUid) :
    Triple I (scanFolder env accountId options folder uidvalidity google cursors) (fun _ => I) E :=
  h.steps.scanFolder google cursors hnew hhistory (h.commitPending none)
    (fun completed => refreshFlags_keeps (h.closed.mono flagStoreFootprint_le_scan) google options
      folder uidvalidity completed h.snapshots) h.raised

/-- The `try` of `sync_folder`: what is pending is committed when the run is cancelled
or the authentication fails. -/
theorem handled (hresumed : ∀ w e, E e w → e.isLocal = false → I w) (google : Bool)
    (cursors : FolderCursors)
    (hnew : ∀ minUid maxUid, cursors.lastSeenUid < minUid → isOpen minUid maxUid)
    (hhistory : cursors.initialCompleted = false → isOpen 1 cursors.backfillNextUid) :
    Triple I (tryCatch (MailDock.scanFolder env accountId options folder uidvalidity google cursors)
      fun e =>
        if e.isCancelled then do
          MailDock.commitPending env accountId none
          pure true
        else if e.isAuthentication then do
          MailDock.commitPending env accountId none
          throw e
        else throw e) (fun _ => I) E := by
  refine (h.scanFolder google cursors hnew hhistory).handle fun e => ?_
  split
  · next hcancelled =>
    refine ((h.commitPending none).weaken_pre fun w hw => hresumed w e hw ?_).seq fun _ =>
      Triple.ret fun _ hw => hw
    exact Error.not_local_of_cancelled hcancelled
  · split
    · next hauth =>
      refine ((h.commitPending none).weaken_pre fun w hw => hresumed w e hw ?_).seq fun _ =>
        Triple.raise fun w hw => h.raised w e hw
      exact Error.not_local_of_authentication hauth
    · exact Triple.raise fun _ hw => hw

end ScanWalk

/-- The steps of a folder scan keep `I`, and what they raise leaves `E`. -/
structure FolderWalk (env : Env) (accountId : String) (options : SyncOptions) (folder : Folder)
    (uidvalidity : Nat) (I : World → Prop) (E : Error → World → Prop) : Prop where
  closed : Closed scanFootprint I
  raised : ∀ w e, I w → E e w
  attempted : ∀ w uids, I w → I { w with session := { w.session with attempted := uids } }
  processRef : ∀ ref, Triple I
    (processRef env accountId options folder.rawName folder.id uidvalidity ref) (fun _ => I) E
  commitPending : ∀ cursor, Triple I (commitPending env accountId cursor) (fun _ => I) E

namespace FolderWalk

variable {env : Env} {accountId : String} {options : SyncOptions} {folder : Folder}
  {uidvalidity : Nat} {I : World → Prop} {E : Error → World → Prop}
  (h : FolderWalk env accountId options folder uidvalidity I E)

include h

/-- A walk that admits every reference. -/
theorem scanWalk : ScanWalk env accountId options folder uidvalidity (fun _ => True)
    (fun _ _ => True) I E where
  closed := h.closed.mono scanStoreFootprint_le
  raised := h.raised
  attempted := h.attempted
  refs _ _ _ _ _ _ := ⟨trivial,trivial⟩
  failures := (Within.queryRepo I h.closed).consequence (fun _ hw => hw)
    (fun _ _ hw => ⟨hw,fun _ _ _ _ _ _ => trivial⟩) fun e w hw => h.raised w e hw
  processRef ref _ := h.processRef ref
  commitPending := h.commitPending
  snapshots records _ := appendSnapshots_within (fun _ => trivial) records I h.closed

theorem handled (hresumed : ∀ w e, E e w → e.isLocal = false → I w) (google : Bool)
    (cursors : FolderCursors) :
    Triple I (tryCatch (MailDock.scanFolder env accountId options folder uidvalidity google cursors)
      fun e =>
        if e.isCancelled then do
          MailDock.commitPending env accountId none
          pure true
        else if e.isAuthentication then do
          MailDock.commitPending env accountId none
          throw e
        else throw e) (fun _ => I) E :=
  h.scanWalk.handled hresumed google cursors (fun _ _ _ => trivial) fun _ => trivial

end FolderWalk

/-! The account. -/

section
variable {env : Env} {accountId : String} {options : SyncOptions} {google : Bool}
  {B : World → Prop} {E : Error → World → Prop}

theorem syncFolders_walk (hresumed : ∀ w e, E e w → e.isLocal = false → B w)
    (targets : List Folder) (hfolder : ∀ folder ∈ targets,
      Triple B (syncFolder env accountId google options folder) (fun _ => B) E)
    (scanned : List Nat) :
    Triple B (syncFolders env accountId google options targets scanned) (fun _ => B) E := by
  induction targets generalizing scanned with
  | nil => exact Triple.ret fun _ hw => hw
  | cons folder rest ih =>
    have ih := ih fun f hf => hfolder f (by simp [hf])
    refine Triple.seq (outcome_rule (R := fun result w => match result with
      | .ok _ => B w
      | .error e => E e w) (hfolder folder (by simp))) fun result => ?_
    rcases result with e | cancelled
    · dsimp only
      split
      · exact Triple.raise fun _ hw => hw
      · split
        · next hfetch =>
          exact (ih scanned).weaken_pre fun w hw => hresumed w e hw
            (Error.not_local_of_fetchError hfetch)
        · exact Triple.raise fun _ hw => hw
    · cases cancelled with
      | true => exact Triple.ret fun _ hw => hw
      | false => exact ih _

/-- An invariant between folders that every folder scan and every detection keeps. -/
theorem syncTargets_walk (hraised : ∀ w e, B w → E e w) (hticked : ∀ w, B w → B w.ticked)
    (hresumed : ∀ w e, E e w → e.isLocal = false → B w) (targets : List Folder)
    (hfolder : ∀ folder ∈ targets,
      Triple B (syncFolder env accountId google options folder) (fun _ => B) E)
    (hdetect : ∀ scanned, ∀ folder ∈ targets,
      Triple B (detectFolder env accountId ⟨google,targets,scanned⟩ folder) (fun _ => B) E) :
    Triple B (syncTargets env accountId options google targets) (fun _ => B) E := by
  have hresult : ∀ cancelled, Triple B (syncResult cancelled) (fun _ => B) E := fun _ =>
    (Triple.read (Q := fun _ => B) fun _ hw => hw).seq fun _ => Triple.ret fun _ hw => hw
  refine (syncFolders_walk hresumed targets hfolder []).seq fun scanned => ?_
  split
  · exact hresult true
  · next scanned =>
    refine Triple.seq (Q := fun _ => B) ?_ fun _ =>
      (Triple.loop _ fun folder hf => hdetect scanned folder hf).seq fun _ => hresult false
    split
    · exact Triple.ret fun _ hw => hw
    · exact repoCall_rule (fun w hw => hticked w hw) fun w e hw _ => hraised _ e (hticked w hw)

theorem ensureImapAccount_within {F : Footprint} : Within F (ensureImapAccount env accountId) := by
  refine Within.queryRepo.seq fun accounts => ?_
  split
  · split
    · exact .raise _
    · exact .ret _
  · exact .ret _

/-- The effects of the first statements of `sync_folder`. -/
def openFootprint : Footprint where
  note
    | .flush | .command (.select _) => True
    | _ => False
  event
    | .folderSnapshot _ => True
    | _ => False
  op
    | .initializeSyncCursors .. | .updateSyncCursors .. => True
    | _ => False

theorem openCursors_within (folder : Folder) (uidvalidity : Nat) :
    Within openFootprint (openCursors env accountId folder uidvalidity) := by
  unfold openCursors
  split
  · exact (Within.getMaxUid trivial).seq fun _ => Within.beginBatch.seq fun _ =>
      (Within.writeRepo trivial).seq fun _ => Within.commitBatch.seq fun _ =>
      Within.timestamp.seq fun _ => (Within.appendManifest trivial).seq fun _ =>
      (Within.flushAndSync trivial).seq fun _ => .ret _
  · split
    · exact .ret _
    · exact (Within.getMaxUid trivial).seq fun _ => Within.beginBatch.seq fun _ =>
        (Within.writeRepo trivial).seq fun _ => Within.commitBatch.seq fun _ => .ret _

end

/-! Invariants that do not speak about the session. -/

/-- Everything a synchronisation may do: it never touches the stored EML of a row
other than by writing the row anew, and it writes no audit entry. -/
def syncFootprint : Footprint where
  note
    | .write _ | .append _ | .commit _ => False
    | _ => True
  event _ := True
  op
    | .recordAudit _ | .setLocalState .. | .updateMessageStorage .. | .deleteMessageContents _ =>
      False
    | _ => True

theorem itemFootprint_le_sync : itemFootprint.Le syncFootprint where
  note e he := by cases e <;> first | exact he | trivial
  event _ _ := trivial
  op _ ho := ho.elim

theorem scanFootprint_le_sync : scanFootprint.Le syncFootprint where
  note e he := by cases e <;> first | exact he | trivial
  event _ _ := trivial
  op o ho := by cases o <;> first | exact ho | trivial

theorem openFootprint_le_sync : openFootprint.Le syncFootprint where
  note e he := by cases e <;> first | exact he | trivial
  event _ _ := trivial
  op o ho := by cases o <;> first | exact ho | trivial

theorem detectFootprint_le_sync : detectFootprint.Le syncFootprint where
  note e he := by cases e <;> first | exact he | trivial
  event _ _ := trivial
  op o ho := by cases o <;> first | exact ho | trivial

/-- A synchronisation whose fetched records all satisfy `P`. -/
def fetchFootprint (P : MessageRecord → Prop) : Footprint :=
  { syncFootprint with
    op := fun o => syncFootprint.op o ∧ ∀ record contents, o = .addMessage record contents → P record }

theorem Footprint.Le.fetch {F : Footprint} {P : MessageRecord → Prop} (h : F.Le syncFootprint)
    (hF : ∀ record contents, ¬ F.op (.addMessage record contents)) : F.Le (fetchFootprint P) where
  note := h.note
  event := h.event
  op o ho := by
    refine ⟨h.op o ho,fun record contents heq => ?_⟩
    rw [heq] at ho
    exact (hF record contents ho).elim

/-- The writes of a batch whose records all satisfy `P`. -/
def batchFootprint (P : MessageRecord → Prop) : Footprint :=
  { syncFootprint with
    op := fun
      | .addMessage record _ => P record
      | .addMessageIdentityAlias .. | .recordFailure .. | .clearFailure ..
      | .updateSyncCursors .. => True
      | _ => False }

theorem batchFootprint_le_fetch {P : MessageRecord → Prop} :
    (batchFootprint P).Le (fetchFootprint P) where
  note _ he := he
  event _ he := he
  op o ho := by
    cases o with
    | addMessage record contents => exact ⟨trivial,fun r c heq => by cases heq; exact ho⟩
    | addMessageIdentityAlias | recordFailure | clearFailure | updateSyncCursors =>
      exact ⟨trivial,fun _ _ heq => by cases heq⟩
    | _ => exact ho.elim

theorem itemFootprint_le_batch {P : MessageRecord → Prop} : itemFootprint.Le (batchFootprint P) where
  note := itemFootprint_le_sync.note
  event _ _ := trivial
  op _ ho := ho.elim

theorem stepFootprint_le_batch {P : MessageRecord → Prop} : stepFootprint.Le (batchFootprint P) where
  note e he := by cases e <;> first | exact he.elim | trivial
  event _ _ := trivial
  op o ho := by cases o <;> first | exact ho.elim | trivial

/-- The invariant, while every pending record satisfies `P`. -/
def Stocked (P : MessageRecord → Prop) (I : World → Prop) (w : World) : Prop :=
  I w ∧ ∀ item ∈ w.session.pending, ∀ r ∈ item.record, P r

theorem Stocked.closed {F : Footprint} {P : MessageRecord → Prop} {I : World → Prop}
    (hI : Closed F I) : Closed F (Stocked P I) :=
  hI.and (Closed.ofPending (φ := fun pending _ => ∀ item ∈ pending, ∀ r ∈ item.record, P r)
    fun _ _ _ hw => hw)

section
variable {env : Env} {accountId : String} {options : SyncOptions} {P : MessageRecord → Prop}
  {I : World → Prop} (hI : Closed (batchFootprint P) I)
  (hsession : ∀ w s, I w → I { w with session := s })

include hI

theorem appendItem_stocked (links : List (SourceItemKey × SourceItemKey)) (item : PendingItem) :
    Triple (Stocked P I) (appendItem env accountId links item) (fun _ => Stocked P I)
      (fun _ => Stocked P I) := by
  refine (?_ : Within (batchFootprint P) (appendItem env accountId links item)) _
    (Stocked.closed hI)
  unfold appendItem
  split
  · exact .ret _
  · refine (Within.appendManifest trivial).seq fun _ => (Within.ofExcept _).seq fun found => ?_
    split
    · exact .ret _
    · exact Within.nowIso.seq fun _ => (Within.appendManifest trivial).seq fun _ => .ret _
  · exact (Within.appendManifest trivial).seq fun _ => .ret _

include hsession

theorem writeItem_stocked (links : List (SourceItemKey × SourceItemKey)) (item : PendingItem)
    (hitem : ∀ r ∈ item.record, P r) :
    Triple (Stocked P I) (writeItem env accountId links item) (fun _ => Stocked P I)
      (fun _ => Stocked P I) := by
  have hclosed : Closed (batchFootprint P) (Stocked P I) := Stocked.closed hI
  refine Triple.seq (Q := fun _ => Stocked P I) ?_ fun _ => ?_
  · split
    · next record hrecord =>
      have hop : (batchFootprint P).op (.addMessage record item.contents) := hitem record hrecord
      exact (Within.addMessage hop _ hclosed).seq fun id =>
        Triple.seq (Q := fun _ => Stocked P I)
          (Triple.write fun w hw => ⟨hsession w _ hw.1,hw.2⟩) fun _ =>
          Within.loop _ (fun _ _ => Within.writeRepo trivial) _ hclosed
    · exact Triple.ret fun _ hw => hw
  · split
    · exact Within.writeRepo trivial _ hclosed
    · split
      · exact Within.writeRepo trivial _ hclosed
      · exact Triple.ret fun _ hw => hw
    · exact Triple.ret fun _ hw => hw

theorem commitPending_stocked (cursor : Option CursorUpdate) :
    Triple (Stocked P I) (commitPending env accountId cursor) (fun _ => Stocked P I)
      (fun _ => Stocked P I) := by
  have hclosed : Closed (batchFootprint P) (Stocked P I) := Stocked.closed hI
  have hcursor : Within (batchFootprint P) (writeCursor env cursor) := by
    unfold writeCursor
    split
    · exact Within.writeRepo trivial
    · exact .ret _
  refine Triple.seq (Triple.read (Q := fun w w' => Stocked P I w' ∧
    ∀ item ∈ w.session.pending, ∀ r ∈ item.record, P r) fun _ hw => ⟨hw,hw.2⟩) fun w =>
    Triple.assume fun hpending => ?_
  split
  · exact Triple.ret fun _ hw => hw
  · refine Triple.seq (Q := fun _ => Stocked P I) ?_ fun links =>
      Triple.seq (Q := fun _ => Stocked P I) ?_ fun _ => ?_
    · exact (Triple.accumulate (I := fun _ => Stocked P I) _
        (fun links item _ => appendItem_stocked hI links item) _).seq fun _ =>
        (appendSnapshots_within (fun _ => trivial) _ _ hclosed).seq fun _ =>
        (Within.flushAndSync trivial _ hclosed).seq fun _ => Triple.ret fun _ hw => hw
    · exact (Within.beginBatch _ hclosed).seq fun _ =>
        (Triple.loop _ fun item hmem => writeItem_stocked hI hsession links item
          (hpending item hmem)).seq fun _ =>
        (hcursor _ hclosed).seq fun _ => Within.commitBatch _ hclosed
    · refine Triple.seq (Q := fun _ => Stocked P I)
        (Triple.write fun w hw => ⟨hsession w _ hw.1,fun _ h => by cases h⟩) fun _ =>
        (Within.nextTick _ hclosed).seq fun _ => (Within.read _ hclosed).seq fun w =>
        ((Within.timestamp _ hclosed).seq fun _ => (Within.appendManifest trivial _ hclosed).seq
          fun _ => Within.flushAndSync trivial _ hclosed).seq fun _ => ?_
      split
      · exact Within.repoCall _ hclosed
      · exact Triple.ret fun _ hw => hw

theorem processRef_stocked {folder : Folder} {uidvalidity : Nat} {ref : RemoteMessageRef}
    (hitem : Yields itemFootprint (makeItem env accountId options folder.rawName folder.id
      uidvalidity ref) fun item => ∀ r ∈ item.record, P r) :
    Triple (Stocked P I) (processRef env accountId options folder.rawName folder.id uidvalidity ref)
      (fun _ => Stocked P I) (fun _ => Stocked P I) := by
  have hclosed : Closed itemFootprint (Stocked P I) :=
    (Stocked.closed hI).mono itemFootprint_le_batch
  refine processRef_made (Φ := fun item _ => ∀ r ∈ item.record, P r) hclosed
    ((hitem _ hclosed).strengthen_post fun item w hw => ⟨hw.1,?_⟩) (fun e w _ r hr => by cases hr)
    fun w item hw hnew => ⟨hsession w _ hw.1,fun i hi => ?_⟩
  · unfold PendingItem.inFolder
    split <;> exact hw.2
  · rcases List.mem_append.mp hi with hi | hi
    · exact hw.2 i hi
    · rw [List.mem_singleton.mp hi]
      exact hnew

end

/-- A batch leaves no item pending. -/
theorem commitPending_empties {env : Env} {accountId : String} (cursor : Option CursorUpdate) :
    Triple (fun _ => True) (commitPending env accountId cursor)
      (fun _ w => w.session.pending = []) fun _ _ => True := by
  have hquiet : ∀ {α : Type} {p : App α}, Within { note := fun _ => True, event := fun _ => True } p →
      Triple (fun w => w.session.pending = []) p (fun _ w => w.session.pending = [])
        fun _ _ => True := fun hp =>
    (hp _ (Closed.ofScan (φ := fun s => s.pending = []) fun _ _ hs h => hs.2.1.trans h)).consequence
      (fun _ hw => hw) (fun _ _ hw => hw) fun _ _ _ => trivial
  refine Triple.seq (Triple.read (Q := fun v w => v.session.pending = w.session.pending)
    fun _ _ => rfl) fun v => ?_
  split
  · next hnothing =>
    rw [Bool.and_eq_true,List.isEmpty_iff] at hnothing
    exact Triple.ret fun w hw => hw.symm.trans hnothing.1
  · refine Triple.seq ((Triple.skip _).weaken_pre fun _ _ => trivial) fun links =>
      Triple.seq (Triple.skip _) fun _ =>
      Triple.seq (Q := fun _ w => w.session.pending = []) (Triple.write fun _ _ => rfl) fun _ =>
      (hquiet Within.nextTick).seq fun t => (hquiet Within.read).seq fun w =>
      (hquiet (Within.timestamp.seq fun _ => (Within.appendManifest trivial).seq fun _ =>
        Within.flushAndSync trivial)).seq fun _ => ?_
    split
    · exact hquiet Within.repoCall
    · exact Triple.ret fun _ hw => hw

section
variable {env : Env} {accountId : String} {options : SyncOptions} {P : MessageRecord → Prop}
  {I : World → Prop} (hI : Closed (fetchFootprint P) I)
  (hsession : ∀ w s, I w → I { w with session := s })

include hI hsession

/-- A run keeps every invariant that its kinds of steps keep, given what is known of the
records it fetches. -/
theorem syncAccount_stocked (hitem : ∀ (folder : Folder) uidvalidity ref, Yields itemFootprint
      (makeItem env accountId options folder.rawName folder.id uidvalidity ref)
      fun item => ∀ r ∈ item.record, P r) :
    Triple I (syncAccount env accountId options) (fun _ => I) (fun _ => I) := by
  have hclosed : Closed (fetchFootprint P) (Stocked P I) := Stocked.closed hI
  have hbatch := hI.mono batchFootprint_le_fetch
  have hwalk : ∀ (folder : Folder) uidvalidity,
      FolderWalk env accountId options folder uidvalidity (Stocked P I) fun _ => Stocked P I :=
    fun folder uidvalidity =>
      { closed := hclosed.mono (scanFootprint_le_sync.fetch fun _ _ ho => ho)
        raised := fun _ _ hw => hw
        attempted := fun w _ hw => ⟨hsession w _ hw.1,hw.2⟩
        processRef := fun ref => processRef_stocked hbatch hsession (hitem folder uidvalidity ref)
        commitPending := commitPending_stocked hbatch hsession }
  have hfolder : ∀ google (folder : Folder), Triple (Stocked P I)
      (syncFolder env accountId google options folder) (fun _ => Stocked P I)
      (fun _ => Stocked P I) := fun google folder =>
    (Within.selectFolder trivial _ hclosed).seq fun uidvalidity =>
    Triple.seq (Q := fun _ => Stocked P I) (Triple.write fun w hw => ⟨hsession w _ hw.1,hw.2⟩)
    fun _ => ((openCursors_within folder uidvalidity).mono
      (openFootprint_le_sync.fetch fun _ _ ho => ho) _ hclosed).seq fun cursors =>
    Triple.seq (Q := fun _ => Stocked P I)
      (Triple.write fun w hw => ⟨hsession w _ hw.1,fun _ h => by cases h⟩) fun _ =>
    (hwalk folder uidvalidity).handled (fun _ _ hw _ => hw) google cursors
  refine (ensureImapAccount_within I hI).seq fun _ => (Within.queryRepo I hI).seq fun _ =>
    (Within.queryRepo I hI).seq fun targets => ?_
  refine Triple.seq (Q := fun _ => Stocked P I)
    (Triple.write fun w hw => ⟨hsession w _ hw,fun _ h => by cases h⟩) fun _ => ?_
  exact (syncTargets_walk (fun _ _ hw => hw) hclosed.ticked (fun _ _ hw _ => hw) targets
    (fun folder _ => hfolder _ folder) fun _ folder _ => (detectFolder_within _ folder).mono
      (detectFootprint_le_sync.fetch fun _ _ ho => ho) _ hclosed).consequence (fun _ hw => hw)
    (fun _ _ hw => hw.1) fun _ _ hw => hw.1

end

end MailDock
