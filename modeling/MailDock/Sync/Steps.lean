import MailDock.App.Footprint
import MailDock.App.Log
import MailDock.Sync.Program

/-!
# What the parts of a synchronisation can do

The footprints of a flag refresh, of the detection pass and of the fetching of one
message, and what is known about the pending item of a fetched message.

## Main definitions

- `flagFootprint`, `lookFootprint`, `detectFootprint`, `itemFootprint` — the allowed effects
- `ItemOf` — the pending item of a message reference
-/

namespace MailDock

open Hoare

def flagFootprint : Footprint where
  note
    | .flush | .command (.select _) | .answer _ (.flags _ _ _) => True
    | _ => False
  event
    | .membershipSnapshot _ => True
    | _ => False
  op
    | .updateFlags .. | .touchFlagsSeenAt .. | .updateGmailLabels .. | .setHighestModseq .. => True
    | _ => False

/-- A flag refresh without its snapshots. -/
def flagStoreFootprint : Footprint := { flagFootprint with event := fun _ => False }

/-- The detection pass without its state events and its writes. -/
def lookFootprint : Footprint where
  note
    | .flush | .command (.select _) | .answer _ (.uids _ _) => True
    | _ => False
  event
    | .identityLinked _ | .membershipSnapshot _ => True
    | _ => False

def detectFootprint : Footprint where
  note
    | .flush | .command (.select _) | .answer _ (.uids _ _) => True
    | _ => False
  event
    | .state _ | .identityLinked _ | .membershipSnapshot _ => True
    | _ => False
  op
    | .replaceMessageMemberships .. | .mergeDuplicateMessage .. | .updateRemoteState .. => True
    | _ => False

def itemFootprint : Footprint where
  note
    | .save _ _ | .verified _ _ | .command (.select _) | .answer _ (.body _ _) => True
    | _ => False

theorem lookFootprint_le_detect : lookFootprint.Le detectFootprint where
  note e he := by
    cases e with
    | flush => trivial
    | command c => cases c <;> exact he
    | answer t a => cases a <;> exact he
    | _ => exact he
  event e he := by cases e <;> first | exact he | trivial
  op _ ho := ho.elim

section
variable {env : Env} {accountId : String} {F : Footprint}

/-! Snapshots. -/

theorem membershipSnapshotEvent_yields {record : MessageRecord} {removeFolderId : Option Nat}
    {additional : List MessageRecord} :
    Yields F (membershipSnapshotEvent env accountId record removeFolderId additional)
      fun e => ∃ s, e = .membershipSnapshot s :=
  Within.queryRepo.yields fun _ => Within.queryRepo.yields fun _ => Within.nowIso.yields fun _ =>
    Yields.ret ⟨_,rfl⟩

theorem appendSnapshots_within (hF : ∀ s, F.event (.membershipSnapshot s))
    (records : List MessageRecord) : Within F (appendSnapshots env accountId records) := by
  refine Within.loop _ fun group _ => ?_
  split
  · exact .ret _
  · refine Within.seq_of membershipSnapshotEvent_yields ?_
    rintro _ ⟨s,rfl⟩
    exact Within.appendManifest (hF s)

/-! Flag refresh.  The snapshots it appends are left to the invariant. -/

/-- Reports that follow the command they answer. -/
theorem flagReports_past {I : World → Prop} (hI : Closed F I) {t : Nat} {folderRawName : String}
    (hF : ∀ uid flags, F.note (.answer t (.flags folderRawName uid flags)))
    (refs : List RemoteMessageRef) : Triple (fun w => I w ∧ t + 1 = w.tick)
      (refs.forM fun r => emit (.answer t (.flags folderRawName r.uid r.flags)))
      (fun _ w => I w ∧ t + 1 = w.tick) (fun _ => I) :=
  Triple.loop _ fun _ _ => Within.answer hI (hF _ _)

theorem appendLabelSnapshots_keeps {r : FlagRefresh} {I : World → Prop} (hI : Closed F I)
    (hflush : F.note .flush) (q : FlagQueue)
    (hsnapshots : ∀ records : List MessageRecord, (∀ m ∈ records, m.folderId = r.folder.id) →
      Triple I (appendSnapshots env r.accountId records) (fun _ => I) (fun _ => I)) :
    Triple I (appendLabelSnapshots env r q) (fun _ => I) (fun _ => I) := by
  unfold appendLabelSnapshots
  split
  · refine (Within.queryRepo I hI).seq fun folders => ?_
    split
    · exact Triple.ret fun _ hw => hw
    · split
      · refine (hsnapshots _ fun m hm => ?_).seq fun _ => Within.flushAndSync hflush I hI
        obtain ⟨update,-,hm⟩ := List.mem_filterMap.mp hm
        obtain ⟨item,-,rfl⟩ := Option.map_eq_some_iff.mp hm
        rfl
      · exact Triple.raise fun _ hw => hw
  · exact Triple.ret fun _ hw => hw

section
variable {r : FlagRefresh} {I : World → Prop} (hI : Closed flagStoreFootprint I)
  (hsnapshots : ∀ records : List MessageRecord, (∀ m ∈ records, m.folderId = r.folder.id) →
    Triple I (appendSnapshots env r.accountId records) (fun _ => I) (fun _ => I))

theorem storeHighestModseq_within (value : Option Nat) :
    Within flagStoreFootprint (storeHighestModseq env r value) :=
  Within.beginBatch.seq fun _ => (Within.writeRepo trivial).seq fun _ => Within.commitBatch

include hI

theorem iterFlags_keeps (folderRawName : String) (uids : List Nat) (expected : Option Nat) :
    Triple I (iterFlags env folderRawName uids expected) (fun _ => I) (fun _ => I) := by
  unfold iterFlags
  split
  · exact Within.raise _ I hI
  · refine Triple.seq (Within.imapCommand_past hI trivial) fun t => ?_
    split
    · exact Triple.raise fun _ h => h.1
    · exact (flagReports_past hI (fun _ _ => trivial) _).seq fun _ => Triple.ret fun _ h => h.1

theorem iterFlagsSince_keeps (folderRawName : String) (modseq : Nat) :
    Triple I (iterFlagsSince env folderRawName modseq) (fun _ => I) (fun _ => I) := by
  unfold iterFlagsSince
  split
  · exact Within.raise _ I hI
  · exact Triple.seq (Within.imapCommand_past hI trivial) fun t =>
      (flagReports_past hI (fun _ _ => trivial) _).seq fun _ => Triple.ret fun _ h => h.1

theorem queueReports_keeps (reports : List RemoteMessageRef × Option Error)
    {queue : FlagQueue → RemoteMessageRef → App FlagQueue}
    (h : ∀ q ref, Triple I (queue q ref) (fun _ => I) (fun _ => I)) :
    Triple I (queueReports env r reports queue) (fun _ => I) (fun _ => I) := by
  refine (Triple.accumulate (I := fun _ => I) _ (fun q ref _ =>
    (Within.raiseIfCancelled I hI).seq fun _ => ?_) _).seq fun q =>
    (Within.raiseFault _ I hI).seq fun _ => (Within.raiseIfCancelled I hI).seq fun _ =>
    Triple.ret fun _ hw => hw
  split
  · exact h q ref
  · exact Triple.ret fun _ hw => hw

include hsnapshots

theorem flushFlagUpdates_keeps (q : FlagQueue) :
    Triple I (flushFlagUpdates env r q) (fun _ => I) (fun _ => I) := by
  unfold flushFlagUpdates
  split
  · exact Triple.ret fun _ hw => hw
  · refine (appendLabelSnapshots_keeps hI trivial q hsnapshots).seq fun _ =>
      (?_ : Within flagStoreFootprint _) I hI
    refine Within.beginBatch.seq fun _ =>
      (Within.loop _ fun c _ => Within.writeRepo trivial).seq fun _ =>
      (Within.optional (Within.writeRepo trivial)).seq fun _ =>
      (Within.loop _ fun l _ => ?_).seq fun _ => Within.commitBatch
    split
    · exact Within.writeRepo trivial
    · exact .ret _

theorem queued_keeps (q : FlagQueue) : Triple I (queued env r q) (fun _ => I) (fun _ => I) := by
  unfold queued
  split
  · exact (flushFlagUpdates_keeps hI hsnapshots q).seq fun _ => Triple.ret fun _ hw => hw
  · exact Triple.ret fun _ hw => hw

theorem queueUpdate_keeps (q : FlagQueue) (ref : RemoteMessageRef) :
    Triple I (queueUpdate env r q ref) (fun _ => I) (fun _ => I) := by
  unfold queueUpdate
  dsimp only
  split
  · split
    · exact queued_keeps hI hsnapshots _
    · exact queued_keeps hI hsnapshots _
  · exact queued_keeps hI hsnapshots _

theorem refreshBaseline_keeps (current : Nat) :
    Triple I (refreshBaseline env r current) (fun _ => I) (fun _ => I) :=
  (iterFlags_keeps hI _ _ _).seq fun reports =>
    (queueReports_keeps hI reports fun q ref => queueUpdate_keeps hI hsnapshots q ref).seq fun q =>
      (flushFlagUpdates_keeps hI hsnapshots q).seq fun _ => storeHighestModseq_within _ I hI

theorem refreshChanged_keeps (saved current : Nat) :
    Triple I (refreshChanged env r saved current) (fun _ => I) (fun _ => I) :=
  (iterFlagsSince_keeps hI _ _).seq fun reports =>
    (queueReports_keeps hI reports fun q ref => queueUpdate_keeps hI hsnapshots q ref).seq fun q =>
      (Triple.accumulate (I := fun _ => I) _ (fun _ _ _ => queued_keeps hI hsnapshots _) q).seq
        fun q => (flushFlagUpdates_keeps hI hsnapshots q).seq fun _ =>
          storeHighestModseq_within _ I hI

theorem refreshExpired_keeps : Triple I (refreshExpired env r) (fun _ => I) (fun _ => I) := by
  refine (iterFlags_keeps hI _ _ _).seq fun reports =>
    (queueReports_keeps hI reports fun q ref => ?_).seq fun q =>
      flushFlagUpdates_keeps hI hsnapshots q
  dsimp only
  split
  · exact queued_keeps hI hsnapshots _
  · exact queueUpdate_keeps hI hsnapshots q ref

end

/-- A flag refresh keeps what its writes and the snapshots of the folder keep. -/
theorem refreshFlags_keeps {I : World → Prop} (hI : Closed flagStoreFootprint I) (google : Bool)
    (options : SyncOptions) (folder : Folder) (uidvalidity : Nat) (completed : Bool)
    (hsnapshots : ∀ records : List MessageRecord, (∀ m ∈ records, m.folderId = folder.id) →
      Triple I (appendSnapshots env accountId records) (fun _ => I) (fun _ => I)) :
    Triple I (refreshFlags env accountId google options folder uidvalidity completed)
      (fun _ => I) (fun _ => I) := by
  unfold refreshFlags
  split
  · exact Triple.ret fun _ hw => hw
  · refine (Within.nextTick I hI).seq fun t => (Within.queryRepo I hI).seq fun items =>
      (Within.nextTick I hI).seq fun t' => ?_
    dsimp only
    generalize Option.filter (fun _ => env.condstore) _ = current
    generalize validSqliteModseq folder.highestModseq = saved
    split
    · split
      · exact storeHighestModseq_within none I hI
      · exact Triple.ret fun _ hw => hw
    · split
      · split
        · exact refreshBaseline_keeps hI hsnapshots _
        · exact refreshChanged_keeps hI hsnapshots _ _
      · exact refreshBaseline_keeps hI hsnapshots _
      · exact (refreshExpired_keeps hI hsnapshots).seq fun _ =>
          storeHighestModseq_within none I hI
      · exact refreshExpired_keeps hI hsnapshots

/-! Detection. -/

theorem detectMissing_within (d : Detection) (folder : Folder) (uidvalidity : Nat)
    (events : List MoveStateEvent) (uid : Nat) :
    Within F (detectMissing env accountId d folder uidvalidity events uid) := by
  have hcandidates : ∀ record, Within F (moveCandidates env accountId folder.id record) := by
    intro record
    unfold moveCandidates
    split
    · exact .ret _
    · exact Within.queryRepo
  refine Within.read.seq fun w => Within.seq ?_ fun found => ?_
  · split
    · exact .ret _
    · exact Within.queryRepo.seq fun _ => .ret _
  · split
    · exact .ret _
    · exact (hcandidates _).seq fun _ => Within.nowIso.seq fun _ => .ret _

theorem appendStateSnapshot_within (item : MoveStateEvent) :
    Within lookFootprint (appendStateSnapshot env accountId item) := by
  have hsnapshot : ∀ record remove additional, Within lookFootprint (do
      let snapshot ← membershipSnapshotEvent env accountId record remove additional
      appendManifest env snapshot) := by
    intro record remove additional
    refine Within.seq_of membershipSnapshotEvent_yields ?_
    rintro _ ⟨s,rfl⟩
    exact Within.appendManifest trivial
  unfold appendStateSnapshot
  split
  · exact hsnapshot _ _ _
  · split
    · exact .ret _
    · exact Within.nowIso.seq fun _ => (Within.appendManifest trivial).seq fun _ => hsnapshot _ _ _

theorem writeStateEvent_within (item : MoveStateEvent) :
    Within detectFootprint (writeStateEvent env accountId item) := by
  unfold writeStateEvent
  split
  · exact Within.queryRepo.seq fun _ => Within.writeRepo trivial
  · split
    · exact (Within.writeRepo trivial).seq fun _ => Within.writeRepo trivial
    · exact Within.writeRepo trivial

theorem commitStateEvents_within (events : List MoveStateEvent) :
    Within detectFootprint (commitStateEvents env accountId events) :=
  Within.optional ((Within.loop _ fun _ _ => Within.appendManifest trivial).seq fun _ =>
    (Within.loop _ fun item _ => (appendStateSnapshot_within item).mono
      lookFootprint_le_detect).seq fun _ =>
    (Within.flushAndSync trivial).seq fun _ => Within.beginBatch.seq fun _ =>
    (Within.loop _ fun item _ => writeStateEvent_within item).seq fun _ => Within.commitBatch)

theorem listExistingUids_within (folderRawName : String) :
    Within lookFootprint (listExistingUids env folderRawName) :=
  fun _ hI => Triple.seq (Within.imapCommand_past hI trivial) fun _ =>
    Triple.seq (Within.answer hI trivial) fun _ => Triple.ret fun _ h => h.1

theorem detectFolder_within (d : Detection) (folder : Folder) :
    Within detectFootprint (detectFolder env accountId d folder) := by
  refine Within.read.seq fun w => ((listExistingUids_within _).mono
    lookFootprint_le_detect).outcome.seq fun answer => ?_
  split
  · split
    · exact .ret _
    · exact .raise _
  · exact Within.queryRepo.seq fun _ =>
      (Within.accumulate _ (fun _ _ _ => detectMissing_within _ _ _ _ _) _).seq fun _ =>
        commitStateEvents_within _

/-! One message. -/

/-- The columns of a record that say where the message was fetched from. -/
structure RecordOf (accountId : String) (folder : Folder) (uidvalidity : Nat)
    (ref : RemoteMessageRef) (record : MessageRecord) : Prop where
  account : record.accountId = accountId
  folderId : record.folderId = folder.id
  serverUid : record.uid = some ref.uid ∧ record.uidvalidity = some uidvalidity
  key : remoteSourceItemKey folder.rawName uidvalidity ref.uid ref.gmailMsgid =
    .ok record.sourceItemKey
  present : record.remoteState = .present ∧ record.movedToFolderId = none
  active : record.localState = .active
  gmailMsgid : record.gmailMsgid = ref.gmailMsgid

/-- A fetch event and the record that is committed with it. -/
structure FetchEvent.Describes (e : FetchEvent) (record : MessageRecord) : Prop where
  account : record.accountId = e.accountId
  folderId : record.folderId = e.folderId
  serverUid : record.uid = some e.uid ∧ record.uidvalidity = some e.uidvalidity
  key : record.sourceItemKey = e.sourceItemKey
  relativePath : record.relativePath = some e.relativePath
  fileHash : record.fileHash = some e.fileHash
  gmailMsgid : record.gmailMsgid = e.gmailMsgid

/-- The event of a message above the size limit and the record that is committed with it. -/
structure FetchSkippedEvent.Describes (s : FetchSkippedEvent) (record : MessageRecord) : Prop where
  account : record.accountId = s.accountId
  folderId : record.folderId = s.folderId
  serverUid : record.uid = some s.uid ∧ record.uidvalidity = some s.uidvalidity
  sizeBytes : record.sizeBytes = some s.sizeBytes
  relativePath : record.relativePath = none
  fileHash : record.fileHash = none

/-- An item with an EML has the fetch event that describes it, an item without one
was too large or failed. -/
def PendingItem.Eventful (env : Env) (folder : Folder) (log : List Effect) (item : PendingItem) :
    Prop :=
  match item.event,item.record with
  | some (.fetch e),some record => e.Describes record ∧ e.folderRawName = folder.rawName ∧
    EmlAt env log e.relativePath e.fileHash
  | some (.fetchSkipped s),some record => s.Describes record
  | none,none => True
  | _,_ => False

theorem PendingItem.Eventful.cons {folder : Folder} {log : List Effect} {item : PendingItem}
    (h : item.Eventful env folder log) (e : Effect) : item.Eventful env folder (e :: log) := by
  unfold PendingItem.Eventful at h ⊢
  split at h
  · exact ⟨h.1,h.2.1,h.2.2.cons e⟩
  · exact h
  · trivial
  · exact h.elim

/-- What a run knows about the pending item of a reference. -/
structure ItemOf (env : Env) (accountId : String) (folder : Folder) (uidvalidity : Nat)
    (ref : RemoteMessageRef) (log : List Effect) (item : PendingItem) : Prop where
  uid : item.uid = ref.uid
  handled : item.record = none → item.failure.isSome
  failure : ∀ f ∈ item.failure, f.1 = uidvalidity ∧ item.failureFolderId = some folder.id
  record : ∀ r ∈ item.record, RecordOf accountId folder uidvalidity ref r
  answered : item.record.isSome → ∃ t, .answer t (.body folder.rawName ref.uid) ∈ log
  event : item.Eventful env folder log

theorem ItemOf.cons {folder : Folder} {uidvalidity : Nat} {ref : RemoteMessageRef}
    {log : List Effect} {item : PendingItem}
    (h : ItemOf env accountId folder uidvalidity ref log item) (e : Effect) :
    ItemOf env accountId folder uidvalidity ref (e :: log) item where
  uid := h.uid
  handled := h.handled
  failure := h.failure
  record := h.record
  answered hr := (h.answered hr).imp fun _ ha => List.mem_cons_of_mem e ha
  event := h.event.cons e

section
variable {folder : Folder} {uidvalidity : Nat} {ref : RemoteMessageRef} {options : SyncOptions}
  {I : World → Prop}

theorem modifySession_closed {f : SyncSession → SyncSession} {E : Error → World → Prop}
    (hI : Closed F I) (hf : ∀ s : SyncSession, s.SameScan (f s)) :
    Triple I (modifySession f) (fun _ => I) E :=
  Triple.write fun w hw => hI.counted w _ (hf _) hw

theorem downloadEmlBytes_closed (hI : Closed itemFootprint I) (folderRawName : String)
    (uid : Nat) :
    Triple I (downloadEmlBytes env folderRawName uid)
      (fun _ w => I w ∧ ∃ t, .answer t (.body folderRawName uid) ∈ w.log) (fun _ => I) := by
  refine Triple.seq (Within.imapCommand_past hI trivial) fun t => ?_
  refine (emit_rule (Q := fun _ w => I w ∧ ∃ t, .answer t (.body folderRawName uid) ∈ w.log)
    ?_).seq fun _ => Triple.ret fun _ h => h
  exact fun w hw => ⟨hI.logged w _ trivial hw.2 hw.1,t,List.mem_cons_self⟩

theorem downloadEmlHeaders_closed (hI : Closed itemFootprint I) (folderRawName : String)
    (uid : Nat) :
    Triple I (downloadEmlHeaders env folderRawName uid)
      (fun _ w => I w ∧ ∃ t, .answer t (.body folderRawName uid) ∈ w.log) (fun _ => I) := by
  refine Triple.seq (Within.imapCommand_past hI trivial) fun t => ?_
  refine (emit_rule (Q := fun _ w => I w ∧ ∃ t, .answer t (.body folderRawName uid) ∈ w.log)
    ?_).seq fun _ => Triple.ret fun _ h => h
  exact fun w hw => ⟨hI.logged w _ trivial hw.2 hw.1,t,List.mem_cons_self⟩

/-- Retrying a call keeps what the call keeps. -/
theorem withRetry_closed {α : Type} {call : App α} {Q : α → World → Prop} (hI : Closed F I)
    (h : Triple I call Q (fun _ => I)) (attempts : Nat) :
    Triple I (withRetry env call attempts) Q (fun _ => I) := by
  induction attempts with
  | zero => exact (Within.raiseIfCancelled I hI).seq fun _ => h
  | succ n ih =>
    refine (Within.raiseIfCancelled I hI).seq fun _ => h.handle fun e => ?_
    split
    · exact (Within.raiseIfCancelled I hI).seq fun _ => ih
    · exact Triple.raise fun _ hw => hw

theorem reuseEml_closed (hI : Closed itemFootprint I) (relativePath expectedHash : String) :
    Triple I (reuseEml env relativePath expectedHash)
      (fun found w => I w ∧ ∀ stored ∈ found, EmlAt env w.log stored.relativePath stored.fileHash)
      (fun _ => I) := by
  have hnone : Triple I (pure none : App (Option StoredEml)) (fun found w => I w ∧
      ∀ stored ∈ found, EmlAt env w.log stored.relativePath stored.fileHash) (fun _ => I) :=
    Triple.ret fun w hw => ⟨hw,fun _ h => by cases h⟩
  refine (Within.nextTick I hI).seq fun t => ?_
  split
  · refine (Within.raiseFault _ I hI).seq fun _ => (Within.read I hI).seq fun w => ?_
    split
    · exact hnone
    · next raw hraw =>
      split
      · next hhash =>
        refine (emit_rule (Q := fun _ w => I w ∧ EmlAt env w.log relativePath (env.sha256 raw))
          ?_).seq fun _ => Triple.ret ?_
        · intro w hw
          exact ⟨hI.logged w _ trivial trivial hw,.inr ⟨expectedHash,List.mem_cons_self,.inr hhash⟩⟩
        · rintro w ⟨hw,heml⟩
          refine ⟨hw,fun stored h => ?_⟩
          cases h
          exact heml
      · exact hnone
  · exact hnone

theorem saveEml_closed (hI : Closed itemFootprint I) (internalDate : Option DateTime) (raw : Bytes) :
    Triple I (saveEml env accountId internalDate raw)
      (fun stored w => I w ∧ EmlAt env w.log stored.relativePath stored.fileHash) (fun _ => I) := by
  refine (Within.nextTick I hI).seq fun t => (Within.raiseFault _ I hI).seq fun _ =>
    (Within.read I hI).seq fun w => ?_
  split
  · next path existing hfound =>
    refine (emit_rule (Q := fun _ w => I w ∧ EmlAt env w.log path (env.sha256 raw)) ?_).seq
      fun _ => Triple.ret fun _ h => h
    intro w hw
    exact ⟨hI.logged w _ trivial trivial hw,.inr ⟨_,List.mem_cons_self,.inl rfl⟩⟩
  · refine Triple.seq (Triple.write ?_) fun _ => Triple.ret fun _ h => h
    intro w hw
    exact ⟨hI.saved w _ raw trivial hw,.inl ⟨raw,List.mem_cons_self,rfl⟩⟩

theorem storeEml_closed (hI : Closed itemFootprint I) (internalDate : Option DateTime) (raw : Bytes) :
    Triple I (storeEml env accountId internalDate raw)
      (fun stored w => I w ∧ EmlAt env w.log stored.relativePath stored.fileHash) (fun _ => I) := by
  refine (Within.queryRepo I hI).seq fun existing => ?_
  refine Triple.seq (Q := fun found w => I w ∧ ∀ stored ∈ found,
    EmlAt env w.log stored.relativePath stored.fileHash) ?_ fun reused => ?_
  · split
    · exact reuseEml_closed hI _ _
    · exact Triple.ret fun w hw => ⟨hw,fun _ h => by cases h⟩
  · split
    · exact Triple.ret fun w hw => ⟨hw.1,hw.2 _ rfl⟩
    · exact (saveEml_closed hI internalDate raw).weaken_pre fun w hw => hw.1

theorem recordForMessage_yields (parsed : ParsedMessage) (stored : Option StoredEml) (size : Nat) :
    Yields F (recordForMessage env accountId folder.rawName folder.id uidvalidity ref parsed stored
      size) fun r => RecordOf accountId folder uidvalidity ref r ∧
        r.relativePath = stored.map (·.relativePath) ∧ r.fileHash = stored.map (·.fileHash) ∧
        r.sizeBytes = some size :=
  (Yields.ofExcept fun _ h => h).seq fun _ hkey => Within.nowIso.yields fun _ =>
    Within.nowIso.yields fun _ => Yields.ret
      ⟨⟨rfl,rfl,⟨rfl,rfl⟩,hkey,⟨rfl,rfl⟩,rfl,rfl⟩,rfl,rfl,rfl⟩

theorem fetchEvent_yields (parsed : ParsedMessage) (stored : StoredEml)
    (gmailMsgid gmailThrid : Option Nat) (gmailLabels : Option (List String)) :
    Yields F (fetchEvent env accountId folder.rawName folder.id uidvalidity ref parsed stored
      gmailMsgid gmailThrid gmailLabels) fun e => e.accountId = accountId ∧
        e.folderId = folder.id ∧ e.folderRawName = folder.rawName ∧ e.uid = ref.uid ∧
        e.uidvalidity = uidvalidity ∧ e.relativePath = stored.relativePath ∧
        e.fileHash = stored.fileHash ∧ e.gmailMsgid = gmailMsgid ∧
        remoteSourceItemKey folder.rawName uidvalidity ref.uid gmailMsgid = .ok e.sourceItemKey :=
  (Yields.ofExcept fun _ h => h).seq fun _ hkey => Within.nowIso.yields fun _ => Yields.ret
    ⟨rfl,rfl,rfl,rfl,rfl,rfl,rfl,rfl,hkey⟩

theorem skippedEvent_yields (sizeBytes : Nat) :
    Yields F (skippedEvent env accountId folder.rawName folder.id uidvalidity ref sizeBytes)
      fun e => ∃ s, e = .fetchSkipped s ∧ s.accountId = accountId ∧ s.folderId = folder.id ∧
        s.uid = ref.uid ∧ s.uidvalidity = uidvalidity ∧ s.sizeBytes = sizeBytes :=
  Within.nowIso.yields fun _ => Yields.ret ⟨_,rfl,rfl,rfl,rfl,rfl,rfl⟩

/-- The answer that a fetched message rests on is in the log. -/
theorem Closed.answered (hI : Closed F I) (folderRawName : String) (uid : Nat) :
    Closed F fun w => I w ∧ ∃ t, .answer t (.body folderRawName uid) ∈ w.log :=
  hI.and (Closed.ofLog (φ := fun log => ∃ t, .answer t (.body folderRawName uid) ∈ log)
    fun _ e ⟨t,ha⟩ => ⟨t,List.mem_cons_of_mem e ha⟩)

theorem oversizeItem_closed (hI : Closed F I) (content : Bytes) (sizeBytes : Nat) :
    Triple (fun w => I w ∧ ∃ t, .answer t (.body folder.rawName ref.uid) ∈ w.log)
      (oversizeItem env accountId folder.rawName folder.id uidvalidity ref content sizeBytes)
      (fun item w => I w ∧ ItemOf env accountId folder uidvalidity ref w.log (item.inFolder folder.id))
      (fun _ => I) := by
  have hJ := hI.answered folder.rawName ref.uid
  have hraise : ∀ (e : Error) w, (I w ∧ ∃ t, .answer t (.body folder.rawName ref.uid) ∈ w.log) →
      I w := fun _ _ h => h.1
  refine Triple.seq ((recordForMessage_yields _ none sizeBytes _ hJ).consequence (fun _ h => h)
    (fun _ _ h => h) hraise) fun record => Triple.assume fun hrecord => ?_
  refine Triple.seq (modifySession_closed hJ fun s => ⟨rfl,rfl,rfl,rfl,rfl⟩) fun _ => ?_
  refine Triple.seq ((skippedEvent_yields sizeBytes _ hJ).consequence (fun _ h => h)
    (fun _ _ h => h) hraise) fun event => Triple.assume ?_
  rintro ⟨s,rfl,haccount,hfolder,huid,hvalidity,hsize⟩
  obtain ⟨hrec,hpath,hhash,hrsize⟩ := hrecord
  refine Triple.ret fun w hw => ⟨hw.1,?_⟩
  have hdescribes : s.Describes record :=
    { account := hrec.account.trans haccount.symm
      folderId := hrec.folderId.trans hfolder.symm
      serverUid := by rw [huid,hvalidity]; exact hrec.serverUid
      sizeBytes := by rw [hrsize,hsize]
      relativePath := hpath
      fileHash := hhash }
  exact
    { uid := rfl
      handled := fun h => by cases h
      failure := fun f hf => by cases hf; exact ⟨rfl,rfl⟩
      record := fun r hr => by cases hr; exact hrec
      answered := fun _ => hw.2
      event := hdescribes }

theorem storedItem_closed (hI : Closed itemFootprint I) (raw : Bytes) :
    Triple (fun w => I w ∧ ∃ t, .answer t (.body folder.rawName ref.uid) ∈ w.log)
      (storedItem env accountId folder.rawName folder.id uidvalidity ref raw)
      (fun item w => I w ∧ ItemOf env accountId folder uidvalidity ref w.log (item.inFolder folder.id))
      (fun _ => I) := by
  have hJ := hI.answered folder.rawName ref.uid
  refine Triple.seq ((storeEml_closed hJ ref.internalDate raw).consequence (fun _ h => h)
    (fun _ _ h => h) fun _ _ h => h.1) fun stored => ?_
  have hK := hJ.and (Closed.ofLog (φ := fun log => EmlAt env log stored.relativePath stored.fileHash)
    fun _ e h => h.cons e)
  dsimp only
  refine Triple.seq ((recordForMessage_yields _ (some stored) raw.length _ hK).consequence
    (fun _ h => h) (fun _ _ h => h) fun _ _ h => h.1.1) fun record => Triple.assume fun hrecord => ?_
  refine Triple.seq (modifySession_closed hK fun s => ⟨rfl,rfl,rfl,rfl,rfl⟩) fun _ => ?_
  refine Triple.seq ((fetchEvent_yields _ stored _ _ _ _ hK).consequence (fun _ h => h)
    (fun _ _ h => h) fun _ _ h => h.1.1) fun event => Triple.assume fun hevent => ?_
  obtain ⟨hrec,hpath,hhash,-⟩ := hrecord
  obtain ⟨haccount,hfolder,hname,huid,hvalidity,hepath,hehash,hmsgid,hkey⟩ := hevent
  have hsame : record.sourceItemKey = event.sourceItemKey := by
    have := hrec.key.symm.trans hkey
    injection this
  refine Triple.ret fun w hw => ⟨hw.1.1,?_⟩
  have heml : EmlAt env w.log event.relativePath event.fileHash := by
    rw [hepath,hehash]
    exact hw.2
  have hdescribes : event.Describes record :=
    { account := hrec.account.trans haccount.symm
      folderId := hrec.folderId.trans hfolder.symm
      serverUid := by rw [huid,hvalidity]; exact hrec.serverUid
      key := hsame
      relativePath := by rw [hpath,hepath]; rfl
      fileHash := by rw [hhash,hehash]; rfl
      gmailMsgid := hrec.gmailMsgid.trans hmsgid.symm }
  generalize (env.parse raw ref.internalDate).parseError.isSome = parseFailed
  cases parseFailed with
  | false => exact
      { uid := rfl
        handled := fun h => by cases h
        failure := fun f hf => by cases hf
        record := fun r hr => by cases hr; exact hrec
        answered := fun _ => hw.1.2
        event := ⟨hdescribes,hname,heml⟩ }
  | true => exact
      { uid := rfl
        handled := fun h => by cases h
        failure := fun f hf => by cases hf; exact ⟨rfl,rfl⟩
        record := fun r hr => by cases hr; exact hrec
        answered := fun _ => hw.1.2
        event := ⟨hdescribes,hname,heml⟩ }

theorem makeItem_closed (hI : Closed itemFootprint I) :
    Triple I (makeItem env accountId options folder.rawName folder.id uidvalidity ref)
      (fun item w => I w ∧ ItemOf env accountId folder uidvalidity ref w.log (item.inFolder folder.id))
      (fun _ => I) := by
  refine Triple.seq (modifySession_closed hI fun s => ⟨rfl,rfl,rfl,rfl,rfl⟩) fun _ => ?_
  split
  · refine (withRetry_closed hI (downloadEmlHeaders_closed hI _ ref.uid) 3).seq fun headers => ?_
    refine (oversizeItem_closed hI headers _).seq fun item => ?_
    have hK := hI.and (Closed.ofLog (φ := fun log => ItemOf env accountId folder uidvalidity ref log
      (item.inFolder folder.id)) fun _ e h => h.cons e)
    exact Triple.seq (modifySession_closed hK fun s => ⟨rfl,rfl,rfl,rfl,rfl⟩) fun _ =>
      Triple.ret fun _ h => h
  · refine (withRetry_closed hI (downloadEmlBytes_closed hI _ ref.uid) 3).seq fun raw => ?_
    have hJ := hI.answered folder.rawName ref.uid
    refine Triple.seq (modifySession_closed hJ fun s => ⟨rfl,rfl,rfl,rfl,rfl⟩) fun _ => ?_
    split
    · exact oversizeItem_closed hI raw _
    · exact storedItem_closed hI raw

theorem recordFetchFailure_itemOf (e : Error) (log : List Effect) :
    ItemOf env accountId folder uidvalidity ref log
      ((recordFetchFailure ref.uid uidvalidity e).inFolder folder.id) where
  uid := rfl
  handled _ := rfl
  failure f hf := by
    cases hf
    exact ⟨rfl,rfl⟩
  record r hr := by cases hr
  answered hr := by cases hr
  event := trivial

/-- Whatever happens to a message, either an item for it becomes pending or an error is
raised; `Φ` is what is known of the item. -/
theorem processRef_made (hI : Closed itemFootprint I) {Φ : PendingItem → World → Prop}
    (hmake : Triple I (makeItem env accountId options folder.rawName folder.id uidvalidity ref)
      (fun item w => I w ∧ Φ (item.inFolder folder.id) w) (fun _ => I))
    (hfailed : ∀ e w, I w → Φ ((recordFetchFailure ref.uid uidvalidity e).inFolder folder.id) w)
    {Q : Unit → World → Prop} (hQ : ∀ w item, I w → Φ item w → Q () (w.pended item)) :
    Triple I (processRef env accountId options folder.rawName folder.id uidvalidity ref) Q
      (fun _ => I) := by
  refine (Within.raiseIfCancelled I hI).seq fun _ => ?_
  refine Triple.seq (Q := fun item w => I w ∧ Φ item w) ?_ fun item =>
    Triple.write fun w hw => hQ w item hw.1 hw.2
  refine Triple.handle (F := fun _ => I) (hmake.seq fun item => Triple.ret fun _ h => h) fun e => ?_
  split
  · exact Triple.raise fun _ h => h
  · split
    · exact Triple.seq (modifySession_closed hI fun s => ⟨rfl,rfl,rfl,rfl,rfl⟩) fun _ =>
        Triple.ret fun w hw => ⟨hw,hfailed e w hw⟩
    · exact Triple.raise fun _ h => h

theorem processRef_rule (hI : Closed itemFootprint I) {Q : Unit → World → Prop}
    (hQ : ∀ w item, I w → ItemOf env accountId folder uidvalidity ref w.log item →
      Q () (w.pended item)) :
    Triple I (processRef env accountId options folder.rawName folder.id uidvalidity ref) Q
      (fun _ => I) :=
  processRef_made (Φ := fun item w => ItemOf env accountId folder uidvalidity ref w.log item) hI
    (makeItem_closed hI) (fun e w _ => recordFetchFailure_itemOf e w.log) hQ

end

/-! A batch raises local errors only, so nothing that handles a `FetchError`, an
authentication failure or a cancellation ever sees one of its errors. -/

/-- Every error the program can raise is local. -/
def RaisesLocalOnly {α : Type} (p : App α) : Prop :=
  Triple (fun _ => True) p (fun _ _ => True) fun e _ => e.isLocal = true

namespace RaisesLocalOnly

variable {α β : Type}

theorem ret (a : α) : RaisesLocalOnly (pure a : App α) := Triple.ret fun _ _ => trivial

theorem seq {p : App α} {f : α → App β} (hp : RaisesLocalOnly p)
    (hf : ∀ a, RaisesLocalOnly (f a)) : RaisesLocalOnly (p >>= f) :=
  Triple.seq hp hf

theorem read : RaisesLocalOnly (get : App World) := Triple.read fun _ _ => trivial

theorem change (f : World → World) : RaisesLocalOnly (modify f : App Unit) :=
  Triple.write fun _ _ => trivial

theorem nextTick : RaisesLocalOnly nextTick := nextTick_rule fun _ _ => trivial

theorem nowIso : RaisesLocalOnly (nowIso env) := nowIso_rule fun _ _ _ => trivial

theorem timestamp : RaisesLocalOnly (timestamp env) := timestamp_rule fun _ _ _ => trivial

theorem repoCall : RaisesLocalOnly (repoCall env) :=
  repoCall_rule (fun _ _ => trivial) fun _ _ _ he => he

theorem queryRepo {query : Tables → α} : RaisesLocalOnly (queryRepo env query) :=
  queryRepo_rule (fun _ _ => trivial) fun _ _ _ he => he

theorem writeRepo (op : WriteOp) : RaisesLocalOnly (writeRepo env op) :=
  writeRepo_rule (fun _ _ _ _ => trivial) fun _ _ _ he => he

theorem addMessage (record : MessageRecord) (contents : Option MessageContents) :
    RaisesLocalOnly (addMessage env record contents) :=
  addMessage_rule (fun _ _ _ _ _ => trivial) fun _ _ _ he => he

theorem beginBatch : RaisesLocalOnly (beginBatch env) :=
  beginBatch_rule (fun _ _ _ => trivial) fun _ _ _ he => he

theorem commitBatch : RaisesLocalOnly (commitBatch env) :=
  commitBatch_rule (fun _ _ => trivial) fun _ _ _ he => he

theorem appendManifest (e : ManifestEvent) : RaisesLocalOnly (appendManifest env e) :=
  appendManifest_rule (fun _ _ _ _ => trivial) fun _ _ _ he => he

theorem flushAndSync : RaisesLocalOnly (flushAndSync env) :=
  flushAndSync_rule (fun _ _ => trivial) fun _ _ _ he => he

theorem loop {f : α → App PUnit} (h : ∀ x, RaisesLocalOnly (f x)) (xs : List α) :
    RaisesLocalOnly (xs.forM f) :=
  Triple.loop xs fun x _ => h x

end RaisesLocalOnly

theorem gmailAlias_raisesLocal (event : FetchEvent) (record : MessageRecord) :
    RaisesLocal (gmailAlias event record) := by
  unfold gmailAlias
  split
  · refine Except.RaisesOnly.seq ?_ fun key => ?_
    · unfold imapSourceItemKey
      split
      · exact .raise rfl
      · split
        · exact .raise rfl
        · exact .ret _
    · split <;> exact .ret _
  · exact .ret _

theorem appendItem_local (links : List (SourceItemKey × SourceItemKey)) (item : PendingItem) :
    RaisesLocalOnly (appendItem env accountId links item) := by
  unfold appendItem
  split
  · exact .ret _
  · refine (RaisesLocalOnly.appendManifest _).seq fun _ => RaisesLocalOnly.seq
      (Triple.ofExcept (fun _ _ _ _ => trivial) fun e he _ _ => gmailAlias_raisesLocal _ _ e he)
      fun found => ?_
    split
    · exact .ret _
    · exact RaisesLocalOnly.nowIso.seq fun _ => (RaisesLocalOnly.appendManifest _).seq fun _ =>
        .ret _
  · exact (RaisesLocalOnly.appendManifest _).seq fun _ => .ret _

theorem appendSnapshots_local (records : List MessageRecord) :
    RaisesLocalOnly (appendSnapshots env accountId records) := by
  refine RaisesLocalOnly.loop (fun group => ?_) _
  split
  · exact .ret _
  · exact (RaisesLocalOnly.queryRepo.seq fun _ => RaisesLocalOnly.queryRepo.seq fun _ =>
      RaisesLocalOnly.nowIso.seq fun _ => .ret _).seq fun _ => RaisesLocalOnly.appendManifest _

theorem writeItem_local (links : List (SourceItemKey × SourceItemKey)) (item : PendingItem) :
    RaisesLocalOnly (writeItem env accountId links item) := by
  refine RaisesLocalOnly.seq ?_ fun _ => ?_
  · split
    · exact (RaisesLocalOnly.addMessage _ _).seq fun _ => (RaisesLocalOnly.change _).seq fun _ =>
        RaisesLocalOnly.loop (fun _ => RaisesLocalOnly.writeRepo _) _
    · exact .ret _
  · split
    · exact RaisesLocalOnly.writeRepo _
    · split
      · exact RaisesLocalOnly.writeRepo _
      · exact .ret _
    · exact .ret _

theorem commitPending_local (cursor : Option CursorUpdate) :
    RaisesLocalOnly (commitPending env accountId cursor) := by
  have hcursor : RaisesLocalOnly (writeCursor env cursor) := by
    unfold writeCursor
    split
    · exact RaisesLocalOnly.writeRepo _
    · exact .ret _
  have happend : ∀ pending, RaisesLocalOnly (appendPending env accountId pending) := fun pending =>
    RaisesLocalOnly.seq (Triple.accumulate (I := fun _ _ => True) _
      (fun _ _ _ => appendItem_local _ _) _) fun _ => (appendSnapshots_local _).seq fun _ =>
      RaisesLocalOnly.flushAndSync.seq fun _ => .ret _
  have hwrite : ∀ pending links, RaisesLocalOnly (writePending env accountId pending links cursor) :=
    fun pending links => RaisesLocalOnly.beginBatch.seq fun _ =>
      (RaisesLocalOnly.loop (fun _ => writeItem_local _ _) _).seq fun _ => hcursor.seq fun _ =>
      RaisesLocalOnly.commitBatch
  have hcheckpoint : RaisesLocalOnly (checkpointBatch env accountId) := by
    refine (RaisesLocalOnly.change _).seq fun _ => RaisesLocalOnly.nextTick.seq fun _ =>
      RaisesLocalOnly.read.seq fun w => (RaisesLocalOnly.timestamp.seq fun _ =>
      (RaisesLocalOnly.appendManifest _).seq fun _ => RaisesLocalOnly.flushAndSync).seq fun _ => ?_
    split
    · exact RaisesLocalOnly.repoCall
    · exact .ret _
  refine RaisesLocalOnly.read.seq fun w => ?_
  split
  · exact .ret _
  · exact (happend _).seq fun links => (hwrite _ links).seq fun _ => hcheckpoint

end

end MailDock
