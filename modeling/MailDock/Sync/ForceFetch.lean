import MailDock.Reindex.Replay
import MailDock.Sync.Retention

/-!
# The identity a forced fetch records

`force_fetch_message` and `sync_account` build the event and the row of a message from the same
reference, each with its own calls.  The row takes the Gmail ids from the reference in both; the
event takes them from the call.

## Main definitions

- `RecordedIdentity` — the source item key and the Gmail ids of an event or a row
- `Forced` — what a forced fetch has written when it returns
- `SameIdentity` — both ways of fetching, and a rebuild from the event, give the same identity

## Main results

- `forceFetchMessage_forced` — what a forced fetch writes for a reference
- `forceFetch_sameIdentity_iff` — the references whose identity it keeps
-/

namespace MailDock

open Hoare Relational

/-- By what an event or a row is known. -/
structure RecordedIdentity where
  sourceItemKey : SourceItemKey
  gmailMsgid : Option Nat
  gmailThrid : Option Nat
deriving DecidableEq, Repr

def FetchEvent.identity (e : FetchEvent) : RecordedIdentity :=
  ⟨e.sourceItemKey,e.gmailMsgid,e.gmailThrid⟩

def MessageRecord.identity (r : MessageRecord) : RecordedIdentity :=
  ⟨r.sourceItemKey,r.gmailMsgid,r.gmailThrid⟩

/-- The identity `reindex` derives from an event. -/
def FetchEvent.rebuiltIdentity (e : FetchEvent) (key : FetchKey) : Except Error RecordedIdentity :=
  (e.identityKey key).map fun sourceItemKey => ⟨sourceItemKey,e.gmailMsgid,e.gmailThrid⟩

/-- The identity of a reference, with the Gmail ids that are handed on. -/
def IdentityOf (folderRawName : String) (uidvalidity uid : Nat) (gmailMsgid gmailThrid : Option Nat)
    (identity : RecordedIdentity) : Prop :=
  remoteSourceItemKey folderRawName uidvalidity uid gmailMsgid = .ok identity.sourceItemKey ∧
    identity.gmailMsgid = gmailMsgid ∧ identity.gmailThrid = gmailThrid

/-- An identity is settled by the reference and the ids. -/
theorem IdentityOf.unique {folderRawName : String} {uidvalidity uid : Nat}
    {gmailMsgid gmailThrid : Option Nat} {a b : RecordedIdentity}
    (ha : IdentityOf folderRawName uidvalidity uid gmailMsgid gmailThrid a)
    (hb : IdentityOf folderRawName uidvalidity uid gmailMsgid gmailThrid b) : a = b := by
  obtain ⟨hakey,hamsgid,hathrid⟩ := ha
  obtain ⟨hbkey,hbmsgid,hbthrid⟩ := hb
  rw [hakey] at hbkey
  cases a
  cases b
  cases hbkey
  simp_all

/-- The key of a message, with or without a Gmail id, is one that a rebuild keeps. -/
theorem FetchEvent.rebuiltIdentity_of {folderRawName : String} {uidvalidity uid : Nat}
    {gmailMsgid gmailThrid : Option Nat} {e : FetchEvent}
    (h : IdentityOf folderRawName uidvalidity uid gmailMsgid gmailThrid e.identity)
    (key : FetchKey) : e.rebuiltIdentity key = .ok e.identity := by
  obtain ⟨hkey,hmsgid,-⟩ := h
  have hidentity : e.identityKey key = .ok e.sourceItemKey := by
    have hids : e.gmailMsgid = gmailMsgid := hmsgid
    unfold FetchEvent.identityKey
    rw [hids]
    cases gmailMsgid with
    | some msgid => exact hkey
    | none =>
      have hremote : e.sourceItemKey.isRemote = true := by
        change imapSourceItemKey folderRawName uidvalidity uid = .ok e.sourceItemKey at hkey
        unfold imapSourceItemKey at hkey
        split at hkey
        · cases hkey
        · split at hkey
          · cases hkey
          · rw [← Except.ok.inj hkey]
            rfl
      simp [hremote]
  rw [FetchEvent.rebuiltIdentity,hidentity]
  rfl

section
variable {env : Env} {accountId folderRawName : String} {folderId uidvalidity : Nat}
  {ref : RemoteMessageRef} {F : Footprint}

theorem recordForMessage_identity (parsed : ParsedMessage) (stored : Option StoredEml)
    (size : Nat) :
    Yields F (recordForMessage env accountId folderRawName folderId uidvalidity ref parsed stored
      size) fun r =>
        IdentityOf folderRawName uidvalidity ref.uid ref.gmailMsgid ref.gmailThrid r.identity :=
  (Yields.ofExcept fun _ h => h).seq fun _ hkey => Within.nowIso.yields fun _ =>
    Within.nowIso.yields fun _ => Yields.ret ⟨hkey,rfl,rfl⟩

theorem fetchEvent_identity (parsed : ParsedMessage) (stored : StoredEml)
    (gmailMsgid gmailThrid : Option Nat) (gmailLabels : Option (List String)) :
    Yields F (fetchEvent env accountId folderRawName folderId uidvalidity ref parsed stored
      gmailMsgid gmailThrid gmailLabels) fun e =>
        IdentityOf folderRawName uidvalidity ref.uid gmailMsgid gmailThrid e.identity :=
  (Yields.ofExcept fun _ h => h).seq fun _ hkey => Within.nowIso.yields fun _ =>
    Yields.ret ⟨hkey,rfl,rfl⟩

/-- What a synchronisation writes for a reference. -/
theorem storedItem_identity (raw : Bytes) :
    Yields itemFootprint (storedItem env accountId folderRawName folderId uidvalidity ref raw)
      fun item => ∃ e r,item.event = some (.fetch e) ∧ item.record = some r ∧
        IdentityOf folderRawName uidvalidity ref.uid ref.gmailMsgid ref.gmailThrid e.identity ∧
        IdentityOf folderRawName uidvalidity ref.uid ref.gmailMsgid ref.gmailThrid r.identity := by
  refine Within.yields (fun I hI => (storeEml_closed hI _ raw).strengthen_post fun _ _ hw => hw.1)
    fun stored => ?_
  dsimp only
  refine (recordForMessage_identity _ (some stored) raw.length).seq fun r hr => ?_
  refine Within.yields (fun I hI => modifySession_closed hI fun s => ⟨rfl,rfl,rfl,rfl,rfl⟩)
    fun _ => ?_
  exact (fetchEvent_identity _ stored _ _ _).seq fun e he => Yields.ret ⟨e,r,rfl,rfl,he,hr⟩

/-! ## What a forced fetch writes -/

/-- The event and the row of a forced fetch; a checkpoint follows the event. -/
structure Forced (folderRawName : String) (uidvalidity : Nat) (ref : RemoteMessageRef)
    (start : World) (e : FetchEvent) (r : MessageRecord) (w : World) : Prop where
  manifest : ∃ c,w.manifest = start.manifest ++ [.fetch e,.checkpoint c]
  written : ∃ contents,.write (.addMessage r contents) ∈ w.log
  /-- The event is given no Gmail id. -/
  event : IdentityOf folderRawName uidvalidity ref.uid none none e.identity
  row : IdentityOf folderRawName uidvalidity ref.uid ref.gmailMsgid ref.gmailThrid r.identity

/-- A manifest is not touched by what only looks and stores. -/
theorem closed_manifest (events : List ManifestEvent) :
    Closed itemFootprint fun w => w.manifest = events where
  ticked _ h := h
  logged _ _ _ _ h := h
  saved _ _ _ _ h := h
  appended _ _ _ he _ := he.elim
  began _ _ h := h
  written _ _ _ hop _ _ := hop.elim
  committed _ h := h
  counted _ _ _ h := h

/-- The row is in the log, and the manifest ends with the event. -/
def EventAndRow (start : World) (e : FetchEvent) (r : MessageRecord) (w : World) : Prop :=
  w.manifest = start.manifest ++ [.fetch e] ∧ ∃ contents,.write (.addMessage r contents) ∈ w.log

theorem EventAndRow.written {start w : World} {e : FetchEvent} {r : MessageRecord}
    (h : EventAndRow start e r w) (op : WriteOp) (db : Repository) :
    EventAndRow start e r (w.written op db) := by
  obtain ⟨hmanifest,contents,hmem⟩ := h
  refine ⟨by rw [World.written_manifest,hmanifest],contents,?_⟩
  unfold World.written
  split
  · exact List.mem_cons_of_mem _ hmem
  · exact List.mem_cons_of_mem _ (List.mem_cons_of_mem _ hmem)

/-- The part of a forced fetch after the event and the row are built. -/
theorem forced_tail {start : World} {e : FetchEvent} {r : MessageRecord}
    {contents : Option MessageContents} {op : WriteOp} {result : SyncResult}
    (he : IdentityOf folderRawName uidvalidity ref.uid none none e.identity)
    (hr : IdentityOf folderRawName uidvalidity ref.uid ref.gmailMsgid ref.gmailThrid r.identity) :
    Triple (fun v => v.manifest = start.manifest)
      (do
        appendManifest env (.fetch e)
        flushAndSync env
        beginBatch env
        let _ ← addMessage env r contents
        writeRepo env op
        commitBatch env
        let t ← nextTick
        let w ← get
        checkpointManifest env accountId (w.lastCheckpointSequence.getD 0 + 1) (env.uuid t)
        pure result)
      (fun _ w => Forced folderRawName uidvalidity ref start e r w) fun _ _ => True := by
  refine Triple.seq (Q := fun _ v => v.manifest = start.manifest ++ [.fetch e])
    (appendManifest_rule (fun v last hv _ => ?_) fun _ _ _ _ => trivial) fun _ => ?_
  · show v.manifest ++ _ = _
    rw [hv]
  refine Triple.seq (Q := fun _ v => v.manifest = start.manifest ++ [.fetch e])
    (flushAndSync_rule (fun v hv => hv) fun _ _ _ _ => trivial) fun _ => ?_
  refine Triple.seq (Q := fun _ v => v.manifest = start.manifest ++ [.fetch e])
    (beginBatch_rule (fun v hv _ => hv) fun _ _ _ _ => trivial) fun _ => ?_
  refine Triple.seq (Q := fun _ => EventAndRow start e r)
    (addMessage_rule (fun v id db hv _ => ?_) fun _ _ _ _ => trivial) fun _ => ?_
  · refine ⟨by rw [World.written_manifest]; exact hv,contents,?_⟩
    unfold World.written
    split
    · exact List.mem_cons_self
    · exact List.mem_cons_of_mem _ List.mem_cons_self
  refine Triple.seq (Q := fun _ => EventAndRow start e r)
    (writeRepo_rule (fun v db hv _ => EventAndRow.written (w := v.ticked) ⟨hv.1,hv.2⟩ op db)
      fun _ _ _ _ => trivial) fun _ => ?_
  refine Triple.seq (Q := fun _ => EventAndRow start e r)
    (commitBatch_rule (fun v hv => ⟨hv.1,hv.2.imp fun _ h => List.mem_cons_of_mem _ h⟩)
      fun _ _ _ _ => trivial) fun _ => ?_
  refine Triple.seq (Q := fun _ => EventAndRow start e r) (nextTick_rule fun v hv => hv) fun t => ?_
  refine Triple.seq (Q := fun _ => EventAndRow start e r) (Triple.read fun v hv => hv) fun seen => ?_
  refine Triple.seq (Q := fun _ => Forced folderRawName uidvalidity ref start e r) ?_
    fun _ => Triple.ret fun _ h => h
  -- the checkpoint
  refine Triple.seq (Q := fun _ => EventAndRow start e r) (timestamp_rule fun v s hv => hv)
    fun now => ?_
  refine Triple.seq (Q := fun _ => Forced folderRawName uidvalidity ref start e r)
    (appendManifest_rule (fun v last hv _ => ?_) fun _ _ _ _ => trivial) fun _ => ?_
  · refine ⟨⟨⟨accountId,seen.lastCheckpointSequence.getD 0 + 1,env.uuid t,now⟩,?_⟩,hv.2.imp fun _ h => List.mem_cons_of_mem _ h,he,hr⟩
    show v.manifest ++ _ = _
    rw [hv.1,List.append_assoc]
    rfl
  · refine flushAndSync_rule (fun v hv => ?_) fun _ _ _ _ => trivial
    exact ⟨hv.manifest,hv.written.imp fun _ h => List.mem_cons_of_mem _ h,hv.event,hv.row⟩

/-- A forced fetch that returns has written an event without Gmail ids and a row with them. -/
theorem forceFetchMessage_forced {uid : Nat} {w w' : World} {result : SyncResult}
    (href : env.nextRef (w.tick + 2) folderRawName uid uid = some ref)
    (h : forceFetchMessage env accountId folderRawName folderId uidvalidity uid w = (.ok result,w')) :
    ∃ e r,Forced folderRawName uidvalidity ref w e r w' := by
  have hI := closed_manifest w.manifest
  have hrun : Triple (fun v => v = w)
      (forceFetchMessage env accountId folderRawName folderId uidvalidity uid)
      (fun _ v => ∃ e r,Forced folderRawName uidvalidity ref w e r v) fun _ _ => True := by
    -- the reference is asked for at the third call
    refine Triple.seq (Q := fun _ v => v = w.ticked)
      (raiseIfCancelled_rule (fun v hv => hv ▸ rfl) fun _ _ _ _ => trivial) fun _ => ?_
    refine Triple.seq (Q := fun _ v => v.tick = w.tick + 2 ∧ v.manifest = w.manifest) ?_
      fun current => ?_
    · refine Triple.seq (Q := fun _ v => v.tick = w.tick + 2 ∧ v.manifest = w.manifest) ?_
        fun _ => Triple.ret fun _ h => h
      refine imapCommand_rule (fun v hv => ?_) fun _ _ _ => trivial
      subst hv
      exact ⟨rfl,rfl⟩
    · split
      · exact Triple.raise fun _ _ => trivial
      · refine Triple.seq (Q := fun found v => v.manifest = w.manifest ∧ found = some ref) ?_
          fun found => Triple.assume fun hfound => ?_
        · refine Triple.seq (Q := fun t v => t = w.tick + 2 ∧ v.manifest = w.manifest)
            (nextTick_rule fun v hv => ⟨hv.1,hv.2⟩) fun t => ?_
          refine Triple.seq (Q := fun _ v => t = w.tick + 2 ∧ v.manifest = w.manifest)
            (raiseFault_rule (fun _ h => h) fun _ _ _ _ => trivial) fun _ => Triple.ret ?_
          rintro v ⟨rfl,hv⟩
          exact ⟨hv,href⟩
        · subst hfound
          have hdownload : Triple (fun v => v.manifest = w.manifest)
              (withRetry env (downloadEmlBytes env folderRawName uid) 3)
              (fun _ v => v.manifest = w.manifest) fun _ v => v.manifest = w.manifest :=
            withRetry_closed hI ((downloadEmlBytes_closed hI folderRawName uid).strengthen_post
              fun _ _ hw => hw.1) 3
          refine Triple.seq (hdownload.weaken_error fun _ _ _ => trivial) fun raw => ?_
          refine Triple.seq (Q := fun _ v => v.manifest = w.manifest)
            (raiseIfCancelled_rule (fun v hv => hv) fun _ _ _ _ => trivial) fun _ => ?_
          refine Triple.seq ((storeEml_closed hI ref.internalDate raw).consequence (fun _ h => h)
            (fun _ _ h => h.1) fun _ _ _ => trivial) fun stored => ?_
          dsimp only
          refine Triple.seq (((recordForMessage_identity _ (some stored) raw.length) _ hI).weaken_error
            fun _ _ _ => trivial) fun r => Triple.assume fun hr => ?_
          refine Triple.seq (((fetchEvent_identity _ stored none none none) _ hI).weaken_error
            fun _ _ _ => trivial) fun e => Triple.assume fun he => ?_
          exact (forced_tail he hr).strengthen_post fun _ _ hforced => ⟨e,r,hforced⟩
  have hforced := hrun w rfl
  rw [h] at hforced
  exact hforced

end

/-! ## Both ways of fetching -/

/-- Event and row have the identity of the other event and row, and so has what is rebuilt from the
event. -/
structure SameIdentity (e e' : FetchEvent) (r r' : MessageRecord) : Prop where
  event : e.identity = e'.identity
  row : r.identity = r'.identity
  rebuilt : ∀ key, e.rebuiltIdentity key = .ok r.identity

/-- The Gmail ids are what an event without them lacks. -/
theorem sameIdentity_iff {folderRawName : String} {uidvalidity : Nat} {ref : RemoteMessageRef}
    {e e' : FetchEvent} {r r' : MessageRecord}
    (he : IdentityOf folderRawName uidvalidity ref.uid none none e.identity)
    (hr : IdentityOf folderRawName uidvalidity ref.uid ref.gmailMsgid ref.gmailThrid r.identity)
    (he' : IdentityOf folderRawName uidvalidity ref.uid ref.gmailMsgid ref.gmailThrid e'.identity)
    (hr' : IdentityOf folderRawName uidvalidity ref.uid ref.gmailMsgid ref.gmailThrid r'.identity) :
    SameIdentity e e' r r' ↔ ref.gmailMsgid = none ∧ ref.gmailThrid = none := by
  constructor
  · intro hsame
    have heq := hsame.event
    rw [← he'.2.1,← he'.2.2,← heq]
    exact he.2
  · rintro ⟨hmsgid,hthrid⟩
    rw [hmsgid,hthrid] at hr he' hr'
    refine ⟨he.unique he',hr.unique hr',fun key => ?_⟩
    rw [FetchEvent.rebuiltIdentity_of he key,he.unique hr]

/-- A forced fetch of a reference and a synchronisation that fetches it record the same identity
when the reference has no Gmail ids. -/
theorem forceFetch_sameIdentity_iff {env : Env} {accountId folderRawName : String}
    {folderId uidvalidity uid : Nat} {w w' : World} {result : SyncResult} {ref : RemoteMessageRef}
    (href : env.nextRef (w.tick + 2) folderRawName uid uid = some ref)
    (hforced : forceFetchMessage env accountId folderRawName folderId uidvalidity uid w =
      (.ok result,w')) {env' : Env} {raw : Bytes} {v v' : World} {item : PendingItem}
    (hsynced : storedItem env' accountId folderRawName folderId uidvalidity ref raw v =
      (.ok item,v')) :
    ∃ e r e' r',Forced folderRawName uidvalidity ref w e r w' ∧
      item.event = some (.fetch e') ∧ item.record = some r' ∧
      (SameIdentity e e' r r' ↔ ref.gmailMsgid = none ∧ ref.gmailThrid = none) := by
  obtain ⟨e,r,hwritten⟩ := forceFetchMessage_forced href hforced
  have hitem := @storedItem_identity env' accountId folderRawName folderId uidvalidity ref raw _
    (closed_manifest v.manifest) v rfl
  rw [hsynced] at hitem
  obtain ⟨-,e',r',hevent,hrecord,he',hr'⟩ := hitem
  exact ⟨e,r,e',r',hwritten,hevent,hrecord,sameIdentity_iff hwritten.event hwritten.row he' hr'⟩

/-! A message that is still missing, on a generic and on a Gmail server. -/

def unfetched (oauthProvider : Option String) : Repository where
  tables :=
    { accounts := [{ id := "work", oauthProvider := oauthProvider }]
      folders := [{
        id := 1, accountId := "work", rawName := "INBOX", displayName := "INBOX",
        uidvalidity := some 9, isSyncTarget := true }]
      nextFolderId := 2 }
  valid := by constructor <;> simp [UniqueOn,Tables.HasAccount]

def missingWorld (oauthProvider : Option String) : World :=
  .opened (unfetched oauthProvider) [] none [] 0

/-- UID 12 of the INBOX, fetched by hand. -/
def forcedRun (env : Env) (provider : Option String) : Except Error SyncResult × World :=
  forceFetchMessage env "work" "INBOX" 1 9 12 (missingWorld provider)

/-- The same reference, as a synchronisation makes an item of it. -/
def syncedRun (env : Env) (ref : RemoteMessageRef) (provider : Option String) :
    Except Error PendingItem × World :=
  storedItem env "work" "INBOX" 1 9 ref [] (missingWorld provider)

theorem forceFetch_sameIdentity_iff_generic :
    ∃ item, (syncedRun (steadyServer 9 fun _ => [12]) { uid := 12 } none).1 = .ok item ∧
      ∃ e r e' r', Forced "INBOX" 9 { uid := 12 } (missingWorld none) e r
          (forcedRun (steadyServer 9 fun _ => [12]) none).2 ∧
        item.event = some (.fetch e') ∧ item.record = some r' ∧ SameIdentity e e' r r' := by
  have hforced : (forcedRun (steadyServer 9 fun _ => [12]) none).1 = .ok ⟨1,0,0,0,false⟩ := by
    decide
  cases hsynced : (syncedRun (steadyServer 9 fun _ => [12]) { uid := 12 } none).1 with
  | error e =>
    have hok : (syncedRun (steadyServer 9 fun _ => [12]) { uid := 12 } none).1.isOk = true := by
      decide
    rw [hsynced] at hok
    cases hok
  | ok item =>
    obtain ⟨e,r,e',r',hforced,hevent,hrecord,hsame⟩ :=
      @forceFetch_sameIdentity_iff (steadyServer 9 fun _ => [12]) "work" "INBOX" 1 9 12
        (missingWorld none) _ _ { uid := 12 } (by decide) (Prod.ext hforced rfl)
        (steadyServer 9 fun _ => [12]) [] (missingWorld none) _ item (Prod.ext hsynced rfl)
    exact ⟨item,rfl,e,r,e',r',hforced,hevent,hrecord,hsame.mpr ⟨rfl,rfl⟩⟩

def ManifestEvent.fetchedIdentity : ManifestEvent → Option RecordedIdentity
  | .fetch e => some e.identity
  | _ => none

/-- On a Gmail server the event of the forced fetch has the key of a UID, and neither the row nor
the event of a synchronisation has. -/
theorem forced_gmail_identity_differs :
    (forcedRun (gmailServer 77 0) (some "google")).1 = .ok ⟨1,0,0,0,false⟩ ∧
    (forcedRun (gmailServer 77 0) (some "google")).2.manifest.filterMap ManifestEvent.fetchedIdentity =
      [⟨.imap "INBOX" 9 12,none,none⟩] ∧
    ((forcedRun (gmailServer 77 0) (some "google")).2.db.tables.messages.map fun m =>
      (m.sourceItemKey,m.gmailMsgid)) = [(.gmail 77,some 77)] ∧
    ((syncedRun (gmailServer 77 0) { uid := 12, gmailMsgid := some 77 }
      (some "google")).1.map fun item =>
      item.event.bind ManifestEvent.fetchedIdentity) = .ok (some ⟨.gmail 77,some 77,none⟩) := by
  refine ⟨?_,?_,?_,?_⟩
  · decide
  · decide
  · decide
  · decide

end MailDock
