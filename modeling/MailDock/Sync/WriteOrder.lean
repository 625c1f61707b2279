import MailDock.Sync.Retention

/-!
# Where the committed rows come from

After a crash the database is that of the last commit, and the manifest ends with the last
flush.  Each EML path and each membership of that database is followed back through the
writes: it was there at the start, on a row that the present one is the heir of, or a record
of the run brought it, and the event of that record is flushed.

## Main definitions

- `HeirOf` — the row that stands for a message, through merges
- `StoredFrom`, `PlacedFrom` — where the EML and a membership of a row come from
- `Message.Saved`, `Membership.Fetched`, `Membership.Skipped` — what a crash leaves of their events
-/

namespace MailDock

open Hoare Trace

/-- After the writes of the log, `id'` stands for the message that was `id` at the start. -/
def HeirOf (start : Repository) (log : List Effect) (id id' : Nat) : Prop :=
  heir (fun _ _ _ => false) start log id = some id'

instance instDecidableHeirOf (start : Repository) (log : List Effect) (id id' : Nat) :
    Decidable (HeirOf start log id id') := inferInstanceAs (Decidable (_ = _))

theorem HeirOf.write {start : Repository} {log : List Effect} {id id' : Nat} {op : WriteOp}
    (h : HeirOf start log id id') : HeirOf start (.write op :: log) id (op.heir id') := by
  simp only [HeirOf,heir,Option.bind_eq_some_iff]
  exact ⟨id',h,rfl⟩

/-! The EMLs of the rows. -/

/-- The path and the hash of each row after the write were there before it, on a row whose heir
it is, or they are those of the record that is written. -/
def WriteOp.PlacesEmls (op : WriteOp) (t t' : Tables) : Prop :=
  ∀ m' ∈ t'.messages,
    (∃ m ∈ t.messages, m.relativePath = m'.relativePath ∧ m.fileHash = m'.fileHash ∧
      op.heir m.id = m'.id) ∨
    ∃ record ∈ op.upserted, record.relativePath = m'.relativePath ∧ record.fileHash = m'.fileHash

section
variable {repo repo' : Repository}

theorem addMessage_placesEmls {record : MessageRecord} {contents : Option MessageContents}
    {id : Nat} (h : repo.addMessage record contents = .ok (id,repo')) :
    (WriteOp.addMessage record contents).PlacesEmls repo.tables repo'.tables := by
  intro m' hm'
  rw [(Repository.addMessage_spec h).messages] at hm'
  rcases (Tables.mem_upsertMessage record m').mp hm' with ⟨hm,-⟩ | ⟨n,-,-,rfl⟩ | ⟨-,rfl⟩
  · exact .inl ⟨m',hm,rfl,rfl,rfl⟩
  · exact .inr ⟨record,rfl,rfl,rfl⟩
  · exact .inr ⟨record,rfl,rfl,rfl⟩

theorem mergeDuplicateMessage_placesEmls {accountId : String} {c d : Nat}
    (h : repo.mergeDuplicateMessage accountId c d = .ok repo') :
    (WriteOp.mergeDuplicateMessage accountId c d).PlacesEmls repo.tables repo'.tables := by
  intro m' hm'
  by_cases hcd : c = d
  · simp only [Repository.mergeDuplicateMessage,if_pos hcd,Except.ok.injEq] at h
    rw [← h] at hm'
    refine .inl ⟨m',hm',rfl,rfl,?_⟩
    simp only [WriteOp.heir]
    split
    · next hid => rw [hcd,hid]
    · rfl
  · obtain ⟨canonical,hc,duplicate,hd,rfl,rfl,-,-,hmerged⟩ :=
      Repository.mergeDuplicateMessage_spec hcd h
    by_cases hid : m'.id = canonical.id
    · obtain ⟨m,hm,hmid,-,-,-,hpath,hhash⟩ := hmerged.canonical
      have hsame : m' = m := repo'.valid.message_eq hm' hm (hid.trans hmid.symm)
      subst hsame
      -- both columns come from the same row
      by_cases hnone : canonical.relativePath = none ∧ canonical.fileHash = none
      · rw [if_pos hnone] at hpath hhash
        exact .inl ⟨duplicate,hd,hpath.symm,hhash.symm,by rw [WriteOp.heir,if_pos rfl,hid]⟩
      · rw [if_neg hnone] at hpath hhash
        exact .inl ⟨canonical,hc,hpath.symm,hhash.symm,by rw [WriteOp.heir,if_neg hcd,hid]⟩
    · have hother := hmerged.duplicate m' hm'
      exact .inl ⟨m',(hmerged.messages m' hid hother).mp hm',rfl,rfl,by
        rw [WriteOp.heir,if_neg hother]⟩

theorem WriteOp.apply_placesEmls {op : WriteOp} (hop : syncFootprint.op op)
    (h : op.apply repo = .ok repo') : op.PlacesEmls repo.tables repo'.tables := by
  have hkeeps : op.keepsRows = true → op.PlacesEmls repo.tables repo'.tables := by
    intro hkeeps m' hm'
    obtain ⟨m,hm,hcore⟩ := (apply_sameRows hkeeps h).message hm'
    obtain ⟨hpath,hhash⟩ := Message.core_storage hcore
    exact .inl ⟨m,hm,hpath,hhash,(heir_keepsRows hkeeps _).trans (Message.core_eq hcore).1⟩
  cases op with
  | addMessage record contents =>
    obtain ⟨id,hadd⟩ := apply_addMessage h
    exact addMessage_placesEmls hadd
  | mergeDuplicateMessage accountId c d => exact mergeDuplicateMessage_placesEmls h
  | replaceMessageMemberships messageId memberships =>
    intro m' hm'
    rw [Repository.replaceMessageMemberships_spec h] at hm'
    exact .inl ⟨m',hm',rfl,rfl,rfl⟩
  | updateRemoteState messageId state movedTo folderId =>
    intro m' hm'
    rw [apply,Repository.exec_eq_ok] at h
    rw [h] at hm'
    exact .inl ⟨m',hm',rfl,rfl,rfl⟩
  | recordAudit entry => exact hop.elim
  | setLocalState messageId state trashedAt => exact hop.elim
  | updateMessageStorage messageId relativePath fileHash => exact hop.elim
  | deleteMessageContents messageId => exact hop.elim
  | _ => exact hkeeps rfl

end

/-! Back through the log. -/

/-- The EML of a row was there at the start, or a record brought it. -/
def StoredFrom (start : Repository) (log : List Effect) (m : Message) : Prop :=
  (∃ n ∈ start.tables.messages, n.relativePath = m.relativePath ∧ n.fileHash = m.fileHash ∧
    HeirOf start log n.id m.id) ∨
  ∃ record contents, .addMessage record contents ∈ writtenOps log ∧
    record.relativePath = m.relativePath ∧ record.fileHash = m.fileHash

/-- A membership was there at the start, or a record brought it. -/
def PlacedFrom (start : Repository) (log : List Effect) (r : Membership) : Prop :=
  (∃ s ∈ start.tables.memberships, s.folderId = r.folderId ∧ s.serverUid = r.serverUid ∧
    HeirOf start log s.messageId r.messageId) ∨
  ∃ record contents, .addMessage record contents ∈ writtenOps log ∧
    (record.toMembership r.messageId).serverUid = r.serverUid

section
variable {start : Repository} {log : List Effect}

theorem mem_writtenOps_cons {op : WriteOp} (e : Effect) (h : op ∈ writtenOps log) :
    op ∈ writtenOps (e :: log) := by
  rw [mem_writtenOps] at h ⊢
  exact List.mem_cons_of_mem e h

/-- The record of an upsert is written by it. -/
theorem exists_addMessage_of_upserted (log : List Effect) {op : WriteOp} {record : MessageRecord}
    (h : record ∈ op.upserted) :
    ∃ contents, .addMessage record contents ∈ writtenOps (.write op :: log) := by
  cases op with
  | addMessage record' contents =>
    cases h
    exact ⟨contents,List.mem_cons_self⟩
  | _ => cases h

theorem storedFrom_replay {allowed : Tables → WriteOp → Prop}
    (hallowed : ∀ t op, allowed t op → syncFootprint.op op)
    (hlog : Always (Faithful allowed start) log) {m : Message}
    (hm : m ∈ (replay start log).tables.messages) : StoredFrom start log m := by
  induction log generalizing m with
  | nil => exact .inl ⟨m,hm,rfl,rfl,rfl⟩
  | cons e before ih =>
    cases e with
    | write op =>
      obtain ⟨⟨hop,db,happly⟩,hbefore⟩ := hlog
      rw [replay_write happly] at hm
      rcases WriteOp.apply_placesEmls (hallowed _ _ hop) happly m hm with
        ⟨m₀,hm₀,hpath,hhash,hid⟩ | ⟨record,hrecord,hpath,hhash⟩
      · rcases ih hbefore hm₀ with ⟨n,hn,hnpath,hnhash,hheir⟩ |
          ⟨record,contents,hwritten,hrpath,hrhash⟩
        · exact .inl ⟨n,hn,hnpath.trans hpath,hnhash.trans hhash,hid ▸ hheir.write⟩
        · exact .inr ⟨record,contents,mem_writtenOps_cons _ hwritten,hrpath.trans hpath,
            hrhash.trans hhash⟩
      · obtain ⟨contents,hwritten⟩ := exists_addMessage_of_upserted before hrecord
        exact .inr ⟨record,contents,hwritten,hpath,hhash⟩
    | _ => exact ih hlog.2 hm

theorem placedFrom_replay (hlog : Always (Placing start) log) {r : Membership}
    (hr : r ∈ (replay start log).tables.memberships) : PlacedFrom start log r := by
  induction log generalizing r with
  | nil => exact .inl ⟨r,hr,rfl,rfl,rfl⟩
  | cons e before ih =>
    cases e with
    | write op =>
      obtain ⟨hplaces,hbefore⟩ := hlog
      rcases hplaces r hr with ⟨r₀,hr₀,hfolder,huid,hid⟩ | ⟨record,hrecord,hrow⟩
      · rcases ih hbefore hr₀ with ⟨s,hs,hsfolder,hsuid,hheir⟩ |
          ⟨record,contents,hwritten,hrow⟩
        · exact .inl ⟨s,hs,hsfolder.trans hfolder,hsuid.trans huid,hid ▸ hheir.write⟩
        · exact .inr ⟨record,contents,mem_writtenOps_cons _ hwritten,hrow.trans huid⟩
      · obtain ⟨contents,hwritten⟩ := exists_addMessage_of_upserted before hrecord
        exact .inr ⟨record,contents,hwritten,congrArg Membership.serverUid hrow.symm⟩
    | _ => exact ih hlog.2 hr

end

/-! The run. -/

section
variable (env : Env) (accountId : String) (options : SyncOptions) (db : Repository)
  (manifest : List ManifestEvent) (lastCheckpoint : Option Nat) (files : List (String × Bytes))
  (tick : Nat)

/-- The log of a run on an opened database. -/
def syncLog : List Effect :=
  (syncAccount env accountId options (World.opened db manifest lastCheckpoint files tick)).2.log

theorem syncLog_guarded :
    Always (SyncGuard env) (syncLog env accountId options db manifest lastCheckpoint files tick) :=
  syncAccount_guarded.final (s := World.opened db manifest lastCheckpoint files tick)
    ⟨trivial,fun _ he => by cases he⟩

theorem syncLog_faithful :
    Always (Faithful (fun _ => (fetchFootprint (MessageRecord.Sized options.maxMessageBytes)).op)
      db) (syncLog env accountId options db manifest lastCheckpoint files tick) :=
  ((SyncStep.syncAccount env accountId options).replayed
    (World.opened db manifest lastCheckpoint files tick)).faithful

theorem syncLog_placing :
    Always (Placing db) (syncLog env accountId options db manifest lastCheckpoint files tick) := by
  have hplacing : Triple (fun w => w = World.opened db manifest lastCheckpoint files tick)
      (syncAccount env accountId options) (fun _ w => Always (Placing db) w.log)
      (fun _ w => Always (Placing db) w.log) :=
    (syncAccount_tracked manifest lastCheckpoint files rfl).consequence (fun _ h => h)
      (fun _ _ h => h.placing) fun _ _ h => h.placing
  exact hplacing.final rfl

end

/-! What a crash leaves of the events. -/

/-- The EML of the row is saved, and a flushed fetch event names its path and hash. -/
def Message.Saved (env : Env) (log : List Effect) (m : Message) : Prop :=
  ∃ e : FetchEvent, .fetch e ∈ flushedEvents log ∧ m.relativePath = some e.relativePath ∧
    m.fileHash = some e.fileHash ∧ EmlAt env log e.relativePath e.fileHash

def ManifestEvent.fetched : ManifestEvent → Option FetchEvent
  | .fetch e => some e
  | _ => none

/-- A flushed fetch event has the folder, the UIDVALIDITY and the UID of the membership. -/
def Membership.Fetched (log : List Effect) (r : Membership) : Prop :=
  ∃ event ∈ flushedEvents log, ∃ e ∈ event.fetched,
    r.serverUid = some (e.folderId,e.uidvalidity,e.uid)

instance instDecidableFetched (log : List Effect) (r : Membership) : Decidable (r.Fetched log) :=
  inferInstanceAs (Decidable (∃ event ∈ flushedEvents log, ∃ e ∈ event.fetched, _))

/-- A flushed event says that the message was above the limit at this place. -/
def Membership.Skipped (limit : Nat) (log : List Effect) (r : Membership) : Prop :=
  ∃ s : FetchSkippedEvent, .fetchSkipped s ∈ flushedEvents log ∧ limit < s.sizeBytes ∧
    r.serverUid = some (s.folderId,s.uidvalidity,s.uid)

section
variable {env : Env} {limit : Nat} {log : List Effect} {record : MessageRecord}

theorem Backed.saved (h : Backed env log record) {m : Message} {p : String}
    (hpath : record.relativePath = m.relativePath) (hhash : record.fileHash = m.fileHash)
    (hp : m.relativePath = some p) : m.Saved env log := by
  obtain ⟨e,hdescribes,heml,hflushed⟩ := h.fetched (by rw [hpath,hp]; rfl)
  exact ⟨e,hflushed,hpath ▸ hdescribes.relativePath,hhash ▸ hdescribes.fileHash,heml⟩

theorem Backed.placed (h : Backed env log record) (hsized : record.Sized limit)
    {r : Membership} (huid : (record.toMembership r.messageId).serverUid = r.serverUid) :
    r.Fetched log ∨ r.Skipped limit log := by
  rcases h with ⟨e,hdescribes,-,hflushed⟩ | ⟨s,hdescribes,hflushed⟩
  · refine .inl ⟨.fetch e,hflushed,e,rfl,?_⟩
    rw [← huid]
    exact Tables.serverUid_eq_some.mpr
      ⟨hdescribes.folderId,hdescribes.serverUid.2,hdescribes.serverUid.1⟩
  · refine .inr ⟨s,hflushed,?_,?_⟩
    · rcases hsized with ⟨hpath,-⟩ | ⟨bound,hbound,habove⟩
      · rw [hdescribes.relativePath] at hpath
        cases hpath
      · cases hbound
        rwa [hdescribes.sizeBytes] at habove
    · rw [← huid]
      exact Tables.serverUid_eq_some.mpr
        ⟨hdescribes.folderId,hdescribes.serverUid.2,hdescribes.serverUid.1⟩

end

/-- The write order of a run.  Whatever part of the log a crash leaves: a row of the committed
database with an EML path had it at the start, or its EML is saved and named by a flushed fetch
event; each membership of the row was there at the start, or it has a flushed fetch event for
its folder, UIDVALIDITY and UID, or the message was skipped there for its size; and before each
checkpoint every fetch event was committed. -/
theorem syncAccount_write_order (env : Env) (accountId : String) (options : SyncOptions)
    (db : Repository) (manifest : List ManifestEvent) (lastCheckpoint : Option Nat)
    (files : List (String × Bytes)) (tick : Nat) (log : List Effect)
    (hlog : log <:+ syncLog env accountId options db manifest lastCheckpoint files tick) :
    (∀ m ∈ (committedDb db log).tables.messages, ∀ p, m.relativePath = some p →
      ((∃ n ∈ db.tables.messages, n.relativePath = some p ∧ n.fileHash = m.fileHash ∧
        HeirOf db (committedLog log) n.id m.id) ∨ m.Saved env log) ∧
      ∀ r ∈ (committedDb db log).tables.memberships, r.messageId = m.id →
        (∃ s ∈ db.tables.memberships, s.folderId = r.folderId ∧ s.serverUid = r.serverUid ∧
          HeirOf db (committedLog log) s.messageId m.id) ∨
        r.Fetched log ∨ r.Skipped options.maxMessageBytes log) ∧
    (∀ record contents, .addMessage record contents ∈ committedOps log →
      record.relativePath.isSome → ∃ e : FetchEvent, e.Describes record ∧
        EmlAt env log e.relativePath e.fileHash ∧ .fetch e ∈ flushedEvents log) ∧
    ∀ after c before, log = after ++ .append (.checkpoint c) :: before →
      ∀ e : FetchEvent, .fetch e ∈ appendedEvents before → ∃ record contents,
        .addMessage record contents ∈ committedOps before ∧ e.Describes record := by
  have hguarded : Always (SyncGuard env) log := (syncLog_guarded ..).suffix hlog
  have hfaithful := (syncLog_faithful env accountId options db manifest lastCheckpoint files
    tick).suffix hlog
  have hplacing : Always (Placing db) log := (syncLog_placing ..).suffix hlog
  have hbacked : ∀ record contents, .addMessage record contents ∈ writtenOps log →
      Backed env log record := by
    intro record contents hwritten
    obtain ⟨after,before,rfl⟩ := List.append_of_mem (mem_writtenOps.mp hwritten)
    have hbefore : Backed env before record := hguarded.at
    exact hbefore.suffix ((List.suffix_cons _ before).trans (List.suffix_append after _))
  have hcommitted : ∀ op, op ∈ writtenOps (committedLog log) → op ∈ writtenOps log := by
    intro op hwritten
    rw [mem_writtenOps] at hwritten ⊢
    exact (committedLog_suffix log).subset hwritten
  have hreplay := replay_committedLog hfaithful
  refine ⟨fun m hm p hp => ⟨?_,fun r hr hrm => ?_⟩,?_,?_⟩
  · rw [← hreplay] at hm
    rcases storedFrom_replay (fun _ _ hop => hop.1) (hfaithful.suffix (committedLog_suffix log)) hm
      with ⟨n,hn,hpath,hhash,hheir⟩ | ⟨record,contents,hwritten,hpath,hhash⟩
    · exact .inl ⟨n,hn,hpath.trans hp,hhash,hheir⟩
    · exact .inr ((hbacked record contents (hcommitted _ hwritten)).saved hpath hhash hp)
  · rw [← hreplay] at hr
    rcases placedFrom_replay (hplacing.suffix (committedLog_suffix log)) hr
      with ⟨s,hs,hfolder,huid,hheir⟩ | ⟨record,contents,hwritten,huid⟩
    · exact .inl ⟨s,hs,hfolder,huid,hrm ▸ hheir⟩
    · have hwritten := hcommitted _ hwritten
      obtain ⟨after,before,rfl⟩ := List.append_of_mem (mem_writtenOps.mp hwritten)
      have hsized : record.Sized options.maxMessageBytes := hfaithful.at.1.2 record contents rfl
      exact .inr ((hbacked record contents hwritten).placed hsized huid)
  · intro record contents hop hpath
    exact (hbacked record contents (mem_writtenOps_of_committed hop)).fetched hpath
  · rintro after c before rfl
    exact hguarded.at

/-! A message above the limit in one folder only. -/

/-- The server gives message 77 a size of 100 in INBOX, and of 10 under the label. -/
def misreportingServer : Env :=
  let server := gmailServer 77 10
  { server with
    nextRef := fun t folder minUid maxUid => (server.nextRef t folder minUid maxUid).map fun ref =>
      { ref with sizeBytes := some (if folder = "INBOX" then 100 else 10) } }

/-- A Google account with INBOX and one label, nothing of which has been synchronised. -/
def freshLabel : Repository where
  tables :=
    { accounts := [{ id := "work", oauthProvider := some "google" }]
      folders := [
        { id := 1, accountId := "work", rawName := "INBOX", displayName := "INBOX",
          isSyncTarget := true },
        { id := 2, accountId := "work", rawName := "Work", displayName := "Work",
          isSyncTarget := true }]
      nextFolderId := 3 }
  valid := by decide

def mislabelledLog : List Effect :=
  syncLog misreportingServer "work" { maxMessageBytes := 50 } freshLabel [] none [] 0

/-- The message is skipped in INBOX; under the label it gets its EML, and the membership in INBOX
is left without a fetch event. -/
theorem syncAccount_skipped_membership :
    freshLabel.tables.messages = [] ∧
    ∃ m ∈ (committedDb freshLabel mislabelledLog).tables.messages, m.relativePath.isSome = true ∧
      ∃ r ∈ (committedDb freshLabel mislabelledLog).tables.memberships, r.messageId = m.id ∧
        ¬ r.Fetched mislabelledLog := by
  decide +kernel

/-- A crash in front of the last effects of the run: both memberships are committed. -/
theorem syncAccount_write_order_label :
    ∃ log, log <:+ mislabelledLog ∧ log.length + 3 = mislabelledLog.length ∧
      (committedDb freshLabel log).tables.memberships.length = 2 ∧
      ∃ m ∈ (committedDb freshLabel log).tables.messages, m.Saved misreportingServer log ∧
        ∀ r ∈ (committedDb freshLabel log).tables.memberships, r.messageId = m.id →
          r.Fetched log ∨ r.Skipped 50 log := by
  have hcheck : (mislabelledLog.drop 3).length + 3 = mislabelledLog.length ∧
      (committedDb freshLabel (mislabelledLog.drop 3)).tables.memberships.length = 2 ∧
      ∃ m ∈ (committedDb freshLabel (mislabelledLog.drop 3)).tables.messages,
        m.relativePath.isSome = true := by decide +kernel
  obtain ⟨hlength,hmemberships,m,hm,hpath⟩ := hcheck
  obtain ⟨p,hp⟩ := Option.isSome_iff_exists.mp hpath
  have horder := (syncAccount_write_order misreportingServer "work" { maxMessageBytes := 50 }
    freshLabel [] none [] 0 (mislabelledLog.drop 3) (List.drop_suffix _ _)).1 m hm p hp
  refine ⟨_,List.drop_suffix 3 _,hlength,hmemberships,m,hm,?_,fun r hr hrm => ?_⟩
  · rcases horder.1 with ⟨n,hn,-⟩ | hsaved
    · cases hn
    · exact hsaved
  · rcases horder.2 r hr hrm with ⟨s,hs,-⟩ | hplaced
    · cases hs
    · exact hplaced

end MailDock
