import MailDock.Sync.Coherence

/-!
# What a synchronisation keeps of a message

A message the user has moved to the trash, or whose EML is stored, is found again
by a later synchronisation under its source key, and the upsert of `add_message`
replaces the whole row.  Here a message is followed through the writes of any
sequence of synchronisations and forced fetches; merges hand it to another row.

## Main definitions

- `SyncStep`, `durableLog` — a synchronisation or a forced fetch, and what a sequence
  of them commits
- `heir` — the row that stands for a message after the writes of a log
- `Retains` — a property of rows that the allowed writes keep
-/

namespace MailDock

open Hoare Trace

/-! Sequences of steps. -/

/-- A synchronisation or a forced fetch, with the environment it meets. -/
inductive SyncStep
  | syncAccount (env : Env) (accountId : String) (options : SyncOptions)
  | forceFetch (env : Env) (accountId folderRawName : String) (folderId uidvalidity uid : Nat)

def SyncStep.program : SyncStep → App SyncResult
  | .syncAccount env accountId options => MailDock.syncAccount env accountId options
  | .forceFetch env accountId folderRawName folderId uidvalidity uid =>
    forceFetchMessage env accountId folderRawName folderId uidvalidity uid

/-- The connection is opened anew; what was not committed is lost. -/
def World.reopened (w : World) : World :=
  World.opened w.committed w.manifest w.lastCheckpointSequence w.files w.tick

/-- The world a step ends in, however it ends. -/
def SyncStep.run (step : SyncStep) (w : World) : World := (step.program w.reopened).2

/-- The size limit of a step; a forced fetch has none. -/
def SyncStep.limit : SyncStep → Option Nat
  | .syncAccount _ _ options => some options.maxMessageBytes
  | .forceFetch .. => none

/-- The part of a log that a crash leaves in the database. -/
def committedLog : List Effect → List Effect
  | [] => []
  | .commit db :: before => .commit db :: before
  | _ :: before => committedLog before

/-- What a sequence of steps commits, each step on what the one before it left. -/
def durableLog : List SyncStep → World → List Effect
  | [],_ => []
  | step :: rest,w => durableLog rest (step.run w) ++ committedLog (step.run w).log

def Effect.written : Effect → Option WriteOp
  | .write op => some op
  | _ => none

/-- Every write of every step is allowed in the state it is made in. -/
def Meets (allowed : SyncStep → Tables → WriteOp → Prop) : List SyncStep → World → Prop
  | [],_ => True
  | step :: rest,w => Always (fun before e => ∀ op ∈ e.written,
      allowed step (replay w.committed before).tables op) (step.run w).log ∧
    Meets allowed rest (step.run w)

instance instDecidableMeets {allowed : SyncStep → Tables → WriteOp → Prop}
    [∀ step t op, Decidable (allowed step t op)] : ∀ steps w, Decidable (Meets allowed steps w)
  | [],_ => isTrue trivial
  | step :: rest,w =>
    have : Decidable (Meets allowed rest (step.run w)) := instDecidableMeets rest (step.run w)
    inferInstanceAs (Decidable (_ ∧ Meets allowed rest (step.run w)))

/-- The committed states of a log, each with the log before it. -/
def commitsOf : List Effect → List (Repository × List Effect)
  | [] => []
  | .commit db :: before => (db,before) :: commitsOf before
  | _ :: before => commitsOf before

theorem suffix_of_mem_commitsOf {db : Repository} {before log : List Effect}
    (h : (db,before) ∈ commitsOf log) : .commit db :: before <:+ log := by
  induction log with
  | nil => cases h
  | cons e rest ih =>
    cases e with
    | commit db' =>
      rcases List.mem_cons.mp h with heq | h
      · cases heq
        exact List.suffix_refl _
      · exact (ih h).trans (List.suffix_cons _ _)
    | _ => exact (ih h).trans (List.suffix_cons _ _)

/-! The records a step writes. -/

/-- The record has its EML, or the message was above the limit. -/
def MessageRecord.Sized (limit : Option Nat) (r : MessageRecord) : Prop :=
  (r.relativePath.isSome ∧ r.fileHash.isSome) ∨ ∃ bound ∈ limit, bound < r.sizeBytes.getD 0

section
variable {env : Env} {accountId : String} {options : SyncOptions} {F : Footprint}
  {folderRawName : String} {folderId uidvalidity : Nat} {ref : RemoteMessageRef}

theorem recordForMessage_sized (parsed : ParsedMessage) (stored : Option StoredEml) (size : Nat) :
    Yields F (recordForMessage env accountId folderRawName folderId uidvalidity ref parsed stored
      size) fun r => r.relativePath = stored.map (·.relativePath) ∧
        r.fileHash = stored.map (·.fileHash) ∧ r.sizeBytes = some size :=
  (Within.ofExcept _).yields fun _ => Within.nowIso.yields fun _ => Within.nowIso.yields fun _ =>
    Yields.ret ⟨rfl,rfl,rfl⟩

/-- What every record of an item above the limit and every record of a stored one satisfies. -/
theorem oversizeItem_record {P : MessageRecord → Prop} {content : Bytes} {sizeBytes : Nat}
    (hoversize : ∀ parsed, Yields F (recordForMessage env accountId folderRawName folderId
      uidvalidity ref parsed none sizeBytes) P) :
    Yields F (oversizeItem env accountId folderRawName folderId uidvalidity ref content sizeBytes)
      fun item => ∀ r ∈ item.record, P r := by
  refine (hoversize _).seq fun record hrecord =>
    Within.yields (fun I hI => modifySession_closed hI fun s => ⟨rfl,rfl,rfl,rfl,rfl⟩) fun _ =>
    (Within.nowIso.seq fun _ => .ret _).yields fun _ => Yields.ret ?_
  intro r hr
  cases hr
  exact hrecord

theorem storedItem_record {P : MessageRecord → Prop} (hstored : ∀ parsed stored size,
      Yields itemFootprint (recordForMessage env accountId folderRawName folderId uidvalidity ref
        parsed (some stored) size) P) (raw : Bytes) :
    Yields itemFootprint (storedItem env accountId folderRawName folderId uidvalidity ref raw)
      fun item => ∀ r ∈ item.record, P r := by
  refine Within.yields (fun I hI => (storeEml_closed hI _ raw).strengthen_post fun _ _ hw => hw.1)
    fun stored => ?_
  dsimp only
  refine (hstored _ stored raw.length).seq fun record hrecord =>
    Within.yields (fun I hI => modifySession_closed hI fun s => ⟨rfl,rfl,rfl,rfl,rfl⟩) fun _ =>
    ((Within.ofExcept _).seq fun _ => Within.nowIso.seq fun _ => .ret _).yields fun _ =>
    Yields.ret ?_
  intro r hr
  cases hr
  exact hrecord

theorem makeItem_record {P : MessageRecord → Prop}
    (hoversize : ∀ parsed size, options.maxMessageBytes < size →
      Yields itemFootprint (recordForMessage env accountId folderRawName folderId uidvalidity ref
        parsed none size) P)
    (hstored : ∀ parsed stored size, Yields itemFootprint (recordForMessage env accountId
      folderRawName folderId uidvalidity ref parsed (some stored) size) P) :
    Yields itemFootprint (makeItem env accountId options folderRawName folderId uidvalidity ref)
      fun item => ∀ r ∈ item.record, P r := by
  refine Within.yields (fun I hI => modifySession_closed hI fun s => ⟨rfl,rfl,rfl,rfl,rfl⟩) fun _ => ?_
  split
  · next hsize =>
    refine Within.yields (Within.withRetry (fun I hI => (downloadEmlHeaders_closed hI _
      ref.uid).strengthen_post fun _ _ hw => hw.1) 3) fun headers => ?_
    exact (oversizeItem_record fun parsed => hoversize parsed _ hsize).seq fun item hitem =>
      Within.yields (fun I hI => modifySession_closed hI fun s => ⟨rfl,rfl,rfl,rfl,rfl⟩) fun _ =>
      Yields.ret hitem
  · refine Within.yields (Within.withRetry (fun I hI => (downloadEmlBytes_closed hI _
      ref.uid).strengthen_post fun _ _ hw => hw.1) 3) fun raw => ?_
    refine Within.yields (fun I hI => modifySession_closed hI fun s => ⟨rfl,rfl,rfl,rfl,rfl⟩)
      fun _ => ?_
    split
    · next hsize => exact oversizeItem_record fun parsed => hoversize parsed _ hsize
    · exact storedItem_record hstored raw

theorem makeItem_sized :
    Yields itemFootprint (makeItem env accountId options folderRawName folderId uidvalidity ref)
      fun item => ∀ r ∈ item.record, r.Sized (some options.maxMessageBytes) := by
  refine makeItem_record (fun parsed size hsize I hI => ?_) fun parsed stored size I hI => ?_
  · refine (recordForMessage_sized parsed none size I hI).strengthen_post fun r _ hr => ⟨hr.1,?_⟩
    refine .inr ⟨_,rfl,?_⟩
    rw [hr.2.2.2]
    exact hsize
  · refine (recordForMessage_sized parsed (some stored) size I hI).strengthen_post
      fun r _ hr => ⟨hr.1,.inl ⟨?_,?_⟩⟩
    · rw [hr.2.1]
      rfl
    · rw [hr.2.2.1]
      rfl

theorem forceFetchMessage_within (uid : Nat) :
    Within (fetchFootprint (MessageRecord.Sized none))
      (forceFetchMessage env accountId folderRawName folderId uidvalidity uid) := by
  have hle : itemFootprint.Le (fetchFootprint (MessageRecord.Sized none)) :=
    itemFootprint_le_sync.fetch fun _ _ ho => ho
  have hstore : ∀ date raw, Within itemFootprint (storeEml env accountId date raw) :=
    fun date raw I hI => (storeEml_closed hI date raw).strengthen_post fun _ _ hw => hw.1
  have hdownload : Within itemFootprint (downloadEmlBytes env folderRawName uid) :=
    fun I hI => (downloadEmlBytes_closed hI folderRawName uid).strengthen_post fun _ _ hw => hw.1
  refine Within.raiseIfCancelled.seq fun _ => (Within.selectFolder trivial).seq fun current => ?_
  split
  · exact .raise _
  · refine (Within.nextTick.seq fun _ => (Within.raiseFault _).seq fun _ => .ret _).seq fun ref => ?_
    split
    · exact .raise _
    · refine ((hdownload.mono hle).withRetry 3).seq fun raw => Within.raiseIfCancelled.seq fun _ =>
        ((hstore _ _).mono hle).seq fun stored => ?_
      dsimp only
      refine Within.seq_of (recordForMessage_sized _ (some stored) raw.length) fun record hrecord => ?_
      have hsized : record.Sized none :=
        .inl ⟨by rw [hrecord.1]; rfl,by rw [hrecord.2.1]; rfl⟩
      have hop : ∀ contents, (fetchFootprint (MessageRecord.Sized none)).op
          (.addMessage record contents) :=
        fun contents => ⟨trivial,fun r _ heq => by cases heq; exact hsized⟩
      refine ((Within.ofExcept _).seq fun _ => Within.nowIso.seq fun _ =>
        .ret _).seq fun event => (Within.appendManifest trivial).seq fun _ =>
        (Within.flushAndSync trivial).seq fun _ => Within.beginBatch.seq fun _ =>
        (Within.addMessage (hop _)).seq fun _ => (Within.writeRepo ?_).seq fun _ =>
        Within.commitBatch.seq fun _ => Within.nextTick.seq fun _ => Within.read.seq fun _ =>
        (Within.timestamp.seq fun _ => (Within.appendManifest trivial).seq fun _ =>
          Within.flushAndSync trivial).seq fun _ => .ret _
      split <;> exact ⟨trivial,fun _ _ heq => by cases heq⟩

end

/-- A step keeps every invariant that its kinds of effects keep. -/
theorem SyncStep.keeps (step : SyncStep) {I : World → Prop}
    (hI : Closed (fetchFootprint (MessageRecord.Sized step.limit)) I)
    (hsession : ∀ w s, I w → I { w with session := s }) {w : World} (hw : I w.reopened) :
    I (step.run w) := by
  cases step with
  | syncAccount env accountId options =>
    exact (syncAccount_stocked hI hsession fun _ _ _ => makeItem_sized).final hw
  | forceFetch env accountId folderRawName folderId uidvalidity uid =>
    exact (forceFetchMessage_within uid I hI).final hw

/-! Replaying what was committed. -/

/-- A write is allowed and succeeds on the replayed database; a commit saves it. -/
def Faithful (allowed : Tables → WriteOp → Prop) (start : Repository) (before : List Effect) :
    Effect → Prop
  | .write op => allowed (replay start before).tables op ∧
    ∃ db, op.apply (replay start before) = .ok db
  | .commit db => db = replay start before
  | _ => True

structure Replayed (allowed : Tables → WriteOp → Prop) (start : Repository) (w : World) : Prop where
  db : w.db = replay start w.log
  committed : w.committed = committedDb start w.log
  faithful : Always (Faithful allowed start) w.log

theorem Replayed.closed {F : Footprint} {start : Repository}
    (hnote : ∀ e, F.note e → syncFootprint.note e) :
    Closed F (Replayed (fun _ => F.op) start) where
  ticked _ h := ⟨h.db,h.committed,h.faithful⟩
  logged w e he _ h := by
    have he' := hnote e he
    cases e with
    | write op => exact he'.elim
    | append event => exact he'.elim
    | commit db => exact he'.elim
    | _ => exact ⟨h.db,h.committed,trivial,h.faithful⟩
  saved _ _ _ _ h := ⟨h.db,h.committed,trivial,h.faithful⟩
  appended _ _ _ _ h := ⟨h.db,h.committed,trivial,h.faithful⟩
  began _ _ h := ⟨h.db,h.committed,h.faithful⟩
  written w op db hop happly h := by
    rw [h.db] at happly
    have hdb : replay start (.write op :: w.log) = db := replay_write happly
    have hwrite : Faithful (fun _ => F.op) start w.log (.write op) := ⟨hop,db,happly⟩
    unfold World.written
    split
    · exact ⟨hdb.symm,h.committed,hwrite,h.faithful⟩
    · exact ⟨hdb.symm,rfl,hdb.symm,hwrite,h.faithful⟩
  committed w h := ⟨h.db,rfl,h.db,h.faithful⟩
  counted _ _ _ h := ⟨h.db,h.committed,h.faithful⟩

theorem replay_append (start : Repository) (log' log : List Effect) :
    replay start (log' ++ log) = replay (replay start log) log' := by
  induction log' with
  | nil => rfl
  | cons e before ih =>
    cases e with
    | write op => simp only [List.cons_append,replay,ih]
    | _ => exact ih

section
variable {allowed : Tables → WriteOp → Prop} {start : Repository}

theorem Faithful.append {log' log : List Effect}
    (h' : Always (Faithful allowed (replay start log)) log')
    (h : Always (Faithful allowed start) log) : Always (Faithful allowed start) (log' ++ log) := by
  induction log' with
  | nil => exact h
  | cons e before ih =>
    refine ⟨?_,ih h'.2⟩
    have he := h'.1
    cases e with
    | write op => rwa [Faithful,← replay_append] at he
    | commit db => rwa [Faithful,← replay_append] at he
    | _ => trivial

theorem committedLog_suffix (log : List Effect) : committedLog log <:+ log := by
  induction log with
  | nil => exact List.suffix_refl _
  | cons e before ih =>
    cases e with
    | commit db => exact List.suffix_refl _
    | _ => exact ih.trans (List.suffix_cons _ _)

/-- The committed database is the replay of the committed part of the log. -/
theorem replay_committedLog {log : List Effect} (h : Always (Faithful allowed start) log) :
    replay start (committedLog log) = committedDb start log := by
  induction log with
  | nil => rfl
  | cons e before ih =>
    cases e with
    | commit db => exact h.1.symm
    | _ => exact ih h.2

theorem SyncStep.replayed (step : SyncStep) (w : World) :
    Replayed (fun _ => (fetchFootprint (MessageRecord.Sized step.limit)).op) w.committed
      (step.run w) :=
  step.keeps (Replayed.closed fun _ he => he) (fun _ _ h => ⟨h.db,h.committed,h.faithful⟩)
    ⟨rfl,rfl,trivial⟩

/-- A sequence of steps whose writes are all allowed, as one run over its first database. -/
theorem durableLog_faithful {meets : SyncStep → Tables → WriteOp → Prop}
    (hallowed : ∀ step t op, (fetchFootprint (MessageRecord.Sized step.limit)).op op →
      meets step t op → allowed t op) (steps : List SyncStep) (w : World)
    (hmeets : Meets meets steps w) :
    Always (Faithful allowed w.committed) (durableLog steps w) := by
  induction steps generalizing w with
  | nil => trivial
  | cons step rest ih =>
    have hreplayed := step.replayed w
    have hstep : Always (Faithful allowed w.committed) (step.run w).log := by
      refine (hreplayed.faithful.and hmeets.1).mono fun before e he => ?_
      cases e with
      | write op => exact ⟨hallowed step _ op he.1.1 (he.2 op rfl),he.1.2⟩
      | commit db => exact he.1
      | _ => trivial
    refine Faithful.append ?_ (hstep.suffix (committedLog_suffix _))
    rw [replay_committedLog hstep,← hreplayed.committed]
    exact ih (step.run w) hmeets.2

end

/-! The row that stands for a message. -/

/-- The row of a message after the writes of a log, until a write that `ends` its tracking. -/
def heir (ends : Tables → WriteOp → Nat → Bool) (start : Repository) :
    List Effect → Nat → Option Nat
  | [],id => some id
  | .write op :: before,id => (heir ends start before id).bind fun id' =>
    if ends (replay start before).tables op id' then none else some (op.heir id')
  | _ :: before,id => heir ends start before id

/-- Some row with this id has the property. -/
def Tables.RowIs (t : Tables) (id : Nat) (φ : Message → Prop) : Prop :=
  ∃ m ∈ t.messages, m.id = id ∧ φ m

/-- An allowed write keeps the property of a row that is tracked. -/
def Retains (allowed : Tables → WriteOp → Prop) (ends : Tables → WriteOp → Nat → Bool)
    (φ : Message → Prop) : Prop :=
  ∀ (repo repo' : Repository) op id, allowed repo.tables op → op.apply repo = .ok repo' →
    ends repo.tables op id = false → repo.tables.RowIs id φ → repo'.tables.RowIs (op.heir id) φ

section
variable {allowed : Tables → WriteOp → Prop} {ends : Tables → WriteOp → Nat → Bool}
  {φ : Message → Prop} {start : Repository}

theorem Retains.run (h : Retains allowed ends φ) {log : List Effect}
    (hlog : Always (Faithful allowed start) log) {id id' : Nat} (hrow : start.tables.RowIs id φ)
    (hheir : heir ends start log id = some id') : (replay start log).tables.RowIs id' φ := by
  induction log generalizing id' with
  | nil =>
    cases hheir
    exact hrow
  | cons e before ih =>
    cases e with
    | write op =>
      obtain ⟨⟨hop,db,happly⟩,hbefore⟩ := hlog
      simp only [heir,Option.bind_eq_some_iff] at hheir
      obtain ⟨current,hcurrent,hheir⟩ := hheir
      split at hheir
      · cases hheir
      · next hends =>
        cases hheir
        rw [replay_write happly]
        exact h _ db op current hop happly (by simpa using hends) (ih hbefore hcurrent)
    | _ => exact ih hlog.2 hheir

/-- The property in every committed state of a run. -/
theorem Retains.committed (h : Retains allowed ends φ) {log before : List Effect} {db : Repository}
    (hlog : Always (Faithful allowed start) log) (hcommit : .commit db :: before <:+ log)
    {id id' : Nat} (hrow : start.tables.RowIs id φ)
    (hheir : heir ends start before id = some id') : db.tables.RowIs id' φ := by
  obtain ⟨hdb,hbefore⟩ := hlog.suffix hcommit
  rw [show db = replay start before from hdb]
  exact h.run hbefore hrow hheir

/-- The writes that are neither an upsert nor a merge keep every message row up to its labels. -/
theorem WriteOp.apply_keeps_message {op : WriteOp} {repo repo' : Repository}
    (hop : syncFootprint.op op) (hadd : ∀ record contents, op ≠ .addMessage record contents)
    (hmerge : ∀ accountId c d, op ≠ .mergeDuplicateMessage accountId c d)
    (h : op.apply repo = .ok repo') {m : Message} (hm : m ∈ repo.tables.messages) :
    ∃ m' ∈ repo'.tables.messages, m'.core = m.core := by
  cases op with
  | addMessage record contents => exact (hadd record contents rfl).elim
  | mergeDuplicateMessage accountId c d => exact (hmerge accountId c d rfl).elim
  | replaceMessageMemberships messageId memberships =>
    rw [Repository.replaceMessageMemberships_spec h]
    exact ⟨m,hm,rfl⟩
  | updateRemoteState messageId state movedTo folderId =>
    rw [WriteOp.apply,Repository.exec_eq_ok] at h
    rw [h]
    exact ⟨m,hm,rfl⟩
  | recordAudit entry => exact hop.elim
  | setLocalState messageId state trashedAt => exact hop.elim
  | updateMessageStorage messageId relativePath fileHash => exact hop.elim
  | deleteMessageContents messageId => exact hop.elim
  | _ => exact (WriteOp.apply_sameRows rfl h).symm.message hm

theorem Retains.of_writes (hsync : ∀ t op, allowed t op → syncFootprint.op op)
    (hcore : ∀ m m' : Message, m'.core = m.core → φ m → φ m')
    (hadd : ∀ (t : Tables) record contents, allowed t (.addMessage record contents) →
      ∀ m ∈ t.messages, m.hasKey record.accountId record.sourceItemKey = true → φ m →
        φ (record.toMessage m.id m.trashedAt))
    (hmerge : ∀ (t t' : Tables) accountId (c d : Message),
      allowed t (.mergeDuplicateMessage accountId c.id d.id) → c ∈ t.messages → d ∈ t.messages →
      Repository.Merged c d t t' →
      (ends t (.mergeDuplicateMessage accountId c.id d.id) c.id = false ∧ φ c ∨
        ends t (.mergeDuplicateMessage accountId c.id d.id) d.id = false ∧ φ d) →
      t'.RowIs c.id φ) : Retains allowed ends φ := by
  intro repo repo' op id hop happly hends hrow
  obtain ⟨m,hm,rfl,hφ⟩ := hrow
  cases op with
  | addMessage record contents =>
    obtain ⟨newId,hadded⟩ := WriteOp.apply_addMessage happly
    refine ⟨if m.hasKey record.accountId record.sourceItemKey = true then
      record.toMessage m.id m.trashedAt else m,?_⟩
    rw [(Repository.addMessage_spec hadded).messages]
    split
    · next hkey =>
      exact ⟨(Tables.mem_upsertMessage record _).mpr (.inr (.inl ⟨m,hm,hkey,rfl⟩)),rfl,
        hadd _ record contents hop m hm hkey hφ⟩
    · next hkey =>
      exact ⟨(Tables.mem_upsertMessage record m).mpr (.inl ⟨hm,by simpa using hkey⟩),rfl,hφ⟩
  | mergeDuplicateMessage accountId c d =>
    by_cases hcd : c = d
    · -- nothing is merged, and the heir of the row is the row itself
      subst hcd
      simp only [WriteOp.apply,Repository.mergeDuplicateMessage,if_true,Except.ok.injEq] at happly
      subst happly
      refine ⟨m,hm,?_,hφ⟩
      simp only [WriteOp.heir]
      split
      · next h => exact h
      · rfl
    · obtain ⟨canonical,hc,duplicate,hd,rfl,rfl,-,-,hmerged⟩ :=
        Repository.mergeDuplicateMessage_spec hcd happly
      simp only [WriteOp.heir]
      split
      · next hid =>
        have hmd : m = duplicate := repo.valid.message_eq hm hd hid
        subst hmd
        exact hmerge _ _ accountId canonical m hop hc hm hmerged (.inr ⟨hends,hφ⟩)
      · next hid =>
        by_cases hmc : m.id = canonical.id
        · have hmc' : m = canonical := repo.valid.message_eq hm hc hmc
          subst hmc'
          exact hmerge _ _ accountId m duplicate hop hm hd hmerged (.inl ⟨hends,hφ⟩)
        · exact ⟨m,(hmerged.messages m hmc hid).mpr hm,rfl,hφ⟩
  | _ =>
    obtain ⟨m',hm',hsame⟩ := WriteOp.apply_keeps_message (hsync _ _ hop) (fun _ _ h => by cases h)
      (fun _ _ _ h => by cases h) happly hm
    exact ⟨m',hm',(Message.core_eq hsame).1,hcore m m' hsame hφ⟩

end

/-! Trashed messages. -/

/-- The write merges the row with one that is active. -/
def mergedWithActive (t : Tables) : WriteOp → Nat → Bool
  | .mergeDuplicateMessage _ c d,id => t.messages.any fun m =>
    m.localState == .active && ((id == c && m.id == d) || (id == d && m.id == c))
  | _,_ => false

/-- The write is not an upsert of a message that is in the trash. -/
def leavesTrash (t : Tables) (op : WriteOp) : Prop :=
  ∀ record ∈ op.upserted, ∀ m ∈ t.messages,
    m.hasKey record.accountId record.sourceItemKey = true → m.localState ≠ .trashed

instance (t : Tables) (op : WriteOp) : Decidable (leavesTrash t op) :=
  inferInstanceAs (Decidable (∀ record ∈ op.upserted, ∀ m ∈ t.messages, _))

theorem Message.core_localState {m m' : Message} (h : m'.core = m.core) :
    m'.localState = m.localState := by
  simp only [core,Message.mk.injEq] at h
  exact h.2.2.2.2.2.1

theorem mergedLocalState_trashed {c d : LocalState} (h : c = .trashed ∨ d = .trashed)
    (hc : c ≠ .active) (hd : d ≠ .active) : Repository.mergedLocalState c d = .trashed := by
  simp [Repository.mergedLocalState,hc,hd,h]

theorem leavesTrash_retains : Retains (fun t op => syncFootprint.op op ∧ leavesTrash t op)
    mergedWithActive fun m => m.localState = .trashed := by
  refine Retains.of_writes (fun _ _ h => h.1) ?_ ?_ ?_
  · intro m m' hsame htrashed
    rw [Message.core_localState hsame,htrashed]
  · intro t record contents hallowed m hm hkey htrashed
    exact absurd htrashed (hallowed.2 record rfl m hm hkey)
  · intro t t' accountId c d _ hc hd hmerged hrow
    obtain ⟨m,hm,hid,-,-,hstate,-⟩ := hmerged.canonical
    refine ⟨m,hm,hid,hstate.trans ?_⟩
    simp only [mergedWithActive,List.any_eq_false,Bool.and_eq_true,Bool.or_eq_true,beq_iff_eq]
      at hrow
    rcases hrow with ⟨hnone,htrashed⟩ | ⟨hnone,htrashed⟩
    · refine mergedLocalState_trashed (.inl htrashed) (by rw [htrashed]; decide) fun hactive => ?_
      exact hnone d hd ⟨hactive,.inl ⟨trivial,rfl⟩⟩
    · refine mergedLocalState_trashed (.inr htrashed) (fun hactive => ?_) (by rw [htrashed]; decide)
      exact hnone c hc ⟨hactive,.inr ⟨trivial,rfl⟩⟩

/-- As long as no step writes a message anew that is in the trash at that time, a trashed
message is trashed in every committed state, until it is merged with an active one. -/
theorem sync_keeps_trashed (steps : List SyncStep) (w : World) (id : Nat)
    (hmeets : Meets (fun _ => leavesTrash) steps w)
    (htrashed : w.committed.tables.RowIs id fun m => m.localState = .trashed)
    (before : List Effect) (db : Repository) (hcommit : .commit db :: before <:+ durableLog steps w)
    (id' : Nat) (hheir : heir mergedWithActive w.committed before id = some id') :
    db.tables.RowIs id' fun m => m.localState = .trashed :=
  leavesTrash_retains.committed
    (durableLog_faithful (fun _ _ _ hop hleaves => ⟨hop.1,hleaves⟩) steps w hmeets)
    hcommit htrashed hheir

/-- A Gmail server: INBOX holds UID 12, the label `Work` holds UID 5. -/
def gmailServer (msgid size : Nat) : Env :=
  let server := steadyServer 9 fun folder => if folder = "INBOX" then [12] else [5]
  { server with
    nextRef := fun t folder minUid maxUid => (server.nextRef t folder minUid maxUid).map fun ref =>
      { ref with gmailMsgid := some msgid, sizeBytes := some size } }

/-- The Gmail message 77 was fetched from INBOX; the label has not been synchronised yet. -/
def labelled (localState : LocalState) : Repository where
  tables :=
    { accounts := [{ id := "work", oauthProvider := some "google" }]
      folders := [
        { id := 1, accountId := "work", rawName := "INBOX", displayName := "INBOX",
          uidvalidity := some 9, lastSeenUid := 12, backfillNextUid := some 0,
          initialSyncCompleted := true, isSyncTarget := true },
        { id := 2, accountId := "work", rawName := "Work", displayName := "Work",
          isSyncTarget := true }]
      messages := [
        { id := 1, accountId := "work", messageId := none, contentKey := "k",
          sourceItemKey := .gmail 77, localState := localState, relativePath := some "a.eml",
          fileHash := some "e3b0c44298fc1c149afbf4c8996fb92427ae41e4649b934ca495991b7852b855",
          envelope := {}, sizeBytes := some 0, gmailMsgid := some 77 }]
      memberships := [{ messageId := 1, folderId := 1, uid := some 12, uidvalidity := some 9 }]
      nextFolderId := 3
      nextMessageId := 2 }
  valid := by cases localState <;> decide

def labelledWorld (localState : LocalState) : World :=
  World.opened (labelled localState) [] none [("a.eml",[])] 0

/-- In some commit of the log, the row that stands for message 1 has lost the property. -/
def loses (φ : Message → Prop) [DecidablePred φ] (ends : Tables → WriteOp → Nat → Bool)
    (start : Repository) (log : List Effect) : Bool :=
  (commitsOf log).any fun c => heir ends start c.2 1 == some 1 &&
    c.1.tables.messages.all fun m => !(m.id == 1 && φ m)

theorem lost_of_loses {φ : Message → Prop} [DecidablePred φ]
    {ends : Tables → WriteOp → Nat → Bool} {start : Repository} {log : List Effect}
    (h : loses φ ends start log = true) :
    ∃ before db, .commit db :: before <:+ log ∧ heir ends start before 1 = some 1 ∧
      ¬ db.tables.RowIs 1 φ := by
  obtain ⟨c,hc,hcheck⟩ := List.any_eq_true.mp h
  simp only [Bool.and_eq_true,beq_iff_eq,List.all_eq_true,Bool.not_eq_true',
    Bool.and_eq_false_iff,decide_eq_false_iff_not] at hcheck
  refine ⟨c.2,c.1,suffix_of_mem_commitsOf hc,hcheck.1,?_⟩
  rintro ⟨m,hm,hid,hφ⟩
  rcases hcheck.2 m hm with hother | hlost
  · simp [hid] at hother
  · exact hlost hφ

/-- Found under another label, a trashed message is active again. -/
theorem syncAccount_resurrects_trashed :
    (labelledWorld .trashed).committed.tables.RowIs 1 (fun m => m.localState = .trashed) ∧
      ∃ before db, .commit db :: before <:+
          durableLog [.syncAccount (gmailServer 77 10) "work" {}] (labelledWorld .trashed) ∧
        heir mergedWithActive (labelledWorld .trashed).committed before 1 = some 1 ∧
        ¬ db.tables.RowIs 1 fun m => m.localState = .trashed :=
  ⟨⟨_,List.mem_singleton.mpr rfl,rfl,rfl⟩,lost_of_loses (by decide +kernel)⟩

/-- Another message is fetched under the label, and the first one stays in the trash. -/
theorem sync_keeps_trashed_labelled :
    ∃ before db, .commit db :: before <:+
        durableLog [.syncAccount (gmailServer 78 10) "work" {}] (labelledWorld .trashed) ∧
      db.tables.messages.length = 2 ∧ db.tables.RowIs 1 fun m => m.localState = .trashed := by
  have hmeets : Meets (fun _ => leavesTrash) [.syncAccount (gmailServer 78 10) "work" {}]
      (labelledWorld .trashed) := by decide +kernel
  have hcheck : (commitsOf (durableLog [.syncAccount (gmailServer 78 10) "work" {}]
      (labelledWorld .trashed))).any (fun c => c.1.tables.messages.length == 2 &&
        heir mergedWithActive (labelledWorld .trashed).committed c.2 1 == some 1) = true := by
    decide +kernel
  obtain ⟨c,hc,hcheck⟩ := List.any_eq_true.mp hcheck
  rw [Bool.and_eq_true,beq_iff_eq,beq_iff_eq] at hcheck
  refine ⟨c.2,c.1,suffix_of_mem_commitsOf hc,hcheck.1,?_⟩
  exact sync_keeps_trashed _ _ 1 hmeets ⟨_,List.mem_singleton.mpr rfl,rfl,rfl⟩ _ _
    (suffix_of_mem_commitsOf hc) 1 hcheck.2

/-! Stored EMLs. -/

def WriteOp.mergedInto : WriteOp → Option Nat
  | .mergeDuplicateMessage _ canonicalId _ => some canonicalId
  | _ => none

/-- An upsert of a message with a stored EML is of one within the limit and brings the
same bytes; a merge keeps a row that has both columns of an EML or neither. -/
def leavesStorage (step : SyncStep) (t : Tables) (op : WriteOp) : Prop :=
  (∀ record ∈ op.upserted, ∀ m ∈ t.messages,
    m.hasKey record.accountId record.sourceItemKey = true →
    m.relativePath.isSome = true → m.fileHash.isSome = true →
      (∀ bound ∈ step.limit, record.sizeBytes.getD 0 ≤ bound) ∧
      ∀ hash ∈ record.fileHash, m.fileHash = some hash) ∧
  ∀ c ∈ op.mergedInto, ∀ m ∈ t.messages, m.id = c → m.relativePath.isSome = m.fileHash.isSome

instance (step : SyncStep) (t : Tables) (op : WriteOp) : Decidable (leavesStorage step t op) :=
  inferInstanceAs (Decidable ((∀ record ∈ op.upserted, ∀ m ∈ t.messages, _) ∧
    ∀ c ∈ op.mergedInto, ∀ m ∈ t.messages, _))

/-- The row has an EML with this hash. -/
def Message.stores (hash : String) (m : Message) : Prop :=
  m.relativePath.isSome = true ∧ m.fileHash = some hash

theorem Message.core_storage {m m' : Message} (h : m'.core = m.core) :
    m'.relativePath = m.relativePath ∧ m'.fileHash = m.fileHash := by
  simp only [core,Message.mk.injEq] at h
  exact ⟨h.2.2.2.2.2.2.2.1,h.2.2.2.2.2.2.2.2.1⟩

theorem leavesStorage_retains (hash : String) :
    Retains (fun t op => ∃ step, (fetchFootprint (MessageRecord.Sized step.limit)).op op ∧
      leavesStorage step t op) (fun _ _ _ => false) (Message.stores hash) := by
  refine Retains.of_writes (fun _ _ ⟨_,h,_⟩ => h.1) ?_ ?_ ?_
  · rintro m m' hsame ⟨hpath,hhash⟩
    obtain ⟨hpath',hhash'⟩ := Message.core_storage hsame
    exact ⟨by rw [hpath',hpath],by rw [hhash',hhash]⟩
  · rintro t record contents ⟨step,hop,hleaves⟩ m hm hkey ⟨hpath,hhash⟩
    obtain ⟨hsize,hbytes⟩ := hleaves.1 record rfl m hm hkey hpath (by rw [hhash]; rfl)
    rcases hop.2 record contents rfl with ⟨hrpath,hrhash⟩ | ⟨bound,hbound,habove⟩
    · obtain ⟨new,hnew⟩ := Option.isSome_iff_exists.mp hrhash
      refine ⟨hrpath,?_⟩
      show record.fileHash = some hash
      rw [hnew,← hbytes new hnew,hhash]
    · have := hsize bound hbound
      omega
  · rintro t t' accountId c d ⟨step,-,hleaves⟩ hc hd hmerged hrow
    obtain ⟨m,hm,hid,-,-,-,hpath,hhash⟩ := hmerged.canonical
    have hboth : c.relativePath.isSome = c.fileHash.isSome :=
      hleaves.2 c.id rfl c hc rfl
    refine ⟨m,hm,hid,?_⟩
    rw [Message.stores,hpath,hhash]
    by_cases hnone : c.relativePath = none ∧ c.fileHash = none
    · -- the canonical row takes the EML of the duplicate over
      rw [if_pos hnone,if_pos hnone]
      rcases hrow with ⟨-,hstores⟩ | ⟨-,hstores⟩
      · rw [hstores.2] at hnone
        cases hnone.2
      · exact hstores
    · rw [if_neg hnone,if_neg hnone]
      rcases hrow with ⟨-,hstores⟩ | ⟨-,hstores⟩
      · exact hstores
      · have hcpath : c.relativePath.isSome = true := by
          by_contra habsent
          have hcnone : c.relativePath = none := by simpa using habsent
          refine hnone ⟨hcnone,?_⟩
          rw [hcnone] at hboth
          simpa using hboth.symm
        have hchash : c.fileHash ≠ none := by
          rw [hcpath] at hboth
          exact Option.isSome_iff_ne_none.mp hboth.symm
        have hdhash : d.fileHash ≠ none := by
          rw [hstores.2]
          exact Option.some_ne_none _
        exact ⟨hcpath,(hmerged.sameHash hchash hdhash).trans hstores.2⟩

/-- As long as no step meets a message with a stored EML above its limit or with other
bytes, the message keeps an EML with the same hash in every committed state. -/
theorem sync_keeps_stored_eml (steps : List SyncStep) (w : World) (id : Nat) (hash : String)
    (hmeets : Meets leavesStorage steps w)
    (hstored : w.committed.tables.RowIs id (Message.stores hash))
    (before : List Effect) (db : Repository) (hcommit : .commit db :: before <:+ durableLog steps w)
    (id' : Nat) (hheir : heir (fun _ _ _ => false) w.committed before id = some id') :
    db.tables.RowIs id' (Message.stores hash) :=
  (leavesStorage_retains hash).committed
    (durableLog_faithful (fun step _ _ hop hleaves => ⟨step,hop,hleaves⟩) steps w hmeets)
    hcommit hstored hheir

instance (hash : String) : DecidablePred (Message.stores hash) := fun m =>
  inferInstanceAs (Decidable (m.relativePath.isSome = true ∧ m.fileHash = some hash))

/-- Found under another label with a size above the limit, a stored message has no EML. -/
theorem syncAccount_drops_stored_eml :
    (labelledWorld .active).committed.tables.RowIs 1 (Message.stores
        "e3b0c44298fc1c149afbf4c8996fb92427ae41e4649b934ca495991b7852b855") ∧
      ∃ before db, .commit db :: before <:+ durableLog
          [.syncAccount (gmailServer 77 100) "work" { maxMessageBytes := 50 }]
          (labelledWorld .active) ∧
        heir (fun _ _ _ => false) (labelledWorld .active).committed before 1 = some 1 ∧
        ¬ db.tables.RowIs 1 (Message.stores
          "e3b0c44298fc1c149afbf4c8996fb92427ae41e4649b934ca495991b7852b855") :=
  ⟨⟨_,List.mem_singleton.mpr rfl,rfl,rfl,rfl⟩,lost_of_loses (by decide +kernel)⟩

/-- Found under another label within the limit, the message keeps its EML. -/
theorem sync_keeps_stored_eml_labelled :
    ∃ before db, .commit db :: before <:+
        durableLog [.syncAccount (gmailServer 77 10) "work" {}] (labelledWorld .active) ∧
      db.tables.memberships.length = 2 ∧ db.tables.RowIs 1 (Message.stores
        "e3b0c44298fc1c149afbf4c8996fb92427ae41e4649b934ca495991b7852b855") := by
  have hmeets : Meets leavesStorage [.syncAccount (gmailServer 77 10) "work" {}]
      (labelledWorld .active) := by decide +kernel
  have hcheck : (commitsOf (durableLog [.syncAccount (gmailServer 77 10) "work" {}]
      (labelledWorld .active))).any (fun c => c.1.tables.memberships.length == 2 &&
        heir (fun _ _ _ => false) (labelledWorld .active).committed c.2 1 == some 1) = true := by
    decide +kernel
  obtain ⟨c,hc,hcheck⟩ := List.any_eq_true.mp hcheck
  rw [Bool.and_eq_true,beq_iff_eq,beq_iff_eq] at hcheck
  refine ⟨c.2,c.1,suffix_of_mem_commitsOf hc,hcheck.1,?_⟩
  exact sync_keeps_stored_eml _ _ 1 _ hmeets ⟨_,List.mem_singleton.mpr rfl,rfl,rfl,rfl⟩ _ _
    (suffix_of_mem_commitsOf hc) 1 hcheck.2

end MailDock
