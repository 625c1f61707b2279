import MailDock.App.Calm
import MailDock.Reindex.Program
import MailDock.Trash.Refetch

/-!
# Which messages a reindex restores

A fetch becomes a row when its EML can be read, or when a completed purge explains why it cannot,
and rows of one message overwrite each other in the order of the fetches.  A purge counts for every
fetch with its path and its hash, whether the fetch came before it or after it.

## Main definitions

- `Restores` — the last rows of the message are not purged
- `Restored` — the message is in the rebuilt database and not purged
-/

namespace MailDock

open Hoare Relational

def MessageRecord.recordKey (r : MessageRecord) : RecordKey := (r.accountId,r.sourceItemKey)

namespace Reindex

/-- The EML of a fetch is there and has the right hash. -/
def readable (env : Env) (files : List (String × Bytes)) (relativePath fileHash : String) : Bool :=
  isHexDigest fileHash && (files.lookup relativePath).any fun raw =>
    env.sha256 raw == casefoldHex fileHash

/-- The fetch is one of the message, and names an EML. -/
def Names (c : Canonical) (key : RecordKey) (f : FetchKey × FetchEvent) : Bool :=
  f.1.1 == key.1 && c.byFetch.lookup f.1 == some key.2 && f.2.relativePath != "" &&
    f.2.fileHash != ""

/-- A fetch of the message that becomes a row. -/
def prepares (env : Env) (files : List (String × Bytes)) (c : Canonical) (key : RecordKey)
    (f : FetchKey × FetchEvent) : Bool :=
  Names c key f && (readable env files f.2.relativePath f.2.fileHash || c.isPurged f.1 key.2 f.2)

def preparedState (c : Canonical) (key : RecordKey) (f : FetchKey × FetchEvent) : LocalState :=
  if c.isPurged f.1 key.2 f.2 then .purged else .active

/-- The local states of the rows that are written for the message. -/
def statesOf (key : RecordKey) (messages : List PreparedMessage) : List LocalState :=
  (messages.filter fun m => m.record.recordKey == key).map fun m => m.record.localState

/-- What the fetches gone through so far amount to for the message. -/
def PreparedAs (env : Env) (files : List (String × Bytes)) (c : Canonical) (key : RecordKey)
    (done : List (FetchKey × FetchEvent)) (p : Preparation) : Prop :=
  statesOf key p.messages = (done.filter (prepares env files c key)).map (preparedState c key)

/-- Nothing but the clock and the log has changed. -/
structure Untouched (w₀ w : World) : Prop where
  db : w.db = w₀.db
  files : w.files = w₀.files

section
variable {env : Env} {w₀ w : World} {s : Replay} {c : Canonical} {key : RecordKey}

theorem Untouched.ticked (h : Untouched w₀ w) : Untouched w₀ w.ticked := ⟨h.db,h.files⟩

theorem isCancelled_untouched :
    Triple (Untouched w₀) (isCancelled env) (fun _ => Untouched w₀) fun _ _ => True :=
  fun _ h => h.ticked

/-! ## Replay -/

theorem replayEvents_spec {events : List ManifestEvent} :
    Triple (Untouched w₀) (replayEvents env events s)
      (fun r w => Untouched w₀ w ∧ (r.2 = false → events.foldlM replayEvent s = .ok r.1))
      fun _ _ => True := by
  induction events generalizing s with
  | nil => exact Triple.ret fun w h => ⟨h,fun _ => rfl⟩
  | cons event rest ih =>
    refine isCancelled_untouched.seq fun stop => ?_
    split
    · refine Triple.ret fun w h => ⟨h,fun hnot => ?_⟩
      cases hnot
    · refine Triple.seq (Q := fun s' w => replayEvent s event = .ok s' ∧ Untouched w₀ w)
        (Triple.ofExcept (fun s' hok w h => ⟨hok,h⟩) fun _ _ _ _ => trivial) fun s' => ?_
      rintro w ⟨hok,h⟩
      refine (ih.strengthen_post fun r w hr => ⟨hr.1,fun hgo => ?_⟩) w h
      rw [List.foldlM_cons,hok]
      exact hr.2 hgo

/-! ## The fetches -/

/-- Without a fault of the disk, the hash and the file decide whether an EML is read. -/
theorem readVerified_spec (hdisk : ∀ t, env.storageFault t = none) {relativePath fileHash : String} :
    Triple (Untouched w₀) (readVerified env relativePath fileHash)
      (fun _ w => Untouched w₀ w ∧ readable env w₀.files relativePath fileHash = true)
      fun e w => Untouched w₀ w ∧ readable env w₀.files relativePath fileHash = false ∧
        (e.kind = .fileNotFound ∨ e.isStorageError = true) := by
  refine (nextTick_rule (Q := fun _ => Untouched w₀) fun _ h => h.ticked).seq fun t => ?_
  by_cases hhex : isHexDigest fileHash = true
  · rw [if_pos hhex,hdisk t]
    refine (raiseFault_rule (Q := fun _ => Untouched w₀) (fun _ h => h)
      fun e he => by cases he).seq fun _ => ?_
    refine (Triple.read (Q := fun v w => World.files v = w₀.files ∧ Untouched w₀ w)
      fun w h => ⟨h.files,h⟩).seq fun v => ?_
    rintro w ⟨hfiles,h⟩
    rw [hfiles]
    cases hlookup : w₀.files.lookup relativePath with
    | none => exact ⟨h,by simp [readable,hlookup],.inl rfl⟩
    | some raw =>
      dsimp only
      split
      · next hhash => exact ⟨⟨h.db,h.files⟩,by simp [readable,hlookup,hhex,hhash]⟩
      · next hhash => exact ⟨h,by simp [readable,hlookup,hhash],.inr rfl⟩
  · rw [if_neg hhex]
    exact Triple.raise fun w h => ⟨h,by simp [readable,hhex],.inr rfl⟩

/-- How reading a stored file ends where it is readable, and where it is not. -/
def ReadEnds (isReadable : Bool) : Except Error Bytes → Prop
  | .ok _ => isReadable = true
  | .error e => isReadable = false ∧ (e.kind = .fileNotFound ∨ e.isStorageError = true)

theorem readStored_spec (hdisk : ∀ t, env.storageFault t = none) {relativePath fileHash : String} :
    Triple (Untouched w₀) (readStored env relativePath fileHash)
      (fun raw w => Untouched w₀ w ∧ raw.isSome = readable env w₀.files relativePath fileHash)
      fun _ _ => True := by
  refine (outcome_rule (R := fun read w => Untouched w₀ w ∧
    ReadEnds (readable env w₀.files relativePath fileHash) read) (readVerified_spec hdisk)).seq
    fun read => ?_
  cases read with
  | ok raw => exact Triple.ret fun w h => ⟨h.1,h.2.symm⟩
  | error e =>
    rintro w ⟨h,hnot,hkind⟩
    show Holds _ _ ((if e.kind = .fileNotFound ∨ e.isStorageError = true then pure none
      else throw e : App (Option Bytes)) w)
    rw [if_pos hkind]
    exact ⟨h,hnot.symm⟩

theorem statesOf_append (messages : List PreparedMessage) (m : PreparedMessage) :
    statesOf key (messages ++ [m]) =
      statesOf key messages ++ if m.record.recordKey = key then [m.record.localState] else [] := by
  rw [statesOf,List.filter_append,List.map_append,← statesOf]
  by_cases hkey : m.record.recordKey = key
  · simp [hkey]
  · simp [hkey,beq_eq_false_iff_ne.mpr hkey]

/-- A fetch of the message that becomes no row leaves its states alone. -/
theorem PreparedAs.skip {done : List (FetchKey × FetchEvent)} {f : FetchKey × FetchEvent}
    {p p' : Preparation} {files : List (String × Bytes)} (h : PreparedAs env files c key done p)
    (hmessages : p'.messages = p.messages) (hnot : prepares env files c key f = false) :
    PreparedAs env files c key (done ++ [f]) p' := by
  rw [PreparedAs,hmessages,List.filter_append,List.filter_singleton,hnot,h]
  simp

/-- A fetch that becomes a row adds its state to those of its message. -/
theorem PreparedAs.row {done : List (FetchKey × FetchEvent)} {f : FetchKey × FetchEvent}
    {p : Preparation} {files : List (String × Bytes)} {sourceItemKey : SourceItemKey}
    {raw : Option Bytes} (h : PreparedAs env files c key done p)
    (hprepares : prepares env files c key f = decide ((f.1.1,sourceItemKey) = key)) :
    PreparedAs env files c key (done ++ [f])
      (preparedFetch env s c p f.1 f.2 sourceItemKey raw) := by
  have hmessages : statesOf key (preparedFetch env s c p f.1 f.2 sourceItemKey raw).messages =
      statesOf key p.messages ++ if (f.1.1,sourceItemKey) = key then
        [if c.isPurged f.1 sourceItemKey f.2 then .purged else .active] else [] :=
    statesOf_append _ _
  rw [PreparedAs,hmessages,List.filter_append,List.filter_singleton,hprepares,List.map_append,h]
  by_cases hkey : (f.1.1,sourceItemKey) = key
  · subst hkey
    simp [preparedState]
  · simp [hkey]

theorem prepareFetch_spec (hdisk : ∀ t, env.storageFault t = none) {p : Preparation}
    {done : List (FetchKey × FetchEvent)} {f : FetchKey × FetchEvent}
    (hp : PreparedAs env w₀.files c key done p) :
    Triple (Untouched w₀) (prepareFetch env s c p f)
      (fun p' w => Untouched w₀ w ∧ PreparedAs env w₀.files c key (done ++ [f]) p')
      fun _ _ => True := by
  unfold prepareFetch
  split
  · next hempty =>
    refine Triple.ret fun w h => ⟨h,hp.skip rfl ?_⟩
    rcases hempty with hempty | hempty
    · simp [prepares,Names,hempty]
    · simp [prepares,Names,hempty]
  · next hnamed =>
    rw [not_or] at hnamed
    split
    · exact Triple.raise fun _ _ => trivial
    · next sourceItemKey hcanonical =>
      refine (readStored_spec hdisk).seq fun raw => ?_
      rintro w ⟨h,hraw⟩
      have hnames : Names c key f = decide ((f.1.1,sourceItemKey) = key) := by
        rw [Bool.eq_iff_iff]
        simp [Names,hcanonical,hnamed,Prod.ext_iff]
      by_cases hskip : (raw.isNone && !c.isPurged f.1 sourceItemKey f.2) = true
      · rw [if_pos hskip]
        refine ⟨h,hp.skip rfl ?_⟩
        by_cases hkey : (f.1.1,sourceItemKey) = key
        · have hsource : sourceItemKey = key.2 := congrArg Prod.snd hkey
          have hunread : readable env w₀.files f.2.relativePath f.2.fileHash = false := by
            rw [← hraw]
            cases raw with
            | none => rfl
            | some _ => simp at hskip
          have hpurged : c.isPurged f.1 key.2 f.2 = false := by
            rw [← hsource]
            simpa using (Bool.and_eq_true_iff.mp hskip).2
          simp [prepares,hunread,hpurged]
        · simp [prepares,hnames,hkey]
      · rw [if_neg hskip]
        refine ⟨h,hp.row ?_⟩
        by_cases hkey : (f.1.1,sourceItemKey) = key
        · have hsource : sourceItemKey = key.2 := congrArg Prod.snd hkey
          have hkept : (readable env w₀.files f.2.relativePath f.2.fileHash ||
              c.isPurged f.1 key.2 f.2) = true := by
            rw [← hraw,← hsource]
            cases raw with
            | none => simpa using hskip
            | some _ => rfl
          rw [prepares,hnames,hkept,Bool.and_true]
        · simp [prepares,hnames,hkey]

theorem prepareFetches_spec (hdisk : ∀ t, env.storageFault t = none)
    {rest done : List (FetchKey × FetchEvent)} {p : Preparation}
    (hp : PreparedAs env w₀.files c key done p) :
    Triple (Untouched w₀) (prepareFetches env s c rest p)
      (fun r w => Untouched w₀ w ∧
        (r.2 = false → PreparedAs env w₀.files c key (done ++ rest) r.1)) fun _ _ => True := by
  induction rest generalizing done p with
  | nil =>
    refine Triple.ret fun w h => ⟨h,fun _ => ?_⟩
    rwa [List.append_nil]
  | cons f rest ih =>
    refine isCancelled_untouched.seq fun stop => ?_
    split
    · refine Triple.ret fun w h => ⟨h,fun hnot => ?_⟩
      cases hnot
    · refine (prepareFetch_spec hdisk hp).seq fun p' => ?_
      rintro w ⟨h,hp'⟩
      refine ((ih hp').strengthen_post fun r w hr => ⟨hr.1,fun hgo => ?_⟩) w h
      rw [List.append_cons]
      exact hr.2 hgo

/-! ## The batch -/

/-- The rows of the message have the last of these states, and there is one if there is a state. -/
structure RowsOf (key : RecordKey) (states : List LocalState) (t : Tables) : Prop where
  state : ∀ m ∈ t.messages, m.recordKey = key → states.getLast? = some m.localState
  row : states ≠ [] → ∃ m ∈ t.messages, m.recordKey = key

theorem RowsOf.congr {states : List LocalState} {t t' : Tables} (h : RowsOf key states t)
    (hmessages : t'.messages = t.messages) : RowsOf key states t' := by
  refine ⟨fun m hm => h.state m (hmessages ▸ hm),fun hne => ?_⟩
  rw [hmessages]
  exact h.row hne

/-- A record of the message replaces its row. -/
theorem RowsOf.addMessage {states : List LocalState} {record : MessageRecord} {id : Nat}
    {t t' : Tables} (h : RowsOf key states t) (hadded : Repository.Added record id t t') :
    RowsOf key (states ++ if record.recordKey = key then [record.localState] else []) t' := by
  have hother : ∀ m : Message, m.hasKey record.accountId record.sourceItemKey = false ↔
      m.recordKey ≠ record.recordKey := by
    intro m
    rw [← Bool.not_eq_true,Message.hasKey_iff,Ne,Message.recordKey,MessageRecord.recordKey,
      Prod.mk.injEq]
  have hrow : ∃ m ∈ t'.messages, m.recordKey = record.recordKey := by
    rw [hadded.messages]
    cases hfind : t.findMessage record.accountId record.sourceItemKey with
    | none => exact ⟨_,(Tables.mem_upsertMessage record _).mpr (.inr (.inr ⟨hfind,rfl⟩)),rfl⟩
    | some n =>
      obtain ⟨hn,hkey⟩ := Tables.findMessage_eq_some hfind
      exact ⟨_,(Tables.mem_upsertMessage record _).mpr (.inr (.inl ⟨n,hn,hkey,rfl⟩)),rfl⟩
  by_cases hkey : record.recordKey = key
  · subst hkey
    rw [if_pos rfl]
    refine ⟨fun m hm hm' => ?_,fun _ => hrow⟩
    rw [hadded.messages] at hm
    rcases (Tables.mem_upsertMessage record m).mp hm with ⟨-,hnot⟩ | ⟨n,-,-,rfl⟩ | ⟨-,rfl⟩
    · exact absurd hm' ((hother m).mp hnot)
    · exact List.getLast?_concat ..
    · exact List.getLast?_concat ..
  · rw [if_neg hkey,List.append_nil]
    refine ⟨fun m hm hm' => ?_,fun hne => ?_⟩
    · rw [hadded.messages] at hm
      rcases (Tables.mem_upsertMessage record m).mp hm with ⟨hm,-⟩ | ⟨n,-,-,rfl⟩ | ⟨-,rfl⟩
      · exact h.state m hm hm'
      · exact absurd hm' hkey
      · exact absurd hm' hkey
    · obtain ⟨m,hm,hm'⟩ := h.row hne
      refine ⟨m,?_,hm'⟩
      rw [hadded.messages]
      refine (Tables.mem_upsertMessage record m).mpr (.inl ⟨hm,(hother m).mpr fun heq => ?_⟩)
      exact hkey (heq.symm.trans hm')

/-- In the batch, with the rows written so far. -/
def Writing (key : RecordKey) (states : List LocalState) (w : World) : Prop :=
  w.inBatch = true ∧ RowsOf key states w.db.tables

variable {states : List LocalState}

theorem Writing.folderWritten {db : Repository} (h : Writing key states w)
    (hmessages : db.tables.messages = w.db.tables.messages) :
    Writing key states (w.folderWritten db) := by
  have hwritten : w.folderWritten db = { w with db := db } := if_pos h.1
  rw [hwritten]
  exact ⟨h.1,h.2.congr hmessages⟩

theorem upsertFolder_writing {record : FolderRecord} :
    Triple (Writing key states) (upsertFolder env record) (fun _ => Writing key states)
      fun _ _ => True := by
  refine upsertFolder_rule (fun w db id h hdb => Writing.folderWritten (w := w.ticked) h ?_)
    fun _ _ => trivial
  rw [hdb,Tables.upsertFolder]
  split
  · rfl
  · rfl

theorem upsertAccount_writing {account : Account} :
    Triple (Writing key states) (upsertAccount env account) (fun _ => Writing key states)
      fun _ _ => True := by
  unfold upsertAccount
  split
  · exact Triple.raise fun _ _ => trivial
  · refine (repoCall_rule (Q := fun _ => Writing key states) (fun w h => h) fun _ _ _ _ =>
      trivial).seq fun _ => ?_
    refine (Triple.read (Q := fun v w => v = w ∧ Writing key states w) fun w h => ⟨rfl,h⟩).seq
      fun v => ?_
    rintro w ⟨rfl,h⟩
    refine Triple.seq (P := fun w => w = v) (Q := fun db w => w = v ∧ Repository.exec "upsert account"
      (v.db.tables.upsertAccount account) = .ok db)
      (Triple.ofExcept (fun db hok w hw => ⟨hw,hok⟩) fun _ _ _ _ => trivial) (fun db => ?_) v rfl
    rintro w ⟨rfl,hok⟩
    refine Writing.folderWritten h ?_
    rw [Repository.exec_eq_ok.mp hok,Tables.upsertAccount]
    split
    · rfl
    · rfl

theorem writeRepo_writing {op : WriteOp} (hop : ∀ db db' : Repository, op.apply db = .ok db' →
      db'.tables.messages = db.tables.messages) :
    Triple (Writing key states) (writeRepo env op) (fun _ => Writing key states) fun _ _ => True := by
  refine writeRepo_rule (fun w db h happly => ?_) fun _ _ _ _ => trivial
  rw [World.written_inBatch (w := w.ticked) h.1]
  exact ⟨h.1,h.2.congr (hop w.db db happly)⟩

theorem folderIdOf_writing {ids : WrittenIds} {accountId rawName : String} :
    Triple (Writing key states) (folderIdOf env ids accountId rawName) (fun _ => Writing key states)
      fun _ _ => True := by
  unfold folderIdOf
  split
  · exact Triple.ret fun _ h => h
  · exact upsertFolder_writing.seq fun id => Triple.ret fun _ h => h

theorem optionalFolderId_writing {ids : WrittenIds} {accountId : String} {rawName : Option String} :
    Triple (Writing key states) (optionalFolderId env ids accountId rawName)
      (fun _ => Writing key states) fun _ _ => True := by
  unfold optionalFolderId
  split
  · exact Triple.ret fun _ h => h
  · exact folderIdOf_writing.seq fun r => Triple.ret fun _ h => h

/-- Writing a prepared row adds its state when it is one of the message. -/
theorem writeMessage_writing {ids : WrittenIds} {m : PreparedMessage} :
    Triple (Writing key states) (writeMessage env ids m)
      (fun _ => Writing key (states ++ if m.record.recordKey = key then [m.record.localState] else []))
      fun _ _ => True := by
  unfold writeMessage
  split
  · exact Triple.raise fun _ _ => trivial
  · refine optionalFolderId_writing.seq fun moved => ?_
    refine Triple.seq (Q := fun _ => Writing key (states ++
      if m.record.recordKey = key then [m.record.localState] else [])) ?_
      fun id => Triple.ret fun _ h => h
    refine addMessage_rule (fun w id db h hadded => ?_) fun _ _ _ _ => trivial
    rw [World.written_inBatch (w := w.ticked) h.1]
    have hrows := h.2.addMessage (Repository.addMessage_spec hadded)
    exact ⟨h.1,hrows⟩

theorem writeAlias_writing {links : IdentityLinks} {ids : WrittenIds}
    {entry : (String × SourceItemKey) × (SourceItemKey × EvidenceKind × String)} :
    Triple (Writing key states) (writeAlias env links ids entry) (fun _ => Writing key states)
      fun _ _ => True := by
  refine (Triple.ofExcept (Q := fun _ => Writing key states) (fun _ _ _ h => h)
    fun _ _ _ _ => trivial).seq fun canonicalKey => ?_
  split
  · exact Triple.raise fun _ _ => trivial
  · refine writeRepo_writing fun db db' happly => ?_
    obtain ⟨aliases,htables⟩ := Repository.addMessageIdentityAlias_frame happly
    rw [htables]

theorem writeSnapshot_writing {ids : WrittenIds}
    {entry : (String × SourceItemKey) × MembershipSnapshotEvent} :
    Triple (Writing key states) (writeSnapshot env ids entry) (fun _ => Writing key states)
      fun _ _ => True := by
  unfold writeSnapshot
  split
  · exact Triple.raise fun _ _ => trivial
  · refine Triple.seq (Q := fun _ => Writing key states) ?_ fun acc => ?_
    · refine Triple.accumulate (I := fun _ => Writing key states) _ (fun acc m _ => ?_) _
      unfold membershipOf
      split
      · exact Triple.raise fun _ _ => trivial
      · exact folderIdOf_writing.seq fun r => optionalFolderId_writing.seq fun r' =>
          Triple.ret fun _ h => h
    · refine (writeRepo_writing fun db db' happly => ?_).seq fun _ => Triple.ret fun _ h => h
      rw [Repository.replaceMessageMemberships_spec happly]

/-- After the batch: every write is committed. -/
def Written (key : RecordKey) (states : List LocalState) (w : World) : Prop :=
  w.inBatch = false ∧ w.committed = w.db ∧ RowsOf key states w.db.tables

theorem writeRows_written {messages : List PreparedMessage} :
    Triple (fun w => ∀ m ∈ w.db.tables.messages, m.recordKey ≠ key) (writeRows env s c messages)
      (fun _ => Written key (statesOf key messages)) fun _ _ => True := by
  refine (beginBatch_rule (Q := fun _ => Writing key []) (fun w h _ => ?_) fun _ _ _ _ =>
    trivial).seq fun _ => ?_
  · exact ⟨rfl,⟨fun m hm hkey => absurd hkey (h m hm),fun hne => absurd rfl hne⟩⟩
  · refine (Triple.loop _ fun entry _ => upsertAccount_writing).seq fun _ => ?_
    refine (Triple.accumulate (I := fun _ => Writing key []) _ (fun ids entry _ => ?_) _).seq
      fun ids => ?_
    · exact upsertFolder_writing.seq fun id => Triple.ret fun _ h => h
    refine (Triple.accumulate_prefix (I := fun done _ => Writing key (statesOf key done)) messages
      (fun done ids m _ => ?_) [] _).seq fun ids => ?_
    · rw [statesOf_append]
      exact writeMessage_writing
    refine (Triple.loop _ fun entry _ => writeAlias_writing).seq fun _ => ?_
    refine (Triple.accumulate (I := fun _ => Writing key (statesOf key messages)) _
      (fun ids entry _ => writeSnapshot_writing) _).seq fun _ => ?_
    exact commitBatch_rule (fun w h => ⟨rfl,rfl,h.2⟩) fun _ _ _ _ => trivial

theorem writeAudit_written {links : IdentityLinks}
    {parsedMetadata : List ((String × SourceItemKey) × ParsedMetadata)}
    {entry : ManifestEvent × String × Option FetchEvent} :
    Triple (Written key states) (writeAudit env links parsedMetadata entry)
      (fun _ => Written key states) fun _ _ => True := by
  refine (Triple.ofExcept (Q := fun _ => Written key states) (fun _ _ _ h => h)
    fun _ _ _ _ => trivial).seq fun auditedKey => ?_
  refine writeRepo_rule (fun w db h happly => ?_) fun _ _ _ _ => trivial
  have hwritten : w.ticked.written (.recordAudit (reindexAudit entry.1 entry.2.1 entry.2.2
      (if entry.1.audited.1 = "" then none else auditedKey.bind fun key =>
        parsedMetadata.lookup (entry.1.audited.1,key)))) db = _ :=
    if_neg (by rw [show w.ticked.inBatch = false from h.1]; exact Bool.false_ne_true)
  rw [hwritten]
  refine ⟨h.1,rfl,h.2.2.congr ?_⟩
  rw [Repository.exec_eq_ok.mp happly]
  rfl

/-! ## The use case -/

/-- What a reindex has gathered from the manifest. -/
def Gathered (events : List ManifestEvent) (s : Replay) (c : Canonical) : Prop :=
  events.foldlM replayEvent {} = .ok s ∧ canonicalize s = .ok c

theorem reindex_written (hdisk : ∀ t, env.storageFault t = none)
    (hfresh : ∀ m ∈ w₀.db.tables.messages, m.recordKey ≠ key) :
    Triple (fun w => w = w₀) (reindex env)
      (fun result w => result.cancelled = false → ∃ s c, Gathered w₀.manifest s c ∧
        Written key ((s.validFetches.filter (prepares env w₀.files c key)).map (preparedState c key)) w)
      fun _ _ => True := by
  have hstop : ∀ {r : ReindexResult}, r.cancelled = true → Triple (Untouched w₀)
      (pure r : App ReindexResult) (fun result w => result.cancelled = false →
        ∃ s c, Gathered w₀.manifest s c ∧ Written key
          ((s.validFetches.filter (prepares env w₀.files c key)).map (preparedState c key)) w)
      fun _ _ => True := by
    intro r hr
    refine Triple.ret fun _ _ hnot => ?_
    rw [hr] at hnot
    cases hnot
  unfold reindex
  refine Triple.seq (Q := fun v w => World.manifest v = w₀.manifest ∧ Untouched w₀ w)
    (Triple.read ?_) fun v => ?_
  · rintro w rfl
    exact ⟨rfl,rfl,rfl⟩
  rintro w ⟨hmanifest,h⟩
  rw [hmanifest]
  refine (replayEvents_spec.seq fun r => ?_) w h
  obtain ⟨s,stopped⟩ := r
  rintro w ⟨h,hreplayed⟩
  dsimp only at hreplayed ⊢
  split
  · exact hstop rfl w h
  · next hgo =>
    have hs := hreplayed (Bool.not_eq_true _ ▸ hgo)
    refine (Triple.ofExcept (Q := fun c w => canonicalize s = .ok c ∧ Untouched w₀ w)
      (fun c hc w h => ⟨hc,h⟩) fun _ _ _ _ => trivial).seq (fun c => ?_) w h
    rintro w ⟨hc,h⟩
    refine (isCancelled_untouched.seq fun stop => ?_) w h
    split
    · exact hstop rfl
    · have hnone : PreparedAs env w₀.files c key [] { warnings := s.snapshotWarnings } := rfl
      refine (prepareFetches_spec hdisk hnone).seq fun r => ?_
      obtain ⟨p,stopped⟩ := r
      rintro w ⟨h,hprepared⟩
      dsimp only at hprepared ⊢
      split
      · exact hstop rfl w h
      · next hgo =>
        have hp : PreparedAs env w₀.files c key s.validFetches p :=
          hprepared (Bool.not_eq_true _ ▸ hgo)
        refine (isCancelled_untouched.seq fun stop => ?_) w h
        split
        · exact hstop rfl
        · refine Triple.seq (Q := fun _ => Written key (statesOf key p.messages))
            (writeRows_written.weaken_pre fun w h => ?_) fun _ =>
            (Triple.loop _ fun entry _ => writeAudit_written).seq fun _ => Triple.ret fun w h _ => ?_
          · rw [h.db]
            exact hfresh
          · refine ⟨s,c,⟨hs,hc⟩,?_⟩
            rw [← hp]
            exact h

/-- The message is in the rebuilt database, and it is not purged. -/
def Restored (key : RecordKey) (db : Repository) : Prop :=
  ∃ m ∈ db.tables.messages, m.recordKey = key ∧ m.localState ≠ .purged

/-- Among the fetches of known folders, in the order in which the folders' UIDs first occur, there
is one of the message whose EML is intact, and no purge was completed with the path and the hash of
that fetch or of a later one of the message. -/
def Restores (env : Env) (files : List (String × Bytes)) (events : List ManifestEvent)
    (key : RecordKey) : Prop :=
  ∃ s c before f after, Gathered events s c ∧ s.validFetches = before ++ f :: after ∧
    Names c key f = true ∧ readable env files f.2.relativePath f.2.fileHash = true ∧
    ∀ g ∈ f :: after, Names c key g = true → c.isPurged g.1 key.2 g.2 = false

/-- The last fetch that becomes a row decides. -/
theorem getLast?_prepared_iff {files : List (String × Bytes)} {fetches : List (FetchKey × FetchEvent)} :
    ((fetches.filter (prepares env files c key)).map (preparedState c key)).getLast? = some .active ↔
      ∃ before f after, fetches = before ++ f :: after ∧ Names c key f = true ∧
        readable env files f.2.relativePath f.2.fileHash = true ∧
        ∀ g ∈ f :: after, Names c key g = true → c.isPurged g.1 key.2 g.2 = false := by
  have hprepares : ∀ f, prepares env files c key f = true ↔ Names c key f = true ∧
      (readable env files f.2.relativePath f.2.fileHash = true ∨ c.isPurged f.1 key.2 f.2 = true) := by
    intro f
    rw [prepares,Bool.and_eq_true,Bool.or_eq_true]
  have hactive : ∀ f, preparedState c key f = .active ↔ c.isPurged f.1 key.2 f.2 = false := by
    intro f
    rw [preparedState]
    cases c.isPurged f.1 key.2 f.2 with
    | true => simp
    | false => simp
  rw [List.getLast?_map,Option.map_eq_some_iff]
  constructor
  · rintro ⟨f,hlast,hf⟩
    rw [List.getLast?_eq_head?_reverse,← List.filter_reverse,List.head?_filter,
      List.find?_eq_some_iff_append] at hlast
    obtain ⟨hp,later,earlier,hsplit,hlater⟩ := hlast
    have hunpurged := (hactive f).mp hf
    obtain ⟨hnames,hread⟩ := (hprepares f).mp hp
    refine ⟨earlier.reverse,f,later.reverse,?_,hnames,hread.resolve_right ?_,?_⟩
    · rw [← List.reverse_inj,hsplit]
      simp
    · rw [hunpurged]
      exact Bool.false_ne_true
    · intro g hg hgnames
      rcases List.mem_cons.mp hg with rfl | hg
      · exact hunpurged
      · -- a later fetch that is purged would be a row
        have hnot := hlater g (List.mem_reverse.mp hg)
        by_contra hpurged
        rw [(hprepares g).mpr ⟨hgnames,.inr (Bool.not_eq_false _ ▸ hpurged)⟩] at hnot
        cases hnot
  · rintro ⟨before,f,after,rfl,hnames,hread,hlater⟩
    have hp := (hprepares f).mpr ⟨hnames,.inl hread⟩
    rw [List.filter_append,List.filter_cons_of_pos hp,List.getLast?_append_cons]
    obtain ⟨g,hg⟩ : ∃ g, (f :: after.filter (prepares env files c key)).getLast? = some g :=
      ⟨_,List.getLast?_eq_some_getLast (List.cons_ne_nil _ _)⟩
    refine ⟨g,hg,(hactive g).mpr ?_⟩
    rcases List.mem_cons.mp (List.mem_of_getLast? hg) with rfl | hmem
    · exact hlater g List.mem_cons_self hnames
    · obtain ⟨hmem,hgp⟩ := List.mem_filter.mp hmem
      exact hlater g (List.mem_cons_of_mem _ hmem) ((hprepares g).mp hgp).1

theorem restored_iff (hdisk : ∀ t, env.storageFault t = none)
    (hfresh : ∀ m ∈ w₀.db.tables.messages, m.recordKey ≠ key) {result : ReindexResult}
    (hok : reindex env w₀ = (.ok result,w)) (hdone : result.cancelled = false) :
    Restored key w.committed ↔ Restores env w₀.files w₀.manifest key := by
  have hspec := reindex_written hdisk hfresh w₀ rfl
  rw [hok] at hspec
  obtain ⟨s,c,hgathered,-,hcommitted,hrows⟩ := hspec hdone
  rw [hcommitted]
  constructor
  · rintro ⟨m,hm,hkey,halive⟩
    have hlast := hrows.state m hm hkey
    have hactive : m.localState = .active := by
      rw [List.getLast?_map,Option.map_eq_some_iff] at hlast
      obtain ⟨f,-,hf⟩ := hlast
      rw [preparedState] at hf
      split at hf
      · exact absurd hf.symm halive
      · exact hf.symm
    rw [hactive] at hlast
    obtain ⟨before,f,after,hrest⟩ := getLast?_prepared_iff.mp hlast
    exact ⟨s,c,before,f,after,hgathered,hrest⟩
  · rintro ⟨s',c',before,f,after,⟨hs,hc⟩,hrest⟩
    obtain rfl : s = s' := Except.ok.inj (hgathered.1.symm.trans hs)
    obtain rfl : c = c' := Except.ok.inj (hgathered.2.symm.trans hc)
    have hlast := getLast?_prepared_iff.mpr ⟨before,f,after,hrest⟩
    obtain ⟨m,hm,hkey⟩ := hrows.row fun hnil => by rw [hnil] at hlast; cases hlast
    refine ⟨m,hm,hkey,?_⟩
    have hstate := (hrows.state m hm hkey).symm.trans hlast
    rw [Option.some.inj hstate]
    decide

end

/-! ## Messages that are fetched again -/

open Trash

/-- What becomes of a message and its file depends on the events of the manifest, but not on their
order.  Recovery leaves both alone in every run when the message is spared, and in a run that ends
only then; a reindex that ends restores the message exactly when its fetches outlive the purges. -/
theorem refetch_respected_iff {d : Disk} {m : Message} (hm : m ∈ d.db.tables.messages)
    (halive : m.localState ≠ .purged) (hown : ∀ x ∈ d.manifest, x.accountId = m.accountId) :
    (∀ env writeAllowed last tick r w,
      recoverIncompletePurges env writeAllowed (d.opened last tick) = (r,w) →
        (Spared d.manifest m → Kept m d.files w) ∧
        (r = .ok () → Kept m d.files w → Spared d.manifest m)) ∧
    ∀ env fresh last tick result w, (∀ t, env.storageFault t = none) →
      (∀ m' ∈ fresh.tables.messages, m'.recordKey ≠ m.recordKey) →
      reindex env (World.opened fresh d.manifest last d.files tick) = (.ok result,w) →
      result.cancelled = false →
        (Restored m.recordKey w.committed ↔ Restores env d.files d.manifest m.recordKey) := by
  refine ⟨fun env writeAllowed last tick r w hrun => ⟨fun hspared => ?_,fun hok hkept => ?_⟩,?_⟩
  · have hspec := (recoverIncompletePurges_keeps env writeAllowed halive hown hspared).final
      (s := d.opened last tick) ⟨⟨hm,hm,fun _ _ => rfl⟩,rfl⟩
    rwa [hrun] at hspec
  · subst hok
    exact (recovered_keeps_iff hm halive hown hrun).mp hkept
  · intro env fresh last tick result w hdisk hfresh hok hdone
    exact restored_iff hdisk hfresh hok hdone

/-- A hash as it is written. -/
def someHash : String := String.ofList (List.replicate 64 'a')

/-- A machine on which every file has that hash. -/
def rebuildingMachine : Env := { stillMachine with sha256 := fun _ => someHash }

/-- The fetch of the one message of the account, to this path. -/
def letterFetch (relativePath : String) : FetchEvent :=
  { accountId := "work", folderId := 1, folderRawName := "INBOX", uid := 1, uidvalidity := 9,
    sourceItemKey := .imap "INBOX" 9 1, messageId := none, relativePath := relativePath,
    fileHash := someHash, sizeBytes := 1, internalDate := none,
    timestamp := "2024-01-01T00:00:00+00:00", deduplicated := false }

/-- A purge of the message with this path. -/
def letterPurge (relativePath : String) : PurgeEvent :=
  { accountId := "work", sourceItemKey := .imap "INBOX" 9 1, relativePath := relativePath,
    fileHash := someHash, timestamp := "2024-01-01T00:00:00+00:00", sharedReferenceCount := 0,
    physicalDelete := true }

/-- The message after it was fetched again. -/
def refetchedLetter : Message :=
  { id := 1, accountId := "work", messageId := none, contentKey := "k",
    sourceItemKey := .imap "INBOX" 9 1, relativePath := some "eml/work/unknown/b.eml",
    fileHash := some someHash, envelope := {}, sizeBytes := some 1 }

/-- A message that was fetched to this path, whose purge left these events, and that was then
fetched again. -/
def refetched (relativePath : String) (purge : List ManifestEvent) : Disk where
  db := ⟨{
    accounts := [{ id := "work" }], messages := [refetchedLetter], nextMessageId := 2 },by decide⟩
  manifest := [.accountSnapshot ⟨"work","imap",none,"host",993,"user",true,"implicit",none,"password",
      none,none,none,"2024-01-01T00:00:00+00:00"⟩,
    .folderSnapshot ⟨"work","INBOX","INBOX",some 9,none,true,"2024-01-01T00:00:00+00:00"⟩,
    .fetch (letterFetch relativePath)] ++ purge ++ [.fetch (letterFetch "eml/work/unknown/b.eml")]
  files := [("eml/work/unknown/b.eml",[0x61])]

/-- Only the intent of the purge is there, and the message was fetched to another path. -/
def movedLetter : Disk :=
  refetched "eml/work/unknown/a.eml" [.purgeIntent (letterPurge "eml/work/unknown/a.eml")]

/-- The message was purged and fetched again to the same path. -/
def purgedLetter : Disk :=
  refetched "eml/work/unknown/b.eml" [.purgeIntent (letterPurge "eml/work/unknown/b.eml"),
    .purged (letterPurge "eml/work/unknown/b.eml")]

/-- What a reindex gathers from its manifest. -/
def movedReplay : Replay where
  accountEvents := [("work",⟨"work","imap",none,"host",993,"user",true,"implicit",none,"password",
    none,none,none,"2024-01-01T00:00:00+00:00"⟩)]
  folderEvents := [(("work","INBOX"),⟨"work","INBOX","INBOX",some 9,none,true,
    "2024-01-01T00:00:00+00:00"⟩)]
  fetches := [(("work","INBOX",9,1),letterFetch "eml/work/unknown/b.eml")]
  purgeEvents := [(("work",.imap "INBOX" 9 1,"eml/work/unknown/a.eml",someHash),
    letterPurge "eml/work/unknown/a.eml")]

def movedCanonical : Canonical where
  byFetch := [(("work","INBOX",9,1),.imap "INBOX" 9 1)]
  hashes := [(("work",.imap "INBOX" 9 1),someHash)]
  purgeEvents := movedReplay.purgeEvents

theorem refetch_respected_iff_moved :
    Kept refetchedLetter movedLetter.files
      (recoverIncompletePurges rebuildingMachine true (movedLetter.opened none 0)).2 ∧
    Restored refetchedLetter.recordKey (reindex rebuildingMachine
      (World.opened Repository.empty movedLetter.manifest none movedLetter.files 0)).2.committed := by
  have hown : ∀ x ∈ movedLetter.manifest, x.accountId = refetchedLetter.accountId := by
    decide +kernel
  obtain ⟨hrecovery,hreindex⟩ := refetch_respected_iff (d := movedLetter) (m := refetchedLetter)
    (by decide +kernel) (by decide) hown
  constructor
  · refine (hrecovery rebuildingMachine true none 0 _ _ rfl).1 fun _ => ⟨fun e he => ?_,fun i hi _ => ?_⟩
    · simp [movedLetter,refetched] at he
    · have hevent : i = letterPurge "eml/work/unknown/a.eml" := by
        simpa [movedLetter,refetched] using hi
      rw [hevent]
      decide +kernel
  · have hend : (reindex rebuildingMachine (World.opened Repository.empty movedLetter.manifest none
        movedLetter.files 0)).1.toOption.map (fun r => r.cancelled) = some false := by decide +kernel
    rcases hrun : reindex rebuildingMachine
      (World.opened Repository.empty movedLetter.manifest none movedLetter.files 0) with ⟨r,w⟩
    rw [hrun] at hend
    cases r with
    | error e => cases hend
    | ok result =>
      refine (hreindex rebuildingMachine Repository.empty none 0 result w (fun _ => rfl)
        (fun m hm => by cases hm) hrun (Option.some.inj hend)).mpr
        ⟨movedReplay,movedCanonical,[],(("work","INBOX",9,1),letterFetch "eml/work/unknown/b.eml"),[],
          ⟨by decide +kernel,by decide +kernel⟩,by decide +kernel,by decide +kernel,by decide +kernel,?_⟩
      decide +kernel

/-- Purged, and then fetched again: recovery takes the row away, and a reindex restores a tombstone
although the EML is there. -/
theorem refetch_not_respected :
    (∃ before after e f, purgedLetter.manifest = before ++ .purged e :: .fetch f :: after ∧
      e.recordKey = refetchedLetter.recordKey ∧ f.recordKey = refetchedLetter.recordKey) ∧
    (recoverIncompletePurges rebuildingMachine true (purgedLetter.opened none 0)).1.isOk = true ∧
    refetchedLetter ∈ purgedLetter.db.tables.messages ∧
    refetchedLetter ∉ (recoverIncompletePurges rebuildingMachine true
      (purgedLetter.opened none 0)).2.committed.tables.messages ∧
    (reindex rebuildingMachine (World.opened Repository.empty purgedLetter.manifest none
      purgedLetter.files 0)).1.toOption.map (fun r => r.cancelled) = some false ∧
    ¬Restored refetchedLetter.recordKey (reindex rebuildingMachine
      (World.opened Repository.empty purgedLetter.manifest none purgedLetter.files 0)).2.committed := by
  refine ⟨⟨purgedLetter.manifest.take 4,[],letterPurge "eml/work/unknown/b.eml",
    letterFetch "eml/work/unknown/b.eml",rfl,rfl,rfl⟩,by decide +kernel,by decide +kernel,
    by decide +kernel,by decide +kernel,?_⟩
  rintro ⟨m,hm,-,halive⟩
  have hpurged : ∀ m ∈ (reindex rebuildingMachine (World.opened Repository.empty
      purgedLetter.manifest none purgedLetter.files 0)).2.committed.tables.messages,
      m.localState = .purged := by decide +kernel
  exact halive (hpurged m hm)

end Reindex

end MailDock
