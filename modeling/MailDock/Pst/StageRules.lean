import MailDock.Pst.Reattach
import MailDock.Pst.Rules
import MailDock.Pst.Worker

/-!
# What the stages keep

An invariant of the world that is closed under the single calls is kept by a whole stage.  Of the
writes of a stage it only matters what they do to `pst_imports`: they set the status of one import,
and leave the others alone.

## Main definitions

- `ImportWrite` — a write of a stage
- `Enduring` — an invariant that is closed under the calls
- `Enduring.write`, `Enduring.append`, … — one rule for each call
-/

namespace MailDock

open Hoare Relational

/-! ## Writes -/

/-- The columns by which an import is known, and that say whether it is active. -/
structure SameImport (i j : PstImport) : Prop where
  id : j.id = i.id
  importUuid : j.importUuid = i.importUuid
  accountId : j.accountId = i.accountId
  isActive : j.isActive = i.isActive
  replacesId : j.replacesId = i.replacesId
  sourceSha256 : j.sourceSha256 = i.sourceSha256

/-- A write that gives an import one of the statuses, or leaves all imports as they are. -/
inductive ImportWrite (importId : Nat) (ok : ImportStatus → Prop) (repo db : PstRepository) : Prop
  | status (s : ImportStatus) (hs : ok s) (f : PstImport → PstImport)
      (hf : ∀ i, SameImport i (f i) ∧ (f i).status = s)
      (h : db.tables.imports = update (fun i => i.id == importId) f repo.tables.imports)
  | other (h : db.tables.imports = repo.tables.imports)

section
variable {importId : Nat} {ok : ImportStatus → Prop} {repo db : PstRepository}

theorem updateImportStatus_write {s : ImportStatus} {columns : PstImport → PstImport} (hs : ok s)
    (hcolumns : ∀ i, SameImport i (columns i))
    (h : repo.updateImportStatus importId s columns = .ok db) : ImportWrite importId ok repo db := by
  unfold PstRepository.updateImportStatus at h
  split at h
  · refine .status s hs (fun i => { columns i with status := s }) (fun i => ?_) ?_
    · exact ⟨⟨(hcolumns i).1,(hcolumns i).2,(hcolumns i).3,(hcolumns i).4,(hcolumns i).5,
        (hcolumns i).6⟩,rfl⟩
    · rw [PstRepository.exec_eq_ok.mp h]
      rfl
  · cases h

theorem upsertImportItem_write {record : PstItem} (h : repo.upsertImportItem record = .ok db) :
    ImportWrite importId ok repo db := by
  refine .other ?_
  rw [PstRepository.exec_eq_ok.mp h]
  unfold PstTables.upsertImportItem
  split
  · rfl
  · rfl

theorem upsertFolder_write {accountId rawName displayName : String} {id : Nat}
    (h : repo.upsertFolder accountId rawName displayName = .ok (id,db)) :
    ImportWrite importId ok repo db := by
  unfold PstRepository.upsertFolder at h
  split at h
  · cases h
  · rw [Except.bind_eq_ok_iff] at h
    obtain ⟨stored,hstored,h⟩ := h
    split at h
    · cases h
      refine .other ?_
      rw [PstRepository.exec_eq_ok.mp hstored]
    · cases h

theorem addMessage_write {record : MessageRecord} {contents : Option MessageContents} {id : Nat}
    (h : repo.addMessage record contents = .ok (id,db)) : ImportWrite importId ok repo db := by
  unfold PstRepository.addMessage at h
  rw [Except.bind_eq_ok_iff] at h
  obtain ⟨⟨messageId,mail⟩,-,h⟩ := h
  rw [Except.bind_eq_ok_iff] at h
  obtain ⟨stored,hstored,h⟩ := h
  cases h
  refine .other ?_
  rw [PstRepository.exec_eq_ok.mp hstored]
  unfold PstTables.setNoRemote
  split
  · rfl
  · rfl

theorem upsertAccount_write {account : Account} (h : repo.upsertAccount account = .ok db) :
    ImportWrite importId ok repo db := by
  unfold PstRepository.upsertAccount at h
  split at h
  · cases h
  · refine .other ?_
    rw [PstRepository.exec_eq_ok.mp h]

end

theorem PstManifest.writeImport_events {sha256 : Bytes → String} {m m' : PstManifest}
    {snapshot : Wire.Dict} (h : m.writeImport sha256 snapshot = .ok m') : m'.events = m.events := by
  unfold PstManifest.writeImport at h
  rw [Except.bind_eq_ok_iff] at h
  obtain ⟨payload,-,h⟩ := h
  rw [Except.bind_eq_ok_iff] at h
  obtain ⟨-,-,h⟩ := h
  split at h
  · cases h
    rfl
  · rw [Except.bind_eq_ok_iff] at h
    obtain ⟨existing,-,h⟩ := h
    split at h
    · cases h
      rfl
    · cases h

theorem PstManifest.writeFolders_events {m m' : PstManifest} {folders : List Wire.Dict}
    (h : m.writeFolders folders = .ok m') : m'.events = m.events := by
  unfold PstManifest.writeFolders at h
  rw [Except.bind_eq_ok_iff] at h
  obtain ⟨-,-,h⟩ := h
  split at h
  · cases h
    rfl
  · rw [Except.bind_eq_ok_iff] at h
    obtain ⟨existing,-,h⟩ := h
    split at h
    · cases h
      rfl
    · cases h

/-! ## Calls -/

/-- The invariant is kept by every call, if a write of it is one of `R` and an event that is
appended one of `A`. -/
structure Enduring (I : PstWorld → Prop) (R : PstRepository → PstRepository → Prop)
    (A : String → PstEventBody → Prop) : Prop where
  ticked : ∀ w, I w → I w.ticked
  staging : ∀ w s, I w → I { w with staging := s }
  saved : ∀ w path raw, I w → I (w.saved path raw)
  began : ∀ w, I w → I { w with inBatch := true }
  committed : ∀ w, I w →
    I { w with committed := w.db, inBatch := false, log := .commit w.db :: w.log }
  rolledBack : ∀ w, I w → I { w with db := w.committed, inBatch := false }
  written : ∀ w db, I w → R w.db db → I (w.written db)
  appended : ∀ w u now body events, I w → A u body →
    appendPstEvent u (w.manifests u).events ⟨u,now,body⟩ = .ok events →
    I (w.appended u ⟨u,now,body⟩ events)
  flushed : ∀ w u, I w → I (w.flushedAll u)
  snapshot : ∀ w u m, I w → m.events = (w.manifests u).events → I (w.setManifest u m)

theorem Enduring.mono {I : PstWorld → Prop} {R R' : PstRepository → PstRepository → Prop}
    {A A' : String → PstEventBody → Prop} (h : Enduring I R A)
    (hR : ∀ repo db, R' repo db → R repo db) (hA : ∀ u body, A' u body → A u body) :
    Enduring I R' A' :=
  { h with
    written := fun w db hw hdb => h.written w db hw (hR _ _ hdb)
    appended := fun w u now body events hw hbody => h.appended w u now body events hw (hA _ _ hbody) }

namespace Enduring

variable {I : PstWorld → Prop} {R : PstRepository → PstRepository → Prop}
  {A : String → PstEventBody → Prop} {env : PstEnv} {u : String} {gated : Bool} {α : Type}

theorem tick (h : Enduring I R A) : Maintains I pstTick := fun w hw => h.ticked w hw

theorem call (h : Enduring I R A) : Maintains I (pstCall env) := by
  refine h.tick.seq fun t => ?_
  split
  · exact Maintains.raise _
  · exact Maintains.ret _

theorem timestamp (h : Enduring I R A) : Maintains I (pstTimestamp env) :=
  h.tick.seq fun _ => Maintains.ret _

theorem cancel (h : Enduring I R A) : Maintains I (pstRaiseIfCancelled env) := by
  refine h.tick.seq fun t => ?_
  split
  · exact Maintains.raise _
  · exact Maintains.ret _

theorem ensure (h : Enduring I R A) : Maintains I (ensureWriteAllowed env gated) := by
  refine h.tick.seq fun t => ?_
  split
  · exact Maintains.raise _
  · exact Maintains.ret _

theorem lift (x : Except Error α) : Maintains I (liftPst x) := by
  intro w hw
  cases x with
  | ok a => exact hw
  | error e => exact hw

theorem raised (kind : ErrorKind) (message : String) :
    Maintains I (raisePst kind message : Pst α) :=
  Maintains.raise _

theorem query (h : Enduring I R A) {query : PstTables → α} : Maintains I (queryPst env query) :=
  h.call.seq fun _ => Maintains.read.seq fun _ => Maintains.ret _

/-- A query reads some tables. -/
theorem query_tables (h : Enduring I R A) {query : PstTables → α} :
    Triple I (queryPst env query) (fun a w => I w ∧ ∃ t, a = query t) fun _ => I :=
  Triple.seq (Q := fun _ => I) h.call fun _ w hw => ⟨hw,w.db.tables,rfl⟩

theorem insert (h : Enduring I R A)
    {statement : PstRepository → Except Error (α × PstRepository)}
    (hstatement : ∀ repo a db, statement repo = .ok (a,db) → R repo db) :
    Maintains I (insertPst env statement) := by
  refine h.call.seq fun _ => Maintains.reading fun w hw => ?_
  show I (Prog.bind (liftPst (statement w.db)) _ w).2
  unfold Prog.bind
  cases hst : statement w.db with
  | error e => exact hw
  | ok r => exact h.written w r.2 hw (hstatement w.db r.1 r.2 hst)

theorem write (h : Enduring I R A) {statement : PstRepository → Except Error PstRepository}
    (hstatement : ∀ repo db, statement repo = .ok db → R repo db) :
    Maintains I (writePst env statement) := by
  refine h.call.seq fun _ => Maintains.reading fun w hw => ?_
  show I (Prog.bind (liftPst (statement w.db)) _ w).2
  unfold Prog.bind
  cases hst : statement w.db with
  | error e => exact hw
  | ok db => exact h.written w db hw (hstatement w.db db hst)

theorem begin (h : Enduring I R A) : Maintains I (beginPstBatch env) := by
  refine h.call.seq fun _ => Maintains.reading fun w hw => ?_
  split
  · exact hw
  · exact h.began w hw

theorem commit (h : Enduring I R A) : Maintains I (commitPstBatch env) :=
  h.call.seq fun _ => Maintains.write h.committed

theorem rollback (h : Enduring I R A) : Maintains I (rollbackPstBatch env) :=
  h.call.seq fun _ => Maintains.write h.rolledBack

theorem appendAt (h : Enduring I R A) {now : String} {body : PstEventBody} (hbody : A u body) :
    Maintains I (appendPstAt env u ⟨u,now,body⟩) := by
  refine h.call.seq fun _ => Maintains.reading fun w hw => ?_
  show I (Prog.bind (liftPst (appendPstEvent u (w.manifests u).events ⟨u,now,body⟩)) _ w).2
  unfold Prog.bind
  cases happend : appendPstEvent u (w.manifests u).events ⟨u,now,body⟩ with
  | error e => exact hw
  | ok events => exact h.appended w u now body events hw hbody happend

theorem append (h : Enduring I R A) {body : PstEventBody} (hbody : A u body) :
    Maintains I (appendPst env u body) :=
  h.timestamp.seq fun _ => h.appendAt hbody

theorem flush (h : Enduring I R A) : Maintains I (flushPst env u) :=
  h.call.seq fun _ => Maintains.write fun w => h.flushed w u

theorem events (h : Enduring I R A) : Maintains I (readPstEvents env u) :=
  h.call.seq fun _ => Maintains.read.seq fun _ => Maintains.ret _

theorem verify (h : Enduring I R A) {importId : Nat} {allowSuperseded : Bool} :
    Maintains I (verifyGeneration env importId u allowSuperseded) :=
  h.call.seq fun _ => Maintains.read.seq fun _ => lift _

theorem audit (h : Enduring I R A) {operation accountId detail : String}
    (hother : ∀ repo db : PstRepository, db.tables.imports = repo.tables.imports → R repo db) :
    Maintains I (recordPstAudit env operation accountId detail) := by
  refine h.timestamp.seq fun now => h.write fun repo db hdb => hother repo db ?_
  rw [PstRepository.exec_eq_ok.mp hdb]

/-! The calls of the stages. -/

theorem setStaging (h : Enduring I R A) {s : Option Staging} : Maintains I (setStaging u s) :=
  Maintains.write fun w => h.staging w _

theorem removeStaging (h : Enduring I R A) : Maintains I (removeStaging env gated u) :=
  h.ensure.seq fun _ => h.call.seq fun _ => h.setStaging

theorem createStaging (h : Enduring I R A) : Maintains I (createStaging env u) := by
  refine h.call.seq fun _ => Maintains.read.seq fun w => ?_
  split
  · exact raised _ _
  · exact h.setStaging

theorem extract (h : Enduring I R A) : Maintains I (extractPst env u) :=
  h.call.seq fun _ => (lift _).seq fun _ => h.setStaging

theorem scanStaging (h : Enduring I R A) : Maintains I (scanStaging env u) := by
  refine h.call.seq fun _ => Maintains.read.seq fun w => ?_
  split
  · exact raised _ _
  · exact Maintains.ret _

theorem readMarker (h : Enduring I R A) : Maintains I (readMarker env u) := by
  refine h.call.seq fun _ => Maintains.read.seq fun w => ?_
  split
  · exact raised _ _
  · exact lift _

theorem writeMarker (h : Enduring I R A) {marker : StageMarker} :
    Maintains I (writeMarker env u marker) := by
  refine h.call.seq fun _ => Maintains.read.seq fun w => ?_
  split
  · exact raised _ _
  · split
    · exact raised _ _
    · exact h.setStaging

theorem snapshotSourceFile (h : Enduring I R A) : Maintains I (snapshotSourceFile env) :=
  h.cancel.seq fun _ => h.call.seq fun _ => lift _

theorem validateSourceSnapshot (h : Enduring I R A) {expected : SourceFileSnapshot} :
    Maintains I (validateSourceSnapshot env expected) := by
  refine h.snapshotSourceFile.seq fun actual => ?_
  split
  · exact raised _ _
  · exact Maintains.ret _

theorem writeImportManifest (h : Enduring I R A) {snapshot : Wire.Dict} :
    Maintains I (writeImportManifest env u snapshot) := by
  refine h.call.seq fun _ => Maintains.reading fun w hw => ?_
  show I (Prog.bind (liftPst ((w.manifests u).writeImport env.sha256 snapshot)) _ w).2
  unfold Prog.bind
  cases hm : (w.manifests u).writeImport env.sha256 snapshot with
  | error e => exact hw
  | ok m => exact h.snapshot w u m hw (PstManifest.writeImport_events hm)

theorem writeFoldersManifest (h : Enduring I R A) {folders : List Wire.Dict} :
    Maintains I (writeFoldersManifest env u folders) := by
  refine h.call.seq fun _ => Maintains.reading fun w hw => ?_
  show I (Prog.bind (liftPst ((w.manifests u).writeFolders folders)) _ w).2
  unfold Prog.bind
  cases hm : (w.manifests u).writeFolders folders with
  | error e => exact hw
  | ok m => exact h.snapshot w u m hw (PstManifest.writeFolders_events hm)

theorem saveStagedEml (h : Enduring I R A) {accountId : String} {date : Option DateTime}
    {raw : Bytes} : Maintains I (saveStagedEml env accountId date raw) := by
  refine h.call.seq fun _ => Maintains.reading fun w hw => ?_
  cases existingEml env.sha256 w.files accountId (env.sha256 raw) with
  | some existing => exact hw
  | none => exact h.saved w _ _ hw

theorem readStagedItem (h : Enduring I R A) {relativePath : String} :
    Maintains I (readStagedItem env u relativePath) := by
  refine h.call.seq fun _ => Maintains.read.seq fun w => ?_
  split
  · exact raised _ _
  · exact Maintains.ret _

end Enduring

theorem pstWhen_maintains {I : PstWorld → Prop} {condition : Prop} [Decidable condition]
    {p : Pst Unit} (hp : condition → Maintains I p) : Maintains I (pstWhen condition p) := by
  unfold pstWhen
  split
  · next hcondition => exact hp hcondition
  · exact Maintains.ret _

/-- A handler that keeps the invariant may raise again. -/
theorem unlessDetached_maintains {I : PstWorld → Prop} {α : Type} {p : Pst α}
    {handler : Error → Pst Unit} (hp : Maintains I p) (hh : ∀ e, Maintains I (handler e)) :
    Maintains I (unlessDetached p handler) := by
  refine catching_rule hp (fun e => ?_) fun _ hw => hw
  split
  · exact Maintains.raise _
  · exact (hh e).seq fun _ => Maintains.raise _

/-- A transaction that keeps the invariant when it is rolled back. -/
theorem Enduring.transaction {I : PstWorld → Prop} {R : PstRepository → PstRepository → Prop}
    {A : String → PstEventBody → Prop} {env : PstEnv} {α : Type} {p : Pst α} (h : Enduring I R A)
    (hp : Maintains I p) :
    Maintains I (catching p fun e => do
      rollbackPstBatch env
      throw (.raised e)) :=
  catching_rule hp (fun _ => h.rollback.seq fun _ => Maintains.raise _) fun _ hw => hw

end MailDock
