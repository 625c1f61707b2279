import MailDock.Lib.Trace
import MailDock.Repository.Frames
import MailDock.Sync.Walk

/-!
# The write order of a synchronisation

A record is written only after the event that describes it is flushed, a fetch event
with its EML in place or, above the size limit, a `fetch_skipped` event; and a checkpoint
is appended only when every fetch event before it has been committed.  Both hold of the
log at every point of a run, hence of whatever a crash leaves.

## Main definitions

- `Backed` — the event of a record is flushed, and its EML is in place
- `Settled` — every fetch event has been committed
- `SyncGuard` — the two as a condition on each effect
-/

namespace MailDock

open Hoare Trace

def Backed (env : Env) (log : List Effect) (record : MessageRecord) : Prop :=
  (∃ e : FetchEvent, e.Describes record ∧ EmlAt env log e.relativePath e.fileHash ∧
    .fetch e ∈ flushedEvents log) ∨
  ∃ s : FetchSkippedEvent, s.Describes record ∧ .fetchSkipped s ∈ flushedEvents log

def Settled (log : List Effect) : Prop :=
  ∀ e : FetchEvent, .fetch e ∈ appendedEvents log → ∃ record contents,
    .addMessage record contents ∈ committedOps log ∧ e.Describes record

def SyncGuard (env : Env) (before : List Effect) : Effect → Prop
  | .write (.addMessage record _) => Backed env before record
  | .append (.checkpoint _) => Settled before
  | _ => True

/-- Effects that the guard says nothing about and that owe no commit. -/
def Effect.isQuiet : Effect → Bool
  | .write (.addMessage _ _) | .append (.checkpoint _) | .append (.fetch _) => false
  | _ => true

def quietFootprint : Footprint where
  note
    | .write _ | .append _ => False
    | _ => True
  event
    | .fetch _ | .checkpoint _ => False
    | _ => True
  op
    | .addMessage _ _ => False
    | _ => True

theorem scanFootprint_le_quiet : scanFootprint.Le quietFootprint where
  note e he := by cases e <;> first | exact he | trivial
  event e he := by cases e <;> first | exact he | trivial
  op o ho := by cases o <;> first | exact ho | trivial

theorem detectFootprint_le_quiet : detectFootprint.Le quietFootprint where
  note e he := by cases e <;> first | exact he | trivial
  event e he := by cases e <;> first | exact he | trivial
  op o ho := by cases o <;> first | exact ho | trivial

theorem itemFootprint_le_quiet : itemFootprint.Le quietFootprint where
  note e he := by cases e <;> first | exact he | trivial
  event e he := he.elim
  op o ho := ho.elim

/-- Facts about the log and the pending items that quiet effects cannot take back. -/
theorem Closed.ofQuietLog {φ : List PendingItem → List Effect → Prop}
    (h : ∀ pending log e, e.isQuiet = true → φ pending log → φ pending (e :: log)) :
    Closed quietFootprint fun w => φ w.session.pending w.log where
  ticked _ hw := hw
  logged w e he _ hw := by
    refine h _ _ e ?_ hw
    cases e <;> first | exact he.elim | rfl
  saved _ _ _ _ hw := h _ _ _ rfl hw
  appended w e last he hw := by
    refine h _ _ (.append e) ?_ hw
    cases e <;> first | exact he.elim | rfl
  began _ _ hw := hw
  written w op db hop _ hw := by
    have hwrite : φ w.session.pending (.write op :: w.log) := by
      refine h _ _ (.write op) ?_ hw
      cases op <;> first | exact hop.elim | rfl
    unfold World.written
    split
    · exact hwrite
    · exact h _ _ (.commit db) rfl hwrite
  committed _ hw := h _ _ _ rfl hw
  counted w s hs hw := by
    have hpending : s.pending = w.session.pending := hs.2.1
    show φ s.pending w.log
    rw [hpending]
    exact hw

section
variable {env : Env} {log : List Effect}

theorem guarded_quiet {e : Effect} (he : e.isQuiet = true) (h : Always (SyncGuard env) log) :
    Always (SyncGuard env) (e :: log) := by
  refine ⟨?_,h⟩
  cases e with
  | write op => cases op <;> first | exact Bool.noConfusion he | trivial
  | append event => cases event <;> first | exact Bool.noConfusion he | trivial
  | _ => trivial

theorem Backed.suffix {record : MessageRecord} {log' : List Effect} (h : Backed env log' record)
    (hs : log' <:+ log) : Backed env log record := by
  rcases h with ⟨e,hdescribes,heml,hflushed⟩ | ⟨s,hdescribes,hflushed⟩
  · exact .inl ⟨e,hdescribes,heml.suffix hs,mem_flushedEvents_suffix hs hflushed⟩
  · exact .inr ⟨s,hdescribes,mem_flushedEvents_suffix hs hflushed⟩

/-- A record with an EML has its fetch event. -/
theorem Backed.fetched {record : MessageRecord} (h : Backed env log record)
    (hpath : record.relativePath.isSome) : ∃ e : FetchEvent, e.Describes record ∧
      EmlAt env log e.relativePath e.fileHash ∧ .fetch e ∈ flushedEvents log := by
  rcases h with hfetched | ⟨s,hdescribes,-⟩
  · exact hfetched
  · rw [hdescribes.relativePath] at hpath
    cases hpath

/-! The batch. -/

/-- Every fetch event is committed, or it belongs to a pending item. -/
def Owed (pending : List PendingItem) (log : List Effect) : Prop :=
  ∀ e : FetchEvent, .fetch e ∈ appendedEvents log →
    (∃ record contents, .addMessage record contents ∈ committedOps log ∧ e.Describes record) ∨
    ∃ item ∈ pending, ∃ record ∈ item.record, e.Describes record

theorem Settled.owed (h : Settled log) (pending : List PendingItem) : Owed pending log :=
  fun e he => .inl (h e he)

theorem Owed.cons {pending : List PendingItem} (h : Owed pending log) {e : Effect}
    (he : ∀ f, e ≠ .append (.fetch f)) : Owed pending (e :: log) := by
  intro f hf
  have hbefore : .fetch f ∈ appendedEvents log := by
    cases e with
    | append event =>
      rcases List.mem_cons.mp hf with rfl | hf
      · exact absurd rfl (he f)
      · exact hf
    | _ => exact hf
  rcases h f hbefore with ⟨record,contents,hop,hdescribes⟩ | hpending
  · exact .inl ⟨record,contents,mem_committedOps_cons e hop,hdescribes⟩
  · exact .inr hpending

theorem Settled.cons (h : Settled log) {e : Effect} (he : ∀ f, e ≠ .append (.fetch f)) :
    Settled (e :: log) := by
  intro f hf
  rcases (h.owed []).cons he f hf with hcommitted | ⟨item,hitem,-⟩
  · exact hcommitted
  · cases hitem

theorem Effect.isQuiet.not_fetch {e : Effect} (he : e.isQuiet = true) (f : FetchEvent) :
    e ≠ .append (.fetch f) := by
  rintro rfl
  cases he

/-- The manifest half of a batch: the events of the items in `done` are appended. -/
structure Appending (env : Env) (folder : Folder) (pending done : List PendingItem)
    (log : List Effect) : Prop where
  guarded : Always (SyncGuard env) log
  owed : Owed pending log
  eventful : ∀ item ∈ pending, item.Eventful env folder log
  appended : ∀ item ∈ done, ∀ event ∈ item.event, event ∈ appendedEvents log

/-- The database half: the events are flushed and the records of `done` are written. -/
structure Writing (env : Env) (pending done : List PendingItem) (log : List Effect) : Prop where
  guarded : Always (SyncGuard env) log
  owed : Owed pending log
  backed : ∀ item ∈ pending, ∀ record ∈ item.record, Backed env log record
  written : ∀ item ∈ done, ∀ record ∈ item.record,
    .addMessage record item.contents ∈ writtenOps log

theorem mem_appendedEvents_cons {event : ManifestEvent} (e : Effect)
    (h : event ∈ appendedEvents log) : event ∈ appendedEvents (e :: log) := by
  cases e with
  | append _ => exact List.mem_cons_of_mem _ h
  | _ => exact h

theorem Appending.quiet {folder : Folder} {pending done : List PendingItem}
    (h : Appending env folder pending done log) {e : Effect} (he : e.isQuiet = true) :
    Appending env folder pending done (e :: log) where
  guarded := guarded_quiet he h.guarded
  owed := h.owed.cons (Effect.isQuiet.not_fetch he)
  eventful item hitem := (h.eventful item hitem).cons e
  appended item hitem event hevent :=
    mem_appendedEvents_cons e (h.appended item hitem event hevent)

theorem Writing.quiet {pending done : List PendingItem} (h : Writing env pending done log)
    {e : Effect} (he : e.isQuiet = true) : Writing env pending done (e :: log) where
  guarded := guarded_quiet he h.guarded
  owed := h.owed.cons (Effect.isQuiet.not_fetch he)
  backed item hitem record hr := (h.backed item hitem record hr).suffix (List.suffix_cons e log)
  written item hitem record hr := by
    rw [mem_writtenOps]
    exact List.mem_cons_of_mem e (mem_writtenOps.mp (h.written item hitem record hr))

theorem Appending.closed {folder : Folder} {pending done : List PendingItem} :
    Closed quietFootprint fun w => Appending env folder pending done w.log :=
  Closed.ofQuietLog (φ := fun _ log => Appending env folder pending done log)
    fun _ _ _ he h => h.quiet he

theorem Writing.closed {pending done : List PendingItem} :
    Closed quietFootprint fun w => Writing env pending done w.log :=
  Closed.ofQuietLog (φ := fun _ log => Writing env pending done log) fun _ _ _ he h => h.quiet he

/-- An item that failed has nothing to append. -/
theorem Appending.skip {folder : Folder} {pending done : List PendingItem} {item : PendingItem}
    (h : Appending env folder pending done log) (hitem : item.event = none) :
    Appending env folder pending (done ++ [item]) log where
  guarded := h.guarded
  owed := h.owed
  eventful := h.eventful
  appended := by
    intro i hi event hevent
    rcases List.mem_append.mp hi with hi | hi
    · exact h.appended i hi event hevent
    · rw [List.mem_singleton.mp hi,hitem] at hevent
      cases hevent

/-- The event of a pending item, in front of the log. -/
theorem Appending.event {folder : Folder} {pending done : List PendingItem} {item : PendingItem}
    {event : ManifestEvent} (h : Appending env folder pending done log) (hitem : item ∈ pending)
    (hevent : item.event = some event) :
    Appending env folder pending (done ++ [item]) (.append event :: log) := by
  have hdone : ∀ i ∈ done ++ [item], ∀ f ∈ i.event, f ∈ appendedEvents (.append event :: log) := by
    intro i hi f hf
    rcases List.mem_append.mp hi with hi | hi
    · exact List.mem_cons_of_mem _ (h.appended i hi f hf)
    · rw [List.mem_singleton.mp hi,hevent] at hf
      cases hf
      exact List.mem_cons_self
  have heventful := h.eventful item hitem
  unfold PendingItem.Eventful at heventful
  rw [hevent] at heventful
  split at heventful
  · next e record he hrecord =>
    cases he
    refine ⟨⟨trivial,h.guarded⟩,fun f hf => ?_,fun i hi => (h.eventful i hi).cons _,hdone⟩
    rcases List.mem_cons.mp hf with hfe | hf
    · cases hfe
      exact .inr ⟨item,hitem,record,hrecord,heventful.1⟩
    · exact h.owed f hf
  · next s record he _ =>
    cases he
    exact ⟨⟨trivial,h.guarded⟩,h.owed.cons (fun _ hf => by cases hf),
      fun i hi => (h.eventful i hi).cons _,hdone⟩
  · next he _ => cases he
  · exact heventful.elim

/-- Once everything is appended and flushed, every record of the batch is backed. -/
theorem Appending.flushed {folder : Folder} {pending : List PendingItem}
    (h : Appending env folder pending pending log) : Writing env pending [] (.flush :: log) where
  guarded := ⟨trivial,h.guarded⟩
  owed := h.owed.cons fun _ hf => by cases hf
  backed := by
    intro item hitem record hrecord
    have hevent := h.eventful item hitem
    unfold PendingItem.Eventful at hevent
    rw [Option.mem_def.mp hrecord] at hevent
    split at hevent
    · next e r hfetch hr =>
      cases hr
      exact .inl ⟨e,hevent.1,hevent.2.2.cons _,h.appended item hitem _ hfetch⟩
    · next s r hskipped hr =>
      cases hr
      exact .inr ⟨s,hevent,h.appended item hitem _ hskipped⟩
    · next hr => cases hr
    · exact hevent.elim
  written := by simp

/-- The write of the record of an item. -/
theorem Writing.wrote {pending done : List PendingItem} {item : PendingItem}
    {record : MessageRecord} (h : Writing env pending done log) (hitem : item ∈ pending)
    (hrecord : item.record = some record) :
    Writing env pending (done ++ [item]) (.write (.addMessage record item.contents) :: log) where
  guarded := ⟨h.backed item hitem record hrecord,h.guarded⟩
  owed := h.owed.cons fun _ hf => by cases hf
  backed i hi r hr := (h.backed i hi r hr).suffix (List.suffix_cons _ log)
  written := by
    intro i hi r hr
    rw [mem_writtenOps]
    rcases List.mem_append.mp hi with hi | hi
    · exact List.mem_cons_of_mem _ (mem_writtenOps.mp (h.written i hi r hr))
    · rw [List.mem_singleton.mp hi] at hr ⊢
      rw [Option.mem_def.mp hr] at hrecord
      cases hrecord
      exact List.mem_cons_self

theorem Writing.skip {pending done : List PendingItem} {item : PendingItem}
    (h : Writing env pending done log) (hitem : item.record = none) :
    Writing env pending (done ++ [item]) log where
  guarded := h.guarded
  owed := h.owed
  backed := h.backed
  written := by
    intro i hi r hr
    rcases List.mem_append.mp hi with hi | hi
    · exact h.written i hi r hr
    · rw [List.mem_singleton.mp hi,hitem] at hr
      cases hr

/-- The commit settles what the batch owed. -/
theorem Writing.committed {pending : List PendingItem} (h : Writing env pending pending log)
    (db : Repository) : Settled (.commit db :: log) := by
  intro e he
  rcases h.owed e he with ⟨record,contents,hop,hdescribes⟩ | ⟨item,hitem,record,hr,hdescribes⟩
  · exact ⟨record,contents,mem_committedOps_cons _ hop,hdescribes⟩
  · exact ⟨record,item.contents,h.written item hitem record hr,hdescribes⟩

/-! The programs. -/

section
variable {accountId : String} {folder : Folder} {uidvalidity : Nat} {options : SyncOptions}

/-- Between two steps of a folder scan. -/
structure Scanning (env : Env) (accountId : String) (folder : Folder) (uidvalidity : Nat)
    (pending : List PendingItem) (log : List Effect) : Prop where
  guarded : Always (SyncGuard env) log
  settled : Settled log
  items : ∀ item ∈ pending, ∃ ref, ItemOf env accountId folder uidvalidity ref log item

theorem Scanning.quiet {pending : List PendingItem}
    (h : Scanning env accountId folder uidvalidity pending log) {e : Effect}
    (he : e.isQuiet = true) : Scanning env accountId folder uidvalidity pending (e :: log) where
  guarded := guarded_quiet he h.guarded
  settled := h.settled.cons (Effect.isQuiet.not_fetch he)
  items item hitem := (h.items item hitem).imp fun _ hi => hi.cons e

theorem Scanning.closed : Closed quietFootprint fun w =>
    Scanning env accountId folder uidvalidity w.session.pending w.log :=
  Closed.ofQuietLog fun _ _ _ he h => h.quiet he

theorem appendItem_appending {pending done : List PendingItem} {item : PendingItem}
    (hitem : item ∈ pending) (links : List (SourceItemKey × SourceItemKey)) :
    Triple (fun w => Appending env folder pending done w.log) (appendItem env accountId links item)
      (fun _ w => Appending env folder pending (done ++ [item]) w.log)
      (fun _ w => Always (SyncGuard env) w.log) := by
  have hquiet : ∀ {α : Type} {done : List PendingItem} {p : App α}, Within quietFootprint p →
      Triple (fun w => Appending env folder pending done w.log) p
        (fun _ w => Appending env folder pending done w.log)
        (fun _ w => Always (SyncGuard env) w.log) := fun hp =>
    (hp _ Appending.closed).consequence (fun _ h => h) (fun _ _ h => h) fun _ _ h => h.guarded
  have hevent : ∀ event, item.event = some event →
      Triple (fun w => Appending env folder pending done w.log) (appendManifest env event)
        (fun _ w => Appending env folder pending (done ++ [item]) w.log)
        (fun _ w => Always (SyncGuard env) w.log) := fun event he =>
    appendManifest_rule (fun _ _ hw _ => hw.event hitem he) fun _ _ hw _ => hw.guarded
  unfold appendItem
  split
  · next hnone => exact Triple.ret fun w hw => hw.skip hnone
  · next event record hfetch hrecord =>
    refine (hevent _ hfetch).seq fun _ => (hquiet (Within.ofExcept _)).seq fun found => ?_
    split
    · exact Triple.ret fun _ hw => hw
    · exact hquiet (Within.nowIso.seq fun _ => (Within.appendManifest trivial).seq fun _ => .ret _)
  · next event hsome _ =>
    exact (hevent event hsome).seq fun _ => Triple.ret fun _ hw => hw

theorem writeItem_writing {pending done : List PendingItem} {item : PendingItem}
    (hitem : item ∈ pending) (links : List (SourceItemKey × SourceItemKey)) :
    Triple (fun w => Writing env pending done w.log) (writeItem env accountId links item)
      (fun _ w => Writing env pending (done ++ [item]) w.log)
      (fun _ w => Always (SyncGuard env) w.log) := by
  have hquiet : ∀ {α : Type} {done : List PendingItem} {p : App α}, Within quietFootprint p →
      Triple (fun w => Writing env pending done w.log) p
        (fun _ w => Writing env pending done w.log)
        (fun _ w => Always (SyncGuard env) w.log) := fun hp =>
    (hp _ Writing.closed).consequence (fun _ h => h) (fun _ _ h => h) fun _ _ h => h.guarded
  refine Triple.seq (Q := fun _ w => Writing env pending (done ++ [item]) w.log) ?_ fun _ => ?_
  · split
    · next record hrecord =>
      refine Triple.seq (Q := fun _ w => Writing env pending (done ++ [item]) w.log) ?_ fun id =>
        Triple.seq (Triple.write fun w hw => hw) fun _ =>
          hquiet (Within.loop _ fun _ _ => Within.writeRepo trivial)
      refine addMessage_rule ?_ fun w _ hw _ => hw.guarded
      intro w id db hw _
      have hwrote : Writing env pending (done ++ [item])
        (.write (.addMessage record item.contents) :: w.log) := hw.wrote hitem hrecord
      unfold World.written
      split
      · exact hwrote
      · exact hwrote.quiet (e := .commit db) rfl
    · next hrecord => exact Triple.ret fun w hw => hw.skip hrecord
  · split
    · exact hquiet (Within.writeRepo trivial)
    · split
      · exact hquiet (Within.writeRepo trivial)
      · exact Triple.ret fun _ hw => hw
    · exact Triple.ret fun _ hw => hw

theorem appendPending_writing (folder : Folder) (pending : List PendingItem) :
    Triple (fun w => Appending env folder pending [] w.log) (appendPending env accountId pending)
      (fun _ w => Writing env pending [] w.log) (fun _ w => Always (SyncGuard env) w.log) := by
  refine (Triple.accumulate_prefix
    (I := fun done _ (w : World) => Appending env folder pending done w.log) _
    (fun done links item hitem => appendItem_appending hitem links) [] []).seq fun links => ?_
  refine ((appendSnapshots_within (fun _ => trivial) _ _ Appending.closed).consequence
    (fun _ h => h) (fun _ _ h => h) fun _ _ h => h.guarded).seq fun _ => ?_
  exact (flushAndSync_rule (Q := fun _ w => Writing env pending [] w.log)
    (fun w hw => Appending.flushed hw) fun w _ hw _ => hw.guarded).seq fun _ =>
    Triple.ret fun _ h => h

theorem writePending_settled (pending : List PendingItem)
    (links : List (SourceItemKey × SourceItemKey)) (cursor : Option CursorUpdate) :
    Triple (fun w => Writing env pending [] w.log)
      (writePending env accountId pending links cursor)
      (fun _ w => Always (SyncGuard env) w.log ∧ Settled w.log)
      (fun _ w => Always (SyncGuard env) w.log) := by
  refine ((Within.beginBatch _ Writing.closed).consequence (fun _ h => h) (fun _ _ h => h)
    fun _ _ h => h.guarded).seq fun _ => ?_
  refine (Triple.loop_prefix (I := fun done (w : World) => Writing env pending done w.log) _
    (fun done item hitem => writeItem_writing hitem links) []).seq fun _ => ?_
  refine Triple.seq (Q := fun _ w => Writing env pending pending w.log) ?_ fun _ => ?_
  · unfold writeCursor
    split
    · exact (Within.writeRepo trivial _ Writing.closed).consequence (fun _ h => h)
        (fun _ _ h => h) fun _ _ h => h.guarded
    · exact Triple.ret fun _ h => h
  · refine commitBatch_rule ?_ fun w _ hw _ => hw.guarded
    exact fun w hw => ⟨guarded_quiet rfl hw.guarded,hw.committed w.db⟩

theorem checkpointBatch_scanning :
    Triple (fun w => Always (SyncGuard env) w.log ∧ Settled w.log) (checkpointBatch env accountId)
      (fun _ w => Scanning env accountId folder uidvalidity w.session.pending w.log)
      (fun _ w => Always (SyncGuard env) w.log) := by
  let Done := fun w : World => (Always (SyncGuard env) w.log ∧ Settled w.log) ∧
    w.session.pending = []
  have hdone : ∀ w, Done w →
      Scanning env accountId folder uidvalidity w.session.pending w.log := by
    rintro w ⟨⟨hguard,hsettled⟩,hpending⟩
    exact ⟨hguard,hsettled,by simp [hpending]⟩
  refine Triple.seq (Q := fun _ => Done) (Triple.write fun w hw => ⟨hw,rfl⟩) fun _ => ?_
  refine (nextTick_rule (Q := fun _ => Done) fun w hw => hw).seq fun t => ?_
  refine (Triple.read (Q := fun _ => Done) fun w hw => hw).seq fun v => ?_
  refine Triple.seq (Q := fun _ => Done) ?_ fun _ => ?_
  · refine (timestamp_rule (Q := fun _ => Done) fun w _ hw => hw).seq fun now => ?_
    refine (appendManifest_rule (Q := fun _ => Done) ?_ fun w _ hw _ => hw.1.1).seq fun _ =>
      flushAndSync_rule ?_ fun w _ hw _ => hw.1.1
    · intro w last hw _
      exact ⟨⟨⟨hw.1.2,hw.1.1⟩,hw.1.2.cons fun _ hf => by cases hf⟩,hw.2⟩
    · intro w hw
      exact ⟨⟨⟨trivial,hw.1.1⟩,hw.1.2.cons fun _ hf => by cases hf⟩,hw.2⟩
  · split
    · exact repoCall_rule (fun w hw => hdone _ hw) fun w _ hw _ => hw.1.1
    · exact Triple.ret fun w hw => hdone w hw

/-- A batch leaves everything settled and nothing pending. -/
theorem commitPending_scanning (cursor : Option CursorUpdate) :
    Triple (fun w => Scanning env accountId folder uidvalidity w.session.pending w.log)
      (commitPending env accountId cursor)
      (fun _ w => Scanning env accountId folder uidvalidity w.session.pending w.log)
      (fun e w => Always (SyncGuard env) w.log ∧ e.isLocal = true) := by
  suffices h : Triple (fun w => Scanning env accountId folder uidvalidity w.session.pending w.log)
      (commitPending env accountId cursor)
      (fun _ w => Scanning env accountId folder uidvalidity w.session.pending w.log)
      (fun _ w => Always (SyncGuard env) w.log) from
    (h.and (commitPending_local cursor)).consequence (fun w hw => ⟨hw,trivial⟩)
      (fun _ _ hw => hw.1) fun _ _ hw => hw
  refine (Triple.read (Q := fun v w : World => v = w ∧
    Scanning env accountId folder uidvalidity w.session.pending w.log)
    fun w hw => ⟨rfl,hw⟩).seq fun v => ?_
  split
  · exact Triple.ret fun w hw => hw.2
  · refine ((appendPending_writing folder v.session.pending).weaken_pre ?_).seq fun links =>
      (writePending_settled _ links cursor).seq fun _ => checkpointBatch_scanning
    rintro w ⟨rfl,hw⟩
    exact ⟨hw.guarded,hw.settled.owed _,fun item hitem => (hw.items item hitem).elim
      fun _ h => h.event,fun _ h => by cases h⟩

/-! The run. -/

/-- What an error leaves behind: the guarded log, and unless it comes from the
local side, a scan that can go on. -/
def Halted (env : Env) (accountId : String) (folder : Folder) (uidvalidity : Nat) (e : Error)
    (w : World) : Prop :=
  Always (SyncGuard env) w.log ∧ (e.isLocal = false →
    Scanning env accountId folder uidvalidity w.session.pending w.log)

theorem folderWalk_scanning : FolderWalk env accountId options folder uidvalidity
    (fun w => Scanning env accountId folder uidvalidity w.session.pending w.log)
    (Halted env accountId folder uidvalidity) where
  closed := Scanning.closed.mono scanFootprint_le_quiet
  raised _ _ hw := ⟨hw.guarded,fun _ => hw⟩
  attempted _ _ hw := hw
  processRef ref := by
    refine (processRef_rule (Scanning.closed.mono itemFootprint_le_quiet) ?_).consequence
      (fun _ hw => hw) (fun _ _ hw => hw) fun _ _ hw => ⟨hw.guarded,fun _ => hw⟩
    intro w item hw hitem
    refine ⟨hw.guarded,hw.settled,fun i hi => ?_⟩
    rcases List.mem_append.mp hi with hi | hi
    · exact hw.items i hi
    · rw [List.mem_singleton.mp hi]
      exact ⟨ref,hitem⟩
  commitPending cursor := (commitPending_scanning cursor).consequence (fun _ hw => hw)
    (fun _ _ hw => hw) fun e w hw => ⟨hw.1,fun he => by rw [hw.2] at he; cases he⟩

/-- Between two folders. -/
def Quiescent (env : Env) (w : World) : Prop := Always (SyncGuard env) w.log ∧ Settled w.log

theorem Quiescent.closed : Closed quietFootprint (Quiescent env) :=
  Closed.ofQuietLog (φ := fun _ log => Always (SyncGuard env) log ∧ Settled log)
    fun _ _ _ he h => ⟨guarded_quiet he h.1,h.2.cons (Effect.isQuiet.not_fetch he)⟩

theorem openFootprint_le_quiet : openFootprint.Le quietFootprint where
  note e he := by cases e <;> first | exact he | trivial
  event e he := by cases e <;> first | exact he | trivial
  op o ho := by cases o <;> first | exact ho | trivial

theorem syncFolder_quiescent (google : Bool) (folder : Folder) :
    Triple (Quiescent env) (syncFolder env accountId google options folder)
      (fun _ => Quiescent env) fun e w => Always (SyncGuard env) w.log ∧
        (e.isLocal = false → Quiescent env w) := by
  have hquiet : ∀ {α : Type} {p : App α}, Within quietFootprint p →
      Triple (Quiescent env) p (fun _ => Quiescent env) fun e w => Always (SyncGuard env) w.log ∧
        (e.isLocal = false → Quiescent env w) := fun hp =>
    (hp _ Quiescent.closed).consequence (fun _ h => h) (fun _ _ h => h) fun _ _ h =>
      ⟨h.1,fun _ => h⟩
  refine (hquiet (Within.selectFolder trivial)).seq fun uidvalidity => ?_
  refine Triple.seq (Q := fun _ => Quiescent env) (Triple.write fun _ hw => hw) fun _ => ?_
  refine (hquiet ((openCursors_within folder uidvalidity).mono openFootprint_le_quiet)).seq
    fun cursors => ?_
  refine Triple.seq (Q := fun _ w => Scanning env accountId folder uidvalidity w.session.pending
    w.log) (Triple.write fun w hw => ⟨hw.1,hw.2,by simp⟩) fun _ => ?_
  refine (folderWalk_scanning.handled (fun _ _ hw => hw.2) google cursors).consequence
    (fun _ hw => hw) (fun _ _ hw => ⟨hw.guarded,hw.settled⟩) fun e w hw => ⟨hw.1,fun he => ?_⟩
  exact ⟨hw.1,(hw.2 he).settled⟩

/-- Every effect of a run meets its guard. -/
theorem syncAccount_guarded :
    Triple (Quiescent env) (syncAccount env accountId options)
      (fun _ w => Always (SyncGuard env) w.log) fun _ w => Always (SyncGuard env) w.log := by
  have hquiet : ∀ {α : Type} {p : App α}, Within quietFootprint p →
      Triple (Quiescent env) p (fun _ => Quiescent env) fun e w => Always (SyncGuard env) w.log ∧
        (e.isLocal = false → Quiescent env w) := fun hp =>
    (hp _ Quiescent.closed).consequence (fun _ h => h) (fun _ _ h => h) fun _ _ h =>
      ⟨h.1,fun _ => h⟩
  refine Triple.consequence (E := fun e w => Always (SyncGuard env) w.log ∧
    (e.isLocal = false → Quiescent env w)) (Q := fun _ => Quiescent env) ?_ (fun _ h => h)
    (fun _ _ h => h.1) fun _ _ h => h.1
  refine (hquiet ensureImapAccount_within).seq fun _ => (hquiet Within.queryRepo).seq fun accounts =>
    (hquiet Within.queryRepo).seq fun targets =>
    Triple.seq (Q := fun _ => Quiescent env) (Triple.write fun _ hw => hw) fun _ =>
    syncTargets_walk (fun _ _ hw => ⟨hw.1,fun _ => hw⟩) Quiescent.closed.ticked
      (fun _ _ hw => hw.2) targets (fun folder _ => syncFolder_quiescent _ folder)
      fun _ folder _ => hquiet ((detectFolder_within _ folder).mono detectFootprint_le_quiet)

end

end

/-! A server and an account. -/

/-- A server that never fails and whose folders never change. -/
def steadyServer (uidvalidity : Nat) (mailbox : String → List Nat) : Env where
  sha256 _ := "e3b0c44298fc1c149afbf4c8996fb92427ae41e4649b934ca495991b7852b855"
  parse _ _ := {}
  clock _ := ⟨2024,1,1,0,0,0⟩
  uidvalidity _ _ := uidvalidity
  mailbox _ folder := mailbox folder
  nextRef _ folder minUid maxUid :=
    ((mailbox folder).filter fun uid => minUid ≤ uid && uid ≤ maxUid).max?.map fun uid =>
      { uid := uid }
  body _ _ _ := []
  headers _ _ _ := []

/-- An account whose only folder has not been synchronised yet. -/
def freshInbox : Repository where
  tables :=
    { accounts := [{ id := "work" }]
      folders := [
        { id := 1, accountId := "work", rawName := "INBOX", displayName := "INBOX",
          isSyncTarget := true }]
      nextFolderId := 2 }
  valid := by decide

end MailDock
