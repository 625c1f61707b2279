import MailDock.Trash.Purge

/-!
# Trash, purge and recovery

The operations on the trash, run one after the other, each of which may be cut short
after any of its effects; after an interruption the purges under way are recovered
before anything else is done.

## Main definitions

- `Operation`, `Reaches` — the operations, and the disks a sequence of them leads to
-/

namespace MailDock.Trash

open Hoare Relational Trace

section
variable {d : Disk} {env : Env} {db : Repository} {events : List ManifestEvent}
  {files : List (String × Bytes)}

/-! ## Trash and restore -/

/-- Between two operations on the trash, with these events. -/
def Calm (d : Disk) (events : List ManifestEvent) (files : List (String × Bytes)) (w : World) :
    Prop :=
  ∃ db, At d db events files w ∧ Idle db.tables.messages events

theorem mem_of_getMessage {t : Tables} {id : Nat} {m : Message} {r : Option Membership}
    (h : t.getMessage id = some (m,r)) : m ∈ t.messages ∧ m.id = id := by
  obtain ⟨m',hm',heq⟩ := Option.map_eq_some_iff.mp h
  cases heq
  exact ⟨List.mem_of_find?_eq_some hm',by simpa using List.find?_some hm'⟩

/-- The local state of a row that is not purged is set. -/
theorem setLocalState_rule {row : Message} (hidle : Idle db.tables.messages events)
    (hrow : row ∈ db.tables.messages) (hstate : row.localState ≠ .purged) {state : LocalState}
    (hnew : state ≠ .purged) {trashedAt : Option String} :
    Triple (At d db events files) (writeRepo env (.setLocalState row.id state trashedAt))
      (fun _ => Calm d events files) fun _ => Stopped d := by
  intro w hat
  have hrelabel := hat.disk_durable.relabel db.keyed hidle hrow hstate hnew trashedAt
  have hmessages : ∀ db', WriteOp.apply db (.setLocalState row.id state trashedAt) = .ok db' →
      db'.tables.messages = update (fun m => m.id == row.id)
        (fun m => { m with localState := state, trashedAt := trashedAt }) db.tables.messages := by
    intro db' hop
    rw [Repository.exec_eq_ok.mp hop]
    rfl
  refine ((At.write_rule fun db' hop => ?_).strengthen_post ?_) w hat
  · rw [hmessages db' hop]
    exact hrelabel.1
  · rintro _ w ⟨db',hop,hat'⟩
    refine ⟨db',hat',?_⟩
    rw [hmessages db' hop]
    exact hrelabel.2

theorem moveToTrash_rule {messageIds : List Nat} {trashedAt : String} :
    Triple (Calm d events files) (moveToTrash env messageIds trashedAt)
      (fun _ => Calm d events files) fun _ => Stopped d := by
  refine Triple.accumulate (I := fun _ => Calm d events files) messageIds (fun result id _ => ?_) _
  rintro w ⟨db,hat,hidle⟩
  refine (At.query_rule.seq fun record => ?_) w hat
  split
  · exact Triple.ret fun w hw => ⟨db,hw.1,hidle⟩
  · next _ message _ =>
    split
    · exact Triple.ret fun w hw => ⟨db,hw.1,hidle⟩
    · exact Triple.ret fun w hw => ⟨db,hw.1,hidle⟩
    · next hactive =>
      rintro w ⟨hat,hrecord⟩
      obtain ⟨hrow,rfl⟩ := mem_of_getMessage hrecord.symm
      have hstate : message.localState ≠ .purged := by rw [hactive]; decide
      have hnew : LocalState.trashed ≠ .purged := by decide
      refine Triple.seq (setLocalState_rule hidle hrow hstate hnew) (fun _ => ?_) w hat
      exact Triple.ret fun _ h => h

theorem restoreFromTrash_rule {messageIds : List Nat} :
    Triple (Calm d events files) (restoreFromTrash env messageIds)
      (fun _ => Calm d events files) fun _ => Stopped d := by
  refine Triple.accumulate (I := fun _ => Calm d events files) messageIds (fun result id _ => ?_) _
  rintro w ⟨db,hat,hidle⟩
  refine (At.query_rule.seq fun record => ?_) w hat
  split
  · exact Triple.ret fun w hw => ⟨db,hw.1,hidle⟩
  · next _ message _ =>
    split
    · next htrashed =>
      rintro w ⟨hat,hrecord⟩
      obtain ⟨hrow,rfl⟩ := mem_of_getMessage hrecord.symm
      have hstate : message.localState ≠ .purged := by rw [htrashed]; decide
      have hnew : LocalState.active ≠ .purged := by decide
      refine Triple.seq (setLocalState_rule hidle hrow hstate hnew) (fun _ => ?_) w hat
      exact Triple.ret fun _ h => h
    · exact Triple.ret fun w hw => ⟨db,hw.1,hidle⟩

/-! ## Purge -/

/-- A later point of an operation that started with these rows and events. -/
def Later (d : Disk) (ms : List Message) (events : List ManifestEvent) (w : World) : Prop :=
  ∃ db' events' files', At d db' events' files' w ∧ Progress ms events db'.tables.messages events'

/-- The records of a purge are rows of the database it starts on. -/
theorem purgeRecords_rule {messageIds : List Nat} :
    Triple (At d db events files)
      (messageIds.foldlM (fun records messageId => do
        let record ← queryRepo env fun t => t.getMessage messageId
        pure (records ++ (record.map Prod.fst).toList)) ([] : List Message))
      (fun records w => At d db events files w ∧ ∀ m ∈ records, m ∈ db.tables.messages)
      fun _ => Stopped d := by
  refine (Triple.accumulate (I := fun records w => At d db events files w ∧
    ∀ m ∈ records, m ∈ db.tables.messages) messageIds (fun records id _ => ?_) []).weaken_pre
    fun w hat => ⟨hat,fun m hm => by cases hm⟩
  rintro w ⟨hat,hrecords⟩
  refine (At.query_rule.seq fun record => Triple.ret ?_) w hat
  rintro w ⟨hat,hrecord⟩
  refine ⟨hat,fun m hm => ?_⟩
  rcases List.mem_append.mp hm with hm | hm
  · exact hrecords m hm
  · cases record with
    | none => cases hm
    | some found =>
      rw [show m = found.1 from List.mem_singleton.mp hm]
      exact (mem_of_getMessage hrecord.symm).1

theorem purgeStep_rule {now : String} {result : PurgeResult} {record : Message}
    {ms : List Message} (hidle : Idle ms events) (hrecord : record ∈ ms) :
    Triple (Later d ms events) (purgeStep env now result record) (fun _ => Later d ms events)
      fun _ => Stopped d := by
  unfold purgeStep
  split
  · exact Triple.ret fun _ h => h
  · next htrashed =>
    rw [not_not] at htrashed
    have hcomplete : Triple (Later d ms events) (completePurge env record now none true)
        (fun _ => Later d ms events) fun _ => Stopped d := by
      cases hpath : record.relativePath with
      | none =>
        unfold completePurge
        rw [hpath]
        exact Triple.ret fun _ h => h
      | some relativePath =>
        cases hhash : record.fileHash with
        | none =>
          unfold completePurge
          rw [hpath,hhash]
          exact Triple.ret fun _ h => h
        | some fileHash =>
          rintro w ⟨db',events',files',hat,hprogress⟩
          obtain ⟨row,hpending⟩ := hprogress.pending record record relativePath fileHash
            ⟨hrecord,rfl,rfl,rfl,.inr ⟨htrashed,hpath,hhash⟩⟩
          refine ((completePurge_rule (hprogress.idle hidle) hpending hpath hhash).strengthen_post
            ?_) w hat
          rintro _ w ⟨db'',events'',files'',hat',hprogress'⟩
          exact ⟨db'',events'',files'',hat',hprogress.trans hprogress'⟩
    refine hcomplete.seq fun outcome => ?_
    dsimp only
    split
    · exact Triple.ret fun _ h => h
    · exact Triple.ret fun _ h => h

theorem purge_rule {messageIds : List Nat} {writeAllowed : Bool}
    (hidle : Idle db.tables.messages events) :
    Triple (At d db events files) (purge env messageIds writeAllowed)
      (fun _ => Later d db.tables.messages events) fun _ => Stopped d := by
  unfold purge
  split
  · refine At.timestamp_rule.seq fun now => purgeRecords_rule.seq fun records => ?_
    rintro w ⟨hat,hrecords⟩
    refine Triple.accumulate (I := fun _ => Later d db.tables.messages events) records
      (fun result m hm => ?_) _ w ⟨db,events,files,hat,Progress.refl _ _⟩
    exact purgeStep_rule hidle (hrecords m hm)
  · exact Triple.raise fun w hw => hw.toStopped

/-! ## Recovery -/

/-- The messages recovery knows: those that have an EML. -/
def storedMessages (t : Tables) : List Message := (t.listStoredMessages none).map Prod.fst

theorem mem_storedMessages {t : Tables} {m : Message} :
    m ∈ storedMessages t ↔ m ∈ t.messages ∧ m.relativePath.isSome = true := by
  simp [storedMessages,Tables.listStoredMessages]

/-- The row of a purge event, when recovery finds one, is the one that is under way. -/
theorem recordOf_stored (hdurable : Durable db.tables.messages events files) {e : PurgeEvent}
    (he : .purgeIntent e ∈ events ∨ .purged e ∈ events) {m : Message}
    (hm : recordOf (storedMessages db.tables) e = some m) :
    Pending db.tables.messages events m m e.relativePath e.fileHash ∧ e.isOf m ∧
      m.localState = .trashed := by
  have hmem : m ∈ storedMessages db.tables := List.mem_reverse.mp (List.mem_of_find?_eq_some hm)
  have hisOf : e.isOf m := by simpa using List.find?_some hm
  obtain ⟨hrow,hpath⟩ := mem_storedMessages.mp hmem
  obtain ⟨row,hrow',hisOf',hstate⟩ := hdurable.row e he
  cases hisOf'.unique db.keyed hrow' hrow hisOf
  rcases hstate with hpurged | htrashed
  · rw [(hdurable.recorded m hrow hpurged).1] at hpath
    cases hpath
  · exact ⟨⟨hrow,rfl,rfl,rfl,.inr htrashed⟩,hisOf,htrashed.1⟩

/-- A row under way is one of those recovery knows. -/
theorem exists_recordOf (hdurable : Durable db.tables.messages events files) {e : PurgeEvent}
    (he : .purgeIntent e ∈ events ∨ .purged e ∈ events) {m : Message}
    (hm : m ∈ db.tables.messages) (hisOf : e.isOf m) (hstate : m.localState ≠ .purged) :
    ∃ m', recordOf (storedMessages db.tables) e = some m' := by
  obtain ⟨row,hrow,hisOf',hrowState⟩ := hdurable.row e he
  cases hisOf'.unique db.keyed hrow hm hisOf
  obtain ⟨-,hpath,-⟩ := hrowState.resolve_left hstate
  have hstored : m ∈ storedMessages db.tables := mem_storedMessages.mpr ⟨hm,by rw [hpath]; rfl⟩
  refine Option.isSome_iff_exists.mp (List.find?_isSome.mpr ⟨m,List.mem_reverse.mpr hstored,?_⟩)
  simpa using hisOf

/-- An intent that recovery is told about has no `purged` event for its row. -/
theorem not_completed_of_incomplete (hdurable : Durable db.tables.messages events files)
    {i : PurgeEvent} (hi : .purgeIntent i ∈ readIncompleteIntents events) {m : Message}
    (hm : m ∈ db.tables.messages) (hisOf : i.isOf m) (hstate : m.localState ≠ .purged) :
    ¬ Completed events m := by
  rintro ⟨e,he,hisOf'⟩
  obtain ⟨hi,key,hkey,hnot⟩ := mem_readIncompleteIntents.mp hi
  have hrow : ∀ e' : PurgeEvent, (.purgeIntent e' ∈ events ∨ .purged e' ∈ events) → e'.isOf m →
      m.relativePath = some e'.relativePath ∧ m.fileHash = some e'.fileHash := by
    intro e' he' hisOf''
    obtain ⟨row,hrow,hrowOf,hrowState⟩ := hdurable.row e' he'
    cases hrowOf.unique db.keyed hrow hm hisOf''
    exact (hrowState.resolve_left hstate).2
  obtain ⟨hpath,hhash⟩ := hrow i (.inl hi) hisOf
  obtain ⟨hpath',hhash'⟩ := hrow e (.inr he) hisOf'
  refine hnot (List.mem_filterMap.mpr ⟨.purged e,he,?_⟩)
  cases hkey
  show some (OperationKey.purge e.accountId e.sourceItemKey e.relativePath e.fileHash) =
    some (OperationKey.purge i.accountId i.sourceItemKey i.relativePath i.fileHash)
  rw [hisOf.1,hisOf.2,hisOf'.1,hisOf'.2,Option.some.inj (hpath'.symm.trans hpath),
    Option.some.inj (hhash'.symm.trans hhash)]

theorem mem_purgedEvents {e : PurgeEvent} : e ∈ purgedEvents events ↔ .purged e ∈ events := by
  unfold purgedEvents
  rw [List.mem_filterMap]
  constructor
  · rintro ⟨event,hevent,heq⟩
    cases event with
    | purged e' =>
      cases heq
      exact hevent
    | _ => cases heq
  · exact fun he => ⟨.purged e,he,rfl⟩

/-- Every purge that was completed is among the ones recovery looks at. -/
theorem exists_completedPurge {e : PurgeEvent} (he : .purged e ∈ events) :
    ∃ e' ∈ completedPurges events, e'.accountId = e.accountId ∧
      e'.sourceItemKey = e.sourceItemKey := by
  have hmem : e ∈ purgedEvents events := mem_purgedEvents.mpr he
  have hfound : ((purgedEvents events).reverse.find? fun e' =>
      (e'.accountId,e'.sourceItemKey) = (e.accountId,e.sourceItemKey)).isSome = true :=
    List.find?_isSome.mpr ⟨e,List.mem_reverse.mpr hmem,by simp⟩
  obtain ⟨e',he'⟩ := Option.isSome_iff_exists.mp hfound
  have hkey := List.find?_some he'
  simp only [decide_eq_true_eq,Prod.mk.injEq] at hkey
  refine ⟨e',List.mem_filterMap.mpr ⟨(e.accountId,e.sourceItemKey),?_,he'⟩,hkey⟩
  exact mem_distinct.mpr (List.mem_map_of_mem hmem)

theorem mem_of_completedPurge {e : PurgeEvent} (he : e ∈ completedPurges events) :
    .purged e ∈ events := by
  obtain ⟨key,-,hfound⟩ := List.mem_filterMap.mp he
  exact mem_purgedEvents.mp (List.mem_reverse.mp (List.mem_of_find?_eq_some hfound))

/-- A later point at which these events have been dealt with. -/
def Recovered (d : Disk) (db : Repository) (events : List ManifestEvent) (dealt : PurgeEvent → Prop)
    (w : World) : Prop :=
  ∃ db' events' files', At d db' events' files' w ∧
    Progress db.tables.messages events db'.tables.messages events' ∧
    ∀ e, dealt e → (recordOf (storedMessages db.tables) e).isSome = true →
      ∀ m ∈ db'.tables.messages, e.isOf m → m.localState = .purged

theorem Recovered.weaken {dealt dealt' : PurgeEvent → Prop} {w : World}
    (h : Recovered d db events dealt w) (hle : ∀ e, dealt' e → dealt e) :
    Recovered d db events dealt' w := by
  obtain ⟨db',events',files',hat,hprogress,hdealt⟩ := h
  exact ⟨db',events',files',hat,hprogress,fun e he => hdealt e (hle e he)⟩

theorem Recovered.step {dealt : PurgeEvent → Prop} {e : PurgeEvent} {db₁ db₂ : Repository}
    {events₁ events₂ : List ManifestEvent} {files₂ : List (String × Bytes)} {w : World}
    (hdealt : ∀ e, dealt e → (recordOf (storedMessages db.tables) e).isSome = true →
      ∀ m ∈ db₁.tables.messages, e.isOf m → m.localState = .purged)
    (hprogress₁ : Progress db.tables.messages events db₁.tables.messages events₁)
    (hat : At d db₂ events₂ files₂ w)
    (hprogress₂ : Progress db₁.tables.messages events₁ db₂.tables.messages events₂)
    (hnow : ∀ m ∈ db₂.tables.messages, e.isOf m → m.localState = .purged) :
    Recovered d db events (fun e' => dealt e' ∨ e' = e) w := by
  refine ⟨db₂,events₂,files₂,hat,hprogress₁.trans hprogress₂,?_⟩
  rintro e' (he' | rfl) hfound
  · exact hprogress₂.purged (hdealt e' he' hfound)
  · exact hnow

theorem recoverIntent_rule (hdurable : Durable db.tables.messages events files) {i : PurgeEvent}
    (hi : .purgeIntent i ∈ readIncompleteIntents events) {dealt : PurgeEvent → Prop} :
    Triple (Recovered d db events dealt) (recoverIntent env (storedMessages db.tables) (.purgeIntent i))
      (fun _ => Recovered d db events fun e => dealt e ∨ e = i) fun _ => Stopped d := by
  have hmem : .purgeIntent i ∈ events := (mem_readIncompleteIntents.mp hi).1
  unfold recoverIntent
  dsimp only
  cases hfound : recordOf (storedMessages db.tables) i with
  | none =>
    refine Triple.ret ?_
    rintro w ⟨db',events',files',hat,hprogress,hdealt⟩
    refine ⟨db',events',files',hat,hprogress,?_⟩
    rintro e (he | rfl) hrecord
    · exact hdealt e he hrecord
    · rw [hfound] at hrecord
      cases hrecord
  | some message =>
    obtain ⟨hpending,hisOf,htrashed⟩ := recordOf_stored hdurable (.inl hmem) hfound
    obtain ⟨-,hpath,hhash⟩ := hpending.state.resolve_left fun h => by rw [htrashed] at h; cases h.1
    have hsame : ¬ (message.relativePath ∉ [none,some i.relativePath] ∨
        message.fileHash ∉ [none,some i.fileHash]) := by
      rw [hpath,hhash]
      simp
    dsimp only
    rw [if_neg hsame]
    rintro w ⟨db',events',files',hat,hprogress,hdealt⟩
    obtain ⟨row,hrow⟩ := hprogress.pending
      { message with relativePath := some i.relativePath, fileHash := some i.fileHash } message
      i.relativePath i.fileHash ⟨hpending.mem,rfl,rfl,rfl,hpending.state⟩
    have hisOf' : i.isOf row := ⟨hisOf.1.trans hrow.accountId.symm,hisOf.2.trans hrow.sourceItemKey.symm⟩
    have hopen : row.localState ≠ .purged → ¬ Completed events' row := by
      intro hstate hcompleted
      obtain ⟨hrow',-,hbefore⟩ := hprogress.alive row hrow.mem hstate
      exact not_completed_of_incomplete hdurable hi hrow' hisOf' hstate (hbefore hcompleted)
    refine Triple.seq (resumePurge_rule (hprogress.mono _ hmem) hisOf' hrow rfl rfl hopen)
      (fun _ => Triple.ret ?_) w hat
    rintro w ⟨db'',events'',files'',hat',hprogress',hnow⟩
    exact Recovered.step hdealt hprogress hat' hprogress' hnow

theorem recoverCompleted_rule (hdurable : Durable db.tables.messages events files) {e : PurgeEvent}
    (he : .purged e ∈ events) {dealt : PurgeEvent → Prop} :
    Triple (Recovered d db events dealt) (recoverCompleted env (storedMessages db.tables) e)
      (fun _ => Recovered d db events fun e' => dealt e' ∨ e' = e) fun _ => Stopped d := by
  unfold recoverCompleted
  cases hfound : recordOf (storedMessages db.tables) e with
  | none =>
    refine Triple.ret ?_
    rintro w ⟨db',events',files',hat,hprogress,hdealt⟩
    refine ⟨db',events',files',hat,hprogress,?_⟩
    rintro e' (he' | rfl) hrecord
    · exact hdealt e' he' hrecord
    · rw [hfound] at hrecord
      cases hrecord
  | some message =>
    obtain ⟨hpending,hisOf,htrashed⟩ := recordOf_stored hdurable (.inr he) hfound
    dsimp only
    rw [if_neg (by rw [htrashed]; decide)]
    rintro w ⟨db',events',files',hat,hprogress,hdealt⟩
    obtain ⟨row,hrow⟩ := hprogress.pending message message e.relativePath e.fileHash hpending
    have hisOf' : e.isOf row := ⟨hisOf.1.trans hrow.accountId.symm,hisOf.2.trans hrow.sourceItemKey.symm⟩
    have he' : .purged e ∈ events' := hprogress.mono _ he
    refine ((finishPurgeDatabase_rule hrow.mem hrow.id ⟨e,he',hisOf'⟩).strengthen_post ?_) w hat
    rintro _ w ⟨db'',hmessages,hat'⟩
    have hprogress' : Progress db'.tables.messages events' db''.tables.messages events' := by
      rw [hmessages]
      have hfinish : Progress db'.tables.messages events'
          (update (fun m => m.id == row.id) purgedRow db'.tables.messages) (events' ++ []) := by
        refine Progress.finish db'.keyed hrow.mem (fun e' he' => ?_) fun p hp => ?_
        · rcases he' with he' | he' <;> cases he'
        · exact ⟨e,List.mem_append_left _ he',hisOf',(hrow.path_eq hat.disk_durable hp).symm⟩
      rwa [List.append_nil] at hfinish
    refine Recovered.step hdealt hprogress hat' hprogress' fun m hm hm' => ?_
    rw [hmessages] at hm
    rcases mem_update_purgedRow db'.keyed hrow.mem hm with ⟨hm,hid⟩ | rfl
    · exact absurd (congrArg Message.id (hm'.unique db'.keyed hm hrow.mem hisOf')) hid
    · rfl

/-- Only a `purged` event completes a purge. -/
theorem completionKey_eq_purge {event : ManifestEvent} {i : PurgeEvent}
    (h : event.completionKey = some i.operationKey) :
    ∃ e, event = .purged e ∧ e.accountId = i.accountId ∧ e.sourceItemKey = i.sourceItemKey := by
  cases event with
  | purged e =>
    injection Option.some.inj h with haccount hkey
    exact ⟨e,rfl,haccount,hkey⟩
  | remoteDelete e =>
    rw [ManifestEvent.completionKey] at h
    split at h
    · cases h
    · cases h
  | _ => cases h

/-- After both loops no purge is under way. -/
theorem Recovered.idle (hdurable : Durable db.tables.messages events files)
    {dealt : PurgeEvent → Prop} (hintents : ∀ i, .purgeIntent i ∈ readIncompleteIntents events →
      dealt i) (hcompleted : ∀ e ∈ completedPurges events, dealt e) {w : World}
    (h : Recovered d db events dealt w) :
    ∃ db' events' files', At d db' events' files' w ∧ Idle db'.tables.messages events' := by
  obtain ⟨db',events',files',hat,hprogress,hdealt⟩ := h
  refine ⟨db',events',files',hat,fun m hm hstate hstarted => ?_⟩
  obtain ⟨hm',hbefore,-⟩ := hprogress.alive m hm hstate
  obtain ⟨e,he,hisOf⟩ := hbefore hstarted
  have hclosed : ∀ e', (.purgeIntent e' ∈ events ∨ .purged e' ∈ events) → e'.isOf m → dealt e' →
      False := by
    intro e' he' hisOf' hd
    obtain ⟨record,hrecord⟩ := exists_recordOf hdurable he' hm' hisOf' hstate
    exact hstate (hdealt e' hd (by rw [hrecord]; rfl) m hm hisOf')
  by_cases hdone : Completed events m
  · obtain ⟨e₁,he₁,hisOf₁⟩ := hdone
    obtain ⟨e₂,he₂,haccount,hkey⟩ := exists_completedPurge he₁
    exact hclosed e₂ (.inr (mem_of_completedPurge he₂))
      ⟨haccount.trans hisOf₁.1,hkey.trans hisOf₁.2⟩ (hcompleted e₂ he₂)
  · -- its intent is among those without a completion
    have hintent : .purgeIntent e ∈ events := he.resolve_right fun h => hdone ⟨e,h,hisOf⟩
    refine hclosed e he hisOf (hintents e (mem_readIncompleteIntents.mpr ⟨hintent,_,rfl,?_⟩))
    intro hkey
    obtain ⟨event,hevent,heq⟩ := List.mem_filterMap.mp hkey
    obtain ⟨e',rfl,haccount,hsource⟩ := completionKey_eq_purge heq
    exact hdone ⟨e',hevent,haccount.trans hisOf.1,hsource.trans hisOf.2⟩

/-- The loop over the incomplete intents. -/
theorem recoverIntents_rule (hdurable : Durable db.tables.messages events files) :
    Triple (Recovered d db events fun _ => False)
      ((readIncompleteIntents events).forM (recoverIntent env (storedMessages db.tables)))
      (fun _ => Recovered d db events fun e => .purgeIntent e ∈ readIncompleteIntents events)
      fun _ => Stopped d := by
  refine (Triple.loop_prefix (I := fun done => Recovered d db events fun e => .purgeIntent e ∈ done)
    (readIncompleteIntents events) (fun done event hevent => ?_) []).weaken_pre ?_
  · cases event with
    | purgeIntent i =>
      refine (recoverIntent_rule hdurable hevent).strengthen_post fun _ w h => h.weaken ?_
      intro e he
      rcases List.mem_append.mp he with he | he
      · exact .inl he
      · cases List.mem_singleton.mp he
        exact .inr rfl
    | _ =>
      refine Triple.ret fun w h => h.weaken fun e he => ?_
      rcases List.mem_append.mp he with he | he
      · exact he
      · cases List.mem_singleton.mp he
  · exact fun w h => h.weaken fun e he => by cases he

/-- The loop over the completed purges. -/
theorem recoverCompletedPurges_rule (hdurable : Durable db.tables.messages events files)
    {dealt : PurgeEvent → Prop} :
    Triple (Recovered d db events dealt)
      ((completedPurges events).forM (recoverCompleted env (storedMessages db.tables)))
      (fun _ => Recovered d db events fun e => dealt e ∨ e ∈ completedPurges events)
      fun _ => Stopped d := by
  refine (Triple.loop_prefix (I := fun done => Recovered d db events fun e => dealt e ∨ e ∈ done)
    (completedPurges events) (fun done e he => ?_) []).weaken_pre ?_
  · refine (recoverCompleted_rule hdurable (mem_of_completedPurge he)).strengthen_post
      fun _ w h => h.weaken fun e' he' => ?_
    rcases he' with he' | he'
    · exact .inl (.inl he')
    · rcases List.mem_append.mp he' with he' | he'
      · exact .inl (.inr he')
      · exact .inr (List.mem_singleton.mp he')
  · refine fun w h => h.weaken fun e he => he.resolve_right fun he => by cases he

theorem recoverIncompletePurges_rule {writeAllowed : Bool} :
    Triple (At d db events files) (recoverIncompletePurges env writeAllowed)
      (fun _ w => ∃ db' events' files', At d db' events' files' w ∧
        Idle db'.tables.messages events') fun _ => Stopped d := by
  unfold recoverIncompletePurges
  split
  · intro w hat
    have hdurable := hat.disk_durable
    refine (At.query_rule.seq fun stored => ?_) w hat
    rintro w ⟨hat,rfl⟩
    refine Triple.seq (Q := fun v w' => v.manifest = events ∧ At d db events files w')
      (Triple.read fun w' hat' => ⟨hat'.manifest,hat'⟩) (fun v => ?_) w hat
    rintro w ⟨hmanifest,hat⟩
    rw [hmanifest]
    refine Triple.seq (recoverIntents_rule hdurable) (fun _ =>
      (recoverCompletedPurges_rule hdurable).strengthen_post fun _ w h => ?_) w
      ⟨db,events,files,hat,Progress.refl _ _,fun e he => by cases he⟩
    exact h.idle hdurable (fun i hi => .inl hi) fun e he => .inr he
  · exact Triple.raise fun w hw => hw.toStopped

end

/-! ## Sequences of operations -/

inductive Operation
  | trash (messageIds : List Nat) (trashedAt : String)
  | restore (messageIds : List Nat)
  | purge (messageIds : List Nat) (writeAllowed : Bool)
  | recover (writeAllowed : Bool)
deriving DecidableEq, Repr

namespace Operation

def run (env : Env) : Operation → App Unit
  | trash messageIds trashedAt => do
    let _ ← moveToTrash env messageIds trashedAt
    pure ()
  | restore messageIds => do
    let _ ← restoreFromTrash env messageIds
    pure ()
  | purge messageIds writeAllowed => do
    let _ ← MailDock.purge env messageIds writeAllowed
    pure ()
  | recover writeAllowed => recoverIncompletePurges env writeAllowed

def isRecovery : Operation → Bool
  | recover _ => true
  | _ => false

end Operation

/-- The disks that operations lead to, and whether the last one ended on its own.  After an
interruption only recovery may run. -/
inductive Reaches (start : Disk) : Disk → Bool → Prop
  | start : Reaches start start true
  | completed {d : Disk} {ended : Bool} {env : Env} {op : Operation} {last : Option Nat}
      {tick : Nat} {w : World} (h : Reaches start d ended)
      (hallowed : ended = true ∨ op.isRecovery = true)
      (hrun : op.run env (d.opened last tick) = (.ok (),w)) : Reaches start w.disk true
  | interrupted {d d' : Disk} {ended : Bool} {env : Env} {op : Operation} {last : Option Nat}
      {tick : Nat} {log : List Effect} (h : Reaches start d ended)
      (hallowed : ended = true ∨ op.isRecovery = true)
      (hlog : log <:+ (op.run env (d.opened last tick)).2.log) (hcrash : d.Crashed log d') :
      Reaches start d' false

/-- A disk on which nothing was purged yet, with any number of rows that share files within
their account. -/
structure Unpurged (d : Disk) : Prop where
  rows : ∀ m ∈ d.db.tables.messages, m.localState ≠ .purged
  intents : ∀ e, .purgeIntent e ∉ d.manifest
  purged : ∀ e, .purged e ∉ d.manifest
  account : ∀ m ∈ d.db.tables.messages, ∀ m' ∈ d.db.tables.messages, ∀ p,
    m.relativePath = some p → m'.relativePath = some p → m.accountId = m'.accountId

/-- No purge event is in the manifest, so that every clause about one is empty. -/
theorem Unpurged.durable {d : Disk} (h : Unpurged d) : d.Durable ∧ Idle d.db.tables.messages d.manifest := by
  have hnone : ∀ e, ¬ (.purgeIntent e ∈ d.manifest ∨ .purged e ∈ d.manifest) := by
    rintro e (he | he)
    · exact h.intents e he
    · exact h.purged e he
  refine ⟨?_,?_⟩
  · exact
    { account := h.account
      row := fun e he => absurd he (hnone e)
      owner := fun e he => absurd he (hnone e)
      named := fun i hi => absurd hi (h.intents i)
      recorded := fun m hm hpurged => absurd hpurged (h.rows m hm)
      single := fun m _ _ _ _ _ ⟨e,he,_⟩ _ => absurd he (hnone e)
      shared := fun i hi => absurd hi (h.intents i)
      gone := fun e he => absurd he (h.purged e) }
  · rintro m - - ⟨e,he,-⟩
    exact hnone e he

/-- One operation, from a disk on which it may run. -/
theorem run_spec {d : Disk} {ended : Bool} (hdurable : d.Durable)
    (hidle : ended = true → Idle d.db.tables.messages d.manifest) (env : Env) (op : Operation)
    (hallowed : ended = true ∨ op.isRecovery = true) (last : Option Nat) (tick : Nat) :
    Holds (fun _ w => ∃ db events files, At d db events files w ∧ Idle db.tables.messages events)
      (fun _ => Stopped d) (op.run env (d.opened last tick)) := by
  suffices h : Triple (At d d.db d.manifest d.files) (op.run env)
      (fun _ w => ∃ db events files, At d db events files w ∧ Idle db.tables.messages events)
      fun _ => Stopped d from h _ (At.opened hdurable last tick)
  cases op with
  | trash messageIds trashedAt =>
    have hidle := hidle (hallowed.resolve_right Bool.false_ne_true)
    refine (moveToTrash_rule.weaken_pre fun w hat => ⟨d.db,hat,hidle⟩).seq fun _ => Triple.ret ?_
    rintro w ⟨db,hat,hidle⟩
    exact ⟨db,_,_,hat,hidle⟩
  | restore messageIds =>
    have hidle := hidle (hallowed.resolve_right Bool.false_ne_true)
    refine (restoreFromTrash_rule.weaken_pre fun w hat => ⟨d.db,hat,hidle⟩).seq fun _ =>
      Triple.ret ?_
    rintro w ⟨db,hat,hidle⟩
    exact ⟨db,_,_,hat,hidle⟩
  | purge messageIds writeAllowed =>
    have hidle := hidle (hallowed.resolve_right Bool.false_ne_true)
    refine (purge_rule hidle).seq fun _ => Triple.ret ?_
    rintro w ⟨db,events,files,hat,hprogress⟩
    exact ⟨db,events,files,hat,hprogress.idle hidle⟩
  | recover writeAllowed => exact recoverIncompletePurges_rule

theorem stopped_of_run {d : Disk} {ended : Bool} (hdurable : d.Durable)
    (hidle : ended = true → Idle d.db.tables.messages d.manifest) (env : Env) (op : Operation)
    (hallowed : ended = true ∨ op.isRecovery = true) (last : Option Nat) (tick : Nat) :
    Stopped d (op.run env (d.opened last tick)).2 := by
  have hspec := run_spec hdurable hidle env op hallowed last tick
  rcases hrun : op.run env (d.opened last tick) with ⟨result,w⟩
  rw [hrun] at hspec
  cases result with
  | ok u =>
    obtain ⟨db,events,files,hat,-⟩ := hspec
    exact hat.toStopped
  | error e => exact hspec

/-- Every reached disk is durable, and no purge is under way where the last operation ended. -/
theorem Reaches.durable {start d : Disk} {ended : Bool} (hstart : Unpurged start)
    (h : Reaches start d ended) :
    d.Durable ∧ (ended = true → Idle d.db.tables.messages d.manifest) := by
  induction h with
  | start => exact ⟨hstart.durable.1,fun _ => hstart.durable.2⟩
  | @completed d ended env op last tick w _ hallowed hrun ih =>
    have hspec := run_spec ih.1 ih.2 env op hallowed last tick
    rw [hrun] at hspec
    obtain ⟨db,events,files,hat,hidle⟩ := hspec
    have hdurable := hat.disk_durable
    unfold Disk.Durable World.disk
    rw [hat.committed,hat.manifest,hat.stored]
    exact ⟨hdurable,fun _ => hidle⟩
  | @interrupted d d' ended env op last tick log _ hallowed hlog hcrash ih =>
    have hstopped := stopped_of_run ih.1 ih.2 env op hallowed last tick
    exact ⟨hstopped.sound log hlog d' hcrash,fun h => by cases h⟩

/-- In every sequence of trash, restore, purge and recovery with interruptions at any effect,
from a disk where nothing was purged: a file is only deleted when every row that refers to it is
purged or has a flushed intent; a row is only purged in the committed database when its `purged`
event is flushed; and when recovery has run to its end, the file of a `purged` event that no
other row refers to is gone. -/
theorem purge_reference_safety {start d : Disk} {ended : Bool} (hstart : Unpurged start)
    (hreach : Reaches start d ended) (env : Env) (op : Operation) (last : Option Nat) (tick : Nat)
    (hallowed : ended = true ∨ op.isRecovery = true) {result : Except Error Unit} {w : World}
    (hrun : op.run env (d.opened last tick) = (result,w)) :
    (∀ relativePath before, .unlink relativePath :: before <:+ w.log →
      ∀ m ∈ (committedDb d.db before).tables.messages, m.relativePath = some relativePath →
        m.localState = .purged ∨ ∃ i, .purgeIntent i ∈ d.manifest ++ durableEvents before ∧
          i.isOf m ∧ i.relativePath = relativePath) ∧
    (∀ log, log <:+ w.log → ∀ m ∈ (committedDb d.db log).tables.messages,
      m.localState = .purged → ∃ e, .purged e ∈ d.manifest ++ durableEvents log ∧ e.isOf m) ∧
    (op.isRecovery = true → result = .ok () → ∀ e, .purged e ∈ w.manifest →
      (∀ m ∈ w.committed.tables.messages, m.localState ≠ .purged →
        m.relativePath ≠ some e.relativePath) → w.files.lookup e.relativePath = none) := by
  obtain ⟨hdurable,hidle⟩ := hreach.durable hstart
  have hspec := run_spec hdurable hidle env op hallowed last tick
  have hstopped := stopped_of_run hdurable hidle env op hallowed last tick
  rw [hrun] at hspec hstopped
  refine ⟨fun relativePath before hs m hm hpath => ?_,fun log hs m hm hpurged => ?_,
    fun _ hok e he hunreferred => ?_⟩
  · have hguard : UnlinkGuard d before (.unlink relativePath) := (hstopped.guarded.suffix hs).1
    exact hguard m hm hpath
  · exact ((hstopped.sound log hs _ (d.crashed_durable log)).recorded m hm hpurged).2
  · cases hok
    obtain ⟨db,events,files,hat,-⟩ := hspec
    have hgone := hat.disk_durable.gone e (hat.manifest ▸ he) fun m hm hstate hpath => ?_
    · rw [hat.stored]
      exact hgone
    · rw [← hat.committed] at hm
      exact absurd hpath (hunreferred m hm hstate)

/-- A machine whose clock stands still. -/
def stillMachine : Env where
  sha256 _ := ""
  parse _ _ :=
    { messageId := none, contentKey := "", subject := "", sender := "", recipient := "", cc := "",
      dateSent := none, hasAttachment := false, inReplyTo := none, referencesIds := none,
      threadKey := none, bodyText := "", attachments := [] }
  clock _ := ⟨2024,1,1,0,0,0⟩
  uidvalidity _ _ := 0
  mailbox _ _ := []
  nextRef _ _ _ _ := none
  body _ _ _ := []
  headers _ _ _ := []

/-- Two messages in the trash with one EML. -/
def twinDisk : Disk where
  db := ⟨{
    accounts := [{ id := "work" }]
    messages := [
      { id := 1, accountId := "work", messageId := none, contentKey := "k",
        sourceItemKey := .imap "INBOX" 9 1, localState := .trashed,
        relativePath := some "eml/work/unknown/a.eml", fileHash := some "aa", envelope := {},
        sizeBytes := some 1 },
      { id := 2, accountId := "work", messageId := none, contentKey := "k",
        sourceItemKey := .imap "INBOX" 9 2, localState := .trashed,
        relativePath := some "eml/work/unknown/a.eml", fileHash := some "aa", envelope := {},
        sizeBytes := some 1 }]
    nextMessageId := 3 },by decide⟩
  manifest := []
  files := [("eml/work/unknown/a.eml",[0x61])]

/-- What a crash leaves of a purge of both, right after the intent of the second one. -/
def twinCrashLog : List Effect :=
  ((Operation.purge [1,2] true).run stillMachine (twinDisk.opened none 0)).2.log.drop 8

def twinCrash : Disk :=
  ⟨committedDb twinDisk.db twinCrashLog,twinDisk.manifest ++ durableEvents twinCrashLog,
    filesAfter twinDisk.files twinCrashLog⟩

theorem purge_reference_safety_twins :
    twinCrash.files.lookup "eml/work/unknown/a.eml" = some [0x61] ∧
    ((Operation.recover true).run stillMachine (twinCrash.opened none 0)).1.isOk = true ∧
    ((Operation.recover true).run stillMachine (twinCrash.opened none 0)).2.files.lookup
      "eml/work/unknown/a.eml" = none := by
  have hstart : Unpurged twinDisk := by
    refine ⟨by decide,(fun e he => by cases he),(fun e he => by cases he),?_⟩
    intro m hm m' hm' p _ _
    have hall : ∀ m ∈ twinDisk.db.tables.messages, m.accountId = "work" := by decide
    rw [hall m hm,hall m' hm']
  have hreach : Reaches twinDisk twinCrash false :=
    @Reaches.interrupted twinDisk twinDisk twinCrash true stillMachine (.purge [1,2] true) none 0
      twinCrashLog .start (.inl rfl) (List.drop_suffix 8 _) (twinDisk.crashed_durable twinCrashLog)
  have hdone : ((Operation.recover true).run stillMachine (twinCrash.opened none 0)).1.isOk = true := by
    decide +kernel
  have hevent : ∃ e ∈ purgedEvents
      ((Operation.recover true).run stillMachine (twinCrash.opened none 0)).2.manifest,
      e.relativePath = "eml/work/unknown/a.eml" := by decide +kernel
  have hunreferred : ∀ m ∈
      ((Operation.recover true).run stillMachine (twinCrash.opened none 0)).2.committed.tables.messages,
      m.localState ≠ .purged → m.relativePath ≠ some "eml/work/unknown/a.eml" := by decide +kernel
  refine ⟨by decide +kernel,hdone,?_⟩
  rcases hrun : (Operation.recover true).run stillMachine (twinCrash.opened none 0) with ⟨result,w⟩
  rw [hrun] at hdone hevent hunreferred
  obtain ⟨e,he,hpath⟩ := hevent
  have hok : result = .ok () := by
    cases result with
    | ok u => rfl
    | error err => cases hdone
  have hgone := (purge_reference_safety hstart hreach stillMachine (.recover true) none 0 (.inr rfl)
    hrun).2.2 rfl hok e (mem_purgedEvents.mp he) (hpath ▸ hunreferred)
  exact hpath ▸ hgone

end MailDock.Trash
