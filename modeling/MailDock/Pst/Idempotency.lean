import MailDock.Pst.Decisions

/-!
# Idempotency keys over a whole history

An event whose key the manifest has already is swallowed or refused.  Which events a generation can
ever have under one key, and hence which operation is refused or leaves nothing behind.

## Main definitions

- `PstEvent.IsLifecycle` — an event of a switch, a restore or a purge
- `Accountable` — what holds of these events in a manifest that the writer wrote
- `LeavesEvent` — an operation returned and added an event to the manifest

## Main results

- `operations_leave_events_iff`
-/

namespace MailDock

open Hoare

/-- An event of a switch, a restore or a purge. -/
def PstEvent.IsLifecycle (e : PstEvent) : Prop :=
  match e.body with
  | .purgeIntent _ | .purged _ | .generationSwitchPrepared _ | .generationSwitchCommitted _
  | .generationRestored .. | .generationSuperseded _ => True
  | _ => False

def hasSuperseded (events : List PstEvent) : Bool :=
  events.any fun e => e.name == .generationSuperseded

theorem hasSuperseded_iff {events : List PstEvent} :
    hasSuperseded events = true ↔ ∃ e ∈ events, e.name = .generationSuperseded := by
  simp [hasSuperseded]

/-! ## What the writer accepts -/

section
variable {u : String} {events events' : List PstEvent} {body : PstEventBody}

/-- A new event is the only one with its key and has what it requires. -/
theorem Recorded.new (h : Recorded u events body events') :
    events' = events ∨ ∃ now, events' = events ++ [⟨u,now,body⟩] ∧
      (∀ p ∈ events, p.key ≠ PstEvent.key ⟨u,now,body⟩) ∧
      PstEvent.validateOrder ⟨u,now,body⟩ events = .ok () := by
  obtain ⟨now,h⟩ := h
  rw [appendPstEvent,if_neg (by simp)] at h
  split at h
  · next hnew =>
    cases h
    unfold validateTransition at hnew
    split at hnew
    · split at hnew
      · cases hnew
      · cases hnew
    · next hnone =>
      rw [Except.bind_eq_ok_iff] at hnew
      obtain ⟨_,horder,-⟩ := hnew
      refine .inr ⟨now,rfl,fun p hp heq => ?_,horder⟩
      exact absurd (List.find?_eq_none.mp hnone p hp) (by simp [heq])
  · cases h
    exact .inl rfl
  · cases h

/-- An event is accepted when those with its key say the same and it has what it requires. -/
theorem appendPstEvent_ok (now : String)
    (hsame : ∀ p ∈ events, p.key = PstEvent.key ⟨u,now,body⟩ → p.importUuid = u ∧ p.body = body)
    (horder : PstEvent.validateOrder ⟨u,now,body⟩ events = .ok ()) :
    ∃ events', appendPstEvent u events ⟨u,now,body⟩ = .ok events' := by
  rw [appendPstEvent,if_neg (by simp)]
  cases hfind : events.find? fun p => p.key == PstEvent.key ⟨u,now,body⟩ with
  | some p =>
    have hkey : p.key = PstEvent.key ⟨u,now,body⟩ := by simpa using List.find?_some hfind
    obtain ⟨himport,hbody⟩ := hsame p (List.mem_of_find?_eq_some hfind) hkey
    have hcontent : p.sameContent ⟨u,now,body⟩ = true := by
      simp [PstEvent.sameContent,himport,hbody]
    exact ⟨events,by simp [validateTransition,hfind,hcontent]⟩
  | none => exact ⟨events ++ [⟨u,now,body⟩],by simp [validateTransition,hfind,horder,bind,Except.bind]⟩

/-- An event that is accepted adds one to the manifest unless its key is there. -/
theorem Recorded.grows (h : Recorded u events body events')
    (hnew : ∀ p ∈ events, ∀ now, p.key ≠ PstEvent.key ⟨u,now,body⟩) :
    ∃ now, events' = events ++ [⟨u,now,body⟩] := by
  rcases h.cases with ⟨rfl,p,hp,himport,hbody⟩ | h
  · exact absurd (by rw [PstEvent.key,PstEvent.key,PstEvent.name,PstEvent.name,himport,hbody])
      (hnew p hp "")
  · exact h

/-- An event whose key is there is swallowed. -/
theorem Recorded.swallowed (h : Recorded u events body events')
    (hthere : ∃ p ∈ events, p.key = PstEvent.key ⟨u,"",body⟩) : events' = events := by
  obtain ⟨p,hp,hkey⟩ := hthere
  rcases h.new with h | ⟨now,-,hnew,-⟩
  · exact h
  · exact absurd hkey (hnew p hp)

end

/-- What holds of the events of switches, restores and purges. -/
structure Accountable (u : String) (events : List PstEvent) : Prop where
  importUuid : ∀ e ∈ events, e.IsLifecycle → e.importUuid = u
  unique : ∀ e ∈ events, ∀ e' ∈ events, e.IsLifecycle → e.key = e'.key → e.body = e'.body
  committed : hasSuperseded events = true → hasCommitRecord events = true
  intended : ∀ e ∈ events, ∀ p, e.body = .purged p →
    ∃ i ∈ events, i.name = .purgeIntent ∧ i.key.2 = e.key.2

theorem PstEvent.isLifecycle_of_superseded {e : PstEvent} (h : e.name = .generationSuperseded) :
    e.IsLifecycle := by
  obtain ⟨_,_,body⟩ := e
  cases body <;> simp_all [PstEvent.IsLifecycle,PstEvent.name,PstEventBody.name]

theorem accountable_of_none {u : String} {events : List PstEvent}
    (h : ∀ e ∈ events, ¬ e.IsLifecycle) : Accountable u events where
  importUuid e he hl := absurd hl (h e he)
  unique e he _ _ hl := absurd hl (h e he)
  committed hs := by
    obtain ⟨e,he,hname⟩ := hasSuperseded_iff.mp hs
    exact absurd (PstEvent.isLifecycle_of_superseded hname) (h e he)
  intended e he p hp := absurd (by simp [PstEvent.IsLifecycle,hp]) (h e he)

theorem Accountable.record {u : String} {events events' : List PstEvent} {body : PstEventBody}
    (h : Accountable u events) (hrecord : Recorded u events body events') :
    Accountable u events' := by
  rcases hrecord.new with rfl | ⟨now,rfl,hkey,horder⟩
  · exact h
  constructor
  · intro e he hl
    rcases List.mem_append.mp he with he | he
    · exact h.importUuid e he hl
    · rw [List.mem_singleton.mp he]
  · intro e he e' he' hl heq
    rcases List.mem_append.mp he with he | he
    · rcases List.mem_append.mp he' with he' | he'
      · exact h.unique e he e' he' hl heq
      · rw [List.mem_singleton.mp he'] at heq
        exact absurd heq (hkey e he)
    · rw [List.mem_singleton.mp he] at heq ⊢
      rcases List.mem_append.mp he' with he' | he'
      · exact absurd heq.symm (hkey e' he')
      · rw [List.mem_singleton.mp he']
  · intro hs
    obtain ⟨e,he,hname⟩ := hasSuperseded_iff.mp hs
    have hmono : hasCommitRecord events = true →
        hasCommitRecord (events ++ [⟨u,now,body⟩]) = true := by
      intro hc
      simp [hasCommitRecord,List.any_append] at hc ⊢
      exact .inl hc
    rcases List.mem_append.mp he with he | he
    · exact hmono (h.committed (hasSuperseded_iff.mpr ⟨e,he,hname⟩))
    · rw [List.mem_singleton.mp he] at hname
      -- The event needs a record of the commit before it.
      cases body with
      | generationSuperseded old =>
        refine hmono ?_
        simp only [PstEvent.validateOrder] at horder
        split at horder
        · next hbefore =>
          obtain ⟨p,hp,hboth⟩ := List.any_eq_true.mp hbefore
          rw [Bool.and_eq_true,beq_iff_eq,beq_iff_eq] at hboth
          exact hasCommitRecord_iff.mpr ⟨p,hp,hboth.2⟩
        · cases horder
      | _ => simp [PstEvent.name,PstEventBody.name] at hname
  · intro e he p hp
    rcases List.mem_append.mp he with he | he
    · obtain ⟨i,hi,hi'⟩ := h.intended e he p hp
      exact ⟨i,List.mem_append_left _ hi,hi'⟩
    · rw [List.mem_singleton.mp he] at hp ⊢
      have hp : body = .purged p := hp
      subst hp
      simp only [PstEvent.validateOrder] at horder
      split at horder
      · next hbefore =>
        obtain ⟨i,hi,hboth⟩ := List.any_eq_true.mp hbefore
        rw [Bool.and_eq_true,beq_iff_eq,beq_iff_eq] at hboth
        exact ⟨i,List.mem_append_left _ hi,hboth⟩
      · cases horder

theorem Accountable.wrote {u : String} {events events' : List PstEvent}
    (h : Accountable u events) (hwrote : Wrote u events events') : Accountable u events' := by
  induction hwrote with
  | refl => exact h
  | tail _ hstep ih =>
    obtain ⟨body,hrecord⟩ := hstep
    exact ih.record hrecord

/-! ## Histories of one generation -/

/-- A recovery is called with the id and the uuid of one generation.  A switch and a restore check
this themselves. -/
def PstOp.Named (d : PstDisk) : PstOp → Prop
  | recoverGenerationSwitch importId importUuid _ =>
    ∀ r ∈ d.db.tables.imports, r.id = importId → r.importUuid = importUuid
  | _ => True

/-- What happens elsewhere: the manifest of the generation and its row stay as they are. -/
structure Elsewhere (u : String) (d d' : PstDisk) : Prop where
  manifest : d'.manifests u = d.manifests u
  row : ∀ r ∈ d'.db.tables.imports, r.importUuid = u → r ∈ d.db.tables.imports

/-- One step of a history: an operation on any generation, or anything elsewhere. -/
def HistoryStep (u : String) (d d' : PstDisk) : Prop :=
  (∃ op : PstOp, op.Named d ∧ OpStep op d d') ∨ Elsewhere u d d'

/-- A generation whose switch is recorded to the end cannot be switched to again. -/
def SwitchedOnce (u : String) (d : PstDisk) : Prop :=
  hasSuperseded (d.manifests u).events = true →
    ∀ r ∈ d.db.tables.imports, r.importUuid = u → r.isActive = true ∨ r.status.isComplete = false

/-- What a history keeps. -/
structure HistoryInvariant (u : String) (start : List PstEvent) (d : PstDisk) : Prop where
  wrote : Wrote u start (d.manifests u).events
  once : SwitchedOnce u d

section
variable {u : String} {start : List PstEvent} {d d' : PstDisk}

theorem Recorded.hasSuperseded_eq {events events' : List PstEvent} {v : String}
    {body : PstEventBody} (h : Recorded v events body events')
    (hbody : body.name ≠ .generationSuperseded) : hasSuperseded events' = hasSuperseded events := by
  rcases h.cases with ⟨rfl,-⟩ | ⟨now,rfl⟩
  · rfl
  · simp [hasSuperseded,List.any_append,PstEvent.name,hbody]

theorem hasSuperseded_of_prefix {events events' : List PstEvent} (h : events <+: events')
    (hs : hasSuperseded events = true) : hasSuperseded events' = true := by
  obtain ⟨e,he,hname⟩ := hasSuperseded_iff.mp hs
  exact hasSuperseded_iff.mpr ⟨e,h.subset he,hname⟩

/-- The row of a generation after an exchange: it is as it was, or active, or not complete. -/
theorem mem_exchanged {t : PstTables} {now : String} {shown retired : Nat}
    {onShown onRetired : PstImport → PstImport} {r : PstImport}
    (h : r ∈ (t.exchanged now shown retired onShown onRetired).imports) :
    r ∈ t.imports ∨ (∃ i, r = onShown i) ∨ ∃ i ∈ t.imports, i.id = retired ∧ r = onRetired i := by
  rcases Relational.mem_update.mp h with ⟨h,-⟩ | ⟨i,-,-,rfl⟩
  · rcases Relational.mem_update.mp h with ⟨h,-⟩ | ⟨i,hi,hid,rfl⟩
    · exact .inl h
    · exact .inr (.inr ⟨i,hi,by simpa using hid,rfl⟩)
  · exact .inr (.inl ⟨i,rfl⟩)

/-- A switch or a restore leaves no row that could be switched to and could not before. -/
theorem SwitchedOnce.of_exchange {t : PstTables} {now : String} {shown retired : Nat}
    {onShown : PstImport → PstImport} (hshown : ∀ i, (onShown i).isActive = true) {t' : PstTables}
    (ht : (t.exchanged now shown retired onShown (PstImport.superseded now)).AuditedFrom t')
    {r : PstImport} (hr : r ∈ t'.imports) :
    r ∈ t.imports ∨ r.isActive = true ∨ r.status.isComplete = false := by
  obtain ⟨audit,rfl⟩ := ht
  rcases mem_exchanged hr with h | ⟨i,rfl⟩ | ⟨i,-,-,rfl⟩
  · exact .inl h
  · exact .inr (.inl (hshown i))
  · exact .inr (.inr rfl)

/-- Steps that add no end of a switch to the manifest keep the invariant when they keep the row. -/
theorem HistoryInvariant.keep (h : HistoryInvariant u start d)
    (hwrote : Wrote u start (d'.manifests u).events)
    (hsuperseded : hasSuperseded (d'.manifests u).events = true →
      hasSuperseded (d.manifests u).events = true)
    (hrow : ∀ r ∈ d'.db.tables.imports, r.importUuid = u →
      r ∈ d.db.tables.imports ∨ r.isActive = true ∨ r.status.isComplete = false) :
    HistoryInvariant u start d' := by
  refine ⟨hwrote,fun hs r hr huuid => ?_⟩
  rcases hrow r hr huuid with hr | hr
  · exact h.once (hsuperseded hs) r hr huuid
  · exact hr

/-- What a crash leaves of a program that stopped at a spot. -/
theorem At.survivor {v : String} {s : Spot} {w : PstWorld} (hw : At d v s w)
    (hwrote : Wrote v (d.manifests v).events s.manifest.events)
    (hflushed : (d.manifests v).events.length ≤ s.flushed) (hd : w.Survives d') :
    d'.db = s.committed ∧ Wrote v (d.manifests v).events (d'.manifests v).events ∧
      (d'.manifests v).events <+: s.manifest.events ∧
      ∀ x, x ≠ v → d'.manifests x = d.manifests x := by
  obtain ⟨rfl,hm,hf⟩ := hw
  obtain ⟨hlow,hhigh⟩ := hd.between hwrote.isPrefix hflushed
  exact ⟨hd.db,hwrote.between hlow hhigh,hhigh,
    fun x hx => hd.untouched (hm x hx) (hf x hx).ge⟩

/-- The same for the invariant: an operation on another generation leaves the manifest, one on this
generation adds to it. -/
theorem HistoryInvariant.keep_of_stop (h : HistoryInvariant u start d) {v : String} {s : Spot}
    {w : PstWorld} (hw : At d v s w) (hwrote : Wrote v (d.manifests v).events s.manifest.events)
    (hflushed : (d.manifests v).events.length ≤ s.flushed) (hd : w.Survives d')
    (hsuperseded : hasSuperseded s.manifest.events = hasSuperseded (d.manifests v).events)
    (hrow : ∀ r ∈ s.committed.tables.imports, r.importUuid = u →
      r ∈ d.db.tables.imports ∨ r.isActive = true ∨ r.status.isComplete = false) :
    HistoryInvariant u start d' := by
  obtain ⟨hdb,hkept,hbelow,hothers⟩ := hw.survivor hwrote hflushed hd
  by_cases hv : u = v
  · subst hv
    refine h.keep (h.wrote.trans hkept) (fun hs => ?_) (by rwa [hdb])
    rw [← hsuperseded]
    exact hasSuperseded_of_prefix hbelow hs
  · rw [← hdb] at hrow
    exact h.keep (by rw [hothers u hv]; exact h.wrote) (by rw [hothers u hv]; exact id) hrow

/-- An operation on single messages leaves the imports alone. -/
theorem HistoryInvariant.keep_of_keeping (h : HistoryInvariant u start d) {w : PstWorld}
    (hw : Keeping d (fun t => t.imports = d.db.tables.imports)
      (fun v events => hasSuperseded events = hasSuperseded (d.manifests v).events) w)
    (hd : w.Survives d') : HistoryInvariant u start d' := by
  obtain ⟨himports,hwrote⟩ := hw.survives hd
  refine h.keep (h.wrote.trans (hwrote u).1) (fun hs => ?_) fun r hr _ => .inl (himports ▸ hr)
  rw [← hw.events u]
  exact hasSuperseded_of_prefix (hwrote u).2 hs

theorem Unswitched.wrote {v old : String} {s : Spot} (hs : Unswitched d v old s) :
    Wrote v (d.manifests v).events s.manifest.events ∧
      hasSuperseded s.manifest.events = hasSuperseded (d.manifests v).events := by
  have hrefl : Wrote v (d.manifests v).events (d.manifests v).events :=
    Relation.ReflTransGen.refl
  rcases hs.events with heq | ⟨prepared,hprepared,heq | hcommitted⟩
  · rw [heq]
    exact ⟨hrefl,rfl⟩
  · rw [heq]
    exact ⟨hrefl.record hprepared,hprepared.hasSuperseded_eq (by simp [PstEventBody.name])⟩
  · exact ⟨(hrefl.record hprepared).record hcommitted,
      (hcommitted.hasSuperseded_eq (by simp [PstEventBody.name])).trans (hprepared.hasSuperseded_eq (by simp [PstEventBody.name]))⟩

theorem HasSwitched.wrote {v old : String} {env : PstEnv} {newId oldId : Nat} {s : Spot}
    (hs : HasSwitched d v old env newId oldId s) :
    Wrote v (d.manifests v).events s.manifest.events ∧
      (d.manifests v).events.length ≤ s.flushed := by
  obtain ⟨prepared,recorded,hprepared,hrecorded,hlength,hevents⟩ := hs.events
  have hwrote : Wrote v (d.manifests v).events recorded :=
    (Relation.ReflTransGen.refl.tail ⟨_,hprepared⟩).tail ⟨_,hrecorded⟩
  refine ⟨?_,hwrote.isPrefix.length_le.trans hlength⟩
  rcases hevents with heq | hsuperseded
  · rw [heq]
    exact hwrote
  · exact hwrote.record hsuperseded

/-- After its own switch the row of a generation is active. -/
theorem HasSwitched.row_active {old : String} {env : PstEnv} {newId oldId : Nat} {s : Spot}
    (hs : HasSwitched d u old env newId oldId s) {r : PstImport}
    (hr : r ∈ s.committed.tables.imports) (huuid : r.importUuid = u) : r.isActive = true := by
  obtain ⟨v,hv⟩ := hs.verified
  obtain ⟨⟨record,hrecord,hrecordUuid⟩,-⟩ := verification_ok hv
  obtain ⟨hmem,hid⟩ := PstTables.findImport_eq_some hrecord
  obtain ⟨now,db,hok,-,audit,haudit⟩ := hs.committed
  obtain ⟨newRow,oldRow,hpair,rfl,rfl,htables⟩ := PstRepository.activateGeneration_ok_iff.mp hok
  have hrow : newRow.activated ∈ s.committed.tables.imports := by
    rw [haudit,htables]
    exact (Activatable.rows_exchanged d.db.valid hpair now).1
  have hsame : newRow = record := d.db.valid.import_eq hpair.memNew hmem hid.symm
  have huuid' : newRow.activated.importUuid = u := by
    rw [hsame]
    exact hrecordUuid
  have heq : r = newRow.activated := by
    refine s.committed.valid.importUuid.eq_of_key hr hrow rfl ?_
    simp [huuid,huuid']
  rw [heq]
  rfl

theorem HistoryInvariant.step (h : HistoryInvariant u start d)
    (hstart : ∀ e ∈ start, ¬ e.IsLifecycle) (hstep : HistoryStep u d d') :
    HistoryInvariant u start d' := by
  rcases hstep with ⟨op,hnamed,env,tick,hd⟩ | helsewhere
  case inr =>
    refine h.keep (by rw [helsewhere.manifest]; exact h.wrote)
      (by rw [helsewhere.manifest]; exact id) fun r hr huuid => ?_
    exact .inl (helsewhere.row r hr huuid)
  have hopened : Keeping d (fun t => t.imports = d.db.tables.imports)
      (fun v events => hasSuperseded events = hasSuperseded (d.manifests v).events)
      (d.opened tick) := by
    apply Keeping.opened
    · rfl
    · exact fun _ => rfl
  cases op with
  | switchGeneration gated newId v oldId old =>
    obtain ⟨s,hs,hw⟩ := switchGeneration_stopped d v old env gated newId oldId tick
    rcases hs with hs | hs
    · obtain ⟨hwrote,hsuperseded⟩ := hs.wrote
      refine h.keep_of_stop hw hwrote hs.flushed hd hsuperseded fun r hr _ => ?_
      rw [hs.committed] at hr
      exact .inl hr
    · obtain ⟨hwrote,hflushed⟩ := hs.wrote
      obtain ⟨hdb,hkept,-,hothers⟩ := hw.survivor hwrote hflushed hd
      by_cases hv : u = v
      · subst hv
        refine ⟨h.wrote.trans hkept,fun _ r hr huuid => ?_⟩
        rw [hdb] at hr
        exact .inl (hs.row_active hr huuid)
      · refine h.keep (by rw [hothers u hv]; exact h.wrote) (by rw [hothers u hv]; exact id)
          fun r hr _ => ?_
        obtain ⟨now,db,hok,-,haudit⟩ := hs.committed
        obtain ⟨-,-,-,-,-,htables⟩ := PstRepository.activateGeneration_ok_iff.mp hok
        rw [hdb] at hr
        rw [htables] at haudit
        exact SwitchedOnce.of_exchange (fun _ => rfl) haudit hr
  | restoreGeneration gated importId v old =>
    obtain ⟨s,hs,hw⟩ := restoreGeneration_stopped d v old env gated importId tick
    have hrefl : Wrote v (d.manifests v).events (d.manifests v).events :=
      Relation.ReflTransGen.refl
    rcases hs with hs | hs
    · have hrow : ∀ r ∈ s.committed.tables.imports, r.importUuid = u →
          r ∈ d.db.tables.imports ∨ r.isActive = true ∨ r.status.isComplete = false := by
        rw [hs.committed]
        exact fun r hr _ => .inl hr
      rcases hs.events with heq | hrecord
      · exact h.keep_of_stop hw (heq ▸ hrefl) hs.flushed hd (by rw [heq]) hrow
      · exact h.keep_of_stop hw (hrefl.record hrecord) hs.flushed hd
          (hrecord.hasSuperseded_eq (by simp [PstEventBody.name])) hrow
    · refine h.keep_of_stop hw (hrefl.record hs.events)
        (hs.events.isPrefix.length_le.trans hs.flushed) hd
        (hs.events.hasSuperseded_eq (by simp [PstEventBody.name])) fun r hr _ => ?_
      obtain ⟨now,db,hok,haudit⟩ := hs.committed
      obtain ⟨-,current,-,-,-,-,htables⟩ := PstRepository.restoreGeneration_ok_iff.mp hok
      rw [htables] at haudit
      exact SwitchedOnce.of_exchange (fun _ => rfl) haudit hr
  | recoverGenerationSwitch importId v replacesId =>
    obtain ⟨s,hw,hmanifest,hflushed,hcommitted⟩ := recoverGenerationSwitch_stopped d v env importId
      replacesId tick
    obtain ⟨hdb,-,-,hothers⟩ := hw.survivor (by rw [hmanifest]; exact Relation.ReflTransGen.refl)
      hflushed.ge hd
    have hkept : d'.manifests v = d.manifests v :=
      hd.untouched ((congrArg Spot.manifest hw.spot).trans hmanifest)
        (((congrArg Spot.flushed hw.spot).trans hflushed).ge)
    have hsame : d'.manifests u = d.manifests u := by
      by_cases hv : u = v
      · rw [hv,hkept]
      · exact hothers u hv
    refine ⟨hsame ▸ h.wrote,fun hs r hr huuid => ?_⟩
    rw [hsame] at hs
    rw [hdb] at hr
    rcases hcommitted with heq | ⟨now,hok,hrecord⟩
    · rw [heq] at hr
      exact h.once hs r hr huuid
    · obtain ⟨newRow,hnew,oldRow,hold,rfl,rfl,-,hcase⟩ :=
        PstRepository.rollbackGenerationSwitch_ok_iff.mp hok
      rcases hcase with ⟨-,-,htables⟩ | ⟨-,-,heq⟩
      · by_cases hv : u = v
        · -- Its own recovery does nothing once the switch is recorded.
          subst hv
          have hacc := (accountable_of_none (u := u) hstart).wrote h.wrote
          rw [hacc.committed hs] at hrecord
          cases hrecord
        · rw [htables] at hr
          rcases mem_exchanged hr with hr | ⟨i,rfl⟩ | ⟨i,hi,hid,rfl⟩
          · exact h.once hs r hr huuid
          · exact .inl rfl
          · exact absurd (huuid.symm.trans (hnamed i hi hid)) hv
      · rw [heq] at hr
        exact h.once hs r hr huuid
  | trash ids trashedAt =>
    refine h.keep_of_keeping ((trashPst_keeps ?_).final hopened) hd
    exact fun _ _ _ hrepo => hrepo
  | untrash ids =>
    refine h.keep_of_keeping ((untrashPst_keeps ?_).final hopened) hd
    exact fun _ _ _ hrepo => hrepo
  | purge v ids =>
    refine h.keep_of_keeping
      ((purgePst_keeps ?_ ?_ ids).final hopened) hd
    · exact ⟨fun _ _ h => h,fun _ _ h => h,fun _ _ h => h,fun _ _ h => h⟩
    · rintro p events events' hk (hrecord | hrecord)
      · exact (hrecord.hasSuperseded_eq (by simp [PstEventBody.name])).trans hk
      · exact (hrecord.hasSuperseded_eq (by simp [PstEventBody.name])).trans hk

/-- Every history keeps it. -/
theorem HistoryInvariant.run (hstart : ∀ e ∈ (d.manifests u).events, ¬ e.IsLifecycle)
    (hrun : Relation.ReflTransGen (HistoryStep u) d d') :
    HistoryInvariant u (d.manifests u).events d' := by
  induction hrun with
  | refl =>
    refine ⟨Relation.ReflTransGen.refl,fun hs => ?_⟩
    obtain ⟨e,he,hname⟩ := hasSuperseded_iff.mp hs
    exact absurd (PstEvent.isLifecycle_of_superseded hname) (hstart e he)
  | tail _ hstep ih => exact ih.step hstart hstep

end

/-! ## The next operation -/

/-- The operation returned, and what it appended is in the manifest behind what was there. -/
def LeavesEvent {α : Type} (d : PstDisk) (u : String) (r : Except Failure α × PstWorld) : Prop :=
  (∃ a, r.1 = .ok a) ∧
    ∃ e added, (r.2.manifests u).events = (d.manifests u).events ++ e :: added

/-- The preconditions of a switch. -/
structure SwitchReady (env : PstEnv) (d : PstDisk) (newRow oldRow : PstImport) : Prop where
  pair : d.db.tables.Activatable newRow oldRow
  verified : ∃ v, verification env d.db.tables (d.manifests newRow.importUuid) d.files newRow.id
    newRow.importUuid false = .ok v
  alone : ∀ i ∈ d.db.tables.imports, i.isActive = true → i.id ≠ newRow.id → i.id ≠ oldRow.id →
    i.sourceSha256 ≠ newRow.sourceSha256

theorem SwitchReady.accepted {env : PstEnv} {d : PstDisk} {newRow oldRow : PstImport}
    (h : SwitchReady env d newRow oldRow) (now : String) :
    ∃ db, d.db.activateGeneration now newRow.id oldRow.id = .ok db := by
  have hvalid := (d.db.valid.exchanged_iff now oldRow.id (exchanges_activate now) h.pair.memNew
    rfl).mpr h.alone
  exact ⟨⟨_,hvalid⟩,PstRepository.activateGeneration_ok_iff.mpr
    ⟨newRow,oldRow,h.pair,rfl,rfl,rfl⟩⟩

section
variable {d : PstDisk} {u : String} {env : PstEnv} {gated : Bool}

theorem LeavesEvent.of_triple {α : Type} {p : Pst α} {tick : Nat}
    (h : Triple (At d u (d.spot u)) p (fun _ w => ∃ s, At d u s w ∧
      ∃ e added, s.manifest.events = (d.manifests u).events ++ e :: added) fun _ _ => False) :
    LeavesEvent d u (p (d.opened tick)) := by
  have hrun := h _ (d.at_opened u tick)
  revert hrun
  cases p (d.opened tick) with
  | mk result w =>
    cases result with
    | ok a =>
      intro ⟨s,hw,hevents⟩
      have hmanifest : w.manifests u = s.manifest := congrArg Spot.manifest hw.spot
      exact ⟨⟨a,rfl⟩,by rw [hmanifest]; exact hevents⟩
    | error f => exact False.elim

/-- An event behind what was there and more. -/
theorem grows_of_append {start events events' : List PstEvent} {e : PstEvent}
    (h : start <+: events) (hgrown : events' = events ++ [e]) :
    ∃ e added, events' = start ++ e :: added := by
  obtain ⟨rest,rfl⟩ := h
  subst hgrown
  cases rest with
  | nil => exact ⟨e,[],by simp⟩
  | cons r rest => exact ⟨r,rest ++ [e],by simp⟩

theorem key_prepared {p : PstEvent} {now old : String}
    (h : p.key = PstEvent.key ⟨u,now,.generationSwitchPrepared old⟩) :
    p.importUuid = u ∧ p.body = .generationSwitchPrepared old := by
  obtain ⟨_,_,body⟩ := p
  cases body <;> simp_all [PstEvent.key,PstEvent.name,PstEventBody.name,PstEventBody.keyFields]

theorem key_committed {p : PstEvent} {now old : String}
    (h : p.key = PstEvent.key ⟨u,now,.generationSwitchCommitted old⟩) :
    p.importUuid = u ∧ p.body = .generationSwitchCommitted old := by
  obtain ⟨_,_,body⟩ := p
  cases body <;> simp_all [PstEvent.key,PstEvent.name,PstEventBody.name,PstEventBody.keyFields]

/-- A switch whose end is not recorded yet leaves the record of its end. -/
theorem switchGeneration_leaves (hcalm : env.Calm) {newRow oldRow : PstImport}
    (hready : SwitchReady env d newRow oldRow)
    (hnone : hasSuperseded (d.manifests newRow.importUuid).events = false) (tick : Nat) :
    LeavesEvent d newRow.importUuid (switchGeneration env gated newRow.id newRow.importUuid
      oldRow.id oldRow.importUuid (d.opened tick)) := by
  obtain ⟨v,hv⟩ := hready.verified
  refine LeavesEvent.of_triple ?_
  refine (At.calm_call At.query_rule hcalm).seq fun newRecord => Triple.assume fun hnew => ?_
  refine (At.calm_call At.query_rule hcalm).seq fun oldRecord => Triple.assume fun hold => ?_
  have hnew : newRecord = some newRow :=
    hnew.trans (d.db.valid.findImport_of_mem hready.pair.memNew)
  have hold : oldRecord = some oldRow :=
    hold.trans (d.db.valid.findImport_of_mem hready.pair.memOld)
  subst hnew hold
  have hguard : (newRow.isActive || !oldRow.isActive || newRow.replacesId != some oldRow.id ||
      oldRow.importUuid != oldRow.importUuid) = false := by
    simp [hready.pair.inactive,hready.pair.active,hready.pair.replaces]
  simp only [hguard,Bool.false_eq_true,if_false]
  refine (At.calm_verify hcalm hv).seq fun _ => ?_
  refine (At.calm_ensure hcalm).seq fun _ => ?_
  refine (At.calm_append hcalm fun now =>
    appendPstEvent_ok now (fun p _ => key_prepared) rfl).seq fun _ =>
      Triple.choose fun prepared => Triple.assume fun hprepared => ?_
  refine (At.calm_call At.flush_rule hcalm).seq fun _ => ?_
  refine (At.calm_ensure hcalm).seq fun _ => ?_
  refine (At.calm_call (At.begin_rule rfl) hcalm).seq fun _ => ?_
  have htransaction : Triple (At d newRow.importUuid
      { ((d.spot newRow.importUuid).withEvents prepared).flushedAll with inBatch := true })
      (do
        ensureWriteAllowed env gated
        let now ← pstTimestamp env
        writePst env (PstRepository.activateGeneration now newRow.id oldRow.id)
        ensureWriteAllowed env gated
        appendPst env newRow.importUuid (.generationSwitchCommitted oldRow.importUuid)
        ensureWriteAllowed env gated
        flushPst env newRow.importUuid
        ensureWriteAllowed env gated
        commitPstBatch env)
      (fun _ w => ∃ s, At d newRow.importUuid s w ∧
        Recorded newRow.importUuid prepared (.generationSwitchCommitted oldRow.importUuid)
          s.manifest.events) fun _ _ => False := by
    refine (At.calm_ensure hcalm).seq fun _ => At.timestamp_rule.seq fun now => ?_
    obtain ⟨db,hdb⟩ := hready.accepted now
    refine (At.calm_write hcalm hdb).seq fun _ => (At.calm_ensure hcalm).seq fun _ => ?_
    refine (At.calm_append hcalm fun now =>
      appendPstEvent_ok now (fun p _ => key_committed) ?_).seq fun _ =>
        Triple.choose fun recorded => Triple.assume fun hrecorded => ?_
    · obtain ⟨e,he,himport,hbody⟩ := hprepared.exists_body
      simp only [PstEvent.validateOrder]
      rw [if_pos]
      exact List.any_eq_true.mpr ⟨e,he,by simp [himport,hbody]⟩
    refine (At.calm_ensure hcalm).seq fun _ => (At.calm_call At.flush_rule hcalm).seq fun _ => ?_
    refine (At.calm_ensure hcalm).seq fun _ => ?_
    refine (At.calm_call At.commit_rule hcalm).strengthen_post ?_
    exact fun _ w hw => ⟨_,hw,hrecorded⟩
  refine (catching_rule htransaction (fun _ _ h => h.elim) fun _ h => h).seq fun _ =>
    Triple.choose fun s => ?_
  refine Triple.weaken_pre (Triple.assume (P := At d newRow.importUuid s) fun hrecorded => ?_)
    fun w h => h
  refine (At.calm_ensure hcalm).seq fun _ => ?_
  -- No end of a switch was recorded before, so this one is new.
  have hstill : hasSuperseded s.manifest.events = false := by
    rw [hrecorded.hasSuperseded_eq (by simp [PstEventBody.name]),
      hprepared.hasSuperseded_eq (by simp [PstEventBody.name])]
    exact hnone
  have hkey : ∀ p ∈ s.manifest.events, ∀ now, p.key ≠
      PstEvent.key ⟨newRow.importUuid,now,.generationSuperseded oldRow.importUuid⟩ := by
    intro p hp now heq
    have hsuperseded := hasSuperseded_iff.mpr ⟨p,hp,congrArg Prod.fst heq⟩
    rw [hstill] at hsuperseded
    cases hsuperseded
  refine (At.calm_append hcalm fun now =>
    appendPstEvent_ok now (fun p hp heq => absurd heq (hkey p hp now)) ?_).seq fun _ =>
      Triple.choose fun events => Triple.assume fun hevents => ?_
  · obtain ⟨e,he,himport,hbody⟩ := hrecorded.exists_body
    simp only [PstEvent.validateOrder]
    rw [if_pos]
    exact List.any_eq_true.mpr ⟨e,he,by simp [himport,PstEvent.name,hbody,PstEventBody.name]⟩
  refine (At.calm_ensure hcalm).seq fun _ => (At.calm_call At.flush_rule hcalm).seq fun _ => ?_
  refine (At.calm_ensure hcalm).seq fun _ => ?_
  refine (At.audit_rule.weaken_error fun f w h => hcalm.not_faulty h.2).seq fun _ =>
    Triple.choose fun db => Triple.assume fun _ => Triple.ret fun w hw => ⟨_,hw,?_⟩
  obtain ⟨now,hnew⟩ := hevents.grows hkey
  rw [Spot.wrote_manifest]
  exact grows_of_append (hprepared.isPrefix.trans hrecorded.isPrefix) hnew

end

/-- The preconditions of a restore. -/
structure RestoreReady (env : PstEnv) (d : PstDisk) (target : PstImport) : Prop where
  restorable : d.db.tables.Restorable target
  verified : ∃ v, verification env d.db.tables (d.manifests target.importUuid) d.files target.id
    target.importUuid true = .ok v
  replaced : ∃ current, d.db.tables.newestActive target.id = some current ∧
    current.Replaces target.id ∧ ∀ i ∈ d.db.tables.imports, i.isActive = true → i.id ≠ target.id →
      i.id ≠ current.id → i.sourceSha256 ≠ target.sourceSha256

theorem RestoreReady.accepted {env : PstEnv} {d : PstDisk} {target : PstImport}
    (h : RestoreReady env d target) (now : String) :
    ∃ db, d.db.restoreGeneration now target.id = .ok db := by
  obtain ⟨current,hcurrent,hreplaces,halone⟩ := h.replaced
  have hvalid := (d.db.valid.exchanged_iff now current.id (exchanges_restore now) h.restorable.mem
    rfl).mpr halone
  exact ⟨⟨_,hvalid⟩,PstRepository.restoreGeneration_ok_iff.mpr
    ⟨target,current,h.restorable,rfl,hcurrent,hreplaces,rfl⟩⟩

/-- The manifest has no record of a restore. -/
def NeverRestored (events : List PstEvent) : Prop :=
  ∀ e ∈ events, e.name ≠ .generationRestored

section
variable {d : PstDisk} {u : String} {env : PstEnv} {gated : Bool}

theorem PstImport.restored_mem {t : PstTables} {now : String} {id retired : Nat}
    {onRetired : PstImport → PstImport} (hne : retired ≠ id) {target : PstImport}
    (htarget : target ∈ t.imports) (hid : target.id = id) :
    target.restored ∈
      (t.exchanged now id retired PstImport.restored onRetired).imports := by
  have hmiddle : target ∈ Relational.update (fun i => i.id == retired) onRetired t.imports :=
    Relational.mem_update.mpr (.inl ⟨htarget,by rw [hid]; simpa using hne.symm⟩)
  exact Relational.mem_update.mpr (.inr ⟨target,hmiddle,by simp [hid],rfl⟩)

/-- The first restore of a generation leaves its record. -/
theorem restoreGeneration_leaves (hcalm : env.Calm) {target : PstImport}
    (hready : RestoreReady env d target)
    (hnever : NeverRestored (d.manifests target.importUuid).events) (old : String) (tick : Nat) :
    LeavesEvent d target.importUuid
      (restoreGeneration env gated target.id target.importUuid old (d.opened tick)) := by
  obtain ⟨v,hv⟩ := hready.verified
  have hkey : ∀ p ∈ (d.manifests target.importUuid).events, ∀ now, p.key ≠
      PstEvent.key ⟨target.importUuid,now,.generationRestored target.importUuid old⟩ :=
    fun p hp now heq => hnever p hp (congrArg Prod.fst heq)
  refine LeavesEvent.of_triple ?_
  refine (At.calm_verify hcalm hv).seq fun _ => (At.calm_ensure hcalm).seq fun _ => ?_
  refine (At.calm_call (At.begin_rule rfl) hcalm).seq fun _ => ?_
  have htransaction : Triple (At d target.importUuid { d.spot target.importUuid with inBatch := true })
      (do
        ensureWriteAllowed env gated
        let now ← pstTimestamp env
        writePst env (PstRepository.restoreGeneration now target.id)
        ensureWriteAllowed env gated
        appendPst env target.importUuid (.generationRestored target.importUuid old)
        ensureWriteAllowed env gated
        flushPst env target.importUuid
        ensureWriteAllowed env gated
        commitPstBatch env)
      (fun _ w => ∃ s, At d target.importUuid s w ∧
        (Recorded target.importUuid (d.manifests target.importUuid).events
          (.generationRestored target.importUuid old) s.manifest.events ∧
        ∃ now, d.db.restoreGeneration now target.id = .ok s.db)) fun _ _ => False := by
    refine (At.calm_ensure hcalm).seq fun _ => At.timestamp_rule.seq fun now => ?_
    obtain ⟨db,hdb⟩ := hready.accepted now
    refine (At.calm_write hcalm hdb).seq fun _ => (At.calm_ensure hcalm).seq fun _ => ?_
    refine (At.calm_append hcalm fun now =>
      appendPstEvent_ok now (fun p hp heq => absurd heq (hkey p hp now)) rfl).seq fun _ =>
        Triple.choose fun recorded => Triple.assume fun hrecorded => ?_
    refine (At.calm_ensure hcalm).seq fun _ => (At.calm_call At.flush_rule hcalm).seq fun _ => ?_
    refine (At.calm_ensure hcalm).seq fun _ => ?_
    refine (At.calm_call At.commit_rule hcalm).strengthen_post ?_
    exact fun _ w hw => ⟨_,hw,hrecorded,now,hdb⟩
  refine (catching_rule htransaction (fun _ _ h => h.elim) fun _ h => h).seq fun _ =>
    Triple.choose fun s => Triple.assume fun ⟨hrecorded,now,hdb⟩ => ?_
  refine (At.calm_call At.query_rule hcalm).seq fun restored => Triple.assume fun hrestored => ?_
  -- The row that was restored is there.
  obtain ⟨row,current,-,hid,hcurrent,-,htables⟩ := PstRepository.restoreGeneration_ok_iff.mp hdb
  have hne : current.id ≠ target.id := (PstTables.newestActive_eq_some hcurrent).2.2.1
  have hmem : target.restored ∈ s.db.tables.imports := by
    rw [htables]
    exact PstImport.restored_mem hne hready.restorable.mem rfl
  have hfound : restored = some target.restored :=
    hrestored.trans (s.db.valid.findImport_of_mem hmem)
  subst hfound
  refine (At.calm_ensure hcalm).seq fun _ => ?_
  refine (At.audit_rule.weaken_error fun f w h => hcalm.not_faulty h.2).seq fun _ =>
    Triple.choose fun db => Triple.assume fun _ => Triple.ret fun w hw => ⟨_,hw,?_⟩
  obtain ⟨now,hnew⟩ := hrecorded.grows hkey
  rw [Spot.wrote_manifest]
  exact grows_of_append List.prefix_rfl hnew

/-- A later one is refused or leaves none. -/
theorem restoreGeneration_leaves_iff (hcalm : env.Calm) {target : PstImport}
    (hready : RestoreReady env d target)
    (hacc : Accountable target.importUuid (d.manifests target.importUuid).events) (old : String)
    (tick : Nat) :
    LeavesEvent d target.importUuid
        (restoreGeneration env gated target.id target.importUuid old (d.opened tick)) ↔
      NeverRestored (d.manifests target.importUuid).events := by
  refine ⟨fun hleaves e he hname => ?_,fun h => restoreGeneration_leaves hcalm hready h old tick⟩
  obtain ⟨⟨v,hok⟩,e',added,hgrown⟩ := hleaves
  have hstops := @restoreGeneration_stops d target.importUuid old env gated target.id _
    (d.at_opened target.importUuid tick)
  revert hstops hok hgrown
  cases restoreGeneration env gated target.id target.importUuid old (d.opened tick) with
  | mk result w =>
    rintro rfl hgrown ⟨s,hs,hw⟩
    have hmanifest : w.manifests target.importUuid = s.manifest := congrArg Spot.manifest hw.spot
    have hkey : e.key = PstEvent.key ⟨target.importUuid,"",
        .generationRestored target.importUuid old⟩ := by
      have himport := hacc.importUuid e he
      obtain ⟨_,_,body⟩ := e
      cases body <;> simp_all [PstEvent.key,PstEvent.name,PstEventBody.name,
        PstEventBody.keyFields,PstEvent.IsLifecycle]
    have hsame := hs.events.swallowed ⟨e,he,hkey⟩
    have hgrown : (w.manifests target.importUuid).events = _ := hgrown
    rw [hmanifest,hsame] at hgrown
    have hlength := congrArg List.length hgrown
    simp at hlength

end

/-- The manifest has no purge of the item, and no intent of one with other contents. -/
structure PurgeUnrecorded (u : String) (events : List PstEvent) (p : PstPurge) : Prop where
  intent : ∀ e ∈ events, e.key = PstEvent.key ⟨u,"",.purgeIntent p⟩ → e.body = .purgeIntent p
  purged : ∀ e ∈ events, e.key ≠ PstEvent.key ⟨u,"",.purged p⟩

section
variable {d : PstDisk} {u : String} {env : PstEnv} {s : Spot}

theorem finishPstPurge_calm (hcalm : env.Calm) (hs : s.inBatch = false) (message : Message)
    (physicalDelete : Bool) :
    Triple (At d u s) (finishPstPurge env message physicalDelete)
      (fun _ w => ∃ s', At d u s' w ∧ s'.manifest = s.manifest) fun _ _ => False := by
  refine (At.calm_call (At.begin_rule hs) hcalm).seq fun _ => ?_
  have hcontents := s.db.valid.deleteMessageContents message.id
  refine (At.calm_write hcalm (PstRepository.exec_of_valid hcontents)).seq fun _ => ?_
  have hstorage := hcontents.updateMessageStorage message.id none none
  refine (At.calm_write hcalm (PstRepository.exec_of_valid hstorage)).seq fun _ => ?_
  have hstate := hstorage.setLocalState message.id .purged none
  refine (At.calm_write hcalm (PstRepository.exec_of_valid hstate)).seq fun _ => ?_
  refine (At.calm_call At.query_rule hcalm).seq fun audited => Triple.assume fun _ => ?_
  split
  · refine (At.calm_call At.commit_rule hcalm).strengthen_post ?_
    exact fun _ w hw => ⟨_,hw,by simp [Spot.batchCommitted]⟩
  · refine At.timestamp_rule.seq fun now => ?_
    have haudit := hstate.recordAudit (purgeAudit message now physicalDelete)
    refine (At.calm_write hcalm (PstRepository.exec_of_valid haudit)).seq fun _ => ?_
    refine (At.calm_call At.commit_rule hcalm).strengthen_post ?_
    exact fun _ w hw => ⟨_,hw,by simp [Spot.batchCommitted]⟩

/-- The file is deleted or was not there; no more than that changes. -/
theorem deletePst_rule (relativePath : String) :
    Triple (At d u s) (deletePst env relativePath)
      (fun _ w => ∃ files, At d u { s with files := files } w)
      fun f w => At d u s w ∧ env.Faulty f := by
  refine At.call_rule.seq fun _ => ?_
  refine (Triple.read (Q := fun _ => At d u s) fun w hw => hw).seq fun w => ?_
  split
  · refine At.call_rule.seq fun _ => ?_
    refine (Triple.write (Q := fun _ w => ∃ files, At d u { s with files := files } w) ?_).seq
      fun _ => Triple.ret fun w hw => hw
    rintro w ⟨rfl,hm,hf⟩
    exact ⟨w.files.filter fun f => f.1 != relativePath,rfl,hm,hf⟩
  · exact Triple.ret fun w hw => ⟨s.files,hw⟩

end

section
variable {d : PstDisk} {u : String} {env : PstEnv} {m : Message} {path hash : String}

/-- The event of the purge of a message. -/
def PstDisk.purgeOf (d : PstDisk) (u : String) (m : Message) (path hash : String) : PstPurge :=
  pstPurge m path hash
    (d.db.tables.countGenerationPathReferences m.accountId u path m.id)

/-- A purge that ends has both its events in the manifest. -/
theorem completePstPurge_records (hpath : m.relativePath = some path) (hpath' : path ≠ "")
    (hhash : m.fileHash = some hash) (hhash' : hash ≠ "") :
    Triple (At d u (d.spot u)) (completePstPurge env u m)
      (fun _ w => ∃ intended, Recorded u (d.manifests u).events
          (.purgeIntent (d.purgeOf u m path hash)) intended ∧
        Recorded u intended (.purged (d.purgeOf u m path hash)) (w.manifests u).events)
      fun _ _ => True := by
  unfold completePstPurge
  simp only [hpath,hhash,hpath',hhash',or_self,if_false]
  refine (At.query_rule.weaken_error fun _ _ _ => trivial).seq fun count =>
    Triple.assume fun hcount => ?_
  subst hcount
  refine (At.append_rule.weaken_error fun _ _ _ => trivial).seq fun _ =>
    Triple.choose fun intended => Triple.assume fun hintended => ?_
  refine (At.flush_rule.weaken_error fun _ _ _ => trivial).seq fun _ => ?_
  refine Triple.seq (Q := fun _ w => ∃ files, At d u
    { ((d.spot u).withEvents intended).flushedAll with files := files } w) ?_ fun deleted => ?_
  · split
    · exact (deletePst_rule path).weaken_error fun _ _ _ => trivial
    · exact Triple.ret fun w hw => ⟨_,hw⟩
  refine Triple.choose fun files => ?_
  refine (At.append_rule.weaken_error fun _ _ _ => trivial).seq fun _ =>
    Triple.choose fun purged => Triple.assume fun hpurged => ?_
  refine (At.flush_rule.weaken_error fun _ _ _ => trivial).seq fun _ => ?_
  have hkeeps : Triple (Keeping d (fun _ => True) fun v events => v = u → events = purged)
      (finishPstPurge env m (d.db.tables.countGenerationPathReferences m.accountId u path m.id == 0))
      (fun _ => Keeping d (fun _ => True) fun v events => v = u → events = purged)
      fun _ => Keeping d (fun _ => True) fun v events => v = u → events = purged :=
    finishPstPurge_keeps ⟨fun _ _ _ => trivial,fun _ _ _ => trivial,fun _ _ _ => trivial,
      fun _ _ _ => trivial⟩ m _
  refine (hkeeps.consequence (fun w hw => ?_) (fun _ _ h => h) fun _ _ _ => trivial).seq fun _ =>
    Triple.ret fun w hw => ⟨intended,hintended,by rw [hw.events u rfl]; exact hpurged⟩
  obtain ⟨hspot,hm,hf⟩ := hw
  have hevents : (w.manifests u).events = purged :=
    congrArg (fun s : Spot => s.manifest.events) hspot
  have hwrote : Wrote u (d.manifests u).events purged :=
    (Relation.ReflTransGen.refl.tail ⟨_,hintended⟩).tail ⟨_,hpurged⟩
  refine ⟨fun v => ?_,fun v => ?_,trivial,trivial,fun v hv => hv ▸ hevents⟩
  · by_cases hv : v = u
    · rw [hv,show w.flushed u = purged.length from congrArg Spot.flushed hspot]
      exact hwrote.isPrefix.length_le
    · exact (hf v hv).ge
  · by_cases hv : v = u
    · rw [hv,hevents]
      exact hwrote
    · rw [hm v hv]
      exact Relation.ReflTransGen.refl

theorem completePstPurge_leaves (hcalm : env.Calm) (hpath : m.relativePath = some path)
    (hpath' : path ≠ "") (hhash : m.fileHash = some hash) (hhash' : hash ≠ "")
    (hacc : Accountable u (d.manifests u).events)
    (h : PurgeUnrecorded u (d.manifests u).events (d.purgeOf u m path hash)) (tick : Nat) :
    LeavesEvent d u (completePstPurge env u m (d.opened tick)) := by
  refine LeavesEvent.of_triple ?_
  unfold completePstPurge
  simp only [hpath,hhash,hpath',hhash',or_self,if_false]
  refine (At.calm_call At.query_rule hcalm).seq fun count => Triple.assume fun hcount => ?_
  subst hcount
  refine (At.calm_append hcalm fun now => appendPstEvent_ok now (fun p hp heq => ?_) rfl).seq
    fun _ => Triple.choose fun intended => Triple.assume fun hintended => ?_
  · have hbody := h.intent p hp heq
    exact ⟨hacc.importUuid p hp (by simp [PstEvent.IsLifecycle,hbody]),hbody⟩
  refine (At.calm_call At.flush_rule hcalm).seq fun _ => ?_
  refine Triple.seq (Q := fun _ w => ∃ files, At d u
    { ((d.spot u).withEvents intended).flushedAll with files := files } w) ?_ fun deleted => ?_
  · split
    · exact At.calm_call (deletePst_rule path) hcalm
    · exact Triple.ret fun w hw => ⟨_,hw⟩
  refine Triple.choose fun files => ?_
  have hkey : ∀ p ∈ intended, ∀ now, p.key ≠
      PstEvent.key ⟨u,now,.purged (d.purgeOf u m path hash)⟩ := by
    intro p hp now heq
    rcases hintended.mem hp with hp | ⟨-,hbody⟩
    · exact h.purged p hp heq
    · have hname := congrArg Prod.fst heq
      simp [PstEvent.key,PstEvent.name,hbody,PstEventBody.name] at hname
  refine (At.calm_append hcalm fun now =>
    appendPstEvent_ok now (fun p hp heq => absurd heq (hkey p hp now)) ?_).seq fun _ =>
      Triple.choose fun purged => Triple.assume fun hpurged => ?_
  · obtain ⟨e,he,himport,hbody⟩ := hintended.exists_body
    simp only [PstEvent.validateOrder]
    rw [if_pos]
    refine List.any_eq_true.mpr ⟨e,he,?_⟩
    rw [Bool.and_eq_true,beq_iff_eq,beq_iff_eq,PstEvent.key,PstEvent.name,himport,hbody]
    exact ⟨rfl,rfl⟩
  refine (At.calm_call At.flush_rule hcalm).seq fun _ => ?_
  refine (finishPstPurge_calm hcalm rfl m _).seq fun _ => Triple.choose fun s => ?_
  refine Triple.weaken_pre (Triple.assume (P := At d u s) fun hmanifest => ?_) fun w h => h
  refine Triple.ret fun w hw => ⟨_,hw,?_⟩
  obtain ⟨now,hnew⟩ := hpurged.grows hkey
  rw [hmanifest]
  exact grows_of_append hintended.isPrefix hnew

/-- A purge is refused, or leaves nothing, when the manifest has its end already or its intent with
other contents. -/
theorem completePstPurge_leaves_iff (hcalm : env.Calm) (hpath : m.relativePath = some path)
    (hpath' : path ≠ "") (hhash : m.fileHash = some hash) (hhash' : hash ≠ "")
    (hacc : Accountable u (d.manifests u).events) (tick : Nat) :
    LeavesEvent d u (completePstPurge env u m (d.opened tick)) ↔
      PurgeUnrecorded u (d.manifests u).events (d.purgeOf u m path hash) := by
  refine ⟨fun hleaves => ?_,fun h =>
    completePstPurge_leaves hcalm hpath hpath' hhash hhash' hacc h tick⟩
  obtain ⟨⟨r,hok⟩,e',added,hgrown⟩ := hleaves
  have hrecords := @completePstPurge_records d u env m path hash hpath hpath' hhash hhash' _
    (d.at_opened u tick)
  revert hrecords hok hgrown
  cases completePstPurge env u m (d.opened tick) with
  | mk result w =>
    rintro rfl hgrown ⟨intended,hintended,hpurged⟩
    have hgrown : (w.manifests u).events = _ := hgrown
    refine ⟨fun e he hkey => ?_,fun e he hkey => ?_⟩
    · have hsame := hintended.swallowed ⟨e,he,hkey⟩
      obtain ⟨p,hp,himport,hbody⟩ := hintended.exists_body
      rw [hsame] at hp
      have hl : p.IsLifecycle := by simp [PstEvent.IsLifecycle,hbody]
      have hpkey : p.key = e.key := by
        rw [hkey]
        simp [PstEvent.key,PstEvent.name,himport,hbody]
      rw [← hacc.unique p hp e he hl hpkey]
      exact hbody
    · -- The end is there, so its intent is, and neither append adds anything.
      have hname : e.name = .purged := congrArg Prod.fst hkey
      obtain ⟨p,hbody⟩ : ∃ p, e.body = .purged p := by
        obtain ⟨_,_,body⟩ := e
        cases body <;> simp_all [PstEvent.name,PstEventBody.name]
      obtain ⟨i,hi,hiname,hikey⟩ := hacc.intended e he p hbody
      have hikey' : i.key = PstEvent.key ⟨u,"",.purgeIntent (d.purgeOf u m path hash)⟩ :=
        Prod.ext hiname (hikey.trans ((congrArg Prod.snd hkey).trans rfl))
      have hsame := hintended.swallowed ⟨i,hi,hikey'⟩
      rw [hsame] at hpurged
      rw [hpurged.swallowed ⟨e,he,hkey⟩] at hgrown
      have hlength := congrArg List.length hgrown
      simp at hlength

end

/-! ## Every history -/

/-- After any history of a generation, and in an environment where nothing fails: a switch leaves an
event, a restore does when it is the first one, and a purge when the manifest has neither its end
nor its intent with other contents. -/
theorem operations_leave_events_iff {u : String} {start d : PstDisk}
    (hstart : ∀ e ∈ (start.manifests u).events, ¬ e.IsLifecycle)
    (hrun : Relation.ReflTransGen (HistoryStep u) start d) {env : PstEnv} (hcalm : env.Calm)
    (gated : Bool) (tick : Nat) :
    (∀ newRow oldRow, newRow.importUuid = u → SwitchReady env d newRow oldRow →
      LeavesEvent d u (switchGeneration env gated newRow.id u oldRow.id oldRow.importUuid
        (d.opened tick))) ∧
    (∀ target old, target.importUuid = u → RestoreReady env d target →
      (LeavesEvent d u (restoreGeneration env gated target.id u old (d.opened tick)) ↔
        NeverRestored (d.manifests u).events)) ∧
    ∀ m path hash, m.relativePath = some path → path ≠ "" → m.fileHash = some hash → hash ≠ "" →
      (LeavesEvent d u (completePstPurge env u m (d.opened tick)) ↔
        PurgeUnrecorded u (d.manifests u).events (d.purgeOf u m path hash)) := by
  have hinvariant := HistoryInvariant.run hstart hrun
  have hacc := (accountable_of_none hstart).wrote hinvariant.wrote
  refine ⟨fun newRow oldRow huuid hready => ?_,fun target old huuid hready => ?_,
    fun m path hash hpath hpath' hhash hhash' => ?_⟩
  · subst huuid
    refine switchGeneration_leaves hcalm hready ?_ tick
    -- The row is inactive and complete, so no switch to it was recorded to the end.
    rw [← Bool.not_eq_true]
    intro hs
    rcases hinvariant.once hs newRow hready.pair.memNew rfl with hactive | hstatus
    · rw [hready.pair.inactive] at hactive
      cases hactive
    · rw [hready.pair.finished] at hstatus
      cases hstatus
  · subst huuid
    exact restoreGeneration_leaves_iff hcalm hready hacc old tick
  · exact completePstPurge_leaves_iff hcalm hpath hpath' hhash hhash' hacc tick

/-! ## A second restore -/

/-- A generation and two finished ones to replace it, all without items. -/
def twiceReplacedDisk : PstDisk where
  db := ⟨{ mail := { accounts := [{ id := "pst_a" },{ id := "pst_b" }] }
           imports := [replacedImport,replacingImport,
             { replacingImport with id := 3, importUuid := "u3" }]
           nextImportId := 4 },by decide⟩
  manifests importUuid := {
    importJson := some [("import_uuid",.str importUuid),
      ("account_id",.str (if importUuid = "u1" then "pst_a" else "pst_b"))]
    folders := some []
    events := [⟨importUuid,"t",.importReady 0 "" ""⟩] }

/-- The disk after a switch that nothing interrupts. -/
def switchedDisk (d : PstDisk) (importId : Nat) (importUuid : String) : PstDisk :=
  (switchGeneration (crashingEnv none) false importId importUuid 1 "u1" (d.opened 0)).2.disk

/-- The disk after a restore of the first generation. -/
def restoredDisk (d : PstDisk) (superseded : String) : PstDisk :=
  (restoreGeneration (crashingEnv none) false 1 "u1" superseded (d.opened 0)).2.disk

/-- The disk before the second restore of the first generation. -/
def twiceSwitchedDisk : PstDisk :=
  switchedDisk (restoredDisk (switchedDisk twiceReplacedDisk 2 "u2") "u2") 3 "u3"

theorem calm_crashingEnv : (crashingEnv none).Calm := ⟨fun _ => rfl,fun _ => rfl⟩

theorem not_isLifecycle_twiceReplacedDisk :
    ∀ e ∈ (twiceReplacedDisk.manifests "u1").events, ¬ e.IsLifecycle := by
  intro e he
  rw [List.mem_singleton.mp he]
  exact id

theorem switchedDisk_step (d : PstDisk) (importId : Nat) (importUuid : String)
    (h : ((switchGeneration (crashingEnv none) false importId importUuid 1 "u1"
        (d.opened 0)).2.flushed importUuid) ≤ ((switchGeneration (crashingEnv none) false importId
          importUuid 1 "u1" (d.opened 0)).2.manifests importUuid).events.length) :
    HistoryStep "u1" d (switchedDisk d importId importUuid) := by
  obtain ⟨s,-,hw⟩ :=
    switchGeneration_stopped d importUuid "u1" (crashingEnv none) false importId 1 0
  exact .inl ⟨.switchGeneration false importId importUuid 1 "u1",trivial,crashingEnv none,0,
    hw.survives_disk h⟩

theorem restoredDisk_step (d : PstDisk) (superseded : String)
    (h : ((restoreGeneration (crashingEnv none) false 1 "u1" superseded
        (d.opened 0)).2.flushed "u1") ≤ ((restoreGeneration (crashingEnv none) false 1 "u1"
          superseded (d.opened 0)).2.manifests "u1").events.length) :
    HistoryStep "u1" d (restoredDisk d superseded) := by
  obtain ⟨s,-,hw⟩ := restoreGeneration_stopped d "u1" superseded (crashingEnv none) false 1 0
  exact .inl ⟨.restoreGeneration false 1 "u1" superseded,trivial,crashingEnv none,0,
    hw.survives_disk h⟩

theorem twiceSwitchedDisk_history :
    Relation.ReflTransGen (HistoryStep "u1") twiceReplacedDisk twiceSwitchedDisk := by
  refine .tail (.tail (.tail .refl (switchedDisk_step twiceReplacedDisk 2 "u2" ?_))
    (restoredDisk_step _ "u2" ?_)) (switchedDisk_step _ 3 "u3" ?_)
  · decide +kernel
  · decide +kernel
  · decide +kernel

/-- The row of the first generation while another is active. -/
def supersededImport : PstImport := replacedImport.superseded "t"

theorem twiceSwitchedDisk_ready : RestoreReady (crashingEnv none) twiceSwitchedDisk supersededImport where
  restorable := ⟨by decide +kernel,rfl,rfl⟩
  verified := ⟨⟨1,"u1",0,0⟩,by decide +kernel⟩
  replaced := ⟨{ replacingImport with id := 3, importUuid := "u3", isActive := true },
    by decide +kernel⟩

/-- The disk after the first switch. -/
def onceSwitchedDisk : PstDisk := switchedDisk twiceReplacedDisk 2 "u2"

theorem onceSwitchedDisk_history :
    Relation.ReflTransGen (HistoryStep "u1") twiceReplacedDisk onceSwitchedDisk :=
  .single (switchedDisk_step twiceReplacedDisk 2 "u2" (by decide +kernel))

theorem onceSwitchedDisk_ready : RestoreReady (crashingEnv none) onceSwitchedDisk supersededImport where
  restorable := ⟨by decide +kernel,rfl,rfl⟩
  verified := ⟨⟨1,"u1",0,0⟩,by decide +kernel⟩
  replaced := ⟨{ replacingImport with isActive := true },by decide +kernel⟩

/-- The first restore leaves an event; after it and a second switch, the next restore does not. -/
theorem operations_leave_events_twiceSwitchedDisk :
    LeavesEvent onceSwitchedDisk "u1"
        (restoreGeneration (crashingEnv none) false 1 "u1" "u2" (onceSwitchedDisk.opened 0)) ∧
      ¬ LeavesEvent twiceSwitchedDisk "u1"
        (restoreGeneration (crashingEnv none) false 1 "u1" "u3" (twiceSwitchedDisk.opened 0)) := by
  have honce := (operations_leave_events_iff not_isLifecycle_twiceReplacedDisk
    onceSwitchedDisk_history calm_crashingEnv false 0).2.1 supersededImport "u2" rfl
      onceSwitchedDisk_ready
  have htwice := (operations_leave_events_iff not_isLifecycle_twiceReplacedDisk
    twiceSwitchedDisk_history calm_crashingEnv false 0).2.1 supersededImport "u3" rfl
      twiceSwitchedDisk_ready
  refine ⟨honce.mpr ?_,fun hleaves => absurd (htwice.mp hleaves) ?_⟩
  · unfold NeverRestored
    decide +kernel
  · unfold NeverRestored
    decide +kernel

/-- A generation that was restored once and replaced by another one is not restored again: its
manifest has a record under the same key, with the other generation. -/
theorem second_restore_rejected :
    Relation.ReflTransGen (HistoryStep "u1") twiceReplacedDisk twiceSwitchedDisk ∧
      RestoreReady (crashingEnv none) twiceSwitchedDisk supersededImport ∧
      (restoreGeneration (crashingEnv none) false 1 "u1" "u3" (twiceSwitchedDisk.opened 0)).1 =
        .error (.raised ⟨.value,
          "PST manifest contains a conflicting duplicate idempotency key"⟩) := by
  refine ⟨twiceSwitchedDisk_history,twiceSwitchedDisk_ready,?_⟩
  decide +kernel

end MailDock
