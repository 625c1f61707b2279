import Mathlib.Logic.Relation
import MailDock.Pst.Switch

/-!
# One rule for each call

`At d u s w` says that the world `w` looks like `s` to a program that works on the generation `u`,
and that the manifests of the other generations are as they were on the disk `d`.  Each call has one
rule that says where it leads from there, and where it may fail.

## Main definitions

- `Spot`, `At` — what a program on one generation sees
- `Recorded` — the events of a manifest after an `append`
- `PstEnv.Faulty` — a failure the environment may inject
- `Keeping` — an invariant of the database and one of the manifest, for programs of which no more is
  asked
-/

namespace MailDock

open Hoare

/-- What a program that works on one generation sees of the world. -/
structure Spot where
  committed : PstRepository
  db : PstRepository
  inBatch : Bool
  manifest : PstManifest
  flushed : Nat
  staging : String → Option Staging
  files : List (String × Bytes)
  /-- The databases committed so far, newest first. -/
  commits : List PstRepository

/-- The databases committed in a log. -/
def committedDbs (log : List PstEffect) : List PstRepository :=
  log.filterMap fun
    | .commit db => some db
    | _ => none

theorem mem_committedDbs {log : List PstEffect} {db : PstRepository} :
    db ∈ committedDbs log ↔ .commit db ∈ log := by
  rw [committedDbs,List.mem_filterMap]
  constructor
  · intro ⟨e,he,heq⟩
    cases e with
    | commit db' =>
      cases heq
      exact he
    | append _ _ => cases heq
    | flush _ => cases heq
    | write _ _ => cases heq
    | save _ => cases heq
    | delete _ => cases heq
  · exact fun h => ⟨_,h,rfl⟩

def PstWorld.spot (w : PstWorld) (u : String) : Spot where
  committed := w.committed
  db := w.db
  inBatch := w.inBatch
  manifest := w.manifests u
  flushed := w.flushed u
  staging := w.staging
  files := w.files
  commits := committedDbs w.log

structure At (d : PstDisk) (u : String) (s : Spot) (w : PstWorld) : Prop where
  spot : w.spot u = s
  manifests : ∀ v, v ≠ u → w.manifests v = d.manifests v
  flushed : ∀ v, v ≠ u → w.flushed v = (d.manifests v).events.length

/-- The start of a program on the generation. -/
def PstDisk.spot (d : PstDisk) (u : String) : Spot where
  committed := d.db
  db := d.db
  inBatch := false
  manifest := d.manifests u
  flushed := (d.manifests u).events.length
  staging := d.staging
  files := d.files
  commits := []

theorem PstDisk.at_opened (d : PstDisk) (u : String) (tick : Nat) : At d u (d.spot u) (d.opened tick) :=
  ⟨rfl,fun _ _ => rfl,fun _ _ => rfl⟩

namespace Spot

/-- After a write. -/
def wrote (s : Spot) (db : PstRepository) : Spot :=
  if s.inBatch then { s with db := db }
  else { s with db := db, committed := db, commits := db :: s.commits }

@[simp] theorem wrote_manifest (s : Spot) (db : PstRepository) :
    (s.wrote db).manifest = s.manifest := by
  unfold wrote
  split
  · rfl
  · rfl

def batchCommitted (s : Spot) : Spot :=
  { s with committed := s.db, inBatch := false, commits := s.db :: s.commits }

def rolledBack (s : Spot) : Spot := { s with db := s.committed, inBatch := false }

def withEvents (s : Spot) (events : List PstEvent) : Spot :=
  { s with manifest := { s.manifest with events := events } }

def flushedAll (s : Spot) : Spot := { s with flushed := s.manifest.events.length }

end Spot

/-- The events after an event with this body was appended, or swallowed. -/
def Recorded (u : String) (events : List PstEvent) (body : PstEventBody) (events' : List PstEvent) :
    Prop :=
  ∃ now, appendPstEvent u events ⟨u,now,body⟩ = .ok events'

section
variable {u : String} {events events' : List PstEvent} {body : PstEventBody}

/-- An append adds one event or finds it. -/
theorem Recorded.cases (h : Recorded u events body events') :
    (events' = events ∧ ∃ e ∈ events, e.importUuid = u ∧ e.body = body) ∨
      ∃ now, events' = events ++ [⟨u,now,body⟩] := by
  obtain ⟨now,h⟩ := h
  rw [appendPstEvent,if_neg (by simp)] at h
  split at h
  · cases h
    exact .inr ⟨now,rfl⟩
  · next hold =>
    cases h
    unfold validateTransition at hold
    split at hold
    · next p hp =>
      split at hold
      · next hsame =>
        rw [PstEvent.sameContent,Bool.and_eq_true,beq_iff_eq,beq_iff_eq] at hsame
        exact .inl ⟨rfl,p,List.mem_of_find?_eq_some hp,hsame⟩
      · cases hold
    · rw [Except.bind_eq_ok_iff] at hold
      obtain ⟨_,-,hold⟩ := hold
      cases hold
  · cases h

/-- After an append the event is there. -/
theorem Recorded.exists_body (h : Recorded u events body events') :
    ∃ e ∈ events', e.importUuid = u ∧ e.body = body := by
  rcases h.cases with ⟨rfl,h⟩ | ⟨now,rfl⟩
  · exact h
  · exact ⟨⟨u,now,body⟩,List.mem_append_right _ List.mem_cons_self,rfl,rfl⟩

theorem Recorded.isPrefix (h : Recorded u events body events') : events <+: events' := by
  rcases h.cases with ⟨rfl,-⟩ | ⟨now,rfl⟩
  · exact List.prefix_rfl
  · exact List.prefix_append _ _

theorem Recorded.mem (h : Recorded u events body events') {e : PstEvent} (he : e ∈ events') :
    e ∈ events ∨ e.importUuid = u ∧ e.body = body := by
  rcases h.cases with ⟨rfl,-⟩ | ⟨now,rfl⟩
  · exact .inl he
  · rcases List.mem_append.mp he with he | he
    · exact .inl he
    · rw [List.mem_singleton.mp he]
      exact .inr ⟨rfl,rfl⟩

end

/-- A failure that the environment may inject. -/
def PstEnv.Faulty (env : PstEnv) (f : Failure) : Prop := ∃ t, env.fault t = some f

section
variable {d : PstDisk} {u : String} {s : Spot} {env : PstEnv}

theorem At.ticked {w : PstWorld} (h : At d u s w) : At d u s w.ticked := ⟨h.1,h.2,h.3⟩

theorem At.tick_rule {E : Failure → PstWorld → Prop} :
    Triple (At d u s) pstTick (fun _ => At d u s) E :=
  fun _ hw => hw.ticked

theorem At.call_rule :
    Triple (At d u s) (pstCall env) (fun _ => At d u s) fun f w => At d u s w ∧ env.Faulty f := by
  refine At.tick_rule.seq fun t => ?_
  cases hf : env.fault t with
  | none => exact Triple.ret fun _ hw => hw
  | some f => exact Triple.raise fun _ hw => ⟨hw,t,hf⟩

theorem At.timestamp_rule {E : Failure → PstWorld → Prop} :
    Triple (At d u s) (pstTimestamp env) (fun _ => At d u s) E :=
  fun _ hw => hw.ticked

/-- A check that raises or does nothing. -/
theorem At.ensure_rule {gated : Bool} :
    Triple (At d u s) (ensureWriteAllowed env gated) (fun _ => At d u s)
      fun f w => At d u s w ∧ (∃ e, f = .raised e ∧ e.kind = .storageDetached ∧ gated = true) ∧
        ∃ t, env.writeAllowed t = false := by
  refine At.tick_rule.seq fun t => ?_
  split
  · next hgate =>
    rw [Bool.and_eq_true,Bool.not_eq_true'] at hgate
    exact Triple.raise fun _ hw => ⟨hw,⟨_,rfl,rfl,hgate.1⟩,t,hgate.2⟩
  · exact Triple.ret fun _ hw => hw

theorem At.query_rule {α : Type} {query : PstTables → α} :
    Triple (At d u s) (queryPst env query) (fun a w => At d u s w ∧ a = query s.db.tables)
      fun f w => At d u s w ∧ env.Faulty f := by
  refine At.call_rule.seq fun _ w hw => ?_
  exact ⟨hw,congrArg (fun s : Spot => query s.db.tables) hw.spot⟩

theorem At.written {w : PstWorld} (h : At d u s w) (db : PstRepository) :
    At d u (s.wrote db) (w.written db) := by
  obtain ⟨rfl,hm,hf⟩ := h
  cases hb : w.inBatch with
  | true => exact ⟨by simp [PstWorld.written,PstWorld.spot,Spot.wrote,hb,committedDbs],
      by simpa [PstWorld.written,hb] using hm,by simpa [PstWorld.written,hb] using hf⟩
  | false => exact ⟨by simp [PstWorld.written,PstWorld.spot,Spot.wrote,hb,committedDbs],
      by simpa [PstWorld.written,hb] using hm,by simpa [PstWorld.written,hb] using hf⟩

theorem At.lift_rule {α : Type} {x : Except Error α} :
    Triple (At d u s) (liftPst x) (fun a w => At d u s w ∧ x = .ok a)
      fun f w => At d u s w ∧ ∃ e, x = .error e ∧ f = .raised e := by
  intro w hw
  cases x with
  | ok a => exact ⟨hw,rfl⟩
  | error e => exact ⟨hw,e,rfl,rfl⟩

theorem At.write_rule {statement : PstRepository → Except Error PstRepository} :
    Triple (At d u s) (writePst env statement)
      (fun _ w => ∃ db, At d u (s.wrote db) w ∧ statement s.db = .ok db)
      fun f w => At d u s w ∧ (env.Faulty f ∨ ∃ e, statement s.db = .error e ∧ f = .raised e) := by
  refine (At.call_rule.weaken_error fun f w h => ⟨h.1,.inl h.2⟩).seq fun _ w hw => ?_
  have hdb : w.db = s.db := congrArg Spot.db hw.spot
  show Holds _ _ (Prog.bind (liftPst (statement w.db)) _ w)
  unfold Prog.bind
  rw [hdb]
  cases hst : statement s.db with
  | ok db => exact ⟨db,hw.written db,rfl⟩
  | error e => exact ⟨hw,.inr ⟨e,rfl,rfl⟩⟩

theorem At.begin_rule (hs : s.inBatch = false) :
    Triple (At d u s) (beginPstBatch env) (fun _ => At d u { s with inBatch := true })
      fun f w => At d u s w ∧ env.Faulty f := by
  refine At.call_rule.seq fun _ w hw => ?_
  obtain ⟨rfl,hm,hf⟩ := hw
  have hb : w.inBatch = false := hs
  show Holds _ _ ((if w.inBatch then _ else _ : Pst Unit) w)
  rw [hb]
  exact ⟨rfl,hm,hf⟩

theorem At.commit_rule :
    Triple (At d u s) (commitPstBatch env) (fun _ => At d u s.batchCommitted)
      fun f w => At d u s w ∧ env.Faulty f := by
  refine At.call_rule.seq fun _ w hw => ?_
  obtain ⟨rfl,hm,hf⟩ := hw
  exact ⟨rfl,hm,hf⟩

theorem At.rollback_rule :
    Triple (At d u s) (rollbackPstBatch env) (fun _ => At d u s.rolledBack)
      fun f w => At d u s w ∧ env.Faulty f := by
  refine At.call_rule.seq fun _ w hw => ?_
  obtain ⟨rfl,hm,hf⟩ := hw
  exact ⟨rfl,hm,hf⟩

theorem At.appended {w : PstWorld} (h : At d u s w) (e : PstEvent) (events : List PstEvent) :
    At d u (s.withEvents events) (w.appended u e events) := by
  obtain ⟨rfl,hm,hf⟩ := h
  refine ⟨?_,fun v hv => ?_,hf⟩
  · simp only [PstWorld.appended,PstWorld.spot,PstWorld.setManifest,Spot.withEvents,
      Function.update_self]
    split
    · rfl
    · rfl
  · simpa [PstWorld.appended,PstWorld.setManifest,Function.update_of_ne hv] using hm v hv

theorem At.append_rule {body : PstEventBody} :
    Triple (At d u s) (appendPst env u body)
      (fun _ w => ∃ events, At d u (s.withEvents events) w ∧
        Recorded u s.manifest.events body events)
      fun f w => At d u s w ∧ (env.Faulty f ∨ ∃ now e,
        appendPstEvent u s.manifest.events ⟨u,now,body⟩ = .error e ∧ f = .raised e) := by
  refine At.timestamp_rule.seq fun now => ?_
  refine (At.call_rule.weaken_error fun f w h => ⟨h.1,.inl h.2⟩).seq fun _ w hw => ?_
  have hm : w.manifests u = s.manifest := congrArg Spot.manifest hw.spot
  show Holds _ _ (Prog.bind (liftPst (appendPstEvent u (w.manifests u).events _)) _ w)
  unfold Prog.bind
  rw [hm]
  cases hap : appendPstEvent u s.manifest.events ⟨u,now,body⟩ with
  | ok events => exact ⟨events,hw.appended _ events,now,hap⟩
  | error e => exact ⟨hw,.inr ⟨now,e,hap,rfl⟩⟩

theorem At.flush_rule :
    Triple (At d u s) (flushPst env u) (fun _ => At d u s.flushedAll)
      fun f w => At d u s w ∧ env.Faulty f := by
  refine At.call_rule.seq fun _ w hw => ?_
  obtain ⟨rfl,hm,hf⟩ := hw
  refine ⟨?_,hm,fun v hv => ?_⟩
  · show PstWorld.spot (w.flushedAll u) u = _
    simp only [PstWorld.flushedAll,PstWorld.spot,Spot.flushedAll,Function.update_self]
    rfl
  · show (Function.update w.flushed u _) v = _
    rw [Function.update_of_ne hv]
    exact hf v hv

theorem At.events_rule :
    Triple (At d u s) (readPstEvents env u) (fun a w => At d u s w ∧ a = s.manifest.events)
      fun f w => At d u s w ∧ env.Faulty f := by
  refine At.call_rule.seq fun _ w hw => ?_
  exact ⟨hw,congrArg (fun s : Spot => s.manifest.events) hw.spot⟩

/-- The tables are the same but for the audit log. -/
def PstTables.AuditedFrom (t t' : PstTables) : Prop :=
  ∃ audit, t' = { t with mail := { t.mail with auditLog := audit } }

theorem At.audit_rule {operation accountId detail : String} :
    Triple (At d u s) (recordPstAudit env operation accountId detail)
      (fun _ w => ∃ db, At d u (s.wrote db) w ∧ s.db.tables.AuditedFrom db.tables)
      fun f w => At d u s w ∧ env.Faulty f := by
  refine At.timestamp_rule.seq fun now => ?_
  refine (At.write_rule.weaken_error fun f w h => ⟨h.1,?_⟩).strengthen_post ?_
  · intro _ w ⟨db,hw,hdb⟩
    exact ⟨db,hw,_,PstRepository.exec_eq_ok.mp hdb⟩
  · rcases h.2 with h | ⟨e,he,-⟩
    · exact h
    · have hvalid : ({ s.db.tables with
          mail := s.db.tables.mail.recordAudit
            ⟨now,operation,some accountId,none,none,none,detail⟩ } : PstTables).Valid :=
        { s.db.valid with mail := { s.db.valid.mail with } }
      rw [PstRepository.exec_of_valid hvalid] at he
      cases he

theorem At.verify_rule {importId : Nat} {allowSuperseded : Bool} :
    Triple (At d u s) (verifyGeneration env importId u allowSuperseded)
      (fun v w => At d u s w ∧
        verification env s.db.tables s.manifest s.files importId u allowSuperseded = .ok v)
      fun f w => At d u s w ∧ (env.Faulty f ∨ ∃ e,
        verification env s.db.tables s.manifest s.files importId u allowSuperseded = .error e ∧
          f = .raised e) := by
  refine (At.call_rule.weaken_error fun f w h => ⟨h.1,.inl h.2⟩).seq fun _ w hw => ?_
  obtain ⟨rfl,hm,hf⟩ := hw
  exact (At.lift_rule.weaken_error fun f w h => ⟨h.1,.inr h.2⟩) w ⟨rfl,hm,hf⟩

/-- An environment in which nothing fails. -/
structure PstEnv.Calm (env : PstEnv) : Prop where
  fault : ∀ t, env.fault t = none
  writeAllowed : ∀ t, env.writeAllowed t = true

theorem PstEnv.Calm.not_faulty {f : Failure} (h : env.Calm) : ¬ env.Faulty f := by
  intro ⟨t,ht⟩
  rw [h.fault] at ht
  cases ht

/-! The same rules where nothing fails. -/

section
variable (hcalm : env.Calm)

theorem At.calm_call {α : Type} {p : Pst α} {Q : α → PstWorld → Prop}
    (h : Triple (At d u s) p Q fun f w => At d u s w ∧ env.Faulty f) (hcalm : env.Calm) :
    Triple (At d u s) p Q fun _ _ => False :=
  h.weaken_error fun _ _ hw => hcalm.not_faulty hw.2

include hcalm

theorem At.calm_ensure {gated : Bool} :
    Triple (At d u s) (ensureWriteAllowed env gated) (fun _ => At d u s) fun _ _ => False := by
  refine At.ensure_rule.weaken_error fun _ _ h => ?_
  obtain ⟨-,-,t,ht⟩ := h
  rw [hcalm.writeAllowed] at ht
  cases ht

theorem At.calm_write {statement : PstRepository → Except Error PstRepository} {db : PstRepository}
    (hok : statement s.db = .ok db) :
    Triple (At d u s) (writePst env statement) (fun _ => At d u (s.wrote db)) fun _ _ => False := by
  refine (At.write_rule.weaken_error fun f w h => ?_).strengthen_post fun _ w h => ?_
  · rcases h.2 with h | ⟨e,he,-⟩
    · exact hcalm.not_faulty h
    · rw [hok] at he
      cases he
  · obtain ⟨db',hw,hdb'⟩ := h
    rw [hok] at hdb'
    cases hdb'
    exact hw

theorem At.calm_append {body : PstEventBody}
    (hok : ∀ now, ∃ events, appendPstEvent u s.manifest.events ⟨u,now,body⟩ = .ok events) :
    Triple (At d u s) (appendPst env u body)
      (fun _ w => ∃ events, At d u (s.withEvents events) w ∧
        Recorded u s.manifest.events body events) fun _ _ => False := by
  refine At.append_rule.weaken_error fun f w h => ?_
  rcases h.2 with h | ⟨now,e,he,-⟩
  · exact hcalm.not_faulty h
  · obtain ⟨events,hevents⟩ := hok now
    rw [hevents] at he
    cases he

theorem At.calm_verify {importId : Nat} {allowSuperseded : Bool} {v : GenerationVerification}
    (hok : verification env s.db.tables s.manifest s.files importId u allowSuperseded = .ok v) :
    Triple (At d u s) (verifyGeneration env importId u allowSuperseded)
      (fun _ => At d u s) fun _ _ => False := by
  refine (At.verify_rule.weaken_error fun f w h => ?_).strengthen_post fun _ w h => h.1
  rcases h.2 with h | ⟨e,he,-⟩
  · exact hcalm.not_faulty h
  · rw [hok] at he
    cases he

end

/-- A raised error runs the handler, a crash does not. -/
theorem catching_rule {α : Type} {P : PstWorld → Prop} {Q : α → PstWorld → Prop}
    {E F : Failure → PstWorld → Prop} {p : Pst α} {handler : Error → Pst α}
    (hp : Triple P p Q F) (hh : ∀ e, Triple (F (.raised e)) (handler e) Q E)
    (hcrash : ∀ w, F .crash w → E .crash w) : Triple P (catching p handler) Q E := by
  refine Triple.handle hp fun f => ?_
  cases f with
  | raised e => exact hh e
  | crash => exact Triple.raise hcrash

end

/-! ## What a crash leaves of a manifest -/

/-- The writer made the one list of events into the other. -/
def Wrote (u : String) : List PstEvent → List PstEvent → Prop :=
  Relation.ReflTransGen fun events events' => ∃ body, Recorded u events body events'

theorem Wrote.record {u : String} {start events events' : List PstEvent} {body : PstEventBody}
    (h : Wrote u start events) (hrecord : Recorded u events body events') : Wrote u start events' :=
  h.tail ⟨body,hrecord⟩

theorem Wrote.isPrefix {u : String} {events events' : List PstEvent} (h : Wrote u events events') :
    events <+: events' := by
  induction h with
  | refl => exact List.prefix_rfl
  | tail _ hstep ih =>
    obtain ⟨body,hrecord⟩ := hstep
    exact ih.trans hrecord.isPrefix

/-- What was there in between was written too: an append adds one event at most. -/
theorem Wrote.between {u : String} {events kept events' : List PstEvent}
    (h : Wrote u events events') (hlow : events <+: kept) (hhigh : kept <+: events') :
    Wrote u events kept := by
  induction h with
  | refl =>
    rw [hhigh.eq_of_length (le_antisymm hhigh.length_le hlow.length_le)]
    exact Relation.ReflTransGen.refl
  | tail hbefore hstep ih =>
    obtain ⟨body,hrecord⟩ := hstep
    rcases hrecord.cases with ⟨rfl,-⟩ | ⟨now,rfl⟩
    · exact ih hhigh
    · rcases List.prefix_concat_iff.mp hhigh with rfl | hhigh
      · exact hbefore.tail ⟨body,hrecord⟩
      · exact ih hhigh

theorem PstWorld.Survives.between {w : PstWorld} {d' : PstDisk} {u : String}
    {events : List PstEvent} (h : w.Survives d') (hevents : events <+: (w.manifests u).events)
    (hflushed : events.length ≤ w.flushed u) :
    events <+: (d'.manifests u).events ∧ (d'.manifests u).events <+: (w.manifests u).events := by
  obtain ⟨kept,hkept,hlength,hd⟩ := h.manifests u
  rw [hd]
  exact ⟨List.prefix_of_prefix_length_le hevents hkept (hflushed.trans hlength),hkept⟩

/-- A manifest that was not touched is left as it is. -/
theorem PstWorld.Survives.untouched {w : PstWorld} {d d' : PstDisk} {v : String}
    (h : w.Survives d') (hmanifest : w.manifests v = d.manifests v)
    (hflushed : (d.manifests v).events.length ≤ w.flushed v) : d'.manifests v = d.manifests v := by
  obtain ⟨kept,hkept,hlength,hd⟩ := h.manifests v
  rw [hmanifest] at hkept hd
  rw [hd,hkept.eq_of_length (le_antisymm hkept.length_le (hflushed.trans hlength))]

/-! ## Invariants of a program -/

/-- The tables, in and outside of a transaction, satisfy `J` and the events of each generation
`K`. -/
structure Keeping (d : PstDisk) (J : PstTables → Prop) (K : String → List PstEvent → Prop)
    (w : PstWorld) : Prop where
  flushed : ∀ v, (d.manifests v).events.length ≤ w.flushed v
  wrote : ∀ v, Wrote v (d.manifests v).events (w.manifests v).events
  committed : J w.committed.tables
  db : J w.db.tables
  events : ∀ v, K v (w.manifests v).events

namespace Keeping

variable {d : PstDisk} {u : String} {J : PstTables → Prop} {K : String → List PstEvent → Prop}
  {env : PstEnv}

theorem opened (hJ : J d.db.tables) (hK : ∀ v, K v (d.manifests v).events) (tick : Nat) :
    Keeping d J K (d.opened tick) :=
  ⟨fun _ => le_rfl,fun _ => Relation.ReflTransGen.refl,hJ,hJ,hK⟩

theorem tick_rule : Triple (Keeping d J K) pstTick (fun _ => Keeping d J K)
    fun _ => Keeping d J K :=
  fun _ hw => { hw with }

theorem call_rule : Triple (Keeping d J K) (pstCall env) (fun _ => Keeping d J K)
    fun _ => Keeping d J K := by
  refine tick_rule.seq fun t => ?_
  split
  · exact Triple.raise fun _ hw => hw
  · exact Triple.ret fun _ hw => hw

theorem timestamp_rule : Triple (Keeping d J K) (pstTimestamp env) (fun _ => Keeping d J K)
    fun _ => Keeping d J K :=
  tick_rule.seq fun _ => Triple.ret fun _ hw => hw

/-- A query reads tables of which the invariant holds. -/
theorem query_rule {α : Type} {query : PstTables → α} :
    Triple (Keeping d J K) (queryPst env query)
      (fun a w => Keeping d J K w ∧ ∃ t : PstRepository, J t.tables ∧ a = query t.tables)
      fun _ => Keeping d J K := by
  refine call_rule.seq fun _ w hw => ?_
  exact ⟨hw,w.db,hw.db,rfl⟩

theorem write_rule {statement : PstRepository → Except Error PstRepository}
    (h : ∀ repo db, J repo.tables → statement repo = .ok db → J db.tables) :
    Triple (Keeping d J K) (writePst env statement) (fun _ => Keeping d J K)
      fun _ => Keeping d J K := by
  refine call_rule.seq fun _ w hw => ?_
  show Holds _ _ (Prog.bind (liftPst (statement w.db)) _ w)
  unfold Prog.bind
  cases hst : statement w.db with
  | error e => exact hw
  | ok db =>
    have hdb := h _ _ hw.db hst
    show Keeping d J K (w.written db)
    unfold PstWorld.written
    split
    · exact { hw with db := hdb }
    · exact { hw with committed := hdb, db := hdb }

theorem begin_rule : Triple (Keeping d J K) (beginPstBatch env) (fun _ => Keeping d J K)
    fun _ => Keeping d J K := by
  refine call_rule.seq fun _ w hw => ?_
  show Holds _ _ ((if w.inBatch then _ else _ : Pst Unit) w)
  split
  · exact hw
  · exact { hw with }

theorem commit_rule : Triple (Keeping d J K) (commitPstBatch env) (fun _ => Keeping d J K)
    fun _ => Keeping d J K :=
  call_rule.seq fun _ _ hw => { hw with committed := hw.db }

theorem append_rule {body : PstEventBody}
    (h : ∀ events events', K u events → Recorded u events body events' → K u events') :
    Triple (Keeping d J K) (appendPst env u body) (fun _ => Keeping d J K)
      fun _ => Keeping d J K := by
  refine timestamp_rule.seq fun now => call_rule.seq fun _ w hw => ?_
  show Holds _ _ (Prog.bind (liftPst (appendPstEvent u (w.manifests u).events ⟨u,now,body⟩)) _ w)
  unfold Prog.bind
  cases happend : appendPstEvent u (w.manifests u).events ⟨u,now,body⟩ with
  | error e => exact hw
  | ok events =>
    show Keeping d J K (w.appended u ⟨u,now,body⟩ events)
    have hrecord : Recorded u (w.manifests u).events body events := ⟨now,happend⟩
    refine { hw with wrote := fun v => ?_, events := fun v => ?_ }
    · by_cases hv : v = u
      · subst hv
        simpa [PstWorld.appended,PstWorld.setManifest] using (hw.wrote v).record hrecord
      · simpa [PstWorld.appended,PstWorld.setManifest,Function.update_of_ne hv] using hw.wrote v
    · by_cases hv : v = u
      · subst hv
        simpa [PstWorld.appended,PstWorld.setManifest] using h _ _ (hw.events v) hrecord
      · simpa [PstWorld.appended,PstWorld.setManifest,Function.update_of_ne hv] using hw.events v

theorem flush_rule : Triple (Keeping d J K) (flushPst env u) (fun _ => Keeping d J K)
    fun _ => Keeping d J K := by
  refine call_rule.seq fun _ w hw => ?_
  refine { hw with flushed := fun v => ?_ }
  show _ ≤ Function.update w.flushed u _ v
  by_cases hv : v = u
  · rw [hv,Function.update_self]
    exact (hw.wrote u).isPrefix.length_le
  · rw [Function.update_of_ne hv]
    exact hw.flushed v

/-- What a crash leaves of a program that keeps the invariants. -/
theorem survives {w : PstWorld} {d' : PstDisk} (hw : Keeping d J K w) (h : w.Survives d') :
    J d'.db.tables ∧ ∀ v, Wrote v (d.manifests v).events (d'.manifests v).events ∧
      (d'.manifests v).events <+: (w.manifests v).events := by
  refine ⟨h.db ▸ hw.committed,fun v => ?_⟩
  obtain ⟨hlow,hhigh⟩ := h.between (hw.wrote v).isPrefix (hw.flushed v)
  exact ⟨(hw.wrote v).between hlow hhigh,hhigh⟩

end Keeping

end MailDock
