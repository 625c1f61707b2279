import MailDock.Sync.Detection
import MailDock.Sync.Durability

/-!
# Generations of a folder

A UID means something only together with the UIDVALIDITY it was reported under.
Every call of the fetcher selects the folder again, and a sync run compares what
it was told at the first SELECT with nothing later.  So what a run writes about a
server UID rests on an answer of the right generation when the server keeps the
UIDVALIDITY of the folder during the run, and the detection pass, which also
looks at folders whose SELECT failed, works with the server's generation there.

## Main definitions

- `replay` — the database after the writes of a log
- `Coherent` — each event and each change of a row rests on some grounds
- `Placing` — a write places no rows but that of the record it writes
- `BytesOf`, `AbsenceOf` — an answer of the server, given under a UIDVALIDITY
-/

namespace MailDock

open Hoare Trace

/-- The database after the writes of a log. -/
def replay (start : Repository) : List Effect → Repository
  | [] => start
  | .write op :: before => match op.apply (replay start before) with
    | .ok db => db
    | .error _ => replay start before
  | _ :: before => replay start before

/-- What a write of the log does to the membership rows. -/
def Placing (start : Repository) (before : List Effect) : Effect → Prop
  | .write op => op.PlacesRows (replay start before).tables
    (replay start (.write op :: before)).tables
  | _ => True

/-- The grounds for a statement about a UID of a folder, given the log before it. -/
abbrev Grounds := List Effect → Folder → (uidvalidity uid : Nat) → Prop

/-- A row of the database that changed, and the grounds for the change. -/
def ChangeRests (targets : List Folder) (bytes absence : Grounds) (before : List Effect)
    (t t' : Tables) (k : ServerUid) : Prop :=
  (∃ f ∈ targets, f.id = k.1 ∧ (bytes before f k.2.1 k.2.2 ∨ absence before f k.2.1 k.2.2)) ∨
  -- the row of a Gmail message in a folder now stands for another UID
  ∃ k', t.Superseded t' k k' ∧ ∃ f ∈ targets, f.id = k'.1 ∧ bytes before f k'.2.1 k'.2.2

/-- Every event of a fetch or of a detection, every fetched row and every change of the
status of a server UID has its grounds. -/
def Coherent (start : Repository) (targets : List Folder) (bytes absence : Grounds)
    (before : List Effect) : Effect → Prop
  | .append (.fetch e) => ∃ f ∈ targets, f.rawName = e.folderRawName ∧
    bytes before f e.uidvalidity e.uid
  | .append (.state e) => ∃ f ∈ targets, f.rawName = e.folderRawName ∧
    absence before f e.uidvalidity e.uid
  | .write op =>
    (∀ record contents, op = .addMessage record contents → ∃ f ∈ targets, record.folderId = f.id ∧
      ∃ v u, record.uidvalidity = some v ∧ record.uid = some u ∧ bytes before f v u) ∧
    ∀ k, (replay start (.write op :: before)).tables.status k ≠
        (replay start before).tables.status k →
      ChangeRests targets bytes absence before (replay start before).tables
        (replay start (.write op :: before)).tables k
  | _ => True

section
variable {start : Repository} {targets : List Folder} {bytes absence bytes' absence' : Grounds}

theorem ChangeRests.mono {before : List Effect} {t t' : Tables} {k : ServerUid}
    (hbytes : ∀ before, ∀ f ∈ targets, ∀ v u, bytes before f v u → bytes' before f v u)
    (habsence : ∀ before, ∀ f ∈ targets, ∀ v u, absence before f v u → absence' before f v u)
    (h : ChangeRests targets bytes absence before t t' k) :
    ChangeRests targets bytes' absence' before t t' k := by
  rcases h with ⟨f,hf,hid,hgrounds⟩ | ⟨k',hsuperseded,f,hf,hid,hgrounds⟩
  · exact .inl ⟨f,hf,hid,hgrounds.imp (hbytes _ f hf _ _) (habsence _ f hf _ _)⟩
  · exact .inr ⟨k',hsuperseded,f,hf,hid,hbytes _ f hf _ _ hgrounds⟩

theorem Coherent.mono {before : List Effect} {e : Effect}
    (hbytes : ∀ before, ∀ f ∈ targets, ∀ v u, bytes before f v u → bytes' before f v u)
    (habsence : ∀ before, ∀ f ∈ targets, ∀ v u, absence before f v u → absence' before f v u)
    (h : Coherent start targets bytes absence before e) :
    Coherent start targets bytes' absence' before e := by
  cases e with
  | append event =>
    cases event with
    | fetch e => exact h.imp fun f hf => ⟨hf.1,hf.2.1,hbytes _ f hf.1 _ _ hf.2.2⟩
    | state e => exact h.imp fun f hf => ⟨hf.1,hf.2.1,habsence _ f hf.1 _ _ hf.2.2⟩
    | _ => trivial
  | write op =>
    refine ⟨fun record contents hop => ?_,fun k hk => (h.2 k hk).mono hbytes habsence⟩
    obtain ⟨f,hf,hid,v,u,hv,hu,hgrounds⟩ := h.1 record contents hop
    exact ⟨f,hf,hid,v,u,hv,hu,hbytes _ f hf _ _ hgrounds⟩
  | _ => trivial

/-- A write that succeeds is what a replay of the log does. -/
theorem replay_write {log : List Effect} {op : WriteOp} {db : Repository}
    (h : op.apply (replay start log) = .ok db) : replay start (.write op :: log) = db := by
  rw [replay,h]

theorem coherent_keepsRows {log : List Effect} {op : WriteOp} {db : Repository}
    (hop : op.keepsRows = true) (h : op.apply (replay start log) = .ok db) :
    Coherent start targets bytes absence log (.write op) := by
  refine ⟨fun record contents heq => ?_,fun k hk => ?_⟩
  · rw [heq] at hop
    cases hop
  · rw [replay_write h] at hk
    exact absurd ((WriteOp.apply_sameRows hop h).status_eq (replay start log).valid db.valid k) hk

end

/-! What a run knows about the answers it got. -/

section
variable (env : Env) (start : Repository) (opened : Nat)

/-- The folder had this UIDVALIDITY at some tick of the run so far. -/
def Observed (tick : Nat) (folderRawName : String) (uidvalidity : Nat) : Prop :=
  ∃ t, opened ≤ t ∧ t < tick ∧ env.uidvalidity t folderRawName = uidvalidity

def Fetched (tick : Nat) : Grounds := fun before f uidvalidity uid =>
  (∃ t, opened ≤ t ∧ t < tick ∧ .answer t (.body f.rawName uid) ∈ before) ∧
    Observed env opened tick f.rawName uidvalidity

/-- A folder that the run did not select is searched under its stored UIDVALIDITY. -/
def Gone (tick : Nat) (unselected : Folder → Prop) : Grounds := fun before f uidvalidity uid =>
  (∃ t uids, opened ≤ t ∧ t < tick ∧ .answer t (.uids f.rawName uids) ∈ before ∧ uid ∉ uids) ∧
    (Observed env opened tick f.rawName uidvalidity ∨
      (unselected f ∧ uidvalidity = f.uidvalidity.getD 0 ∧
        ∃ r ∈ start.tables.memberships, r.serverUid = some (f.id,uidvalidity,uid)))

structure Tracked (targets : List Folder) (unselected : Folder → Prop) (w : World) : Prop where
  begun : opened < w.tick
  replayed : w.db = replay start w.log
  guarded : Always (Coherent start targets (Fetched env opened w.tick)
    (Gone env start opened w.tick unselected)) w.log
  placing : Always (Placing start) w.log
  answers : ∀ t a, .answer t a ∈ w.log → opened ≤ t ∧ t < w.tick
  selected : ∀ f ∈ targets, ∀ v, w.session.selected.lookup f.id = some v →
    Observed env opened w.tick f.rawName v
  rows : ∀ r ∈ w.db.tables.memberships, ∀ k, r.serverUid = some k →
    w.session.selected.lookup k.1 = none → ∃ r' ∈ start.tables.memberships, r'.serverUid = some k

end

/-- The steps that rest on no answer. -/
def plainFootprint : Footprint where
  note
    | .write _ | .append _ | .commit _ => False
    | _ => True
  event
    | .fetch _ | .state _ => False
    | _ => True
  op o := o.keepsRows = true

section
variable {env : Env} {start : Repository} {opened : Nat} {targets : List Folder}
  {unselected : Folder → Prop}

theorem Observed.later {tick tick' : Nat} {name : String} {v : Nat}
    (h : Observed env opened tick name v) (hle : tick ≤ tick') :
    Observed env opened tick' name v := by
  obtain ⟨t,hbegin,ht,hv⟩ := h
  exact ⟨t,hbegin,by omega,hv⟩

theorem guarded_later {tick tick' : Nat} {log : List Effect} (hle : tick ≤ tick')
    (h : Always (Coherent start targets (Fetched env opened tick)
      (Gone env start opened tick unselected)) log) :
    Always (Coherent start targets (Fetched env opened tick')
      (Gone env start opened tick' unselected)) log := by
  refine h.mono fun before e => Coherent.mono ?_ ?_
  · rintro before f - v u ⟨⟨t,hbegin,ht,hanswer⟩,hobserved⟩
    exact ⟨⟨t,hbegin,by omega,hanswer⟩,hobserved.later hle⟩
  · rintro before f - v u ⟨⟨t,uids,hbegin,ht,hanswer⟩,hgeneration⟩
    exact ⟨⟨t,uids,hbegin,by omega,hanswer⟩,hgeneration.imp_left fun h => h.later hle⟩

/-- An effect that rests on no answer, in front of the log. -/
theorem Tracked.log {w w' : World} (h : Tracked env start opened targets unselected w)
    {e : Effect} (htick : w'.tick = w.tick) (hlog : w'.log = e :: w.log)
    (hsession : w'.session = w.session) (hdb : w'.db = w.db)
    (hreplay : replay start (e :: w.log) = replay start w.log)
    (he : Coherent start targets (Fetched env opened w.tick)
      (Gone env start opened w.tick unselected) w.log e) (hplacing : Placing start w.log e)
    (hpast : e.isPast w.tick) :
    Tracked env start opened targets unselected w' where
  begun := htick ▸ h.begun
  replayed := by rw [hdb,hlog,hreplay,h.replayed]
  guarded := by
    rw [htick,hlog]
    exact ⟨he,h.guarded⟩
  placing := by
    rw [hlog]
    exact ⟨hplacing,h.placing⟩
  answers := by
    intro t a ha
    rw [hlog] at ha
    rw [htick]
    rcases List.mem_cons.mp ha with rfl | ha
    · have hbegun := h.begun
      have ht : t + 1 = w.tick := hpast
      omega
    · exact h.answers t a ha
  selected := by
    rw [hsession,htick]
    exact h.selected
  rows := by
    rw [hsession,hdb]
    exact h.rows

/-- A write whose changes have their grounds. -/
theorem Tracked.write {w : World} {op : WriteOp} {db : Repository}
    (h : Tracked env start opened targets unselected w) (happly : op.apply w.db = .ok db)
    (hop : Coherent start targets (Fetched env opened w.tick)
      (Gone env start opened w.tick unselected) w.log (.write op))
    (hplaces : op.PlacesRows w.db.tables db.tables)
    (hrows : ∀ r ∈ db.tables.memberships, ∀ k, r.serverUid = some k →
      w.session.selected.lookup k.1 = none → ∃ r' ∈ w.db.tables.memberships, r'.serverUid = some k) :
    Tracked env start opened targets unselected (w.written op db) := by
  have hreplay : replay start (.write op :: w.log) = db :=
    replay_write (h.replayed ▸ happly)
  have hplacing : Placing start w.log (.write op) := by
    rwa [Placing,hreplay,← h.replayed]
  have hwrite : Tracked env start opened targets unselected
      { w with db := db, log := .write op :: w.log } :=
    { begun := h.begun
      replayed := hreplay.symm
      guarded := ⟨hop,h.guarded⟩
      placing := ⟨hplacing,h.placing⟩
      answers := fun t a ha => h.answers t a (by simpa using ha)
      selected := h.selected
      rows := by
        intro r hr k hk hunselected
        obtain ⟨r',hr',hk'⟩ := hrows r hr k hk hunselected
        exact h.rows r' hr' k hk' hunselected }
  unfold World.written
  split
  · exact hwrite
  · exact hwrite.log rfl rfl rfl rfl rfl trivial trivial trivial

theorem Tracked.closed : Closed plainFootprint (Tracked env start opened targets unselected) where
  ticked w h :=
    { begun := Nat.lt_succ_of_lt h.begun
      replayed := h.replayed
      guarded := guarded_later (Nat.le_succ _) h.guarded
      placing := h.placing
      answers := fun t a ha => ⟨(h.answers t a ha).1,Nat.lt_succ_of_lt (h.answers t a ha).2⟩
      selected := fun f hf v hv => (h.selected f hf v hv).later (Nat.le_succ _)
      rows := h.rows }
  logged w e he hp h := by
    refine h.log rfl rfl rfl rfl ?_ ?_ ?_ hp
    · cases e <;> first | exact he.elim | rfl
    · cases e <;> first | exact he.elim | trivial
    · cases e <;> first | exact he.elim | trivial
  saved w p raw _ h := h.log rfl rfl rfl rfl rfl trivial trivial trivial
  appended w e last he h := by
    refine h.log rfl rfl rfl rfl rfl ?_ trivial trivial
    cases e <;> first | exact he.elim | trivial
  began w _ h := ⟨h.begun,h.replayed,h.guarded,h.placing,h.answers,h.selected,h.rows⟩
  written w op db hop happly h := by
    refine h.write happly (coherent_keepsRows hop (h.replayed ▸ happly))
      (WriteOp.placesRows_keepsRows hop happly) ?_
    intro r hr k hk _
    obtain ⟨r',hr',hcore⟩ := (WriteOp.apply_sameRows hop happly).membership hr
    exact ⟨r',hr',(Membership.core_eq hcore).2.2.1.trans hk⟩
  committed w h := h.log rfl rfl rfl rfl rfl trivial trivial trivial
  counted w s hs h := by
    refine ⟨h.begun,h.replayed,h.guarded,h.placing,h.answers,?_,?_⟩
    · show ∀ f ∈ targets, ∀ v, s.selected.lookup f.id = some v → _
      rw [hs.1]
      exact h.selected
    · show ∀ r ∈ w.db.tables.memberships, ∀ k, r.serverUid = some k →
        s.selected.lookup k.1 = none → _
      rw [hs.1]
      exact h.rows

end

/-! The folder scans. -/

theorem scanFootprint_le_plain : scanFootprint.Le plainFootprint where
  note e he := by cases e <;> first | exact he | trivial
  event e he := by cases e <;> first | exact he | trivial
  op o ho := by cases o <;> first | exact ho.elim | rfl

theorem itemFootprint_le_plain : itemFootprint.Le plainFootprint where
  note e he := by cases e <;> first | exact he | trivial
  event _ he := he.elim
  op _ ho := ho.elim

theorem openFootprint_le_plain : openFootprint.Le plainFootprint where
  note e he := by cases e <;> first | exact he | trivial
  event e he := by cases e <;> first | exact he | trivial
  op o ho := by cases o <;> first | exact ho.elim | rfl

theorem lookFootprint_le_plain : lookFootprint.Le plainFootprint where
  note e he := by cases e <;> first | exact he | trivial
  event e he := by cases e <;> first | exact he | trivial
  op _ ho := ho.elim

section
variable {env : Env} {accountId : String} {start : Repository} {opened : Nat}
  {targets : List Folder} {options : SyncOptions} {folder : Folder} {uidvalidity : Nat}

/-- Between two folders. -/
structure Surveyed (env : Env) (accountId : String) (start : Repository) (opened : Nat)
    (targets : List Folder) (w : World) : Prop where
  tracked : Tracked env start opened targets (fun _ => False) w
  known : KnownRows true accountId w.session.knownMessages w.db.tables

theorem Surveyed.closed : Closed plainFootprint (Surveyed env accountId start opened targets) where
  ticked w h := ⟨Tracked.closed.ticked w h.tracked,h.known⟩
  logged w e he hp h := ⟨Tracked.closed.logged w e he hp h.tracked,h.known⟩
  saved w p raw he h := ⟨Tracked.closed.saved w p raw he h.tracked,h.known⟩
  appended w e last he h := ⟨Tracked.closed.appended w e last he h.tracked,h.known⟩
  began w hb h := ⟨Tracked.closed.began w hb h.tracked,h.known⟩
  written w op db hop happly h := by
    refine ⟨Tracked.closed.written w op db hop happly h.tracked,?_⟩
    rw [World.written_session,World.written_db]
    exact h.known.sameRows (WriteOp.apply_sameRows hop happly)
  committed w h := ⟨Tracked.closed.committed w h.tracked,h.known⟩
  counted w s hs h := by
    refine ⟨Tracked.closed.counted w s hs h.tracked,?_⟩
    show KnownRows true accountId s.knownMessages w.db.tables
    rw [hs.2.2.2.1]
    exact h.known

def ItemsOf (env : Env) (accountId : String) (folder : Folder) (uidvalidity : Nat) (w : World) :
    Prop :=
  ∀ item ∈ w.session.pending, ∃ ref, ItemOf env accountId folder uidvalidity ref w.log item

theorem ItemsOf.closed {F : Footprint} : Closed F (ItemsOf env accountId folder uidvalidity) :=
  Closed.ofPending (φ := fun pending log => ∀ item ∈ pending,
    ∃ ref, ItemOf env accountId folder uidvalidity ref log item)
    fun _ _ e h item hitem => (h item hitem).imp fun _ hi => hi.cons e

/-- Between two steps of the scan of a folder. -/
structure Scan (env : Env) (accountId : String) (start : Repository) (opened : Nat)
    (targets : List Folder) (folder : Folder) (uidvalidity : Nat) (w : World) : Prop where
  surveyed : Surveyed env accountId start opened targets w
  selected : w.session.selected.lookup folder.id = some uidvalidity
  items : ItemsOf env accountId folder uidvalidity w

theorem Scan.closed :
    Closed plainFootprint (Scan env accountId start opened targets folder uidvalidity) := by
  have hitems : Closed plainFootprint (ItemsOf env accountId folder uidvalidity) := ItemsOf.closed
  have hselected : Closed plainFootprint fun w =>
      w.session.selected.lookup folder.id = some uidvalidity :=
    Closed.ofScan (φ := fun s => s.selected.lookup folder.id = some uidvalidity)
      fun s s' hs h => by rw [hs.1]; exact h
  have hsurveyed : Closed plainFootprint (Surveyed env accountId start opened targets) :=
    Surveyed.closed
  exact (hsurveyed.and (hselected.and hitems)).congr fun w =>
    ⟨fun h => ⟨h.1,h.2.1,h.2.2⟩,fun h => ⟨h.1,h.2,h.3⟩⟩

/-- The grounds of a pending item. -/
theorem Scan.fetched {w : World} {item : PendingItem} {record : MessageRecord}
    (h : Scan env accountId start opened targets folder uidvalidity w) (hf : folder ∈ targets)
    (hitem : item ∈ w.session.pending) (hrecord : item.record = some record) :
    ∃ u, record.accountId = accountId ∧ record.folderId = folder.id ∧
      record.uid = some u ∧ record.uidvalidity = some uidvalidity ∧
      Fetched env opened w.tick w.log folder uidvalidity u := by
  obtain ⟨ref,hitem⟩ := h.items item hitem
  have hof := hitem.record record hrecord
  obtain ⟨t,hanswer⟩ := hitem.answered (by rw [hrecord]; rfl)
  obtain ⟨hopened,ht⟩ := h.surveyed.tracked.answers t _ hanswer
  exact ⟨ref.uid,hof.account,hof.folderId,hof.serverUid.1,hof.serverUid.2,⟨t,hopened,ht,hanswer⟩,
    h.surveyed.tracked.selected folder hf uidvalidity h.selected⟩

/-- A batch is working on these pending items. -/
def ScanOf (env : Env) (accountId : String) (start : Repository) (opened : Nat)
    (targets : List Folder) (folder : Folder) (uidvalidity : Nat) (pending : List PendingItem)
    (w : World) : Prop :=
  Scan env accountId start opened targets folder uidvalidity w ∧ w.session.pending = pending

theorem ScanOf.closed {pending : List PendingItem} : Closed plainFootprint
    (ScanOf env accountId start opened targets folder uidvalidity pending) :=
  Scan.closed.and (Closed.ofScan (φ := fun s => s.pending = pending)
    fun _ _ hs h => hs.2.1.trans h)

theorem ScanOf.within {α : Type} {pending : List PendingItem} {p : App α}
    (hp : Within plainFootprint p) :
    Triple (ScanOf env accountId start opened targets folder uidvalidity pending) p
      (fun _ => ScanOf env accountId start opened targets folder uidvalidity pending)
      (fun _ => Surveyed env accountId start opened targets) :=
  (hp _ ScanOf.closed).consequence (fun _ h => h) (fun _ _ h => h) fun _ _ h => h.1.surveyed

/-- The fetch event of a pending item rests on the bytes of its message. -/
theorem Scan.appended {w : World} {item : PendingItem} {e : FetchEvent} {record : MessageRecord}
    (h : Scan env accountId start opened targets folder uidvalidity w) (hf : folder ∈ targets)
    (hitem : item ∈ w.session.pending) (hevent : item.event = some (.fetch e))
    (hrecord : item.record = some record) (last : Option Nat) :
    Scan env accountId start opened targets folder uidvalidity (w.appended (.fetch e) last) := by
  obtain ⟨u,-,-,hu,hv,hfetched⟩ := h.fetched hf hitem hrecord
  obtain ⟨ref,hof⟩ := h.items item hitem
  have heventful := hof.event
  rw [PendingItem.Eventful,hevent,hrecord] at heventful
  obtain ⟨hdescribes,hname,-⟩ := heventful
  have huid : u = e.uid := by
    rw [hdescribes.serverUid.1] at hu
    exact (Option.some.inj hu).symm
  have hvalidity : uidvalidity = e.uidvalidity := by
    rw [hdescribes.serverUid.2] at hv
    exact (Option.some.inj hv).symm
  refine ⟨⟨h.surveyed.tracked.log rfl rfl rfl rfl rfl ?_ trivial trivial,h.surveyed.known⟩,
    h.selected,fun i hi => (h.items i hi).imp fun _ hi => hi.cons _⟩
  exact ⟨folder,hf,hname.symm,by rw [← huid,← hvalidity]; exact hfetched⟩

theorem appendItem_scan (hf : folder ∈ targets) {pending : List PendingItem} {item : PendingItem}
    (hitem : item ∈ pending) (links : List (SourceItemKey × SourceItemKey)) :
    Triple (ScanOf env accountId start opened targets folder uidvalidity pending)
      (appendItem env accountId links item)
      (fun _ => ScanOf env accountId start opened targets folder uidvalidity pending)
      (fun _ => Surveyed env accountId start opened targets) := by
  unfold appendItem
  split
  · exact Triple.ret fun _ hw => hw
  · next event record hevent hrecord =>
    refine Triple.seq (Q := fun _ => ScanOf env accountId start opened targets folder uidvalidity
      pending) ?_ fun _ => (ScanOf.within (Within.ofExcept _)).seq fun found => ?_
    · refine appendManifest_rule (fun w last hw _ => ?_) fun w _ hw _ =>
        (ScanOf.closed.ticked w hw).1.surveyed
      obtain ⟨hscan,hpending⟩ := ScanOf.closed.ticked w hw
      exact ⟨hscan.appended hf (hpending ▸ hitem) hevent hrecord last,hpending⟩
    · split
      · exact Triple.ret fun _ hw => hw
      · exact ScanOf.within (Within.nowIso.seq fun _ => (Within.appendManifest trivial).seq fun _ =>
          .ret _)
  · next event hevent hfetch =>
    intro w hw
    obtain ⟨ref,hof⟩ := hw.1.items item (hw.2 ▸ hitem)
    have heventful := hof.event
    unfold PendingItem.Eventful at heventful
    rw [hevent] at heventful
    split at heventful
    · next e record he hr => cases he; exact (hfetch e record hr rfl).elim
    · next e record he _ =>
      cases he
      exact ScanOf.within ((Within.appendManifest trivial).seq fun _ => .ret _) w hw
    · next he _ => cases he
    · exact heventful.elim

/-- The row of a pending item rests on the bytes of its message, and is remembered. -/
theorem Scan.added {w : World} {item : PendingItem} {record : MessageRecord} {id : Nat}
    {db : Repository} (h : Scan env accountId start opened targets folder uidvalidity w)
    (hf : folder ∈ targets) (hitem : item ∈ w.session.pending) (hrecord : item.record = some record)
    (hadd : w.db.addMessage record item.contents = .ok (id,db)) :
    Scan env accountId start opened targets folder uidvalidity
      { w.written (.addMessage record item.contents) db with
        session := { w.session with knownMessages :=
          ((record.folderId,record.uidvalidity.getD 0,record.uid.getD 0),⟨id,record⟩) ::
            w.session.knownMessages } } := by
  obtain ⟨u,haccount,hfolder,hu,hv,hfetched⟩ := h.fetched hf hitem hrecord
  have happly : (WriteOp.addMessage record item.contents).apply w.db = .ok db := by
    rw [WriteOp.apply,hadd]
    rfl
  have htracked := h.surveyed.tracked
  have hreplay : replay start (.write (.addMessage record item.contents) :: w.log) = db :=
    replay_write (htracked.replayed ▸ happly)
  have hnew : (record.toMembership id).serverUid = some (folder.id,uidvalidity,u) :=
    Tables.serverUid_eq_some.mpr ⟨hfolder,hv,hu⟩
  have hwritten : Tracked env start opened targets (fun _ => False)
      (w.written (.addMessage record item.contents) db) := by
    refine htracked.write happly ⟨?_,?_⟩ (Repository.addMessage_placesRows hadd) ?_
    · intro record' contents heq
      cases heq
      exact ⟨folder,hf,hfolder,uidvalidity,u,hv,hu,hfetched⟩
    · intro k hk
      rw [hreplay,← htracked.replayed] at hk ⊢
      rcases Repository.addMessage_status hadd hnew hk with rfl | hsuperseded
      · exact .inl ⟨folder,hf,rfl,.inl hfetched⟩
      · exact .inr ⟨_,hsuperseded,folder,hf,rfl,hfetched⟩
    · intro r hr k hk hunselected
      rcases (Repository.addMessage_rows hadd).mp hr with ⟨hr,-⟩ | rfl
      · exact ⟨r,hr,hk⟩
      · rw [hnew] at hk
        cases hk
        rw [h.selected] at hunselected
        cases hunselected
  have hitems : ItemsOf env accountId folder uidvalidity
      (w.written (.addMessage record item.contents) db) :=
    (ItemsOf.closed (F := syncFootprint)).written w _ db trivial happly h.items
  have hselected := hwritten.selected
  have hrows := hwritten.rows
  simp only [ItemsOf,World.written_session,World.written_db] at hitems hselected hrows
  have hknown := (haccount ▸ h.surveyed.known).added hadd ⟨hu,hv⟩
  rw [haccount] at hknown
  refine ⟨⟨⟨hwritten.begun,hwritten.replayed,hwritten.guarded,hwritten.placing,hwritten.answers,
    hselected,?_⟩,?_⟩,h.selected,hitems⟩
  · simp only [World.written_db]
    exact hrows
  · simp only [World.written_db,hu,hv,Option.getD_some]
    exact hknown

theorem writeItem_scan (hf : folder ∈ targets) {pending : List PendingItem} {item : PendingItem}
    (hitem : item ∈ pending) (links : List (SourceItemKey × SourceItemKey)) :
    Triple (ScanOf env accountId start opened targets folder uidvalidity pending)
      (writeItem env accountId links item)
      (fun _ => ScanOf env accountId start opened targets folder uidvalidity pending)
      (fun _ => Surveyed env accountId start opened targets) := by
  refine Triple.seq (Q := fun _ => ScanOf env accountId start opened targets folder uidvalidity
    pending) ?_ fun _ => ?_
  · split
    · next record hrecord =>
      -- the row and its entry of `known_messages` come together
      refine Triple.seq (Q := fun id w => ∃ v db, ScanOf env accountId start opened targets folder
        uidvalidity pending v ∧ v.db.addMessage record item.contents = .ok (id,db) ∧
          w = v.written (.addMessage record item.contents) db) ?_ fun id =>
        Triple.seq (Q := fun _ => ScanOf env accountId start opened targets folder uidvalidity
          pending) (Triple.write ?_) fun _ =>
          ScanOf.within (Within.loop _ fun _ _ => Within.writeRepo rfl)
      · exact addMessage_rule (fun w id db hw hadd => ⟨w.ticked,db,ScanOf.closed.ticked w hw,hadd,
          rfl⟩) fun w _ hw _ => (ScanOf.closed.ticked w hw).1.surveyed
      · rintro w ⟨v,db,⟨hscan,hpending⟩,hadd,rfl⟩
        have hadded := hscan.added hf (hpending ▸ hitem) hrecord hadd
        simp only [World.written_session]
        exact ⟨hadded,hpending⟩
    · exact Triple.ret fun _ hw => hw
  · split
    · exact ScanOf.within (Within.writeRepo rfl)
    · split
      · exact ScanOf.within (Within.writeRepo rfl)
      · exact Triple.ret fun _ hw => hw
    · exact Triple.ret fun _ hw => hw

theorem checkpointBatch_scan {pending : List PendingItem} :
    Triple (ScanOf env accountId start opened targets folder uidvalidity pending)
      (checkpointBatch env accountId)
      (fun _ => Scan env accountId start opened targets folder uidvalidity)
      (fun _ => Surveyed env accountId start opened targets) := by
  have hplain : ∀ {α : Type} {p : App α}, Within plainFootprint p →
      Triple (Scan env accountId start opened targets folder uidvalidity) p
        (fun _ => Scan env accountId start opened targets folder uidvalidity)
        (fun _ => Surveyed env accountId start opened targets) := fun hp =>
    (hp _ Scan.closed).consequence (fun _ h => h) (fun _ _ h => h) fun _ _ h => h.surveyed
  refine Triple.seq (Q := fun _ => Scan env accountId start opened targets folder uidvalidity)
    (Triple.write ?_) fun _ => ?_
  · rintro w ⟨hw,-⟩
    obtain ⟨⟨htracked,hknown⟩,hselected,-⟩ := hw
    exact ⟨⟨⟨htracked.begun,htracked.replayed,htracked.guarded,htracked.placing,htracked.answers,
      htracked.selected,htracked.rows⟩,hknown⟩,hselected,by simp [ItemsOf]⟩
  · refine (hplain Within.nextTick).seq fun t => (hplain Within.read).seq fun v =>
      (hplain (Within.timestamp.seq fun _ => (Within.appendManifest trivial).seq fun _ =>
        Within.flushAndSync trivial)).seq fun _ => ?_
    split
    · exact hplain Within.repoCall
    · exact Triple.ret fun _ hw => hw

theorem commitPending_scan (hf : folder ∈ targets) (cursor : Option CursorUpdate) :
    Triple (Scan env accountId start opened targets folder uidvalidity)
      (commitPending env accountId cursor)
      (fun _ => Scan env accountId start opened targets folder uidvalidity)
      (fun e w => Surveyed env accountId start opened targets w ∧ e.isLocal = true) := by
  suffices h : Triple (Scan env accountId start opened targets folder uidvalidity)
      (commitPending env accountId cursor)
      (fun _ => Scan env accountId start opened targets folder uidvalidity)
      (fun _ => Surveyed env accountId start opened targets) from
    (h.and (commitPending_local cursor)).consequence (fun w hw => ⟨hw,trivial⟩)
      (fun _ _ hw => hw.1) fun _ _ hw => hw
  have hcursor : Within plainFootprint (writeCursor env cursor) := by
    unfold writeCursor
    split
    · exact Within.writeRepo rfl
    · exact .ret _
  refine Triple.seq (Triple.read (Q := fun v w => ScanOf env accountId start opened targets folder
    uidvalidity v.session.pending w) fun w hw => ⟨hw,rfl⟩) fun v => ?_
  split
  · exact Triple.ret fun w hw => hw.1
  · refine Triple.seq (Q := fun _ => ScanOf env accountId start opened targets folder uidvalidity
      v.session.pending) ?_ fun links => Triple.seq (Q := fun _ => ScanOf env accountId start opened
        targets folder uidvalidity v.session.pending) ?_ fun _ => checkpointBatch_scan
    · exact (Triple.accumulate (I := fun _ => ScanOf env accountId start opened targets folder
        uidvalidity v.session.pending) _ (fun links item hitem => appendItem_scan hf hitem links)
        _).seq fun _ => (ScanOf.within (appendSnapshots_within (fun _ => trivial) _)).seq fun _ =>
        (ScanOf.within (Within.flushAndSync trivial)).seq fun _ => Triple.ret fun _ hw => hw
    · exact (ScanOf.within Within.beginBatch).seq fun _ =>
        (Triple.loop _ fun item hitem => writeItem_scan hf hitem links).seq fun _ =>
        (ScanOf.within hcursor).seq fun _ => ScanOf.within Within.commitBatch

theorem folderWalk_scan (hf : folder ∈ targets) : FolderWalk env accountId options folder
    uidvalidity (Scan env accountId start opened targets folder uidvalidity)
    (fun e w => Surveyed env accountId start opened targets w ∧ (e.isLocal = false →
      Scan env accountId start opened targets folder uidvalidity w)) where
  closed := Scan.closed.mono scanFootprint_le_plain
  raised _ _ hw := ⟨hw.surveyed,fun _ => hw⟩
  attempted _ _ hw :=
    ⟨⟨⟨hw.1.1.1,hw.1.1.2,hw.1.1.3,hw.1.1.4,hw.1.1.5,hw.1.1.6,hw.1.1.7⟩,hw.1.2⟩,hw.2,hw.3⟩
  processRef ref := by
    refine (processRef_rule (Scan.closed.mono itemFootprint_le_plain) ?_).consequence
      (fun _ hw => hw) (fun _ _ hw => hw) fun _ _ hw => ⟨hw.surveyed,fun _ => hw⟩
    rintro w item ⟨⟨htracked,hknown⟩,hselected,hitems⟩ hitem
    refine ⟨⟨⟨htracked.begun,htracked.replayed,htracked.guarded,htracked.placing,htracked.answers,
      htracked.selected,htracked.rows⟩,hknown⟩,hselected,fun i hi => ?_⟩
    rcases List.mem_append.mp hi with hi | hi
    · exact hitems i hi
    · rw [List.mem_singleton.mp hi]
      exact ⟨ref,hitem⟩
  commitPending cursor := (commitPending_scan hf cursor).consequence (fun _ hw => hw)
    (fun _ _ hw => hw) fun e w hw => ⟨hw.1,fun he => by rw [hw.2] at he; cases he⟩

/-- The first SELECT of a folder makes its UIDVALIDITY known to the run. -/
theorem selectFolder_observed {F : Footprint} {I : World → Prop} (hI : Closed F I)
    {folderRawName : String} (hselect : F.note (.command (.select folderRawName)))
    (hopened : ∀ w, I w → opened ≤ w.tick) :
    Triple I (selectFolder env folderRawName)
      (fun v w => I w ∧ Observed env opened w.tick folderRawName v) (fun _ => I) := by
  have hlogged : ∀ w, I w → I (w.ticked.logged (.command (.select folderRawName))) := fun w hw =>
    hI.logged w.ticked _ hselect trivial (hI.ticked w hw)
  refine imapCommand_rule (Q := fun t w => I w ∧ opened ≤ t ∧ t < w.tick)
    (fun w hw => ⟨hlogged w hw,hopened w hw,Nat.lt_succ_self _⟩) (fun w _ hw => hlogged w hw) |>.seq
    fun t => Triple.ret fun w hw => ⟨hw.1,t,hw.2.1,hw.2.2,rfl⟩

theorem Surveyed.selectedAs {w : World} {v : Nat}
    (h : Surveyed env accountId start opened targets w)
    (hid : ∀ f ∈ targets, f.id = folder.id → f = folder)
    (hobserved : Observed env opened w.tick folder.rawName v) :
    Surveyed env accountId start opened targets { w with session :=
      { w.session with selected := (folder.id,v) :: w.session.selected } } where
  tracked :=
    { begun := h.tracked.begun
      replayed := h.tracked.replayed
      guarded := h.tracked.guarded
      placing := h.tracked.placing
      answers := h.tracked.answers
      selected := by
        intro f hf v' hv'
        rw [List.lookup_cons] at hv'
        by_cases hff : f.id = folder.id
        · rw [hff,beq_self_eq_true] at hv'
          cases hv'
          rw [hid f hf hff]
          exact hobserved
        · rw [beq_eq_false_iff_ne.mpr hff] at hv'
          exact h.tracked.selected f hf v' hv'
      rows := by
        intro r hr k hk hunselected
        rw [List.lookup_cons] at hunselected
        split at hunselected
        · cases hunselected
        · exact h.tracked.rows r hr k hk hunselected }
  known := h.known

theorem syncFolder_surveyed (google : Bool) (hf : folder ∈ targets)
    (hid : ∀ f ∈ targets, f.id = folder.id → f = folder) :
    Triple (Surveyed env accountId start opened targets)
      (syncFolder env accountId google options folder)
      (fun _ => Surveyed env accountId start opened targets)
      (fun _ => Surveyed env accountId start opened targets) := by
  refine Triple.seq (selectFolder_observed Surveyed.closed trivial
    fun w hw => hw.tracked.begun.le) fun uidvalidity => ?_
  let Chosen := fun w : World => Surveyed env accountId start opened targets w ∧
    w.session.selected.lookup folder.id = some uidvalidity
  have hChosen : Closed plainFootprint Chosen := Surveyed.closed.and
    (Closed.ofScan (φ := fun s => s.selected.lookup folder.id = some uidvalidity)
      fun s s' hs h => by rw [hs.1]; exact h)
  refine Triple.seq (Q := fun _ => Chosen) (Triple.write fun w hw =>
    ⟨hw.1.selectedAs hid hw.2,by simp⟩) fun _ => ?_
  refine Triple.seq (((openCursors_within folder uidvalidity).mono openFootprint_le_plain Chosen
    hChosen).consequence (fun _ h => h) (fun _ _ h => h) fun _ _ h => h.1) fun cursors => ?_
  refine Triple.seq (Q := fun _ => Scan env accountId start opened targets folder uidvalidity)
    (Triple.write ?_) fun _ => ?_
  · rintro w ⟨⟨htracked,hknown⟩,hselected⟩
    exact ⟨⟨⟨htracked.begun,htracked.replayed,htracked.guarded,htracked.placing,htracked.answers,
      htracked.selected,htracked.rows⟩,hknown⟩,hselected,by simp [ItemsOf]⟩
  · exact ((folderWalk_scan hf).handled (fun _ _ hw => hw.2) google cursors).consequence
      (fun _ hw => hw) (fun _ _ hw => hw.surveyed) fun _ _ hw => hw.1

/-! The detection pass. -/

/-- The folders the run did not get to select. -/
def Unselected (selected : List (Nat × Nat)) (f : Folder) : Prop := selected.lookup f.id = none

theorem Tracked.detecting {w : World}
    (h : Tracked env start opened targets (fun _ => False) w) :
    Tracked env start opened targets (Unselected w.session.selected) w where
  begun := h.begun
  replayed := h.replayed
  guarded := by
    refine h.guarded.mono fun before e => Coherent.mono (fun _ _ _ _ _ hb => hb) ?_
    rintro before f - v u ⟨hanswer,hobserved | ⟨hfalse,-⟩⟩
    · exact ⟨hanswer,.inl hobserved⟩
    · exact hfalse.elim
  placing := h.placing
  answers := h.answers
  selected := h.selected
  rows := h.rows

/-- While the detection pass runs, the selected folders stay the same. -/
def Detecting (env : Env) (start : Repository) (opened : Nat) (targets : List Folder)
    (selected : List (Nat × Nat)) (w : World) : Prop :=
  Tracked env start opened targets (Unselected selected) w ∧ w.session.selected = selected

theorem Detecting.gone {selected : List (Nat × Nat)} {w : World} {uid : Nat}
    (h : Detecting env start opened targets selected w) (hf : folder ∈ targets)
    (habsent : Absent w.log folder.rawName uid)
    (hrow : ∃ r ∈ w.db.tables.memberships,
      r.serverUid = some (folder.id,generation selected folder,uid)) :
    Gone env start opened w.tick (Unselected selected) w.log folder (generation selected folder)
      uid := by
  obtain ⟨t,uids,hanswer,huid⟩ := habsent
  obtain ⟨hopened,ht⟩ := h.1.answers t _ hanswer
  refine ⟨⟨t,uids,hopened,ht,hanswer,huid⟩,?_⟩
  cases hlookup : selected.lookup folder.id with
  | some v =>
    rw [generation,hlookup]
    exact .inl (h.1.selected folder hf v (h.2 ▸ hlookup))
  | none =>
    obtain ⟨r,hr,hk⟩ := hrow
    have hgeneration : generation selected folder = folder.uidvalidity.getD 0 := by
      rw [generation,hlookup,Option.getD_none]
    exact .inr ⟨hlookup,hgeneration,h.1.rows r hr _ hk (h.2 ▸ hlookup)⟩

theorem Detecting.keeps {selected : List (Nat × Nat)} (hf : folder ∈ targets) (google : Bool) :
    DetectKeeps google folder (generation selected folder)
      (Detecting env start opened targets selected) where
  closed := (Tracked.closed.and (Closed.ofScan (φ := fun s => s.selected = selected)
    fun _ _ hs h => hs.1.trans h)).mono lookFootprint_le_plain
  event w e last hw hname hv habsent hrow := by
    refine ⟨hw.1.log rfl rfl rfl rfl rfl ?_ trivial trivial,hw.2⟩
    refine ⟨folder,hf,hname.symm,?_⟩
    rw [hv]
    exact hw.gone hf habsent hrow
  write w op db uid hw hop happly heffect habsent := by
    have hreplay : replay start (.write op :: w.log) = db :=
      replay_write (hw.1.replayed ▸ happly)
    refine ⟨hw.1.write happly ⟨?_,?_⟩ (heffect.placesRows hop happly) ?_,
      by rw [World.written_session]; exact hw.2⟩
    · rintro record contents rfl
      exact hop.elim
    · intro k hk
      rw [hreplay,← hw.1.replayed] at hk ⊢
      have hkk : k = (folder.id,generation selected folder,uid) := by
        by_contra hne
        exact hk (heffect.status k hne)
      subst hkk
      refine .inl ⟨folder,hf,rfl,.inr (hw.gone hf habsent ?_)⟩
      -- a row that was not there before the write is not there after it
      by_contra hnone
      push Not at hnone
      have hbefore : w.db.tables.status (folder.id,generation selected folder,uid) = none :=
        Tables.status_eq_none_iff.mpr hnone
      rw [hbefore] at hk
      refine hk (Tables.status_eq_none_iff.mpr fun r' hr' hk' => ?_)
      obtain ⟨r,hr,huid,-⟩ := heffect.rows r' hr'
      exact hnone r hr (huid.trans hk')
    · intro r' hr' k hk _
      obtain ⟨r,hr,huid,-⟩ := heffect.rows r' hr'
      exact ⟨r,hr,huid.trans hk⟩

/-! The run. -/

theorem Detecting.tracked {selected : List (Nat × Nat)} {w : World}
    (h : Detecting env start opened targets selected w) :
    Tracked env start opened targets (Unselected w.session.selected) w := by
  rw [h.2]
  exact h.1

theorem syncTargets_tracked (google : Bool)
    (hid : ∀ f ∈ targets, ∀ g ∈ targets, g.id = f.id → g = f) :
    Triple (Surveyed env accountId start opened targets)
      (syncTargets env accountId options google targets)
      (fun _ w => Tracked env start opened targets (Unselected w.session.selected) w)
      (fun _ w => Tracked env start opened targets (Unselected w.session.selected) w) := by
  have hresult : ∀ {P : World → Prop} {E : Error → World → Prop} cancelled,
      Triple P (syncResult cancelled) (fun _ => P) E := fun _ =>
    (Triple.read fun _ hw => hw).seq fun _ => Triple.ret fun _ hw => hw
  have hraised : ∀ (_ : Error) w, Surveyed env accountId start opened targets w →
      Tracked env start opened targets (Unselected w.session.selected) w :=
    fun _ _ hw => hw.tracked.detecting
  have hfolders : Triple (Surveyed env accountId start opened targets)
      (syncFolders env accountId google options targets [])
      (fun _ => Surveyed env accountId start opened targets)
      (fun _ => Surveyed env accountId start opened targets) :=
    syncFolders_walk (E := fun _ => Surveyed env accountId start opened targets)
      (fun _ _ hw _ => hw) targets
      (fun folder hf => syncFolder_surveyed google hf (hid folder hf)) []
  refine (hfolders.consequence (fun _ hw => hw) (fun _ _ hw => hw) hraised).seq fun scanned => ?_
  split
  · exact (hresult true).strengthen_post fun _ w hw => hraised ⟨.cancelled,""⟩ w hw
  · next scanned =>
    refine Triple.seq (Q := fun _ => Surveyed env accountId start opened targets) ?_ fun _ => ?_
    · split
      · exact Triple.ret fun _ hw => hw
      · exact (Within.repoCall _ Surveyed.closed).consequence (fun _ hw => hw) (fun _ _ hw => hw)
          hraised
    · -- the session of the first detection is the one of the whole pass
      intro w hw
      refine Triple.seq ((Triple.loop (I := fun v => Detecting env start opened targets
        w.session.selected v ∧ v.session.Remembers w.session.knownMessages w.session.selected ∧
        KnownRows google accountId w.session.knownMessages v.db.tables) targets
        fun folder hf => (detectFolder_rule (Detecting.keeps hf google)).consequence
          (fun _ h => h) (fun _ _ h => h) fun _ _ h => h.tracked)) (fun _ =>
        (hresult false).strengthen_post fun _ _ h => h.1.tracked) w ?_
      exact ⟨⟨hw.tracked.detecting,rfl⟩,⟨rfl,rfl⟩,hw.known.weaken google⟩

/-- Before the first call nothing is known and nothing is written. -/
theorem surveyed_opened {manifest : List ManifestEvent} {lastCheckpoint : Option Nat}
    {files : List (String × Bytes)} {w : World}
    (hw : w = (World.opened start manifest lastCheckpoint files opened).ticked) :
    Surveyed env accountId start opened targets w := by
  subst hw
  exact
    { tracked :=
        { begun := Nat.lt_succ_self _
          replayed := rfl
          guarded := trivial
          placing := trivial
          answers := fun t a ha => by cases ha
          selected := fun f _ v hv => by cases hv
          rows := fun r hr k hk _ => ⟨r,hr,hk⟩ }
      known := fun k entry h => by cases h }

theorem syncAccount_tracked (manifest : List ManifestEvent) (lastCheckpoint : Option Nat)
    (files : List (String × Bytes)) (htargets : targets = start.tables.listSyncTargets accountId) :
    Triple (fun w => w = World.opened start manifest lastCheckpoint files opened)
      (syncAccount env accountId options)
      (fun _ w => Tracked env start opened targets (Unselected w.session.selected) w)
      (fun _ w => Tracked env start opened targets (Unselected w.session.selected) w) := by
  have hid : ∀ f ∈ targets, ∀ g ∈ targets, g.id = f.id → g = f := by
    intro f hf g hg hgf
    rw [htargets] at hf hg
    simp only [Tables.listSyncTargets,Tables.listFolders,List.mem_filter,
      List.mem_insertionSort] at hf hg
    exact start.valid.folderId.eq_of_key hg.1.1 hf.1.1 (congrArg some hgf) rfl
  -- no write comes before the targets are read
  let Fresh := fun w : World => Surveyed env accountId start opened targets w ∧ w.db = start
  have hticked : ∀ w, Fresh w → Fresh w.ticked := fun w hw => ⟨Surveyed.closed.ticked w hw.1,hw.2⟩
  have hraised : ∀ (w : World) (e : Error), Fresh w → e.isLocal = true →
      Tracked env start opened targets (Unselected w.ticked.session.selected) w.ticked :=
    fun w _ hw _ => (hticked w hw).1.tracked.detecting
  have haccount : Triple (fun w => w = World.opened start manifest lastCheckpoint files opened)
      (ensureImapAccount env accountId) (fun _ => Fresh)
      (fun _ w => Tracked env start opened targets (Unselected w.session.selected) w) := by
    refine Triple.seq (queryRepo_rule (Q := fun _ => Fresh) ?_ ?_) fun accounts => ?_
    · rintro w rfl
      exact ⟨surveyed_opened rfl,rfl⟩
    · rintro w e rfl -
      exact (surveyed_opened rfl : Surveyed env accountId start opened targets _).tracked.detecting
    · split
      · split
        · exact Triple.raise fun w hw => hw.1.tracked.detecting
        · exact Triple.ret fun _ hw => hw
      · exact Triple.ret fun _ hw => hw
  refine haccount.seq fun _ => Triple.seq (queryRepo_rule (Q := fun _ => Fresh)
    (fun w hw => hticked w hw) hraised) fun accounts =>
    Triple.seq (queryRepo_rule (Q := fun ts w => Fresh w ∧ ts = targets) (fun w hw => ?_) hraised)
    fun ts => Triple.assume ?_
  · exact ⟨hticked w hw,by rw [hw.2,htargets]⟩
  · rintro rfl
    refine Triple.seq (Q := fun _ => Surveyed env accountId start opened ts) (Triple.write ?_)
      fun _ => syncTargets_tracked _ hid
    rintro w ⟨⟨htracked,-⟩,hdb⟩
    exact
      { tracked :=
          { begun := htracked.begun
            replayed := htracked.replayed
            guarded := htracked.guarded
            placing := htracked.placing
            answers := htracked.answers
            selected := fun f _ v hv => by cases hv
            rows := fun r hr k hk _ => ⟨r,hdb ▸ hr,hk⟩ }
        known := fun k entry h => by cases h }

end

/-- The bytes of a UID, delivered while the folder had the UIDVALIDITY. -/
def BytesOf (env : Env) : Grounds := fun before f uidvalidity uid =>
  ∃ t, .answer t (.body f.rawName uid) ∈ before ∧ env.uidvalidity t f.rawName = uidvalidity

/-- The absence of a UID from a folder that had the UIDVALIDITY. -/
def AbsenceOf (env : Env) : Grounds := fun before f uidvalidity uid =>
  ∃ t uids, .answer t (.uids f.rawName uids) ∈ before ∧ uid ∉ uids ∧
    env.uidvalidity t f.rawName = uidvalidity

/-- The server keeps the UIDVALIDITY of every target during the run; and a target whose
SELECT failed still has the UIDVALIDITY the database knows, or no row of that generation. -/
structure KeepsGenerations (env : Env) (db : Repository) (targets : List Folder)
    (opened closed : Nat) (selected : List (Nat × Nat)) : Prop where
  steady : ∀ f ∈ targets, ∀ t, opened ≤ t → t < closed →
    env.uidvalidity t f.rawName = env.uidvalidity opened f.rawName
  stored : ∀ f ∈ targets, selected.lookup f.id = none →
    env.uidvalidity opened f.rawName = f.uidvalidity.getD 0 ∨
    ∀ r ∈ db.tables.memberships, ∀ u, r.serverUid ≠ some (f.id,f.uidvalidity.getD 0,u)

/-- Coherence of a run.  When the server keeps the generations of the folders, every
fetch event and every event of the detection pass, every fetched row and every change
of the status of a server UID rests on bytes or on an absence that the server reported
under the UIDVALIDITY it is recorded with. -/
theorem syncAccount_coherent (env : Env) (accountId : String) (options : SyncOptions)
    (db : Repository) (manifest : List ManifestEvent) (lastCheckpoint : Option Nat)
    (files : List (String × Bytes)) (opened : Nat) (final : World)
    (hfinal : final = (syncAccount env accountId options
      (World.opened db manifest lastCheckpoint files opened)).2)
    (hkeeps : KeepsGenerations env db (db.tables.listSyncTargets accountId) opened final.tick
      final.session.selected) :
    Always (Coherent db (db.tables.listSyncTargets accountId) (BytesOf env) (AbsenceOf env))
      final.log := by
  have htracked : Tracked env db opened (db.tables.listSyncTargets accountId)
      (Unselected final.session.selected) final := by
    subst hfinal
    refine Triple.final (p := syncAccount env accountId options) (R := fun w => Tracked env db opened
      (db.tables.listSyncTargets accountId) (Unselected w.session.selected) w)
      (syncAccount_tracked manifest lastCheckpoint files rfl) ?_
    rfl
  have hsame : ∀ f ∈ db.tables.listSyncTargets accountId, ∀ t v, opened ≤ t → t < final.tick →
      Observed env opened final.tick f.rawName v → env.uidvalidity t f.rawName = v := by
    rintro f hf t v hopened ht ⟨t',hopened',ht',rfl⟩
    rw [hkeeps.steady f hf t hopened ht,hkeeps.steady f hf t' hopened' ht']
  refine htracked.guarded.mono fun before e => Coherent.mono ?_ ?_
  · rintro before f hf v u ⟨⟨t,hopened,ht,hanswer⟩,hobserved⟩
    exact ⟨t,hanswer,hsame f hf t v hopened ht hobserved⟩
  · rintro before f hf v u ⟨⟨t,uids,hopened,ht,hanswer,huid⟩,hobserved | ⟨hselected,rfl,r,hr,hk⟩⟩
    · exact ⟨t,uids,hanswer,huid,hsame f hf t v hopened ht hobserved⟩
    · refine ⟨t,uids,hanswer,huid,?_⟩
      rcases hkeeps.stored f hf hselected with hstored | hnone
      · rw [hkeeps.steady f hf t hopened ht,hstored]
      · exact absurd hk (hnone r hr u)

/-- A server that renumbers its folders between two commands of a run. -/
def resettingServer (reset : Nat) : Env :=
  { steadyServer 9 (fun _ => [12]) with
    uidvalidity := fun t _ => if t < reset then 9 else 10 }

/-- The log shows a fetch under UIDVALIDITY 9, and all bytes came after the reset. -/
def fetchedAfterReset (reset : Nat) (log : List Effect) : Bool :=
  log.any fun effect => match effect with
    | .append (.fetch e) => e.uidvalidity == 9 && log.all fun effect => match effect with
      | .answer t (.body _ _) => reset ≤ t
      | _ => true
    | _ => false

theorem fetchedAfterReset_incoherent {reset : Nat} {start : Repository} {targets : List Folder}
    {log : List Effect} (hlog : fetchedAfterReset reset log = true) :
    ¬ Always (Coherent start targets (BytesOf (resettingServer reset))
      (AbsenceOf (resettingServer reset))) log := by
  intro h
  obtain ⟨effect,heffect,hcheck⟩ := List.any_eq_true.mp hlog
  split at hcheck
  · next e =>
    rw [Bool.and_eq_true,beq_iff_eq,List.all_eq_true] at hcheck
    obtain ⟨after,before,rfl⟩ := List.append_of_mem heffect
    obtain ⟨f,-,-,t,hanswer,hv⟩ := h.at
    have ht : reset ≤ t := by
      simpa using hcheck.2 _ (List.mem_append_right _ (List.mem_cons_of_mem _ hanswer))
    have hreset : (resettingServer reset).uidvalidity t f.rawName = 10 := if_neg (by omega)
    rw [hreset,hcheck.1] at hv
    cases hv
  · cases hcheck

/-- The SELECT of the scan is the command of tick 3; the folder is renumbered after it. -/
theorem syncAccount_fetches_across_reset :
    ¬ Always (Coherent freshInbox (freshInbox.tables.listSyncTargets "work")
        (BytesOf (resettingServer 4)) (AbsenceOf (resettingServer 4)))
      (syncAccount (resettingServer 4) "work" {} (World.opened freshInbox [] none [] 0)).2.log :=
  fetchedAfterReset_incoherent (by decide +kernel)

/-- A server that is never renumbered, and a run that fetches a message from it. -/
theorem syncAccount_coherent_single :
    ∃ final e, final = (syncAccount (steadyServer 9 fun _ => [12]) "work" {}
        (World.opened freshInbox [] none [] 0)).2 ∧ .append (.fetch e) ∈ final.log ∧
      Always (Coherent freshInbox (freshInbox.tables.listSyncTargets "work")
        (BytesOf (steadyServer 9 fun _ => [12])) (AbsenceOf (steadyServer 9 fun _ => [12])))
        final.log := by
  have hfetch : ((syncAccount (steadyServer 9 fun _ => [12]) "work" {}
      (World.opened freshInbox [] none [] 0)).2.log).any (fun effect => match effect with
        | .append (.fetch _) => true
        | _ => false) = true := by decide +kernel
  obtain ⟨final,hfinal⟩ : ∃ final, final = (syncAccount (steadyServer 9 fun _ => [12]) "work" {}
      (World.opened freshInbox [] none [] 0)).2 := ⟨_,rfl⟩
  rw [← hfinal] at hfetch
  obtain ⟨effect,heffect,hcheck⟩ := List.any_eq_true.mp hfetch
  split at hcheck
  · next e =>
    refine ⟨final,e,hfinal,heffect,
      syncAccount_coherent _ "work" {} freshInbox [] none [] 0 final hfinal ?_⟩
    exact ⟨fun _ _ _ _ _ => rfl,fun f _ _ => .inr fun r hr => by cases hr⟩
  · cases hcheck

end MailDock
