import MailDock.Sync.FlagReports

/-!
# The refresh of the flags of a folder

The flags are asked for since the tick at which the MODSEQ was read that is stored afterwards.  So
they are the server's up to that MODSEQ, whichever of the three ways the refresh takes.

## Main definitions

- `RefreshDone` — a refresh that has come to its end
- `RefreshSettled` — what it told, and up to which MODSEQ

## Main results

- `refreshFlags_settled` — `refreshFlags` keeps what a run knows of the flags
-/

namespace MailDock

open Hoare Trace

/-! ## The answers of the server -/

/-- The refresh has written nothing yet. -/
def RefreshOpened (S : FlagHistory) (start stop : Nat) (first : Repository) (env : Env)
    (r : FlagRefresh) (rest : List Folder) (seen : Nat) (t : Tables) (w : World) : Prop :=
  Refreshing S start stop first env r rest seen w ∧ w.db.tables = t

/-- The commands and the answers of a refresh. -/
def reportFootprint : Footprint :=
  { refreshFootprint with event := fun _ => False, op := fun _ => False }

section
variable {S : FlagHistory} {start stop : Nat} {first : Repository} {env : Env} {r : FlagRefresh}
  {rest : List Folder} {seen : Nat} {t : Tables}

theorem RefreshOpened.closed :
    Closed reportFootprint (RefreshOpened S start stop first env r rest seen t) := by
  have hle : reportFootprint.Le refreshFootprint :=
    ⟨fun _ he => he,fun _ he => he.elim,fun _ ho => ho.elim⟩
  exact (Refreshing.closed.mono hle).and (Closed.ofDb (φ := fun db => db.tables = t) fun _ ho => ho)

/-- The folder is selected at a tick of the refresh. -/
theorem RefreshOpened.select : Triple (RefreshOpened S start stop first env r rest seen t)
    (imapCommand env (.select r.folder.rawName))
    (fun tick w => (RefreshOpened S start stop first env r rest seen t w ∧ tick + 1 = w.tick) ∧
      seen ≤ tick) (fun _ => Refreshing S start stop first env r rest seen) := by
  have hlogged : ∀ w, RefreshOpened S start stop first env r rest seen t w →
      RefreshOpened S start stop first env r rest seen t
        (w.ticked.logged (.command (.select r.folder.rawName))) := fun w hw =>
    RefreshOpened.closed.logged w.ticked _ trivial trivial (RefreshOpened.closed.ticked w hw)
  exact imapCommand_rule (fun w hw => ⟨⟨hlogged w hw,rfl⟩,hw.1.seen_le⟩)
    fun w _ hw => (hlogged w hw).1

theorem iterFlags_opened (uids : List Nat) :
    Triple (RefreshOpened S start stop first env r rest seen t)
      (iterFlags env r.folder.rawName uids none)
      (fun reports w => RefreshOpened S start stop first env r rest seen t w ∧ ∃ tick, seen ≤ tick ∧
        reports.1 = (env.flagRefs tick r.folder.rawName).1.filter (fun ref => uids.contains ref.uid) ∧
        reports.2 = (env.flagRefs tick r.folder.rawName).2)
      (fun _ => Refreshing S start stop first env r rest seen) := by
  unfold iterFlags
  split
  · exact Triple.raise fun _ hw => hw.1
  · refine RefreshOpened.select.seq fun tick => Triple.assume fun hseen => ?_
    refine Triple.seq ((flagReports_past RefreshOpened.closed (fun _ _ => trivial) _).weaken_error
      fun _ _ hw => hw.1) fun _ => Triple.ret fun _ hw => ⟨hw.1,tick,hseen,rfl,rfl⟩

theorem iterFlagsSince_opened (modseq : Nat) :
    Triple (RefreshOpened S start stop first env r rest seen t)
      (iterFlagsSince env r.folder.rawName modseq)
      (fun reports w => RefreshOpened S start stop first env r rest seen t w ∧ ∃ tick, seen ≤ tick ∧
        reports = env.flagRefsSince tick r.folder.rawName modseq)
      (fun _ => Refreshing S start stop first env r rest seen) := by
  unfold iterFlagsSince
  split
  · exact Triple.raise fun _ hw => hw.1
  · refine RefreshOpened.select.seq fun tick => Triple.assume fun hseen => ?_
    refine Triple.seq ((flagReports_past RefreshOpened.closed (fun _ _ => trivial) _).weaken_error
      fun _ _ hw => hw.1) fun _ => Triple.ret fun _ hw => ⟨hw.1,tick,hseen,rfl⟩

end

/-! ## The stored MODSEQ -/

section
variable {S : FlagHistory} {start stop : Nat} {first : Repository} {env : Env} {r : FlagRefresh}
  {rest : List Folder} {seen : Nat} {t : Tables} {accountId : String} {windowDays : Nat}

/-- The folder still has the UIDVALIDITY of the run at a moment before it was seen again. -/
theorem Observed.uidvalidity_eq (W : S.Watch env accountId windowDays start stop)
    (haccount : r.folder.accountId = accountId)
    (h : Observed env 0 seen r.folder.rawName r.uidvalidity) {m later : Nat}
    (hm : W.moment seen ≤ m) (hlater : m ≤ later)
    (hsame : S.uidvalidity later r.folder.mailbox = r.uidvalidity) :
    S.uidvalidity m r.folder.mailbox = r.uidvalidity := by
  obtain ⟨tick,-,htick,hv⟩ := h
  rw [W.uidvalidity,← Folder.mailbox_of haccount] at hv
  have hbefore : W.moment tick ≤ m := (W.moment_le _ _ htick.le).trans hm
  exact (S.notReused r.folder.mailbox _ m later hbefore hlater (hv.trans hsame.symm)).trans hv

/-- The rows of the folder agree with the MODSEQ the refresh was asked to start from. -/
theorem Refreshing.agrees_saved {w : World} {m current : Nat} {row : FlagRow}
    (h : Refreshing S start stop first env r rest seen w)
    (hsound : S.Sound (refreshWindow start stop (r.folder.numbered r.uidvalidity :: rest)) stop
      w.db.tables)
    (hstores : StoresKnown first.tables w.db.tables (.setHighestModseq r.folder.id (some current)))
    (hfirst : r.folder ∈ first.tables.folders) (haccount : r.accountId = r.folder.accountId)
    (hm : m ∈ validSqliteModseq r.folder.highestModseq) (hle : m ≤ current)
    (hrow : w.db.tables.ShowsFlags row) (hcovers : r.Covers row) :
    S.Agrees start stop r.folder.mailbox m row := by
  obtain ⟨s,hs,n,-,-,hflag⟩ := id hrow
  obtain ⟨-,hsf,-⟩ := flagRow_eq_some.mp hflag
  obtain ⟨f,hf,hid⟩ := w.db.valid.membershipFolder s hs
  have hid : f.id = r.folder.id := hid.trans (hsf.trans hcovers.folder)
  obtain ⟨hmailbox,hv,hmodseq⟩ := h.following.folders _ List.mem_cons_self f hf hid
  by_cases hsame : r.folder.uidvalidity = some r.uidvalidity
  · have hstored : m ∈ f.highestModseq := by
      rw [hmodseq,Folder.numbered]
      simp only [if_pos hsame]
      exact (Option.mem_filter_iff.mp hm).1
    have hagrees := hsound.agrees f hf m hstored row hrow
      (hcovers.account.trans (haccount.trans (congrArg Mailbox.accountId hmailbox).symm))
      (hcovers.folder.trans hid.symm) (by rw [hv,hcovers.uidvalidity]; rfl)
    rw [hmailbox] at hagrees
    have hwindow : refreshWindow start stop (r.folder.numbered r.uidvalidity :: rest) f.id = start :=
      if_pos (by rw [hid]; exact List.mem_cons_self)
    rwa [hwindow] at hagrees
  · -- the folder was numbered anew, and the MODSEQ is one of the old numbering
    have hlt := hstores _ rfl r.folder hfirst f hf rfl hid (by rw [hv]; exact hsame) m hm
    omega

variable (W : S.Watch env accountId windowDays start stop) (haccount : r.accountId = accountId)
  (hfolder : r.folder.accountId = accountId) (ht : t.Valid) {cutoff : String}
  (hitems : r.items = t.listFlagRefreshItems r.accountId r.folder.id r.uidvalidity cutoff)
  (hcutoff : cutoff ≤ S.since stop)

include W hfolder ht hitems hcutoff

/-- The rows of the folder agree with the MODSEQ that was read before their flags. -/
theorem Refreshing.agrees_current {w : World} {read : Nat → Nat} {saved : Option Nat}
    {current : Nat} {row : FlagRow} (h : Refreshing S start stop first env r rest seen w)
    (htold : Told S r read (fun u => r.isLocal u = true) saved t w.db.tables)
    (hread : ∀ u, W.moment seen ≤ read u ∧ read u ≤ stop)
    (hhighest : env.highestModseq seen r.folder.rawName = some current)
    (hsaved : ∀ m ∈ saved, ∀ row, w.db.tables.ShowsFlags row → r.Covers row →
      S.Agrees start stop r.folder.mailbox m row)
    (hrow : w.db.tables.ShowsFlags row) (hcovers : r.Covers row) :
    S.Agrees stop stop r.folder.mailbox current row := by
  intro hsince later hlater hv hpresent hchanged
  rw [hcovers.uidvalidity] at hv
  have hlocal : r.isLocal row.uid = true := by
    obtain ⟨flags,hold⟩ := htold.same.shows hrow
    obtain ⟨item,hitem,-⟩ := FlagRefresh.find?_row ht hitems hold
      ⟨hcovers.account,hcovers.folder,hcovers.uidvalidity⟩ (String.le_trans hcutoff hsince)
    exact Option.isSome_iff_exists.mpr ⟨item,hitem⟩
  obtain ⟨hafter,hbefore⟩ := hread row.uid
  obtain ⟨s,hs,hsv,rfl⟩ := W.highestModseq seen r.folder.rawName current hhighest
  rw [← Folder.mailbox_of hfolder] at hsv hchanged
  -- when the flags were read the folder had reached the MODSEQ
  have hreadv := h.observed.uidvalidity_eq W hfolder hafter (hbefore.trans hlater) hv
  have hseenv := h.observed.uidvalidity_eq W hfolder le_rfl
    (hafter.trans (hbefore.trans hlater)) hv
  have hreached : S.highest s r.folder.mailbox ≤ S.highest (read row.uid) r.folder.mailbox :=
    S.highest_le _ _ _ (hs.trans hafter) (by rw [hsv,hseenv,hreadv])
  obtain ⟨hthere,hflags,hlast⟩ := S.settled r.folder.mailbox row.uid (read row.uid) later
    (hbefore.trans hlater) (by rw [hreadv,hv]) hpresent (hchanged.trans hreached)
  rcases htold.rows row hrow hcovers hlocal hlocal with ⟨-,hread⟩ | ⟨-,hsilent⟩
  · rw [hread,hflags]
  · obtain ⟨m,hm,hle⟩ := hsilent hthere
    refine hsaved m hm row hrow hcovers ?_ later hlater ?_ hpresent (hlast ▸ hle)
    · exact String.le_trans (S.since_le start stop h.following.ordered) hsince
    · rw [hv,hcovers.uidvalidity]

end

/-- The refresh of a folder is over. -/
structure RefreshLeft (S : FlagHistory) (start stop : Nat) (first : Repository) (rest : List Folder)
    (w : World) : Prop where
  following : Following S start stop first rest w
  pending : w.session.pending = []

/-- It has come to its end, and told what it was asked. -/
structure RefreshDone (S : FlagHistory) (start stop : Nat) (first : Repository) (r : FlagRefresh)
    (rest : List Folder) (read : Nat → Nat) (asked : Nat → Prop) (saved : Option Nat) (t : Tables)
    (w : World) : Prop where
  left : RefreshLeft S start stop first rest w
  told : Told S r read asked saved t w.db.tables
  agrees : Always (KeepsFlags S start stop first) w.log → ∀ m ∈ saved, ∀ row,
    w.db.tables.ShowsFlags row → r.Covers row → S.Agrees start stop r.folder.mailbox m row

section
variable {S : FlagHistory} {start stop : Nat} {first : Repository} {env : Env} {r : FlagRefresh}
  {rest : List Folder} {seen : Nat} {t : Tables} {read : Nat → Nat} {asked : Nat → Prop}
  {saved : Option Nat}

theorem Refreshing.left {w : World} (h : Refreshing S start stop first env r rest seen w) :
    RefreshLeft S start stop first rest w :=
  ⟨h.following.mono fun _ hg => List.mem_cons_of_mem _ hg,h.pending⟩

/-- A refresh that asked for nothing. -/
theorem Told.silent {t' : Tables} (read : Nat → Nat) (h : t' = t) :
    Told S r read (fun _ => False) none t t' where
  same := h ▸ ⟨rfl,rfl⟩
  rows _ _ _ _ hasked := hasked.elim

/-- A refresh that stores no MODSEQ. -/
theorem Refreshing.done {w : World} (h : Refreshing S start stop first env r rest seen w)
    (htold : Told S r read asked none t w.db.tables) :
    RefreshDone S start stop first r rest read asked none t w :=
  ⟨h.left,htold,fun _ m hm => by cases hm⟩

theorem RefreshLeft.closed : Closed reportFootprint (RefreshLeft S start stop first rest) := by
  have hfollowing : Closed reportFootprint (Following S start stop first rest) :=
    Following.closed (fun _ he => refreshFootprint.note_sync he) (fun _ ho => ho.elim)
      fun _ ho => ho.elim
  have hpending : Closed reportFootprint fun w => w.session.pending = [] :=
    Closed.ofScan (φ := fun s => s.pending = []) fun _ _ hs h => hs.2.1.trans h
  exact (hfollowing.and hpending).congr fun w => ⟨fun h => ⟨h.1,h.2⟩,fun h => ⟨h.1,h.2⟩⟩

theorem RefreshDone.committed {w : World}
    (h : RefreshDone S start stop first r rest read asked saved t w) :
    RefreshDone S start stop first r rest read asked saved t w.ticked.batchCommitted where
  left := RefreshLeft.closed.committed _ (RefreshLeft.closed.ticked w h.left)
  told := h.told
  agrees halways := h.agrees halways.2

/-- The last statement of a refresh. -/
theorem storeHighestModseq_done {value : Option Nat} (hrest : ∀ g ∈ rest, g.id ≠ r.folder.id)
    (hstore : ∀ w db, Refreshing S start stop first env r rest seen w →
      Told S r read asked saved t w.db.tables →
      (WriteOp.setHighestModseq r.folder.id value).apply w.db = .ok db →
      StoresKnown first.tables w.db.tables (.setHighestModseq r.folder.id value) →
      S.Sound (refreshWindow start stop (r.folder.numbered r.uidvalidity :: rest)) stop
        w.db.tables →
      S.Sound (refreshWindow start stop rest) stop db.tables ∧
        ∀ m ∈ saved, ∀ row, w.db.tables.ShowsFlags row → r.Covers row →
          S.Agrees start stop r.folder.mailbox m row) :
    Triple (fun w => Refreshing S start stop first env r rest seen w ∧
        Told S r read asked saved t w.db.tables) (storeHighestModseq env r value)
      (fun _ => RefreshDone S start stop first r rest read asked saved t)
      (fun _ => RefreshLeft S start stop first rest) := by
  have hle : reportFootprint.Le refreshFootprint :=
    ⟨fun _ he => he,fun _ he => he.elim,fun _ ho => ho.elim⟩
  have hclosed : Closed reportFootprint fun w => Refreshing S start stop first env r rest seen w ∧
      Told S r read asked saved t w.db.tables := (Refreshing.closed.mono hle).and
    (Closed.ofDb (φ := fun db => Told S r read asked saved t db.tables) fun _ ho => ho)
  refine Triple.seq ((Within.beginBatch _ hclosed).weaken_error fun _ _ hw => hw.1.left) fun _ =>
    Triple.seq (writeRepo_rule (Q := fun _ => RefreshDone S start stop first r rest read asked saved
      t) (fun w db hw happly => ?_) fun w _ hw _ => (hclosed.ticked w hw).1.left) fun _ =>
    commitBatch_rule (fun w hw => hw.committed) fun w _ hw _ => RefreshLeft.closed.ticked w hw.left
  obtain ⟨hrefreshing,htold⟩ := hclosed.ticked w hw
  have hshows : ∀ row, db.tables.ShowsFlags row → w.db.tables.ShowsFlags row := fun row hrow =>
    (WriteOp.keepsRows_shows rfl happly hrow).resolve_right fun hnone => hnone
  have hfollowing : Following S start stop first rest
      (w.ticked.written (.setHighestModseq r.folder.id value) db) := by
    refine hrefreshing.following.wrote happly (fun g hg f' hf' hid => ?_)
      fun _ hstores hsound => (hstore w.ticked db hrefreshing htold happly hstores hsound).1
    obtain ⟨f,hf,hfid,hmailbox,hcase⟩ := WriteOp.apply_numbering happly hf'
    have hknown := hrefreshing.following.folders g (List.mem_cons_of_mem _ hg) f hf
      (hfid.symm.trans hid)
    rcases hcase with ⟨hv,hm⟩ | ⟨value',heq,-⟩ | ⟨v,maxUid,heq,-⟩
    · exact ⟨hmailbox.trans hknown.mailbox,hv.trans hknown.uidvalidity,
        hm.trans hknown.highestModseq⟩
    · injection heq with hstored
      exact absurd (hid.symm.trans (hfid.trans hstored.symm)) (hrest g hg)
    · cases heq
  have htables : Told S r read asked saved t db.tables :=
    { same := htold.same.trans (WriteOp.apply_sameRows rfl happly)
      rows := fun row hrow => htold.rows row (hshows row hrow) }
  refine ⟨⟨hfollowing,by rw [World.written_session]; exact hrefreshing.pending⟩,
    by rw [World.written_db]; exact htables,fun halways m hm row hrow hcovers => ?_⟩
  rw [World.written_db] at hrow
  obtain ⟨hkeeps,hkept⟩ := KeepsFlags.of_written halways
  have hstores := (hkeeps _ rfl).2
  rw [← hrefreshing.following.replayed] at hstores
  exact (hstore w.ticked db hrefreshing htold happly hstores
    (hrefreshing.following.sound hkept).db).2 m hm row (hshows row hrow) hcovers

end

/-! ## The three ways to refresh -/

theorem FlagRefresh.isLocal_iff {r : FlagRefresh} {uid : Nat} :
    r.isLocal uid = true ↔ uid ∈ r.items.filterMap fun item => item.2.uid := by
  simp only [isLocal,find?,List.find?_isSome,beq_iff_eq,List.mem_filterMap]

/-- The flags a refresh compares the answer with are those of the row. -/
theorem FlagRefresh.flags_of_row {r : FlagRefresh} {t : Tables} (ht : t.Valid) {cutoff : String}
    (hitems : r.items = t.listFlagRefreshItems r.accountId r.folder.id r.uidvalidity cutoff)
    {row : FlagRow} (hlocal : r.isLocal row.uid = true) (hrow : t.ShowsFlags row)
    (hcovers : r.Covers row) :
    ((r.find? row.uid).bind fun item => item.2.imapFlags) = row.imapFlags := by
  obtain ⟨row',hrow',hcovers',huid,hdate⟩ := FlagRefresh.row_of_isLocal ht hitems hlocal
  have hsame : row' = row := ht.shows_eq hrow' hrow (hcovers'.folder.trans hcovers.folder.symm)
    (hcovers'.uidvalidity.trans hcovers.uidvalidity.symm) huid
  rw [hsame] at hdate
  obtain ⟨item,hitem,hflags⟩ := FlagRefresh.find?_row ht hitems hrow hcovers hdate
  rw [hitem]
  exact hflags

section
variable {S : FlagHistory} {start stop : Nat} {first : Repository} {env : Env} {r : FlagRefresh}
  {rest : List Folder} {seen : Nat} {t : Tables} {accountId : String} {windowDays : Nat}

/-- A refresh that came to its end told the messages in `asked` since the tick `seen`.  A MODSEQ
`saved` went into the answers of a server with CONDSTORE only. -/
def RefreshSettled (W : S.Watch env accountId windowDays start stop) (first : Repository)
    (r : FlagRefresh) (rest : List Folder) (seen : Nat) (t : Tables) (w : World) : Prop :=
  ∃ read asked saved, (∀ u, W.moment seen ≤ read u ∧ read u ≤ stop) ∧
    (∀ u ∈ r.expiredUids, asked u) ∧ (saved = none ∨ env.condstore = true) ∧
      RefreshDone S start stop first r rest read asked saved t w

variable (W : S.Watch env accountId windowDays start stop) (haccount : r.accountId = accountId)
  (hfolder : r.folder.accountId = accountId) (ht : t.Valid) {cutoff : String}
  (hitems : r.items = t.listFlagRefreshItems r.accountId r.folder.id r.uidvalidity cutoff)
  (hcutoff : cutoff ≤ S.since stop) (hanchored : S.Anchored start r.folder)
  (hfirst : r.folder ∈ first.tables.folders) (hrest : ∀ g ∈ rest, g.id ≠ r.folder.id)
  (hexpired : ∀ u ∈ r.expiredUids, r.isLocal u = true)

theorem FlagHistory.Watch.read_mem (W : S.Watch env accountId windowDays start stop) {tick : Nat}
    (hseen : seen ≤ tick) (u : Nat) : W.moment seen ≤ W.read tick u ∧ W.read tick u ≤ stop :=
  ⟨(W.moment_le _ _ hseen).trans (W.moment_le_read tick u),W.read_le tick u⟩

/-- What is reported was read in the run. -/
theorem ReportsRead.inRun (W : S.Watch env accountId windowDays start stop) {tick : Nat}
    {reports : List RemoteMessageRef}
    (h : ReportsRead S r.folder.mailbox (W.read tick) reports) (uid : Nat) :
    ∀ f ∈ MailDock.toldFlags reports uid, ∃ m, start ≤ m ∧ m ≤ stop ∧
      f = S.flags m r.folder.mailbox uid := fun _ hf =>
  ⟨W.read tick uid,(W.started tick).trans (W.moment_le_read tick uid),W.read_le tick uid,
    (h.toldFlags hf).2⟩

/-- Without a MODSEQ to store there is nothing to prove. -/
theorem storeNone_done {read : Nat → Nat} {asked : Nat → Prop}
    (hrest : ∀ g ∈ rest, g.id ≠ r.folder.id) :
    Triple (fun w => Refreshing S start stop first env r rest seen w ∧
        Told S r read asked none t w.db.tables) (storeHighestModseq env r none)
      (fun _ => RefreshDone S start stop first r rest read asked none t)
      (fun _ => RefreshLeft S start stop first rest) := by
  refine storeHighestModseq_done hrest fun w db hrefreshing _ happly _ hsound =>
    ⟨?_,fun m hm => by cases hm⟩
  refine (hsound.write happly trivial (S.since_refreshWindow hrefreshing.following.ordered _)
    (fun _ _ heq => by cases heq) fun _ _ _ _ _ _ hbrings => hbrings.elim).later
    (refreshWindow_mono hrefreshing.following.ordered fun _ hid => List.mem_cons_of_mem _ hid) le_rfl

include W haccount hfolder ht hitems hcutoff hfirst hrest

theorem storeCurrent_done {read : Nat → Nat} (saved : Option Nat) {current : Nat}
    (hread : ∀ u, W.moment seen ≤ read u ∧ read u ≤ stop)
    (hhighest : env.highestModseq seen r.folder.rawName = some current)
    (hsaved : ∀ m ∈ saved, m ∈ validSqliteModseq r.folder.highestModseq ∧ m ≤ current) :
    Triple (fun w => Refreshing S start stop first env r rest seen w ∧
        Told S r read (fun u => r.isLocal u = true) saved t w.db.tables)
      (storeHighestModseq env r (some current))
      (fun _ => RefreshDone S start stop first r rest read (fun u => r.isLocal u = true) saved t)
      (fun _ => RefreshLeft S start stop first rest) := by
  refine storeHighestModseq_done hrest fun w db hrefreshing htold happly hstores hsound => ?_
  have hagrees : ∀ m ∈ saved, ∀ row, w.db.tables.ShowsFlags row → r.Covers row →
      S.Agrees start stop r.folder.mailbox m row := fun m hm row hrow hcovers =>
    hrefreshing.agrees_saved hsound hstores hfirst (haccount.trans hfolder.symm) (hsaved m hm).1
      (hsaved m hm).2 hrow hcovers
  refine ⟨hsound.store happly (refreshWindow_mono hrefreshing.following.ordered
    fun _ hid => List.mem_cons_of_mem _ hid) (fun f hf hid v hv later hlater hsame => ?_)
    fun f hf hid row hrow hraccount hrfolder hrv => ?_,hagrees⟩
  · obtain ⟨hmailbox,hfv,-⟩ := hrefreshing.following.folders _ List.mem_cons_self f hf hid
    rw [hfv] at hv
    cases hv
    rw [hmailbox] at hsame ⊢
    obtain ⟨s,hs,hsv,rfl⟩ := W.highestModseq seen r.folder.rawName current hhighest
    rw [← Folder.mailbox_of hfolder] at hsv ⊢
    refine ⟨s,hs.trans (W.stopped seen),?_,le_rfl⟩
    exact hsv.trans (hrefreshing.observed.uidvalidity_eq W hfolder le_rfl
      ((W.stopped seen).trans hlater) hsame)
  · obtain ⟨hmailbox,hfv,-⟩ := hrefreshing.following.folders _ List.mem_cons_self f hf hid
    have hwindow : refreshWindow start stop rest r.folder.id = stop := by
      refine if_neg fun hmem => ?_
      obtain ⟨g,hg,hgid⟩ := List.mem_map.mp hmem
      exact hrest g hg hgid
    rw [hmailbox,hwindow]
    refine hrefreshing.agrees_current W hfolder ht hitems hcutoff htold hread hhighest hagrees hrow ?_
    refine ⟨hraccount.trans ?_,hrfolder.trans hid,?_⟩
    · rw [haccount,← hfolder]
      exact congrArg Mailbox.accountId hmailbox
    · rw [hfv] at hrv
      exact (Option.some.inj hrv).symm

include hanchored hexpired

theorem refreshBaseline_done {current : Nat}
    (hhighest : env.highestModseq seen r.folder.rawName = some current) :
    Triple (RefreshOpened S start stop first env r rest seen t) (refreshBaseline env r current)
      (fun _ => RefreshSettled W first r rest seen t)
      (fun _ => RefreshLeft S start stop first rest) := by
  refine ((iterFlags_opened _).weaken_error fun _ _ hw => hw.left).seq fun reports => ?_
  rintro w ⟨hopened,tick,hseen,hreports,hfault⟩
  have hread : ReportsRead S r.folder.mailbox (W.read tick) reports.1 := by
    intro ref href
    rw [hreports] at href
    rw [Folder.mailbox_of hfolder]
    exact W.flagRefs tick _ ref (List.mem_of_mem_filter href)
  refine Triple.seq ((queueReports_part fun done q ref href hlocal => queueUpdate_part hanchored
    (hread.inRun W) q (hread.toldFlags_eq href)).weaken_error fun _ _ hw => hw.left)
    (fun q => Triple.assume fun hnone => ((flushFlagUpdates_part hanchored (hread.inRun W)
      q).weaken_error fun _ _ hw => hw.left).seq fun _ => ?_) w hopened
  refine (storeCurrent_done W haccount hfolder ht hitems hcutoff hfirst hrest none
    (W.read_mem hseen) hhighest fun m hm => by cases hm).consequence (fun w hw => ⟨hw.1,?_⟩)
    (fun _ w hw => ⟨_,_,_,W.read_mem hseen,hexpired,.inl rfl,hw⟩) fun _ _ hw => hw
  refine hw.2.told hread fun u hlocal hpresent _ => ?_
  rw [Folder.mailbox_of hfolder] at hpresent
  obtain ⟨ref,href,rfl⟩ := W.flagRefs_all tick _ (hfault.symm.trans hnone) u hpresent
  refine ⟨ref,?_,rfl⟩
  rw [hreports,List.mem_filter]
  exact ⟨href,by simpa using FlagRefresh.isLocal_iff.mp hlocal⟩

theorem refreshChanged_done {saved current : Nat} (hcondstore : env.condstore = true)
    (hhighest : env.highestModseq seen r.folder.rawName = some current)
    (hsaved : saved ∈ validSqliteModseq r.folder.highestModseq) (hle : saved ≤ current) :
    Triple (RefreshOpened S start stop first env r rest seen t) (refreshChanged env r saved current)
      (fun _ => RefreshSettled W first r rest seen t)
      (fun _ => RefreshLeft S start stop first rest) := by
  refine ((iterFlagsSince_opened _).weaken_error fun _ _ hw => hw.left).seq fun reports => ?_
  rintro w ⟨hopened,tick,hseen,hreports⟩
  have hread : ReportsRead S r.folder.mailbox (W.read tick) reports.1 := by
    intro ref href
    rw [hreports] at href
    rw [Folder.mailbox_of hfolder]
    exact W.flagRefsSince tick _ saved ref href
  refine Triple.seq ((queueReports_part fun done q ref href hlocal => queueUpdate_part hanchored
    (hread.inRun W) q (hread.toldFlags_eq href)).weaken_error fun _ _ hw => hw.left)
    (fun q => Triple.assume fun hnone => ?_) w hopened
  refine Triple.seq ((Triple.accumulate (I := fun (q : FlagQueue) => RefreshPart S start stop first
    env r rest seen t (toldFlags reports.1) (fun u => r.isLocal u = true) q.changes) _
    (fun q uid _ => queueTouch_part hanchored (hread.inRun W) q uid) q).weaken_error
      fun _ _ hw => hw.left) fun q => ((flushFlagUpdates_part hanchored (hread.inRun W)
      q).weaken_error fun _ _ hw => hw.left).seq fun _ => ?_
  refine (storeCurrent_done W haccount hfolder ht hitems hcutoff hfirst hrest (some saved)
    (W.read_mem hseen) hhighest fun m hm => ?_).consequence (fun w hw => ⟨hw.1,?_⟩)
    (fun _ w hw => ⟨_,_,_,W.read_mem hseen,hexpired,.inr hcondstore,hw⟩) fun _ _ hw => hw
  · cases hm
    exact ⟨hsaved,hle⟩
  · refine hw.2.told hread fun u _ hpresent hchanged => ?_
    have hchanged := hchanged saved rfl
    rw [Folder.mailbox_of hfolder] at hpresent hchanged
    rw [hreports] at hnone ⊢
    exact W.flagRefsSince_all tick _ saved hnone u hpresent hchanged

omit haccount hcutoff hfirst hrest hexpired in
theorem refreshExpired_done {P : World → Prop}
    (hend : ∀ (read : Nat → Nat) (asked : Nat → Prop) w,
      (∀ u, W.moment seen ≤ read u ∧ read u ≤ stop) → (∀ u ∈ r.expiredUids, asked u) →
      Refreshing S start stop first env r rest seen w → Told S r read asked none t w.db.tables →
      P w) :
    Triple (RefreshOpened S start stop first env r rest seen t) (refreshExpired env r)
      (fun _ => P) (fun _ => RefreshLeft S start stop first rest) := by
  refine ((iterFlags_opened _).weaken_error fun _ _ hw => hw.left).seq fun reports => ?_
  rintro w ⟨hopened,tick,hseen,hreports,hfault⟩
  have hread : ReportsRead S r.folder.mailbox (W.read tick) reports.1 := by
    intro ref href
    rw [hreports] at href
    rw [Folder.mailbox_of hfolder]
    exact W.flagRefs tick _ ref (List.mem_of_mem_filter href)
  refine Triple.seq ((queueReports_part fun done q ref href hlocal => ?_).weaken_error
    fun _ _ hw => hw.left) (fun q => Triple.assume fun hnone => ((flushFlagUpdates_part hanchored
      (hread.inRun W) q).consequence (fun _ hw => hw) (fun _ w hw => ?_) fun _ _ hw => hw.left))
        w hopened
  · dsimp only
    split
    · next hsame =>
      rw [Bool.and_eq_true,decide_eq_true_eq] at hsame
      refine (queueTouch_part hanchored (hread.inRun W) q ref.uid).strengthen_post
        fun q' w hw => ⟨hw.1,hw.2.pass ?_⟩
      rintro row hrow hcovers huid f hf
      rw [hread.toldFlags_eq href] at hf
      cases hf
      rw [← huid] at hlocal hsame
      rw [← FlagRefresh.flags_of_row ht hitems hlocal hrow hcovers]
      exact hsame.1
    · exact queueUpdate_part hanchored (hread.inRun W) q (hread.toldFlags_eq href)
  · refine hend (W.read tick) (fun u => u ∈ r.expiredUids) w (W.read_mem hseen)
      (fun _ hu => hu) hw.1 (hw.2.told hread fun u hu hpresent _ => ?_)
    rw [Folder.mailbox_of hfolder] at hpresent
    obtain ⟨ref,href,rfl⟩ := W.flagRefs_all tick _ (hfault.symm.trans hnone) u hpresent
    refine ⟨ref,?_,rfl⟩
    rw [hreports,List.mem_filter]
    exact ⟨href,by simpa using hu⟩

end

/-! ## The refresh of a folder -/

/-- What the refresh that begins at a tick works on. -/
def refreshOf (env : Env) (accountId : String) (google : Bool) (options : SyncOptions)
    (folder : Folder) (uidvalidity tick : Nat) (t : Tables) : FlagRefresh :=
  let now := env.clock tick
  let items := t.listFlagRefreshItems accountId folder.id uidvalidity
    (toUtcIso8601 (now.minusDays options.flagRefreshWindowDays))
  { accountId := accountId, google := google, folder := folder, uidvalidity := uidvalidity,
    seenAt := toUtcIso8601 now, items := items,
    expiredUids := (items.filter fun item => flagSeenAtIsExpired item.2.flagsSeenAt now
      options.flagRefreshMinIntervalSeconds).filterMap fun item => item.2.uid }

section
variable {S : FlagHistory} {start stop : Nat} {first : Repository} {env : Env} {folder : Folder}
  {rest : List Folder} {accountId : String} {windowDays uidvalidity : Nat}

/-- An expired message is one of those the refresh works on. -/
theorem refreshOf_isLocal {google : Bool} {options : SyncOptions} {tick : Nat} {t : Tables}
    {u : Nat}
    (hu : u ∈ (refreshOf env accountId google options folder uidvalidity tick t).expiredUids) :
    (refreshOf env accountId google options folder uidvalidity tick t).isLocal u = true := by
  obtain ⟨item,hitem,huid⟩ := List.mem_filterMap.mp hu
  exact FlagRefresh.isLocal_iff.mpr
    (List.mem_filterMap.mpr ⟨item,List.mem_of_mem_filter hitem,huid⟩)

theorem mem_validSqliteModseq {value : Option Nat} {m : Nat} (h : m ∈ validSqliteModseq value) :
    value = some m :=
  (Option.mem_filter_iff.mp h).1

theorem refreshFlags_settled (W : S.Watch env accountId windowDays start stop)
    (hfolder : folder.accountId = accountId) (hanchored : S.Anchored start folder)
    (hfirst : folder ∈ first.tables.folders) (hrest : ∀ g ∈ rest, g.id ≠ folder.id) (google : Bool)
    {options : SyncOptions} (hwindow : options.flagRefreshWindowDays = windowDays)
    (completed : Bool) (begun : Nat) {t : Tables} (ht : t.Valid) :
    Triple (fun w => (FlagScan S start stop first env folder uidvalidity rest w ∧
        w.session.pending = []) ∧ w.tick = begun ∧ w.db.tables = t)
      (refreshFlags env accountId google options folder uidvalidity completed)
      (fun _ w => RefreshLeft S start stop first rest w ∧
        (options.flagRefreshEnabled = true → completed = true → ∃ seen, begun ≤ seen ∧
          RefreshSettled W first
            (refreshOf env accountId google options folder uidvalidity begun t) rest seen t w))
      (fun _ => RefreshLeft S start stop first rest) := by
  have hleft : ∀ w, (FlagScan S start stop first env folder uidvalidity rest w ∧
      w.session.pending = []) → RefreshLeft S start stop first rest w := fun w hw =>
    ⟨hw.1.1.mono fun _ hg => List.mem_cons_of_mem _ hg,hw.2⟩
  let Begun := fun w : World => (FlagScan S start stop first env folder uidvalidity rest w ∧
    w.session.pending = []) ∧ begun ≤ w.tick ∧ w.db.tables = t
  have hticked : ∀ w, Begun w → Begun w.ticked := by
    rintro w ⟨⟨⟨hfollowing,hobserved⟩,hpending⟩,hbegun,htables⟩
    exact ⟨⟨⟨Following.still.ticked w hfollowing,hobserved.later (Nat.le_succ _)⟩,hpending⟩,
      hbegun.trans (Nat.le_succ _),htables⟩
  unfold refreshFlags
  split
  · next hoff =>
    refine Triple.ret fun w hw => ⟨hleft w hw.1,fun henabled hcompleted => ?_⟩
    rw [henabled,hcompleted] at hoff
    cases hoff
  · refine Triple.seq (nextTick_rule (Q := fun tick w => Begun w ∧ tick = begun) fun w hw =>
      ⟨hticked w ⟨hw.1,hw.2.1.ge,hw.2.2⟩,hw.2.1⟩) fun tick => Triple.assume ?_
    rintro rfl
    refine Triple.seq (queryRepo_rule (Q := fun items w => Begun w ∧ items =
        t.listFlagRefreshItems accountId folder.id uidvalidity
          (toUtcIso8601 ((env.clock tick).minusDays options.flagRefreshWindowDays)))
      (fun w hw => ⟨hticked w hw,by rw [hw.2.2]⟩) fun w _ hw _ => hleft _ (hticked w hw).1)
      fun items => Triple.assume ?_
    rintro rfl
    refine Triple.seq (nextTick_rule (Q := fun seen w => RefreshOpened S start stop first env
      (refreshOf env accountId google options folder uidvalidity tick t) rest seen t w ∧ tick ≤ seen)
      fun w hw => ?_) fun seen => Triple.assume fun hseen => ?_
    · obtain ⟨⟨⟨hfollowing,hobserved⟩,hpending⟩,hbegun,htables⟩ := hw
      exact ⟨⟨⟨Following.still.ticked w hfollowing,hobserved,Nat.le_succ _,hpending⟩,htables⟩,hbegun⟩
    · have hcutoff : toUtcIso8601 ((env.clock tick).minusDays options.flagRefreshWindowDays) ≤
          S.since stop := by
        rw [hwindow,W.since tick]
        exact S.since_le _ _ (W.stopped tick)
      have hexpired : ∀ u ∈ (refreshOf env accountId google options folder uidvalidity tick
          t).expiredUids, (refreshOf env accountId google options folder uidvalidity tick
            t).isLocal u = true := fun _ hu => refreshOf_isLocal hu
      refine Triple.strengthen_post (Q := fun _ => RefreshSettled W first
        (refreshOf env accountId google options folder uidvalidity tick t) rest seen t) ?_ ?_
      · dsimp only
        generalize hcurrent : Option.filter (fun _ => env.condstore) _ = current
        generalize hsaved : validSqliteModseq folder.highestModseq = saved
        split
        · next hnone =>
          have hnow : ∀ u : Nat, W.moment seen ≤ W.moment seen ∧ W.moment seen ≤ stop :=
            fun _ => ⟨le_rfl,W.stopped seen⟩
          have hasked : ∀ u ∈ (refreshOf env accountId google options folder uidvalidity tick
              t).expiredUids, False := by
            intro u hu
            have hempty : (refreshOf env accountId google options folder uidvalidity tick
                t).expiredUids = [] := List.isEmpty_iff.mp hnone
            rw [hempty] at hu
            cases hu
          split
          · exact (storeNone_done hrest).consequence (fun w hw => ⟨hw.1,.silent _ hw.2⟩)
              (fun _ w hw => ⟨_,_,_,hnow,hasked,.inl rfl,hw⟩) fun _ _ hw => hw
          · exact Triple.ret fun w hw => ⟨_,_,_,hnow,hasked,.inl rfl,hw.1.done (.silent _ hw.2)⟩
        · split
          · next current saved =>
            have hhighest := mem_validSqliteModseq (Option.mem_filter_iff.mp hcurrent).1
            split
            · exact refreshBaseline_done W rfl hfolder ht rfl hcutoff hanchored hfirst hrest
                hexpired hhighest
            · next hbehind =>
              refine refreshChanged_done W rfl hfolder ht rfl hcutoff hanchored hfirst hrest
                hexpired (Option.mem_filter_iff.mp hcurrent).2 hhighest hsaved ?_
              rw [(Option.mem_filter_iff.mp hcurrent).1,savedModseqIsAhead] at hbehind
              simpa using hbehind
          · next current =>
            exact refreshBaseline_done W rfl hfolder ht rfl hcutoff hanchored hfirst hrest hexpired
              (mem_validSqliteModseq (Option.mem_filter_iff.mp hcurrent).1)
          · refine Triple.seq (refreshExpired_done W hfolder ht rfl hanchored
              (P := fun w => ∃ read asked, (∀ u, W.moment seen ≤ read u ∧ read u ≤ stop) ∧
                (∀ u ∈ (refreshOf env accountId google options folder uidvalidity tick
                  t).expiredUids, asked u) ∧ Refreshing S start stop first env
                  (refreshOf env accountId google options folder uidvalidity tick t) rest seen w ∧
                Told S (refreshOf env accountId google options folder uidvalidity tick t) read asked
                  none t w.db.tables)
              fun _ _ w hread hasked hw htold => ⟨_,_,hread,hasked,hw,htold⟩) fun _ =>
              Triple.choose fun read => Triple.choose fun asked => ?_
            rintro w ⟨hread,hasked,hw⟩
            exact (storeNone_done hrest).consequence (fun _ hw => hw)
              (fun _ w hw => ⟨read,asked,none,hread,hasked,.inl rfl,hw⟩) (fun _ _ hw => hw) w hw
          · exact refreshExpired_done W hfolder ht rfl hanchored
              fun _ _ w hread hasked hw htold => ⟨_,_,_,hread,hasked,.inl rfl,hw.done htold⟩
      · rintro _ w ⟨read,asked,saved,hread,hasked,hsaved,hdone⟩
        exact ⟨hdone.left,fun _ _ => ⟨seen,hseen,read,asked,saved,hread,hasked,hsaved,hdone⟩⟩

end

end MailDock
