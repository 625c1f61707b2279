import Mathlib.Data.List.GetD
import MailDock.Sync.FlagRuns

/-!
# What a flag refresh loses

Up to the MODSEQ that is stored for a folder, the flags of the window are the server's, in every
state a sequence of runs commits: unless a folder was refreshed by a MODSEQ of a UIDVALIDITY that is
over, or a message came into the window with flags from before.  The way the refresh takes makes no
difference to the messages that are due.

## Main definitions

- `WatchedRun` — a synchronisation, and the stretch of the history it sees
- `RunsKeepFlags` — the writes of the runs are none of those
- `untilRefresh` — a run up to the refresh of a folder

## Main results

- `flag_refresh_loses_nothing` — for every sequence of runs
- `flag_refresh_loses_changes` — a run that refreshes by a MODSEQ of a UIDVALIDITY that is over
-/

namespace MailDock

open Hoare Trace

/-! ## The two ways to refresh -/

/-- What a refresh of flags is called with. -/
structure RefreshCall where
  google : Bool
  folder : Folder
  uidvalidity : Nat
  completed : Bool
deriving DecidableEq, Repr

def RefreshCall.run (c : RefreshCall) (env : Env) (accountId : String) (options : SyncOptions) :
    App Unit :=
  refreshFlags env accountId c.google options c.folder c.uidvalidity c.completed

/-- What the refresh of the call works on, when it begins in `w`. -/
def RefreshCall.refresh (c : RefreshCall) (env : Env) (accountId : String) (options : SyncOptions)
    (w : World) : FlagRefresh :=
  refreshOf env accountId c.google options c.folder c.uidvalidity w.tick w.db.tables

/-- A run up to the refresh of its `n`-th folder. -/
def untilRefresh (env : Env) (accountId : String) (options : SyncOptions) (n : Nat) :
    App RefreshCall := do
  let opened ← openRun env accountId
  let scanned ← syncFolders env accountId opened.1 options (opened.2.take n) []
  match scanned,opened.2[n]? with
  | some _,some folder => do
    let entered ← enterFolder env accountId folder
    let completed ← scanMessages env accountId options folder entered.1 entered.2
    pure ⟨opened.1,folder,entered.1,completed⟩
  | _,_ => throw ⟨.cancelled,"operation cancelled"⟩

/-- The same server with or without CONDSTORE. -/
def Env.withCondstore (env : Env) (condstore : Bool) : Env := { env with condstore := condstore }

/-- The folder is the same at the server from one moment to the other. -/
def FlagHistory.Still (S : FlagHistory) (p : Mailbox) (v a b : Nat) : Prop :=
  ∀ m, a ≤ m → m ≤ b → S.uidvalidity m p = v ∧ ∀ u, (S.present m p u ↔ S.present b p u) ∧
    (S.present b p u → S.flags m p u = S.flags b p u ∧ S.changed m p u = S.changed b p u)

section
variable {S : FlagHistory} {start stop : Nat} {first : Repository} {env : Env} {accountId : String}
  {windowDays opened : Nat} {options : SyncOptions}

def FlagHistory.Watch.withCondstore (W : S.Watch env accountId windowDays start stop)
    (condstore : Bool) : S.Watch (env.withCondstore condstore) accountId windowDays start stop where
  moment := W.moment
  read := W.read
  moment_le := W.moment_le
  started := W.started
  stopped := W.stopped
  moment_le_read := W.moment_le_read
  read_le := W.read_le
  uidvalidity := W.uidvalidity
  nextRef := W.nextRef
  flagRefs := W.flagRefs
  flagRefs_all := W.flagRefs_all
  flagRefsSince := W.flagRefsSince
  flagRefsSince_all := W.flagRefsSince_all
  highestModseq := W.highestModseq
  since := W.since

/-- The flags of an expired message after a refresh of a server that stood still. -/
theorem RefreshSettled.flags {W : S.Watch env accountId windowDays start stop} {r : FlagRefresh}
    {rest : List Folder} {seen : Nat} {t : Tables} {w : World} {row : FlagRow} {cutoff : String}
    (h : RefreshSettled W first r rest seen t w) (ht : t.Valid)
    (hitems : r.items = t.listFlagRefreshItems r.accountId r.folder.id r.uidvalidity cutoff)
    (hcutoff : S.since start ≤ cutoff)
    (hkeeps : env.condstore = true → Always (KeepsFlags S start stop first) w.log)
    (hstill : S.Still r.folder.mailbox r.uidvalidity (W.moment seen) stop)
    (hrow : w.db.tables.ShowsFlags row) (hcovers : r.Covers row)
    (hlocal : r.isLocal row.uid = true) (hexpired : row.uid ∈ r.expiredUids) :
    t.SameRows w.db.tables ∧
      ((S.present stop r.folder.mailbox row.uid ∧
        row.imapFlags = some (flagText (S.flags stop r.folder.mailbox row.uid))) ∨
      (¬ S.present stop r.folder.mailbox row.uid ∧ t.ShowsFlags row)) := by
  obtain ⟨read,asked,saved,hread,hasked,hsaved,-,htold,hagrees⟩ := h
  refine ⟨htold.same,?_⟩
  obtain ⟨hafter,hbefore⟩ := hread row.uid
  obtain ⟨hv,hsame⟩ := hstill _ hafter hbefore
  obtain ⟨hpresent,hserver⟩ := hsame row.uid
  obtain ⟨hstop,-⟩ := hstill stop (hafter.trans hbefore) le_rfl
  rcases htold.rows row hrow hcovers hlocal (hasked _ hexpired) with
    ⟨hthere,hflags⟩ | ⟨hold,hsilent⟩
  · have hthere := hpresent.mp hthere
    exact .inl ⟨hthere,by rw [hflags,(hserver hthere).1]⟩
  · by_cases hthere : S.present stop r.folder.mailbox row.uid
    · obtain ⟨m,hm,hle⟩ := hsilent (hpresent.mpr hthere)
      have hcondstore : env.condstore = true := hsaved.resolve_left fun hnone => by
        rw [hnone] at hm
        cases hm
      refine .inl ⟨hthere,hagrees (hkeeps hcondstore) m hm row hrow hcovers ?_ stop le_rfl
        (hstop.trans hcovers.uidvalidity.symm) hthere ?_⟩
      · obtain ⟨row',hrow',hcovers',huid,hdate⟩ := FlagRefresh.row_of_isLocal ht hitems hlocal
        have heq : row' = row := ht.shows_eq hrow' hold (hcovers'.folder.trans hcovers.folder.symm)
          (hcovers'.uidvalidity.trans hcovers.uidvalidity.symm) huid
        exact String.le_trans hcutoff (heq ▸ hdate)
      · rw [← (hserver hthere).2]
        exact hle
    · exact .inr ⟨hthere,hold⟩

/-- What two refreshes that began alike show of an expired message. -/
theorem RefreshSettled.shows {env' : Env} {W : S.Watch env accountId windowDays start stop}
    {W' : S.Watch env' accountId windowDays start stop} {r : FlagRefresh} {rest rest' : List Folder}
    {seen seen' : Nat} {t : Tables} {w w' : World} {row : FlagRow} {cutoff : String}
    (h : RefreshSettled W first r rest seen t w) (h' : RefreshSettled W' first r rest' seen' t w')
    (ht : t.Valid)
    (hitems : r.items = t.listFlagRefreshItems r.accountId r.folder.id r.uidvalidity cutoff)
    (hcutoff : S.since start ≤ cutoff)
    (hkeeps : env.condstore = true → Always (KeepsFlags S start stop first) w.log)
    (hkeeps' : env'.condstore = true → Always (KeepsFlags S start stop first) w'.log)
    (hstill : S.Still r.folder.mailbox r.uidvalidity (W.moment seen) stop)
    (hstill' : S.Still r.folder.mailbox r.uidvalidity (W'.moment seen') stop)
    (hlocal : r.isLocal row.uid = true) (hexpired : row.uid ∈ r.expiredUids)
    (hcovers : r.Covers row) (hrow : w.db.tables.ShowsFlags row) :
    w'.db.tables.ShowsFlags row := by
  obtain ⟨hsame,hflags⟩ := h.flags ht hitems hcutoff hkeeps hstill hrow hcovers hlocal hexpired
  have hsame' : t.SameRows w'.db.tables := by
    obtain ⟨read,asked,saved,-,-,-,-,htold,-⟩ := h'
    exact htold.same
  obtain ⟨flags,hshown⟩ := (hsame'.symm.trans hsame).shows hrow
  obtain ⟨-,hflags'⟩ := h'.flags ht hitems hcutoff hkeeps' hstill' hshown
    ⟨hcovers.account,hcovers.folder,hcovers.uidvalidity⟩ hlocal hexpired
  have heq : flags = row.imapFlags := by
    rcases hflags with ⟨hthere,hserver⟩ | ⟨hgone,hold⟩
    · rcases hflags' with ⟨-,hserver'⟩ | ⟨hgone',-⟩
      · exact hserver'.trans hserver.symm
      · exact absurd hthere hgone'
    · rcases hflags' with ⟨hthere',-⟩ | ⟨-,hold'⟩
      · exact absurd hthere' hgone
      · exact congrArg FlagRow.imapFlags (ht.shows_eq hold' hold rfl rfl rfl)
  rw [heq] at hshown
  exact hshown

/-- The folder of the call was scanned, and its refresh comes next. -/
structure RefreshReady (S : FlagHistory) (start stop : Nat) (first : Repository) (env : Env)
    (accountId : String) (call : RefreshCall) (w : World) : Prop where
  account : call.folder.accountId = accountId
  anchored : S.Anchored start call.folder
  target : call.folder ∈ first.tables.folders
  scanned : ∃ rest, (∀ g ∈ rest, g.id ≠ call.folder.id) ∧
    FlagScan S start stop first env call.folder call.uidvalidity rest w ∧ w.session.pending = []

theorem untilRefresh_ready (W : S.Watch env accountId windowDays start stop)
    (hwindow : options.flagRefreshWindowDays = windowDays) {manifest : List ManifestEvent}
    {lastCheckpoint : Option Nat} {files : List (String × Bytes)}
    (hsound : S.Sound (fun _ => start) start first.tables) (n : Nat) :
    Triple (fun w => w = World.opened first manifest lastCheckpoint files opened)
      (untilRefresh env accountId options n) (RefreshReady S start stop first env accountId)
      (fun _ _ => True) := by
  refine Triple.seq ((openRun_following W.ordered hsound).weaken_error fun _ _ _ => trivial)
    fun result => Triple.assume fun htargets => ?_
  rw [htargets]
  have hall : RunTargets S start first accountId (first.tables.listSyncTargets accountId) :=
    runTargets hsound
  generalize first.tables.listSyncTargets accountId = targets at hall
  have hparts : RunTargets S start first accountId (targets.take n ++ targets.drop n) := by
    rwa [List.take_append_drop]
  refine Triple.seq ((syncFolders_following W hwindow result.1 (targets.take n) (targets.drop n)
    hparts []).consequence (fun w hw => ?_) (fun _ _ hw => hw) fun _ _ _ => trivial)
    fun scanned => ?_
  · rw [List.take_append_drop]
    exact hw.1
  · split
    · next folder hfolder =>
      obtain ⟨hn,rfl⟩ := List.getElem?_eq_some_iff.mp hfolder
      rw [List.drop_eq_getElem_cons hn] at hparts ⊢
      have hmem : targets[n] ∈ targets.take n ++ targets[n] :: targets.drop (n + 1) :=
        List.mem_append_right _ List.mem_cons_self
      have hrest : ∀ g ∈ targets.drop (n + 1), g.id ≠ targets[n].id := fun g hg =>
        (List.pairwise_cons.mp (List.pairwise_append.mp hparts.distinct).2.1).1 g hg
      refine Triple.seq ((enterFolder_following hrest).weaken_error fun _ _ _ => trivial)
        fun entered => Triple.seq ((scanMessages_following W (hparts.account _ hmem)
          (hparts.anchored _ hmem) entered.2).weaken_error fun _ _ _ => trivial)
        fun completed => Triple.ret fun w hw => ?_
      exact ⟨hparts.account _ hmem,hparts.anchored _ hmem,hparts.first _ hmem,_,hrest,hw⟩
    · exact Triple.raise fun _ _ => trivial

/-- One of the two ways, from where the refresh begins. -/
theorem RefreshReady.settled {call : RefreshCall} {v v' : World}
    (W : S.Watch env accountId windowDays start stop)
    (h : RefreshReady S start stop first env accountId call v)
    (hwindow : options.flagRefreshWindowDays = windowDays)
    (henabled : options.flagRefreshEnabled = true) (hcompleted : call.completed = true)
    (hrun : call.run env accountId options v = (.ok (),v')) : ∃ rest seen, v.tick ≤ seen ∧
      RefreshSettled W first (call.refresh env accountId options v) rest seen v.db.tables v' := by
  obtain ⟨rest,hrest,hscan,hpending⟩ := h.scanned
  have hsettled := refreshFlags_settled W h.account h.anchored h.target hrest call.google hwindow
    call.completed v.tick v.db.valid v ⟨⟨hscan,hpending⟩,rfl,rfl⟩
  rw [RefreshCall.run] at hrun
  rw [hrun] at hsettled
  obtain ⟨seen,hseen,hsettled⟩ := hsettled.2 henabled hcompleted
  exact ⟨rest,seen,hseen,hsettled⟩

theorem RefreshReady.withCondstore {call : RefreshCall} {v : World}
    (h : RefreshReady S start stop first env accountId call v) (condstore : Bool) :
    RefreshReady S start stop first (env.withCondstore condstore) accountId call v :=
  ⟨h.account,h.anchored,h.target,h.scanned⟩

/-- At a single moment everything stands still. -/
theorem FlagHistory.still_at {p : Mailbox} {v a b : Nat} (hab : a = b)
    (h : S.uidvalidity b p = v) : S.Still p v a b := by
  intro m ha hm
  obtain rfl : m = b := le_antisymm hm (hab ▸ ha)
  exact ⟨h,fun _ => ⟨Iff.rfl,fun _ => ⟨rfl,rfl⟩⟩⟩

theorem FlagHistory.Still.later {p : Mailbox} {v a a' b : Nat} (h : S.Still p v a b)
    (hle : a ≤ a') : S.Still p v a' b :=
  fun m hm => h m (hle.trans hm)

/-- Both ways show the same of the messages that are due. -/
theorem RefreshReady.alike {call : RefreshCall} {v v₁ v₂ : World}
    (W : S.Watch env accountId windowDays start stop)
    (h : RefreshReady S start stop first env accountId call v)
    (hwindow : options.flagRefreshWindowDays = windowDays)
    (hrun₁ : call.run (env.withCondstore true) accountId options v = (.ok (),v₁))
    (hrun₂ : call.run (env.withCondstore false) accountId options v = (.ok (),v₂))
    (hkeeps : Always (KeepsFlags S start stop first) v₁.log)
    (hstill : S.Still call.folder.mailbox call.uidvalidity (W.moment v.tick) stop) {row : FlagRow}
    (hcovers : (call.refresh env accountId options v).Covers row)
    (hexpired : row.uid ∈ (call.refresh env accountId options v).expiredUids) :
    v₁.db.tables.ShowsFlags row ↔ v₂.db.tables.ShowsFlags row := by
  by_cases hdue : options.flagRefreshEnabled = true ∧ call.completed = true
  · obtain ⟨henabled,hcompleted⟩ := hdue
    obtain ⟨rest₁,seen₁,hseen₁,hsettled₁⟩ := (h.withCondstore true).settled (W.withCondstore true)
      hwindow henabled hcompleted hrun₁
    obtain ⟨rest₂,seen₂,hseen₂,hsettled₂⟩ := (h.withCondstore false).settled (W.withCondstore false)
      hwindow henabled hcompleted hrun₂
    have hstill₁ := hstill.later (W.moment_le _ _ hseen₁)
    have hstill₂ := hstill.later (W.moment_le _ _ hseen₂)
    have hcutoff : S.since start ≤ toUtcIso8601 ((env.clock v.tick).minusDays
        options.flagRefreshWindowDays) := by
      rw [hwindow,W.since]
      exact S.since_le _ _ (W.started _)
    have hlocal := refreshOf_isLocal hexpired
    constructor
    · exact hsettled₁.shows hsettled₂ v.db.valid rfl hcutoff (fun _ => hkeeps)
        (fun hoff => by cases hoff) hstill₁ hstill₂ hlocal hexpired hcovers
    · exact hsettled₂.shows hsettled₁ v.db.valid rfl hcutoff (fun hoff => by cases hoff)
        (fun _ => hkeeps) hstill₂ hstill₁ hlocal hexpired hcovers
  · have hnothing : (!options.flagRefreshEnabled || !call.completed) = true := by
      rw [Bool.or_eq_true,Bool.not_eq_true',Bool.not_eq_true']
      by_contra hboth
      push Not at hboth
      exact hdue ⟨eq_true_of_ne_false hboth.1,eq_true_of_ne_false hboth.2⟩
    have hsame : ∀ {condstore v'}, call.run (env.withCondstore condstore) accountId options v =
        (.ok (),v') → v' = v := by
      intro condstore v' hrun
      rw [RefreshCall.run,refreshFlags,if_pos hnothing] at hrun
      cases hrun
      rfl
    rw [hsame hrun₁,hsame hrun₂]

end

/-! ## Successive runs -/

/-- A synchronisation, and the stretch of the history it sees. -/
structure WatchedRun (S : FlagHistory) (windowDays : Nat) where
  env : Env
  accountId : String
  options : SyncOptions
  start : Nat
  stop : Nat
  window : options.flagRefreshWindowDays = windowDays
  watch : S.Watch env accountId windowDays start stop

section
variable {S : FlagHistory} {windowDays : Nat}

def WatchedRun.step (run : WatchedRun S windowDays) : SyncStep :=
  .syncAccount run.env run.accountId run.options

/-- Each run begins after the one before it, the first not before `now`. -/
def Successive : Nat → List (WatchedRun S windowDays) → Prop
  | _,[] => True
  | now,run :: rest => now ≤ run.start ∧ Successive run.stop rest

/-- The writes of a run from `w`, or of a part of it, move no membership into the window and store
no MODSEQ the refresh was misled about. -/
def WatchedRun.KeepsFlags (run : WatchedRun S windowDays) (w : World) (log : List Effect) : Prop :=
  Always (MailDock.KeepsFlags S run.start run.stop w.committed) log

instance (run : WatchedRun S windowDays) (w : World) (log : List Effect) :
    Decidable (run.KeepsFlags w log) :=
  inferInstanceAs (Decidable (Always _ _))

def RunsKeepFlags : List (WatchedRun S windowDays) → World → Prop
  | [],_ => True
  | run :: rest,w => run.KeepsFlags w (run.step.run w).log ∧ RunsKeepFlags rest (run.step.run w)

/-- The flags of the window are the server's in every state the run commits, and both ways to
refresh a folder store the same. -/
structure WatchedRun.Kept (run : WatchedRun S windowDays) (w : World) : Prop where
  committed : ∀ later, run.stop ≤ later → S.Kept later (run.step.run w).committed.tables
  commits : ∀ db, .commit db ∈ (run.step.run w).log → ∀ later, run.stop ≤ later →
    S.Kept later db.tables
  alike : ∀ n call v v₁ v₂,
    untilRefresh run.env run.accountId run.options n w.reopened = (.ok call,v) →
    call.run (run.env.withCondstore true) run.accountId run.options v = (.ok (),v₁) →
    call.run (run.env.withCondstore false) run.accountId run.options v = (.ok (),v₂) →
    run.KeepsFlags w v₁.log →
    S.Still call.folder.mailbox call.uidvalidity (run.watch.moment v.tick) run.stop →
    ∀ row, (call.refresh run.env run.accountId run.options v).Covers row →
      row.uid ∈ (call.refresh run.env run.accountId run.options v).expiredUids →
      (v₁.db.tables.ShowsFlags row ↔ v₂.db.tables.ShowsFlags row)

/-- What the runs leave, one after the other. -/
def runsEnd : List (WatchedRun S windowDays) → World → World
  | [],w => w
  | run :: rest,w => runsEnd rest (run.step.run w)

def RunsKept : List (WatchedRun S windowDays) → World → Prop
  | [],_ => True
  | run :: rest,w => run.Kept w ∧ RunsKept rest (run.step.run w)

theorem WatchedRun.kept (run : WatchedRun S windowDays) {w : World}
    (hsound : S.Sound (fun _ => run.start) run.start w.committed.tables)
    (hkeeps : run.KeepsFlags w (run.step.run w).log) : run.Kept w ∧
      S.Sound (fun _ => run.stop) run.stop (run.step.run w).committed.tables := by
  have hfollowing : Following S run.start run.stop w.committed [] (run.step.run w) :=
    (syncAccount_following run.watch run.window hsound).final (s := w.reopened) rfl
  obtain ⟨-,hcommitted,hcommits⟩ := hfollowing.sound hkeeps
  refine ⟨⟨fun later hlater => ?_,fun db hdb later hlater => ?_,?_⟩,hcommitted⟩
  · exact (hcommitted.later (fun _ => hlater) hlater).kept fun _ => le_rfl
  · exact ((hcommits db hdb).later (fun _ => hlater) hlater).kept fun _ => le_rfl
  · intro n call v v₁ v₂ hready hrun₁ hrun₂ hkeeps₁ hstill row hcovers hexpired
    have hreached := untilRefresh_ready run.watch run.window hsound n w.reopened rfl
    rw [hready] at hreached
    exact RefreshReady.alike run.watch hreached run.window hrun₁ hrun₂ hkeeps₁ hstill hcovers
      hexpired

theorem runsKept {runs : List (WatchedRun S windowDays)} {now : Nat} {w : World}
    (hsound : S.Sound (fun _ => now) now w.committed.tables) (hruns : Successive now runs)
    (hkeeps : RunsKeepFlags runs w) : RunsKept runs w := by
  induction runs generalizing now w with
  | nil => trivial
  | cons run rest ih =>
    obtain ⟨hstart,hrest⟩ := hruns
    obtain ⟨hrun,hlater⟩ := run.kept (hsound.later (fun _ => hstart) hstart) hkeeps.1
    exact ⟨hrun,ih hlater hrest hkeeps.2⟩

/-- Whatever the server does meanwhile, and wherever the runs are cut short: as long as no write
moves a membership into the window, and no refresh after a change of the UIDVALIDITY asks for the
changes since a MODSEQ of the old one, no change of a flag is lost. -/
theorem flag_refresh_loses_nothing (runs : List (WatchedRun S windowDays)) (now : Nat)
    (hruns : Successive now runs) (w : World)
    (hnone : ∀ f ∈ w.committed.tables.folders, f.highestModseq = none)
    (hkeeps : RunsKeepFlags runs w) : RunsKept runs w :=
  runsKept (FlagHistory.sound_of_none hnone) hruns hkeeps

end

/-! ## A server with one message -/

/-- What a server shows of a folder that holds one message. -/
structure Snapshot where
  uidvalidity : Nat
  highest : Nat
  changed : Nat
  flags : List String
  clock : DateTime

/-- The window of a refresh begins here. -/
def Snapshot.since (windowDays : Nat) (a : Snapshot) : String :=
  toUtcIso8601 (a.clock.minusDays windowDays)

/-- The second may follow the first: UIDVALIDITYs only grow, and within one of them a change raises
the MODSEQ. -/
def Snapshot.Before (windowDays : Nat) (a b : Snapshot) : Prop :=
  (a.since windowDays ≤ b.since windowDays ∧ a.uidvalidity ≤ b.uidvalidity) ∧
    (a.uidvalidity = b.uidvalidity → a.highest ≤ b.highest ∧
      (b.changed ≤ a.highest → a.flags = b.flags ∧ a.changed = b.changed))

instance (windowDays : Nat) (a b : Snapshot) : Decidable (a.Before windowDays b) :=
  inferInstanceAs (Decidable (_ ∧ _))

/-- Such a server from one moment to the next; the last snapshot lasts. -/
structure Snapshots (windowDays : Nat) where
  earlier : List Snapshot
  last : Snapshot
  before : ∀ a ≤ earlier.length, ∀ b ≤ earlier.length, a ≤ b →
    (earlier.getD a last).Before windowDays (earlier.getD b last)

namespace Snapshots

variable {windowDays : Nat} (s : Snapshots windowDays)

def shown (m : Nat) : Snapshot := s.earlier.getD m s.last

theorem shown_min (m : Nat) : s.shown m = s.shown (min m s.earlier.length) := by
  rcases Nat.le_total m s.earlier.length with hle | hle
  · rw [Nat.min_eq_left hle]
  · rw [Nat.min_eq_right hle,shown,shown,List.getD_eq_default _ _ hle,
      List.getD_eq_default _ _ le_rfl]

theorem shown_before {a b : Nat} (h : a ≤ b) : (s.shown a).Before windowDays (s.shown b) := by
  rw [s.shown_min a,s.shown_min b]
  exact s.before _ (Nat.min_le_right _ _) _ (Nat.min_le_right _ _) (by omega)

def history : FlagHistory where
  uidvalidity m _ := (s.shown m).uidvalidity
  present _ _ u := u = 1
  flags m _ _ := (s.shown m).flags
  changed m _ _ := (s.shown m).changed
  highest m _ := (s.shown m).highest
  since m := (s.shown m).since windowDays
  notReused _ _ _ _ hab hbc hsame :=
    le_antisymm ((s.shown_before hbc).1.2.trans hsame.ge) (s.shown_before hab).1.2
  highest_le _ _ _ hle hsame := ((s.shown_before hle).2 hsame).1
  settled _ _ _ _ hle hsame hpresent hchanged :=
    ⟨hpresent,((s.shown_before hle).2 hsame).2 hchanged⟩
  since_le _ _ hle := (s.shown_before hle).1.1

/-- The moment of a tick, when the next snapshot is shown from the tick `switch` on. -/
def moment (m switch t : Nat) : Nat := if t < switch then m else m + 1

theorem moment_le (m switch : Nat) {t t' : Nat} (h : t ≤ t') :
    moment m switch t ≤ moment m switch t' := by
  unfold moment
  split <;> split <;> omega

theorem le_moment (m switch t : Nat) : m ≤ moment m switch t ∧ moment m switch t ≤ m + 1 := by
  unfold moment
  split <;> omega

/-- The message as the next snapshot shows it. -/
def report (m : Nat) : RemoteMessageRef := { uid := 1, flags := (s.shown (m + 1)).flags }

/-- The message of a folder is listed with the flags of the first of the two snapshots, and its
flags are read from the second. -/
def server (m switch : Nat) : Env :=
  { steadyServer 0 fun _ => [1] with
    clock := fun t => (s.shown (moment m switch t)).clock
    uidvalidity := fun t _ => (s.shown (moment m switch t)).uidvalidity
    nextRef := fun _ _ minUid maxUid =>
      if minUid ≤ 1 ∧ 1 ≤ maxUid then
        some { uid := 1, flags := (s.shown m).flags, internalDate := some ⟨2024,1,1,9,0,0⟩ }
      else none
    flagRefs := fun _ _ => ([s.report m],none)
    flagRefsSince := fun _ _ modseq =>
      (if modseq < (s.shown (m + 1)).changed then [s.report m] else [],none)
    highestModseq := fun t _ => some (s.shown (moment m switch t)).highest
    condstore := true }

def watch (m switch : Nat) (accountId : String) :
    s.history.Watch (s.server m switch) accountId windowDays m (m + 1) where
  moment := moment m switch
  read _ _ := m + 1
  moment_le _ _ := moment_le m switch
  started t := (le_moment m switch t).1
  stopped t := (le_moment m switch t).2
  moment_le_read t _ := (le_moment m switch t).2
  read_le _ _ := le_rfl
  uidvalidity _ _ := rfl
  nextRef t name minUid maxUid ref href := by
    refine ⟨m,le_rfl,(le_moment m switch t).1,?_⟩
    dsimp only [server] at href
    split at href
    · cases href
      rfl
    · cases href
  flagRefs t name ref href := by
    cases List.mem_singleton.mp href
    exact ⟨rfl,rfl⟩
  flagRefs_all t name _ u hpresent := ⟨s.report m,List.mem_singleton_self _,hpresent.symm⟩
  flagRefsSince t name modseq ref href := by
    dsimp only [server] at href
    split at href
    · cases List.mem_singleton.mp href
      exact ⟨rfl,rfl⟩
    · cases href
  flagRefsSince_all t name modseq _ u hpresent hchanged := by
    refine ⟨s.report m,?_,hpresent.symm⟩
    dsimp only [server]
    rw [if_pos (show modseq < (s.shown (m + 1)).changed from hchanged)]
    exact List.mem_singleton_self _
  highestModseq t name m' hm' := by
    cases hm'
    exact ⟨_,le_rfl,rfl,rfl⟩
  since _ := rfl

def run (m switch : Nat) : WatchedRun s.history windowDays where
  env := s.server m switch
  accountId := "work"
  options := { flagRefreshWindowDays := windowDays }
  start := m
  stop := m + 1
  window := rfl
  watch := s.watch m switch "work"

end Snapshots

/-- A change is reported by its MODSEQ; later the folder gets a new UIDVALIDITY, and its MODSEQ
begins below the one that was stored. -/
def caughtChanges : Snapshots 30 where
  earlier := [
    ⟨1,10,5,[],⟨2024,1,1,10,0,0⟩⟩,⟨1,10,5,[],⟨2024,1,1,12,0,0⟩⟩,
    ⟨1,12,11,["\\Seen"],⟨2024,1,2,10,0,0⟩⟩,⟨1,12,11,["\\Seen"],⟨2024,1,2,12,0,0⟩⟩,
    ⟨2,3,2,["\\Seen"],⟨2024,1,3,10,0,0⟩⟩]
  last := ⟨2,4,4,["\\Answered"],⟨2024,1,3,12,0,0⟩⟩
  before := by decide +kernel

/-- The folder gets a new UIDVALIDITY, and its MODSEQ passes the one that was stored. -/
def lostChange : Snapshots 30 where
  earlier := [
    ⟨1,10,5,[],⟨2024,1,1,10,0,0⟩⟩,⟨1,10,5,[],⟨2024,1,1,12,0,0⟩⟩,
    ⟨2,7,6,[],⟨2024,1,2,10,0,0⟩⟩]
  last := ⟨2,20,8,["\\Seen"],⟨2024,1,2,12,0,0⟩⟩
  before := by decide +kernel

def freshWorld : World := World.opened freshInbox [] none [] 0

def caughtRuns : List (WatchedRun caughtChanges.history 30) :=
  [caughtChanges.run 0 30,caughtChanges.run 2 60,caughtChanges.run 4 110]

def lostRuns : List (WatchedRun lostChange.history 30) := [lostChange.run 0 30,lostChange.run 2 80]

/-- The refresh of the second of either pair of runs is called with the folder as the first left
it. -/
def secondRefresh (uidvalidity : Nat) : RefreshCall where
  google := false
  folder :=
    { id := 1, accountId := "work", rawName := "INBOX", displayName := "INBOX",
      uidvalidity := some 1, lastSeenUid := 1, isSyncTarget := true, backfillNextUid := some 0,
      initialSyncCompleted := true, highestModseq := some 10 }
  uidvalidity := uidvalidity
  completed := true

section
variable {S : FlagHistory} {windowDays : Nat} (run : WatchedRun S windowDays) (w : World)

/-- A run up to its first refresh, and the refresh from there. -/
def WatchedRun.scanned : Except Error RefreshCall × World :=
  untilRefresh run.env run.accountId run.options 0 w.reopened

def WatchedRun.refreshed (call : RefreshCall) (condstore : Bool) : Except Error Unit × World :=
  call.run (run.env.withCondstore condstore) run.accountId run.options (run.scanned w).2

variable {run w}

theorem WatchedRun.Kept.refreshed (h : run.Kept w) {call : RefreshCall} {row : FlagRow}
    (hscanned : (run.scanned w).1 = .ok call)
    (hended : ∀ condstore, (run.refreshed w call condstore).1 = .ok ())
    (hkeeps : run.KeepsFlags w (run.refreshed w call true).2.log)
    (hmoment : run.watch.moment (run.scanned w).2.tick = run.stop)
    (hgeneration : S.uidvalidity run.stop call.folder.mailbox = call.uidvalidity)
    (hcovers : (call.refresh run.env run.accountId run.options (run.scanned w).2).Covers row)
    (hdue : row.uid ∈
      (call.refresh run.env run.accountId run.options (run.scanned w).2).expiredUids) :
    (run.refreshed w call true).2.db.tables.ShowsFlags row ↔
      (run.refreshed w call false).2.db.tables.ShowsFlags row := by
  refine h.alike 0 call _ _ _ (Prod.ext hscanned rfl) (Prod.ext (hended true) rfl)
    (Prod.ext (hended false) rfl) hkeeps (FlagHistory.still_at hmoment hgeneration) row hcovers
    hdue

end

/-- The first run stores a MODSEQ, the second catches a change by it, and the third is told to begin
anew; in the second, both ways to refresh show the same. -/
theorem flag_refresh_loses_nothing_caught : RunsKept caughtRuns freshWorld ∧
    (runsEnd caughtRuns freshWorld).committed.tables.folders.map Folder.highestModseq = [some 4] ∧
    (runsEnd caughtRuns freshWorld).committed.tables.memberships.map Membership.imapFlags =
      [some "\\Seen",some "\\Answered"] ∧
    ((caughtChanges.run 2 60).refreshed ((caughtChanges.run 0 30).step.run freshWorld)
      (secondRefresh 1) false).2.db.tables.ShowsFlags
        ⟨"work",1,1,1,"2024-01-01T09:00:00Z",some "\\Seen"⟩ := by
  have hkept : RunsKept caughtRuns freshWorld := flag_refresh_loses_nothing caughtRuns 0
    ⟨by decide,by decide,by decide,trivial⟩ freshWorld (by decide)
    ⟨by decide +kernel,by decide +kernel,by decide +kernel,trivial⟩
  have hend : (runsEnd caughtRuns freshWorld).committed.tables.folders.map Folder.highestModseq =
        [some 4] ∧
      (runsEnd caughtRuns freshWorld).committed.tables.memberships.map Membership.imapFlags =
        [some "\\Seen",some "\\Answered"] := by decide +kernel
  refine ⟨hkept,hend.1,hend.2,?_⟩
  exact (hkept.2.1.refreshed (by decide +kernel) (by decide +kernel) (by decide +kernel)
    (by decide +kernel) (by decide +kernel) ⟨rfl,rfl,rfl⟩ (by decide +kernel)).mp
      (by decide +kernel)

/-- The second run finds a new UIDVALIDITY and asks for the changes since the MODSEQ of the old
one: the flag `\Seen` is not reported, and the MODSEQ stored then is above its change.  Without
CONDSTORE the flag is stored. -/
theorem flag_refresh_loses_changes : Successive 0 lostRuns ∧
    (∀ f ∈ freshWorld.committed.tables.folders, f.highestModseq = none) ∧
    ¬ lostChange.history.Kept 3 (runsEnd lostRuns freshWorld).committed.tables ∧
    (((lostChange.run 2 80).scanned ((lostChange.run 0 30).step.run freshWorld)).1 =
        .ok (secondRefresh 2) ∧
      ((lostChange.run 2 80).refreshed ((lostChange.run 0 30).step.run freshWorld)
        (secondRefresh 2) true).2.db.tables.ShowsFlags
          ⟨"work",1,2,1,"2024-01-01T09:00:00Z",some ""⟩ ∧
      ((lostChange.run 2 80).refreshed ((lostChange.run 0 30).step.run freshWorld)
        (secondRefresh 2) false).2.db.tables.ShowsFlags
          ⟨"work",1,2,1,"2024-01-01T09:00:00Z",some "\\Seen"⟩) := by
  refine ⟨⟨by decide,by decide,trivial⟩,by decide,fun hkept => ?_,by decide +kernel⟩
  have hstored : { (secondRefresh 2).folder with uidvalidity := some 2, highestModseq := some 20 } ∈
      (runsEnd lostRuns freshWorld).committed.tables.folders ∧
      (runsEnd lostRuns freshWorld).committed.tables.ShowsFlags
        ⟨"work",1,2,1,"2024-01-01T09:00:00Z",some ""⟩ := by decide +kernel
  have hflags := hkept _ hstored.1 20 rfl rfl _ hstored.2 rfl rfl rfl (by decide +kernel) rfl
    (by decide)
  exact absurd hflags (by decide)

end MailDock
