import MailDock.Sync.FlagScan

/-!
# What a flag refresh makes of the rows

A refresh reads the rows of its window, asks the server, and writes the flags it was told.  The rows
of the window that the server said nothing about keep their flags.

## Main definitions

- `Refreshed` — the rows after a part of the reports
- `Told` — the rows after all of them
- `Refreshing` — the invariant of the refresh of a folder
-/

namespace MailDock

open Hoare Trace

/-! ## The rows of the window -/

/-- The row is one of the folder that the refresh works on. -/
structure FlagRefresh.Covers (r : FlagRefresh) (row : FlagRow) : Prop where
  account : row.accountId = r.accountId
  folder : row.folderId = r.folder.id
  uidvalidity : row.uidvalidity = r.uidvalidity

section
variable {r : FlagRefresh} {t t' : Tables} {cutoff : String} {row : FlagRow}

theorem mem_listFlagRefreshItems (ht : t.Valid) {accountId : String} {folderId uidvalidity : Nat}
    {item : Message × Membership} :
    item ∈ t.listFlagRefreshItems accountId folderId uidvalidity cutoff ↔
      item.2 ∈ t.memberships ∧ item.1 ∈ t.messages ∧ item.1.id = item.2.messageId ∧
        ∃ row, flagRow item.1 item.2 = some row ∧ row.accountId = accountId ∧
          row.folderId = folderId ∧ row.uidvalidity = uidvalidity ∧ cutoff ≤ row.internalDate := by
  rw [Tables.listFlagRefreshItems,List.mem_insertionSort,List.mem_filterMap]
  simp only [Option.bind_eq_some_iff,Option.ite_none_right_eq_some,Option.some.injEq,
    Bool.and_eq_true,beq_iff_eq,Option.any_eq_true,decide_eq_true_eq,Option.isSome_iff_exists]
  constructor
  · rintro ⟨s,hs,m,hm,⟨⟨⟨⟨haccount,hfolder⟩,hv⟩,u,hu⟩,d,hd,hdate⟩,rfl⟩
    have hid : m.id = s.messageId := by simpa using List.find?_some hm
    refine ⟨hs,List.mem_of_find?_eq_some hm,hid,⟨m.accountId,s.folderId,uidvalidity,u,d,s.imapFlags⟩,
      ?_,haccount,hfolder,rfl,hdate⟩
    exact flagRow_eq_some.mpr ⟨rfl,rfl,hv,hu,hd,rfl⟩
  · rintro ⟨hs,hm,hid,row,hrow,rfl,rfl,rfl,hdate⟩
    obtain ⟨haccount,hfolder,hv,hu,hd,-⟩ := flagRow_eq_some.mp hrow
    refine ⟨item.2,hs,item.1,?_,⟨⟨⟨⟨haccount,hfolder⟩,hv⟩,_,hu⟩,_,hd,hdate⟩,rfl⟩
    obtain ⟨n,hn⟩ := Option.isSome_iff_exists.mp (List.find?_isSome.mpr
      (⟨item.1,hm,by simpa using hid⟩ : ∃ m ∈ t.messages, (m.id == item.2.messageId) = true))
    have hnid : n.id = item.2.messageId := by simpa using List.find?_some hn
    rw [hn,ht.message_eq (List.mem_of_find?_eq_some hn) hm (hnid.trans hid.symm)]

variable (ht : t.Valid)
  (hitems : r.items = t.listFlagRefreshItems r.accountId r.folder.id r.uidvalidity cutoff)

include ht hitems

/-- The item of a row of the window. -/
theorem FlagRefresh.find?_row (hrow : t.ShowsFlags row) (hcovers : r.Covers row)
    (hdate : cutoff ≤ row.internalDate) :
    ∃ item, r.find? row.uid = some item ∧ item.2.imapFlags = row.imapFlags := by
  obtain ⟨s,hs,m,hm,hid,hflag⟩ := id hrow
  have hmem : (m,s) ∈ r.items := by
    rw [hitems,mem_listFlagRefreshItems ht]
    exact ⟨hs,hm,hid,row,hflag,hcovers.account,hcovers.folder,hcovers.uidvalidity,hdate⟩
  obtain ⟨-,-,-,hu,-⟩ := flagRow_eq_some.mp hflag
  obtain ⟨item,hitem⟩ := Option.isSome_iff_exists.mp (List.find?_isSome.mpr
    (⟨(m,s),hmem,by simpa using hu⟩ : ∃ item ∈ r.items, (item.2.uid == some row.uid) = true))
  refine ⟨item,hitem,?_⟩
  -- a server UID has one row
  have hfound := List.mem_of_find?_eq_some hitem
  rw [hitems,mem_listFlagRefreshItems ht] at hfound
  obtain ⟨hs',hm',hid',row',hflag',haccount,hfolder,hv,-⟩ := hfound
  obtain ⟨-,-,-,hu',-,hflags⟩ := flagRow_eq_some.mp hflag'
  have huid : item.2.uid = some row.uid := by simpa using List.find?_some hitem
  have hsame : row' = row := by
    refine ht.shows_eq ⟨item.2,hs',item.1,hm',hid',hflag'⟩ hrow ?_ ?_ ?_
    · rw [hfolder,hcovers.folder]
    · rw [hv,hcovers.uidvalidity]
    · exact Option.some.inj (hu'.symm.trans huid)
  rw [← hsame,hflags]

/-- A local UID has a row in the window. -/
theorem FlagRefresh.row_of_isLocal {uid : Nat} (hlocal : r.isLocal uid = true) :
    ∃ row, t.ShowsFlags row ∧ r.Covers row ∧ row.uid = uid ∧ cutoff ≤ row.internalDate := by
  obtain ⟨item,hitem⟩ := Option.isSome_iff_exists.mp hlocal
  have hmem := List.mem_of_find?_eq_some hitem
  rw [hitems,mem_listFlagRefreshItems ht] at hmem
  obtain ⟨hs,hm,hid,row,hflag,haccount,hfolder,hv,hdate⟩ := hmem
  obtain ⟨-,-,-,hu,-⟩ := flagRow_eq_some.mp hflag
  have huid : item.2.uid = some uid := by simpa using List.find?_some hitem
  exact ⟨row,⟨item.2,hs,item.1,hm,hid,hflag⟩,⟨haccount,hfolder,hv⟩,
    Option.some.inj (hu.symm.trans huid),hdate⟩

end

/-! ## The reports -/

/-- The flags that were reported for a UID. -/
def toldFlags (reports : List RemoteMessageRef) (uid : Nat) : Option (List String) :=
  (reports.find? fun ref => ref.uid == uid).map RemoteMessageRef.flags

/-- What a part of the reports has made of the rows: a row has the flags it had or those that were
reported, and for a UID that is done those that were reported, once what waits is written. -/
structure Refreshed (r : FlagRefresh) (t : Tables) (answer : Nat → Option (List String))
    (done : Nat → Prop) (waiting : List (Nat × String)) (t' : Tables) : Prop where
  same : t.SameRows t'
  rows : ∀ row, t'.ShowsFlags row → r.Covers row → ∃ flags,
    t.ShowsFlags { row with imapFlags := flags } ∧
      (row.imapFlags = flags ∨ ∃ f ∈ answer row.uid, row.imapFlags = some (flagText f))
  done : ∀ row, t'.ShowsFlags row → r.Covers row → done row.uid → ∀ f ∈ answer row.uid,
    row.imapFlags = some (flagText f) ∨ ∃ c ∈ waiting, c.1 = row.uid
  waiting : ∀ c ∈ waiting, ∃ f ∈ answer c.1, c.2 = flagText f

namespace Refreshed

variable {r : FlagRefresh} {t t' : Tables} {answer : Nat → Option (List String)}
  {done : Nat → Prop} {waiting : List (Nat × String)} {repo repo' : Repository}

theorem start : Refreshed r t answer (fun _ => False) [] t where
  same := ⟨rfl,rfl⟩
  rows row hrow _ := ⟨row.imapFlags,hrow,.inl rfl⟩
  done _ _ _ hdone := hdone.elim
  waiting _ hc := absurd hc List.not_mem_nil

/-- Tables that show no other flags. -/
theorem of_shows {t'' : Tables} (h : Refreshed r t answer done waiting t')
    (hsame : t'.SameRows t'') (hshows : ∀ row, t''.ShowsFlags row → t'.ShowsFlags row) :
    Refreshed r t answer done waiting t'' where
  same := h.same.trans hsame
  rows row hrow := h.rows row (hshows row hrow)
  done row hrow := h.done row (hshows row hrow)
  waiting := h.waiting

/-- A report that waits to be written. -/
theorem queue (h : Refreshed r t answer done waiting t') {uid : Nat} {flags : List String}
    (hanswer : answer uid = some flags) :
    Refreshed r t answer (fun u => done u ∨ u = uid) (waiting ++ [(uid,flagText flags)]) t' where
  same := h.same
  rows := h.rows
  done row hrow hcovers hdone f hf := by
    rcases hdone with hdone | rfl
    · refine (h.done row hrow hcovers hdone f hf).imp_right fun ⟨c,hc,hcu⟩ => ?_
      exact ⟨c,List.mem_append_left _ hc,hcu⟩
    · exact .inr ⟨_,List.mem_append_right _ List.mem_cons_self,rfl⟩
  waiting c hc := by
    rcases List.mem_append.mp hc with hc | hc
    · exact h.waiting c hc
    · rw [List.mem_singleton.mp hc]
      exact ⟨flags,hanswer,rfl⟩

/-- A report that says nothing new. -/
theorem pass (h : Refreshed r t answer done waiting t') {uid : Nat}
    (hsame : ∀ row, t.ShowsFlags row → r.Covers row → row.uid = uid → ∀ f ∈ answer uid,
      row.imapFlags = some (flagText f)) :
    Refreshed r t answer (fun u => done u ∨ u = uid) waiting t' where
  same := h.same
  rows := h.rows
  done row hrow hcovers hdone f hf := by
    rcases hdone with hdone | huid
    · exact h.done row hrow hcovers hdone f hf
    · obtain ⟨flags,hbefore,hcase⟩ := h.rows row hrow hcovers
      have hflags : flags = some (flagText f) :=
        hsame _ hbefore ⟨hcovers.account,hcovers.folder,hcovers.uidvalidity⟩ huid f (huid ▸ hf)
      rcases hcase with heq | ⟨g,hg,heq⟩
      · exact .inl (heq.trans hflags)
      · rw [Option.mem_def.mp hf] at hg
        cases hg
        exact .inl heq
  waiting := h.waiting

theorem mono {done' : Nat → Prop} (h : Refreshed r t answer done waiting t')
    (hdone : ∀ uid, done' uid → done uid ∨ answer uid = none) :
    Refreshed r t answer done' waiting t' where
  same := h.same
  rows := h.rows
  done row hrow hcovers hd f hf := by
    rcases hdone _ hd with hd | hnone
    · exact h.done row hrow hcovers hd f hf
    · rw [hnone] at hf
      cases hf
  waiting := h.waiting

/-- One of the waiting changes is written. -/
theorem write {c : Nat × String} (h : Refreshed r t answer done (c :: waiting) repo.tables)
    {seenAt : String} (happly : (WriteOp.updateFlags r.accountId r.folder.id r.uidvalidity c.1
      (some c.2) seenAt).apply repo = .ok repo') :
    Refreshed r t answer done waiting repo'.tables := by
  obtain ⟨g,hg,htext⟩ := h.waiting c List.mem_cons_self
  refine ⟨h.same.trans (WriteOp.apply_sameRows rfl happly),fun row hrow hcovers => ?_,
    fun row hrow hcovers hdone f hf => ?_,fun c' hc' => ?_⟩
  · rcases updateFlags_shows happly hrow with ⟨-,hold⟩ | ⟨hat,hflags⟩
    · exact h.rows row hold hcovers
    · obtain ⟨before,hold⟩ := (WriteOp.apply_sameRows rfl happly).shows hrow
      obtain ⟨flags,hstart,-⟩ := h.rows _ hold ⟨hcovers.account,hcovers.folder,hcovers.uidvalidity⟩
      refine ⟨flags,hstart,.inr ⟨g,?_,by rw [hflags,htext]⟩⟩
      rw [hat.2.2.2]
      exact hg
  · rcases updateFlags_shows happly hrow with ⟨hother,hold⟩ | ⟨hat,hflags⟩
    · refine (h.done row hold hcovers hdone f hf).imp_right ?_
      rintro ⟨c',hc',huid⟩
      rcases List.mem_cons.mp hc' with rfl | hc'
      · exact absurd ⟨hcovers.account,hcovers.folder,hcovers.uidvalidity,huid.symm⟩ hother
      · exact ⟨c',hc',huid⟩
    · rw [hat.2.2.2,Option.mem_def.mp hg] at hf
      cases hf
      exact .inl (by rw [hflags,htext])
  · exact h.waiting c' (List.mem_cons_of_mem _ hc')

end Refreshed

/-- What the answers of the server made of the rows: the messages in `asked` were read at the
moments `read`, and a message nothing was said about is gone or has not changed after `saved`. -/
structure Told (S : FlagHistory) (r : FlagRefresh) (read : Nat → Nat) (asked : Nat → Prop)
    (saved : Option Nat) (t t' : Tables) : Prop where
  same : t.SameRows t'
  rows : ∀ row, t'.ShowsFlags row → r.Covers row → r.isLocal row.uid = true → asked row.uid →
    (S.present (read row.uid) r.folder.mailbox row.uid ∧
      row.imapFlags = some (flagText (S.flags (read row.uid) r.folder.mailbox row.uid))) ∨
    (t.ShowsFlags row ∧ (S.present (read row.uid) r.folder.mailbox row.uid →
      ∃ m ∈ saved, S.changed (read row.uid) r.folder.mailbox row.uid ≤ m))

/-- The reports show the messages at the moments they were read. -/
def ReportsRead (S : FlagHistory) (p : Mailbox) (read : Nat → Nat)
    (reports : List RemoteMessageRef) : Prop :=
  ∀ ref ∈ reports, S.present (read ref.uid) p ref.uid ∧ ref.flags = S.flags (read ref.uid) p ref.uid

theorem ReportsRead.toldFlags {S : FlagHistory} {p : Mailbox} {read : Nat → Nat}
    {reports : List RemoteMessageRef} (h : ReportsRead S p read reports) {uid : Nat}
    {f : List String} (hf : f ∈ toldFlags reports uid) :
    S.present (read uid) p uid ∧ f = S.flags (read uid) p uid := by
  obtain ⟨ref,href,rfl⟩ := Option.map_eq_some_iff.mp hf
  obtain rfl : ref.uid = uid := by simpa using List.find?_some href
  exact h ref (List.mem_of_find?_eq_some href)

/-- Two reports about a message agree. -/
theorem ReportsRead.toldFlags_eq {S : FlagHistory} {p : Mailbox} {read : Nat → Nat}
    {reports : List RemoteMessageRef} (h : ReportsRead S p read reports) {ref : RemoteMessageRef}
    (href : ref ∈ reports) : MailDock.toldFlags reports ref.uid = some ref.flags := by
  have hfound : (reports.find? fun ref' => ref'.uid == ref.uid).isSome = true :=
    List.find?_isSome.mpr (⟨ref,href,by simp⟩ : ∃ ref' ∈ reports, (ref'.uid == ref.uid) = true)
  obtain ⟨ref',href'⟩ := Option.isSome_iff_exists.mp hfound
  have hflags : MailDock.toldFlags reports ref.uid = some ref'.flags := by
    rw [MailDock.toldFlags,href']
    rfl
  rw [hflags,(h.toldFlags hflags).2,(h ref href).2]

theorem Refreshed.told {S : FlagHistory} {r : FlagRefresh} {t t' : Tables} {read : Nat → Nat}
    {asked : Nat → Prop} {saved : Option Nat} {reports : List RemoteMessageRef}
    (h : Refreshed r t (toldFlags reports) (fun u => r.isLocal u = true) [] t')
    (hreports : ReportsRead S r.folder.mailbox read reports)
    (hall : ∀ u, asked u → S.present (read u) r.folder.mailbox u →
      (∀ m ∈ saved, m < S.changed (read u) r.folder.mailbox u) → ∃ ref ∈ reports, ref.uid = u) :
    Told S r read asked saved t t' where
  same := h.same
  rows row hrow hcovers hlocal hasked := by
    rcases hfound : toldFlags reports row.uid with _ | f
    · right
      obtain ⟨flags,hbefore,hcase⟩ := h.rows row hrow hcovers
      rcases hcase with hsame | ⟨f,hf,-⟩
      · rw [← hsame] at hbefore
        refine ⟨hbefore,fun hpresent => ?_⟩
        by_contra hnone
        push Not at hnone
        obtain ⟨ref,href,huid⟩ := hall row.uid hasked hpresent hnone
        have hreported := hreports.toldFlags_eq href
        rw [huid,hfound] at hreported
        cases hreported
      · rw [hfound] at hf
        cases hf
    · left
      obtain ⟨hpresent,rfl⟩ := hreports.toldFlags hfound
      rcases h.done row hrow hcovers hlocal _ hfound with hflags | ⟨c,hc,-⟩
      · exact ⟨hpresent,hflags⟩
      · cases hc

/-! ## The steps of a refresh -/

/-- A refresh without the flags and the MODSEQ it stores. -/
def refreshFootprint : Footprint :=
  { flagFootprint with
    op := fun
      | .touchFlagsSeenAt .. | .updateGmailLabels .. => True
      | _ => False }

theorem refreshFootprint.note_sync {e : Effect} (he : refreshFootprint.note e) :
    syncFootprint.note e := by
  cases e <;> first | exact he | trivial

theorem refreshFootprint.op_quiet {op : WriteOp} (hop : refreshFootprint.op op) :
    op.keepsRows = true ∧ op.KeepsNumbering ∧ ∀ row, ¬ op.BringsFlags row := by
  cases op <;> first | exact hop.elim | exact ⟨rfl,trivial,fun _ hbrings => hbrings⟩

/-- The refresh of a folder works on what the scan of the folder left. -/
structure Refreshing (S : FlagHistory) (start stop : Nat) (first : Repository) (env : Env)
    (r : FlagRefresh) (rest : List Folder) (seen : Nat) (w : World) : Prop where
  following : Following S start stop first (r.folder.numbered r.uidvalidity :: rest) w
  observed : Observed env 0 seen r.folder.rawName r.uidvalidity
  seen_le : seen ≤ w.tick
  pending : w.session.pending = []

section
variable {S : FlagHistory} {start stop : Nat} {first : Repository} {env : Env} {r : FlagRefresh}
  {rest : List Folder} {seen : Nat} {t : Tables} {answer : Nat → Option (List String)}
  {done : Nat → Prop} {waiting : List (Nat × String)}

theorem Refreshing.closed :
    Closed refreshFootprint (Refreshing S start stop first env r rest seen) := by
  have hfollowing : Closed refreshFootprint
      (Following S start stop first (r.folder.numbered r.uidvalidity :: rest)) :=
    Following.closed (fun _ he => refreshFootprint.note_sync he)
      (fun _ hop => (refreshFootprint.op_quiet hop).2.1)
      fun _ hop row hbrings => ((refreshFootprint.op_quiet hop).2.2 row hbrings).elim
  have hpending : Closed refreshFootprint fun w => w.session.pending = [] :=
    Closed.ofScan (φ := fun s => s.pending = []) fun _ _ hs h => hs.2.1.trans h
  exact
    { ticked := fun w h => ⟨hfollowing.ticked w h.1,h.2,h.3.trans (Nat.le_succ _),h.4⟩
      logged := fun w e he hp h => ⟨hfollowing.logged w e he hp h.1,h.2,h.3,h.4⟩
      saved := fun w p raw he h => ⟨hfollowing.saved w p raw he h.1,h.2,h.3,h.4⟩
      appended := fun w e last he h => ⟨hfollowing.appended w e last he h.1,h.2,h.3,h.4⟩
      began := fun w hb h => ⟨hfollowing.began w hb h.1,h.2,h.3,h.4⟩
      written := fun w op db hop happly h => ⟨hfollowing.written w op db hop happly h.1,h.2,
        by rw [World.written_tick]; exact h.3,hpending.written w op db hop happly h.4⟩
      committed := fun w h => ⟨hfollowing.committed w h.1,h.2,h.3,h.4⟩
      counted := fun w s hs h => ⟨hfollowing.counted w s hs h.1,h.2,h.3,
        hpending.counted w s hs h.4⟩ }

/-- A part of the reports has been dealt with. -/
def RefreshPart (S : FlagHistory) (start stop : Nat) (first : Repository) (env : Env)
    (r : FlagRefresh) (rest : List Folder) (seen : Nat) (t : Tables)
    (answer : Nat → Option (List String)) (done : Nat → Prop) (waiting : List (Nat × String))
    (w : World) : Prop :=
  Refreshing S start stop first env r rest seen w ∧
    Refreshed r t answer done waiting w.db.tables

theorem RefreshPart.closed : Closed refreshFootprint
    (RefreshPart S start stop first env r rest seen t answer done waiting) := by
  refine Refreshing.closed.and (Closed.ofWrites
    (φ := fun db => Refreshed r t answer done waiting db.tables) fun op repo repo' hop happly h => ?_)
  obtain ⟨hkeeps,-,hquiet⟩ := refreshFootprint.op_quiet hop
  exact h.of_shows (WriteOp.apply_sameRows hkeeps happly) fun row hrow =>
    (WriteOp.keepsRows_shows hkeeps happly hrow).resolve_right (hquiet row)

theorem RefreshPart.within {α : Type} {p : App α} (hp : Within refreshFootprint p) :
    Triple (RefreshPart S start stop first env r rest seen t answer done waiting) p
      (fun _ => RefreshPart S start stop first env r rest seen t answer done waiting)
      (fun _ => Refreshing S start stop first env r rest seen) :=
  (hp _ RefreshPart.closed).consequence (fun _ h => h) (fun _ _ h => h) fun _ _ h => h.1

variable (hanchored : S.Anchored start r.folder)
  (hanswer : ∀ uid, ∀ f ∈ answer uid, ∃ m, start ≤ m ∧ m ≤ stop ∧
    f = S.flags m r.folder.mailbox uid)

include hanchored hanswer

/-- The flags of one message are written. -/
theorem updateFlags_part {c : Nat × String} :
    Triple (RefreshPart S start stop first env r rest seen t answer done (c :: waiting))
      (writeRepo env (.updateFlags r.accountId r.folder.id r.uidvalidity c.1 (some c.2) r.seenAt))
      (fun _ => RefreshPart S start stop first env r rest seen t answer done waiting)
      (fun _ => Refreshing S start stop first env r rest seen) := by
  refine writeRepo_rule (fun w db hw happly => ?_) fun w _ hw _ => (Refreshing.closed.ticked w hw.1)
  obtain ⟨hrefreshing,hrefreshed⟩ := RefreshPart.closed.ticked w hw
  refine ⟨⟨hrefreshing.following.writing happly trivial fun row _ hbrings => ?_,
    hrefreshing.observed,by rw [World.written_tick]; exact hrefreshing.seen_le,
    by rw [World.written_session]; exact hrefreshing.pending⟩,?_⟩
  · obtain ⟨hat,hflags⟩ := hbrings
    obtain ⟨f,hf,htext⟩ := hrefreshed.waiting c List.mem_cons_self
    obtain ⟨m,hstart,hm,hread⟩ := hanswer c.1 f hf
    refine ⟨r.folder.numbered r.uidvalidity,List.mem_cons_self,hanchored.numbered _,hat.2.1,m,
      hstart,hm,?_⟩
    rw [hflags,htext,hread,hat.2.2.2]
    rfl
  · rw [World.written_db]
    exact hrefreshed.write happly

theorem flushFlagUpdates_part (q : FlagQueue) :
    Triple (RefreshPart S start stop first env r rest seen t answer done q.changes)
      (flushFlagUpdates env r q)
      (fun _ => RefreshPart S start stop first env r rest seen t answer done [])
      (fun _ => Refreshing S start stop first env r rest seen) := by
  unfold flushFlagUpdates
  split
  · next hsize =>
    have hnone : q.changes = [] := by
      rw [FlagQueue.size] at hsize
      exact List.length_eq_zero_iff.mp (by omega)
    exact Triple.ret fun w hw => hnone ▸ hw
  · have hsnapshots : Triple (RefreshPart S start stop first env r rest seen t answer done q.changes)
        (appendLabelSnapshots env r q)
        (fun _ => RefreshPart S start stop first env r rest seen t answer done q.changes)
        (fun _ => RefreshPart S start stop first env r rest seen t answer done q.changes) :=
      appendLabelSnapshots_keeps RefreshPart.closed trivial q fun records _ =>
        appendSnapshots_within (fun _ => trivial) records _ RefreshPart.closed
    refine (hsnapshots.weaken_error fun _ _ hw => hw.1).seq fun _ =>
      (RefreshPart.within Within.beginBatch).seq fun _ => ?_
    refine (Triple.loop_rest (I := fun changes => RefreshPart S start stop first env r rest seen t
      answer done changes) q.changes fun c _ changes => updateFlags_part hanchored hanswer).seq
      fun _ => RefreshPart.within ?_
    refine (Within.optional (Within.writeRepo trivial)).seq fun _ =>
      (Within.loop _ fun l _ => ?_).seq fun _ => Within.commitBatch
    split
    · exact Within.writeRepo trivial
    · exact .ret _

theorem queued_part (q : FlagQueue) :
    Triple (RefreshPart S start stop first env r rest seen t answer done q.changes) (queued env r q)
      (fun q' => RefreshPart S start stop first env r rest seen t answer done q'.changes)
      (fun _ => Refreshing S start stop first env r rest seen) := by
  unfold queued
  split
  · exact (flushFlagUpdates_part hanchored hanswer q).seq fun _ => Triple.ret fun _ hw => hw
  · exact Triple.ret fun _ hw => hw

theorem queueUpdate_part (q : FlagQueue) {ref : RemoteMessageRef}
    (href : answer ref.uid = some ref.flags) :
    Triple (RefreshPart S start stop first env r rest seen t answer done q.changes)
      (queueUpdate env r q ref)
      (fun q' => RefreshPart S start stop first env r rest seen t answer
        (fun u => done u ∨ u = ref.uid) q'.changes)
      (fun _ => Refreshing S start stop first env r rest seen) := by
  have hqueued : ∀ q' : FlagQueue, q'.changes = q.changes ++ [(ref.uid,flagText ref.flags)] →
      Triple (RefreshPart S start stop first env r rest seen t answer done q.changes)
        (queued env r q') (fun q' => RefreshPart S start stop first env r rest seen t answer
          (fun u => done u ∨ u = ref.uid) q'.changes)
        (fun _ => Refreshing S start stop first env r rest seen) := by
    intro q' hq
    refine (queued_part hanchored hanswer q').weaken_pre fun w hw => ⟨hw.1,?_⟩
    rw [hq]
    exact hw.2.queue href
  unfold queueUpdate
  dsimp only
  split
  · split
    · exact hqueued _ rfl
    · exact hqueued _ rfl
  · exact hqueued _ rfl

theorem queueTouch_part (q : FlagQueue) (uid : Nat) :
    Triple (RefreshPart S start stop first env r rest seen t answer done q.changes)
      (queueTouch env r q uid)
      (fun q' => RefreshPart S start stop first env r rest seen t answer done q'.changes)
      (fun _ => Refreshing S start stop first env r rest seen) :=
  queued_part hanchored hanswer { q with touches := q.touches ++ [uid] }

omit hanchored hanswer in
/-- All reports about local messages have been dealt with. -/
theorem queueReports_part {reports : List RemoteMessageRef × Option Error}
    {queue : FlagQueue → RemoteMessageRef → App FlagQueue}
    (hqueue : ∀ done q, ∀ ref ∈ reports.1, r.isLocal ref.uid = true →
      Triple (RefreshPart S start stop first env r rest seen t (toldFlags reports.1) done
          q.changes) (queue q ref)
        (fun q' => RefreshPart S start stop first env r rest seen t (toldFlags reports.1)
          (fun u => done u ∨ u = ref.uid) q'.changes)
        (fun _ => Refreshing S start stop first env r rest seen)) :
    Triple (fun w => Refreshing S start stop first env r rest seen w ∧ w.db.tables = t)
      (queueReports env r reports queue)
      (fun q w => RefreshPart S start stop first env r rest seen t (toldFlags reports.1)
        (fun u => r.isLocal u = true) q.changes w ∧ reports.2 = none)
      (fun _ => Refreshing S start stop first env r rest seen) := by
  have hloop := Triple.accumulate_prefix (I := fun before (q : FlagQueue) =>
      RefreshPart S start stop first env r rest seen t (toldFlags reports.1)
        (fun u => r.isLocal u = true ∧ ∃ ref ∈ before, ref.uid = u) q.changes)
    (E := fun _ => Refreshing S start stop first env r rest seen)
    (f := fun q ref => do
      raiseIfCancelled env
      if r.isLocal ref.uid then queue q ref else pure q) reports.1 (fun before q ref href => ?_)
    [] {}
  · refine (hloop.weaken_pre fun w hw => ⟨hw.1,?_⟩).seq fun q => ?_
    · rw [hw.2]
      exact Refreshed.start.mono fun uid hdone => .inr (by simp at hdone)
    · have hlocal : ∀ w, RefreshPart S start stop first env r rest seen t (toldFlags reports.1)
          (fun u => r.isLocal u = true ∧ ∃ ref ∈ [] ++ reports.1, ref.uid = u) q.changes w →
          RefreshPart S start stop first env r rest seen t (toldFlags reports.1)
            (fun u => r.isLocal u = true) q.changes w := by
        refine fun w hw => ⟨hw.1,hw.2.mono fun uid hlocal => ?_⟩
        rcases hfound : reports.1.find? (fun ref => ref.uid == uid) with _ | ref
        · exact .inr (by rw [toldFlags,hfound]; rfl)
        · exact .inl ⟨hlocal,ref,List.mem_of_find?_eq_some hfound,
            by simpa using List.find?_some hfound⟩
      rcases hfault : reports.2 with _ | e
      · exact ((RefreshPart.within (Within.raiseFault _)).weaken_pre hlocal).seq fun _ =>
          (RefreshPart.within Within.raiseIfCancelled).seq fun _ => Triple.ret fun _ hw => ⟨hw,rfl⟩
      · -- the iterator ended with an error
        exact Triple.seq (Q := fun _ _ => False) (Triple.raise fun _ hw => hw.1)
          fun _ _ hnone => hnone.elim
  · refine (RefreshPart.within Within.raiseIfCancelled).seq fun _ => ?_
    split
    · next hlocal =>
      refine (hqueue _ q ref href hlocal).strengthen_post fun q' w hw => ⟨hw.1,hw.2.mono ?_⟩
      rintro uid ⟨hl,ref',href',rfl⟩
      rcases List.mem_append.mp href' with href' | href'
      · exact .inl (.inl ⟨hl,ref',href',rfl⟩)
      · rw [List.mem_singleton.mp href']
        exact .inl (.inr rfl)
    · next hforeign =>
      refine Triple.ret fun w hw => ⟨hw.1,hw.2.mono ?_⟩
      rintro uid ⟨hl,ref',href',rfl⟩
      rcases List.mem_append.mp href' with href' | href'
      · exact .inl ⟨hl,ref',href',rfl⟩
      · rw [List.mem_singleton.mp href'] at hl
        exact absurd hl hforeign

end

end MailDock
