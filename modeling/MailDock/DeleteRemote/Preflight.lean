import MailDock.DeleteRemote.Execute

/-!
# The preflight of an execution that spares flagged messages

Each folder of the plan is selected once and its flags are read.  A candidate
survives only when the server reported its flags and `\Flagged` is not among them.
-/

namespace MailDock

open Hoare Trace

/-- The flags report of one item of a flags iterator. -/
def flagsReport (folderRawName : String) (t : Nat) (r : RemoteMessageRef) : Effect :=
  .answer t (.flags folderRawName r.uid r.flags)

/-- The reports of an iterator, the newest first, decide what was reported last. -/
theorem reportedFlags_reports (folderRawName f : String) (t u : Nat) (newest : List RemoteMessageRef)
    (log : List Effect) :
    reportedFlags f u (newest.map (flagsReport folderRawName t) ++ log) =
      ((newest.map fun r => ((folderRawName,r.uid),r.flags)).lookup (f,u)).or
        (reportedFlags f u log) := by
  induction newest with
  | nil => rfl
  | cons r newest ih =>
    simp only [List.map_cons,List.cons_append,flagsReport,reportedFlags,List.lookup_cons]
    by_cases h : folderRawName = f ∧ r.uid = u
    · have hkey : ((f,u) == (folderRawName,r.uid)) = true := by simp [h.1,h.2]
      rw [if_pos h,hkey]
      rfl
    · have hkey : ((f,u) == (folderRawName,r.uid)) = false := by
        simp only [beq_eq_false_iff_ne,ne_eq,Prod.mk.injEq]
        exact fun heq => h ⟨heq.1.symm,heq.2.symm⟩
      rw [if_neg h,hkey]
      exact ih

theorem lookup_reports_none {folderRawName f : String} (hf : folderRawName ≠ f) (u : Nat)
    (refs : List RemoteMessageRef) :
    (refs.map fun r => ((folderRawName,r.uid),r.flags)).lookup (f,u) = none := by
  rw [List.lookup_eq_none_iff]
  intro entry hentry
  obtain ⟨r,-,rfl⟩ := List.mem_map.mp hentry
  simp [Ne.symm hf]

section
variable {start : Tables} {options : DeleteOptions} {items : List DeleteCandidate}
  {db : Repository} {env : Env}

/-- Before the survivors are known the invariant asks nothing about reports. -/
theorem DeleteInv.report (h : DeleteInv start options items [] db inBatch log) (t : Nat)
    (a : ServerAnswer) : DeleteInv start options items [] db inBatch (.answer t a :: log) where
  guarded := ⟨trivial,h.guarded⟩
  closed := h.closed
  kept := h.kept
  accounted := h.accounted.trans (fun _ => .inl rfl) (.refl _) fun _ => mem_flushedEvents_cons _
  unmatched hflag f v hmem := h.unmatched hflag f v ((List.mem_cons.mp hmem).resolve_left (by simp))
  unflagged _ c hc := by cases hc

/-- The loop over the reports puts them into the log one after the other. -/
theorem emitReports_rule {P : World → Prop} {Q : Unit → World → Prop} {E : Error → World → Prop}
    (folderRawName : String) (t : Nat) (refs : List RemoteMessageRef)
    (h : ∀ w, P w → Q () { w with
      log := (refs.reverse.map (flagsReport folderRawName t)) ++ w.log }) :
    Triple P (refs.forM fun r => emit (.answer t (.flags folderRawName r.uid r.flags))) Q E := by
  induction refs generalizing P with
  | nil => exact Triple.ret h
  | cons r refs ih =>
    refine (emit_rule (Q := fun _ w' => ∃ w, P w ∧ w' = w.logged (flagsReport folderRawName t r))
      fun w hw => ⟨w,hw,rfl⟩).seq fun _ => ih ?_
    rintro _ ⟨w,hw,rfl⟩
    have := h w hw
    simpa [World.logged] using this

/-- What the preflight believes about flags is what the server reported last. -/
def FlagsKnown (p : Preflight) (log : List Effect) : Prop :=
  ∀ f u flags, p.verifiedFlags.lookup (f,u) = some flags → reportedFlags f u log = some flags

/-- No report of the folder has been taken over yet. -/
def Unread (p : Preflight) (folder : String) : Prop :=
  ∀ u, p.verifiedFlags.lookup (folder,u) = none

theorem FlagsKnown.cons {p : Preflight} {log : List Effect} (h : FlagsKnown p log) {e : Effect}
    (he : e.isPlain = true) : FlagsKnown p (e :: log) := by
  intro f u flags hflags
  rw [reportedFlags_cons he]
  exact h f u flags hflags

/-- Reports of a folder that was not read before contradict nothing. -/
theorem FlagsKnown.reports {p : Preflight} {log : List Effect} (h : FlagsKnown p log)
    {folder : String} (hfolder : Unread p folder) (t : Nat) (newest : List RemoteMessageRef) :
    FlagsKnown p (newest.map (flagsReport folder t) ++ log) := by
  intro f u flags hflags
  have hne : folder ≠ f := by
    rintro rfl
    rw [hfolder u] at hflags
    cases hflags
  rw [reportedFlags_reports,lookup_reports_none hne,Option.none_or]
  exact h f u flags hflags

/-- Taking the reports over, the last one of a UID first. -/
theorem FlagsKnown.taken {p : Preflight} {log : List Effect} (h : FlagsKnown p log)
    (folder : String) (t : Nat) (newest : List RemoteMessageRef) :
    FlagsKnown { p with
      verifiedFlags := (newest.map fun r => ((folder,r.uid),r.flags)) ++ p.verifiedFlags }
      (newest.map (flagsReport folder t) ++ log) := by
  intro f u flags hflags
  rw [reportedFlags_reports]
  rw [List.lookup_append] at hflags
  cases hnew : (newest.map fun r => ((folder,r.uid),r.flags)).lookup (f,u) with
  | some flags' =>
    rw [hnew,Option.some_or] at hflags
    rw [Option.some_or,hflags]
  | none =>
    rw [hnew,Option.none_or] at hflags
    rw [Option.none_or]
    exact h f u flags hflags

theorem DeleteInv.reports {inBatch : Bool} {log : List Effect}
    (h : DeleteInv start options items [] db inBatch log) (folder : String) (t : Nat)
    (newest : List RemoteMessageRef) :
    DeleteInv start options items [] db inBatch (newest.map (flagsReport folder t) ++ log) := by
  induction newest with
  | nil => exact h
  | cons r newest ih => exact ih.report t _

/-- Reading the flags of folders: the invariant, and what is known is what was reported. -/
def Reading (start : Tables) (options : DeleteOptions) (items : List DeleteCandidate)
    (db : Repository) (p : Preflight) (w : World) : Prop :=
  Between start options items [] db w ∧ FlagsKnown p w.log

/-- The preflight with the reports of one folder taken over. -/
def Preflight.withReports (p : Preflight) (folder : String) (refs : List RemoteMessageRef) :
    Preflight :=
  { p with
    verifiedFlags := (refs.map fun r => ((folder,r.uid),r.flags)).reverse ++ p.verifiedFlags }

variable {p : Preflight} {folder : String}

theorem selectFolder_reading :
    Triple (Reading start options items db p) (selectFolder env folder)
      (fun _ => Reading start options items db p) (fun _ => Reading start options items db p) := by
  have hselect : ∀ w, Reading start options items db p w → Reading start options items db p
      (w.ticked.logged (.command (.select folder))) := fun w hw =>
    ⟨hw.1.logged rfl (fun _ _ ht => by cases ht),
      hw.2.cons (e := .command (.select folder)) rfl⟩
  exact (imapCommand_rule (Q := fun _ => Reading start options items db p) hselect
    fun w _ hw => hselect w hw).seq fun _ => Triple.ret fun _ hw => hw

theorem iterFlags_reading (hfolder : Unread p folder) (uids : List Nat) (expected : Option Nat) :
    Triple (Reading start options items db p) (iterFlags env folder uids expected)
      (fun answer w => Reading start options items db p w ∧
        FlagsKnown (p.withReports folder answer.1) w.log)
      (fun _ => Reading start options items db p) := by
  have hselect : ∀ w, Reading start options items db p w → Reading start options items db p
      (w.ticked.logged (.command (.select folder))) := fun w hw =>
    ⟨hw.1.logged rfl (fun _ _ ht => by cases ht),
      hw.2.cons (e := .command (.select folder)) rfl⟩
  unfold iterFlags
  split
  · exact Triple.raise fun _ hw => hw
  · refine (imapCommand_rule (Q := fun _ => Reading start options items db p) hselect
      fun w _ hw => hselect w hw).seq fun t => ?_
    split
    · exact Triple.raise fun _ hw => hw
    · dsimp only
      refine (emitReports_rule (Q := fun _ w => Reading start options items db p w ∧
        FlagsKnown (p.withReports folder ((env.flagRefs t folder).1.filter
          fun r => uids.contains r.uid)) w.log) folder t _ fun w hw => ?_).seq fun _ =>
        Triple.ret fun _ hw => hw
      refine ⟨⟨⟨hw.1.1.reports folder t _,hw.1.2⟩,hw.2.reports hfolder t _⟩,?_⟩
      have := hw.2.taken folder t ((env.flagRefs t folder).1.filter
        fun r => uids.contains r.uid).reverse
      rw [List.map_reverse] at this
      exact this

theorem preflightReports_reading (hfolder : Unread p folder) (folderItems : List DeleteCandidate)
    (expected : Nat) :
    Triple (Reading start options items db p) (preflightReports env folder folderItems expected)
      (fun answer w => Reading start options items db p w ∧
        ∀ refs, answer = some refs → FlagsKnown (p.withReports folder refs) w.log)
      (fun _ => Reading start options items db p) := by
  refine selectFolder_reading.seq fun selected => ?_
  split
  · exact Triple.ret fun w hw => ⟨hw,fun refs h => by cases h⟩
  · refine (iterFlags_reading hfolder _ _).seq fun answer => ?_
    obtain ⟨refs,failure⟩ := answer
    refine (raiseFault_rule (Q := fun _ w => Reading start options items db p w ∧
      FlagsKnown (p.withReports folder refs) w.log) (fun w hw => hw) fun e _ w hw => hw.1).seq
      fun _ => Triple.ret fun w hw => ⟨hw.1,fun refs' h => ?_⟩
    cases h
    exact hw.2

/-- Skipping candidates leaves the known flags alone. -/
theorem FlagsKnown.skipAll {log : List Effect} (h : FlagsKnown p log)
    (folderItems : List DeleteCandidate) (reason : String) :
    FlagsKnown (p.skipAll folderItems reason) log := h

theorem preflightFolder_reading (hfolder : Unread p folder) (folderItems : List DeleteCandidate) :
    Triple (Reading start options items db p) (preflightFolder env folder folderItems p)
      (fun p' w => Reading start options items db p' w ∧
        ∀ f, f ≠ folder → Unread p f → Unread p' f)
      (Guarded start options items) := by
  have hskip : ∀ reason : String, Triple (Reading start options items db p)
      (pure (p.skipAll folderItems reason) : App Preflight)
      (fun p' w => Reading start options items db p' w ∧
        ∀ f, f ≠ folder → Unread p f → Unread p' f)
      (Guarded start options items) := fun reason =>
    Triple.ret fun w hw => ⟨⟨hw.1,hw.2.skipAll folderItems reason⟩,fun f _ hf => hf⟩
  unfold preflightFolder
  split
  · next expected _ =>
    refine (outcome_rule (R := fun answer w => Reading start options items db p w ∧
      ∀ refs, answer = .ok (some refs) → FlagsKnown (p.withReports folder refs) w.log)
      ((preflightReports_reading hfolder folderItems expected).consequence (fun _ hw => hw)
        (fun answer w hw => ⟨hw.1,fun refs h => hw.2 refs (Except.ok.inj h)⟩)
        fun e w hw => ⟨hw,fun refs h => by cases h⟩)).seq fun answer => ?_
    split
    · exact (hskip _).weaken_pre fun w hw => hw.1
    · next refs =>
      refine Triple.ret fun w hw => ⟨⟨hw.1.1,hw.2 refs rfl⟩,fun f hf hunread u => ?_⟩
      rw [List.lookup_append,← List.map_reverse,lookup_reports_none (Ne.symm hf),Option.none_or]
      exact hunread u
    · split
      · exact (hskip _).weaken_pre fun w hw => hw.1
      · split
        · exact Triple.raise fun w hw => hw.1.1.guarded _
        · split
          · exact (hskip _).weaken_pre fun w hw => hw.1
          · exact Triple.raise fun w hw => hw.1.1.guarded _
  · exact hskip _

/-- The folders of the plan, each read once. -/
theorem preflightFolders_reading (folders : List String) (hnodup : folders.Nodup)
    (hunread : ∀ f ∈ folders, Unread p f) :
    Triple (Reading start options items db p)
      (folders.foldlM (fun p folder => preflightFolder env folder
        (items.filter fun c => c.folderRawName == folder) p) p)
      (fun p' => Reading start options items db p') (Guarded start options items) := by
  induction folders generalizing p with
  | nil => exact Triple.ret fun _ hw => hw
  | cons folder folders ih =>
    rw [List.foldlM_cons]
    obtain ⟨hnot,hnodup⟩ := List.nodup_cons.mp hnodup
    refine (preflightFolder_reading (hunread folder (by simp)) _).seq fun p' =>
      Triple.assume fun hkept => ih hnodup fun f hf => ?_
    exact hkept f (fun h => hnot (h ▸ hf)) (hunread f (by simp [hf]))

/-- A candidate that survives was reported without the flag. -/
theorem preflightVerdict_unflagged {log : List Effect} (hknown : FlagsKnown p log)
    {candidate : DeleteCandidate} (h : (preflightVerdict p candidate).1 = none) :
    ReportedUnflagged candidate.folderRawName candidate.uid log := by
  unfold preflightVerdict at h
  split at h
  · cases h
  · split at h
    · cases h
    · next flags hflags =>
      refine ⟨flags,hknown _ _ _ hflags,?_⟩
      dsimp only at h
      split at h
      · cases h
      · next hnot => simpa using hnot

/-- A database step that changes no status keeps the invariant. -/
theorem DeleteInv.settled {inBatch : Bool} {log : List Effect} {db' : Repository}
    {remaining : List DeleteCandidate}
    (h : DeleteInv start options items remaining db inBatch log)
    (hkept : DatabaseKept db.tables db'.tables)
    (hstatus : ∀ k, db'.tables.status k = db.tables.status k) :
    DeleteInv start options items remaining db' inBatch log where
  guarded := h.guarded
  closed := h.closed
  kept := h.kept.trans hkept
  accounted := h.accounted.trans (fun k => .inl (hstatus k)) hkept fun _ h => h
  unmatched := h.unmatched
  unflagged := h.unflagged

/-- Inside the batch of flag updates no status changes. -/
structure Storing (start : Tables) (options : DeleteOptions) (items : List DeleteCandidate)
    (p : Preflight) (w : World) : Prop where
  inv : DeleteInv start options items [] w.db false w.log
  opened : w.inBatch = true
  known : FlagsKnown p w.log

theorem storePreflightFlags_safe (candidates : List DeleteCandidate) :
    Triple (Reading start options items db p) (storePreflightFlags env p candidates)
      (fun _ w => ∃ db', Reading start options items db' p w) (Guarded start options items) := by
  unfold storePreflightFlags
  dsimp only
  split
  · exact Triple.ret fun w hw => ⟨db,hw⟩
  · refine (timestamp_rule (Q := fun _ => Reading start options items db p) fun _ _ hw => hw).seq
      fun seenAt => ?_
    refine (beginBatch_rule (Q := fun _ => Storing start options items p) ?_
      fun w e hw _ => hw.1.guarded e).seq fun _ => ?_
    · intro w hw hclosed
      have hinv := hw.1.1
      rw [hclosed,← hw.1.2] at hinv
      exact ⟨hinv,rfl,hw.2⟩
    refine (Triple.loop (I := Storing start options items p) _ fun u _ => ?_).seq fun _ => ?_
    · split
      · next folderId _ =>
        refine writeRepo_rule ?_ fun w e hw _ => hw.inv.guarded
        intro w db' hw happly
        obtain ⟨hsettled,hstatus⟩ := updateFlags_settledAt happly (0,0,0)
        rw [World.written_inBatch (w := w.ticked) hw.opened]
        exact ⟨(hw.inv.cons (e := .write _) rfl trivial).settled hsettled.kept hstatus,hw.opened,hw.known.cons rfl⟩
      · exact Triple.ret fun _ hw => hw
    · refine commitBatch_rule ?_ fun w e hw _ => hw.inv.guarded
      intro w hw
      exact ⟨w.db,⟨⟨hw.inv.cons (e := .commit w.db) rfl hw.inv.accounted,rfl⟩,hw.known.cons rfl⟩⟩

end

end MailDock
