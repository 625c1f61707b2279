import MailDock.DeleteRemote.Safety

/-!
# What a crash leaves and what a run reports

A crash keeps the last commit and the flushed part of the manifest.  A run that
returns puts every candidate of the plan into exactly one of its three lists.
-/

namespace MailDock

open Hoare Trace

/-! A crash. -/

/-- The guard of the last commit speaks about the database a crash leaves. -/
theorem accounted_committedDb {db : Repository} {options : DeleteOptions}
    {items : List DeleteCandidate} {log : List Effect}
    (h : Always (Guard db.tables options items) log) :
    Accounted db.tables (committedDb db log).tables (flushedEvents log) := by
  induction log with
  | nil => exact fun _ => .inl rfl
  | cons e before ih =>
    cases e with
    | commit db' => exact h.1
    | flush => exact (ih h.2).trans (fun _ => .inl rfl) (.refl _) fun _ => mem_flushedEvents_cons .flush
    | _ => exact ih h.2

/-! The report. -/

/-- From `r` to `r'` the candidates were reported, each in one of the three lists. -/
def Reported (candidates : List DeleteCandidate) (r r' : DeleteResult) : Prop :=
  ∃ completed uncertain skipped : List DeleteCandidate,
    (completed ++ uncertain ++ skipped).Perm candidates ∧
    r'.completedIds = r.completedIds ++ completed.map (·.messageId) ∧
    r'.uncertainIds = r.uncertainIds ++ uncertain.map (·.messageId) ∧
    r'.skippedIds = r.skippedIds ++ skipped.map (·.messageId)

theorem Reported.nil (r : DeleteResult) : Reported [] r r :=
  ⟨[],[],[],.nil,by simp,by simp,by simp⟩

theorem Reported.append {a b : List DeleteCandidate} {r r' r'' : DeleteResult}
    (h : Reported a r r') (h' : Reported b r' r'') : Reported (a ++ b) r r'' := by
  obtain ⟨c,u,s,hperm,hc,hu,hs⟩ := h
  obtain ⟨c',u',s',hperm',hc',hu',hs'⟩ := h'
  refine ⟨c ++ c',u ++ u',s ++ s',?_,by simp [hc,hc'],by simp [hu,hu'],by simp [hs,hs']⟩
  refine List.Perm.trans ?_ (hperm.append hperm')
  -- both sides hold the same six lists
  rw [List.perm_iff_count]
  intro x
  simp only [List.count_append]
  omega

theorem Reported.skip (r : DeleteResult) (c : DeleteCandidate) (reason : String) :
    Reported [c] r (r.skip c.messageId reason) :=
  ⟨[],[],[c],.refl _,by simp [DeleteResult.skip],by simp [DeleteResult.skip],rfl⟩

section
variable {env : Env} {options : DeleteOptions}

theorem candidateFromRecord_messageId (message : Message) (first : Option Membership)
    (folderId : Option Nat) (excludeFlagged requirePresent : Bool) :
    Triple (fun _ => True)
      (candidateFromRecord env message first folderId excludeFlagged requirePresent)
      (fun result _ => ∀ c, result = .ok c → c.messageId = message.id) (fun _ _ => True) := by
  have hskip : ∀ reason : String, Triple (fun _ => True)
      (pure (.error reason) : App (Except String DeleteCandidate))
      (fun result _ => ∀ c, result = .ok c → c.messageId = message.id) (fun _ _ => True) :=
    fun reason => Triple.ret fun _ _ c h => by cases h
  unfold candidateFromRecord
  refine (Triple.skip _).seq fun rows => ?_
  split
  · exact hskip _
  · refine (Triple.skip _).seq fun names => ?_
    split
    · exact hskip _
    · next candidate hfields =>
      refine (Triple.skip _).seq fun problem => ?_
      split
      · exact hskip _
      · refine (Triple.skip _).seq fun hasContents => ?_
        split
        · refine Triple.ret fun _ _ c h => ?_
          cases h
          exact (candidateFields_spec hfields).1
        · exact hskip _

theorem deleteVerified_reported (google : List String) (trash : Option String)
    {candidate planned : DeleteCandidate} (hid : candidate.messageId = planned.messageId)
    (message : Message) (r : DeleteResult) :
    Triple (fun _ => True) (deleteVerified env options google trash candidate message r)
      (fun r' _ => Reported [planned] r r') (fun _ _ => True) := by
  unfold deleteVerified
  rw [hid]
  refine (Triple.skip _).seq fun now => (Triple.skip _).seq fun _ => (Triple.skip _).seq fun _ =>
    (Triple.skip _).seq fun answer => ?_
  split
  · refine (Triple.skip _).seq fun _ => Triple.ret fun _ _ => ?_
    exact ⟨[planned],[],[],.refl _,rfl,by simp,by simp⟩
  · split
    · exact Triple.ret fun _ _ => ⟨[],[],[planned],.refl _,by simp [DeleteResult.skip],
        by simp [DeleteResult.skip],rfl⟩
    · split
      · refine (Triple.skip _).seq fun _ => (Triple.skip _).seq fun _ => (Triple.skip _).seq fun _ =>
          Triple.ret fun _ _ => ?_
        exact ⟨[],[planned],[],.refl _,by simp,rfl,by simp⟩
      · split
        · exact Triple.ret fun _ _ => .skip r planned _
        · exact Triple.raise fun _ _ => trivial

theorem deletePlanned_reported (google : List String) (trash : Option String) (r : DeleteResult)
    (planned : DeleteCandidate) :
    Triple (fun _ => True) (deletePlanned env options google trash r planned)
      (fun r' _ => Reported [planned] r r') (fun _ _ => True) := by
  have hskip : ∀ reason : String, Triple (fun _ => True)
      (pure (r.skip planned.messageId reason) : App DeleteResult)
      (fun r' _ => Reported [planned] r r') (fun _ _ => True) :=
    fun reason => Triple.ret fun _ _ => .skip r planned reason
  unfold deletePlanned
  split
  · exact hskip _
  · refine (queryRepo_rule (Q := fun row _ => ∀ (message : Message) first,
      row = some (message,first) → message.id = planned.messageId) ?_
      fun _ _ _ _ => trivial).seq_result fun row hrow => ?_
    · intro w _ message first h
      obtain ⟨m,hfound,hm⟩ := Option.map_eq_some_iff.mp h
      cases hm
      simpa using List.find?_some hfound
    split
    · exact hskip _
    · next message first =>
      refine (candidateFromRecord_messageId message first _ _ _).seq_result
        fun verified hverified => ?_
      split
      · exact hskip _
      · next candidate =>
        split
        · exact deleteVerified_reported google trash
            ((hverified candidate rfl).trans (hrow message first rfl)) message r
        · exact hskip _

theorem deleteAll_reported (google : List String) (trash : Option String)
    (remaining : List DeleteCandidate) (r : DeleteResult) :
    Triple (fun _ => True) (remaining.foldlM (deletePlanned env options google trash) r)
      (fun r' _ => Reported remaining r r') (fun _ _ => True) := by
  induction remaining generalizing r with
  | nil => exact Triple.ret fun _ _ => .nil r
  | cons planned remaining ih =>
    rw [List.foldlM_cons]
    exact (deletePlanned_reported google trash r planned).seq_result fun r' hr' =>
      (ih r').strengthen_post fun _ _ h => hr'.append h

/-- The skips of the preflight, in the order of the plan. -/
theorem preflightSkips_reported (p : Preflight) (items : List DeleteCandidate) (r : DeleteResult) :
    Reported (items.filter fun c => (preflightVerdict p c).1.isSome) r
      (items.foldl (fun r c =>
        match (preflightVerdict p c).1 with
        | some reason => r.skip c.messageId reason
        | none => r) r) := by
  induction items generalizing r with
  | nil => exact .nil r
  | cons c items ih =>
    rw [List.foldl_cons]
    cases hverdict : (preflightVerdict p c).1 with
    | none =>
      rw [List.filter_cons_of_neg (by simp [hverdict])]
      exact ih r
    | some reason =>
      rw [List.filter_cons_of_pos (by simp [hverdict])]
      exact (Reported.skip r c reason).append (ih _)

/-- The preflight splits the plan into what it skips and what is left to delete. -/
theorem preflight_reported (items : List DeleteCandidate) :
    Triple (fun _ => True) (preflight env items)
      (fun survived _ => ∃ skipped, Reported skipped {} survived.2 ∧
        (skipped ++ survived.1).Perm items) (fun _ _ => True) := by
  unfold preflight
  dsimp only
  refine (Triple.skip _).seq fun p => (Triple.skip _).seq fun _ => Triple.ret fun _ _ => ?_
  refine ⟨_,preflightSkips_reported p items {},?_⟩
  have hrest : (items.filter fun c => (preflightVerdict p c).1.isNone) =
      items.filter fun c => !(preflightVerdict p c).1.isSome := by
    congr 1
    funext c
    cases (preflightVerdict p c).1 <;> rfl
  rw [hrest]
  exact List.filter_append_perm _ items

theorem execute_reported (items : List DeleteCandidate) :
    Triple (fun _ => True) (execute env options items) (fun r _ => Reported items {} r)
      (fun _ _ => True) := by
  unfold execute
  refine (Triple.skip _).seq fun checked => ?_
  obtain ⟨google,trash⟩ := checked
  refine Triple.seq_result (φ := fun survived => ∃ skipped, Reported skipped {} survived.2 ∧
    (skipped ++ survived.1).Perm items) ?_ fun survived hsurvived => ?_
  · split
    · exact preflight_reported items
    · exact Triple.ret fun _ _ => ⟨[],.nil {},.refl _⟩
  · obtain ⟨remaining,r⟩ := survived
    obtain ⟨skipped,hskipped,hperm⟩ := hsurvived
    refine (deleteAll_reported google trash remaining r).strengthen_post fun r' _ h => ?_
    obtain ⟨c,u,s,hcus,hrest⟩ := hskipped.append h
    exact ⟨c,u,s,hcus.trans hperm,hrest⟩

end

/-- After a crash at any point every membership marked deleted, moved or removed has
a flushed completion event; a run that returns reports each candidate once; and with
`exclude_flagged` no destructive command goes to a message last reported as flagged. -/
theorem execute_crash_and_accounting (env : Env) (options : DeleteOptions)
    (items : List DeleteCandidate) (db : Repository) (manifest : List ManifestEvent)
    (last : Option Nat) (files : List (String × Bytes)) (tick : Nat) :
    let start := World.opened db manifest last files tick
    (∀ log, log <:+ executeLog env options items start → ∀ k,
      (committedDb db log).tables.status k ≠ db.tables.status k →
      (∀ state movedTo, (committedDb db log).tables.status k = some (state,movedTo) →
        state = .deleted ∨ state = .moved) →
      Completed (committedDb db log).tables k (flushedEvents log)) ∧
    (∀ r, (execute env options items start).1 = .ok r →
      ∃ completed uncertain skipped : List DeleteCandidate,
        (completed ++ uncertain ++ skipped).Perm items ∧
        r.completedIds = completed.map (·.messageId) ∧
        r.uncertainIds = uncertain.map (·.messageId) ∧
        r.skippedIds = skipped.map (·.messageId)) ∧
    (options.excludeFlagged = true → ∀ c folder uid after before,
      executeLog env options items start = after ++ .command c :: before →
      c.target = some (folder,uid) → ReportedUnflagged folder uid before) := by
  intro start
  have hguarded := executeLog_guarded env options items db manifest last files tick
  refine ⟨?_,?_,?_⟩
  · intro log hlog k hchanged hmarked
    rcases accounted_committedDb (hguarded.suffix hlog) k with h | ⟨movedTo,h⟩ | h
    · exact absurd h hchanged
    · rcases hmarked _ _ h with hstate | hstate
      · cases hstate
      · cases hstate
    · exact h
  · intro r hr
    have hreported : Triple (fun _ => True) (execute env options items)
        (fun r _ => Reported items {} r) (fun _ _ => True) := execute_reported items
    have h := hreported start trivial
    rcases hrun : execute env options items start with ⟨result,w⟩
    rw [hrun] at h hr
    cases hr
    obtain ⟨c,u,s,hperm,hc,hu,hs⟩ := h
    exact ⟨c,u,s,hperm,by simpa using hc,by simpa using hu,by simpa using hs⟩
  · intro hflag c folder uid after before hlog hc
    rw [hlog] at hguarded
    obtain ⟨planned,-,rfl,rfl,hauthorised⟩ := hguarded.at folder uid hc
    exact hauthorised.unflagged hflag

/-- The run that deletes UID 12 of INBOX: it is committed as deleted, its completion is
flushed, it is reported as completed, and its flags had been read. -/
theorem execute_crash_and_accounting_move :
    let log := executeLog (serverAt 9) { excludeFlagged := true } [plannedInbox] inboxWorld
    (committedDb storedInbox log).tables.status (1,9,12) = some (.deleted,none) ∧
    Completed (committedDb storedInbox log).tables (1,9,12) (flushedEvents log) ∧
    (∃ completed uncertain skipped : List DeleteCandidate,
      (completed ++ uncertain ++ skipped).Perm [plannedInbox] ∧
      [1] = completed.map (·.messageId) ∧ [] = uncertain.map (·.messageId) ∧
      [] = skipped.map (·.messageId)) ∧
    ReportedUnflagged "INBOX" 12 (log.drop 6) := by
  intro log
  have hstatus : (committedDb storedInbox log).tables.status (1,9,12) = some (.deleted,none) := by
    decide +kernel
  have hstart : storedInbox.tables.status (1,9,12) = some (.present,none) := by decide
  obtain ⟨hcrash,hreport,hflags⟩ := execute_crash_and_accounting (serverAt 9)
    { excludeFlagged := true } [plannedInbox] storedInbox [] none
    [("eml/work/unknown/e3b0.eml",[])] 0
  refine ⟨hstatus,hcrash log List.suffix_rfl (1,9,12) ?_ ?_,?_,?_⟩
  · rw [hstatus,hstart]
    decide
  · intro state movedTo h
    rw [hstatus] at h
    cases h
    exact .inl rfl
  · exact hreport { completedIds := [1] } (by decide +kernel)
  · exact hflags rfl (.move "INBOX" 12) "INBOX" 12 (log.take 5) (log.drop 6) (by decide +kernel) rfl

end MailDock
