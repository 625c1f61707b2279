import MailDock.DeleteRemote.Reconcile
import MailDock.Storage.Quarantine

/-!
# References to quarantined files

`range_verify` walks the fetch events since the last checkpoint.  A file that is missing or changed
is repaired at the message stored under the key of the event: a failure row for its first
membership, no path and no hash.  Files are shared by path, though, and messages are not found by
their paths.

## Main definitions

- `rangeDamage` — the events a run finds damaged, from the files it starts with
- `Tables.repaired` — what one of them changes in the database
- `NoDangling` — nothing refers to a quarantined path, and what was cleared is fetched again
- `EveryReferenceRepaired` — the condition for this, before the run

## Main results

- `rangeVerify_repairs` — what a run that is not cancelled does
- `rangeVerify_noDangling_iff` — when it leaves no dangling reference
-/

namespace MailDock

open Hoare Relational

/-! ## What a run finds -/

/-- A fetch event whose file is missing or changed. -/
abbrev Damage := FetchEvent × IssueReason

/-- A file, after the files at these paths have been moved away. -/
def remainingFile (files : List (String × Bytes)) (moved : List String) (p : String) :
    Option Bytes :=
  if p ∈ moved then none else files.lookup p

def rangeDamage (env : Env) (files : List (String × Bytes)) :
    List String → List ManifestEvent → List Damage
  | _,[] => []
  | moved,.fetch e :: rest =>
    match remainingFile files moved e.relativePath with
    | none => (e,.missing) :: rangeDamage env files moved rest
    | some raw =>
      if env.sha256 raw = casefoldHex e.fileHash then rangeDamage env files moved rest
      else (e,.hashMismatch) :: rangeDamage env files (e.relativePath :: moved) rest
  | moved,_ :: rest => rangeDamage env files moved rest

/-- What a run of `range_verify` finds damaged. -/
def World.rangeDamage (env : Env) (w : World) : List Damage :=
  MailDock.rangeDamage env w.files [] (readEventsSinceCheckpoint w.manifest)

/-- The path does not name a file in quarantine that is still to be made: `uuid4` does not return
a value that is in use. -/
def World.Unclaimed (env : Env) (w : World) (p : String) : Prop :=
  ∀ t, w.tick ≤ t → ∀ q, quarantinePath q (env.uuid t) ≠ p

/-! ## What it does about it -/

namespace Tables

def integrityRecorded (record : StoredRecord) (reason : IssueReason) (t : Tables) : Tables :=
  match record.2.bind Membership.serverUid with
  | some (folderId,uidvalidity,uid) =>
    t.recordFailure record.1.accountId folderId uidvalidity uid .integrity reason.text
  | none => t

def repaired (records : List StoredRecord) (t : Tables) (d : Damage) : Tables :=
  match storedRecordOf records d.1 with
  | none => t
  | some record => (t.integrityRecorded record d.2).updateMessageStorage record.1.id none none

end Tables

/-- The tables after a run. -/
def World.repairedTables (env : Env) (w : World) : Tables :=
  (w.rangeDamage env).foldl (Tables.repaired (w.db.tables.listStoredMessages none)) w.db.tables

/-- During a run: these paths have been moved away, and the database has these tables. -/
structure Swept (env : Env) (start : World) (moved : List String) (t : Tables) (w : World) :
    Prop where
  tick : start.tick ≤ w.tick
  files : ∀ p, start.Unclaimed env p → w.files.lookup p = remainingFile start.files moved p
  tables : w.db.tables = t

section
variable {env : Env} {start : World} {moved : List String} {t : Tables}

theorem Swept.ticked {w : World} (h : Swept env start moved t w) :
    Swept env start moved t w.ticked :=
  ⟨Nat.le_succ_of_le h.tick,h.files,h.tables⟩

theorem Swept.written {w : World} (h : Swept env start moved t w) (op : WriteOp)
    (db : Repository) : Swept env start moved db.tables (w.written op db) := by
  unfold World.written
  split
  · exact ⟨h.tick,h.files,rfl⟩
  · exact ⟨h.tick,h.files,rfl⟩

/-- A file that is moved away, or that was not there. -/
theorem quarantineEml_swept (p : String) :
    Triple (Swept env start moved t) (quarantineEml env p)
      (fun _ => Swept env start (p :: moved) t) fun _ _ => True := by
  refine quarantineEml_rule (fun w hw hnone => ?_) (fun w raw hw hraw => ?_) fun _ _ _ _ => trivial
  · refine ⟨Nat.le_succ_of_le hw.tick,fun q hq => ?_,hw.tables⟩
    by_cases hqp : q = p
    · subst hqp
      rw [remainingFile,if_pos List.mem_cons_self]
      exact hnone
    · show w.files.lookup q = _
      rw [hw.files q hq,remainingFile,remainingFile]
      simp [hqp]
  · refine ⟨Nat.le_succ_of_le hw.tick,fun q hq => ?_,hw.tables⟩
    have hdest : q ≠ quarantinePath p (env.uuid w.tick) := (hq w.tick hw.tick p).symm
    rw [World.lookup_movedFile,if_neg hdest]
    by_cases hqp : q = p
    · rw [if_pos hqp,remainingFile,if_pos (by simp [hqp])]
    · show (if q = p then none else w.files.lookup q) = _
      rw [if_neg hqp,hw.files q hq,remainingFile,remainingFile]
      simp [hqp]

/-- Only a changed file is moved. -/
def movedBy (reason : IssueReason) (p : String) (moved : List String) : List String :=
  if reason = .hashMismatch then p :: moved else moved

theorem quarantineChanged_swept (issue : VerificationIssue) :
    Triple (Swept env start moved t)
      (if issue.reason = .hashMismatch then quarantineEml env issue.relativePath
        else pure () : App Unit)
      (fun _ => Swept env start (movedBy issue.reason issue.relativePath moved) t)
      fun _ _ => True := by
  unfold movedBy
  split
  · exact quarantineEml_swept _
  · exact Triple.ret fun _ hw => hw

theorem recordIntegrityFailure_swept (record : StoredRecord) (reason : IssueReason) :
    Triple (Swept env start moved t) (recordIntegrityFailure env record reason)
      (fun _ => Swept env start moved (t.integrityRecorded record reason)) fun _ _ => True := by
  obtain ⟨m,r⟩ := record
  have hskip : (r.bind Membership.serverUid) = none → ∀ w, Swept env start moved t w →
      Swept env start moved (t.integrityRecorded (m,r) reason) w := by
    intro hnone w hw
    rwa [Tables.integrityRecorded,hnone]
  unfold recordIntegrityFailure
  split
  · next messageId folderId uid uidvalidity _ _ _ _ _ hr =>
    refine writeRepo_rule (fun w db hw hdb => ?_) fun _ _ _ _ => trivial
    have htables : db.tables = t.integrityRecorded (m,r) reason := by
      rw [Repository.exec_eq_ok.mp hdb,hw.tables,Tables.integrityRecorded,hr]
      rfl
    exact htables ▸ hw.ticked.written _ db
  · next hr =>
    refine Triple.ret (hskip ?_)
    cases r with
    | none => rfl
    | some r =>
      obtain ⟨messageId,folderId,uid,uidvalidity,_,_,_,_,_⟩ := r
      cases uid with
      | none => cases uidvalidity <;> rfl
      | some uid =>
        cases uidvalidity with
        | none => rfl
        | some uidvalidity => exact absurd rfl (hr _ _ _ _ _ _ _ _ _)

theorem handleIssue_swept {records : List StoredRecord} {e : FetchEvent}
    (issue : VerificationIssue) (hpath : issue.relativePath = e.relativePath)
    (result : RangeVerifyResult) :
    Triple (Swept env start moved t) (handleIssue env (storedRecordOf records e) issue result)
      (fun result' w => Swept env start (movedBy issue.reason e.relativePath moved)
          (t.repaired records (e,issue.reason)) w ∧
        result'.issues = result.issues ++ [issue]) fun _ _ => True := by
  have hmove := fun t : Tables => @quarantineChanged_swept env start moved t issue
  rw [hpath] at hmove
  unfold handleIssue
  refine Triple.seq (Q := fun _ => Swept env start (movedBy issue.reason e.relativePath moved)
    (t.repaired records (e,issue.reason))) ?_ fun _ => Triple.ret fun w hw => ⟨hw,rfl⟩
  unfold Tables.repaired
  cases storedRecordOf records e with
  | none =>
    rw [hpath]
    exact hmove t
  | some record =>
    refine (recordIntegrityFailure_swept record issue.reason).seq fun _ => ?_
    rw [hpath]
    refine (hmove _).seq fun _ => writeRepo_rule (fun w db hw hdb => ?_) fun _ _ _ _ => trivial
    have htables := Repository.exec_eq_ok.mp hdb
    have hwritten := hw.ticked.written (.updateMessageStorage record.1.id none none) db
    rwa [htables,hw.tables] at hwritten

/-- The file the check reads is the one the run has left there. -/
theorem hashChunks_swept (p : String) (hp : start.Unclaimed env p) :
    Triple (Swept env start moved t) (hashChunks env p)
      (fun found w => Swept env start moved t w ∧ (found = .cancelled ∨
        found = (remainingFile start.files moved p).elim .missing fun raw => .hash (env.sha256 raw)))
      fun _ _ => True := by
  refine (storageCall_rule (Q := fun _ => Swept env start moved t) (fun w hw => hw.ticked)
    fun _ _ _ _ => trivial).seq fun tick => ?_
  intro w hw
  have hfile := hw.files p hp
  show Holds _ _ ((match w.files.lookup p with
    | none => pure .missing
    | some raw => if !raw.isEmpty && env.cancelled tick then pure .cancelled
        else pure (.hash (env.sha256 raw)) : App HashOutcome) w)
  rw [← hfile]
  cases w.files.lookup p with
  | none => exact ⟨hw,.inr rfl⟩
  | some raw =>
    dsimp only
    split
    · exact ⟨hw,.inl rfl⟩
    · exact ⟨hw,.inr rfl⟩

/-- What an issue says about the event it was found at. -/
def VerificationIssue.damage (issue : VerificationIssue) : String × IssueReason :=
  (issue.relativePath,issue.reason)

theorem rangeVerifyLoop_swept {records : List StoredRecord} (events : List ManifestEvent)
    (hpaths : ∀ e, .fetch e ∈ events → start.Unclaimed env e.relativePath)
    (result : RangeVerifyResult) :
    Triple (Swept env start moved t) (rangeVerifyLoop env records events result)
      (fun result' w => result'.cancelled = false →
        w.db.tables =
          (rangeDamage env start.files moved events).foldl (Tables.repaired records) t ∧
        result'.issues.map VerificationIssue.damage = result.issues.map VerificationIssue.damage ++
          (rangeDamage env start.files moved events).map fun d => (d.1.relativePath,d.2))
      fun _ _ => True := by
  induction events generalizing moved t result with
  | nil => exact Triple.ret fun w hw _ => ⟨hw.tables,by simp [rangeDamage]⟩
  | cons event rest ih =>
    have hrest : ∀ e, .fetch e ∈ rest → start.Unclaimed env e.relativePath := fun e he =>
      hpaths e (List.mem_cons_of_mem _ he)
    cases event with
    | fetch e =>
      -- one step of the loop does what the next damaged event asks for
      have hissue : ∀ (issue : VerificationIssue) (result : RangeVerifyResult),
          issue.relativePath = e.relativePath →
          Triple (Swept env start moved t) (do
              let result ← handleIssue env (storedRecordOf records e) issue result
              rangeVerifyLoop env records rest result)
            (fun result' w => result'.cancelled = false →
              w.db.tables = ((e,issue.reason) :: rangeDamage env start.files
                (movedBy issue.reason e.relativePath moved) rest).foldl
                  (Tables.repaired records) t ∧
              result'.issues.map VerificationIssue.damage =
                result.issues.map VerificationIssue.damage ++
                  ((e,issue.reason) :: rangeDamage env start.files
                    (movedBy issue.reason e.relativePath moved) rest).map
                      fun d => (d.1.relativePath,d.2))
            fun _ _ => True := by
        intro issue result hpath
        refine (handleIssue_swept issue hpath result).seq fun result' => ?_
        refine Triple.assume fun hissues => (ih hrest result').strengthen_post fun _ w hw hend => ?_
        obtain ⟨htables,hfound⟩ := hw hend
        refine ⟨htables,?_⟩
        rw [hfound,hissues]
        simp [VerificationIssue.damage,hpath]
      have hstop : Triple (Swept env start moved t) (isCancelled env)
          (fun _ => Swept env start moved t) fun _ _ => True :=
        (nextTick_rule (Q := fun _ => Swept env start moved t) fun w hw => hw.ticked).seq
          fun _ => Triple.ret fun _ hw => hw
      refine hstop.seq fun stop => ?_
      split
      · exact Triple.ret fun w _ hend => by cases hend
      · refine (hashChunks_swept e.relativePath (hpaths e List.mem_cons_self)).seq fun found => ?_
        refine Triple.assume fun hfound => ?_
        rcases hfound with rfl | hfound
        · exact Triple.ret fun w _ hend => by cases hend
        · rw [rangeDamage]
          cases hfile : remainingFile start.files moved e.relativePath with
          | none =>
            rw [hfile] at hfound
            subst hfound
            exact hissue ⟨e.relativePath,.missing,_,_,_⟩ _ rfl
          | some raw =>
            rw [hfile] at hfound
            subst hfound
            dsimp only [Option.elim_some]
            by_cases hsame : env.sha256 raw = casefoldHex e.fileHash
            · rw [if_pos hsame,if_pos hsame]
              exact ih hrest _
            · rw [if_neg hsame,if_neg hsame]
              exact hissue ⟨e.relativePath,.hashMismatch,_,_,_⟩ _ rfl
    | _ => exact ih hrest result

end

/-- A run that is not cancelled repairs each event that it finds damaged. -/
theorem rangeVerify_repairs {env : Env} {w w' : World} {result : RangeVerifyResult}
    (hpaths : ∀ e, .fetch e ∈ readEventsSinceCheckpoint w.manifest →
      w.Unclaimed env e.relativePath)
    (h : rangeVerify env w = (.ok result,w')) (hend : result.cancelled = false) :
    w'.db.tables = w.repairedTables env ∧ result.issues.map VerificationIssue.damage =
      (w.rangeDamage env).map fun d => (d.1.relativePath,d.2) := by
  have hrun : Triple (fun v => v = w) (rangeVerify env) (fun result w' =>
      result.cancelled = false → w'.db.tables = w.repairedTables env ∧
        result.issues.map VerificationIssue.damage =
          (w.rangeDamage env).map fun d => (d.1.relativePath,d.2)) fun _ _ => True := by
    refine (queryRepo_rule (Q := fun records v => v = w.ticked ∧
      records = w.db.tables.listStoredMessages none) ?_ fun _ _ _ _ => trivial).seq fun records => ?_
    · rintro _ rfl
      exact ⟨rfl,rfl⟩
    · rintro _ ⟨rfl,rfl⟩
      have hstart : Swept env w [] w.db.tables w.ticked :=
        ⟨Nat.le_succ _,fun p _ => by simp [remainingFile,World.ticked],rfl⟩
      exact rangeVerifyLoop_swept _ hpaths {} _ hstart
  have hreturned := hrun w rfl
  rw [h] at hreturned
  exact hreturned hend

/-! ## What the repairs change -/

/-- `UPDATE` leaves the rows where they are. -/
theorem find?_update {α : Type*} {p q : α → Bool} {f : α → α} (hf : ∀ a, q (f a) = q a)
    (rows : List α) :
    (update p f rows).find? q = (rows.find? q).map fun a => if p a then f a else a := by
  induction rows with
  | nil => rfl
  | cons a rows ih =>
    have hq : q (if p a then f a else a) = q a := by
      split
      · exact hf a
      · rfl
    show ((if p a then f a else a) :: update p f rows).find? q = _
    by_cases ha : q a = true
    · rw [List.find?_cons_of_pos (by rwa [hq]),List.find?_cons_of_pos ha]
      rfl
    · rw [List.find?_cons_of_neg (by rwa [hq]),List.find?_cons_of_neg ha]
      exact ih

/-- Whether the repair of an event clears a message. -/
def clearsMessage (records : List StoredRecord) (m : Message) (d : Damage) : Bool :=
  (storedRecordOf records d.1).any fun record => record.1.id == m.id

/-- Whether the repair of an event records a failure of a membership. -/
def recordsFailure (records : List StoredRecord) (accountId : String) (key : Nat × Nat × Nat)
    (d : Damage) : Bool :=
  (storedRecordOf records d.1).any fun record =>
    record.1.accountId == accountId && record.2.bind Membership.serverUid == some key

/-- A message without its file. -/
def Message.cleared (m : Message) : Message := { m with relativePath := none, fileHash := none }

theorem SyncFailure.isOf_iff {accountId : String} {folderId uidvalidity uid : Nat}
    {f : SyncFailure} : SyncFailure.isOf accountId folderId uidvalidity uid f = true ↔
      f.accountId = accountId ∧ (f.folderId,f.uidvalidity,f.uid) = (folderId,uidvalidity,uid) := by
  simp [SyncFailure.isOf,and_assoc]

namespace Tables

/-- The failure row of a UID. -/
def failureOf (t : Tables) (accountId : String) (key : Nat × Nat × Nat) : Option SyncFailure :=
  t.failures.find? (SyncFailure.isOf accountId key.1 key.2.1 key.2.2)

/-- How often the message of a UID has failed. -/
def attempts (t : Tables) (accountId : String) (key : Nat × Nat × Nat) : Nat :=
  (t.failureOf accountId key).elim 0 SyncFailure.attemptCount

theorem attempts_recordFailure (t : Tables) (accountId accountId' : String)
    (key : Nat × Nat × Nat) (folderId uidvalidity uid : Nat) (errorClass : ErrorClass)
    (message : String) :
    (t.recordFailure accountId' folderId uidvalidity uid errorClass message).attempts accountId key =
      t.attempts accountId key +
        if accountId' = accountId ∧ (folderId,uidvalidity,uid) = key then 1 else 0 := by
  obtain ⟨folderId',uidvalidity',uid'⟩ := key
  unfold attempts failureOf recordFailure
  split
  · next hold =>
    dsimp only
    rw [find?_update]
    case hf => exact fun _ => rfl
    cases hfind : t.failures.find? (SyncFailure.isOf accountId folderId' uidvalidity' uid') with
    | none =>
      rw [if_neg ?_]
      · rfl
      · -- the row that is there would have been found
        rintro ⟨rfl,hkey⟩
        cases hkey
        obtain ⟨f,hf,hof⟩ := List.any_eq_true.mp hold
        exact (List.find?_eq_none.mp hfind f hf) hof
    | some f =>
      obtain ⟨rfl,hkey⟩ := SyncFailure.isOf_iff.mp (List.find?_some hfind)
      rw [← hkey,Option.map_some,Option.elim_some,Option.elim_some]
      by_cases hsame : accountId' = f.accountId ∧
          (folderId,uidvalidity,uid) = (f.folderId,f.uidvalidity,f.uid)
      · rw [if_pos (SyncFailure.isOf_iff.mpr ⟨hsame.1.symm,hsame.2.symm⟩),if_pos hsame]
      · rw [if_neg fun hof => hsame ?_,if_neg hsame]
        · rfl
        · obtain ⟨haccount,hkey⟩ := SyncFailure.isOf_iff.mp hof
          exact ⟨haccount.symm,hkey.symm⟩
  · next hnew =>
    rw [List.find?_append]
    by_cases hkey : accountId' = accountId ∧
        (folderId,uidvalidity,uid) = (folderId',uidvalidity',uid')
    · obtain ⟨rfl,hkey⟩ := hkey
      cases hkey
      have hnone : t.failures.find? (SyncFailure.isOf accountId' folderId uidvalidity uid) = none :=
        List.find?_eq_none.mpr fun f hf hof => hnew (List.any_eq_true.mpr ⟨f,hf,hof⟩)
      rw [hnone]
      simp [SyncFailure.isOf]
    · rw [if_neg hkey]
      have hother : [(⟨accountId',folderId,uidvalidity,uid,errorClass,message,1⟩ : SyncFailure)].find?
          (SyncFailure.isOf accountId folderId' uidvalidity' uid') = none := by
        refine List.find?_eq_none.mpr fun f hf hof => hkey ?_
        rw [List.mem_singleton.mp hf] at hof
        exact SyncFailure.isOf_iff.mp hof
      rw [hother,Option.or_none]
      rfl

section
variable {records : List StoredRecord} {t : Tables}

theorem integrityRecorded_frame (record : StoredRecord) (reason : IssueReason) (t : Tables) :
    (t.integrityRecorded record reason).folders = t.folders ∧
      (t.integrityRecorded record reason).messages = t.messages := by
  unfold integrityRecorded
  split
  · unfold recordFailure
    split
    · exact ⟨rfl,rfl⟩
    · exact ⟨rfl,rfl⟩
  · exact ⟨rfl,rfl⟩

theorem repaired_folders (d : Damage) : (t.repaired records d).folders = t.folders := by
  unfold repaired
  split
  · rfl
  · exact (integrityRecorded_frame _ _ t).1

theorem mem_repaired_messages {d : Damage} {m' : Message} :
    m' ∈ (t.repaired records d).messages ↔
      ∃ m ∈ t.messages, (if clearsMessage records m d then m.cleared else m) = m' := by
  unfold repaired clearsMessage
  cases storedRecordOf records d.1 with
  | none => simp
  | some record =>
    rw [← (integrityRecorded_frame record d.2 t).2]
    simp only [updateMessageStorage,update,List.mem_map,Option.any_some,Message.cleared]
    refine exists_congr fun m => and_congr_right fun _ => ?_
    rw [Bool.beq_comm]

theorem attempts_repaired (d : Damage) (accountId : String) (key : Nat × Nat × Nat) :
    (t.repaired records d).attempts accountId key =
      t.attempts accountId key + if recordsFailure records accountId key d then 1 else 0 := by
  unfold repaired recordsFailure
  cases storedRecordOf records d.1 with
  | none => rfl
  | some record =>
    show (t.integrityRecorded record d.2).attempts accountId key = _
    unfold integrityRecorded
    cases hkey : record.2.bind Membership.serverUid with
    | none => simp [hkey]
    | some found =>
      obtain ⟨folderId,uidvalidity,uid⟩ := found
      simp only [attempts_recordFailure,Option.any_some,hkey,Bool.and_eq_true,beq_iff_eq,
        Option.some.injEq]

/-! A run of repairs. -/

theorem foldl_repaired_folders (damage : List Damage) :
    (damage.foldl (repaired records) t).folders = t.folders := by
  induction damage generalizing t with
  | nil => rfl
  | cons d rest ih => exact ih.trans (repaired_folders d)

theorem mem_foldl_repaired_messages {damage : List Damage} {m' : Message} :
    m' ∈ (damage.foldl (repaired records) t).messages ↔ ∃ m ∈ t.messages,
      (if damage.any (clearsMessage records m) then m.cleared else m) = m' := by
  induction damage generalizing t with
  | nil => simp
  | cons d rest ih =>
    -- a message keeps its id, so that the later repairs still know it
    have hcleared : ∀ m : Message, clearsMessage records m.cleared = clearsMessage records m :=
      fun _ => rfl
    have hstep : ∀ m : Message, (if rest.any (clearsMessage records
          (if clearsMessage records m d then m.cleared else m)) then
          (if clearsMessage records m d then m.cleared else m).cleared
        else if clearsMessage records m d then m.cleared else m) =
        if (d :: rest).any (clearsMessage records m) then m.cleared else m := by
      intro m
      by_cases hd : clearsMessage records m d = true
      · rw [if_pos hd,hcleared m,List.any_cons,hd,Bool.true_or,if_pos rfl]
        split
        · rfl
        · rfl
      · rw [if_neg hd,List.any_cons,Bool.eq_false_iff.mpr hd,Bool.false_or]
    rw [List.foldl_cons,ih]
    constructor
    · rintro ⟨m₁,hm₁,rfl⟩
      obtain ⟨m,hm,rfl⟩ := mem_repaired_messages.mp hm₁
      exact ⟨m,hm,(hstep m).symm⟩
    · rintro ⟨m,hm,rfl⟩
      exact ⟨_,mem_repaired_messages.mpr ⟨m,hm,rfl⟩,hstep m⟩

theorem attempts_foldl_repaired (damage : List Damage) (accountId : String)
    (key : Nat × Nat × Nat) :
    (damage.foldl (repaired records) t).attempts accountId key =
      t.attempts accountId key + damage.countP (recordsFailure records accountId key) := by
  induction damage generalizing t with
  | nil => rfl
  | cons d rest ih =>
    rw [List.foldl_cons,ih,attempts_repaired,List.countP_cons]
    omega

end

/-! ## Dangling references -/

/-- The folder has this UIDVALIDITY now. -/
def HasGeneration (t : Tables) (folderId uidvalidity : Nat) : Prop :=
  ∃ f ∈ t.folders, f.id = folderId ∧ f.uidvalidity = some uidvalidity

instance (t : Tables) (folderId uidvalidity : Nat) : Decidable (t.HasGeneration folderId uidvalidity) :=
  inferInstanceAs (Decidable (∃ f ∈ t.folders, f.id = folderId ∧ f.uidvalidity = some uidvalidity))

/-- A later sync of the folder fetches the UID again. -/
def RetriedLater (t : Tables) (accountId : String) (key : Nat × Nat × Nat) : Prop :=
  t.HasGeneration key.1 key.2.1 ∧ ∃ f ∈ t.pendingFailures accountId key.1 key.2.1, f.uid = key.2.2

instance (t : Tables) (accountId : String) (key : Nat × Nat × Nat) :
    Decidable (t.RetriedLater accountId key) :=
  inferInstanceAs (Decidable (_ ∧ ∃ f ∈ t.pendingFailures accountId key.1 key.2.1, f.uid = key.2.2))

/-- A failure is retried until it has been tried ten times. -/
theorem Valid.retriedLater_iff {t : Tables} (ht : t.Valid) {accountId : String}
    {key : Nat × Nat × Nat} : t.RetriedLater accountId key ↔
      t.HasGeneration key.1 key.2.1 ∧ (t.failureOf accountId key).isSome ∧
        t.attempts accountId key < 10 := by
  obtain ⟨folderId,uidvalidity,uid⟩ := key
  refine and_congr_right fun _ => ?_
  unfold attempts failureOf
  simp only [pendingFailures,List.mem_insertionSort,List.mem_filter,Bool.and_eq_true,beq_iff_eq,
    decide_eq_true_eq]
  constructor
  · rintro ⟨f,⟨hf,⟨⟨rfl,rfl⟩,rfl⟩,hattempts⟩,rfl⟩
    have hof : SyncFailure.isOf f.accountId f.folderId f.uidvalidity f.uid f = true :=
      SyncFailure.isOf_iff.mpr ⟨rfl,rfl⟩
    cases hfind : t.failures.find? (SyncFailure.isOf f.accountId f.folderId f.uidvalidity f.uid) with
    | none => exact absurd hof (List.find?_eq_none.mp hfind f hf)
    | some g =>
      obtain ⟨haccount,hkey⟩ := SyncFailure.isOf_iff.mp (List.find?_some hfind)
      have hfg : g = f := ht.failureKey.eq_of_key (List.mem_of_find?_eq_some hfind) hf
        (congrArg some (Prod.ext haccount hkey)) rfl
      subst hfg
      exact ⟨rfl,hattempts⟩
  · rintro ⟨hsome,hattempts⟩
    obtain ⟨f,hfind⟩ := Option.isSome_iff_exists.mp hsome
    obtain ⟨rfl,hkey⟩ := SyncFailure.isOf_iff.mp (List.find?_some hfind)
    cases hkey
    rw [hfind] at hattempts
    exact ⟨f,⟨List.mem_of_find?_eq_some hfind,⟨⟨rfl,rfl⟩,rfl⟩,hattempts⟩,rfl⟩

end Tables

/-- No message refers to a file that was moved to quarantine, and every message that was cleared
is fetched again when its first membership has a UID. -/
structure NoDangling (t : Tables) (result : RangeVerifyResult) (t' : Tables) : Prop where
  paths : ∀ issue ∈ result.issues, issue.reason = .hashMismatch → ∀ m ∈ t'.messages,
    m.relativePath ≠ some issue.relativePath
  refetched : ∀ m ∈ t.messages, m.relativePath.isSome →
    (∃ m' ∈ t'.messages, m'.id = m.id ∧ m'.relativePath = none) →
    ∀ key, (t.membershipsOf m.id).head?.bind Membership.serverUid = some key →
      t'.RetriedLater m.accountId key

/-- Every message at a changed file is repaired through an event of its own, and the messages that
are repaired are in their folder's present generation and have attempts left. -/
structure EveryReferenceRepaired (t : Tables) (damage : List Damage) : Prop where
  shared : ∀ d ∈ damage, d.2 = .hashMismatch → ∀ m ∈ t.messages,
    m.relativePath = some d.1.relativePath →
      damage.any (clearsMessage (t.listStoredMessages none) m) = true
  retried : ∀ d ∈ damage, ∀ record, storedRecordOf (t.listStoredMessages none) d.1 = some record →
    ∀ key, record.2.bind Membership.serverUid = some key →
      t.HasGeneration key.1 key.2.1 ∧ t.attempts record.1.accountId key +
        damage.countP (recordsFailure (t.listStoredMessages none) record.1.accountId key) < 10

section
variable {repo : Repository} {damage : List Damage}

theorem storedRecordOf_eq_some {e : FetchEvent} {record : StoredRecord}
    (h : storedRecordOf (repo.tables.listStoredMessages none) e = some record) :
    record.1 ∈ repo.tables.messages ∧ record.1.relativePath.isSome ∧
      record.2 = (repo.tables.membershipsOf record.1.id).head? := by
  have hmem := List.mem_reverse.mp (List.mem_of_find?_eq_some h)
  obtain ⟨m,hm,rfl⟩ := List.mem_map.mp hmem
  rw [List.mem_insertionSort] at hm
  obtain ⟨hm,hstored⟩ := List.mem_filter.mp hm
  exact ⟨hm,(Bool.and_eq_true_iff.mp hstored).1,rfl⟩

/-- The message that an event clears is the one stored under its key. -/
theorem clearsMessage_iff {m : Message} (hm : m ∈ repo.tables.messages) {d : Damage} :
    clearsMessage (repo.tables.listStoredMessages none) m d = true ↔
      storedRecordOf (repo.tables.listStoredMessages none) d.1 =
        some (m,(repo.tables.membershipsOf m.id).head?) := by
  unfold clearsMessage
  rw [Option.any_eq_true]
  constructor
  · rintro ⟨record,hrecord,hid⟩
    obtain ⟨hmem,-,hfirst⟩ := storedRecordOf_eq_some hrecord
    have hsame : record.1 = m :=
      repo.valid.messageId.eq_of_key hmem hm rfl (congrArg some (beq_iff_eq.mp hid).symm)
    rw [hrecord,← hsame,← hfirst]
  · intro hrecord
    exact ⟨_,hrecord,beq_self_eq_true _⟩

/-- What a run repairs leaves nothing dangling when it repairs every reference. -/
theorem noDangling_iff {result : RangeVerifyResult} {t' : Tables} (ht' : t'.Valid)
    (htables : t' = damage.foldl (Tables.repaired (repo.tables.listStoredMessages none))
      repo.tables)
    (hissues : result.issues.map VerificationIssue.damage =
      damage.map fun d => (d.1.relativePath,d.2)) :
    NoDangling repo.tables result t' ↔ EveryReferenceRepaired repo.tables damage := by
  have hmessages : ∀ m', m' ∈ t'.messages ↔ ∃ m ∈ repo.tables.messages,
      (if damage.any (clearsMessage (repo.tables.listStoredMessages none) m) then m.cleared else m) =
        m' := by
    intro m'
    rw [htables,Tables.mem_foldl_repaired_messages]
  have hattempts : ∀ accountId key, t'.attempts accountId key =
      repo.tables.attempts accountId key + damage.countP
        (recordsFailure (repo.tables.listStoredMessages none) accountId key) := by
    intro accountId key
    rw [htables,Tables.attempts_foldl_repaired]
  have hgeneration : ∀ folderId uidvalidity, t'.HasGeneration folderId uidvalidity ↔
      repo.tables.HasGeneration folderId uidvalidity := by
    intro folderId uidvalidity
    rw [Tables.HasGeneration,htables,Tables.foldl_repaired_folders]
    rfl
  have hissue : ∀ p reason, (∃ issue ∈ result.issues, issue.reason = reason ∧
      issue.relativePath = p) ↔ ∃ d ∈ damage, d.2 = reason ∧ d.1.relativePath = p := by
    intro p reason
    have hmem : (p,reason) ∈ result.issues.map VerificationIssue.damage ↔
        (p,reason) ∈ damage.map fun d => (d.1.relativePath,d.2) := by rw [hissues]
    simp only [List.mem_map,VerificationIssue.damage,Prod.mk.injEq] at hmem
    simpa only [and_comm] using hmem
  constructor
  · intro h
    constructor
    · intro d hd hreason m hm hpath
      by_contra hkept
      obtain ⟨issue,hissue,hchanged,hsame⟩ := (hissue _ _).mpr ⟨d,hd,hreason,rfl⟩
      refine h.paths issue hissue hchanged m ((hmessages m).mpr ⟨m,hm,if_neg hkept⟩) ?_
      rw [hpath,hsame]
    · intro d hd record hrecord key hkey
      obtain ⟨hm,hstored,hfirst⟩ := storedRecordOf_eq_some hrecord
      have hclears : damage.any (clearsMessage (repo.tables.listStoredMessages none) record.1) =
          true :=
        List.any_eq_true.mpr ⟨d,hd,(clearsMessage_iff hm).mpr (by rw [hrecord,← hfirst])⟩
      have hretried := h.refetched record.1 hm hstored
        ⟨record.1.cleared,(hmessages _).mpr ⟨record.1,hm,if_pos hclears⟩,rfl,rfl⟩ key
        (by rw [← hfirst]; exact hkey)
      obtain ⟨hfolder,-,hleft⟩ := ht'.retriedLater_iff.mp hretried
      rw [hattempts] at hleft
      exact ⟨(hgeneration _ _).mp hfolder,hleft⟩
  · intro h
    constructor
    · intro issue hmem hchanged m' hm' hpath
      obtain ⟨d,hd,hreason,hsame⟩ := (hissue _ _).mp ⟨issue,hmem,hchanged,rfl⟩
      obtain ⟨m,hm,rfl⟩ := (hmessages m').mp hm'
      split at hpath
      · cases hpath
      · next hkept => exact hkept (h.shared d hd hreason m hm (by rw [hpath,hsame]))
    · rintro m hm hstored ⟨m',hm',hid,hnone⟩ key hkey
      obtain ⟨m₀,hm₀,rfl⟩ := (hmessages m').mp hm'
      have hsame : m₀ = m := by
        refine repo.valid.messageId.eq_of_key hm₀ hm rfl (congrArg some ?_)
        rw [← hid]
        split
        · rfl
        · rfl
      subst hsame
      split at hnone
      · next hclears =>
        obtain ⟨d,hd,hclears⟩ := List.any_eq_true.mp hclears
        have hrecord := (clearsMessage_iff hm).mp hclears
        obtain ⟨hfolder,hleft⟩ := h.retried d hd _ hrecord key hkey
        refine ht'.retriedLater_iff.mpr ⟨(hgeneration _ _).mpr hfolder,?_,?_⟩
        · -- the event has recorded a failure, so that there is a row
          have hcounted : 0 < damage.countP
              (recordsFailure (repo.tables.listStoredMessages none) m₀.accountId key) := by
            refine List.countP_pos_iff.mpr ⟨d,hd,?_⟩
            rw [recordsFailure,hrecord]
            simp [hkey]
          have hpos := hattempts m₀.accountId key
          unfold Tables.attempts at hpos
          cases hrow : t'.failureOf m₀.accountId key with
          | some f => rfl
          | none =>
            rw [hrow,Option.elim_none] at hpos
            omega
        · rw [hattempts]
          exact hleft
      · rw [hnone] at hstored
        cases hstored

end

/-- A run leaves no dangling reference exactly when it repairs every reference. -/
theorem rangeVerify_noDangling_iff {env : Env} {w w' : World} {result : RangeVerifyResult}
    (hpaths : ∀ e, .fetch e ∈ readEventsSinceCheckpoint w.manifest →
      w.Unclaimed env e.relativePath)
    (h : rangeVerify env w = (.ok result,w')) (hend : result.cancelled = false) :
    NoDangling w.db.tables result w'.db.tables ↔
      EveryReferenceRepaired w.db.tables (w.rangeDamage env) := by
  obtain ⟨htables,hissues⟩ := rangeVerify_repairs hpaths h hend
  exact noDangling_iff w'.db.valid htables hissues

/-- Messages that share one file, of which the last was fetched since the last checkpoint. -/
def sharing (ids : List Nat) : Tables :=
  { accounts := [{ id := "work" }]
    folders := [{
      id := 1, accountId := "work", rawName := "INBOX", displayName := "Inbox",
      uidvalidity := some 7 }]
    messages := ids.map fun id => {
      id := id, accountId := "work", messageId := none, contentKey := "",
      sourceItemKey := .gmail id, relativePath := some "eml/work/unknown/5.eml", envelope := {},
      sizeBytes := some 1, fileHash := some "5" }
    memberships := ids.map fun id =>
      { messageId := id, folderId := 1, uid := some id, uidvalidity := some 7 }
    nextFolderId := 2
    nextMessageId := 3 }

/-- The file has been changed. -/
def changedShare (db : Repository) : World :=
  .opened db [.fetch {
    accountId := "work", folderId := 1, folderRawName := "INBOX", uid := 2, uidvalidity := 7,
    sourceItemKey := .gmail 2, messageId := none, relativePath := "eml/work/unknown/5.eml",
    fileHash := "5", sizeBytes := 1, internalDate := none, timestamp := "", deduplicated := true }]
    none [("eml/work/unknown/5.eml",[2])] 0

def unsharedFile : Repository := ⟨sharing [2],by decide⟩

def sharedFile : Repository := ⟨sharing [1,2],by decide⟩

theorem rangeVerify_noDangling_iff_unshared :
    NoDangling (sharing [2]) ⟨1,[⟨"eml/work/unknown/5.eml",.hashMismatch,some 2,"5",some "6"⟩],1,1,
      false⟩ (rangeVerify tallyEnv (changedShare unsharedFile)).2.db.tables := by
  refine (@rangeVerify_noDangling_iff tallyEnv (changedShare unsharedFile) _ _ ?_ ?_ rfl).mpr
    ⟨?_,?_⟩
  · intro e he t _ q
    have hpath : e.relativePath = "eml/work/unknown/5.eml" := by
      have hmem : ManifestEvent.fetch e ∈ (changedShare unsharedFile).manifest := he
      cases List.mem_singleton.mp hmem
      rfl
    rw [hpath]
    exact ne_of_inQuarantine (inQuarantine_quarantinePath q _) (by decide)
  · exact Prod.ext (by decide) rfl
  · intro d hd _ m hm _
    obtain rfl := List.mem_singleton.mp hm
    revert d
    decide
  · have hretried : ∀ d ∈ (changedShare unsharedFile).rangeDamage tallyEnv,
        ∀ record ∈ storedRecordOf (unsharedFile.tables.listStoredMessages none) d.1,
        ∀ key ∈ record.2.bind Membership.serverUid,
          unsharedFile.tables.HasGeneration key.1 key.2.1 ∧
          unsharedFile.tables.attempts record.1.accountId key +
            ((changedShare unsharedFile).rangeDamage tallyEnv).countP
              (recordsFailure (unsharedFile.tables.listStoredMessages none) record.1.accountId
                key) < 10 := by decide
    exact hretried

/-- The message that was stored first still refers to the file that was moved away. -/
theorem sharing_message_left_dangling :
    ¬ NoDangling (sharing [1,2])
      ⟨1,[⟨"eml/work/unknown/5.eml",.hashMismatch,some 2,"5",some "6"⟩],1,1,false⟩
      (rangeVerify tallyEnv (changedShare sharedFile)).2.db.tables ∧
    (rangeVerify tallyEnv (changedShare sharedFile)).1 = .ok
      ⟨1,[⟨"eml/work/unknown/5.eml",.hashMismatch,some 2,"5",some "6"⟩],1,1,false⟩ := by
  refine ⟨fun hnone => ?_,by decide⟩
  have hpaths := hnone.paths
  revert hpaths
  decide

end MailDock
