import MailDock.Trash.Standing

/-!
# Startup recovery

`recover_after_unclean_shutdown` of `usecases/snapshots.py`: for each account the files fetched
since its last checkpoint are checked and repaired, and then its purges are resumed.  The repair
takes the path away from a row whose file is missing, and a row without a path is no longer found
by what resumes the purges.

## Main definitions

- `recoverAfterUncleanShutdown` — the recovery of all accounts
- `Recoverable` — the files that must still be there for a purge to be resumed
- `Interrupted` — the disks that a purge and interrupted recoveries lead to
-/

namespace MailDock

open Hoare

def ManifestEvent.accountId : ManifestEvent → String
  | .fetch e => e.accountId
  | .fetchSkipped e => e.accountId
  | .state e => e.accountId
  | .checkpoint e => e.accountId
  | .accountSnapshot e => e.accountId
  | .folderSnapshot e => e.accountId
  | .purgeIntent e => e.accountId
  | .purged e => e.accountId
  | .remoteDelete e => e.accountId
  | .membershipSnapshot e => e.accountId
  | .identityLinked e => e.accountId

/-- The manifest of an account; the world holds the events of all of them in one list. -/
def accountEvents (accountId : String) (events : List ManifestEvent) : List ManifestEvent :=
  events.filter fun e => e.accountId == accountId

/-- A program that reads and extends the manifest of one account. -/
def ofAccount {α : Type} (accountId : String) (p : App α) : App α := fun w =>
  let own := accountEvents accountId w.manifest
  let r := p { w with manifest := own }
  (r.1,{ r.2 with manifest := w.manifest ++ r.2.manifest.drop own.length })

section
variable (env : Env)

def recoverAccount (writeAllowed : Bool) : App RangeVerifyResult := do
  let verified ← rangeVerify { env with cancelled := fun _ => false }
  recoverIncompletePurges env writeAllowed
  pure verified

def recoverAfterUncleanShutdown (writeAllowed : Bool) : App (List RangeVerifyResult) := do
  let accounts ← queryRepo env Tables.listAccounts
  accounts.foldlM (fun results account =>
    if account.id = "" then pure results
    else do
      let verified ← ofAccount account.id (recoverAccount env writeAllowed)
      pure (results ++ [verified])) []

end

namespace Trash

open Relational

section
variable {T : Repository → List ManifestEvent → Prop} {start own base new : List ManifestEvent}
  {db₀ db db' : Repository} {files₀ files : List (String × Bytes)} {env : Env} {key : RecordKey}
  {n : Nat} {row : Message → Prop} {guard : String → Prop}

/-! ## The integrity check -/

/-- Between two files of the check: the message is tracked, and the guarded files are there. -/
def Checking (T : Repository → List ManifestEvent → Prop) (start own base : List ManifestEvent)
    (key : RecordKey) (n : Nat) (row : Message → Prop) (guard : String → Prop) (db₀ : Repository)
    (files₀ : List (String × Bytes)) (w : World) : Prop :=
  ∃ db files, Between T start own base db [] files w ∧
    Identified db₀.tables.messages db.tables.messages ∧ Tracked row key n db base ∧
    ∀ p, guard p → files.lookup p = files₀.lookup p

/-- `record_failure` has a table of its own. -/
theorem recordFailure_tables {accountId message : String} {folderId uidvalidity uid : Nat}
    {errorClass : ErrorClass}
    (h : WriteOp.apply db (.recordFailure accountId folderId uidvalidity uid errorClass message) =
      .ok db') :
    db'.tables.messages = db.tables.messages ∧ db'.tables.auditLog = db.tables.auditLog := by
  rw [Repository.exec_eq_ok.mp h]
  unfold Tables.recordFailure
  split
  · exact ⟨rfl,rfl⟩
  · exact ⟨rfl,rfl⟩

theorem Unaffected.of_eq {t t' : Tables} (hmessages : t'.messages = t.messages)
    (haudits : t'.auditLog = t.auditLog) : Unaffected key t t' where
  rows m hm _ := by rwa [hmessages]
  audits m _ _ := by rw [Tables.purgeAudits,haudits,Tables.purgeAudits]

theorem recordIntegrityFailure_tracked {record : StoredRecord} {reason : IssueReason} :
    Triple (Checking (Tracked (fun _ => True) key n) start own base key n row guard db₀ files₀)
      (recordIntegrityFailure env record reason)
      (fun _ => Checking (Tracked (fun _ => True) key n) start own base key n row guard db₀ files₀)
      fun _ => Survives (Tracked (fun _ => True) key n) start := by
  unfold recordIntegrityFailure
  split
  · rintro w ⟨db,files,h,hids,htracked,hfiles⟩
    refine ((Between.write_rule fun db' hop => ?_).strengthen_post ?_) w h
    · obtain ⟨hmessages,haudits⟩ := recordFailure_tables hop
      exact h.holds.unaffected (Unaffected.of_eq hmessages haudits)
    · rintro _ w ⟨db',hop,h'⟩
      obtain ⟨hmessages,haudits⟩ := recordFailure_tables hop
      exact ⟨db',files,h',by rwa [hmessages],htracked.unaffected (Unaffected.of_eq hmessages haudits),
        hfiles⟩
  · exact Triple.ret fun _ h => h

theorem quarantineEml_tracked {relativePath : String} (hpath : ¬guard relativePath)
    (hclean : ∀ p, guard p → inQuarantine p = false) :
    Triple (Checking T start own base key n row guard db₀ files₀) (quarantineEml env relativePath)
      (fun _ => Checking T start own base key n row guard db₀ files₀) fun _ => Survives T start := by
  rintro w ⟨db,files,h,hids,htracked,hfiles⟩
  refine (Between.quarantine_rule.strengthen_post ?_) w h
  rintro _ w ⟨files',hsame,h'⟩
  refine ⟨db,files',h',hids,htracked,fun p hp => ?_⟩
  rw [hsame p (fun heq => hpath (heq ▸ hp)) (hclean p hp)]
  exact hfiles p hp

/-- The rows after a message has lost its file. -/
theorem updateMessageStorage_tables {id : Nat}
    (h : WriteOp.apply db (.updateMessageStorage id none none) = .ok db') :
    db'.tables.messages = update (fun m => m.id == id)
        (fun m => { m with relativePath := none, fileHash := none }) db.tables.messages ∧
      db'.tables.auditLog = db.tables.auditLog := by
  rw [Repository.exec_eq_ok.mp h]
  exact ⟨rfl,rfl⟩

/-- A settled message stays settled without its path, and another message is not concerned. -/
theorem Tracked.forgetStorage {record : Message} {events : List ManifestEvent}
    (h : Tracked row key n db events) (hnames : NamesRows key record db.tables)
    (hown : record.recordKey = key → ∀ m, ¬row m)
    (hop : WriteOp.apply db (.updateMessageStorage record.id none none) = .ok db') :
    Tracked row key n db' events := by
  obtain ⟨hmessages,haudits⟩ := updateMessageStorage_tables hop
  have hsame : ∀ m, db'.tables.purgeAudits m = db.tables.purgeAudits m := by
    intro m
    rw [Tables.purgeAudits,haudits,Tables.purgeAudits]
  by_cases hkey : record.recordKey = key
  · intro hstanding
    rcases h hstanding with ⟨m,hm,hm',hpurged,-,hcompleted,hone⟩ | ⟨m,i,hrow,-⟩
    · refine .inl ⟨{ m with relativePath := none, fileHash := none },?_,hm',hpurged,rfl,hcompleted,
        (hsame _).trans hone⟩
      rw [hmessages]
      exact mem_update.mpr (.inr ⟨m,hm,by simpa using (hnames m hm hm').mpr hkey,rfl⟩)
    · exact absurd hrow (hown hkey m)
  · refine h.unaffected ⟨fun m hm hm' => ?_,fun m _ _ => hsame m⟩
    rw [hmessages]
    exact mem_update.mpr (.inl ⟨hm,by simpa using fun hid => hkey ((hnames m hm hm').mp hid)⟩)

theorem forgetStorage_tracked {record : Message} (hrecord : record ∈ db₀.tables.messages)
    (hown : record.recordKey = key → ∀ m, ¬row m) :
    Triple (Checking (Tracked (fun _ => True) key n) start own base key n row guard db₀ files₀)
      (writeRepo env (.updateMessageStorage record.id none none))
      (fun _ => Checking (Tracked (fun _ => True) key n) start own base key n row guard db₀ files₀)
      fun _ => Survives (Tracked (fun _ => True) key n) start := by
  rintro w ⟨db,files,h,hids,htracked,hfiles⟩
  have hnames : NamesRows key record db.tables := hids.namesRows hrecord
  refine ((Between.write_rule fun db' hop => ?_).strengthen_post ?_) w h
  · rw [List.append_nil]
    exact (htracked.forgetStorage hnames hown hop).mono fun _ _ => trivial
  · rintro _ w ⟨db',hop,h'⟩
    refine ⟨db',files,h',hids.trans ?_,htracked.forgetStorage hnames hown hop,hfiles⟩
    rw [(updateMessageStorage_tables hop).1]
    exact Identified.update fun m => ⟨rfl,rfl⟩

/-- A file that is missing or changed and not guarded. -/
theorem handleIssue_tracked {record : Option StoredRecord} {issue : VerificationIssue}
    {result : RangeVerifyResult} (hrecord : ∀ r ∈ record, r.1 ∈ db₀.tables.messages)
    (hown : ∀ r ∈ record, r.1.recordKey = key → ∀ m, ¬row m) (hpath : ¬guard issue.relativePath)
    (hclean : ∀ p, guard p → inQuarantine p = false) :
    Triple (Checking (Tracked (fun _ => True) key n) start own base key n row guard db₀ files₀)
      (handleIssue env record issue result)
      (fun _ => Checking (Tracked (fun _ => True) key n) start own base key n row guard db₀ files₀)
      fun _ => Survives (Tracked (fun _ => True) key n) start := by
  have hmove : Triple (Checking (Tracked (fun _ => True) key n) start own base key n row guard db₀ files₀)
      (if issue.reason = .hashMismatch then quarantineEml env issue.relativePath else pure () :
        App Unit) (fun _ => Checking (Tracked (fun _ => True) key n) start own base key n row guard db₀ files₀)
      fun _ => Survives (Tracked (fun _ => True) key n) start := by
    split
    · exact quarantineEml_tracked hpath hclean
    · exact Triple.ret fun _ h => h
  cases record with
  | none => exact hmove.seq fun _ => Triple.ret fun _ h => h
  | some r =>
    refine Triple.seq (Q := fun _ => Checking (Tracked (fun _ => True) key n) start own base key n row guard db₀
      files₀) ?_ fun _ => Triple.ret fun _ h => h
    refine recordIntegrityFailure_tracked.seq fun _ => hmove.seq fun _ => ?_
    exact forgetStorage_tracked (hrecord r rfl) (hown r rfl)

theorem storedRecordOf_eq_some {records : List StoredRecord} {e : FetchEvent} {r : StoredRecord}
    (h : storedRecordOf records e = some r) : r ∈ records ∧ r.1.recordKey = e.recordKey := by
  have hkey := List.find?_some h
  simp only [Bool.and_eq_true,beq_iff_eq] at hkey
  exact ⟨List.mem_reverse.mp (List.mem_of_find?_eq_some h),Prod.ext hkey.1 hkey.2⟩

/-- The check keeps the message tracked when it finds the guarded files unchanged, those of the
message among them. -/
theorem rangeVerifyLoop_tracked {records : List StoredRecord} {events : List ManifestEvent}
    (hrecords : ∀ r ∈ records, r.1 ∈ db₀.tables.messages)
    (hmatch : ∀ f, .fetch f ∈ events → guard f.relativePath →
      ∃ raw, files₀.lookup f.relativePath = some raw ∧ env.sha256 raw = casefoldHex f.fileHash)
    (hguard : (∃ m, row m) → ∀ f, .fetch f ∈ events → f.recordKey = key → guard f.relativePath)
    (hclean : ∀ p, guard p → inQuarantine p = false) (result : RangeVerifyResult) :
    Triple (Checking (Tracked (fun _ => True) key n) start own base key n row guard db₀ files₀)
      (rangeVerifyLoop { env with cancelled := fun _ => false } records events result)
      (fun _ => Checking (Tracked (fun _ => True) key n) start own base key n row guard db₀ files₀)
      fun _ => Survives (Tracked (fun _ => True) key n) start := by
  induction events generalizing result with
  | nil => exact Triple.ret fun _ h => h
  | cons event rest ih =>
    have ih' := ih (fun f hf => hmatch f (List.mem_cons_of_mem _ hf))
      fun hrow f hf => hguard hrow f (List.mem_cons_of_mem _ hf)
    cases event with
    | fetch e =>
      -- an issue is never about a guarded file
      have hissue : ∀ {files : List (String × Bytes)},
          (∀ p, guard p → files.lookup p = files₀.lookup p) →
          (∀ raw, files.lookup e.relativePath = some raw → env.sha256 raw ≠ casefoldHex e.fileHash) →
          ¬guard e.relativePath := by
        intro files hfiles hchanged hp
        obtain ⟨raw,hraw,hhash⟩ := hmatch e (by simp) hp
        exact hchanged raw ((hfiles _ hp).trans hraw) hhash
      have hown : ¬guard e.relativePath → ∀ r ∈ storedRecordOf records e, r.1.recordKey = key →
          ∀ m, ¬row m := by
        intro hp r hr hkey m hrow
        exact hp (hguard ⟨m,hrow⟩ e (by simp) ((storedRecordOf_eq_some hr).2.symm.trans hkey))
      have hstored : ∀ r ∈ storedRecordOf records e, r.1 ∈ db₀.tables.messages :=
        fun r hr => hrecords r (storedRecordOf_eq_some hr).1
      have hgo : ∀ {issue : VerificationIssue} {result : RangeVerifyResult},
          issue.relativePath = e.relativePath → ¬guard e.relativePath →
          Triple (Checking (Tracked (fun _ => True) key n) start own base key n row guard db₀ files₀)
            (handleIssue { env with cancelled := fun _ => false } (storedRecordOf records e) issue
              result >>= fun result => rangeVerifyLoop { env with cancelled := fun _ => false }
                records rest result)
            (fun _ => Checking (Tracked (fun _ => True) key n) start own base key n row guard db₀ files₀)
            fun _ => Survives (Tracked (fun _ => True) key n) start := by
        intro issue result hpath hp
        refine (handleIssue_tracked hstored (hown hp) (hpath ▸ hp) hclean).seq fun result => ?_
        exact ih' result
      rw [rangeVerifyLoop]
      refine Triple.seq (Q := fun stop w => stop = false ∧
        Checking (Tracked (fun _ => True) key n) start own base key n row guard db₀ files₀ w) ?_ fun stop => ?_
      · rintro w ⟨db,files,h,hrest⟩
        exact ⟨rfl,db,files,h.ticked,hrest⟩
      · rintro w ⟨rfl,db,files,h,hids,htracked,hfiles⟩
        rw [if_neg Bool.false_ne_true]
        refine (Between.hash_rule.seq fun found => ?_) w h
        rintro w ⟨h,rfl⟩
        have hchecking : Checking (Tracked (fun _ => True) key n) start own base key n row guard db₀ files₀ w :=
          ⟨db,files,h,hids,htracked,hfiles⟩
        cases hlookup : files.lookup e.relativePath with
        | none =>
          refine hgo rfl (hissue hfiles fun raw hraw => ?_) w hchecking
          rw [hlookup] at hraw
          cases hraw
        | some raw =>
          dsimp only
          split
          · exact ih' _ w hchecking
          · next hchanged =>
            refine hgo rfl (hissue hfiles fun raw' hraw' => ?_) w hchecking
            rw [hlookup] at hraw'
            cases hraw'
            exact hchanged
    | _ => exact ih' result

theorem rangeVerify_tracked (htracked : Tracked row key n db base)
    (hmatch : ∀ f, .fetch f ∈ readEventsSinceCheckpoint own → guard f.relativePath →
      ∃ raw, files.lookup f.relativePath = some raw ∧ env.sha256 raw = casefoldHex f.fileHash)
    (hguard : (∃ m, row m) → ∀ f, .fetch f ∈ readEventsSinceCheckpoint own → f.recordKey = key →
      guard f.relativePath)
    (hclean : ∀ p, guard p → inQuarantine p = false) :
    Triple (Between (Tracked (fun _ => True) key n) start own base db [] files)
      (rangeVerify { env with cancelled := fun _ => false })
      (fun _ => Checking (Tracked (fun _ => True) key n) start own base key n row guard db files)
      fun _ => Survives (Tracked (fun _ => True) key n) start := by
  refine Between.query_rule.seq fun records => ?_
  rintro w ⟨h,rfl⟩
  refine Triple.seq (Q := fun v w => World.manifest v = own ∧
    Between (Tracked (fun _ => True) key n) start own base db [] files w)
    (Triple.read fun w h => ⟨by rw [h.manifest,List.append_nil],h⟩) (fun v => ?_) w h
  rintro w ⟨hmanifest,h⟩
  rw [hmanifest]
  refine rangeVerifyLoop_tracked (fun r hr => ?_) hmatch hguard hclean {} w
    ⟨db,files,h,Identified.refl _,htracked,fun _ _ => rfl⟩
  exact (mem_storedMessages.mp (List.mem_map_of_mem hr)).1

/-! ## Resuming the purges -/

theorem mem_of_recordOf {e : PurgeEvent} {m : Message}
    (h : recordOf (storedMessages db.tables) e = some m) :
    m ∈ db.tables.messages ∧ m.relativePath.isSome = true ∧ e.isOf m := by
  obtain ⟨hmem,hpath⟩ := mem_storedMessages.mp (List.mem_reverse.mp (List.mem_of_find?_eq_some h))
  exact ⟨hmem,hpath,by simpa using List.find?_some h⟩

/-- A row that still has its path is the record of every event with its key. -/
theorem recordOf_eq_some {e : PurgeEvent} {m : Message} (hm : m ∈ db.tables.messages)
    (hpath : m.relativePath.isSome = true) (he : e.isOf m) :
    recordOf (storedMessages db.tables) e = some m := by
  have hfound : (recordOf (storedMessages db.tables) e).isSome = true :=
    List.find?_isSome.mpr ⟨m,List.mem_reverse.mpr (mem_storedMessages.mpr ⟨hm,hpath⟩),by simpa using he⟩
  obtain ⟨m',hm'⟩ := Option.isSome_iff_exists.mp hfound
  obtain ⟨hmem,-,he'⟩ := mem_of_recordOf hm'
  rw [hm',he'.unique db.keyed hmem hm he]

/-- The test by which recovery skips an intent. -/
def Untouchable (m : Message) (i : PurgeEvent) : Prop :=
  (m.relativePath ∉ [none,some i.relativePath] ∨ m.fileHash ∉ [none,some i.fileHash]) ∨
    i.relativePath = "" ∨ i.fileHash = ""

instance (m : Message) (i : PurgeEvent) : Decidable (Untouchable m i) :=
  inferInstanceAs (Decidable (_ ∨ _))

/-- Recovery carries out this intent, and it is one of the message. -/
def strikesIntent (records : List Message) (key : RecordKey) : ManifestEvent → Bool
  | .purgeIntent i => i.recordKey == key && (recordOf records i).any fun m => ¬Untouchable m i
  | _ => false

/-- Recovery finishes this purge in the database, and it is one of the message. -/
def strikesCompleted (records : List Message) (key : RecordKey) (e : PurgeEvent) : Bool :=
  e.recordKey == key && (recordOf records e).any fun m => m.localState != .purged

/-- How often recovery purges the message. -/
def strikes (records : List Message) (key : RecordKey) (events : List ManifestEvent) : Nat :=
  (readIncompleteIntents events).countP (strikesIntent records key) +
    (completedPurges events).countP (strikesCompleted records key)

/-- The message is settled with no purge to come, or can be resumed with one to come. -/
def Due (row : Message → Prop) (key : RecordKey) (n k : Nat) (db : Repository)
    (events : List ManifestEvent) : Prop :=
  Standing events key → k = 0 ∧ Settled key n db events ∨
    k = 1 ∧ ∃ m i, row m ∧ m.recordKey = key ∧ Resumable n db events m i

theorem Due.tracked {k : Nat} {events : List ManifestEvent} (h : Due row key n k db events) :
    Tracked (fun m => row m ∧ k = 1) key n db events := by
  intro hstanding
  rcases h hstanding with ⟨-,hsettled⟩ | ⟨hk,m,i,hrow,hm⟩
  · exact .inl hsettled
  · exact .inr ⟨m,i,⟨hrow,hk⟩,hm⟩

theorem Due.concat {k : Nat} {events : List ManifestEvent} {e : PurgeEvent}
    (h : Due row key n k db events) : Due row key n k db (events ++ [.purged e]) := by
  intro hstanding
  have hbefore := hstanding.of_concat fun _ hx => by cases hx
  rcases h hbefore with ⟨hk,hsettled⟩ | ⟨hk,m,i,hrow,hkey,hm⟩
  · exact .inl ⟨hk,hsettled.append _⟩
  · exact .inr ⟨hk,m,i,hrow,hkey,hm.append _⟩

/-- One purge less is to come when it was one of the message. -/
theorem Due.finish {k s : Nat} {events : List ManifestEvent} {record : Message}
    (h : Due row key n (k + s) db events) (hs : Standing events key →
      s = if record.recordKey = key then 1 else 0)
    (hfinished : Finished record db.tables db'.tables) (hnames : NamesRows key record db.tables)
    (hevent : ∃ e, .purged e ∈ events ∧ e.recordKey = record.recordKey) :
    Due row key n k db' events := by
  intro hstanding
  have hs := hs hstanding
  by_cases hown : record.recordKey = key
  · rw [if_pos hown] at hs
    rcases h hstanding with ⟨hk,-⟩ | ⟨hk,m,i,-,hkey,hm⟩
    · omega
    · exact .inl ⟨by omega,hfinished.settled hm hkey hown hnames hevent⟩
  · rw [if_neg hown] at hs
    subst hs
    have hrows := hfinished.unaffected_of_ne hnames hown
    rcases h hstanding with ⟨hk,hsettled⟩ | ⟨hk,m,i,hrow,hkey,hm⟩
    · exact .inl ⟨hk,hsettled.unaffected hrows⟩
    · exact .inr ⟨hk,m,i,hrow,hkey,hm.unaffected hkey hrows⟩

/-- Between two purges that are resumed, with `k` of the message still to come. -/
def Resuming (start own base : List ManifestEvent) (key : RecordKey) (n : Nat)
    (row : Message → Prop) (guard : String → Prop) (account : String) (db₀ : Repository)
    (files₀ : List (String × Bytes)) (k : Nat) (w : World) : Prop :=
  ∃ db new files, Between (Tracked (fun _ => True) key n) start own base db new files w ∧
    Identified db₀.tables.messages db.tables.messages ∧ Due row key n k db (base ++ new) ∧
    (∀ x ∈ new, ∃ e, x = .purged e ∧ e.accountId = account) ∧
    ∀ p, guard p → files.lookup p = files₀.lookup p

theorem Resuming.mono {account : String} {k k' : Nat} {w : World}
    (h : Resuming start own base key n row guard account db₀ files₀ k w)
    (hk : Standing base key → k = k') :
    Resuming start own base key n row guard account db₀ files₀ k' w := by
  obtain ⟨db,new,files,h,hids,hdue,hpurged,hfiles⟩ := h
  refine ⟨db,new,files,h,hids,fun hstanding => ?_,hpurged,hfiles⟩
  have hbase : Standing base key := hstanding.of_append fun x hx => by
    obtain ⟨e,he,-⟩ := hpurged x hx
    exact ⟨e,he⟩
  rw [← hk hbase]
  exact hdue hstanding

theorem recoverIntent_due {account : String} {i : PurgeEvent} {k s : Nat}
    (hpath : ¬guard i.relativePath) (haccount : i.accountId = account)
    (hs : s = if strikesIntent (storedMessages db₀.tables) key (.purgeIntent i) then 1 else 0) :
    Triple (Resuming start own base key n row guard account db₀ files₀ (k + s))
      (recoverIntent env (storedMessages db₀.tables) (.purgeIntent i))
      (fun _ => Resuming start own base key n row guard account db₀ files₀ k)
      fun _ => Survives (Tracked (fun _ => True) key n) start := by
  unfold recoverIntent
  dsimp only
  split
  · next hnone =>
    refine Triple.ret fun w h => h.mono fun _ => ?_
    simp [hs,strikesIntent,hnone]
  · next message hmessage =>
    obtain ⟨hmem,-,hisOf⟩ := mem_of_recordOf hmessage
    split
    · next hchanged =>
      have huntouchable : Untouchable message i := .inl hchanged
      refine Triple.ret fun w h => h.mono fun _ => ?_
      simp [hs,strikesIntent,hmessage,huntouchable]
    · next hchanged =>
      by_cases hempty : i.relativePath = "" ∨ i.fileHash = ""
      · -- `_complete_purge` does nothing without a path and a hash
        unfold completePurge
        dsimp only
        rw [if_pos hempty]
        have huntouchable : Untouchable message i := .inr hempty
        refine Triple.ret fun w h => h.mono fun _ => ?_
        simp [hs,strikesIntent,hmessage,huntouchable]
      · rintro w ⟨db,new,files,h,hids,hdue,hpurged,hfiles⟩
        have hkey : i.recordKey = message.recordKey := PurgeEvent.isOf_iff.mp hisOf
        have hnames : NamesRows key message db.tables := hids.namesRows hmem
        have huntouchable : ¬Untouchable message i := not_or.mpr ⟨hchanged,hempty⟩
        have hdue' : ∀ e : PurgeEvent, Due row key n (k + s) db (base ++ (new ++ [.purged e])) := by
          intro e
          rw [← List.append_assoc]
          exact hdue.concat
        have hstrikes : strikesIntent (storedMessages db₀.tables) key (.purgeIntent i) = true ↔
            message.recordKey = key := by
          simp [strikesIntent,hmessage,huntouchable,hkey]
        have hfinish : ∀ {db' : Repository} {e : PurgeEvent}, Finished { message with
              relativePath := some i.relativePath, fileHash := some i.fileHash } db.tables db'.tables →
            e.recordKey = message.recordKey → Due row key n k db' (base ++ (new ++ [.purged e])) := by
          intro db' e hfinished he
          refine (hdue' e).finish (fun _ => ?_) hfinished hnames ⟨e,by simp,he⟩
          rw [hs]
          exact if_congr hstrikes rfl rfl
        refine Triple.seq (Between.resumePurge_rule { message with
          relativePath := some i.relativePath, fileHash := some i.fileHash } rfl rfl hempty
          (fun e _ => (hdue' e).tracked.mono fun _ _ => trivial)
          fun db' e hfinished he => (hfinish hfinished he).tracked.mono fun _ _ => trivial)
          (fun _ => Triple.ret ?_) w h
        rintro w ⟨db',files',e,hfinished,he,hsame,h'⟩
        refine ⟨db',_,files',h',hids.trans hfinished.identified,hfinish hfinished he,?_,fun p hp => ?_⟩
        · intro x hx
          rcases List.mem_append.mp hx with hx | hx
          · exact hpurged x hx
          · have haccount' : e.accountId = i.accountId := congrArg Prod.fst (he.trans hkey.symm)
            exact ⟨e,List.mem_singleton.mp hx,haccount'.trans haccount⟩
        · rw [hsame p (.inl fun heq => hpath (heq ▸ hp))]
          exact hfiles p hp

/-- A purge whose event is there is finished in the database. -/
theorem recoverCompleted_due {account : String} {e : PurgeEvent} {k s : Nat} (he : .purged e ∈ base)
    (hs : s = if strikesCompleted (storedMessages db₀.tables) key e then 1 else 0) :
    Triple (Resuming start own base key n row guard account db₀ files₀ (k + s))
      (recoverCompleted env (storedMessages db₀.tables) e)
      (fun _ => Resuming start own base key n row guard account db₀ files₀ k)
      fun _ => Survives (Tracked (fun _ => True) key n) start := by
  unfold recoverCompleted
  split
  · next hnone =>
    refine Triple.ret fun w h => h.mono fun _ => ?_
    simp [hs,strikesCompleted,hnone]
  · next message hmessage =>
    obtain ⟨hmem,-,hisOf⟩ := mem_of_recordOf hmessage
    have hkey : e.recordKey = message.recordKey := PurgeEvent.isOf_iff.mp hisOf
    split
    · next hpurged =>
      refine Triple.ret fun w h => h.mono fun _ => ?_
      simp [hs,strikesCompleted,hmessage,hpurged]
    · next halive =>
      rintro w ⟨db,new,files,h,hids,hdue,hpurged,hfiles⟩
      have hnames : NamesRows key message db.tables := hids.namesRows hmem
      have hstrikes : strikesCompleted (storedMessages db₀.tables) key e = true ↔
          message.recordKey = key := by
        simp [strikesCompleted,hmessage,halive,hkey]
      have hfinish : ∀ {db' : Repository}, Finished message db.tables db'.tables →
          Due row key n k db' (base ++ new) := by
        intro db' hfinished
        refine hdue.finish (fun _ => ?_) hfinished hnames ⟨e,List.mem_append_left _ he,hkey⟩
        rw [hs]
        exact if_congr hstrikes rfl rfl
      refine ((Between.finish_rule fun db' hfinished =>
        (hfinish hfinished).tracked.mono fun _ _ => trivial).strengthen_post ?_) w h
      rintro _ w ⟨db',hfinished,h'⟩
      exact ⟨db',new,files,h',hids.trans hfinished.identified,hfinish hfinished,hpurged,hfiles⟩

/-- A `purged` event of a message that is alive makes recovery finish that purge. -/
theorem strikes_pos_of_purged {m : Message} {e : PurgeEvent} (hm : m ∈ db.tables.messages)
    (hpath : m.relativePath.isSome = true) (halive : m.localState ≠ .purged)
    (he : .purged e ∈ own) (hisOf : e.isOf m) :
    0 < strikes (storedMessages db.tables) m.recordKey own := by
  obtain ⟨e',he',haccount,hsource⟩ := exists_completedPurge he
  have hisOf' : e'.isOf m := ⟨haccount.trans hisOf.1,hsource.trans hisOf.2⟩
  refine Nat.add_pos_right _ (List.countP_pos_iff.mpr ⟨e',he',?_⟩)
  simp [strikesCompleted,recordOf_eq_some hm hpath hisOf',halive,PurgeEvent.isOf_iff.mp hisOf']

/-- An intent that recovery does not skip makes it purge the message, unless a `purged` event does. -/
theorem strikes_pos_of_intent {m : Message} {i : PurgeEvent} (hm : m ∈ db.tables.messages)
    (hpath : m.relativePath.isSome = true) (halive : m.localState ≠ .purged)
    (hi : .purgeIntent i ∈ own) (hisOf : i.isOf m) (htouched : ¬Untouchable m i) :
    0 < strikes (storedMessages db.tables) m.recordKey own := by
  by_cases hcompleted : i.operationKey ∈ completedKeys own
  · obtain ⟨event,hevent,heq⟩ := List.mem_filterMap.mp hcompleted
    obtain ⟨e,rfl,haccount,hsource⟩ := completionKey_eq_purge heq
    exact strikes_pos_of_purged hm hpath halive hevent
      ⟨haccount.trans hisOf.1,hsource.trans hisOf.2⟩
  · have hreported : .purgeIntent i ∈ readIncompleteIntents own :=
      mem_readIncompleteIntents.mpr ⟨hi,_,rfl,hcompleted⟩
    refine Nat.add_pos_left (List.countP_pos_iff.mpr ⟨_,hreported,?_⟩) _
    simp [strikesIntent,recordOf_eq_some hm hpath hisOf,htouched,PurgeEvent.isOf_iff.mp hisOf]

/-- A purge that can be resumed is resumed at least once. -/
theorem Resumable.strikes_pos {m : Message} {i : PurgeEvent} (h : Resumable n db base m i)
    (hkey : m.recordKey = key) (hi : .purgeIntent i ∈ own) :
    0 < strikes (storedMessages db.tables) key own := by
  have hnamed := (named_of_valid h.valid).2
  rw [← hkey]
  refine strikes_pos_of_intent h.mem (by rw [h.path]; rfl) h.alive hi h.isOf ?_
  simp [Untouchable,h.path,h.hash,hnamed]

/-- Recovery never touches a message whose row has no path. -/
theorem strikes_eq_zero (h : ∀ e : PurgeEvent, e.recordKey = key →
    recordOf (storedMessages db.tables) e = none) :
    strikes (storedMessages db.tables) key own = 0 := by
  unfold strikes
  rw [List.countP_eq_zero.mpr,List.countP_eq_zero.mpr]
  · intro e _ hstrikes
    simp only [strikesCompleted,Bool.and_eq_true,beq_iff_eq] at hstrikes
    rw [h e hstrikes.1] at hstrikes
    simp at hstrikes
  · intro event _ hstrikes
    cases event with
    | purgeIntent i =>
      simp only [strikesIntent,Bool.and_eq_true,beq_iff_eq] at hstrikes
      rw [h i hstrikes.1] at hstrikes
      simp at hstrikes
    | _ => cases hstrikes

/-- A settled message is left alone. -/
theorem Settled.strikes (h : Settled key n db base) :
    strikes (storedMessages db.tables) key own = 0 := by
  obtain ⟨m,hm,hkey,-,hpath,-⟩ := h
  refine strikes_eq_zero fun e he => ?_
  cases hfound : recordOf (storedMessages db.tables) e with
  | none => rfl
  | some m' =>
    obtain ⟨hm',hpath',hisOf⟩ := mem_of_recordOf hfound
    have hisOf' : e.isOf m := PurgeEvent.isOf_iff.mpr (he.trans hkey.symm)
    rw [hisOf.unique db.keyed hm' hm hisOf',hpath] at hpath'
    cases hpath'

theorem recoverIncompletePurges_tracked {writeAllowed : Bool} (account : String)
    (files₀ : List (String × Bytes)) (hsub : ∀ x ∈ own, x ∈ base)
    (haccount : ∀ i, .purgeIntent i ∈ own → i.accountId = account)
    (hguard : ∀ i, .purgeIntent i ∈ own → ¬guard i.relativePath)
    (hpre : Tracked row key n db₀ base)
    (honce : ∀ m i, row m → m.recordKey = key → Resumable n db₀ base m i →
      strikes (storedMessages db₀.tables) key own ≤ 1) :
    Triple (fun w => ∃ files, Between (Tracked (fun _ => True) key n) start own base db₀ [] files w ∧
        ∀ p, guard p → files.lookup p = files₀.lookup p)
      (recoverIncompletePurges env writeAllowed)
      (fun _ w => ∃ db new files,
        Between (Tracked (fun _ => True) key n) start own base db new files w ∧
        Tracked (fun m => row m ∧ strikes (storedMessages db₀.tables) key own = 0 ∧
          ∃ i, Resumable n db₀ base m i) key n db (base ++ new) ∧
        (∀ x ∈ new, ∃ e, x = .purged e ∧ e.accountId = account) ∧
        ∀ p, guard p → files.lookup p = files₀.lookup p)
      fun _ => Survives (Tracked (fun _ => True) key n) start := by
  unfold recoverIncompletePurges
  split
  · rintro w ⟨files,h,hfiles⟩
    refine (Between.query_rule.seq fun stored => ?_) w h
    rintro w ⟨h,rfl⟩
    refine Triple.seq (Q := fun v w => World.manifest v = own ∧
      Between (Tracked (fun _ => True) key n) start own base db₀ [] files w)
      (Triple.read fun w h => ⟨by rw [h.manifest,List.append_nil],h⟩) (fun v => ?_) w h
    rintro w ⟨hmanifest,h⟩
    rw [hmanifest]
    -- the purges of the message that are still to come in the two loops
    have hloops : ∀ (row' : Message → Prop) (c : Nat),
        Due row' key n (strikes (storedMessages db₀.tables) key own + c) db₀ base →
        Holds (fun _ => Resuming start own base key n row' guard account db₀ files₀ c)
          (fun _ => Survives (Tracked (fun _ => True) key n) start)
          (((readIncompleteIntents own).forM (recoverIntent env (storedMessages db₀.tables)) >>=
            fun _ => (completedPurges own).forM
              (recoverCompleted env (storedMessages db₀.tables))) w) := by
      intro row' c hdue
      refine ((Triple.loop_rest (I := fun rest => Resuming start own base key n row' guard account
        db₀ files₀ (rest.countP (strikesIntent (storedMessages db₀.tables) key) +
          ((completedPurges own).countP (strikesCompleted (storedMessages db₀.tables) key) + c)))
        (readIncompleteIntents own) fun event hevent rest => ?_).seq fun _ =>
          (Triple.loop_rest (I := fun rest => Resuming start own base key n row' guard account db₀ files₀
            (rest.countP (strikesCompleted (storedMessages db₀.tables) key) + c))
            (completedPurges own) fun e he rest => ?_).consequence (fun w hw => hw.mono fun _ => ?_)
              (fun _ w hw => hw.mono fun _ => ?_) fun _ _ hw => hw) w
        ⟨db₀,[],files,h,Identified.refl _,?_,(fun x hx => by cases hx),hfiles⟩
      · cases event with
        | purgeIntent i =>
          have hmem : .purgeIntent i ∈ own := (mem_readIncompleteIntents.mp hevent).1
          refine (recoverIntent_due (hguard i hmem) (haccount i hmem) rfl).weaken_pre
            fun w hw => hw.mono fun _ => ?_
          rw [List.countP_cons]
          omega
        | _ => exact Triple.ret fun w hw => hw.mono fun _ => by rw [List.countP_cons]; rfl
      · refine (recoverCompleted_due (hsub _ (mem_of_completedPurge he)) rfl).weaken_pre
          fun w hw => hw.mono fun _ => ?_
        rw [List.countP_cons]
        omega
      · rw [List.countP_nil,Nat.zero_add]
      · rw [List.countP_nil,Nat.zero_add]
      · rw [List.append_nil,← Nat.add_assoc]
        exact hdue
    by_cases hopen : Standing base key ∧ ¬Settled key n db₀ base
    · obtain ⟨hstanding,hnot⟩ := hopen
      obtain ⟨m,i,hrow,hkey,hm⟩ := (hpre hstanding).resolve_left hnot
      have hle := honce m i hrow hkey hm
      have hrun := hloops (fun m => row m ∧ ∃ i, Resumable n db₀ base m i)
        (1 - strikes (storedMessages db₀.tables) key own)
        fun _ => .inr ⟨by omega,m,i,⟨hrow,i,hm⟩,hkey,hm⟩
      refine Triple.consequence (P := fun w' => w' = w) (fun w' hw' => hw' ▸ hrun) (fun _ h => h)
        (fun _ w' hw' => ?_) (fun _ _ h => h) w rfl
      obtain ⟨db,new,files',h',-,hdue,hpurged,hfiles'⟩ := hw'
      refine ⟨db,new,files',h',hdue.tracked.mono ?_,hpurged,hfiles'⟩
      rintro m' ⟨⟨hrow',hm'⟩,hc⟩
      exact ⟨hrow',by omega,hm'⟩
    · -- nothing is left to resume
      have hrun := hloops (fun _ => False) 0 fun hstanding => by
        have hsettled : Settled key n db₀ base := not_not.mp fun hnot => hopen ⟨hstanding,hnot⟩
        exact .inl ⟨hsettled.strikes,hsettled⟩
      refine Triple.consequence (P := fun w' => w' = w) (fun w' hw' => hw' ▸ hrun) (fun _ h => h)
        (fun _ w' hw' => ?_) (fun _ _ h => h) w rfl
      obtain ⟨db,new,files',h',-,hdue,hpurged,hfiles'⟩ := hw'
      exact ⟨db,new,files',h',hdue.tracked.mono fun _ hf => hf.1.elim,hpurged,hfiles'⟩
  · rintro w ⟨files,h,-⟩
    exact h.toSteady.survives

/-! ## Accounts -/

theorem mem_accountEvents {accountId : String} {events : List ManifestEvent} {e : ManifestEvent} :
    e ∈ accountEvents accountId events ↔ e ∈ events ∧ e.accountId = accountId := by
  simp [accountEvents]

/-- The part of a recovery that is about one account, seen from the whole. -/
theorem ofAccount_rule {α : Type} {accountId : String} {p : App α} {Q : Repository →
      List ManifestEvent → List (String × Bytes) → Prop}
    (hp : Triple (Between T start (accountEvents accountId (start ++ new)) (start ++ new) db [] files)
      p (fun _ w => ∃ db' new' files', Between T start (accountEvents accountId (start ++ new))
        (start ++ new) db' new' files' w ∧ Q db' new' files') fun _ => Survives T start) :
    Triple (Between T start start start db new files) (ofAccount accountId p)
      (fun _ w => ∃ db' new' files', Between T start start start db' (new ++ new') files' w ∧
        Q db' new' files') fun _ => Survives T start := by
  intro w h
  have hinside : Between T start (accountEvents accountId (start ++ new)) (start ++ new) db [] files
      { w with manifest := accountEvents accountId w.manifest } := by
    refine ⟨⟨h.committed,?_,?_,h.flushed,h.stored,?_⟩,h.inBatch,h.current⟩
    · rw [List.append_nil,← h.manifest]
    · rw [List.append_nil]
      exact h.durable
    · rw [List.append_nil]
      exact h.holds
  have hrun := hp _ hinside
  unfold ofAccount
  dsimp only
  rcases hresult : p { w with manifest := accountEvents accountId w.manifest } with ⟨r,w'⟩
  rw [hresult] at hrun
  cases r with
  | error e => exact fun db' events hleaves => hrun db' events ⟨hleaves.db,hleaves.events⟩
  | ok a =>
    obtain ⟨db',new',files',h',hq⟩ := hrun
    refine ⟨db',new',files',⟨⟨h'.committed,?_,?_,h'.flushed,h'.stored,?_⟩,h'.inBatch,h'.current⟩,hq⟩
    · show w.manifest ++ w'.manifest.drop (accountEvents accountId w.manifest).length = _
      rw [h'.manifest,h.manifest,List.drop_left,List.append_assoc]
    · rw [← List.append_assoc]
      exact h'.durable
    · rw [← List.append_assoc]
      exact h'.holds

/-- Own events of another account never strike the message. -/
theorem strikes_of_ne {records : List Message} {events : List ManifestEvent}
    (h : ∀ x ∈ events, x.accountId ≠ key.1) : strikes records key events = 0 := by
  unfold strikes
  rw [List.countP_eq_zero.mpr,List.countP_eq_zero.mpr]
  · intro e he hstrikes
    simp only [strikesCompleted,Bool.and_eq_true,beq_iff_eq] at hstrikes
    exact h _ (mem_of_completedPurge he) (congrArg Prod.fst hstrikes.1)
  · intro event hevent hstrikes
    cases event with
    | purgeIntent i =>
      simp only [strikesIntent,Bool.and_eq_true,beq_iff_eq] at hstrikes
      exact h _ (mem_readIncompleteIntents.mp hevent).1 (congrArg Prod.fst hstrikes.1)
    | _ => cases hstrikes

/-- What strikes a message depends on its row alone. -/
theorem strikes_congr {m : Message} {events : List ManifestEvent} (hm : m ∈ db.tables.messages)
    (hm' : m ∈ db'.tables.messages) (hkey : m.recordKey = key)
    (hpath : m.relativePath.isSome = true) :
    strikes (storedMessages db.tables) key events = strikes (storedMessages db'.tables) key events := by
  have hrecord : ∀ {e : PurgeEvent}, e.recordKey = key →
      recordOf (storedMessages db.tables) e = recordOf (storedMessages db'.tables) e := by
    intro e he
    have hisOf : e.isOf m := PurgeEvent.isOf_iff.mpr (he.trans hkey.symm)
    rw [recordOf_eq_some hm hpath hisOf,recordOf_eq_some hm' hpath hisOf]
  have hintent : strikesIntent (storedMessages db.tables) key =
      strikesIntent (storedMessages db'.tables) key := by
    funext event
    cases event with
    | purgeIntent i =>
      by_cases hi : i.recordKey = key
      · rw [strikesIntent,hrecord hi,strikesIntent]
      · have hne : (i.recordKey == key) = false := beq_eq_false_iff_ne.mpr hi
        simp only [strikesIntent,hne,Bool.false_and]
    | _ => rfl
  have hcompleted : strikesCompleted (storedMessages db.tables) key =
      strikesCompleted (storedMessages db'.tables) key := by
    funext e
    by_cases he : e.recordKey = key
    · rw [strikesCompleted,hrecord he,strikesCompleted]
    · have hne : (e.recordKey == key) = false := beq_eq_false_iff_ne.mpr he
      simp only [strikesCompleted,hne,Bool.false_and]
  rw [strikes,hintent,hcompleted,strikes]

/-- The check and the purges of one account. -/
theorem recoverAccount_tracked {writeAllowed : Bool} {account : String}
    (hown : own = accountEvents account base) (htracked : Tracked row key n db base)
    (hmatch : ∀ f, .fetch f ∈ readEventsSinceCheckpoint own → guard f.relativePath →
      ∃ raw, files.lookup f.relativePath = some raw ∧ env.sha256 raw = casefoldHex f.fileHash)
    (hguard : (∃ m, row m) → ∀ f, .fetch f ∈ readEventsSinceCheckpoint own → f.recordKey = key →
      guard f.relativePath)
    (hclean : ∀ p, guard p → inQuarantine p = false)
    (honce : ∀ m, row m → m.recordKey = key → m.relativePath.isSome = true → account = key.1 →
      ∀ db : Repository, m ∈ db.tables.messages → strikes (storedMessages db.tables) key own ≤ 1)
    {kept : String → Prop} (hkept : ∀ p, kept p → guard p)
    (hintents : ∀ i, .purgeIntent i ∈ own → ¬kept i.relativePath) :
    Triple (Between (Tracked (fun _ => True) key n) start own base db [] files)
      (recoverAccount env writeAllowed)
      (fun _ w => ∃ db' new files',
        Between (Tracked (fun _ => True) key n) start own base db' new files' w ∧
        Tracked (fun m => row m ∧ account ≠ key.1) key n db' (base ++ new) ∧
        (∀ x ∈ new, ∃ e, x = .purged e ∧ e.accountId = account) ∧
        ∀ p, kept p → files'.lookup p = files.lookup p)
      fun _ => Survives (Tracked (fun _ => True) key n) start := by
  have hmem : ∀ {x}, x ∈ own → x ∈ base ∧ x.accountId = account := by
    intro x hx
    rw [hown] at hx
    exact mem_accountEvents.mp hx
  refine (rangeVerify_tracked htracked hmatch hguard hclean).seq fun verified => ?_
  rintro w ⟨db₁,files₁,h,hids,htracked₁,hfiles⟩
  have hle : ∀ m i, row m → m.recordKey = key → Resumable n db₁ base m i →
      strikes (storedMessages db₁.tables) key own ≤ 1 := by
    intro m i hrow hkey hm
    by_cases hsame : account = key.1
    · exact honce m hrow hkey (by rw [hm.path]; rfl) hsame db₁ hm.mem
    · have hzero : strikes (storedMessages db₁.tables) key own = 0 :=
        strikes_of_ne fun x hx heq => hsame ((hmem hx).2.symm.trans heq)
      omega
  refine Triple.seq (recoverIncompletePurges_tracked account files (fun x hx => (hmem hx).1)
    (fun i hi => (hmem hi).2) hintents htracked₁ hle) (fun _ => Triple.ret ?_) w
    ⟨files₁,h,fun p hp => hfiles p (hkept p hp)⟩
  rintro w ⟨db₂,new,files₂,h₂,htracked₂,hpurged,hfiles₂⟩
  refine ⟨db₂,new,files₂,h₂,fun hstanding => ?_,hpurged,hfiles₂⟩
  rcases htracked₂ hstanding with hsettled | ⟨m,i,⟨hrow,hzero,i',hm'⟩,hkey,hm⟩
  · exact .inl hsettled
  · refine .inr ⟨m,i,⟨hrow,fun hsame => ?_⟩,hkey,hm⟩
    -- the account of the message has its intent, which would have struck
    have haccount : i'.accountId = key.1 :=
      congrArg Prod.fst ((PurgeEvent.isOf_iff.mp hm'.isOf).trans hkey)
    have hintent : .purgeIntent i' ∈ own := by
      rw [hown]
      exact mem_accountEvents.mpr ⟨hm'.intent,haccount.trans hsame.symm⟩
    have hpos := hm'.strikes_pos hkey hintent
    omega

end

/-! ## What recovery finds -/

/-- The message was fetched after the last checkpoint of its account. -/
def FetchedSince (events : List ManifestEvent) (f : FetchEvent) : Prop :=
  .fetch f ∈ readEventsSinceCheckpoint (accountEvents f.accountId events)

/-- The check finds the file of a fetch unchanged, and nothing else in the recovery takes it away
before that. -/
structure Verifiable (env : Env) (d : Disk) (f : FetchEvent) : Prop where
  clean : inQuarantine f.relativePath = false
  found : ∀ f', FetchedSince d.manifest f' → f'.relativePath = f.relativePath →
    ∃ raw, d.files.lookup f.relativePath = some raw ∧ env.sha256 raw = casefoldHex f'.fileHash
  alone : ∀ i, .purgeIntent i ∈ d.manifest → i.relativePath = f.relativePath →
    i.accountId = f.accountId

/-- A purge of the message stands and is not in the database yet. -/
def Unfinished (key : RecordKey) (d : Disk) : Prop :=
  Standing d.manifest key ∧ ∃ m ∈ d.db.tables.messages, m.recordKey = key ∧ m.localState ≠ .purged

/-- The files fetched since the last checkpoint for a message with an unfinished purge are still
there, and the manifest of its account has that purge to resume once. -/
def Recoverable (key : RecordKey) (env : Env) (d : Disk) : Prop :=
  Unfinished key d → (∀ f, FetchedSince d.manifest f → f.recordKey = key → Verifiable env d f) ∧
    strikes (storedMessages d.db.tables) key (accountEvents key.1 d.manifest) ≤ 1

section
variable {env : Env} {key : RecordKey} {d : Disk} {new : List ManifestEvent}

theorem readEventsSinceCheckpoint_append {events new : List ManifestEvent}
    (hnew : ∀ x ∈ new, ∃ e, x = .purged e) :
    readEventsSinceCheckpoint (events ++ new) = readEventsSinceCheckpoint events ++ new := by
  unfold readEventsSinceCheckpoint
  rw [List.reverse_append,List.takeWhile_append_of_pos,List.reverse_append,List.reverse_reverse]
  intro x hx
  obtain ⟨e,rfl⟩ := hnew x (List.mem_reverse.mp hx)
  rfl

/-- Recovery only writes `purged` events, which do not count as fetches. -/
theorem fetchedSince_of_mem (hnew : ∀ x ∈ new, ∃ e, x = .purged e) {accountId : String}
    {events : List ManifestEvent} {f : FetchEvent}
    (hf : .fetch f ∈ readEventsSinceCheckpoint (accountEvents accountId (events ++ new))) :
    f.accountId = accountId ∧ FetchedSince events f := by
  have hsplit : accountEvents accountId (events ++ new) =
      accountEvents accountId events ++ accountEvents accountId new := List.filter_append ..
  have hnew' : ∀ x ∈ accountEvents accountId new, ∃ e, x = .purged e :=
    fun x hx => hnew x (mem_accountEvents.mp hx).1
  rw [hsplit,readEventsSinceCheckpoint_append hnew'] at hf
  have hbefore : .fetch f ∈ readEventsSinceCheckpoint (accountEvents accountId events) := by
    refine (List.mem_append.mp hf).resolve_right fun hx => ?_
    obtain ⟨e,he⟩ := hnew' _ hx
    cases he
  have hmem : .fetch f ∈ accountEvents accountId events :=
    List.mem_reverse.mp ((List.takeWhile_sublist _).mem (List.mem_reverse.mp hbefore))
  have haccount : f.accountId = accountId := (mem_accountEvents.mp hmem).2
  refine ⟨haccount,?_⟩
  rw [FetchedSince,haccount]
  exact hbefore

/-- The files recovery must not lose before it has checked them. -/
def Guarded (key : RecordKey) (d : Disk) (p : String) : Prop :=
  Unfinished key d ∧ ∃ f, FetchedSince d.manifest f ∧ f.recordKey = key ∧ f.relativePath = p

/-- Between two accounts of the recovery. -/
def Recovering (key : RecordKey) (n : Nat) (d : Disk) (done : List Account) (w : World) : Prop :=
  ∃ db new files,
    Between (Tracked (fun _ => True) key n) d.manifest d.manifest d.manifest db new files w ∧
    Tracked (fun m => (Unfinished key d ∧ key.1 ∉ done.map fun a => a.id) ∧ m ∈ d.db.tables.messages)
      key n db (d.manifest ++ new) ∧
    (∀ x ∈ new, ∃ e, x = .purged e) ∧
    ((key.1 ∉ done.map fun a => a.id) → (∀ x ∈ new, x.accountId ≠ key.1) ∧
      ∀ p, Guarded key d p → files.lookup p = d.files.lookup p)

/-- No purge is under way for an account without a name. -/
theorem Tracked.unnamed {row : Message → Prop} {n : Nat} {db : Repository}
    {events : List ManifestEvent} (h : Tracked row key n db events) :
    Tracked (fun m => row m ∧ key.1 ≠ "") key n db events := by
  intro hstanding
  rcases h hstanding with hsettled | ⟨m,i,hrow,hkey,hm⟩
  · exact .inl hsettled
  · refine .inr ⟨m,i,⟨hrow,fun hempty => ?_⟩,hkey,hm⟩
    have haccount : i.accountId = key.1 :=
      congrArg Prod.fst ((PurgeEvent.isOf_iff.mp hm.isOf).trans hkey)
    exact (named_of_valid hm.valid).1 (haccount.trans hempty)

theorem accountEvents_append {accountId : String} {events : List ManifestEvent}
    (hnew : ∀ x ∈ new, x.accountId ≠ accountId) :
    accountEvents accountId (events ++ new) = accountEvents accountId events := by
  have hnone : accountEvents accountId new = [] := by
    refine List.filter_eq_nil_iff.mpr fun x hx => ?_
    simpa using hnew x hx
  rw [accountEvents,List.filter_append,← accountEvents,← accountEvents,hnone,List.append_nil]

theorem recoverStep_tracked {n : Nat} {writeAllowed : Bool} (hrecoverable : Recoverable key env d)
    {done : List Account} {account : Account} :
    Triple (Recovering key n d done) (ofAccount account.id (recoverAccount env writeAllowed))
      (fun _ => Recovering key n d (done ++ [account]))
      fun _ => Survives (Tracked (fun _ => True) key n) d.manifest := by
  rintro w ⟨db,new,files,h,htracked,hpurged,hbefore⟩
  have hverifiable : ∀ {p}, Guarded key d p → ∃ f, FetchedSince d.manifest f ∧ f.recordKey = key ∧
      f.relativePath = p ∧ Verifiable env d f := by
    rintro p ⟨hunfinished,f,hf,hkey,hp⟩
    exact ⟨f,hf,hkey,hp,(hrecoverable hunfinished).1 f hf hkey⟩
  have haccount : Triple (Between (Tracked (fun _ => True) key n) d.manifest
        (accountEvents account.id (d.manifest ++ new)) (d.manifest ++ new) db [] files)
      (recoverAccount env writeAllowed)
      (fun _ w => ∃ db' new' files',
        Between (Tracked (fun _ => True) key n) d.manifest
          (accountEvents account.id (d.manifest ++ new)) (d.manifest ++ new) db' new' files' w ∧
        Tracked (fun m => ((Unfinished key d ∧ key.1 ∉ done.map fun a => a.id) ∧
          m ∈ d.db.tables.messages) ∧ account.id ≠ key.1) key n db' (d.manifest ++ new ++ new') ∧
        (∀ x ∈ new', ∃ e, x = .purged e ∧ e.accountId = account.id) ∧
        ∀ p, (Guarded key d p ∧ (key.1 ∉ done.map fun a => a.id) ∧ account.id ≠ key.1) →
          files'.lookup p = files.lookup p)
      fun _ => Survives (Tracked (fun _ => True) key n) d.manifest := by
    refine @recoverAccount_tracked _ _ _ _ _ _ _ _ _ (fun p => Guarded key d p ∧
      key.1 ∉ done.map fun a => a.id) writeAllowed account.id rfl htracked ?_ ?_ ?_ ?_
      (fun p => Guarded key d p ∧ (key.1 ∉ done.map fun a => a.id) ∧ account.id ≠ key.1) ?_ ?_
    · rintro f hf ⟨hp,hlater⟩
      obtain ⟨-,hsince⟩ := fetchedSince_of_mem hpurged hf
      obtain ⟨f₀,-,-,hsame,hv⟩ := hverifiable hp
      rw [(hbefore hlater).2 _ hp,← hsame]
      exact hv.found f hsince hsame.symm
    · rintro ⟨m,⟨hunfinished,hlater⟩,-⟩ f hf hkey
      obtain ⟨-,hsince⟩ := fetchedSince_of_mem hpurged hf
      exact ⟨⟨hunfinished,f,hsince,hkey,rfl⟩,hlater⟩
    · rintro p ⟨hp,-⟩
      obtain ⟨f,-,-,rfl,hv⟩ := hverifiable hp
      exact hv.clean
    · rintro m ⟨⟨hunfinished,hlater⟩,hm⟩ hkey hpath hsame db' hm'
      rw [hsame,accountEvents_append (hbefore hlater).1,← strikes_congr hm hm' hkey hpath]
      exact (hrecoverable hunfinished).2
    · exact fun p hp => ⟨hp.1,hp.2.1⟩
    · rintro i hi ⟨hp,-,hne⟩
      obtain ⟨f,-,hkey,hsame,hv⟩ := hverifiable hp
      obtain ⟨hmem,hi'⟩ := mem_accountEvents.mp hi
      have hold : .purgeIntent i ∈ d.manifest := by
        refine (List.mem_append.mp hmem).resolve_right fun hx => ?_
        obtain ⟨e,he⟩ := hpurged _ hx
        cases he
      have hi'' : i.accountId = account.id := hi'
      exact hne (hi''.symm.trans ((hv.alone i hold hsame.symm).trans (congrArg Prod.fst hkey)))
  refine ((ofAccount_rule haccount).strengthen_post ?_) w h
  rintro _ w ⟨db',new',files',h',htracked',hpurged',hfiles'⟩
  have hdone : ∀ {id : String}, (id ∉ (done ++ [account]).map fun a => a.id) ↔
      (id ∉ done.map fun a => a.id) ∧ account.id ≠ id := by
    intro id
    rw [List.map_append,List.mem_append,not_or,List.map_singleton,List.mem_singleton,eq_comm]
  refine ⟨db',new ++ new',files',h',?_,?_,fun hlater => ⟨?_,?_⟩⟩
  · rw [← List.append_assoc]
    refine htracked'.mono ?_
    rintro m ⟨⟨⟨hunfinished,hlater⟩,hm⟩,hne⟩
    exact ⟨⟨hunfinished,hdone.mpr ⟨hlater,hne⟩⟩,hm⟩
  · intro x hx
    rcases List.mem_append.mp hx with hx | hx
    · exact hpurged x hx
    · obtain ⟨e,he,-⟩ := hpurged' x hx
      exact ⟨e,he⟩
  · intro x hx
    rcases List.mem_append.mp hx with hx | hx
    · exact (hbefore (hdone.mp hlater).1).1 x hx
    · obtain ⟨e,rfl,he⟩ := hpurged' x hx
      exact fun heq => (hdone.mp hlater).2 (he.symm.trans heq)
  · intro p hp
    rw [hfiles' p ⟨hp,hdone.mp hlater⟩]
    exact (hbefore (hdone.mp hlater).1).2 p hp

/-- After a completed recovery no purge of the message is under way. -/
theorem recoverAfterUncleanShutdown_tracked {n : Nat} (writeAllowed : Bool)
    (hrecoverable : Recoverable key env d) :
    Triple (Between (Tracked (fun _ => True) key n) d.manifest d.manifest d.manifest d.db [] d.files)
      (recoverAfterUncleanShutdown env writeAllowed)
      (fun _ w => ∃ db new files,
        Between (Tracked (fun _ => True) key n) d.manifest d.manifest d.manifest db new files w ∧
        Tracked (fun _ => False) key n db (d.manifest ++ new))
      fun _ => Survives (Tracked (fun _ => True) key n) d.manifest := by
  refine Between.query_rule.seq fun accounts => ?_
  rintro w ⟨h,rfl⟩
  have hstart : Recovering key n d [] w := by
    refine ⟨d.db,[],d.files,h,fun hstanding => ?_,(fun x hx => by cases hx),
      fun _ => ⟨(fun x hx => by cases hx),fun _ _ => rfl⟩⟩
    rcases h.holds hstanding with hsettled | ⟨m,i,-,hkey,hm⟩
    · exact .inl hsettled
    · rw [List.append_nil] at hstanding
      exact .inr ⟨m,i,⟨⟨⟨hstanding,m,hm.mem,hkey,hm.alive⟩,List.not_mem_nil⟩,hm.mem⟩,hkey,hm⟩
  refine ((Triple.accumulate_prefix (I := fun done _ => Recovering key n d done)
    d.db.tables.listAccounts (fun done results account _ => ?_) [] []).strengthen_post ?_) w hstart
  · split
    · next hempty =>
      refine Triple.ret ?_
      rintro w ⟨db,new,files,h,htracked,hpurged,hbefore⟩
      refine ⟨db,new,files,h,htracked.unnamed.mono ?_,hpurged,fun hlater => hbefore fun hmem => ?_⟩
      · rintro m ⟨⟨⟨hunfinished,hlater⟩,hm⟩,hne⟩
        refine ⟨⟨hunfinished,?_⟩,hm⟩
        rw [List.map_append,List.mem_append,not_or,List.map_singleton,List.mem_singleton,hempty]
        exact ⟨hlater,hne⟩
      · exact hlater (by rw [List.map_append]; exact List.mem_append_left _ hmem)
    · exact (recoverStep_tracked hrecoverable).seq fun _ => Triple.ret fun _ h => h
  · rintro _ w ⟨db,new,files,h,htracked,-⟩
    refine ⟨db,new,files,h,htracked.mono ?_⟩
    rintro m ⟨⟨⟨-,m',hm',hkey,-⟩,hlater⟩,-⟩
    -- the account of a row is one of those that were gone through
    obtain ⟨a,ha,hid⟩ := d.db.valid.messageAccount m' hm'
    refine hlater (List.mem_map.mpr ⟨a,ha,?_⟩)
    rw [hid,← hkey]
    rfl

end

/-! ## Interruptions -/

/-- What is on disk after a crash at this point of an operation. -/
structure CrashedIn (d : Disk) (w : World) (d' : Disk) : Prop extends
    Leaves d.manifest w d'.db d'.manifest where
  files : d'.files = w.files

theorem crashedIn_durable (d : Disk) (w : World) :
    CrashedIn d w ⟨w.committed,d.manifest ++ durableEvents w.log,w.files⟩ where
  db := rfl
  events := ⟨durableEvents w.log,List.prefix_rfl,
    List.reverse_prefix.mpr (flushedEvents_suffix w.log),rfl⟩
  files := rfl

/-- The disks after an interrupted purge and any number of interrupted recoveries, in any
environment; between two sessions files may come and go. -/
inductive Interrupted (mayPurge : Disk → List Nat → Prop) (mayRecover : Env → Disk → Prop)
    (start : Disk) : Disk → Prop
  | purge {env : Env} {messageIds : List Nat} {writeAllowed : Bool} {last : Option Nat} {tick : Nat}
      {d : Disk} (hmay : mayPurge start messageIds)
      (hcrash : CrashedIn start (purge env messageIds writeAllowed (start.opened last tick)).2 d) :
      Interrupted mayPurge mayRecover start d
  | cleaned {d : Disk} (h : Interrupted mayPurge mayRecover start d)
      (files : List (String × Bytes)) :
      Interrupted mayPurge mayRecover start { d with files := files }
  | recovery {env : Env} {writeAllowed : Bool} {last : Option Nat} {tick : Nat} {d d' : Disk}
      (h : Interrupted mayPurge mayRecover start d) (hmay : mayRecover env d)
      (hcrash : CrashedIn d
        (recoverAfterUncleanShutdown env writeAllowed (d.opened last tick)).2 d') :
      Interrupted mayPurge mayRecover start d'

section
variable {key : RecordKey} {n : Nat} {start d : Disk}

/-- Every interruption leaves the message tracked. -/
theorem Interrupted.tracked (hstart : Tracked (fun _ => True) key n start.db start.manifest)
    (h : Interrupted (fun d ids => PurgedOnce key n d.db ids) (Recoverable key) start d) :
    Tracked (fun _ => True) key n d.db d.manifest := by
  induction h with
  | @purge env messageIds writeAllowed last tick d hmay hcrash =>
    have hsurvives := (purge_tracked env writeAllowed hmay).final
      (Between.opened start hstart last tick)
    exact hsurvives d.db d.manifest hcrash.toLeaves
  | cleaned h files ih => exact ih
  | @recovery env writeAllowed last tick d d' h hmay hcrash ih =>
    have hsurvives := ((recoverAfterUncleanShutdown_tracked writeAllowed hmay).strengthen_post
      fun _ w ⟨db,new,files,hw,_⟩ => hw.toSteady.survives).final (Between.opened d ih last tick)
    exact hsurvives d'.db d'.manifest hcrash.toLeaves

/-- After a purge that was interrupted anywhere and any number of interrupted recoveries, a
recovery that runs to its end settles every message with a standing intent, with one audit entry
for the purge, as long as the message was asked for once and each recovery that finds its purge
unfinished also finds the files that were fetched for it since the last checkpoint, and one purge
of it to resume. -/
theorem startup_recovery_settles (hstart : Tracked (fun _ => True) key n start.db start.manifest)
    (hrun : Interrupted (fun d ids => PurgedOnce key n d.db ids) (Recoverable key) start d) {env : Env}
    (hrecoverable : Recoverable key env d) {writeAllowed : Bool} {last : Option Nat} {tick : Nat}
    {results : List RangeVerifyResult} {w : World}
    (hok : recoverAfterUncleanShutdown env writeAllowed (d.opened last tick) = (.ok results,w))
    (hstanding : Standing w.manifest key) : Settled key n w.committed w.manifest := by
  have hspec := recoverAfterUncleanShutdown_tracked writeAllowed hrecoverable _
    (Between.opened d (hrun.tracked hstart) last tick)
  rw [hok] at hspec
  obtain ⟨db,new,files,h,htracked⟩ := hspec
  rw [h.manifest] at hstanding ⊢
  rw [h.committed]
  refine (htracked hstanding).resolve_right ?_
  rintro ⟨m,i,hfalse,-⟩
  exact hfalse

end

/-- One message in the trash that was fetched after the last checkpoint. -/
def lateLetter : Disk where
  db := ⟨{
    accounts := [{ id := "work" }]
    messages := [
      { id := 1, accountId := "work", messageId := none, contentKey := "k",
        sourceItemKey := .imap "INBOX" 9 1, localState := .trashed,
        relativePath := some "eml/work/unknown/a.eml", fileHash := some "aa", envelope := {},
        sizeBytes := some 1 }]
    nextMessageId := 2 },by decide⟩
  manifest := [.checkpoint ⟨"work",1,"b","2024-01-01T00:00:00+00:00"⟩,
    .fetch {
      accountId := "work", folderId := 1, folderRawName := "INBOX", uid := 1, uidvalidity := 9,
      sourceItemKey := .imap "INBOX" 9 1, messageId := none,
      relativePath := "eml/work/unknown/a.eml", fileHash := "aa", sizeBytes := 1,
      internalDate := none, timestamp := "2024-01-01T00:00:00+00:00", deduplicated := false }]
  files := [("eml/work/unknown/a.eml",[0x61])]

/-- A machine on which every file has the expected hash. -/
def hashingMachine : Env := { stillMachine with sha256 := fun _ => "aa" }

/-- The disk after a crash in a purge of the message, at the call with this tick. -/
def letterCrash (tick : Nat) : Disk :=
  let w := (purge { hashingMachine with
    storageFault := fun t => if t = tick then some (.storage "power failure") else none
    manifestFault := fun t => if t = tick then some (.storage "power failure") else none }
    [1] true (lateLetter.opened none 0)).2
  ⟨w.committed,lateLetter.manifest ++ durableEvents w.log,w.files⟩

theorem letterCrash_interrupted {mayPurge : Disk → List Nat → Prop}
    {mayRecover : Env → Disk → Prop} (h : mayPurge lateLetter [1]) (tick : Nat) :
    Interrupted mayPurge mayRecover lateLetter (letterCrash tick) :=
  .purge h (crashedIn_durable _ _)

/-- The key of the message. -/
def letterKey : RecordKey := ("work",.imap "INBOX" 9 1)

/-- The intent a crash leaves of the purge. -/
def letterIntent : PurgeEvent :=
  { accountId := "work", sourceItemKey := .imap "INBOX" 9 1,
    relativePath := "eml/work/unknown/a.eml", fileHash := "aa",
    timestamp := "2024-01-01T00:00:00+00:00", sharedReferenceCount := 0, physicalDelete := true }

theorem lateLetter_not_standing (key : RecordKey) : ¬Standing lateLetter.manifest key := by
  rintro ⟨before,e,after,heq,-⟩
  have hmem : .purgeIntent e ∈ lateLetter.manifest := by
    rw [heq]
    simp
  simp [lateLetter] at hmem

/-- Interrupted before the file is deleted. -/
theorem startup_recovery_settles_letter :
    Settled letterKey 0
      (recoverAfterUncleanShutdown hashingMachine true ((letterCrash 6).opened none 0)).2.committed
      (recoverAfterUncleanShutdown hashingMachine true ((letterCrash 6).opened none 0)).2.manifest := by
  have hmanifest : (letterCrash 6).manifest = lateLetter.manifest ++ [.purgeIntent letterIntent] := by
    decide +kernel
  have hrecoverable : Recoverable letterKey hashingMachine (letterCrash 6) := by
    refine fun _ => ⟨fun f hf _ => ?_,by decide +kernel⟩
    have hpath : ∀ f', FetchedSince (letterCrash 6).manifest f' →
        f'.accountId = "work" ∧ f'.relativePath = "eml/work/unknown/a.eml" ∧ f'.fileHash = "aa" := by
      intro f' hf'
      have hmem : .fetch f' ∈ (letterCrash 6).manifest :=
        (mem_accountEvents.mp (List.mem_reverse.mp
          ((List.takeWhile_sublist _).mem (List.mem_reverse.mp hf')))).1
      rw [hmanifest] at hmem
      simp only [lateLetter,List.cons_append,List.nil_append,List.mem_cons,reduceCtorEq,
        ManifestEvent.fetch.injEq,List.not_mem_nil,or_false,false_or] at hmem
      rw [hmem]
      exact ⟨rfl,rfl,rfl⟩
    obtain ⟨haccount,hfile,-⟩ := hpath f hf
    refine ⟨?_,fun f' hf' _ => ⟨[0x61],?_,?_⟩,fun i hi _ => ?_⟩
    · rw [hfile]
      decide +kernel
    · rw [hfile]
      decide +kernel
    · rw [(hpath f' hf').2.2]
      decide +kernel
    · rw [hmanifest] at hi
      simp only [lateLetter,List.cons_append,List.nil_append,List.mem_cons,reduceCtorEq,
        ManifestEvent.purgeIntent.injEq,List.not_mem_nil,or_false,false_or] at hi
      rw [hi,haccount]
      rfl
  have honce : PurgedOnce letterKey 0 lateLetter.db [1] := by
    have hall : ∀ m ∈ lateLetter.db.tables.messages,
        [1].count m.id = 1 ∧ lateLetter.db.tables.purgeAudits m = 0 := by decide
    exact fun m hm _ _ _ => hall m hm
  rcases hrun : recoverAfterUncleanShutdown hashingMachine true ((letterCrash 6).opened none 0) with
    ⟨result,w⟩
  have hw : w.manifest = lateLetter.manifest ++ [.purgeIntent letterIntent,.purged letterIntent] := by
    have hend : (recoverAfterUncleanShutdown hashingMachine true
        ((letterCrash 6).opened none 0)).2.manifest =
          lateLetter.manifest ++ [.purgeIntent letterIntent,.purged letterIntent] := by decide +kernel
    rwa [hrun] at hend
  cases result with
  | error e =>
    have hok : (recoverAfterUncleanShutdown hashingMachine true
        ((letterCrash 6).opened none 0)).1.isOk = true := by decide +kernel
    rw [hrun] at hok
    cases hok
  | ok results =>
    have hstart : Tracked (fun _ => True) letterKey 0 lateLetter.db lateLetter.manifest :=
      fun hs => absurd hs (lateLetter_not_standing letterKey)
    refine startup_recovery_settles hstart (letterCrash_interrupted honce 6) hrecoverable hrun
      ⟨lateLetter.manifest,letterIntent,[.purged letterIntent],hw,rfl,?_⟩
    intro f hf
    cases List.mem_singleton.mp hf

/-- Interrupted after the file is deleted: the check takes the path from the row, which is then no
longer found. -/
theorem startup_recovery_loses_purge :
    (∀ key, ¬Standing lateLetter.manifest key) ∧
    Interrupted (fun _ _ => True) (fun _ _ => True) lateLetter (letterCrash 7) ∧
    (recoverAfterUncleanShutdown hashingMachine true ((letterCrash 7).opened none 0)).1.isOk = true ∧
    Standing (recoverAfterUncleanShutdown hashingMachine true
      ((letterCrash 7).opened none 0)).2.manifest letterKey ∧
    ∀ n, ¬Settled letterKey n
      (recoverAfterUncleanShutdown hashingMachine true ((letterCrash 7).opened none 0)).2.committed
      (recoverAfterUncleanShutdown hashingMachine true ((letterCrash 7).opened none 0)).2.manifest := by
  refine ⟨lateLetter_not_standing,letterCrash_interrupted trivial 7,by decide +kernel,
    ⟨lateLetter.manifest,letterIntent,[],by decide +kernel,rfl,fun f hf => by cases hf⟩,?_⟩
  rintro n ⟨m,hm,-,hpurged,-⟩
  have halive : ∀ m ∈ (recoverAfterUncleanShutdown hashingMachine true
      ((letterCrash 7).opened none 0)).2.committed.tables.messages, m.localState ≠ .purged := by
    decide +kernel
  exact halive m hm hpurged

end Trash

end MailDock
