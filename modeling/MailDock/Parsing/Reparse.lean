import MailDock.DeleteRemote.Reconcile
import MailDock.Storage.Verify
import MailDock.Sync.Durability

/-!
# Reparsing stored messages

`reparse_messages` reads the stored EML files again and stores what the parser now makes of them.
A target is chosen for a parse failure of any of its memberships, and comes with its membership in
the first folder; once it is parsed, the failure row of this membership is deleted.

## Main definitions

- `reparseMessages` — the use case
- `RepairedExactly` — the failure rows that are gone are the parse failures of what was reparsed
- `FailsInFirstFolder` — the failures of the reparsed messages are where the deletion looks

## Main results

- `reparseMessages_clears` — what a run that returns deletes
- `reparseMessages_repairedExactly_iff` — when this is what was repaired
-/

namespace MailDock

open Hoare Relational

/-! ## Targets -/

namespace Tables

/-- A failure of one of the memberships of a message. -/
def isFailureOf (t : Tables) (m : Message) (f : SyncFailure) : Bool :=
  f.accountId == m.accountId && t.memberships.any fun r =>
    r.messageId == m.id && r.serverUid == some (f.folderId,f.uidvalidity,f.uid)

def listReparseTargets (t : Tables) (accountId : Option String) (onlyFailed : Bool) :
    List StoredRecord :=
  (t.listStoredMessages accountId).filter fun record => !onlyFailed ||
    t.failures.any fun f => t.isFailureOf record.1 f && f.errorClass == .parse

end Tables

/-- The targets among the messages that were asked for. -/
def selectTargets (messageIds : Option (List Nat)) (records : List StoredRecord) :
    List StoredRecord :=
  records.filter fun record => messageIds.all fun ids => ids.contains record.1.id

structure ReparseResult where
  reparsedCount : Nat := 0
  skippedCount : Nat := 0
  missingCount : Nat := 0
  hashMismatchCount : Nat := 0
  parseFailedCount : Nat := 0
  cancelled : Bool := false
deriving DecidableEq, Repr

/-- `_internal_date`. -/
def recordInternalDate (m : Message) : Option DateTime :=
  m.envelope.internalDate.bind DateTime.fromIsoformat

/-! ## The use case -/

section
variable (env : Env)

/-- `update_message_contents`, inside the batch `reparse_messages` has opened. -/
def updateMessageContents (messageId : Nat) (contents : MessageContents) : App Unit := do
  repoCall env
  let w ← get
  let db ← Prog.ofExcept
    (Repository.exec "update message contents" (w.db.tables.putContents messageId contents))
  set { w with db := db }

/-- `_clear_parse_failure`. -/
def clearParseFailure (record : StoredRecord) : App Unit :=
  match record.2.bind Membership.serverUid with
  | some (folderId,uidvalidity,uid) =>
    writeRepo env (.clearFailure record.1.accountId folderId uidvalidity uid)
  | none => pure ()

def storeReparsed (record : StoredRecord) (parsed : ParsedMessage) : App Unit := do
  beginBatch env
  updateMessageContents env record.1.id (messageContents parsed false)
  clearParseFailure env record
  commitBatch env

/-- What is done with a file that was read. -/
def reparseRaw (record : StoredRecord) (expectedHash : String) (raw : Bytes)
    (result : ReparseResult) : App ReparseResult :=
  if env.sha256 raw ≠ casefoldHex expectedHash then
    pure { result with
      hashMismatchCount := result.hashMismatchCount + 1
      skippedCount := result.skippedCount + 1 }
  else
    let parsed := env.parse raw (recordInternalDate record.1)
    if parsed.parseError.isSome then
      pure { result with
        parseFailedCount := result.parseFailedCount + 1
        skippedCount := result.skippedCount + 1 }
    else do
      storeReparsed env record parsed
      pure { result with reparsedCount := result.reparsedCount + 1 }

/-- `storage.read`; `none` is a `FileNotFoundError`. -/
def readEml (relativePath : String) : App (Option Bytes) := do
  let _ ← storageCall env
  let w ← get
  pure (w.files.lookup relativePath)

def reparseFile (record : StoredRecord) (relativePath expectedHash : String)
    (result : ReparseResult) : App ReparseResult := do
  match (← readEml env relativePath) with
  | none => pure { result with
      missingCount := result.missingCount + 1
      skippedCount := result.skippedCount + 1 }
  | some raw => reparseRaw env record expectedHash raw result

def reparseTarget (record : StoredRecord) (result : ReparseResult) : App ReparseResult :=
  match record.1.relativePath,record.1.fileHash with
  | some relativePath,some expectedHash =>
    reparseFile env record relativePath expectedHash result
  | _,_ => pure { result with skippedCount := result.skippedCount + 1 }

/-- What the cancel token says is asked for before each target. -/
def reparseLoop (cancel : Nat → Bool) : Nat → List StoredRecord → ReparseResult → App ReparseResult
  | _,[],result => pure result
  | i,record :: rest,result =>
    if cancel i then pure { result with cancelled := true }
    else do
      let result ← reparseTarget env record result
      reparseLoop cancel (i + 1) rest result

def reparseMessages (cancel : Nat → Bool) (accountId : Option String) (onlyFailed : Bool)
    (messageIds : Option (List Nat)) : App ReparseResult := do
  let records ← queryRepo env fun t => t.listReparseTargets accountId onlyFailed
  reparseLoop env cancel 0 (selectTargets messageIds records) {}

/-! ## What is reparsed -/

/-- The stored file of a target is there, is the one that was stored, and can be parsed. -/
def isReparsed (files : List (String × Bytes)) (record : StoredRecord) : Bool :=
  match record.1.relativePath,record.1.fileHash with
  | some relativePath,some expectedHash =>
    match files.lookup relativePath with
    | none => false
    | some raw => env.sha256 raw == casefoldHex expectedHash &&
        (env.parse raw (recordInternalDate record.1)).parseError.isNone
  | _,_ => false

end

/-- The targets before the one at which the run is cancelled. -/
def reachedTargets (cancel : Nat → Bool) : Nat → List StoredRecord → List StoredRecord
  | _,[] => []
  | i,record :: rest => if cancel i then [] else record :: reachedTargets cancel (i + 1) rest

/-- The targets a run reparses. -/
def reparsedTargets (env : Env) (cancel : Nat → Bool) (accountId : Option String)
    (onlyFailed : Bool) (messageIds : Option (List Nat)) (w : World) : List StoredRecord :=
  (reachedTargets cancel 0
    (selectTargets messageIds (w.db.tables.listReparseTargets accountId onlyFailed))).filter
      (isReparsed env w.files)

/-- The row `_clear_parse_failure` deletes. -/
def clearsFailure (record : StoredRecord) (f : SyncFailure) : Bool :=
  f.accountId == record.1.accountId &&
    record.2.bind Membership.serverUid == some (f.folderId,f.uidvalidity,f.uid)

/-- Parse failures of what was reparsed are gone, and nothing else. -/
structure RepairedExactly (t : Tables) (reparsed : List StoredRecord)
    (failures : List SyncFailure) : Prop where
  cleared : ∀ record ∈ reparsed, ∀ f ∈ failures,
    t.isFailureOf record.1 f = true → f.errorClass ≠ .parse
  kept : ∀ f ∈ t.failures, (f.errorClass = .parse →
    ∀ record ∈ reparsed, t.isFailureOf record.1 f = false) → f ∈ failures
  noNew : ∀ f ∈ failures, f ∈ t.failures

/-- The failures of each reparsed message are a parse failure of its first membership, if that has
one, and other failures of its other memberships. -/
def FailsInFirstFolder (t : Tables) (reparsed : List StoredRecord) : Prop :=
  ∀ record ∈ reparsed, ∀ f ∈ t.failures, t.isFailureOf record.1 f = true →
    (f.errorClass = .parse ↔ clearsFailure record f = true)

/-! ## The failures after a run -/

/-- The files are as they were, and the rows of these targets are deleted. -/
structure Cleared (start : World) (done : List StoredRecord) (w : World) : Prop where
  files : w.files = start.files
  failures : w.db.tables.failures =
    start.db.tables.failures.filter fun f => !done.any fun record => clearsFailure record f

section
variable {env : Env} {start : World} {done : List StoredRecord}

theorem Cleared.ticked {w : World} (h : Cleared start done w) : Cleared start done w.ticked :=
  ⟨h.files,h.failures⟩

theorem Cleared.written {w : World} (h : Cleared start done w) {record : StoredRecord} {op : WriteOp}
    {db : Repository} (hdb : db.tables.failures =
      w.db.tables.failures.filter fun f => !clearsFailure record f) :
    Cleared start (done ++ [record]) (w.written op db) := by
  refine ⟨?_,?_⟩
  · rw [← h.files]
    unfold World.written
    split
    · rfl
    · rfl
  · rw [World.written_db,hdb,h.failures,List.filter_filter]
    refine List.filter_congr fun f _ => ?_
    simp [Bool.and_comm]

theorem clearFailure_failures {record : StoredRecord} {folderId uidvalidity uid : Nat}
    (hkey : record.2.bind Membership.serverUid = some (folderId,uidvalidity,uid)) (t : Tables) :
    (t.clearFailure record.1.accountId folderId uidvalidity uid).failures =
      t.failures.filter fun f => !clearsFailure record f := by
  unfold Tables.clearFailure deleteWhere
  refine List.filter_congr fun f _ => ?_
  rw [clearsFailure,SyncFailure.isOf,hkey]
  congr 1
  rw [Bool.eq_iff_iff]
  simp only [Bool.and_eq_true,beq_iff_eq,Option.some.injEq,Prod.mk.injEq]
  constructor
  · rintro ⟨⟨⟨h1,h2⟩,h3⟩,h4⟩
    exact ⟨h1,h2.symm,h3.symm,h4.symm⟩
  · rintro ⟨h1,h2,h3,h4⟩
    exact ⟨⟨⟨h1,h2.symm⟩,h3.symm⟩,h4.symm⟩

theorem updateMessageContents_cleared (messageId : Nat) (contents : MessageContents) :
    Triple (Cleared start done) (updateMessageContents env messageId contents)
      (fun _ => Cleared start done) fun _ _ => True := by
  refine (repoCall_rule (Q := fun _ => Cleared start done) (fun w hw => hw.ticked)
    fun _ _ _ _ => trivial).seq fun _ => ?_
  intro w hw
  show Holds _ _ (Prog.bind (Prog.ofExcept (Repository.exec _ _)) _ w)
  unfold Prog.bind Prog.ofExcept
  cases h : Repository.exec "update message contents"
      (w.db.tables.putContents messageId contents) with
  | ok db =>
    refine ⟨hw.files,?_⟩
    rw [← hw.failures]
    show db.tables.failures = _
    rw [Repository.exec_eq_ok.mp h]
    rfl
  | error e => trivial

theorem clearParseFailure_cleared (record : StoredRecord) :
    Triple (Cleared start done) (clearParseFailure env record)
      (fun _ => Cleared start (done ++ [record])) fun _ _ => True := by
  unfold clearParseFailure
  split
  · next folderId uidvalidity uid hkey =>
    refine writeRepo_rule (fun w db hw hdb => hw.ticked.written ?_) fun _ _ _ _ => trivial
    rw [Repository.exec_eq_ok.mp hdb,clearFailure_failures hkey]
    rfl
  · next hkey =>
    -- a membership without a UID has no row to delete
    refine Triple.ret fun w hw => ⟨hw.files,?_⟩
    rw [hw.failures]
    refine List.filter_congr fun f _ => ?_
    simp [clearsFailure,hkey]

theorem storeReparsed_cleared (record : StoredRecord) (parsed : ParsedMessage) :
    Triple (Cleared start done) (storeReparsed env record parsed)
      (fun _ => Cleared start (done ++ [record])) fun _ _ => True := by
  refine (beginBatch_rule (Q := fun _ => Cleared start done)
    (fun w hw _ => ⟨hw.files,hw.failures⟩) fun _ _ _ _ => trivial).seq fun _ => ?_
  refine (updateMessageContents_cleared _ _).seq fun _ => ?_
  refine (clearParseFailure_cleared record).seq fun _ => ?_
  exact commitBatch_rule (fun w hw => ⟨hw.files,hw.failures⟩) fun _ _ _ _ => trivial

/-- A target's row is deleted when the target is reparsed, and no row otherwise. -/
theorem reparseTarget_cleared (record : StoredRecord) (result : ReparseResult) :
    Triple (Cleared start done) (reparseTarget env record result)
      (fun _ => Cleared start (done ++ [record].filter (isReparsed env start.files)))
      fun _ _ => True := by
  have hskip : isReparsed env start.files record = false → ∀ w, Cleared start done w →
      Cleared start (done ++ [record].filter (isReparsed env start.files)) w := by
    intro hskipped w hw
    rwa [List.filter_cons_of_neg (by simp [hskipped]),List.filter_nil,List.append_nil]
  unfold reparseTarget
  split
  · next relativePath expectedHash hpath hhash =>
    unfold reparseFile
    have hread : Triple (Cleared start done) (readEml env relativePath)
        (fun raw w => Cleared start done w ∧ raw = start.files.lookup relativePath)
        fun _ _ => True := by
      refine Triple.seq (Q := fun _ => Cleared start done) ?_ fun _ => ?_
      · refine (nextTick_rule (Q := fun _ => Cleared start done) fun w hw => hw.ticked).seq
          fun t => ?_
        refine Triple.seq (Q := fun _ => Cleared start done) ?_ fun _ => Triple.ret fun _ hw => hw
        exact localFault_rule (fun _ hw => hw) fun _ _ _ _ => trivial
      · intro w hw
        exact ⟨hw,by rw [hw.files]⟩
    refine hread.seq fun raw => Triple.assume fun hraw => ?_
    cases raw with
    | none =>
      refine Triple.ret fun w hw => hskip ?_ w hw
      rw [isReparsed,hpath,hhash]
      simp [← hraw]
    | some raw =>
      have hreparsed : isReparsed env start.files record =
          (env.sha256 raw == casefoldHex expectedHash &&
            (env.parse raw (recordInternalDate record.1)).parseError.isNone) := by
        rw [isReparsed,hpath,hhash]
        simp [← hraw]
      show Triple _ (reparseRaw env record expectedHash raw result) _ _
      unfold reparseRaw
      by_cases hsame : env.sha256 raw = casefoldHex expectedHash
      · rw [if_neg (by simpa using hsame)]
        dsimp only
        by_cases hfailed : (env.parse raw (recordInternalDate record.1)).parseError.isSome
        · rw [if_pos hfailed]
          refine Triple.ret fun w hw => hskip ?_ w hw
          rw [hreparsed,← Option.not_isSome,hfailed]
          simp
        · rw [if_neg hfailed]
          have hdone : isReparsed env start.files record = true := by
            rw [hreparsed]
            simpa [hsame] using hfailed
          rw [List.filter_cons_of_pos (by simpa using hdone),List.filter_nil]
          exact (storeReparsed_cleared record _).seq fun _ => Triple.ret fun _ hw => hw
      · rw [if_pos hsame]
        refine Triple.ret fun w hw => hskip ?_ w hw
        rw [hreparsed]
        simp [hsame]
  · next hmissing =>
    refine Triple.ret fun w hw => hskip ?_ w hw
    unfold isReparsed
    split
    · next relativePath expectedHash hpath hhash => exact absurd hhash (hmissing _ _ hpath)
    · rfl

theorem reparseLoop_cleared (cancel : Nat → Bool) (records : List StoredRecord) (i : Nat)
    (result : ReparseResult) :
    Triple (Cleared start done) (reparseLoop env cancel i records result)
      (fun _ => Cleared start
        (done ++ (reachedTargets cancel i records).filter (isReparsed env start.files)))
      fun _ _ => True := by
  induction records generalizing i result done with
  | nil => exact Triple.ret fun w hw => by simpa [reachedTargets] using hw
  | cons record rest ih =>
    rw [reparseLoop,reachedTargets]
    by_cases hcancel : cancel i
    · rw [if_pos hcancel,if_pos hcancel]
      exact Triple.ret fun w hw => by simpa using hw
    · rw [if_neg hcancel,if_neg hcancel]
      refine (reparseTarget_cleared record result).seq fun result' => ?_
      refine (ih (i + 1) result').strengthen_post fun _ w hw => ?_
      rwa [List.append_assoc,← List.filter_append,List.singleton_append] at hw

/-- A run that returns has deleted the rows of the targets it reparsed, and no others. -/
theorem reparseMessages_clears {cancel : Nat → Bool} {accountId : Option String} {onlyFailed : Bool}
    {messageIds : Option (List Nat)} {w w' : World} {result : ReparseResult}
    (h : reparseMessages env cancel accountId onlyFailed messageIds w = (.ok result,w')) :
    w'.db.tables.failures = w.db.tables.failures.filter fun f =>
      !(reparsedTargets env cancel accountId onlyFailed messageIds w).any fun record =>
        clearsFailure record f := by
  have hrun : Triple (fun v => v = w) (reparseMessages env cancel accountId onlyFailed messageIds)
      (fun _ => Cleared w (reparsedTargets env cancel accountId onlyFailed messageIds w))
      fun _ _ => True := by
    refine (queryRepo_rule (Q := fun records v => Cleared w [] v ∧
      records = w.db.tables.listReparseTargets accountId onlyFailed) ?_
      fun _ _ _ _ => trivial).seq fun records => Triple.assume fun hrecords => ?_
    · rintro _ rfl
      exact ⟨⟨rfl,by simp [World.ticked]⟩,rfl⟩
    · subst hrecords
      exact reparseLoop_cleared cancel _ 0 {}
  have hreturned := hrun w rfl
  rw [h] at hreturned
  exact hreturned.failures

end

/-! ## When this is what was repaired -/

section
variable {repo : Repository} {accountId : Option String} {onlyFailed : Bool}

/-- A target is a message with its membership in the first folder. -/
theorem mem_listReparseTargets {record : StoredRecord}
    (h : record ∈ repo.tables.listReparseTargets accountId onlyFailed) :
    record.1 ∈ repo.tables.messages ∧ record.2 = (repo.tables.membershipsOf record.1.id).head? := by
  obtain ⟨m,hm,rfl⟩ := List.mem_map.mp (List.mem_filter.mp h).1
  rw [List.mem_insertionSort] at hm
  exact ⟨(List.mem_filter.mp hm).1,rfl⟩

theorem mem_reachedTargets {cancel : Nat → Bool} {i : Nat} {records : List StoredRecord}
    {record : StoredRecord} (h : record ∈ reachedTargets cancel i records) : record ∈ records := by
  induction records generalizing i with
  | nil => cases h
  | cons first rest ih =>
    rw [reachedTargets] at h
    split at h
    · cases h
    · rcases List.mem_cons.mp h with rfl | h
      · exact List.mem_cons_self
      · exact List.mem_cons_of_mem _ (ih h)

/-- The row a target deletes is a failure of the target. -/
theorem isFailureOf_of_clears {record : StoredRecord} {f : SyncFailure}
    (hr : record ∈ repo.tables.listReparseTargets accountId onlyFailed)
    (h : clearsFailure record f = true) : repo.tables.isFailureOf record.1 f = true := by
  obtain ⟨-,hfirst⟩ := mem_listReparseTargets hr
  simp only [clearsFailure,Bool.and_eq_true,beq_iff_eq] at h
  obtain ⟨r,hrecord,hkey⟩ := Option.bind_eq_some_iff.mp h.2
  rw [hrecord] at hfirst
  obtain ⟨hmem,hid,-⟩ := repo.valid.head_membershipsOf_iff.mp hfirst.symm
  simp only [Tables.isFailureOf,Bool.and_eq_true,beq_iff_eq,List.any_eq_true]
  exact ⟨h.1,r,hmem,hid,hkey⟩

/-- The UID of a failure belongs to one message only. -/
theorem eq_of_isFailureOf {a b : StoredRecord} {f : SyncFailure}
    (ha : a ∈ repo.tables.listReparseTargets accountId onlyFailed)
    (hb : b ∈ repo.tables.listReparseTargets accountId onlyFailed)
    (hfa : repo.tables.isFailureOf a.1 f = true) (hfb : repo.tables.isFailureOf b.1 f = true) :
    a = b := by
  simp only [Tables.isFailureOf,Bool.and_eq_true,beq_iff_eq,List.any_eq_true] at hfa hfb
  obtain ⟨-,r,hr,hrid,hrkey⟩ := hfa
  obtain ⟨-,s,hs,hsid,hskey⟩ := hfb
  have hrs : r = s := repo.valid.membershipUid.eq_of_key hr hs hrkey hskey
  obtain ⟨hma,hafirst⟩ := mem_listReparseTargets ha
  obtain ⟨hmb,hbfirst⟩ := mem_listReparseTargets hb
  have hid : a.1.id = b.1.id := by rw [← hrid,hrs,hsid]
  have hmessage : a.1 = b.1 := repo.valid.messageId.eq_of_key hma hmb rfl (by rw [hid])
  exact Prod.ext hmessage (by rw [hafirst,hbfirst,hmessage])

/-- Deleting the rows of these targets repairs exactly them when their failures are in the first
folder. -/
theorem repairedExactly_iff {reparsed : List StoredRecord}
    (h : ∀ record ∈ reparsed, record ∈ repo.tables.listReparseTargets accountId onlyFailed) :
    RepairedExactly repo.tables reparsed (repo.tables.failures.filter fun f =>
      !reparsed.any fun record => clearsFailure record f) ↔
        FailsInFirstFolder repo.tables reparsed := by
  have hgone : ∀ f, (f ∈ repo.tables.failures.filter fun f =>
      !reparsed.any fun record => clearsFailure record f) ↔
        f ∈ repo.tables.failures ∧ ∀ record ∈ reparsed, clearsFailure record f = false := by
    intro f
    simp [List.mem_filter]
  constructor
  · intro hexact record hr f hf hof
    constructor
    · intro hparse
      -- the row is gone, and only the target it belongs to can have deleted it
      by_contra hstays
      refine hexact.cleared record hr f ((hgone f).mpr ⟨hf,fun other hother => ?_⟩) hof hparse
      by_contra hclears
      rw [Bool.not_eq_false] at hclears
      have hsame := eq_of_isFailureOf (h other hother) (h record hr)
        (isFailureOf_of_clears (h other hother) hclears) hof
      exact hstays (hsame ▸ hclears)
    · intro hclears
      by_contra hother
      have hkept := hexact.kept f hf fun hparse => absurd hparse hother
      have hfalse := ((hgone f).mp hkept).2 record hr
      rw [hclears] at hfalse
      cases hfalse
  · intro hfirst
    refine ⟨?_,?_,fun f hf => ((hgone f).mp hf).1⟩
    · intro record hr f hf hof hparse
      obtain ⟨hf,hnone⟩ := (hgone f).mp hf
      have hclears := (hfirst record hr f hf hof).mp hparse
      rw [hnone record hr] at hclears
      cases hclears
    · intro f hf hkeep
      refine (hgone f).mpr ⟨hf,fun record hr => ?_⟩
      by_contra hclears
      rw [Bool.not_eq_false] at hclears
      have hof := isFailureOf_of_clears (h record hr) hclears
      have hfalse := hkeep ((hfirst record hr f hf hof).mpr hclears) record hr
      rw [hof] at hfalse
      cases hfalse

end

/-- A run repairs exactly what it reparsed when the failures are in the first folders. -/
theorem reparseMessages_repairedExactly_iff {env : Env} {cancel : Nat → Bool}
    {accountId : Option String} {onlyFailed : Bool} {messageIds : Option (List Nat)} {w w' : World}
    {result : ReparseResult}
    (h : reparseMessages env cancel accountId onlyFailed messageIds w = (.ok result,w')) :
    RepairedExactly w.db.tables (reparsedTargets env cancel accountId onlyFailed messageIds w)
        w'.db.tables.failures ↔
      FailsInFirstFolder w.db.tables
        (reparsedTargets env cancel accountId onlyFailed messageIds w) := by
  rw [reparseMessages_clears h]
  have htarget : ∀ record ∈ reparsedTargets env cancel accountId onlyFailed messageIds w,
      record ∈ w.db.tables.listReparseTargets accountId onlyFailed := fun record hr =>
    (List.mem_filter.mp (mem_reachedTargets (List.mem_filter.mp hr).1)).1
  exact repairedExactly_iff htarget

/-- A message in two folders, with one failure. -/
def failedIn (folderId : Nat) : Tables :=
  { accounts := [{ id := "work" }]
    folders := [{ id := 1, accountId := "work", rawName := "INBOX", displayName := "Inbox" },
      { id := 2, accountId := "work", rawName := "Work", displayName := "Work" }]
    messages := [{
      id := 1, accountId := "work", messageId := none, contentKey := "", sourceItemKey := .gmail 4,
      relativePath := some "eml/work/unknown/a.eml", envelope := {}, sizeBytes := some 0,
      fileHash := some "e3b0c44298fc1c149afbf4c8996fb92427ae41e4649b934ca495991b7852b855" }]
    memberships := [{ messageId := 1, folderId := 1, uid := some 5, uidvalidity := some 7 },
      { messageId := 1, folderId := 2, uid := some 8, uidvalidity := some 7 }]
    failures := [{
      accountId := "work", folderId := folderId, uidvalidity := 7,
      uid := if folderId = 1 then 5 else 8, errorClass := .parse, errorMessage := "bad MIME" }]
    nextFolderId := 3
    nextMessageId := 2 }

def failedMachine (db : Repository) : World :=
  .opened db [] none [("eml/work/unknown/a.eml",[])] 0

/-- Reparsing the failures of the machine, without a cancellation. -/
def reparseFailures (db : Repository) : Except Error ReparseResult × World :=
  reparseMessages (steadyServer 7 fun _ => []) (fun _ => false) none true none (failedMachine db)

def firstFolderFails : Repository := ⟨failedIn 1,by decide⟩

def secondFolderFails : Repository := ⟨failedIn 2,by decide⟩

theorem reparseMessages_repairedExactly_iff_first :
    RepairedExactly (failedIn 1) (reparsedTargets (steadyServer 7 fun _ => []) (fun _ => false) none
      true none (failedMachine firstFolderFails))
      (reparseFailures firstFolderFails).2.db.tables.failures := by
  refine (@reparseMessages_repairedExactly_iff _ _ _ _ _ (failedMachine firstFolderFails) _
    { reparsedCount := 1 } ?_).mpr ?_
  · exact Prod.ext (by decide) rfl
  · show FailsInFirstFolder (failedIn 1) _
    unfold FailsInFirstFolder
    decide

/-- A message that was found again in its second folder keeps the failure it was chosen for. -/
theorem second_folder_failure_stays :
    (reparseFailures secondFolderFails).1 = .ok { reparsedCount := 1 } ∧
    ¬ RepairedExactly (failedIn 2) (reparsedTargets (steadyServer 7 fun _ => []) (fun _ => false)
      none true none (failedMachine secondFolderFails))
        (reparseFailures secondFolderFails).2.db.tables.failures := by
  refine ⟨by decide,fun hexact => ?_⟩
  have hcleared := hexact.cleared
  revert hcleared
  decide

end MailDock
