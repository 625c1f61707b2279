import Mathlib.Data.List.Dedup
import MailDock.DeleteRemote.Preflight

/-!
# Safety of remote deletion

Results about whole runs of `execute`, for every plan, every server and every
fault: what precedes a destructive command, what a crash can leave behind, and how
the candidates of a plan are reported.
-/

namespace MailDock

open Hoare Trace

section
variable {start : Tables} {options : DeleteOptions} {items : List DeleteCandidate}
  {db : Repository} {env : Env}

theorem DeleteInv.survivors {inBatch : Bool} {log : List Effect}
    (h : DeleteInv start options items [] db inBatch log) {remaining : List DeleteCandidate}
    (hremaining : options.excludeFlagged = true → ∀ c ∈ remaining,
      ReportedUnflagged c.folderRawName c.uid log) :
    DeleteInv start options items remaining db inBatch log :=
  { h with unflagged := hremaining }

theorem ensureImapAccount_safe (accountId : String) :
    Triple (Between start options items [] db) (ensureImapAccount env accountId)
      (fun _ => Between start options items [] db) (Guarded start options items) := by
  unfold ensureImapAccount
  refine (Between.query (R := fun _ => True) trivial).seq fun accounts => Triple.assume fun _ => ?_
  split
  · split
    · exact Triple.raise fun w hw => hw.guarded _
    · exact Triple.ret fun _ hw => hw
  · exact Triple.ret fun _ hw => hw

theorem findTrashFolder_safe :
    Triple (Between start options items [] db) (findTrashFolder env)
      (fun _ => Between start options items [] db) (Guarded start options items) := by
  have hlist : ∀ w, Between start options items [] db w → Between start options items [] db
      (w.ticked.logged (.command .list)) := fun w hw =>
    hw.logged rfl fun _ _ ht => by cases ht
  exact (imapCommand_rule (Q := fun _ => Between start options items [] db) hlist
    fun w e hw => (hlist w hw).guarded e).seq fun _ => Triple.ret fun _ hw => hw

theorem checkPlan_safe :
    Triple (Between start options items [] db) (checkPlan env options items)
      (fun _ => Between start options items [] db) (Guarded start options items) := by
  have hraise : ∀ e : Error, Triple (Between start options items [] db)
      (throw e : App (List String × Option String)) (fun _ => Between start options items [] db)
      (Guarded start options items) := fun e => Triple.raise fun w hw => hw.guarded e
  have hret : ∀ a : List String × Option String, Triple (Between start options items [] db)
      (pure a : App (List String × Option String)) (fun _ => Between start options items [] db)
      (Guarded start options items) := fun a => Triple.ret fun _ hw => hw
  unfold checkPlan
  refine (Triple.loop items fun c _ => ensureImapAccount_safe c.accountId).seq fun _ => ?_
  refine (nextTick_rule (Q := fun _ => Between start options items [] db) fun _ hw => hw).seq
    fun t => ?_
  split
  · exact hraise _
  · split
    · exact hraise _
    · split
      · exact hraise _
      · refine (Between.query (R := fun _ => True) trivial).seq fun accounts =>
          Triple.assume fun _ => ?_
        dsimp only
        split
        · split
          · exact hraise _
          · split
            · exact hret _
            · exact hraise _
        · split
          · exact hret _
          · exact hraise _
        · split
          · exact hret _
          · refine findTrashFolder_safe.seq fun trash => ?_
            split
            · exact hraise _
            · exact hret _

theorem preflight_safe :
    Triple (Between start options items [] db) (preflight env items)
      (fun survived w => (∀ c ∈ survived.1, c ∈ items) ∧
        ∃ db', Between start options items survived.1 db' w)
      (Guarded start options items) := by
  unfold preflight
  dsimp only
  refine ((preflightFolders_reading (p := {}) _ (Relational.nodup_distinct _) fun _ _ _ => rfl).weaken_pre
    fun w hw => ⟨hw,fun _ _ _ h => by cases h⟩).seq fun p => ?_
  refine (storePreflightFlags_safe items).seq fun _ => Triple.ret ?_
  rintro w ⟨db',hw⟩
  refine ⟨fun c hc => (List.mem_filter.mp hc).1,db',hw.1.1.survivors fun _ c hc => ?_,hw.1.2⟩
  exact preflightVerdict_unflagged hw.2 (by simpa using (List.mem_filter.mp hc).2)

/-- Every effect of a run of `execute` meets its guard. -/
theorem execute_safe :
    Triple (Between start options items [] db) (execute env options items)
      (fun _ w => Always (Guard start options items) w.log) (Guarded start options items) := by
  unfold execute
  refine checkPlan_safe.seq fun checked => ?_
  obtain ⟨google,trash⟩ := checked
  refine Triple.seq (Q := fun survived w => (∀ c ∈ survived.1, c ∈ items) ∧
    ∃ db', Between start options items survived.1 db' w) ?_ fun survived => ?_
  · split
    · exact preflight_safe
    · next hoff =>
      refine Triple.ret fun w hw => ⟨fun c hc => hc,db,hw.1.survivors fun hflag c hc => ?_,hw.2⟩
      cases items with
      | nil => cases hc
      | cons _ _ => simp [hflag] at hoff
  · obtain ⟨remaining,r⟩ := survived
    rintro w ⟨hsub,hw⟩
    refine (Triple.accumulate (I := fun _ w => ∃ db', Between start options items remaining db' w)
      remaining (fun b planned hplanned => deletePlanned_safe (hsub planned hplanned) hplanned
        google trash b) r).strengthen_post (fun _ w hw => ?_) w hw
    obtain ⟨db',hw⟩ := hw
    exact hw.1.guarded

end

/-- The log of a run of `execute` that starts on an opened connection. -/
def executeLog (env : Env) (options : DeleteOptions) (items : List DeleteCandidate)
    (start : World) : List Effect :=
  (execute env options items start).2.log

theorem executeLog_guarded (env : Env) (options : DeleteOptions) (items : List DeleteCandidate)
    (db : Repository) (manifest : List ManifestEvent) (last : Option Nat)
    (files : List (String × Bytes)) (tick : Nat) :
    Always (Guard db.tables options items)
      (executeLog env options items (World.opened db manifest last files tick)) := by
  have hinv : DeleteInv db.tables options items [] db false [] :=
    ⟨trivial,rfl,.refl _,fun _ => .inl rfl,fun _ _ _ => List.not_mem_nil,
      fun _ _ hc => absurd hc List.not_mem_nil⟩
  have hsafe : Triple (Between db.tables options items [] db) (execute env options items)
      (fun _ w => Always (Guard db.tables options items) w.log)
      (Guarded db.tables options items) := execute_safe
  exact hsafe.final ⟨hinv,rfl⟩

/-- Every destructive command comes after a flushed intent and a verified EML of
its candidate; its folder's UIDVALIDITY was compared on the same selection exactly
when flagged messages are excluded. -/
theorem execute_destructive_preceded (env : Env) (options : DeleteOptions)
    (items : List DeleteCandidate) (db : Repository) (manifest : List ManifestEvent)
    (last : Option Nat) (files : List (String × Bytes)) (tick : Nat) (c : ImapCommand)
    (folder : String) (uid : Nat) (after before : List Effect)
    (hlog : executeLog env options items (World.opened db manifest last files tick) =
      after ++ .command c :: before) (hc : c.target = some (folder,uid)) :
    ∃ planned ∈ items, planned.folderRawName = folder ∧ planned.uid = uid ∧
      (∃ m ∈ db.tables.messages, m.id = planned.messageId ∧ ∃ timestamp,
        ManifestEvent.remoteDelete ⟨.intent,m.accountId,folder,uid,planned.uidvalidity,
          options.mode,timestamp⟩ ∈ flushedEvents before) ∧
      Effect.verified planned.relativePath planned.fileHash ∈ before ∧
      (checkedSelection before = some (folder,planned.uidvalidity) ↔
        options.excludeFlagged = true) := by
  have h := executeLog_guarded env options items db manifest last files tick
  rw [hlog] at h
  obtain ⟨planned,hplanned,rfl,rfl,hauthorised⟩ := h.at folder uid hc
  exact ⟨planned,hplanned,rfl,rfl,hauthorised.intent,hauthorised.eml,hauthorised.selection⟩

/-! A run against a server that renumbered INBOX, and one against a server that did not. -/

/-- SHA-256 of the empty EML. -/
def emptyEmlHash : String := "e3b0c44298fc1c149afbf4c8996fb92427ae41e4649b934ca495991b7852b855"

def storedInbox : Repository where
  tables :=
    { accounts := [{ id := "work" }]
      folders := [
        { id := 1, accountId := "work", rawName := "INBOX", displayName := "INBOX",
          uidvalidity := some 9 }]
      messages := [
        { id := 1, accountId := "work", messageId := none, contentKey := "k",
          sourceItemKey := .imap "INBOX" 9 12, relativePath := some "eml/work/unknown/e3b0.eml",
          fileHash := some emptyEmlHash, envelope := {}, sizeBytes := some 0 }]
      memberships := [{ messageId := 1, folderId := 1, uid := some 12, uidvalidity := some 9 }]
      contents := [(1,⟨none,none,none,none⟩)]
      nextFolderId := 2
      nextMessageId := 2 }
  valid := by decide

def plannedInbox : DeleteCandidate :=
  { messageId := 1, accountId := "work", folderRawName := "INBOX", uid := 12, uidvalidity := 9,
    subject := "", dateSent := none, internalDate := none, sizeBytes := 0,
    relativePath := "eml/work/unknown/e3b0.eml", fileHash := emptyEmlHash, folderId := some 1 }

/-- A server with MOVE whose folders have the given UIDVALIDITY. -/
def serverAt (uidvalidity : Nat) : Env where
  sha256 _ := emptyEmlHash
  parse _ _ := {}
  clock _ := ⟨2024,1,1,0,0,0⟩
  uidvalidity _ _ := uidvalidity
  mailbox _ _ := [12]
  nextRef _ _ _ _ := none
  body _ _ _ := []
  headers _ _ _ := []
  flagRefs _ _ := ([{ uid := 12 }],none)
  trashFolder _ := some "Trash"
  supportsMove := true

def inboxWorld : World :=
  World.opened storedInbox [] none [("eml/work/unknown/e3b0.eml",[])] 0

/-- With the server at UIDVALIDITY 10 the message planned under 9 is still moved. -/
theorem execute_moves_unchecked :
    ¬ ∀ (c : ImapCommand) (folder : String) (uid : Nat) (after before : List Effect),
      executeLog (serverAt 10) {} [plannedInbox] inboxWorld = after ++ .command c :: before →
      c.target = some (folder,uid) → ∃ planned ∈ [plannedInbox],
        planned.folderRawName = folder ∧ planned.uid = uid ∧
        checkedSelection before = some (folder,planned.uidvalidity) := by
  intro h
  obtain ⟨planned,-,-,-,hchecked⟩ := h (.move "INBOX" 12) "INBOX" 12
    ((executeLog (serverAt 10) {} [plannedInbox] inboxWorld).take 5)
    ((executeLog (serverAt 10) {} [plannedInbox] inboxWorld).drop 6) (by decide +kernel) rfl
  have hnone : checkedSelection
      ((executeLog (serverAt 10) {} [plannedInbox] inboxWorld).drop 6) = none := by decide +kernel
  rw [hnone] at hchecked
  cases hchecked

theorem execute_destructive_preceded_move :
    ∃ planned ∈ [plannedInbox], planned.folderRawName = "INBOX" ∧ planned.uid = 12 ∧
      checkedSelection ((executeLog (serverAt 9) { excludeFlagged := true } [plannedInbox]
        inboxWorld).drop 6) = some ("INBOX",planned.uidvalidity) := by
  obtain ⟨planned,hplanned,hfolder,huid,-,-,hchecked⟩ := execute_destructive_preceded (serverAt 9)
    { excludeFlagged := true } [plannedInbox] storedInbox [] none
    [("eml/work/unknown/e3b0.eml",[])] 0 (.move "INBOX" 12) "INBOX" 12
    ((executeLog (serverAt 9) { excludeFlagged := true } [plannedInbox] inboxWorld).take 5)
    ((executeLog (serverAt 9) { excludeFlagged := true } [plannedInbox] inboxWorld).drop 6)
    (by decide +kernel) rfl
  exact ⟨planned,hplanned,hfolder,huid,hchecked.mpr rfl⟩

end MailDock
