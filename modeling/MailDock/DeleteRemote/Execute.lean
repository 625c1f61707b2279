import MailDock.DeleteRemote.Candidate

/-!
# One planned deletion

From the verified candidate over the intent and the server command to the
committed outcome: every effect meets its guard, and the invariant between two
candidates holds again afterwards.
-/

namespace MailDock

open Hoare Trace

section
variable {start : Tables} {options : DeleteOptions} {items remaining : List DeleteCandidate}
  {db : Repository} {env : Env} {planned : DeleteCandidate}

/-- The intent is durable and the command may still be sent. -/
def Issuing (start : Tables) (options : DeleteOptions) (items remaining : List DeleteCandidate)
    (db : Repository) (planned : DeleteCandidate) (w : World) : Prop :=
  Between start options items remaining db w ∧ Prepared start options planned w.log

/-- The folder is selected. -/
def Selected (start : Tables) (options : DeleteOptions) (items remaining : List DeleteCandidate)
    (db : Repository) (planned : DeleteCandidate) (w : World) : Prop :=
  Between start options items remaining db w ∧ Authorised start options planned w.log

theorem Selected.issuing {w : World} (h : Selected start options items remaining db planned w) :
    Issuing start options items remaining db planned w :=
  ⟨h.1,h.2.toPrepared⟩

theorem Issuing.logged {w : World} (h : Issuing start options items remaining db planned w)
    {e : Effect} (he : e.isPlain = true) (hguard : Guard start options items w.log e) :
    Issuing start options items remaining db planned (w.logged e) :=
  ⟨h.1.logged he hguard,h.2.cons (.inl he)⟩

theorem checkedSelection_command {c : ImapCommand} (hc : ∀ f, c ≠ .select f) (log : List Effect) :
    checkedSelection (.command c :: log) = checkedSelection log := by
  cases c with
  | select f => exact absurd rfl (hc f)
  | _ => rfl

/-- Commands on the selected folder: for the candidate itself, or for nothing. -/
theorem imapCommand_selected (hplanned : planned ∈ items) {c : ImapCommand}
    (hc : ∀ f, c ≠ .select f)
    (htarget : c.target = none ∨ c.target = some (planned.folderRawName,planned.uid)) :
    Triple (Selected start options items remaining db planned) (imapCommand env c)
      (fun _ => Selected start options items remaining db planned)
      (fun _ => Issuing start options items remaining db planned) := by
  have hguard : ∀ w, Selected start options items remaining db planned w →
      Guard start options items w.log (.command c) := by
    intro w hw folder uid ht
    rcases htarget with htarget | htarget
    · rw [htarget] at ht
      cases ht
    · rw [htarget] at ht
      cases ht
      exact ⟨planned,hplanned,rfl,rfl,hw.2⟩
  refine imapCommand_rule ?_ ?_
  · intro w hw
    refine ⟨hw.1.logged rfl (hguard w hw),hw.2.toPrepared.cons (.inl rfl),?_⟩
    rw [show (w.ticked.logged (.command c)).log = .command c :: w.log from rfl,
      checkedSelection_command hc]
    exact hw.2.selection
  · exact fun w e hw => hw.issuing.logged rfl (hguard w hw)

theorem selectFolderForDelete_selected :
    Triple (Issuing start options items remaining db planned)
      (selectFolderForDelete env planned.folderRawName
        (if options.excludeFlagged then some planned.uidvalidity else none))
      (fun _ => Selected start options items remaining db planned)
      (fun _ => Issuing start options items remaining db planned) := by
  have hselect : ∀ w, Issuing start options items remaining db planned w →
      Issuing start options items remaining db planned
        (w.ticked.logged (.command (.select planned.folderRawName))) :=
    fun w hw => hw.logged rfl (fun folder uid ht => by cases ht)
  refine (imapCommand_rule (Q := fun _ => Issuing start options items remaining db planned)
    hselect fun w _ hw => hselect w hw).seq fun t => ?_
  by_cases hflag : options.excludeFlagged = true
  · rw [if_pos hflag]
    dsimp only
    split
    · refine emit_rule fun w hw => ?_
      refine ⟨⟨hw.1.1.matched hflag _ _,hw.1.2⟩,hw.2.cons (.inr ⟨_,_,rfl⟩),?_⟩
      exact iff_of_true rfl hflag
    · exact Triple.raise fun _ hw => hw
  · rw [if_neg hflag]
    refine Triple.ret fun w hw => ⟨hw.1,hw.2,?_⟩
    -- without an expected UIDVALIDITY nothing is ever compared
    rw [checkedSelection_of_unmatched (hw.1.1.unmatched (by simpa using hflag))]
    exact iff_of_false (by simp) hflag

theorem expungeSelectedUid_selected (hplanned : planned ∈ items) :
    Triple (Selected start options items remaining db planned)
      (expungeSelectedUid env planned.folderRawName planned.uid)
      (fun _ => Selected start options items remaining db planned)
      (fun _ => Issuing start options items remaining db planned) := by
  unfold expungeSelectedUid
  split
  · exact (imapCommand_selected hplanned (by simp) (by exact .inr rfl)).seq fun _ =>
      (imapCommand_selected hplanned (by simp) (by exact .inr rfl)).seq fun _ =>
        Triple.ret fun _ hw => hw
  · exact Triple.raise fun _ hw => hw.issuing

theorem findTrashFolder_selected (hplanned : planned ∈ items) :
    Triple (Selected start options items remaining db planned) (findTrashFolder env)
      (fun _ => Selected start options items remaining db planned)
      (fun _ => Issuing start options items remaining db planned) :=
  (imapCommand_selected hplanned (by simp) (by exact .inl rfl)).seq fun _ =>
    Triple.ret fun _ hw => hw

theorem moveRemoteMessageToTrash_issuing (hplanned : planned ∈ items) :
    Triple (Issuing start options items remaining db planned)
      (moveRemoteMessageToTrash env planned.folderRawName planned.uid
        (if options.excludeFlagged then some planned.uidvalidity else none))
      (fun _ => Issuing start options items remaining db planned)
      (fun _ => Issuing start options items remaining db planned) := by
  refine selectFolderForDelete_selected.seq fun _ =>
    (findTrashFolder_selected hplanned).seq fun trash => ?_
  split
  · exact Triple.raise fun _ hw => hw.issuing
  · split
    · exact (imapCommand_selected hplanned (by simp) (by exact .inr rfl)).seq fun t =>
        Triple.ret fun _ hw => hw.issuing
    · split
      · exact (imapCommand_selected hplanned (by simp) (by exact .inr rfl)).seq fun t =>
          (expungeSelectedUid_selected hplanned).seq fun _ => Triple.ret fun _ hw => hw.issuing
      · exact Triple.raise fun _ hw => hw.issuing

theorem expungeRemoteMessage_issuing (hplanned : planned ∈ items) :
    Triple (Issuing start options items remaining db planned)
      (expungeRemoteMessage env planned.folderRawName planned.uid
        (if options.excludeFlagged then some planned.uidvalidity else none))
      (fun _ => Issuing start options items remaining db planned)
      (fun _ => Issuing start options items remaining db planned) := by
  unfold expungeRemoteMessage
  split
  · exact Triple.raise fun _ hw => hw
  · exact selectFolderForDelete_selected.seq fun _ =>
      (expungeSelectedUid_selected hplanned).strengthen_post fun _ _ hw => hw.issuing

theorem removeRemoteMembership_issuing (hplanned : planned ∈ items) :
    Triple (Issuing start options items remaining db planned)
      (removeRemoteMembership env planned.folderRawName planned.uid
        (if options.excludeFlagged then some planned.uidvalidity else none))
      (fun _ => Issuing start options items remaining db planned)
      (fun _ => Issuing start options items remaining db planned) := by
  unfold removeRemoteMembership
  split
  · exact selectFolderForDelete_selected.seq fun _ =>
      (imapCommand_selected hplanned (by simp) (by exact .inr rfl)).seq fun _ =>
        Triple.ret fun _ hw => hw.issuing
  · exact Triple.raise fun _ hw => hw

theorem issueDelete_issuing (hplanned : planned ∈ items) :
    Triple (Issuing start options items remaining db planned) (issueDelete env options planned)
      (fun _ => Issuing start options items remaining db planned)
      (fun _ => Issuing start options items remaining db planned) := by
  unfold issueDelete
  dsimp only
  split
  · exact moveRemoteMessageToTrash_issuing hplanned
  · exact (expungeRemoteMessage_issuing hplanned).seq fun _ => Triple.ret fun _ hw => hw
  · exact (removeRemoteMembership_issuing hplanned).seq fun _ => Triple.ret fun _ hw => hw

/-! The durable outcome. -/

/-- A remote delete event for a label removal is refused. -/
theorem appendEvent_remoteDelete_mode {last r : Option Nat} {e : RemoteDeleteEvent}
    (h : appendEvent last (.remoteDelete e) = .ok r) : e.mode ≠ .removeMembership := by
  simp only [appendEvent,validateEvent,Except.bind_eq_ok_iff] at h
  obtain ⟨_,⟨_,_,_,_,hmode⟩,_⟩ := h
  split at hmode
  · cases hmode
  · next hne => exact hne

theorem Between.append {e : ManifestEvent} :
    Triple (Between start options items remaining db) (appendManifest env e)
      (fun _ w => Between start options items remaining db w ∧ e ∈ appendedEvents w.log)
      (Guarded start options items) := by
  refine appendManifest_rule ?_ ?_
  · intro w last hw _
    exact ⟨⟨hw.1.cons (e := .append e) rfl trivial,hw.2⟩,List.mem_cons_self⟩
  · exact fun w err hw _ => hw.guarded err

/-- Another event after it leaves an appended event in place. -/
theorem Between.append_after {e e' : ManifestEvent} :
    Triple (fun w => Between start options items remaining db w ∧ e ∈ appendedEvents w.log)
      (appendManifest env e')
      (fun _ w => Between start options items remaining db w ∧ e ∈ appendedEvents w.log)
      (Guarded start options items) := by
  refine appendManifest_rule ?_ ?_
  · intro w last hw _
    exact ⟨⟨hw.1.1.cons (e := .append e') rfl trivial,hw.1.2⟩,List.mem_cons_of_mem _ hw.2⟩
  · exact fun w err hw _ => hw.1.guarded err

theorem Between.flush {e : ManifestEvent} :
    Triple (fun w => Between start options items remaining db w ∧ e ∈ appendedEvents w.log)
      (flushAndSync env)
      (fun _ w => Between start options items remaining db w ∧ e ∈ flushedEvents w.log)
      (Guarded start options items) := by
  refine flushAndSync_rule ?_ ?_
  · exact fun w hw => ⟨hw.1.logged rfl trivial,hw.2⟩
  · exact fun w err hw _ => hw.1.guarded err

/-! The batch that records a completed deletion. -/

/-- Inside the batch: the completion event is durable and only the server UID `k`
has been settled since the batch was opened on `db`. -/
structure Committing (start : Tables) (options : DeleteOptions)
    (items remaining : List DeleteCandidate) (db : Repository) (event : ManifestEvent)
    (k : ServerUid) (w : World) : Prop where
  inv : DeleteInv start options items remaining db false w.log
  opened : w.inBatch = true
  durable : event ∈ flushedEvents w.log
  settled : SettledAt k db.tables w.db.tables

variable {event : ManifestEvent} {k : ServerUid}

theorem Committing.write {op : WriteOp} {R S : Repository → Prop}
    (h : ∀ db₁ db₂, R db₁ → op.apply db₁ = .ok db₂ →
      SettledAt k db₁.tables db₂.tables ∧ S db₂) :
    Triple (fun w => Committing start options items remaining db event k w ∧ R w.db)
      (writeRepo env op)
      (fun _ w => Committing start options items remaining db event k w ∧ S w.db)
      (Guarded start options items) := by
  refine writeRepo_rule ?_ ?_
  · rintro w db' ⟨hw,hR⟩ happly
    have hwritten : w.ticked.written op db' =
        { w.ticked with db := db', log := .write op :: w.log } := if_pos hw.opened
    obtain ⟨hsettled,hS⟩ := h w.db db' hR happly
    rw [hwritten]
    exact ⟨⟨hw.inv.cons rfl trivial,hw.opened,mem_flushedEvents_cons _ hw.durable,
      hw.settled.trans hsettled⟩,hS⟩
  · exact fun w e hw _ => hw.1.inv.guarded

theorem Committing.commit {candidate : DeleteCandidate} {message : Message} {r : Membership}
    (hcandidate : CandidateOf db.tables candidate message r) {mode : RemoteDeleteMode}
    {timestamp : String} :
    Triple (Committing start options items remaining db
        (remoteDeleteEvent .completed candidate mode timestamp) (candidate.serverUid r))
      (commitBatch env) (fun _ w => ∃ db', Between start options items remaining db' w)
      (Guarded start options items) := by
  refine commitBatch_rule ?_ fun w e hw _ => hw.inv.guarded
  intro w hw
  have haccounted : Accounted start w.db.tables (flushedEvents w.log) :=
    hw.inv.accounted.trans (hw.settled.accounted hcandidate hw.durable) hw.settled.kept
      fun _ h => h
  exact ⟨w.db,⟨⟨haccounted,hw.inv.guarded⟩,rfl,hw.inv.kept.trans hw.settled.kept,haccounted,
    fun hflag f v hmem => hw.inv.unmatched hflag f v ((List.mem_cons.mp hmem).resolve_left
      (by simp)),
    fun hflag c hc => (hw.inv.unflagged hflag c hc).cons (.inl rfl)⟩,rfl⟩

/-- A merge plan made from the database `db`. -/
def PlanFor (db : Repository) (candidate : DeleteCandidate) (message : Message)
    (plan : TrashMergePlan) : Prop :=
  (∃ (name : String) (arrived : MembershipRow), arrived.membership.remoteState = .present ∧
    plan.newMembership = (movedRows
      (db.tables.listMessageMemberships message.accountId message.sourceItemKey)
      candidate.folderId plan.trashFolderId name ++ [arrived]).map
        fun r => r.membership.toRecord) ∧
  ∀ d, plan.duplicateMessageId = some d → message.id ≠ d

variable {candidate : DeleteCandidate} {message : Message} {r : Membership}

theorem buildTrashMergePlan_safe (hcandidate : CandidateOf db.tables candidate message r)
    (trash : String) (moved : RemoteMoveResult) :
    Triple (Between start options items remaining db)
      (buildTrashMergePlan env candidate message trash moved)
      (fun plan w => Between start options items remaining db w ∧
        ∀ p, plan = some p → PlanFor db candidate message p)
      (Guarded start options items) := by
  have hnone : Triple (Between start options items remaining db)
      (pure none : App (Option TrashMergePlan))
      (fun plan w => Between start options items remaining db w ∧
        ∀ p, plan = some p → PlanFor db candidate message p)
      (Guarded start options items) :=
    Triple.ret fun w hw => ⟨hw,fun p h => by cases h⟩
  unfold buildTrashMergePlan
  refine (Triple.ofExcept (Q := fun _ => Between start options items remaining db)
    (fun _ _ _ hw => hw) fun e _ w hw => hw.guarded e).seq fun aliasKey => ?_
  split
  · exact hnone
  · next hkey =>
    refine (Between.query (R := fun _ => True) trivial).seq fun folders =>
      Triple.assume fun _ => ?_
    split
    · exact hnone
    · next trashFolder _ =>
      refine Between.timestamp.seq fun now => ?_
      refine (Between.query (R := fun rows => rows =
        db.tables.listMessageMemberships candidate.accountId message.sourceItemKey) rfl).seq
        fun rows => Triple.assume fun hrows => ?_
      refine (Between.query (R := fun duplicate => duplicate =
        db.tables.findMessageIdBySourceItemKey candidate.accountId aliasKey) rfl).seq
        fun duplicate => Triple.assume fun hduplicate => ?_
      refine Triple.ret fun w hw => ⟨hw,fun p hp => ?_⟩
      cases hp
      refine ⟨⟨trash,arrivedRow message.id trashFolder.id trash moved now,rfl,?_⟩,?_⟩
      · rw [← hcandidate.accountId,← hrows]
      · intro d hd hid
        rw [show duplicate = some d from hd] at hduplicate
        -- a message under the other key is not the canonical one
        obtain ⟨n,hn,hnid⟩ := Option.map_eq_some_iff.mp hduplicate.symm
        obtain ⟨hmem,hnkey⟩ := Tables.findMessage_eq_some hn
        have hnm := db.valid.message_eq hmem hcandidate.message_mem (hnid.trans hid.symm)
        rw [hnm] at hnkey
        exact hkey (Message.hasKey_iff.mp hnkey).2.symm

theorem writeCompletedState_safe (hcandidate : CandidateOf db.tables candidate message r)
    {mode : RemoteDeleteMode} (hmode : mode ≠ .removeMembership) {mergePlan : Option TrashMergePlan}
    (hplan : ∀ p, mergePlan = some p → PlanFor db candidate message p) :
    Triple (fun w => Committing start options items remaining db event (candidate.serverUid r) w ∧
        w.db = db)
      (writeCompletedState env candidate mode message mergePlan)
      (fun _ => Committing start options items remaining db event (candidate.serverUid r))
      (Guarded start options items) := by
  have hk : r.serverUid = some (candidate.serverUid r) := hcandidate.serverUid
  have hid : candidate.messageId = r.messageId := hcandidate.messageId.trans
    hcandidate.row_message.symm
  unfold writeCompletedState
  rw [if_neg hmode,hid,hcandidate.folderId]
  split
  · next plan =>
    obtain ⟨⟨name,arrived,harrived,hnew⟩,hduplicate⟩ := hplan plan rfl
    split
    · next d hd =>
      have hne : r.messageId ≠ d := by
        rw [hcandidate.row_message]
        exact hduplicate d hd
      refine (Committing.write (R := fun db₁ => db₁ = db)
        (S := fun db₁ => r ∈ db₁.tables.memberships) ?_).seq fun _ =>
        (Committing.write (R := fun db₁ => r ∈ db₁.tables.memberships) (S := fun _ => True)
          ?_).strengthen_post fun _ _ hw => hw.1
      · rintro db₁ db₂ rfl happly
        exact ⟨mergeDuplicateMessage_settledAt happly _,
          mem_mergeDuplicateMessage hcandidate.row_mem (by simp [hk]) hne happly⟩
      · exact fun db₁ db₂ hr happly => ⟨updateRemoteState_settledAt hr hk happly,trivial⟩
    · refine (Committing.write (R := fun db₁ => db₁ = db) (S := fun _ => True) ?_).seq fun _ =>
        (Committing.write (R := fun _ => True) (S := fun _ => True) ?_).strengthen_post
          fun _ _ hw => hw.1
      · rintro db₁ db₂ rfl happly
        rw [hcandidate.row_message,hnew] at happly
        exact ⟨replaceMoved_settledAt hcandidate harrived happly,trivial⟩
      · exact fun db₁ db₂ _ happly => ⟨addMessageIdentityAlias_settledAt happly _,trivial⟩
  · refine (Committing.write (R := fun db₁ => db₁ = db) (S := fun _ => True)
      ?_).strengthen_post fun _ _ hw => hw.1
    rintro db₁ db₂ rfl happly
    exact ⟨updateRemoteState_settledAt hcandidate.row_mem hk happly,trivial⟩

theorem commitCompletedState_safe (hcandidate : CandidateOf db.tables candidate message r)
    {mode : RemoteDeleteMode} (hmode : mode ≠ .removeMembership) {mergePlan : Option TrashMergePlan}
    (hplan : ∀ p, mergePlan = some p → PlanFor db candidate message p) {timestamp : String} :
    Triple (fun w => Between start options items remaining db w ∧
        remoteDeleteEvent .completed candidate mode timestamp ∈ flushedEvents w.log)
      (commitCompletedState env candidate mode timestamp message mergePlan)
      (fun _ w => ∃ db', Between start options items remaining db' w)
      (Guarded start options items) := by
  refine (beginBatch_rule (Q := fun _ w => Committing start options items remaining db
    (remoteDeleteEvent .completed candidate mode timestamp) (candidate.serverUid r) w ∧ w.db = db)
    ?_ fun w e hw _ => hw.1.guarded e).seq fun _ =>
    (writeCompletedState_safe hcandidate hmode hplan).seq fun _ => ?_
  · rintro w ⟨hw,hdurable⟩ -
    have hinv := hw.1
    rw [hinv.closed] at hinv
    refine ⟨⟨hinv,rfl,hdurable,?_⟩,hw.2⟩
    rw [show ({ w.ticked with inBatch := true } : World).db = db from hw.2]
    exact .of_frame rfl rfl rfl _
  · refine Triple.seq (Q := fun _ => Committing start options items remaining db
      (remoteDeleteEvent .completed candidate mode timestamp) (candidate.serverUid r)) ?_
      fun _ => Committing.commit hcandidate
    exact (Committing.write (R := fun _ => True) (S := fun _ => True)
      fun db₁ db₂ _ happly => ⟨recordAudit_settledAt happly _,trivial⟩).consequence
      (fun w hw => ⟨hw,trivial⟩) (fun _ _ hw => hw.1) fun _ _ h => h

/-! The use case for one candidate. -/

theorem completeDelete_safe (hcandidate : CandidateOf db.tables candidate message r)
    (hmode : options.mode ≠ .removeMembership) (google : List String) (trash : Option String)
    (moveResult : Option RemoteMoveResult) :
    Triple (Between start options items remaining db)
      (completeDelete env options google trash candidate message moveResult)
      (fun _ w => ∃ db', Between start options items remaining db' w)
      (Guarded start options items) := by
  refine Triple.seq (Q := fun plan w => Between start options items remaining db w ∧
    ∀ p, plan = some p → PlanFor db candidate message p) ?_ fun mergePlan =>
    Triple.assume fun hplan => Between.timestamp.seq fun now => ?_
  · split
    · split
      · exact Triple.ret fun w hw => ⟨hw,fun p h => by cases h⟩
      · exact buildTrashMergePlan_safe hcandidate _ _
    · exact Triple.ret fun w hw => ⟨hw,fun p h => by cases h⟩
  · refine Between.append.seq fun _ => Triple.seq (Q := fun _ w =>
      Between start options items remaining db w ∧
        remoteDeleteEvent .completed candidate options.mode now ∈ appendedEvents w.log) ?_ fun _ =>
      Between.flush.seq fun _ => commitCompletedState_safe hcandidate hmode hplan
    split
    · next hremove => exact absurd hremove hmode
    · exact Between.append_after.seq fun _ => Between.append_after
    · exact Triple.ret fun _ hw => hw

/-- The candidate read back from the database is the planned one. -/
theorem matchesPlan_eq (h : matchesPlan candidate planned = true) :
    candidate.fileHash = planned.fileHash ∧ candidate.relativePath = planned.relativePath ∧
      candidate.uid = planned.uid ∧ candidate.uidvalidity = planned.uidvalidity ∧
      candidate.folderRawName = planned.folderRawName := by
  simpa [matchesPlan,and_assoc] using h

/-- The command depends on the fields that were compared with the plan. -/
theorem issueDelete_eq (h : matchesPlan candidate planned = true) :
    issueDelete env options candidate = issueDelete env options planned := by
  obtain ⟨-,-,huid,hvalidity,hfolder⟩ := matchesPlan_eq h
  unfold issueDelete
  rw [huid,hvalidity,hfolder]

theorem deleteVerified_safe (hitem : planned ∈ items) (hremaining : planned ∈ remaining)
    (hcandidate : CandidateOf db.tables candidate message r)
    (hid : message.id = planned.messageId) (hsame : matchesPlan candidate planned = true)
    (google : List String) (trash : Option String) (result : DeleteResult) :
    Triple (fun w => Between start options items remaining db w ∧
        Effect.verified candidate.relativePath candidate.fileHash ∈ w.log)
      (deleteVerified env options google trash candidate message result)
      (fun _ w => ∃ db', Between start options items remaining db' w)
      (Guarded start options items) := by
  obtain ⟨hhash,hpath,huid,hvalidity,hfolder⟩ := matchesPlan_eq hsame
  unfold deleteVerified
  refine (timestamp_rule (Q := fun _ w => Between start options items remaining db w ∧
    Effect.verified candidate.relativePath candidate.fileHash ∈ w.log) fun _ _ hw => hw).seq
    fun now => ?_
  -- the intent, which is refused for a label removal
  refine (appendManifest_rule (Q := fun _ w => ((Between start options items remaining db w ∧
    Effect.verified candidate.relativePath candidate.fileHash ∈ w.log) ∧
    remoteDeleteEvent .intent candidate options.mode now ∈ appendedEvents w.log) ∧
    options.mode ≠ .removeMembership) ?_ fun w e hw _ => hw.1.guarded e).seq fun _ =>
    Triple.assume fun hmode => ?_
  · rintro w last ⟨hw,hverified⟩ happend
    exact ⟨⟨⟨⟨hw.1.cons (e := .append _) rfl trivial,hw.2⟩,List.mem_cons_of_mem _ hverified⟩,
      List.mem_cons_self⟩,appendEvent_remoteDelete_mode happend⟩
  refine (flushAndSync_rule (Q := fun _ => Issuing start options items remaining db planned) ?_
    fun w e hw _ => hw.1.1.guarded e).seq fun _ => ?_
  · rintro w ⟨⟨hw,hverified⟩,hintent⟩
    refine ⟨hw.logged rfl trivial,?_,?_,?_⟩
    · obtain ⟨m,hm,hmid,haccount⟩ := hw.1.kept.accounts message hcandidate.message_mem
      refine ⟨m,hm,hmid.trans hid,now,?_⟩
      rw [haccount,← hcandidate.accountId,← hfolder,← huid,← hvalidity]
      exact hintent
    · rw [← hpath,← hhash]
      exact List.mem_cons_of_mem _ hverified
    · exact fun hflag => (hw.1.unflagged hflag planned hremaining).cons (.inl rfl)
  have hskip : ∀ result' : DeleteResult, Triple
      (fun w => Issuing start options items remaining db planned w) (pure result' : App DeleteResult)
      (fun _ w => ∃ db', Between start options items remaining db' w)
      (Guarded start options items) := fun result' => Triple.ret fun w hw => ⟨db,hw.1⟩
  rw [issueDelete_eq hsame]
  refine (outcome_rule (R := fun _ => Issuing start options items remaining db planned)
    (issueDelete_issuing hitem)).seq fun answer => ?_
  split
  · exact ((completeDelete_safe hcandidate hmode google trash _).weaken_pre fun w hw => hw.1).seq
      fun _ => Triple.ret fun _ hw => hw
  · split
    · exact hskip _
    · split
      · -- the uncertain outcome is recorded and nothing is written to the database
        exact (Between.timestamp.weaken_pre fun w hw => hw.1).seq fun uncertainAt =>
          Between.append.seq fun _ => Between.flush.seq fun _ =>
            Triple.ret fun w hw => ⟨db,hw.1⟩
      · split
        · exact hskip _
        · exact Triple.raise fun w hw => hw.1.guarded _

theorem deletePlanned_safe (hitem : planned ∈ items) (hremaining : planned ∈ remaining)
    (google : List String) (trash : Option String) (result : DeleteResult) :
    Triple (fun w => ∃ db, Between start options items remaining db w)
      (deletePlanned env options google trash result planned)
      (fun _ w => ∃ db', Between start options items remaining db' w)
      (Guarded start options items) := by
  rintro w ⟨db,hw⟩
  revert w
  show Triple (Between start options items remaining db) _ _ _
  have hskip : ∀ reason : String, Triple (Between start options items remaining db)
      (pure (result.skip planned.messageId reason) : App DeleteResult)
      (fun _ w => ∃ db', Between start options items remaining db' w)
      (Guarded start options items) := fun reason => Triple.ret fun w hw => ⟨db,hw⟩
  unfold deletePlanned
  split
  · exact hskip _
  · refine (Between.query (R := fun row => row = db.tables.getMessage planned.messageId) rfl).seq
      fun row => Triple.assume fun hrow => ?_
    split
    · exact hskip _
    · next message first =>
      obtain ⟨m,hfound,hm⟩ := Option.map_eq_some_iff.mp hrow.symm
      cases hm
      have hmessage := List.mem_of_find?_eq_some hfound
      have hid : message.id = planned.messageId := by simpa using List.find?_some hfound
      refine (candidateFromRecord_safe hmessage _ _ _).seq fun verified => ?_
      split
      · next reason => exact (hskip reason).weaken_pre fun w hw => hw.1
      · next candidate =>
        split
        · next hsame =>
          intro w hw
          obtain ⟨⟨r,hcandidate⟩,hverified⟩ := hw.2 candidate rfl
          exact deleteVerified_safe hitem hremaining hcandidate hid hsame google trash result w
            ⟨hw.1,hverified⟩
        · exact (hskip _).weaken_pre fun w hw => hw.1

end

end MailDock
