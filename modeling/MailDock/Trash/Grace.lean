import MailDock.Domain.Calendar
import MailDock.Pst.StageB
import MailDock.Pst.Rules
import MailDock.Pst.Trash

/-!
# The grace period of the trash

Which trashed messages `list_purge_candidates` returns, after any sequence of the operations that
change `local_state` and `trashed_at`.  Beside the database a run keeps the instant at which each
message entered the trash; what the query compares is the text in `trashed_at`.

## Main definitions

- `listPurgeCandidates` — the query, with its cutoff
- `TrashAct` — one transaction that changes the state of messages
- `GraceRun` — the databases, with the instants at which messages entered the trash
- `GraceHonoured` — no candidate is early and none is missing

## Main results

- `graceHonoured_of_run` — when every act keeps the time of entry
-/

namespace MailDock

open Relational

/-- An instant that a `datetime` can name. -/
structure Instant where
  time : DateTime
  microsecond : Nat
  wellFormed : time.WellFormed
  below : microsecond < 10 ^ 6

namespace Instant

def micros (i : Instant) : Nat := i.time.micros i.microsecond

/-- `_timestamp`. -/
def timestamp (i : Instant) : String := i.time.isoformat i.microsecond

/-- `strftime('%Y-%m-%dT%H:%M:%SZ', 'now')`. -/
def strftime (i : Instant) : String := toUtcIso8601 i.time

end Instant

/-! ## The query -/

/-- `ORDER BY trashed_at, id`; SQLite puts `NULL` first. -/
def Message.trashedBefore (a b : Message) : Bool :=
  match a.trashedAt,b.trashedAt with
  | none,none => a.id ≤ b.id
  | none,some _ => true
  | some _,none => false
  | some x,some y => x < y || (x == y && a.id ≤ b.id)

/-- `list_trashed`: each message with its membership in the first folder, if it has any. -/
def Tables.listTrashed (t : Tables) (accountId olderThan : Option String) :
    List (Message × Option Membership) :=
  ((t.messages.filter fun m => m.localState == .trashed && accountId.all (· == m.accountId) &&
      olderThan.all fun older => m.trashedAt.any fun text => decide (text < older)).insertionSort
    fun a b => a.trashedBefore b = true).map fun m => (m,(t.membershipsOf m.id).head?)

/-- `list_purge_candidates`; a cutoff before the first year cannot be named. -/
def listPurgeCandidates (t : Tables) (now : Instant) (graceDays : Nat) :
    Except Error (List (Message × Option Membership)) :=
  if now.time.toOrdinal ≤ graceDays then .error ⟨.value,"date value out of range"⟩
  else .ok (t.listTrashed none
    (some ((now.time.minusDays graceDays).isoformat now.microsecond)))

/-! ## Acts -/

namespace PstRepository

/-- `move_to_trash`, for one message. -/
def moveToTrash (now : Instant) (messageId : Nat) (repo : PstRepository) :
    Except Error PstRepository :=
  match repo.tables.mail.getMessage messageId with
  | none => .ok repo
  | some (message,_) =>
    match message.localState with
    | .active => onMail "set local message state"
        (Tables.setLocalState messageId .trashed (some now.timestamp)) repo
    | _ => .ok repo

/-- `restore_from_trash`, for one message. -/
def restoreFromTrash (messageId : Nat) (repo : PstRepository) : Except Error PstRepository :=
  match repo.tables.mail.getMessage messageId with
  | none => .ok repo
  | some (message,_) =>
    if message.localState = .trashed then
      onMail "set local message state" (Tables.setLocalState messageId .active none) repo
    else .ok repo

/-- The batch of `_finish_purge_database`, but for its audit. -/
def finishPurge (messageId : Nat) (repo : PstRepository) : Except Error PstRepository := do
  let repo ← onMail "delete message contents" (Tables.deleteMessageContents messageId) repo
  let repo ← onMail "update message storage" (Tables.updateMessageStorage messageId none none) repo
  onMail "set local message state" (Tables.setLocalState messageId .purged none) repo

/-- `merge_duplicate_message`, with the items of imports. -/
def mergeDuplicateMessage (accountId : String) (canonicalId duplicateId : Nat)
    (repo : PstRepository) : Except Error PstRepository := do
  let mail ← repo.mail.mergeDuplicateMessage accountId canonicalId duplicateId
  exec "merge duplicate message"
    { repo.tables with
      mail := mail.tables
      items := update (fun i => i.messageRowId == some duplicateId)
        (fun i => { i with messageRowId := some canonicalId }) repo.tables.items }

end PstRepository

/-- A transaction that may change the state of messages. -/
inductive TrashAct
  | moveToTrash (messageId : Nat)
  | restoreFromTrash (messageId : Nat)
  | purge (messageId : Nat)
  | merge (accountId : String) (canonicalId duplicateId : Nat)
  | activateGeneration (importId replacesId : Nat)
  | restoreGeneration (importId : Nat)
  | rollbackGenerationSwitch (importId replacesId : Nat)
  /-- One item of `reindex_pst`. -/
  | rebuild (record : MessageRecord) (contents : Option MessageContents)

def TrashAct.apply (now : Instant) : TrashAct → PstRepository → Except Error PstRepository
  | moveToTrash messageId,repo => repo.moveToTrash now messageId
  | restoreFromTrash messageId,repo => repo.restoreFromTrash messageId
  | purge messageId,repo => repo.finishPurge messageId
  | merge accountId canonicalId duplicateId,repo =>
    repo.mergeDuplicateMessage accountId canonicalId duplicateId
  | activateGeneration importId replacesId,repo =>
    repo.activateGeneration now.strftime importId replacesId
  | restoreGeneration importId,repo => repo.restoreGeneration now.strftime importId
  | rollbackGenerationSwitch importId replacesId,repo =>
    repo.rollbackGenerationSwitch now.strftime importId replacesId
  | rebuild record contents,repo => (repo.addMessage record contents).map Prod.snd

/-- The message is in the trash. -/
def PstRepository.trashed (repo : PstRepository) (id : Nat) : Bool :=
  repo.tables.mail.messages.any fun m => m.id == id && m.localState == .trashed

/-- A message that an act puts into the trash entered it then. -/
def enteredAfter (now : Instant) (before after : PstRepository) (entered : Nat → Option Instant)
    (id : Nat) : Option Instant :=
  if after.trashed id then (if before.trashed id then entered id else some now) else none

/-- The databases that allowed acts lead to, with the instants of entry. -/
inductive GraceRun (allowed : TrashAct → PstRepository → Prop) :
    PstRepository → (Nat → Option Instant) → Prop
  | start (repo : PstRepository) (h : ∀ m ∈ repo.tables.mail.messages, m.localState ≠ .trashed) :
      GraceRun allowed repo fun _ => none
  | step {repo repo' : PstRepository} {entered : Nat → Option Instant} (now : Instant)
      (act : TrashAct) (hrun : GraceRun allowed repo entered) (hallowed : allowed act repo)
      (hact : act.apply now repo = .ok repo') :
      GraceRun allowed repo' (enteredAfter now repo repo' entered)

/-- The grace period in microseconds. -/
def gracePeriod (graceDays : Nat) : Nat := graceDays * 86400 * 10 ^ 6

/-- A candidate has been in the trash for the grace period, and a trashed message that has been
there a second longer is a candidate. -/
structure GraceHonoured (repo : PstRepository) (entered : Nat → Option Instant) : Prop where
  notEarly : ∀ now graceDays candidates,
    listPurgeCandidates repo.tables.mail now graceDays = .ok candidates →
    ∀ r ∈ candidates, ∃ e, entered r.1.id = some e ∧
      e.micros + gracePeriod graceDays ≤ now.micros
  notMissing : ∀ now graceDays, ∀ m ∈ repo.tables.mail.messages, m.localState = .trashed →
    ∀ e, entered m.id = some e → e.micros + gracePeriod graceDays + 10 ^ 6 ≤ now.micros →
    ∃ candidates, listPurgeCandidates repo.tables.mail now graceDays = .ok candidates ∧
      ∃ r ∈ candidates, r.1 = m

/-- The generation whose messages an act moves to the trash. -/
def TrashAct.retires (repo : PstRepository) : TrashAct → Option Nat
  | activateGeneration _ replacesId => some replacesId
  | restoreGeneration importId => (repo.tables.newestActive importId).map PstImport.id
  | rollbackGenerationSwitch importId _ =>
    (repo.tables.findImport importId).bind fun i => if i.isActive then some importId else none
  | _ => none

/-- The act gives no message in the trash a new time, and none that enters it an old one: a switch
retires no message that is in the trash already, a merge does not turn a purged message into a
trashed one, and a rebuild trashes no message that is not in the trash. -/
def TrashAct.keepsTime (act : TrashAct) (repo : PstRepository) : Prop :=
  (∀ id ∈ act.retires repo, ∀ m ∈ repo.tables.mail.messages, repo.tables.holds id m = true →
    m.localState ≠ .trashed) ∧
  match act with
  | merge _ canonicalId duplicateId => ∀ c ∈ repo.tables.mail.messages,
      ∀ d ∈ repo.tables.mail.messages, c.id = canonicalId → d.id = duplicateId →
      ¬ (c.localState = .purged ∧ d.localState = .trashed)
  | rebuild record _ => record.localState = .trashed → ∃ m ∈ repo.tables.mail.messages,
      m.hasKey record.accountId record.sourceItemKey = true ∧ m.localState = .trashed
  | _ => True

/-! ## What one act does -/

/-- Each message in the trash was there before with the same time, or was not and has the time of
the act. -/
def Timely (now : Instant) (before after : PstRepository) : Prop :=
  ∀ m' ∈ after.tables.mail.messages, m'.localState = .trashed →
    (∃ m ∈ before.tables.mail.messages, m.id = m'.id ∧ m.localState = .trashed ∧
      m.trashedAt = m'.trashedAt) ∨
    ((∀ m ∈ before.tables.mail.messages, m.id = m'.id → m.localState ≠ .trashed) ∧
      (m'.trashedAt = some now.timestamp ∨ m'.trashedAt = some now.strftime))

section
variable {now : Instant} {repo repo' : PstRepository}

theorem Timely.of_mem (h : ∀ m' ∈ repo'.tables.mail.messages, m'.localState = .trashed →
    ∃ m ∈ repo.tables.mail.messages, m.id = m'.id ∧ m.localState = .trashed ∧
      m.trashedAt = m'.trashedAt) : Timely now repo repo' :=
  fun m' hm' htrashed => Or.inl (h m' hm' htrashed)

theorem Timely.refl : Timely now repo repo :=
  Timely.of_mem fun m' hm' htrashed => ⟨m',hm',rfl,htrashed,rfl⟩

theorem PstRepository.message_eq {m n : Message} (hm : m ∈ repo.tables.mail.messages)
    (hn : n ∈ repo.tables.mail.messages) (hid : m.id = n.id) : m = n :=
  repo.valid.mail.message_eq hm hn hid

theorem getMessage_eq_some {id : Nat} {r : Message × Option Membership} {t : Tables}
    (h : t.getMessage id = some r) : r.1 ∈ t.messages ∧ r.1.id = id := by
  obtain ⟨m,hm,rfl⟩ := Option.map_eq_some_iff.mp h
  exact ⟨List.mem_of_find?_eq_some hm,by simpa using List.find?_some hm⟩

theorem moveToTrash_timely {messageId : Nat} (h : repo.moveToTrash now messageId = .ok repo') :
    Timely now repo repo' := by
  unfold PstRepository.moveToTrash at h
  split at h
  · cases h
    exact Timely.refl
  · next message membership hget =>
    obtain ⟨hmem,hid⟩ := getMessage_eq_some hget
    split at h
    · next hactive =>
      have htables := PstRepository.exec_eq_ok.mp h
      intro m' hm' htrashed
      rw [htables] at hm'
      rcases mem_update.mp hm' with ⟨hm,-⟩ | ⟨m,hm,hp,rfl⟩
      · exact Or.inl ⟨m',hm,rfl,htrashed,rfl⟩
      · -- the message was active
        refine Or.inr ⟨?_,Or.inl rfl⟩
        intro n hn hnid
        have hpid : m.id = messageId := by simpa using hp
        rw [repo.message_eq hn hmem (hnid.trans (hpid.trans hid.symm)),hactive]
        decide
    · cases h
      exact Timely.refl

/-- A statement that leaves other messages alone and takes its own out of the trash. -/
theorem setLocalState_timely {operation : String} {messageId : Nat} {state : LocalState}
    {trashedAt : Option String} (hstate : state ≠ .trashed)
    (h : PstRepository.onMail operation (Tables.setLocalState messageId state trashedAt) repo =
      .ok repo') : Timely now repo repo' := by
  have htables := PstRepository.exec_eq_ok.mp h
  apply Timely.of_mem
  intro m' hm' htrashed
  rw [htables] at hm'
  rcases mem_update.mp hm' with ⟨hm,-⟩ | ⟨m,hm,-,rfl⟩
  · exact ⟨m',hm,rfl,htrashed,rfl⟩
  · exact absurd htrashed hstate

theorem restoreFromTrash_timely {messageId : Nat}
    (h : repo.restoreFromTrash messageId = .ok repo') : Timely now repo repo' := by
  unfold PstRepository.restoreFromTrash at h
  split at h
  · cases h
    exact Timely.refl
  · split at h
    · exact setLocalState_timely (by decide) h
    · cases h
      exact Timely.refl

theorem finishPurge_timely {messageId : Nat} (h : repo.finishPurge messageId = .ok repo') :
    Timely now repo repo' := by
  simp only [PstRepository.finishPurge,Except.bind_eq_ok_iff] at h
  obtain ⟨emptied,hemptied,unstored,hunstored,hpurged⟩ := h
  have hsame : ∀ m ∈ unstored.tables.mail.messages, ∃ n ∈ repo.tables.mail.messages,
      n.id = m.id ∧ n.localState = m.localState ∧ n.trashedAt = m.trashedAt := by
    intro m hm
    rw [PstRepository.exec_eq_ok.mp hunstored,PstRepository.exec_eq_ok.mp hemptied] at hm
    rcases mem_update.mp hm with ⟨hm,-⟩ | ⟨n,hn,-,rfl⟩
    · exact ⟨m,hm,rfl,rfl,rfl⟩
    · exact ⟨n,hn,rfl,rfl,rfl⟩
  have hlast : Timely now unstored repo' := setLocalState_timely (by decide) hpurged
  apply Timely.of_mem
  intro m' hm' htrashed
  have hm'' := hm'
  rw [PstRepository.exec_eq_ok.mp hpurged] at hm''
  rcases mem_update.mp hm'' with ⟨hm,-⟩ | ⟨m,-,-,rfl⟩
  · obtain ⟨n,hn,hid,hstate,htime⟩ := hsame m' hm
    exact ⟨n,hn,hid,hstate.trans htrashed,htime⟩
  · cases htrashed

/-- The two statements of a switch on messages. -/
theorem exchanged_timely {shown retired : Nat} {onShown onRetired : PstImport → PstImport}
    (h : repo'.tables = repo.tables.exchanged now.strftime shown retired onShown onRetired)
    (hretired : ∀ m ∈ repo.tables.mail.messages, repo.tables.holds retired m = true →
      m.localState ≠ .trashed) : Timely now repo repo' := by
  intro m' hm' htrashed
  rw [h] at hm'
  rcases mem_update.mp hm' with ⟨hm,-⟩ | ⟨a,ha,hholds,rfl⟩
  · -- not of the generation that is retired
    rcases mem_update.mp hm with ⟨hm,-⟩ | ⟨b,-,-,rfl⟩
    · exact Or.inl ⟨m',hm,rfl,htrashed,rfl⟩
    · cases htrashed
  · refine Or.inr ⟨?_,Or.inr rfl⟩
    intro n hn hid
    have hnholds : repo.tables.holds retired n = true := by
      have hsame : repo.tables.holds retired a = true := hholds
      unfold PstTables.holds at hsame ⊢
      rw [hid]
      exact hsame
    exact hretired n hn hnholds

/-- A merge writes no `trashed_at`. -/
theorem mergeDuplicateMessage_trashedAt {mail mail' : Repository} {accountId : String} {c d : Nat}
    (h : mail.mergeDuplicateMessage accountId c d = .ok mail') :
    ∀ m' ∈ mail'.tables.messages, ∃ m ∈ mail.tables.messages, m.id = m'.id ∧
      m.trashedAt = m'.trashedAt := by
  let Same := fun r : Repository => ∀ m' ∈ r.tables.messages, ∃ m ∈ mail.tables.messages,
    m.id = m'.id ∧ m.trashedAt = m'.trashedAt
  have hexec : ∀ {operation : String} {r r' : Repository} {t : Tables}, Same r →
      Repository.exec operation t = .ok r' → (∀ m' ∈ t.messages, ∃ m ∈ r.tables.messages,
        m.id = m'.id ∧ m.trashedAt = m'.trashedAt) → Same r' := by
    intro operation r r' t hr hexec hmessages m' hm'
    rw [Repository.exec_eq_ok.mp hexec] at hm'
    obtain ⟨m,hm,hid,htime⟩ := hmessages m' hm'
    obtain ⟨n,hn,hid',htime'⟩ := hr m hm
    exact ⟨n,hn,hid'.trans hid,htime'.trans htime⟩
  have hupdate : ∀ {r : Repository} {p : Message → Bool} {f : Message → Message},
      (∀ m, (f m).id = m.id ∧ (f m).trashedAt = m.trashedAt) →
      ∀ m' ∈ update p f r.tables.messages, ∃ m ∈ r.tables.messages,
        m.id = m'.id ∧ m.trashedAt = m'.trashedAt := by
    intro r p f hf m' hm'
    rcases mem_update.mp hm' with ⟨hm,-⟩ | ⟨m,hm,-,rfl⟩
    · exact ⟨m',hm,rfl,rfl⟩
    · exact ⟨m,hm,(hf m).1.symm,(hf m).2.symm⟩
  have halias : ∀ (t : Tables) (row : Alias),
      (t.insertOrIgnoreAlias row).messages = t.messages := by
    intro t row
    unfold Tables.insertOrIgnoreAlias
    split <;> rfl
  have hkept : ∀ {r : Repository} {t : Tables}, t.messages = r.tables.messages →
      ∀ m' ∈ t.messages, ∃ m ∈ r.tables.messages, m.id = m'.id ∧ m.trashedAt = m'.trashedAt := by
    intro r t ht m' hm'
    exact ⟨m',ht ▸ hm',rfl,rfl⟩
  have hstart : Same mail := fun m' hm' => ⟨m',hm',rfl,rfl⟩
  unfold Repository.mergeDuplicateMessage at h
  split at h
  · cases h
    exact hstart
  · dsimp only at h
    split at h
    · split at h
      · cases h
      · simp only [Except.bind_eq_ok_iff] at h
        obtain ⟨stored,hstored,stated,hstated,contents,hcontents,aliases,haliases,memberships,
          hmemberships,hdeleted⟩ := h
        have h1 : Same stored := by
          unfold Repository.mergeStorage at hstored
          split at hstored
          · exact hexec hstart hstored (hupdate fun _ => ⟨rfl,rfl⟩)
          · cases hstored
            exact hstart
        have h2 : Same stated := by
          simp only [Repository.mergeState] at hstated
          split at hstated
          · exact hexec h1 hstated (hupdate fun _ => ⟨rfl,rfl⟩)
          · cases hstated
            exact h1
        have h3 : Same contents := by
          unfold Repository.mergeContents at hcontents
          split at hcontents
          · exact hexec h2 hcontents (hkept rfl)
          · cases hcontents
            exact h2
        have h4 : Same aliases := by
          simp only [Repository.mergeAliases,Except.bind_eq_ok_iff] at haliases
          obtain ⟨copied,hcopied,linked,hlinked,hcleared⟩ := haliases
          have hc : Same copied := Except.foldlM_invariant (I := Same) _
            (fun r a _ r' hr hr' => hexec hr hr' (hkept (halias _ _))) h3 hcopied
          exact hexec (hexec hc hlinked (hkept (halias _ _))) hcleared (hkept rfl)
        have h5 : Same memberships := by
          refine Except.foldlM_invariant (I := Same) _ (fun r a _ r' hr hr' => ?_) h4 hmemberships
          unfold Repository.mergeMembership at hr'
          split at hr'
          · split at hr'
            · cases hr'
            · exact hexec hr hr' (hkept rfl)
          · exact hexec hr hr' (hkept rfl)
        simp only [Repository.deleteDuplicate,Except.bind_eq_ok_iff] at hdeleted
        obtain ⟨redirected,hredirected,hdeleted⟩ := hdeleted
        refine hexec (hexec h5 hredirected (hkept rfl)) hdeleted ?_
        intro m' hm'
        exact ⟨m',(mem_deleteWhere.mp hm').1,rfl,rfl⟩
    · cases h

theorem trashed_of_mergedLocalState (c d : LocalState)
    (h : Repository.mergedLocalState c d = .trashed) :
    c = .trashed ∨ c = .purged ∧ d = .trashed := by
  revert h
  cases c <;> cases d <;> decide

theorem mergeDuplicateMessage_timely {accountId : String} {canonicalId duplicateId : Nat}
    (h : repo.mergeDuplicateMessage accountId canonicalId duplicateId = .ok repo')
    (hstates : ∀ c ∈ repo.tables.mail.messages, ∀ d ∈ repo.tables.mail.messages,
      c.id = canonicalId → d.id = duplicateId →
        ¬ (c.localState = .purged ∧ d.localState = .trashed)) : Timely now repo repo' := by
  simp only [PstRepository.mergeDuplicateMessage,Except.bind_eq_ok_iff] at h
  obtain ⟨mail,hmail,h⟩ := h
  have htables := PstRepository.exec_eq_ok.mp h
  apply Timely.of_mem
  intro m' hm' htrashed
  rw [htables] at hm'
  by_cases hcd : canonicalId = duplicateId
  · simp only [Repository.mergeDuplicateMessage,if_pos hcd] at hmail
    cases hmail
    exact ⟨m',hm',rfl,htrashed,rfl⟩
  · obtain ⟨c,hc,d,hd,rfl,rfl,-,-,hmerged⟩ := Repository.mergeDuplicateMessage_spec hcd hmail
    by_cases hid : m'.id = c.id
    · -- the canonical row: its state is merged and its time is its own
      obtain ⟨row,hrow,hrowId,-,-,hstate,-⟩ := hmerged.canonical
      obtain rfl := mail.valid.message_eq hm' hrow (hid.trans hrowId.symm)
      obtain ⟨n,hn,hnid,htime⟩ := mergeDuplicateMessage_trashedAt hmail m' hm'
      obtain rfl := repo.message_eq hn hc (hnid.trans hid)
      refine ⟨n,hc,hnid,?_,htime⟩
      have hnot := hstates n hc d hd rfl rfl
      rw [htrashed] at hstate
      exact (trashed_of_mergedLocalState _ _ hstate.symm).resolve_right hnot
    · have hne := hmerged.duplicate m' hm'
      exact ⟨m',(hmerged.messages m' hid hne).mp hm',rfl,htrashed,rfl⟩

theorem setNoRemote_mail (id : Nat) (t : PstTables) : (t.setNoRemote id).mail = t.mail := by
  unfold PstTables.setNoRemote
  split <;> rfl

theorem addMessage_timely {record : MessageRecord} {contents : Option MessageContents} {id : Nat}
    (h : repo.addMessage record contents = .ok (id,repo'))
    (hrecord : record.localState = .trashed → ∃ m ∈ repo.tables.mail.messages,
      m.hasKey record.accountId record.sourceItemKey = true ∧ m.localState = .trashed) :
    Timely now repo repo' := by
  simp only [PstRepository.addMessage,Except.bind_eq_ok_iff] at h
  obtain ⟨⟨messageId,mail⟩,hmail,stored,hstored,hresult⟩ := h
  obtain ⟨rfl,rfl⟩ := Prod.mk.inj (Except.ok.inj hresult)
  have hmessages : stored.tables.mail.messages =
      (repo.tables.mail.upsertMessage record).messages := by
    rw [PstRepository.exec_eq_ok.mp hstored,setNoRemote_mail]
    exact (Repository.addMessage_spec hmail).messages
  apply Timely.of_mem
  intro m' hm' htrashed
  rw [hmessages] at hm'
  rcases (Tables.mem_upsertMessage record m').mp hm' with ⟨hm,-⟩ | ⟨n,hn,hkey,rfl⟩ | ⟨hnone,rfl⟩
  · exact ⟨m',hm,rfl,htrashed,rfl⟩
  · -- the row of the key is in the trash already
    obtain ⟨m,hm,hmkey,hmstate⟩ := hrecord htrashed
    have hfound := repo.valid.mail.findMessage_eq hn hkey
    rw [repo.valid.mail.findMessage_eq hm hmkey] at hfound
    obtain rfl := Option.some.inj hfound
    exact ⟨m,hm,rfl,hmstate,rfl⟩
  · obtain ⟨m,hm,hmkey,-⟩ := hrecord htrashed
    rw [repo.valid.mail.findMessage_eq hm hmkey] at hnone
    cases hnone

/-- An act that keeps the time of entry. -/
theorem TrashAct.apply_timely {act : TrashAct} (hkeeps : act.keepsTime repo)
    (h : act.apply now repo = .ok repo') : Timely now repo repo' := by
  obtain ⟨hretires,hcase⟩ := hkeeps
  cases act with
  | moveToTrash messageId => exact moveToTrash_timely h
  | restoreFromTrash messageId => exact restoreFromTrash_timely h
  | purge messageId => exact finishPurge_timely h
  | merge accountId canonicalId duplicateId => exact mergeDuplicateMessage_timely h hcase
  | activateGeneration importId replacesId =>
    obtain ⟨_,_,-,-,-,htables⟩ := PstRepository.activateGeneration_ok_iff.mp h
    exact exchanged_timely htables (hretires replacesId rfl)
  | restoreGeneration importId =>
    obtain ⟨_,current,-,-,hcurrent,-,htables⟩ := PstRepository.restoreGeneration_ok_iff.mp h
    exact exchanged_timely htables (hretires current.id (by simp [retires,hcurrent]))
  | rollbackGenerationSwitch importId replacesId =>
    obtain ⟨newRow,hnew,_,-,hid,-,-,hcases⟩ :=
      PstRepository.rollbackGenerationSwitch_ok_iff.mp h
    rcases hcases with ⟨hactive,-,htables⟩ | ⟨-,-,rfl⟩
    · have hfound := repo.valid.findImport_of_mem hnew
      rw [hid] at hfound
      exact exchanged_timely htables (hretires importId (by simp [retires,hfound,hactive]))
    · exact Timely.refl
  | rebuild record contents =>
    obtain ⟨⟨id,stored⟩,hadd,rfl⟩ : ∃ r, repo.addMessage record contents = .ok r ∧ r.2 = repo' := by
      simp only [apply] at h
      cases hadd : repo.addMessage record contents with
      | error e =>
        rw [hadd] at h
        cases h
      | ok r =>
        rw [hadd] at h
        exact ⟨r,rfl,Except.ok.inj h⟩
    exact addMessage_timely hadd hcase

end

/-! ## What a run keeps -/

/-- Every message in the trash carries the time at which it entered. -/
def Timed (repo : PstRepository) (entered : Nat → Option Instant) : Prop :=
  ∀ m ∈ repo.tables.mail.messages, m.localState = .trashed → ∃ e, entered m.id = some e ∧
    (m.trashedAt = some e.timestamp ∨ m.trashedAt = some e.strftime)

theorem PstRepository.trashed_eq_true {repo : PstRepository} {id : Nat} :
    repo.trashed id = true ↔
      ∃ m ∈ repo.tables.mail.messages, m.id = id ∧ m.localState = .trashed := by
  simp [trashed]

theorem Timed.step {now : Instant} {repo repo' : PstRepository} {entered : Nat → Option Instant}
    (h : Timed repo entered) (hact : Timely now repo repo') :
    Timed repo' (enteredAfter now repo repo' entered) := by
  intro m' hm' htrashed
  have hafter : repo'.trashed m'.id = true :=
    PstRepository.trashed_eq_true.mpr ⟨m',hm',rfl,htrashed⟩
  rcases hact m' hm' htrashed with ⟨m,hm,hid,hstate,htime⟩ | ⟨hnew,htime⟩
  · -- it was in the trash
    have hbefore : repo.trashed m'.id = true :=
      PstRepository.trashed_eq_true.mpr ⟨m,hm,hid,hstate⟩
    obtain ⟨e,he,hstamp⟩ := h m hm hstate
    refine ⟨e,?_,by rwa [← htime]⟩
    rw [enteredAfter,if_pos hafter,if_pos hbefore,← hid]
    exact he
  · have hbefore : ¬ repo.trashed m'.id = true := by
      intro hb
      obtain ⟨m,hm,hid,hstate⟩ := PstRepository.trashed_eq_true.mp hb
      exact hnew m hm hid hstate
    refine ⟨now,?_,htime⟩
    rw [enteredAfter,if_pos hafter,if_neg hbefore]

theorem GraceRun.timed {repo : PstRepository} {entered : Nat → Option Instant}
    (h : GraceRun TrashAct.keepsTime repo entered) : Timed repo entered := by
  induction h with
  | start repo hactive => exact fun m hm htrashed => absurd htrashed (hactive m hm)
  | step now act hrun hallowed hact ih => exact ih.step (TrashAct.apply_timely hallowed hact)

/-! ## What the query returns -/

theorem mem_listTrashed {t : Tables} {older : String} {r : Message × Option Membership} :
    r ∈ t.listTrashed none (some older) ↔ ∃ m ∈ t.messages, m.localState = .trashed ∧
      (∃ text, m.trashedAt = some text ∧ text < older) ∧
      r = (m,(t.membershipsOf m.id).head?) := by
  simp only [Tables.listTrashed,List.mem_map,List.mem_insertionSort,List.mem_filter,
    Bool.and_eq_true,beq_iff_eq,Option.all_none,Option.all_some,Option.any_eq_true,
    decide_eq_true_eq,and_true]
  constructor
  · rintro ⟨m,⟨hm,hstate,text,htext,hlt⟩,rfl⟩
    exact ⟨m,hm,hstate,⟨text,htext,hlt⟩,rfl⟩
  · rintro ⟨m,hm,hstate,⟨text,htext,hlt⟩,rfl⟩
    exact ⟨m,⟨hm,hstate,text,htext,hlt⟩,rfl⟩

/-- The cutoff of a query. -/
def Instant.minusDays (now : Instant) (graceDays : Nat) (h : graceDays < now.time.toOrdinal) :
    Instant where
  time := now.time.minusDays graceDays
  microsecond := now.microsecond
  wellFormed := DateTime.minusDays_wellFormed now.wellFormed h
  below := now.below

theorem Instant.micros_minusDays (now : Instant) (graceDays : Nat)
    (h : graceDays < now.time.toOrdinal) :
    (now.minusDays graceDays h).micros + gracePeriod graceDays = now.micros := by
  have hseconds := DateTime.toSeconds_minusDays h
  simp only [micros,DateTime.micros,minusDays,gracePeriod]
  omega

/-- A time of entry that lies before the cutoff is written before it. -/
theorem Instant.written_lt {e : Instant} (cutoff : Instant) {text : String}
    (htext : text = e.timestamp ∨ text = e.strftime) :
    (text < cutoff.timestamp → e.micros < cutoff.micros) ∧
      (e.micros + 10 ^ 6 ≤ cutoff.micros → text < cutoff.timestamp) := by
  have he := e.below
  have hc := cutoff.below
  rcases htext with rfl | rfl
  · rw [timestamp,timestamp,DateTime.isoformat_lt e.wellFormed cutoff.wellFormed he hc]
    refine ⟨id,?_⟩
    intro h
    unfold micros at h
    omega
  · rw [strftime,timestamp,DateTime.toUtcIso8601_lt e.wellFormed cutoff.wellFormed]
    unfold micros DateTime.micros
    omega

/-- After any acts that keep the time of entry the grace period is honoured. -/
theorem graceHonoured_of_run {repo : PstRepository} {entered : Nat → Option Instant}
    (h : GraceRun TrashAct.keepsTime repo entered) : GraceHonoured repo entered := by
  have htimed := h.timed
  refine ⟨?_,?_⟩
  · intro now graceDays candidates hcandidates r hr
    unfold listPurgeCandidates at hcandidates
    split at hcandidates
    · cases hcandidates
    · next hordinal =>
      obtain rfl := Except.ok.inj hcandidates
      obtain ⟨m,hm,hstate,⟨text,htext,hlt⟩,rfl⟩ := mem_listTrashed.mp hr
      obtain ⟨e,he,hstamp⟩ := htimed m hm hstate
      have hwritten : text = e.timestamp ∨ text = e.strftime := by
        simpa [htext] using hstamp
      have hcutoff := now.micros_minusDays graceDays (by omega)
      have hbefore := (Instant.written_lt (now.minusDays graceDays (by omega))
        hwritten).1 hlt
      exact ⟨e,he,by omega⟩
  · intro now graceDays m hm hstate e he hlong
    -- an instant that long ago can be named
    have hordinal : graceDays < now.time.toOrdinal := by
      have hpos := DateTime.toOrdinal_pos e.wellFormed
      have hhour := now.wellFormed.hour
      have hminute := now.wellFormed.minute
      have hsecond := now.wellFormed.second
      have hbelow := now.below
      simp only [Instant.micros,DateTime.micros,DateTime.toSeconds,gracePeriod] at hlong
      omega
    refine ⟨_,if_neg (by omega),?_⟩
    obtain ⟨e',he',hstamp⟩ := htimed m hm hstate
    obtain rfl := Option.some.inj (he'.symm.trans he)
    have hcutoff := now.micros_minusDays graceDays hordinal
    have hwritten : ∃ text, m.trashedAt = some text ∧
        (text = e'.timestamp ∨ text = e'.strftime) := by
      rcases hstamp with hstamp | hstamp
      · exact ⟨_,hstamp,Or.inl rfl⟩
      · exact ⟨_,hstamp,Or.inr rfl⟩
    obtain ⟨text,htext,hstamps⟩ := hwritten
    have hbefore := (Instant.written_lt (now.minusDays graceDays hordinal) hstamps).2
      (by omega)
    exact ⟨_,mem_listTrashed.mpr ⟨m,hm,hstate,⟨text,htext,hbefore⟩,rfl⟩,rfl⟩

/-! ## The use cases -/

section
variable {d : PstDisk} {u : String} {env : PstEnv}

/-- The database is one that acts which keep the time of entry lead to. -/
def Reached (d : PstDisk) (u : String) (w : PstWorld) : Prop :=
  ∃ s entered, At d u s w ∧ GraceRun TrashAct.keepsTime s.db entered

theorem wrote_db (s : Spot) (db : PstRepository) : (s.wrote db).db = db := by
  unfold Spot.wrote
  split <;> rfl

/-- A write of the state of one message, as an act. -/
theorem setPstLocalState_reached {s : Spot} {entered : Nat → Option Instant} {messageId : Nat}
    {state : LocalState} {trashedAt : Option String} (now : Instant) (act : TrashAct)
    (hrun : GraceRun TrashAct.keepsTime s.db entered) (hkeeps : act.keepsTime s.db)
    (hact : ∀ db, PstRepository.onMail "set local message state"
      (Tables.setLocalState messageId state trashedAt) s.db = .ok db →
        act.apply now s.db = .ok db) :
    Hoare.Triple (At d u s) (setPstLocalState env messageId state trashedAt)
      (fun _ => Reached d u) fun _ => Reached d u := by
  refine (At.write_rule.weaken_error ?_).strengthen_post ?_
  · exact fun f w h => ⟨s,entered,h.1,hrun⟩
  · intro _ w ⟨db,hw,hdb⟩
    refine ⟨s.wrote db,enteredAfter now s.db db entered,hw,?_⟩
    rw [wrote_db]
    exact hrun.step now act hkeeps (hact db hdb)

/-- `move_to_trash` is a sequence of acts, wherever it stops. -/
theorem trashPst_reached (now : Instant) (ids : List Nat) :
    Hoare.Triple (Reached d u) (trashPst env ids now.timestamp) (fun _ => Reached d u)
      fun _ => Reached d u := by
  refine Hoare.Triple.accumulate (I := fun _ => Reached d u) ids (fun result id _ => ?_) _
  refine Hoare.Triple.choose fun s => Hoare.Triple.choose fun entered =>
    Hoare.Triple.assume fun hrun => ?_
  have hstay : ∀ w, At d u s w → Reached d u w := fun w hw => ⟨s,entered,hw,hrun⟩
  refine (At.query_rule.weaken_error fun f w h => hstay w h.1).seq fun record =>
    Hoare.Triple.assume fun hrecord => ?_
  split
  · exact Hoare.Triple.ret hstay
  · next message membership =>
    split
    · exact Hoare.Triple.ret hstay
    · exact Hoare.Triple.ret hstay
    · next hactive =>
      have hkeeps : (TrashAct.moveToTrash id).keepsTime s.db :=
        ⟨fun n hn => absurd hn (by simp [TrashAct.retires]),trivial⟩
      refine (setPstLocalState_reached now (.moveToTrash id) hrun hkeeps ?_).seq fun _ =>
        Hoare.Triple.ret fun w hw => hw
      intro db hdb
      simp only [TrashAct.apply,PstRepository.moveToTrash,← hrecord,hactive]
      exact hdb

theorem untrashPst_reached (now : Instant) (ids : List Nat) :
    Hoare.Triple (Reached d u) (untrashPst env ids) (fun _ => Reached d u)
      fun _ => Reached d u := by
  refine Hoare.Triple.accumulate (I := fun _ => Reached d u) ids (fun result id _ => ?_) _
  refine Hoare.Triple.choose fun s => Hoare.Triple.choose fun entered =>
    Hoare.Triple.assume fun hrun => ?_
  have hstay : ∀ w, At d u s w → Reached d u w := fun w hw => ⟨s,entered,hw,hrun⟩
  refine (At.query_rule.weaken_error fun f w h => hstay w h.1).seq fun record =>
    Hoare.Triple.assume fun hrecord => ?_
  split
  · exact Hoare.Triple.ret hstay
  · next message membership =>
    split
    · next htrashed =>
      have hkeeps : (TrashAct.restoreFromTrash id).keepsTime s.db :=
        ⟨fun n hn => absurd hn (by simp [TrashAct.retires]),trivial⟩
      refine (setPstLocalState_reached now (.restoreFromTrash id) hrun hkeeps ?_).seq fun _ =>
        Hoare.Triple.ret fun w hw => hw
      intro db hdb
      simp only [TrashAct.apply,PstRepository.restoreFromTrash,← hrecord,if_pos htrashed]
      exact hdb
    · exact Hoare.Triple.ret hstay

end

/-! ## One message and two -/

/-- Noon of a day of June 2024. -/
def june (day : Nat) (h : 1 ≤ day ∧ day ≤ 30) : Instant where
  time := { year := 2024, month := 6, day := day, hour := 12, minute := 0, second := 0 }
  microsecond := 0
  wellFormed :=
    { year := (by decide : 1 ≤ 2024 ∧ 2024 < 10000)
      month := (by decide : 1 ≤ 6 ∧ 6 ≤ 12)
      day := h
      hour := (by decide : 12 < 24)
      minute := (by decide : 0 < 60)
      second := (by decide : 0 < 60) }
  below := by decide

/-- A message of a PST import. -/
def pstMessage (id : Nat) (name : String) (state : LocalState) (trashedAt : Option String) :
    Message where
  id := id
  accountId := "pst_a"
  messageId := none
  contentKey := "sha256:5"
  sourceItemKey := .legacy name
  localState := state
  trashedAt := trashedAt
  relativePath := some name
  fileHash := some "5"
  envelope := {}
  sizeBytes := some 1

def pstMail (messages : List Message) (memberships : List Membership) : PstTables where
  mail :=
    { accounts := [{ id := "pst_a" }]
      folders := [{ id := 1, accountId := "pst_a", rawName := "Inbox", displayName := "Inbox" }]
      messages := messages
      memberships := memberships
      nextFolderId := 2
      nextMessageId := messages.length + 1 }

/-- One active message. -/
def oneActive : PstRepository := ⟨pstMail [pstMessage 1 "1.eml" .active none] [],by decide⟩

def twoItems (first second : LocalState × Option String) : PstTables :=
  pstMail [pstMessage 1 "1.eml" first.1 first.2,pstMessage 2 "2.eml" second.1 second.2] []

/-- Both messages after the first one was trashed, restored and, after the second one, trashed
again. -/
def bothTrashed : PstRepository :=
  ⟨twoItems (.trashed,some "2024-06-05T12:00:00+00:00") (.trashed,some "2024-06-03T12:00:00+00:00"),
    by decide⟩

theorem graceHonoured_bothTrashed : ∃ entered, GraceHonoured bothTrashed entered ∧
    entered 1 = some (june 5 (by decide)) ∧ entered 2 = some (june 3 (by decide)) := by
  have hplain : ∀ id repo, (TrashAct.moveToTrash id).keepsTime repo ∧
      (TrashAct.restoreFromTrash id).keepsTime repo := fun id repo =>
    ⟨⟨fun i hi => absurd hi (by simp [TrashAct.retires]),trivial⟩,
      ⟨fun i hi => absurd hi (by simp [TrashAct.retires]),trivial⟩⟩
  have hstart : GraceRun TrashAct.keepsTime
      ⟨twoItems (.active,none) (.active,none),by decide⟩ _ := .start _ (by decide)
  have htrashed : GraceRun TrashAct.keepsTime
      ⟨twoItems (.trashed,some "2024-06-01T12:00:00+00:00") (.active,none),by decide⟩ _ :=
    .step (june 1 (by decide)) (.moveToTrash 1) hstart (hplain 1 _).1 (by decide)
  have hrestored : GraceRun TrashAct.keepsTime
      ⟨twoItems (.active,none) (.active,none),by decide⟩ _ :=
    .step (june 2 (by decide)) (.restoreFromTrash 1) htrashed (hplain 1 _).2 (by decide)
  have hsecond : GraceRun TrashAct.keepsTime
      ⟨twoItems (.active,none) (.trashed,some "2024-06-03T12:00:00+00:00"),by decide⟩ _ :=
    .step (june 3 (by decide)) (.moveToTrash 2) hrestored (hplain 2 _).1 (by decide)
  have hboth : GraceRun TrashAct.keepsTime bothTrashed _ :=
    .step (june 5 (by decide)) (.moveToTrash 1) hsecond (hplain 1 _).1 (by decide)
  exact ⟨_,graceHonoured_of_run hboth,rfl,rfl⟩

/-- What `reindex_pst` writes for an item of a generation that is not active. -/
def supersededItem : MessageRecord where
  accountId := "pst_a"
  folderId := 1
  contentKey := "sha256:5"
  sourceItemKey := .legacy "2.eml"
  uid := none
  uidvalidity := none
  remoteState := .noRemote
  localState := .trashed
  relativePath := some "2.eml"
  fileHash := some "5"
  sizeBytes := some 1

def supersededRow : PstRepository :=
  ⟨pstMail [pstMessage 1 "1.eml" .active none,pstMessage 2 "2.eml" .trashed none]
    [{ messageId := 2, folderId := 1, uid := none, uidvalidity := none,
       remoteState := .noRemote }],by decide⟩

/-- A message that a rebuild trashes has no time, and is never a candidate. -/
theorem graceHonoured_fails : ¬ ∀ (repo : PstRepository) (entered : Nat → Option Instant),
    GraceRun (fun _ _ => True) repo entered → GraceHonoured repo entered := by
  intro h
  have hact : (TrashAct.rebuild supersededItem none).apply (june 1 (by decide)) oneActive =
      .ok supersededRow := by
    decide
  have hrun : GraceRun (fun _ _ => True) supersededRow _ :=
    GraceRun.step (june 1 (by decide)) _ (GraceRun.start oneActive (by decide)) trivial hact
  obtain ⟨candidates,hlist,r,hr,-⟩ := (h _ _ hrun).notMissing (june 3 (by decide)) 1
    (pstMessage 2 "2.eml" .trashed none) (by decide) rfl (june 1 (by decide)) rfl
    (by decide)
  have hnone : listPurgeCandidates supersededRow.tables.mail (june 3 (by decide)) 1 = .ok [] := by
    decide
  rw [hnone] at hlist
  obtain rfl := Except.ok.inj hlist
  cases hr

end MailDock
