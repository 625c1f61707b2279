import MailDock.Manifest.Events

/-!
# Intents and completions

A destructive operation is announced by an intent event and answered by a
completion event with the same operation key.  `read_incomplete_intents` collects
the keys of all completions of the manifest first and reports the intents whose
key is not among them; so an intent that repeats an operation completed earlier is
never reported.

## Main definitions

- `OperationKey` — what an intent and its completion have in common
- `readIncompleteIntents` — the intents without a completion anywhere
- `unanswered` — the intents without a completion after them
-/

namespace MailDock

/-- `_operation_key`. -/
inductive OperationKey
  | purge (accountId : String) (sourceItemKey : SourceItemKey) (relativePath fileHash : String)
  | remoteDelete (accountId folderRawName : String) (uid uidvalidity : Nat)
      (mode : RemoteDeleteMode)
deriving DecidableEq, Repr

def PurgeEvent.operationKey (e : PurgeEvent) : OperationKey :=
  .purge e.accountId e.sourceItemKey e.relativePath e.fileHash

def RemoteDeleteEvent.operationKey (e : RemoteDeleteEvent) : OperationKey :=
  .remoteDelete e.accountId e.folderRawName e.uid e.uidvalidity e.mode

namespace ManifestEvent

/-- The key of a `purge_intent` or a `remote_delete_intent`. -/
def intentKey : ManifestEvent → Option OperationKey
  | .purgeIntent e => some e.operationKey
  | .remoteDelete e => if e.stage = .intent then some e.operationKey else none
  | _ => none

/-- The key of a `purged` or a `remote_delete_completed`. -/
def completionKey : ManifestEvent → Option OperationKey
  | .purged e => some e.operationKey
  | .remoteDelete e => if e.stage = .completed then some e.operationKey else none
  | _ => none

end ManifestEvent

def completedKeys (events : List ManifestEvent) : List OperationKey :=
  events.filterMap ManifestEvent.completionKey

def readIncompleteIntents (events : List ManifestEvent) : List ManifestEvent :=
  events.filter fun e => match e.intentKey with
    | some key => !(completedKeys events).contains key
    | none => false

/-- The intents that no later event completes. -/
def unanswered : List ManifestEvent → List ManifestEvent
  | [] => []
  | e :: after => match e.intentKey with
    | some key => if key ∈ completedKeys after then unanswered after else e :: unanswered after
    | none => unanswered after

section
variable {events : List ManifestEvent} {e : ManifestEvent} {key : OperationKey}

theorem completedKeys_append (before after : List ManifestEvent) :
    completedKeys (before ++ after) = completedKeys before ++ completedKeys after :=
  List.filterMap_append ..

/-- An intent completes nothing. -/
theorem completionKey_of_intent (h : e.intentKey = some key) : e.completionKey = none := by
  cases e with
  | remoteDelete d =>
    simp only [ManifestEvent.intentKey,Option.ite_none_right_eq_some] at h
    simp [ManifestEvent.completionKey,h.1]
  | purgeIntent p => rfl
  | _ => cases h

theorem completedKeys_cons_intent (h : e.intentKey = some key) (after : List ManifestEvent) :
    completedKeys (e :: after) = completedKeys after := by
  rw [completedKeys,List.filterMap_cons_none (completionKey_of_intent h),completedKeys]

theorem mem_readIncompleteIntents : e ∈ readIncompleteIntents events ↔
    e ∈ events ∧ ∃ key, e.intentKey = some key ∧ key ∉ completedKeys events := by
  rw [readIncompleteIntents,List.mem_filter]
  cases e.intentKey with
  | none => simp
  | some key => simp

theorem mem_unanswered_of_split {before after : List ManifestEvent}
    (hkey : e.intentKey = some key) (hafter : key ∉ completedKeys after) :
    e ∈ unanswered (before ++ e :: after) := by
  induction before with
  | nil => simp [unanswered,hkey,hafter]
  | cons x before ih =>
    rw [List.cons_append,unanswered]
    split
    · split
      · exact ih
      · exact List.mem_cons_of_mem _ ih
    · exact ih

end

/-- Some unanswered intent repeats an operation that was completed before it. -/
def RepeatsCompleted (events : List ManifestEvent) : Prop :=
  ∃ before e after key, events = before ++ e :: after ∧ e.intentKey = some key ∧
    key ∈ completedKeys before ∧ key ∉ completedKeys after

/-- The intents of a part of the log, judged by the completions of the whole log. -/
theorem filter_eq_unanswered (before after : List ManifestEvent)
    (h : ¬ RepeatsCompleted (before ++ after)) :
    (after.filter fun e => match e.intentKey with
      | some key => !(completedKeys (before ++ after)).contains key
      | none => false) = unanswered after := by
  induction after generalizing before with
  | nil => rfl
  | cons e after ih =>
    have hsplit : before ++ e :: after = (before ++ [e]) ++ after := by simp
    have hrest := ih (before ++ [e]) (hsplit ▸ h)
    rw [← hsplit] at hrest
    rw [List.filter_cons,unanswered,hrest]
    cases hkey : e.intentKey with
    | none => rfl
    | some key =>
      by_cases hafter : key ∈ completedKeys after
      · have hall : key ∈ completedKeys (before ++ e :: after) := by
          rw [completedKeys_append,completedKeys_cons_intent hkey]
          exact List.mem_append_right _ hafter
        simp [hafter,hall]
      · -- a completion before the intent would make it a repetition
        have hall : key ∉ completedKeys (before ++ e :: after) := by
          rw [completedKeys_append,completedKeys_cons_intent hkey,List.mem_append]
          rintro (hbefore | hin)
          · exact h ⟨before,e,after,key,rfl,hkey,hbefore,hafter⟩
          · exact hafter hin
        simp [hafter,hall]

/-- `read_incomplete_intents` yields exactly the unanswered intents, in order, if and only
if no unanswered intent repeats an operation that was completed before it. -/
theorem readIncompleteIntents_eq_unanswered_iff (events : List ManifestEvent) :
    readIncompleteIntents events = unanswered events ↔ ¬ RepeatsCompleted events := by
  constructor
  · rintro heq ⟨before,e,after,key,rfl,hkey,hbefore,hafter⟩
    have hmem : e ∈ readIncompleteIntents (before ++ e :: after) :=
      heq ▸ mem_unanswered_of_split hkey hafter
    obtain ⟨-,key',hkey',hnot⟩ := mem_readIncompleteIntents.mp hmem
    rw [hkey] at hkey'
    cases hkey'
    rw [completedKeys_append,List.mem_append] at hnot
    exact hnot (.inl hbefore)
  · intro h
    exact filter_eq_unanswered [] events h

/-- Purged, fetched again and purged again; the second purge stopped after its intent. -/
def purgedTwice : List ManifestEvent :=
  let purge : PurgeEvent :=
    { accountId := "work", sourceItemKey := .imap "INBOX" 9 12,
      relativePath := "eml/work/2024/01/e3b0c44298fc1c149afbf4c8996fb924.eml",
      fileHash := "e3b0c44298fc1c149afbf4c8996fb92427ae41e4649b934ca495991b7852b855",
      timestamp := "2024-01-01T00:00:00+00:00", sharedReferenceCount := 0, physicalDelete := true }
  [.purgeIntent purge,.purged purge,
    .fetch {
      accountId := "work", folderId := 1, folderRawName := "INBOX", uid := 12, uidvalidity := 9,
      sourceItemKey := .imap "INBOX" 9 12, messageId := none, relativePath := purge.relativePath,
      fileHash := purge.fileHash, sizeBytes := 0, internalDate := none,
      timestamp := "2024-01-02T00:00:00+00:00", deduplicated := false },
    .purgeIntent { purge with timestamp := "2024-01-03T00:00:00+00:00" }]

theorem readIncompleteIntents_misses_second_purge :
    readIncompleteIntents purgedTwice ≠ unanswered purgedTwice := by
  decide

end MailDock
