import MailDock.Lib.Chain
import MailDock.Manifest.Payload
import MailDock.Sync.Folders

/-!
# Replaying a manifest

The first half of `reindex` in `usecases/reindex.py`: the events of one account are gathered in
mappings, each alias is followed to the message it stands for, and what was gathered under an
alias is moved to that message.

## Main definitions

- `replayEvent` — one event
- `resolveIdentityKey` — the end of a chain of identity links
- `canonicalize` — what was gathered, under the keys of the messages

## Main results

- `resolveIdentityKey_follows` — the end of a chain is found, and a cycle is reported
-/

namespace MailDock

open Relational

/-! ## Keys -/

/-- `(account_id, folder_raw_name, uidvalidity, uid)`. -/
abbrev FetchKey := String × String × Nat × Nat

/-- `(account_id, source_item_key, relative_path, file_hash)`. -/
abbrev PurgeKey := String × SourceItemKey × String × String

/-- `_text`: an empty text counts as missing. -/
def presentText (value : String) : Option String := if value = "" then none else some value

/-- `_event_key`. -/
def eventKey (accountId folderRawName : String) (uidvalidity uid : Nat) : Option FetchKey :=
  if accountId = "" ∨ folderRawName = "" then none
  else some (accountId,folderRawName,uidvalidity,uid)

def FetchEvent.eventKey (e : FetchEvent) : Option FetchKey :=
  MailDock.eventKey e.accountId e.folderRawName e.uidvalidity e.uid

def StateEvent.eventKey (e : StateEvent) : Option FetchKey :=
  MailDock.eventKey e.accountId e.folderRawName e.uidvalidity e.uid

def RemoteDeleteEvent.eventKey (e : RemoteDeleteEvent) : Option FetchKey :=
  MailDock.eventKey e.accountId e.folderRawName e.uidvalidity e.uid

/-- `_source_item_key`. -/
def FetchEvent.identityKey (e : FetchEvent) (key : FetchKey) : Except Error SourceItemKey :=
  match e.gmailMsgid with
  | some msgid => .ok (gmailSourceItemKey msgid)
  | none =>
    if e.sourceItemKey.isRemote then .ok e.sourceItemKey
    else imapSourceItemKey key.2.1 key.2.2.1 key.2.2.2

/-- `_purge_key`. -/
def PurgeEvent.purgeKey (e : PurgeEvent) : Option PurgeKey :=
  if e.accountId = "" ∨ e.sourceItemKey = .legacy "" ∨ e.relativePath = "" ∨ e.fileHash = "" then
    none
  else some (e.accountId,e.sourceItemKey,e.relativePath,e.fileHash)

/-! ## Identity links -/

/-- The aliases of each account, with canonical key, evidence and hash of the EML. -/
abbrev IdentityLinks := List ((String × SourceItemKey) × (SourceItemKey × EvidenceKind × String))

/-- The loop of `_resolve_identity_key`; every round adds a key of the links to `seen`, so that one
of them has come twice when the fuel is used up. -/
def resolveLoop (accountId : String) (links : IdentityLinks) (seen : List SourceItemKey)
    (resolved : SourceItemKey) : (fuel : Nat) → Except Error SourceItemKey
  | 0 => .error ⟨.storage,"Manifest identity links contain a cycle"⟩
  | fuel + 1 =>
    match links.lookup (accountId,resolved) with
    | none => .ok resolved
    | some link =>
      if resolved ∈ seen then .error ⟨.storage,"Manifest identity links contain a cycle"⟩
      else resolveLoop accountId links (resolved :: seen) link.1 fuel

/-- `_resolve_identity_key`. -/
def resolveIdentityKey (accountId : String) (sourceItemKey : SourceItemKey) (links : IdentityLinks) :
    Except Error SourceItemKey :=
  resolveLoop accountId links [] sourceItemKey (links.length + 1)

example : resolveIdentityKey "a" (.gmail 1)
    [(("a",.gmail 1),(.gmail 2,.normalized,"h")),(("a",.gmail 2),(.gmail 3,.normalized,"h"))] =
      .ok (.gmail 3) := by decide

example : resolveIdentityKey "a" (.gmail 1)
    [(("a",.gmail 1),(.gmail 2,.normalized,"h")),(("a",.gmail 2),(.gmail 1,.normalized,"h"))] =
      .error ⟨.storage,"Manifest identity links contain a cycle"⟩ := by decide

/-- The link of a key in the account. -/
def nextKey (accountId : String) (links : IdentityLinks) (key : SourceItemKey) :
    Option SourceItemKey :=
  (links.lookup (accountId,key)).map fun link => link.1

/-- A search that ends returns the end, one that meets a key again raises. -/
def searchResult : Option SourceItemKey → Except Error SourceItemKey
  | some resolved => .ok resolved
  | none => .error ⟨.storage,"Manifest identity links contain a cycle"⟩

theorem mem_keys_of_lookup {accountId : String} {links : IdentityLinks} {key : SourceItemKey}
    {link : SourceItemKey × EvidenceKind × String}
    (h : links.lookup (accountId,key) = some link) : key ∈ links.map fun l => l.1.2 := by
  induction links with
  | nil => cases h
  | cons l rest ih =>
    rw [List.lookup_cons] at h
    by_cases hl : (accountId,key) = l.1
    · simp [← hl]
    · rw [beq_eq_false_iff_ne.mpr hl] at h
      exact List.mem_cons_of_mem _ (ih h)

/-- As long as more rounds are left than keys are unseen, the loop goes through the rounds of the
search and stops where the search does. -/
theorem resolveLoop_search (accountId : String) {links : IdentityLinks} (fuel : Nat)
    (seen : List SourceItemKey) (key : SourceItemKey)
    (hfuel : (Chain.unseen (links.map fun l => l.1.2) seen).length < fuel) :
    ∃ r, Chain.Search (nextKey accountId links) seen key r ∧
      resolveLoop accountId links seen key fuel = searchResult r := by
  induction fuel generalizing seen key with
  | zero => omega
  | succ fuel ih =>
    rw [resolveLoop]
    cases hlink : links.lookup (accountId,key) with
    | none => exact ⟨some key,.ended (by rw [nextKey,hlink]; rfl),rfl⟩
    | some link =>
      have hnext : nextKey accountId links key = some link.1 := by rw [nextKey,hlink]; rfl
      by_cases hseen : key ∈ seen
      · exact ⟨none,.met hnext hseen,if_pos hseen⟩
      · have hless := Chain.unseen_lt (mem_keys_of_lookup hlink) hseen
        obtain ⟨r,hsearch,hr⟩ := ih (key :: seen) link.1 (by omega)
        exact ⟨r,.round hnext hseen hsearch,(if_neg hseen).trans hr⟩

/-- For every key the rounds of the loop come to an end: at the one end of the chain of links, or at
a key they have met before, exactly when the chain enters a cycle. -/
theorem resolveIdentityKey_follows (accountId : String) (key : SourceItemKey)
    (links : IdentityLinks) :
    (∃ r, Chain.Search (nextKey accountId links) [] key r ∧
      resolveIdentityKey accountId key links = searchResult r) ∧
    (∀ e, resolveIdentityKey accountId key links = .ok e ↔
      Chain.EndsAt (nextKey accountId links) key e) ∧
    (∀ e e', Chain.EndsAt (nextKey accountId links) key e →
      Chain.EndsAt (nextKey accountId links) key e' → e = e') ∧
    ((∃ error, resolveIdentityKey accountId key links = .error error) ↔
      Chain.Cyclic (nextKey accountId links) key) := by
  have hfuel : (Chain.unseen (links.map fun l => l.1.2) []).length < links.length + 1 := by
    have hle := List.length_filter_le (fun k => k ∉ ([] : List SourceItemKey))
      (links.map fun l => l.1.2)
    rw [List.length_map] at hle
    exact Nat.lt_succ_of_le hle
  obtain ⟨r,hsearch,hr⟩ := resolveLoop_search accountId (links.length + 1) [] key hfuel
  obtain ⟨hend,hcycle⟩ := Chain.endsAt_or_cyclic hsearch
  refine ⟨⟨r,hsearch,hr⟩,fun e => ?_,fun e e' he he' => he.unique he',?_⟩
  · rw [← hend,resolveIdentityKey,hr]
    cases r with
    | none => simp [searchResult]
    | some resolved => simp [searchResult]
  · rw [← hcycle,resolveIdentityKey,hr]
    cases r with
    | none => simp [searchResult]
    | some resolved => simp [searchResult]

/-! ## What is gathered -/

/-- `_MessageState`, whose local state is never set. -/
structure MessageState where
  remoteState : RemoteState
  movedToFolderRawName : Option String := none
deriving DecidableEq, Repr

/-- The mappings that the loop over the events fills. -/
structure Replay where
  accountEvents : List (String × AccountSnapshotEvent) := []
  folderEvents : List ((String × String) × FolderSnapshotEvent) := []
  fetches : List (FetchKey × FetchEvent) := []
  identityLinks : IdentityLinks := []
  membershipSnapshots : List MembershipSnapshotEvent := []
  states : List (FetchKey × MessageState) := []
  purgeEvents : List (PurgeKey × PurgeEvent) := []
  completedPurges : List PurgeKey := []
  auditEvents : List (ManifestEvent × String × Option FetchEvent) := []
deriving DecidableEq, Repr

/-- `_normalize_purge_key`: a key of an older manifest stands for the one fetch it fits. -/
def normalizePurgeKey (purgeKey : PurgeKey) (fetches : List (FetchKey × FetchEvent))
    (links : IdentityLinks) : Except Error PurgeKey :=
  if purgeKey.2.1.isRemote then .ok purgeKey
  else
    match fetches.filter fun f => f.2.accountId == purgeKey.1 && f.2.sourceItemKey == purgeKey.2.1 &&
        f.2.relativePath == purgeKey.2.2.1 && f.2.fileHash == purgeKey.2.2.2 with
    | [f] => do
      let normalized ← f.2.identityKey f.1
      let resolved ← resolveIdentityKey purgeKey.1 normalized links
      .ok (purgeKey.1,resolved,purgeKey.2.2)
    | _ => .ok purgeKey

/-- The first fetch of the message that was purged. -/
def relatedFetch (accountId : String) (purgeKey : PurgeKey) (links : IdentityLinks) :
    List (FetchKey × FetchEvent) → Except Error (Option FetchEvent)
  | [] => .ok none
  | f :: rest =>
    if f.2.accountId = accountId then do
      let key ← f.2.identityKey f.1
      let resolved ← resolveIdentityKey f.2.accountId key links
      if resolved = purgeKey.2.1 ∧ f.2.relativePath = purgeKey.2.2.1 ∧
          f.2.fileHash = purgeKey.2.2.2 then .ok (some f.2)
      else relatedFetch accountId purgeKey links rest
    else relatedFetch accountId purgeKey links rest

namespace Replay

/-- `_state_for_event` on the events of deletion detection. -/
def stateForEvent (states : List (FetchKey × MessageState)) (key : FetchKey) (e : StateEvent) :
    List (FetchKey × MessageState) :=
  match e.kind with
  | .deleteDetected => assign states key ⟨.deleted,none⟩
  | .remoteStateUnknown => assign states key ⟨.unknown,none⟩
  | .moved =>
    match e.movedToFolderRawName.bind presentText with
    | some destination => assign states key ⟨.moved,some destination⟩
    | none => states

/-- `_state_for_event` on the events of a remote delete. -/
def stateForRemoteDelete (states : List (FetchKey × MessageState)) (key : FetchKey)
    (e : RemoteDeleteEvent) : List (FetchKey × MessageState) :=
  match e.stage with
  | .completed => assign states key ⟨.deleted,none⟩
  | .uncertain | .intent => assign states key ⟨.uncertain,none⟩

/-- The states after an event with this key, and the fetch the event is about. -/
def observed (s : Replay) (key : Option FetchKey)
    (f : List (FetchKey × MessageState) → FetchKey → List (FetchKey × MessageState)) :
    Replay × Option FetchEvent :=
  match key with
  | some key => ({ s with states := f s.states key },s.fetches.lookup key)
  | none => (s,none)

end Replay

open Replay in
/-- One round of the loop over the events. -/
def replayEvent (s : Replay) (event : ManifestEvent) : Except Error Replay :=
  match event with
  | .accountSnapshot e =>
    if e.accountId = "" then .ok s
    else .ok { s with accountEvents := assign s.accountEvents e.accountId e }
  | .folderSnapshot e =>
    if e.accountId = "" ∨ e.folderRawName = "" then .ok s
    else .ok { s with folderEvents := assign s.folderEvents (e.accountId,e.folderRawName) e }
  | .membershipSnapshot e =>
    if e.accountId = "" ∨ e.sourceItemKey = .legacy "" then .ok s
    else .ok { s with membershipSnapshots := s.membershipSnapshots ++ [e] }
  | .identityLinked e =>
    if e.accountId = "" ∨ e.canonicalSourceItemKey = .legacy "" ∨
        e.aliasSourceItemKey = .legacy "" ∨ e.fileHash = "" then
      .error ⟨.storage,"Manifest identity link is missing required fields"⟩
    else
      let linkKey := (e.accountId,e.aliasSourceItemKey)
      let linkValue := (e.canonicalSourceItemKey,e.evidenceKind,e.fileHash)
      if (s.identityLinks.lookup linkKey).any (· ≠ linkValue) then
        .error ⟨.storage,"Manifest alias maps to multiple canonical messages"⟩
      else .ok { s with identityLinks := assign s.identityLinks linkKey linkValue }
  | .fetch e =>
    match e.eventKey with
    | some key => .ok { s with fetches := assign s.fetches key e }
    | none => .ok s
  | .state e =>
    let (s',related) := s.observed e.eventKey fun states key => stateForEvent states key e
    match e.kind with
    | .deleteDetected =>
      .ok { s' with auditEvents := s'.auditEvents ++ [(event,"delete_detected",related)] }
    | .moved => .ok { s' with auditEvents := s'.auditEvents ++ [(event,"moved",related)] }
    | .remoteStateUnknown => .ok s'
  | .remoteDelete e =>
    let (s',related) := s.observed e.eventKey fun states key => stateForRemoteDelete states key e
    match e.stage with
    | .completed =>
      .ok { s' with auditEvents := s'.auditEvents ++ [(event,"remote_delete",related)] }
    | .intent | .uncertain => .ok s'
  | .purgeIntent e =>
    match e.purgeKey with
    | some purgeKey => do
      let normalized ← normalizePurgeKey purgeKey s.fetches s.identityLinks
      .ok { s with purgeEvents := assign s.purgeEvents normalized e }
    | none => .ok s
  | .purged e =>
    match e.purgeKey with
    | some purgeKey => do
      let normalized ← normalizePurgeKey purgeKey s.fetches s.identityLinks
      let related ← relatedFetch e.accountId normalized s.identityLinks s.fetches
      .ok { s with
        completedPurges := s.completedPurges ++ [normalized]
        auditEvents := s.auditEvents ++ [(event,"local_purge",related)] }
    | none => .ok s
  | .fetchSkipped _ | .checkpoint _ => .ok s

/-! ## Under the keys of the messages -/

/-- What was gathered, with every alias replaced by the key it stands for. -/
structure Canonical where
  byFetch : List (FetchKey × SourceItemKey) := []
  hashes : List ((String × SourceItemKey) × String) := []
  purgeEvents : List (PurgeKey × PurgeEvent) := []
  completedPurges : List PurgeKey := []
  snapshots : List ((String × SourceItemKey) × MembershipSnapshotEvent) := []
deriving DecidableEq, Repr

/-- The key of a fetch, whose EML must be the one that its link and the other fetches name. -/
def canonicalizeFetch (links : IdentityLinks) (c : Canonical) (f : FetchKey × FetchEvent) :
    Except Error Canonical := do
  let key ← f.2.identityKey f.1
  let canonicalKey ← resolveIdentityKey f.1.1 key links
  let fetchHash := presentText f.2.fileHash
  if (links.lookup (f.1.1,key)).any fun link => fetchHash ≠ some link.2.2 then
    .error ⟨.storage,"Manifest identity link EML hash does not match its fetch"⟩
  else
    let byFetch := assign c.byFetch f.1 canonicalKey
    match fetchHash with
    | none => .ok { c with byFetch := byFetch }
    | some hash =>
      match c.hashes.lookup (f.1.1,canonicalKey) with
      | none =>
        .ok { c with byFetch := byFetch, hashes := assign c.hashes (f.1.1,canonicalKey) hash }
      | some previous =>
        if previous ≠ hash then
          .error ⟨.storage,"Canonical message has inconsistent EML hashes"⟩
        else .ok { c with byFetch := byFetch }

def checkLink (links : IdentityLinks) (c : Canonical)
    (entry : (String × SourceItemKey) × (SourceItemKey × EvidenceKind × String)) :
    Except Error Unit := do
  let canonicalKey ← resolveIdentityKey entry.1.1 entry.2.1 links
  if (c.hashes.lookup (entry.1.1,canonicalKey)).any (· ≠ entry.2.2.2) then
    .error ⟨.storage,"Manifest identity link EML hash does not match its canonical fetch"⟩
  else .ok ()

def resolvePurgeKey (links : IdentityLinks) (purgeKey : PurgeKey) : Except Error PurgeKey := do
  let resolved ← resolveIdentityKey purgeKey.1 purgeKey.2.1 links
  .ok (purgeKey.1,resolved,purgeKey.2.2)

def canonicalize (s : Replay) : Except Error Canonical := do
  s.identityLinks.forM fun entry => do
    let _ ← resolveIdentityKey entry.1.1 entry.1.2 s.identityLinks
    .ok ()
  let c ← s.fetches.foldlM (canonicalizeFetch s.identityLinks) {}
  s.identityLinks.forM (checkLink s.identityLinks c)
  let purgeEvents ← s.purgeEvents.foldlM (fun events entry => do
    let purgeKey ← resolvePurgeKey s.identityLinks entry.1
    .ok (assign events purgeKey entry.2)) []
  let completedPurges ← s.completedPurges.mapM (resolvePurgeKey s.identityLinks)
  let snapshots ← s.membershipSnapshots.foldlM (fun snapshots e => do
    let canonicalKey ← resolveIdentityKey e.accountId e.sourceItemKey s.identityLinks
    .ok (assign snapshots (e.accountId,canonicalKey) e)) []
  .ok { c with
    purgeEvents := purgeEvents, completedPurges := completedPurges, snapshots := snapshots }

end MailDock
