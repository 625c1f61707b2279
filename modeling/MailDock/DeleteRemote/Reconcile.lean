import MailDock.App.Calm
import MailDock.App.Rules
import MailDock.DeleteRemote.Program
import MailDock.Manifest.Intents
import MailDock.Repository.Rows

/-!
# Uncertain deletions

`reconcile_uncertain_deletes` goes through the incomplete intents of the manifest
and completes those whose UID the server no longer has.  The message of an intent
is looked up among the stored messages with their first membership, and its
candidate carries no folder, so the completion marks every membership of it.

## Main definitions

- `reconcileUncertainDeletes`, `reconcileIntent` — the use case, and one intent of it
- `Reconciles` — what one intent should do to the manifest and to the memberships
-/

namespace MailDock

open Hoare Relational

/-- `_folder_id`. -/
def Tables.folderIdOf (t : Tables) (accountId rawName : String) : Option Nat :=
  ((t.listFolders accountId).find? fun f => f.rawName == rawName).map fun f => f.id

/-- `_message_by_uid`. -/
def Tables.messageByUid (t : Tables) (accountId : String) (folderId : Option Nat)
    (uidvalidity uid : Nat) : Option (Message × Option Membership) :=
  (t.listStoredMessages (some accountId)).find? fun r =>
    (r.2.map fun r => r.folderId) == folderId && (r.2.bind fun r => r.uidvalidity) == some uidvalidity &&
      (r.2.bind fun r => r.uid) == some uid

/-- `_candidate_for_reconciliation`; the folder of the candidate is left out. -/
def candidateForReconciliation (message : Message) (accountId folderRawName : String)
    (uid uidvalidity : Nat) : Option DeleteCandidate :=
  match message.sizeBytes,message.relativePath,message.fileHash with
  | some sizeBytes,some relativePath,some fileHash => some
    { messageId := message.id, accountId := accountId, folderRawName := folderRawName,
      uid := uid, uidvalidity := uidvalidity, subject := message.envelope.subject,
      dateSent := message.envelope.dateSent, internalDate := message.envelope.internalDate,
      sizeBytes := sizeBytes, relativePath := relativePath, fileHash := fileHash,
      messageIdHeader := message.messageId }
  | _,_,_ => none

section
variable (env : Env)

/-- The UID of the intent is not in its folder, under its UIDVALIDITY. -/
def goneFromServer (intent : RemoteDeleteEvent) : App Bool := do
  let current ← selectFolder env intent.folderRawName
  if current ≠ intent.uidvalidity then pure false
  else
    let uids ← listExistingUids env intent.folderRawName
    pure (!uids.contains intent.uid)

/-- The events and the database writes of an intent that is found to be done. -/
def completeIntent (intent : RemoteDeleteEvent) (candidate : DeleteCandidate) (message : Message) :
    App Unit := do
  let now ← timestamp env
  appendManifest env (remoteDeleteEvent .completed candidate intent.mode now)
  (if intent.mode = .removeMembership then do
      let snapshot ← removalSnapshotEvent env candidate message
      appendManifest env snapshot
    else pure () : App Unit)
  flushAndSync env
  commitCompletedState env candidate intent.mode now message none

def reconcileIntent (intent : RemoteDeleteEvent) : App Unit := do
  let answer ← outcome (goneFromServer env intent)
  match answer with
  | .error e =>
    if e.isTransient || e.kind == .storageDetached || e.isFetchError then pure () else throw e
  | .ok false => pure ()
  | .ok true =>
    let folderId ← queryRepo env fun t => t.folderIdOf intent.accountId intent.folderRawName
    let record ← queryRepo env fun t =>
      t.messageByUid intent.accountId folderId intent.uidvalidity intent.uid
    match record with
    | none => pure ()
    | some (message,_) =>
      match candidateForReconciliation message intent.accountId intent.folderRawName intent.uid
          intent.uidvalidity with
      | none => pure ()
      | some candidate => completeIntent env intent candidate message

/-- One entry of `read_incomplete_intents`; purges are not reconciled here. -/
def reconcileEvent (e : ManifestEvent) : App Unit :=
  match e with
  | .remoteDelete intent => reconcileIntent env intent
  | _ => pure ()

def reconcileUncertainDeletes : App Unit := do
  let t ← nextTick
  if env.remoteDeleteAllowed t = false then
    throw ⟨.storageDetached,"Remote-delete reconciliation requires attached storage"⟩
  else
    let w ← get
    (readIncompleteIntents w.manifest).forM (reconcileEvent env)

end

/-! What an intent should do. -/

/-- The server answers both questions, with the UIDVALIDITY of the intent and without its UID. -/
structure GoneAt (env : Env) (intent : RemoteDeleteEvent) (w : World) : Prop where
  selected : env.fetchFault w.tick = none
  uidvalidity : env.uidvalidity w.tick intent.folderRawName = intent.uidvalidity
  listed : env.fetchFault (w.tick + 1) = none
  absent : intent.uid ∉ env.mailbox (w.tick + 1) intent.folderRawName

/-- The membership the intent names and the message that owns it, which has its EML. -/
structure StoredOwner (t : Tables) (intent : RemoteDeleteEvent) (m : Message) (r : Membership) :
    Prop where
  message : m ∈ t.messages ∧ m.accountId = intent.accountId
  stored : m.relativePath.isSome = true
  membership : r ∈ t.memberships ∧ r.messageId = m.id
  serverUid : r.uidvalidity = some intent.uidvalidity ∧ r.uid = some intent.uid
  folder : ∃ f ∈ t.folders, f.id = r.folderId ∧ f.accountId = intent.accountId ∧
    f.rawName = intent.folderRawName

/-- A completion of the intent was appended between the two worlds. -/
def CompletionRecorded (intent : RemoteDeleteEvent) (w w' : World) : Prop :=
  ∃ added, w'.manifest = w.manifest ++ added ∧
    ∃ now, .remoteDelete { intent with stage := .completed, timestamp := now } ∈ added

/-- The membership is marked as deleted, or removed, and no other one is touched. -/
def OnlyMembership (mode : RemoteDeleteMode) (r : Membership) (t t' : Tables) : Prop :=
  ∀ s, s ∈ t'.memberships ↔ (s ∈ t.memberships ∧ s ≠ r) ∨
    (mode ≠ .removeMembership ∧ s = { r with remoteState := .deleted, movedToFolderId := none })

/-- A completion is recorded exactly for an intent that is done and whose message is
stored, and then its membership is the only one that changes. -/
structure Reconciles (intent : RemoteDeleteEvent) (gone : Prop) (w w' : World) : Prop where
  recorded : CompletionRecorded intent w w' ↔ gone ∧ ∃ m r, StoredOwner w.db.tables intent m r
  touches : CompletionRecorded intent w w' → ∃ m r, StoredOwner w.db.tables intent m r ∧
    OnlyMembership intent.mode r w.db.tables w'.db.tables
  unchanged : ¬ CompletionRecorded intent w w' → w'.db = w.db

/-- When the lookup finds the membership and the completion touches no other one. -/
def ReconcilesWhen (t : Tables) (intent : RemoteDeleteEvent) : Prop :=
  ∀ m r, StoredOwner t intent m r →
    validateEvent (.remoteDelete { intent with stage := .completed }) = .ok () ∧
    m.fileHash.isSome = true ∧ m.sizeBytes.isSome = true ∧
    ∀ s ∈ t.memberships, s.messageId = m.id → s ≠ r →
      r.folderId < s.folderId ∧ s.remoteState = .deleted ∧ s.movedToFolderId = none

/-! The lookup. -/

/-- The lookup finds a stored message whose first membership has the server UID. -/
theorem Tables.messageByUid_eq_some {t : Tables} {accountId : String} {folderId : Option Nat}
    {uidvalidity uid : Nat} {m : Message} {first : Option Membership}
    (h : t.messageByUid accountId folderId uidvalidity uid = some (m,first)) :
    m ∈ t.messages ∧ m.accountId = accountId ∧ m.relativePath.isSome = true ∧
      ∃ r, (t.membershipsOf m.id).head? = some r ∧ some r.folderId = folderId ∧
        r.uidvalidity = some uidvalidity ∧ r.uid = some uid := by
  have hmem := List.mem_of_find?_eq_some h
  have hcheck := List.find?_some h
  simp only [Tables.listStoredMessages,List.mem_map,List.mem_insertionSort,List.mem_filter,
    Bool.and_eq_true,Option.all_some,beq_iff_eq,Prod.mk.injEq] at hmem hcheck
  obtain ⟨m',⟨hm,hpath,haccount⟩,rfl,hfirst⟩ := hmem
  refine ⟨hm,haccount.symm,hpath,?_⟩
  cases hhead : (t.membershipsOf m'.id).head? with
  | none =>
    rw [hhead] at hfirst
    subst hfirst
    simp at hcheck
  | some r =>
    rw [hhead] at hfirst
    subst hfirst
    exact ⟨r,rfl,hcheck.1.1,hcheck.1.2,hcheck.2⟩

section
variable {t : Tables} (ht : t.Valid)
include ht

theorem Tables.Valid.folderIdOf_eq_some_iff {accountId rawName : String} {id : Nat} :
    t.folderIdOf accountId rawName = some id ↔
      ∃ f ∈ t.folders, f.id = id ∧ f.accountId = accountId ∧ f.rawName = rawName := by
  simp only [Tables.folderIdOf,Tables.listFolders,Option.map_eq_some_iff]
  constructor
  · rintro ⟨f,hf,rfl⟩
    have hmem := List.mem_of_find?_eq_some hf
    have hname := List.find?_some hf
    simp only [List.mem_insertionSort,List.mem_filter,beq_iff_eq] at hmem hname
    exact ⟨f,hmem.1,rfl,hmem.2,hname⟩
  · rintro ⟨f,hf,rfl,haccount,hname⟩
    cases hfound : ((t.folders.filter fun f => f.accountId == accountId).insertionSort
        fun a b => a.id ≤ b.id).find? fun f => f.rawName == rawName with
    | none =>
      have hnone := List.find?_eq_none.mp hfound f
        (by simp only [List.mem_insertionSort,List.mem_filter,beq_iff_eq]; exact ⟨hf,haccount⟩)
      simp [hname] at hnone
    | some g =>
      have hmem := List.mem_of_find?_eq_some hfound
      have hgname := List.find?_some hfound
      simp only [List.mem_insertionSort,List.mem_filter,beq_iff_eq] at hmem hgname
      have hgf : g = f := ht.folderName.eq_of_key hmem.1 hf
        (k := (accountId,rawName)) (by rw [hmem.2,hgname]) (by rw [haccount,hname])
      exact ⟨g,rfl,by rw [hgf]⟩

/-- The first membership of a message is the one in the folder with the least id. -/
theorem Tables.Valid.head_membershipsOf_iff {id : Nat} {r : Membership} :
    (t.membershipsOf id).head? = some r ↔ r ∈ t.memberships ∧ r.messageId = id ∧
      ∀ s ∈ t.memberships, s.messageId = id → r.folderId ≤ s.folderId := by
  have hmem : ∀ s, s ∈ t.membershipsOf id ↔ s ∈ t.memberships ∧ s.messageId = id := by
    intro s
    simp [Tables.membershipsOf,List.mem_insertionSort]
  have hsorted : (t.membershipsOf id).Pairwise fun a b => a.folderId ≤ b.folderId :=
    List.pairwise_insertionSort (r := fun a b : Membership => a.folderId ≤ b.folderId) _
  have hleast : ∀ first ∈ (t.membershipsOf id).head?, ∀ s ∈ t.membershipsOf id,
      first.folderId ≤ s.folderId := by
    intro first hfirst s hs
    obtain ⟨rest,hrest⟩ := List.head?_eq_some_iff.mp hfirst
    rw [hrest] at hs hsorted
    rcases List.mem_cons.mp hs with rfl | hs
    · exact le_refl _
    · exact (List.pairwise_cons.mp hsorted).1 s hs
  constructor
  · intro h
    have hr := (hmem r).mp (List.mem_of_head? h)
    exact ⟨hr.1,hr.2,fun s hs hid => hleast r h s ((hmem s).mpr ⟨hs,hid⟩)⟩
  · rintro ⟨hr,hid,hmin⟩
    cases hfirst : (t.membershipsOf id).head? with
    | none =>
      rw [List.head?_eq_none_iff] at hfirst
      have := (hmem r).mpr ⟨hr,hid⟩
      rw [hfirst] at this
      cases this
    | some first =>
      obtain ⟨hf,hfid⟩ := (hmem first).mp (List.mem_of_head? hfirst)
      have hle := hleast first hfirst r ((hmem r).mpr ⟨hr,hid⟩)
      have hge := hmin first hf hfid
      have hsame : first.folderId = r.folderId := by omega
      rw [ht.membershipKey.eq_of_key hf hr (k := (id,r.folderId)) (by rw [hfid,hsame])
        (by rw [hid])]

/-- The owner of a membership that is its first one is found. -/
theorem Tables.Valid.messageByUid_isSome {accountId : String} {uidvalidity uid : Nat} {m : Message}
    {r : Membership} (hm : m ∈ t.messages) (haccount : m.accountId = accountId)
    (hpath : m.relativePath.isSome = true) (hfirst : (t.membershipsOf m.id).head? = some r)
    (hserver : r.uidvalidity = some uidvalidity ∧ r.uid = some uid) :
    ∃ first, t.messageByUid accountId (some r.folderId) uidvalidity uid = some (m,first) := by
  have hrow : (m,some r) ∈ t.listStoredMessages (some accountId) := by
    simp only [Tables.listStoredMessages,List.mem_map,List.mem_insertionSort,List.mem_filter,
      Bool.and_eq_true,Option.all_some,beq_iff_eq,Prod.mk.injEq]
    exact ⟨m,⟨hm,hpath,haccount.symm⟩,rfl,hfirst⟩
  cases hfound : t.messageByUid accountId (some r.folderId) uidvalidity uid with
  | none =>
    have hnone := List.find?_eq_none.mp hfound _ hrow
    simp [hserver.1,hserver.2] at hnone
  | some found =>
    obtain ⟨n,first⟩ := found
    obtain ⟨hn,-,-,s,hs,hfolder,hv,hu⟩ := Tables.messageByUid_eq_some hfound
    obtain ⟨hr',hrid,-⟩ := ht.head_membershipsOf_iff.mp hfirst
    obtain ⟨hs',hsid,-⟩ := ht.head_membershipsOf_iff.mp hs
    have hsr : s = r := ht.membershipUid.eq_of_key hs' hr' (k := (r.folderId,uidvalidity,uid))
      (by rw [Membership.serverUid,hv,hu]; simpa using hfolder)
      (by rw [Membership.serverUid,hserver.1,hserver.2])
    have hnm : n = m := ht.message_eq hn hm (by rw [← hsid,← hrid,hsr])
    exact ⟨first,by rw [hnm]⟩

/-- A membership has one owner. -/
theorem StoredOwner.unique {intent : RemoteDeleteEvent} {m m' : Message} {r r' : Membership}
    (h : StoredOwner t intent m r) (h' : StoredOwner t intent m' r') : m' = m ∧ r' = r := by
  obtain ⟨f,hf,hfid,hfaccount,hfname⟩ := h.folder
  obtain ⟨g,hg,hgid,hgaccount,hgname⟩ := h'.folder
  have hgf : g = f := ht.folderName.eq_of_key hg hf (k := (intent.accountId,intent.folderRawName))
    (by rw [hgaccount,hgname]) (by rw [hfaccount,hfname])
  have hfolder : r'.folderId = r.folderId := by rw [← hgid,← hfid,hgf]
  have hrr : r' = r := ht.membershipUid.eq_of_key h'.membership.1 h.membership.1
    (k := (r.folderId,intent.uidvalidity,intent.uid))
    (by rw [Membership.serverUid,h'.serverUid.1,h'.serverUid.2,hfolder])
    (by rw [Membership.serverUid,h.serverUid.1,h.serverUid.2])
  refine ⟨ht.message_eq h'.message.1 h.message.1 ?_,hrr⟩
  rw [← h'.membership.2,← h.membership.2,hrr]

end

/-! One intent, run forward. -/

/-- Two worlds that differ in the tick and the log at most. -/
structure World.SameData (w w' : World) : Prop where
  db : w'.db = w.db
  manifest : w'.manifest = w.manifest
  inBatch : w'.inBatch = w.inBatch
  last : w'.lastCheckpointSequence = w.lastCheckpointSequence

section
variable {env : Env} {intent : RemoteDeleteEvent} {w : World}

/-- The two questions to the server. -/
theorem goneFromServer_run : ∃ result w', goneFromServer env intent w = (result,w') ∧
    w.SameData w' ∧ (result = .ok true ↔ GoneAt env intent w) := by
  cases hselect : env.fetchFault w.tick with
  | some e =>
    refine ⟨.error e,w.ticked.logged (.command (.select intent.folderRawName)),?_,⟨rfl,rfl,rfl,rfl⟩,
      ⟨(fun h => by cases h),fun h => ?_⟩⟩
    · exact Prog.bind_of_error (Prog.bind_of_error (imapCommand_failed w _ hselect))
    · rw [h.selected] at hselect
      cases hselect
  | none =>
    have hrun : ∀ f : Nat → App Bool, (selectFolder env intent.folderRawName >>= f) w =
        f (env.uidvalidity w.tick intent.folderRawName)
          (w.ticked.logged (.command (.select intent.folderRawName))) :=
      fun f => Prog.bind_of_ok (Prog.bind_of_ok (imapCommand_answered w _ hselect))
    rw [goneFromServer,hrun]
    obtain ⟨w₁,hw₁⟩ : ∃ w₁, w₁ = w.ticked.logged (.command (.select intent.folderRawName)) :=
      ⟨_,rfl⟩
    have hsame : w.SameData w₁ := hw₁ ▸ ⟨rfl,rfl,rfl,rfl⟩
    have htick : w₁.tick = w.tick + 1 := hw₁ ▸ rfl
    rw [← hw₁]
    by_cases hvalidity : env.uidvalidity w.tick intent.folderRawName = intent.uidvalidity
    · rw [if_neg (not_not.mpr hvalidity)]
      cases hlist : env.fetchFault w₁.tick with
      | some e =>
        refine ⟨.error e,w₁.ticked.logged (.command (.select intent.folderRawName)),?_,
          ⟨hsame.db,hsame.manifest,hsame.inBatch,hsame.last⟩,⟨(fun h => by cases h),fun h => ?_⟩⟩
        · exact Prog.bind_of_error (Prog.bind_of_error (imapCommand_failed w₁ _ hlist))
        · rw [htick,h.listed] at hlist
          cases hlist
      | none =>
        refine ⟨.ok (!(env.mailbox w₁.tick intent.folderRawName).contains intent.uid),
          (w₁.ticked.logged (.command (.select intent.folderRawName))).logged
            (.answer w₁.tick (.uids intent.folderRawName
              (env.mailbox w₁.tick intent.folderRawName))),?_,
          ⟨hsame.db,hsame.manifest,hsame.inBatch,hsame.last⟩,?_⟩
        · exact Prog.bind_of_ok (Prog.bind_of_ok (imapCommand_answered w₁ _ hlist))
        · rw [htick] at hlist ⊢
          constructor
          · intro h
            exact ⟨hselect,hvalidity,hlist,by simpa using h⟩
          · intro h
            simpa using h.absent
    · rw [if_pos hvalidity]
      exact ⟨.ok false,w₁,rfl,hsame,⟨(fun h => by cases h),fun h => absurd h.uidvalidity hvalidity⟩⟩

/-- Marking memberships without a destination never breaks a constraint. -/
theorem Tables.Valid.updateRemoteState {t : Tables} (ht : t.Valid) (messageId : Nat)
    (state : RemoteState) (folderId : Option Nat) :
    (t.updateRemoteState messageId state none folderId).Valid := by
  have hrow : ∀ r ∈ (t.updateRemoteState messageId state none folderId).memberships,
      ∃ r₀ ∈ t.memberships, r.messageId = r₀.messageId ∧ r.folderId = r₀.folderId ∧
        (r.movedToFolderId = none ∨ r.movedToFolderId = r₀.movedToFolderId) := by
    intro r hr
    rcases mem_update.mp hr with ⟨hr,-⟩ | ⟨r₀,hr₀,-,rfl⟩
    · exact ⟨r,hr,rfl,rfl,.inr rfl⟩
    · exact ⟨r₀,hr₀,rfl,rfl,.inl rfl⟩
  exact
    { ht with
      membershipKey := ht.membershipKey.update_of_key fun _ _ _ => rfl
      membershipUid := ht.membershipUid.update_of_key fun _ _ _ => rfl
      membershipMessage := by
        intro r hr
        obtain ⟨r₀,hr₀,hid,-⟩ := hrow r hr
        rw [hid]
        exact ht.membershipMessage r₀ hr₀
      membershipFolder := by
        intro r hr
        obtain ⟨r₀,hr₀,-,hfolder,-⟩ := hrow r hr
        rw [hfolder]
        exact ht.membershipFolder r₀ hr₀
      membershipMovedTo := by
        intro r hr f hf
        obtain ⟨r₀,hr₀,-,-,hnone | hsame⟩ := hrow r hr
        · rw [hnone] at hf
          cases hf
        · rw [hsame] at hf
          exact ht.membershipMovedTo r₀ hr₀ f hf }

theorem Tables.Valid.recordAudit {t : Tables} (ht : t.Valid) (entry : AuditEntry) :
    (t.recordAudit entry).Valid := { ht with }

theorem candidateForReconciliation_isSome {message : Message} {accountId folderRawName : String}
    {uid uidvalidity : Nat} (hpath : message.relativePath.isSome = true)
    (hhash : message.fileHash.isSome = true) (hsize : message.sizeBytes.isSome = true) :
    (candidateForReconciliation message accountId folderRawName uid uidvalidity).isSome = true := by
  obtain ⟨path,hpath⟩ := Option.isSome_iff_exists.mp hpath
  obtain ⟨hash,hhash⟩ := Option.isSome_iff_exists.mp hhash
  obtain ⟨size,hsize⟩ := Option.isSome_iff_exists.mp hsize
  rw [candidateForReconciliation,hpath,hhash,hsize]
  rfl

theorem candidateForReconciliation_eq_some {message : Message} {accountId folderRawName : String}
    {uid uidvalidity : Nat} {candidate : DeleteCandidate}
    (h : candidateForReconciliation message accountId folderRawName uid uidvalidity =
      some candidate) : message.fileHash.isSome = true ∧ message.sizeBytes.isSome = true := by
  unfold candidateForReconciliation at h
  split at h
  · next hsize _ hhash =>
    rw [hsize,hhash]
    exact ⟨rfl,rfl⟩
  · cases h

/-- The completion event repeats what the intent says. -/
theorem remoteDeleteEvent_of_candidate {message : Message} {candidate : DeleteCandidate}
    (h : candidateForReconciliation message intent.accountId intent.folderRawName intent.uid
      intent.uidvalidity = some candidate) (now : String) :
    remoteDeleteEvent .completed candidate intent.mode now =
      .remoteDelete { intent with stage := .completed, timestamp := now } := by
  unfold candidateForReconciliation at h
  split at h
  · cases h
    rfl
  · cases h

theorem appendEvent_remoteDelete {e : RemoteDeleteEvent} (last : Option Nat)
    (h : validateEvent (.remoteDelete e) = .ok ()) :
    appendEvent last (.remoteDelete e) = .ok last := by
  simp only [appendEvent,h]
  rfl

/-- The database half of a completion whose candidate names no folder. -/
theorem commitCompletedState_run (hcalm : env.Calm) (hbatch : w.inBatch = false)
    {candidate : DeleteCandidate} {mode : RemoteDeleteMode} (hmode : mode ≠ .removeMembership)
    (hfolder : candidate.folderId = none) (now : String) (message : Message) :
    ∃ w', commitCompletedState env candidate mode now message none w = (.ok (),w') ∧
      w'.manifest = w.manifest ∧
      w'.db.tables.memberships = update (fun r => r.messageId == candidate.messageId)
        (fun r => { r with remoteState := .deleted, movedToFolderId := none })
        w.db.tables.memberships := by
  obtain ⟨w₁,hw₁⟩ : ∃ w₁, w₁ = { w.ticked with inBatch := true } := ⟨_,rfl⟩
  have hdeleted : (WriteOp.updateRemoteState candidate.messageId .deleted none none).apply w₁.db =
      .ok ⟨_,w₁.db.valid.updateRemoteState candidate.messageId .deleted none⟩ :=
    Repository.exec_of_valid _
  obtain ⟨db,hdb⟩ : ∃ db, db = (⟨_,w₁.db.valid.updateRemoteState candidate.messageId .deleted
    none⟩ : Repository) := ⟨_,rfl⟩
  rw [← hdb] at hdeleted
  obtain ⟨w₂,hw₂⟩ : ∃ w₂, w₂ = w₁.ticked.written
    (.updateRemoteState candidate.messageId .deleted none none) db := ⟨_,rfl⟩
  have haudit : (WriteOp.recordAudit (remoteDeleteAudit candidate mode now)).apply w₂.db =
      .ok ⟨_,w₂.db.valid.recordAudit (remoteDeleteAudit candidate mode now)⟩ :=
    Repository.exec_of_valid _
  obtain ⟨db₂,hdb₂⟩ : ∃ db₂, db₂ = (⟨_,w₂.db.valid.recordAudit
    (remoteDeleteAudit candidate mode now)⟩ : Repository) := ⟨_,rfl⟩
  rw [← hdb₂] at haudit
  have hrun : commitCompletedState env candidate mode now message none w = (.ok (),
      (w₂.ticked.written (.recordAudit (remoteDeleteAudit candidate mode now))
        db₂).ticked.batchCommitted) := by
    unfold commitCompletedState writeCompletedState
    rw [Prog.bind_of_ok (hcalm.beginBatch_run w hbatch),if_neg hmode,hfolder,← hw₁,
      Prog.bind_of_ok (hcalm.writeRepo_run w₁ hdeleted),← hw₂,
      Prog.bind_of_ok (hcalm.writeRepo_run w₂ haudit),hcalm.commitBatch_run]
  refine ⟨_,hrun,?_,?_⟩
  · show (w₂.ticked.written _ db₂).manifest = w.manifest
    rw [World.written_manifest]
    show w₂.manifest = w.manifest
    rw [hw₂,World.written_manifest,hw₁]
    rfl
  · show (w₂.ticked.written _ db₂).db.tables.memberships = _
    rw [World.written_db,hdb₂]
    show w₂.db.tables.memberships = _
    rw [hw₂,World.written_db,hdb,hw₁]
    simp [Tables.updateRemoteState,World.ticked]

/-- A completion that the validator refuses. -/
theorem completeIntent_refused {candidate : DeleteCandidate} {message : Message} {e : Error}
    (hcandidate : candidateForReconciliation message intent.accountId intent.folderRawName
      intent.uid intent.uidvalidity = some candidate)
    (hvalid : validateEvent (.remoteDelete { intent with stage := .completed }) = .error e) :
    completeIntent env intent candidate message w = (.error e,w.ticked.ticked) := by
  obtain ⟨now,hnow⟩ : ∃ now, timestamp env w = (.ok now,w.ticked) := ⟨_,timestamp_run w⟩
  have happend : appendEvent w.lastCheckpointSequence (.remoteDelete
      { intent with stage := .completed, timestamp := now }) = .error e := by
    have hvalid' : validateEvent (.remoteDelete
      { intent with stage := .completed, timestamp := now }) = .error e := hvalid
    simp only [appendEvent,hvalid']
    rfl
  unfold completeIntent
  rw [Prog.bind_of_ok hnow,remoteDeleteEvent_of_candidate hcandidate,
    Prog.bind_of_error (appendManifest_refused w.ticked happend)]

/-- A completion the validator accepts, with the writes that follow it. -/
theorem completeIntent_run (hcalm : env.Calm) (hbatch : w.inBatch = false)
    (hvalid : validateEvent (.remoteDelete { intent with stage := .completed }) = .ok ())
    {candidate : DeleteCandidate} {message : Message}
    (hcandidate : candidateForReconciliation message intent.accountId intent.folderRawName
      intent.uid intent.uidvalidity = some candidate) :
    ∃ now w', completeIntent env intent candidate message w = (.ok (),w') ∧
      w'.manifest = w.manifest ++
        [.remoteDelete { intent with stage := .completed, timestamp := now }] ∧
      w'.db.tables.memberships = update (fun r => r.messageId == message.id)
        (fun r => { r with remoteState := .deleted, movedToFolderId := none })
        w.db.tables.memberships := by
  have hmode : intent.mode ≠ .removeMembership := by
    intro hmode
    simp [validateEvent,hmode,Except.bind_eq_ok_iff] at hvalid
  obtain ⟨hid,hfolder⟩ : candidate.messageId = message.id ∧ candidate.folderId = none := by
    unfold candidateForReconciliation at hcandidate
    split at hcandidate
    · cases hcandidate
      exact ⟨rfl,rfl⟩
    · cases hcandidate
  obtain ⟨now,hnow⟩ : ∃ now, timestamp env w = (.ok now,w.ticked) := ⟨_,timestamp_run w⟩
  have happend := appendEvent_remoteDelete (e := { intent with stage := .completed, timestamp := now })
    w.lastCheckpointSequence hvalid
  obtain ⟨w₁,hw₁⟩ : ∃ w₁, w₁ = (w.ticked.ticked.appended (.remoteDelete
      { intent with stage := .completed, timestamp := now }) w.lastCheckpointSequence).ticked.logged
      .flush := ⟨_,rfl⟩
  obtain ⟨w',hcommit,hmanifest,hrows⟩ := commitCompletedState_run (w := w₁) hcalm
    (hw₁ ▸ hbatch) hmode hfolder now message
  refine ⟨now,w',?_,?_,?_⟩
  · unfold completeIntent
    rw [Prog.bind_of_ok hnow,remoteDeleteEvent_of_candidate hcandidate,
      Prog.bind_of_ok (hcalm.appendManifest_run w.ticked happend),
      if_neg hmode,Prog.bind_of_ok (pure_run _ _),Prog.bind_of_ok (hcalm.flushAndSync_run _),← hw₁,
      hcommit]
  · rw [hmanifest,hw₁]
    rfl
  · rw [hrows,hid,hw₁]
    rfl

theorem reconcileIntent_idle {result : Except Error Bool} {w₁ : World}
    (hrun : goneFromServer env intent w = (result,w₁)) (hresult : result ≠ .ok true) :
    (reconcileIntent env intent w).2 = w₁ := by
  have houtcome : outcome (goneFromServer env intent) w = (.ok result,w₁) := by
    rw [outcome_run,hrun]
  unfold reconcileIntent
  rw [Prog.bind_of_ok houtcome]
  cases result with
  | error e =>
    dsimp only
    split <;> rfl
  | ok gone =>
    cases gone with
    | true => exact absurd rfl hresult
    | false => rfl

theorem reconcileIntent_gone (hcalm : env.Calm) {w₁ : World}
    (hrun : goneFromServer env intent w = (.ok true,w₁)) :
    reconcileIntent env intent w =
      match w₁.db.tables.messageByUid intent.accountId
        (w₁.db.tables.folderIdOf intent.accountId intent.folderRawName) intent.uidvalidity
        intent.uid with
      | none => (.ok (),w₁.ticked.ticked)
      | some (message,_) =>
        match candidateForReconciliation message intent.accountId intent.folderRawName intent.uid
            intent.uidvalidity with
        | none => (.ok (),w₁.ticked.ticked)
        | some candidate => completeIntent env intent candidate message w₁.ticked.ticked := by
  have houtcome : outcome (goneFromServer env intent) w = (.ok (.ok true),w₁) := by
    rw [outcome_run,hrun]
  unfold reconcileIntent
  rw [Prog.bind_of_ok houtcome]
  dsimp only
  rw [Prog.bind_of_ok (hcalm.queryRepo_run w₁ _),Prog.bind_of_ok (hcalm.queryRepo_run w₁.ticked _)]
  show (match w₁.db.tables.messageByUid intent.accountId
    (w₁.db.tables.folderIdOf intent.accountId intent.folderRawName) intent.uidvalidity
    intent.uid with
    | none => pure ()
    | some (message,_) => _ : App Unit) w₁.ticked.ticked = _
  generalize w₁.db.tables.messageByUid intent.accountId _ intent.uidvalidity intent.uid = record
  cases record with
  | none => rfl
  | some row =>
    dsimp only
    generalize candidateForReconciliation row.1 _ _ _ _ = candidate
    cases candidate <;> rfl

/-! When one intent does what it should. -/

/-- Nothing was written: right exactly when there was nothing to record. -/
theorem reconciles_of_same {gone : Prop} {w' : World} (hmanifest : w'.manifest = w.manifest)
    (hdb : w'.db = w.db) : Reconciles intent gone w w' ↔
      ¬ (gone ∧ ∃ m r, StoredOwner w.db.tables intent m r) := by
  have hnone : ¬ CompletionRecorded intent w w' := by
    rintro ⟨added,hadded,now,hmem⟩
    rw [hmanifest,List.self_eq_append_right] at hadded
    rw [hadded] at hmem
    cases hmem
  constructor
  · exact fun h howner => hnone (h.recorded.mpr howner)
  · intro h
    exact ⟨⟨fun hrecorded => absurd hrecorded hnone,fun howner => absurd howner h⟩,
      fun hrecorded => absurd hrecorded hnone,fun _ => hdb⟩

/-- The membership that the lookup finds is the one the intent names. -/
theorem storedOwner_of_found {t : Tables} (ht : t.Valid) {m : Message} {first : Option Membership}
    (h : t.messageByUid intent.accountId (t.folderIdOf intent.accountId intent.folderRawName)
      intent.uidvalidity intent.uid = some (m,first)) :
    ∃ r, StoredOwner t intent m r ∧
      ∀ s ∈ t.memberships, s.messageId = m.id → r.folderId ≤ s.folderId := by
  obtain ⟨hm,haccount,hpath,r,hhead,hfolder,hv,hu⟩ := Tables.messageByUid_eq_some h
  obtain ⟨hr,hid,hmin⟩ := ht.head_membershipsOf_iff.mp hhead
  exact ⟨r,⟨⟨hm,haccount⟩,hpath,⟨hr,hid⟩,⟨hv,hu⟩,ht.folderIdOf_eq_some_iff.mp hfolder.symm⟩,hmin⟩

/-- An owner that meets the condition is found. -/
theorem ReconcilesWhen.found {t : Tables} (ht : t.Valid) (h : ReconcilesWhen t intent)
    {m : Message} {r : Membership} (howner : StoredOwner t intent m r) :
    ∃ first, t.messageByUid intent.accountId
      (t.folderIdOf intent.accountId intent.folderRawName) intent.uidvalidity intent.uid =
        some (m,first) := by
  obtain ⟨-,-,-,hothers⟩ := h m r howner
  have hhead : (t.membershipsOf m.id).head? = some r := by
    refine ht.head_membershipsOf_iff.mpr ⟨howner.membership.1,howner.membership.2,?_⟩
    intro s hs hid
    by_cases hsr : s = r
    · rw [hsr]
    · exact le_of_lt (hothers s hs hid hsr).1
  rw [ht.folderIdOf_eq_some_iff.mpr howner.folder]
  exact ht.messageByUid_isSome howner.message.1 howner.message.2 howner.stored hhead
    howner.serverUid

/-- Marking every membership of the message touches one of them only when the others are
marked already. -/
theorem onlyMembership_iff {t t' : Tables} {m : Message} {r : Membership}
    (hr : r ∈ t.memberships ∧ r.messageId = m.id) (hmode : intent.mode ≠ .removeMembership)
    (ht' : t'.memberships = update (fun s => s.messageId == m.id)
      (fun s => { s with remoteState := .deleted, movedToFolderId := none }) t.memberships) :
    OnlyMembership intent.mode r t t' ↔ ∀ s ∈ t.memberships, s.messageId = m.id → s ≠ r →
      s.remoteState = .deleted ∧ s.movedToFolderId = none := by
  simp only [OnlyMembership,ht',mem_update,beq_iff_eq,beq_eq_false_iff_ne]
  constructor
  · intro h s hs hid hsr
    rcases (h s).mpr (.inl ⟨hs,hsr⟩) with ⟨-,hother⟩ | ⟨a,-,-,rfl⟩
    · exact absurd hid hother
    · exact ⟨rfl,rfl⟩
  · intro h s
    have hmarked : ∀ a ∈ t.memberships, a.messageId = m.id → a ≠ r →
        { a with remoteState := .deleted, movedToFolderId := none } = a := by
      intro a ha hid har
      obtain ⟨hstate,hmoved⟩ := h a ha hid har
      cases a
      simp_all
    constructor
    · rintro (⟨hs,hother⟩ | ⟨a,ha,hid,rfl⟩)
      · exact .inl ⟨hs,fun hsr => hother (hsr ▸ hr.2)⟩
      · by_cases har : a = r
        · exact .inr ⟨hmode,by rw [har]⟩
        · rw [hmarked a ha hid har]
          exact .inl ⟨ha,har⟩
    · rintro (⟨hs,hsr⟩ | ⟨-,rfl⟩)
      · by_cases hid : s.messageId = m.id
        · exact .inr ⟨s,hs,hid,hmarked s hs hid hsr⟩
        · exact .inl ⟨hs,hid⟩
      · exact .inr ⟨r,hr.1,hr.2,rfl⟩

/-- One intent, for every state of the database and every answer of the server. -/
theorem reconcileIntent_reconciles_iff (hcalm : env.Calm) (hbatch : w.inBatch = false) :
    Reconciles intent (GoneAt env intent w) w (reconcileIntent env intent w).2 ↔
      (GoneAt env intent w → ReconcilesWhen w.db.tables intent) := by
  obtain ⟨result,w₁,hrun,hsame,hresult⟩ := @goneFromServer_run env intent w
  have ht := w.db.valid
  by_cases hgone : GoneAt env intent w
  · -- the UID is gone: what the lookup finds decides
    rw [hresult.mpr hgone] at hrun
    have hiff : (GoneAt env intent w → ReconcilesWhen w.db.tables intent) ↔
        ReconcilesWhen w.db.tables intent := ⟨fun h => h hgone,fun h _ => h⟩
    rw [hiff,reconcileIntent_gone hcalm hrun,hsame.db]
    cases hfound : w.db.tables.messageByUid intent.accountId
        (w.db.tables.folderIdOf intent.accountId intent.folderRawName) intent.uidvalidity
        intent.uid with
    | none =>
      have hmanifest : w₁.ticked.ticked.manifest = w.manifest := hsame.manifest
      refine (reconciles_of_same hmanifest hsame.db).trans ?_
      constructor
      · exact fun h m r howner => absurd ⟨hgone,m,r,howner⟩ h
      · rintro h ⟨-,m,r,howner⟩
        obtain ⟨first,hsome⟩ := h.found ht howner
        rw [hfound] at hsome
        cases hsome
    | some row =>
      obtain ⟨m,first⟩ := row
      obtain ⟨r,howner,hmin⟩ := storedOwner_of_found ht hfound
      have hwrong : ∀ w', w'.manifest = w.manifest → w'.db = w.db →
          ¬ Reconciles intent (GoneAt env intent w) w w' := fun w' hmanifest hdb h =>
        (reconciles_of_same hmanifest hdb).mp h ⟨hgone,m,r,howner⟩
      dsimp only
      cases hcandidate : candidateForReconciliation m intent.accountId intent.folderRawName
          intent.uid intent.uidvalidity with
      | none =>
        refine iff_of_false (hwrong w₁.ticked.ticked hsame.manifest hsame.db) fun h => ?_
        obtain ⟨-,hhash,hsize,-⟩ := h m r howner
        have hsome : (candidateForReconciliation m intent.accountId intent.folderRawName intent.uid
            intent.uidvalidity).isSome = true :=
          candidateForReconciliation_isSome howner.stored hhash hsize
        rw [hcandidate] at hsome
        cases hsome
      | some candidate =>
        cases hvalid : validateEvent (.remoteDelete { intent with stage := .completed }) with
        | error e =>
          dsimp only
          rw [completeIntent_refused hcandidate hvalid]
          refine iff_of_false (hwrong w₁.ticked.ticked.ticked.ticked hsame.manifest hsame.db)
            fun h => ?_
          have hok := (h m r howner).1
          rw [hvalid] at hok
          cases hok
        | ok u =>
          obtain ⟨now,w',hcomplete,hmanifest,hrows⟩ := completeIntent_run (w := w₁.ticked.ticked)
            hcalm (hsame.inBatch.trans hbatch) hvalid hcandidate
          have hmode : intent.mode ≠ .removeMembership := by
            intro hmode
            simp [validateEvent,hmode,Except.bind_eq_ok_iff] at hvalid
          have hrecorded : CompletionRecorded intent w w' := by
            refine ⟨_,hmanifest.trans ?_,now,List.mem_singleton.mpr rfl⟩
            exact congrArg (· ++ _) hsame.manifest
          have honly : OnlyMembership intent.mode r w.db.tables w'.db.tables ↔ _ :=
            onlyMembership_iff howner.membership hmode (hrows.trans (by rw [← hsame.db]; rfl))
          dsimp only
          rw [hcomplete]
          constructor
          · intro h m' r' howner'
            obtain ⟨rfl,rfl⟩ := howner.unique ht howner'
            obtain ⟨m₂,r₂,howner₂,htouched⟩ := h.touches hrecorded
            obtain ⟨rfl,rfl⟩ := howner.unique ht howner₂
            refine ⟨hvalid,?_,?_,fun s hs hid hsr => ⟨?_,honly.mp htouched s hs hid hsr⟩⟩
            · exact (candidateForReconciliation_eq_some hcandidate).1
            · exact (candidateForReconciliation_eq_some hcandidate).2
            · refine lt_of_le_of_ne (hmin s hs hid) fun hfolder => hsr ?_
              exact ht.membershipKey.eq_of_key hs howner.membership.1 (k := (m₂.id,r₂.folderId))
                (by rw [hid,hfolder]) (by rw [howner.membership.2])
          · intro h
            refine ⟨⟨fun _ => ⟨hgone,m,r,howner⟩,fun _ => hrecorded⟩,fun _ => ⟨m,r,howner,?_⟩,
              fun hnone => absurd hrecorded hnone⟩
            exact honly.mpr fun s hs hid hsr => ((h m r howner).2.2.2 s hs hid hsr).2
  · refine iff_of_true ?_ fun h => absurd h hgone
    rw [reconcileIntent_idle hrun (fun h => hgone (hresult.mp h))]
    exact (reconciles_of_same hsame.manifest hsame.db).mpr fun h => hgone h.1

/-- No transaction is left open by an intent that is dealt with. -/
theorem reconcileIntent_inBatch : Triple (fun w => w.inBatch = false) (reconcileIntent env intent)
    (fun _ w => w.inBatch = false) (fun _ _ => True) := by
  intro w hbatch
  obtain ⟨result,w₁,hrun,hsame,-⟩ := @goneFromServer_run env intent w
  have houtcome : outcome (goneFromServer env intent) w = (.ok result,w₁) := by
    rw [outcome_run,hrun]
  unfold reconcileIntent
  rw [Prog.bind_of_ok houtcome]
  refine (?_ : Triple (fun w => w.inBatch = false) _ (fun _ w => w.inBatch = false)
    (fun _ _ => True)) w₁ (hsame.inBatch.trans hbatch)
  have hquery : ∀ {α : Type} (query : Tables → α), Triple (fun w => w.inBatch = false)
      (queryRepo env query) (fun _ w => w.inBatch = false) (fun _ _ => True) := fun query =>
    queryRepo_rule (fun _ hw => hw) fun _ _ _ _ => trivial
  have happend : ∀ e, Triple (fun w => w.inBatch = false) (appendManifest env e)
      (fun _ w => w.inBatch = false) (fun _ _ => True) := fun e =>
    appendManifest_rule (fun _ _ hw _ => hw) fun _ _ _ _ => trivial
  split
  · split
    · exact Triple.ret fun _ hw => hw
    · exact Triple.raise fun _ _ => trivial
  · exact Triple.ret fun _ hw => hw
  · refine (hquery _).seq fun folderId => (hquery _).seq fun record => ?_
    split
    · exact Triple.ret fun _ hw => hw
    · split
      · exact Triple.ret fun _ hw => hw
      · refine Triple.seq (timestamp_rule (Q := fun _ w => w.inBatch = false) fun _ _ hw => hw)
          fun now => (happend _).seq fun _ =>
          Triple.seq (Q := fun _ w => w.inBatch = false) ?_ fun _ =>
          Triple.seq (flushAndSync_rule (Q := fun _ w => w.inBatch = false) (fun _ hw => hw)
            fun _ _ _ _ => trivial) fun _ =>
          Triple.seq (Triple.skip _) fun _ => Triple.seq (Triple.skip _) fun _ =>
          Triple.seq (Triple.skip _) fun _ => commitBatch_rule (fun _ _ => rfl)
            fun _ _ _ _ => trivial
        split
        · refine Triple.seq (Q := fun _ w => w.inBatch = false) ?_ fun _ => happend _
          refine (hquery _).seq fun rows => ?_
          dsimp only
          split
          · exact Triple.raise fun _ _ => trivial
          · exact Triple.seq (timestamp_rule (Q := fun _ w => w.inBatch = false) fun _ _ hw => hw)
              fun _ => Triple.ret fun _ hw => hw
        · exact Triple.ret fun _ hw => hw

end

/-! The use case. -/

/-- The loop of `reconcile_uncertain_deletes` comes to the intent in the world `w₁`. -/
def Reaches (env : Env) (w : World) (intent : RemoteDeleteEvent) (w₁ : World) : Prop :=
  env.remoteDeleteAllowed w.tick = true ∧ ∃ before after,
    readIncompleteIntents w.manifest = before ++ .remoteDelete intent :: after ∧
    before.forM (reconcileEvent env) w.ticked = (.ok (),w₁)

theorem Reaches.inBatch {env : Env} {w w₁ : World} {intent : RemoteDeleteEvent}
    (h : Reaches env w intent w₁) (hbatch : w.inBatch = false) : w₁.inBatch = false := by
  obtain ⟨-,before,-,-,hrun⟩ := h
  have hloop : Triple (fun w => w.inBatch = false) (before.forM (reconcileEvent env))
      (fun _ w => w.inBatch = false) (fun _ _ => True) := by
    refine Triple.loop before fun e _ => ?_
    unfold reconcileEvent
    split
    · exact reconcileIntent_inBatch
    · exact Triple.ret fun _ hw => hw
  have hfinal := hloop w.ticked hbatch
  rw [hrun] at hfinal
  exact hfinal

/-- Whenever the loop comes to an intent, the intent is recorded and its membership changed
as it should exactly when, its UID being gone, the message that owns the membership has no
membership in an earlier folder, no other one that is not marked as deleted already, and all
that the completion event needs. -/
theorem reconcileUncertainDeletes_reconciles_iff (env : Env) (hcalm : env.Calm) (db : Repository)
    (manifest : List ManifestEvent) (last : Option Nat) (files : List (String × Bytes)) (tick : Nat)
    (intent : RemoteDeleteEvent) (w : World)
    (hreaches : Reaches env (World.opened db manifest last files tick) intent w) :
    Reconciles intent (GoneAt env intent w) w (reconcileIntent env intent w).2 ↔
      (GoneAt env intent w → ReconcilesWhen w.db.tables intent) :=
  reconcileIntent_reconciles_iff hcalm (hreaches.inBatch rfl)

/-! An intent whose message has two memberships, one of them marked as deleted or neither. -/

/-- A server that answers every question and holds no message. -/
def emptiedServer : Env where
  sha256 _ := "e3b0c44298fc1c149afbf4c8996fb92427ae41e4649b934ca495991b7852b855"
  parse _ _ := {}
  clock _ := ⟨2024,1,1,0,0,0⟩
  uidvalidity _ _ := 9
  mailbox _ _ := []
  nextRef _ _ _ _ := none
  body _ _ _ := []
  headers _ _ _ := []

def inboxIntent : RemoteDeleteEvent :=
  { stage := .intent, accountId := "work", folderRawName := "INBOX", uid := 12, uidvalidity := 9,
    mode := .expunge, timestamp := "2024-01-01T00:00:00+00:00" }

/-- A stored message with these memberships beside the one in INBOX. -/
def storedIn (others : List Membership) : Tables :=
  { accounts := [{ id := "work" }]
    folders := [
      { id := 1, accountId := "work", rawName := "INBOX", displayName := "INBOX" },
      { id := 2, accountId := "work", rawName := "Archive", displayName := "Archive" }]
    messages := [
      { id := 1, accountId := "work", messageId := none, contentKey := "k",
        sourceItemKey := .imap "INBOX" 9 12, relativePath := some "a.eml", fileHash := some "h",
        envelope := {}, sizeBytes := some 3 }]
    memberships := { messageId := 1, folderId := 1, uid := some 12, uidvalidity := some 9 } :: others
    nextFolderId := 3
    nextMessageId := 2 }

def storedTwice : Repository where
  tables := storedIn [{ messageId := 1, folderId := 2, uid := some 5, uidvalidity := some 9 }]
  valid := by decide

def storedAndDeleted : Repository where
  tables := storedIn [{
    messageId := 1, folderId := 2, uid := some 5, uidvalidity := some 9, remoteState := .deleted }]
  valid := by decide

theorem emptiedServer_calm : emptiedServer.Calm := ⟨fun _ => rfl,fun _ => rfl⟩

theorem inboxIntent_gone (w : World) : GoneAt emptiedServer inboxIntent w :=
  ⟨rfl,rfl,rfl,by simp [emptiedServer]⟩

theorem inboxIntent_reached (db : Repository) :
    Reaches emptiedServer (World.opened db [.remoteDelete inboxIntent] none [] 0) inboxIntent
      (World.opened db [.remoteDelete inboxIntent] none [] 1) :=
  ⟨rfl,[],[],rfl,rfl⟩

/-- The message is gone from INBOX, and its membership in the archive is marked as well. -/
theorem reconcileUncertainDeletes_marks_other_folder :
    Reaches emptiedServer (World.opened storedTwice [.remoteDelete inboxIntent] none [] 0) inboxIntent
        (World.opened storedTwice [.remoteDelete inboxIntent] none [] 1) ∧
      ¬ Reconciles inboxIntent (GoneAt emptiedServer inboxIntent
          (World.opened storedTwice [.remoteDelete inboxIntent] none [] 1))
        (World.opened storedTwice [.remoteDelete inboxIntent] none [] 1)
        (reconcileIntent emptiedServer inboxIntent
          (World.opened storedTwice [.remoteDelete inboxIntent] none [] 1)).2 := by
  refine ⟨inboxIntent_reached storedTwice,fun h => ?_⟩
  have hwhen := (reconcileIntent_reconciles_iff emptiedServer_calm rfl).mp h (inboxIntent_gone _)
  have howner : StoredOwner storedTwice.tables inboxIntent
      { id := 1, accountId := "work", messageId := none, contentKey := "k",
        sourceItemKey := .imap "INBOX" 9 12, relativePath := some "a.eml", fileHash := some "h",
        envelope := {}, sizeBytes := some 3 }
      { messageId := 1, folderId := 1, uid := some 12, uidvalidity := some 9 } :=
    ⟨by decide,rfl,by decide,⟨rfl,rfl⟩,by decide⟩
  have hmarked := (hwhen _ _ howner).2.2.2
    { messageId := 1, folderId := 2, uid := some 5, uidvalidity := some 9 } (by decide) rfl (by decide)
  cases hmarked.2.1

theorem reconcileUncertainDeletes_deleted_elsewhere :
    Reconciles inboxIntent (GoneAt emptiedServer inboxIntent
        (World.opened storedAndDeleted [.remoteDelete inboxIntent] none [] 1))
      (World.opened storedAndDeleted [.remoteDelete inboxIntent] none [] 1)
      (reconcileIntent emptiedServer inboxIntent
        (World.opened storedAndDeleted [.remoteDelete inboxIntent] none [] 1)).2 := by
  refine (reconcileUncertainDeletes_reconciles_iff emptiedServer emptiedServer_calm
    storedAndDeleted [.remoteDelete inboxIntent] none [] 0 inboxIntent _
      (inboxIntent_reached storedAndDeleted)).mpr ?_
  intro _ m r howner
  have hm := List.mem_singleton.mp howner.message.1
  subst hm
  have huid := howner.serverUid.2
  have hr : r ∈ storedAndDeleted.tables.memberships := howner.membership.1
  simp only [storedAndDeleted,storedIn,List.mem_cons,List.not_mem_nil,or_false] at hr
  rcases hr with rfl | rfl
  · -- the owner is the membership in INBOX; the other one, in the archive, is marked already
    refine ⟨rfl,rfl,rfl,fun s hs _ hsr => ?_⟩
    simp only [storedAndDeleted,World.opened,storedIn,List.mem_cons,List.not_mem_nil,or_false] at hs
    rcases hs with rfl | rfl
    · exact absurd rfl hsr
    · exact ⟨by decide,rfl,rfl⟩
  · cases huid

end MailDock
