import MailDock.Repository.AddMessage
import MailDock.Repository.Queries

/-!
# The remote status of a server UID

`status t k` is what the database says about the server's message `k`, a folder
with a UIDVALIDITY and a UID: its remote state and where it was moved, if there is
a membership for it.  Each write has one lemma about the statuses it can change.

## Main definitions

- `Tables.status` — the remote state recorded for a server UID
- `Tables.OwnerAccount` — the account of the message that owns a server UID
-/

namespace MailDock

open Relational

/-- A message of the server: folder id, UIDVALIDITY and UID. -/
abbrev ServerUid := Nat × Nat × Nat

namespace Tables

def rowOf (t : Tables) (k : ServerUid) : Option Membership :=
  t.memberships.find? fun r => r.serverUid == some k

def status (t : Tables) (k : ServerUid) : Option (RemoteState × Option Nat) :=
  (t.rowOf k).map fun r => (r.remoteState,r.movedToFolderId)

def OwnerAccount (t : Tables) (k : ServerUid) (accountId : String) : Prop :=
  ∃ r ∈ t.memberships, r.serverUid = some k ∧
    ∃ m ∈ t.messages, m.id = r.messageId ∧ m.accountId = accountId

variable {t t' : Tables}

theorem Valid.rowOf_eq_some_iff (ht : t.Valid) {k : ServerUid} {r : Membership} :
    t.rowOf k = some r ↔ r ∈ t.memberships ∧ r.serverUid = some k := by
  constructor
  · intro h
    exact ⟨List.mem_of_find?_eq_some h,by simpa using List.find?_some h⟩
  · rintro ⟨hr,hk⟩
    cases hrow : t.rowOf k with
    | none =>
      have := List.find?_eq_none.mp hrow r hr
      simp [hk] at this
    | some s =>
      have hs : s.serverUid = some k := by simpa using List.find?_some hrow
      rw [ht.membershipUid.eq_of_key (List.mem_of_find?_eq_some hrow) hr hs hk]

theorem Valid.status_eq_some_iff (ht : t.Valid) {k : ServerUid} {state : RemoteState}
    {movedTo : Option Nat} :
    t.status k = some (state,movedTo) ↔ ∃ r ∈ t.memberships, r.serverUid = some k ∧
      r.remoteState = state ∧ r.movedToFolderId = movedTo := by
  simp only [status,Option.map_eq_some_iff,ht.rowOf_eq_some_iff,Prod.mk.injEq,and_assoc]

theorem rowOf_eq_none_iff {k : ServerUid} :
    t.rowOf k = none ↔ ∀ r ∈ t.memberships, r.serverUid ≠ some k := by
  simp [rowOf]

theorem status_eq_none_iff {k : ServerUid} :
    t.status k = none ↔ ∀ r ∈ t.memberships, r.serverUid ≠ some k := by
  rw [status,Option.map_eq_none_iff,rowOf_eq_none_iff]

theorem status_congr (h : t'.memberships = t.memberships) (k : ServerUid) :
    t'.status k = t.status k := by
  rw [status,status,rowOf,rowOf,h]

theorem OwnerAccount.congr {k : ServerUid} {accountId : String} (h : t.OwnerAccount k accountId)
    (hmemberships : t'.memberships = t.memberships) (hmessages : t'.messages = t.messages) :
    t'.OwnerAccount k accountId := by
  unfold OwnerAccount
  rwa [hmemberships,hmessages]

/-- An update that keeps server UIDs acts on the row of each server UID. -/
theorem rowOf_update {p : Membership → Bool} {f : Membership → Membership}
    (hf : ∀ r, (f r).serverUid = r.serverUid) (h : t'.memberships = update p f t.memberships)
    (k : ServerUid) : t'.rowOf k = (t.rowOf k).map fun r => if p r then f r else r := by
  have hkey : ∀ r, (if p r then f r else r).serverUid = r.serverUid := by
    intro r
    split
    · exact hf r
    · rfl
  rw [rowOf,rowOf,h,update,List.find?_map]
  congr 1
  refine congrArg (fun q => List.find? q t.memberships) ?_
  funext r
  simp [hkey]

/-- An update of other columns than the remote state changes no status. -/
theorem status_update {p : Membership → Bool} {f : Membership → Membership}
    (hf : ∀ r, (f r).serverUid = r.serverUid)
    (hstate : ∀ r, (f r).remoteState = r.remoteState ∧ (f r).movedToFolderId = r.movedToFolderId)
    (h : t'.memberships = update p f t.memberships) (k : ServerUid) :
    t'.status k = t.status k := by
  rw [status,status,rowOf_update hf h,Option.map_map]
  congr 1
  funext r
  by_cases hp : p r = true
  · simp [hp,hstate]
  · simp [hp]

theorem status_updateFlags (accountId : String) (folderId uidvalidity uid : Nat)
    (imapFlags : Option String) (flagsSeenAt : String) (k : ServerUid) :
    (t.updateFlags accountId folderId uidvalidity uid imapFlags flagsSeenAt).status k =
      t.status k :=
  status_update (f := fun r => { r with imapFlags := imapFlags, flagsSeenAt := some flagsSeenAt })
    (fun _ => rfl) (fun _ => ⟨rfl,rfl⟩) rfl k

/-- `update_remote_state` for a message and a folder touches the one row they have. -/
theorem Valid.status_updateRemoteState (ht : t.Valid) {r : Membership} (hr : r ∈ t.memberships)
    {k : ServerUid} (hk : r.serverUid = some k) (state : RemoteState) (movedTo : Option Nat)
    (k' : ServerUid) :
    (t.updateRemoteState r.messageId state movedTo (some r.folderId)).status k' =
      if k' = k then some (state,movedTo) else t.status k' := by
  rw [status,rowOf_update (f := fun r => { r with remoteState := state, movedToFolderId := movedTo })
    (fun _ => rfl) rfl,Option.map_map]
  split
  · next hkk =>
    rw [hkk,ht.rowOf_eq_some_iff.mpr ⟨hr,hk⟩]
    simp
  · next hkk =>
    rw [status]
    cases hrow : t.rowOf k' with
    | none => rfl
    | some s =>
      obtain ⟨hs,hsk⟩ := ht.rowOf_eq_some_iff.mp hrow
      -- another row of the same message and folder would be `r`
      have hne : ¬ (s.messageId = r.messageId ∧ s.folderId = r.folderId) := by
        rintro ⟨hm,hf⟩
        have hsr := ht.membership_eq hs hr hm hf
        rw [hsr,hk] at hsk
        exact hkk (Option.some.inj hsk).symm
      simp [hne]

/-- An update that keeps server UIDs and messages keeps the owners. -/
theorem OwnerAccount.update {k : ServerUid} {accountId : String} (h : t.OwnerAccount k accountId)
    (p : Membership → Bool) (f : Membership → Membership)
    (hf : ∀ r, (f r).serverUid = r.serverUid ∧ (f r).messageId = r.messageId) :
    ({ t with memberships := Relational.update p f t.memberships } : Tables).OwnerAccount
      k accountId := by
  obtain ⟨r,hr,hk,m,hm,hid,haccount⟩ := h
  by_cases hp : p r = true
  · exact ⟨f r,mem_update.mpr (.inr ⟨r,hr,hp,rfl⟩),by rw [(hf r).1,hk],m,hm,by rw [(hf r).2,hid],
      haccount⟩
  · exact ⟨r,mem_update.mpr (.inl ⟨hr,by simpa using hp⟩),hk,m,hm,hid,haccount⟩

end Tables

namespace Repository

theorem replaceMessageMemberships_spec {repo repo' : Repository} {messageId : Nat}
    {memberships : List MembershipRecord}
    (h : repo.replaceMessageMemberships messageId memberships = .ok repo') :
    repo'.tables = { repo.tables with
      memberships := deleteWhere (fun r => r.messageId == messageId) repo.tables.memberships ++
        memberships.map fun r => r.toMembership messageId } := by
  have hinsert : ∀ (rows : List MembershipRecord) (r r' : Repository),
      rows.foldlM (fun r membership => exec "replace message memberships"
        { r.tables with
          memberships := r.tables.memberships ++ [membership.toMembership messageId] }) r =
        .ok r' →
      r'.tables = { r.tables with
        memberships := r.tables.memberships ++ rows.map fun r => r.toMembership messageId } := by
    intro rows
    induction rows with
    | nil =>
      intro r r' h
      cases h
      simp
    | cons row rows ih =>
      intro r r' h
      rw [List.foldlM_cons,Except.bind_eq_ok_iff] at h
      obtain ⟨mid,hmid,hrest⟩ := h
      rw [exec_eq_ok] at hmid
      rw [ih mid r' hrest,hmid]
      simp
  simp only [replaceMessageMemberships,Except.bind_eq_ok_iff,exec_eq_ok] at h
  obtain ⟨cleared,hcleared,hrest⟩ := h
  rw [hinsert memberships cleared repo' hrest,hcleared]

/-- The tables `merge_duplicate_message` has no statement for. -/
theorem mergeDuplicateMessage_frame {repo repo' : Repository} {accountId : String} {c d : Nat}
    (h : repo.mergeDuplicateMessage accountId c d = .ok repo') :
    repo'.tables.accounts = repo.tables.accounts ∧ repo'.tables.folders = repo.tables.folders ∧
      repo'.tables.failures = repo.tables.failures := by
  let Same := fun r : Repository => r.tables.accounts = repo.tables.accounts ∧
    r.tables.folders = repo.tables.folders ∧ r.tables.failures = repo.tables.failures
  have hexec : ∀ {operation : String} {r r' : Repository} {t : Tables}, Same r →
      exec operation t = .ok r' → (t.accounts = r.tables.accounts ∧
        t.folders = r.tables.folders ∧ t.failures = r.tables.failures) → Same r' := by
    intro operation r r' t hr hexec ⟨ha,hf,hx⟩
    rw [exec_eq_ok] at hexec
    simp only [Same,hexec,ha,hf,hx]
    exact hr
  have halias : ∀ (t : Tables) (row : Alias), (t.insertOrIgnoreAlias row).accounts = t.accounts ∧
      (t.insertOrIgnoreAlias row).folders = t.folders ∧
      (t.insertOrIgnoreAlias row).failures = t.failures := by
    intro t row
    unfold Tables.insertOrIgnoreAlias
    split <;> exact ⟨rfl,rfl,rfl⟩
  unfold mergeDuplicateMessage at h
  split at h
  · cases h
    exact ⟨rfl,rfl,rfl⟩
  · dsimp only at h
    split at h
    · next canonical duplicate _ _ =>
      split at h
      · cases h
      · simp only [Except.bind_eq_ok_iff] at h
        obtain ⟨stored,hstored,stated,hstated,contents,hcontents,aliases,haliases,memberships,
          hmemberships,hdeleted⟩ := h
        have h1 : Same stored := by
          unfold mergeStorage at hstored
          split at hstored
          · exact hexec (r := repo) ⟨rfl,rfl,rfl⟩ hstored ⟨rfl,rfl,rfl⟩
          · cases hstored
            exact ⟨rfl,rfl,rfl⟩
        have h2 : Same stated := by
          simp only [mergeState] at hstated
          split at hstated
          · exact hexec h1 hstated ⟨rfl,rfl,rfl⟩
          · cases hstated
            exact h1
        have h3 : Same contents := by
          unfold mergeContents at hcontents
          split at hcontents
          · exact hexec h2 hcontents ⟨rfl,rfl,rfl⟩
          · cases hcontents
            exact h2
        have h4 : Same aliases := by
          simp only [mergeAliases,Except.bind_eq_ok_iff] at haliases
          obtain ⟨copied,hcopied,linked,hlinked,hcleared⟩ := haliases
          have hc : Same copied := Except.foldlM_invariant (I := Same) _
            (fun r a _ r' hr hr' => hexec hr hr' (halias _ _)) h3 hcopied
          exact hexec (hexec hc hlinked (halias _ _)) hcleared ⟨rfl,rfl,rfl⟩
        have h5 : Same memberships := by
          refine Except.foldlM_invariant (I := Same) _ (fun r a _ r' hr hr' => ?_) h4 hmemberships
          unfold mergeMembership at hr'
          split at hr'
          · split at hr'
            · cases hr'
            · exact hexec hr hr' ⟨rfl,rfl,rfl⟩
          · exact hexec hr hr' ⟨rfl,rfl,rfl⟩
        simp only [deleteDuplicate,Except.bind_eq_ok_iff] at hdeleted
        obtain ⟨redirected,hredirected,hdeleted⟩ := hdeleted
        exact hexec (hexec h5 hredirected ⟨rfl,rfl,rfl⟩) hdeleted ⟨rfl,rfl,rfl⟩
    · cases h

/-- A merge changes the status of no server UID and no owner's account. -/
theorem mergeDuplicateMessage_status {repo repo' : Repository} {accountId : String} {c d : Nat}
    (h : repo.mergeDuplicateMessage accountId c d = .ok repo') (k : ServerUid) :
    repo'.tables.status k = repo.tables.status k ∧
      ∀ a, repo.tables.OwnerAccount k a → repo'.tables.OwnerAccount k a := by
  by_cases hcd : c = d
  · simp only [mergeDuplicateMessage,if_pos hcd] at h
    cases h
    exact ⟨rfl,fun _ h => h⟩
  · obtain ⟨canonical,hc,duplicate,hd,rfl,rfl,hca,hda,hmerged⟩ := mergeDuplicateMessage_spec hcd h
    constructor
    · cases hstatus : repo.tables.status k with
      | none =>
        rw [Tables.status_eq_none_iff] at hstatus ⊢
        intro r' hr' hk
        obtain ⟨r,hr,heq,-⟩ := hmerged.origin r' hr'
        exact hstatus r hr (by rw [← serverUid_of_moved heq,hk])
      | some s =>
        obtain ⟨r,hr,hk,hstate,hmoved⟩ := repo.valid.status_eq_some_iff.mp hstatus
        obtain ⟨r',hr',heq,-⟩ := hmerged.carried r hr (by simp [hk])
        have hr'k : r'.serverUid = some k := by rw [serverUid_of_moved heq,hk]
        simp only [Membership.mk.injEq] at heq
        exact repo'.valid.status_eq_some_iff.mpr ⟨r',hr',hr'k,by rw [← hstate]; tauto,
          by rw [← hmoved]; tauto⟩
    · rintro a ⟨r,hr,hk,m,hm,hid,rfl⟩
      obtain ⟨r',hr',heq,hrow⟩ := hmerged.carried r hr (by simp [hk])
      refine ⟨r',hr',by rw [serverUid_of_moved heq,hk],?_⟩
      obtain ⟨m',hm',hmid,hmaccount,-⟩ := hmerged.canonical
      by_cases hrc : r'.messageId = canonical.id
      · refine ⟨m',hm',by rw [hmid,hrc],?_⟩
        rcases hrow with hrow | ⟨hrow,-⟩
        · rw [hmaccount,repo.valid.message_eq hc hm (by rw [hid,← hrow,hrc])]
        · rw [hmaccount,hca,← hda,repo.valid.message_eq hd hm (by rw [hid,hrow])]
      · have hsame : r'.messageId = r.messageId := by
          rcases hrow with hrow | ⟨-,hrow⟩
          · exact hrow
          · exact absurd hrow hrc
        have hrd : m.id ≠ duplicate.id := by
          intro hmd
          obtain ⟨n,hn,hnid⟩ := repo'.valid.membershipMessage r' hr'
          exact hmerged.duplicate n hn (by rw [hnid,hsame,← hid,hmd])
        refine ⟨m,(hmerged.messages m ?_ hrd).mpr hm,by rw [hsame,hid],rfl⟩
        rw [hid,← hsame]
        exact hrc

end Repository

end MailDock
