import MailDock.Repository.Writes

/-!
# What merging a duplicate keeps

`merge_duplicate_message` runs in four stages: the columns of the canonical row,
the aliases, the memberships, and the deletion of the duplicate.  Each stage has
one lemma that says everything it does to the tables the later stages read.
-/

namespace MailDock

open Relational

namespace Tables

/-- The key is the message's own key or one of its aliases. -/
def Resolves (t : Tables) (accountId : String) (key : SourceItemKey) (id : Nat) : Prop :=
  (∃ m ∈ t.messages, m.id = id ∧ m.hasKey accountId key = true) ∨
    ∃ a ∈ t.aliases, a.messageId = id ∧ a.hasKey accountId key = true

instance (t : Tables) (accountId : String) (key : SourceItemKey) (id : Nat) :
    Decidable (t.Resolves accountId key id) :=
  inferInstanceAs (Decidable (_ ∨ _))

/-- The message has a membership for the server's `(folder, uidvalidity, uid)`. -/
def Owns (t : Tables) (id folderId : Nat) (uidvalidity uid : Option Nat) : Prop :=
  ∃ r ∈ t.memberships, r.messageId = id ∧ r.folderId = folderId ∧
    r.uidvalidity = uidvalidity ∧ r.uid = uid

instance (t : Tables) (id folderId : Nat) (uidvalidity uid : Option Nat) :
    Decidable (t.Owns id folderId uidvalidity uid) :=
  inferInstanceAs (Decidable (∃ r ∈ t.memberships, _))

end Tables

theorem Message.hasKey_iff {m : Message} {accountId : String} {key : SourceItemKey} :
    m.hasKey accountId key = true ↔ m.accountId = accountId ∧ m.sourceItemKey = key := by
  simp [Message.hasKey]

theorem Alias.hasKey_iff {a : Alias} {accountId : String} {key : SourceItemKey} :
    a.hasKey accountId key = true ↔ a.accountId = accountId ∧ a.observedSourceItemKey = key := by
  simp [Alias.hasKey]

theorem Membership.isOf_iff {r : Membership} {messageId folderId : Nat} :
    r.isOf messageId folderId = true ↔ r.messageId = messageId ∧ r.folderId = folderId := by
  simp [Membership.isOf]

namespace Tables.Valid

variable {t : Tables} (h : t.Valid)
include h

theorem message_eq {m n : Message} (hm : m ∈ t.messages) (hn : n ∈ t.messages)
    (hid : m.id = n.id) : m = n :=
  h.messageId.eq_of_key hm hn rfl (by simp [hid])

theorem message_eq_of_key {m n : Message} (hm : m ∈ t.messages) (hn : n ∈ t.messages)
    (haccount : m.accountId = n.accountId) (hkey : m.sourceItemKey = n.sourceItemKey) : m = n :=
  h.messageKey.eq_of_key hm hn rfl (by simp [haccount,hkey])

theorem alias_eq {a b : Alias} (ha : a ∈ t.aliases) (hb : b ∈ t.aliases)
    (haccount : a.accountId = b.accountId)
    (hkey : a.observedSourceItemKey = b.observedSourceItemKey) : a = b :=
  h.aliasKey.eq_of_key ha hb rfl (by simp [haccount,hkey])

theorem membership_eq {r s : Membership} (hr : r ∈ t.memberships) (hs : s ∈ t.memberships)
    (hmessage : r.messageId = s.messageId) (hfolder : r.folderId = s.folderId) : r = s :=
  h.membershipKey.eq_of_key hr hs rfl (by simp [hmessage,hfolder])

end Tables.Valid

theorem findAlias_isSome {t : Tables} {accountId : String} {key : SourceItemKey} :
    (t.findAlias accountId key).isSome ↔ ∃ a ∈ t.aliases, a.hasKey accountId key = true := by
  simp [Tables.findAlias]

theorem mem_insertOrIgnoreAlias {t : Tables} {row a : Alias} :
    a ∈ (t.insertOrIgnoreAlias row).aliases ↔ a ∈ t.aliases ∨
      (a = row ∧ ∀ b ∈ t.aliases, b.hasKey row.accountId row.observedSourceItemKey = false) := by
  unfold Tables.insertOrIgnoreAlias
  by_cases hs : (t.findAlias row.accountId row.observedSourceItemKey).isSome
  · rw [if_pos hs]
    obtain ⟨b,hb,hkey⟩ := findAlias_isSome.mp hs
    constructor
    · exact .inl
    · rintro (ha | ⟨rfl,hnone⟩)
      · exact ha
      · simp [hnone b hb] at hkey
  · rw [if_neg hs]
    have hnone : ∀ b ∈ t.aliases, b.hasKey row.accountId row.observedSourceItemKey = false := by
      intro b hb
      by_contra hkey
      exact hs (findAlias_isSome.mpr ⟨b,hb,by simpa using hkey⟩)
    simp only [List.mem_append,List.mem_singleton]
    constructor
    · rintro (ha | rfl)
      · exact .inl ha
      · exact .inr ⟨rfl,hnone⟩
    · rintro (ha | ⟨rfl,-⟩)
      · exact .inl ha
      · exact .inr rfl

theorem insertOrIgnoreAlias_eq_self {t : Tables} {row : Alias}
    (h : ∃ b ∈ t.aliases, b.hasKey row.accountId row.observedSourceItemKey = true) :
    t.insertOrIgnoreAlias row = t := by
  rw [Tables.insertOrIgnoreAlias,if_pos (findAlias_isSome.mpr h)]

theorem insertOrIgnoreAlias_frame (t : Tables) (row : Alias) :
    ∃ aliases, t.insertOrIgnoreAlias row = { t with aliases := aliases } := by
  unfold Tables.insertOrIgnoreAlias
  split
  · exact ⟨t.aliases,rfl⟩
  · exact ⟨_,rfl⟩

namespace Repository

/-- Updating the row of an id leaves every other row alone. -/
theorem mem_update_id {rows : List Message} {id : Nat} {c : Message} {f : Message → Message}
    (hf : ∀ m, (f m).id = m.id) (hc : c ∈ rows) (hid : c.id = id) :
    f c ∈ update (fun m => m.id == id) f rows ∧
      ∀ m : Message, m.id ≠ id → (m ∈ update (fun m => m.id == id) f rows ↔ m ∈ rows) := by
  refine ⟨mem_update.mpr (.inr ⟨c,hc,by simp [hid],rfl⟩),?_⟩
  intro m hm
  rw [mem_update]
  constructor
  · rintro (⟨hm',-⟩ | ⟨a,-,ha,rfl⟩)
    · exact hm'
    · exact absurd (by simpa [hf] using ha) hm
  · exact fun h => .inl ⟨h,by simpa using hm⟩

/-- The columns stages: the canonical row takes over a missing EML and the
stronger local state; no other row and no key changes. -/
structure ColumnsMerged (c d : Message) (t t' : Tables) : Prop where
  memberships : t'.memberships = t.memberships
  aliases : t'.aliases = t.aliases
  others : ∀ m : Message, m.id ≠ c.id → (m ∈ t'.messages ↔ m ∈ t.messages)
  canonical : ∃ m ∈ t'.messages, m.id = c.id ∧ m.accountId = c.accountId ∧
    m.sourceItemKey = c.sourceItemKey ∧
    m.localState = mergedLocalState c.localState d.localState ∧
    m.relativePath =
      (if c.relativePath = none ∧ c.fileHash = none then d.relativePath else c.relativePath) ∧
    m.fileHash = if c.relativePath = none ∧ c.fileHash = none then d.fileHash else c.fileHash

theorem mergeStorage_spec {c d : Message} {repo repo' : Repository}
    (hc : c ∈ repo.tables.messages) (h : mergeStorage c d repo = .ok repo') :
    repo'.tables.memberships = repo.tables.memberships ∧
    repo'.tables.aliases = repo.tables.aliases ∧
    (∀ m : Message, m.id ≠ c.id → (m ∈ repo'.tables.messages ↔ m ∈ repo.tables.messages)) ∧
    ∃ m ∈ repo'.tables.messages, m.id = c.id ∧ m.accountId = c.accountId ∧
      m.sourceItemKey = c.sourceItemKey ∧ m.localState = c.localState ∧ m.relativePath =
        (if c.relativePath = none ∧ c.fileHash = none then d.relativePath else c.relativePath) ∧
      m.fileHash = if c.relativePath = none ∧ c.fileHash = none then d.fileHash else c.fileHash := by
  unfold mergeStorage at h
  split at h
  · next hmissing =>
    have hrow := mem_update_id (f := fun m => { m with
      fileHash := d.fileHash, relativePath := d.relativePath }) (fun _ => rfl) hc rfl
    rw [exec_eq_ok.mp h]
    exact ⟨rfl,rfl,hrow.2,_,hrow.1,rfl,rfl,rfl,rfl,by rw [if_pos hmissing],by rw [if_pos hmissing]⟩
  · next hpresent =>
    cases h
    exact ⟨rfl,rfl,fun _ _ => Iff.rfl,c,hc,rfl,rfl,rfl,rfl,by rw [if_neg hpresent],
      by rw [if_neg hpresent]⟩

theorem mergeState_spec {c d m : Message} {repo repo' : Repository}
    (hm : m ∈ repo.tables.messages) (hid : m.id = c.id) (hstate : m.localState = c.localState)
    (h : mergeState c d repo = .ok repo') :
    repo'.tables.memberships = repo.tables.memberships ∧
    repo'.tables.aliases = repo.tables.aliases ∧
    (∀ n : Message, n.id ≠ c.id → (n ∈ repo'.tables.messages ↔ n ∈ repo.tables.messages)) ∧
    { m with localState := mergedLocalState c.localState d.localState } ∈
      repo'.tables.messages := by
  simp only [mergeState] at h
  split at h
  · have hrow := mem_update_id (f := fun n => { n with
      localState := mergedLocalState c.localState d.localState }) (fun _ => rfl) hm hid
    rw [exec_eq_ok.mp h]
    exact ⟨rfl,rfl,hrow.2,hrow.1⟩
  · next hsame =>
    cases h
    rw [not_not.mp hsame,← hstate]
    exact ⟨rfl,rfl,fun _ _ => Iff.rfl,hm⟩

theorem mergeContents_spec {c d : Message} {repo repo' : Repository}
    (h : mergeContents c d repo = .ok repo') :
    repo'.tables.memberships = repo.tables.memberships ∧
    repo'.tables.aliases = repo.tables.aliases ∧
    repo'.tables.messages = repo.tables.messages := by
  unfold mergeContents at h
  split at h
  · rw [exec_eq_ok.mp h]
    exact ⟨rfl,rfl,rfl⟩
  · cases h
    exact ⟨rfl,rfl,rfl⟩

theorem columnsMerged_of_stages {c d : Message} {repo stored stated repo' : Repository}
    (hc : c ∈ repo.tables.messages) (hstored : mergeStorage c d repo = .ok stored)
    (hstated : mergeState c d stored = .ok stated)
    (hcontents : mergeContents c d stated = .ok repo') :
    ColumnsMerged c d repo.tables repo'.tables := by
  obtain ⟨hmemberships,haliases,hothers,m,hm,hid,haccount,hkey,hstate,hpath⟩ :=
    mergeStorage_spec hc hstored
  obtain ⟨hmemberships',haliases',hothers',hm'⟩ := mergeState_spec hm hid hstate hstated
  obtain ⟨hmemberships'',haliases'',hmessages⟩ := mergeContents_spec hcontents
  refine ⟨?_,?_,?_,?_⟩
  · rw [hmemberships'',hmemberships',hmemberships]
  · rw [haliases'',haliases',haliases]
  · intro n hn
    rw [hmessages,hothers' n hn,hothers n hn]
  · rw [hmessages]
    exact ⟨_,hm',hid,haccount,hkey,rfl,hpath⟩

/-- The alias stage.  The copies of the duplicate's aliases meet their own
originals and are ignored, so the only new row is the one for the duplicate's key. -/
theorem mergeAliases_spec {accountId : String} {c d : Message} {repo repo' : Repository}
    (h : mergeAliases accountId c d repo = .ok repo') :
    repo'.tables.messages = repo.tables.messages ∧
    repo'.tables.memberships = repo.tables.memberships ∧
    ∀ a, a ∈ repo'.tables.aliases ↔ a.messageId ≠ d.id ∧ (a ∈ repo.tables.aliases ∨
      (a = ⟨accountId,d.sourceItemKey,c.id,.mergedDuplicate⟩ ∧
        ∀ b ∈ repo.tables.aliases, b.hasKey accountId d.sourceItemKey = false)) := by
  simp only [mergeAliases,Except.bind_eq_ok_iff,exec_eq_ok] at h
  obtain ⟨copied,hcopied,linked,hlinked,hdeleted⟩ := h
  have hsame : copied.tables = repo.tables := by
    refine Except.foldlM_invariant (I := fun r : Repository => r.tables = repo.tables) _ ?_
      rfl hcopied
    intro r a ha r' hr hr'
    have ha' := (List.mem_filter.mp ha).2
    simp only [Bool.and_eq_true,beq_iff_eq] at ha'
    rw [exec_eq_ok.mp hr',hr]
    exact insertOrIgnoreAlias_eq_self
      ⟨a,(List.mem_filter.mp ha).1,Alias.hasKey_iff.mpr ⟨ha'.2,rfl⟩⟩
  rw [hsame] at hlinked
  obtain ⟨aliases,haliases⟩ := insertOrIgnoreAlias_frame repo.tables
    ⟨accountId,d.sourceItemKey,c.id,.mergedDuplicate⟩
  have hframe := hlinked.trans haliases
  refine ⟨by rw [hdeleted,hframe],by rw [hdeleted,hframe],?_⟩
  intro a
  rw [hdeleted,hlinked]
  simp only [mem_deleteWhere,mem_insertOrIgnoreAlias,beq_eq_false_iff_ne]
  exact and_comm

/-- What moving memberships from `d` to `c` keeps, from one table state to another. -/
structure MembershipsMoved (c d : Nat) (t t' : Tables) : Prop where
  messages : t'.messages = t.messages
  aliases : t'.aliases = t.aliases
  others : ∀ r : Membership, r.messageId ≠ c → r.messageId ≠ d →
    (r ∈ t'.memberships ↔ r ∈ t.memberships)
  owned : ∀ folderId uidvalidity uid, t.Owns c folderId uidvalidity uid ∨
    t.Owns d folderId uidvalidity uid → t'.Owns c folderId uidvalidity uid ∨
    t'.Owns d folderId uidvalidity uid
  remaining : ∀ r ∈ t'.memberships, r.messageId = d → r ∈ t.memberships
  carried : ∀ r ∈ t.memberships, r.serverUid ≠ none → ∃ r' ∈ t'.memberships,
    { r' with messageId := c } = { r with messageId := c } ∧
      (r'.messageId = r.messageId ∨ r.messageId = d ∧ r'.messageId = c)
  origin : ∀ r' ∈ t'.memberships, ∃ r ∈ t.memberships,
    { r' with messageId := c } = { r with messageId := c } ∧
      (r'.messageId = r.messageId ∨ r.messageId = d ∧ r'.messageId = c)

theorem MembershipsMoved.refl (c d : Nat) (t : Tables) : MembershipsMoved c d t t :=
  ⟨rfl,rfl,fun _ _ _ => Iff.rfl,fun _ _ _ h => h,fun _ h _ => h,
    fun r hr _ => ⟨r,hr,rfl,.inl rfl⟩,fun r hr => ⟨r,hr,rfl,.inl rfl⟩⟩

/-- Rows that differ in their message only have the same server UID. -/
theorem serverUid_of_moved {c : Nat} {r r' : Membership}
    (h : ({ r' with messageId := c } : Membership) = { r with messageId := c }) :
    r'.serverUid = r.serverUid := by
  have hserver : ∀ s : Membership, ({ s with messageId := c } : Membership).serverUid =
      s.serverUid := fun _ => rfl
  rw [← hserver r',h,hserver r]

theorem MembershipsMoved.trans {c d : Nat} {t t' t'' : Tables} (h : MembershipsMoved c d t t')
    (h' : MembershipsMoved c d t' t'') : MembershipsMoved c d t t'' where
  messages := h'.messages.trans h.messages
  aliases := h'.aliases.trans h.aliases
  others r hc hd := (h'.others r hc hd).trans (h.others r hc hd)
  owned f v u ho := h'.owned f v u (h.owned f v u ho)
  remaining r hr hd := h.remaining r (h'.remaining r hr hd) hd
  carried r hr huid := by
    obtain ⟨r',hr',heq,hid⟩ := h.carried r hr huid
    obtain ⟨r'',hr'',heq',hid'⟩ := h'.carried r' hr' (by rwa [serverUid_of_moved heq])
    refine ⟨r'',hr'',heq'.trans heq,?_⟩
    grind
  origin r'' hr'' := by
    obtain ⟨r',hr',heq',hid'⟩ := h'.origin r'' hr''
    obtain ⟨r,hr,heq,hid⟩ := h.origin r' hr'
    refine ⟨r,hr,heq'.trans heq,?_⟩
    grind

theorem mergeMembership_spec {c d : Nat} (hcd : c ≠ d) {repo repo' : Repository} {m : Membership}
    (hm : ∀ r ∈ repo.tables.memberships, r.isOf d m.folderId = true →
      r.uid = m.uid ∧ r.uidvalidity = m.uidvalidity)
    (h : mergeMembership c d repo m = .ok repo') :
    MembershipsMoved c d repo.tables repo'.tables ∧
      ∀ r ∈ repo'.tables.memberships, r.messageId = d → r.folderId ≠ m.folderId := by
  unfold mergeMembership at h
  split at h
  · next existing hexisting =>
    -- the canonical message already has the folder: the duplicate's row goes
    split at h
    · cases h
    · next heq =>
      rw [exec_eq_ok] at h
      simp only [ne_eq,not_not,Prod.mk.injEq] at heq
      have hrow := Membership.isOf_iff.mp (List.find?_some hexisting)
      have hmem := List.mem_of_find?_eq_some hexisting
      rw [h]
      refine ⟨⟨rfl,rfl,?_,?_,?_,?_,?_⟩,?_⟩
      · intro r _ hd
        simp [mem_deleteWhere,Membership.isOf,hd]
      · rintro f v u (⟨r,hr,hrc,hf,hv,hu⟩ | ⟨r,hr,hrd,hf,hv,hu⟩)
        · refine .inl ⟨r,mem_deleteWhere.mpr ⟨hr,?_⟩,hrc,hf,hv,hu⟩
          simp [Membership.isOf,hrc,hcd]
        · by_cases hfolder : r.folderId = m.folderId
          · obtain ⟨huid,hvalidity⟩ := hm r hr (Membership.isOf_iff.mpr ⟨hrd,hfolder⟩)
            refine .inl ⟨existing,mem_deleteWhere.mpr ⟨hmem,?_⟩,hrow.1,?_,?_,?_⟩
            · simp [Membership.isOf,hrow.1,hcd]
            · rw [hrow.2,← hfolder,hf]
            · rw [heq.2,← hvalidity,hv]
            · rw [heq.1,← huid,hu]
          · refine .inr ⟨r,mem_deleteWhere.mpr ⟨hr,?_⟩,hrd,hf,hv,hu⟩
            simp [Membership.isOf,hfolder]
      · exact fun r hr _ => (mem_deleteWhere.mp hr).1
      · -- the row that goes has no server UID: the canonical row would share it
        intro r hr huid
        refine ⟨r,mem_deleteWhere.mpr ⟨hr,?_⟩,rfl,.inl rfl⟩
        by_contra hrow'
        have hof : r.isOf d m.folderId = true := by simpa using hrow'
        obtain ⟨hrd,hfolder⟩ := Membership.isOf_iff.mp hof
        obtain ⟨hu,hv⟩ := hm r hr hof
        have hsame : existing.serverUid = r.serverUid := by
          unfold Membership.serverUid
          rw [heq.1,heq.2,hu,hv,hrow.2,hfolder]
        obtain ⟨k,hk⟩ := Option.ne_none_iff_exists'.mp huid
        have := repo.valid.membershipUid.eq_of_key hmem hr (hsame.trans hk) hk
        exact hcd (by rw [← hrow.1,this,hrd])
      · exact fun r hr => ⟨r,(mem_deleteWhere.mp hr).1,rfl,.inl rfl⟩
      · intro r hr hrd hfolder
        have := (mem_deleteWhere.mp hr).2
        simp [Membership.isOf,hrd,hfolder] at this
  · next hnone =>
    rw [exec_eq_ok] at h
    rw [h]
    refine ⟨⟨rfl,rfl,?_,?_,?_,?_,?_⟩,?_⟩
    · intro r hc hd
      rw [mem_update]
      constructor
      · rintro (⟨hr,-⟩ | ⟨a,-,-,rfl⟩)
        · exact hr
        · exact absurd rfl hc
      · exact fun hr => .inl ⟨hr,by simp [Membership.isOf,hd]⟩
    · rintro f v u (⟨r,hr,hrc,hf,hv,hu⟩ | ⟨r,hr,hrd,hf,hv,hu⟩)
      · refine .inl ⟨r,mem_update.mpr (.inl ⟨hr,?_⟩),hrc,hf,hv,hu⟩
        simp [Membership.isOf,hrc,hcd]
      · by_cases hfolder : r.folderId = m.folderId
        · exact .inl ⟨{ r with messageId := c },
            mem_update.mpr (.inr ⟨r,hr,Membership.isOf_iff.mpr ⟨hrd,hfolder⟩,rfl⟩),rfl,hf,hv,hu⟩
        · refine .inr ⟨r,mem_update.mpr (.inl ⟨hr,?_⟩),hrd,hf,hv,hu⟩
          simp [Membership.isOf,hfolder]
    · intro r hr hrd
      rcases mem_update.mp hr with ⟨hr',-⟩ | ⟨a,-,-,rfl⟩
      · exact hr'
      · exact absurd hrd hcd
    · intro r hr _
      by_cases hof : r.isOf d m.folderId = true
      · exact ⟨{ r with messageId := c },mem_update.mpr (.inr ⟨r,hr,hof,rfl⟩),rfl,
          .inr ⟨(Membership.isOf_iff.mp hof).1,rfl⟩⟩
      · exact ⟨r,mem_update.mpr (.inl ⟨hr,by simpa using hof⟩),rfl,.inl rfl⟩
    · intro r' hr'
      rcases mem_update.mp hr' with ⟨hr,-⟩ | ⟨r,hr,hof,rfl⟩
      · exact ⟨r',hr,rfl,.inl rfl⟩
      · exact ⟨r,hr,rfl,.inr ⟨(Membership.isOf_iff.mp hof).1,rfl⟩⟩
    · intro r hr hrd hfolder
      rcases mem_update.mp hr with ⟨-,hp⟩ | ⟨a,-,-,rfl⟩
      · simp [Membership.isOf,hrd,hfolder] at hp
      · exact hcd hrd

theorem mergeMemberships_spec {c d : Nat} (hcd : c ≠ d) {repo repo' : Repository}
    (h : mergeMemberships c d repo = .ok repo') :
    MembershipsMoved c d repo.tables repo'.tables ∧
      ∀ r ∈ repo'.tables.memberships, r.messageId ≠ d := by
  have hstep : ∀ r : Repository, ∀ m ∈ repo.tables.memberships.filter (fun r => r.messageId == d),
      ∀ r', MembershipsMoved c d repo.tables r.tables → mergeMembership c d r m = .ok r' →
      MembershipsMoved c d r.tables r'.tables ∧
        ∀ s ∈ r'.tables.memberships, s.messageId = d → s.folderId ≠ m.folderId := by
    intro r m hm r' hr hr'
    obtain ⟨hmem,hmd⟩ := List.mem_filter.mp hm
    refine mergeMembership_spec hcd ?_ hr'
    -- what is left of the duplicate is a row it had before, so it is `m` itself
    intro s hs hisOf
    obtain ⟨hsd,hfolder⟩ := Membership.isOf_iff.mp hisOf
    have hsm : s = m := repo.valid.membership_eq (hr.remaining s hs hsd) hmem
      (hsd.trans (beq_iff_eq.mp hmd).symm) hfolder
    exact ⟨by rw [hsm],by rw [hsm]⟩
  have hmoved := Except.foldlM_invariant
    (I := fun r : Repository => MembershipsMoved c d repo.tables r.tables) _
    (fun r m hm r' hr hr' => hr.trans (hstep r m hm r' hr hr').1)
    (MembershipsMoved.refl c d repo.tables) h
  refine ⟨hmoved,?_⟩
  have hgone := Except.foldlM_establishes
    (I := fun r : Repository => MembershipsMoved c d repo.tables r.tables)
    (P := fun (m : Membership) (r : Repository) =>
      ∀ s ∈ r.tables.memberships, s.messageId = d → s.folderId ≠ m.folderId) _
    (fun r m hm r' hr hr' => ⟨hr.trans (hstep r m hm r' hr hr').1,(hstep r m hm r' hr hr').2,
      fun y hy s hs hsd => hy s ((hstep r m hm r' hr hr').1.remaining s hs hsd) hsd⟩)
    (MembershipsMoved.refl c d repo.tables) h
  intro r hr hrd
  refine hgone r (List.mem_filter.mpr ⟨hmoved.remaining r hr hrd,by simp [hrd]⟩) r hr hrd rfl

theorem deleteDuplicate_spec {c d : Nat} {repo repo' : Repository}
    (h : deleteDuplicate c d repo = .ok repo') :
    (∀ m, m ∈ repo'.tables.messages ↔ m ∈ repo.tables.messages ∧ m.id ≠ d) ∧
    (∀ r, r ∈ repo'.tables.memberships ↔ r ∈ repo.tables.memberships ∧ r.messageId ≠ d) ∧
    ∀ a, a ∈ repo'.tables.aliases ↔ a ∈ repo.tables.aliases ∧ a.messageId ≠ d := by
  simp only [deleteDuplicate,Except.bind_eq_ok_iff,exec_eq_ok] at h
  obtain ⟨redirected,hredirected,hdeleted⟩ := h
  rw [hdeleted,hredirected]
  simp [mem_deleteWhere]

/-- Everything a successful merge of two different messages does to messages,
memberships and aliases. -/
structure Merged (c d : Message) (t t' : Tables) : Prop where
  canonical : ∃ m ∈ t'.messages, m.id = c.id ∧ m.accountId = c.accountId ∧
    m.sourceItemKey = c.sourceItemKey ∧
    m.localState = mergedLocalState c.localState d.localState ∧
    m.relativePath =
      (if c.relativePath = none ∧ c.fileHash = none then d.relativePath else c.relativePath) ∧
    m.fileHash = if c.relativePath = none ∧ c.fileHash = none then d.fileHash else c.fileHash
  duplicate : ∀ m ∈ t'.messages, m.id ≠ d.id
  messages : ∀ m : Message, m.id ≠ c.id → m.id ≠ d.id → (m ∈ t'.messages ↔ m ∈ t.messages)
  memberships : ∀ r : Membership, r.messageId ≠ c.id → r.messageId ≠ d.id →
    (r ∈ t'.memberships ↔ r ∈ t.memberships)
  owned : ∀ folderId uidvalidity uid, t.Owns c.id folderId uidvalidity uid ∨
    t.Owns d.id folderId uidvalidity uid → t'.Owns c.id folderId uidvalidity uid
  carried : ∀ r ∈ t.memberships, r.serverUid ≠ none → ∃ r' ∈ t'.memberships,
    { r' with messageId := c.id } = { r with messageId := c.id } ∧
      (r'.messageId = r.messageId ∨ r.messageId = d.id ∧ r'.messageId = c.id)
  origin : ∀ r' ∈ t'.memberships, ∃ r ∈ t.memberships,
    { r' with messageId := c.id } = { r with messageId := c.id } ∧
      (r'.messageId = r.messageId ∨ r.messageId = d.id ∧ r'.messageId = c.id)
  aliases : ∀ a, a ∈ t'.aliases ↔ a.messageId ≠ d.id ∧ (a ∈ t.aliases ∨
    (a = ⟨c.accountId,d.sourceItemKey,c.id,.mergedDuplicate⟩ ∧
      ∀ b ∈ t.aliases, b.hasKey c.accountId d.sourceItemKey = false))
  sameHash : c.fileHash ≠ none → d.fileHash ≠ none → c.fileHash = d.fileHash

theorem mergeDuplicateMessage_spec {repo repo' : Repository} {accountId : String} {c d : Nat}
    (hcd : c ≠ d) (h : repo.mergeDuplicateMessage accountId c d = .ok repo') :
    ∃ canonical ∈ repo.tables.messages, ∃ duplicate ∈ repo.tables.messages,
      canonical.id = c ∧ duplicate.id = d ∧ canonical.accountId = accountId ∧
      duplicate.accountId = accountId ∧ Merged canonical duplicate repo.tables repo'.tables := by
  simp only [mergeDuplicateMessage,if_neg hcd] at h
  split at h
  · next canonical duplicate hcanonical hduplicate =>
    split at h
    · cases h
    · next hhash =>
      simp only [Except.bind_eq_ok_iff] at h
      obtain ⟨stored,hstored,stated,hstated,contents,hcontents,aliases,haliases,memberships,
        hmemberships,hdeleted⟩ := h
      have hc := List.find?_some hcanonical
      have hd := List.find?_some hduplicate
      simp only [Bool.and_eq_true,beq_iff_eq] at hc hd
      obtain ⟨rfl,hca⟩ := hc
      obtain ⟨rfl,hda⟩ := hd
      have hcmem := List.mem_of_find?_eq_some hcanonical
      refine ⟨canonical,hcmem,duplicate,List.mem_of_find?_eq_some hduplicate,rfl,rfl,hca,hda,?_⟩
      have hcolumns := columnsMerged_of_stages hcmem hstored hstated hcontents
      obtain ⟨hmessages1,hmemberships1,haliases1⟩ := mergeAliases_spec haliases
      obtain ⟨hmoved,hnone⟩ := mergeMemberships_spec hcd hmemberships
      obtain ⟨hmessages2,hmemberships2,haliases2⟩ := deleteDuplicate_spec hdeleted
      have hmemberships0 : aliases.tables.memberships = repo.tables.memberships := by
        rw [hmemberships1,hcolumns.memberships]
      have howns : ∀ id f v u, aliases.tables.Owns id f v u ↔ repo.tables.Owns id f v u := by
        intro id f v u
        rw [Tables.Owns,Tables.Owns,hmemberships0]
      refine ⟨?_,?_,?_,?_,?_,?_,?_,?_,?_⟩
      · obtain ⟨m,hm,hid,hrest⟩ := hcolumns.canonical
        refine ⟨m,(hmessages2 m).mpr ⟨?_,by rw [hid]; exact hcd⟩,hid,hrest⟩
        rw [hmoved.messages,hmessages1]
        exact hm
      · exact fun m hm => ((hmessages2 m).mp hm).2
      · intro m hmc hmd
        rw [hmessages2,hmoved.messages,hmessages1,hcolumns.others m hmc]
        exact and_iff_left hmd
      · intro r hrc hrd
        rw [hmemberships2,hmoved.others r hrc hrd,hmemberships0]
        exact and_iff_left hrd
      · intro f v u ho
        rcases hmoved.owned f v u (by rwa [howns,howns]) with ⟨r,hr,hrc,hrest⟩ | ⟨r,hr,hrd,-⟩
        · exact ⟨r,(hmemberships2 r).mpr ⟨hr,by rw [hrc]; exact hcd⟩,hrc,hrest⟩
        · exact absurd hrd (hnone r hr)
      · intro r hr huid
        obtain ⟨r',hr',hrest⟩ := hmoved.carried r (by rwa [hmemberships0]) huid
        exact ⟨r',(hmemberships2 r').mpr ⟨hr',hnone r' hr'⟩,hrest⟩
      · intro r' hr'
        obtain ⟨r,hr,hrest⟩ := hmoved.origin r' ((hmemberships2 r').mp hr').1
        exact ⟨r,by rwa [← hmemberships0],hrest⟩
      · intro a
        rw [haliases2,hmoved.aliases,haliases1,hcolumns.aliases,hca]
        exact ⟨fun h => h.1,fun h => ⟨h,h.1⟩⟩
      · intro hcanon hdup
        by_contra hdiffer
        exact hhash ⟨hcanon,hdup,hdiffer⟩
  · cases h

/-- Nothing is lost between `t` and `t'` when `d` is merged into `c`: identities,
server UIDs, the rows of other messages, a state short of purged, a stored EML. -/
structure MergeLossless (c d : Nat) (t t' : Tables) : Prop where
  ownKey : ∀ m ∈ t.messages, m.id = d → t'.Resolves m.accountId m.sourceItemKey c
  aliases : ∀ a ∈ t.aliases, a.messageId = d → t'.Resolves a.accountId a.observedSourceItemKey c
  owned : ∀ r ∈ t.memberships, r.messageId = c ∨ r.messageId = d →
    t'.Owns c r.folderId r.uidvalidity r.uid
  otherMessages : ∀ m : Message, m.id ≠ c → m.id ≠ d → (m ∈ t'.messages ↔ m ∈ t.messages)
  otherMemberships : ∀ r : Membership, r.messageId ≠ c → r.messageId ≠ d →
    (r ∈ t'.memberships ↔ r ∈ t.memberships)
  otherAliases : ∀ a : Alias, a.messageId ≠ c → a.messageId ≠ d →
    (a ∈ t'.aliases ↔ a ∈ t.aliases)
  canonicalAliases : c ≠ d → ∀ a ∈ t.aliases, a.messageId = c → a ∈ t'.aliases
  notPurged : (∃ m ∈ t.messages, (m.id = c ∨ m.id = d) ∧ m.localState ≠ .purged) →
    ∀ m ∈ t'.messages, m.id = c → m.localState ≠ .purged
  path : (∃ m ∈ t.messages, (m.id = c ∨ m.id = d) ∧ m.relativePath ≠ none) →
    ∃ m ∈ t'.messages, m.id = c ∧ m.relativePath ≠ none

/-- Before the merge: an alias of the duplicate is the canonical key, an alias
under the duplicate's key already points at the canonical message, and a
canonical row that lacks only the path is not merged with a row that has one. -/
def MergeSafe (c d : Nat) (t : Tables) : Prop :=
  c ≠ d → ∀ m ∈ t.messages, m.id = c → ∀ n ∈ t.messages, n.id = d →
    (∀ a ∈ t.aliases, a.messageId = d → m.hasKey a.accountId a.observedSourceItemKey = true) ∧
    (∀ a ∈ t.aliases, a.hasKey n.accountId n.sourceItemKey = true → a.messageId = c) ∧
    ¬(m.relativePath = none ∧ m.fileHash ≠ none ∧ n.relativePath ≠ none)

instance (c d : Nat) (t : Tables) : Decidable (MergeSafe c d t) :=
  inferInstanceAs (Decidable (c ≠ d → ∀ m ∈ t.messages, m.id = c → _))

theorem mergeLossless_refl {t : Tables} (ht : t.Valid) (c : Nat) : MergeLossless c c t t where
  ownKey m hm hid := .inl ⟨m,hm,hid,Message.hasKey_iff.mpr ⟨rfl,rfl⟩⟩
  aliases a ha hid := .inr ⟨a,ha,hid,Alias.hasKey_iff.mpr ⟨rfl,rfl⟩⟩
  owned r hr hid := ⟨r,hr,hid.elim id id,rfl,rfl,rfl⟩
  otherMessages _ _ _ := Iff.rfl
  otherMemberships _ _ _ := Iff.rfl
  otherAliases _ _ _ := Iff.rfl
  canonicalAliases _ a ha _ := ha
  notPurged := by
    rintro ⟨m,hm,hid,hstate⟩ n hn hnid
    have hmn : m = n := ht.message_eq hm hn (by rw [hnid]; exact hid.elim id id)
    exact hmn ▸ hstate
  path := fun ⟨m,hm,hid,hpath⟩ => ⟨m,hm,hid.elim id id,hpath⟩

theorem mergedLocalState_ne_purged {c d : LocalState} (h : c ≠ .purged ∨ d ≠ .purged) :
    mergedLocalState c d ≠ .purged := by
  cases c <;> cases d <;> simp_all [mergedLocalState]

section
variable {c d : Message} {t t' : Tables} (hm : Merged c d t t') (ht : t.Valid) (ht' : t'.Valid)
include hm ht ht'

/-- An alias of the duplicate has no row afterwards, so only the canonical key can answer. -/
theorem Merged.resolves_alias_iff {a : Alias} (ha : a ∈ t.aliases)
    (had : a.messageId = d.id) : t'.Resolves a.accountId a.observedSourceItemKey c.id ↔
      c.hasKey a.accountId a.observedSourceItemKey = true := by
  obtain ⟨m,hmem,hid,haccount,hkey,-⟩ := hm.canonical
  constructor
  · rintro (⟨n,hn,hnid,hnkey⟩ | ⟨b,hb,hbid,hbkey⟩)
    · have hnm : n = m := ht'.message_eq hn hmem (hnid.trans hid.symm)
      rw [hnm,Message.hasKey_iff,haccount,hkey] at hnkey
      exact Message.hasKey_iff.mpr hnkey
    · rw [Alias.hasKey_iff] at hbkey
      rcases ((hm.aliases b).mp hb).2 with hb' | ⟨rfl,hnone⟩
      · have hba : b = a := ht.alias_eq hb' ha hbkey.1 hbkey.2
        exact absurd (hba ▸ had) ((hm.aliases b).mp hb).1
      · have hfalse := hnone a ha
        rw [show a.hasKey c.accountId d.sourceItemKey = true from
          Alias.hasKey_iff.mpr ⟨hbkey.1.symm,hbkey.2.symm⟩] at hfalse
        cases hfalse
  · intro hckey
    rw [Message.hasKey_iff] at hckey
    refine .inl ⟨m,hmem,hid,Message.hasKey_iff.mpr ?_⟩
    rw [haccount,hkey]
    exact hckey

/-- The row for the duplicate's own key is ignored when the key already has one. -/
theorem Merged.resolves_duplicate_iff (hcd : c.id ≠ d.id) (hne : c.sourceItemKey ≠ d.sourceItemKey)
    (haccount : d.accountId = c.accountId) :
    t'.Resolves d.accountId d.sourceItemKey c.id ↔
      ∀ a ∈ t.aliases, a.hasKey d.accountId d.sourceItemKey = true → a.messageId = c.id := by
  rw [haccount]
  obtain ⟨m,hmem,hid,-,hkey,-⟩ := hm.canonical
  constructor
  · rintro (⟨n,hn,hnid,hnkey⟩ | ⟨b,hb,hbid,hbkey⟩) a ha hakey
    · have hnm : n = m := ht'.message_eq hn hmem (hnid.trans hid.symm)
      rw [hnm,Message.hasKey_iff,hkey] at hnkey
      exact absurd hnkey.2 hne
    · rcases ((hm.aliases b).mp hb).2 with hb' | ⟨-,hnone⟩
      · rw [Alias.hasKey_iff] at hakey hbkey
        have hba : b = a := ht.alias_eq hb' ha (hbkey.1.trans hakey.1.symm)
          (hbkey.2.trans hakey.2.symm)
        exact hba ▸ hbid
      · rw [hnone a ha] at hakey
        cases hakey
  · intro hall
    by_cases hnone : ∀ b ∈ t.aliases, b.hasKey c.accountId d.sourceItemKey = false
    · refine .inr ⟨⟨c.accountId,d.sourceItemKey,c.id,.mergedDuplicate⟩,?_,rfl,?_⟩
      · exact (hm.aliases _).mpr ⟨hcd,.inr ⟨rfl,hnone⟩⟩
      · exact Alias.hasKey_iff.mpr ⟨rfl,rfl⟩
    · simp only [not_forall,Bool.not_eq_false] at hnone
      obtain ⟨a,ha,hakey⟩ := hnone
      have hac : a.messageId = c.id := hall a ha hakey
      exact .inr ⟨a,(hm.aliases a).mpr ⟨by rw [hac]; exact hcd,.inl ha⟩,hac,hakey⟩

theorem Merged.path_iff (hc : c ∈ t.messages) (hd : d ∈ t.messages) :
    ((∃ m ∈ t.messages, (m.id = c.id ∨ m.id = d.id) ∧ m.relativePath ≠ none) →
      ∃ m ∈ t'.messages, m.id = c.id ∧ m.relativePath ≠ none) ↔
    ¬(c.relativePath = none ∧ c.fileHash ≠ none ∧ d.relativePath ≠ none) := by
  obtain ⟨m,hmem,hid,-,-,-,hpath,-⟩ := hm.canonical
  constructor
  · rintro h ⟨hcpath,hchash,hdpath⟩
    obtain ⟨n,hn,hnid,hnpath⟩ := h ⟨d,hd,.inr rfl,hdpath⟩
    have hnm : n = m := ht'.message_eq hn hmem (hnid.trans hid.symm)
    rw [hnm,hpath,if_neg (fun h => hchash h.2)] at hnpath
    exact hnpath hcpath
  · rintro h ⟨n,hn,hnid,hnpath⟩
    refine ⟨m,hmem,hid,?_⟩
    rw [hpath]
    by_cases hcpath : c.relativePath = none
    · have hnd : n = d := by
        rcases hnid with hnc | hnd
        · exact absurd (ht.message_eq hn hc hnc ▸ hcpath) hnpath
        · exact ht.message_eq hn hd hnd
      have hchash : c.fileHash = none := by
        by_contra hchash
        exact h ⟨hcpath,hchash,hnd ▸ hnpath⟩
      rw [if_pos ⟨hcpath,hchash⟩]
      exact hnd ▸ hnpath
    · rw [if_neg (fun h => hcpath h.1)]
      exact hcpath

theorem Merged.lossless_iff (hc : c ∈ t.messages) (hd : d ∈ t.messages) (hcd : c.id ≠ d.id)
    (haccount : d.accountId = c.accountId) :
    MergeLossless c.id d.id t t' ↔ MergeSafe c.id d.id t := by
  have hne : c.sourceItemKey ≠ d.sourceItemKey := fun hkey =>
    hcd (congrArg Message.id (ht.message_eq_of_key hc hd haccount.symm hkey))
  constructor
  · intro h _ m hm' hmid n hn hnid
    rw [ht.message_eq hm' hc hmid,ht.message_eq hn hd hnid]
    refine ⟨?_,?_,?_⟩
    · exact fun a ha had => (hm.resolves_alias_iff ht ht' ha had).mp (h.aliases a ha had)
    · exact (hm.resolves_duplicate_iff ht ht' hcd hne haccount).mp (h.ownKey d hd rfl)
    · exact (hm.path_iff ht ht' hc hd).mp h.path
  · intro h
    obtain ⟨haliases,hown,hpath⟩ := h hcd c hc rfl d hd rfl
    refine ⟨?_,?_,?_,hm.messages,hm.memberships,?_,?_,?_,?_⟩
    · intro m hm' hmid
      rw [ht.message_eq hm' hd hmid]
      exact (hm.resolves_duplicate_iff ht ht' hcd hne haccount).mpr hown
    · exact fun a ha had => (hm.resolves_alias_iff ht ht' ha had).mpr (haliases a ha had)
    · rintro r hr (hrc | hrd)
      · exact hm.owned _ _ _ (.inl ⟨r,hr,hrc,rfl,rfl,rfl⟩)
      · exact hm.owned _ _ _ (.inr ⟨r,hr,hrd,rfl,rfl,rfl⟩)
    · intro a hac had
      rw [hm.aliases]
      constructor
      · rintro ⟨-,ha | ⟨rfl,-⟩⟩
        · exact ha
        · exact absurd rfl hac
      · exact fun ha => ⟨had,.inl ha⟩
    · intro _ a ha hac
      exact (hm.aliases a).mpr ⟨by rw [hac]; exact hcd,.inl ha⟩
    · rintro ⟨m,hm',hmid,hstate⟩ n hn hnid
      obtain ⟨k,hk,hkid,-,-,hkstate,-⟩ := hm.canonical
      rw [ht'.message_eq hn hk (hnid.trans hkid.symm),hkstate]
      refine mergedLocalState_ne_purged ?_
      rcases hmid with hmc | hmd
      · exact .inl (ht.message_eq hm' hc hmc ▸ hstate)
      · exact .inr (ht.message_eq hm' hd hmd ▸ hstate)
    · exact (hm.path_iff ht ht' hc hd).mpr hpath

end

/-- A successful merge loses nothing exactly when the duplicate brings no alias of
its own, no foreign alias holds its key, and the canonical row does not lack only the path. -/
theorem mergeDuplicateMessage_lossless_iff (repo repo' : Repository) (accountId : String)
    (c d : Nat) (h : repo.mergeDuplicateMessage accountId c d = .ok repo') :
    MergeLossless c d repo.tables repo'.tables ↔ MergeSafe c d repo.tables := by
  by_cases hcd : c = d
  · subst hcd
    simp only [mergeDuplicateMessage,if_true,Except.ok.injEq] at h
    subst h
    exact ⟨fun _ hne => absurd rfl hne,fun _ => mergeLossless_refl repo.valid c⟩
  · obtain ⟨canonical,hc,duplicate,hd,rfl,rfl,hca,hda,hmerged⟩ :=
      mergeDuplicateMessage_spec hcd h
    exact hmerged.lossless_iff repo.valid repo'.valid hc hd hcd (hda.trans hca.symm)

/-- Two copies of one EML, the second known under a further key from an earlier merge. -/
def chainedDuplicate : Repository where
  tables :=
    { accounts := [{ id := "work" }]
      folders := [⟨1,"work","INBOX","INBOX",some 9,12,true,none,none,true,none⟩,
        ⟨2,"work","Trash","Trash",some 9,5,true,none,none,true,none⟩]
      messages := [⟨1,"work",none,"k",.imap "INBOX" 9 12,.active,none,some "a.eml",some "h",{},
          some 3,none,none,none⟩,
        ⟨2,"work",none,"k",.imap "Trash" 9 5,.active,none,some "a.eml",some "h",{},
          some 3,none,none,none⟩]
      memberships := [⟨1,1,some 12,some 9,.present,none,none,none,none⟩,
        ⟨2,2,some 5,some 9,.present,none,none,none,none⟩]
      aliases := [⟨"work",.imap "Archive" 9 7,2,.copyuid⟩]
      nextFolderId := 3
      nextMessageId := 3 }
  valid := by decide

/-- The same two messages without the earlier merge. -/
def plainDuplicate : Repository where
  tables := { chainedDuplicate.tables with aliases := [] }
  valid := by decide

theorem mergeDuplicateMessage_drops_alias :
    ∃ repo', chainedDuplicate.mergeDuplicateMessage "work" 1 2 = .ok repo' ∧
      chainedDuplicate.tables.Resolves "work" (.imap "Archive" 9 7) 2 ∧
      ¬MergeLossless 1 2 chainedDuplicate.tables repo'.tables := by
  refine ⟨_,rfl,by decide,?_⟩
  intro h
  have hresolves := h.aliases ⟨"work",.imap "Archive" 9 7,2,.copyuid⟩ (by decide) rfl
  revert hresolves
  decide

theorem mergeDuplicateMessage_lossless_plain :
    ∃ repo', plainDuplicate.mergeDuplicateMessage "work" 1 2 = .ok repo' ∧
      MergeLossless 1 2 plainDuplicate.tables repo'.tables := by
  refine ⟨_,rfl,(mergeDuplicateMessage_lossless_iff plainDuplicate _ "work" 1 2 rfl).mpr ?_⟩
  decide

end Repository

end MailDock
