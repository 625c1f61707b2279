import MailDock.DeleteRemote.Candidate
import MailDock.Domain.Calendar
import MailDock.Search.Pages

/-!
# Planning a remote deletion

`select_delete_scope` picks the oldest messages of a listing, `dry_run` verifies the messages
it is asked for and sorts them into candidates and exclusions.

## Main definitions

- `selectDeleteScope`, `dryRun` — the two functions
- `DeleteScope.Selects` — what the scope of a listing has to be
- `Planned` — what is known of a candidate

## Main result

- `selectDeleteScope_dryRun` — the scope is the oldest part, the plan a partition
-/

namespace MailDock

open Hoare

structure DeleteExclusion where
  messageId : Nat
  reason : String
  subject : String := ""
  sizeBytes : Nat := 0
deriving DecidableEq, Repr

structure DeleteScope where
  messageIds : List Nat
  flaggedMessageIds : List Nat
  nonDeletableMessageIds : List Nat
  matchedCount : Nat
  flaggedExcludedCount : Nat
  truncated : Bool
  deleteBatchLimit : Int
deriving DecidableEq, Repr

structure DeleteDryRunResult where
  candidates : List DeleteCandidate := []
  exclusions : List DeleteExclusion := []
  totalSizeBytes : Nat := 0
  excludeFlagged : Bool := false
  scope : Option DeleteScope := none
deriving DecidableEq, Repr

/-! ## The scope -/

namespace MessageSummary

def date (item : MessageSummary) : Option Stamp := item.dateSent.or item.internalDate

end MessageSummary

/-- The date in UTC, a naive one being taken as UTC. -/
def Stamp.instant (s : Stamp) : Nat := s.time.micros s.microsecond

/-- `_delete_scope_sort_key`; what stands for the missing date is never compared with one. -/
def deleteScopeSortKey (item : MessageSummary) : Nat ×ₗ (Nat ×ₗ Nat) :=
  match item.date with
  | none => toLex (0,toLex (0,item.id))
  | some value => toLex (1,toLex (value.instant,item.id))

def MessageSummary.isFlagged (item : MessageSummary) : Bool :=
  hasImapFlag (item.imapFlags.getD "") "\\Flagged"

def selectDeleteScope (summaries : List MessageSummary) (excludeFlagged : Bool) (limit : Int) :
    Except Error DeleteScope :=
  if limit ≤ 0 then .error ⟨.value,"limit must be positive"⟩
  else
    let nonDeletable := (summaries.filter fun item => item.remoteState != .present).map (·.id)
    let flagged := (summaries.filter fun item =>
      !nonDeletable.contains item.id && excludeFlagged && item.isFlagged).map (·.id)
    let eligible := (summaries.filter fun item =>
      !(nonDeletable.contains item.id || flagged.contains item.id)).insertionSort
        fun a b => deleteScopeSortKey a ≤ deleteScopeSortKey b
    let messageIds := (eligible.take limit.toNat).map (·.id)
    .ok { messageIds := messageIds, flaggedMessageIds := flagged,
          nonDeletableMessageIds := nonDeletable, matchedCount := summaries.length,
          flaggedExcludedCount := flagged.length,
          truncated := decide ((summaries.length : Int) - nonDeletable.length - flagged.length -
            messageIds.length > 0),
          deleteBatchLimit := limit }

/-! ## The plan -/

/-- `fixed_exclusions.get(message_id)`: the second mapping overwrites the first. -/
def DeleteScope.fixedReason (scope : DeleteScope) (messageId : Nat) : Option String :=
  if scope.nonDeletableMessageIds.contains messageId then some "remote_state_not_deletable"
  else if scope.flaggedMessageIds.contains messageId then some "flagged"
  else none

section
variable (env : Env)

/-- `ensure_imap_message`. -/
def ensureImapMessage (message : Message) : App Unit :=
  if message.accountId = "" then pure () else ensureImapAccount env message.accountId

/-- One round of the loop of `dry_run`. -/
def planMessage (folderId : Option Nat) (excludeFlagged : Bool) (scope : Option DeleteScope)
    (plan : DeleteDryRunResult) (item : Nat × Option (Message × Option Membership)) :
    App DeleteDryRunResult := do
  let exclude := fun (reason : String) => { plan with
    exclusions := plan.exclusions ++ [match item.2 with
      | some (message,_) =>
        ⟨item.1,reason,message.envelope.subject,message.sizeBytes.getD 0⟩
      | none => ⟨item.1,reason,"",0⟩] }
  match scope.bind (·.fixedReason item.1) with
  | some reason => pure (exclude reason)
  | none =>
    if scope.any fun s => !s.messageIds.contains item.1 then
      pure { plan with
        exclusions := plan.exclusions ++ [⟨item.1,"outside_delete_scope","",0⟩] }
    else
      match item.2 with
      | none => pure (exclude "message_not_found")
      | some (message,first) =>
        let verified ← candidateFromRecord env message first folderId excludeFlagged scope.isSome
        match verified with
        | .error reason => pure (exclude reason)
        | .ok candidate => pure { plan with candidates := plan.candidates ++ [candidate] }

def dryRun (messageIds : List Nat) (folderId : Option Nat) (excludeFlagged : Bool)
    (scope : Option DeleteScope) : App DeleteDryRunResult := do
  let records ← messageIds.foldlM (fun records messageId => do
    let record ← queryRepo env fun t => t.getMessage messageId
    pure (records ++ [(messageId,record)])) []
  records.forM fun item => match item.2 with
    | some (message,_) => ensureImapMessage env message
    | none => pure ()
  let t ← nextTick
  if env.remoteDeleteAllowed t = false then
    throw ⟨.storageDetached,"Remote deletion requires attached storage"⟩
  else
    let plan ← records.foldlM (planMessage env folderId excludeFlagged scope) {}
    pure { plan with
      totalSizeBytes := (plan.candidates.map (·.sizeBytes)).sum
      excludeFlagged := excludeFlagged
      scope := scope }

end

/-! ## The oldest messages -/

namespace MessageSummary

/-- A message without a date comes first, then the earlier one; the id breaks ties. -/
def Older (a b : MessageSummary) : Prop :=
  match a.date,b.date with
  | none,none => a.id < b.id
  | none,some _ => True
  | some _,none => False
  | some s,some t => s.instant < t.instant ∨ s.instant = t.instant ∧ a.id < b.id

/-- A message the scope may take. -/
def isDeletable (excludeFlagged : Bool) (item : MessageSummary) : Bool :=
  item.remoteState == .present && !(excludeFlagged && item.isFlagged)

end MessageSummary

open MessageSummary

/-- The scope is the older part of the deletable messages, as far as the limit allows. -/
def DeleteScope.Selects (scope : DeleteScope) (summaries : List MessageSummary)
    (excludeFlagged : Bool) (limit : Nat) : Prop :=
  ∃ chosen rest : List MessageSummary,
    (chosen ++ rest).Perm (summaries.filter (isDeletable excludeFlagged)) ∧
    chosen.Pairwise Older ∧ (∀ a ∈ chosen, ∀ b ∈ rest, a.Older b) ∧
    chosen.length = min limit (chosen ++ rest).length ∧
    scope.messageIds = chosen.map (·.id) ∧ (scope.truncated = true ↔ rest ≠ [])

theorem deleteScopeSortKey_lt {a b : MessageSummary} :
    deleteScopeSortKey a < deleteScopeSortKey b ↔ a.Older b := by
  unfold deleteScopeSortKey Older
  cases a.date with
  | none => cases b.date <;> simp [Prod.Lex.lt_iff]
  | some s => cases b.date <;> simp [Prod.Lex.lt_iff]

theorem id_eq_of_sortKey {a b : MessageSummary} (h : deleteScopeSortKey a = deleteScopeSortKey b) :
    a.id = b.id := by
  have hid : ∀ item : MessageSummary, (ofLex (ofLex (deleteScopeSortKey item)).2).2 = item.id := by
    intro item
    unfold deleteScopeSortKey
    cases item.date <;> rfl
  rw [← hid a,← hid b,h]

/-- Sorting messages with different ids leaves no ties. -/
theorem pairwise_older {items : List MessageSummary} (h : (items.map (·.id)).Nodup) :
    (items.insertionSort fun a b => deleteScopeSortKey a ≤ deleteScopeSortKey b).Pairwise
      Older := by
  have htotal : Std.Total fun a b : MessageSummary => deleteScopeSortKey a ≤ deleteScopeSortKey b :=
    ⟨fun a b => le_total _ _⟩
  have htrans : IsTrans MessageSummary fun a b => deleteScopeSortKey a ≤ deleteScopeSortKey b :=
    ⟨fun a b c hab hbc => hab.trans hbc⟩
  have hsorted := List.pairwise_insertionSort
    (fun a b : MessageSummary => deleteScopeSortKey a ≤ deleteScopeSortKey b) items
  have hperm := List.perm_insertionSort
    (fun a b : MessageSummary => deleteScopeSortKey a ≤ deleteScopeSortKey b) items
  have hids := List.pairwise_map.mp ((hperm.map (·.id)).nodup_iff.mpr h)
  refine (hsorted.and hids).imp fun hab => deleteScopeSortKey_lt.mp ?_
  exact lt_of_le_of_ne hab.1 fun heq => hab.2 (id_eq_of_sortKey heq)

/-- Every message is in another state, flagged or deletable. -/
theorem length_eq_filters (excludeFlagged : Bool) (summaries : List MessageSummary) :
    summaries.length = (summaries.filter fun item => item.remoteState != .present).length +
      (summaries.filter fun item => item.remoteState == .present && excludeFlagged &&
        item.isFlagged).length + (summaries.filter (isDeletable excludeFlagged)).length := by
  induction summaries with
  | nil => rfl
  | cons item summaries ih =>
    rw [List.length_cons,ih]
    cases hstate : item.remoteState == .present <;> cases excludeFlagged <;>
      cases hflagged : item.isFlagged <;>
        simp only [List.filter_cons,isDeletable,bne,hstate,hflagged,Bool.not_true,Bool.not_false,
          Bool.and_true,Bool.and_false,Bool.false_eq_true,if_true,if_false,List.length_cons] <;>
        omega

section
variable {summaries : List MessageSummary} (hids : (summaries.map (·.id)).Nodup)
include hids

/-- With different ids, the ids of some messages tell which messages they are. -/
theorem contains_ids {p : MessageSummary → Bool} {item : MessageSummary} (hitem : item ∈ summaries) :
    ((summaries.filter p).map (·.id)).contains item.id = p item := by
  rw [Bool.eq_iff_iff,List.contains_iff_mem,List.mem_map]
  constructor
  · rintro ⟨other,hother,hid⟩
    obtain ⟨hmem,hp⟩ := List.mem_filter.mp hother
    rwa [← List.inj_on_of_nodup_map hids hmem hitem hid]
  · intro hp
    exact ⟨item,List.mem_filter.mpr ⟨hitem,hp⟩,rfl⟩

theorem selectDeleteScope_selects (excludeFlagged : Bool) {limit : Int} (hlimit : 0 < limit) :
    ∃ scope, selectDeleteScope summaries excludeFlagged limit = .ok scope ∧
      scope.Selects summaries excludeFlagged limit.toNat := by
  have hflagged : summaries.filter (fun item =>
      !((summaries.filter fun item => item.remoteState != .present).map (·.id)).contains item.id &&
        excludeFlagged && item.isFlagged) =
      summaries.filter fun item => item.remoteState == .present && excludeFlagged &&
        item.isFlagged := by
    apply List.filter_congr
    intro item hitem
    rw [contains_ids hids hitem,bne,Bool.not_not]
  have heligible : summaries.filter (fun item =>
      !(((summaries.filter fun item => item.remoteState != .present).map (·.id)).contains item.id ||
        ((summaries.filter fun item => item.remoteState == .present && excludeFlagged &&
          item.isFlagged).map (·.id)).contains item.id)) =
      summaries.filter (isDeletable excludeFlagged) := by
    apply List.filter_congr
    intro item hitem
    rw [contains_ids hids hitem,contains_ids hids hitem,isDeletable,bne]
    cases item.remoteState == .present <;> cases excludeFlagged <;> cases item.isFlagged <;> rfl
  have hcount : summaries.length =
      (summaries.filter fun item => item.remoteState != .present).length +
      (summaries.filter fun item => item.remoteState == .present && excludeFlagged &&
        item.isFlagged).length + (summaries.filter (isDeletable excludeFlagged)).length :=
    length_eq_filters excludeFlagged summaries
  unfold selectDeleteScope
  rw [if_neg (by omega)]
  refine ⟨_,rfl,?_⟩
  simp only [hflagged,heligible,List.length_map]
  generalize hsorted : (summaries.filter (isDeletable excludeFlagged)).insertionSort
    (fun a b => deleteScopeSortKey a ≤ deleteScopeSortKey b) = sorted
  have hperm : sorted.Perm (summaries.filter (isDeletable excludeFlagged)) := by
    rw [← hsorted]
    exact List.perm_insertionSort _ _
  have hnodup : ((summaries.filter (isDeletable excludeFlagged)).map (·.id)).Nodup :=
    hids.sublist (List.filter_sublist.map _)
  have hpairwise : (sorted.take limit.toNat ++ sorted.drop limit.toNat).Pairwise Older := by
    rw [List.take_append_drop,← hsorted]
    exact pairwise_older hnodup
  obtain ⟨hchosen,-,hcross⟩ := List.pairwise_append.mp hpairwise
  refine ⟨sorted.take limit.toNat,sorted.drop limit.toNat,?_,hchosen,hcross,?_,rfl,?_⟩
  · rwa [List.take_append_drop]
  · rw [List.take_append_drop,List.length_take]
  · have hlength := hperm.length_eq
    rw [decide_eq_true_eq,List.length_take,ne_eq,List.drop_eq_nil_iff]
    omega

end

/-! ## The candidates -/

/-- A candidate of a plan made with a scope: its message is one the scope selected, the membership
chosen for it is present on the server, and its EML was read and has the recorded hash. -/
structure Planned (env : Env) (t : Tables) (files : List (String × Bytes)) (scope : DeleteScope)
    (folderId : Option Nat) (log : List Effect) (c : DeleteCandidate) : Prop where
  selected : c.messageId ∈ scope.messageIds
  present : ∃ message first row r, t.getMessage c.messageId = some (message,first) ∧
    selectMembership (t.listMessageMemberships message.accountId message.sourceItemKey) folderId =
      .ok row ∧
    (row.map (·.membership)).or first = some r ∧ r.remoteState = .present ∧
    r.serverUid = some (r.folderId,c.uidvalidity,c.uid) ∧ c.folderId = some r.folderId ∧
    message.relativePath = some c.relativePath ∧ message.fileHash = some c.fileHash
  read : Effect.verified c.relativePath c.fileHash ∈ log
  matched : ∃ raw, files.lookup c.relativePath = some raw ∧
    env.sha256 raw = casefoldHex c.fileHash

/-- The columns an accepted candidate takes over from its message, and the state of its
membership. -/
theorem candidateFields_columns {message : Message} {membership : Option Membership}
    {folderRawName : Option String} {names : List (Nat × String × Option Nat)}
    {excludeFlagged : Bool} {candidate : DeleteCandidate}
    (h : candidateFields message membership folderRawName names excludeFlagged true =
      .ok candidate) :
    membership.map (·.remoteState) = some .present ∧
      message.relativePath = some candidate.relativePath ∧
      message.fileHash = some candidate.fileHash := by
  unfold candidateFields at h
  dsimp only at h
  split at h
  · cases h
  next hstate =>
  have hpresent : membership.map (·.remoteState) = some .present := by
    by_contra hne
    exact hstate (by simp [hne])
  refine ⟨hpresent,?_⟩
  split at h
  · cases h
  split at h
  · cases h
  split at h
  · cases h
  · cases h
  next relativePath fileHash hpath hhash =>
  have hcolumns : message.relativePath = some relativePath ∧ message.fileHash = some fileHash :=
    ⟨orText_eq_some hpath,orText_eq_some hhash⟩
  split at h
  · cases h
  · cases h
  · cases h
  split at h
  · cases h
    exact hcolumns
  · split at h
    · cases h
    · split at h
      · cases h
      · cases h
        exact hcolumns

section
variable {env : Env} {t : Tables} {files : List (String × Bytes)}

/-- A predicate that queries and EML checks keep, of worlds with these tables and files. -/
structure Unmoved (t : Tables) (files : List (String × Bytes)) (P : World → Prop) : Prop where
  tables : ∀ w, P w → w.db.tables = t
  files : ∀ w, P w → w.files = files
  ticked : ∀ w, P w → P w.ticked
  verified : ∀ w relativePath fileHash, P w → P (w.logged (.verified relativePath fileHash))

theorem Unmoved.query {P : World → Prop} (hP : Unmoved t files P) {α : Type} (query : Tables → α) :
    Triple P (queryRepo env query) (fun a w => P w ∧ a = query t) (fun _ _ => True) :=
  queryRepo_rule (fun w hw => ⟨hP.ticked w hw,by rw [hP.tables w hw]⟩) fun _ _ _ _ => trivial

theorem candidateFromRecord_planned {P : World → Prop} (hP : Unmoved t files P)
    {scope : DeleteScope} {messageId : Nat} (hselected : messageId ∈ scope.messageIds)
    {message : Message} {first : Option Membership}
    (hmessage : t.getMessage messageId = some (message,first)) (folderId : Option Nat)
    (excludeFlagged : Bool) :
    Triple P (candidateFromRecord env message first folderId excludeFlagged true)
      (fun result w => P w ∧ ∀ c, result = .ok c →
        c.messageId = messageId ∧ Planned env t files scope folderId w.log c)
      (fun _ _ => True) := by
  have hskip : ∀ reason : String, Triple P (pure (.error reason) : App (Except String DeleteCandidate))
      (fun result w => P w ∧ ∀ c, result = .ok c →
        c.messageId = messageId ∧ Planned env t files scope folderId w.log c)
      (fun _ _ => True) := fun reason => Triple.ret fun w hw => ⟨hw,nofun⟩
  have hid : message.id = messageId := by
    obtain ⟨m,hfound,hm⟩ := Option.map_eq_some_iff.mp hmessage
    cases hm
    simpa using List.find?_some hfound
  refine (hP.query _).seq fun rows => Triple.assume fun hrows => ?_
  split
  · exact hskip _
  next row hrow =>
  have hnames : Triple P
      (if (orText (row.map fun r => r.folderRawName) none).isSome then pure []
        else queryRepo env fun t => folderNames t message.accountId :
        App (List (Nat × String × Option Nat))) (fun _ => P) (fun _ _ => True) := by
    split
    · exact Triple.ret fun _ hw => hw
    · exact (hP.query _).strengthen_post fun _ _ hw => hw.1
  refine hnames.seq fun names => ?_
  split
  · exact hskip _
  next candidate hfields =>
  have hspec := candidateFields_spec hfields
  have hcolumns := candidateFields_columns hfields
  obtain ⟨hcandidate,-,r,hr,hfolder,hserver,-⟩ := hspec
  have hpresent : r.remoteState = .present := by
    have hstate := hcolumns.1
    rw [hr] at hstate
    exact Option.some.inj hstate
  refine (verifyEml_rule (Q := fun problem w => P w ∧ (problem = none →
      Planned env t files scope folderId w.log candidate))
    (fun w raw hw hlookup hhash => ⟨hP.verified _ _ _ (hP.ticked w hw),fun _ => ?_⟩)
    (fun w reason hw => ⟨hP.ticked w hw,nofun⟩) fun _ _ _ => trivial).seq fun problem => ?_
  · refine ⟨?_,?_,List.mem_cons_self,raw,?_,hhash⟩
    · rw [hcandidate,hid]
      exact hselected
    · rw [hcandidate,hid]
      exact ⟨message,first,row,r,hmessage,hrows ▸ hrow,hr,hpresent,hserver,hfolder,hcolumns.2⟩
    · rw [← hP.files w hw]
      exact hlookup
  · split
    · exact (hskip _).weaken_pre fun w hw => hw.1
    · refine Triple.seq (Q := fun _ w => P w ∧ Planned env t files scope folderId w.log candidate)
        (queryRepo_rule (fun w hw => ⟨hP.ticked w hw.1,hw.2 rfl⟩) fun _ _ _ _ => trivial)
        fun hasContents => ?_
      split
      · refine Triple.ret fun w hw => ⟨hw.1,fun c hc => ?_⟩
        cases hc
        exact ⟨hcandidate.trans hid,hw.2⟩
      · exact (hskip _).weaken_pre fun w hw => hw.1

/-! ## The loop -/

theorem Planned.logged {scope : DeleteScope} {folderId : Option Nat} {log : List Effect}
    {c : DeleteCandidate} (h : Planned env t files scope folderId log c) (e : Effect) :
    Planned env t files scope folderId (e :: log) c :=
  ⟨h.selected,h.present,List.mem_cons_of_mem e h.read,h.matched⟩

/-- Each of these ids stands for a candidate or an exclusion, and the candidates are verified. -/
structure PlanOf (env : Env) (t : Tables) (files : List (String × Bytes)) (scope : DeleteScope)
    (folderId : Option Nat) (ids : List Nat) (plan : DeleteDryRunResult) (w : World) : Prop where
  tables_eq : w.db.tables = t
  files_eq : w.files = files
  partition : (plan.candidates.map (·.messageId) ++ plan.exclusions.map (·.messageId)).Perm ids
  planned : ∀ c ∈ plan.candidates, Planned env t files scope folderId w.log c

section
variable {scope : DeleteScope} {folderId : Option Nat} {ids : List Nat} {plan : DeleteDryRunResult}

theorem planOf_unmoved : Unmoved t files (PlanOf env t files scope folderId ids plan) where
  tables _ hw := hw.tables_eq
  files _ hw := hw.files_eq
  ticked _ hw := ⟨hw.tables_eq,hw.files_eq,hw.partition,hw.planned⟩
  verified _ _ _ hw :=
    ⟨hw.tables_eq,hw.files_eq,hw.partition,fun c hc => (hw.planned c hc).logged _⟩

theorem PlanOf.exclude {w : World} (h : PlanOf env t files scope folderId ids plan w)
    (e : DeleteExclusion) : PlanOf env t files scope folderId (ids ++ [e.messageId])
      { plan with exclusions := plan.exclusions ++ [e] } w := by
  refine ⟨h.tables_eq,h.files_eq,?_,h.planned⟩
  rw [List.map_append,← List.append_assoc]
  exact h.partition.append_right _

theorem PlanOf.take {w : World} (h : PlanOf env t files scope folderId ids plan w)
    {c : DeleteCandidate} (hc : Planned env t files scope folderId w.log c) :
    PlanOf env t files scope folderId (ids ++ [c.messageId])
      { plan with candidates := plan.candidates ++ [c] } w := by
  refine ⟨h.tables_eq,h.files_eq,?_,fun d hd => ?_⟩
  · rw [List.map_append,List.append_assoc]
    refine List.Perm.trans ?_ (h.partition.append_right _)
    rw [List.append_assoc]
    exact List.Perm.append_left _ List.perm_append_comm
  · rcases List.mem_append.mp hd with hd | hd
    · exact h.planned d hd
    · rwa [List.mem_singleton.mp hd]

/-- One message goes to one of the two lists. -/
theorem planMessage_planOf (excludeFlagged : Bool)
    {item : Nat × Option (Message × Option Membership)} (hitem : item.2 = t.getMessage item.1) :
    Triple (PlanOf env t files scope folderId ids plan)
      (planMessage env folderId excludeFlagged (some scope) plan item)
      (PlanOf env t files scope folderId (ids ++ [item.1])) (fun _ _ => True) := by
  obtain ⟨messageId,record⟩ := item
  have hexclude : ∀ reason subject sizeBytes, Triple (PlanOf env t files scope folderId ids plan)
      (pure { plan with exclusions := plan.exclusions ++ [⟨messageId,reason,subject,sizeBytes⟩] } :
        App DeleteDryRunResult)
      (PlanOf env t files scope folderId (ids ++ [messageId])) (fun _ _ => True) :=
    fun reason subject sizeBytes =>
      Triple.ret fun w hw => hw.exclude ⟨messageId,reason,subject,sizeBytes⟩
  unfold planMessage
  dsimp only
  split
  · cases record <;> exact hexclude _ _ _
  split
  · exact hexclude _ _ _
  next hselected =>
  have hmem : messageId ∈ scope.messageIds := by simpa using hselected
  split
  · exact hexclude _ _ _
  next message first =>
  refine (candidateFromRecord_planned planOf_unmoved hmem hitem.symm folderId
    excludeFlagged).seq fun verified => ?_
  split
  · exact (hexclude _ _ _).weaken_pre fun w hw => hw.1
  next candidate =>
  refine Triple.ret fun w hw => ?_
  obtain ⟨hid,hplanned⟩ := hw.2 candidate rfl
  rw [← hid]
  exact hw.1.take hplanned

end

theorem ensureImapMessage_unmoved {P : World → Prop} (hP : Unmoved t files P) (message : Message) :
    Triple P (ensureImapMessage env message) (fun _ => P) (fun _ _ => True) := by
  unfold ensureImapMessage ensureImapAccount
  split
  · exact Triple.ret fun _ hw => hw
  · refine ((hP.query _).strengthen_post fun _ _ hw => hw.1).seq fun accounts => ?_
    split
    · split
      · exact Triple.raise fun _ _ => trivial
      · exact Triple.ret fun _ hw => hw
    · exact Triple.ret fun _ hw => hw

/-- The plan of a run with a scope. -/
theorem dryRun_planOf (messageIds : List Nat) (folderId : Option Nat) (excludeFlagged : Bool)
    (scope : DeleteScope) :
    Triple (fun w => w.db.tables = t ∧ w.files = files)
      (dryRun env messageIds folderId excludeFlagged (some scope))
      (PlanOf env t files scope folderId messageIds) (fun _ _ => True) := by
  have hstill : Unmoved t files fun w : World => w.db.tables = t ∧ w.files = files :=
    ⟨fun _ hw => hw.1,fun _ hw => hw.2,fun _ hw => hw,fun _ _ _ hw => hw⟩
  -- the records are those of the tables
  have hrecords : Triple (fun w => w.db.tables = t ∧ w.files = files)
      (messageIds.foldlM (fun records messageId => do
        let record ← queryRepo env fun t => t.getMessage messageId
        pure (records ++ [(messageId,record)])) [])
      (fun records w => (w.db.tables = t ∧ w.files = files) ∧
        records = messageIds.map fun messageId => (messageId,t.getMessage messageId))
      (fun _ _ => True) := by
    refine (Triple.accumulate_prefix (I := fun done records (w : World) =>
      (w.db.tables = t ∧ w.files = files) ∧
        records = done.map fun messageId => (messageId,t.getMessage messageId))
      messageIds ?_ [] []).weaken_pre fun w hw => ⟨hw,rfl⟩
    intro done records messageId _
    refine Triple.seq (Q := fun record w => ((w.db.tables = t ∧ w.files = files) ∧
      records = done.map fun messageId => (messageId,t.getMessage messageId)) ∧
        record = t.getMessage messageId)
      (queryRepo_rule (fun w hw => ⟨hw,by rw [hw.1.1]⟩) fun _ _ _ _ => trivial) fun record => ?_
    refine Triple.ret fun w hw => ⟨hw.1.1,?_⟩
    rw [hw.1.2,hw.2,List.map_append]
    rfl
  refine hrecords.seq fun records => Triple.assume fun hrecords => ?_
  refine Triple.seq (Q := fun _ w => w.db.tables = t ∧ w.files = files)
    (Triple.loop records fun item _ => ?_) fun _ => ?_
  · split
    · exact ensureImapMessage_unmoved hstill _
    · exact Triple.ret fun _ hw => hw
  refine (nextTick_rule (Q := fun _ w => w.db.tables = t ∧ w.files = files)
    fun w hw => hw).seq fun tick => ?_
  split
  · exact Triple.raise fun _ _ => trivial
  have hloop : Triple (PlanOf env t files scope folderId [] {})
      (records.foldlM (planMessage env folderId excludeFlagged (some scope)) {})
      (PlanOf env t files scope folderId (([] ++ records).map Prod.fst)) (fun _ _ => True) := by
    refine Triple.accumulate_prefix (I := fun done plan =>
      PlanOf env t files scope folderId (done.map Prod.fst) plan) records ?_ [] {}
    intro done plan item hitem
    rw [List.map_append]
    refine planMessage_planOf excludeFlagged ?_
    rw [hrecords,List.mem_map] at hitem
    obtain ⟨messageId,-,rfl⟩ := hitem
    rfl
  refine (hloop.weaken_pre fun w hw => ⟨hw.1,hw.2,.refl _,nofun⟩).seq fun plan => ?_
  refine Triple.ret fun w hw => ⟨hw.tables_eq,hw.files_eq,?_,hw.planned⟩
  have hids : records.map Prod.fst = messageIds := by
    rw [hrecords,List.map_map]
    exact List.map_id _
  rw [← hids]
  exact hw.partition

end

/-- Every requested id is a candidate or an exclusion; when no id is requested twice, it is one
of the two and not the other. -/
def DeleteDryRunResult.Partitions (plan : DeleteDryRunResult) (messageIds : List Nat) : Prop :=
  (plan.candidates.map (·.messageId) ++ plan.exclusions.map (·.messageId)).Perm messageIds ∧
  (messageIds.Nodup → ∀ messageId ∈ messageIds, Xor
    (messageId ∈ plan.candidates.map (·.messageId))
    (messageId ∈ plan.exclusions.map (·.messageId)))

theorem partitions_of_perm {plan : DeleteDryRunResult} {messageIds : List Nat}
    (h : (plan.candidates.map (·.messageId) ++ plan.exclusions.map (·.messageId)).Perm
      messageIds) : plan.Partitions messageIds := by
  refine ⟨h,fun hnodup messageId hid => ?_⟩
  have hdisjoint := (List.nodup_append.mp (h.nodup_iff.mpr hnodup)).2.2
  rcases List.mem_append.mp (h.mem_iff.mpr hid) with hcandidate | hexclusion
  · exact .inl ⟨hcandidate,fun hexclusion => hdisjoint _ hcandidate _ hexclusion rfl⟩
  · exact .inr ⟨hexclusion,fun hcandidate => hdisjoint _ hcandidate _ hexclusion rfl⟩

/-- A limit that is not positive is refused; any other one gives the scope of the oldest
messages, and a plan made with it is a partition of the requested ids. -/
theorem selectDeleteScope_dryRun (summaries : List MessageSummary)
    (hids : (summaries.map (·.id)).Nodup) (excludeFlagged : Bool) (limit : Int) :
    (limit ≤ 0 → selectDeleteScope summaries excludeFlagged limit =
      .error ⟨.value,"limit must be positive"⟩) ∧
    (0 < limit → ∃ scope, selectDeleteScope summaries excludeFlagged limit = .ok scope ∧
      scope.Selects summaries excludeFlagged limit.toNat ∧
      ∀ (env : Env) (messageIds : List Nat) (folderId : Option Nat) (exclude : Bool) (w : World),
        Holds (fun plan w' => plan.Partitions messageIds ∧
            ∀ c ∈ plan.candidates, Planned env w.db.tables w.files scope folderId w'.log c)
          (fun _ _ => True) (dryRun env messageIds folderId exclude (some scope) w)) := by
  constructor
  · intro hlimit
    rw [selectDeleteScope,if_pos hlimit]
  · intro hlimit
    obtain ⟨scope,hscope,hselects⟩ := selectDeleteScope_selects hids excludeFlagged hlimit
    refine ⟨scope,hscope,hselects,fun env messageIds folderId exclude w => ?_⟩
    have hplan : Triple (fun w' => w'.db.tables = w.db.tables ∧ w'.files = w.files)
        (dryRun env messageIds folderId exclude (some scope))
        (fun plan w' => plan.Partitions messageIds ∧
          ∀ c ∈ plan.candidates, Planned env w.db.tables w.files scope folderId w'.log c)
        (fun _ _ => True) :=
      (dryRun_planOf messageIds folderId exclude scope).strengthen_post fun plan w' hw =>
        ⟨partitions_of_perm hw.partition,hw.planned⟩
    exact hplan w ⟨rfl,rfl⟩

/-- Two messages, the younger one without a date of its own. -/
def twoSummaries : List MessageSummary :=
  [⟨1,"work",1,"INBOX","Inbox","Report","a@example.com",some ⟨⟨2024,5,2,0,0,0⟩,0,true⟩,none,
      some 10,false,.present,.active,none,none,none,none,none,none⟩,
    ⟨2,"work",1,"INBOX","Inbox","Notes","b@example.com",none,some ⟨⟨2024,5,1,0,0,0⟩,0,false⟩,
      some 20,false,.present,.active,none,none,none,none,none,none⟩]

/-- A disk that reads every EML as it was stored. -/
def readableEmls : Env where
  sha256 raw :=
    if raw = [2] then "dbc1b4c900ffe48d575b5da5c638040125f65db0fe3e24494b76ea986457d986"
    else "4bf5122f344554c53bde2ebb8cd2b7e3d1600ad631c385a5d7cce23c7785459a"
  parse _ _ := {}
  clock _ := ⟨2024,6,1,0,0,0⟩
  uidvalidity _ _ := 9
  mailbox _ _ := []
  nextRef _ _ _ _ := none
  body _ _ _ := []
  headers _ _ _ := []

def twoStored : Repository where
  tables :=
    { accounts := [{ id := "work" }]
      folders := [{ id := 1, accountId := "work", rawName := "INBOX", displayName := "Inbox" }]
      messages := [
        { id := 1, accountId := "work", messageId := none, contentKey := "k",
          sourceItemKey := .imap "INBOX" 9 4, relativePath := some "1.eml",
          fileHash := some "4bf5122f344554c53bde2ebb8cd2b7e3d1600ad631c385a5d7cce23c7785459a",
          envelope := { subject := "Report" }, sizeBytes := some 10 },
        { id := 2, accountId := "work", messageId := none, contentKey := "l",
          sourceItemKey := .imap "INBOX" 9 5, relativePath := some "2.eml",
          fileHash := some "dbc1b4c900ffe48d575b5da5c638040125f65db0fe3e24494b76ea986457d986",
          envelope := { subject := "Notes" }, sizeBytes := some 20 }]
      memberships := [{ messageId := 1, folderId := 1, uid := some 4, uidvalidity := some 9 },
        { messageId := 2, folderId := 1, uid := some 5, uidvalidity := some 9 }]
      contents := [(1,⟨some "report",none,none,none⟩),(2,⟨some "notes",none,none,none⟩)]
      nextFolderId := 2
      nextMessageId := 3 }
  valid := by decide

def twoStoredWorld : World := World.opened twoStored [] none [("1.eml",[1]),("2.eml",[2])] 0

/-- The older message is the scope; the plan takes it and leaves the other one out. -/
theorem selectDeleteScope_dryRun_two :
    ∃ scope, selectDeleteScope twoSummaries false 1 = .ok scope ∧
      scope.Selects twoSummaries false 1 ∧
      ∃ plan w', dryRun readableEmls [1,2] none false (some scope) twoStoredWorld = (.ok plan,w') ∧
        plan.candidates.map (·.messageId) = [2] ∧ plan.Partitions [1,2] ∧
        ∀ c ∈ plan.candidates,
          Planned readableEmls twoStored.tables twoStoredWorld.files scope none w'.log c := by
  obtain ⟨scope,hscope,hselects,hplan⟩ :=
    (selectDeleteScope_dryRun twoSummaries (by decide) false 1).2 (by decide)
  obtain rfl := Except.ok.inj hscope
  have hrun := hplan readableEmls [1,2] none false twoStoredWorld
  exact ⟨_,hscope,hselects,_,_,rfl,rfl,hrun⟩

/-- The limit nought selects no messages, but is refused. -/
theorem selectDeleteScope_zero :
    ¬ ∃ scope, selectDeleteScope twoSummaries false 0 = .ok scope ∧
      scope.Selects twoSummaries false 0 := by
  rintro ⟨scope,hscope,-⟩
  cases hscope

example : (selectDeleteScope twoSummaries false 1).map (·.messageIds) = .ok [2] := by
  decide

end MailDock
