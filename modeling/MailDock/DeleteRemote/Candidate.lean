import MailDock.DeleteRemote.Commit

/-!
# Verifying a candidate

A candidate that `_candidate_from_record` accepts describes a membership the
database holds, and its EML was read and hashed in the same run.
-/

namespace MailDock

open Hoare Trace

/-- Between two effects on the database: the invariant, with the database at `db`. -/
def Between (start : Tables) (options : DeleteOptions) (items remaining : List DeleteCandidate)
    (db : Repository) (w : World) : Prop :=
  DeleteInv start options items remaining db w.inBatch w.log ∧ w.db = db

/-- What holds of a run that was cut short by an exception. -/
def Guarded (start : Tables) (options : DeleteOptions) (items : List DeleteCandidate)
    (_ : Error) (w : World) : Prop :=
  Always (Guard start options items) w.log

section
variable {start : Tables} {options : DeleteOptions} {items remaining : List DeleteCandidate}
  {db : Repository} {env : Env}

theorem Between.guarded {w : World} (h : Between start options items remaining db w) (e : Error) :
    Guarded start options items e w :=
  h.1.guarded

theorem Between.logged {w : World} (h : Between start options items remaining db w) {e : Effect}
    (he : e.isPlain = true) (hguard : Guard start options items w.log e) :
    Between start options items remaining db (w.logged e) :=
  ⟨h.1.cons he hguard,h.2⟩

/-- A query leaves everything but the clock as it is. -/
theorem Between.query {α : Type} {query : Tables → α} {R : α → Prop} (hR : R (query db.tables)) :
    Triple (Between start options items remaining db) (queryRepo env query)
      (fun a w => Between start options items remaining db w ∧ R a)
      (Guarded start options items) := by
  refine queryRepo_rule ?_ ?_
  · intro w hw
    refine ⟨hw,?_⟩
    rw [hw.2]
    exact hR
  · exact fun w e hw _ => hw.guarded e

theorem Between.timestamp :
    Triple (Between start options items remaining db) (timestamp env)
      (fun _ => Between start options items remaining db) (Guarded start options items) :=
  timestamp_rule fun _ _ hw => hw

theorem verifyEml_rule {relativePath fileHash : String} {P : World → Prop}
    {Q : Option String → World → Prop} {E : Error → World → Prop}
    (hok : ∀ w raw, P w → w.files.lookup relativePath = some raw →
      env.sha256 raw = casefoldHex fileHash →
      Q none (w.ticked.logged (.verified relativePath fileHash)))
    (hskip : ∀ w reason, P w → Q (some reason) w.ticked) (hE : ∀ w e, P w → E e w.ticked) :
    Triple P (verifyEml env relativePath fileHash) Q E := by
  refine Triple.handle (F := fun _ w' => ∃ w, P w ∧ w' = w.ticked)
    ((readVerified_rule (Q := fun _ => Q none) hok
      fun w e hw => ⟨w,hw,rfl⟩).seq fun _ => Triple.ret fun _ hw => hw) fun e => ?_
  have hraise : Triple (fun w' => ∃ w, P w ∧ w' = w.ticked) (throw e : App (Option String)) Q E := by
    refine Triple.raise ?_
    rintro _ ⟨w,hw,rfl⟩
    exact hE w e hw
  have hreason : ∀ reason : String, Triple (fun w' => ∃ w, P w ∧ w' = w.ticked)
      (pure (some reason) : App (Option String)) Q E := by
    intro reason
    refine Triple.ret ?_
    rintro _ ⟨w,hw,rfl⟩
    exact hskip w reason hw
  split
  · exact hraise
  · split
    · exact hreason _
    · split
      · exact hreason _
      · exact hraise

end

/-- A name in the account's folder list is the name of the folder. -/
theorem folderRawName_of_folderNames {t : Tables} (ht : t.Valid) {accountId name : String}
    {id : Nat} {v : Option Nat} (h : (id,name,v) ∈ folderNames t accountId) :
    t.folderRawName id = some name := by
  simp only [folderNames,Tables.listFolders,List.mem_map,List.mem_filter,List.mem_insertionSort,
    Prod.mk.injEq] at h
  obtain ⟨f,⟨⟨hf,-⟩,-⟩,rfl,rfl,-⟩ := h
  cases hfound : t.folders.find? fun g => g.id == f.id with
  | none =>
    have := List.find?_eq_none.mp hfound f hf
    simp at this
  | some g =>
    have hid : g.id = f.id := by simpa using List.find?_some hfound
    have hgf := ht.folderId.eq_of_key (List.mem_of_find?_eq_some hfound) hf
      (congrArg some hid) rfl
    rw [Tables.folderRawName,hfound,hgf]
    rfl

theorem orText_eq_some {name : Option String} {s : String} (h : orText name none = some s) :
    name = some s := by
  unfold orText at h
  split at h
  · split at h
    · cases h
    · exact h
  · cases h

/-- The fields of an accepted candidate are those of the message and its membership. -/
theorem candidateFields_spec {message : Message} {membership : Option Membership}
    {folderRawName : Option String} {names : List (Nat × String × Option Nat)}
    {excludeFlagged requirePresent : Bool} {candidate : DeleteCandidate}
    (h : candidateFields message membership folderRawName names excludeFlagged requirePresent =
      .ok candidate) :
    candidate.messageId = message.id ∧ candidate.accountId = message.accountId ∧
      ∃ r, membership = some r ∧ candidate.folderId = some r.folderId ∧
        r.serverUid = some (r.folderId,candidate.uidvalidity,candidate.uid) ∧
        (folderRawName = some candidate.folderRawName ∨
          orText folderRawName none = none ∧
            ∃ v, (r.folderId,candidate.folderRawName,v) ∈ names) := by
  unfold candidateFields at h
  dsimp only at h
  split at h
  · cases h
  · split at h
    · cases h
    · split at h
      · cases h
      · split at h
        · cases h
        · cases h
        · next relativePath fileHash _ _ =>
          split at h
          · cases h
          · cases h
          · cases h
          · next uid uidvalidity sizeBytes huid hvalidity _ =>
            cases membership with
            | none => cases huid
            | some r =>
              have hserver : r.serverUid = some (r.folderId,uidvalidity,uid) :=
                Tables.serverUid_eq_some.mpr ⟨rfl,hvalidity,huid⟩
              split at h
              · next name hname =>
                cases h
                exact ⟨rfl,rfl,r,rfl,rfl,hserver,.inl (orText_eq_some hname)⟩
              · next hnone =>
                split at h
                · cases h
                · next id name v hfound =>
                  split at h
                  · cases h
                  · cases h
                    have hid := List.find?_some hfound
                    simp only [Option.map_some,beq_iff_eq,Option.some.injEq] at hid
                    have hmem := List.mem_of_find?_eq_some hfound
                    rw [hid] at hmem
                    exact ⟨rfl,rfl,r,rfl,rfl,hserver,.inr ⟨hnone,v,hmem⟩⟩

/-- The row a candidate is about is a membership of the message. -/
theorem selectMembership_mem {rows : List MembershipRow} {folderId : Option Nat}
    {row : MembershipRow} (h : selectMembership rows folderId = .ok (some row)) : row ∈ rows := by
  unfold selectMembership at h
  split at h
  · split at h
    · next f row' heq =>
      cases h
      exact (List.mem_filter.mp (heq ▸ List.mem_singleton.mpr rfl)).1
    · cases h
  · split at h
    · cases h
    · cases h
      simp
    · cases h

/-- The accepted candidate describes the selected membership, or the first one. -/
theorem candidateOf_fields {db : Repository} {message : Message}
    (hmessage : message ∈ db.tables.messages) {folderId : Option Nat}
    {row : Option MembershipRow} (hrow : selectMembership
      (db.tables.listMessageMemberships message.accountId message.sourceItemKey) folderId = .ok row)
    {names : List (Nat × String × Option Nat)}
    (hnames : orText (row.map fun r => r.folderRawName) none = none →
      names = folderNames db.tables message.accountId)
    {excludeFlagged requirePresent : Bool} {candidate : DeleteCandidate}
    (h : candidateFields message
      ((row.map fun r => r.membership).or (db.tables.membershipsOf message.id).head?) (row.map fun r => r.folderRawName) names excludeFlagged requirePresent = .ok candidate) :
    ∃ r, CandidateOf db.tables candidate message r := by
  obtain ⟨hid,haccount,r,hr,hfolder,hserver,hname⟩ := candidateFields_spec h
  have hmem : r ∈ db.tables.memberships ∧ r.messageId = message.id := by
    cases row with
    | some row =>
      cases hr
      have := (mem_listMessageMemberships db.valid hmessage).mp (selectMembership_mem hrow)
      exact ⟨this.1,this.2.1⟩
    | none =>
      have := List.mem_of_mem_head? hr
      simpa [Tables.membershipsOf,List.mem_insertionSort] using this
  refine ⟨r,hmessage,hid,haccount,hmem.1,hmem.2,hfolder,hserver,?_⟩
  rcases hname with hname | ⟨hnone,v,hmem⟩
  · cases row with
    | some row =>
      cases hr
      have := (mem_listMessageMemberships db.valid hmessage).mp (selectMembership_mem hrow)
      rw [this.2.2.1,← hname]
      rfl
    | none => cases hname
  · rw [hnames hnone] at hmem
    exact folderRawName_of_folderNames db.valid hmem

section
variable {start : Tables} {options : DeleteOptions} {items remaining : List DeleteCandidate}
  {db : Repository} {env : Env}

/-- An accepted candidate is one the database holds, with its EML verified. -/
def Verified (db : Repository) (message : Message) (w : World) (candidate : DeleteCandidate) :
    Prop :=
  (∃ r, CandidateOf db.tables candidate message r) ∧
    Effect.verified candidate.relativePath candidate.fileHash ∈ w.log

theorem candidateFromRecord_safe {message : Message} (hmessage : message ∈ db.tables.messages)
    (folderId : Option Nat) (excludeFlagged requirePresent : Bool) :
    Triple (Between start options items remaining db)
      (candidateFromRecord env message (db.tables.membershipsOf message.id).head? folderId
        excludeFlagged requirePresent)
      (fun result w => Between start options items remaining db w ∧
        ∀ candidate, result = .ok candidate → Verified db message w candidate)
      (Guarded start options items) := by
  have hskip : ∀ reason : String, Triple (Between start options items remaining db)
      (pure (.error reason) : App (Except String DeleteCandidate))
      (fun result w => Between start options items remaining db w ∧
        ∀ candidate, result = .ok candidate → Verified db message w candidate)
      (Guarded start options items) := fun reason =>
    Triple.ret fun w hw => ⟨hw,fun candidate h => by cases h⟩
  refine (Between.query (R := fun rows => rows =
    db.tables.listMessageMemberships message.accountId message.sourceItemKey) rfl).seq
    fun rows => Triple.assume fun hrows => ?_
  split
  · next reason _ => exact hskip reason
  · next row hrow =>
    have hnames : Triple (Between start options items remaining db)
        (if (orText (row.map fun r => r.folderRawName) none).isSome then pure []
          else queryRepo env fun t => folderNames t message.accountId :
          App (List (Nat × String × Option Nat)))
        (fun names w => Between start options items remaining db w ∧
          (orText (row.map fun r => r.folderRawName) none = none →
            names = folderNames db.tables message.accountId))
        (Guarded start options items) := by
      split
      · next hsome =>
        refine Triple.ret fun w hw => ⟨hw,fun hnone => ?_⟩
        rw [hnone] at hsome
        cases hsome
      · exact Between.query fun _ => rfl
    refine hnames.seq fun names => Triple.assume fun hnames => ?_
    split
    · next reason _ => exact hskip reason
    · next candidate hfields =>
      have hcandidate := candidateOf_fields hmessage (hrows ▸ hrow) hnames hfields
      refine (verifyEml_rule
        (Q := fun problem w => Between start options items remaining db w ∧
          (problem = none → Effect.verified candidate.relativePath candidate.fileHash ∈ w.log))
        (fun w _ hw _ _ => ⟨hw.logged rfl trivial,fun _ => List.mem_cons_self⟩)
        (fun w reason hw => ⟨hw,fun h => by cases h⟩)
        fun w e hw => hw.guarded e).seq fun problem => ?_
      split
      · next reason => exact (hskip reason).weaken_pre fun w hw => hw.1
      · refine Triple.seq (Q := fun _ w => Between start options items remaining db w ∧
          Effect.verified candidate.relativePath candidate.fileHash ∈ w.log)
          (queryRepo_rule (fun w hw => ⟨hw.1,hw.2 rfl⟩) fun w e hw _ => hw.1.guarded e)
          fun hasContents => ?_
        split
        · refine Triple.ret fun w hw => ⟨hw.1,fun c hc => ?_⟩
          cases hc
          exact ⟨hcandidate,hw.2⟩
        · exact (hskip _).weaken_pre fun w hw => hw.1

end

end MailDock
