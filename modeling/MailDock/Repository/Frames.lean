import MailDock.Repository.Status

/-!
# What a write leaves alone

Frame lemmas for the writes of a use case, and where the envelopes of the message
rows come from.
-/

namespace MailDock

open Relational

namespace Repository

theorem addMessageIdentityAlias_frame {repo repo' : Repository} {accountId : String}
    {key : SourceItemKey} {messageId : Nat} {kind : EvidenceKind}
    (h : repo.addMessageIdentityAlias accountId key messageId kind = .ok repo') :
    ∃ aliases, repo'.tables = { repo.tables with aliases := aliases } := by
  simp only [addMessageIdentityAlias,Except.bind_eq_ok_iff,exec_eq_ok] at h
  obtain ⟨inserted,hinserted,h⟩ := h
  have hframe : ∃ aliases, inserted.tables = { repo.tables with aliases := aliases } := by
    rw [hinserted]
    unfold Tables.insertOrIgnoreAlias
    split
    · exact ⟨_,rfl⟩
    · exact ⟨_,rfl⟩
  split at h
  · split at h
    · cases h
      exact hframe
    · cases h
  · cases h

/-- A merge changes neither the account nor the envelope of a message. -/
theorem mergeDuplicateMessage_message {repo repo' : Repository} {accountId : String} {c d : Nat}
    {m' : Message} (h : repo.mergeDuplicateMessage accountId c d = .ok repo')
    (hm : m' ∈ repo'.tables.messages) : ∃ m ∈ repo.tables.messages, m'.id = m.id ∧
      m'.accountId = m.accountId ∧ m'.envelope = m.envelope := by
  by_cases hcd : c = d
  · simp only [mergeDuplicateMessage,if_pos hcd] at h
    cases h
    exact ⟨m',hm,rfl,rfl,rfl⟩
  · simp only [mergeDuplicateMessage,if_neg hcd] at h
    split at h
    · next canonical duplicate hcanonical hduplicate =>
      split at h
      · cases h
      · simp only [Except.bind_eq_ok_iff] at h
        obtain ⟨stored,hstored,stated,hstated,contents,hcontents,aliases,haliases,memberships,
          hmemberships,hdeleted⟩ := h
        have hm := ((deleteDuplicate_spec hdeleted).1 m').mp hm |>.1
        rw [(mergeMemberships_spec hcd hmemberships).1.messages,(mergeAliases_spec haliases).1,
          (mergeContents_spec hcontents).2.2] at hm
        -- the two stages that update a row leave these columns alone
        obtain ⟨m₁,hm₁,hsame₁⟩ : ∃ m₁ ∈ stored.tables.messages, m'.id = m₁.id ∧
            m'.accountId = m₁.accountId ∧ m'.envelope = m₁.envelope := by
          simp only [mergeState] at hstated
          split at hstated
          · rw [exec_eq_ok.mp hstated] at hm
            rcases mem_update.mp hm with ⟨hm,-⟩ | ⟨m₀,hm₀,-,rfl⟩
            · exact ⟨m',hm,rfl,rfl,rfl⟩
            · exact ⟨m₀,hm₀,rfl,rfl,rfl⟩
          · cases hstated
            exact ⟨m',hm,rfl,rfl,rfl⟩
        unfold mergeStorage at hstored
        split at hstored
        · rw [exec_eq_ok.mp hstored] at hm₁
          rcases mem_update.mp hm₁ with ⟨hm₁,-⟩ | ⟨m₀,hm₀,-,rfl⟩
          · exact ⟨m₁,hm₁,hsame₁⟩
          · exact ⟨m₀,hm₀,hsame₁⟩
        · cases hstored
          exact ⟨m₁,hm₁,hsame₁⟩
    · cases h

/-- A merge changes no envelope. -/
theorem mergeDuplicateMessage_envelope {repo repo' : Repository} {accountId : String} {c d : Nat}
    {m' : Message} (h : repo.mergeDuplicateMessage accountId c d = .ok repo')
    (hm : m' ∈ repo'.tables.messages) : ∃ m ∈ repo.tables.messages, m'.envelope = m.envelope :=
  (mergeDuplicateMessage_message h hm).imp fun _ hm => ⟨hm.1,hm.2.2.2⟩

end Repository

open Repository

theorem WriteOp.apply_addMessage {repo repo' : Repository} {record : MessageRecord}
    {contents : Option MessageContents}
    (h : (WriteOp.addMessage record contents).apply repo = .ok repo') :
    ∃ id, repo.addMessage record contents = .ok (id,repo') := by
  rw [WriteOp.apply] at h
  cases hadd : repo.addMessage record contents with
  | error e =>
    rw [hadd] at h
    cases h
  | ok r =>
    rw [hadd] at h
    cases h
    exact ⟨r.1,rfl⟩

/-- A write brings in an envelope only with the record it adds. -/
theorem WriteOp.apply_envelope {op : WriteOp} {repo repo' : Repository} {m' : Message}
    (h : op.apply repo = .ok repo') (hm : m' ∈ repo'.tables.messages) :
    (∃ m ∈ repo.tables.messages, m'.envelope = m.envelope) ∨
      ∃ record contents, op = .addMessage record contents ∧ m'.envelope = record.envelope := by
  cases op with
  | addMessage record contents =>
    obtain ⟨id,hadd⟩ := WriteOp.apply_addMessage h
    rw [(addMessage_spec hadd).messages,Tables.mem_upsertMessage] at hm
    rcases hm with ⟨hm,-⟩ | ⟨m₀,-,-,rfl⟩ | ⟨-,rfl⟩
    · exact .inl ⟨m',hm,rfl⟩
    · exact .inr ⟨record,contents,rfl,rfl⟩
    · exact .inr ⟨record,contents,rfl,rfl⟩
  | mergeDuplicateMessage accountId c d => exact .inl (mergeDuplicateMessage_envelope h hm)
  | replaceMessageMemberships messageId memberships =>
    rw [replaceMessageMemberships_spec h] at hm
    exact .inl ⟨m',hm,rfl⟩
  | addMessageIdentityAlias accountId key messageId kind =>
    obtain ⟨aliases,htables⟩ := addMessageIdentityAlias_frame h
    rw [htables] at hm
    exact .inl ⟨m',hm,rfl⟩
  | updateGmailLabels messageId labels =>
    rw [WriteOp.apply,exec_eq_ok] at h
    rw [h] at hm
    rcases mem_update.mp hm with ⟨hm,-⟩ | ⟨m₀,hm₀,-,rfl⟩
    · exact .inl ⟨m',hm,rfl⟩
    · exact .inl ⟨m₀,hm₀,rfl⟩
  | setLocalState messageId state trashedAt =>
    rw [WriteOp.apply,exec_eq_ok] at h
    rw [h] at hm
    rcases mem_update.mp hm with ⟨hm,-⟩ | ⟨m₀,hm₀,-,rfl⟩
    · exact .inl ⟨m',hm,rfl⟩
    · exact .inl ⟨m₀,hm₀,rfl⟩
  | updateMessageStorage messageId relativePath fileHash =>
    rw [WriteOp.apply,exec_eq_ok] at h
    rw [h] at hm
    rcases mem_update.mp hm with ⟨hm,-⟩ | ⟨m₀,hm₀,-,rfl⟩
    · exact .inl ⟨m',hm,rfl⟩
    · exact .inl ⟨m₀,hm₀,rfl⟩
  | recordFailure accountId folderId uidvalidity uid errorClass message =>
    rw [WriteOp.apply,exec_eq_ok] at h
    have hmessages : repo'.tables.messages = repo.tables.messages := by
      rw [h]
      unfold Tables.recordFailure
      split <;> rfl
    exact .inl ⟨m',hmessages ▸ hm,rfl⟩
  | _ =>
    rw [WriteOp.apply,exec_eq_ok] at h
    rw [h] at hm
    exact .inl ⟨m',hm,rfl⟩

/-- No write renames a folder or hands it to another account. -/
theorem WriteOp.apply_folder {op : WriteOp} {repo repo' : Repository}
    (h : op.apply repo = .ok repo') {f : Folder} (hf : f ∈ repo.tables.folders) :
    ∃ f' ∈ repo'.tables.folders, f'.id = f.id ∧ f'.accountId = f.accountId ∧
      f'.rawName = f.rawName := by
  have hsame : repo'.tables.folders = repo.tables.folders → ∃ f' ∈ repo'.tables.folders,
      f'.id = f.id ∧ f'.accountId = f.accountId ∧ f'.rawName = f.rawName := by
    intro heq
    rw [heq]
    exact ⟨f,hf,rfl,rfl,rfl⟩
  have hupdated : ∀ (folderId : Nat) (g : Folder → Folder),
      repo'.tables = repo.tables.updateFolder folderId g → (∀ f, (g f).id = f.id ∧
        (g f).accountId = f.accountId ∧ (g f).rawName = f.rawName) → ∃ f' ∈ repo'.tables.folders,
        f'.id = f.id ∧ f'.accountId = f.accountId ∧ f'.rawName = f.rawName := by
    intro folderId g htables hg
    rw [htables]
    by_cases hid : f.id = folderId
    · exact ⟨g f,mem_update.mpr (.inr ⟨f,hf,by simp [hid],rfl⟩),hg f⟩
    · exact ⟨f,mem_update.mpr (.inl ⟨hf,by simp [hid]⟩),rfl,rfl,rfl⟩
  cases op with
  | addMessage record contents =>
    obtain ⟨id,hadd⟩ := WriteOp.apply_addMessage h
    exact hsame (addMessage_spec hadd).folders
  | mergeDuplicateMessage accountId c d => exact hsame (mergeDuplicateMessage_frame h).2.1
  | replaceMessageMemberships messageId memberships =>
    exact hsame (by rw [replaceMessageMemberships_spec h])
  | addMessageIdentityAlias accountId key messageId kind =>
    obtain ⟨aliases,htables⟩ := addMessageIdentityAlias_frame h
    exact hsame (by rw [htables])
  | recordFailure accountId folderId uidvalidity uid errorClass message =>
    rw [WriteOp.apply,exec_eq_ok] at h
    refine hsame ?_
    rw [h]
    unfold Tables.recordFailure
    split <;> rfl
  | setHighestModseq folderId value =>
    rw [WriteOp.apply,exec_eq_ok] at h
    exact hupdated folderId _ h fun _ => ⟨rfl,rfl,rfl⟩
  | initializeSyncCursors folderId uidvalidity maxUid =>
    rw [WriteOp.apply,exec_eq_ok] at h
    exact hupdated folderId _ h fun _ => ⟨rfl,rfl,rfl⟩
  | updateSyncCursors folderId lastSeenUid backfillNextUid initialSyncCompleted =>
    rw [WriteOp.apply,exec_eq_ok] at h
    exact hupdated folderId _ h fun _ => ⟨rfl,rfl,rfl⟩
  | _ =>
    rw [WriteOp.apply,exec_eq_ok] at h
    exact hsame (by rw [h]; rfl)

/-- A failure row is one that was there, or one that the write has just recorded. -/
theorem WriteOp.apply_failure {op : WriteOp} {repo repo' : Repository}
    (h : op.apply repo = .ok repo') {failure : SyncFailure}
    (hf : failure ∈ repo'.tables.failures) :
    failure ∈ repo.tables.failures ∨ ∃ errorClass message, op = .recordFailure failure.accountId
      failure.folderId failure.uidvalidity failure.uid errorClass message := by
  have hsame : repo'.tables.failures = repo.tables.failures → failure ∈ repo.tables.failures :=
    fun heq => heq ▸ hf
  cases op with
  | addMessage record contents =>
    obtain ⟨id,hadd⟩ := WriteOp.apply_addMessage h
    exact .inl (hsame (addMessage_spec hadd).failures)
  | mergeDuplicateMessage accountId c d => exact .inl (hsame (mergeDuplicateMessage_frame h).2.2)
  | replaceMessageMemberships messageId memberships =>
    exact .inl (hsame (by rw [replaceMessageMemberships_spec h]))
  | addMessageIdentityAlias accountId key messageId kind =>
    obtain ⟨aliases,htables⟩ := addMessageIdentityAlias_frame h
    exact .inl (hsame (by rw [htables]))
  | recordFailure accountId folderId uidvalidity uid errorClass message =>
    rw [WriteOp.apply,exec_eq_ok] at h
    rw [h] at hf
    unfold Tables.recordFailure at hf
    split at hf
    · rcases mem_update.mp hf with ⟨hf,-⟩ | ⟨old,-,hold,rfl⟩
      · exact .inl hf
      · simp only [SyncFailure.isOf,Bool.and_eq_true,beq_iff_eq] at hold
        obtain ⟨⟨⟨rfl,rfl⟩,rfl⟩,rfl⟩ := hold
        exact .inr ⟨errorClass,message,rfl⟩
    · rcases List.mem_append.mp hf with hf | hf
      · exact .inl hf
      · rw [List.mem_singleton.mp hf]
        exact .inr ⟨errorClass,message,rfl⟩
  | clearFailure accountId folderId uidvalidity uid =>
    rw [WriteOp.apply,exec_eq_ok] at h
    rw [h] at hf
    exact .inl (mem_deleteWhere.mp hf).1
  | _ =>
    rw [WriteOp.apply,exec_eq_ok] at h
    exact .inl (hsame (by rw [h]; rfl))

end MailDock
