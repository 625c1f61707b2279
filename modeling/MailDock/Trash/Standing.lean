import MailDock.Trash.Interrupt
import MailDock.Trash.Recovery

/-!
# Purges that stand

An intent stands as long as its message is not fetched again.  A message with a standing intent
is either settled, which means purged, with a `purged` event and one more entry in the audit log,
or its purge can be resumed: its row still has the path and the hash that the intent names.
Every point of a purge keeps that, for each message on its own.

## Main definitions

- `Standing` — some intent of the message is not followed by a fetch
- `Settled`, `Resumable` — what becomes of the message of a standing intent
- `Tracked` — one of the two holds
-/

namespace MailDock

/-- `(account_id, source_item_key)`. -/
abbrev RecordKey := String × SourceItemKey

def Message.recordKey (m : Message) : RecordKey := (m.accountId,m.sourceItemKey)
def PurgeEvent.recordKey (e : PurgeEvent) : RecordKey := (e.accountId,e.sourceItemKey)
def FetchEvent.recordKey (e : FetchEvent) : RecordKey := (e.accountId,e.sourceItemKey)

theorem PurgeEvent.isOf_iff {e : PurgeEvent} {m : Message} :
    e.isOf m ↔ e.recordKey = m.recordKey := by
  simp [PurgeEvent.isOf,PurgeEvent.recordKey,Message.recordKey]

/-- The entries `_audit_exists` means to look for. -/
def Tables.purgeAudits (t : Tables) (m : Message) : Nat :=
  t.auditLog.countP fun a => a.operation == "local_purge" && a.messageId == some (toString m.id) &&
    a.accountId == some m.accountId

/-- An integer is never equal to a text, so no entry is ever found. -/
theorem Tables.auditExists_eq_false (t : Tables) (m : Message) : t.auditExists m = false := by
  simp [Tables.auditExists,textEqualsId]

namespace Trash

open Hoare Relational

/-! ## Events -/

/-- An intent of the message after which the message is not fetched again. -/
def Standing (events : List ManifestEvent) (key : RecordKey) : Prop :=
  ∃ before e after, events = before ++ .purgeIntent e :: after ∧ e.recordKey = key ∧
    ∀ f, .fetch f ∈ after → f.recordKey ≠ key

section
variable {events : List ManifestEvent} {key : RecordKey} {db db' : Repository} {n : Nat}
  {row : Message → Prop}

/-- Only an intent of the message makes one stand. -/
theorem Standing.of_concat {x : ManifestEvent}
    (hx : ∀ e, x = .purgeIntent e → e.recordKey ≠ key) (h : Standing (events ++ [x]) key) :
    Standing events key := by
  obtain ⟨before,e,after,heq,hkey,hlast⟩ := h
  rcases List.eq_nil_or_concat after with rfl | ⟨rest,y,rfl⟩
  · have hsame := List.append_inj' heq rfl
    exact absurd hkey (hx e (List.singleton_inj.mp hsame.2))
  · have heq' : events ++ [x] = (before ++ .purgeIntent e :: rest) ++ [y] := by
      rw [heq]
      simp
    have hsame := List.append_inj' heq' rfl
    exact ⟨before,e,rest,hsame.1,hkey,fun f hf => hlast f (by simp [hf])⟩

theorem Standing.of_append {new : List ManifestEvent} (hnew : ∀ x ∈ new, ∃ e, x = .purged e)
    (h : Standing (events ++ new) key) : Standing events key := by
  induction new generalizing events with
  | nil => simpa using h
  | cons x new ih =>
    obtain ⟨e,rfl⟩ := hnew x (by simp)
    rw [List.append_cons] at h
    refine (ih (fun y hy => hnew y (by simp [hy])) h).of_concat ?_
    intro i hi
    cases hi

/-! ## Rows -/

/-- The message is purged, its event is there and so is one audit entry more than `n`. -/
def Settled (key : RecordKey) (n : Nat) (db : Repository) (events : List ManifestEvent) : Prop :=
  ∃ m ∈ db.tables.messages, m.recordKey = key ∧ m.localState = .purged ∧ m.relativePath = none ∧
    Completed events m ∧ db.tables.purgeAudits m = n + 1

/-- A row whose purge was announced and not finished. -/
structure Resumable (n : Nat) (db : Repository) (events : List ManifestEvent) (m : Message)
    (i : PurgeEvent) : Prop where
  mem : m ∈ db.tables.messages
  intent : .purgeIntent i ∈ events
  isOf : i.isOf m
  alive : m.localState ≠ .purged
  path : m.relativePath = some i.relativePath
  hash : m.fileHash = some i.fileHash
  valid : validateEvent (.purgeIntent i) = .ok ()
  audits : db.tables.purgeAudits m = n

/-- A message with a standing intent is settled, or its purge can be resumed from an admissible
row. -/
def Tracked (row : Message → Prop) (key : RecordKey) (n : Nat) (db : Repository)
    (events : List ManifestEvent) : Prop :=
  Standing events key → Settled key n db events ∨
    ∃ m i, row m ∧ m.recordKey = key ∧ Resumable n db events m i

/-- The fields an intent must have. -/
theorem named_of_valid {i : PurgeEvent} (h : validateEvent (.purgeIntent i) = .ok ()) :
    i.accountId ≠ "" ∧ i.relativePath ≠ "" ∧ i.fileHash ≠ "" := by
  have hfield : ∀ {value field name : String} {u : Unit}, requireText value field name = .ok u →
      value ≠ "" := by
    intro value field name u hok hempty
    rw [requireText,if_pos hempty] at hok
    cases hok
  obtain ⟨_,haccount,h⟩ := Except.bind_eq_ok_iff.mp h
  obtain ⟨_,-,h⟩ := Except.bind_eq_ok_iff.mp h
  obtain ⟨_,hpath,hhash⟩ := Except.bind_eq_ok_iff.mp h
  exact ⟨hfield haccount,hfield hpath,hfield hhash⟩

/-- The rows and audit entries of the message stay as they are. -/
structure Unaffected (key : RecordKey) (t t' : Tables) : Prop where
  rows : ∀ m ∈ t.messages, m.recordKey = key → m ∈ t'.messages
  audits : ∀ m ∈ t.messages, m.recordKey = key → t'.purgeAudits m = t.purgeAudits m

theorem Settled.append (h : Settled key n db events) (new : List ManifestEvent) :
    Settled key n db (events ++ new) := by
  obtain ⟨m,hm,hkey,hpurged,hpath,hcompleted,haudits⟩ := h
  exact ⟨m,hm,hkey,hpurged,hpath,hcompleted.append new,haudits⟩

theorem Resumable.append {m : Message} {i : PurgeEvent} (h : Resumable n db events m i)
    (new : List ManifestEvent) : Resumable n db (events ++ new) m i :=
  ⟨h.mem,List.mem_append_left _ h.intent,h.isOf,h.alive,h.path,h.hash,h.valid,h.audits⟩

theorem Settled.unaffected (h : Settled key n db events)
    (hrows : Unaffected key db.tables db'.tables) : Settled key n db' events := by
  obtain ⟨m,hm,hkey,hpurged,hpath,hcompleted,haudits⟩ := h
  exact ⟨m,hrows.rows m hm hkey,hkey,hpurged,hpath,hcompleted,(hrows.audits m hm hkey).trans haudits⟩

theorem Resumable.unaffected {m : Message} {i : PurgeEvent} (h : Resumable n db events m i)
    (hkey : m.recordKey = key) (hrows : Unaffected key db.tables db'.tables) :
    Resumable n db' events m i :=
  ⟨hrows.rows m h.mem hkey,h.intent,h.isOf,h.alive,h.path,h.hash,h.valid,
    (hrows.audits m h.mem hkey).trans h.audits⟩

theorem Tracked.mono {row' : Message → Prop} (h : Tracked row key n db events)
    (hle : ∀ m, row m → row' m) : Tracked row' key n db events := by
  intro hstanding
  rcases h hstanding with hsettled | ⟨m,i,hrow,hm⟩
  · exact .inl hsettled
  · exact .inr ⟨m,i,hle m hrow,hm⟩

theorem Tracked.unaffected (h : Tracked row key n db events)
    (hrows : Unaffected key db.tables db'.tables) : Tracked row key n db' events := by
  intro hstanding
  rcases h hstanding with hsettled | ⟨m,i,hrow,hkey,hm⟩
  · exact .inl (hsettled.unaffected hrows)
  · exact .inr ⟨m,i,hrow,hkey,hm.unaffected hkey hrows⟩

/-- Events that are not about a purge of the message to come. -/
theorem Tracked.concat (h : Tracked row key n db events) {x : ManifestEvent}
    (hx : ∀ e, x = .purgeIntent e → e.recordKey ≠ key) : Tracked row key n db (events ++ [x]) := by
  intro hstanding
  rcases h (hstanding.of_concat hx) with hsettled | ⟨m,i,hrow,hkey,hm⟩
  · exact .inl (hsettled.append _)
  · exact .inr ⟨m,i,hrow,hkey,hm.append _⟩

/-! ## Identities -/

/-- Every row is one of the earlier rows, as far as its id and its key go. -/
def Identified (ms ms' : List Message) : Prop :=
  ∀ m' ∈ ms', ∃ m ∈ ms, m.id = m'.id ∧ m.recordKey = m'.recordKey

theorem Identified.refl (ms : List Message) : Identified ms ms :=
  fun m hm => ⟨m,hm,rfl,rfl⟩

theorem Identified.trans {ms ms' ms'' : List Message} (h : Identified ms ms')
    (h' : Identified ms' ms'') : Identified ms ms'' := by
  intro m'' hm''
  obtain ⟨m',hm',hid',hkey'⟩ := h' m'' hm''
  obtain ⟨m,hm,hid,hkey⟩ := h m' hm'
  exact ⟨m,hm,hid.trans hid',hkey.trans hkey'⟩

theorem Identified.update {ms : List Message} {p : Message → Bool} {f : Message → Message}
    (hf : ∀ m, (f m).id = m.id ∧ (f m).recordKey = m.recordKey) :
    Identified ms (update p f ms) := by
  intro m' hm'
  rcases mem_update.mp hm' with ⟨hm,-⟩ | ⟨m,hm,-,rfl⟩
  · exact ⟨m',hm,rfl,rfl⟩
  · exact ⟨m,hm,(hf m).1.symm,(hf m).2.symm⟩

/-- A record that was read earlier is still about the row with its id and its key. -/
theorem Identified.id_eq_iff (h : Identified db.tables.messages db'.tables.messages)
    {record m : Message} (hrecord : record ∈ db.tables.messages) (hm : m ∈ db'.tables.messages) :
    m.id = record.id ↔ m.recordKey = record.recordKey := by
  obtain ⟨m₀,hm₀,hid,hkey⟩ := h m hm
  rw [← hid,← hkey]
  constructor
  · intro hsame
    rw [db.keyed.id m₀ hm₀ record hrecord hsame]
  · intro hsame
    simp only [Message.recordKey,Prod.mk.injEq] at hsame
    rw [db.keyed.key m₀ hm₀ record hrecord hsame.1 hsame.2]

/-! ## The last step of a purge -/

/-- The database after `_finish_purge_database`. -/
structure Finished (record : Message) (t t' : Tables) : Prop where
  messages : t'.messages = update (fun m => m.id == record.id) purgedRow t.messages
  audits : ∃ now physical, t'.auditLog = t.auditLog ++ [purgeAudit record now physical]

variable {record : Message}

theorem Finished.identified {t t' : Tables} (h : Finished record t t') :
    Identified t.messages t'.messages := by
  rw [h.messages]
  exact Identified.update fun m => ⟨rfl,rfl⟩

theorem Finished.purgeAudits_other {t t' : Tables} (h : Finished record t t') {m : Message}
    (hid : m.id ≠ record.id) : t'.purgeAudits m = t.purgeAudits m := by
  obtain ⟨now,physical,hlog⟩ := h.audits
  have hne : toString record.id ≠ toString m.id := fun hsame => hid (toString_injective hsame).symm
  rw [Tables.purgeAudits,hlog,List.countP_append,List.countP_singleton,Tables.purgeAudits]
  simp only [purgeAudit,beq_eq_false_iff_ne.mpr (fun h => hne (Option.some.inj h)),
    Bool.and_false,Bool.false_and,Bool.false_eq_true,if_false,Nat.add_zero]

/-- Every call writes an entry. -/
theorem Finished.purgeAudits_own {t t' : Tables} (h : Finished record t t') {m : Message}
    (hid : m.id = record.id) (haccount : m.accountId = record.accountId) :
    t'.purgeAudits m = t.purgeAudits m + 1 := by
  obtain ⟨now,physical,hlog⟩ := h.audits
  rw [Tables.purgeAudits,hlog,List.countP_append,List.countP_singleton,← Tables.purgeAudits]
  simp [purgeAudit,hid,haccount]

/-- Another message is left alone. -/
theorem Finished.unaffected {t t' : Tables} (h : Finished record t t')
    (hid : ∀ m ∈ t.messages, m.recordKey = key → m.id ≠ record.id) : Unaffected key t t' where
  rows m hm hkey := by
    rw [h.messages]
    exact mem_update.mpr (.inl ⟨hm,by simpa using hid m hm hkey⟩)
  audits m hm hkey := h.purgeAudits_other (hid m hm hkey)

/-- The record is about the rows that have its key. -/
def NamesRows (key : RecordKey) (record : Message) (t : Tables) : Prop :=
  ∀ m ∈ t.messages, m.recordKey = key → (m.id = record.id ↔ record.recordKey = key)

theorem Identified.namesRows (h : Identified db.tables.messages db'.tables.messages)
    (hrecord : record ∈ db.tables.messages) : NamesRows key record db'.tables := by
  intro m hm hkey
  rw [h.id_eq_iff hrecord hm,hkey,eq_comm]

theorem Finished.unaffected_of_ne {t t' : Tables} (h : Finished record t t')
    (hnames : NamesRows key record t) (hne : record.recordKey ≠ key) : Unaffected key t t' :=
  h.unaffected fun m hm hkey hid => hne ((hnames m hm hkey).mp hid)

/-- Finishing a purge that can be resumed settles its message. -/
theorem Finished.settled (h : Finished record db.tables db'.tables) {m : Message} {i : PurgeEvent}
    (hm : Resumable n db events m i) (hkey : m.recordKey = key) (hown : record.recordKey = key)
    (hnames : NamesRows key record db.tables)
    (hevent : ∃ e, .purged e ∈ events ∧ e.recordKey = record.recordKey) :
    Settled key n db' events := by
  have hid : m.id = record.id := (hnames m hm.mem hkey).mpr hown
  have haccount : m.accountId = record.accountId := congrArg Prod.fst (hkey.trans hown.symm)
  have hrow : purgedRow m ∈ db'.tables.messages := by
    rw [h.messages]
    exact mem_update.mpr (.inr ⟨m,hm.mem,by simpa using hid,rfl⟩)
  have hcount : db'.tables.purgeAudits (purgedRow m) = db.tables.purgeAudits (purgedRow m) + 1 :=
    h.purgeAudits_own hid haccount
  obtain ⟨e,he,hsame⟩ := hevent
  refine ⟨purgedRow m,hrow,hkey,rfl,rfl,⟨e,he,?_⟩,?_⟩
  · rw [PurgeEvent.isOf_iff,hsame,hown]
    exact hkey.symm
  · rw [hcount,← hm.audits]
    rfl

/-- Finishing another purge concerns nobody else, and finishing the message's own, while it can
be resumed, settles it. -/
theorem Tracked.finish (h : Tracked row key n db events)
    (hfinished : Finished record db.tables db'.tables) (hnames : NamesRows key record db.tables)
    (hevent : ∃ e, .purged e ∈ events ∧ e.recordKey = record.recordKey)
    (hown : record.recordKey = key → Standing events key →
      ∃ m i, m.recordKey = key ∧ Resumable n db events m i) :
    Tracked (fun m => row m ∧ record.recordKey ≠ key) key n db' events := by
  intro hstanding
  by_cases hkey : record.recordKey = key
  · obtain ⟨m,i,hm,hresumable⟩ := hown hkey hstanding
    exact .inl (hfinished.settled hresumable hm hkey hnames hevent)
  · have hrows := hfinished.unaffected_of_ne hnames hkey
    rcases h hstanding with hsettled | ⟨m,i,hrow,hm,hresumable⟩
    · exact .inl (hsettled.unaffected hrows)
    · exact .inr ⟨m,i,⟨hrow,hkey⟩,hm,hresumable.unaffected hm hrows⟩

end

/-! ## The calls of a purge -/

section
variable {T : Repository → List ManifestEvent → Prop} {start own base new : List ManifestEvent}
  {db : Repository} {files : List (String × Bytes)} {env : Env} {key : RecordKey} {n : Nat}
  {record : Message} {relativePath fileHash now : String} {count : Nat} {physical : Bool}

theorem Between.finish_rule
    (hnew : ∀ db', Finished record db.tables db'.tables → T db' (base ++ new)) :
    Triple (Between T start own base db new files) (finishPurgeDatabase env record physical)
      (fun _ w => ∃ db', Finished record db.tables db'.tables ∧
        Between T start own base db' new files w) fun _ => Survives T start := by
  refine Between.begin_rule.seq fun _ => Batch.write_rule.seq fun _ => ?_
  rintro w ⟨db₁,hop₁,h₁⟩
  refine (Batch.write_rule.seq fun _ => ?_) w h₁
  rintro w ⟨db₂,hop₂,h₂⟩
  refine (Batch.write_rule.seq fun _ => ?_) w h₂
  rintro w ⟨db₃,hop₃,h₃⟩
  refine (Batch.query_rule.seq fun audited => ?_) w h₃
  rintro w ⟨h,rfl⟩
  rw [Tables.auditExists_eq_false,if_neg Bool.false_ne_true]
  refine (Batch.timestamp_rule.seq fun now => Batch.write_rule.seq fun _ => ?_) w h
  rintro w ⟨db₄,hop₄,h₄⟩
  have ht₁ := Repository.exec_eq_ok.mp hop₁
  have ht₂ := Repository.exec_eq_ok.mp hop₂
  have ht₃ := Repository.exec_eq_ok.mp hop₃
  have ht₄ := Repository.exec_eq_ok.mp hop₄
  have hfinished : Finished record db.tables db₄.tables := by
    refine ⟨?_,now,physical,?_⟩
    · rw [ht₄,← update_purgedRow,ht₃,ht₂,ht₁]
      rfl
    · rw [ht₄,ht₃,ht₂,ht₁]
      rfl
  exact ((Batch.commit_rule (hnew db₄ hfinished)).strengthen_post
    fun _ w hw => ⟨db₄,hfinished,hw⟩) w h₄

/-- The file may go when the deletion is physical, and no other file is touched. -/
theorem Between.deleteFile_rule :
    Triple (Between T start own base db new files)
      (if physical then do
          let found ← existsEml env relativePath
          if found then do
            deleteEml env relativePath
            pure true
          else pure false
        else pure false : App Bool)
      (fun _ w => ∃ files', (∀ p, p ≠ relativePath ∨ physical = false →
        files'.lookup p = files.lookup p) ∧ Between T start own base db new files' w)
      fun _ => Survives T start := by
  split
  · next hphysical =>
    refine Between.exists_rule.seq fun found => ?_
    split
    · refine Between.delete_rule.seq fun _ => Triple.ret fun w h => ⟨_,fun p hp => ?_,h⟩
      have hne : p ≠ relativePath := hp.resolve_right fun hnot => by
        rw [hphysical] at hnot
        cases hnot
      rw [lookup_filter_path fun q => q != relativePath]
      simp [hne]
    · exact Triple.ret fun w h => ⟨files,fun _ _ => rfl,h⟩
  · exact Triple.ret fun w h => ⟨files,fun _ _ => rfl,h⟩

/-- A purge after its intent. -/
theorem Between.executePurge_rule
    (hevent : ∀ e : PurgeEvent, e.recordKey = record.recordKey → T db (base ++ (new ++ [.purged e])))
    (hrow : ∀ db' (e : PurgeEvent), Finished record db.tables db'.tables →
      e.recordKey = record.recordKey → T db' (base ++ (new ++ [.purged e]))) :
    Triple (Between T start own base db new files)
      (executePurge env record relativePath fileHash now count physical)
      (fun _ w => ∃ db' files' e, Finished record db.tables db'.tables ∧
        e.recordKey = record.recordKey ∧
        (∀ p, p ≠ relativePath ∨ physical = false → files'.lookup p = files.lookup p) ∧
        Between T start own base db' (new ++ [.purged e]) files' w) fun _ => Survives T start := by
  refine Between.deleteFile_rule.seq fun deleted => ?_
  rintro w ⟨files',hfiles,h⟩
  refine Between.record_rule (fun _ => hevent _ rfl) (fun _ => ?_) w h
  refine (Between.finish_rule fun db' hfinished => hrow db' _ hfinished rfl).seq
    fun _ => Triple.ret ?_
  rintro w ⟨db',hfinished,h'⟩
  exact ⟨db',files',_,hfinished,rfl,hfiles,h'⟩

/-- A purge whose intent is there already; a file that others refer to stays. -/
theorem Between.resumePurge_rule (record : Message)
    (hpath : record.relativePath = some relativePath) (hhash : record.fileHash = some fileHash)
    (hnamed : ¬(relativePath = "" ∨ fileHash = "")) {intended : Option Bool}
    (hevent : ∀ e : PurgeEvent, e.recordKey = record.recordKey → T db (base ++ (new ++ [.purged e])))
    (hrow : ∀ db' (e : PurgeEvent), Finished record db.tables db'.tables →
      e.recordKey = record.recordKey → T db' (base ++ (new ++ [.purged e]))) :
    Triple (Between T start own base db new files) (completePurge env record now intended false)
      (fun _ w => ∃ db' files' e, Finished record db.tables db'.tables ∧
        e.recordKey = record.recordKey ∧ (∀ p, p ≠ relativePath ∨
          db.tables.countPathReferences record.accountId relativePath record.id ≠ 0 →
            files'.lookup p = files.lookup p) ∧
        Between T start own base db' (new ++ [.purged e]) files' w) fun _ => Survives T start := by
  unfold completePurge
  rw [hpath,hhash]
  dsimp only
  rw [if_neg hnamed]
  refine Between.query_rule.seq fun references => ?_
  rw [if_neg Bool.false_ne_true]
  rintro w ⟨h,rfl⟩
  refine ((Between.executePurge_rule hevent hrow).seq fun _ => Triple.ret ?_) w h
  rintro w ⟨db',files',e,hfinished,he,hfiles,h'⟩
  refine ⟨db',files',e,hfinished,he,fun p hp => hfiles p (hp.imp_right fun hne => ?_),h'⟩
  simp [hne]

/-! ## A whole purge -/

/-- The trashed records of the message that are still to be purged: at most one, and its row is
as it was read, with `n` audit entries. -/
structure Purgeable (key : RecordKey) (n : Nat) (rest : List Message) (db : Repository) : Prop where
  once : rest.countP (fun r => r.recordKey == key && r.localState == .trashed) ≤ 1
  rows : ∀ r ∈ rest, r.recordKey = key → r.localState = .trashed →
    r ∈ db.tables.messages ∧ db.tables.purgeAudits r = n

/-- Between two records of a purge that started on `db₀`. -/
def Purging (key : RecordKey) (n : Nat) (start : List ManifestEvent) (db₀ : Repository)
    (rest : List Message) (w : World) : Prop :=
  ∃ db new files, Between (Tracked (fun _ => True) key n) start start start db new files w ∧
    Identified db₀.tables.messages db.tables.messages ∧ Purgeable key n rest db

theorem Purgeable.tail {rest : List Message} (h : Purgeable key n (record :: rest) db) :
    Purgeable key n rest db where
  once := (List.sublist_cons_self record rest).countP_le.trans h.once
  rows r hr := h.rows r (List.mem_cons_of_mem _ hr)

/-- The other records can still be purged after one of them is. -/
theorem Purgeable.finish {rest : List Message} {db' : Repository}
    (h : Purgeable key n (record :: rest) db) (htrashed : record.localState = .trashed)
    (hfinished : Finished record db.tables db'.tables) (hnames : NamesRows key record db.tables) :
    Purgeable key n rest db' := by
  refine ⟨h.tail.once,fun r hr hkey hr' => ?_⟩
  by_cases hown : record.recordKey = key
  · -- the message would be purged twice
    have hcount := h.once
    rw [List.countP_cons_of_pos (by simp [hown,htrashed])] at hcount
    have hzero : rest.countP (fun r => r.recordKey == key && r.localState == .trashed) = 0 := by
      omega
    exact absurd (by simp [hkey,hr']) (List.countP_eq_zero.mp hzero r hr)
  · have hrows := hfinished.unaffected_of_ne hnames hown
    obtain ⟨hmem,haudits⟩ := h.tail.rows r hr hkey hr'
    exact ⟨hrows.rows r hmem hkey,(hrows.audits r hmem hkey).trans haudits⟩

/-- The intent of a record makes its purge one that can be resumed. -/
theorem Purgeable.resumable {rest : List Message} {events : List ManifestEvent}
    (h : Purgeable key n (record :: rest) db) (htrashed : record.localState = .trashed)
    (hpath : record.relativePath = some relativePath) (hhash : record.fileHash = some fileHash)
    (hkey : record.recordKey = key)
    (hvalid : validateEvent (.purgeIntent (purgeEvent record relativePath fileHash now count
      physical)) = .ok ())
    (hintent : .purgeIntent (purgeEvent record relativePath fileHash now count physical) ∈ events) :
    Resumable n db events record (purgeEvent record relativePath fileHash now count physical) := by
  obtain ⟨hmem,haudits⟩ := h.rows record List.mem_cons_self hkey htrashed
  refine ⟨hmem,hintent,⟨rfl,rfl⟩,?_,hpath,hhash,hvalid,haudits⟩
  rw [htrashed]
  decide

theorem Purgeable.announce {rest : List Message} {events : List ManifestEvent}
    (h : Purgeable key n (record :: rest) db) (htrashed : record.localState = .trashed)
    (hpath : record.relativePath = some relativePath) (hhash : record.fileHash = some fileHash)
    (htracked : Tracked (fun _ => True) key n db events)
    (hvalid : validateEvent (.purgeIntent (purgeEvent record relativePath fileHash now count
      physical)) = .ok ()) :
    Tracked (fun _ => True) key n db (events ++ [.purgeIntent (purgeEvent record relativePath fileHash
      now count physical)]) := by
  by_cases hkey : record.recordKey = key
  · intro _
    exact .inr ⟨record,_,trivial,hkey,h.resumable htrashed hpath hhash hkey hvalid (by simp)⟩
  · refine htracked.concat fun e he => ?_
    cases he
    exact hkey

theorem completePurge_tracked {db₀ : Repository} {rest : List Message}
    (hrow : record ∈ db₀.tables.messages) (htrashed : record.localState = .trashed) :
    Triple (Purging key n start db₀ (record :: rest)) (completePurge env record now none true)
      (fun _ => Purging key n start db₀ rest)
      fun _ => Survives (Tracked (fun _ => True) key n) start := by
  have hskip : ∀ w, Purging key n start db₀ (record :: rest) w → Purging key n start db₀ rest w := by
    rintro w ⟨db,new,files,h,hids,hready⟩
    exact ⟨db,new,files,h,hids,hready.tail⟩
  unfold completePurge
  split
  · next relativePath fileHash hpath hhash =>
    split
    · exact Triple.ret hskip
    · rintro w ⟨db,new,files,h,hids,hready⟩
      refine (Between.query_rule.seq fun references => ?_) w h
      rw [if_pos rfl]
      rintro w ⟨h,-⟩
      have hnames : NamesRows key record db.tables := hids.namesRows hrow
      have hintent : validateEvent (.purgeIntent (purgeEvent record relativePath fileHash now references
          (references == 0 && none.getD true))) = .ok () → Tracked (fun _ => True) key n db
            (start ++ (new ++ [.purgeIntent (purgeEvent record relativePath fileHash now references
              (references == 0 && none.getD true))])) := by
        intro hvalid
        rw [← List.append_assoc]
        exact hready.announce htrashed hpath hhash h.holds hvalid
      refine Between.record_rule hintent (fun hvalid => ?_) w h
      have hevent : ∀ e : PurgeEvent, Tracked (fun _ => True) key n db (start ++
          (new ++ [.purgeIntent (purgeEvent record relativePath fileHash now references
            (references == 0 && none.getD true))] ++ [.purged e])) := by
        intro e
        rw [← List.append_assoc]
        exact (hintent hvalid).concat fun _ hx => by cases hx
      refine (Between.executePurge_rule (fun e _ => hevent e) fun db' e hfinished he => ?_).seq
        fun deleted => Triple.ret ?_
      · refine ((hevent e).finish hfinished hnames ⟨e,by simp,he⟩ fun hkey _ => ?_).mono
          fun _ _ => trivial
        exact ⟨record,_,hkey,hready.resumable htrashed hpath hhash hkey hvalid (by simp)⟩
      · rintro w ⟨db',files',e,hfinished,-,-,h'⟩
        exact ⟨db',_,files',h',hids.trans hfinished.identified,
          hready.finish htrashed hfinished hnames⟩
  · exact Triple.ret hskip

theorem purgeStep_tracked {db₀ : Repository} {rest : List Message} {result : PurgeResult}
    (hrow : record ∈ db₀.tables.messages) :
    Triple (Purging key n start db₀ (record :: rest)) (purgeStep env now result record)
      (fun _ => Purging key n start db₀ rest)
      fun _ => Survives (Tracked (fun _ => True) key n) start := by
  unfold purgeStep
  split
  · refine Triple.ret ?_
    rintro w ⟨db,new,files,h,hids,hready⟩
    exact ⟨db,new,files,h,hids,hready.tail⟩
  · next htrashed =>
    refine (completePurge_tracked hrow (not_not.mp htrashed)).seq fun outcome => ?_
    dsimp only
    split
    · exact Triple.ret fun _ h => h
    · exact Triple.ret fun _ h => h

/-- The records are the rows with the ids that were asked for, in that order. -/
theorem purgeRecords_tracked {messageIds : List Nat} :
    Triple (Between T start own base db new files)
      (messageIds.foldlM (fun records messageId => do
        let record ← queryRepo env fun t => t.getMessage messageId
        pure (records ++ (record.map Prod.fst).toList)) ([] : List Message))
      (fun records w => Between T start own base db new files w ∧ records =
        messageIds.filterMap fun id => (db.tables.getMessage id).map Prod.fst)
      fun _ => Survives T start := by
  refine (Triple.accumulate_prefix (I := fun done records w =>
    Between T start own base db new files w ∧ records =
      done.filterMap fun id => (db.tables.getMessage id).map Prod.fst) messageIds
    (fun done records id _ => ?_) [] []).weaken_pre fun w h => ⟨h,rfl⟩
  rintro w ⟨h,rfl⟩
  refine (Between.query_rule.seq fun record => Triple.ret ?_) w h
  rintro w ⟨h,rfl⟩
  refine ⟨h,?_⟩
  rw [List.filterMap_append]
  cases hfound : db.tables.getMessage id with
  | none => simp [hfound]
  | some found => simp [hfound]

theorem mem_purgeRecords {messageIds : List Nat} {r : Message}
    (h : r ∈ messageIds.filterMap fun id => (db.tables.getMessage id).map Prod.fst) :
    r ∈ db.tables.messages ∧ r.id ∈ messageIds := by
  obtain ⟨id,hid,hmap⟩ := List.mem_filterMap.mp h
  obtain ⟨found,hfound,rfl⟩ := Option.map_eq_some_iff.mp hmap
  obtain ⟨hrow,hsame⟩ := mem_of_getMessage hfound
  exact ⟨hrow,hsame ▸ hid⟩

/-- What a purge of the message adds one audit entry to: its id occurs once among those that are
purged, and there are `n` entries so far. -/
def PurgedOnce (key : RecordKey) (n : Nat) (db : Repository) (messageIds : List Nat) : Prop :=
  ∀ m ∈ db.tables.messages, m.recordKey = key → m.id ∈ messageIds → m.localState = .trashed →
    messageIds.count m.id = 1 ∧ db.tables.purgeAudits m = n

theorem PurgedOnce.purgeable {messageIds : List Nat} (h : PurgedOnce key n db messageIds) :
    Purgeable key n (messageIds.filterMap fun id => (db.tables.getMessage id).map Prod.fst) db := by
  refine ⟨?_,fun r hr hkey htrashed => ?_⟩
  · by_contra hmany
    -- two records of the message have its id, which was asked for once
    obtain ⟨r,hr,hr'⟩ := List.countP_pos_iff.mp (Nat.lt_of_lt_of_le Nat.zero_lt_one
      (Nat.le_of_lt (not_le.mp hmany)))
    simp only [Bool.and_eq_true,beq_iff_eq] at hr'
    have hcount := (h r (mem_purgeRecords hr).1 hr'.1 (mem_purgeRecords hr).2 hr'.2).1
    have hle : ∀ ids : List Nat, (ids.filterMap fun id => (db.tables.getMessage id).map
        Prod.fst).countP (fun m => m.recordKey == key && m.localState == .trashed) ≤
          ids.count r.id := by
      intro ids
      induction ids with
      | nil => simp
      | cons id ids ih =>
        rw [List.count_cons,List.filterMap_cons]
        cases hfound : db.tables.getMessage id with
        | none => simpa using Nat.le_trans ih (Nat.le_add_right _ _)
        | some found =>
          obtain ⟨hrow,rfl⟩ := mem_of_getMessage hfound
          simp only [Option.map_some,List.countP_cons]
          by_cases hown : (found.1.recordKey == key && found.1.localState == .trashed) = true
          · have hsame : found.1.id = r.id := by
              simp only [Bool.and_eq_true,beq_iff_eq] at hown
              exact ((Identified.refl _).id_eq_iff (mem_purgeRecords hr).1 hrow).mpr (hown.1.trans hr'.1.symm)
            simp only [hown,hsame,beq_self_eq_true,if_true]
            omega
          · simp only [hown,Bool.false_eq_true,if_false]
            split
            · omega
            · omega
    exact hmany (hcount ▸ hle messageIds)
  · obtain ⟨hrow,hid⟩ := mem_purgeRecords hr
    exact ⟨hrow,(h r hrow hkey hid htrashed).2⟩

theorem purge_tracked (env : Env) {messageIds : List Nat} (writeAllowed : Bool)
    (honce : PurgedOnce key n db messageIds) :
    Triple (Between (Tracked (fun _ => True) key n) start start start db [] files)
      (purge env messageIds writeAllowed)
      (fun _ => Survives (Tracked (fun _ => True) key n) start)
      fun _ => Survives (Tracked (fun _ => True) key n) start := by
  unfold purge
  split
  · refine Between.timestamp_rule.seq fun now => purgeRecords_tracked.seq fun records => ?_
    rintro w ⟨h,rfl⟩
    refine ((Triple.accumulate_rest (I := Purging key n start db) _
      (fun result m hm rest => purgeStep_tracked (mem_purgeRecords hm).1) _).strengthen_post ?_) w
      ⟨db,[],files,h,Identified.refl _,honce.purgeable⟩
    rintro _ w ⟨db',new,files',h',-⟩
    exact h'.toSteady.survives
  · exact Triple.raise fun w h => h.toSteady.survives

end

end Trash

end MailDock
