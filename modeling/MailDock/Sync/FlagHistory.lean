import MailDock.Repository.FlagRows
import MailDock.Sync.Flags

/-!
# The flags of a server over time

A history gives the flags, the UIDVALIDITY and the MODSEQ values of every folder at each moment.
The run of a synchronisation takes place between two moments, and each answer of its environment
shows some moment between them.

## Main definitions

- `FlagHistory` — what is at the server, moment by moment
- `FlagHistory.Watch` — an environment that shows a stretch of the history
- `FlagHistory.Kept` — the flags of the window are the server's, up to the stored MODSEQ
- `FlagHistory.Sound` — the invariant behind it, which later moments cannot break

## Main results

- `FlagHistory.Sound.write` — what a write has to bring to keep it
-/

namespace MailDock

/-- The flags of a message, as `refresh_flags` stores them. -/
def flagText (flags : List String) : String := " ".intercalate flags

/-- What is at the server at each moment, and where the window of the refresh begins.  A UIDVALIDITY
that was given up is not used again; within one, a change of a message raises the MODSEQ of its
folder. -/
structure FlagHistory where
  uidvalidity : Nat → Mailbox → Nat
  present : Nat → Mailbox → Nat → Prop
  flags : Nat → Mailbox → Nat → List String
  /-- The MODSEQ of the last change of a message. -/
  changed : Nat → Mailbox → Nat → Nat
  highest : Nat → Mailbox → Nat
  since : Nat → String
  notReused : ∀ p a b c, a ≤ b → b ≤ c → uidvalidity a p = uidvalidity c p →
    uidvalidity b p = uidvalidity a p
  highest_le : ∀ p a b, a ≤ b → uidvalidity a p = uidvalidity b p → highest a p ≤ highest b p
  settled : ∀ p u a b, a ≤ b → uidvalidity a p = uidvalidity b p → present b p u →
    changed b p u ≤ highest a p → present a p u ∧ flags a p u = flags b p u ∧
      changed a p u = changed b p u
  since_le : ∀ a b, a ≤ b → since a ≤ since b

namespace FlagHistory

/-- The answers of the environment show the history between `start` and `stop`.  An iterator over
flags that is opened at the tick `t` reads the message `u` at the moment `read t u`. -/
structure Watch (S : FlagHistory) (env : Env) (accountId : String) (windowDays start stop : Nat)
    where
  moment : Nat → Nat
  read : Nat → Nat → Nat
  moment_le : ∀ t t', t ≤ t' → moment t ≤ moment t'
  started : ∀ t, start ≤ moment t
  stopped : ∀ t, moment t ≤ stop
  moment_le_read : ∀ t u, moment t ≤ read t u
  read_le : ∀ t u, read t u ≤ stop
  uidvalidity : ∀ t name, env.uidvalidity t name = S.uidvalidity (moment t) ⟨accountId,name⟩
  nextRef : ∀ t name minUid maxUid ref, env.nextRef t name minUid maxUid = some ref →
    ∃ s, start ≤ s ∧ s ≤ moment t ∧ ref.flags = S.flags s ⟨accountId,name⟩ ref.uid
  flagRefs : ∀ t name, ∀ ref ∈ (env.flagRefs t name).1,
    S.present (read t ref.uid) ⟨accountId,name⟩ ref.uid ∧
      ref.flags = S.flags (read t ref.uid) ⟨accountId,name⟩ ref.uid
  flagRefs_all : ∀ t name, (env.flagRefs t name).2 = none → ∀ u,
    S.present (read t u) ⟨accountId,name⟩ u → ∃ ref ∈ (env.flagRefs t name).1, ref.uid = u
  flagRefsSince : ∀ t name modseq, ∀ ref ∈ (env.flagRefsSince t name modseq).1,
    S.present (read t ref.uid) ⟨accountId,name⟩ ref.uid ∧
      ref.flags = S.flags (read t ref.uid) ⟨accountId,name⟩ ref.uid
  flagRefsSince_all : ∀ t name modseq, (env.flagRefsSince t name modseq).2 = none → ∀ u,
    S.present (read t u) ⟨accountId,name⟩ u →
    modseq < S.changed (read t u) ⟨accountId,name⟩ u →
    ∃ ref ∈ (env.flagRefsSince t name modseq).1, ref.uid = u
  highestModseq : ∀ t name m, env.highestModseq t name = some m → ∃ s, s ≤ moment t ∧
    S.uidvalidity s ⟨accountId,name⟩ = S.uidvalidity (moment t) ⟨accountId,name⟩ ∧
    m = S.highest s ⟨accountId,name⟩
  since : ∀ t, toUtcIso8601 ((env.clock t).minusDays windowDays) = S.since (moment t)

variable (S : FlagHistory)

/-- Whenever the MODSEQ `m` is stored for a folder that still has its UIDVALIDITY, the messages of
the window that have not changed after `m` have the server's flags. -/
def Kept (now : Nat) (t : Tables) : Prop :=
  ∀ f ∈ t.folders, ∀ m ∈ f.highestModseq, f.uidvalidity = some (S.uidvalidity now f.mailbox) →
    ∀ row, t.ShowsFlags row → row.accountId = f.accountId → row.folderId = f.id →
      f.uidvalidity = some row.uidvalidity → S.since now ≤ row.internalDate →
      S.present now f.mailbox row.uid → S.changed now f.mailbox row.uid ≤ m →
      row.imapFlags = some (flagText (S.flags now f.mailbox row.uid))

/-- The flags of a row, if it is in the window of the moment `window`, stay the server's as long as
the message is not changed after `m`. -/
def Agrees (window now : Nat) (p : Mailbox) (m : Nat) (row : FlagRow) : Prop :=
  S.since window ≤ row.internalDate → ∀ later, now ≤ later →
    S.uidvalidity later p = row.uidvalidity → S.present later p row.uid →
    S.changed later p row.uid ≤ m → row.imapFlags = some (flagText (S.flags later p row.uid))

/-- The server had reached the MODSEQ under the UIDVALIDITY. -/
def Reached (now : Nat) (p : Mailbox) (v m : Nat) : Prop :=
  ∃ s ≤ now, S.uidvalidity s p = v ∧ m ≤ S.highest s p

/-- The stored MODSEQ of a folder was reached by the server, unless its UIDVALIDITY is over. -/
def Anchored (now : Nat) (f : Folder) : Prop :=
  ∀ m ∈ f.highestModseq, ∀ v ∈ f.uidvalidity, ∀ later, now ≤ later →
    S.uidvalidity later f.mailbox = v → S.Reached now f.mailbox v m

/-- Every stored MODSEQ is anchored, and every row agrees with it that is in the window of the
moment `window` gives for its folder. -/
structure Sound (window : Nat → Nat) (now : Nat) (t : Tables) : Prop where
  anchored : ∀ f ∈ t.folders, S.Anchored now f
  agrees : ∀ f ∈ t.folders, ∀ m ∈ f.highestModseq, ∀ row, t.ShowsFlags row →
    row.accountId = f.accountId → row.folderId = f.id → f.uidvalidity = some row.uidvalidity →
    S.Agrees (window f.id) now f.mailbox m row

variable {S} {window window' : Nat → Nat} {now now' : Nat} {p : Mailbox} {m : Nat} {row : FlagRow}

theorem Agrees.mono {v v' : Nat} (h : S.Agrees v now p m row) (hwindow : v ≤ v')
    (hle : now ≤ now') : S.Agrees v' now' p m row :=
  fun hsince later hlater => h (String.le_trans (S.since_le v v' hwindow) hsince) later
    (hle.trans hlater)

/-- A row that was in the window before agrees as it did. -/
theorem Agrees.of_date {v : Nat} {d high : String}
    (h : S.Agrees v now p m { row with internalDate := d }) (hhigh : S.since v ≤ high)
    (hd : row.internalDate ≤ d ∨ high ≤ d) : S.Agrees v now p m row :=
  fun hsince => h (hd.elim (String.le_trans hsince) (String.le_trans hhigh))

/-- Flags that were read at a moment when the server had already reached `m`. -/
theorem agrees_of_read {v r : Nat} (hr : r ≤ now)
    (hreached : ∀ later, now ≤ later → S.uidvalidity later p = row.uidvalidity →
      S.Reached r p row.uidvalidity m)
    (hflags : row.imapFlags = some (flagText (S.flags r p row.uid))) : S.Agrees v now p m row := by
  intro _ later hlater hsame hpresent hchanged
  obtain ⟨s,hsr,hs,hm⟩ := hreached later hlater hsame
  have hgeneration : S.uidvalidity r p = S.uidvalidity s p :=
    S.notReused p s r later hsr (hr.trans hlater) (hs.trans hsame.symm)
  have hmodseq : m ≤ S.highest r p := hm.trans (S.highest_le p s r hsr hgeneration.symm)
  have hstill := S.settled p row.uid r later (hr.trans hlater)
    ((hgeneration.trans hs).trans hsame.symm) hpresent (hchanged.trans hmodseq)
  rw [hflags,hstill.2.1]

/-- Flags that were read after the stored MODSEQ had been anchored. -/
theorem Anchored.agrees {v start r : Nat} {f : Folder} (h : S.Anchored start f)
    (hm : m ∈ f.highestModseq) (hv : f.uidvalidity = some row.uidvalidity) (hstart : start ≤ r)
    (hr : r ≤ now) (hflags : row.imapFlags = some (flagText (S.flags r f.mailbox row.uid))) :
    S.Agrees v now f.mailbox m row := by
  refine agrees_of_read hr (fun later hlater hsame => ?_) hflags
  obtain ⟨s,hs,hreached⟩ := h m hm _ hv later (hstart.trans (hr.trans hlater)) hsame
  exact ⟨s,hs.trans hstart,hreached⟩

/-- What is kept now is what `Sound` says about this moment. -/
theorem Sound.kept {t : Tables} (h : S.Sound window now t) (hwindow : ∀ id, window id ≤ now) :
    S.Kept now t := by
  intro f hf m hm hv row hrow haccount hfolder hrv hsince hpresent hchanged
  refine h.agrees f hf m hm row hrow haccount hfolder hrv ?_ now le_rfl ?_ hpresent hchanged
  · exact String.le_trans (S.since_le _ _ (hwindow f.id)) hsince
  · exact Option.some.inj (hv.symm.trans hrv)

theorem Anchored.later {f : Folder} (h : S.Anchored now f) (hle : now ≤ now') :
    S.Anchored now' f := by
  intro m hm v hv later hlater hsame
  obtain ⟨s,hs,hreached⟩ := h m hm v hv later (hle.trans hlater) hsame
  exact ⟨s,hs.trans hle,hreached⟩

theorem Sound.later {t : Tables} (h : S.Sound window now t) (hwindow : ∀ id, window id ≤ window' id)
    (hle : now ≤ now') : S.Sound window' now' t where
  anchored f hf := (h.anchored f hf).later hle
  agrees f hf m hm row hrow haccount hfolder hv :=
    (h.agrees f hf m hm row hrow haccount hfolder hv).mono (hwindow f.id) hle

/-- Without a stored MODSEQ there is nothing to keep. -/
theorem sound_of_none {t : Tables} (h : ∀ f ∈ t.folders, f.highestModseq = none) :
    S.Sound window now t where
  anchored f hf m hm := by
    rw [h f hf] at hm
    cases hm
  agrees f hf m hm := by
    rw [h f hf] at hm
    cases hm

section
variable {op : WriteOp} {repo repo' : Repository} {low high : String}

/-- A write that stores no MODSEQ keeps it, if the flags it brings agree. -/
theorem Sound.write (h : S.Sound window now repo.tables) (happly : op.apply repo = .ok repo')
    (hdates : repo.tables.KeepsWindow low high op)
    (hwindow : ∀ id, low ≤ S.since (window id) ∧ S.since (window id) ≤ high)
    (hset : ∀ id value, op ≠ .setHighestModseq id (some value))
    (hbrought : ∀ f ∈ repo.tables.folders, ∀ m ∈ f.highestModseq, ∀ row,
      repo'.tables.ShowsFlags row → op.BringsFlags row → row.accountId = f.accountId →
      row.folderId = f.id → f.uidvalidity = some row.uidvalidity →
      S.Agrees (window f.id) now f.mailbox m row) :
    S.Sound window now repo'.tables where
  anchored f' hf' := by
    obtain ⟨f,hf,hid,hmailbox,hcase⟩ := WriteOp.apply_numbering happly hf'
    intro m hm v hv
    rcases hcase with ⟨hfv,hfm⟩ | ⟨value,rfl,-,hfm⟩ | ⟨w,maxUid,rfl,-,hfm⟩
    · rw [hmailbox]
      exact h.anchored f hf m (hfm ▸ hm) v (hfv ▸ hv)
    · rw [hfm] at hm
      exact absurd (congrArg _ hm) (hset f.id m)
    · rw [hfm] at hm
      cases hm
  agrees f' hf' m hm row hrow haccount hfolder hrv := by
    obtain ⟨f,hf,hid,hmailbox,hcase⟩ := WriteOp.apply_numbering happly hf'
    have haccount : row.accountId = f.accountId :=
      haccount.trans (congrArg Mailbox.accountId hmailbox)
    rw [hmailbox,hid]
    rcases hcase with ⟨hfv,hfm⟩ | ⟨value,rfl,-,hfm⟩ | ⟨w,maxUid,rfl,-,hfm⟩
    · refine fun hsince => ?_
      obtain ⟨hlow,hhigh⟩ := hwindow f.id
      rcases WriteOp.apply_shows happly hdates (String.le_trans hlow hsince) hrow with
        ⟨d,hd,hold⟩ | hnew
      · exact (h.agrees f hf m (hfm ▸ hm) _ hold haccount (hfolder.trans hid)
          (hfv ▸ hrv)).of_date hhigh hd hsince
      · exact hbrought f hf m (hfm ▸ hm) row hrow hnew haccount (hfolder.trans hid) (hfv ▸ hrv)
          hsince
    · rw [hfm] at hm
      exact absurd (congrArg _ hm) (hset f.id m)
    · rw [hfm] at hm
      cases hm

/-- Storing a MODSEQ keeps it, if the server has reached it and the rows of the folder agree. -/
theorem Sound.store {id value : Nat} (h : S.Sound window now repo.tables)
    (happly : (WriteOp.setHighestModseq id (some value)).apply repo = .ok repo')
    (hwindow : ∀ i, window i ≤ window' i)
    (hreached : ∀ f ∈ repo.tables.folders, f.id = id → ∀ v ∈ f.uidvalidity, ∀ later, now ≤ later →
      S.uidvalidity later f.mailbox = v → S.Reached now f.mailbox v value)
    (hagrees : ∀ f ∈ repo.tables.folders, f.id = id → ∀ row, repo.tables.ShowsFlags row →
      row.accountId = f.accountId → row.folderId = f.id → f.uidvalidity = some row.uidvalidity →
      S.Agrees (window' id) now f.mailbox value row) : S.Sound window' now repo'.tables where
  anchored f' hf' := by
    obtain ⟨f,hf,hid,hmailbox,hcase⟩ := WriteOp.apply_numbering happly hf'
    intro m hm v hv
    rw [hmailbox]
    rcases hcase with ⟨hfv,hfm⟩ | ⟨value',heq,hfv,hfm⟩ | ⟨w,maxUid,heq,-⟩
    · exact h.anchored f hf m (hfm ▸ hm) v (hfv ▸ hv)
    · cases heq
      rw [hfm] at hm
      cases hm
      exact hreached f hf rfl v (hfv ▸ hv)
    · cases heq
  agrees f' hf' m hm row hrow haccount hfolder hrv := by
    obtain ⟨f,hf,hid,hmailbox,hcase⟩ := WriteOp.apply_numbering happly hf'
    have haccount : row.accountId = f.accountId :=
      haccount.trans (congrArg Mailbox.accountId hmailbox)
    have hold : repo.tables.ShowsFlags row :=
      (WriteOp.keepsRows_shows rfl happly hrow).resolve_right fun hnone => hnone
    rw [hmailbox,hid]
    rcases hcase with ⟨hfv,hfm⟩ | ⟨value',heq,hfv,hfm⟩ | ⟨w,maxUid,heq,-⟩
    · exact (h.agrees f hf m (hfm ▸ hm) _ hold haccount (hfolder.trans hid)
        (hfv ▸ hrv)).mono (hwindow f.id) le_rfl
    · cases heq
      rw [hfm] at hm
      cases hm
      exact hagrees f hf rfl _ hold haccount (hfolder.trans hid) (hfv ▸ hrv)
    · cases heq

end

end FlagHistory

end MailDock
