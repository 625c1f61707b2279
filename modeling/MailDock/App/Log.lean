import MailDock.App.World

/-!
# Reading the log

The log is newest first, and a crash leaves a suffix of it.  What a crash keeps
are the flushed events and the committed writes; both only grow.

## Main definitions

- `writtenOps`, `committedOps` — the writes made, and those that were committed
- `EmlAt` — the file of a message was written or found intact
-/

namespace MailDock

/-- The writes made up to a point of the log, newest first. -/
def writtenOps : List Effect → List WriteOp
  | [] => []
  | .write op :: before => op :: writtenOps before
  | _ :: before => writtenOps before

/-- The writes that survive a crash: those before the last commit. -/
def committedOps : List Effect → List WriteOp
  | [] => []
  | .commit _ :: before => writtenOps before
  | _ :: before => committedOps before

/-- The EML with this hash was stored at the path, or was found there. -/
def EmlAt (env : Env) (log : List Effect) (relativePath fileHash : String) : Prop :=
  (∃ raw, .save relativePath raw ∈ log ∧ env.sha256 raw = fileHash) ∨
    ∃ h, .verified relativePath h ∈ log ∧ (fileHash = h ∨ fileHash = casefoldHex h)

theorem EmlAt.suffix {env : Env} {log log' : List Effect} {relativePath fileHash : String}
    (h : EmlAt env log' relativePath fileHash) (hs : log' <:+ log) :
    EmlAt env log relativePath fileHash := by
  rcases h with ⟨raw,hraw,hhash⟩ | ⟨hash,hverified,hhash⟩
  · exact .inl ⟨raw,hs.subset hraw,hhash⟩
  · exact .inr ⟨hash,hs.subset hverified,hhash⟩

theorem EmlAt.cons {env : Env} {log : List Effect} {relativePath fileHash : String}
    (h : EmlAt env log relativePath fileHash) (e : Effect) :
    EmlAt env (e :: log) relativePath fileHash :=
  h.suffix (List.suffix_cons e log)

theorem mem_appendedEvents_of_flushed {event : ManifestEvent} {log : List Effect}
    (h : event ∈ flushedEvents log) : event ∈ appendedEvents log := by
  induction log with
  | nil => exact h
  | cons e before ih => cases e <;> simp_all [flushedEvents,appendedEvents]

/-- What is flushed stays flushed. -/
theorem mem_flushedEvents_cons {event : ManifestEvent} {log : List Effect} (e : Effect)
    (h : event ∈ flushedEvents log) : event ∈ flushedEvents (e :: log) := by
  cases e with
  | flush => exact mem_appendedEvents_of_flushed h
  | _ => exact h

theorem mem_flushedEvents_suffix {event : ManifestEvent} {log log' : List Effect}
    (hs : log' <:+ log) (h : event ∈ flushedEvents log') : event ∈ flushedEvents log := by
  induction log with
  | nil => rwa [List.suffix_nil.mp hs] at h
  | cons e before ih =>
    rcases List.suffix_cons_iff.mp hs with rfl | hs
    · exact h
    · exact mem_flushedEvents_cons e (ih hs)

theorem mem_writtenOps {op : WriteOp} {log : List Effect} :
    op ∈ writtenOps log ↔ .write op ∈ log := by
  induction log with
  | nil => simp [writtenOps]
  | cons e before ih => cases e <;> simp [writtenOps,ih]

theorem mem_writtenOps_of_committed {op : WriteOp} {log : List Effect}
    (h : op ∈ committedOps log) : op ∈ writtenOps log := by
  induction log with
  | nil => exact h
  | cons e before ih => cases e <;> simp_all [committedOps,writtenOps]

/-- What is committed stays committed. -/
theorem mem_committedOps_cons {op : WriteOp} {log : List Effect} (e : Effect)
    (h : op ∈ committedOps log) : op ∈ committedOps (e :: log) := by
  cases e with
  | commit db => exact mem_writtenOps_of_committed h
  | _ => exact h

end MailDock
