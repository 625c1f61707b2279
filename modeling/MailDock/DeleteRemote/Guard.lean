import MailDock.App.Log
import MailDock.App.Rules
import MailDock.DeleteRemote.Program
import MailDock.Repository.Status

/-!
# When a remote deletion may act

What must have happened before a destructive command is sent and before a
deletion is committed, read off the log of effects, and the invariant between two
candidates of a plan.

## Main definitions

- `Authorised` — a destructive command for a planned candidate may be sent
- `Accounted` — every marked membership has a completion event
- `Guard` — the two as a condition on each effect of a run
-/

namespace MailDock

open Trace

/-- The folder and UID a command removes something from. -/
def ImapCommand.target : ImapCommand → Option (String × Nat)
  | .move f u | .copy f u | .storeDeleted f u | .expunge f u | .removeLabel f u => some (f,u)
  | .select _ | .list => none

/-- The UIDVALIDITY comparison that still stands: no SELECT has come after it. -/
def checkedSelection : List Effect → Option (String × Nat)
  | [] => none
  | .uidvalidityMatched f v :: _ => some (f,v)
  | .command (.select _) :: _ => none
  | _ :: before => checkedSelection before

/-- The flags the server reported last for a UID of a folder. -/
def reportedFlags (folderRawName : String) (uid : Nat) : List Effect → Option (List String)
  | [] => none
  | .answer _ (.flags f u flags) :: before =>
    if f = folderRawName ∧ u = uid then some flags else reportedFlags folderRawName uid before
  | _ :: before => reportedFlags folderRawName uid before

/-- The server reported the flags and `\Flagged` is not among them. -/
def ReportedUnflagged (folderRawName : String) (uid : Nat) (log : List Effect) : Prop :=
  ∃ flags, reportedFlags folderRawName uid log = some flags ∧
    hasImapFlag (" ".intercalate flags) "\\Flagged" = false

/-- No flag report and no comparison of a UIDVALIDITY. -/
def Effect.isPlain : Effect → Bool
  | .answer _ (.flags _ _ _) | .uidvalidityMatched _ _ => false
  | _ => true

theorem reportedFlags_cons {e : Effect} (he : e.isPlain = true) (f : String) (u : Nat)
    (log : List Effect) : reportedFlags f u (e :: log) = reportedFlags f u log := by
  cases e with
  | answer t a =>
    cases a with
    | flags => cases he
    | _ => rfl
  | _ => rfl

theorem ReportedUnflagged.cons {e : Effect} (he : e.isPlain = true ∨ ∃ f v, e = .uidvalidityMatched f v)
    {f : String} {u : Nat} {log : List Effect} (h : ReportedUnflagged f u log) :
    ReportedUnflagged f u (e :: log) := by
  obtain ⟨flags,hflags,hnot⟩ := h
  refine ⟨flags,?_,hnot⟩
  rcases he with he | ⟨f',v,rfl⟩
  · rw [reportedFlags_cons he,hflags]
  · exact hflags

/-- What stands in the log for a candidate from its intent on. -/
structure Prepared (start : Tables) (options : DeleteOptions) (planned : DeleteCandidate)
    (log : List Effect) : Prop where
  intent : ∃ m ∈ start.messages, m.id = planned.messageId ∧ ∃ timestamp,
    ManifestEvent.remoteDelete ⟨.intent,m.accountId,planned.folderRawName,planned.uid,
      planned.uidvalidity,options.mode,timestamp⟩ ∈ flushedEvents log
  eml : Effect.verified planned.relativePath planned.fileHash ∈ log
  unflagged : options.excludeFlagged = true →
    ReportedUnflagged planned.folderRawName planned.uid log

theorem Prepared.cons {start : Tables} {options : DeleteOptions} {planned : DeleteCandidate}
    {log : List Effect} (h : Prepared start options planned log) {e : Effect}
    (he : e.isPlain = true ∨ ∃ f v, e = .uidvalidityMatched f v) :
    Prepared start options planned (e :: log) where
  intent := by
    obtain ⟨m,hm,hid,timestamp,hintent⟩ := h.intent
    exact ⟨m,hm,hid,timestamp,mem_flushedEvents_cons e hintent⟩
  eml := List.mem_cons_of_mem e h.eml
  unflagged hflag := (h.unflagged hflag).cons he

/-- A destructive command for the candidate may be sent.  The UIDVALIDITY was
compared on the selection it acts on exactly when flagged messages are excluded. -/
structure Authorised (start : Tables) (options : DeleteOptions) (planned : DeleteCandidate)
    (log : List Effect) : Prop extends Prepared start options planned log where
  selection : checkedSelection log = some (planned.folderRawName,planned.uidvalidity) ↔
    options.excludeFlagged = true

/-- A completion event for the server UID is durable. -/
def Completed (t : Tables) (k : ServerUid) (events : List ManifestEvent) : Prop :=
  ∃ accountId name mode timestamp, t.OwnerAccount k accountId ∧
    t.folderRawName k.1 = some name ∧
    ManifestEvent.remoteDelete ⟨.completed,accountId,name,k.2.2,k.2.1,mode,timestamp⟩ ∈ events

/-- From `t` to `t'` only completed deletions took a membership out of its state;
a new membership is present. -/
def Accounted (t t' : Tables) (events : List ManifestEvent) : Prop :=
  ∀ k, t'.status k = t.status k ∨ (∃ movedTo, t'.status k = some (.present,movedTo)) ∨
    Completed t' k events

/-- The condition each effect of a run meets at its time. -/
def Guard (start : Tables) (options : DeleteOptions) (items : List DeleteCandidate)
    (before : List Effect) : Effect → Prop
  | .command c => ∀ folder uid, c.target = some (folder,uid) → ∃ planned ∈ items,
      planned.folderRawName = folder ∧ planned.uid = uid ∧
      Authorised start options planned before
  | .commit db => Accounted start db.tables (flushedEvents before)
  | _ => True

/-- What an operation of the delete use case keeps of the database. -/
structure DatabaseKept (t t' : Tables) : Prop where
  folders : t'.folders = t.folders
  accounts : ∀ m' ∈ t'.messages, ∃ m ∈ t.messages, m.id = m'.id ∧ m.accountId = m'.accountId
  owners : ∀ k a, t.OwnerAccount k a → t'.OwnerAccount k a

theorem DatabaseKept.refl (t : Tables) : DatabaseKept t t :=
  ⟨rfl,fun m hm => ⟨m,hm,rfl,rfl⟩,fun _ _ h => h⟩

theorem DatabaseKept.trans {t t' t'' : Tables} (h : DatabaseKept t t') (h' : DatabaseKept t' t'') :
    DatabaseKept t t'' where
  folders := h'.folders.trans h.folders
  accounts m'' hm'' := by
    obtain ⟨m',hm',hid',haccount'⟩ := h'.accounts m'' hm''
    obtain ⟨m,hm,hid,haccount⟩ := h.accounts m' hm'
    exact ⟨m,hm,hid.trans hid',haccount.trans haccount'⟩
  owners k a howner := h'.owners k a (h.owners k a howner)

theorem Completed.kept {t t' : Tables} {k : ServerUid} {events events' : List ManifestEvent}
    (h : Completed t k events) (ht : DatabaseKept t t') (he : ∀ e ∈ events, e ∈ events') :
    Completed t' k events' := by
  obtain ⟨accountId,name,mode,timestamp,howner,hname,hmem⟩ := h
  refine ⟨accountId,name,mode,timestamp,ht.owners k accountId howner,?_,he _ hmem⟩
  rw [Tables.folderRawName,ht.folders]
  exact hname

/-- One step of the database after another: what the second one changes is accounted for. -/
theorem Accounted.trans {t t' t'' : Tables} {events events' : List ManifestEvent}
    (h : Accounted t t' events) (h' : Accounted t' t'' events') (ht : DatabaseKept t' t'')
    (he : ∀ e ∈ events, e ∈ events') : Accounted t t'' events' := by
  intro k
  rcases h' k with hsame | hpresent | hdone
  · rcases h k with h | ⟨movedTo,h⟩ | h
    · exact .inl (hsame.trans h)
    · exact .inr (.inl ⟨movedTo,hsame.trans h⟩)
    · exact .inr (.inr (h.kept ht he))
  · exact .inr (.inl hpresent)
  · exact .inr (.inr hdone)

/-- The invariant between two candidates, on the parts of the world it is about. -/
structure DeleteInv (start : Tables) (options : DeleteOptions) (items remaining : List DeleteCandidate)
    (db : Repository) (inBatch : Bool) (log : List Effect) : Prop where
  guarded : Always (Guard start options items) log
  closed : inBatch = false
  kept : DatabaseKept start db.tables
  accounted : Accounted start db.tables (flushedEvents log)
  unmatched : options.excludeFlagged = false → ∀ f v, Effect.uidvalidityMatched f v ∉ log
  unflagged : options.excludeFlagged = true → ∀ c ∈ remaining,
    ReportedUnflagged c.folderRawName c.uid log

theorem checkedSelection_of_unmatched {log : List Effect}
    (h : ∀ f v, Effect.uidvalidityMatched f v ∉ log) : checkedSelection log = none := by
  induction log with
  | nil => rfl
  | cons e before ih =>
    have hbefore := ih fun f v hmem => h f v (List.mem_cons_of_mem e hmem)
    cases e with
    | uidvalidityMatched f v => exact absurd List.mem_cons_self (h f v)
    | command c => cases c <;> first | rfl | exact hbefore
    | _ => exact hbefore

namespace DeleteInv

variable {start : Tables} {options : DeleteOptions} {items remaining : List DeleteCandidate}
  {db : Repository} {inBatch : Bool} {log : List Effect}

/-- An effect that is neither a report nor a comparison and meets its guard. -/
theorem cons (h : DeleteInv start options items remaining db inBatch log) {e : Effect}
    (he : e.isPlain = true) (hguard : Guard start options items log e) :
    DeleteInv start options items remaining db inBatch (e :: log) where
  guarded := ⟨hguard,h.guarded⟩
  closed := h.closed
  kept := h.kept
  accounted := h.accounted.trans (fun _ => .inl rfl) (.refl _) fun _ => mem_flushedEvents_cons e
  unmatched hflag f v hmem := by
    rcases List.mem_cons.mp hmem with rfl | hmem
    · cases he
    · exact h.unmatched hflag f v hmem
  unflagged hflag c hc := (h.unflagged hflag c hc).cons (.inl he)

theorem matched (h : DeleteInv start options items remaining db inBatch log)
    (hflag : options.excludeFlagged = true) (f : String) (v : Nat) :
    DeleteInv start options items remaining db inBatch (.uidvalidityMatched f v :: log) where
  guarded := ⟨trivial,h.guarded⟩
  closed := h.closed
  kept := h.kept
  accounted := h.accounted.trans (fun _ => .inl rfl) (.refl _) fun _ => mem_flushedEvents_cons _
  unmatched hoff := by rw [hflag] at hoff; cases hoff
  unflagged hflag c hc := (h.unflagged hflag c hc).cons (.inr ⟨f,v,rfl⟩)

end DeleteInv

end MailDock
