import MailDock.App.Rules

/-!
# What a program can do

A footprint lists the effects a program is allowed: notes in the log, manifest
events, database writes.  An invariant that is closed under the steps of a
footprint survives every program that stays within it, whatever the program
returns or raises; so the parts of a use case that an invariant does not care
about are walked through once.

## Main definitions

- `Footprint`, `Closed` — the allowed steps, and the invariants they keep
- `Within` — a program that keeps every invariant closed under a footprint
-/

namespace MailDock

open Hoare

structure Footprint where
  note : Effect → Prop := fun _ => False
  event : ManifestEvent → Prop := fun _ => False
  op : WriteOp → Prop := fun _ => False

/-- Two sessions that differ in the counters of the result only. -/
def SyncSession.SameScan (s s' : SyncSession) : Prop :=
  s'.selected = s.selected ∧ s'.pending = s.pending ∧ s'.attempted = s.attempted ∧
    s'.knownMessages = s.knownMessages ∧ s'.checkpointSequence = s.checkpointSequence

/-- An answer of the server is logged right after the tick it was given at. -/
def Effect.isPast (tick : Nat) : Effect → Prop
  | .answer t _ => t + 1 = tick
  | _ => True

structure Closed (F : Footprint) (I : World → Prop) : Prop where
  ticked : ∀ w, I w → I w.ticked
  logged : ∀ w e, F.note e → e.isPast w.tick → I w → I (w.logged e)
  saved : ∀ w relativePath raw, F.note (.save relativePath raw) → I w →
    I (w.saved relativePath raw)
  appended : ∀ w e last, F.event e → I w → I (w.appended e last)
  began : ∀ w, w.inBatch = false → I w → I { w with inBatch := true }
  written : ∀ w op db, F.op op → op.apply w.db = .ok db → I w → I (w.written op db)
  committed : ∀ w, I w → I w.batchCommitted
  counted : ∀ w s, w.session.SameScan s → I w → I { w with session := s }

/-- One footprint allows less than another. -/
structure Footprint.Le (F G : Footprint) : Prop where
  note : ∀ e, F.note e → G.note e
  event : ∀ e, F.event e → G.event e
  op : ∀ o, F.op o → G.op o

theorem Closed.mono {F G : Footprint} {I : World → Prop} (hI : Closed G I) (h : F.Le G) :
    Closed F I where
  ticked := hI.ticked
  logged w e he hp := hI.logged w e (h.note e he) hp
  saved w p raw he := hI.saved w p raw (h.note _ he)
  appended w e last he := hI.appended w e last (h.event e he)
  began := hI.began
  written w op db hop := hI.written w op db (h.op op hop)
  committed := hI.committed
  counted := hI.counted

/-- The program keeps every invariant that the steps of the footprint keep. -/
def Within {α : Type} (F : Footprint) (p : App α) : Prop :=
  ∀ I, Closed F I → Triple I p (fun _ => I) (fun _ => I)

/-- The same for a program whose result is known to satisfy `φ`. -/
def Yields {α : Type} (F : Footprint) (p : App α) (φ : α → Prop) : Prop :=
  ∀ I, Closed F I → Triple I p (fun a w => I w ∧ φ a) (fun _ => I)

theorem Closed.and {F : Footprint} {I J : World → Prop} (hI : Closed F I) (hJ : Closed F J) :
    Closed F fun w => I w ∧ J w where
  ticked w h := ⟨hI.ticked w h.1,hJ.ticked w h.2⟩
  logged w e he hp h := ⟨hI.logged w e he hp h.1,hJ.logged w e he hp h.2⟩
  saved w p raw he h := ⟨hI.saved w p raw he h.1,hJ.saved w p raw he h.2⟩
  appended w e last he h := ⟨hI.appended w e last he h.1,hJ.appended w e last he h.2⟩
  began w hb h := ⟨hI.began w hb h.1,hJ.began w hb h.2⟩
  written w op db hop ha h := ⟨hI.written w op db hop ha h.1,hJ.written w op db hop ha h.2⟩
  committed w h := ⟨hI.committed w h.1,hJ.committed w h.2⟩
  counted w s hs h := ⟨hI.counted w s hs h.1,hJ.counted w s hs h.2⟩

theorem Closed.congr {F : Footprint} {I J : World → Prop} (hI : Closed F I)
    (h : ∀ w, I w ↔ J w) : Closed F J := by
  have hIJ : I = J := funext fun w => propext (h w)
  rwa [← hIJ]

/-- A fact about the log and the pending items that later effects cannot take back is
always kept. -/
theorem Closed.ofPending {F : Footprint} {φ : List PendingItem → List Effect → Prop}
    (h : ∀ pending log e, φ pending log → φ pending (e :: log)) :
    Closed F fun w => φ w.session.pending w.log where
  ticked _ hw := hw
  logged _ e _ _ hw := h _ _ e hw
  saved _ _ _ _ hw := h _ _ _ hw
  appended _ _ _ _ hw := h _ _ _ hw
  began _ _ hw := hw
  written w op db _ _ hw := by
    unfold World.written
    split
    · exact h _ _ _ hw
    · exact h _ _ _ (h _ _ _ hw)
  committed _ hw := h _ _ _ hw
  counted w s hs hw := by
    show φ s.pending w.log
    rw [hs.2.1]
    exact hw

theorem Closed.ofLog {F : Footprint} {φ : List Effect → Prop}
    (h : ∀ log e, φ log → φ (e :: log)) : Closed F fun w => φ w.log :=
  Closed.ofPending (φ := fun _ log => φ log) fun _ log e hw => h log e hw

/-- A fact about the database is kept by a program whose writes keep it. -/
theorem Closed.ofWrites {F : Footprint} {φ : Repository → Prop}
    (hF : ∀ op repo repo', F.op op → op.apply repo = .ok repo' → φ repo → φ repo') :
    Closed F fun w => φ w.db where
  ticked _ hw := hw
  logged _ _ _ _ hw := hw
  saved _ _ _ _ hw := hw
  appended _ _ _ _ hw := hw
  began _ _ hw := hw
  written w op db hop happly hw := by
    rw [World.written_db]
    exact hF op w.db db hop happly hw
  committed _ hw := hw
  counted _ _ _ hw := hw

/-- A program without writes leaves the database alone. -/
theorem Closed.ofDb {F : Footprint} (hF : ∀ op, ¬ F.op op) {φ : Repository → Prop} :
    Closed F fun w => φ w.db :=
  Closed.ofWrites fun op _ _ hop _ _ => (hF op hop).elim

/-- No step of a footprint changes what the scan keeps in the session. -/
theorem Closed.ofScan {F : Footprint} {φ : SyncSession → Prop}
    (h : ∀ s s', s.SameScan s' → φ s → φ s') : Closed F fun w => φ w.session where
  ticked _ hw := hw
  logged _ _ _ _ hw := hw
  saved _ _ _ _ hw := hw
  appended _ _ _ _ hw := hw
  began _ _ hw := hw
  written w op db _ _ hw := by
    unfold World.written
    split <;> exact hw
  committed _ hw := hw
  counted w s hs hw := h _ _ hs hw

namespace Yields

variable {α β : Type} {F : Footprint} {φ : α → Prop} {ψ : β → Prop}

theorem ret {a : α} (h : φ a) : Yields F (pure a : App α) φ :=
  fun _ _ => Triple.ret fun _ hw => ⟨hw,h⟩

theorem seq {p : App α} {f : α → App β} (hp : Yields F p φ) (hf : ∀ a, φ a → Yields F (f a) ψ) :
    Yields F (p >>= f) ψ :=
  fun I hI => (hp I hI).seq fun a => Triple.assume fun ha => hf a ha I hI

theorem ofExcept {x : Except Error α} (h : ∀ a, x = .ok a → φ a) :
    Yields F (Prog.ofExcept x) φ :=
  fun _ _ => Triple.ofExcept (fun a ha _ hw => ⟨hw,h a ha⟩) fun _ _ _ hw => hw

theorem within {p : App α} (h : Yields F p φ) : Within F p :=
  fun I hI => (h I hI).strengthen_post fun _ _ hw => hw.1

end Yields

namespace Within

variable {α β : Type} {F : Footprint} {env : Env}

theorem mono {G : Footprint} {p : App α} (hp : Within F p) (h : F.Le G) : Within G p :=
  fun I hI => hp I (hI.mono h)

theorem yields {p : App α} {f : α → App β} {ψ : β → Prop} (hp : Within F p)
    (hf : ∀ a, Yields F (f a) ψ) : Yields F (p >>= f) ψ :=
  fun I hI => (hp I hI).seq fun a => hf a I hI

theorem seq_of {p : App α} {f : α → App β} {φ : α → Prop} (hp : Yields F p φ)
    (hf : ∀ a, φ a → Within F (f a)) : Within F (p >>= f) :=
  fun I hI => (hp I hI).seq fun a => Triple.assume fun ha => hf a ha I hI

theorem ret (a : α) : Within F (pure a : App α) := fun _ _ => Triple.ret fun _ h => h

theorem raise (e : Error) : Within F (throw e : App α) := fun _ _ => Triple.raise fun _ h => h

theorem seq {p : App α} {f : α → App β} (hp : Within F p) (hf : ∀ a, Within F (f a)) :
    Within F (p >>= f) :=
  fun I hI => (hp I hI).seq fun a => hf a I hI

theorem handle {p : App α} {handler : Error → App α} (hp : Within F p)
    (hh : ∀ e, Within F (handler e)) : Within F (tryCatch p handler) :=
  fun I hI => (hp I hI).handle fun e => hh e I hI

theorem loop {f : α → App PUnit} (xs : List α) (h : ∀ x ∈ xs, Within F (f x)) :
    Within F (xs.forM f) :=
  fun I hI => Triple.loop xs fun x hx => h x hx I hI

theorem accumulate {f : β → α → App β} (xs : List α) (h : ∀ b, ∀ x ∈ xs, Within F (f b x))
    (b : β) : Within F (xs.foldlM f b) :=
  fun I hI => Triple.accumulate (I := fun _ => I) xs (fun b x hx => h b x hx I hI) b

/-- A branch that only decides whether a step is taken. -/
theorem optional {p : Prop} [Decidable p] {step : App PUnit} (h : Within F step) :
    Within F (if p then pure ⟨⟩ else step) := by
  split
  · exact ret _
  · exact h

theorem read : Within F (get : App World) := fun _ _ => Triple.read fun _ h => h

theorem nextTick : Within F nextTick := fun _ hI => nextTick_rule fun w h => hI.ticked w h

theorem answer {I : World → Prop} (hI : Closed F I) {t : Nat} {a : ServerAnswer}
    {E : Error → World → Prop} (ha : F.note (.answer t a)) :
    Triple (fun w => I w ∧ t + 1 = w.tick) (emit (.answer t a))
      (fun _ w => I w ∧ t + 1 = w.tick) E :=
  emit_rule fun w h => ⟨hI.logged w _ ha h.2 h.1,h.2⟩

theorem raiseFault (fault : Option Error) : Within F (raiseFault fault) :=
  fun _ _ => raiseFault_rule (fun _ h => h) fun _ _ _ h => h

theorem nowIso : Within F (nowIso env) := fun _ hI => nowIso_rule fun w _ h => hI.ticked w h

theorem timestamp : Within F (timestamp env) :=
  fun _ hI => timestamp_rule fun w _ h => hI.ticked w h

theorem raiseIfCancelled : Within F (raiseIfCancelled env) :=
  fun _ hI => raiseIfCancelled_rule (fun w h => hI.ticked w h) fun w _ h _ => hI.ticked w h

theorem repoCall : Within F (repoCall env) :=
  fun _ hI => repoCall_rule (fun w h => hI.ticked w h) fun w _ h _ => hI.ticked w h

theorem queryRepo {query : Tables → α} : Within F (queryRepo env query) :=
  fun _ hI => queryRepo_rule (fun w h => hI.ticked w h) fun w _ h _ => hI.ticked w h

theorem ofExcept (x : Except Error α) : Within F (Prog.ofExcept x) :=
  fun _ _ => Triple.ofExcept (fun _ _ _ h => h) fun _ _ _ h => h

theorem writeRepo {op : WriteOp} (hop : F.op op) : Within F (writeRepo env op) :=
  fun _ hI => writeRepo_rule (fun w db h happly => hI.written w.ticked op db hop happly
    (hI.ticked w h)) fun w _ h _ => hI.ticked w h

theorem addMessage {record : MessageRecord} {contents : Option MessageContents}
    (hop : F.op (.addMessage record contents)) : Within F (addMessage env record contents) := by
  refine fun I hI => addMessage_rule (fun w id db h hadd => ?_) fun w _ h _ => hI.ticked w h
  refine hI.written w.ticked _ db hop ?_ (hI.ticked w h)
  show (w.db.addMessage record contents).map Prod.snd = .ok db
  rw [hadd]
  rfl

theorem beginBatch : Within F (beginBatch env) :=
  fun _ hI => beginBatch_rule (fun w h hbatch => hI.began w.ticked hbatch (hI.ticked w h))
    fun w _ h _ => hI.ticked w h

theorem commitBatch : Within F (commitBatch env) :=
  fun _ hI => commitBatch_rule (fun w h => hI.committed w.ticked (hI.ticked w h))
    fun w _ h _ => hI.ticked w h

theorem appendManifest {e : ManifestEvent} (he : F.event e) : Within F (appendManifest env e) :=
  fun _ hI => appendManifest_rule (fun w last h _ => hI.appended w.ticked e last he
    (hI.ticked w h)) fun w _ h _ => hI.ticked w h

theorem flushAndSync (hflush : F.note .flush) : Within F (flushAndSync env) :=
  fun _ hI => flushAndSync_rule (fun w h => hI.logged w.ticked .flush hflush trivial (hI.ticked w h))
    fun w _ h _ => hI.ticked w h

theorem imapCommand_past {I : World → Prop} (hI : Closed F I) {c : ImapCommand}
    (hc : F.note (.command c)) :
    Triple I (imapCommand env c) (fun t w => I w ∧ t + 1 = w.tick) (fun _ => I) :=
  imapCommand_rule
    (fun w h => ⟨hI.logged w.ticked _ hc trivial (hI.ticked w h),rfl⟩)
    fun w _ h => hI.logged w.ticked _ hc trivial (hI.ticked w h)

theorem imapCommand {c : ImapCommand} (hc : F.note (.command c)) : Within F (imapCommand env c) :=
  fun _ hI => (imapCommand_past hI hc).strengthen_post fun _ _ h => h.1

theorem outcome {call : App α} (h : Within F call) : Within F (outcome call) :=
  fun I hI => outcome_rule (R := fun _ => I) (h I hI)

theorem selectFolder {folderRawName : String} (hc : F.note (.command (.select folderRawName))) :
    Within F (selectFolder env folderRawName) :=
  (imapCommand hc).seq fun _ => ret _

theorem getMaxUid {folderRawName : String} (hc : F.note (.command (.select folderRawName))) :
    Within F (getMaxUid env folderRawName) :=
  (imapCommand hc).seq fun _ => ret _

theorem withRetry {call : App α} (h : Within F call) (attempts : Nat) :
    Within F (withRetry env call attempts) := by
  induction attempts with
  | zero => exact raiseIfCancelled.seq fun _ => h
  | succ n ih =>
    refine raiseIfCancelled.seq fun _ => h.handle fun e => ?_
    split
    · exact raiseIfCancelled.seq fun _ => ih
    · exact raise e

end Within

end MailDock
