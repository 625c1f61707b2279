import MailDock.App.Footprint
import MailDock.Storage.Verify

/-!
# Quarantined files

The checks touch files only by moving them to `tmp/quarantine`, and a save writes below `eml`; so
what lies in quarantine stays there until a session starts, when `cleanup_tmp` removes it with
the other files of `tmp`.

## Main definitions

- `Sheltered` — the invariants the checks keep
- `StorageOp`, `runOps` — sequences of storage operations
-/

namespace MailDock

open Hoare

section
variable {files : List (String × Bytes)}

/-- Looking up a path among the files whose paths are kept. -/
theorem lookup_filter_path (keep : String → Bool) (p : String) :
    (files.filter fun f => keep f.1).lookup p = if keep p then files.lookup p else none := by
  induction files with
  | nil => simp
  | cons f files ih =>
    obtain ⟨q,raw⟩ := f
    by_cases hpq : p = q
    · subst hpq
      by_cases hp : keep p = true
      · simp [hp]
      · simp [hp,ih]
    · have hne : (p == q) = false := beq_eq_false_iff_ne.mpr hpq
      by_cases hq : keep q = true
      · simp [hq,List.lookup_cons,hne,ih]
      · simp [hq,List.lookup_cons,hne,ih]

end

namespace World

theorem lookup_movedFile (w : World) (source destination : String) (raw : Bytes) (p : String) :
    (w.movedFile source destination raw).files.lookup p =
      if p = destination then some raw
      else if p = source then none else w.files.lookup p := by
  rw [movedFile,List.lookup_cons]
  by_cases hdest : p = destination
  · simp [hdest]
  · rw [beq_eq_false_iff_ne.mpr hdest,if_neg hdest]
    show (w.files.filter fun f => f.1 != source && f.1 != destination).lookup p = _
    rw [lookup_filter_path fun q => q != source && q != destination]
    by_cases hsource : p = source
    · simp [hsource]
    · simp [hsource,hdest]

theorem lookup_removedFile (w : World) (q p : String) :
    (w.removedFile q).files.lookup p = if p = q then none else w.files.lookup p := by
  rw [removedFile,lookup_filter_path fun r => r != q]
  by_cases h : p = q
  · simp [h]
  · simp [h]

end World

/-- The effects of a check besides the files it moves. -/
def checkFootprint : Footprint where
  op _ := True

/-- An invariant that survives the moves of the checks and everything else they do. -/
structure Sheltered (env : Env) (I : World → Prop) : Prop where
  closed : Closed checkFootprint I
  moved : ∀ w p raw, I w → w.files.lookup p = some raw →
    I (w.ticked.movedFile p (quarantinePath p (env.uuid w.tick)) raw)

section
variable {env : Env} {P : World → Prop} {E : Error → World → Prop}

theorem storageCall_rule {Q : Nat → World → Prop} (hQ : ∀ w, P w → Q w.tick w.ticked)
    (hE : ∀ w e, P w → e.isLocal = true → E e w.ticked) : Triple P (storageCall env) Q E := by
  refine (nextTick_rule (Q := fun t w' => ∃ w, P w ∧ t = w.tick ∧ w' = w.ticked)
    fun w hw => ⟨w,hw,rfl,rfl⟩).seq fun t => ?_
  refine (localFault_rule (Q := fun _ w' => ∃ w, P w ∧ t = w.tick ∧ w' = w.ticked)
    (fun _ h => h) ?_).seq fun _ => Triple.ret ?_
  · rintro _ e ⟨w,hw,-,rfl⟩ he
    exact hE w e hw he
  · rintro _ ⟨w,hw,rfl,rfl⟩
    exact hQ w hw

theorem quarantineEml_rule {relativePath : String} {Q : Unit → World → Prop}
    (hnone : ∀ w, P w → w.files.lookup relativePath = none → Q () w.ticked)
    (hsome : ∀ w raw, P w → w.files.lookup relativePath = some raw →
      Q () (w.ticked.movedFile relativePath (quarantinePath relativePath (env.uuid w.tick)) raw))
    (hE : ∀ w e, P w → e.isLocal = true → E e w.ticked) :
    Triple P (quarantineEml env relativePath) Q E := by
  refine (storageCall_rule (Q := fun t w' => ∃ w, P w ∧ t = w.tick ∧ w' = w.ticked)
    (fun w hw => ⟨w,hw,rfl,rfl⟩) hE).seq fun t => ?_
  refine (Triple.read (Q := fun v w' => v = w' ∧ ∃ w, P w ∧ t = w.tick ∧ w' = w.ticked)
    fun _ h => ⟨rfl,h⟩).seq fun v => ?_
  split
  · next hlookup =>
    refine Triple.ret ?_
    rintro _ ⟨rfl,w,hw,-,rfl⟩
    exact hnone w hw hlookup
  · next raw hlookup =>
    refine Triple.write ?_
    rintro _ ⟨rfl,w,hw,rfl,rfl⟩
    exact hsome w raw hw hlookup

end

section
variable {env : Env} {F : Footprint}

theorem Within.storageCall : Within F (storageCall env) :=
  fun _ hI => storageCall_rule (fun w h => hI.ticked w h) fun w _ h _ => hI.ticked w h

theorem Within.isCancelled : Within F (isCancelled env) :=
  Within.nextTick.seq fun _ => .ret _

theorem Within.hashChunks {relativePath : String} : Within F (hashChunks env relativePath) := by
  refine Within.storageCall.seq fun t => Within.read.seq fun w => ?_
  split
  · exact .ret _
  · split
    · exact .ret _
    · exact .ret _

theorem Within.iterEmlPaths : Within F (iterEmlPaths env) :=
  Within.storageCall.seq fun _ => Within.read.seq fun _ => .ret _

end

namespace Sheltered

variable {env : Env} {I : World → Prop} (h : Sheltered env I)
include h

theorem quarantineEml (relativePath : String) :
    Triple I (quarantineEml env relativePath) (fun _ => I) (fun _ => I) :=
  quarantineEml_rule (fun w hw _ => h.closed.ticked w hw)
    (fun w raw hw hlookup => h.moved w relativePath raw hw hlookup)
    fun w _ hw _ => h.closed.ticked w hw

/-- Everything a check does but its moves. -/
theorem quiet {α : Type} {p : App α} (hp : Within checkFootprint p) :
    Triple I p (fun _ => I) (fun _ => I) := hp I h.closed

theorem handleIssue (record : Option StoredRecord) (issue : VerificationIssue)
    (result : RangeVerifyResult) :
    Triple I (handleIssue env record issue result) (fun _ => I) (fun _ => I) := by
  have hmove : Triple I (if issue.reason = .hashMismatch then
      MailDock.quarantineEml env issue.relativePath else pure () : App Unit)
      (fun _ => I) (fun _ => I) := by
    split
    · exact h.quarantineEml _
    · exact Triple.ret fun _ hw => hw
  refine Triple.seq (Q := fun _ => I) ?_ fun _ => Triple.ret fun _ hw => hw
  cases record with
  | none => exact hmove
  | some record =>
    refine Triple.seq (Q := fun _ => I) ?_ fun _ => hmove.seq fun _ =>
      h.quiet (Within.writeRepo trivial)
    rw [recordIntegrityFailure]
    split
    · exact h.quiet (Within.writeRepo trivial)
    · exact Triple.ret fun _ hw => hw

theorem rangeVerifyLoop (records : List StoredRecord) (events : List ManifestEvent)
    (result : RangeVerifyResult) :
    Triple I (rangeVerifyLoop env records events result) (fun _ => I) (fun _ => I) := by
  induction events generalizing result with
  | nil => exact Triple.ret fun _ hw => hw
  | cons event rest ih =>
    cases event with
    | fetch e =>
      refine (h.quiet Within.isCancelled).seq fun stop => ?_
      split
      · exact Triple.ret fun _ hw => hw
      · refine (h.quiet Within.hashChunks).seq fun found => ?_
        cases found with
        | cancelled => exact Triple.ret fun _ hw => hw
        | missing => exact (h.handleIssue _ _ _).seq fun result => ih result
        | hash actual =>
          dsimp only
          split
          · exact ih _
          · exact (h.handleIssue _ _ _).seq fun result => ih result
    | _ => exact ih result

theorem rangeVerify : Triple I (rangeVerify env) (fun _ => I) (fun _ => I) :=
  (h.quiet Within.queryRepo).seq fun records => (h.quiet Within.read).seq fun _ =>
    h.rangeVerifyLoop records _ _

theorem orphanScanLoop (events : List ProvenanceEvent) (knownPaths knownHashes : List String)
    (paths : List String) (result : OrphanScanResult) :
    Triple I (orphanScanLoop env events knownPaths knownHashes paths result)
      (fun _ => I) (fun _ => I) := by
  induction paths generalizing result with
  | nil => exact Triple.ret fun _ hw => hw
  | cons relativePath rest ih =>
    refine (h.quiet Within.isCancelled).seq fun stop => ?_
    split
    · exact Triple.ret fun _ hw => hw
    · dsimp only
      split
      · exact ih _
      · refine (h.quiet Within.hashChunks).seq fun found => ?_
        cases found with
        | cancelled => exact Triple.ret fun _ hw => hw
        | missing => exact Triple.raise fun _ hw => hw
        | hash actual =>
          dsimp only
          split
          · exact ih _
          · exact (h.quarantineEml _).seq fun _ => (h.quiet Within.timestamp).seq fun _ =>
              (h.quiet (Within.writeRepo trivial)).seq fun _ => ih _

theorem orphanScan (events : List ProvenanceEvent) :
    Triple I (orphanScan env events) (fun _ => I) (fun _ => I) :=
  (h.quiet Within.iterEmlPaths).seq fun paths => (h.quiet Within.queryRepo).seq fun knownPaths =>
    (h.quiet Within.queryRepo).seq fun knownHashes =>
      h.orphanScanLoop events knownPaths knownHashes paths {}

end Sheltered

/-! What stays in quarantine. -/

/-- No two quarantined files get the same name: `uuid4` never returns a value twice. -/
def Env.DistinctNames (env : Env) : Prop :=
  ∀ t t' p p', t ≠ t' → quarantinePath p (env.uuid t) ≠ quarantinePath p' (env.uuid t')

/-- The names of the files to be quarantined from now on are not in use. -/
def World.NamesFree (env : Env) (w : World) : Prop :=
  ∀ t, w.tick ≤ t → ∀ p, w.files.lookup (quarantinePath p (env.uuid t)) = none

/-- The bytes lie in quarantine. -/
def World.Quarantines (w : World) (raw : Bytes) : Prop :=
  ∃ p, inQuarantine p = true ∧ w.files.lookup p = some raw

theorem isPrefixOf_ofList {a l : List Char} (h : a <+: l) :
    a.isPrefixOf (String.ofList l).toList = true := by
  rw [String.toList_ofList]
  exact List.isPrefixOf_iff_prefix.mpr h

theorem inQuarantine_quarantinePath (relativePath uuid : String) :
    inQuarantine (quarantinePath relativePath uuid) = true :=
  isPrefixOf_ofList (((List.prefix_append _ _).trans (List.prefix_append _ _)).trans
    (List.prefix_append _ _))

theorem not_inQuarantine_eml (rest : String) : inQuarantine ("eml/" ++ rest) = false := by
  have heml : "eml/".toList = ['e','m','l','/'] := by decide
  have htmp : "tmp/quarantine/".toList = 't' :: "mp/quarantine/".toList := by decide
  rw [inQuarantine,String.toList_append,heml,htmp]
  rfl

section
variable {env : Env} {raw : Bytes}

theorem World.NamesFree.ticked {w : World} (h : w.NamesFree env) : w.ticked.NamesFree env :=
  fun t ht p => h t (Nat.le_of_succ_le ht) p

/-- A file is moved to a name of its own and takes nobody else's. -/
theorem World.NamesFree.moved (hnames : env.DistinctNames) {w : World} (h : w.NamesFree env)
    (source : String) (raw : Bytes) :
    (w.ticked.movedFile source (quarantinePath source (env.uuid w.tick)) raw).NamesFree env := by
  intro t ht p
  have hlater : t ≠ w.tick := by
    have : w.tick + 1 ≤ t := ht
    omega
  rw [lookup_movedFile,if_neg (hnames t w.tick p source hlater)]
  split
  · rfl
  · exact h.ticked t ht p

theorem World.Quarantines.moved {w : World} (hfree : w.NamesFree env) (h : w.Quarantines raw)
    {source : String} {moved : Bytes} (hsource : w.files.lookup source = some moved) :
    (w.ticked.movedFile source (quarantinePath source (env.uuid w.tick)) moved).Quarantines raw := by
  obtain ⟨p,hp,hlookup⟩ := h
  by_cases hsame : p = source
  · -- a file that is quarantined already goes to another name
    subst hsame
    rw [hlookup,Option.some.injEq] at hsource
    subst hsource
    refine ⟨_,inQuarantine_quarantinePath p (env.uuid w.tick),?_⟩
    rw [lookup_movedFile,if_pos rfl]
  · have hdest : p ≠ quarantinePath source (env.uuid w.tick) := by
      rintro rfl
      rw [hfree w.tick (Nat.le_refl _) source] at hlookup
      cases hlookup
    refine ⟨p,hp,?_⟩
    rw [lookup_movedFile,if_neg hdest,if_neg hsame]
    exact hlookup

/-- A file saved below `eml` is none of the quarantined ones. -/
theorem lookup_saved_of_ne (w : World) {destination p : String} (saved : Bytes)
    (h : p ≠ destination) : (w.saved destination saved).files.lookup p = w.files.lookup p := by
  rw [World.saved,List.lookup_cons,beq_eq_false_iff_ne.mpr h]

theorem ne_of_inQuarantine {p q : String} (hp : inQuarantine p = true) (hq : inQuarantine q = false) :
    p ≠ q := by
  rintro rfl
  rw [hp] at hq
  cases hq

/-- What a save does: it writes below `eml` or leaves the files alone. -/
def saveFootprint : Footprint where
  note
    | .save p _ => inQuarantine p = false
    | .verified _ _ => True
    | _ => False
  op _ := True

/-- The bytes are in quarantine, and no name is used twice. -/
def Keeps (env : Env) (raw : Bytes) (w : World) : Prop := w.NamesFree env ∧ w.Quarantines raw

theorem keeps_closed : Closed saveFootprint (Keeps env raw) where
  ticked w h := ⟨h.1.ticked,h.2⟩
  logged _ _ _ _ h := h
  saved w path saved hpath h := by
    refine ⟨fun t ht p => ?_,?_⟩
    · rw [lookup_saved_of_ne w saved (ne_of_inQuarantine (inQuarantine_quarantinePath p _) hpath)]
      exact h.1 t ht p
    · obtain ⟨p,hp,hlookup⟩ := h.2
      exact ⟨p,hp,by rw [lookup_saved_of_ne w saved (ne_of_inQuarantine hp hpath)]; exact hlookup⟩
  appended _ _ _ he := he.elim
  began _ _ h := h
  written w op db _ _ h := by
    rw [World.written]
    split
    · exact h
    · exact h
  committed _ h := h
  counted _ _ _ h := h

theorem keeps_sheltered (hnames : env.DistinctNames) : Sheltered env (Keeps env raw) where
  closed := keeps_closed.mono ⟨fun _ h => h.elim,fun _ h => h.elim,fun _ h => h⟩
  moved _ p moved h hlookup := ⟨h.1.moved hnames p moved,h.2.moved h.1 hlookup⟩

theorem saveEml_within {accountId : String} {internalDate : Option DateTime} {raw : Bytes} :
    Within saveFootprint (saveEml env accountId internalDate raw) := by
  refine Within.nextTick.seq fun t => (Within.raiseFault _).seq fun _ => Within.read.seq fun w => ?_
  split
  · next path existing _ =>
    refine Within.seq (fun I hI => emit_rule fun w hw => ?_) fun _ => .ret _
    exact hI.logged w _ trivial trivial hw
  · refine Within.seq (fun I hI => Triple.write fun w hw => ?_) fun _ => .ret _
    refine hI.saved w _ raw ?_ hw
    simp only [String.append_assoc]
    exact not_inQuarantine_eml _

end

/-! Sequences of operations. -/

inductive StorageOp
  | save (accountId : String) (internalDate : Option DateTime) (raw : Bytes)
  | quarantine (relativePath : String)
  | verifyRange
  | scanOrphans (events : List ProvenanceEvent)
  /-- The explicit purge of a file. -/
  | purge (relativePath : String)
  | startSession
deriving DecidableEq, Repr

def StorageOp.run (env : Env) : StorageOp → App Unit
  | .save accountId internalDate raw => do
    let _ ← saveEml env accountId internalDate raw
    pure ()
  | .quarantine relativePath => quarantineEml env relativePath
  | .verifyRange => do
    let _ ← rangeVerify env
    pure ()
  | .scanOrphans events => do
    let _ ← orphanScan env events
    pure ()
  | .purge relativePath => deleteEml env relativePath
  | .startSession => do
    let _ ← cleanupTmp env
    pure ()

/-- The world after some operations; an operation that raises leaves what it has done. -/
def runOps (env : Env) (ops : List StorageOp) (w : World) : World :=
  ops.foldl (fun w op => (op.run env w).2) w

/-- No session starts while a file is in quarantine, and no quarantined file is purged. -/
def StorageOp.Spares (op : StorageOp) (w : World) : Prop :=
  match op with
  | .startSession => ∀ raw, ¬w.Quarantines raw
  | .purge relativePath => inQuarantine relativePath = false
  | _ => True

/-- Every operation of a run meets the condition in the world it finds. -/
def SparesAll (env : Env) : List StorageOp → World → Prop
  | [],_ => True
  | op :: rest,w => op.Spares w ∧ SparesAll env rest (op.run env w).2

section
variable {env : Env} {raw : Bytes}

theorem lookup_unlinked (w : World) (q p : String) :
    (w.unlinked q).files.lookup p = if p = q then none else w.files.lookup p :=
  w.lookup_removedFile q p

theorem StorageOp.run_keeps (hnames : env.DistinctNames) (op : StorageOp) {w : World}
    (hspares : op.Spares w) (h : Keeps env raw w) : Keeps env raw (op.run env w).2 := by
  have hshelter : Sheltered env (Keeps env raw) := keeps_sheltered hnames
  have hdone : ∀ {α : Type} {p : App α}, Triple (Keeps env raw) p (fun _ => Keeps env raw)
      (fun _ => Keeps env raw) → Keeps env raw ((p >>= fun _ => pure () : App Unit) w).2 :=
    fun hp => Triple.final (hp.seq fun _ =>
      Triple.ret (Q := fun _ => Keeps env raw) fun _ hw => hw) h
  cases op with
  | save accountId internalDate saved => exact hdone (saveEml_within _ keeps_closed)
  | quarantine relativePath => exact (hshelter.quarantineEml relativePath).final h
  | verifyRange => exact hdone hshelter.rangeVerify
  | scanOrphans events => exact hdone (hshelter.orphanScan events)
  | startSession => exact (hspares raw h.2).elim
  | purge relativePath =>
    have hdelete : Triple (Keeps env raw) (deleteEml env relativePath)
        (fun _ => Keeps env raw) (fun _ => Keeps env raw) := by
      refine (Within.nextTick _ keeps_closed).seq fun t =>
        (Within.raiseFault _ _ keeps_closed).seq fun _ => Triple.write fun w hw => ⟨?_,?_⟩
      · intro t ht p
        rw [lookup_unlinked]
        split
        · rfl
        · exact hw.1 t ht p
      · obtain ⟨p,hp,hlookup⟩ := hw.2
        exact ⟨p,hp,by rw [lookup_unlinked,if_neg (ne_of_inQuarantine hp hspares)]; exact hlookup⟩
    exact hdelete.final h

theorem runOps_keeps (hnames : env.DistinctNames) (ops : List StorageOp) {w : World}
    (hspares : SparesAll env ops w) (h : Keeps env raw w) : Keeps env raw (runOps env ops w) := by
  induction ops generalizing w with
  | nil => exact h
  | cons op rest ih => exact ih hspares.2 (op.run_keeps hnames hspares.1 h)

/-- What a session start leaves of the files. -/
theorem lookup_cleanupTmp {w w' : World} {n : Nat} (hrun : cleanupTmp env w = (.ok n,w'))
    (p : String) :
    w'.files.lookup p = if isAbandoned p then none else w.files.lookup p := by
  have hspec : Triple (fun v : World => v.files = w.files) (cleanupTmp env)
      (fun _ v => ∀ p, v.files.lookup p = if isAbandoned p then none else w.files.lookup p)
      fun _ _ => True := by
    refine (storageCall_rule (Q := fun _ v => v.files = w.files) (fun v hv => hv)
      fun _ _ _ _ => trivial).seq fun _ => ?_
    refine (Triple.read (Q := fun v (v' : World) => v'.files = w.files ∧ World.files v = w.files)
      fun v hv => ⟨hv,hv⟩).seq fun v => Triple.assume fun hv => ?_
    rw [hv]
    -- the loop takes the abandoned files away one after the other
    have hloop := Triple.loop_prefix (E := fun _ _ => True)
      (I := fun done (v : World) => ∀ p, v.files.lookup p =
        if p ∈ done then none else w.files.lookup p) (f := removeAbandoned env)
      (((w.files.map Prod.fst).filter isAbandoned).dedup) (fun done q _ => ?_) []
    · refine (hloop.weaken_pre fun v hv p => ?_).seq fun _ => Triple.ret fun v hv p => ?_
      · rw [hv,if_neg List.not_mem_nil]
      · have habandoned : p ∈ [] ++ ((w.files.map Prod.fst).filter isAbandoned).dedup ↔
            p ∈ w.files.map Prod.fst ∧ isAbandoned p = true := by
          rw [List.nil_append,List.mem_dedup,List.mem_filter]
        rw [hv]
        by_cases hp : isAbandoned p = true
        · rw [if_pos hp]
          split
          · rfl
          · next hnot =>
            rw [List.lookup_eq_none_iff]
            intro f hf
            by_contra hsame
            rw [bne_iff_ne,not_not] at hsame
            exact hnot (habandoned.mpr ⟨hsame ▸ List.mem_map_of_mem hf,hp⟩)
        · rw [if_neg hp,if_neg fun h => hp (habandoned.mp h).2]
    · refine (storageCall_rule (Q := fun _ v => ∀ p, v.files.lookup p =
        if p ∈ done then none else w.files.lookup p) (fun v hv => hv)
          fun _ _ _ _ => trivial).seq fun _ => Triple.write fun v hv p => ?_
      rw [World.lookup_removedFile,hv]
      by_cases hpq : p = q
      · simp [hpq]
      · simp [hpq]
  have hrow := hspec w rfl
  rw [hrun] at hrow
  exact hrow p

/-- A file that is moved to quarantine stays there as long as no session starts and it is not
purged; a session start removes every file of `tmp` that is not below `tmp/pstimp`. -/
theorem quarantined_bytes_remain (env : Env) (hnames : env.DistinctNames) (w : World)
    (hfree : w.NamesFree env) :
    (∀ relativePath raw w', w.files.lookup relativePath = some raw →
      quarantineEml env relativePath w = (.ok (),w') → w'.Quarantines raw) ∧
    (∀ raw ops, w.Quarantines raw → SparesAll env ops w → (runOps env ops w).Quarantines raw) ∧
    ∀ n w', cleanupTmp env w = (.ok n,w') → ∀ raw,
      (∃ p, w'.files.lookup p = some raw) ↔
        ∃ p, isAbandoned p = false ∧ w.files.lookup p = some raw := by
  refine ⟨fun relativePath raw w' hlookup hrun => ?_,fun raw ops h hspares => ?_,
    fun n w' hrun raw => ?_⟩
  · have hspec : Triple (fun v => v = w) (quarantineEml env relativePath)
        (fun _ v => v.Quarantines raw) fun _ _ => True := by
      refine quarantineEml_rule ?_ ?_ fun _ _ _ _ => trivial
      · rintro _ rfl hnone
        rw [hlookup] at hnone
        cases hnone
      · intro v moved hv hmoved
        rw [hv,hlookup,Option.some.injEq] at hmoved
        refine ⟨_,inQuarantine_quarantinePath relativePath (env.uuid v.tick),?_⟩
        rw [World.lookup_movedFile,if_pos rfl,hmoved]
    have hdone := hspec w rfl
    rw [hrun] at hdone
    exact hdone
  · exact (runOps_keeps hnames ops hspares ⟨hfree,h⟩).2
  · constructor
    · rintro ⟨p,hp⟩
      rw [lookup_cleanupTmp hrun] at hp
      split at hp
      · cases hp
      · next hkept => exact ⟨p,by simpa using hkept,hp⟩
    · rintro ⟨p,hkept,hp⟩
      refine ⟨p,?_⟩
      rw [lookup_cleanupTmp hrun,hkept]
      exact hp

end

/-- Names that differ in the number of their digits. -/
def tallyEnv : Env where
  sha256 raw := if raw = [1] then "5" else "6"
  parse _ _ := {}
  clock _ := ⟨2024,1,1,0,0,0⟩
  uuid t := String.ofList (List.replicate t 'f')
  uidvalidity _ _ := 7
  mailbox _ _ := []
  nextRef _ _ _ _ := none
  body _ _ _ := []
  headers _ _ _ := []

theorem takeWhile_tally (t : Nat) (xs : List Char) :
    (List.replicate t 'f' ++ '.' :: xs).takeWhile (· == 'f') = List.replicate t 'f' := by
  induction t with
  | zero => rfl
  | succ t ih =>
    rw [List.replicate_succ,List.cons_append,List.takeWhile_cons_of_pos (by rfl),ih]

theorem tally_inj {root ext x y : List Char} {t t' : Nat}
    (h : root ++ x ++ '.' :: List.replicate t 'f' ++ ext =
      root ++ y ++ '.' :: List.replicate t' 'f' ++ ext) : t = t' := by
  have hname := congrArg (fun l => (List.reverse l).takeWhile (· == 'f')) (List.append_cancel_right h)
  simp only [List.reverse_append,List.reverse_cons,List.reverse_replicate,List.append_assoc,
    List.cons_append,List.nil_append,takeWhile_tally] at hname
  simpa using congrArg List.length hname

theorem tallyEnv_distinctNames : tallyEnv.DistinctNames := by
  intro t t' p p' hne hsame
  have huuid : ∀ t, (tallyEnv.uuid t).toList = List.replicate t 'f' := fun t => String.toList_ofList
  have hlist := String.ofList_injective hsame
  rw [huuid,huuid] at hlist
  exact hne (tally_inj hlist)

/-- An EML whose content has changed since it was fetched. -/
def changedEml : World :=
  World.opened .empty [] none [("eml/a/unknown/5.eml",[2])] 0

theorem changedEml_namesFree : changedEml.NamesFree tallyEnv := by
  intro t _ p
  have hne : quarantinePath p (tallyEnv.uuid t) ≠ "eml/a/unknown/5.eml" :=
    ne_of_inQuarantine (inQuarantine_quarantinePath p _) (by decide)
  show List.lookup _ [("eml/a/unknown/5.eml",[2])] = none
  rw [List.lookup_cons,beq_eq_false_iff_ne.mpr hne]
  rfl

/-- The same file after it has been quarantined. -/
def quarantinedEml : World :=
  changedEml.ticked.movedFile "eml/a/unknown/5.eml"
    (quarantinePath "eml/a/unknown/5.eml" (tallyEnv.uuid 0)) [2]

theorem quarantined_bytes_remain_after_checks :
    (runOps tallyEnv [.verifyRange,.scanOrphans [],.save "a" none [1]] quarantinedEml).Quarantines
      [2] := by
  have hfree : quarantinedEml.NamesFree tallyEnv :=
    changedEml_namesFree.moved tallyEnv_distinctNames _ _
  have hquarantined : quarantinedEml.Quarantines [2] :=
    ⟨_,inQuarantine_quarantinePath _ _,by rw [quarantinedEml,World.lookup_movedFile,if_pos rfl]⟩
  exact (quarantined_bytes_remain tallyEnv tallyEnv_distinctNames quarantinedEml hfree).2.1 [2] _
    hquarantined ⟨trivial,trivial,trivial,trivial⟩

theorem session_start_destroys_quarantine :
    (runOps tallyEnv [.quarantine "eml/a/unknown/5.eml"] changedEml).Quarantines [2] ∧
    ¬∃ p, (runOps tallyEnv [.quarantine "eml/a/unknown/5.eml",.startSession]
      changedEml).files.lookup p = some [2] := by
  have hgone : (runOps tallyEnv [.quarantine "eml/a/unknown/5.eml",.startSession]
      changedEml).files = [] := by decide
  refine ⟨⟨"tmp/quarantine/5.eml..eml",by decide,by decide⟩,?_⟩
  rintro ⟨p,hp⟩
  rw [hgone] at hp
  cases hp

end MailDock
