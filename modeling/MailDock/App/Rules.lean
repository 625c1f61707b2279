import MailDock.App.World

/-!
# One rule for each call

Each call of a use case has one rule that says what it can do to the world: its
premises are the world after a normal return and after an exception.  Proofs about
use cases apply these rules and never unfold a call.
-/

namespace MailDock

open Hoare Except

/-- Errors of the local side: the database, the storage and the checks of the manifest writer. -/
def Error.isLocal (e : Error) : Bool :=
  match e.kind with
  | .database | .storage | .storageDetached | .value => true
  | _ => false

theorem Error.not_local_of_cancelled {e : Error} (h : e.isCancelled = true) :
    e.isLocal = false := by
  rw [Error.isCancelled,beq_iff_eq] at h
  rw [Error.isLocal,h]

theorem Error.not_local_of_authentication {e : Error} (h : e.isAuthentication = true) :
    e.isLocal = false := by
  rw [Error.isAuthentication,beq_iff_eq] at h
  rw [Error.isLocal,h]

theorem Error.not_local_of_fetchError {e : Error} (h : e.isFetchError = true) :
    e.isLocal = false := by
  obtain ⟨kind,message⟩ := e
  cases kind <;> first | rfl | cases h

/-- The local errors, as the errors a computation may raise. -/
abbrev RaisesLocal {α : Type} (x : Except Error α) : Prop :=
  RaisesOnly (fun e : Error => e.isLocal = true) x

theorem LocalFault.toError_isLocal (f : LocalFault) : f.toError.isLocal = true := by
  cases f <;> rfl

/-! The errors of the repository. -/

namespace Repository

theorem exec_raisesLocal (operation : String) (t : Tables) : RaisesLocal (exec operation t) := by
  unfold exec
  split
  · exact .ret _
  · exact .raise rfl

theorem addMessage_raisesLocal (repo : Repository) (record : MessageRecord)
    (contents : Option MessageContents) : RaisesLocal (repo.addMessage record contents) := by
  unfold addMessage
  refine (exec_raisesLocal _ _).seq fun upserted => ?_
  split
  · exact .raise rfl
  · refine (exec_raisesLocal _ _).seq fun stored => ?_
    split
    · exact .ret _
    · exact (exec_raisesLocal _ _).seq fun _ => .ret _

theorem mergeDuplicateMessage_raisesLocal (repo : Repository) (accountId : String) (c d : Nat) :
    RaisesLocal (repo.mergeDuplicateMessage accountId c d) := by
  have hmembership : ∀ r m, RaisesLocal (mergeMembership c d r m) := by
    intro r m
    unfold mergeMembership
    split
    · split
      · exact .raise rfl
      · exact exec_raisesLocal _ _
    · exact exec_raisesLocal _ _
  have hif : ∀ (p : Prop) [Decidable p] (operation : String) (t : Tables) (r : Repository),
      RaisesLocal (if p then exec operation t else .ok r) := by
    intro p _ operation t r
    split
    · exact exec_raisesLocal _ _
    · exact .ret _
  unfold mergeDuplicateMessage
  split
  · exact .ret _
  · dsimp only
    split
    · split
      · exact .raise rfl
      · refine RaisesOnly.seq (hif _ _ _ _) fun _ => RaisesOnly.seq (hif _ _ _ _) fun _ =>
          RaisesOnly.seq (hif _ _ _ _) fun _ => RaisesOnly.seq ?_ fun _ => RaisesOnly.seq ?_ fun _ => ?_
        · exact (RaisesOnly.accumulate (fun _ _ => exec_raisesLocal _ _) _ _).seq fun _ =>
            (exec_raisesLocal _ _).seq fun _ => exec_raisesLocal _ _
        · exact RaisesOnly.accumulate hmembership _ _
        · exact (exec_raisesLocal _ _).seq fun _ => exec_raisesLocal _ _
    · exact .raise rfl

theorem addMessageIdentityAlias_raisesLocal (repo : Repository) (accountId : String)
    (key : SourceItemKey) (messageId : Nat) (kind : EvidenceKind) :
    RaisesLocal (repo.addMessageIdentityAlias accountId key messageId kind) := by
  unfold addMessageIdentityAlias
  refine (exec_raisesLocal _ _).seq fun _ => ?_
  split
  · split
    · exact .ret _
    · exact .raise rfl
  · exact .raise rfl

end Repository

open Repository in
/-- A write raises errors of the database only. -/
theorem WriteOp.apply_raisesLocal (repo : Repository) (op : WriteOp) :
    RaisesLocal (op.apply repo) := by
  cases op with
  | addMessage record contents =>
    intro e he
    refine addMessage_raisesLocal repo record contents e ?_
    cases h : repo.addMessage record contents with
    | error e' =>
      rw [WriteOp.apply,h] at he
      cases he
      rfl
    | ok r =>
      rw [WriteOp.apply,h] at he
      cases he
  | mergeDuplicateMessage accountId c d => exact mergeDuplicateMessage_raisesLocal _ _ _ _
  | replaceMessageMemberships messageId memberships =>
    exact (exec_raisesLocal _ _).seq fun _ => .accumulate (fun _ _ => exec_raisesLocal _ _) _ _
  | addMessageIdentityAlias accountId key messageId kind =>
    exact addMessageIdentityAlias_raisesLocal _ _ _ _ _
  | _ => exact exec_raisesLocal _ _

/-! The errors of the manifest writer. -/

theorem requireText_raisesLocal (value field eventName : String) :
    RaisesLocal (requireText value field eventName) := by
  unfold requireText
  split
  · exact .raise rfl
  · exact .ret _

theorem requireKey_raisesLocal (key : SourceItemKey) (field eventName : String) :
    RaisesLocal (requireKey key field eventName) := by
  unfold requireKey
  split
  · exact .raise rfl
  · exact .ret _

theorem validateEvent_raisesLocal (e : ManifestEvent) : RaisesLocal (validateEvent e) := by
  have htext := requireText_raisesLocal
  have hkey := requireKey_raisesLocal
  have hpurge : ∀ e name, RaisesLocal (validatePurge e name) := fun e name =>
    (htext _ _ _).seq fun _ => (hkey _ _ _).seq fun _ => (htext _ _ _).seq fun _ => htext _ _ _
  cases e with
  | fetch e => exact .ret _
  | fetchSkipped e => exact .ret _
  | state e =>
    simp only [validateEvent]
    split
    · exact .ret _
    · exact .ret _
    · split
      · exact .raise rfl
      · exact (htext _ _ _).seq fun _ => (htext _ _ _).seq fun _ => (htext _ _ _).seq fun _ =>
          hkey _ _ _
  | checkpoint e => exact (htext _ _ _).seq fun _ => htext _ _ _
  | accountSnapshot e =>
    exact (htext _ _ _).seq fun _ => (htext _ _ _).seq fun _ => (htext _ _ _).seq fun _ =>
      htext _ _ _
  | folderSnapshot e =>
    exact (htext _ _ _).seq fun _ => (htext _ _ _).seq fun _ => htext _ _ _
  | purgeIntent e => exact hpurge e _
  | purged e => exact hpurge e _
  | remoteDelete e =>
    refine (htext _ _ _).seq fun _ => (htext _ _ _).seq fun _ => ?_
    split
    · exact .raise rfl
    · exact .ret _
  | membershipSnapshot e =>
    refine (htext _ _ _).seq fun _ => (hkey _ _ _).seq fun _ => .loop (fun m => ?_) _
    unfold validateMembershipEntry
    split
    · exact .raise rfl
    · exact .ret _
  | identityLinked e =>
    refine (htext _ _ _).seq fun _ => (hkey _ _ _).seq fun _ => (hkey _ _ _).seq fun _ =>
      (htext _ _ _).seq fun _ => ?_
    split
    · exact .raise rfl
    · exact .ret _

theorem appendEvent_raisesLocal (last : Option Nat) (e : ManifestEvent) :
    RaisesLocal (appendEvent last e) := by
  refine (validateEvent_raisesLocal e).seq fun _ => ?_
  split
  · split
    · split
      · exact .raise rfl
      · exact .ret _
    · exact .ret _
  · exact .ret _

/-- Inside a batch a write reaches the open connection only. -/
@[simp]
theorem World.written_db (w : World) (op : WriteOp) (db : Repository) :
    (w.written op db).db = db := by
  unfold World.written
  split <;> rfl

@[simp]
theorem World.written_session (w : World) (op : WriteOp) (db : Repository) :
    (w.written op db).session = w.session := by
  unfold World.written
  split <;> rfl

@[simp]
theorem World.written_tick (w : World) (op : WriteOp) (db : Repository) :
    (w.written op db).tick = w.tick := by
  unfold World.written
  split <;> rfl

@[simp]
theorem World.written_manifest (w : World) (op : WriteOp) (db : Repository) :
    (w.written op db).manifest = w.manifest := by
  unfold World.written
  split <;> rfl

theorem World.written_inBatch {w : World} (h : w.inBatch = true) (op : WriteOp) (db : Repository) :
    w.written op db = { w with db := db, log := .write op :: w.log } :=
  if_pos h

/-! The rules. -/

section
variable {env : Env} {P : World → Prop} {E : Error → World → Prop}

theorem nextTick_rule {Q : Nat → World → Prop} (hQ : ∀ w, P w → Q w.tick w.ticked) :
    Triple P nextTick Q E :=
  fun w hw => hQ w hw

theorem emit_rule {e : Effect} {Q : Unit → World → Prop} (hQ : ∀ w, P w → Q () (w.logged e)) :
    Triple P (emit e) Q E :=
  fun w hw => hQ w hw

theorem raiseFault_rule {fault : Option Error} {Q : Unit → World → Prop}
    (hQ : ∀ w, P w → Q () w) (hE : ∀ e, fault = some e → ∀ w, P w → E e w) :
    Triple P (raiseFault fault) Q E := by
  intro w hw
  cases fault with
  | none => exact hQ w hw
  | some e => exact hE e rfl w hw

theorem localFault_rule {fault : Option LocalFault} {Q : Unit → World → Prop}
    (hQ : ∀ w, P w → Q () w) (hE : ∀ w e, P w → e.isLocal = true → E e w) :
    Triple P (raiseFault (fault.map LocalFault.toError)) Q E := by
  refine raiseFault_rule hQ ?_
  intro e he w hw
  obtain ⟨f,-,rfl⟩ := Option.map_eq_some_iff.mp he
  exact hE w _ hw f.toError_isLocal

theorem outcome_rule {α : Type} {call : App α} {R : Except Error α → World → Prop}
    (h : Triple P call (fun a => R (.ok a)) fun e => R (.error e)) :
    Triple P (outcome call) R E := by
  refine Triple.handle (h.seq fun a => ?_) fun e => Triple.ret fun _ hw => hw
  exact Triple.ret (E := fun e => R (.error e)) fun _ hw => hw

theorem nowIso_rule {Q : String → World → Prop} (hQ : ∀ w s, P w → Q s w.ticked) :
    Triple P (nowIso env) Q E :=
  fun w hw => hQ w _ hw

theorem timestamp_rule {Q : String → World → Prop} (hQ : ∀ w s, P w → Q s w.ticked) :
    Triple P (timestamp env) Q E :=
  fun w hw => hQ w _ hw

theorem raiseIfCancelled_rule {Q : Unit → World → Prop} (hQ : ∀ w, P w → Q () w.ticked)
    (hE : ∀ w e, P w → e.isCancelled = true → E e w.ticked) :
    Triple P (raiseIfCancelled env) Q E := by
  refine (nextTick_rule (Q := fun _ w' => ∃ w, P w ∧ w' = w.ticked)
    fun w hw => ⟨w,hw,rfl⟩).seq fun t => ?_
  split
  · refine Triple.raise ?_
    rintro _ ⟨w,hw,rfl⟩
    exact hE w _ hw rfl
  · refine Triple.ret ?_
    rintro _ ⟨w,hw,rfl⟩
    exact hQ w hw

theorem repoCall_rule {Q : Unit → World → Prop} (hQ : ∀ w, P w → Q () w.ticked)
    (hE : ∀ w e, P w → e.isLocal = true → E e w.ticked) : Triple P (repoCall env) Q E := by
  refine (nextTick_rule (Q := fun _ w' => ∃ w, P w ∧ w' = w.ticked)
    fun w hw => ⟨w,hw,rfl⟩).seq fun t => localFault_rule ?_ ?_
  · rintro _ ⟨w,hw,rfl⟩
    exact hQ w hw
  · rintro _ e ⟨w,hw,rfl⟩ he
    exact hE w e hw he

theorem queryRepo_rule {α : Type} {query : Tables → α} {Q : α → World → Prop}
    (hQ : ∀ w, P w → Q (query w.db.tables) w.ticked)
    (hE : ∀ w e, P w → e.isLocal = true → E e w.ticked) :
    Triple P (queryRepo env query) Q E := by
  refine (repoCall_rule (Q := fun _ w' => ∃ w, P w ∧ w' = w.ticked)
    (fun w hw => ⟨w,hw,rfl⟩) hE).seq fun _ => ?_
  rintro _ ⟨w,hw,rfl⟩
  exact hQ w hw

theorem writeRepo_rule {op : WriteOp} {Q : Unit → World → Prop}
    (hQ : ∀ w db, P w → op.apply w.db = .ok db → Q () (w.ticked.written op db))
    (hE : ∀ w e, P w → e.isLocal = true → E e w.ticked) :
    Triple P (writeRepo env op) Q E := by
  refine (repoCall_rule (Q := fun _ w' => ∃ w, P w ∧ w' = w.ticked)
    (fun w hw => ⟨w,hw,rfl⟩) hE).seq fun _ => ?_
  rintro _ ⟨w,hw,rfl⟩
  show Holds Q E (Prog.bind (Prog.ofExcept (op.apply w.db)) _ w.ticked)
  unfold Prog.bind Prog.ofExcept
  cases h : op.apply w.db with
  | ok db => exact hQ w db hw h
  | error e => exact hE w e hw (WriteOp.apply_raisesLocal w.db op e h)

theorem addMessage_rule {record : MessageRecord} {contents : Option MessageContents}
    {Q : Nat → World → Prop}
    (hQ : ∀ w id db, P w → w.db.addMessage record contents = .ok (id,db) →
      Q id (w.ticked.written (.addMessage record contents) db))
    (hE : ∀ w e, P w → e.isLocal = true → E e w.ticked) :
    Triple P (addMessage env record contents) Q E := by
  refine (repoCall_rule (Q := fun _ w' => ∃ w, P w ∧ w' = w.ticked)
    (fun w hw => ⟨w,hw,rfl⟩) hE).seq fun _ => ?_
  rintro _ ⟨w,hw,rfl⟩
  show Holds Q E (Prog.bind (Prog.ofExcept (w.db.addMessage record contents)) _ w.ticked)
  unfold Prog.bind Prog.ofExcept
  cases h : w.db.addMessage record contents with
  | ok r => exact hQ w r.1 r.2 hw h
  | error e => exact hE w e hw (Repository.addMessage_raisesLocal w.db record contents e h)

theorem beginBatch_rule {Q : Unit → World → Prop}
    (hQ : ∀ w, P w → w.inBatch = false → Q () { w.ticked with inBatch := true })
    (hE : ∀ w e, P w → e.isLocal = true → E e w.ticked) : Triple P (beginBatch env) Q E := by
  refine (repoCall_rule (Q := fun _ w' => ∃ w, P w ∧ w' = w.ticked)
    (fun w hw => ⟨w,hw,rfl⟩) hE).seq fun _ => ?_
  refine (Triple.read (Q := fun v w' => v = w' ∧ ∃ w, P w ∧ w' = w.ticked)
    fun w' h => ⟨rfl,h⟩).seq fun v => ?_
  split
  · refine Triple.raise ?_
    rintro _ ⟨-,w,hw,rfl⟩
    exact hE w _ hw rfl
  · next hbatch =>
    rintro _ ⟨rfl,w,hw,rfl⟩
    exact hQ w hw (Bool.not_eq_true _ ▸ hbatch)

theorem commitBatch_rule {Q : Unit → World → Prop}
    (hQ : ∀ w, P w → Q () w.ticked.batchCommitted)
    (hE : ∀ w e, P w → e.isLocal = true → E e w.ticked) : Triple P (commitBatch env) Q E := by
  refine (repoCall_rule (Q := fun _ w' => ∃ w, P w ∧ w' = w.ticked)
    (fun w hw => ⟨w,hw,rfl⟩) hE).seq fun _ => ?_
  rintro _ ⟨w,hw,rfl⟩
  exact hQ w hw

theorem appendManifest_rule {e : ManifestEvent} {Q : Unit → World → Prop}
    (hQ : ∀ w last, P w → appendEvent w.lastCheckpointSequence e = .ok last →
      Q () (w.ticked.appended e last))
    (hE : ∀ w err, P w → err.isLocal = true → E err w.ticked) :
    Triple P (appendManifest env e) Q E := by
  refine (nextTick_rule (Q := fun _ w' => ∃ w, P w ∧ w' = w.ticked)
    fun w hw => ⟨w,hw,rfl⟩).seq fun t => ?_
  rintro _ ⟨w,hw,rfl⟩
  show Holds Q E (Prog.bind (Prog.ofExcept (appendEvent w.lastCheckpointSequence e)) _ w.ticked)
  unfold Prog.bind Prog.ofExcept
  cases h : appendEvent w.lastCheckpointSequence e with
  | error err => exact hE w err hw (appendEvent_raisesLocal _ e err h)
  | ok last =>
    refine (localFault_rule (P := fun w' => w' = w.ticked) (Q := fun _ w' => w' = w.ticked)
      (fun _ h => h) (fun w' err hw' herr => hw' ▸ hE w err hw herr)).seq (fun _ => ?_) w.ticked rfl
    rintro _ rfl
    exact hQ w last hw h

theorem flushAndSync_rule {Q : Unit → World → Prop}
    (hQ : ∀ w, P w → Q () (w.ticked.logged .flush))
    (hE : ∀ w e, P w → e.isLocal = true → E e w.ticked) : Triple P (flushAndSync env) Q E := by
  refine (nextTick_rule (Q := fun _ w' => ∃ w, P w ∧ w' = w.ticked)
    fun w hw => ⟨w,hw,rfl⟩).seq fun t => ?_
  refine (localFault_rule (Q := fun _ w' => ∃ w, P w ∧ w' = w.ticked) (fun _ h => h) ?_).seq
    fun _ => emit_rule ?_
  · rintro _ e ⟨w,hw,rfl⟩ he
    exact hE w e hw he
  · rintro _ ⟨w,hw,rfl⟩
    exact hQ w hw

theorem readVerified_rule {relativePath expectedHash : String} {Q : Bytes → World → Prop}
    (hQ : ∀ w raw, P w → w.files.lookup relativePath = some raw →
      env.sha256 raw = casefoldHex expectedHash →
      Q raw (w.ticked.logged (.verified relativePath expectedHash)))
    (hE : ∀ w e, P w → E e w.ticked) :
    Triple P (readVerified env relativePath expectedHash) Q E := by
  have hticked : Triple (fun w' => ∃ w, P w ∧ w' = w.ticked)
      (throw ⟨.storage,"Invalid expected EML hash"⟩ : App Bytes) Q E := by
    refine Triple.raise ?_
    rintro _ ⟨w,hw,rfl⟩
    exact hE w _ hw
  refine (nextTick_rule (Q := fun _ w' => ∃ w, P w ∧ w' = w.ticked)
    fun w hw => ⟨w,hw,rfl⟩).seq fun t => ?_
  split
  · refine (localFault_rule (Q := fun _ w' => ∃ w, P w ∧ w' = w.ticked) (fun _ h => h) ?_).seq
      fun _ => ?_
    · rintro _ e ⟨w,hw,rfl⟩ -
      exact hE w e hw
    · refine (Triple.read (Q := fun v w' => v = w' ∧ ∃ w, P w ∧ w' = w.ticked)
        fun w' h => ⟨rfl,h⟩).seq fun v => ?_
      split
      · refine Triple.raise ?_
        rintro _ ⟨-,w,hw,rfl⟩
        exact hE w _ hw
      · next raw hraw =>
        split
        · next hhash =>
          refine (emit_rule (Q := fun _ w' => Q raw w') ?_).seq fun _ => Triple.ret fun _ h => h
          rintro _ ⟨rfl,w,hw,rfl⟩
          exact hQ w raw hw hraw hhash
        · refine Triple.raise ?_
          rintro _ ⟨-,w,hw,rfl⟩
          exact hE w _ hw
  · exact hticked

theorem imapCommand_rule {c : ImapCommand} {Q : Nat → World → Prop}
    (hQ : ∀ w, P w → Q w.tick (w.ticked.logged (.command c)))
    (hE : ∀ w e, P w → E e (w.ticked.logged (.command c))) :
    Triple P (imapCommand env c) Q E := by
  refine (nextTick_rule (Q := fun t w' => ∃ w, P w ∧ t = w.tick ∧ w' = w.ticked)
    fun w hw => ⟨w,hw,rfl,rfl⟩).seq fun t => ?_
  refine (emit_rule (Q := fun _ w' => ∃ w, P w ∧ t = w.tick ∧ w' = w.ticked.logged (.command c))
    ?_).seq fun _ => ?_
  · rintro _ ⟨w,hw,ht,rfl⟩
    exact ⟨w,hw,ht,rfl⟩
  · refine (raiseFault_rule (Q := fun _ w' => ∃ w, P w ∧ t = w.tick ∧
      w' = w.ticked.logged (.command c)) (fun _ h => h) ?_).seq fun _ => Triple.ret ?_
    · rintro e - _ ⟨w,hw,-,rfl⟩
      exact hE w e hw
    · rintro _ ⟨w,hw,rfl,rfl⟩
      exact hQ w hw

end

end MailDock
