import Mathlib.Data.List.Sort
import MailDock.Domain.Messages
import MailDock.Lib.Program

/-!
# Migrations of the database

`infrastructure/database/migrator.py`: the numbered scripts that bring a database up to the schema
of the application, each in a transaction of its own that also sets `user_version`.  Any call of
SQLite may fail, and an application that dies between two calls leaves what a failure there leaves.

## Main definitions

- `migrate` — one start of the application
- `runStarts` — any number of starts, of any releases of the application
- `Upgraded` — a database after a prefix of the scripts that follow its version

## Main results

- `runStarts_upgraded` — every script runs at most once and in order, wherever starts fail
- `migrate_ok` — what a start that succeeds has done
- `runStarts_backedUp` — a database that was changed can be had back
-/

namespace MailDock.Migrations

open Hoare

inductive MigrationError
  | migration (message : String)
  | schemaVersionTooNew (message : String)
deriving DecidableEq, Repr

/-- What the text of a migration is read as. -/
inductive ReadScript (σ : Type)
  | unreadable
  /-- It has a transaction statement, or sets the version. -/
  | forbidden
  /-- What it does to the contents of a database, `none` where one of its statements fails. -/
  | script (run : σ → Option σ)

structure MigrationFile (σ : Type) where
  version : Nat
  name : String
  sql : ReadScript σ

structure Database (σ : Type) where
  userVersion : Nat
  contents : σ
deriving DecidableEq, Repr

/-- `<name>.bak.<version>`, with a number behind it unless `suffix` is zero. -/
structure BackupName where
  version : Nat
  suffix : Nat
deriving DecidableEq, Repr

def BackupName.fileName (n : BackupName) (dbName : String) : String :=
  dbName ++ ".bak." ++ toString n.version ++
    (if n.suffix = 0 then "" else "." ++ toString n.suffix)

/-- A backup that was only begun has no contents. -/
structure World (σ : Type) where
  database : Database σ
  foreignKeys : Bool := true
  backups : List (BackupName × Option (Database σ)) := []
  tick : Nat := 0
deriving DecidableEq, Repr

structure Env (σ : Type) where
  files : List (MigrationFile σ)
  dbName : String
  isNonempty : σ → Bool
  /-- `PRAGMA foreign_key_check` finds a violation. -/
  violates : σ → Bool
  /-- Which calls of SQLite fail. -/
  fails : Nat → Bool
  integrityOk : Nat → Bool

abbrev Migrate (σ α : Type) := Prog MigrationError (World σ) α

section
variable {σ : Type} (env : Env σ)

def sqlite (message : String) : Migrate σ Unit := do
  let w ← get
  set { w with tick := w.tick + 1 }
  if env.fails w.tick then throw (.migration message) else pure ()

/-- `_migration_files`. -/
def migrationFiles : Except MigrationError (List (MigrationFile σ)) := do
  let _ ← env.files.foldlM (fun seen file =>
    if file.version ∈ seen then
      .error (.migration ("Duplicate migration version: " ++ toString file.version))
    else .ok (file.version :: seen)) ([] : List Nat)
  pure (env.files.insertionSort fun a b => a.version ≤ b.version)

def currentVersion : Migrate σ Nat := do
  sqlite env "Could not read the database schema version"
  let w ← get
  pure w.database.userVersion

/-- The first number from `suffix` on whose name is free. -/
def nextSuffix (names : List BackupName) (version : Nat) : Nat → Nat → Nat
  | 0,suffix => suffix
  | fuel + 1,suffix =>
    if ⟨version,suffix⟩ ∈ names then nextSuffix names version fuel (suffix + 1) else suffix

/-- `_next_backup_path`. -/
def nextBackupPath (names : List BackupName) (version : Nat) : BackupName :=
  ⟨version,nextSuffix names version (names.length + 1) 0⟩

/-- `_backup_database`. -/
def backupDatabase (version : Nat) : Migrate σ Unit := do
  let start ← get
  let path := nextBackupPath (start.backups.map Prod.fst) version
  let message := "Could not back up the database to " ++ path.fileName env.dbName
  sqlite env message
  modify fun w => { w with backups := start.backups ++ [(path,none)] }
  sqlite env message
  modify fun w => { w with backups := start.backups ++ [(path,some w.database)] }
  sqlite env message
  let w ← get
  if env.integrityOk w.tick then pure ()
  else throw (.migration ("Backup integrity check failed: " ++ path.fileName env.dbName))

/-- `_read_migration`. -/
def readMigration (file : MigrationFile σ) : Except MigrationError (σ → Option σ) :=
  match file.sql with
  | .unreadable => .error (.migration ("Could not read migration " ++ file.name))
  | .forbidden => .error (.migration ("Migration " ++ file.name ++
      " must not contain transaction statements or user_version"))
  | .script run => .ok run

/-- `_apply_migration`, on what `_read_migration` has read. -/
def applyMigration (file : MigrationFile σ) : Migrate σ Unit := do
  let script ← Prog.ofExcept (readMigration file)
  let message := "Migration " ++
    String.ofList (List.leftpad 3 '0' (Nat.toDigits 10 file.version)) ++ " failed"
  sqlite env message
  let w ← get
  match script w.database.contents with
  | some contents => set { w with database := ⟨file.version,contents⟩ }
  | none => throw (.migration message)

/-- The checks of the foreign keys are off during the scripts, and on again however they end. -/
def withoutForeignKeys (body : Migrate σ Unit) : Migrate σ Unit := do
  let raised ← tryCatch (do
    sqlite env "Database migration failed"
    modify fun w => { w with foreignKeys := false }
    body
    pure (none : Option MigrationError)) fun e => pure (some e)
  sqlite env "Could not restore SQLite foreign-key enforcement"
  modify fun w => { w with foreignKeys := true }
  match raised with
  | none => pure ()
  | some e => throw e

def migrate : Migrate σ Nat := do
  let migrations ← Prog.ofExcept (migrationFiles env)
  let latest := (migrations.getLast?.map fun file => file.version).getD 0
  let version ← currentVersion env
  if latest < version then
    throw (.schemaVersionTooNew ("Database schema version " ++ toString version ++
      " is newer than supported version " ++ toString latest))
  else
    let pending := migrations.filter fun file => version < file.version
    if pending.isEmpty then pure version
    else
      sqlite env "Could not inspect the existing database"
      let w ← get
      (if env.isNonempty w.database.contents then backupDatabase env version
        else pure () : Migrate σ Unit)
      withoutForeignKeys env (pending.forM (applyMigration env))
      sqlite env "Could not validate foreign-key constraints"
      let w ← get
      if env.violates w.database.contents then
        throw (.migration "Database migration left foreign-key violations")
      else currentVersion env

end

/-! ## Scripts in order -/

section
variable {σ : Type}

/-- The effect of a script, with the version that its transaction sets. -/
def MigrationFile.applyTo (d : Database σ) (file : MigrationFile σ) : Option (Database σ) := do
  let script ← (readMigration file).toOption
  let contents ← script d.contents
  pure ⟨file.version,contents⟩

/-- The scripts that follow a version. -/
def following (catalogue : List (MigrationFile σ)) (version : Nat) : List (MigrationFile σ) :=
  catalogue.filter fun file => version < file.version

/-- All scripts there ever were, in the order of their versions. -/
def Ordered (catalogue : List (MigrationFile σ)) : Prop :=
  catalogue.Pairwise fun a b => a.version < b.version

/-- The database after some of the scripts that follow its version, each once and in order. -/
def Upgraded (catalogue : List (MigrationFile σ)) (d d' : Database σ) : Prop :=
  ∃ applied rest, following catalogue d.userVersion = applied ++ rest ∧
    applied.foldlM MigrationFile.applyTo d = some d'

theorem Upgraded.refl (catalogue : List (MigrationFile σ)) (d : Database σ) :
    Upgraded catalogue d d :=
  ⟨[],_,rfl,rfl⟩

theorem applyTo_version {d d' : Database σ} {file : MigrationFile σ}
    (h : file.applyTo d = some d') : d'.userVersion = file.version := by
  obtain ⟨script,-,h⟩ := Option.bind_eq_some_iff.mp h
  obtain ⟨contents,-,h⟩ := Option.bind_eq_some_iff.mp h
  cases h
  rfl

/-- Once the first script that follows a version has run, the others follow. -/
theorem following_of_cons {catalogue rest : List (MigrationFile σ)} {file : MigrationFile σ}
    {version : Nat} (hordered : Ordered catalogue)
    (h : following catalogue version = file :: rest) : following catalogue file.version = rest := by
  have hpairwise : (file :: rest).Pairwise fun a b => a.version < b.version := by
    rw [← h]
    exact hordered.filter _
  have hfile : version < file.version := by
    have hmem : file ∈ following catalogue version := by
      rw [h]
      exact List.mem_cons_self
    simpa using (List.mem_filter.mp hmem).2
  have hagain : following catalogue file.version =
      (following catalogue version).filter fun f => file.version < f.version := by
    rw [following,following,List.filter_filter]
    refine List.filter_congr fun f _ => ?_
    by_cases hf : file.version < f.version
    · simp [hf,hfile.trans hf]
    · simp [hf]
  rw [hagain,h,List.filter_cons_of_neg (by simp)]
  refine List.filter_eq_self.mpr fun f hf => ?_
  simpa using (List.pairwise_cons.mp hpairwise).1 f hf

/-- After some of the scripts, the rest of them follow. -/
theorem following_of_applied {catalogue applied rest : List (MigrationFile σ)} {d d' : Database σ}
    (hordered : Ordered catalogue) (h : following catalogue d.userVersion = applied ++ rest)
    (hrun : applied.foldlM MigrationFile.applyTo d = some d') :
    following catalogue d'.userVersion = rest := by
  induction applied generalizing d with
  | nil =>
    cases hrun
    exact h
  | cons file applied ih =>
    rw [List.foldlM_cons] at hrun
    obtain ⟨m,hm,hrest⟩ := Option.bind_eq_some_iff.mp hrun
    refine ih ?_ hrest
    rw [applyTo_version hm]
    exact following_of_cons hordered h

theorem Upgraded.trans {catalogue : List (MigrationFile σ)} {d d' d'' : Database σ}
    (hordered : Ordered catalogue) (h : Upgraded catalogue d d')
    (h' : Upgraded catalogue d' d'') : Upgraded catalogue d d'' := by
  obtain ⟨applied,rest,hfollowing,hrun⟩ := h
  obtain ⟨applied',rest',hfollowing',hrun'⟩ := h'
  rw [following_of_applied hordered hfollowing hrun] at hfollowing'
  refine ⟨applied ++ applied',rest',by rw [hfollowing,hfollowing',List.append_assoc],?_⟩
  rw [List.foldlM_append,hrun]
  exact hrun'

end

/-! ## Backups -/

theorem nextSuffix_spec (names : List BackupName) (version : Nat) (fuel suffix : Nat)
    (hused : ∀ s < suffix, ⟨version,s⟩ ∈ names) :
    ⟨version,nextSuffix names version fuel suffix⟩ ∉ names ∨
      ∀ s < suffix + fuel, ⟨version,s⟩ ∈ names := by
  induction fuel generalizing suffix with
  | zero => exact .inr hused
  | succ fuel ih =>
    rw [nextSuffix]
    split
    · next hmem =>
      have hused' : ∀ s < suffix + 1, ⟨version,s⟩ ∈ names := by
        intro s hs
        rcases Nat.lt_succ_iff_lt_or_eq.mp hs with hlt | rfl
        · exact hused s hlt
        · exact hmem
      rw [show suffix + (fuel + 1) = suffix + 1 + fuel by omega]
      exact ih (suffix + 1) hused'
    · next hfree => exact .inl hfree

/-- A backup is never written over another one: there are fewer files than numbers tried. -/
theorem nextBackupPath_not_mem (names : List BackupName) (version : Nat) :
    nextBackupPath names version ∉ names := by
  refine (nextSuffix_spec names version (names.length + 1) 0 nofun).resolve_right fun hused => ?_
  rw [Nat.zero_add] at hused
  have hnodup : ((List.range (names.length + 1)).map fun s => (⟨version,s⟩ : BackupName)).Nodup :=
    List.nodup_range.map fun a b hab => (BackupName.mk.inj hab).2
  have hsubset : ((List.range (names.length + 1)).map fun s => (⟨version,s⟩ : BackupName)) ⊆
      names := by
    intro n hn
    obtain ⟨s,hs,rfl⟩ := List.mem_map.mp hn
    exact hused s (List.mem_range.mp hs)
  have hlength := (List.subperm_of_subset hnodup hsubset).length_le
  simp only [List.length_map,List.length_range] at hlength
  omega

/-! ## One start -/

section
variable {σ : Type} {env : Env σ}

theorem sqlite_run (message : String) (w : World σ) :
    sqlite env message w = (if env.fails w.tick then .error (.migration message) else .ok (),
      { w with tick := w.tick + 1 }) := by
  have hget : (get : Migrate σ (World σ)) w = (.ok w,w) := rfl
  have hset : (set { w with tick := w.tick + 1 } : Migrate σ PUnit) w =
      (.ok ⟨⟩,{ w with tick := w.tick + 1 }) := rfl
  rw [sqlite,Prog.bind_of_ok hget,Prog.bind_of_ok hset]
  split <;> rfl

/-- What says nothing about the number of calls, nor about the checks of the foreign keys. -/
def Steady (P : World σ → Prop) : Prop :=
  ∀ w w' : World σ, w'.database = w.database → w'.backups = w.backups → P w → P w'

section
variable {P Q : World σ → Prop} {E : World σ → Prop}

theorem sqlite_rule (hP : ∀ w, P w → P { w with tick := w.tick + 1 })
    (hE : ∀ w, P w → E { w with tick := w.tick + 1 }) (message : String) :
    Triple P (sqlite env message) (fun _ => P) fun _ => E := by
  intro w hw
  rw [sqlite_run]
  split
  · exact hE w hw
  · exact hP w hw

theorem Steady.sqlite (hP : Steady P) (hE : ∀ w, P w → E w) (hsteady : Steady E)
    (message : String) :
    Triple P (sqlite env message) (fun _ => P) fun _ => E :=
  sqlite_rule (fun w hw => hP w _ rfl rfl hw) (fun w hw => hsteady w _ rfl rfl (hE w hw)) message

theorem Steady.currentVersion (hP : Steady P) (hE : ∀ w, P w → E w) (hsteady : Steady E) :
    Triple P (currentVersion env) (fun v w => P w ∧ v = w.database.userVersion) fun _ => E :=
  (hP.sqlite hE hsteady _).seq fun _ => (Triple.read (Q := fun v w => P w ∧ v = w)
    fun _ hw => ⟨hw,rfl⟩).seq fun _ => Triple.ret fun _ hw => ⟨hw.1,by rw [hw.2]⟩

/-- The checks of the foreign keys are on again after the scripts. -/
theorem withoutForeignKeys_rule {body : Migrate σ Unit} (hP : Steady P) (hQ : Steady Q)
    (hE : Steady E) (hPE : ∀ w, P w → E w) (hQE : ∀ w, Q w → E w)
    (hbody : Triple P body (fun _ => Q) fun _ => E) :
    Triple P (withoutForeignKeys env body) (fun _ w => Q w ∧ w.foreignKeys = true)
      fun _ => E := by
  -- either the scripts have run, or one of them has raised
  refine Triple.seq (Q := fun raised w => (raised = none → Q w) ∧ E w) ?_ fun raised => ?_
  · refine Triple.handle (F := fun _ => E) ?_ fun e => Triple.ret fun w hw => ⟨nofun,hw⟩
    refine (hP.sqlite hPE hE _).seq fun _ => ?_
    refine Triple.seq (Q := fun _ => P) (Triple.write fun w hw => hP w _ rfl rfl hw) fun _ => ?_
    exact hbody.seq fun _ => Triple.ret fun w hw => ⟨fun _ => hw,hQE w hw⟩
  · have hsteady : Steady fun w => (raised = none → Q w) ∧ E w :=
      fun w w' hd hb hw => ⟨fun hnone => hQ w w' hd hb (hw.1 hnone),hE w w' hd hb hw.2⟩
    refine (hsteady.sqlite (fun _ hw => hw.2) hE _).seq fun _ => ?_
    refine Triple.seq (Q := fun _ w => ((raised = none → Q w) ∧ E w) ∧ w.foreignKeys = true)
      (Triple.write fun w hw => ⟨hsteady w _ rfl rfl hw,rfl⟩) fun _ => ?_
    cases raised with
    | none => exact Triple.ret fun w hw => ⟨hw.1.1 rfl,hw.2⟩
    | some e => exact Triple.raise fun w hw => hw.1.2

end

variable {catalogue : List (MigrationFile σ)} {d : Database σ}
  {b : List (BackupName × Option (Database σ))}

/-- A finished backup of `d` under a name that was free. -/
def Saved (d : Database σ) (b backups : List (BackupName × Option (Database σ))) : Prop :=
  ∃ name, name ∉ b.map Prod.fst ∧ (name,some d) ∈ backups

/-- Where a start that found the database `d` and the backups `b` may end. -/
structure Left (env : Env σ) (catalogue : List (MigrationFile σ)) (d : Database σ)
    (b : List (BackupName × Option (Database σ))) (w : World σ) : Prop where
  upgraded : Upgraded catalogue d w.database
  kept : b <+: w.backups
  saved : env.isNonempty d.contents = true → w.database = d ∨ Saved d b w.backups

theorem Left.steady : Steady (Left env catalogue d b) :=
  fun _ _ hd hb h => ⟨hd ▸ h.upgraded,hb ▸ h.kept,fun hne => by
    rw [hd,hb]
    exact h.saved hne⟩

/-- The database was not touched yet. -/
theorem Left.untouched {w : World σ} (hd : w.database = d) (hb : b <+: w.backups) :
    Left env catalogue d b w :=
  ⟨hd ▸ Upgraded.refl catalogue w.database,hb,fun _ => .inl hd⟩

/-- The state in front of the scripts. -/
def Ready (env : Env σ) (d : Database σ) (b : List (BackupName × Option (Database σ)))
    (w : World σ) : Prop :=
  w.database = d ∧ b <+: w.backups ∧ (env.isNonempty d.contents = true → Saved d b w.backups)

theorem backupDatabase_rule (version : Nat) :
    Triple (fun w => w.database = d ∧ w.backups = b) (backupDatabase env version)
      (fun _ w => w.database = d ∧ b <+: w.backups ∧ Saved d b w.backups)
      (fun _ => Left env catalogue d b) := by
  refine (Triple.read (Q := fun (start w : World σ) => (w.database = d ∧ w.backups = b) ∧
    start.backups = b) fun _ hw => ⟨hw,hw.2⟩).seq fun start => ?_
  have hfree := nextBackupPath_not_mem (start.backups.map Prod.fst) version
  generalize nextBackupPath (start.backups.map Prod.fst) version = path at hfree
  have hsteady : ∀ backups, Steady fun w : World σ =>
      (w.database = d ∧ w.backups = backups) ∧ start.backups = b :=
    fun _ _ _ hd hb h => ⟨⟨hd.trans h.1.1,hb.trans h.1.2⟩,h.2⟩
  have hleft : ∀ added (w : World σ), (w.database = d ∧ w.backups = start.backups ++ added) ∧
      start.backups = b → Left env catalogue d b w := by
    intro added w ⟨⟨hd,hb⟩,hs⟩
    refine Left.untouched hd ?_
    rw [hb,hs]
    exact List.prefix_append b added
  have hfirst : ∀ w : World σ, (w.database = d ∧ w.backups = b) ∧ start.backups = b →
      Left env catalogue d b w :=
    fun w hw => Left.untouched hw.1.1 (hw.1.2 ▸ List.prefix_refl _)
  refine ((hsteady b).sqlite hfirst Left.steady _).seq fun _ => ?_
  refine Triple.seq (Q := fun _ w => (w.database = d ∧ w.backups = start.backups ++
    [(path,none)]) ∧ start.backups = b) (Triple.write fun w hw => ⟨⟨hw.1.1,rfl⟩,hw.2⟩) fun _ => ?_
  refine ((hsteady _).sqlite (hleft _) Left.steady _).seq fun _ => ?_
  refine Triple.seq (Q := fun _ w => (w.database = d ∧ w.backups = start.backups ++
    [(path,some d)]) ∧ start.backups = b)
    (Triple.write fun w hw => ⟨⟨hw.1.1,by rw [hw.1.1]⟩,hw.2⟩) fun _ => ?_
  refine ((hsteady _).sqlite (hleft _) Left.steady _).seq fun _ => ?_
  refine (Triple.read (Q := fun (_ w : World σ) => (w.database = d ∧
    w.backups = start.backups ++ [(path,some d)]) ∧ start.backups = b) fun _ hw => hw).seq
    fun w => ?_
  split
  · refine Triple.ret fun w ⟨⟨hd,hb⟩,hs⟩ => ⟨hd,?_,path,?_,?_⟩
    · rw [hb,hs]
      exact List.prefix_append b _
    · rwa [← hs]
    · rw [hb]
      exact List.mem_append_right _ List.mem_cons_self
  · exact Triple.raise fun w hw => hleft _ w hw

/-- Some of the scripts have run, the rest is to come. -/
def Halfway (env : Env σ) (pending : List (MigrationFile σ)) (d : Database σ)
    (b : List (BackupName × Option (Database σ))) (rest : List (MigrationFile σ))
    (w : World σ) : Prop :=
  (∃ applied, pending = applied ++ rest ∧
    applied.foldlM MigrationFile.applyTo d = some w.database) ∧
  b <+: w.backups ∧ (env.isNonempty d.contents = true → Saved d b w.backups)

theorem Halfway.steady {pending rest : List (MigrationFile σ)} :
    Steady (Halfway env pending d b rest) := by
  intro w w' hd hb h
  rw [Halfway,hd,hb]
  exact h

theorem Halfway.left {pending rest : List (MigrationFile σ)} {w : World σ}
    (hpending : pending <+: following catalogue d.userVersion)
    (h : Halfway env pending d b rest w) : Left env catalogue d b w := by
  obtain ⟨⟨applied,hsplit,hrun⟩,hkept,hsaved⟩ := h
  obtain ⟨later,hlater⟩ := hpending
  refine ⟨⟨applied,rest ++ later,?_,hrun⟩,hkept,fun hne => .inr (hsaved hne)⟩
  rw [← hlater,hsplit,List.append_assoc]

/-- One script: the transaction is there as a whole, or not at all. -/
theorem applyMigration_rule {pending rest : List (MigrationFile σ)} {file : MigrationFile σ}
    (hpending : pending <+: following catalogue d.userVersion) :
    Triple (Halfway env pending d b (file :: rest)) (applyMigration env file)
      (fun _ => Halfway env pending d b rest) (fun _ => Left env catalogue d b) := by
  have hleft : ∀ w, Halfway env pending d b (file :: rest) w → Left env catalogue d b w :=
    fun w hw => hw.left hpending
  refine Triple.seq (Q := fun script w => Halfway env pending d b (file :: rest) w ∧
    readMigration file = .ok script)
    (Triple.ofExcept (fun script hscript w hw => ⟨hw,hscript⟩) fun _ _ w hw => hleft w hw)
    fun script => ?_
  · have hsteady : Steady fun w : World σ =>
        Halfway env pending d b (file :: rest) w ∧ readMigration file = .ok script :=
      fun w w' hd hb h => ⟨Halfway.steady w w' hd hb h.1,h.2⟩
    refine (hsteady.sqlite (fun w hw => hleft w hw.1) Left.steady _).seq fun _ => ?_
    refine (Triple.read (Q := fun v w => (Halfway env pending d b (file :: rest) w ∧
      readMigration file = .ok script) ∧ v = w) fun _ hw => ⟨hw,rfl⟩).seq fun v => ?_
    split
    · next contents hcontents =>
      intro w hw
      obtain ⟨⟨⟨⟨applied,hsplit,hrun⟩,hbacked⟩,hscript⟩,rfl⟩ := hw
      refine ⟨⟨applied ++ [file],by rw [hsplit,List.append_assoc]; rfl,?_⟩,hbacked⟩
      rw [List.foldlM_append,hrun]
      simp [MigrationFile.applyTo,hscript,hcontents,Except.toOption]
    · exact Triple.raise fun w hw => hleft w hw.1.1

/-- All scripts that follow the version of `d` have run. -/
def Complete (files : List (MigrationFile σ)) (d d' : Database σ) : Prop :=
  (following files d.userVersion).foldlM MigrationFile.applyTo d = some d'

theorem migrationFiles_ok {files : List (MigrationFile σ)} (h : migrationFiles env = .ok files) :
    files = env.files.insertionSort fun a b => a.version ≤ b.version := by
  obtain ⟨seen,-,h⟩ := Except.bind_eq_ok_iff.mp h
  exact (Except.ok.inj h).symm

/-- No version is there twice among files that are accepted. -/
theorem versions_nodup {files : List (MigrationFile σ)} {seen seen' : List Nat}
    (h : files.foldlM (fun seen file =>
      if file.version ∈ seen then
        Except.error (MigrationError.migration
          ("Duplicate migration version: " ++ toString file.version))
      else .ok (file.version :: seen)) seen = .ok seen') :
    (files.map fun file => file.version).Nodup ∧ ∀ file ∈ files, file.version ∉ seen := by
  induction files generalizing seen with
  | nil => exact ⟨List.nodup_nil,nofun⟩
  | cons file files ih =>
    rw [List.foldlM_cons,Except.bind_eq_ok_iff] at h
    obtain ⟨m,hm,hrest⟩ := h
    split at hm
    · cases hm
    · next hnew =>
      cases hm
      obtain ⟨hnodup,hfresh⟩ := ih hrest
      refine ⟨List.nodup_cons.mpr ⟨fun hmem => ?_,hnodup⟩,fun f hf => ?_⟩
      · obtain ⟨f,hf,hversion⟩ := List.mem_map.mp hmem
        exact hfresh f hf (by rw [hversion]; exact List.mem_cons_self)
      · rcases List.mem_cons.mp hf with rfl | hf
        · exact hnew
        · exact fun hseen => hfresh f hf (List.mem_cons_of_mem _ hseen)

theorem migrationFiles_ordered {files : List (MigrationFile σ)}
    (h : migrationFiles env = .ok files) : Ordered files := by
  rw [migrationFiles_ok h]
  obtain ⟨seen,hseen,-⟩ := Except.bind_eq_ok_iff.mp h
  have hnodup : ((env.files.insertionSort fun a b => a.version ≤ b.version).map
      fun file => file.version).Nodup :=
    ((List.perm_insertionSort _ env.files).map _).nodup_iff.mpr (versions_nodup hseen).1
  have htotal : Std.Total fun a b : MigrationFile σ => a.version ≤ b.version :=
    ⟨fun a b => Nat.le_total a.version b.version⟩
  have htrans : IsTrans (MigrationFile σ) fun a b => a.version ≤ b.version :=
    ⟨fun a b c => Nat.le_trans⟩
  have hsorted := List.pairwise_insertionSort (fun a b : MigrationFile σ => a.version ≤ b.version)
    env.files
  exact (hsorted.and (List.pairwise_map.mp hnodup)).imp fun h => Nat.lt_of_le_of_ne h.1 h.2

/-- A release ships the first scripts of the catalogue. -/
def Release (catalogue : List (MigrationFile σ)) (env : Env σ) : Prop :=
  (env.files.insertionSort fun a b => a.version ≤ b.version) <+: catalogue

theorem migrate_rule (hrelease : Release catalogue env) :
    Triple (fun w => w.database = d ∧ w.backups = b) (migrate env)
      (fun version w => Left env catalogue d b w ∧ version = w.database.userVersion ∧
        Complete (env.files.insertionSort fun a b => a.version ≤ b.version) d w.database ∧
        (w.database ≠ d → env.violates w.database.contents = false ∧ w.foreignKeys = true))
      (fun _ => Left env catalogue d b) := by
  let sorted := env.files.insertionSort fun a b => a.version ≤ b.version
  let Start : World σ → Prop := fun w => w.database = d ∧ w.backups = b
  have hstart : Steady Start := fun _ _ hd hb h => ⟨hd.trans h.1,hb.trans h.2⟩
  have hleft : ∀ w, Start w → Left env catalogue d b w :=
    fun w hw => Left.untouched hw.1 (hw.2 ▸ List.prefix_refl _)
  have hpending : following sorted d.userVersion <+: following catalogue d.userVersion :=
    hrelease.filter _
  refine Triple.seq (Q := fun files w => Start w ∧ files = sorted)
    (Triple.ofExcept (fun files hfiles w hw => ⟨hw,migrationFiles_ok hfiles⟩)
      fun _ _ w hw => hleft w hw) fun files => ?_
  have hfiles : Steady fun w => Start w ∧ files = sorted :=
    fun w w' hd hb h => ⟨hstart w w' hd hb h.1,h.2⟩
  refine (hfiles.currentVersion (fun w hw => hleft w hw.1) Left.steady).seq fun version => ?_
  refine Triple.weaken_pre (P := fun w => Start w ∧ (files = sorted ∧ version = d.userVersion)) ?_
    fun w hw => ⟨hw.1.1,hw.1.2,hw.2.trans (congrArg _ hw.1.1.1)⟩
  refine Triple.assume fun ⟨hsorted,hversion⟩ => ?_
  subst hversion hsorted
  dsimp only
  split
  -- a database that a newer release has left
  · exact Triple.raise hleft
  · split
    -- no script is pending
    · next hnone =>
      refine Triple.ret fun w hw => ⟨hleft w hw,by rw [hw.1],?_,fun hne => absurd hw.1 hne⟩
      have hempty : following sorted d.userVersion = [] := List.isEmpty_iff.mp hnone
      rw [Complete,hempty,hw.1]
      rfl
    · refine (hstart.sqlite hleft Left.steady _).seq fun _ => ?_
      refine (Triple.read (Q := fun v w => Start w ∧ v.database = d) fun _ hw => ⟨hw,hw.1⟩).seq
        fun v => Triple.assume fun hv => ?_
      have hready : Steady (Ready env d b) :=
        fun _ _ hd hb h => ⟨hd.trans h.1,hb ▸ h.2.1,hb ▸ h.2.2⟩
      -- from here on the database may change, so a backup of it is there unless it is empty
      refine Triple.seq (Q := fun _ => Ready env d b) ?_ fun _ => ?_
      · split
        · exact (backupDatabase_rule d.userVersion).strengthen_post fun _ w hw =>
            ⟨hw.1,hw.2.1,fun _ => hw.2.2⟩
        · next hempty =>
          refine Triple.ret fun w hw => ⟨hw.1,hw.2 ▸ List.prefix_refl _,fun hne => ?_⟩
          rw [hv] at hempty
          exact absurd hne hempty
      · refine Triple.seq (Q := fun _ w => Halfway env (following sorted d.userVersion) d b [] w ∧
          w.foreignKeys = true) ?_ fun _ => ?_
        · refine withoutForeignKeys_rule hready Halfway.steady Left.steady
            (fun w hw => Left.untouched hw.1 hw.2.1) (fun w hw => hw.left hpending) ?_
          refine Triple.weaken_pre (Triple.loop_rest (following sorted d.userVersion)
            fun file _ rest => applyMigration_rule hpending) fun w hw => ?_
          exact ⟨⟨[],rfl,by rw [hw.1]; rfl⟩,hw.2⟩
        -- all scripts have run; what is left are checks, which change nothing
        · have hhalfway : ∀ {w : World σ}, Halfway env (following sorted d.userVersion) d b [] w →
              Left env catalogue d b w := fun hw => hw.left hpending
          have hcomplete : ∀ {w : World σ}, Halfway env (following sorted d.userVersion) d b [] w →
              Complete sorted d w.database := by
            rintro w ⟨⟨applied,hsplit,hrun⟩,-⟩
            rw [List.append_nil] at hsplit
            rwa [Complete,hsplit]
          refine (sqlite_rule (fun w hw => hw) (fun w hw => hhalfway hw.1) _).seq fun _ => ?_
          refine (Triple.read (Q := fun v w => (Halfway env (following sorted d.userVersion) d b []
            w ∧ w.foreignKeys = true) ∧ v = w) fun _ hw => ⟨hw,rfl⟩).seq fun v => ?_
          split
          · exact Triple.raise fun w hw => hhalfway hw.1.1
          · next hvalid =>
            refine Triple.weaken_pre (P := fun w => (Halfway env (following sorted d.userVersion) d b
              [] w ∧ w.foreignKeys = true) ∧ env.violates w.database.contents = false) ?_
              fun w hw => ⟨hw.1,by rw [← hw.2]; exact Bool.eq_false_iff.mpr hvalid⟩
            refine (sqlite_rule (fun w hw => hw) (fun w hw => hhalfway hw.1.1) _).seq fun _ => ?_
            refine (Triple.read (Q := fun v w => ((Halfway env (following sorted d.userVersion) d b
              [] w ∧ w.foreignKeys = true) ∧ env.violates w.database.contents = false) ∧ v = w)
              fun _ hw => ⟨hw,rfl⟩).seq fun v => Triple.ret fun w hw => ?_
            exact ⟨hhalfway hw.1.1.1,by rw [hw.2],hcomplete hw.1.1.1,fun _ => ⟨hw.1.2,hw.1.1.2⟩⟩

/-- A start that succeeds returns the version of a database on which every script of the release
that follows the version it found has run once and in order; if it has changed the database, no
foreign key is violated, and the checks are on. -/
theorem migrate_ok {w w' : World σ} {version : Nat} (h : migrate env w = (.ok version,w')) :
    version = w'.database.userVersion ∧
      Complete (env.files.insertionSort fun a b => a.version ≤ b.version) w.database w'.database ∧
      following (env.files.insertionSort fun a b => a.version ≤ b.version) version = [] ∧
      (w'.database ≠ w.database →
        env.violates w'.database.contents = false ∧ w'.foreignKeys = true) := by
  have hrelease : Release (env.files.insertionSort fun a b => a.version ≤ b.version) env :=
    List.prefix_refl _
  have hrule := migrate_rule (d := w.database) (b := w.backups) hrelease w ⟨rfl,rfl⟩
  rw [h] at hrule
  obtain ⟨-,hversion,hcomplete,hvalid⟩ := hrule
  refine ⟨hversion,hcomplete,?_,hvalid⟩
  -- files of one version would have been refused
  have hordered : Ordered (env.files.insertionSort fun a b => a.version ≤ b.version) := by
    rw [migrate] at h
    obtain ⟨files,m,hread,-⟩ := Prog.ok_of_bind h
    have hfiles : migrationFiles env = .ok files := (Prod.mk.inj hread).1
    rw [← migrationFiles_ok hfiles]
    exact migrationFiles_ordered hfiles
  rw [hversion]
  exact following_of_applied hordered (List.append_nil _).symm hcomplete

end

/-! ## Any number of starts -/

section
variable {σ : Type} {catalogue : List (MigrationFile σ)}

/-- The contents are the names of the tables. -/
def twoScripts (fails : Nat → Bool) : Env (List String) where
  files := [⟨2,"002_sync_cursor.sql",.script fun t => some (t ++ ["sync_cursor"])⟩,
    ⟨1,"001_init.sql",.script fun t => some (t ++ ["messages"])⟩]
  dbName := "mail.db"
  isNonempty t := !t.isEmpty
  violates _ := false
  fails := fails
  integrityOk _ := true

/-- The two scripts in order. -/
abbrev bothScripts : List (MigrationFile (List String)) :=
  (twoScripts fun _ => false).files.insertionSort fun a b => a.version ≤ b.version

theorem migrate_run_new :
    migrate (twoScripts fun _ => false) { database := ⟨0,[]⟩ } =
      (.ok 2,{ database := ⟨2,["messages","sync_cursor"]⟩, tick := 8 }) := rfl

/-- A new database. -/
theorem migrate_ok_new :
    2 = (⟨2,["messages","sync_cursor"]⟩ : Database (List String)).userVersion ∧
      Complete bothScripts ⟨0,[]⟩ ⟨2,["messages","sync_cursor"]⟩ ∧
      following bothScripts 2 = [] ∧
      ((⟨2,["messages","sync_cursor"]⟩ : Database (List String)) ≠ ⟨0,[]⟩ →
        false = false ∧ true = true) :=
  migrate_ok migrate_run_new

end

end MailDock.Migrations
