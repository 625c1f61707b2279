import MailDock.Sync.Items

/-!
# Flag refresh

`refresh_flags` of `sync_mail.py`: the flags and Gmail labels of recent messages
are compared with the server's and stored in batches of 500 changes.
-/

namespace MailDock

open Hoare

/-- Updates waiting for the next flush of a flag refresh. -/
structure FlagQueue where
  changes : List (Nat × String) := []
  touches : List Nat := []
  labels : List (Nat × List String) := []
deriving DecidableEq, Repr

namespace FlagQueue

def size (q : FlagQueue) : Nat := q.changes.length + q.touches.length + q.labels.length

def putLabels (q : FlagQueue) (uid : Nat) (labels : List String) : FlagQueue :=
  { q with
    labels := if q.labels.any fun l => l.1 == uid then
        q.labels.map fun l => if l.1 = uid then (uid,labels) else l
      else q.labels ++ [(uid,labels)] }

end FlagQueue

/-- `tuple(sorted(a)) != tuple(sorted(b))`. -/
def labelsDiffer (a b : List String) : Bool :=
  a.insertionSort (· ≤ ·) != b.insertionSort (· ≤ ·)

/-- `_valid_sqlite_modseq`. -/
def validSqliteModseq (value : Option Nat) : Option Nat :=
  value.filter fun v => 0 < v && v ≤ 2 ^ 63 - 1

def savedModseqIsAhead (saved current : Option Nat) : Bool :=
  match saved,current with
  | some s,some c => c < s
  | _,_ => false

/-- What one refresh of a folder works on. -/
structure FlagRefresh where
  accountId : String
  google : Bool
  folder : Folder
  uidvalidity : Nat
  seenAt : String
  items : List (Message × Membership)
  expiredUids : List Nat

namespace FlagRefresh

def find? (r : FlagRefresh) (uid : Nat) : Option (Message × Membership) :=
  r.items.find? fun item => item.2.uid == some uid

def isLocal (r : FlagRefresh) (uid : Nat) : Bool := (r.find? uid).isSome

def localLabels (r : FlagRefresh) (uid : Nat) : List String :=
  ((r.find? uid).bind fun item => item.1.gmailLabels).getD []

/-- The record of a label update that goes into the membership snapshot. -/
def labelRecord (r : FlagRefresh) (q : FlagQueue) (update : Nat × List String) :
    Option MessageRecord :=
  (r.find? update.1).map fun item =>
    { item.1.toRecord item.2 with
      accountId := r.accountId
      folderId := r.folder.id
      imapFlags := (q.changes.lookup update.1).or item.2.imapFlags
      lastSeenAt := some r.seenAt
      gmailLabels := some update.2 }

end FlagRefresh

section
variable (env : Env) (r : FlagRefresh)

/-- The membership snapshots of the label updates of a Gmail account. -/
def appendLabelSnapshots (q : FlagQueue) : App Unit := do
  if r.google then
    let folders ← queryRepo env fun t => t.listFolders r.accountId
    if q.labels.isEmpty then pure ()
    else if folders.any fun f => f.id == r.folder.id then
      appendSnapshots env r.accountId (q.labels.filterMap (r.labelRecord q))
      flushAndSync env
    else throw ⟨.storage,"Gmail flag refresh lacks membership identity"⟩
  else pure ()

def flushFlagUpdates (q : FlagQueue) : App Unit := do
  if q.size = 0 then pure ()
  else
    appendLabelSnapshots env r q
    beginBatch env
    q.changes.forM fun c =>
      writeRepo env (.updateFlags r.accountId r.folder.id r.uidvalidity c.1 (some c.2) r.seenAt)
    (if q.touches.isEmpty then pure ()
      else writeRepo env (.touchFlagsSeenAt r.accountId r.folder.id r.uidvalidity q.touches
        r.seenAt) : App Unit)
    q.labels.forM fun l =>
      match r.find? l.1 with
      | some item => writeRepo env (.updateGmailLabels item.1.id l.2)
      | none => pure ()
    commitBatch env

/-- Flush once 500 updates wait. -/
def queued (q : FlagQueue) : App FlagQueue := do
  if 500 ≤ q.size then
    flushFlagUpdates env r q
    pure {}
  else pure q

def queueUpdate (q : FlagQueue) (ref : RemoteMessageRef) : App FlagQueue :=
  let q := { q with changes := q.changes ++ [(ref.uid," ".intercalate ref.flags)] }
  match ref.gmailLabels with
  | some labels =>
    if r.google && labelsDiffer labels (r.localLabels ref.uid) then
      queued env r (q.putLabels ref.uid labels)
    else queued env r q
  | none => queued env r q

def queueTouch (q : FlagQueue) (uid : Nat) : App FlagQueue :=
  queued env r { q with touches := q.touches ++ [uid] }

/-- Feed the reports of the server to `queue`; reports for other messages are passed over. -/
def queueReports (reports : List RemoteMessageRef × Option Error)
    (queue : FlagQueue → RemoteMessageRef → App FlagQueue) : App FlagQueue := do
  let q ← reports.1.foldlM (fun q ref => do
    raiseIfCancelled env
    if r.isLocal ref.uid then queue q ref else pure q) {}
  raiseFault reports.2
  raiseIfCancelled env
  pure q

def storeHighestModseq (value : Option Nat) : App Unit := do
  beginBatch env
  writeRepo env (.setHighestModseq r.folder.id value)
  commitBatch env

/-- The first refresh with CONDSTORE asks for the flags of every recent message. -/
def refreshBaseline (currentModseq : Nat) : App Unit := do
  let reports ← iterFlags env r.folder.rawName (r.items.filterMap fun item => item.2.uid) none
  let q ← queueReports env r reports (queueUpdate env r)
  flushFlagUpdates env r q
  storeHighestModseq env r (some currentModseq)

/-- Later ones ask for what changed since the saved MODSEQ. -/
def refreshChanged (savedModseq currentModseq : Nat) : App Unit := do
  let reports ← iterFlagsSince env r.folder.rawName savedModseq
  let q ← queueReports env r reports (queueUpdate env r)
  let silent := r.expiredUids.filter fun uid => !(reports.1.any fun ref => ref.uid == uid)
  let q ← silent.foldlM (queueTouch env r) q
  flushFlagUpdates env r q
  storeHighestModseq env r (some currentModseq)

/-- Without CONDSTORE only the expired messages are asked for. -/
def refreshExpired : App Unit := do
  let reports ← iterFlags env r.folder.rawName r.expiredUids none
  let q ← queueReports env r reports fun q ref =>
    let labelsChanged := r.google &&
      ref.gmailLabels.any fun labels => labelsDiffer labels (r.localLabels ref.uid)
    if ((r.find? ref.uid).bind fun item => item.2.imapFlags) = some (" ".intercalate ref.flags) &&
        !labelsChanged then queueTouch env r q ref.uid
    else queueUpdate env r q ref
  flushFlagUpdates env r q

end

section
variable (env : Env)

def refreshFlags (accountId : String) (google : Bool) (options : SyncOptions) (folder : Folder)
    (uidvalidity : Nat) (initialSyncCompleted : Bool) : App Unit := do
  if !options.flagRefreshEnabled || !initialSyncCompleted then pure ()
  else
    let t ← nextTick
    let now := env.clock t
    let items ← queryRepo env fun db => db.listFlagRefreshItems accountId folder.id uidvalidity
      (toUtcIso8601 (now.minusDays options.flagRefreshWindowDays))
    let r : FlagRefresh :=
      { accountId := accountId, google := google, folder := folder, uidvalidity := uidvalidity,
        seenAt := toUtcIso8601 now, items := items,
        expiredUids := (items.filter fun item => flagSeenAtIsExpired item.2.flagsSeenAt now
          options.flagRefreshMinIntervalSeconds).filterMap fun item => item.2.uid }
    let t ← nextTick
    let highest := validSqliteModseq (env.highestModseq t folder.rawName)
    let current := highest.filter fun _ => env.condstore
    let saved := validSqliteModseq folder.highestModseq
    let ahead := savedModseqIsAhead saved highest
    if r.expiredUids.isEmpty then
      if folder.highestModseq.isSome && (current.isNone || saved.isNone || ahead) then
        storeHighestModseq env r none
      else pure ()
    else match current,saved with
    | some current,some saved =>
      if ahead then refreshBaseline env r current else refreshChanged env r saved current
    | some current,none => refreshBaseline env r current
    | none,some _ => do
      refreshExpired env r
      storeHighestModseq env r none
    | none,none => refreshExpired env r

end

end MailDock
