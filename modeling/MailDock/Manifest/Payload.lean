import MailDock.Manifest.Events
import MailDock.Manifest.TornTail

/-!
# Events as records

The JSON object of every event, and what `_validate_event` asks of it.  The fields of
an event already have the types the schema wants, so that what is left are texts that
must not be empty, the mode of a remote delete, the keys of a link and time stamps
that `fromisoformat` reads.
-/

namespace MailDock

/-! ## Identity keys as text -/

/-- The alphabet of `base64.urlsafe_b64encode`. -/
def base64Char (n : Nat) : Char :=
  if n < 26 then Char.ofNat (0x41 + n)
  else if n < 52 then Char.ofNat (0x61 + (n - 26))
  else if n < 62 then Char.ofNat (0x30 + (n - 52))
  else if n = 62 then '-'
  else '_'

/-- `base64.urlsafe_b64encode(…).rstrip(b"=")`. -/
def base64Url : List UInt8 → List Char
  | [] => []
  | [a] => [base64Char (a.toNat / 4),base64Char (a.toNat % 4 * 16)]
  | [a,b] => [base64Char (a.toNat / 4),base64Char (a.toNat % 4 * 16 + b.toNat / 16),
      base64Char (b.toNat % 16 * 4)]
  | a :: b :: c :: rest => base64Char (a.toNat / 4) ::
      base64Char (a.toNat % 4 * 16 + b.toNat / 16) ::
      base64Char (b.toNat % 16 * 4 + c.toNat / 64) :: base64Char (c.toNat % 64) :: base64Url rest

/-- `imap_folder_key`. -/
def imapFolderKey (folderRawName : String) : String :=
  String.ofList (base64Url (Json.utf8Encode folderRawName.toList))

example : imapFolderKey "INBOX" = "SU5CT1g" := by decide

def SourceItemKey.text : SourceItemKey → String
  | .imap folderRawName uidvalidity uid => "imap:" ++ imapFolderKey folderRawName ++ ":" ++
      toString uidvalidity ++ ":" ++ toString uid
  | .gmail msgid => "gmail:" ++ toString msgid
  | .legacy text => text

/-- Only a key of an older manifest can be empty. -/
theorem SourceItemKey.text_eq_empty {key : SourceItemKey} (h : key.text = "") :
    key = .legacy "" := by
  cases key with
  | imap folderRawName uidvalidity uid =>
    have hlist := congrArg String.toList h
    simp [text] at hlist
  | gmail msgid =>
    have hlist := congrArg String.toList h
    simp [text] at hlist
  | legacy text => exact congrArg SourceItemKey.legacy h

/-! ## Payloads -/

def RemoteState.text : RemoteState → String
  | .present => "present"
  | .deleted => "deleted"
  | .moved => "moved"
  | .unknown => "unknown"
  | .uncertain => "uncertain"
  | .noRemote => "no_remote"

def EvidenceKind.text : EvidenceKind → String
  | .gmailMsgid => "gmail_msgid"
  | .copyuid => "copyuid"
  | .fileHashMove => "file_hash_move"
  | .mergedDuplicate => "merged_duplicate"
  | .normalized => "normalized"
  | .imapSourceKeyNormalized => "imap_source_key_normalized"

def StateEventKind.eventName : StateEventKind → String
  | .deleteDetected => "delete_detected"
  | .remoteStateUnknown => "remote_state_unknown"
  | .moved => "moved"

def optText : Option String → Json.Value
  | none => .null
  | some s => .str s

def optNat : Option Nat → Json.Value
  | none => .null
  | some n => .int n

/-- The decimal text of a Gmail id. -/
def optDecimal : Option Nat → Json.Value
  | none => .null
  | some n => .str (toString n)

def optTexts : Option (List String) → Json.Value
  | none => .null
  | some texts => .arr (texts.map Json.Value.str)

def MembershipEntry.value (m : MembershipEntry) : Json.Value :=
  .obj [("flags_seen_at",optText m.flagsSeenAt),("folder_raw_name",.str m.folderRawName),
    ("imap_flags",optText m.imapFlags),("last_seen_at",optText m.lastSeenAt),
    ("moved_to_folder_raw_name",optText m.movedToFolderRawName),
    ("remote_state",.str m.remoteState.text),("uid",optNat m.uid),
    ("uidvalidity",optNat m.uidvalidity)]

def FetchEvent.payload (e : FetchEvent) : Wire.Dict :=
  [("account_id",.str e.accountId),("deduplicated",.bool e.deduplicated),("event",.str "fetch"),
    ("file_hash",.str e.fileHash),("folder_id",.int e.folderId),
    ("folder_raw_name",.str e.folderRawName),("gmail_labels",optTexts e.gmailLabels),
    ("gmail_msgid",optDecimal e.gmailMsgid),("gmail_thrid",optDecimal e.gmailThrid),
    ("internal_date",optText e.internalDate),("message_id",optText e.messageId),
    ("relative_path",.str e.relativePath),("size_bytes",.int e.sizeBytes),
    ("source_item_key",.str e.sourceItemKey.text),("timestamp",.str e.timestamp),
    ("uid",.int e.uid),("uidvalidity",.int e.uidvalidity)]

def FetchSkippedEvent.payload (e : FetchSkippedEvent) : Wire.Dict :=
  [("account_id",.str e.accountId),("event",.str "fetch_skipped"),("folder_id",.int e.folderId),
    ("folder_raw_name",.str e.folderRawName),("reason",.str e.reason),
    ("size_bytes",.int e.sizeBytes),("timestamp",.str e.timestamp),("uid",.int e.uid),
    ("uidvalidity",.int e.uidvalidity)]

/-- `moved_to_folder_raw_name` is only there when the folder has a name. -/
def StateEvent.payload (e : StateEvent) : Wire.Dict :=
  [("account_id",.str e.accountId),("content_key",.str e.contentKey),
    ("event",.str e.kind.eventName),("file_hash",optText e.fileHash),
    ("folder_raw_name",.str e.folderRawName),("message_id",optText e.messageId)] ++
  (match e.movedToFolderRawName with
    | none => []
    | some destination => [("moved_to_folder_raw_name",.str destination)]) ++
  [("source_item_key",.str e.sourceItemKey.text),("timestamp",.str e.timestamp),
    ("uid",.int e.uid),("uidvalidity",.int e.uidvalidity)]

def CheckpointEvent.payload (e : CheckpointEvent) : Wire.Dict :=
  [("account_id",.str e.accountId),("batch_id",.str e.batchId),("event",.str "checkpoint"),
    ("sequence",.int e.sequence),("timestamp",.str e.timestamp)]

def AccountSnapshotEvent.payload (e : AccountSnapshotEvent) : Wire.Dict :=
  [("account_id",.str e.accountId),("auth_type",.str e.authType),
    ("ca_cert_path",optText e.caCertPath),("display_name",optText e.displayName),
    ("event",.str "account_snapshot"),("host",.str e.host),("is_enabled",.bool e.isEnabled),
    ("oauth_client_id",optText e.oauthClientId),("oauth_provider",optText e.oauthProvider),
    ("oauth_tenant",optText e.oauthTenant),("port",.int e.port),
    ("provider_type",.str e.providerType),("timestamp",.str e.timestamp),
    ("tls_mode",.str e.tlsMode),("username",.str e.username)]

def FolderSnapshotEvent.payload (e : FolderSnapshotEvent) : Wire.Dict :=
  [("account_id",.str e.accountId),("delimiter",optText e.delimiter),
    ("display_name",.str e.displayName),("event",.str "folder_snapshot"),
    ("folder_raw_name",.str e.folderRawName),("is_sync_target",.bool e.isSyncTarget),
    ("timestamp",.str e.timestamp),("uidvalidity",optNat e.uidvalidity)]

def PurgeEvent.payload (eventName : String) (e : PurgeEvent) : Wire.Dict :=
  [("account_id",.str e.accountId),("event",.str eventName),("file_hash",.str e.fileHash),
    ("physical_delete",.bool e.physicalDelete),("relative_path",.str e.relativePath),
    ("shared_reference_count",.int e.sharedReferenceCount),
    ("source_item_key",.str e.sourceItemKey.text),("timestamp",.str e.timestamp)]

def RemoteDeleteEvent.payload (e : RemoteDeleteEvent) : Wire.Dict :=
  [("account_id",.str e.accountId),("event",.str e.stage.eventName),
    ("folder_raw_name",.str e.folderRawName),("mode",.str e.mode.text),
    ("timestamp",.str e.timestamp),("uid",.int e.uid),("uidvalidity",.int e.uidvalidity)]

/-- `gmail_labels` is only there when the record has labels. -/
def MembershipSnapshotEvent.payload (e : MembershipSnapshotEvent) : Wire.Dict :=
  [("account_id",.str e.accountId),("event",.str "message_membership_snapshot")] ++
  (match e.gmailLabels with
    | none => []
    | some labels => [("gmail_labels",.arr (labels.map Json.Value.str))]) ++
  [("memberships",.arr (e.memberships.map MembershipEntry.value)),
    ("source_item_key",.str e.sourceItemKey.text),("timestamp",.str e.timestamp)]

def IdentityLinkEvent.payload (e : IdentityLinkEvent) : Wire.Dict :=
  [("account_id",.str e.accountId),("alias_source_item_key",.str e.aliasSourceItemKey.text),
    ("canonical_source_item_key",.str e.canonicalSourceItemKey.text),
    ("event",.str "message_identity_linked"),("evidence_kind",.str e.evidenceKind.text),
    ("file_hash",.str e.fileHash),("timestamp",.str e.timestamp)]

def ManifestEvent.payload : ManifestEvent → Wire.Dict
  | .fetch e => e.payload
  | .fetchSkipped e => e.payload
  | .state e => e.payload
  | .checkpoint e => e.payload
  | .accountSnapshot e => e.payload
  | .folderSnapshot e => e.payload
  | .purgeIntent e => e.payload "purge_intent"
  | .purged e => e.payload "purged"
  | .remoteDelete e => e.payload
  | .membershipSnapshot e => e.payload
  | .identityLinked e => e.payload

/-! ## What the schema asks -/

namespace Wire

variable {rt : Runtime}

theorem require_eq_ok {condition : Bool} {exception : Exception} {message : String} :
    require condition exception message = .ok () ↔ condition = true := by
  cases condition with
  | true => exact iff_of_true rfl rfl
  | false => exact iff_of_false (fun h => by cases h) (fun h => by cases h)

theorem forM_cons_eq_ok {α : Type} {f : α → Except Raised Unit} {a : α} {as : List α} :
    (a :: as).forM f = .ok () ↔ f a = .ok () ∧ as.forM f = .ok () := by
  show (f a >>= fun _ => as.forM f) = .ok () ↔ _
  rw [Except.bind_eq_ok_iff]
  exact ⟨fun ⟨⟨⟩,ha,has⟩ => ⟨ha,has⟩,fun ⟨ha,has⟩ => ⟨(),ha,has⟩⟩

theorem forM_eq_ok {α : Type} {f : α → Except Raised Unit} {as : List α} :
    as.forM f = .ok () ↔ ∀ a ∈ as, f a = .ok () := by
  induction as with
  | nil => exact iff_of_true rfl fun a ha => by cases ha
  | cons a as ih => rw [forM_cons_eq_ok,ih,List.forall_mem_cons]

theorem then_eq_ok {x y : Except Raised Unit} :
    (x >>= fun _ => y) = .ok () ↔ x = .ok () ∧ y = .ok () := by
  rw [Except.bind_eq_ok_iff]
  exact ⟨fun ⟨⟨⟩,hx,hy⟩ => ⟨hx,hy⟩,fun ⟨hx,hy⟩ => ⟨(),hx,hy⟩⟩

theorem requireText_eq_ok {payload : Dict} {eventName field s : String}
    (hget : payload.get field = some (.str s)) :
    requireText payload eventName field = .ok () ↔ s ≠ "" := by
  rw [requireText,hget,require_eq_ok]
  exact decide_eq_true_iff

/-- The loops over `_require_text`, with the texts of the fields. -/
theorem forM_requireText_eq_ok {payload : Dict} {eventName : String} :
    ∀ {fields : List String} (texts : List String),
      fields.map payload.get = texts.map (fun s => some (.str s)) →
      (fields.forM (requireText payload eventName) = .ok () ↔ ∀ s ∈ texts, s ≠ "")
  | [],[],_ => iff_of_true rfl fun s hs => by cases hs
  | field :: fields,s :: texts,hget => by
    obtain ⟨hfield,hfields⟩ := List.cons_eq_cons.mp hget
    rw [forM_cons_eq_ok,requireText_eq_ok hfield,forM_requireText_eq_ok texts hfields,
      List.forall_mem_cons]

/-- `_parse_timestamp` takes the text. -/
def Clocked (rt : Runtime) (text : String) : Prop :=
  ∃ month, parseTimestamp rt (some (.str text)) = .ok month

/-- The two checks that come first, and the checks of the name. -/
theorem validateEvent_eq_ok {payload : Dict} {timestamp : String} (name : EventName)
    (hname : eventNameOf payload = some name)
    (htimestamp : payload.get "timestamp" = some (.str timestamp)) :
    validateEvent rt payload = .ok () ↔
      Clocked rt timestamp ∧ validateFields rt name payload = .ok () := by
  unfold validateEvent
  rw [hname,htimestamp]
  dsimp only
  rw [Except.bind_eq_ok_iff]
  exact ⟨fun ⟨month,hmonth,h⟩ => ⟨⟨month,hmonth⟩,h⟩,fun ⟨⟨month,hmonth⟩,h⟩ => ⟨month,hmonth,h⟩⟩

end Wire

open Wire

variable {rt : Runtime}

theorem optText_accepted (text : Option String) :
    (isNone (some (optText text)) || isStr (some (optText text))) = true := by
  cases text with
  | none => rfl
  | some text => rfl

theorem optNat_accepted (n : Option Nat) :
    (isNone (some (optNat n)) || isInt (some (optNat n))) = true := by
  cases n with
  | none => rfl
  | some n => rfl

theorem FetchEvent.accepted_iff (e : FetchEvent) : Wire.validateEvent rt e.payload = .ok () ↔
    Clocked rt e.timestamp ∧ ∀ text ∈ e.internalDate, Clocked rt text := by
  rw [validateEvent_eq_ok .fetch rfl rfl]
  refine and_congr_right fun _ => ?_
  show validateFetch rt e.payload = .ok () ↔ _
  unfold validateFetch
  rw [then_eq_ok,then_eq_ok,then_eq_ok,then_eq_ok,then_eq_ok]
  have hdate : e.payload.get "internal_date" = some (optText e.internalDate) := rfl
  rw [and_iff_right (show requireFields e.payload _ _ = .ok () from rfl),
    and_iff_right (show require (isInt (e.payload.get "uid")) _ _ = .ok () from rfl),
    and_iff_right (show require (isInt (e.payload.get "uidvalidity")) _ _ = .ok () from rfl),
    and_iff_right (show require (isInt (e.payload.get "size_bytes")) _ _ = .ok () from rfl),
    and_iff_right (show require (isBool (e.payload.get "deduplicated")) _ _ = .ok () from rfl),hdate]
  cases e.internalDate with
  | none => exact iff_of_true rfl fun text htext => by cases htext
  | some text =>
    rw [if_neg (show ¬ isNone (some (optText (some text))) = true from fun h => by cases h),
      Except.bind_eq_ok_iff]
    constructor
    · rintro ⟨⟨⟩,-,h⟩ text' htext
      obtain ⟨month,hmonth,-⟩ := Except.bind_eq_ok_iff.mp h
      cases htext
      exact ⟨month,hmonth⟩
    · intro h
      obtain ⟨month,hmonth⟩ := h text rfl
      exact ⟨(),rfl,Except.bind_eq_ok_iff.mpr ⟨month,hmonth,rfl⟩⟩

theorem FetchSkippedEvent.accepted_iff (e : FetchSkippedEvent) :
    Wire.validateEvent rt e.payload = .ok () ↔ Clocked rt e.timestamp := by
  rw [validateEvent_eq_ok .fetchSkipped rfl rfl]
  exact and_iff_left rfl

theorem CheckpointEvent.accepted_iff (e : CheckpointEvent) :
    Wire.validateEvent rt e.payload = .ok () ↔
      Clocked rt e.timestamp ∧ e.accountId ≠ "" ∧ e.batchId ≠ "" := by
  rw [validateEvent_eq_ok .checkpoint rfl rfl]
  refine and_congr_right fun _ => ?_
  show validateCheckpoint e.payload = .ok () ↔ _
  unfold validateCheckpoint
  rw [then_eq_ok,then_eq_ok,then_eq_ok,
    and_iff_right (show requireFields e.payload _ _ = .ok () from rfl),
    requireText_eq_ok (show e.payload.get "account_id" = some (.str e.accountId) from rfl),
    requireText_eq_ok (show e.payload.get "batch_id" = some (.str e.batchId) from rfl)]
  have hsequence : validateCheckpointSequence (e.payload.get "sequence") none =
      .ok (e.sequence : Int) := by
    show validateCheckpointSequence (some (.int e.sequence)) none = _
    rw [validateCheckpointSequence,if_neg (by omega),if_neg (by simp)]
  rw [hsequence]
  exact and_congr_right fun _ => and_iff_left rfl

theorem AccountSnapshotEvent.accepted_iff (e : AccountSnapshotEvent) :
    Wire.validateEvent rt e.payload = .ok () ↔
      Clocked rt e.timestamp ∧ e.accountId ≠ "" ∧ e.providerType ≠ "" ∧ e.host ≠ "" ∧
        e.username ≠ "" ∧ (e.payload.all fun field => secretFieldParts.all fun part =>
          !decide (part.toList <:+: (rt.casefold field.1).toList)) = true := by
  rw [validateEvent_eq_ok .accountSnapshot rfl rfl]
  refine and_congr_right fun _ => ?_
  show validateAccountSnapshot rt e.payload = .ok () ↔ _
  unfold validateAccountSnapshot
  have hname : require (isNone (e.payload.get "display_name") ||
      isStr (e.payload.get "display_name")) .typeError
      "account_snapshot event display_name must be a string or null" = .ok () := by
    rw [require_eq_ok]
    exact optText_accepted e.displayName
  rw [then_eq_ok,then_eq_ok,then_eq_ok,then_eq_ok,then_eq_ok,then_eq_ok,
    and_iff_right (show requireFields e.payload _ _ = .ok () from rfl),
    requireText_eq_ok (show e.payload.get "account_id" = some (.str e.accountId) from rfl),
    forM_requireText_eq_ok [e.providerType,e.host,e.username] rfl,and_iff_right hname,
    and_iff_right (show require (!e.payload.has "is_enabled" || isBool (e.payload.get "is_enabled") ||
      isInt (e.payload.get "is_enabled")) _ _ = .ok () from rfl),
    and_iff_right (show require (isInt (e.payload.get "port")) _ _ = .ok () from rfl),
    require_eq_ok]
  simp only [List.mem_cons,List.not_mem_nil,or_false,forall_eq_or_imp,forall_eq,and_assoc]

/-- Only `moved` asks more than a time stamp. -/
theorem StateEvent.accepted_iff (e : StateEvent) : Wire.validateEvent rt e.payload = .ok () ↔
    Clocked rt e.timestamp ∧ (e.kind = .moved → e.accountId ≠ "" ∧ e.folderRawName ≠ "" ∧
      (∃ destination, e.movedToFolderRawName = some destination ∧ destination ≠ "") ∧
        e.sourceItemKey.text ≠ "") := by
  obtain ⟨kind,accountId,folderRawName,uid,uidvalidity,key,messageId,contentKey,fileHash,timestamp,
    destination⟩ := e
  cases kind with
  | deleteDetected =>
    cases destination with
    | none =>
      rw [validateEvent_eq_ok .deleteDetected rfl rfl]
      exact and_congr_right fun _ => iff_of_true rfl fun h => by cases h
    | some destination =>
      rw [validateEvent_eq_ok .deleteDetected rfl rfl]
      exact and_congr_right fun _ => iff_of_true rfl fun h => by cases h
  | remoteStateUnknown =>
    cases destination with
    | none =>
      rw [validateEvent_eq_ok .remoteStateUnknown rfl rfl]
      exact and_congr_right fun _ => iff_of_true rfl fun h => by cases h
    | some destination =>
      rw [validateEvent_eq_ok .remoteStateUnknown rfl rfl]
      exact and_congr_right fun _ => iff_of_true rfl fun h => by cases h
  | moved =>
    cases destination with
    | none =>
      rw [validateEvent_eq_ok .moved rfl rfl]
      refine and_congr_right fun _ => iff_of_false (fun h => by cases h) fun h => ?_
      obtain ⟨-,-,⟨destination,hsome,-⟩,-⟩ := h rfl
      cases hsome
    | some destination =>
      rw [validateEvent_eq_ok .moved rfl rfl]
      refine and_congr_right fun _ => ?_
      show validateMoved _ = .ok () ↔ _
      unfold validateMoved
      rw [then_eq_ok,then_eq_ok,then_eq_ok,
        forM_requireText_eq_ok [accountId,folderRawName,destination,key.text] rfl]
      simp only [List.mem_cons,List.not_mem_nil,or_false,forall_eq_or_imp,forall_eq]
      constructor
      · rintro ⟨-,⟨haccount,hfolder,hdestination,hkey⟩,-⟩ -
        exact ⟨haccount,hfolder,⟨destination,rfl,hdestination⟩,hkey⟩
      · intro h
        obtain ⟨haccount,hfolder,⟨_,hsome,hdestination⟩,hkey⟩ := h trivial
        cases hsome
        exact ⟨rfl,⟨haccount,hfolder,hdestination,hkey⟩,rfl,rfl⟩

theorem FolderSnapshotEvent.accepted_iff (e : FolderSnapshotEvent) :
    Wire.validateEvent rt e.payload = .ok () ↔
      Clocked rt e.timestamp ∧ e.accountId ≠ "" ∧ e.folderRawName ≠ "" ∧ e.displayName ≠ "" := by
  rw [validateEvent_eq_ok .folderSnapshot rfl rfl]
  refine and_congr_right fun _ => ?_
  show validateFolderSnapshot e.payload = .ok () ↔ _
  unfold validateFolderSnapshot
  have huidvalidity : require (isNone (e.payload.get "uidvalidity") ||
      isInt (e.payload.get "uidvalidity")) .typeError
      "folder_snapshot event uidvalidity must be an integer or null" = .ok () := by
    rw [require_eq_ok]
    exact optNat_accepted e.uidvalidity
  have hdelimiter : require (isNone (e.payload.get "delimiter") ||
      isStr (e.payload.get "delimiter")) .typeError
      "folder_snapshot event delimiter must be a string or null" = .ok () := by
    rw [require_eq_ok]
    exact optText_accepted e.delimiter
  rw [then_eq_ok,then_eq_ok,then_eq_ok,then_eq_ok,
    and_iff_right (show requireFields e.payload _ _ = .ok () from rfl),
    forM_requireText_eq_ok [e.accountId,e.folderRawName,e.displayName] rfl,
    and_iff_right huidvalidity,and_iff_right hdelimiter,
    and_iff_left (show require (!e.payload.has "is_sync_target" ||
      isBool (e.payload.get "is_sync_target") || isInt (e.payload.get "is_sync_target")) _ _ = .ok ()
      from rfl)]
  simp only [List.mem_cons,List.not_mem_nil,or_false,forall_eq_or_imp,forall_eq]

/-- Both purge events have the same fields. -/
theorem PurgeEvent.accepted_iff (e : PurgeEvent) (name : EventName)
    (hname : name = .purgeIntent ∨ name = .purged) :
    Wire.validateEvent rt (e.payload name.text) = .ok () ↔
      Clocked rt e.timestamp ∧ e.accountId ≠ "" ∧ e.sourceItemKey.text ≠ "" ∧
        e.relativePath ≠ "" ∧ e.fileHash ≠ "" := by
  have hevent : eventNameOf (e.payload name.text) = some name := by
    rcases hname with rfl | rfl
    · rfl
    · rfl
  have hfields : validateFields rt name (e.payload name.text) =
      Wire.validatePurge name.text (e.payload name.text) := by
    rcases hname with rfl | rfl
    · rfl
    · rfl
  have hcount : require (isNonNegative ((e.payload name.text).get "shared_reference_count"))
      .typeError "purge event shared_reference_count must be a non-negative integer" = .ok () := by
    rw [require_eq_ok]
    show decide ((0 : Int) ≤ (e.sharedReferenceCount : Int)) = true
    exact decide_eq_true (Int.natCast_nonneg _)
  rw [validateEvent_eq_ok name hevent rfl,hfields]
  refine and_congr_right fun _ => ?_
  unfold Wire.validatePurge
  rw [then_eq_ok,then_eq_ok,then_eq_ok,
    and_iff_right (show requireFields (e.payload name.text) _ _ = .ok () from rfl),
    forM_requireText_eq_ok [e.accountId,e.sourceItemKey.text,e.relativePath,e.fileHash] rfl,
    and_iff_right hcount,
    and_iff_left (show require (isBool ((e.payload name.text).get "physical_delete")) _ _ = .ok ()
      from rfl)]
  simp only [List.mem_cons,List.not_mem_nil,or_false,forall_eq_or_imp,forall_eq]

def RemoteDeleteStage.name : RemoteDeleteStage → EventName
  | .intent => .remoteDeleteIntent
  | .completed => .remoteDeleteCompleted
  | .uncertain => .remoteDeleteUncertain

/-- The schema knows two of the three modes. -/
theorem validateMode_eq_ok {eventName : String} {mode : RemoteDeleteMode} :
    validateMode eventName (some (.str mode.text)) = .ok () ↔ mode ≠ .removeMembership := by
  cases mode with
  | trash => exact iff_of_true rfl (fun h => by cases h)
  | expunge => exact iff_of_true rfl (fun h => by cases h)
  | removeMembership => exact iff_of_false (fun h => by cases h) (fun h => h rfl)

theorem RemoteDeleteEvent.accepted_iff (e : RemoteDeleteEvent) :
    Wire.validateEvent rt e.payload = .ok () ↔ Clocked rt e.timestamp ∧ e.accountId ≠ "" ∧
      e.folderRawName ≠ "" ∧ e.mode ≠ .removeMembership := by
  have hevent : eventNameOf e.payload = some e.stage.name := by
    show (manifestEvents.find? fun name => name.text = e.stage.eventName) = _
    cases e.stage with
    | intent => rfl
    | completed => rfl
    | uncertain => rfl
  have hfields : validateFields rt e.stage.name e.payload =
      validateRemoteDelete e.stage.name.text e.payload := by
    cases e.stage with
    | intent => rfl
    | completed => rfl
    | uncertain => rfl
  rw [validateEvent_eq_ok e.stage.name hevent rfl,hfields]
  refine and_congr_right fun _ => ?_
  unfold validateRemoteDelete
  rw [then_eq_ok,then_eq_ok,then_eq_ok,then_eq_ok,then_eq_ok,
    and_iff_right (show requireFields e.payload _ _ = .ok () from rfl),
    requireText_eq_ok (show e.payload.get "account_id" = some (.str e.accountId) from rfl),
    requireText_eq_ok (show e.payload.get "folder_raw_name" = some (.str e.folderRawName) from rfl),
    and_iff_right (show require (isInt (e.payload.get "uid")) _ _ = .ok () from rfl),
    and_iff_right (show require (isInt (e.payload.get "uidvalidity")) _ _ = .ok () from rfl)]
  exact and_congr_right fun _ => and_congr_right fun _ => validateMode_eq_ok

theorem MembershipEntry.accepted_iff (m : MembershipEntry) :
    validateMembership m.value = .ok () ↔ m.folderRawName ≠ "" := by
  have hstate : isText (some (.str m.remoteState.text)) = true := by
    cases m.remoteState <;> rfl
  unfold MembershipEntry.value validateMembership
  rw [then_eq_ok,then_eq_ok,forM_eq_ok,forM_eq_ok,forM_eq_ok]
  simp only [List.mem_cons,List.not_mem_nil,or_false,forall_eq_or_imp,forall_eq,require_eq_ok]
  constructor
  · rintro ⟨⟨hname,-⟩,-⟩
    exact decide_eq_true_iff.mp hname
  · intro hname
    exact ⟨⟨decide_eq_true_iff.mpr hname,hstate⟩,
      ⟨optNat_accepted m.uid,optNat_accepted m.uidvalidity⟩,
      optText_accepted m.movedToFolderRawName,optText_accepted m.imapFlags,
      optText_accepted m.flagsSeenAt,optText_accepted m.lastSeenAt⟩

theorem isStringList_map (texts : List String) :
    isStringList (some (.arr (texts.map Json.Value.str))) = true := by
  show (texts.map Json.Value.str).all (fun label => isStr (some label)) = true
  rw [List.all_map,List.all_eq_true]
  exact fun text _ => rfl

theorem validateMembershipSnapshot_eq_ok {payload : Dict} {accountId key : String}
    {memberships : List MembershipEntry}
    (hfields : requireFields payload ["account_id","event","memberships","source_item_key",
      "timestamp"] "message_membership_snapshot" = .ok ())
    (haccount : payload.get "account_id" = some (.str accountId))
    (hkey : payload.get "source_item_key" = some (.str key))
    (hmemberships : payload.get "memberships" = some (.arr (memberships.map MembershipEntry.value)))
    (hlabels : (isNone (payload.get "gmail_labels") ||
      isStringList (payload.get "gmail_labels")) = true) :
    validateMembershipSnapshot payload = .ok () ↔
      accountId ≠ "" ∧ key ≠ "" ∧ ∀ m ∈ memberships, m.folderRawName ≠ "" := by
  unfold validateMembershipSnapshot
  rw [then_eq_ok,then_eq_ok,then_eq_ok,and_iff_right hfields,requireText_eq_ok haccount,
    requireText_eq_ok hkey,hmemberships,then_eq_ok,require_eq_ok,and_iff_left hlabels,forM_eq_ok,
    List.forall_mem_map]
  exact and_congr_right fun _ => and_congr_right fun _ => forall₂_congr fun m _ => m.accepted_iff

theorem MembershipSnapshotEvent.accepted_iff (e : MembershipSnapshotEvent) :
    Wire.validateEvent rt e.payload = .ok () ↔ Clocked rt e.timestamp ∧ e.accountId ≠ "" ∧
      e.sourceItemKey.text ≠ "" ∧ ∀ m ∈ e.memberships, m.folderRawName ≠ "" := by
  obtain ⟨accountId,key,memberships,labels,timestamp⟩ := e
  cases labels with
  | none =>
    rw [validateEvent_eq_ok .messageMembershipSnapshot rfl rfl]
    exact and_congr_right fun _ => validateMembershipSnapshot_eq_ok rfl rfl rfl rfl rfl
  | some labels =>
    rw [validateEvent_eq_ok .messageMembershipSnapshot rfl rfl]
    exact and_congr_right fun _ => validateMembershipSnapshot_eq_ok rfl rfl rfl rfl
      (isStringList_map labels)

theorem IdentityLinkEvent.accepted_iff (e : IdentityLinkEvent) :
    Wire.validateEvent rt e.payload = .ok () ↔ Clocked rt e.timestamp ∧ e.accountId ≠ "" ∧
      e.canonicalSourceItemKey.text ≠ "" ∧ e.aliasSourceItemKey.text ≠ "" ∧ e.fileHash ≠ "" ∧
        e.canonicalSourceItemKey.text ≠ e.aliasSourceItemKey.text := by
  rw [validateEvent_eq_ok .messageIdentityLinked rfl rfl]
  refine and_congr_right fun _ => ?_
  show validateIdentityLinked e.payload = .ok () ↔ _
  have hevidence : e.evidenceKind.text ≠ "" := by
    cases e.evidenceKind <;> decide
  unfold validateIdentityLinked
  rw [then_eq_ok,then_eq_ok,
    and_iff_right (show requireFields e.payload _ _ = .ok () from rfl),
    forM_requireText_eq_ok [e.accountId,e.canonicalSourceItemKey.text,e.aliasSourceItemKey.text,
      e.evidenceKind.text,e.fileHash] rfl]
  show _ ∧ require (e.canonicalSourceItemKey.text ≠ e.aliasSourceItemKey.text) _ _ = .ok () ↔ _
  rw [require_eq_ok]
  simp only [List.mem_cons,List.not_mem_nil,or_false,forall_eq_or_imp,forall_eq,decide_eq_true_eq,
    and_assoc,and_iff_right hevidence]

end MailDock
