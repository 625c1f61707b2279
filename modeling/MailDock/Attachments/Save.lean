import MailDock.Attachments.Folder

/-!
# Saving one attachment

`usecases/save_attachment.py`.  A plan is prepared and shown to the user, and committed afterwards.

## Main definitions

- `prepareAttachmentSave`, `commitAttachmentSave`
- `FirstFree` — how often the search for a name finds one taken
- `Tries` — the places a commit tries, one after the other

## Main result

- `attachmentSave_iff` — when a plan can be committed, and what a commit publishes
-/

namespace MailDock

namespace Attachments

open Hoare

variable {fs : FileSystem}

structure AttachmentSavePlan where
  relativePath : String
  expectedHash : String
  partIndex : Int
  filename : PyText
  warnings : List Warning
  isExecutable : Bool
deriving DecidableEq, Repr

def partAt (renderedParts : List MessagePart) (partIndex : Int) : Except Failure MessagePart :=
  if partIndex < 0 then .error (.storage "Attachment part index is out of range")
  else
    match renderedParts[partIndex.toNat]? with
    | none => .error (.storage "Attachment part index is out of range")
    | some part =>
      if part.isInline then
        .error (.storage "Inline MIME parts cannot be saved as attachments")
      else .ok part

/-- The loop of `_candidate_name`. -/
def candidateLoop (filename : PyText) : Nat → PyText → Nat → FileProg fs PyText
  | 0,_,_ => throw .unfinished
  | fuel + 1,candidate,counter => do
    if ← pathExists (here candidate) then
      candidateLoop filename fuel (counterName filename counter) (counter + 1)
    else pure candidate

def candidateName (fuel : Nat) (filename : PyText) : FileProg fs PyText :=
  candidateLoop filename fuel filename 1

/-! ## Counters -/

/-- The digits of `int`, which may have single underscores between them. -/
def readDigits (u : Unicodedata) (value : Nat) (afterDigit : Bool) : PyText → Option Nat
  | [] => if afterDigit then some value else none
  | c :: rest =>
    match u.decimal c with
    | some digit => readDigits u (value * 10 + digit) true rest
    | none => if c = .ofChar '_' ∧ afterDigit then readDigits u value false rest else none

/-- `int`, which raises a `ValueError` for other texts and for more than 4300 digits. -/
def parseInt (u : Unicodedata) (text : PyText) : Option Int :=
  let read := fun digits : PyText =>
    if 4300 < digits.countP (fun c => (u.decimal c).isSome) then none
    else (readDigits u 0 false digits).map Int.ofNat
  match text.strip with
  | [] => none
  | c :: digits =>
    if c = .ofChar '-' then (read digits).map fun n => -n
    else if c = .ofChar '+' then read digits
    else read (c :: digits)

/-- What stands behind the last `" ("`. -/
def afterMarker : PyText → Option PyText
  | [] => none
  | [_] => none
  | c :: d :: rest =>
    match afterMarker (d :: rest) with
    | some found => some found
    | none => if c = .ofChar ' ' ∧ d = .ofChar '(' then some rest else none

/-- `_next_counter`. -/
def nextCounter (u : Unicodedata) (destination : Place) : Int :=
  let stem := (splitSuffix destination.name).1
  match afterMarker stem with
  | none => 1
  | some number =>
    if stem.getLast? = some (.ofChar ')') then
      match parseInt u number.dropLast with
      | some n => n + 1
      | none => 1
    else 1

/-! ## The two steps -/

section
variable (u : Unicodedata) (render : String → String → Except Failure (List MessagePart))

/-- `filename if filename is not None else part.filename or ""`. -/
def requestedName (filename : Option PyText) (part : MessagePart) : PyText :=
  filename.getD (part.filename.getD [])

/-- `prepare_attachment_save`; `render` reads the stored mail and renders it. -/
def prepareAttachmentSave (fuel : Nat) (relativePath expectedHash : String) (partIndex : Int)
    (filename : Option PyText) : FileProg fs AttachmentSavePlan := do
  let w ← get
  if !w.isDirectory then throw (.storage "Attachment destination directory does not exist")
  let parts ← Prog.ofExcept (render relativePath expectedHash)
  let part ← Prog.ofExcept (partAt parts partIndex)
  let sanitized ← sanitize u (requestedName filename part)
  let chosenName ← candidateName fuel sanitized.name
  pure {
    relativePath := relativePath
    expectedHash := expectedHash
    partIndex := partIndex
    filename := chosenName
    warnings := sanitized.warnings
    isExecutable := sanitized.isExecutable }

/-- What `commit_attachment_save` checks again. -/
def revalidate (plan : AttachmentSavePlan) : Except Failure MessagePart := do
  let parts ← render plan.relativePath plan.expectedHash
  let part ← partAt parts plan.partIndex
  match sanitizeAttachmentName u plan.filename with
  | none => throw (.storage "Attachment destination is no longer safe")
  | some sanitized =>
    if sanitized.isExecutable ≠ plan.isExecutable then
      throw (.storage "Attachment security classification changed")
    else if sanitized.name ≠ plan.filename then
      throw (.storage "Attachment filename changed after confirmation")
    else pure part

/-- The loop without `overwrite`: a name that is taken meanwhile is replaced by one with the next
counter. -/
def publishLoop (plan : AttachmentSavePlan) (payload : List UInt8) :
    Nat → Place → FileProg fs Place
  | 0,_ => throw .unfinished
  | fuel + 1,destination =>
    tryCatch (do
      publish destination payload
      pure destination) fun
    | .fileExists => do
      let nextName ← candidateName fuel (counterName plan.filename (nextCounter u destination))
      let destination ← resolveWithin nextName
      publishLoop plan payload fuel destination
    | e => throw e

/-- `os.replace` of the temporary file. -/
def replaceFile (place : Place) (payload : List UInt8) : FileProg fs Unit := do
  others
  checkName place.name
  let w ← get
  if w.kindAt place = some .directory then throw .os
  else modify fun w => { w with entries := (fs.key place,.file payload) :: w.entries }

def commitAttachmentSave (fuel : Nat) (plan : AttachmentSavePlan) (overwrite : Bool) :
    FileProg fs Place := do
  let w ← get
  if !w.isDirectory then throw (.storage "Attachment destination directory is unavailable")
  let part ← Prog.ofExcept (revalidate u render plan)
  let destination ← tryCatch (resolveWithin plan.filename) fun
    | .value => throw (.storage "Attachment destination is no longer safe")
    | e => throw e
  tryCatch
    (if overwrite then do
      replaceFile destination part.payload
      pure destination
    else publishLoop u plan part.payload fuel destination) fun
    | .os => throw (.storage "Could not save attachment")
    | e => throw e

end

/-! ## The search for a name -/

/-- The folder after the others had their turn so often. -/
def Folder.after (w : Folder fs) : Nat → Folder fs
  | 0 => w
  | n + 1 => (w.after n).later

/-- The name is taken so often until it is not: each test sees the folder as it is then. -/
structure FirstFree (w : Folder fs) (filename : PyText) (k : Nat) : Prop where
  taken : ∀ j < k, (w.after (j + 1)).found (here (numberedName filename j)) = true
  free : (w.after (k + 1)).found (here (numberedName filename k)) = false

namespace Folder

theorem after_succ (w : Folder fs) (n : Nat) : w.after (n + 1) = (w.after n).later := rfl

theorem after_after (w : Folder fs) (m n : Nat) : (w.after m).after n = w.after (m + n) := by
  induction n with
  | zero => rfl
  | succ n ih =>
    rw [after_succ,ih,← after_succ,Nat.add_assoc]

theorem grows_after (w : Folder fs) (n : Nat) : w.Grows (w.after n) := by
  induction n with
  | zero => exact .refl w
  | succ n ih => exact ih.trans (.later _)

end Folder

theorem candidateLoop_ok {w w' : Folder fs} {filename candidate : PyText} {fuel : Nat} (m : Nat)
    (h : candidateLoop filename fuel (numberedName filename m) (m + 1) (w.after m) =
      (.ok candidate,w')) :
    ∃ k, m ≤ k ∧ (∀ j, m ≤ j → j < k →
      (w.after (j + 1)).found (here (numberedName filename j)) = true) ∧
      (w.after (k + 1)).found (here (numberedName filename k)) = false ∧
      candidate = numberedName filename k ∧ w' = w.after (k + 1) := by
  induction fuel generalizing m with
  | zero => cases h
  | succ fuel ih =>
    have hexists := pathExists_eq (w.after m) (here (numberedName filename m))
    rw [candidateLoop] at h
    by_cases haccepts : fs.accepts (here (numberedName filename m)).name = true
    · rw [if_pos haccepts] at hexists
      rw [Prog.bind_of_ok hexists] at h
      cases hfound : (w.after m).later.found (here (numberedName filename m)) with
      | false =>
        rw [hfound] at h
        cases h
        exact ⟨m,Nat.le_refl m,fun j hj hlt => by omega,hfound,rfl,rfl⟩
      | true =>
        rw [hfound] at h
        obtain ⟨k,hk,htaken,hfree,hcandidate,hw'⟩ := ih (m + 1) h
        refine ⟨k,by omega,fun j hj hlt => ?_,hfree,hcandidate,hw'⟩
        by_cases hjm : j = m
        · rw [hjm]
          exact hfound
        · exact htaken j (by omega) hlt
    · rw [if_neg haccepts] at hexists
      rw [Prog.bind_of_error hexists] at h
      cases h

theorem candidateName_ok {w w' : Folder fs} {filename candidate : PyText} {fuel : Nat}
    (h : candidateName fuel filename w = (.ok candidate,w')) :
    ∃ k, FirstFree w filename k ∧ candidate = numberedName filename k ∧ w' = w.after (k + 1) := by
  obtain ⟨k,-,htaken,hfree,hcandidate,hw'⟩ := candidateLoop_ok (w := w) 0 h
  exact ⟨k,⟨fun j hj => htaken j (Nat.zero_le j) hj,hfree⟩,hcandidate,hw'⟩

/-! ## Plans -/

section
variable {u : Unicodedata} {render : String → String → Except Failure (List MessagePart)}

theorem prepareAttachmentSave_ok {fuel : Nat} {relativePath expectedHash : String}
    {partIndex : Int} {filename : Option PyText} {w w' : Folder fs} {plan : AttachmentSavePlan}
    (h : prepareAttachmentSave u render fuel relativePath expectedHash partIndex filename w =
      (.ok plan,w')) :
    ∃ parts part sanitized k, render relativePath expectedHash = .ok parts ∧
      partAt parts partIndex = .ok part ∧
      sanitizeAttachmentName u (requestedName filename part) = some sanitized ∧
      FirstFree w sanitized.name k ∧ w' = w.after (k + 1) ∧
      plan = ⟨relativePath,expectedHash,partIndex,numberedName sanitized.name k,
        sanitized.warnings,sanitized.isExecutable⟩ := by
  rw [prepareAttachmentSave] at h
  obtain ⟨w₀,m₀,hget,h⟩ := Prog.ok_of_bind h
  cases hget
  cases hdirectory : w.isDirectory with
  | false =>
    rw [hdirectory] at h
    cases h
  | true =>
  rw [hdirectory] at h
  obtain ⟨parts,m₁,hparts,h⟩ := Prog.ok_of_bind h
  obtain ⟨part,m₂,hpart,h⟩ := Prog.ok_of_bind h
  obtain ⟨sanitized,m₃,hsanitized,h⟩ := Prog.ok_of_bind h
  obtain ⟨chosenName,m₄,hchosen,h⟩ := Prog.ok_of_bind h
  obtain ⟨hrendered,rfl⟩ := Prod.mk.inj hparts
  obtain ⟨hat,rfl⟩ := Prod.mk.inj hpart
  have hname : sanitizeAttachmentName u (requestedName filename part) = some sanitized ∧ w = m₃ := by
    rw [sanitize] at hsanitized
    cases hname : sanitizeAttachmentName u (requestedName filename part) with
    | none =>
      rw [hname] at hsanitized
      cases hsanitized
    | some s =>
      rw [hname] at hsanitized
      cases hsanitized
      exact ⟨rfl,rfl⟩
  obtain ⟨hname,rfl⟩ := hname
  obtain ⟨k,hfree,rfl,rfl⟩ := candidateName_ok hchosen
  cases h
  exact ⟨parts,part,sanitized,k,hrendered,hat,hname,hfree,rfl,rfl⟩

theorem revalidate_ok_iff {plan : AttachmentSavePlan} {parts : List MessagePart}
    {part : MessagePart} (hparts : render plan.relativePath plan.expectedHash = .ok parts)
    (hpart : partAt parts plan.partIndex = .ok part) :
    revalidate u render plan = .ok part ↔
      ∃ again, sanitizeAttachmentName u plan.filename = some again ∧
        again.isExecutable = plan.isExecutable ∧ again.name = plan.filename := by
  rw [revalidate,hparts]
  show (partAt parts plan.partIndex >>= _) = _ ↔ _
  rw [hpart]
  show (match sanitizeAttachmentName u plan.filename with
    | none => Except.error (Failure.storage "Attachment destination is no longer safe")
    | some sanitized =>
      if sanitized.isExecutable ≠ plan.isExecutable then
        .error (.storage "Attachment security classification changed")
      else if sanitized.name ≠ plan.filename then
        .error (.storage "Attachment filename changed after confirmation")
      else .ok part) = .ok part ↔ _
  cases hname : sanitizeAttachmentName u plan.filename with
  | none => simp
  | some again =>
    by_cases hexecutable : again.isExecutable = plan.isExecutable
    · by_cases hsame : again.name = plan.filename
      · simp [hexecutable,hsame]
      · simp [hexecutable,hsame]
    · simp [hexecutable]

theorem partAt_of_revalidate {plan : AttachmentSavePlan} {parts : List MessagePart}
    {part : MessagePart} (hparts : render plan.relativePath plan.expectedHash = .ok parts)
    (h : revalidate u render plan = .ok part) : partAt parts plan.partIndex = .ok part := by
  rw [revalidate,hparts] at h
  obtain ⟨q,hq,h⟩ := Except.bind_eq_ok_iff.mp h
  cases hpart : partAt parts plan.partIndex with
  | error e =>
    cases hq
    rw [hpart] at h
    cases h
  | ok p =>
    cases hq
    rw [hpart] at h
    obtain ⟨p',hp',h⟩ := Except.bind_eq_ok_iff.mp h
    cases hp'
    cases hname : sanitizeAttachmentName u plan.filename with
    | none =>
      rw [hname] at h
      cases h
    | some again =>
      rw [hname] at h
      simp only at h
      split_ifs at h
      · cases h
        rfl

theorem numberedName_zero (filename : PyText) : numberedName filename 0 = filename := rfl

theorem numberedName_succ (filename : PyText) (n : Nat) :
    numberedName filename (n + 1) = counterName filename (n + 1) := rfl

/-- When a numbered name passes the sanitizer unchanged. -/
theorem numberedName_stable (h : u.Lawful) {requested : PyText} {sanitized : SanitizedName}
    (hsanitized : sanitizeAttachmentName u requested = some sanitized) (k : Nat) :
    (Utf8.size (numberedName sanitized.name k) ≤ maxFilenameBytes ∧
      ∃ again, sanitizeAttachmentName u (numberedName sanitized.name k) = some again ∧
        again.isExecutable = sanitized.isExecutable ∧
        again.name = numberedName sanitized.name k) ↔
    if k = 0 then StableCut (cleanName u requested)
    else Utf8.size sanitized.name + 3 + (decimalText k).length ≤ maxFilenameBytes := by
  obtain ⟨hclean,hdevice⟩ := cleanName_clean h requested
  obtain ⟨hencodable,hname⟩ : Encodable (cleanName u requested) ∧
      sanitized.name = bounded (cleanName u requested) := by
    rcases sanitizeAttachmentName_eq h requested with ⟨hencodable,hname⟩ | ⟨-,hnone⟩
    · rw [hsanitized] at hname
      exact ⟨hencodable,Option.some.inj hname⟩
    · rw [hsanitized] at hnone
      cases hnone
  have hnormal : u.normalize sanitized.name = sanitized.name :=
    hname ▸ normalize_bounded h hclean.normal
  have hplain : ∀ c ∈ sanitized.name, Plain c := fun c hc =>
    hclean.plain c (bounded_subset _ (hname ▸ hc))
  have hencodable' : Encodable sanitized.name := hname ▸ encodable_bounded hencodable
  have hclass : ∀ {name : PyText} {again : SanitizedName},
      sanitizeAttachmentName u name = some again → extensionOf u again.name =
        extensionOf u sanitized.name → again.isExecutable = sanitized.isExecutable := by
    intro name again hagain hextension
    rw [isExecutable_sanitize hagain,isExecutable_sanitize hsanitized,hextension]
  cases k with
  | zero =>
    rw [if_pos rfl,numberedName_zero,← bounded_stable_iff h hclean hdevice,← hname]
    rcases sanitizeAttachmentName_eq h sanitized.name with ⟨-,hagain⟩ | ⟨hnot,-⟩
    · obtain ⟨again,hagain,hbounded⟩ := Option.map_eq_some_iff.mp hagain
      constructor
      · rintro ⟨-,again',hagain',-,hsame⟩
        rw [hagain] at hagain'
        cases hagain'
        exact hbounded.symm.trans hsame
      · intro hstable
        have hsame : again.name = sanitized.name := hbounded.trans hstable
        refine ⟨?_,again,hagain,hclass hagain (congrArg _ hsame),hsame⟩
        rw [hname]
        exact size_bounded_le _
    · exact absurd (encodable_cleanName hplain hnormal hencodable') hnot
  | succ n =>
    rw [if_neg (Nat.succ_ne_zero n),numberedName_succ]
    have hsize := size_counterName sanitized.name (n + 1 : Nat)
    have hdigit : 1 ≤ (decimalText (n + 1 : Nat)).length := by
      show 1 ≤ (pyText (Nat.toDigits 10 (n + 1))).length
      rw [pyText,List.length_map]
      exact Nat.length_toDigits_pos
    constructor
    · rintro ⟨hle,-⟩
      exact hsize ▸ hle
    · intro hle
      -- a name with room for a number has not been cut badly
      have hcuts : CutsWell (cleanName u requested) :=
        cutsWell_of_size (by rw [← hname]; omega)
      have hsafe : SafeName sanitized.name :=
        hname ▸ (safeName_bounded hclean hdevice).mpr hcuts
      have hfits : Utf8.size (counterName sanitized.name (n + 1 : Nat)) ≤ maxFilenameBytes :=
        hsize ▸ hle
      have hstable := sanitizeAttachmentName_counterName h hsafe hnormal hencodable' hfits
      obtain ⟨again,hagain,hsame⟩ := Option.map_eq_some_iff.mp hstable
      refine ⟨hfits,again,hagain,hclass hagain ?_,hsame⟩
      rw [hsame,extensionOf_counterName u hsafe.trailing]

/-! ## What is published -/

/-- The bytes by which a name is longer that was tried after a collision. -/
def counterBytes (counter : Int) (k : Nat) : Nat :=
  3 + (decimalText counter).length + if k = 0 then 0 else 3 + (decimalText k).length

/-- After so many accesses, a commit tries to publish at this place, under a name that is so much
longer than the planned one: at the planned place, and, where that place is taken when it tries,
under the first name that is found free from the next counter on. -/
inductive Tries (u : Unicodedata) (w : Folder fs) (filename : PyText) :
    Nat → PyText → Nat → Place → Prop
  | planned {place : Place} (resolved : (w.after 1).resolve filename = some place) :
    Tries u w filename 1 filename 0 place
  | again {accesses growth k : Nat} {name : PyText} {place next : Place}
    (h : Tries u w filename accesses name growth place)
    (taken : ((w.after (accesses + 1)).kindAt place).isSome = true)
    (free : FirstFree (w.after (accesses + 1)) (counterName filename (nextCounter u place)) k)
    (resolved : (w.after (accesses + k + 3)).resolve
      (numberedName (counterName filename (nextCounter u place)) k) = some next) :
    Tries u w filename (accesses + k + 3)
      (numberedName (counterName filename (nextCounter u place)) k)
      (counterBytes (nextCounter u place) k) next

/-- The name leads to a place that keeps to the limit: there is room for the name, or a link of that
name leads to a short one. -/
def Fits (w : Folder fs) (name : PyText) (room : Prop) : Prop :=
  match w.kindAt (here name) with
  | some (.link (.inside target)) => Utf8.size target.name ≤ maxFilenameBytes
  | _ => room

theorem size_resolve_iff {w : Folder fs} {name : PyText} {place : Place} {room : Prop}
    (hroom : Utf8.size name ≤ maxFilenameBytes ↔ room) (h : w.resolve name = some place) :
    Utf8.size place.name ≤ maxFilenameBytes ↔ Fits w name room := by
  rw [Folder.resolve] at h
  rw [Fits]
  cases hkind : w.kindAt (here name) with
  | none =>
    rw [hkind] at h
    cases h
    exact hroom
  | some kind =>
    rw [hkind] at h
    cases kind with
    | file payload =>
      cases h
      exact hroom
    | directory =>
      cases h
      exact hroom
    | link target =>
      cases target with
      | inside target =>
        cases h
        exact Iff.rfl
      | outside found => cases h

namespace Tries

variable {w : Folder fs} {filename name : PyText} {accesses growth : Nat} {place : Place}

theorem size (h : Tries u w filename accesses name growth place) :
    Utf8.size name = Utf8.size filename + growth := by
  cases h with
  | planned => rfl
  | @again _ _ k _ place =>
    cases k with
    | zero =>
      rw [numberedName_zero,size_counterName,counterBytes,if_pos rfl]
      omega
    | succ n =>
      have hcast : ((n + 1 : Nat) : Int) = (n : Int) + 1 := rfl
      rw [numberedName_succ,size_counterName,size_counterName,counterBytes,
        if_neg (Nat.succ_ne_zero n),hcast]
      omega

theorem resolved (h : Tries u w filename accesses name growth place) :
    (w.after accesses).resolve name = some place := by
  cases h with
  | planned resolved => exact resolved
  | again _ _ _ resolved => exact resolved

/-- As long as the planned place is free, no other is tried. -/
theorem eq_planned {first : Place} (hplanned : (w.after 1).resolve filename = some first)
    (hfree : (w.after 2).kindAt first = none)
    (h : Tries u w filename accesses name growth place) : accesses = 1 ∧ place = first := by
  induction h with
  | planned resolved => exact ⟨rfl,Option.some.inj (resolved.symm.trans hplanned)⟩
  | again _ taken _ _ ih =>
    obtain ⟨rfl,rfl⟩ := ih
    rw [hfree] at taken
    cases taken

end Tries

theorem publishLoop_ok {plan : AttachmentSavePlan} {payload : List UInt8}
    {fuel accesses growth : Nat} {name : PyText} {destination saved : Place} {w w' : Folder fs}
    (htries : Tries u w plan.filename accesses name growth destination)
    (h : publishLoop u plan payload fuel destination (w.after accesses) = (.ok saved,w')) :
    ∃ accesses name growth, Tries u w plan.filename accesses name growth saved ∧
      (w.after (accesses + 1)).kindAt saved = none ∧
      w' = (w.after (accesses + 1)).add saved payload := by
  induction fuel generalizing accesses name growth destination with
  | zero => cases h
  | succ fuel ih =>
    rw [publishLoop] at h
    rcases Prog.ok_of_tryCatch h with hpublished | ⟨e,m,herror,h⟩
    · obtain ⟨⟨⟩,m,hpublish,hresult⟩ := Prog.ok_of_bind hpublished
      obtain ⟨hfree,rfl⟩ := publish_ok hpublish
      cases hresult
      exact ⟨accesses,name,growth,htries,hfree,rfl⟩
    · have hm : m = w.after (accesses + 1) ∧
          (e = .fileExists → ((w.after (accesses + 1)).kindAt destination).isSome = true) := by
        rcases hpublish : publish destination payload (w.after accesses) with ⟨outcome,m'⟩
        cases outcome with
        | ok _ =>
          rw [Prog.bind_of_ok hpublish] at herror
          cases herror
        | error e' =>
          rw [Prog.bind_of_error hpublish] at herror
          cases herror
          exact ⟨publish_error hpublish,fun hexists => publish_fileExists (hexists ▸ hpublish)⟩
      obtain ⟨rfl,htaken⟩ := hm
      cases e with
      | fileExists =>
        obtain ⟨nextName,m₁,hnext,h⟩ := Prog.ok_of_bind h
        obtain ⟨place,m₂,hplace,h⟩ := Prog.ok_of_bind h
        obtain ⟨k,hfree,rfl,rfl⟩ := candidateName_ok hnext
        obtain ⟨hresolve,rfl⟩ := resolveWithin_ok hplace
        rw [w.after_after,← w.after_succ] at hresolve h
        have hcount : accesses + 1 + (k + 1) + 1 = accesses + k + 3 := by omega
        rw [hcount] at hresolve h
        exact ih (.again htries (htaken rfl) hfree hresolve) h
      | storage message => cases h
      | os => cases h
      | value => cases h
      | cancelled => cases h
      | unfinished => cases h

/-- What a commit without `overwrite` has done: nothing that was there is touched, and the file is
new.  It is at the planned place if that is free when it is published, and else at the first of the
tried places that is; its name keeps to the limit exactly if the bytes of the tried name do. -/
structure Published (u : Unicodedata) (plan : AttachmentSavePlan) (payload : List UInt8)
    (w : Folder fs) (saved : Place) (w' : Folder fs) : Prop where
  kept : w.Grows w'
  fresh : w.kindAt saved = none
  written : w'.kindAt saved = some (.file payload)
  planned : ∀ place, (w.after 1).resolve plan.filename = some place →
    (w.after 2).kindAt place = none → saved = place
  tried : ∃ accesses name growth, Tries u w plan.filename accesses name growth saved ∧
    (w.after (accesses + 1)).kindAt saved = none ∧
    w' = (w.after (accesses + 1)).add saved payload ∧
    (Utf8.size saved.name ≤ maxFilenameBytes ↔ Fits (w.after accesses) name
      (Utf8.size plan.filename + growth ≤ maxFilenameBytes))

theorem commitAttachmentSave_ok {fuel : Nat} {plan : AttachmentSavePlan} {part : MessagePart}
    {saved : Place} {w w' : Folder fs}
    (hrevalidate : ∀ p, revalidate u render plan = .ok p → p = part)
    (h : commitAttachmentSave u render fuel plan false w = (.ok saved,w')) :
    Published u plan part.payload w saved w' := by
  rw [commitAttachmentSave] at h
  obtain ⟨w₀,m₀,hget,h⟩ := Prog.ok_of_bind h
  cases hget
  cases hdirectory : w.isDirectory with
  | false =>
    rw [hdirectory] at h
    cases h
  | true =>
  rw [hdirectory] at h
  obtain ⟨p,m₁,hvalid,h⟩ := Prog.ok_of_bind h
  obtain ⟨hvalid',rfl⟩ := Prod.mk.inj hvalid
  cases hrevalidate p hvalid'
  obtain ⟨destination,m₂,hdestination,h⟩ := Prog.ok_of_bind h
  have hplanned : w.later.resolve plan.filename = some destination ∧ m₂ = w.later := by
    rcases Prog.ok_of_tryCatch hdestination with hok | ⟨e,m,-,herror⟩
    · exact resolveWithin_ok hok
    · cases e <;> cases herror
  obtain ⟨hresolve,rfl⟩ := hplanned
  have hloop : publishLoop u plan part.payload fuel destination (w.after 1) = (.ok saved,w') := by
    rcases Prog.ok_of_tryCatch h with hok | ⟨e,m,-,herror⟩
    · exact hok
    · cases e <;> cases herror
  obtain ⟨accesses,name,growth,htries,hfree,rfl⟩ := publishLoop_ok (.planned hresolve) hloop
  have hgrows := w.grows_after (accesses + 1)
  refine ⟨hgrows.trans (.add _ _ _),hgrows.free hfree,kindAt_add _ _ hfree,
    fun place hplace hplanned => (htries.eq_planned hplace hplanned).2,
    accesses,name,growth,htries,hfree,rfl,?_⟩
  exact size_resolve_iff (by rw [htries.size]) htries.resolved

/-- A plan can be committed if its name has room for its number, and the file it is published as is
new in any case. -/
theorem attachmentSave_iff (h : u.Lawful) {fuel : Nat} {relativePath expectedHash : String}
    {partIndex : Int} {filename : Option PyText} {w w' : Folder fs} {plan : AttachmentSavePlan}
    (hprepare : prepareAttachmentSave u render fuel relativePath expectedHash partIndex filename w =
      (.ok plan,w')) :
    ∃ parts part sanitized k, render relativePath expectedHash = .ok parts ∧
      partAt parts partIndex = .ok part ∧
      sanitizeAttachmentName u (requestedName filename part) = some sanitized ∧
      FirstFree w sanitized.name k ∧ w' = w.after (k + 1) ∧
      plan.filename = numberedName sanitized.name k ∧
      ((Utf8.size plan.filename ≤ maxFilenameBytes ∧ w'.kindAt (here plan.filename) = none ∧
        revalidate u render plan = .ok part) ↔
        w'.isLink (here plan.filename) = false ∧
        if k = 0 then StableCut (cleanName u (requestedName filename part))
        else Utf8.size sanitized.name + 3 + (decimalText k).length ≤ maxFilenameBytes) ∧
      ∀ (commitFuel : Nat) (now : Folder fs) (saved : Place) (later : Folder fs),
        commitAttachmentSave u render commitFuel plan false now = (.ok saved,later) →
        Published u plan part.payload now saved later := by
  obtain ⟨parts,part,sanitized,k,hparts,hpart,hsanitized,hfree,rfl,rfl⟩ :=
    prepareAttachmentSave_ok hprepare
  have hstable := numberedName_stable h hsanitized k
  refine ⟨parts,part,sanitized,k,hparts,hpart,hsanitized,hfree,rfl,rfl,?_,
    fun commitFuel now saved later hcommit => ?_⟩
  · rw [kindAt_eq_none_iff hfree.free,revalidate_ok_iff hparts hpart]
    constructor
    · rintro ⟨hsize,hlink,hagain⟩
      exact ⟨hlink,hstable.mp ⟨hsize,hagain⟩⟩
    · rintro ⟨hlink,hroom⟩
      obtain ⟨hsize,hagain⟩ := hstable.mpr hroom
      exact ⟨hsize,hlink,hagain⟩
  · refine commitAttachmentSave_ok (fun p hp => ?_) hcommit
    exact Except.ok.inj ((partAt_of_revalidate hparts hp).symm.trans hpart)

end

/-- A mail with one attachment. -/
def renderOne (filename : PyText) (_ _ : String) : Except Failure (List MessagePart) :=
  .ok [⟨none,some filename,[1,2,3],false⟩]

def reportName : PyText := pyText "report.txt".toList

/-- The planned name is free when the plan is committed, and taken before the file is published. -/
def racedFolder : Folder plainFileSystem :=
  ⟨[],[[],[(here reportName,.file [9])]],[],[],true⟩

theorem attachmentSave_report :
    revalidate plainUnicode (renderOne reportName) ⟨"mail.eml","hash",0,reportName,[],false⟩ =
      .ok ⟨none,some reportName,[1,2,3],false⟩ ∧
    ∃ later, Published plainUnicode ⟨"mail.eml","hash",0,reportName,[],false⟩ [1,2,3] racedFolder
      (here (counterName reportName 1)) later := by
  have hprepare : prepareAttachmentSave plainUnicode (renderOne reportName) 1 "mail.eml" "hash" 0
      none (⟨[],[],[],[],true⟩ : Folder plainFileSystem) =
      (.ok ⟨"mail.eml","hash",0,reportName,[],false⟩,⟨[],[],[],[],true⟩) := by rfl
  have hcommit : (commitAttachmentSave plainUnicode (renderOne reportName) 2
      ⟨"mail.eml","hash",0,reportName,[],false⟩ false racedFolder).1 =
      .ok (here (counterName reportName 1)) := by decide +kernel
  have hsame : (sanitizeAttachmentName plainUnicode reportName).map (·.name) = some reportName := by
    decide
  have hshort : ¬ maxFilenameBytes < Utf8.size (cleanName plainUnicode reportName) := by
    decide
  obtain ⟨parts,part,sanitized,k,hparts,hpart,hsanitized,-,-,hname,hiff,hcommits⟩ :=
    attachmentSave_iff plainUnicode_lawful hprepare
  cases hparts
  cases hpart
  refine ⟨?_,_,hcommits 2 racedFolder _ _ (Prod.ext hcommit rfl)⟩
  have hsanitized : sanitizeAttachmentName plainUnicode reportName = some sanitized := hsanitized
  rw [hsanitized] at hsame
  have hsame : sanitized.name = reportName := Option.some.inj hsame
  cases k with
  | zero => exact (hiff.mpr ⟨rfl,.inl fun hlong => absurd hlong hshort⟩).2.2
  | succ n =>
    -- a number makes the name longer
    have hsize := size_counterName sanitized.name (n + 1 : Nat)
    have hreport : reportName = counterName sanitized.name (n + 1 : Nat) := hname
    rw [← hreport,hsame] at hsize
    omega

/-- 83 letters of three bytes and an extension. -/
def kanaName : PyText := List.replicate 83 (.ofChar 'あ') ++ pyText ".txt".toList

theorem attachmentSave_kana :
    (prepareAttachmentSave plainUnicode (renderOne kanaName) 2 "mail.eml" "hash" 0 none
      (⟨[(here kanaName,.file [])],[],[],[],true⟩ : Folder plainFileSystem)).1 =
      .ok ⟨"mail.eml","hash",0,counterName kanaName 1,[],false⟩ ∧
    Utf8.size (counterName kanaName 1) = 257 ∧
    revalidate plainUnicode (renderOne kanaName)
      ⟨"mail.eml","hash",0,counterName kanaName 1,[],false⟩ =
      .error (.storage "Attachment filename changed after confirmation") := by
  refine ⟨?_,?_,?_⟩ <;> decide +kernel

end Attachments

end MailDock
