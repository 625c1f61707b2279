import Mathlib.Data.Set.Finite.Basic
import MailDock.Attachments.Save
import MailDock.Repository.Tables

/-!
# Exporting attachments

`usecases/export_attachments.py`.  The attachments of several messages are published one after the
other, each under the first free name.

## Main definitions

- `exportAttachments`
- `Chosen` — the search for a name ends at this number
- `Exporting` — the states of a run, with what it publishes in them
- `Exports` — what a run has published

## Main result

- `exportAttachments_runs` — a run ends, and nothing it publishes was there before
-/

namespace MailDock

namespace Attachments

open Hoare

variable {fs : FileSystem}

/-- `_message_storage`. -/
def messageStorage (message : Message) : Except Failure (Option (String × String)) :=
  if message.localState = .purged then .ok none
  else
    match message.relativePath.filter (· ≠ ""),message.fileHash.filter (· ≠ "") with
    | none,_ => .error (.storage "Message has no stored EML path")
    | some _,none => .error (.storage "Message has no stored EML hash")
    | some relativePath,some fileHash => .ok (some (relativePath,fileHash))

/-- `_occupied`: a broken link is occupied, too. -/
def occupied (place : Place) : FileProg fs Bool := do
  if ← pathExists place then pure true else pathIsSymlink place

def resolveCandidate (candidateName : PyText) : FileProg fs Place :=
  tryCatch (resolveWithin candidateName) fun
  | .value => throw (.storage "Attachment destination is no longer safe")
  | e => throw e

/-- The loop of `_candidate_path`. -/
def candidatePath (filename : PyText) : Nat → Nat → FileProg fs Place
  | 0,_ => throw .unfinished
  | fuel + 1,counter => do
    let candidate ← resolveCandidate (numberedName filename counter)
    if ← occupied candidate then candidatePath filename fuel (counter + 1)
    else pure candidate

/-- `_write_without_overwrite`. -/
def writeWithoutOverwrite (destination : Place) (payload : List UInt8) : FileProg fs Place :=
  tryCatch (do
    publish destination payload
    pure destination) fun
  | .os => throw (.storage "Could not export attachment")
  | e => throw e

/-- The loop of `_export_part`: another program may take the name before it is published. -/
def exportLoop (filename : PyText) (payload : List UInt8) : Nat → FileProg fs Place
  | 0 => throw .unfinished
  | fuel + 1 => do
    let destination ← candidatePath filename fuel 0
    tryCatch (writeWithoutOverwrite destination payload) fun
    | .fileExists => exportLoop filename payload fuel
    | e => throw e

structure ExportAttachmentWarning where
  messageId : Nat
  path : Place
  filename : PyText
  codes : List Warning
deriving DecidableEq, Repr

structure ExportAttachmentsResult where
  files : List Place := []
  skippedCount : Nat := 0
  warnings : List Warning := []
  warningDetails : List ExportAttachmentWarning := []
  executablePaths : List Place := []
deriving DecidableEq, Repr

def ExportAttachmentsResult.add (result : ExportAttachmentsResult) (messageId : Nat) (path : Place)
    (codes : List Warning) : ExportAttachmentsResult where
  files := result.files ++ [path]
  skippedCount := result.skippedCount
  warnings := result.warnings ++ codes
  warningDetails :=
    if codes = [] then result.warningDetails
    else result.warningDetails ++ [⟨messageId,path,path.name,codes⟩]
  executablePaths :=
    if codes.contains .executableExtension then result.executablePaths ++ [path]
    else result.executablePaths

section
variable (u : Unicodedata) (render : String → String → Except String (List MessagePart))

def exportPart (fuel : Nat) (part : MessagePart) : FileProg fs (Place × List Warning) := do
  let sanitized ← sanitize u (part.filename.getD [])
  let path ← exportLoop sanitized.name part.payload fuel
  pure (path,sanitized.warnings)

/-- One turn of the inner loop of `export_attachments`. -/
def exportRendered (fuel : Nat) (messageId : Nat) (result : ExportAttachmentsResult)
    (part : MessagePart) : FileProg fs ExportAttachmentsResult := do
  raiseIfCancelled
  if part.contentId.isSome || part.isInline then pure result
  else
    let (path,partWarnings) ← exportPart u fuel part
    pure (result.add messageId path partWarnings)

/-- One turn of the outer loop; `render` reads the stored mail and renders it. -/
def exportMessage (fuel : Nat) (result : ExportAttachmentsResult) (message : Message) :
    FileProg fs ExportAttachmentsResult := do
  raiseIfCancelled
  match ← Prog.ofExcept (messageStorage message) with
  | none => pure { result with skippedCount := result.skippedCount + 1 }
  | some (relativePath,fileHash) =>
    let parts ← Prog.ofExcept ((render relativePath fileHash).mapError .storage)
    parts.foldlM (exportRendered u fuel message.id) result

def exportAttachments (fuel : Nat) (messages : List Message) :
    FileProg fs ExportAttachmentsResult := do
  let w ← get
  if !w.isDirectory then throw (.storage "Attachment destination directory does not exist")
  let result ← messages.foldlM (exportMessage u render fuel) {}
  raiseIfCancelled
  pure result

end

/-! ## What the others do meanwhile -/

namespace Folder

/-- The entries that are there, and those that others are going to create. -/
def names (w : Folder fs) : List fs.Key := (w.entries ++ w.coming.flatten).map (·.1)

theorem later_cases (w : Folder fs) :
    (w.coming = [] ∧ w.later = w) ∨
    ∃ batch rest, w.coming = batch :: rest ∧
      w.later = { w with entries := w.entries ++ batch, coming := rest } := by
  cases h : w.coming with
  | nil => exact .inl ⟨rfl,by rw [later,h]⟩
  | cons batch rest => exact .inr ⟨batch,rest,rfl,by rw [later,h]⟩

theorem names_later (w : Folder fs) : w.later.names = w.names := by
  obtain ⟨-,hlater⟩ | ⟨batch,rest,hcoming,hlater⟩ := w.later_cases
  · rw [hlater]
  · rw [hlater,names,names,hcoming,List.flatten_cons,List.append_assoc]

theorem published_later (w : Folder fs) : w.later.published = w.published := by
  obtain ⟨-,hlater⟩ | ⟨batch,rest,-,hlater⟩ := w.later_cases
  · rw [hlater]
  · rw [hlater]

theorem names_after (w : Folder fs) (n : Nat) : (w.after n).names = w.names := by
  induction n with
  | zero => rfl
  | succ n ih => exact (names_later _).trans ih

theorem published_after (w : Folder fs) (n : Nat) : (w.after n).published = w.published := by
  induction n with
  | zero => rfl
  | succ n ih => exact (published_later _).trans ih

/-- Either the others are done, or they come closer to it. -/
theorem after_cases (w : Folder fs) (n : Nat) :
    (w.coming = [] ∧ ∀ m, w.after m = w) ∨ (w.after (n + 1)).coming.length < w.coming.length := by
  cases hcoming : w.coming with
  | nil =>
    refine .inl ⟨rfl,fun m => ?_⟩
    induction m with
    | zero => rfl
    | succ m ih =>
      rw [after_succ,ih,later,hcoming]
  | cons batch rest =>
    right
    induction n with
    | zero =>
      show w.later.coming.length < _
      rw [later,hcoming]
      simp
    | succ n ih =>
      obtain ⟨-,hlater⟩ | ⟨batch',rest',hcoming',hlater⟩ := (w.after (n + 1)).later_cases
      · rwa [after_succ,hlater]
      · rw [hcoming',List.length_cons] at ih
        rw [after_succ,hlater]
        show rest'.length < _
        omega

theorem kindAt_of_notMem {w : Folder fs} {place : Place} (h : fs.key place ∉ w.names) :
    w.kindAt place = none := by
  rw [kindAt,List.lookup_eq_none_iff]
  intro entry hentry
  have hmem : entry.1 ∈ w.names := List.mem_map_of_mem (List.mem_append_left _ hentry)
  simp only [bne_iff_ne]
  rintro heq
  exact h (heq ▸ hmem)

end Folder

/-! ## The search for a name -/

/-- The search comes to this number after so many accesses: the names before it are taken when they
are tested, or a link stands there. -/
inductive Reaches (w : Folder fs) (filename : PyText) : Nat → Nat → Prop
  | start : Reaches w filename 0 0
  | taken {index accesses : Nat} {place : Place} (h : Reaches w filename index accesses)
    (resolved : (w.after (accesses + 1)).resolve (numberedName filename index) = some place)
    (found : (w.after (accesses + 2)).found place = true) :
    Reaches w filename (index + 1) (accesses + 2)
  | link {index accesses : Nat} {place : Place} (h : Reaches w filename index accesses)
    (resolved : (w.after (accesses + 1)).resolve (numberedName filename index) = some place)
    (notFound : (w.after (accesses + 2)).found place = false)
    (isLink : (w.after (accesses + 3)).isLink place = true) :
    Reaches w filename (index + 1) (accesses + 3)

/-- The search ends at this number: the place its name leads to is free when it is tested. -/
structure Chosen (w : Folder fs) (filename : PyText) (index accesses : Nat) (place : Place) :
    Prop where
  reached : Reaches w filename index accesses
  resolved : (w.after (accesses + 1)).resolve (numberedName filename index) = some place
  notFound : (w.after (accesses + 2)).found place = false
  noLink : (w.after (accesses + 3)).isLink place = false

section
variable (w : Folder fs)

theorem resolveCandidate_eq (candidateName : PyText) : resolveCandidate candidateName w =
    (match w.later.resolve candidateName with
      | some place => .ok place
      | none => .error (.storage "Attachment destination is no longer safe"),w.later) := by
  show Prog.tryCatch (resolveWithin candidateName) _ w = _
  rw [Prog.tryCatch,resolveWithin_eq]
  cases w.later.resolve candidateName <;> rfl

theorem occupied_eq (place : Place) : occupied place w =
    if fs.accepts place.name = false then (.error .os,w.later)
    else if w.later.found place then (.ok true,w.later)
    else (.ok (w.later.later.isLink place),w.later.later) := by
  have hexists := pathExists_eq w place
  by_cases haccepts : fs.accepts place.name = false
  · rw [if_pos haccepts]
    rw [haccepts] at hexists
    exact Prog.bind_of_error hexists
  · have haccepts' : fs.accepts place.name = true := by simpa using haccepts
    rw [if_neg haccepts]
    rw [haccepts'] at hexists
    rw [occupied,Prog.bind_of_ok hexists]
    cases hfound : w.later.found place with
    | true => rfl
    | false =>
      show pathIsSymlink place w.later = _
      rw [pathIsSymlink_eq,haccepts']
      rfl

/-- A name with a key that nobody uses is free for ever. -/
theorem chosen_of_notMem {filename : PyText} {index accesses : Nat}
    (hindex : fs.key (here (numberedName filename index)) ∉ w.names)
    (hreached : Reaches w filename index accesses) :
    Chosen w filename index accesses (here (numberedName filename index)) := by
  have hfree : ∀ n, (w.after n).kindAt (here (numberedName filename index)) = none :=
    fun n => Folder.kindAt_of_notMem (w.names_after n ▸ hindex)
  refine ⟨hreached,?_,?_,?_⟩
  · rw [Folder.resolve,hfree]
  · rw [Folder.found,hfree]
  · rw [Folder.isLink,hfree]

/-- The search does not get beyond it. -/
theorem Reaches.le {filename : PyText} {last index accesses : Nat}
    (hlast : fs.key (here (numberedName filename last)) ∉ w.names)
    (h : Reaches w filename index accesses) : index ≤ last := by
  induction h with
  | start => exact Nat.zero_le last
  | @taken index accesses place h resolved found ih =>
    by_cases heq : index = last
    · subst heq
      have hchosen := chosen_of_notMem w hlast h
      rw [hchosen.resolved] at resolved
      cases resolved
      rw [hchosen.notFound] at found
      cases found
    · omega
  | @link index accesses place h resolved _ isLink ih =>
    by_cases heq : index = last
    · subst heq
      have hchosen := chosen_of_notMem w hlast h
      rw [hchosen.resolved] at resolved
      cases resolved
      rw [hchosen.noLink] at isLink
      cases isLink
    · omega

/-- What the outcome of a search says. -/
def Searched (filename : PyText) (place : Place) (now : Folder fs) : Prop :=
  ∃ index accesses, Chosen w filename index accesses place ∧ now = w.after (accesses + 3)

def SearchFailed (e : Failure) (now : Folder fs) : Prop :=
  e ≠ .unfinished ∧ e ≠ .fileExists ∧ ∃ n, now = w.after n

theorem resolveCandidate_triple (filename : PyText) (index accesses : Nat) :
    Triple (· = w.after accesses) (resolveCandidate (numberedName filename index))
      (fun place now => now = w.after (accesses + 1) ∧
        (w.after (accesses + 1)).resolve (numberedName filename index) = some place)
      (SearchFailed w) := by
  rintro now rfl
  rw [resolveCandidate_eq]
  show Holds _ _ (match (w.after (accesses + 1)).resolve (numberedName filename index) with
    | some place => Except.ok place
    | none => .error (Failure.storage "Attachment destination is no longer safe"),w.after (accesses + 1))
  cases hresolve : (w.after (accesses + 1)).resolve (numberedName filename index) with
  | none => exact ⟨by decide,by decide,_,rfl⟩
  | some place => exact ⟨rfl,rfl⟩

theorem occupied_triple {filename : PyText} {index accesses : Nat} {place : Place}
    (hreached : Reaches w filename index accesses)
    (hresolved : (w.after (accesses + 1)).resolve (numberedName filename index) = some place) :
    Triple (· = w.after (accesses + 1)) (occupied place)
      (fun answer now =>
        if answer then ∃ n, now = w.after n ∧ Reaches w filename (index + 1) n
        else Searched w filename place now)
      (SearchFailed w) := by
  rintro now rfl
  rw [occupied_eq]
  show Holds _ _ (if fs.accepts place.name = false then (.error Failure.os,w.after (accesses + 2))
    else if (w.after (accesses + 2)).found place then (.ok true,w.after (accesses + 2))
    else (.ok ((w.after (accesses + 3)).isLink place),w.after (accesses + 3)))
  by_cases haccepts : fs.accepts place.name = false
  · rw [if_pos haccepts]
    exact ⟨by decide,by decide,_,rfl⟩
  · rw [if_neg haccepts]
    by_cases hfound : (w.after (accesses + 2)).found place = true
    · rw [if_pos hfound]
      exact ⟨_,rfl,.taken hreached hresolved hfound⟩
    · rw [if_neg hfound]
      have hfound : (w.after (accesses + 2)).found place = false := by simpa using hfound
      cases hlink : (w.after (accesses + 3)).isLink place with
      | true => exact ⟨_,rfl,.link hreached hresolved hfound hlink⟩
      | false => exact ⟨_,_,⟨hreached,hresolved,hfound,hlink⟩,rfl⟩

/-- The search ends before it comes to a name that nobody uses. -/
theorem candidatePath_total {filename : PyText} {last : Nat}
    (hlast : fs.key (here (numberedName filename last)) ∉ w.names) (left : Nat)
    {index accesses : Nat} (hleft : last < index + left)
    (hreached : Reaches w filename index accesses) :
    Total (· = w.after accesses) (fun fuel => candidatePath filename fuel index)
      (Searched w filename) (SearchFailed w) := by
  induction left generalizing index accesses with
  | zero =>
    have hle := hreached.le w hlast
    omega
  | succ left ih =>
    refine Total.succ ((Total.of_triple (resolveCandidate_triple w filename index accesses)).seq
      fun place => Total.assume fun hresolved => ?_)
    refine (Total.of_triple (occupied_triple w hreached hresolved)).seq fun answer => ?_
    cases answer with
    | true =>
      rintro now ⟨n,hnow,hnext⟩
      exact ih (by omega) hnext now hnow
    | false => exact .of_triple (Triple.ret fun now hnow => hnow)

/-! ## One part -/

theorem writeWithoutOverwrite_eq (place : Place) (payload : List UInt8) :
    writeWithoutOverwrite place payload w =
    if fs.accepts place.name = false then (.error (.storage "Could not export attachment"),w.later)
    else if (w.later.kindAt place).isSome then (.error .fileExists,w.later)
    else (.ok place,w.later.add place payload) := by
  have hpublish := publish_eq w place payload
  by_cases haccepts : fs.accepts place.name = false
  · rw [if_pos haccepts] at hpublish ⊢
    show Prog.tryCatch _ _ w = _
    rw [Prog.tryCatch,Prog.bind_of_error hpublish]
    rfl
  · rw [if_neg haccepts] at hpublish ⊢
    by_cases htaken : (w.later.kindAt place).isSome = true
    · rw [if_pos htaken] at hpublish ⊢
      show Prog.tryCatch _ _ w = _
      rw [Prog.tryCatch,Prog.bind_of_error hpublish]
      rfl
    · rw [if_neg htaken] at hpublish ⊢
      show Prog.tryCatch _ _ w = _
      rw [Prog.tryCatch,Prog.bind_of_ok hpublish]
      rfl

/-- A search begins after so many accesses: the places that the searches before it chose were taken
when they were to be published. -/
inductive Searches (w : Folder fs) (filename : PyText) : Nat → Prop
  | first : Searches w filename 0
  | lost {start index accesses : Nat} {place : Place} (h : Searches w filename start)
    (chosen : Chosen (w.after start) filename index accesses place)
    (taken : ((w.after (start + accesses + 4)).kindAt place).isSome = true) :
    Searches w filename (start + accesses + 4)

/-- The last search has chosen the place, and it was free when the file was published. -/
structure Linked (w : Folder fs) (filename : PyText) (start index accesses : Nat) (place : Place) :
    Prop where
  searches : Searches w filename start
  chosen : Chosen (w.after start) filename index accesses place
  free : (w.after (start + accesses + 4)).kindAt place = none

/-- A file has been published. -/
def HasLinked (filename : PyText) (payload : List UInt8) (place : Place) (now : Folder fs) : Prop :=
  ∃ start index accesses, Linked w filename start index accesses place ∧
    now = (w.after (start + accesses + 4)).add place payload

/-- A name that is chosen is lost only while others still create files. -/
theorem coming_lt_of_lost {filename : PyText} {index accesses n : Nat} {place : Place}
    (hchosen : Chosen w filename index accesses place)
    (hlost : ((w.after (n + 1)).kindAt place).isSome = true) :
    (w.after (n + 1)).coming.length < w.coming.length := by
  obtain ⟨-,hsame⟩ | hless := w.after_cases n
  · have hfound := hchosen.notFound
    have hlink := hchosen.noLink
    rw [hsame] at hfound hlink hlost
    rw [(kindAt_eq_none_iff hfound).mpr hlink] at hlost
    cases hlost
  · exact hless

/-- There are more numbers than names. -/
theorem exists_unused {filename : PyText}
    (hnumbered : Function.Injective fun n => fs.key (here (numberedName filename (n + 1)))) :
    ∃ last, fs.key (here (numberedName filename last)) ∉ w.names := by
  obtain ⟨_,⟨n,rfl⟩,hn⟩ :=
    (Set.infinite_range_of_injective hnumbered).exists_notMem_finset w.names.toFinset
  exact ⟨n + 1,fun hmem => hn (List.mem_toFinset.mpr hmem)⟩

/-- Every lost race takes something from what others still create. -/
theorem exportLoop_total {filename : PyText}
    (hnumbered : Function.Injective fun n => fs.key (here (numberedName filename (n + 1))))
    (payload : List UInt8) {start : Nat} (hsearches : Searches w filename start) :
    Total (· = w.after start) (exportLoop filename payload) (HasLinked w filename payload)
      (fun e now => e ≠ .unfinished ∧ ∃ n, now = w.after n) := by
  induction hcoming : (w.after start).coming.length using Nat.strong_induction_on
    generalizing start with
  | _ size ih =>
    obtain ⟨last,hlast⟩ := exists_unused (w.after start) hnumbered
    have hsearch : Total (· = w.after start) (fun fuel => candidatePath filename fuel 0)
        (Searched (w.after start) filename) (fun e now => e ≠ .unfinished ∧ ∃ n, now = w.after n) :=
      (candidatePath_total (w.after start) hlast (last + 1) (by omega) .start).consequence
        (fun _ h => h) (fun _ _ h => h)
        fun e now ⟨he,_,n,hnow⟩ => ⟨he,start + n,hnow.trans (w.after_after start n)⟩
    refine Total.succ (hsearch.seq fun place => ?_)
    rintro _ ⟨index,accesses,hchosen,rfl⟩
    have hwrite := writeWithoutOverwrite_eq ((w.after start).after (accesses + 3)) place payload
    rw [← Folder.after_succ] at hwrite
    have hcount : (w.after start).after (accesses + 3 + 1) = w.after (start + accesses + 4) :=
      w.after_after start (accesses + 4)
    by_cases haccepts : fs.accepts place.name = false
    · rw [if_pos haccepts] at hwrite
      exact ⟨_,(Converges.of_eq hwrite).handle (.const _ _),by decide,_,hcount⟩
    · rw [if_neg haccepts] at hwrite
      by_cases hlost : (((w.after start).after (accesses + 3 + 1)).kindAt place).isSome = true
      · have hless := coming_lt_of_lost (w.after start) hchosen hlost
        rw [if_pos hlost] at hwrite
        rw [hcount] at hwrite hless hlost
        obtain ⟨r,hr,hholds⟩ := ih _ (hcoming ▸ hless) (.lost hsearches hchosen hlost) rfl _ rfl
        exact ⟨r,(Converges.of_eq hwrite).handle hr,hholds⟩
      · rw [if_neg hlost] at hwrite
        rw [hcount] at hwrite hlost
        exact ⟨_,(Converges.of_eq hwrite).handle_ok,start,index,accesses,
          ⟨hsearches,hchosen,by simpa using hlost⟩,rfl⟩

end

/-! ## A whole export -/

/-- A published part: its sanitised name, the folder as it was when its turn came, the accesses of
the searches that were lost, and the number and the place that the last one chose. -/
structure Export (fs : FileSystem) where
  base : PyText
  before : Folder fs
  start : Nat
  index : Nat
  accesses : Nat
  place : Place
  payload : List UInt8

/-- The name with its number has room in 255 bytes. -/
def HasRoom (base : PyText) (index : Nat) : Prop :=
  index = 0 ∨ Utf8.size base + 3 + (decimalText index).length ≤ maxFilenameBytes

namespace Export

/-- The folder as it was when the name was resolved. -/
def resolving (e : Export fs) : Folder fs := e.before.after (e.start + e.accesses + 1)

/-- The folder after the part was published. -/
def after (e : Export fs) : Folder fs :=
  (e.before.after (e.start + e.accesses + 4)).add e.place e.payload

/-- The sanitised name was free, or there was room for the first free number; a link of that name led
to a short one. -/
def FirstFits (e : Export fs) : Prop :=
  Fits e.resolving (numberedName e.base e.index) (HasRoom e.base e.index)

end Export

/-- The states of a run: between two parts only the token is checked, and each part is published
where a search that began at its turn, or the one after the last lost one, has ended. -/
inductive Exporting (w : Folder fs) : List (Export fs) → Folder fs → Prop
  | start : Exporting w [] w
  | checked {exports : List (Export fs)} {now : Folder fs} (h : Exporting w exports now)
    (cancelled : List Bool) : Exporting w exports { now with cancelled := cancelled }
  | published {exports : List (Export fs)} {e : Export fs} (h : Exporting w exports e.before)
    (linked : Linked e.before e.base e.start e.index e.accesses e.place) :
    Exporting w (exports ++ [e]) e.after

/-- From the first folder these parts have been published: nothing that was there is touched, and
the places are new and not the same. -/
structure Exports (w : Folder fs) (exports : List (Export fs)) (w' : Folder fs) : Prop where
  kept : w.Grows w'
  published : w'.published = w.published ++ exports.map (·.place)
  fresh : ∀ e ∈ exports, w.kindAt e.place = none
  written : ∀ e ∈ exports, w'.kindAt e.place = some (.file e.payload)
  distinct : (exports.map fun e => fs.key e.place).Nodup

/-- The export of a part. -/
def Matches (u : Unicodedata) (part : MessagePart) (e : Export fs) : Prop :=
  (sanitizeAttachmentName u (part.filename.getD [])).map (·.name) = some e.base ∧
    part.payload = e.payload

section
variable {w w' : Folder fs} {exports : List (Export fs)}

theorem Exports.nil (w : Folder fs) : Exports w [] w where
  kept := .refl w
  published := (List.append_nil _).symm
  fresh _ h := nomatch h
  written _ h := nomatch h
  distinct := List.nodup_nil

theorem Exports.wait {w'' : Folder fs} (h : Exports w exports w') (hgrows : w'.Grows w'')
    (hpublished : w''.published = w'.published) : Exports w exports w'' where
  kept := h.kept.trans hgrows
  published := hpublished.trans h.published
  fresh := h.fresh
  written e he := hgrows _ _ (h.written e he)
  distinct := h.distinct

theorem kindAt_congr {place place' : Place} (h : fs.key place = fs.key place') :
    w.kindAt place = w.kindAt place' := by rw [Folder.kindAt,Folder.kindAt,h]

/-- The name's number is the only thing that can make it too long. -/
theorem size_numberedName_iff {base : PyText} (hbase : Utf8.size base ≤ maxFilenameBytes)
    (index : Nat) :
    Utf8.size (numberedName base index) ≤ maxFilenameBytes ↔ HasRoom base index := by
  cases index with
  | zero => simpa [HasRoom,numberedName_zero] using hbase
  | succ n =>
    rw [HasRoom,numberedName_succ,size_counterName]
    simp

/-- One more part. -/
theorem Exports.snoc {e : Export fs} (h : Exports w exports e.before)
    (hlinked : Linked e.before e.base e.start e.index e.accesses e.place) :
    Exports w (exports ++ [e]) e.after := by
  have hfree := hlinked.free
  have hwait := e.before.grows_after (e.start + e.accesses + 4)
  have hadd := Folder.Grows.add (e.before.after (e.start + e.accesses + 4)) e.place e.payload
  have hother : ∀ e' ∈ exports, fs.key e'.place ≠ fs.key e.place := by
    intro e' he' hkey
    have hwritten := hwait _ _ (h.written e' he')
    rw [kindAt_congr hkey,hfree] at hwritten
    cases hwritten
  refine ⟨h.kept.trans (hwait.trans hadd),?_,?_,?_,?_⟩
  · show (e.before.after _).published ++ [e.place] = _
    rw [e.before.published_after,h.published,List.map_append,List.append_assoc]
    rfl
  · intro e' he'
    rcases List.mem_append.mp he' with he' | he'
    · exact h.fresh e' he'
    · cases List.mem_singleton.mp he'
      exact (h.kept.trans hwait).free hfree
  · intro e' he'
    rcases List.mem_append.mp he' with he' | he'
    · exact hadd _ _ (hwait _ _ (h.written e' he'))
    · cases List.mem_singleton.mp he'
      exact kindAt_add _ _ hfree
  · rw [List.map_append,List.nodup_append]
    refine ⟨h.distinct,List.nodup_singleton _,?_⟩
    intro key hkey key' hkey'
    obtain ⟨e',he',rfl⟩ := List.mem_map.mp hkey
    cases List.mem_singleton.mp hkey'
    exact hother e' he'

/-- What holds after the steps of a run. -/
theorem Exporting.facts (h : Exporting w exports w') : Exports w exports w' := by
  induction h with
  | start => exact .nil w
  | checked _ _ ih => exact ih.wait (fun _ _ hkind => hkind) rfl
  | published _ linked ih => exact ih.snoc linked

theorem Exporting.linked (h : Exporting w exports w') {e : Export fs} (he : e ∈ exports) :
    Linked e.before e.base e.start e.index e.accesses e.place := by
  induction h with
  | start => cases he
  | checked _ _ ih => exact ih he
  | published _ linked ih =>
    rcases List.mem_append.mp he with he | he
    · exact ih he
    · cases List.mem_singleton.mp he
      exact linked

/-- The number that makes the name new decides whether it is too long. -/
theorem Linked.size_iff {e : Export fs}
    (h : Linked e.before e.base e.start e.index e.accesses e.place)
    (hbase : Utf8.size e.base ≤ maxFilenameBytes) :
    Utf8.size e.place.name ≤ maxFilenameBytes ↔ e.FirstFits := by
  have hresolved := h.chosen.resolved
  rw [Folder.after_after] at hresolved
  exact size_resolve_iff (size_numberedName_iff hbase e.index) hresolved

end

section
variable {u : Unicodedata} {render : String → String → Except String (List MessagePart)}
variable {w : Folder fs} {parts : List MessagePart} {result : ExportAttachmentsResult}

/-- These parts have been exported, one after the other. -/
def Exported (u : Unicodedata) (w : Folder fs) (parts : List MessagePart)
    (exports : List (Export fs)) (now : Folder fs) : Prop :=
  Exporting w exports now ∧ List.Forall₂ (Matches u) parts exports

/-- The same, with what the program has collected. -/
def Done (u : Unicodedata) (w : Folder fs) (parts : List MessagePart)
    (result : ExportAttachmentsResult) (now : Folder fs) : Prop :=
  ∃ exports, Exported u w parts exports now ∧ result.files = exports.map (·.place)

/-- A run that raises has exported the first of these parts, and may have searched for a name. -/
def Stopped (u : Unicodedata) (w : Folder fs) (parts : List MessagePart) (e : Failure)
    (now : Folder fs) : Prop :=
  e ≠ .unfinished ∧ ∃ done exports last n, done <+: parts ∧ Exported u w done exports last ∧
    now = last.after n

theorem Done.stopped {now : Folder fs} {e : Failure} {all : List MessagePart}
    (h : Done u w parts result now) (he : e ≠ .unfinished) (hall : parts <+: all) :
    Stopped u w all e now := by
  obtain ⟨exports,hexported,-⟩ := h
  exact ⟨he,parts,exports,now,0,hall,hexported,rfl⟩

theorem raiseIfCancelled_eq (w : Folder fs) : raiseIfCancelled w =
    (if w.cancelled.head? = some true then .error .cancelled else .ok (),
      { w with cancelled := w.cancelled.tail }) := by
  obtain ⟨entries,coming,published,cancelled,isDirectory⟩ := w
  cases cancelled with
  | nil => rfl
  | cons answer rest => cases answer <;> rfl

theorem raiseIfCancelled_triple {all : List MessagePart} (hall : parts <+: all) :
    Triple (Done u w parts result) raiseIfCancelled (fun _ => Done u w parts result)
      (Stopped u w all) := by
  rintro now ⟨exports,⟨hexporting,hmatches⟩,hfiles⟩
  have hdone : Done u w parts result { now with cancelled := now.cancelled.tail } :=
    ⟨exports,⟨hexporting.checked now.cancelled.tail,hmatches⟩,hfiles⟩
  rw [raiseIfCancelled_eq]
  by_cases hcancelled : now.cancelled.head? = some true
  · rw [if_pos hcancelled]
    exact hdone.stopped (by decide) hall
  · rw [if_neg hcancelled]
    exact hdone

/-- Names that differ in their number are different entries. -/
def TellsNumbers (fs : FileSystem) : Prop :=
  ∀ filename, Function.Injective fun n => fs.key (here (numberedName filename (n + 1)))

theorem size_sanitize (h : u.Lawful) {name : PyText} {sanitized : SanitizedName}
    (hsanitized : sanitizeAttachmentName u name = some sanitized) :
    Utf8.size sanitized.name ≤ maxFilenameBytes := by
  rcases sanitizeAttachmentName_eq h name with ⟨-,hname⟩ | ⟨-,hnone⟩
  · rw [hsanitized] at hname
    have hname : sanitized.name = bounded (cleanName u name) := Option.some.inj hname
    rw [hname]
    exact size_bounded_le _
  · rw [hsanitized] at hnone
    cases hnone

theorem exportPart_total (hnumbered : TellsNumbers fs) (part : MessagePart)
    {all : List MessagePart} (hall : parts <+: all) :
    Total (Done u w parts result) (fun fuel => exportPart u fuel part)
      (fun r now => ∀ messageId, Done u w (parts ++ [part]) (result.add messageId r.1 r.2) now)
      (Stopped u w all) := by
  have hsanitize : Triple (Done u w parts result) (sanitize u (part.filename.getD []))
      (fun sanitized now => Done u w parts result now ∧
        sanitizeAttachmentName u (part.filename.getD []) = some sanitized) (Stopped u w all) := by
    intro now hdone
    rw [sanitize]
    cases hsanitized : sanitizeAttachmentName u (part.filename.getD []) with
    | none => exact hdone.stopped (by decide) hall
    | some sanitized => exact ⟨hdone,rfl⟩
  refine (Total.of_triple hsanitize).seq fun sanitized => Total.assume fun hsanitized => ?_
  have hloop : Total (Done u w parts result) (exportLoop sanitized.name part.payload)
      (fun path now => ∀ messageId codes,
        Done u w (parts ++ [part]) (result.add messageId path codes) now) (Stopped u w all) := by
    rintro now ⟨exports,⟨hexporting,hmatches⟩,hfiles⟩
    refine ((exportLoop_total now (hnumbered sanitized.name) part.payload .first).consequence
      (fun _ hnow => hnow) (fun path later hlinked => ?_) fun e later hlater => ?_) now rfl
    · obtain ⟨start,index,accesses,hlinked,rfl⟩ := hlinked
      have hmatch : Matches u part ⟨sanitized.name,now,start,index,accesses,path,part.payload⟩ :=
        ⟨by rw [hsanitized]; rfl,rfl⟩
      refine fun messageId codes => ⟨_,⟨hexporting.published
        (e := ⟨sanitized.name,now,start,index,accesses,path,part.payload⟩) hlinked,
          List.rel_append hmatches (.cons hmatch .nil)⟩,?_⟩
      show result.files ++ [path] = _
      rw [hfiles,List.map_append]
      rfl
    · obtain ⟨he,n,rfl⟩ := hlater
      exact ⟨he,parts,exports,now,n,hall,⟨hexporting,hmatches⟩,rfl⟩
  exact hloop.seq fun path => .of_triple (Triple.ret fun now hdone messageId => hdone messageId _)

/-- Parts with a content id and inline parts are left out. -/
def isExported (part : MessagePart) : Bool := !(part.contentId.isSome || part.isInline)

/-- The parts of a message that are exported. -/
def attachments (render : String → String → Except String (List MessagePart)) (message : Message) :
    List MessagePart :=
  match messageStorage message with
  | .ok (some (relativePath,fileHash)) =>
    match render relativePath fileHash with
    | .ok parts => parts.filter isExported
    | .error _ => []
  | _ => []

theorem exportRendered_total (hnumbered : TellsNumbers fs) (messageId : Nat)
    (part : MessagePart) {all : List MessagePart}
    (hall : parts ++ [part].filter isExported <+: all) :
    Total (Done u w parts result) (fun fuel => exportRendered u fuel messageId result part)
      (Done u w (parts ++ [part].filter isExported)) (Stopped u w all) := by
  have hparts : parts <+: all := (List.prefix_append _ _).trans hall
  refine (Total.of_triple (raiseIfCancelled_triple hparts)).seq fun _ => ?_
  by_cases hskip : (part.contentId.isSome || part.isInline) = true
  · have hfilter : [part].filter isExported = [] := by simp [isExported,hskip]
    simp only [hskip,if_true,hfilter,List.append_nil]
    exact .of_triple (Triple.ret fun now hdone => hdone)
  · have hfilter : [part].filter isExported = [part] := by simp [isExported,hskip]
    simp only [hskip,hfilter]
    exact (exportPart_total hnumbered part hparts).seq fun r =>
      .of_triple (Triple.ret fun now hdone => hdone messageId)

theorem messageStorage_ne_unfinished (message : Message) :
    messageStorage message ≠ .error .unfinished := by
  rw [messageStorage]
  split_ifs
  · exact nofun
  · split <;> exact nofun

theorem exportMessage_total (hnumbered : TellsNumbers fs) (message : Message)
    {all : List MessagePart} (hall : parts ++ attachments render message <+: all) :
    Total (Done u w parts result) (fun fuel => exportMessage u render fuel result message)
      (Done u w (parts ++ attachments render message)) (Stopped u w all) := by
  have hparts : parts <+: all := (List.prefix_append _ _).trans hall
  refine (Total.of_triple (raiseIfCancelled_triple hparts)).seq fun _ => ?_
  have hstored : Triple (Done u w parts result) (Prog.ofExcept (messageStorage message))
      (fun stored now => Done u w parts result now ∧ messageStorage message = .ok stored)
      (Stopped u w all) := by
    refine Triple.ofExcept (fun stored hstored now hdone => ⟨hdone,hstored⟩)
      fun e herror now hdone => hdone.stopped ?_ hparts
    rintro rfl
    exact messageStorage_ne_unfinished message herror
  refine (Total.of_triple hstored).seq fun stored => Total.assume fun hstored => ?_
  cases stored with
  | none =>
    have hnothing : attachments render message = [] := by rw [attachments,hstored]
    rw [hnothing,List.append_nil]
    exact .of_triple (Triple.ret fun now hdone => hdone)
  | some stored =>
    obtain ⟨relativePath,fileHash⟩ := stored
    have hrendered : Triple (Done u w parts result)
        (Prog.ofExcept ((render relativePath fileHash).mapError .storage))
        (fun rendered now => Done u w parts result now ∧
          render relativePath fileHash = .ok rendered) (Stopped u w all) := by
      cases hrender : render relativePath fileHash with
      | error message => exact fun now hdone => hdone.stopped (by simp) hparts
      | ok rendered => exact fun now hdone => ⟨hdone,rfl⟩
    refine (Total.of_triple hrendered).seq fun rendered => Total.assume fun hrendered => ?_
    have hattachments : attachments render message = rendered.filter isExported := by
      rw [attachments,hstored]
      show (match render relativePath fileHash with
        | .ok parts => parts.filter isExported
        | .error _ => []) = _
      rw [hrendered]
    rw [hattachments] at hall ⊢
    have hturn : ∀ done part rest, rendered = done ++ part :: rest → ∀ result,
        Total (Done u w (parts ++ done.filter isExported) result)
          (fun fuel => exportRendered u fuel message.id result part)
          (Done u w (parts ++ (done ++ [part]).filter isExported)) (Stopped u w all) := by
      intro done part rest hrest result
      have hbegin : parts ++ done.filter isExported ++ [part].filter isExported <+: all := by
        refine List.IsPrefix.trans ⟨rest.filter isExported,?_⟩ hall
        rw [hrest,List.append_cons,List.filter_append,List.filter_append]
        simp only [List.append_assoc]
      rw [List.filter_append,← List.append_assoc]
      exact exportRendered_total hnumbered message.id part hbegin
    have hloop := Total.accumulate_prefix
      (I := fun done result => Done u w (parts ++ done.filter isExported) result) rendered hturn result
    rwa [List.filter_nil,List.append_nil] at hloop

/-- A run ends, and it has published the first of the attachments, all of them if it returns. -/
theorem exportAttachments_total (hnumbered : TellsNumbers fs) (w : Folder fs)
    (messages : List Message) :
    Total (· = w) (fun fuel => exportAttachments u render fuel messages)
      (Done u w (messages.flatMap (attachments render)))
      (Stopped u w (messages.flatMap (attachments render))) := by
  have hstart : Done u w [] {} w := ⟨[],⟨.start,.nil⟩,rfl⟩
  have hloop : Total (Done u w [] {})
      (fun fuel => messages.foldlM (exportMessage u render fuel) {})
      (Done u w (messages.flatMap (attachments render)))
      (Stopped u w (messages.flatMap (attachments render))) := by
    refine Total.accumulate_prefix
      (I := fun done result => Done u w (done.flatMap (attachments render)) result) messages ?_ {}
    intro done message rest hrest result
    have hbegin : done.flatMap (attachments render) ++ attachments render message <+:
        messages.flatMap (attachments render) := by
      refine ⟨rest.flatMap (attachments render),?_⟩
      rw [hrest,List.flatMap_append,List.flatMap_cons,List.append_assoc]
    rw [List.flatMap_append,List.flatMap_singleton]
    exact exportMessage_total hnumbered message hbegin
  have hread : Triple (· = w) (get : FileProg fs (Folder fs))
      (fun seen now => now = w ∧ seen = w) (Stopped u w (messages.flatMap (attachments render))) :=
    Triple.read fun _ hnow => ⟨hnow,hnow⟩
  refine (Total.of_triple hread).seq fun seen => Total.assume fun hseen => ?_
  subst hseen
  cases hdirectory : seen.isDirectory with
  | false =>
    rintro _ rfl
    exact ⟨_,.of_eq rfl,hstart.stopped (by simp) (List.nil_prefix)⟩
  | true =>
    have hbody : Total (Done u seen [] {})
        (fun fuel => messages.foldlM (exportMessage u render fuel) {} >>= fun result =>
          raiseIfCancelled >>= fun _ => pure result)
        (Done u seen (messages.flatMap (attachments render)))
        (Stopped u seen (messages.flatMap (attachments render))) := by
      refine hloop.seq fun result => .of_triple ?_
      exact (raiseIfCancelled_triple (List.prefix_refl _)).seq fun _ => Triple.ret fun _ hdone => hdone
    exact hbody.consequence (fun _ hnow => hnow ▸ hstart) (fun _ _ hdone => hdone)
      fun _ _ hstopped => hstopped

/-- The exported parts have names that are not too long before they get a number. -/
theorem Exported.size_base (h : u.Lawful) {exports : List (Export fs)} {now : Folder fs}
    (hexported : Exported u w parts exports now) {e : Export fs} (he : e ∈ exports) :
    Utf8.size e.base ≤ maxFilenameBytes := by
  obtain ⟨-,hmatches⟩ := hexported
  induction hmatches with
  | nil => cases he
  | cons hmatch _ ih =>
    rcases List.mem_cons.mp he with rfl | he
    · obtain ⟨sanitized,hsanitized,hbase⟩ := Option.map_eq_some_iff.mp hmatch.1
      rw [← hbase]
      exact size_sanitize h hsanitized
    · exact ih he

/-- Every run ends, nothing is overwritten, and the published names are new and not the same; in each
state of the run the first free number is taken, and a name is too long exactly if that number
leaves it no room. -/
theorem exportAttachments_runs (h : u.Lawful) (hnumbered : TellsNumbers fs) (w : Folder fs)
    (messages : List Message) :
    ∃ outcome w', Converges (fun fuel => exportAttachments u render fuel messages) w (outcome,w') ∧
      outcome ≠ .error .unfinished ∧
      ∃ parts exports last n, parts <+: messages.flatMap (attachments render) ∧
        List.Forall₂ (Matches u) parts exports ∧ Exporting w exports last ∧ w' = last.after n ∧
        Exports w exports w' ∧
        ((∀ e ∈ exports, Utf8.size e.place.name ≤ maxFilenameBytes) ↔
          ∀ e ∈ exports, e.FirstFits) ∧
        ∀ result, outcome = .ok result →
          parts = messages.flatMap (attachments render) ∧ w' = last ∧
            result.files = exports.map (·.place) := by
  have htotal : Total (· = w) (fun fuel => exportAttachments u render fuel messages) _ _ :=
    exportAttachments_total hnumbered w messages
  have hfits : ∀ {parts exports last}, Exported u w parts exports last →
      ((∀ e ∈ exports, Utf8.size e.place.name ≤ maxFilenameBytes) ↔ ∀ e ∈ exports, e.FirstFits) :=
    fun hexported => forall₂_congr fun e he =>
      (hexported.1.linked he).size_iff (hexported.size_base h he)
  obtain ⟨⟨outcome,w'⟩,hconverges,hholds⟩ := htotal w rfl
  refine ⟨outcome,w',hconverges,?_⟩
  cases outcome with
  | ok result =>
    obtain ⟨exports,hexported,hfiles⟩ := hholds
    refine ⟨nofun,_,exports,w',0,List.prefix_refl _,hexported.2,hexported.1,rfl,
      hexported.1.facts,hfits hexported,?_⟩
    rintro _ ⟨⟩
    exact ⟨rfl,rfl,hfiles⟩
  | error e =>
    obtain ⟨hfinished,done,exports,last,n,hdone,hexported,rfl⟩ := hholds
    exact ⟨fun heq => hfinished (Except.error.inj heq),done,exports,last,n,hdone,hexported.2,
      hexported.1,rfl,hexported.1.facts.wait (last.grows_after n) (last.published_after n),
      hfits hexported,nofun⟩

end

theorem decimalText_injective {m n : Nat} (h : decimalText m = decimalText n) : m = n := by
  have hdigits : Nat.toDigits 10 m = Nat.toDigits 10 n := pyText_injective h
  have hnumber := congrArg (Nat.ofDigitChars 10 · 0) hdigits
  simpa only [Nat.ofDigitChars_ten_toDigits] using hnumber

theorem tellsNumbers_plainFileSystem : TellsNumbers plainFileSystem := by
  intro filename m n h
  have hname : counterName filename (m + 1 : Nat) = counterName filename (n + 1 : Nat) :=
    congrArg Place.name h
  rw [counterName_eq,counterName_eq,counterText,counterText] at hname
  have hdigits := List.append_cancel_right (List.append_cancel_left hname)
  have hnumber := decimalText_injective (List.append_cancel_left (List.append_cancel_right hdigits))
  omega

/-- A mail of one attachment, with a long name. -/
def renderKana (_ _ : String) : Except String (List MessagePart) :=
  .ok [⟨none,some kanaName,[1,2,3],false⟩]

def storedMail : Message where
  id := 1
  accountId := "account"
  messageId := none
  contentKey := "content"
  sourceItemKey := .gmail 1
  relativePath := some "mail.eml"
  fileHash := some "hash"
  envelope := {}
  sizeBytes := none

/-- The name is taken, and another program is about to take the next one. -/
def contestedFolder : Folder plainFileSystem :=
  ⟨[(here kanaName,.file [])],[[],[(here (counterName kanaName 1),.file [])]],[],[],true⟩

theorem exportAttachments_runs_kana : ∃ outcome w',
    Converges (fun fuel => exportAttachments plainUnicode renderKana fuel [storedMail,storedMail])
      contestedFolder (outcome,w') ∧
    outcome ≠ .error .unfinished ∧ w'.kindAt (here kanaName) = some (.file []) ∧
    ∀ result, outcome = .ok result → result.files.length = 2 ∧ result.files.Nodup ∧
      here kanaName ∉ result.files := by
  have htaken : contestedFolder.kindAt (here kanaName) = some (.file []) := rfl
  obtain ⟨outcome,w',hconverges,hfinished,parts,exports,last,n,-,hmatches,-,-,hexports,-,hok⟩ :=
    @exportAttachments_runs plainFileSystem plainUnicode renderKana plainUnicode_lawful
      tellsNumbers_plainFileSystem contestedFolder [storedMail,storedMail]
  refine ⟨outcome,w',hconverges,hfinished,hexports.kept _ _ htaken,fun result hresult => ?_⟩
  obtain ⟨hparts,-,hfiles⟩ := hok result hresult
  rw [hfiles]
  refine ⟨?_,hexports.distinct,fun hmem => ?_⟩
  · rw [List.length_map,← hmatches.length_eq,hparts]
    rfl
  · obtain ⟨e,he,hplace⟩ := List.mem_map.mp hmem
    have hfresh := hexports.fresh e he
    rw [hplace,htaken] at hfresh
    cases hfresh

theorem exportAttachments_kana_tooLong :
    (exportAttachments plainUnicode renderKana 3 [storedMail,storedMail]
      (⟨[],[],[],[],true⟩ : Folder plainFileSystem)).1 =
      .ok { files := [here kanaName,here (counterName kanaName 1)] } ∧
    Utf8.size (counterName kanaName 1) = 257 := by
  refine ⟨?_,?_⟩ <;> decide +kernel

end Attachments

end MailDock
