import MailDock.Lib.Fuel
import MailDock.Attachments.Names

/-!
# The destination folder

What saving and exporting attachments see and do of the folder they write to, and the names they try
there.  Other programs may create files and links before each access.  A payload is written under a
random name of its own first; those files are left out.

## Main definitions

- `FileSystem`, `Folder` — the names of files, and the entries of the folder
- `numberedName` — the names that are tried in turn

## Main results

- `numberedName_safe` — when a numbered name passes the sanitizer unchanged
-/

namespace MailDock

namespace Attachments

open Hoare

/-- A place in the folder or below it. -/
structure Place where
  parents : List PyText
  name : PyText
deriving DecidableEq, Repr

def here (name : PyText) : Place := ⟨[],name⟩

/-- Where a symbolic link leads; `found` says that something is there. -/
inductive Target
  | inside (place : Place)
  | outside (found : Bool)
deriving DecidableEq, Repr

inductive Kind
  | file (payload : List UInt8)
  | directory
  | link (target : Target)
deriving DecidableEq, Repr

/-- Places with one key are the same entry, where case or normalisation do not matter. -/
structure FileSystem where
  Key : Type
  decEq : DecidableEq Key
  key : Place → Key
  accepts : PyText → Bool

instance (fs : FileSystem) : DecidableEq fs.Key := fs.decEq

structure Folder (fs : FileSystem) where
  entries : List (fs.Key × Kind)
  /-- What other programs create before each of the next accesses. -/
  coming : List (List (fs.Key × Kind)) := []
  /-- Where files have been published. -/
  published : List Place := []
  /-- What the next checks of the token find. -/
  cancelled : List Bool := []
  isDirectory : Bool := true

inductive Failure
  | storage (message : String)
  | fileExists | os | value | cancelled
  | unfinished
deriving DecidableEq, Repr

/-- A system that tells all names apart and limits their characters, not their bytes. -/
def plainFileSystem : FileSystem where
  Key := Place
  decEq := inferInstance
  key place := place
  accepts name := name.length ≤ 255

variable {fs : FileSystem}

namespace Folder

/-- Creating what is there has no effect: the first entry is the one that counts. -/
def later (w : Folder fs) : Folder fs :=
  match w.coming with
  | [] => w
  | batch :: rest => { w with entries := w.entries ++ batch, coming := rest }

def kindAt (w : Folder fs) (place : Place) : Option Kind := w.entries.lookup (fs.key place)

/-- `Path.exists`, which follows links. -/
def found (w : Folder fs) (place : Place) : Bool :=
  match w.kindAt place with
  | none => false
  | some (.link (.inside target)) => (w.kindAt target).isSome
  | some (.link (.outside found)) => found
  | some _ => true

def isLink (w : Folder fs) (place : Place) : Bool :=
  match w.kindAt place with
  | some (.link _) => true
  | _ => false

/-- Where a name leads; `none` is outside the folder. -/
def resolve (w : Folder fs) (name : PyText) : Option Place :=
  match w.kindAt (here name) with
  | some (.link (.inside target)) => some target
  | some (.link (.outside _)) => none
  | _ => some (here name)

end Folder

abbrev FileProg (fs : FileSystem) := Prog Failure (Folder fs)

/-! ## Accesses -/

/-- Before an access, the others have their turn. -/
def others : FileProg fs Unit := modify Folder.later

/-- A name the system does not accept raises. -/
def checkName (name : PyText) : FileProg fs Unit :=
  if fs.accepts name then pure () else throw .os

def pathExists (place : Place) : FileProg fs Bool := do
  others
  checkName place.name
  let w ← get
  pure (w.found place)

def pathIsSymlink (place : Place) : FileProg fs Bool := do
  others
  checkName place.name
  let w ← get
  pure (w.isLink place)

/-- `resolve_within`. -/
def resolveWithin (name : PyText) : FileProg fs Place := do
  others
  let w ← get
  match w.resolve name with
  | some place => pure place
  | none => throw .value

/-- `os.link` of the temporary file. -/
def publish (place : Place) (payload : List UInt8) : FileProg fs Unit := do
  others
  checkName place.name
  let w ← get
  if (w.kindAt place).isSome then throw .fileExists
  else modify fun w => { w with
    entries := w.entries ++ [(fs.key place,.file payload)]
    published := w.published ++ [place] }

def raiseIfCancelled : FileProg fs Unit := do
  let w ← get
  match w.cancelled with
  | [] => pure ()
  | answer :: rest =>
    set { w with cancelled := rest }
    if answer then throw .cancelled else pure ()

/-- `sanitize_attachment_name`; a surrogate raises a `UnicodeEncodeError`. -/
def sanitize (u : Unicodedata) (name : PyText) : FileProg fs SanitizedName :=
  match sanitizeAttachmentName u name with
  | some sanitized => pure sanitized
  | none => throw .value

/-- A part of a rendered message. -/
structure MessagePart where
  contentId : Option PyText
  filename : Option PyText
  payload : List UInt8
  isInline : Bool
deriving DecidableEq, Repr

/-! ## What accesses do -/

section
variable (w : Folder fs) (place : Place)

theorem pathExists_eq : pathExists place w =
    (if fs.accepts place.name then .ok (w.later.found place) else .error .os,w.later) := by
  by_cases h : fs.accepts place.name = true
  · rw [if_pos h]
    show Prog.bind (checkName place.name) _ w.later = _
    rw [checkName,if_pos h]
    rfl
  · rw [if_neg h]
    show Prog.bind (checkName place.name) _ w.later = _
    rw [checkName,if_neg h]
    rfl

theorem pathIsSymlink_eq : pathIsSymlink place w =
    (if fs.accepts place.name then .ok (w.later.isLink place) else .error .os,w.later) := by
  by_cases h : fs.accepts place.name = true
  · rw [if_pos h]
    show Prog.bind (checkName place.name) _ w.later = _
    rw [checkName,if_pos h]
    rfl
  · rw [if_neg h]
    show Prog.bind (checkName place.name) _ w.later = _
    rw [checkName,if_neg h]
    rfl

theorem resolveWithin_eq (name : PyText) : resolveWithin name w =
    (match w.later.resolve name with
      | some place => .ok place
      | none => .error .value,w.later) := by
  show (match w.later.resolve name with
    | some place => (pure place : FileProg fs Place)
    | none => throw Failure.value) w.later = _
  cases w.later.resolve name <;> rfl

/-- The folder with a file that has just been published. -/
def Folder.add (w : Folder fs) (place : Place) (payload : List UInt8) : Folder fs :=
  { w with
    entries := w.entries ++ [(fs.key place,.file payload)]
    published := w.published ++ [place] }

theorem publish_eq (payload : List UInt8) : publish place payload w =
    if fs.accepts place.name = false then (.error .os,w.later)
    else if (w.later.kindAt place).isSome then (.error .fileExists,w.later)
    else (.ok (),w.later.add place payload) := by
  cases h : fs.accepts place.name with
  | false =>
    rw [if_pos rfl]
    show Prog.bind (checkName place.name) _ w.later = _
    rw [checkName,h]
    rfl
  | true =>
    rw [if_neg (by simp)]
    show Prog.bind (checkName place.name) _ w.later = _
    rw [checkName,h]
    show (if (w.later.kindAt place).isSome then (throw .fileExists : FileProg fs Unit)
      else modify fun w => w.add place payload) w.later = _
    by_cases htaken : (w.later.kindAt place).isSome = true
    · rw [if_pos htaken,if_pos htaken]
      rfl
    · rw [if_neg htaken,if_neg htaken]
      rfl

end

theorem publish_ok {w w' : Folder fs} {place : Place} {payload : List UInt8}
    (h : publish place payload w = (.ok (),w')) :
    w.later.kindAt place = none ∧ w' = w.later.add place payload := by
  rw [publish_eq] at h
  by_cases haccepts : fs.accepts place.name = false
  · rw [if_pos haccepts] at h
    cases h
  · rw [if_neg haccepts] at h
    by_cases htaken : (w.later.kindAt place).isSome = true
    · rw [if_pos htaken] at h
      cases h
    · rw [if_neg htaken] at h
      cases h
      exact ⟨by simpa using htaken,rfl⟩

theorem publish_error {w w' : Folder fs} {place : Place} {payload : List UInt8} {e : Failure}
    (h : publish place payload w = (.error e,w')) : w' = w.later := by
  rw [publish_eq] at h
  by_cases haccepts : fs.accepts place.name = false
  · rw [if_pos haccepts] at h
    cases h
    rfl
  · rw [if_neg haccepts] at h
    by_cases htaken : (w.later.kindAt place).isSome = true
    · rw [if_pos htaken] at h
      cases h
      rfl
    · rw [if_neg htaken] at h
      cases h

/-- A file is not published where something is. -/
theorem publish_fileExists {w w' : Folder fs} {place : Place} {payload : List UInt8}
    (h : publish place payload w = (.error .fileExists,w')) :
    (w.later.kindAt place).isSome = true := by
  rw [publish_eq] at h
  by_cases haccepts : fs.accepts place.name = false
  · rw [if_pos haccepts] at h
    cases h
  · rw [if_neg haccepts] at h
    by_cases htaken : (w.later.kindAt place).isSome = true
    · exact htaken
    · rw [if_neg htaken] at h
      cases h

theorem resolveWithin_ok {w w' : Folder fs} {name : PyText} {place : Place}
    (h : resolveWithin name w = (.ok place,w')) :
    w.later.resolve name = some place ∧ w' = w.later := by
  rw [resolveWithin_eq] at h
  cases hresolve : w.later.resolve name with
  | none =>
    rw [hresolve] at h
    cases h
  | some p =>
    rw [hresolve] at h
    cases h
    exact ⟨rfl,rfl⟩

/-- Everything that was there still is. -/
def Folder.Grows (w w' : Folder fs) : Prop :=
  ∀ place kind, w.kindAt place = some kind → w'.kindAt place = some kind

namespace Folder.Grows

variable {w w' w'' : Folder fs}

theorem refl (w : Folder fs) : w.Grows w := fun _ _ => id

theorem trans (h : w.Grows w') (h' : w'.Grows w'') : w.Grows w'' :=
  fun place kind hkind => h' place kind (h place kind hkind)

theorem of_append {more : List (fs.Key × Kind)} (h : w'.entries = w.entries ++ more) :
    w.Grows w' := by
  intro place kind hkind
  rw [Folder.kindAt] at hkind ⊢
  rw [h,List.lookup_append,hkind,Option.some_or]

theorem later (w : Folder fs) : w.Grows w.later := by
  cases h : w.coming with
  | nil =>
    rw [Folder.later,h]
    exact refl w
  | cons batch rest =>
    rw [Folder.later,h]
    exact of_append rfl

theorem add (w : Folder fs) (place : Place) (payload : List UInt8) :
    w.Grows (w.add place payload) := of_append rfl

theorem free (h : w.Grows w') {place : Place} (hfree : w'.kindAt place = none) :
    w.kindAt place = none := by
  cases hkind : w.kindAt place with
  | none => rfl
  | some kind =>
    rw [h place kind hkind] at hfree
    cases hfree

end Folder.Grows

theorem kindAt_add (w : Folder fs) {place : Place} (payload : List UInt8)
    (hfree : w.kindAt place = none) :
    (w.add place payload).kindAt place = some (.file payload) := by
  rw [Folder.kindAt] at hfree
  rw [Folder.kindAt,Folder.add,List.lookup_append,hfree,Option.none_or,List.lookup_cons_self]

/-- What is not found is free, or a link that leads nowhere. -/
theorem kindAt_eq_none_iff {w : Folder fs} {place : Place} (h : w.found place = false) :
    w.kindAt place = none ↔ w.isLink place = false := by
  rw [Folder.found] at h
  rw [Folder.isLink]
  cases hkind : w.kindAt place with
  | none => simp
  | some kind =>
    rw [hkind] at h
    cases kind with
    | file payload => cases h
    | directory => cases h
    | link target => simp

/-! ## Numbered names -/

/-- `Path.stem` and `Path.suffix`. -/
def splitSuffix (name : PyText) : PyText × PyText :=
  match PyText.rsplit dot name with
  | some (stem,extension) => if stem ≠ [] ∧ extension ≠ [] then (stem,dot :: extension) else (name,[])
  | none => (name,[])

/-- `str` of a number. -/
def decimalText : Int → PyText
  | .ofNat n => pyText (Nat.toDigits 10 n)
  | .negSucc n => .ofChar '-' :: pyText (Nat.toDigits 10 (n + 1))

/-- `f"{stem} ({counter}){suffix}"`. -/
def counterName (filename : PyText) (counter : Int) : PyText :=
  (splitSuffix filename).1 ++ pyText " (".toList ++ decimalText counter ++
    .ofChar ')' :: (splitSuffix filename).2

/-- The name itself, and then the name with a number. -/
def numberedName (filename : PyText) : Nat → PyText
  | 0 => filename
  | n + 1 => counterName filename (n + 1)

theorem splitSuffix_append (name : PyText) :
    (splitSuffix name).1 ++ (splitSuffix name).2 = name := by
  rw [splitSuffix]
  cases hcut : PyText.rsplit dot name with
  | none => exact List.append_nil name
  | some cut =>
    obtain ⟨stem,extension⟩ := cut
    show (if stem ≠ [] ∧ extension ≠ [] then _ else _ : PyText × PyText).1 ++
      (if stem ≠ [] ∧ extension ≠ [] then _ else _ : PyText × PyText).2 = name
    by_cases h : stem ≠ [] ∧ extension ≠ []
    · rw [if_pos h]
      exact (PyText.eq_of_rsplit hcut).1.symm
    · rw [if_neg h]
      exact List.append_nil name

/-- The characters of a number in parentheses. -/
def CounterChar (c : CodePoint) : Prop :=
  c.val = 0x20 ∨ c.val = 0x28 ∨ c.val = 0x29 ∨ c.val = 0x2d ∨ (0x30 ≤ c.val ∧ c.val ≤ 0x39)

instance (c : CodePoint) : Decidable (CounterChar c) := inferInstanceAs (Decidable (_ ∨ _))

/-- What stands between the stem and the suffix. -/
def counterText (counter : Int) : PyText :=
  pyText " (".toList ++ decimalText counter ++ [.ofChar ')']

theorem counterName_eq (filename : PyText) (counter : Int) : counterName filename counter =
    (splitSuffix filename).1 ++ (counterText counter ++ (splitSuffix filename).2) := by
  simp [counterName,counterText]

theorem counterChar_toDigits {n : Nat} {c : CodePoint} (hc : c ∈ pyText (Nat.toDigits 10 n)) :
    CounterChar c := by
  obtain ⟨d,hd,rfl⟩ := List.mem_map.mp hc
  have hdigit := Nat.isDigit_of_mem_toDigits (by decide) (by decide) hd
  have hval : (CodePoint.ofChar d).val = d.val.toNat := rfl
  simp only [Char.isDigit,Bool.and_eq_true,decide_eq_true_eq,ge_iff_le,
    UInt32.le_iff_toNat_le] at hdigit
  have hlow : '0'.val.toNat = 48 := rfl
  have hhigh : '9'.val.toNat = 57 := rfl
  have hrange : 48 ≤ d.val.toNat ∧ d.val.toNat ≤ 57 := hdigit
  rw [CounterChar,hval]
  omega

theorem counterChar_counterText {counter : Int} {c : CodePoint} (hc : c ∈ counterText counter) :
    CounterChar c := by
  have hblank : CounterChar (.ofChar ' ') := by decide
  have hopen : CounterChar (.ofChar '(') := by decide
  have hclose : CounterChar (.ofChar ')') := by decide
  have hminus : CounterChar (.ofChar '-') := by decide
  rcases List.mem_append.mp hc with hc | hc
  · rcases List.mem_append.mp hc with hc | hc
    · have hmem : c = .ofChar ' ' ∨ c = .ofChar '(' := by simpa [pyText] using hc
      rcases hmem with rfl | rfl
      · exact hblank
      · exact hopen
    · cases counter with
      | ofNat n => exact counterChar_toDigits hc
      | negSucc n =>
        rcases List.mem_cons.mp hc with rfl | hc
        · exact hminus
        · exact counterChar_toDigits hc
  · rw [List.mem_singleton.mp hc]
    exact hclose

theorem CounterChar.spec {c : CodePoint} (h : CounterChar c) : Plain c ∧ c ≠ dot ∧
    Utf8.isSurrogate c = false ∧ c.val < 0x80 := by
  have hall : ∀ n : Fin 0x40, (n.val = 0x20 ∨ n.val = 0x28 ∨ n.val = 0x29 ∨ n.val = 0x2d ∨
      (0x30 ≤ n.val ∧ n.val ≤ 0x39)) →
      (isForbidden ⟨n.val,by omega⟩ || isControl ⟨n.val,by omega⟩) = false := by decide
  have hlt : c.val < 0x40 := by
    rw [CounterChar] at h
    omega
  refine ⟨plain_of_not (hall ⟨c.val,hlt⟩ h),?_,?_,by omega⟩
  · rintro rfl
    exact absurd h (by decide)
  · rw [Utf8.isSurrogate,Bool.and_eq_false_iff,decide_eq_false_iff_not,decide_eq_false_iff_not]
    omega

theorem counterText_cons (counter : Int) : ∃ rest, counterText counter = .ofChar ' ' :: rest :=
  ⟨_,rfl⟩

theorem size_counterText (counter : Int) :
    Utf8.size (counterText counter) = 3 + (decimalText counter).length := by
  have hascii : ∀ text : PyText, (∀ c ∈ text, c.val < 0x80) → Utf8.size text = text.length := by
    intro text htext
    induction text with
    | nil => rfl
    | cons c text ih =>
      have hc : Utf8.size [c] = 1 := by
        rw [Utf8.size,Utf8.encode,List.flatMap_singleton,Utf8.encodeCodePoint,
          if_pos (htext c List.mem_cons_self)]
        rfl
      rw [Utf8.size_cons,hc,ih fun d hd => htext d (List.mem_cons_of_mem c hd),List.length_cons]
      omega
  rw [hascii _ fun c hc => (counterChar_counterText hc).spec.2.2.2,counterText,List.length_append,
    List.length_append]
  have hopen : (pyText " (".toList).length = 2 := rfl
  rw [hopen,List.length_singleton]
  omega

theorem size_counterName (filename : PyText) (counter : Int) :
    Utf8.size (counterName filename counter) =
      Utf8.size filename + 3 + (decimalText counter).length := by
  have hsplit := congrArg Utf8.size (splitSuffix_append filename)
  rw [Utf8.size_append] at hsplit
  rw [counterName_eq,Utf8.size_append,Utf8.size_append,size_counterText]
  omega

/-- How a name with a file's stem and suffix is built. -/
theorem splitSuffix_cases (name : PyText) :
    (splitSuffix name = (name,[]) ∧ (dot ∉ name ∨ name.head? = some dot ∨
      name.getLast? = some dot)) ∨
    ∃ stem extension, stem ≠ [] ∧ dot ∉ extension ∧ name = stem ++ dot :: extension ∧
      splitSuffix name = (stem,dot :: extension) := by
  rw [splitSuffix]
  cases hcut : PyText.rsplit dot name with
  | none => exact .inl ⟨rfl,.inl (PyText.rsplit_eq_none.mp hcut)⟩
  | some cut =>
    obtain ⟨stem,extension⟩ := cut
    obtain ⟨rfl,hextension⟩ := PyText.eq_of_rsplit hcut
    by_cases h : stem ≠ [] ∧ extension ≠ []
    · exact .inr ⟨stem,extension,h.1,hextension,rfl,if_pos h⟩
    · refine .inl ⟨if_neg h,.inr ?_⟩
      rw [not_and_or,not_not,not_not] at h
      rcases h with rfl | rfl
      · exact .inl rfl
      · exact .inr (by simp)

section
variable {name : PyText} {counter : Int}

theorem mem_counterName {c : CodePoint} (hc : c ∈ counterName name counter) :
    c ∈ name ∨ CounterChar c := by
  rw [counterName_eq] at hc
  rcases List.mem_append.mp hc with hc | hc
  · exact .inl (splitSuffix_append name ▸ List.mem_append_left _ hc)
  · rcases List.mem_append.mp hc with hc | hc
    · exact .inr (counterChar_counterText hc)
    · exact .inl (splitSuffix_append name ▸ List.mem_append_right _ hc)

theorem dot_notMem_counterText (counter : Int) : dot ∉ counterText counter :=
  fun h => (counterChar_counterText h).spec.2.1 rfl

theorem isReserved_counterName (hdevice : isReserved (basename name) = false) :
    isReserved (basename (counterName name counter)) = false := by
  have hblank : isReserved (basename (counterName name counter)) = false ∨
      basename (counterName name counter) = basename name := by
    rw [counterName_eq]
    by_cases hdot : dot ∈ (splitSuffix name).1
    · right
      rw [basename_of_mem hdot]
      have hsame := basename_of_mem (b := (splitSuffix name).2) hdot
      rw [splitSuffix_append] at hsame
      exact hsame.symm
    · left
      rw [basename_append hdot,basename_append (dot_notMem_counterText counter)]
      obtain ⟨rest,hrest⟩ := counterText_cons counter
      refine isReserved_of_mem (c := .ofChar ' ') (by decide) (by decide) ?_
      rw [hrest]
      exact List.mem_append_right _ (List.mem_append_left _ List.mem_cons_self)
  rcases hblank with hfalse | hsame
  · exact hfalse
  · rw [hsame]
    exact hdevice

theorem trailing_counterName (htrailing : ∀ c ∈ name.getLast?, isTrailing c = false) :
    ∀ c ∈ (counterName name counter).getLast?, isTrailing c = false := by
  intro c hc
  rw [counterName_eq] at hc
  rcases splitSuffix_cases name with ⟨hsplit,-⟩ | ⟨stem,extension,-,-,hname,hsplit⟩
  · rw [hsplit,List.append_nil,counterText,← List.append_assoc,List.getLast?_concat] at hc
    cases hc
    decide
  · rw [hsplit,← List.append_assoc,getLast?_append_dot] at hc
    rw [hname,getLast?_append_dot] at htrailing
    exact htrailing c hc

/-- A safe name stays safe with a number as long as it is not too long. -/
theorem safeName_counterName (hsafe : SafeName name)
    (hsize : Utf8.size (counterName name counter) ≤ maxFilenameBytes) :
    SafeName (counterName name counter) where
  nonempty := by
    rw [counterName_eq]
    obtain ⟨rest,hrest⟩ := counterText_cons counter
    simp [hrest]
  length := hsize
  plain c hc := (mem_counterName hc).elim (hsafe.plain c) fun hc => hc.spec.1
  trailing := trailing_counterName hsafe.trailing
  device := isReserved_counterName hsafe.device

theorem encodable_counterName (h : Encodable name) : Encodable (counterName name counter) :=
  fun c hc => (mem_counterName hc).elim (h c) fun hc => hc.spec.2.2.1

theorem normalize_counterName {u : Unicodedata} (h : u.Lawful) (hnormal : u.normalize name = name) :
    u.normalize (counterName name counter) = counterName name counter := by
  have hascii := h.ascii (counterText counter) fun c hc => (counterChar_counterText hc).spec.2.2.2
  have hstem := h.left hnormal ⟨_,splitSuffix_append name⟩
  have hsuffix := h.right hnormal ⟨_,splitSuffix_append name⟩
  rw [counterName_eq]
  refine h.join _ _ ?_ hstem (h.join _ _ ?_ hascii hsuffix)
  · intro c hc
    obtain ⟨rest,hrest⟩ := counterText_cons counter
    rw [hrest] at hc
    cases hc
    decide
  · intro c hc
    rcases splitSuffix_cases name with ⟨hsplit,-⟩ | ⟨stem,extension,-,-,-,hsplit⟩
    · rw [hsplit] at hc
      cases hc
    · rw [hsplit] at hc
      cases hc
      decide

/-- The number leaves the extension as it is. -/
theorem extensionOf_counterName (u : Unicodedata)
    (htrailing : ∀ c ∈ name.getLast?, isTrailing c = false) :
    extensionOf u (counterName name counter) = extensionOf u name := by
  have hlast : name.getLast? ≠ some dot := by
    intro hdot
    have := htrailing dot hdot
    exact absurd this (by decide)
  rw [counterName_eq]
  rcases splitSuffix_cases name with ⟨hsplit,hcases⟩ | ⟨stem,extension,hstem,hdot,hname,hsplit⟩
  · have hnone : splitExtension name = none := by
      rcases hcases with hdot | hhead | hdot
      · exact splitExtension_eq_none.mpr (.inr hdot)
      · exact splitExtension_eq_none.mpr (.inl hhead)
      · exact absurd hdot hlast
    have hcounter : splitExtension (name ++ counterText counter) = none := by
      rcases splitExtension_eq_none.mp hnone with hhead | hdot
      · refine splitExtension_eq_none.mpr (.inl ?_)
        rw [List.head?_append,hhead,Option.some_or]
      · refine splitExtension_eq_none.mpr (.inr fun hmem => ?_)
        exact (List.mem_append.mp hmem).elim hdot (dot_notMem_counterText counter)
    rw [hsplit,List.append_nil,extensionOf,extensionOf,hnone,hcounter]
  · have hhead : (stem ++ (counterText counter ++ dot :: extension)).head? = name.head? := by
      obtain ⟨c,stem,rfl⟩ := List.exists_cons_of_ne_nil hstem
      rw [hname]
      rfl
    have hjoin : stem ++ (counterText counter ++ dot :: extension) =
        (stem ++ counterText counter) ++ dot :: extension := by rw [List.append_assoc]
    rw [hsplit,extensionOf,extensionOf,splitExtension,splitExtension,hhead]
    by_cases hdothead : name.head? = some dot
    · rw [if_pos hdothead,if_pos hdothead]
    · rw [if_neg hdothead,if_neg hdothead,hjoin,PyText.rsplit_append hdot,hname,
        PyText.rsplit_append hdot]
      rfl

/-- A number keeps a safe name stable and its class the same, unless it gets too long. -/
theorem sanitizeAttachmentName_counterName {u : Unicodedata} (h : u.Lawful) (hsafe : SafeName name)
    (hnormal : u.normalize name = name) (hencodable : Encodable name)
    (hsize : Utf8.size (counterName name counter) ≤ maxFilenameBytes) :
    (sanitizeAttachmentName u (counterName name counter)).map (·.name) =
      some (counterName name counter) :=
  sanitizeAttachmentName_of_safe h (safeName_counterName hsafe hsize)
    (normalize_counterName h hnormal) (encodable_counterName hencodable)

end

end Attachments

end MailDock
