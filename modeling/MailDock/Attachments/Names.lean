import MailDock.Domain.Text

/-!
# Attachment names

`domain/attachments.py`.  `sanitize_attachment_name` replaces, strips and escapes, and cuts what is
left to 255 bytes at last.

## Main definitions

- `Unicodedata` — NFC and case folding
- `sanitizeAttachmentName`
- `cleanName` — the name before it is cut
- `CutsWell` — cutting it leaves a name that would not be changed again

## Main result

- `sanitizeAttachmentName_iff` — when the result is safe and stable
-/

namespace MailDock

namespace Attachments

/-- `unicodedata.normalize("NFC",…)`, `str.casefold` and `unicodedata.decimal`. -/
structure Unicodedata where
  normalize : PyText → PyText
  casefold : PyText → PyText
  decimal : CodePoint → Option Nat

/-! ## `domain/attachments.py` -/

def maxFilenameBytes : Nat := 255

def fallbackAttachmentName : PyText := pyText "attachment".toList

def isPathSeparator (c : CodePoint) : Bool := (pyText "/\\".toList).contains c

def isForbidden (c : CodePoint) : Bool := (pyText "<>:\"/\\|?*".toList).contains c

/-- The category `Cc`. -/
def isControl (c : CodePoint) : Bool := c.val ≤ 0x1f || (0x7f ≤ c.val && c.val ≤ 0x9f)

def isTrailing (c : CodePoint) : Bool := (pyText ". ".toList).contains c

def executableExtensions : List PyText :=
  [".exe",".scr",".js",".vbs",".lnk",".bat",".cmd",".ps1"].map fun s => pyText (String.toList s)

def reservedNames : List PyText :=
  ["con","prn","aux","nul","com1","com2","com3","com4","com5","com6","com7","com8","com9",
    "lpt1","lpt2","lpt3","lpt4","lpt5","lpt6","lpt7","lpt8","lpt9"].map fun s =>
      pyText (String.toList s)

/-- `re.IGNORECASE`: no other code point folds to a letter of a reserved name. -/
def lowerAscii (c : CodePoint) : CodePoint :=
  if h : 0x41 ≤ c.val ∧ c.val ≤ 0x5a then ⟨c.val + 0x20,CodePoint.small_lt h⟩ else c

def isReserved (basename : PyText) : Bool := reservedNames.contains (basename.map lowerAscii)

inductive Warning
  | pathComponent | forbiddenCharacter | controlCharacter | trailingCharacter | emptyName
  | reservedName | truncated | executableExtension
deriving DecidableEq, Repr

structure SanitizedName where
  name : PyText
  warnings : List Warning
deriving DecidableEq, Repr

def SanitizedName.isExecutable (s : SanitizedName) : Bool :=
  s.warnings.contains .executableExtension

/-- `value.encode("utf-8")`, which raises for a surrogate. -/
def encodeUtf8 (value : PyText) : Option (List UInt8) :=
  if value.any Utf8.isSurrogate then none else some (Utf8.encode value)

def truncateUtf8 (value : PyText) (maxBytes : Nat) : Option PyText := do
  let encoded ← encodeUtf8 value
  pure (if encoded.length ≤ maxBytes then value else Utf8.takeBytes maxBytes value)

def dot : CodePoint := .ofChar '.'

/-- The text before the last dot and the one from it on; `none` if there is no dot, or one in
front. -/
def splitExtension (value : PyText) : Option (PyText × PyText) :=
  if value.head? = some dot then none
  else (PyText.rsplit dot value).map fun (stem,extension) => (stem,dot :: extension)

def truncatePreservingExtension (value : PyText) (maxBytes : Nat) : Option PyText := do
  let encoded ← encodeUtf8 value
  if encoded.length ≤ maxBytes then pure value
  else
    match splitExtension value with
    | none => truncateUtf8 value maxBytes
    | some (stem,extension) =>
      let extensionBytes ← encodeUtf8 extension
      if maxBytes ≤ extensionBytes.length then truncateUtf8 extension maxBytes
      else
        let stem ← truncateUtf8 stem (maxBytes - extensionBytes.length)
        pure (stem ++ extension)

/-- `_PATH_SEPARATOR.split(value)[-1]`. -/
def lastComponent (value : PyText) : PyText := value.rtakeWhile fun c => !isPathSeparator c

def replaceCharacters (value : PyText) : PyText :=
  value.map fun c => if isForbidden c || isControl c then .ofChar '_' else c

def basename (value : PyText) : PyText := value.takeWhile (· ≠ dot)

def escapeReserved (value : PyText) : PyText :=
  if isReserved (basename value) then
    basename value ++ .ofChar '_' :: value.drop (basename value).length
  else value

/-- The value that `replaceCharacters` yields is stripped, and replaced if nothing is left. -/
def stripTrailing (value : PyText) : PyText :=
  if value.rdropWhile isTrailing = [] then fallbackAttachmentName
  else value.rdropWhile isTrailing

section
variable (u : Unicodedata)

def extensionOf (value : PyText) : PyText :=
  match splitExtension value with
  | some (_,extension) => dot :: u.casefold extension.tail
  | none => []

/-- The name that `sanitize_attachment_name` cuts at last. -/
def cleanName (name : PyText) : PyText :=
  escapeReserved (stripTrailing (replaceCharacters (lastComponent (u.normalize name))))

def sanitizeAttachmentName (name : PyText) : Option SanitizedName := do
  let value := u.normalize name
  let component := lastComponent value
  let replaced := replaceCharacters component
  let stripped := replaced.rdropWhile isTrailing
  let filled := stripTrailing replaced
  let escaped := escapeReserved filled
  let normalized := u.normalize escaped
  let bounded ← truncatePreservingExtension normalized maxFilenameBytes
  pure {
    name := bounded
    warnings :=
      (if value.any isPathSeparator then [.pathComponent] else []) ++
      (if component.any isForbidden then [.forbiddenCharacter] else []) ++
      (if component.any fun c => !isForbidden c && isControl c then [.controlCharacter] else []) ++
      (if stripped ≠ replaced then [.trailingCharacter] else []) ++
      (if stripped = [] then [.emptyName] else []) ++
      (if isReserved (basename filled) then [.reservedName] else []) ++
      (if bounded ≠ normalized then [.truncated] else []) ++
      (if executableExtensions.contains (extensionOf u bounded) then [.executableExtension]
        else []) }

end

/-- What NFC does: it is idempotent, keeps ASCII, a piece of a normal text is normal, and so are
two normal texts joined in front of an ASCII character, and one behind an underscore. -/
structure Unicodedata.Lawful (u : Unicodedata) : Prop where
  idempotent : ∀ text, u.normalize (u.normalize text) = u.normalize text
  ascii : ∀ text : PyText, (∀ c ∈ text, c.val < 0x80) → u.normalize text = text
  piece : ∀ a b c : PyText, u.normalize (a ++ b ++ c) = a ++ b ++ c → u.normalize b = b
  join : ∀ a b : PyText, (∀ c ∈ b.head?, c.val < 0x80) → u.normalize a = a →
    u.normalize b = b → u.normalize (a ++ b) = a ++ b
  underscore : ∀ a : PyText, u.normalize a = a →
    u.normalize (.ofChar '_' :: a) = .ofChar '_' :: a

/-! ## Safe names -/

structure SafeName (name : PyText) : Prop where
  nonempty : name ≠ []
  length : Utf8.size name ≤ maxFilenameBytes
  plain : ∀ c ∈ name, isPathSeparator c = false ∧ isForbidden c = false ∧ isControl c = false
  trailing : ∀ c ∈ name.getLast?, isTrailing c = false
  device : isReserved (basename name) = false

def Encodable (value : PyText) : Prop := ∀ c ∈ value, Utf8.isSurrogate c = false

/-- A name that fits is not cut.  Else, a name without an extension must not be cut behind a dot
or a blank, nor may an extension that does not fit, and what is left in front of an extension must
not be a reserved name. -/
def CutsWell (value : PyText) : Prop :=
  maxFilenameBytes < Utf8.size value →
    match splitExtension value with
    | none => ∀ c ∈ (Utf8.takeBytes maxFilenameBytes value).getLast?, isTrailing c = false
    | some (stem,extension) =>
      if maxFilenameBytes ≤ Utf8.size extension then
        ∀ c ∈ (Utf8.takeBytes maxFilenameBytes extension).getLast?, isTrailing c = false
      else isReserved (Utf8.takeBytes (maxFilenameBytes - Utf8.size extension) stem) = false

/-! ## Normal texts -/

section
variable {u : Unicodedata} (h : u.Lawful)
include h

theorem Unicodedata.Lawful.left {a b : PyText} (hnormal : u.normalize b = b) (hab : a <+: b) :
    u.normalize a = a := by
  obtain ⟨c,rfl⟩ := hab
  exact h.piece [] a c hnormal

theorem Unicodedata.Lawful.right {a b : PyText} (hnormal : u.normalize b = b) (hab : a <:+ b) :
    u.normalize a = a := by
  obtain ⟨c,rfl⟩ := hab
  exact h.piece c a [] (by rwa [List.append_nil])

/-- The induction runs over the characters that are left; those in front of them have none to be
replaced since the last one that was. -/
theorem normalize_replaceCharacters {text : PyText} (hnormal : u.normalize text = text) :
    u.normalize (replaceCharacters text) = replaceCharacters text := by
  have hall : ∀ kept rest : PyText, u.normalize (kept ++ rest) = kept ++ rest →
      u.normalize (kept ++ replaceCharacters rest) = kept ++ replaceCharacters rest := by
    intro kept rest
    induction rest generalizing kept with
    | nil => exact id
    | cons c rest ih =>
      intro hrest
      have hsplit : kept ++ c :: rest = (kept ++ [c]) ++ rest := by simp
      by_cases hc : (isForbidden c || isControl c) = true
      · have hreplaced : replaceCharacters (c :: rest) = .ofChar '_' :: replaceCharacters rest := by
          rw [replaceCharacters,List.map_cons,if_pos hc]
          rfl
        have htail := ih [] (h.right hrest (by rw [hsplit]; exact List.suffix_append _ _))
        rw [hreplaced]
        refine h.join _ _ ?_ (h.left hrest (List.prefix_append _ _)) (h.underscore _ htail)
        intro d hd
        cases hd
        decide
      · have hkept : replaceCharacters (c :: rest) = c :: replaceCharacters rest := by
          rw [replaceCharacters,List.map_cons,if_neg hc]
          rfl
        have htail := ih (kept ++ [c]) (hsplit ▸ hrest)
        rw [hkept]
        simpa using htail
  exact hall [] text hnormal

end

/-! ## The name before it is cut -/

def Plain (c : CodePoint) : Prop :=
  isPathSeparator c = false ∧ isForbidden c = false ∧ isControl c = false

theorem plain_of_not {c : CodePoint} (h : (isForbidden c || isControl c) = false) : Plain c := by
  rw [Bool.or_eq_false_iff] at h
  refine ⟨?_,h.1,h.2⟩
  by_contra hseparator
  rw [Bool.not_eq_false,isPathSeparator,List.contains_iff_mem] at hseparator
  have hforbidden : isForbidden c = true := by
    rw [isForbidden,List.contains_iff_mem]
    have hsubset : pyText "/\\".toList ⊆ pyText "<>:\"/\\|?*".toList := by decide
    exact hsubset hseparator
  rw [h.1] at hforbidden
  cases hforbidden

theorem plain_underscore : Plain (.ofChar '_') := ⟨by decide,by decide,by decide⟩

theorem plain_replaceCharacters {value : PyText} {c : CodePoint}
    (hc : c ∈ replaceCharacters value) : Plain c := by
  obtain ⟨d,-,rfl⟩ := List.mem_map.mp hc
  by_cases hd : (isForbidden d || isControl d) = true
  · rw [if_pos hd]
    exact plain_underscore
  · rw [if_neg hd]
    exact plain_of_not (by simpa using hd)

/-- What holds of a name before it is cut. -/
structure CleanName (u : Unicodedata) (name : PyText) : Prop where
  nonempty : name ≠ []
  plain : ∀ c ∈ name, Plain c
  trailing : ∀ c ∈ name.getLast?, isTrailing c = false
  normal : u.normalize name = name

theorem cleanName_stripTrailing {u : Unicodedata} (h : u.Lawful) {value : PyText}
    (hplain : ∀ c ∈ value, Plain c) (hnormal : u.normalize value = value) :
    CleanName u (stripTrailing value) := by
  rw [stripTrailing]
  by_cases hnil : value.rdropWhile isTrailing = []
  · rw [if_pos hnil]
    have hascii : fallbackAttachmentName.all fun c => c.val < 0x80 := by decide
    have hall : fallbackAttachmentName.all fun c => !(isForbidden c || isControl c) := by
      decide
    have hlast : fallbackAttachmentName.getLast? = some (.ofChar 't') := rfl
    refine ⟨by decide,fun c hc => plain_of_not ?_,fun c hc => ?_,h.ascii _ fun c hc => ?_⟩
    · simpa using List.all_eq_true.mp hall c hc
    · rw [hlast] at hc
      cases hc
      decide
    · simpa using List.all_eq_true.mp hascii c hc
  · rw [if_neg hnil]
    refine ⟨hnil,fun c hc => hplain c ((List.rdropWhile_prefix _ _).subset hc),fun c hc => ?_,
      h.left hnormal (List.rdropWhile_prefix _ _)⟩
    have hlast := List.rdropWhile_last_not isTrailing value hnil
    rw [List.getLast?_eq_some_getLast hnil] at hc
    cases hc
    simpa using hlast

theorem drop_basename (value : PyText) :
    value.drop (basename value).length = value.dropWhile (· ≠ dot) := by
  have htake : basename value ++ value.drop (basename value).length = value :=
    List.prefix_iff_eq_append.mp (List.takeWhile_prefix _)
  have hdrop : basename value ++ value.dropWhile (· ≠ dot) = value :=
    List.takeWhile_append_dropWhile
  exact List.append_cancel_left (htake.trans hdrop.symm)

theorem basename_append {a b : PyText} (ha : dot ∉ a) : basename (a ++ b) = a ++ basename b := by
  rw [basename,List.takeWhile_append_of_pos]
  · rfl
  · intro c hc
    rw [decide_eq_true_eq]
    rintro rfl
    exact ha hc

theorem basename_of_mem {a b : PyText} (ha : dot ∈ a) : basename (a ++ b) = basename a := by
  induction a with
  | nil => cases ha
  | cons c a ih =>
    rw [List.cons_append,basename,basename,List.takeWhile_cons,List.takeWhile_cons]
    by_cases hc : c = dot
    · subst hc
      simp
    · have hmem : dot ∈ a := (List.mem_cons.mp ha).resolve_left (Ne.symm hc)
      have hrest := ih hmem
      rw [basename,basename] at hrest
      rw [hrest]

theorem basename_dot (a : PyText) : basename (dot :: a) = [] := by simp [basename]

theorem dot_notMem_basename (value : PyText) : dot ∉ basename value := by
  intro hmem
  have := List.mem_takeWhile_imp hmem
  simp at this

theorem isReserved_underscore (value : PyText) : isReserved (value ++ [.ofChar '_']) = false := by
  rw [isReserved,Bool.eq_false_iff,Ne,List.contains_iff_mem]
  intro hmem
  have hnames : reservedNames.all fun name => name.getLast? ≠ some (.ofChar '_') := by
    decide
  have hlast := List.all_eq_true.mp hnames _ hmem
  have hlower : lowerAscii (.ofChar '_') = .ofChar '_' := by decide
  rw [List.map_append,List.map_singleton,hlower] at hlast
  simp at hlast

theorem CleanName.escapeReserved {u : Unicodedata} (h : u.Lawful) {value : PyText}
    (hvalue : CleanName u value) : CleanName u (escapeReserved value) ∧
      isReserved (basename (escapeReserved value)) = false := by
  rw [Attachments.escapeReserved]
  by_cases hreserved : isReserved (basename value) = true
  · rw [if_pos hreserved]
    have hsplit : basename value ++ value.drop (basename value).length = value :=
      List.prefix_iff_eq_append.mp (List.takeWhile_prefix _)
    generalize hrest : value.drop (basename value).length = rest at hsplit
    refine ⟨⟨by simp,fun c hc => ?_,fun c hc => ?_,?_⟩,?_⟩
    · rcases List.mem_append.mp hc with hc | hc
      · exact hvalue.plain c (hsplit ▸ List.mem_append_left _ hc)
      · rcases List.mem_cons.mp hc with rfl | hc
        · exact plain_underscore
        · exact hvalue.plain c (hsplit ▸ List.mem_append_right _ hc)
    · cases rest with
      | nil =>
        rw [List.getLast?_concat] at hc
        cases hc
        decide
      | cons d rest =>
        refine hvalue.trailing c ?_
        rw [← hsplit]
        simpa using hc
    · refine h.join _ _ ?_ (h.left hvalue.normal (List.takeWhile_prefix _))
        (h.underscore _ (h.right hvalue.normal ⟨_,hsplit⟩))
      intro d hd
      cases hd
      decide
    · have hbase : basename (basename value ++ .ofChar '_' :: rest) =
          basename value ++ [.ofChar '_'] := by
        have hnone : basename rest = [] := by
          rw [← hrest,drop_basename]
          have hhead := List.head?_dropWhile_not (fun c => decide (c ≠ dot)) value
          cases hdrop : value.dropWhile (fun c => decide (c ≠ dot)) with
          | nil => rfl
          | cons d rest =>
            rw [hdrop] at hhead
            have hd : d = dot := by simpa using hhead
            rw [hd,basename_dot]
        have hunderscore : basename (.ofChar '_' :: rest) = .ofChar '_' :: basename rest := rfl
        rw [basename_append (dot_notMem_basename value),hunderscore,hnone]
      rw [hbase]
      exact isReserved_underscore _
  · rw [if_neg hreserved]
    exact ⟨hvalue,by simpa using hreserved⟩

theorem cleanName_clean {u : Unicodedata} (h : u.Lawful) (name : PyText) :
    CleanName u (cleanName u name) ∧ isReserved (basename (cleanName u name)) = false := by
  refine CleanName.escapeReserved h (cleanName_stripTrailing h (fun c => plain_replaceCharacters) ?_)
  exact normalize_replaceCharacters h
    (h.right (h.idempotent name) (List.rtakeWhile_suffix _ _))

/-! ## Cutting -/

theorem encodeUtf8_of_encodable {value : PyText} (h : Encodable value) :
    encodeUtf8 value = some (Utf8.encode value) := by
  rw [encodeUtf8,if_neg]
  rw [List.any_eq_true]
  rintro ⟨c,hc,hsurrogate⟩
  rw [h c hc] at hsurrogate
  cases hsurrogate

theorem encodeUtf8_eq_none {value : PyText} (h : ¬ Encodable value) : encodeUtf8 value = none := by
  rw [encodeUtf8,if_pos]
  rw [List.any_eq_true]
  simpa [Encodable] using h

theorem truncateUtf8_eq {value : PyText} (h : Encodable value) (maxBytes : Nat) :
    truncateUtf8 value maxBytes = some (Utf8.takeBytes maxBytes value) := by
  rw [truncateUtf8,encodeUtf8_of_encodable h]
  show some (if Utf8.size value ≤ maxBytes then value else _) = _
  by_cases hfits : Utf8.size value ≤ maxBytes
  · rw [if_pos hfits,Utf8.takeBytes_of_fits hfits]
  · rw [if_neg hfits]

/-- `truncatePreservingExtension` of a value that can be encoded. -/
def bounded (value : PyText) : PyText :=
  if Utf8.size value ≤ maxFilenameBytes then value
  else
    match splitExtension value with
    | none => Utf8.takeBytes maxFilenameBytes value
    | some (stem,extension) =>
      if maxFilenameBytes ≤ Utf8.size extension then Utf8.takeBytes maxFilenameBytes extension
      else Utf8.takeBytes (maxFilenameBytes - Utf8.size extension) stem ++ extension

theorem splitExtension_eq_some {value stem extension : PyText}
    (h : splitExtension value = some (stem,extension)) : value = stem ++ extension ∧
      stem ≠ [] ∧ ∃ rest, extension = dot :: rest ∧ dot ∉ rest := by
  rw [splitExtension] at h
  by_cases hhead : value.head? = some dot
  · rw [if_pos hhead] at h
    cases h
  · rw [if_neg hhead,Option.map_eq_some_iff] at h
    obtain ⟨⟨before,after⟩,hcut,heq⟩ := h
    cases heq
    obtain ⟨rfl,hafter⟩ := PyText.eq_of_rsplit hcut
    refine ⟨rfl,?_,after,rfl,hafter⟩
    rintro rfl
    exact hhead rfl

theorem splitExtension_eq_none {value : PyText} :
    splitExtension value = none ↔ value.head? = some dot ∨ dot ∉ value := by
  rw [splitExtension]
  by_cases hhead : value.head? = some dot
  · simp [hhead]
  · rw [if_neg hhead,Option.map_eq_none_iff,PyText.rsplit_eq_none,or_iff_right hhead]

theorem truncatePreservingExtension_eq {value : PyText} (h : Encodable value) :
    truncatePreservingExtension value maxFilenameBytes = some (bounded value) := by
  rw [truncatePreservingExtension,encodeUtf8_of_encodable h,bounded]
  show (if Utf8.size value ≤ maxFilenameBytes then some value else _) = _
  by_cases hfits : Utf8.size value ≤ maxFilenameBytes
  · rw [if_pos hfits,if_pos hfits]
  · rw [if_neg hfits,if_neg hfits]
    cases hsplit : splitExtension value with
    | none => exact truncateUtf8_eq h maxFilenameBytes
    | some cut =>
      obtain ⟨stem,extension⟩ := cut
      obtain ⟨rfl,-⟩ := splitExtension_eq_some hsplit
      have hstem : Encodable stem := fun c hc => h c (List.mem_append_left _ hc)
      have hextension : Encodable extension := fun c hc => h c (List.mem_append_right _ hc)
      show (encodeUtf8 extension >>= fun extensionBytes =>
        if maxFilenameBytes ≤ extensionBytes.length then truncateUtf8 extension maxFilenameBytes
        else truncateUtf8 stem (maxFilenameBytes - extensionBytes.length) >>= fun stem =>
          pure (stem ++ extension)) = _
      rw [encodeUtf8_of_encodable hextension]
      show (if maxFilenameBytes ≤ Utf8.size extension then truncateUtf8 extension maxFilenameBytes
        else truncateUtf8 stem (maxFilenameBytes - Utf8.size extension) >>= fun stem =>
          pure (stem ++ extension)) = _
      rw [truncateUtf8_eq hstem,truncateUtf8_eq hextension]
      show _ = some (if maxFilenameBytes ≤ Utf8.size extension then _ else _)
      by_cases hlong : maxFilenameBytes ≤ Utf8.size extension
      · rw [if_pos hlong,if_pos hlong]
      · rw [if_neg hlong,if_neg hlong]
        rfl

/-! ## Reserved names -/

theorem isReserved_length {value : PyText} (h : isReserved value = true) : value.length ≤ 4 := by
  rw [isReserved,List.contains_iff_mem] at h
  have hnames : reservedNames.all fun name => name.length ≤ 4 := by decide
  simpa using List.all_eq_true.mp hnames _ h

/-- A character that no reserved name has, in either case. -/
theorem isReserved_of_mem {value : PyText} {c : CodePoint} (hlower : lowerAscii c = c)
    (hnames : reservedNames.all fun name => !name.contains c) (h : c ∈ value) :
    isReserved value = false := by
  rw [isReserved,Bool.eq_false_iff,Ne,List.contains_iff_mem]
  intro hmem
  have hname := List.all_eq_true.mp hnames _ hmem
  rw [Bool.not_eq_true',List.contains_eq_mem,decide_eq_false_iff_not] at hname
  exact hname (List.mem_map.mpr ⟨c,h,hlower⟩)

theorem isReserved_of_dot {value : PyText} (h : dot ∈ value) : isReserved value = false :=
  isReserved_of_mem (by decide) (by decide) h

theorem dot_notMem_reserved {value : PyText} (h : isReserved value = true) : dot ∉ value := by
  intro hdot
  rw [isReserved_of_dot hdot] at h
  cases h

theorem isReserved_of_long {value : PyText} (h : 16 < Utf8.size value) :
    isReserved value = false := by
  rw [Bool.eq_false_iff]
  intro hreserved
  have hlength := isReserved_length hreserved
  have hsize := Utf8.size_le_length value
  omega

theorem isReserved_nil : isReserved [] = false := by decide

/-! ## Safe cuts -/

theorem head?_of_left {a b : PyText} (h : a <+: b) (hne : a ≠ []) : a.head? = b.head? := by
  obtain ⟨t,rfl⟩ := h
  obtain ⟨c,a,rfl⟩ := List.exists_cons_of_ne_nil hne
  rfl

theorem basename_of_head {value : PyText} (h : value.head? = some dot) : basename value = [] := by
  obtain ⟨rest,rfl⟩ := List.head?_eq_some_iff.mp h
  exact basename_dot rest

section
variable {value : PyText}

/-- A name without an extension, or an extension that does not fit, is cut to almost 255 bytes. -/
theorem safeName_takeBytes (hplain : ∀ c ∈ value, Plain c)
    (hlong : maxFilenameBytes ≤ Utf8.size value)
    (hdot : value.head? = some dot ∨ dot ∉ value) :
    SafeName (Utf8.takeBytes maxFilenameBytes value) ↔
      ∀ c ∈ (Utf8.takeBytes maxFilenameBytes value).getLast?, isTrailing c = false := by
  refine ⟨SafeName.trailing,fun htrailing => ?_⟩
  have hleft := Utf8.takeBytes_prefix maxFilenameBytes value
  have hsize : 16 < Utf8.size (Utf8.takeBytes maxFilenameBytes value) := by
    have hmax : maxFilenameBytes = 255 := rfl
    by_cases hfits : Utf8.size value ≤ maxFilenameBytes
    · rw [Utf8.takeBytes_of_fits hfits]
      omega
    · have hcut := Utf8.lt_size_takeBytes (Nat.not_le.mp hfits)
      omega
  have hne : Utf8.takeBytes maxFilenameBytes value ≠ [] := by
    intro hnil
    rw [hnil] at hsize
    exact absurd hsize (by decide)
  refine ⟨hne,Utf8.size_takeBytes_le _ _,fun c hc => hplain c (hleft.subset hc),htrailing,?_⟩
  rcases hdot with hhead | hnone
  · rw [basename_of_head ((head?_of_left hleft hne).trans hhead)]
    exact isReserved_nil
  · have hbase := basename_append (b := []) fun hmem => hnone (hleft.subset hmem)
    rw [List.append_nil] at hbase
    rw [hbase]
    simpa [basename] using isReserved_of_long hsize

theorem getLast?_append_dot (a rest : PyText) :
    (a ++ dot :: rest).getLast? = (dot :: rest).getLast? := by
  rw [List.getLast?_append,List.getLast?_eq_some_getLast (List.cons_ne_nil dot rest),Option.some_or]

theorem safeName_stem {stem rest : PyText} {budget : Nat}
    (hvalue : value = stem ++ dot :: rest) (hplain : ∀ c ∈ value, Plain c)
    (htrailing : ∀ c ∈ value.getLast?, isTrailing c = false)
    (hdevice : isReserved (basename value) = false)
    (hbudget : budget + Utf8.size (dot :: rest) = maxFilenameBytes) :
    SafeName (Utf8.takeBytes budget stem ++ dot :: rest) ↔
      isReserved (Utf8.takeBytes budget stem) = false := by
  have hleft := Utf8.takeBytes_prefix budget stem
  have hbase : isReserved (basename (Utf8.takeBytes budget stem ++ dot :: rest)) =
      isReserved (Utf8.takeBytes budget stem) := by
    by_cases hdot : dot ∈ Utf8.takeBytes budget stem
    · -- the first dot has not been cut off
      have hsame : basename (Utf8.takeBytes budget stem ++ dot :: rest) = basename value := by
        obtain ⟨t,ht⟩ := id hleft
        have hstem : basename stem = basename (Utf8.takeBytes budget stem) :=
          (congrArg basename ht.symm).trans (basename_of_mem hdot)
        rw [basename_of_mem hdot,hvalue,basename_of_mem (hleft.subset hdot),hstem]
      rw [hsame,hdevice,isReserved_of_dot hdot]
    · rw [basename_append hdot,basename_dot,List.append_nil]
  constructor
  · intro hsafe
    rw [← hbase]
    exact hsafe.device
  · intro hreserved
    refine ⟨by simp,?_,fun c hc => hplain c ?_,?_,hbase.trans hreserved⟩
    · have hsize := Utf8.size_takeBytes_le budget stem
      rw [Utf8.size_append]
      omega
    · rw [hvalue]
      rcases List.mem_append.mp hc with hc | hc
      · exact List.mem_append_left _ (hleft.subset hc)
      · exact List.mem_append_right _ hc
    · rw [getLast?_append_dot]
      rwa [hvalue,getLast?_append_dot] at htrailing

theorem safeName_bounded {u : Unicodedata} (hclean : CleanName u value)
    (hdevice : isReserved (basename value) = false) :
    SafeName (bounded value) ↔ CutsWell value := by
  rw [bounded,CutsWell]
  by_cases hfits : Utf8.size value ≤ maxFilenameBytes
  · rw [if_pos hfits]
    exact iff_of_true ⟨hclean.nonempty,hfits,hclean.plain,hclean.trailing,hdevice⟩
      fun hlong => absurd hlong (Nat.not_lt.mpr hfits)
  · have hlong := Nat.not_le.mp hfits
    rw [if_neg hfits,forall_prop_of_true hlong]
    cases hsplit : splitExtension value with
    | none =>
      exact safeName_takeBytes hclean.plain (Nat.le_of_lt hlong) (splitExtension_eq_none.mp hsplit)
    | some cut =>
      obtain ⟨stem,extension⟩ := cut
      obtain ⟨hvalue,-,rest,rfl,-⟩ := splitExtension_eq_some hsplit
      show SafeName (if _ then _ else _) ↔ if _ then _ else _
      by_cases hextension : maxFilenameBytes ≤ Utf8.size (dot :: rest)
      · rw [if_pos hextension,if_pos hextension]
        refine safeName_takeBytes (fun c hc => hclean.plain c ?_) hextension (.inl rfl)
        rw [hvalue]
        exact List.mem_append_right _ hc
      · rw [if_neg hextension,if_neg hextension]
        exact safeName_stem hvalue hclean.plain hclean.trailing hdevice (by omega)

theorem normalize_bounded {u : Unicodedata} (h : u.Lawful) (hnormal : u.normalize value = value) :
    u.normalize (bounded value) = bounded value := by
  rw [bounded]
  by_cases hfits : Utf8.size value ≤ maxFilenameBytes
  · rwa [if_pos hfits]
  · rw [if_neg hfits]
    cases hsplit : splitExtension value with
    | none => exact h.left hnormal (Utf8.takeBytes_prefix _ _)
    | some cut =>
      obtain ⟨stem,extension⟩ := cut
      obtain ⟨hvalue,-,rest,rfl,-⟩ := splitExtension_eq_some hsplit
      have hstem := h.left hnormal ⟨_,hvalue.symm⟩
      have hextension := h.right hnormal ⟨_,hvalue.symm⟩
      show u.normalize (if _ then _ else _) = if _ then _ else _
      by_cases hlong : maxFilenameBytes ≤ Utf8.size (dot :: rest)
      · rw [if_pos hlong]
        exact h.left hextension (Utf8.takeBytes_prefix _ _)
      · rw [if_neg hlong]
        refine h.join _ _ ?_ (h.left hstem (Utf8.takeBytes_prefix _ _)) hextension
        intro c hc
        cases hc
        decide

theorem size_bounded_le (value : PyText) : Utf8.size (bounded value) ≤ maxFilenameBytes := by
  rw [bounded]
  by_cases hfits : Utf8.size value ≤ maxFilenameBytes
  · rwa [if_pos hfits]
  · rw [if_neg hfits]
    cases hsplit : splitExtension value with
    | none => exact Utf8.size_takeBytes_le _ _
    | some cut =>
      obtain ⟨stem,extension⟩ := cut
      show Utf8.size (if _ then _ else _) ≤ _
      by_cases hlong : maxFilenameBytes ≤ Utf8.size extension
      · rw [if_pos hlong]
        exact Utf8.size_takeBytes_le _ _
      · have hstem := Utf8.size_takeBytes_le (maxFilenameBytes - Utf8.size extension) stem
        rw [if_neg hlong,Utf8.size_append]
        omega

theorem bounded_subset (value : PyText) : bounded value ⊆ value := by
  rw [bounded]
  by_cases hfits : Utf8.size value ≤ maxFilenameBytes
  · rw [if_pos hfits]
    exact List.Subset.refl value
  · rw [if_neg hfits]
    cases hsplit : splitExtension value with
    | none => exact (Utf8.takeBytes_prefix _ _).subset
    | some cut =>
      obtain ⟨stem,extension⟩ := cut
      obtain ⟨rfl,-⟩ := splitExtension_eq_some hsplit
      show (if _ then _ else _ : PyText) ⊆ stem ++ extension
      by_cases hlong : maxFilenameBytes ≤ Utf8.size extension
      · rw [if_pos hlong]
        exact fun c hc => List.mem_append_right _ ((Utf8.takeBytes_prefix _ _).subset hc)
      · rw [if_neg hlong]
        intro c hc
        rcases List.mem_append.mp hc with hc | hc
        · exact List.mem_append_left _ ((Utf8.takeBytes_prefix _ _).subset hc)
        · exact List.mem_append_right _ hc

theorem encodable_bounded (h : Encodable value) : Encodable (bounded value) :=
  fun c hc => h c (bounded_subset value hc)

end

/-! ## Sanitising -/

section
variable {u : Unicodedata}

theorem sanitizeAttachmentName_map (name : PyText) :
    (sanitizeAttachmentName u name).map (·.name) =
      truncatePreservingExtension (u.normalize (cleanName u name)) maxFilenameBytes := by
  rw [sanitizeAttachmentName,cleanName]
  generalize truncatePreservingExtension _ _ = result
  cases result with
  | none => rfl
  | some bounded => rfl

/-- Every result is the clean name with a bound; a surrogate in it raises. -/
theorem sanitizeAttachmentName_eq (h : u.Lawful) (name : PyText) :
    (Encodable (cleanName u name) ∧
      (sanitizeAttachmentName u name).map (·.name) = some (bounded (cleanName u name))) ∨
    (¬ Encodable (cleanName u name) ∧ sanitizeAttachmentName u name = none) := by
  have hname := sanitizeAttachmentName_map (u := u) name
  rw [(cleanName_clean h name).1.normal] at hname
  by_cases hencodable : Encodable (cleanName u name)
  · rw [truncatePreservingExtension_eq hencodable] at hname
    exact .inl ⟨hencodable,hname⟩
  · have hnone : truncatePreservingExtension (cleanName u name) maxFilenameBytes = none := by
      rw [truncatePreservingExtension,encodeUtf8_eq_none hencodable]
      rfl
    rw [hnone,Option.map_eq_none_iff] at hname
    exact .inr ⟨hencodable,hname⟩

/-- A plain and normal name is only stripped and escaped. -/
theorem cleanName_of_plain {name : PyText} (hplain : ∀ c ∈ name, Plain c)
    (hnormal : u.normalize name = name) :
    cleanName u name = escapeReserved (stripTrailing name) := by
  have hcomponent : lastComponent name = name := by
    rw [lastComponent,List.rtakeWhile_eq_self_iff]
    intro c hc
    simp [(hplain c hc).1]
  have hreplaced : replaceCharacters name = name := by
    refine (List.map_congr_left fun c hc => ?_).trans (List.map_id name)
    obtain ⟨-,hforbidden,hcontrol⟩ := hplain c hc
    simp [hforbidden,hcontrol]
  rw [cleanName,hnormal,hcomponent,hreplaced]

theorem stripTrailing_of_trailing {name : PyText} (hne : name ≠ [])
    (htrailing : ∀ c ∈ name.getLast?, isTrailing c = false) : stripTrailing name = name := by
  have hstripped : name.rdropWhile isTrailing = name := by
    rw [List.rdropWhile_eq_self_iff]
    intro hne
    simp [htrailing _ (List.getLast?_eq_some_getLast hne)]
  rw [stripTrailing,hstripped,if_neg hne]

theorem isExecutable_sanitize {name : PyText} {sanitized : SanitizedName}
    (h : sanitizeAttachmentName u name = some sanitized) :
    sanitized.isExecutable = executableExtensions.contains (extensionOf u sanitized.name) := by
  rw [sanitizeAttachmentName] at h
  generalize truncatePreservingExtension _ _ = result at h
  cases result with
  | none => cases h
  | some bounded =>
    cases h
    rw [SanitizedName.isExecutable,Bool.eq_iff_iff,List.contains_iff_mem]
    have hif : ∀ (p : Prop) [Decidable p] (a : Warning),
        Warning.executableExtension ∈ (if p then [a] else []) ↔ p ∧ .executableExtension = a := by
      intro p _ a
      by_cases hp : p
      · simp [hp]
      · simp [hp]
    simp only [List.mem_append,hif,reduceCtorEq,and_false,false_or,and_true]

theorem encodable_cleanName {name : PyText} (hplain : ∀ c ∈ name, Plain c)
    (hnormal : u.normalize name = name) (h : Encodable name) : Encodable (cleanName u name) := by
  have hstripped : Encodable (stripTrailing name) := by
    rw [stripTrailing]
    by_cases hnil : name.rdropWhile isTrailing = []
    · have hall : fallbackAttachmentName.all fun c => !Utf8.isSurrogate c := by decide
      rw [if_pos hnil]
      exact fun c hc => by simpa using List.all_eq_true.mp hall c hc
    · rw [if_neg hnil]
      exact fun c hc => h c ((List.rdropWhile_prefix _ _).subset hc)
  rw [cleanName_of_plain hplain hnormal,escapeReserved]
  by_cases hreserved : isReserved (basename (stripTrailing name)) = true
  · rw [if_pos hreserved]
    intro c hc
    rcases List.mem_append.mp hc with hc | hc
    · exact hstripped c ((List.takeWhile_prefix _).subset hc)
    · rcases List.mem_cons.mp hc with rfl | hc
      · decide
      · exact hstripped c (List.mem_of_mem_drop hc)
  · rw [if_neg hreserved]
    exact hstripped

/-- A safe name passes every step unchanged. -/
theorem cleanName_of_safe {name : PyText} (hsafe : SafeName name)
    (hnormal : u.normalize name = name) : cleanName u name = name := by
  rw [cleanName_of_plain hsafe.plain hnormal,
    stripTrailing_of_trailing hsafe.nonempty hsafe.trailing,escapeReserved,hsafe.device]
  rfl

theorem sanitizeAttachmentName_of_safe (h : u.Lawful) {name : PyText} (hsafe : SafeName name)
    (hnormal : u.normalize name = name) (hencodable : Encodable name) :
    (sanitizeAttachmentName u name).map (·.name) = some name := by
  have hclean := cleanName_of_safe hsafe hnormal
  rcases sanitizeAttachmentName_eq h name with ⟨-,hname⟩ | ⟨hnot,-⟩
  · rw [hname,hclean,bounded,if_pos hsafe.length]
  · rw [hclean] at hnot
    exact absurd hencodable hnot

/-- A cut is the last step, and nothing looks at what it leaves. -/
theorem sanitizeAttachmentName_iff (h : u.Lawful) (name : PyText) :
    (∃ sanitized again, sanitizeAttachmentName u name = some sanitized ∧
      SafeName sanitized.name ∧ sanitizeAttachmentName u sanitized.name = some again ∧
      again.name = sanitized.name) ↔
    Encodable (cleanName u name) ∧ CutsWell (cleanName u name) := by
  obtain ⟨hclean,hdevice⟩ := cleanName_clean h name
  have hsafe := safeName_bounded hclean hdevice
  rcases sanitizeAttachmentName_eq h name with ⟨hencodable,hname⟩ | ⟨hnot,hnone⟩
  · obtain ⟨sanitized,hsanitized,hbounded⟩ := Option.map_eq_some_iff.mp hname
    rw [← hbounded] at hsafe
    constructor
    · rintro ⟨s,again,hs,hsafe',-⟩
      rw [hsanitized] at hs
      cases hs
      exact ⟨hencodable,hsafe.mp hsafe'⟩
    · rintro ⟨-,hcuts⟩
      have hsame := sanitizeAttachmentName_of_safe h (hsafe.mpr hcuts)
        (hbounded ▸ normalize_bounded h hclean.normal) (hbounded ▸ encodable_bounded hencodable)
      obtain ⟨again,hagain,heq⟩ := Option.map_eq_some_iff.mp hsame
      exact ⟨sanitized,again,hsanitized,hsafe.mpr hcuts,hagain,heq⟩
  · refine iff_of_false ?_ fun hand => hnot hand.1
    rintro ⟨s,again,hs,-⟩
    rw [hnone] at hs
    cases hs

end

/-- A library that knows ASCII and changes no other text. -/
def plainUnicode : Unicodedata where
  normalize text := text
  casefold text := text.map lowerAscii
  decimal c := if 0x30 ≤ c.val ∧ c.val ≤ 0x39 then some (c.val - 0x30) else none

theorem plainUnicode_lawful : plainUnicode.Lawful where
  idempotent _ := rfl
  ascii _ _ := rfl
  piece _ _ _ _ := rfl
  join _ _ _ _ _ := rfl
  underscore _ _ := rfl

theorem sanitizeAttachmentName_report :
    ∃ sanitized again,
      sanitizeAttachmentName plainUnicode (pyText "../con.txt. ".toList) = some sanitized ∧
        SafeName sanitized.name ∧
        sanitizeAttachmentName plainUnicode sanitized.name = some again ∧
        again.name = sanitized.name := by
  have hclean : cleanName plainUnicode (pyText "../con.txt. ".toList) =
      pyText "con_.txt".toList := by decide
  have hencodable : (pyText "con_.txt".toList).all fun c => !Utf8.isSurrogate c := by
    decide
  refine (sanitizeAttachmentName_iff plainUnicode_lawful _).mpr ⟨fun c hc => ?_,fun hlong => ?_⟩
  · rw [hclean] at hc
    simpa using List.all_eq_true.mp hencodable c hc
  · rw [hclean] at hlong
    exact absurd hlong (by decide)

/-- 254 letters, a blank and another letter. -/
def longName : PyText := List.replicate 254 (.ofChar 'a') ++ pyText " b".toList

theorem sanitizeAttachmentName_blank :
    (sanitizeAttachmentName plainUnicode longName).map (·.name) =
      some (List.replicate 254 (.ofChar 'a') ++ pyText " ".toList) ∧
    (sanitizeAttachmentName plainUnicode
        (List.replicate 254 (.ofChar 'a') ++ pyText " ".toList)).map (·.name) =
      some (List.replicate 254 (.ofChar 'a')) := by
  constructor <;> decide +kernel

/-! ## Stable names -/

/-- A cut whose result is not changed again.  A device name in front of an extension is escaped
again, and if that makes it too long, it is cut to what it was. -/
def StableCut (value : PyText) : Prop :=
  CutsWell value ∨ ∃ stem extension, splitExtension value = some (stem,extension) ∧
    maxFilenameBytes < Utf8.size value ∧ Utf8.size extension < maxFilenameBytes ∧
    Utf8.size (Utf8.takeBytes (maxFilenameBytes - Utf8.size extension) stem) +
      Utf8.size extension = maxFilenameBytes

section
variable {u : Unicodedata} {value : PyText}

theorem size_escapeReserved_le (value : PyText) :
    Utf8.size (escapeReserved value) ≤ Utf8.size value + 1 := by
  rw [escapeReserved]
  by_cases hreserved : isReserved (basename value) = true
  · have hsplit : basename value ++ value.drop (basename value).length = value :=
      List.prefix_iff_eq_append.mp (List.takeWhile_prefix _)
    have hsize := congrArg Utf8.size hsplit
    have hunderscore : Utf8.size [CodePoint.ofChar '_'] = 1 := by decide
    rw [Utf8.size_append] at hsize
    rw [if_pos hreserved,Utf8.size_append,Utf8.size_cons]
    omega
  · rw [if_neg hreserved]
    omega

theorem size_rdropWhile_lt {name : PyText} {c : CodePoint} (hc : name.getLast? = some c)
    (htrailing : isTrailing c = true) :
    Utf8.size (name.rdropWhile isTrailing) < Utf8.size name := by
  obtain ⟨a,rfl⟩ := List.getLast?_eq_some_iff.mp hc
  obtain ⟨t,ht⟩ := List.rdropWhile_prefix isTrailing a
  have hsize := congrArg Utf8.size ht
  have hpos := (Utf8.size_singleton c).1
  rw [List.rdropWhile_concat_pos isTrailing a c htrailing,Utf8.size_append]
  rw [Utf8.size_append] at hsize
  omega

/-- What ends with a dot or a blank is stripped, and then it is short enough. -/
theorem bounded_of_trailing (h : u.Lawful) {name : PyText} (hplain : ∀ c ∈ name, Plain c)
    (hnormal : u.normalize name = name) (hsize : Utf8.size name ≤ maxFilenameBytes)
    (htrailing : ¬ ∀ c ∈ name.getLast?, isTrailing c = false) :
    bounded (cleanName u name) ≠ name := by
  have hclean := (cleanName_clean h name).1
  have hshort : Utf8.size (cleanName u name) ≤ maxFilenameBytes := by
    have hescaped := size_escapeReserved_le (stripTrailing name)
    rw [cleanName_of_plain hplain hnormal]
    by_cases hnil : name.rdropWhile isTrailing = []
    · have hfallback : stripTrailing name = fallbackAttachmentName := if_pos hnil
      have hten : Utf8.size fallbackAttachmentName = 10 := by decide
      have hmax : maxFilenameBytes = 255 := rfl
      rw [hfallback] at hescaped ⊢
      omega
    · have hstripped : stripTrailing name = name.rdropWhile isTrailing := if_neg hnil
      simp only [not_forall,Bool.not_eq_false] at htrailing
      obtain ⟨c,hc,htrue⟩ := htrailing
      have hlt := size_rdropWhile_lt hc htrue
      rw [hstripped] at hescaped ⊢
      omega
  rw [bounded,if_pos hshort]
  intro heq
  exact htrailing (heq ▸ hclean.trailing)

theorem bounded_underscore {p rest : PyText} (hp : p ≠ []) (hdot : dot ∉ p) (hrest : dot ∉ rest)
    (hsize : Utf8.size p + Utf8.size (dot :: rest) = maxFilenameBytes) :
    bounded (p ++ .ofChar '_' :: dot :: rest) = p ++ dot :: rest := by
  have hjoin : p ++ .ofChar '_' :: dot :: rest = (p ++ [.ofChar '_']) ++ dot :: rest := by simp
  have hunderscore : Utf8.size [CodePoint.ofChar '_'] = 1 := by decide
  have hpos : 0 < Utf8.size p :=
    Nat.lt_of_lt_of_le (List.length_pos_iff.mpr hp) (Utf8.length_le_size p)
  have hhead : (p ++ .ofChar '_' :: dot :: rest).head? ≠ some dot := by
    obtain ⟨c,p,rfl⟩ := List.exists_cons_of_ne_nil hp
    intro hc
    cases hc
    exact hdot List.mem_cons_self
  have hsplit : splitExtension (p ++ .ofChar '_' :: dot :: rest) =
      some (p ++ [.ofChar '_'],dot :: rest) := by
    rw [splitExtension,if_neg hhead,hjoin,PyText.rsplit_append hrest]
    rfl
  have hbudget : maxFilenameBytes - Utf8.size (dot :: rest) = Utf8.size p + 0 := by omega
  have hcut : Utf8.takeBytes (maxFilenameBytes - Utf8.size (dot :: rest)) (p ++ [.ofChar '_']) =
      p := by
    rw [hbudget,Utf8.takeBytes_append,Utf8.takeBytes_zero,List.append_nil]
  rw [bounded,if_neg,hsplit]
  · show (if maxFilenameBytes ≤ Utf8.size (dot :: rest) then _ else _) = _
    rw [if_neg (by omega),hcut]
  · rw [Utf8.size_append,Utf8.size_cons]
    omega

theorem cleanName_of_reserved {p rest : PyText} (hreserved : isReserved p = true)
    (hplain : ∀ c ∈ p ++ dot :: rest, Plain c)
    (hnormal : u.normalize (p ++ dot :: rest) = p ++ dot :: rest)
    (htrailing : ∀ c ∈ (p ++ dot :: rest).getLast?, isTrailing c = false) :
    cleanName u (p ++ dot :: rest) = p ++ .ofChar '_' :: dot :: rest := by
  have hbase : basename (p ++ dot :: rest) = p := by
    rw [basename_append (dot_notMem_reserved hreserved),basename_dot,List.append_nil]
  rw [cleanName_of_plain hplain hnormal,stripTrailing_of_trailing (by simp) htrailing,
    escapeReserved,hbase,if_pos hreserved,List.drop_left]

/-- Sanitising a cut name again. -/
theorem bounded_stable_iff (h : u.Lawful) (hclean : CleanName u value)
    (hdevice : isReserved (basename value) = false) :
    bounded (cleanName u (bounded value)) = bounded value ↔ StableCut value := by
  have hsafe := safeName_bounded hclean hdevice
  have hnormal := normalize_bounded h hclean.normal
  have hplain : ∀ c ∈ bounded value, Plain c := fun c hc => hclean.plain c (bounded_subset value hc)
  by_cases hcuts : CutsWell value
  · have hm := hsafe.mpr hcuts
    rw [cleanName_of_safe hm hnormal]
    refine iff_of_true ?_ (.inl hcuts)
    rw [bounded,if_pos hm.length]
  have hlong : maxFilenameBytes < Utf8.size value := by
    by_contra hfits
    exact hcuts fun hlong => absurd hlong hfits
  have hfits : ¬ Utf8.size value ≤ maxFilenameBytes := Nat.not_le.mpr hlong
  rw [StableCut,or_iff_right hcuts]
  rw [CutsWell,forall_prop_of_true hlong] at hcuts
  cases hsplit : splitExtension value with
  | none =>
    rw [hsplit] at hcuts
    have hm : bounded value = Utf8.takeBytes maxFilenameBytes value := by
      rw [bounded,if_neg hfits,hsplit]
    rw [hm] at hnormal hplain ⊢
    refine iff_of_false (bounded_of_trailing h hplain hnormal (Utf8.size_takeBytes_le _ _) hcuts) ?_
    rintro ⟨stem,extension,hsome,-⟩
    cases hsome
  | some cut =>
    obtain ⟨stem,extension⟩ := cut
    obtain ⟨hvalue,-,rest,rfl,hrest⟩ := splitExtension_eq_some hsplit
    rw [hsplit] at hcuts
    simp only [Option.some.injEq,Prod.mk.injEq,and_assoc]
    by_cases hextension : maxFilenameBytes ≤ Utf8.size (dot :: rest)
    · have hm : bounded value = Utf8.takeBytes maxFilenameBytes (dot :: rest) := by
        rw [bounded,if_neg hfits,hsplit]
        exact if_pos hextension
      rw [hm] at hnormal hplain ⊢
      have hcuts : ¬ ∀ c ∈ (Utf8.takeBytes maxFilenameBytes (dot :: rest)).getLast?,
          isTrailing c = false := by
        intro htrailing
        refine hcuts ?_
        show if _ then _ else _
        rwa [if_pos hextension]
      refine iff_of_false
        (bounded_of_trailing h hplain hnormal (Utf8.size_takeBytes_le _ _) hcuts) ?_
      rintro ⟨stem',extension',-,rfl,-,hshort,-⟩
      omega
    · generalize hp : Utf8.takeBytes (maxFilenameBytes - Utf8.size (dot :: rest)) stem = p
      have hm : bounded value = p ++ dot :: rest := by
        rw [bounded,if_neg hfits,hsplit,← hp]
        exact if_neg hextension
      have hreserved : isReserved p = true := by
        by_contra hnot
        refine hcuts ?_
        show if _ then _ else _
        rw [if_neg hextension,hp]
        simpa using hnot
      have htrailing : ∀ c ∈ (p ++ dot :: rest).getLast?, isTrailing c = false := by
        have hlast := hclean.trailing
        rw [hvalue,getLast?_append_dot] at hlast
        rwa [getLast?_append_dot]
      have hbudget := Utf8.size_takeBytes_le (maxFilenameBytes - Utf8.size (dot :: rest)) stem
      rw [hp] at hbudget
      rw [hm] at hnormal hplain ⊢
      rw [cleanName_of_reserved hreserved hplain hnormal htrailing]
      by_cases hsize : Utf8.size p + Utf8.size (dot :: rest) = maxFilenameBytes
      · have hne : p ≠ [] := by
          rintro rfl
          rw [isReserved_nil] at hreserved
          cases hreserved
        refine iff_of_true (bounded_underscore hne (dot_notMem_reserved hreserved) hrest hsize) ?_
        exact ⟨stem,_,rfl,rfl,hlong,Nat.not_le.mp hextension,by rw [hp]; exact hsize⟩
      · have hunderscore : Utf8.size [CodePoint.ofChar '_'] = 1 := by decide
        refine iff_of_false ?_ ?_
        · rw [bounded,if_pos]
          · intro heq
            have hlength := congrArg List.length heq
            simp at hlength
          · rw [Utf8.size_append,Utf8.size_cons]
            omega
        · rintro ⟨stem',extension',rfl,rfl,-,-,hsum⟩
          rw [hp] at hsum
          exact hsize hsum

/-- A name that is cut badly has almost 255 bytes. -/
theorem cutsWell_of_size (hsize : Utf8.size (bounded value) + 4 ≤ maxFilenameBytes) :
    CutsWell value := by
  have hmax : maxFilenameBytes = 255 := rfl
  intro hlong
  have hfits : ¬ Utf8.size value ≤ maxFilenameBytes := Nat.not_le.mpr hlong
  rw [bounded,if_neg hfits] at hsize
  cases hsplit : splitExtension value with
  | none =>
    have hcut := Utf8.lt_size_takeBytes hlong
    rw [hsplit] at hsize
    have hsize' : Utf8.size (Utf8.takeBytes maxFilenameBytes value) + 4 ≤ maxFilenameBytes := hsize
    omega
  | some cut =>
    obtain ⟨stem,extension⟩ := cut
    obtain ⟨hvalue,-⟩ := splitExtension_eq_some hsplit
    rw [hsplit] at hsize
    have hsize' : Utf8.size (if maxFilenameBytes ≤ Utf8.size extension then
        Utf8.takeBytes maxFilenameBytes extension
      else Utf8.takeBytes (maxFilenameBytes - Utf8.size extension) stem ++ extension) + 4 ≤
        maxFilenameBytes := hsize
    by_cases hextension : maxFilenameBytes ≤ Utf8.size extension
    · rw [if_pos hextension] at hsize'
      by_cases hexact : Utf8.size extension ≤ maxFilenameBytes
      · rw [Utf8.takeBytes_of_fits hexact] at hsize'
        omega
      · have hcut := Utf8.lt_size_takeBytes (Nat.not_le.mp hexact)
        omega
    · rw [if_neg hextension,Utf8.size_append] at hsize'
      have htotal := congrArg Utf8.size hvalue
      rw [Utf8.size_append] at htotal
      have hcut := @Utf8.lt_size_takeBytes (maxFilenameBytes - Utf8.size extension) stem
        (by omega)
      omega

end

end Attachments

end MailDock
