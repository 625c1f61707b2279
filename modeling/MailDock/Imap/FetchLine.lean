import MailDock.Imap.Utf7
import MailDock.Lib.Search
import MailDock.Lib.Utf8
import Mathlib.Data.Fintype.Defs

/-!
# The attributes of a FETCH line

What a server writes in the line of a FETCH response and what `parse_fetch_response` reads
back.  The parser searches the whole line for each attribute by itself, so text inside the
flags or the labels can be taken for an attribute that stands further on, and a closing
parenthesis inside a label ends the list.

## Main definitions

- `FetchValues` — the values of one message, as a server sends them
- `FetchValues.line` — the line, each character marked with where it stands
- `FetchValues.stray` — text of a list that reads as an attribute before the attribute itself

## Main results

- `search_line` — what the search for an attribute finds in a line
- `readExactly_iff` — when exactly the values come back
-/

namespace MailDock

/-! ## Values and lines -/

/-- The attributes the code asks for. -/
inductive FetchName
  | uid
  | internaldate
  | size
  | flags
  | msgid
  | thrid
  | labels
deriving DecidableEq, Repr

namespace FetchName

def all : List FetchName := [.uid,.internaldate,.size,.flags,.msgid,.thrid,.labels]

theorem mem_all (k : FetchName) : k ∈ all := by cases k <;> decide

instance : Fintype FetchName := ⟨⟨all,by decide⟩,mem_all⟩

def text : FetchName → String
  | uid => "UID"
  | internaldate => "INTERNALDATE"
  | size => "RFC822.SIZE"
  | flags => "FLAGS"
  | msgid => "X-GM-MSGID"
  | thrid => "X-GM-THRID"
  | labels => "X-GM-LABELS"

/-- The characters of the name; taking a text apart is what costs when something is decided. -/
def letters : FetchName → List Char
  | uid => ['U','I','D']
  | internaldate => ['I','N','T','E','R','N','A','L','D','A','T','E']
  | size => ['R','F','C','8','2','2','.','S','I','Z','E']
  | flags => ['F','L','A','G','S']
  | msgid => ['X','-','G','M','-','M','S','G','I','D']
  | thrid => ['X','-','G','M','-','T','H','R','I','D']
  | labels => ['X','-','G','M','-','L','A','B','E','L','S']

theorem toList_text (k : FetchName) : k.text.toList = k.letters := by
  have htext : k.text = String.ofList k.letters := by cases k <;> rfl
  rw [htext,String.toList_ofList]

/-- What stands between the name and the value. -/
def delimiter : FetchName → List Char
  | internaldate => [' ','"']
  | flags | labels => [' ','(']
  | _ => [' ']

def closing : FetchName → List Char
  | internaldate => ['"']
  | flags | labels => [')']
  | _ => []

def opening (k : FetchName) : List Char := k.text.toList ++ k.delimiter

end FetchName

/-- What the parser makes of the text of an attribute; a date or labels that it refuses
are `none`. -/
inductive FetchField
  | number (n : Nat)
  | date (date : Option DateTime)
  | flags (names : List String)
  | labels (names : Option (List String))
deriving DecidableEq, Repr

/-- The pattern of an attribute, at the start of a text. -/
def fieldAt (lib : EmailLib) (k : FetchName) (text : List Char) : Option FetchField :=
  match k with
  | .internaldate => (matchQuoted k.text text).map fun value =>
      .date (lib.parsedate (String.ofList value))
  | .flags => (matchParenthesised k.text text).map fun value =>
      .flags ((splitSpaces value).map String.ofList)
  | .labels => (matchParenthesised k.text text).map fun value =>
      .labels (((imapStrings value.length value).mapM (decodeModifiedUtf7 none)).map
        fun labels => labels.map String.ofList)
  | _ => (matchNumber k.text text).map .number

def isPrintable (c : Char) : Bool := decide (0x20 ≤ c.toNat ∧ c.toNat ≤ 0x7e)

/-- A flag, an atom. -/
structure SentFlag where
  name : List Char
  nonempty : name ≠ []
  atom : ∀ c ∈ name, isPrintable c = true ∧ isAtomChar c = true

/-- A label and whether it is sent as a quoted string. -/
structure SentLabel where
  text : List Char
  quoted : Bool
  printable : ∀ c ∈ text, isPrintable c = true
  atom : quoted = false → text ≠ [] ∧ ∀ c ∈ text, isAtomChar c = true ∧ c ≠ '"'

def monthNames : List (List Char) :=
  ["Jan","Feb","Mar","Apr","May","Jun","Jul","Aug","Sep","Oct","Nov","Dec"].map String.toList

/-- Digits and what stands between the parts of a date and a time. -/
def isTimeChar (c : Char) : Bool := "0123456789 :+-".toList.contains c

/-- A date in the form `17-Jul-1996 02:44:25 -0700`, and the instant it stands for. -/
structure SentDate where
  day : List Char
  month : List Char
  time : List Char
  date : DateTime
  day_time : ∀ c ∈ day, isTimeChar c = true
  month_mem : month ∈ monthNames
  time_time : ∀ c ∈ time, isTimeChar c = true

def SentDate.text (d : SentDate) : List Char := d.day ++ '-' :: (d.month ++ '-' :: d.time)

/-- The values of a message; what a server does not send is `none`. -/
structure FetchValues where
  uid : Nat
  flags : List SentFlag
  internalDate : Option SentDate
  size : Option Nat
  gmailMsgid : Option Nat
  gmailThrid : Option Nat
  gmailLabels : Option (List SentLabel)

/-- Where a character of a line stands: outside the lists, in a list but in no quoted
string, or in a quoted string of a list. -/
inductive Place
  | outside
  | atom
  | quoted
deriving DecidableEq, Repr

def marked (place : Place) (text : List Char) : List (Place × Char) := text.map fun c => (place,c)

/-- The body of a quoted string: quotes and backslashes are escaped. -/
def quoteEscape : List Char → List Char
  | [] => []
  | c :: text =>
    if c = '"' ∨ c = '\\' then '\\' :: c :: quoteEscape text else c :: quoteEscape text

def SentLabel.wire (l : SentLabel) : List (Place × Char) :=
  let encoded := encodeModifiedUtf7 [] l.text
  if l.quoted then marked .quoted ('"' :: (quoteEscape encoded ++ ['"']))
  else marked .atom encoded

def spaced : List (List (Place × Char)) → List (Place × Char)
  | [] => []
  | [word] => word
  | word :: words => word ++ (.atom,' ') :: spaced words

namespace FetchValues

/-- The text of an attribute's value, if it is sent. -/
def written (v : FetchValues) : FetchName → Option (List (Place × Char))
  | .uid => some (marked .outside (Nat.toDigits 10 v.uid))
  | .internaldate => v.internalDate.map fun d => marked .outside d.text
  | .size => v.size.map fun n => marked .outside (Nat.toDigits 10 n)
  | .flags => some (spaced (v.flags.map fun f => marked .atom f.name))
  | .msgid => v.gmailMsgid.map fun n => marked .outside (Nat.toDigits 10 n)
  | .thrid => v.gmailThrid.map fun n => marked .outside (Nat.toDigits 10 n)
  | .labels => v.gmailLabels.map fun labels => spaced (labels.map SentLabel.wire)

/-- What the parser should make of an attribute. -/
def field (v : FetchValues) : FetchName → Option FetchField
  | .uid => some (.number v.uid)
  | .internaldate => v.internalDate.map fun d => .date (some d.date)
  | .size => v.size.map .number
  | .flags => some (.flags (v.flags.map fun f => String.ofList f.name))
  | .msgid => v.gmailMsgid.map .number
  | .thrid => v.gmailThrid.map .number
  | .labels => v.gmailLabels.map fun labels =>
      .labels (some (labels.map fun l => String.ofList l.text))

/-- The reference that carries the values. -/
def ref (v : FetchValues) (lib : EmailLib) (body : Bytes) : RemoteMessageRef where
  uid := v.uid
  messageId := if body.isEmpty then none else lib.messageIdFromHeaders body
  internalDate := v.internalDate.map SentDate.date
  sizeBytes := v.size
  flags := v.flags.map fun f => String.ofList f.name
  gmailMsgid := v.gmailMsgid
  gmailThrid := v.gmailThrid
  gmailLabels := v.gmailLabels.map fun labels => labels.map fun l => String.ofList l.text

end FetchValues

/-- The end of a line: the parenthesis, or the literal of the header fields. -/
inductive LineEnd
  | plain
  | literal (length : Nat)

def LineEnd.text : LineEnd → List Char
  | plain => [')']
  | literal length =>
    " BODY[HEADER.FIELDS (MESSAGE-ID)] \x7b".toList ++
      (Nat.toDigits 10 length ++ "\x7d".toList)

namespace FetchValues

/-- The attributes in their order, each after its separator, and the end of the line. -/
def attributes (v : FetchValues) (ending : LineEnd) : Char → List FetchName → List (Place × Char)
  | _,[] => marked .outside ending.text
  | separator,k :: order =>
    match v.written k with
    | none => v.attributes ending separator order
    | some value => marked .outside (separator :: k.opening) ++
        (value ++ (marked .outside k.closing ++ v.attributes ending ' ' order))

/-- The line of message number `sequence`. -/
def line (v : FetchValues) (sequence : Nat) (order : List FetchName) (ending : LineEnd) :
    List (Place × Char) :=
  marked .outside (Nat.toDigits 10 sequence ++ [' ']) ++ v.attributes ending '(' order

def metadata (v : FetchValues) (sequence : Nat) (order : List FetchName) (ending : LineEnd) : Bytes :=
  (v.line sequence order ending).map fun p => UInt8.ofNat p.2.toNat

/-- The first text inside a value that stands before attribute `k` (anywhere, if `k` is not
sent) and has the form the parser looks for, with what it reads there. -/
def stray (v : FetchValues) (lib : EmailLib) (ending : LineEnd) (k : FetchName) :
    List FetchName → Option (Place × FetchField)
  | [] => none
  | j :: order =>
    match v.written j with
    | none => v.stray lib ending k order
    | some value =>
      if j = k then none
      else (searchMarked isWordChar (fieldAt lib k) none value
          (j.closing ++ (v.attributes ending ' ' order).map Prod.snd)).or
        (v.stray lib ending k order)

/-- The parser gives back the values, and no text inside a quoted label is taken for an
attribute. -/
def ReadExactly (v : FetchValues) (lib : EmailLib) (sequence : Nat) (order : List FetchName)
    (ending : LineEnd) (body : Bytes) : Prop :=
  parseFetchResponse lib (v.metadata sequence order ending) body = .ok (v.ref lib body) ∧
    ∀ k s, searchMarked isWordChar (fieldAt lib k) none (v.line sequence order ending) [] = some s →
      s.1 ≠ .quoted

/-- No label contains a closing parenthesis, and no list stands before an attribute with
text in it that reads as that attribute, but for text outside quoted labels that reads as
the same value. -/
structure Unmistakable (v : FetchValues) (lib : EmailLib) (order : List FetchName)
    (ending : LineEnd) : Prop where
  labels : ∀ labels ∈ v.gmailLabels, ∀ l ∈ labels, ')' ∉ l.text
  stray : ∀ k s, v.stray lib ending k order = some s → s.1 ≠ .quoted ∧ v.field k = some s.2

end FetchValues

/-! ## Text in which no attribute begins -/

/-- The literal fails inside the text, whatever follows. -/
def mismatches : List Char → List Char → Bool
  | p :: pattern,c :: text => p.toLower != c.toLower || mismatches pattern text
  | _,_ => false

def isSilent (name : List Char) : Option Char → List Char → Bool
  | _,[] => true
  | previous,c :: text =>
    (previous.any isWordChar || mismatches name (c :: text)) && isSilent name (some c) text

theorem matchLiteral_mismatch (name text rest : List Char) (h : mismatches name text = true) :
    matchLiteral name (text ++ rest) = none := by
  induction name generalizing text with
  | nil => cases text <;> cases h
  | cons p name ih =>
    cases text with
    | nil => cases h
    | cons c text =>
      rw [List.cons_append,matchLiteral]
      split
      · next heq =>
        apply ih
        simpa [mismatches,heq] using h
      · rfl

theorem fieldAt_eq_none {lib : EmailLib} {k : FetchName} {text : List Char}
    (h : matchLiteral k.text.toList text = none) : fieldAt lib k text = none := by
  cases k <;> simp [fieldAt,matchNumber,matchQuoted,matchParenthesised,h]

theorem mismatches_append {name text : List Char} (h : mismatches name text = true)
    (more : List Char) : mismatches name (text ++ more) = true := by
  induction name generalizing text with
  | nil => cases text <;> cases h
  | cons p name ih =>
    cases text with
    | nil => cases h
    | cons c text =>
      simp only [mismatches,Bool.or_eq_true,List.cons_append] at h ⊢
      exact h.imp_right ih

/-- What is quiet at the start of a text is quiet after any character. -/
theorem isSilent_of_none {name text : List Char} (h : isSilent name none text = true)
    (previous : Option Char) : isSilent name previous text = true := by
  cases text with
  | nil => rfl
  | cons c text =>
    simp only [isSilent,Option.any_none,Bool.false_or,Bool.and_eq_true,Bool.or_eq_true] at h ⊢
    exact ⟨Or.inr h.1,h.2⟩

theorem isSilent_append {name text more : List Char} {previous : Option Char}
    (h : isSilent name previous text = true) (hmore : isSilent name none more = true) :
    isSilent name previous (text ++ more) = true := by
  induction text generalizing previous with
  | nil => exact isSilent_of_none hmore previous
  | cons c text ih =>
    simp only [isSilent,List.cons_append,Bool.and_eq_true,Bool.or_eq_true] at h ⊢
    refine ⟨?_,ih h.2⟩
    apply h.1.imp_right
    intro hmismatch
    exact mismatches_append hmismatch more

@[simp] theorem marked_snd (place : Place) (text : List Char) :
    (marked place text).map Prod.snd = text := by
  simp [marked]

theorem searchMarked_silent {lib : EmailLib} {k : FetchName} {previous : Option Char}
    {text : List Char} (place : Place) (rest : List Char)
    (h : isSilent k.text.toList previous text = true) :
    searchMarked isWordChar (fieldAt lib k) previous (marked place text) rest = none := by
  induction text generalizing previous with
  | nil => rfl
  | cons c text ih =>
    simp only [isSilent,Bool.and_eq_true,Bool.or_eq_true] at h
    have htail := ih h.2
    have hcons : marked place (c :: text) = (place,c) :: marked place text := rfl
    rw [hcons,searchMarked,marked_snd]
    split
    · exact htail
    · next hprevious =>
      have hnone := matchLiteral_mismatch _ _ rest (h.1.resolve_left hprevious)
      rw [List.cons_append] at hnone
      rw [fieldAt_eq_none hnone]
      exact htail

/-! The parts of a line that are quiet. -/

def timeChars : List Char := ['0','1','2','3','4','5','6','7','8','9',' ',':','+','-']

theorem toList_timeChars : "0123456789 :+-".toList = timeChars := String.toList_ofList

theorem isTimeChar_of_isDigit {c : Char} (h : c.isDigit = true) : isTimeChar c = true := by
  have hcodes : ∀ n < 128, (Char.ofNat n).isDigit = true → isTimeChar (Char.ofNat n) = true := by
    simp only [isTimeChar,toList_timeChars]
    decide
  have hlt : c.toNat < 128 := by
    simp only [Char.isDigit,Bool.and_eq_true,decide_eq_true_eq] at h
    have := h.2
    simp only [UInt32.le_iff_toNat_le] at this
    exact Nat.lt_of_le_of_lt this (by decide)
  have := hcodes c.toNat hlt
  rw [Char.ofNat_toNat] at this
  exact this h

theorem isTimeChar_toDigits {n : Nat} : ∀ c ∈ Nat.toDigits 10 n, isTimeChar c = true := by
  intro c hc
  exact isTimeChar_of_isDigit (Nat.isDigit_of_mem_toDigits (by decide) (by decide) hc)

theorem isSilent_time {k : FetchName} {text : List Char} (h : ∀ c ∈ text, isTimeChar c = true)
    (previous : Option Char) : isSilent k.text.toList previous text = true := by
  have hchars : ∀ c ∈ "0123456789 :+-".toList, ∀ k : FetchName,
      mismatches k.text.toList [c] = true := by
    simp only [toList_timeChars,FetchName.toList_text]
    decide
  induction text generalizing previous with
  | nil => rfl
  | cons c text ih =>
    simp only [List.mem_cons,forall_eq_or_imp] at h
    have hc : mismatches k.text.toList (c :: text) = true :=
      mismatches_append (hchars c (by simpa [isTimeChar] using h.1) k) text
    simp only [isSilent,hc,Bool.or_true,Bool.true_and]
    exact ih h.2 (some c)

theorem isSilent_date (k : FetchName) (d : SentDate) :
    isSilent k.text.toList none d.text = true := by
  have hmonths : ∀ month ∈ monthNames, ∀ k : FetchName,
      isSilent k.text.toList none ('-' :: (month ++ ['-'])) = true := by
    simp only [FetchName.toList_text]
    decide
  have htext : d.text = d.day ++ (('-' :: (d.month ++ ['-'])) ++ d.time) := by
    simp [SentDate.text]
  rw [htext]
  apply isSilent_append (isSilent_time d.day_time none)
  exact isSilent_append (hmonths d.month d.month_mem k) (isSilent_time d.time_time none)

theorem isSilent_opening : ∀ separator ∈ ['(',' '], ∀ j k : FetchName, j ≠ k →
    isSilent k.text.toList none (separator :: j.opening) = true := by
  simp only [FetchName.opening,FetchName.toList_text]
  decide

theorem isSilent_closing : ∀ j k : FetchName,
    isSilent k.text.toList none j.closing = true := by
  simp only [FetchName.toList_text]
  decide

theorem isSilent_ending (k : FetchName) (ending : LineEnd) :
    isSilent k.text.toList none ending.text = true := by
  cases ending with
  | plain =>
    rw [FetchName.toList_text]
    cases k <;> decide
  | literal length =>
    have hheader : ∀ k : FetchName, isSilent k.text.toList none
        " BODY[HEADER.FIELDS (MESSAGE-ID)] \x7b".toList = true := by
      simp only [FetchName.toList_text]
      decide
    have hbrace : ∀ k : FetchName, isSilent k.text.toList none "\x7d".toList = true := by
      simp only [FetchName.toList_text]
      decide
    apply isSilent_append (hheader k)
    exact isSilent_append (isSilent_time isTimeChar_toDigits none) (hbrace k)

end MailDock
