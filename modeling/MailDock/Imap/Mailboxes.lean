import MailDock.Imap.Utf7
import MailDock.Search.Query
import MailDock.Sync.Folders

/-!
# Mailbox names

`parse_list_response` of `imap_common.py` takes the name of a mailbox from a LIST response, and
`generic_imap.py` puts the name into the commands that select, move, copy and relabel.  Reading
undoes a quoting; the commands quote the label of a STORE only, and escape nothing.

## Main definitions

- `readImapToken` — `_read_imap_token`: a token, and the text after it
- `parseListResponse` — the folder of a LIST response
- `selectCommand`, `moveCommand`, … — the arguments of the commands that name a mailbox
- `NameSurvives` — read back from each command, the name is the one that was put there

## Main results

- `readQuoted_length` — only a text without escapes is as long as what was read
- `nameSurvives_iff` — the names that survive
-/

namespace MailDock

/-! ## LIST responses -/

/-- A response of `imaplib`. -/
inductive ImapResponse
  | bytes (raw : Bytes)
  | text (text : List Char)
deriving DecidableEq, Repr

/-- `_response_text`. -/
def ImapResponse.responseText : ImapResponse → Except Error (List Char)
  | .bytes raw =>
    if raw.all fun b => b.toNat < 128 then .ok (decodeAscii raw)
    else .error ⟨.permanent,"IMAP response is not ASCII-compatible"⟩
  | .text body => .ok body

/-- The body of a quoted token, read after its opening quote, and the text after the closing one. -/
def readQuoted : List Char → Option (List Char × List Char)
  | [] => none
  | '"' :: rest => some ([],rest)
  | '\\' :: [] => none
  | '\\' :: c :: rest => (readQuoted rest).map fun r => (c :: r.1,r.2)
  | c :: rest => (readQuoted rest).map fun r => (c :: r.1,r.2)

/-- `_read_imap_token`; a position is the text from there on. -/
def readImapToken (text : List Char) : Except Error (List Char × List Char) :=
  match text.dropWhile isSpace with
  | [] => .error ⟨.permanent,"IMAP response ended before a token"⟩
  | '"' :: body =>
    match readQuoted body with
    | some result => .ok result
    | none => .error ⟨.permanent,"unterminated quoted IMAP token"⟩
  | text => .ok (text.takeWhile fun c => !isSpace c,text.dropWhile fun c => !isSpace c)

/-- `re.IGNORECASE` on the letters of the pattern: two letters have a third form. -/
def sameLetter (p c : Char) : Bool :=
  p.toLower == c.toLower || (p.toLower == 's' && c.toNat == 0x17f) ||
    (p.toLower == 'i' && (c.toNat == 0x130 || c.toNat == 0x131))

def matchLetters : List Char → List Char → Option (List Char)
  | [],text => some text
  | _ :: _,[] => none
  | p :: pattern,c :: text => if sameLetter p c then matchLetters pattern text else none

/-- `\s+`. -/
def matchSpaces : List Char → Option (List Char)
  | [] => none
  | c :: rest => if isSpace c then some (rest.dropWhile isSpace) else none

/-- `_LIST_PREFIX`: what follows the match. -/
def matchListPrefix (text : List Char) : Option (List Char) :=
  match text.dropWhile isSpace with
  | '*' :: rest => (matchSpaces rest).bind fun rest =>
      ((matchLetters "LIST".toList rest).or (matchLetters "LSUB".toList rest)).bind matchSpaces
  | _ => none

/-- A folder with the attributes its LIST response gives it. -/
structure ListedFolder extends RemoteFolder where
  specialUse : List String := []
deriving DecidableEq, Repr

/-- `delimiter.upper() == "NIL"`; the upper case of a dotless i is an I. -/
def isNil : List Char → Bool
  | [n,i,l] => n.toUpper == 'N' && (i.toUpper == 'I' || i.toNat == 0x131) && l.toUpper == 'L'
  | _ => false

def listedFolder (attributes : List String) (delimiter rawName : List Char) :
    Except Error ListedFolder :=
  if rawName.isEmpty then .error ⟨.permanent,"IMAP LIST response has an empty mailbox name"⟩
  else match decodeModifiedUtf7 none rawName with
  | none => .error ⟨.permanent,"IMAP LIST response has an invalid mailbox name"⟩
  | some displayName => .ok
    { rawName := String.ofList rawName
      displayName := String.ofList displayName
      specialUse := attributes
      delimiter := if isNil delimiter then none else some (String.ofList delimiter) }

/-- The delimiter and the name, after the attribute list. -/
def parseListedName (attributes : List String) (text : List Char) : Except Error ListedFolder := do
  let (delimiter,rest) ← readImapToken text
  let (rawName,_) ← readImapToken rest
  listedFolder attributes delimiter rawName

/-- Where the attribute list begins. -/
def listAttributes (text : List Char) : Except Error (List Char) :=
  match matchListPrefix text with
  | some rest => .ok rest
  | none =>
    if (text.dropWhile isSpace).head? = some '(' then .ok (text.dropWhile isSpace)
    else .error ⟨.permanent,"invalid IMAP LIST response: " ++ String.ofList (text.take 80)⟩

/-- `parse_list_response`. -/
def parseListResponse (response : ImapResponse) : Except Error ListedFolder := do
  let text ← response.responseText
  match (← listAttributes text) with
  | '(' :: inner =>
    if inner.contains ')' then
      let attributes := ((inner.takeWhile (· ≠ ')')).splitOnP isSpace).filter fun a => !a.isEmpty
      parseListedName (attributes.map String.ofList) ((inner.dropWhile (· ≠ ')')).drop 1)
    else .error ⟨.permanent,"IMAP LIST response has an unterminated attribute list"⟩
  | _ => .error ⟨.permanent,"IMAP LIST response has no attribute list"⟩

theorem listedFolder_ne_nil {attributes : List String} {delimiter rawName : List Char}
    {folder : ListedFolder} (h : listedFolder attributes delimiter rawName = .ok folder) :
    folder.rawName.toList ≠ [] := by
  unfold listedFolder at h
  split at h
  · cases h
  · next hname =>
    split at h
    · cases h
    · cases h
      simpa using hname

/-- An accepted name is not empty. -/
theorem parseListResponse_ne_nil {response : ImapResponse} {folder : ListedFolder}
    (h : parseListResponse response = .ok folder) : folder.rawName.toList ≠ [] := by
  unfold parseListResponse at h
  obtain ⟨text,-,h⟩ := Except.bind_eq_ok_iff.mp h
  obtain ⟨attributes,-,h⟩ := Except.bind_eq_ok_iff.mp h
  split at h
  · split at h
    · obtain ⟨⟨delimiter,rest⟩,-,h⟩ := Except.bind_eq_ok_iff.mp h
      obtain ⟨⟨rawName,_⟩,-,h⟩ := Except.bind_eq_ok_iff.mp h
      exact listedFolder_ne_nil h
    · cases h
  · cases h

/-! ## Commands -/

/-- The arguments of a command, in the order `imaplib` writes them. -/
abbrev Command := List (List Char)

/-- `select(raw_name, readonly=True)`. -/
def examineCommand (rawName : List Char) : Command := ["EXAMINE".toList,rawName]

/-- `select(raw_name)`. -/
def selectCommand (rawName : List Char) : Command := ["SELECT".toList,rawName]

def moveCommand (uid : Nat) (rawName : List Char) : Command :=
  ["UID".toList,"MOVE".toList,(toString uid).toList,rawName]

def copyCommand (uid : Nat) (rawName : List Char) : Command :=
  ["UID".toList,"COPY".toList,(toString uid).toList,rawName]

/-- The label list `f'("{raw_name}")'`. -/
def storedLabels (rawName : List Char) : List Char := '(' :: '"' :: (rawName ++ ['"',')'])

def removeLabelCommand (uid : Nat) (rawName : List Char) : Command :=
  ["UID".toList,"STORE".toList,(toString uid).toList,"-X-GM-LABELS.SILENT".toList,
    storedLabels rawName]

/-- The line of a command: its arguments with single spaces between them. -/
def commandLine (command : Command) : List Char := [' '].intercalate command

/-- The line from where the argument before the last one ends. -/
def lastArgument (command : Command) : List Char :=
  (commandLine command).drop (commandLine command.dropLast).length

/-- What is read where a command names its mailbox is the name, and nothing is left of the
argument; of the label list, that is but its closing parenthesis. -/
structure NameSurvives (rawName : List Char) : Prop where
  examine : readImapToken (lastArgument (examineCommand rawName)) = .ok (rawName,[])
  select : readImapToken (lastArgument (selectCommand rawName)) = .ok (rawName,[])
  move : ∀ uid, readImapToken (lastArgument (moveCommand uid rawName)) = .ok (rawName,[])
  copy : ∀ uid, readImapToken (lastArgument (copyCommand uid rawName)) = .ok (rawName,[])
  label : ∀ uid, readImapToken ((lastArgument (removeLabelCommand uid rawName)).drop 2) =
    .ok (rawName,[')'])

theorem commandLine_concat (a : List Char) (front : Command) (argument : List Char) :
    commandLine (a :: front ++ [argument]) = commandLine (a :: front) ++ ' ' :: argument := by
  induction front generalizing a with
  | nil => simp [commandLine,List.intercalate]
  | cons b front ih =>
    have htail := ih b
    simp only [commandLine,List.intercalate,List.cons_append,List.intersperse_cons_cons,
      List.flatten_cons] at htail ⊢
    rw [htail]
    simp

/-- The line ends with a space and the last argument. -/
theorem lastArgument_concat (a : List Char) (front : Command) (argument : List Char) :
    lastArgument (a :: front ++ [argument]) = ' ' :: argument := by
  rw [lastArgument,List.dropLast_concat,commandLine_concat,List.drop_left]

/-! ## Reading back -/

/-- What is read of a quoted token is shorter than its text by the closing quote and by one
character for each escape. -/
theorem readQuoted_length {text token rest : List Char} (h : readQuoted text = some (token,rest)) :
    token.length + rest.length < text.length ∧
      (token.length + rest.length + 1 = text.length →
        text = token ++ '"' :: rest ∧ ∀ c ∈ token, c ≠ '"' ∧ c ≠ '\\') := by
  induction text using readQuoted.induct generalizing token with
  | case1 => cases h
  | case2 tail =>
    cases h
    exact ⟨by simp,fun _ => ⟨rfl,by simp⟩⟩
  | case3 => cases h
  | case4 c tail ih =>
    -- an escape
    rw [readQuoted] at h
    obtain ⟨⟨inner,rest'⟩,hinner,heq⟩ := Option.map_eq_some_iff.mp h
    cases heq
    have hlength := (ih hinner).1
    dsimp only at hlength ⊢
    simp only [List.length_cons]
    constructor
    · omega
    · omega
  | case5 c tail hquote hend hescape ih =>
    rw [readQuoted] at h
    · obtain ⟨⟨inner,rest'⟩,hinner,heq⟩ := Option.map_eq_some_iff.mp h
      cases heq
      obtain ⟨hlength,hplain⟩ := ih hinner
      dsimp only at hlength hplain ⊢
      simp only [List.length_cons]
      constructor
      · omega
      · intro heq
        obtain ⟨htail,hinner⟩ := hplain (by omega)
        refine ⟨by rw [htail,List.cons_append],?_⟩
        intro d hd
        rcases List.mem_cons.mp hd with rfl | hd
        · refine ⟨fun hd => hquote hd,fun hd => ?_⟩
          cases tail with
          | nil => exact hend hd rfl
          | cons e tail => exact hescape e tail hd rfl
        · exact hinner d hd
    · exact hquote
    · exact hend
    · exact hescape

theorem readQuoted_plain {token : List Char} (h : ∀ c ∈ token, c ≠ '"' ∧ c ≠ '\\')
    (rest : List Char) : readQuoted (token ++ '"' :: rest) = some (token,rest) := by
  induction token with
  | nil => rfl
  | cons c token ih =>
    simp only [List.mem_cons,forall_eq_or_imp] at h
    rw [List.cons_append,readQuoted,ih h.2]
    · rfl
    · exact h.1.1
    · intro hc
      exact absurd hc h.1.2
    · intro d tail hc
      exact absurd hc h.1.2

/-- A label survives its quotes when there is nothing in it to escape. -/
theorem readImapToken_label_iff (rawName : List Char) :
    readImapToken ('"' :: (rawName ++ ['"',')'])) = .ok (rawName,[')']) ↔
      ∀ c ∈ rawName, c ≠ '"' ∧ c ≠ '\\' := by
  have hread : readImapToken ('"' :: (rawName ++ ['"',')'])) =
      match readQuoted (rawName ++ ['"',')']) with
      | some result => .ok result
      | none => .error ⟨.permanent,"unterminated quoted IMAP token"⟩ := rfl
  rw [hread]
  constructor
  · intro h
    cases hquoted : readQuoted (rawName ++ ['"',')']) with
    | none => rw [hquoted] at h; cases h
    | some result =>
      rw [hquoted] at h
      cases h
      exact ((readQuoted_length hquoted).2 (by simp)).2
  · intro h
    rw [readQuoted_plain h]

/-- A name that is not quoted survives when it is one atom. -/
theorem readImapToken_atom_iff {rawName : List Char} (hne : rawName ≠ []) :
    readImapToken (' ' :: rawName) = .ok (rawName,[]) ↔
      rawName.head? ≠ some '"' ∧ ∀ c ∈ rawName, isSpace c = false := by
  have hskip : (' ' :: rawName).dropWhile isSpace = rawName.dropWhile isSpace :=
    List.dropWhile_cons_of_pos rfl
  constructor
  · intro h
    unfold readImapToken at h
    rw [hskip] at h
    have hlength := (List.dropWhile_suffix isSpace (l := rawName)).length_le
    split at h
    · cases h
    · next body heq =>
      -- unquoting shortens the name
      rw [heq] at hlength
      cases hquoted : readQuoted body with
      | none => rw [hquoted] at h; cases h
      | some result =>
        rw [hquoted] at h
        cases h
        have hshort := (readQuoted_length hquoted).1
        simp only [List.length_cons] at hlength
        omega
    · next hnil hquote =>
      simp only [Except.ok.injEq,Prod.mk.injEq] at h
      have hname : rawName.dropWhile isSpace = rawName := by
        refine List.IsSuffix.eq_of_length (List.dropWhile_suffix isSpace) ?_
        have htake := (List.takeWhile_prefix (fun c => !isSpace c)
          (l := rawName.dropWhile isSpace)).length_le
        rw [h.1] at htake
        omega
      rw [hname] at h hquote
      refine ⟨fun hhead => ?_,fun c hc => ?_⟩
      · obtain ⟨body,rfl⟩ := List.head?_eq_some_iff.mp hhead
        exact hquote body rfl
      · have hall := List.takeWhile_eq_self_iff.mp h.1 c hc
        simpa using hall
  · rintro ⟨hquote,hspace⟩
    have hname : rawName.dropWhile isSpace = rawName := by
      cases rawName with
      | nil => rfl
      | cons c rawName => exact List.dropWhile_cons_of_neg (by simp [hspace c (by simp)])
    have hall : ∀ c ∈ rawName, (!isSpace c) = true := fun c hc => by simp [hspace c hc]
    unfold readImapToken
    rw [hskip,hname]
    split
    · exact absurd rfl hne
    · exact absurd rfl hquote
    · rw [List.takeWhile_eq_self_iff.mpr hall,List.dropWhile_eq_nil_iff.mpr hall]

/-- Every listed name that is an atom without quotes and backslashes survives its commands, and no
other does. -/
theorem nameSurvives_iff {response : ImapResponse} {folder : ListedFolder}
    (h : parseListResponse response = .ok folder) :
    NameSurvives folder.rawName.toList ↔
      ∀ c ∈ folder.rawName.toList, isSpace c = false ∧ c ≠ '"' ∧ c ≠ '\\' := by
  have hatom := readImapToken_atom_iff (parseListResponse_ne_nil h)
  have hlabel := readImapToken_label_iff folder.rawName.toList
  generalize folder.rawName.toList = rawName at hatom hlabel ⊢
  have hexamine := lastArgument_concat "EXAMINE".toList [] rawName
  have hselect := lastArgument_concat "SELECT".toList [] rawName
  have hmove := fun uid : Nat =>
    lastArgument_concat "UID".toList ["MOVE".toList,(toString uid).toList] rawName
  have hcopy := fun uid : Nat =>
    lastArgument_concat "UID".toList ["COPY".toList,(toString uid).toList] rawName
  have hstore := fun uid : Nat => lastArgument_concat "UID".toList
    ["STORE".toList,(toString uid).toList,"-X-GM-LABELS.SILENT".toList] (storedLabels rawName)
  constructor
  · intro hsurvives
    have hread := hsurvives.select
    have hstored := hsurvives.label 0
    rw [show lastArgument (selectCommand rawName) = _ from hselect] at hread
    rw [show lastArgument (removeLabelCommand 0 rawName) = _ from hstore 0] at hstored
    intro c hc
    exact ⟨(hatom.mp hread).2 c hc,hlabel.mp hstored c hc⟩
  · intro hplain
    have hread : readImapToken (' ' :: rawName) = .ok (rawName,[]) := by
      refine hatom.mpr ⟨fun hhead => ?_,fun c hc => (hplain c hc).1⟩
      exact (hplain '"' (List.mem_of_head? hhead)).2.1 rfl
    refine ⟨?_,?_,fun uid => ?_,fun uid => ?_,fun uid => ?_⟩
    · rwa [← hexamine] at hread
    · rwa [← hselect] at hread
    · rwa [← hmove uid] at hread
    · rwa [← hcopy uid] at hread
    · rw [show lastArgument (removeLabelCommand uid rawName) = _ from hstore uid]
      exact hlabel.mpr fun c hc => (hplain c hc).2

/-- What `imaplib` returns for a mailbox whose name the server quotes. -/
def listedAs (name : String) : ImapResponse :=
  .bytes (("(\\HasNoChildren) \"/\" \"".toList ++ name.toList ++ ['"']).map
    fun c => UInt8.ofNat c.toNat)

/-- A folder below a label, with an ampersand in its name. -/
theorem nameSurvives_iff_label : ∃ folder,
    parseListResponse (listedAs "[Gmail]/R&-D") = .ok folder ∧
      folder.displayName = "[Gmail]/R&D" ∧ NameSurvives folder.rawName.toList :=
  ⟨⟨⟨"[Gmail]/R&-D","[Gmail]/R&D",none,some "/"⟩,["\\HasNoChildren"]⟩,by decide,rfl,
    (@nameSurvives_iff (listedAs "[Gmail]/R&-D")
      ⟨⟨"[Gmail]/R&-D","[Gmail]/R&D",none,some "/"⟩,["\\HasNoChildren"]⟩ (by decide)).mpr
      (by decide)⟩

/-- A name with a space is cut short by the commands that do not quote it. -/
theorem spaced_name_lost :
    (∃ folder, parseListResponse (listedAs "Sent Items") = .ok folder ∧
      folder.rawName = "Sent Items" ∧ ¬ NameSurvives folder.rawName.toList) ∧
    readImapToken (lastArgument (selectCommand "Sent Items".toList)) =
      .ok ("Sent".toList," Items".toList) := by
  refine ⟨⟨⟨⟨"Sent Items","Sent Items",none,some "/"⟩,["\\HasNoChildren"]⟩,by decide,rfl,?_⟩,
    by decide⟩
  intro hsurvives
  have hread := hsurvives.select
  revert hread
  decide

end MailDock
