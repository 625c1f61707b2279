import MailDock.Domain.Text
import MailDock.Lib.Table

/-!
# Header parameters

`_parse_parameters` of `infrastructure/parsing/headers.py`: one scanner finds the semicolons that
are not quoted, a second one takes the quotes and escapes of a value away.

## Main definitions

- `Headers.parseParameters` — the parameters of a header value
- `Headers.writeParameters` — a header value with quoted parameters

## Main result

- `Headers.parseParameters_writeParameters` — what was written is read back
-/

namespace MailDock

namespace Headers

open Relational

/-- The loop of `_split_parameters`; `piece` is `value[start:index]`. -/
def splitFrom (quoted escaped : Bool) (piece : PyText) : PyText → List PyText
  | [] => [piece]
  | c :: rest =>
    if escaped then splitFrom quoted false (piece ++ [c]) rest
    else if c = .ofChar '\\' ∧ quoted then splitFrom quoted true (piece ++ [c]) rest
    else if c = .ofChar '"' then splitFrom (!quoted) false (piece ++ [c]) rest
    else if c = .ofChar ';' ∧ ¬quoted then piece :: splitFrom quoted false [] rest
    else splitFrom quoted false (piece ++ [c]) rest

def splitParameters (value : PyText) : List PyText := splitFrom false false [] value

/-- The loop of `_unquote_parameter`; an escape at the end stands for itself. -/
def unescapeFrom (escaped : Bool) : PyText → PyText
  | [] => if escaped then [.ofChar '\\'] else []
  | c :: rest =>
    if escaped then c :: unescapeFrom false rest
    else if c = .ofChar '\\' then unescapeFrom true rest
    else c :: unescapeFrom false rest

def unquoteParameter (value : PyText) : PyText :=
  let value := value.strip
  if 2 ≤ value.length ∧ value.head? = some (.ofChar '"') ∧
      value.getLast? = some (.ofChar '"') then
    unescapeFrom false value.tail.dropLast
  else unescapeFrom false value

section
variable (lower : PyText → PyText)

/-- `_parse_parameters`, given `str.lower`.  A parameter without `=` is passed over. -/
def parseParameters (value : PyText) : List (PyText × PyText) :=
  (splitParameters value).tail.foldl (fun parameters item =>
    match PyText.partition (.ofChar '=') item with
    | (name,some parameterValue) =>
      assign parameters (lower name.strip) (unquoteParameter parameterValue)
    | (_,none) => parameters) []

/-! ## Written parameters -/

/-- A character a token may have: printable ASCII but a space and the separators of RFC 2045. -/
def isTokenChar (c : CodePoint) : Bool :=
  0x21 ≤ c.val && c.val ≤ 0x7e && !(pyText "()<>@,;:\\\"/[]?=".toList).contains c

/-- A parameter with a lower-case token for a name, and the white space around it. -/
structure Parameter where
  before : PyText
  name : PyText
  value : PyText
  after : PyText
  before_isSpace : before.all CodePoint.isSpace = true
  after_isSpace : after.all CodePoint.isSpace = true
  name_ne_nil : name ≠ []
  name_token : name.all isTokenChar = true
  name_lower : lower name = name

end

/-- The value with its quotes and backslashes escaped. -/
def escapeQuoted (value : PyText) : PyText :=
  value.flatMap fun c => if c = .ofChar '"' ∨ c = .ofChar '\\' then [.ofChar '\\',c] else [c]

def quoteParameter (value : PyText) : PyText :=
  .ofChar '"' :: (escapeQuoted value ++ [CodePoint.ofChar '"'])

variable {lower : PyText → PyText}

def Parameter.text (p : Parameter lower) : PyText :=
  p.before ++ (p.name ++ CodePoint.ofChar '=' :: (quoteParameter p.value ++ p.after))

def writeParameters (kind : PyText) (parameters : List (Parameter lower)) : PyText :=
  kind ++ parameters.flatMap fun p => CodePoint.ofChar ';' :: p.text

/-! ## The scanners -/

/-- A text without quotes and semicolons. -/
def Bare (text : PyText) : Prop := ∀ c ∈ text, c ≠ .ofChar '"' ∧ c ≠ .ofChar ';'

theorem bare_pyText {s : List Char} (h : ∀ c ∈ s, c ≠ '"' ∧ c ≠ ';') : Bare (pyText s) := by
  intro c hc
  obtain ⟨d,hd,rfl⟩ := List.mem_map.mp hc
  exact ⟨CodePoint.ofChar_injective.ne (h d hd).1,CodePoint.ofChar_injective.ne (h d hd).2⟩

theorem splitFrom_bare {text : PyText} (h : Bare text) (piece rest : PyText) :
    splitFrom false false piece (text ++ rest) = splitFrom false false (piece ++ text) rest := by
  induction text generalizing piece with
  | nil => simp
  | cons c text ih =>
    obtain ⟨hquote,hsemicolon⟩ := h c List.mem_cons_self
    have hrest := ih (fun d hd => h d (List.mem_cons_of_mem _ hd)) (piece ++ [c])
    simp [splitFrom,hquote,hsemicolon,hrest]

theorem splitFrom_escapeQuoted (value piece rest : PyText) :
    splitFrom true false piece (escapeQuoted value ++ rest) =
      splitFrom true false (piece ++ escapeQuoted value) rest := by
  induction value generalizing piece with
  | nil => simp [escapeQuoted]
  | cons c value ih =>
    have hcons : escapeQuoted (c :: value) =
        (if c = .ofChar '"' ∨ c = .ofChar '\\' then [CodePoint.ofChar '\\',c] else [c]) ++
          escapeQuoted value := rfl
    by_cases hspecial : c = .ofChar '"' ∨ c = .ofChar '\\'
    · -- the escape takes the character along, whichever it is
      have hrest := ih (piece ++ [CodePoint.ofChar '\\',c])
      rw [hcons,if_pos hspecial]
      simpa [splitFrom] using hrest
    · have hrest := ih (piece ++ [c])
      rw [hcons,if_neg hspecial]
      obtain ⟨hquote,hescape⟩ := not_or.mp hspecial
      simpa [splitFrom,hquote,hescape] using hrest

theorem splitFrom_quoteParameter (value piece rest : PyText) :
    splitFrom false false piece (quoteParameter value ++ rest) =
      splitFrom false false (piece ++ quoteParameter value) rest := by
  have hinside := splitFrom_escapeQuoted value (piece ++ [CodePoint.ofChar '"'])
    (CodePoint.ofChar '"' :: rest)
  have hopen : ¬(CodePoint.ofChar '"' = .ofChar '\\') := by decide
  simp [quoteParameter,splitFrom,hinside,hopen]

theorem unescapeFrom_escapeQuoted (value : PyText) :
    unescapeFrom false (escapeQuoted value) = value := by
  induction value with
  | nil => rfl
  | cons c value ih =>
    have hcons : escapeQuoted (c :: value) =
        (if c = .ofChar '"' ∨ c = .ofChar '\\' then [CodePoint.ofChar '\\',c] else [c]) ++
          escapeQuoted value := rfl
    by_cases hspecial : c = .ofChar '"' ∨ c = .ofChar '\\'
    · rw [hcons,if_pos hspecial]
      simp [unescapeFrom,ih]
    · rw [hcons,if_neg hspecial]
      simp [unescapeFrom,ih,(not_or.mp hspecial).2]

theorem unquoteParameter_quoteParameter (value : PyText) {after : PyText}
    (hafter : after.all CodePoint.isSpace = true) :
    unquoteParameter (quoteParameter value ++ after) = value := by
  have hquote : CodePoint.isSpace (.ofChar '"') = false := by decide
  have hlast : (quoteParameter value).getLast? = some (.ofChar '"') := by
    rw [quoteParameter,← List.cons_append,List.getLast?_concat]
  have hstrip : (quoteParameter value ++ after).strip = quoteParameter value := by
    show PyText.strip ([] ++ (quoteParameter value ++ after)) = _
    refine PyText.strip_padded rfl hafter ?_ ?_
    · intro c hc
      cases hc
      exact hquote
    · intro c hc
      rw [hlast] at hc
      cases hc
      exact hquote
  have hlength : 2 ≤ (quoteParameter value).length := by simp [quoteParameter]
  rw [unquoteParameter,hstrip]
  simp only [hlast,hlength,true_and]
  rw [if_pos ⟨rfl,trivial⟩]
  simp [quoteParameter,unescapeFrom_escapeQuoted]

/-! ## The header -/

theorem isSpace_bare {text : PyText} (h : text.all CodePoint.isSpace = true) : Bare text := by
  intro c hc
  have hspace := List.all_eq_true.mp h c hc
  constructor <;> rintro rfl <;> exact absurd hspace (by decide)

theorem isTokenChar_spec {c : CodePoint} (h : isTokenChar c = true) :
    c ≠ .ofChar '"' ∧ c ≠ .ofChar ';' ∧ c ≠ .ofChar '=' ∧ CodePoint.isSpace c = false := by
  refine ⟨?_,?_,?_,?_⟩
  · rintro rfl
    exact absurd h (by decide)
  · rintro rfl
    exact absurd h (by decide)
  · rintro rfl
    exact absurd h (by decide)
  · simp only [isTokenChar,Bool.and_eq_true,decide_eq_true_eq] at h
    simp only [CodePoint.isSpace,Bool.or_eq_false_iff,Bool.and_eq_false_iff,
      decide_eq_false_iff_not,beq_eq_false_iff_ne]
    omega

namespace Parameter

variable (p : Parameter lower)

theorem name_spec {c : CodePoint} (hc : c ∈ p.name) :
    c ≠ .ofChar '"' ∧ c ≠ .ofChar ';' ∧ c ≠ .ofChar '=' ∧ CodePoint.isSpace c = false :=
  isTokenChar_spec (List.all_eq_true.mp p.name_token c hc)

theorem splitFrom_text (piece rest : PyText) :
    splitFrom false false piece (p.text ++ rest) =
      splitFrom false false (piece ++ p.text) rest := by
  have hname : Bare (p.before ++ (p.name ++ [CodePoint.ofChar '='])) := by
    intro c hc
    rcases List.mem_append.mp hc with hc | hc
    · exact isSpace_bare p.before_isSpace c hc
    · rcases List.mem_append.mp hc with hc | hc
      · exact ⟨(p.name_spec hc).1,(p.name_spec hc).2.1⟩
      · rw [List.mem_singleton.mp hc]
        decide
  have htext : p.text = (p.before ++ (p.name ++ [CodePoint.ofChar '='])) ++
      (quoteParameter p.value ++ p.after) := by
    simp [text]
  rw [htext,List.append_assoc,splitFrom_bare hname,List.append_assoc,splitFrom_quoteParameter,
    splitFrom_bare (isSpace_bare p.after_isSpace)]
  simp only [List.append_assoc]

theorem partition_text : PyText.partition (.ofChar '=') p.text =
    (p.before ++ p.name,some (quoteParameter p.value ++ p.after)) := by
  have hequals : CodePoint.ofChar '=' ∉ p.before ++ p.name := by
    intro hmem
    rcases List.mem_append.mp hmem with hmem | hmem
    · have hspace := List.all_eq_true.mp p.before_isSpace _ hmem
      exact absurd hspace (by decide)
    · exact (p.name_spec hmem).2.2.1 rfl
  rw [text,← List.append_assoc,PyText.partition_append hequals]

theorem strip_name : PyText.strip (p.before ++ p.name) = p.name := by
  have hspace : ∀ c ∈ p.name, CodePoint.isSpace c = false := fun c hc => (p.name_spec hc).2.2.2
  have hstrip : PyText.strip (p.before ++ (p.name ++ [])) = p.name :=
    PyText.strip_padded p.before_isSpace rfl (fun c hc => hspace c (List.mem_of_mem_head? hc))
      (fun c hc => hspace c (List.mem_of_getLast? hc))
  rwa [List.append_nil] at hstrip

end Parameter

theorem splitFrom_parameters (piece : PyText) (parameters : List (Parameter lower)) :
    splitFrom false false piece (parameters.flatMap fun p => CodePoint.ofChar ';' :: p.text) =
      piece :: parameters.map Parameter.text := by
  induction parameters generalizing piece with
  | nil => rfl
  | cons p parameters ih =>
    rw [List.flatMap_cons,List.cons_append,splitFrom]
    have hsemicolon : ¬(CodePoint.ofChar ';' = .ofChar '"') := by decide
    simp only [Bool.false_eq_true,if_false,and_false,hsemicolon,not_false_eq_true,and_self,if_true]
    rw [p.splitFrom_text,List.nil_append,ih]
    rfl

theorem splitParameters_writeParameters {kind : PyText} (hkind : Bare kind)
    (parameters : List (Parameter lower)) :
    splitParameters (writeParameters kind parameters) =
      kind :: parameters.map Parameter.text := by
  rw [splitParameters,writeParameters,splitFrom_bare hkind,List.nil_append,splitFrom_parameters]

/-- Quoting is inverted for every list of parameters whose names differ. -/
theorem parseParameters_writeParameters (kind : PyText) (hkind : Bare kind)
    (parameters : List (Parameter lower)) (hnames : (parameters.map Parameter.name).Nodup) :
    parseParameters lower (writeParameters kind parameters) =
      parameters.map fun p => (p.name,p.value) := by
  have hstep : ∀ (p : Parameter lower) (d : List (PyText × PyText)),
      (match PyText.partition (.ofChar '=') p.text with
        | (name,some parameterValue) =>
          assign d (lower name.strip) (unquoteParameter parameterValue)
        | (_,none) => d) = assign d p.name p.value := by
    intro p d
    rw [p.partition_text]
    simp only [p.strip_name,p.name_lower,unquoteParameter_quoteParameter p.value p.after_isSpace]
  have hloop : ∀ d : List (PyText × PyText),
      (d.map Prod.fst ++ parameters.map Parameter.name).Nodup →
      parameters.foldl (fun d p => assign d p.name p.value) d =
        d ++ parameters.map fun p => (p.name,p.value) := by
    clear hnames
    induction parameters with
    | nil => simp
    | cons p parameters ih =>
      intro d hd
      have hnew : p.name ∉ d.map Prod.fst := by
        intro hmem
        exact (List.nodup_append.mp hd).2.2 _ hmem _ List.mem_cons_self rfl
      rw [List.foldl_cons,assign_new hnew,ih _ (by simpa using hd)]
      simp
  rw [parseParameters,splitParameters_writeParameters hkind,List.tail_cons,List.foldl_map]
  simp only [hstep]
  exact hloop [] (by simpa using hnames)

/-- A name with a semicolon, an equals sign, a quote and a backslash in it, an empty value and
one with quotes at both ends. -/
theorem parseParameters_writeParameters_special :
    parseParameters (fun name => name) (pyText
        "attachment; filename=\"a;b=\\\"\\\\\" ;size=\"\"; name=\"\\\"x\\\"\"".toList) =
      [(pyText "filename".toList,pyText "a;b=\"\\".toList),(pyText "size".toList,[]),
        (pyText "name".toList,pyText "\"x\"".toList)] := by
  exact parseParameters_writeParameters (pyText "attachment".toList) (bare_pyText (by decide))
    [⟨pyText " ".toList,pyText "filename".toList,pyText "a;b=\"\\".toList,pyText " ".toList,
        by decide,rfl,by decide,by decide,by decide⟩,
      ⟨[],pyText "size".toList,[],[],rfl,rfl,by decide,by decide,rfl⟩,
      ⟨pyText " ".toList,pyText "name".toList,pyText "\"x\"".toList,[],by decide,rfl,by decide,
        by decide,rfl⟩] (by decide)

end Headers

end MailDock
