import MailDock.Repository.Tables
import Mathlib.Data.Finset.Basic
import Mathlib.Data.List.Infix
import Mathlib.Data.List.TakeWhile

/-!
# Search queries

`usecases/search_query.py` turns the text of the search box into a plan, and
`_matching_expression` of `search_repository.py` turns the plan into one compound
`SELECT`.  SQLite gives all compound operators the same precedence and evaluates them
from the left, so the statement is the list of its sub-selects with the operators
between them.
-/

namespace MailDock

inductive SearchMode
  | and | or
deriving DecidableEq, Repr

structure SearchPlan where
  matchTerms : List String := []
  likeTerms : List String := []
  excludeMatchTerms : List String := []
  excludeLikeTerms : List String := []
  mode : SearchMode := .and
  hasSlowPath : Bool := false
deriving DecidableEq, Repr

/-! Parsing. -/

structure SearchQueryError where
  message : String
deriving DecidableEq, Repr

/-- `str.isspace` of one character. -/
def isSpace (c : Char) : Bool :=
  let n := c.toNat
  (0x09 ≤ n && n ≤ 0x0d) || (0x1c ≤ n && n ≤ 0x20) || n == 0x85 || n == 0xa0 || n == 0x1680 ||
    (0x2000 ≤ n && n ≤ 0x200a) || n == 0x2028 || n == 0x2029 || n == 0x202f || n == 0x205f ||
    n == 0x3000

/-- The characters of a quoted phrase, read after its opening quote, and the rest. -/
def readPhrase : List Char → Except SearchQueryError (List Char × List Char)
  | [] => .error ⟨"search query contains an unterminated quote"⟩
  | '"' :: '"' :: rest => do
    let (phrase,rest) ← readPhrase rest
    pure ('"' :: phrase,rest)
  | '"' :: rest =>
    match rest with
    | [] => .ok ([],[])
    | c :: _ =>
      if isSpace c then .ok ([],rest)
      else .error ⟨"quoted phrases must be separated by whitespace"⟩
  | c :: rest => do
    let (phrase,rest) ← readPhrase rest
    pure (c :: phrase,rest)

/-- A term without quotes, up to the next space, and the rest. -/
def readWord : List Char → Except SearchQueryError (List Char × List Char)
  | [] => .ok ([],[])
  | c :: rest =>
    if isSpace c then .ok ([],c :: rest)
    else if c = '"' then .error ⟨"search query contains an invalid quote"⟩
    else do
      let (word,rest) ← readWord rest
      pure (c :: word,rest)

def readTerm (excluded : Bool) (text : List Char) :
    Except SearchQueryError ((Bool × String) × List Char) := do
  let (term,rest) ← (match text with
    | '"' :: text => readPhrase text
    | text => readWord text)
  if term = [] then .error ⟨"search query contains an empty phrase"⟩
  else .ok ((excluded,String.ofList term),rest)

/-- One round of the loop of `_tokenize`; `none` when only spaces are left. -/
def readToken (text : List Char) :
    Except SearchQueryError (Option ((Bool × String) × List Char)) :=
  match text.dropWhile isSpace with
  | [] => .ok none
  | '-' :: rest =>
    match rest with
    | [] => .error ⟨"search query contains an invalid exclusion"⟩
    | c :: _ =>
      if isSpace c then .error ⟨"search query contains an invalid exclusion"⟩
      else some <$> readTerm true rest
  | text => some <$> readTerm false text

/-- The loop of `_tokenize`.  Every round reads at least one character, so the length of
the text bounds their number. -/
def readTokens : (rounds : Nat) → List Char → Except SearchQueryError (List (Bool × String))
  | 0,_ => .ok []
  | rounds + 1,text => do
    match ← readToken text with
    | none => pure []
    | some (token,rest) => do
      let tokens ← readTokens rounds rest
      pure (token :: tokens)

def tokenize (text : String) : Except SearchQueryError (List (Bool × String)) := do
  let tokens ← readTokens (text.toList.length + 1) text.toList
  if tokens ≠ [] ∧ tokens.all Prod.fst then
    .error ⟨"search query must contain an included term"⟩
  else .ok tokens

def escapeFtsTerm (term : String) : String :=
  "\"" ++ String.ofList (term.toList.flatMap fun c => if c = '"' then ['"','"'] else [c]) ++ "\""

def escapeLikeTerm (term : String) : String :=
  String.ofList (term.toList.flatMap fun c =>
    if c = '\\' ∨ c = '%' ∨ c = '_' then ['\\',c] else [c])

/-- One term of the loop of `parse_query`; three characters are what the trigram index
needs. -/
def SearchPlan.addTerm (plan : SearchPlan) (excluded : Bool) (term : String) : SearchPlan :=
  if 3 ≤ term.toList.length then
    if excluded then
      { plan with excludeMatchTerms := plan.excludeMatchTerms ++ [escapeFtsTerm term] }
    else { plan with matchTerms := plan.matchTerms ++ [escapeFtsTerm term] }
  else if excluded then
    { plan with
      excludeLikeTerms := plan.excludeLikeTerms ++ [escapeLikeTerm term], hasSlowPath := true }
  else { plan with likeTerms := plan.likeTerms ++ [escapeLikeTerm term], hasSlowPath := true }

/-- `parse_query`, over the Unicode normalisation it shares with the indexing side. -/
def parseQuery (normalizeForSearch : String → String) (text : String) (mode : SearchMode) :
    Except SearchQueryError SearchPlan := do
  let tokens ← tokenize text
  if tokens = [] then .error ⟨"search query must contain a term"⟩
  else
    tokens.foldlM (fun plan token =>
      if normalizeForSearch token.2 = "" then
        .error ⟨"search query contains an empty term"⟩
      else .ok (plan.addTerm token.1 (normalizeForSearch token.2))) { mode := mode }

/-! The compound statement. -/

/-- A sub-select: the rows of the full-text index that match a term, or the rows of
`message_contents` one of whose columns is `LIKE` a pattern. -/
inductive TermSelect
  | fts (term : String)
  | like (pattern : String)
deriving DecidableEq, Repr

inductive CompoundOperator
  | union | intersect | except
deriving DecidableEq, Repr

/-- Sub-selects joined by compound operators, as they stand in the text. -/
structure CompoundSelect where
  first : TermSelect
  rest : List (CompoundOperator × TermSelect) := []
deriving DecidableEq, Repr

def termQuery (term : String) (like : Bool) : TermSelect :=
  if like then .like ("%" ++ term ++ "%") else .fts term

namespace CompoundSelect

/-- `operator.join(expressions)`; no expression gives the empty text. -/
def join (op : CompoundOperator) : List TermSelect → Option CompoundSelect
  | [] => none
  | s :: selects => some ⟨s,selects.map fun t => (op,t)⟩

/-- `f"{a} EXCEPT {b}"` for the texts of two compound selects. -/
def except (a b : CompoundSelect) : CompoundSelect :=
  ⟨a.first,a.rest ++ (.except,b.first) :: b.rest⟩

end CompoundSelect

namespace SearchPlan

def positiveTerms (plan : SearchPlan) : List TermSelect :=
  plan.matchTerms.map (termQuery · false) ++ plan.likeTerms.map (termQuery · true)

def negativeTerms (plan : SearchPlan) : List TermSelect :=
  plan.excludeMatchTerms.map (termQuery · false) ++ plan.excludeLikeTerms.map (termQuery · true)

def operator (plan : SearchPlan) : CompoundOperator :=
  match plan.mode with
  | .or => .union
  | .and => .intersect

/-- `_matching_expression`. -/
def matchingExpression (plan : SearchPlan) : Option CompoundSelect :=
  let positive := CompoundSelect.join plan.operator plan.positiveTerms
  match CompoundSelect.join .union plan.negativeTerms with
  | none => positive
  | some negative =>
    match positive with
    | some positive => some (positive.except negative)
    | none => some negative

end SearchPlan

/-! What SQLite makes of it. -/

def nul : Char := Char.ofNat 0

/-- What SQLite's C functions read of a text. -/
def beforeNul (text : List Char) : List Char := text.takeWhile (· ≠ nul)

/-- `patternCompare` with the escape character `\`; letters of ASCII match in either case. -/
def likeCompare : List Char → List Char → Bool
  | [],text => text.isEmpty
  | ['\\'],_ => false
  | '\\' :: c :: pattern,text =>
    match text with
    | [] => false
    | d :: text => c.toLower == d.toLower && likeCompare pattern text
  | '%' :: pattern,text => text.tails.any (likeCompare pattern)
  | '_' :: pattern,text =>
    match text with
    | [] => false
    | _ :: text => likeCompare pattern text
  | c :: pattern,text =>
    match text with
    | [] => false
    | d :: text => c.toLower == d.toLower && likeCompare pattern text

/-- `LIKE`: the pattern and the text end at the first U+0000. -/
def likeMatches (pattern text : List Char) : Bool :=
  likeCompare (beforeNul pattern) (beforeNul text)

/-- The searchable texts, and the answers of the full-text index to a `MATCH`. -/
structure SearchIndex where
  contents : List (Nat × MessageContents)
  fts : String → List Nat

def MessageContents.isLike (c : MessageContents) (pattern : String) : Bool :=
  [c.subjectNorm,c.senderNorm,c.bodyText,c.attachmentNames].any fun column =>
    column.any fun text => likeMatches pattern.toList text.toList

/-- The message ids a sub-select yields. -/
def TermSelect.rows (index : SearchIndex) : TermSelect → Finset Nat
  | .fts term => (index.fts term).toFinset
  | .like pattern => ((index.contents.filter fun c => c.2.isLike pattern).map Prod.fst).toFinset

def CompoundOperator.apply : CompoundOperator → Finset Nat → Finset Nat → Finset Nat
  | .union,a,b => a ∪ b
  | .intersect,a,b => a ∩ b
  | .except,a,b => a \ b

def CompoundSelect.rows (index : SearchIndex) (e : CompoundSelect) : Finset Nat :=
  e.rest.foldl (fun rows s => s.1.apply rows (s.2.rows index)) (e.first.rows index)

/-- What a plan asks for: all or one of the positive terms and none of the negative ones. -/
def SearchPlan.meaning (index : SearchIndex) (plan : SearchPlan) : Set Nat :=
  {id | (match plan.mode with
      | .and => ∀ s ∈ plan.positiveTerms, id ∈ s.rows index
      | .or => ∃ s ∈ plan.positiveTerms, id ∈ s.rows index) ∧
    ∀ s ∈ plan.negativeTerms, id ∉ s.rows index}

/-! The plan of an accepted query. -/

theorem SearchPlan.positiveTerms_addTerm (plan : SearchPlan) (excluded : Bool) (term : String) :
    (plan.addTerm excluded term).positiveTerms ≠ [] ↔
      plan.positiveTerms ≠ [] ∨ excluded = false := by
  cases excluded <;> by_cases hlength : 3 ≤ term.toList.length <;>
    simp [SearchPlan.addTerm,SearchPlan.positiveTerms,hlength]

theorem SearchPlan.positiveTerms_addTerms {normalizeForSearch : String → String}
    {tokens : List (Bool × String)} {start plan : SearchPlan}
    (h : tokens.foldlM (fun plan token =>
      if normalizeForSearch token.2 = "" then
        (.error ⟨"search query contains an empty term"⟩ : Except SearchQueryError SearchPlan)
      else .ok (plan.addTerm token.1 (normalizeForSearch token.2))) start = .ok plan)
    (htoken : start.positiveTerms ≠ [] ∨ ∃ token ∈ tokens, token.1 = false) :
    plan.positiveTerms ≠ [] := by
  induction tokens generalizing start with
  | nil =>
    cases h
    simpa using htoken
  | cons token tokens ih =>
    rw [List.foldlM_cons] at h
    by_cases hempty : normalizeForSearch token.2 = ""
    · simp [hempty,bind,Except.bind] at h
    · simp only [if_neg hempty,bind,Except.bind] at h
      refine ih h ?_
      rw [SearchPlan.positiveTerms_addTerm]
      rcases htoken with hstart | ⟨t,ht,hincluded⟩
      · exact .inl (.inl hstart)
      · rcases List.mem_cons.mp ht with rfl | ht
        · exact .inl (.inr hincluded)
        · exact .inr ⟨t,ht,hincluded⟩

/-- A query that is accepted has a positive term. -/
theorem parseQuery_positive {normalizeForSearch : String → String} {text : String}
    {mode : SearchMode} {plan : SearchPlan}
    (h : parseQuery normalizeForSearch text mode = .ok plan) : plan.positiveTerms ≠ [] := by
  unfold parseQuery at h
  cases htokens : tokenize text with
  | error e => rw [htokens] at h; cases h
  | ok tokens =>
    rw [htokens] at h
    simp only [bind,Except.bind] at h
    by_cases hempty : tokens = []
    · rw [if_pos hempty] at h; cases h
    · rw [if_neg hempty] at h
      refine SearchPlan.positiveTerms_addTerms h (.inr ?_)
      -- `_tokenize` has refused a text whose terms are all excluded
      by_contra hall
      have hexcluded : tokens.all Prod.fst := by
        rw [List.all_eq_true]
        intro t ht
        by_contra hf
        exact hall ⟨t,ht,by simpa using hf⟩
      unfold tokenize at htokens
      cases hread : readTokens (text.toList.length + 1) text.toList with
      | error e => rw [hread] at htokens; cases htokens
      | ok read =>
        rw [hread] at htokens
        simp only [bind,Except.bind] at htokens
        by_cases hbad : read ≠ [] ∧ read.all Prod.fst
        · rw [if_pos hbad] at htokens; cases htokens
        · rw [if_neg hbad] at htokens
          cases htokens
          exact hbad ⟨hempty,hexcluded⟩

/-! The slow path: an escaped term is looked for literally, up to a U+0000. -/

section
variable (index : SearchIndex) (id : Nat)

theorem mem_foldl_union (selects : List TermSelect) (rows : Finset Nat) :
    id ∈ (selects.map fun s => (CompoundOperator.union,s)).foldl
        (fun rows s => s.1.apply rows (s.2.rows index)) rows ↔
      id ∈ rows ∨ ∃ s ∈ selects, id ∈ s.rows index := by
  induction selects generalizing rows with
  | nil => simp
  | cons s selects ih =>
    rw [List.map_cons,List.foldl_cons,ih]
    simp [CompoundOperator.apply,or_assoc]

theorem mem_foldl_intersect (selects : List TermSelect) (rows : Finset Nat) :
    id ∈ (selects.map fun s => (CompoundOperator.intersect,s)).foldl
        (fun rows s => s.1.apply rows (s.2.rows index)) rows ↔
      id ∈ rows ∧ ∀ s ∈ selects, id ∈ s.rows index := by
  induction selects generalizing rows with
  | nil => simp
  | cons s selects ih =>
    rw [List.map_cons,List.foldl_cons,ih]
    simp [CompoundOperator.apply,and_assoc]

/-- A chain that goes on after an `EXCEPT` goes on with the rows that are left. -/
theorem CompoundSelect.rows_except (a b : CompoundSelect) :
    (a.except b).rows index = b.rest.foldl (fun rows s => s.1.apply rows (s.2.rows index))
      (a.rows index \ b.first.rows index) := by
  simp [CompoundSelect.except,CompoundSelect.rows,CompoundOperator.apply]

/-- The chain of the positive terms means what the mode says. -/
theorem SearchPlan.mem_positive_rows {plan : SearchPlan} {e : CompoundSelect}
    (he : CompoundSelect.join plan.operator plan.positiveTerms = some e) :
    id ∈ e.rows index ↔ match plan.mode with
      | .and => ∀ s ∈ plan.positiveTerms, id ∈ s.rows index
      | .or => ∃ s ∈ plan.positiveTerms, id ∈ s.rows index := by
  cases hterms : plan.positiveTerms with
  | nil => simp [hterms,CompoundSelect.join] at he
  | cons s selects =>
    simp only [hterms,CompoundSelect.join,Option.some.injEq] at he
    subst he
    cases hmode : plan.mode with
    | and =>
      have := mem_foldl_intersect index id selects (s.rows index)
      simpa [CompoundSelect.rows,SearchPlan.operator,hmode] using this
    | or =>
      have := mem_foldl_union index id selects (s.rows index)
      simpa [CompoundSelect.rows,SearchPlan.operator,hmode] using this

end

/-- The statement selects what the plan asks for exactly when no negative term but the first
one matches anything: `P EXCEPT n₁ UNION n₂` adds the rows of `n₂`. -/
theorem matchingExpression_meaning_iff (index : SearchIndex) (plan : SearchPlan)
    (hpositive : plan.positiveTerms ≠ []) :
    (∃ e, plan.matchingExpression = some e ∧ (e.rows index : Set Nat) = plan.meaning index) ↔
      ∀ s ∈ plan.negativeTerms.tail, s.rows index = ∅ := by
  obtain ⟨p,hp⟩ : ∃ p, CompoundSelect.join plan.operator plan.positiveTerms = some p := by
    obtain ⟨s,selects,hs⟩ := List.exists_cons_of_ne_nil hpositive
    exact ⟨_,by rw [hs]; rfl⟩
  have hrows := fun id => SearchPlan.mem_positive_rows index id hp
  cases hnegative : plan.negativeTerms with
  | nil =>
    have hexpr : plan.matchingExpression = some p := by
      rw [SearchPlan.matchingExpression,hnegative,hp]
      rfl
    simp only [hexpr,List.tail_nil,List.not_mem_nil,false_implies,implies_true,iff_true]
    refine ⟨p,rfl,Set.ext fun id => ?_⟩
    simp only [Finset.mem_coe,hrows,SearchPlan.meaning,hnegative,Set.mem_ofPred_eq,
      List.not_mem_nil,false_implies,implies_true,and_true]
  | cons first rest =>
    have hexpr : plan.matchingExpression =
        some (p.except ⟨first,rest.map fun s => (.union,s)⟩) := by
      rw [SearchPlan.matchingExpression,hnegative,hp]
      rfl
    have hmem : ∀ id, id ∈ (p.except ⟨first,rest.map fun s => (.union,s)⟩).rows index ↔
        (id ∈ p.rows index ∧ id ∉ first.rows index) ∨ ∃ s ∈ rest, id ∈ s.rows index := by
      intro id
      rw [CompoundSelect.rows_except,mem_foldl_union,Finset.mem_sdiff]
    have hmeaning : ∀ id, id ∈ plan.meaning index ↔ id ∈ p.rows index ∧
        id ∉ first.rows index ∧ ∀ s ∈ rest, id ∉ s.rows index := by
      intro id
      simp only [SearchPlan.meaning,hnegative,Set.mem_ofPred_eq,List.mem_cons,forall_eq_or_imp,
        hrows]
    rw [List.tail_cons]
    constructor
    · rintro ⟨e,he,hset⟩ s hs
      rw [hexpr,Option.some.injEq] at he
      subst he
      refine Finset.eq_empty_of_forall_notMem fun id hid => ?_
      -- a row of a later negative term is selected, and the plan excludes it
      have hin : id ∈ plan.meaning index := by
        rw [← hset,Finset.mem_coe,hmem]
        exact .inr ⟨s,hs,hid⟩
      exact ((hmeaning id).mp hin).2.2 s hs hid
    · intro hempty
      refine ⟨_,hexpr,Set.ext fun id => ?_⟩
      have hnone : ∀ s ∈ rest, id ∉ s.rows index := by
        intro s hs
        rw [hempty s hs]
        exact Finset.notMem_empty id
      rw [Finset.mem_coe,hmem,hmeaning]
      constructor
      · rintro (⟨hin,hout⟩ | ⟨s,hs,hid⟩)
        · exact ⟨hin,hout,hnone⟩
        · exact absurd hid (hnone s hs)
      · rintro ⟨hin,hout,-⟩
        exact .inl ⟨hin,hout⟩

/-- Three messages and an index that finds a term in those whose text is the term. -/
def threeTopics : SearchIndex where
  contents := [(1,⟨some "report",none,none,none⟩),(2,⟨some "draft",none,none,none⟩),
    (3,⟨some "lunch",none,none,none⟩)]
  fts term :=
    if term = "\"report\"" then [1] else if term = "\"draft\"" then [2]
    else if term = "\"lunch\"" then [3] else []

theorem matchingExpression_meaning_one_exclusion :
    ∃ e, (SearchPlan.mk ["\"report\""] [] ["\"draft\""] [] .and false).matchingExpression =
        some e ∧
      (e.rows threeTopics : Set Nat) =
        (SearchPlan.mk ["\"report\""] [] ["\"draft\""] [] .and false).meaning threeTopics :=
  (matchingExpression_meaning_iff threeTopics
    (SearchPlan.mk ["\"report\""] [] ["\"draft\""] [] .and false) (by decide)).mpr (by decide)

/-- `report -draft -lunch` finds the lunch message. -/
theorem second_exclusion_selected :
    ∃ plan e, parseQuery (fun text => text) "report -draft -lunch" .and = .ok plan ∧
      plan.matchingExpression = some e ∧ 3 ∈ e.rows threeTopics ∧
      (e.rows threeTopics : Set Nat) ≠ plan.meaning threeTopics := by
  refine ⟨SearchPlan.mk ["\"report\""] [] ["\"draft\"","\"lunch\""] [] .and false,_,
    by decide,rfl,by decide,?_⟩
  intro hset
  have hin : (3 : Nat) ∈ SearchPlan.meaning threeTopics
      (SearchPlan.mk ["\"report\""] [] ["\"draft\"","\"lunch\""] [] .and false) := by
    rw [← hset,Finset.mem_coe]
    decide
  exact hin.2 (.fts "\"lunch\"") (by decide) (by decide)

end MailDock
