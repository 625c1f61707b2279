import MailDock.Imap.FetchLine

/-!
# Reading the attributes of a FETCH line

Each attribute is read where it stands: a number, a date and the flags always come back, the
labels when none of them contains a closing parenthesis.

## Main results

- `fieldAt_written` — an attribute at its own place
- `search_attributes` — the search for an attribute finds stray text or the attribute itself
- `readExactly_iff` — when exactly the values come back
-/

namespace MailDock

/-! ## One value -/

theorem matchLiteral_self (name rest : List Char) :
    matchLiteral name (name ++ rest) = some rest := by
  induction name with
  | nil => cases rest <;> rfl
  | cons c name ih => rw [List.cons_append,matchLiteral,if_pos rfl,ih]

theorem isSpaceChar_of_isDigit {c : Char} (h : c.isDigit = true) : isSpaceChar c = false := by
  simp only [Char.isDigit,Bool.and_eq_true,decide_eq_true_eq,ge_iff_le,
    UInt32.le_iff_toNat_le] at h
  have hlow : 48 ≤ c.toNat := h.1
  simp only [isSpaceChar,Bool.or_eq_false_iff,Bool.and_eq_false_iff,decide_eq_false_iff_not]
  omega

theorem matchNumber_written (name : String) (n : Nat) {c : Char} (hc : c.isDigit = false)
    (rest : List Char) :
    matchNumber name (name.toList ++ ([' '] ++ (Nat.toDigits 10 n ++ c :: rest))) = some n := by
  have hdigits : ∀ d ∈ Nat.toDigits 10 n, d.isDigit = true := fun d hd =>
    Nat.isDigit_of_mem_toDigits (by decide) (by decide) hd
  have hne : Nat.toDigits 10 n ≠ [] := Nat.toDigits_ne_nil
  have hspace : (Nat.toDigits 10 n ++ c :: rest).dropWhile isSpaceChar =
      Nat.toDigits 10 n ++ c :: rest := by
    cases hlist : Nat.toDigits 10 n with
    | nil => exact absurd hlist hne
    | cons d ds =>
      rw [List.cons_append,List.dropWhile_cons_of_neg]
      rw [isSpaceChar_of_isDigit (hdigits d (by simp [hlist]))]
      exact Bool.false_ne_true
  have hvalue := Nat.ofDigitChars_ten_toDigits (n := n)
  rw [Nat.ofDigitChars_eq_foldl] at hvalue
  rw [matchNumber,matchLiteral_self]
  have htake : ([' '] ++ (Nat.toDigits 10 n ++ c :: rest)).takeWhile isSpaceChar ≠ [] := by
    simp [isSpaceChar]
  have hdrop : ([' '] ++ (Nat.toDigits 10 n ++ c :: rest)).dropWhile isSpaceChar =
      Nat.toDigits 10 n ++ c :: rest := by
    rw [List.singleton_append,List.dropWhile_cons_of_pos (by decide),hspace]
  simp only [Option.bind_eq_bind,Option.bind_some,List.isEmpty_iff,hdrop,if_neg htake]
  rw [List.takeWhile_append_of_pos hdigits,List.takeWhile_cons_of_neg (by simp [hc]),
    List.append_nil,if_neg hne,hvalue]

theorem matchQuoted_written (name : String) {value : List Char} (hne : value ≠ [])
    (hquotes : ∀ c ∈ value, isQuoteChar c = false) (rest : List Char) :
    matchQuoted name (name.toList ++ ([' ','"'] ++ (value ++ '"' :: rest))) = some value := by
  have htake : (value ++ '"' :: rest).takeWhile (fun c => !isQuoteChar c) = value := by
    rw [List.takeWhile_append_of_pos (by simpa using hquotes),
      List.takeWhile_cons_of_neg (by decide),List.append_nil]
  have hspace : ([' ','"'] ++ (value ++ '"' :: rest)).takeWhile isSpaceChar = [' '] := by
    rw [List.cons_append,List.takeWhile_cons_of_pos (by decide),List.cons_append,
      List.takeWhile_cons_of_neg (by decide)]
  have hdrop : ([' ','"'] ++ (value ++ '"' :: rest)).dropWhile isSpaceChar =
      '"' :: (value ++ '"' :: rest) := by
    rw [List.cons_append,List.dropWhile_cons_of_pos (by decide),List.cons_append,
      List.dropWhile_cons_of_neg (by decide)]
    rfl
  rw [matchQuoted,matchLiteral_self]
  simp only [Option.bind_eq_bind,Option.bind_some,hspace,hdrop,htake]
  simp [hne,isQuoteChar]

/-- A list ends at its first closing parenthesis. -/
theorem matchParenthesised_written (name : String) (inner rest : List Char) :
    matchParenthesised name (name.toList ++ ([' ','('] ++ (inner ++ ')' :: rest))) =
      some (inner.takeWhile (· ≠ ')')) := by
  have htake : (inner ++ ')' :: rest).takeWhile (· ≠ ')') = inner.takeWhile (· ≠ ')') := by
    induction inner with
    | nil => rfl
    | cons c inner ih =>
      rw [List.cons_append,List.takeWhile_cons,List.takeWhile_cons,ih]
  have hdrop : ([' ','('] ++ (inner ++ ')' :: rest)).dropWhile isSpaceChar =
      '(' :: (inner ++ ')' :: rest) := by
    rw [List.cons_append,List.dropWhile_cons_of_pos (by decide),List.cons_append,
      List.dropWhile_cons_of_neg (by decide)]
    rfl
  rw [matchParenthesised,matchLiteral_self]
  simp only [Option.bind_eq_bind,Option.bind_some,hdrop,htake]
  simp

/-! ## The flags -/

theorem takeWhile_paren {text : List Char} (h : ')' ∉ text) :
    text.takeWhile (· ≠ ')') = text := by
  rw [List.takeWhile_eq_self_iff]
  intro c hc
  simp only [ne_eq,decide_not,Bool.not_eq_true',decide_eq_false_iff_not]
  rintro rfl
  exact h hc

theorem splitSpaces_spaced (names : List (List Char))
    (h : ∀ name ∈ names, name ≠ [] ∧ ∀ c ∈ name, isSpaceChar c = false) :
    splitSpaces ((spaced (names.map (marked .atom))).map Prod.snd) = names := by
  have hword : ∀ name ∈ names, (!name.isEmpty) = true := by
    intro name hname
    simpa using (h name hname).1
  unfold splitSpaces
  induction names with
  | nil => rfl
  | cons name names ih =>
    simp only [List.mem_cons,forall_eq_or_imp] at h hword
    cases names with
    | nil =>
      simp only [List.map_cons,List.map_nil,spaced,marked_snd]
      rw [List.splitOnP_eq_singleton h.1.2,List.filter_cons_of_pos (by simpa using h.1.1),
        List.filter_nil]
    | cons name' names =>
      have htail := ih h.2 hword.2
      simp only [List.map_cons,spaced,List.map_append,marked_snd] at htail ⊢
      rw [List.splitOnP_append_cons_of_forall_mem h.1.2 ' ' (by decide),
        List.filter_cons_of_pos (by simpa using h.1.1),htail]

/-! ## The labels -/

theorem isPrintable_iff {c : Char} : isPrintable c = true ↔ 0x20 ≤ c.toNat ∧ c.toNat ≤ 0x7e := by
  simp [isPrintable]

/-- Printable text is written as it is, but for the ampersand. -/
theorem encodeModifiedUtf7_printable {text : List Char} (h : ∀ c ∈ text, isPrintable c = true) :
    encodeModifiedUtf7 [] text = text.flatMap fun c => if c = '&' then ['&','-'] else [c] := by
  induction text with
  | nil => rfl
  | cons c text ih =>
    simp only [List.mem_cons,forall_eq_or_imp,isPrintable_iff] at h
    have htail := ih fun c hc => isPrintable_iff.mpr (h.2 c hc)
    rw [List.flatMap_cons,encodeModifiedUtf7]
    by_cases hampersand : c = '&'
    · rw [if_neg (by simp [hampersand]),if_pos hampersand,if_pos hampersand,htail]
      rfl
    · rw [if_pos ⟨h.1.1,h.1.2,hampersand⟩,if_neg hampersand,htail]
      rfl

/-- What stands on the wire for a label. -/
def SentLabel.encoded (l : SentLabel) : List Char := encodeModifiedUtf7 [] l.text

theorem SentLabel.mem_encoded {l : SentLabel} {c : Char} (h : c ∈ l.encoded) :
    c ∈ l.text ∨ c = '-' := by
  rw [encoded,encodeModifiedUtf7_printable l.printable,List.mem_flatMap] at h
  obtain ⟨d,hd,hc⟩ := h
  split at hc
  · next hampersand =>
    simp only [List.mem_cons,List.not_mem_nil,or_false] at hc
    exact hc.imp_left fun heq => by rwa [heq,← hampersand]
  · simp only [List.mem_cons,List.not_mem_nil,or_false] at hc
    exact Or.inl (hc ▸ hd)

theorem SentLabel.mem_text {l : SentLabel} {c : Char} (h : c ∈ l.text) : c ∈ l.encoded := by
  rw [encoded,encodeModifiedUtf7_printable l.printable,List.mem_flatMap]
  refine ⟨c,h,?_⟩
  split
  · next hampersand => simp [hampersand]
  · simp

theorem mem_of_mem_quoteEscape {text : List Char} {c : Char} (h : c ∈ quoteEscape text) :
    c ∈ text ∨ c = '\\' := by
  induction text with
  | nil => exact Or.inl h
  | cons d text ih =>
    rw [quoteEscape] at h
    split at h
    · simp only [List.mem_cons] at h ⊢
      rcases h with h | h | h
      · exact Or.inr h
      · exact Or.inl (Or.inl h)
      · exact (ih h).imp_left Or.inr
    · simp only [List.mem_cons] at h ⊢
      rcases h with h | h
      · exact Or.inl (Or.inl h)
      · exact (ih h).imp_left Or.inr

theorem scanQuoted_escaped (text rest : List Char) :
    scanQuoted (quoteEscape text ++ '"' :: rest) = some (quoteEscape text,rest) := by
  induction text with
  | nil => rfl
  | cons c text ih =>
    rw [quoteEscape]
    by_cases hescape : c = '"' ∨ c = '\\'
    · have hline : c ≠ '\n' := by
        rintro rfl
        simp at hescape
      rw [if_pos hescape,List.cons_append,List.cons_append,scanQuoted,if_neg hline,ih]
      rfl
    · simp only [not_or] at hescape
      rw [if_neg (by simpa using hescape),List.cons_append]
      rw [scanQuoted.eq_5 c _ hescape.1 (by
        intro c' rest' heq
        exact absurd heq hescape.2) (by
        intro heq
        exact absurd heq hescape.2),ih]
      rfl

theorem unescape_escaped (text : List Char) : unescape (quoteEscape text) = text := by
  induction text with
  | nil => rfl
  | cons c text ih =>
    rw [quoteEscape]
    by_cases hescape : c = '"' ∨ c = '\\'
    · have hline : c ≠ '\n' := by
        rintro rfl
        simp at hescape
      rw [if_pos hescape,unescape,if_neg hline,ih]
    · simp only [not_or] at hescape
      rw [if_neg (by simpa using hescape),unescape.eq_2 c _ (by
        intro c' rest' heq
        exact absurd heq hescape.2),ih]

theorem SentLabel.wire_ne_nil (l : SentLabel) : l.wire.map Prod.snd ≠ [] := by
  by_cases hquoted : l.quoted = true
  · simp [wire,hquoted]
  · obtain ⟨hne,-⟩ := l.atom (by simpa using hquoted)
    obtain ⟨c,hc⟩ := List.exists_mem_of_ne_nil _ hne
    have hencoded : l.encoded ≠ [] := List.ne_nil_of_mem (l.mem_text hc)
    simpa [wire,hquoted,encoded] using hencoded

/-- A label is read up to the end of the list or the space that follows it. -/
theorem imapStrings_wire (l : SentLabel) (fuel : Nat) {rest : List Char}
    (hrest : rest = [] ∨ ∃ more, rest = ' ' :: more) :
    imapStrings (fuel + 1) (l.wire.map Prod.snd ++ rest) = l.encoded :: imapStrings fuel rest := by
  by_cases hquoted : l.quoted = true
  · have hwire : l.wire.map Prod.snd ++ rest =
        '"' :: (quoteEscape l.encoded ++ '"' :: rest) := by
      simp [SentLabel.wire,hquoted,SentLabel.encoded]
    rw [hwire,imapStrings,if_pos rfl,scanQuoted_escaped]
    simp only [unescape_escaped]
  · obtain ⟨hne,hatom⟩ := l.atom (by simpa using hquoted)
    have hwire : l.wire.map Prod.snd = l.encoded := by
      simp [SentLabel.wire,hquoted,SentLabel.encoded]
    have hchars : ∀ c ∈ l.encoded, isAtomChar c = true ∧ c ≠ '"' := by
      intro c hc
      rcases l.mem_encoded hc with hc | rfl
      · exact hatom c hc
      · decide
    have htake : (l.encoded ++ rest).takeWhile isAtomChar = l.encoded := by
      rw [List.takeWhile_append_of_pos fun c hc => (hchars c hc).1]
      rcases hrest with rfl | ⟨more,rfl⟩
      · simp
      · rw [List.takeWhile_cons_of_neg (by decide),List.append_nil]
    have hdrop : (l.encoded ++ rest).dropWhile isAtomChar = rest := by
      rw [List.dropWhile_append_of_pos fun c hc => (hchars c hc).1]
      rcases hrest with rfl | ⟨more,rfl⟩
      · rfl
      · rw [List.dropWhile_cons_of_neg (by decide)]
    have hencoded : l.encoded ≠ [] := hwire ▸ l.wire_ne_nil
    rw [hwire]
    cases hlist : l.encoded with
    | nil => exact absurd hlist hencoded
    | cons c text =>
      have hc : c ≠ '"' := (hchars c (by simp [hlist])).2
      rw [hlist,List.cons_append] at htake hdrop
      rw [List.cons_append,imapStrings,if_neg hc]
      simp only [htake,hdrop]
      rfl

theorem imapStrings_nil (fuel : Nat) : imapStrings fuel [] = [] := by
  cases fuel <;> rfl

theorem imapStrings_space (fuel : Nat) (text : List Char) :
    imapStrings (fuel + 1) (' ' :: text) = imapStrings fuel text := by
  rw [imapStrings,if_neg (by decide)]
  simp only [List.takeWhile_cons_of_neg (show ¬ isAtomChar ' ' = true by decide)]
  rfl

theorem imapStrings_spaced (labels : List SentLabel) (fuel : Nat)
    (hfuel : ((spaced (labels.map SentLabel.wire)).map Prod.snd).length ≤ fuel) :
    imapStrings fuel ((spaced (labels.map SentLabel.wire)).map Prod.snd) =
      labels.map SentLabel.encoded := by
  induction labels generalizing fuel with
  | nil => exact imapStrings_nil fuel
  | cons l labels ih =>
    have hpos := List.length_pos_of_ne_nil l.wire_ne_nil
    cases labels with
    | nil =>
      simp only [List.map_cons,List.map_nil,spaced] at hfuel ⊢
      obtain ⟨fuel,rfl⟩ : ∃ n, fuel = n + 1 := ⟨fuel - 1,by omega⟩
      have hread := imapStrings_wire l fuel (Or.inl rfl)
      rw [List.append_nil] at hread
      rw [hread,imapStrings_nil]
    | cons l' labels =>
      simp only [List.map_cons,spaced,List.map_append,List.length_append,List.length_cons]
        at hfuel ih ⊢
      obtain ⟨fuel,rfl⟩ : ∃ n, fuel = n + 2 := ⟨fuel - 2,by omega⟩
      rw [imapStrings_wire l (fuel + 1) (Or.inr ⟨_,rfl⟩),imapStrings_space,ih fuel (by omega)]

theorem mapM_decode_encoded (labels : List SentLabel) :
    (labels.map SentLabel.encoded).mapM (decodeModifiedUtf7 none) =
      some (labels.map SentLabel.text) := by
  induction labels with
  | nil => rfl
  | cons l labels ih =>
    rw [List.map_cons,List.mapM_cons,SentLabel.encoded,decodeModifiedUtf7_encode,ih]
    rfl

/-! ## A list that is cut short -/

/-- Every ampersand is followed by a hyphen, as in the encoding of printable text. -/
def Plain (text : List Char) : Prop := ∀ front back, text = front ++ '&' :: back →
  ∃ back', back = '-' :: back'

theorem Plain.of_append {text more : List Char} (h : Plain (text ++ more)) : Plain more := by
  intro front back heq
  exact h (text ++ front) back (by rw [heq,List.append_assoc])

theorem Plain.append {text more : List Char} (htext : Plain text) (hmore : Plain more) :
    Plain (text ++ more) := by
  intro front back heq
  rcases List.append_eq_append_iff.mp heq with ⟨a,ha,hb⟩ | ⟨a,ha,hb⟩
  · exact hmore a back hb
  · cases a with
    | nil => exact hmore [] back (by simpa using hb.symm)
    | cons c a =>
      obtain ⟨rfl,rfl⟩ := List.cons.inj hb
      obtain ⟨back',rfl⟩ := htext front a ha
      exact ⟨back' ++ more,rfl⟩

theorem plain_nil : Plain [] := by
  intro front back heq
  cases front <;> cases heq

theorem plain_cons {c : Char} {text : List Char} :
    Plain (c :: text) ↔ (c = '&' → ∃ back, text = '-' :: back) ∧ Plain text := by
  constructor
  · intro h
    have happend : Plain ([c] ++ text) := h
    refine ⟨?_,happend.of_append⟩
    rintro rfl
    exact h [] text rfl
  · rintro ⟨hc,h⟩ front back heq
    cases front with
    | nil =>
      obtain ⟨rfl,rfl⟩ := List.cons.inj heq
      exact hc rfl
    | cons d front => exact h front back (List.cons.inj heq).2

theorem Plain.cons {c : Char} (hc : c ≠ '&') {text : List Char} (h : Plain text) :
    Plain (c :: text) := plain_cons.mpr ⟨fun heq => absurd heq hc,h⟩

/-- A text cut before anything but a hyphen stays plain. -/
theorem Plain.left {text more : List Char} {c : Char} (hc : c ≠ '-')
    (h : Plain (text ++ c :: more)) : Plain text := by
  intro front back heq
  rw [heq,List.append_assoc,List.cons_append] at h
  obtain ⟨back',hback⟩ := h front (back ++ c :: more) rfl
  cases back with
  | nil => exact absurd (List.cons.inj hback).1 hc
  | cons d back => exact ⟨back,by rw [(List.cons.inj hback).1]⟩

theorem Plain.takeWhile {text : List Char} (h : Plain text) {p : Char → Bool} (hp : p '-' = true) :
    Plain (text.takeWhile p) := by
  have hsplit := List.takeWhile_append_dropWhile (p := p) (l := text)
  cases hdrop : text.dropWhile p with
  | nil =>
    rw [hdrop,List.append_nil] at hsplit
    rw [hsplit]
    exact h
  | cons c rest =>
    have hc : p c = false := by
      have hhead := List.head_dropWhile_not p (l := text) (by simp [hdrop])
      simpa [hdrop] using hhead
    rw [hdrop] at hsplit
    rw [← hsplit] at h
    apply h.left
    rintro rfl
    rw [hp] at hc
    cases hc

theorem plain_encoded (l : SentLabel) : Plain l.encoded := by
  rw [SentLabel.encoded,encodeModifiedUtf7_printable l.printable]
  generalize l.text = text
  induction text with
  | nil => exact plain_nil
  | cons c text ih =>
    rw [List.flatMap_cons]
    by_cases hampersand : c = '&'
    · rw [if_pos hampersand]
      exact plain_cons.mpr ⟨fun _ => ⟨_,rfl⟩,ih.cons (by decide)⟩
    · rw [if_neg hampersand]
      exact ih.cons hampersand

theorem plain_quoteEscape {text : List Char} (h : Plain text) : Plain (quoteEscape text) := by
  induction text with
  | nil => exact h
  | cons c text ih =>
    obtain ⟨hc,htext⟩ := plain_cons.mp h
    rw [quoteEscape]
    split
    · next hescape =>
      have hne : c ≠ '&' := by
        rintro rfl
        simp at hescape
      exact ((ih htext).cons hne).cons (by decide)
    · refine plain_cons.mpr ⟨?_,ih htext⟩
      intro hampersand
      obtain ⟨back,rfl⟩ := hc hampersand
      exact ⟨quoteEscape back,rfl⟩

theorem plain_wire (l : SentLabel) : Plain (l.wire.map Prod.snd) := by
  by_cases hquoted : l.quoted = true
  · have hend : Plain ['"'] := plain_nil.cons (by decide)
    have hbody := ((plain_quoteEscape (plain_encoded l)).append hend).cons
      (show '"' ≠ '&' by decide)
    simpa [SentLabel.wire,hquoted,SentLabel.encoded] using hbody
  · simpa [SentLabel.wire,hquoted,SentLabel.encoded] using plain_encoded l

theorem plain_spaced (labels : List SentLabel) :
    Plain ((spaced (labels.map SentLabel.wire)).map Prod.snd) := by
  induction labels with
  | nil => exact plain_nil
  | cons l labels ih =>
    cases labels with
    | nil => exact plain_wire l
    | cons l' labels =>
      simp only [List.map_cons,spaced,List.map_append] at ih ⊢
      exact (plain_wire l).append (ih.cons (by decide))

theorem plain_unescape {text : List Char} (h : Plain text) : Plain (unescape text) := by
  induction text using unescape.induct with
  | case1 rest ih =>
    rw [unescape,if_pos rfl]
    exact ((ih (plain_cons.mp (plain_cons.mp h).2).2).cons (by decide)).cons (by decide)
  | case2 c rest hline ih =>
    obtain ⟨hc,hrest⟩ := plain_cons.mp (plain_cons.mp h).2
    rw [unescape,if_neg hline]
    refine plain_cons.mpr ⟨?_,ih hrest⟩
    intro hampersand
    obtain ⟨back,rfl⟩ := hc hampersand
    exact ⟨unescape back,by cases back <;> rfl⟩
  | case3 c rest hescape ih =>
    obtain ⟨hc,hrest⟩ := plain_cons.mp h
    rw [unescape.eq_2 c rest hescape]
    refine plain_cons.mpr ⟨?_,ih hrest⟩
    intro hampersand
    obtain ⟨back,rfl⟩ := hc hampersand
    exact ⟨unescape back,by cases back <;> rfl⟩
  | case4 => exact plain_nil

theorem mem_unescape {text : List Char} {c : Char} (h : c ∈ unescape text) : c ∈ text := by
  induction text using unescape.induct with
  | case1 rest ih =>
    rw [unescape,if_pos rfl] at h
    simp only [List.mem_cons] at h ⊢
    exact h.imp_right fun h => h.imp_right ih
  | case2 d rest hline ih =>
    rw [unescape,if_neg hline] at h
    simp only [List.mem_cons] at h ⊢
    exact Or.inr (h.imp_right ih)
  | case3 d rest hescape ih =>
    rw [unescape.eq_2 d rest hescape] at h
    simp only [List.mem_cons] at h ⊢
    exact h.imp_right ih
  | case4 => exact h

theorem scanQuoted_eq {text body rest : List Char} (h : scanQuoted text = some (body,rest)) :
    text = body ++ '"' :: rest := by
  induction text using scanQuoted.induct generalizing body rest with
  | case1 => cases h
  | case2 rest' =>
    rw [scanQuoted] at h
    obtain ⟨rfl,rfl⟩ := Prod.mk.inj (Option.some.inj h)
    rfl
  | case3 rest' => simp [scanQuoted] at h
  | case4 c rest' hline ih =>
    rw [scanQuoted,if_neg hline] at h
    obtain ⟨⟨body',more⟩,hscan,heq⟩ := Option.map_eq_some_iff.mp h
    obtain ⟨rfl,rfl⟩ := Prod.mk.inj heq
    rw [ih hscan]
    rfl
  | case5 => cases h
  | case6 c rest' hquote hescape hend ih =>
    rw [scanQuoted.eq_5 c rest' hquote hescape hend] at h
    obtain ⟨⟨body',more⟩,hscan,heq⟩ := Option.map_eq_some_iff.mp h
    obtain ⟨rfl,rfl⟩ := Prod.mk.inj heq
    rw [ih hscan]
    rfl

/-- The strings of a plain text are plain, with no other characters than the text has. -/
theorem imapStrings_plain {fuel : Nat} {text token : List Char} (hplain : Plain text)
    (h : token ∈ imapStrings fuel text) : Plain token ∧ ∀ c ∈ token, c ∈ text := by
  induction fuel generalizing text with
  | zero => cases h
  | succ fuel ih =>
    cases text with
    | nil => cases h
    | cons c text =>
      have htext := (plain_cons.mp hplain).2
      rw [imapStrings] at h
      split at h
      · next body rest hscan =>
        split at hscan
        · have heq := scanQuoted_eq hscan
          rw [heq] at htext
          rcases List.mem_cons.mp h with rfl | h
          · refine ⟨plain_unescape (htext.left (by decide)),?_⟩
            intro d hd
            rw [heq]
            simp [mem_unescape hd]
          · obtain ⟨htoken,hmem⟩ := ih (plain_cons.mp htext.of_append).2 h
            refine ⟨htoken,?_⟩
            intro d hd
            rw [heq]
            simp [hmem d hd]
        · cases hscan
      · simp only at h
        split at h
        · obtain ⟨htoken,hmem⟩ := ih htext h
          exact ⟨htoken,fun d hd => List.mem_cons_of_mem c (hmem d hd)⟩
        · rcases List.mem_cons.mp h with rfl | h
          · exact ⟨hplain.takeWhile (by decide),fun d hd => List.takeWhile_subset _ hd⟩
          · have hsplit := List.takeWhile_append_dropWhile (p := isAtomChar) (l := c :: text)
            rw [← hsplit] at hplain
            obtain ⟨htoken,hmem⟩ := ih hplain.of_append h
            exact ⟨htoken,fun d hd => List.dropWhile_subset _ (hmem d hd)⟩

theorem decodeModifiedUtf7_plain {text decoded : List Char} (hplain : Plain text)
    (h : decodeModifiedUtf7 none text = some decoded) : ∀ c ∈ decoded, c ∈ text := by
  induction hlength : text.length using Nat.strongRecOn generalizing text decoded with
  | ind n ih =>
    cases text with
    | nil =>
      obtain rfl := Option.some.inj h
      exact fun c hc => hc
    | cons d text =>
      obtain ⟨hd,htext⟩ := plain_cons.mp hplain
      rw [decodeModifiedUtf7] at h
      split at h
      · next hampersand =>
        -- an empty token, which stands for the ampersand
        obtain ⟨back,rfl⟩ := hd hampersand
        rw [decodeModifiedUtf7,if_pos rfl] at h
        cases hback : decodeModifiedUtf7 none back with
        | none =>
          rw [hback] at h
          cases h
        | some tail =>
          rw [hback] at h
          obtain rfl := Option.some.inj h
          intro c hc
          rcases List.mem_cons.mp hc with rfl | hc
          · simp [hampersand]
          · have hmem := ih back.length (by simp at hlength; omega) (plain_cons.mp htext).2 hback
              rfl c hc
            simp [hmem]
      · obtain ⟨tail,htail,rfl⟩ := Option.map_eq_some_iff.mp h
        intro c hc
        rcases List.mem_cons.mp hc with rfl | hc
        · exact List.mem_cons_self
        · exact List.mem_cons_of_mem d
            (ih text.length (by simp at hlength; omega) htext htail rfl c hc)

theorem mem_of_mapM {α β : Type} {f : α → Option β} {xs : List α} {ys : List β}
    (h : xs.mapM f = some ys) : ∀ y ∈ ys, ∃ x ∈ xs, f x = some y := by
  induction xs generalizing ys with
  | nil =>
    obtain rfl := Option.some.inj h
    simp
  | cons x xs ih =>
    rw [List.mapM_cons] at h
    simp only [Option.bind_eq_bind,Option.bind_eq_some_iff,Option.pure_def,Option.some.injEq] at h
    obtain ⟨y,hy,ys',hys,rfl⟩ := h
    intro y' hy'
    rcases List.mem_cons.mp hy' with rfl | hy'
    · exact ⟨x,List.mem_cons_self,hy⟩
    · obtain ⟨x',hx',heq⟩ := ih hys y' hy'
      exact ⟨x',List.mem_cons_of_mem x hx',heq⟩

/-- Labels read from a list that ends at the first closing parenthesis contain none. -/
theorem labels_cut (labels : List SentLabel) {fuel : Nat} {names : List (List Char)}
    (h : (imapStrings fuel (((spaced (labels.map SentLabel.wire)).map Prod.snd).takeWhile
      (· ≠ ')'))).mapM (decodeModifiedUtf7 none) = some names) :
    ∀ name ∈ names, ')' ∉ name := by
  intro name hname hparen
  obtain ⟨token,htoken,hdecode⟩ := mem_of_mapM h name hname
  have hcut := (plain_spaced labels).takeWhile (p := (· ≠ ')')) (by decide)
  obtain ⟨hplain,hmem⟩ := imapStrings_plain hcut htoken
  have := List.mem_takeWhile_imp (hmem _ (decodeModifiedUtf7_plain hplain hdecode _ hparen))
  simp at this

/-! ## An attribute at its own place -/

theorem mem_spaced {words : List (List (Place × Char))} {c : Char}
    (h : c ∈ (spaced words).map Prod.snd) : c = ' ' ∨ ∃ word ∈ words, c ∈ word.map Prod.snd := by
  induction words with
  | nil => cases h
  | cons word words ih =>
    cases words with
    | nil => exact Or.inr ⟨word,List.mem_cons_self,h⟩
    | cons word' words =>
      simp only [spaced,List.map_append,List.map_cons,List.mem_append,List.mem_cons] at h
      rcases h with h | h | h
      · exact Or.inr ⟨word,List.mem_cons_self,h⟩
      · exact Or.inl h
      · rcases ih h with h | ⟨word',hword,h⟩
        · exact Or.inl h
        · exact Or.inr ⟨word',List.mem_cons_of_mem word hword,h⟩

theorem SentLabel.mem_wire {l : SentLabel} {c : Char} (h : c ∈ l.wire.map Prod.snd) :
    c ∈ l.text ∨ c = '-' ∨ c = '\\' ∨ c = '"' := by
  by_cases hquoted : l.quoted = true
  · have hmem : c = '"' ∨ c ∈ quoteEscape l.encoded := by
      simp only [wire,hquoted,if_true,marked_snd,List.mem_cons,List.mem_append,
        List.not_mem_nil,or_false] at h
      tauto
    rcases hmem with hc | hc
    · exact Or.inr (Or.inr (Or.inr hc))
    · rcases mem_of_mem_quoteEscape hc with hc | hc
      · rcases l.mem_encoded hc with hc | hc
        · exact Or.inl hc
        · exact Or.inr (Or.inl hc)
      · exact Or.inr (Or.inr (Or.inl hc))
  · have hmem : c ∈ l.encoded := by
      simpa [wire,hquoted,encoded] using h
    rcases l.mem_encoded hmem with hc | hc
    · exact Or.inl hc
    · exact Or.inr (Or.inl hc)

/-- The flags contain no parenthesis. -/
theorem flags_parens (flags : List SentFlag) {c : Char}
    (h : c ∈ (spaced (flags.map fun f => marked .atom f.name)).map Prod.snd) :
    c ≠ '(' ∧ c ≠ ')' := by
  rcases mem_spaced h with rfl | ⟨word,hword,hc⟩
  · decide
  · obtain ⟨f,-,rfl⟩ := List.mem_map.mp hword
    rw [marked_snd] at hc
    have hatom := (f.atom c hc).2
    refine ⟨?_,?_⟩
    · rintro rfl
      exact absurd hatom (by decide)
    · rintro rfl
      exact absurd hatom (by decide)

theorem labels_parens {labels : List SentLabel} (h : ∀ l ∈ labels, ')' ∉ l.text) :
    ')' ∉ (spaced (labels.map SentLabel.wire)).map Prod.snd := by
  intro hmem
  rcases mem_spaced hmem with hc | ⟨word,hword,hc⟩
  · cases hc
  · obtain ⟨l,hl,rfl⟩ := List.mem_map.mp hword
    rcases l.mem_wire hc with hc | hc | hc | hc
    · exact h l hl hc
    · cases hc
    · cases hc
    · cases hc

/-- The text of a list, from its name to its end. -/
theorem opening_flags (inner rest : List Char) :
    FetchName.flags.opening ++ (inner ++ (FetchName.flags.closing ++ rest)) =
      FetchName.flags.text.toList ++ ([' ','('] ++ (inner ++ ')' :: rest)) := by
  simp [FetchName.opening,FetchName.delimiter,FetchName.closing]

theorem opening_labels (inner rest : List Char) :
    FetchName.labels.opening ++ (inner ++ (FetchName.labels.closing ++ rest)) =
      FetchName.labels.text.toList ++ ([' ','('] ++ (inner ++ ')' :: rest)) := by
  simp [FetchName.opening,FetchName.delimiter,FetchName.closing]

theorem fieldAt_flags (lib : EmailLib) (flags : List SentFlag) (rest : List Char) :
    fieldAt lib .flags (FetchName.flags.opening ++
      ((spaced (flags.map fun f => marked .atom f.name)).map Prod.snd ++
        (FetchName.flags.closing ++ rest))) =
      some (.flags (flags.map fun f => String.ofList f.name)) := by
  have hparen : ')' ∉ (spaced (flags.map fun f => marked .atom f.name)).map Prod.snd :=
    fun hmem => (flags_parens flags hmem).2 rfl
  have hnames : (flags.map fun f => marked .atom f.name) =
      (flags.map SentFlag.name).map (marked .atom) := by simp
  have hsplit : splitSpaces ((spaced (flags.map fun f => marked .atom f.name)).map Prod.snd) =
      flags.map SentFlag.name := by
    rw [hnames]
    apply splitSpaces_spaced
    intro name hname
    obtain ⟨f,-,rfl⟩ := List.mem_map.mp hname
    refine ⟨f.nonempty,?_⟩
    intro c hc
    have hatom := (f.atom c hc).2
    simp only [isAtomChar,Bool.not_eq_true',Bool.or_eq_false_iff] at hatom
    exact hatom.1.1
  rw [opening_flags,fieldAt,matchParenthesised_written,takeWhile_paren hparen]
  simp only [Option.map_some,hsplit,List.map_map]
  rfl

theorem fieldAt_labels (lib : EmailLib) (labels : List SentLabel) (rest : List Char) :
    ∃ names, fieldAt lib .labels (FetchName.labels.opening ++
      ((spaced (labels.map SentLabel.wire)).map Prod.snd ++
        (FetchName.labels.closing ++ rest))) = some (.labels names) ∧
      (names = some (labels.map fun l => String.ofList l.text) ↔
        ∀ l ∈ labels, ')' ∉ l.text) := by
  rw [opening_labels,fieldAt,matchParenthesised_written]
  refine ⟨_,rfl,?_⟩
  constructor
  · intro h l hl hparen
    obtain ⟨names,hnames,heq⟩ := Option.map_eq_some_iff.mp h
    have htext : names = labels.map SentLabel.text := by
      have hinjective : Function.Injective String.ofList := fun a b hab => by
        simpa using congrArg String.toList hab
      apply List.map_injective_iff.mpr hinjective
      rw [heq,List.map_map]
      rfl
    exact labels_cut labels hnames l.text (by rw [htext]; exact List.mem_map_of_mem hl) hparen
  · intro h
    rw [takeWhile_paren (labels_parens h),imapStrings_spaced labels _ (Nat.le_refl _),
      mapM_decode_encoded,Option.map_some,List.map_map]
    rfl

theorem fieldAt_number (lib : EmailLib) {k : FetchName} (hk : k ∈ [.uid,.size,.msgid,.thrid])
    (n : Nat) {c : Char} (hc : c.isDigit = false) (rest : List Char) :
    fieldAt lib k (k.opening ++ (Nat.toDigits 10 n ++ (k.closing ++ c :: rest))) =
      some (.number n) := by
  simp only [List.mem_cons,List.not_mem_nil,or_false] at hk
  rcases hk with rfl | rfl | rfl | rfl
  all_goals
    simp only [fieldAt,FetchName.opening,FetchName.delimiter,FetchName.closing,List.nil_append,
      List.append_assoc]
    rw [matchNumber_written _ n hc]
    rfl

theorem fieldAt_date (lib : EmailLib) (d : SentDate) (rest : List Char) :
    fieldAt lib .internaldate (FetchName.internaldate.opening ++
      (d.text ++ (FetchName.internaldate.closing ++ rest))) =
        some (.date (lib.parsedate (String.ofList d.text))) := by
  have htime : ∀ c, isTimeChar c = true → isQuoteChar c = false := by
    intro c hc
    have hchars : ∀ c ∈ "0123456789 :+-".toList, isQuoteChar c = false := by decide
    exact hchars c (by simpa [isTimeChar] using hc)
  have hmonths : ∀ month ∈ monthNames, ∀ c ∈ month, isQuoteChar c = false := by decide
  have hquotes : ∀ c ∈ d.text, isQuoteChar c = false := by
    intro c hc
    simp only [SentDate.text,List.mem_append,List.mem_cons] at hc
    rcases hc with hc | rfl | hc | rfl | hc
    · exact htime c (d.day_time c hc)
    · decide
    · exact hmonths d.month d.month_mem c hc
    · decide
    · exact htime c (d.time_time c hc)
  have hne : d.text ≠ [] := by simp [SentDate.text]
  simp only [fieldAt,FetchName.opening,FetchName.delimiter,FetchName.closing,List.append_assoc]
  have hmatch := matchQuoted_written FetchName.internaldate.text hne hquotes rest
  simp only [List.singleton_append] at hmatch ⊢
  rw [hmatch]
  rfl

end MailDock
