import MailDock.Imap.FetchReading

/-!
# Searching a FETCH line

The search for an attribute stops at the first place where its pattern matches.  Outside the
lists that is the attribute itself; inside a list it is text that a sender, or a user who
names a label, has chosen.

## Main results

- `search_line` — what the search for an attribute finds in a line
- `readExactly_iff` — when exactly the values come back
-/

namespace MailDock

/-- The character in front counts only as part of a word or not. -/
theorem searchMarked_previous {σ μ α : Type} {word : σ → Bool} {pattern : List σ → Option α}
    {previous previous' : Option σ} (h : previous.any word = previous'.any word)
    (text : List (μ × σ)) (rest : List σ) :
    searchMarked word pattern previous text rest =
      searchMarked word pattern previous' text rest := by
  cases text with
  | nil => rfl
  | cons p text =>
    obtain ⟨mark,c⟩ := p
    rw [searchMarked,searchMarked,h]

namespace FetchValues

variable {v : FetchValues} {lib : EmailLib} {ending : LineEnd} {k : FetchName}

/-- The dates of a message are read as the instants they stand for. -/
def DatesRead (v : FetchValues) (lib : EmailLib) : Prop :=
  ∀ d ∈ v.internalDate, lib.parsedate (String.ofList d.text) = some d.date

/-- What the parser reads where attribute `k` stands. -/
def own (v : FetchValues) (lib : EmailLib) (ending : LineEnd) (k : FetchName) :
    List FetchName → Option FetchField
  | [] => none
  | j :: order =>
    match v.written j with
    | none => v.own lib ending k order
    | some value =>
      if j = k then fieldAt lib k (k.opening ++ (value.map Prod.snd ++
        (k.closing ++ (v.attributes ending ' ' order).map Prod.snd)))
      else v.own lib ending k order

theorem attributes_head (v : FetchValues) (ending : LineEnd) (order : List FetchName) :
    ∃ c rest, (v.attributes ending ' ' order).map Prod.snd = c :: rest ∧ c.isDigit = false := by
  induction order with
  | nil =>
    cases ending with
    | plain => exact ⟨')',[],rfl,by decide⟩
    | literal length =>
      have hhead : ∀ t, ∃ rest,
          " BODY[HEADER.FIELDS (MESSAGE-ID)] \x7b".toList ++ t = ' ' :: rest := fun t => ⟨_,rfl⟩
      obtain ⟨rest,hrest⟩ := hhead (Nat.toDigits 10 length ++ "\x7d".toList)
      refine ⟨' ',rest,?_,by decide⟩
      rw [attributes,marked_snd]
      exact hrest
  | cons j order ih =>
    rw [attributes]
    cases v.written j with
    | none => exact ih
    | some value =>
      refine ⟨' ',j.opening ++ (value ++ (marked .outside j.closing ++
        v.attributes ending ' ' order)).map Prod.snd,?_,by decide⟩
      rw [List.map_append,marked_snd]
      rfl

/-- An attribute is read where it stands; only labels may be read wrong there. -/
theorem fieldAt_written (hdate : v.DatesRead lib) {value : List (Place × Char)}
    (h : v.written k = some value) {c : Char} (hc : c.isDigit = false) (rest : List Char) :
    ∃ a, fieldAt lib k (k.opening ++ (value.map Prod.snd ++ (k.closing ++ c :: rest))) = some a ∧
      (v.field k = some a ↔
        (k = .labels → ∀ labels ∈ v.gmailLabels, ∀ l ∈ labels, ')' ∉ l.text)) := by
  cases k with
  | uid =>
    obtain rfl := Option.some.inj h
    rw [marked_snd,fieldAt_number lib (by decide) _ hc]
    exact ⟨_,rfl,by simp [field]⟩
  | size =>
    obtain ⟨n,hn,rfl⟩ := Option.map_eq_some_iff.mp h
    rw [marked_snd,fieldAt_number lib (by decide) _ hc]
    exact ⟨_,rfl,by simp [field,hn]⟩
  | msgid =>
    obtain ⟨n,hn,rfl⟩ := Option.map_eq_some_iff.mp h
    rw [marked_snd,fieldAt_number lib (by decide) _ hc]
    exact ⟨_,rfl,by simp [field,hn]⟩
  | thrid =>
    obtain ⟨n,hn,rfl⟩ := Option.map_eq_some_iff.mp h
    rw [marked_snd,fieldAt_number lib (by decide) _ hc]
    exact ⟨_,rfl,by simp [field,hn]⟩
  | internaldate =>
    obtain ⟨d,hd,rfl⟩ := Option.map_eq_some_iff.mp h
    rw [marked_snd,fieldAt_date,hdate d hd]
    exact ⟨_,rfl,by simp [field,hd]⟩
  | flags =>
    obtain rfl := Option.some.inj h
    rw [fieldAt_flags]
    exact ⟨_,rfl,by simp [field]⟩
  | labels =>
    obtain ⟨labels,hlabels,rfl⟩ := Option.map_eq_some_iff.mp h
    obtain ⟨names,hfield,hnames⟩ := fieldAt_labels lib labels (c :: rest)
    refine ⟨_,hfield,?_⟩
    simp only [field,hlabels,Option.map_some,Option.some.injEq,FetchField.labels.injEq,
      Option.mem_def,forall_eq',true_imp_iff]
    rw [← hnames]
    exact eq_comm

theorem own_of_written (ending : LineEnd) (hdate : v.DatesRead lib) {value : List (Place × Char)}
    (h : v.written k = some value) {order : List FetchName} (hk : k ∈ order) :
    ∃ a, v.own lib ending k order = some a ∧ (v.field k = some a ↔
      (k = .labels → ∀ labels ∈ v.gmailLabels, ∀ l ∈ labels, ')' ∉ l.text)) := by
  induction order with
  | nil => cases hk
  | cons j order ih =>
    rw [own]
    by_cases hj : j = k
    · subst hj
      obtain ⟨c,rest,hhead,hc⟩ := v.attributes_head ending order
      rw [h]
      simp only [if_true,hhead]
      exact fieldAt_written hdate h hc rest
    · have htail := ih ((List.mem_cons.mp hk).resolve_left (Ne.symm hj))
      cases v.written j with
      | none => exact htail
      | some other =>
        simp only [if_neg hj]
        exact htail

theorem own_eq_none (h : v.written k = none) (order : List FetchName) :
    v.own lib ending k order = none := by
  induction order with
  | nil => rfl
  | cons j order ih =>
    rw [own]
    cases hj : v.written j with
    | none => exact ih
    | some other =>
      have hne : j ≠ k := by
        rintro rfl
        rw [h] at hj
        cases hj
      simp only [if_neg hne]
      exact ih

theorem field_eq_none (h : v.written k = none) : v.field k = none := by
  cases k <;> simp_all [written,field]

theorem lastOf_opening (j : FetchName) (previous : Option Char) (separator : Char) :
    (lastOf previous (marked .outside (separator :: j.opening))).any isWordChar =
      (none : Option Char).any isWordChar := by
  cases j <;> rfl

/-- The search goes through the attributes in their order, and through the text inside the
lists on its way. -/
theorem search_attributes (hdate : v.DatesRead lib) {separator : Char}
    (hseparator : separator ∈ ['(',' ']) (previous : Option Char) (order : List FetchName) :
    searchMarked isWordChar (fieldAt lib k) previous (v.attributes ending separator order) [] =
      (v.stray lib ending k order).or
        ((v.own lib ending k order).map fun a => (Place.outside,a)) := by
  induction order generalizing separator previous with
  | nil =>
    have hending := isSilent_of_none (isSilent_ending k ending) previous
    exact searchMarked_silent .outside [] hending
  | cons j order ih =>
    rw [attributes,stray,own]
    cases hwritten : v.written j with
    | none => exact ih hseparator previous
    | some value =>
      simp only
      by_cases hj : j = k
      · subst hj
        -- the attribute itself: its pattern matches behind the separator
        obtain ⟨c,rest,hhead,hc⟩ := v.attributes_head ending order
        obtain ⟨a,ha,-⟩ := fieldAt_written hdate hwritten hc rest
        obtain ⟨o,opening,hopening⟩ : ∃ o opening, j.opening = o :: opening := by
          cases j <;> exact ⟨_,_,rfl⟩
        have hskip : isSilent j.text.toList none [separator] = true := by
          simp only [List.mem_cons,List.not_mem_nil,or_false] at hseparator
          rcases hseparator with rfl | rfl
          · cases j <;> decide
          · cases j <;> decide
        have hsplit : marked .outside (separator :: j.opening) =
            marked .outside [separator] ++ marked .outside j.opening := rfl
        have hword : (some separator).any isWordChar = false := by
          simp only [List.mem_cons,List.not_mem_nil,or_false] at hseparator
          rcases hseparator with rfl | rfl <;> decide
        rw [hsplit,List.append_assoc,searchMarked_append,
          searchMarked_silent .outside _ (isSilent_of_none hskip previous)]
        simp only [if_true,Option.none_or,hhead,ha,Option.map_some]
        rw [hopening] at ha ⊢
        apply searchMarked_cons_some isWordChar (fieldAt lib j) hword
        simpa [hhead] using ha
      · have hopening := isSilent_opening separator hseparator j k hj
        have hclosing := isSilent_closing j k
        rw [searchMarked_append,searchMarked_append,searchMarked_append,
          searchMarked_silent .outside _ (isSilent_of_none hopening previous),
          searchMarked_silent .outside _ (isSilent_of_none hclosing _),Option.none_or,
          Option.none_or,ih (by decide),if_neg hj,if_neg hj,Option.or_assoc]
        rw [searchMarked_previous (lastOf_opening j previous separator) value]
        simp

theorem search_line (hdate : v.DatesRead lib) (sequence : Nat) (order : List FetchName) :
    searchMarked isWordChar (fieldAt lib k) none (v.line sequence order ending) [] =
      (v.stray lib ending k order).or
        ((v.own lib ending k order).map fun a => (Place.outside,a)) := by
  have hfront : ∀ c ∈ Nat.toDigits 10 sequence ++ [' '], isTimeChar c = true := by
    intro c hc
    rcases List.mem_append.mp hc with hc | hc
    · exact isTimeChar_toDigits c hc
    · rw [List.mem_singleton.mp hc]
      decide
  rw [line,searchMarked_append,searchMarked_silent .outside _ (isSilent_time hfront none),
    Option.none_or,search_attributes hdate (by decide)]

/-! ## No list of flags reads as a list of labels -/

/-- A literal without a closing parenthesis matches within the list. -/
theorem matchLiteral_within {name text rest after : List Char}
    (hname : ∀ c ∈ name, c.toLower ≠ ')') (h : matchLiteral name (text ++ ')' :: rest) = some after) :
    ∃ front back, text = front ++ back ∧ after = back ++ ')' :: rest := by
  induction name generalizing text with
  | nil =>
    refine ⟨[],text,rfl,?_⟩
    rw [matchLiteral] at h
    exact (Option.some.inj h).symm
  | cons p name ih =>
    simp only [List.mem_cons,forall_eq_or_imp] at hname
    cases text with
    | nil =>
      rw [List.nil_append,matchLiteral,if_neg] at h
      · cases h
      · exact hname.1
    | cons c text =>
      rw [List.cons_append,matchLiteral] at h
      split at h
      · obtain ⟨front,back,rfl,hafter⟩ := ih hname.2 h
        exact ⟨c :: front,back,rfl,hafter⟩
      · cases h

theorem matchParenthesised_within (name : String) (hname : ∀ c ∈ name.toList, c.toLower ≠ ')')
    {text : List Char} (htext : '(' ∉ text) (rest : List Char) :
    matchParenthesised name (text ++ ')' :: rest) = none := by
  rw [matchParenthesised]
  cases hmatch : matchLiteral name.toList (text ++ ')' :: rest) with
  | none => rfl
  | some after =>
    obtain ⟨front,back,rfl,rfl⟩ := matchLiteral_within hname hmatch
    have hdrop : ∀ inner, (back ++ ')' :: rest).dropWhile isSpaceChar ≠ '(' :: inner := by
      intro inner heq
      have hopen : '(' ∈ back := by
        clear hmatch
        induction back with
        | nil =>
          rw [List.nil_append,List.dropWhile_cons_of_neg (by decide)] at heq
          cases heq
        | cons c back ih =>
          rw [List.cons_append,List.dropWhile_cons] at heq
          split at heq
          · exact List.mem_cons_of_mem c (ih (by simp_all) heq)
          · rw [(List.cons.inj heq).1]
            exact List.mem_cons_self
      exact htext (List.mem_append_right front hopen)
    simp only [Option.bind_eq_bind,Option.bind_some]

theorem written_silent {j : FetchName} (hflags : j ≠ .flags) (hlabels : j ≠ .labels)
    {value : List (Place × Char)} (h : v.written j = some value) (k : FetchName)
    (previous : Option Char) (rest : List Char) :
    searchMarked isWordChar (fieldAt lib k) previous value rest = none := by
  have hnumber : ∀ n, searchMarked isWordChar (fieldAt lib k) previous
      (marked .outside (Nat.toDigits 10 n)) rest = none := fun n =>
    searchMarked_silent .outside rest (isSilent_time isTimeChar_toDigits previous)
  cases j with
  | uid =>
    obtain rfl := Option.some.inj h
    exact hnumber v.uid
  | internaldate =>
    obtain ⟨d,-,rfl⟩ := Option.map_eq_some_iff.mp h
    exact searchMarked_silent .outside rest (isSilent_of_none (isSilent_date k d) previous)
  | size =>
    obtain ⟨n,-,rfl⟩ := Option.map_eq_some_iff.mp h
    exact hnumber n
  | flags => exact absurd rfl hflags
  | msgid =>
    obtain ⟨n,-,rfl⟩ := Option.map_eq_some_iff.mp h
    exact hnumber n
  | thrid =>
    obtain ⟨n,-,rfl⟩ := Option.map_eq_some_iff.mp h
    exact hnumber n
  | labels => exact absurd rfl hlabels

theorem flags_labels (flags : List SentFlag) (previous : Option Char) (rest : List Char) :
    searchMarked isWordChar (fieldAt lib .labels) previous
      (spaced (flags.map fun f => marked .atom f.name)) (')' :: rest) = none := by
  apply searchMarked_eq_none
  intro front mark c back heq
  right
  have hopen : '(' ∉ c :: back.map Prod.snd := by
    intro hmem
    have hflags : '(' ∈ (spaced (flags.map fun f => marked .atom f.name)).map Prod.snd := by
      rw [heq,List.map_append]
      exact List.mem_append_right _ hmem
    exact (flags_parens flags hflags).1 rfl
  have hnone := matchParenthesised_within FetchName.labels.text (by decide) hopen rest
  rw [List.cons_append] at hnone
  rw [fieldAt,hnone]
  rfl

theorem stray_labels (order : List FetchName) : v.stray lib ending .labels order = none := by
  induction order with
  | nil => rfl
  | cons j order ih =>
    rw [stray]
    cases hwritten : v.written j with
    | none => exact ih
    | some value =>
      by_cases hlabels : j = .labels
      · simp only [if_pos hlabels]
      · simp only [if_neg hlabels,ih,Option.or_none]
        by_cases hflags : j = .flags
        · subst hflags
          obtain rfl := Option.some.inj hwritten
          exact flags_labels v.flags none _
        · exact written_silent hflags hlabels hwritten .labels none _

end FetchValues

/-! ## The parser -/

theorem searchWord_marked {μ α : Type} (pattern : List Char → Option α) (previous : Option Char)
    (text : List (μ × Char)) :
    searchWord pattern previous (text.map Prod.snd) =
      (searchMarked isWordChar pattern previous text []).map Prod.snd := by
  induction text generalizing previous with
  | nil => rfl
  | cons p text ih =>
    obtain ⟨mark,c⟩ := p
    rw [List.map_cons,searchWord,searchMarked,List.append_nil]
    split
    · exact ih (some c)
    · cases pattern (c :: text.map Prod.snd) with
      | some a => rfl
      | none => exact ih (some c)

theorem searchWord_map {α β : Type} (pattern : List Char → Option α) (f : α → β)
    (previous : Option Char) (text : List Char) :
    searchWord (fun text => (pattern text).map f) previous text =
      (searchWord pattern previous text).map f := by
  induction text generalizing previous with
  | nil => rfl
  | cons c text ih =>
    rw [searchWord,searchWord]
    split
    · exact ih (some c)
    · cases pattern (c :: text) with
      | some a => rfl
      | none => exact ih (some c)

/-- The date of a reference is the field that the search for a date finds. -/
theorem parseInternaldate_eq_ok {lib : EmailLib} {text : List Char} {date : Option DateTime} :
    parseInternaldate lib text = .ok date ↔
      searchWord (fieldAt lib .internaldate) none text = date.map fun d => .date (some d) := by
  have hfield : searchWord (fieldAt lib .internaldate) none text =
      (searchWord (matchQuoted "INTERNALDATE") none text).map fun value =>
        .date (lib.parsedate (String.ofList value)) :=
    searchWord_map (matchQuoted "INTERNALDATE") _ none text
  rw [hfield,parseInternaldate]
  cases searchWord (matchQuoted "INTERNALDATE") none text with
  | none => cases date <;> simp
  | some value =>
    cases hdate : lib.parsedate (String.ofList value) with
    | none => cases date <;> simp [hdate]
    | some d => cases date <;> simp [hdate]

theorem parseGmailLabels_eq_ok (lib : EmailLib) {text : List Char}
    {labels : Option (List String)} :
    parseGmailLabels text = .ok labels ↔
      searchWord (fieldAt lib .labels) none text = labels.map fun ls => .labels (some ls) := by
  have hfield : searchWord (fieldAt lib .labels) none text =
      (searchWord (matchParenthesised "X-GM-LABELS") none text).map fun value =>
        .labels (((imapStrings value.length value).mapM (decodeModifiedUtf7 none)).map
          fun labels => labels.map String.ofList) :=
    searchWord_map (matchParenthesised "X-GM-LABELS") _ none text
  rw [hfield,parseGmailLabels]
  cases searchWord (matchParenthesised "X-GM-LABELS") none text with
  | none => cases labels <;> simp
  | some value =>
    cases hlabels : (imapStrings value.length value).mapM (decodeModifiedUtf7 none) with
    | none => cases labels <;> simp [hlabels]
    | some names => cases labels <;> simp [hlabels]

theorem number_eq {lib : EmailLib} {text : List Char} {k : FetchName}
    (hk : k ∈ [.uid,.size,.msgid,.thrid]) {number : Option Nat} :
    searchWord (matchNumber k.text) none text = number ↔
      searchWord (fieldAt lib k) none text = number.map .number := by
  have hfield : searchWord (fieldAt lib k) none text =
      (searchWord (matchNumber k.text) none text).map .number := by
    have hpattern : fieldAt lib k = fun text => (matchNumber k.text text).map .number := by
      simp only [List.mem_cons,List.not_mem_nil,or_false] at hk
      funext text
      rcases hk with rfl | rfl | rfl | rfl <;> rfl
    rw [hpattern]
    exact searchWord_map (matchNumber k.text) _ none text
  rw [hfield]
  have hinjective : Function.Injective (Option.map FetchField.number) :=
    Option.map_injective fun a b hab => FetchField.number.inj hab
  exact hinjective.eq_iff.symm

theorem parseFetchResponse_eq_ok {lib : EmailLib} {metadata body : Bytes}
    {ref : RemoteMessageRef} :
    parseFetchResponse lib metadata body = .ok ref ↔
      searchWord (matchNumber "UID") none (decodeAscii metadata) = some ref.uid ∧
      parseInternaldate lib (decodeAscii metadata) = .ok ref.internalDate ∧
      parseGmailLabels (decodeAscii metadata) = .ok ref.gmailLabels ∧
      searchWord (matchNumber "RFC822.SIZE") none (decodeAscii metadata) = ref.sizeBytes ∧
      ((searchWord (matchParenthesised "FLAGS") none (decodeAscii metadata)).map fun flags =>
        (splitSpaces flags).map String.ofList).getD [] = ref.flags ∧
      searchWord (matchNumber "X-GM-MSGID") none (decodeAscii metadata) = ref.gmailMsgid ∧
      searchWord (matchNumber "X-GM-THRID") none (decodeAscii metadata) = ref.gmailThrid ∧
      (if body.isEmpty then none else lib.messageIdFromHeaders body) = ref.messageId := by
  obtain ⟨uid,messageId,internalDate,sizeBytes,flags,gmailMsgid,gmailThrid,gmailLabels⟩ := ref
  rw [parseFetchResponse,metadataUid]
  cases searchWord (matchNumber "UID") none (decodeAscii metadata) with
  | none => simp
  | some found =>
    cases parseInternaldate lib (decodeAscii metadata) with
    | error e => simp [bind,Except.bind]
    | ok date =>
      cases parseGmailLabels (decodeAscii metadata) with
      | error e => simp [bind,Except.bind]
      | ok labels =>
        simp only [bind,Except.bind,Except.ok.injEq,RemoteMessageRef.mk.injEq,Option.some.injEq]
        constructor
        · rintro ⟨huid,hid,hdate,hsize,hflags,hmsgid,hthrid,hlabels⟩
          exact ⟨huid,hdate,hlabels,hsize,hflags,hmsgid,hthrid,hid⟩
        · rintro ⟨huid,hdate,hlabels,hsize,hflags,hmsgid,hthrid,hid⟩
          exact ⟨huid,hid,hdate,hsize,hflags,hmsgid,hthrid,hlabels⟩

namespace FetchValues

variable {v : FetchValues} {lib : EmailLib} {ending : LineEnd} {k : FetchName}

theorem number_ascii (n : Nat) : ∀ c ∈ Nat.toDigits 10 n, c.toNat < 128 := by
  intro c hc
  have hchars : ∀ c ∈ "0123456789 :+-".toList, c.toNat < 128 := by decide
  exact hchars c (by simpa [isTimeChar] using isTimeChar_toDigits c hc)

theorem written_ascii {value : List (Place × Char)} (h : v.written k = some value) :
    ∀ c ∈ value.map Prod.snd, c.toNat < 128 := by
  have htime : ∀ c, isTimeChar c = true → c.toNat < 128 := by
    intro c hc
    have hchars : ∀ c ∈ "0123456789 :+-".toList, c.toNat < 128 := by decide
    exact hchars c (by simpa [isTimeChar] using hc)
  have hprintable : ∀ c, isPrintable c = true → c.toNat < 128 := by
    intro c hc
    have := isPrintable_iff.mp hc
    omega
  have hnumber : ∀ n, ∀ c ∈ (marked .outside (Nat.toDigits 10 n)).map Prod.snd,
      c.toNat < 128 := by
    intro n
    rw [marked_snd]
    exact number_ascii n
  cases k with
  | uid =>
    obtain rfl := Option.some.inj h
    exact hnumber v.uid
  | size =>
    obtain ⟨n,-,rfl⟩ := Option.map_eq_some_iff.mp h
    exact hnumber n
  | msgid =>
    obtain ⟨n,-,rfl⟩ := Option.map_eq_some_iff.mp h
    exact hnumber n
  | thrid =>
    obtain ⟨n,-,rfl⟩ := Option.map_eq_some_iff.mp h
    exact hnumber n
  | internaldate =>
    obtain ⟨d,-,rfl⟩ := Option.map_eq_some_iff.mp h
    have hmonths : ∀ month ∈ monthNames, ∀ c ∈ month, c.toNat < 128 := by decide
    intro c hc
    simp only [marked_snd,SentDate.text,List.mem_append,List.mem_cons] at hc
    rcases hc with hc | rfl | hc | rfl | hc
    · exact htime c (d.day_time c hc)
    · decide
    · exact hmonths d.month d.month_mem c hc
    · decide
    · exact htime c (d.time_time c hc)
  | flags =>
    obtain rfl := Option.some.inj h
    intro c hc
    rcases mem_spaced hc with rfl | ⟨word,hword,hc⟩
    · decide
    · obtain ⟨f,-,rfl⟩ := List.mem_map.mp hword
      rw [marked_snd] at hc
      exact hprintable c (f.atom c hc).1
  | labels =>
    obtain ⟨labels,-,rfl⟩ := Option.map_eq_some_iff.mp h
    intro c hc
    rcases mem_spaced hc with rfl | ⟨word,hword,hc⟩
    · decide
    · obtain ⟨l,-,rfl⟩ := List.mem_map.mp hword
      rcases l.mem_wire hc with hc | rfl | rfl | rfl
      · exact hprintable c (l.printable c hc)
      · decide
      · decide
      · decide

theorem header_ascii :
    ∀ c ∈ " BODY[HEADER.FIELDS (MESSAGE-ID)] \x7b".toList, c.toNat < 128 := by
  have hall : (" BODY[HEADER.FIELDS (MESSAGE-ID)] \x7b".toList.all
      fun c => decide (c.toNat < 128)) = true := by decide
  intro c hc
  simpa using List.all_eq_true.mp hall c hc

theorem ending_ascii (ending : LineEnd) : ∀ c ∈ ending.text, c.toNat < 128 := by
  cases ending with
  | plain => decide
  | literal length =>
    have hbrace : ∀ c ∈ "\x7d".toList, c.toNat < 128 := by decide
    intro c hc
    rcases List.mem_append.mp hc with hc | hc
    · exact header_ascii c hc
    · rcases List.mem_append.mp hc with hc | hc
      · exact number_ascii length c hc
      · exact hbrace c hc

theorem attributes_ascii {separator : Char} (hseparator : separator.toNat < 128)
    (order : List FetchName) :
    ∀ c ∈ (v.attributes ending separator order).map Prod.snd, c.toNat < 128 := by
  have hopening : ∀ j : FetchName, ∀ c ∈ j.opening, c.toNat < 128 := by decide
  have hclosing : ∀ j : FetchName, ∀ c ∈ j.closing, c.toNat < 128 := by decide
  induction order generalizing separator with
  | nil =>
    rw [attributes,marked_snd]
    exact ending_ascii ending
  | cons j order ih =>
    rw [attributes]
    cases hwritten : v.written j with
    | none => exact ih hseparator
    | some value =>
      intro c hc
      simp only [List.map_append,marked_snd,List.mem_append,List.mem_cons] at hc
      rcases hc with (rfl | hc) | hc | hc | hc
      · exact hseparator
      · exact hopening j c hc
      · exact written_ascii hwritten c hc
      · exact hclosing j c hc
      · exact ih (by decide) c hc

theorem decodeAscii_metadata (sequence : Nat) (order : List FetchName) :
    decodeAscii (v.metadata sequence order ending) =
      (v.line sequence order ending).map Prod.snd := by
  have hascii : ∀ c ∈ (v.line sequence order ending).map Prod.snd, c.toNat < 128 := by
    intro c hc
    simp only [line,List.map_append,marked_snd,List.mem_append,List.mem_singleton] at hc
    rcases hc with (hc | rfl) | hc
    · exact number_ascii sequence c hc
    · decide
    · exact attributes_ascii (by decide) order c hc
  rw [decodeAscii,metadata,List.map_map]
  apply List.map_congr_left
  intro p hp
  have hp128 := hascii p.2 (List.mem_map_of_mem hp)
  have hbyte : (UInt8.ofNat p.2.toNat).toNat = p.2.toNat := by
    rw [UInt8.toNat_ofNat']
    exact Nat.mod_eq_of_lt (by omega)
  simp only [Function.comp_apply,hbyte,if_pos hp128]
  simp

/-- The parser returns the values when each search finds its own field. -/
theorem parse_eq_ok (sequence : Nat) (order : List FetchName) (body : Bytes)
    (hflags : searchWord (fieldAt lib .flags) none
      (decodeAscii (v.metadata sequence order ending)) ≠ none) :
    parseFetchResponse lib (v.metadata sequence order ending) body = .ok (v.ref lib body) ↔
      ∀ k, searchWord (fieldAt lib k) none
        (decodeAscii (v.metadata sequence order ending)) = v.field k := by
  generalize v.metadata sequence order ending = metadata at hflags ⊢
  have hread : searchWord (fieldAt lib .flags) none (decodeAscii metadata) =
      (searchWord (matchParenthesised "FLAGS") none (decodeAscii metadata)).map fun value =>
        .flags ((splitSpaces value).map String.ofList) :=
    searchWord_map (matchParenthesised "FLAGS") _ none _
  have hnames : ((searchWord (matchParenthesised "FLAGS") none (decodeAscii metadata)).map
      fun flags => (splitSpaces flags).map String.ofList).getD [] = (v.ref lib body).flags ↔
      searchWord (fieldAt lib .flags) none (decodeAscii metadata) = v.field .flags := by
    rw [hread] at hflags ⊢
    cases hfound : searchWord (matchParenthesised "FLAGS") none (decodeAscii metadata) with
    | none =>
      rw [hfound] at hflags
      exact absurd rfl hflags
    | some value => simp [field,ref]
  have hnumber : ∀ k ∈ [FetchName.uid,.size,.msgid,.thrid], ∀ number,
      (searchWord (matchNumber k.text) none (decodeAscii metadata) = number ↔
        searchWord (fieldAt lib k) none (decodeAscii metadata) = number.map .number) :=
    fun k hk number => number_eq hk
  have huid := hnumber .uid (by decide) (some v.uid)
  have hsize := hnumber .size (by decide) v.size
  have hmsgid := hnumber .msgid (by decide) v.gmailMsgid
  have hthrid := hnumber .thrid (by decide) v.gmailThrid
  have hdate : parseInternaldate lib (decodeAscii metadata) = .ok (v.ref lib body).internalDate ↔
      searchWord (fieldAt lib .internaldate) none (decodeAscii metadata) =
        v.field .internaldate := by
    rw [parseInternaldate_eq_ok,ref,field,Option.map_map]
    rfl
  have hlabels : parseGmailLabels (decodeAscii metadata) = .ok (v.ref lib body).gmailLabels ↔
      searchWord (fieldAt lib .labels) none (decodeAscii metadata) = v.field .labels := by
    rw [parseGmailLabels_eq_ok lib,ref,field,Option.map_map]
    rfl
  rw [parseFetchResponse_eq_ok,hnames,hdate,hlabels]
  constructor
  · rintro ⟨u,d,l,s,f,m,t,-⟩ k
    cases k with
    | uid => exact huid.mp u
    | internaldate => exact d
    | size => exact hsize.mp s
    | flags => exact f
    | msgid => exact hmsgid.mp m
    | thrid => exact hthrid.mp t
    | labels => exact l
  · intro h
    exact ⟨huid.mpr (h .uid),h .internaldate,h .labels,hsize.mpr (h .size),h .flags,
      hmsgid.mpr (h .msgid),hthrid.mpr (h .thrid),rfl⟩

/-- The values come back as they were sent, and no quoted label is taken for an attribute,
exactly when no label closes its list and no list holds text that reads as an attribute
before the attribute itself. -/
theorem readExactly_iff (v : FetchValues) (lib : EmailLib) (hdate : v.DatesRead lib)
    (sequence : Nat) (order : List FetchName) (horder : order.Perm FetchName.all)
    (ending : LineEnd) (body : Bytes) :
    v.ReadExactly lib sequence order ending body ↔ v.Unmistakable lib order ending := by
  have hmem : ∀ k, k ∈ order := fun k => horder.mem_iff.mpr (FetchName.mem_all k)
  have hsearch : ∀ k, searchMarked isWordChar (fieldAt lib k) none
      (v.line sequence order ending) [] = (v.stray lib ending k order).or
        ((v.own lib ending k order).map fun a => (Place.outside,a)) :=
    fun k => search_line hdate sequence order
  have hword : ∀ k, searchWord (fieldAt lib k) none
      (decodeAscii (v.metadata sequence order ending)) =
        ((v.stray lib ending k order).or
          ((v.own lib ending k order).map fun a => (Place.outside,a))).map Prod.snd := by
    intro k
    rw [decodeAscii_metadata,searchWord_marked,hsearch]
  have hflags : searchWord (fieldAt lib .flags) none
      (decodeAscii (v.metadata sequence order ending)) ≠ none := by
    obtain ⟨a,hown,-⟩ := own_of_written ending hdate
      (show v.written .flags = some _ from rfl) (hmem .flags)
    rw [hword,hown]
    cases v.stray lib ending .flags order <;> simp
  rw [ReadExactly,parse_eq_ok sequence order body hflags]
  simp only [hword,hsearch]
  constructor
  · rintro ⟨hfields,hplaces⟩
    have hstray : ∀ k s, v.stray lib ending k order = some s →
        s.1 ≠ .quoted ∧ v.field k = some s.2 := by
      intro k s hs
      refine ⟨hplaces k s (by rw [hs]; rfl),?_⟩
      rw [← hfields k,hs]
      rfl
    refine ⟨?_,hstray⟩
    intro labels hlabels
    -- nothing stands in the way of the labels, so they were read where they stand
    have hwritten : v.written .labels = some (spaced (labels.map SentLabel.wire)) := by
      rw [written,hlabels]
      rfl
    obtain ⟨a,hown,hiff⟩ := own_of_written ending hdate hwritten (hmem .labels)
    have hfield := hfields .labels
    rw [stray_labels,hown] at hfield
    exact hiff.mp hfield.symm rfl labels hlabels
  · rintro ⟨hparens,hstray⟩
    have hown : ∀ k, v.own lib ending k order = v.field k := by
      intro k
      cases hwritten : v.written k with
      | none => rw [own_eq_none hwritten,field_eq_none hwritten]
      | some value =>
        obtain ⟨a,hown,hiff⟩ := own_of_written ending hdate hwritten (hmem k)
        rw [hown,hiff.mpr fun _ => hparens]
    refine ⟨?_,?_⟩
    · intro k
      cases hs : v.stray lib ending k order with
      | none =>
        rw [Option.none_or,hown,Option.map_map]
        cases v.field k <;> rfl
      | some s => exact (hstray k s hs).2.symm
    · intro k s hfound
      cases hs : v.stray lib ending k order with
      | none =>
        rw [hs,Option.none_or] at hfound
        obtain ⟨a,-,rfl⟩ := Option.map_eq_some_iff.mp hfound
        simp
      | some s' =>
        rw [hs] at hfound
        obtain rfl := Option.some.inj hfound
        exact (hstray k s' hs).1

/-! ## One message -/

/-- An email package that knows one date. -/
def oneDate : EmailLib where
  parsedate text :=
    if text = "17-Jul-1996 02:44:25 -0700" then
      some { year := 1996, month := 7, day := 17, hour := 9, minute := 44, second := 25 }
    else none
  messageIdFromHeaders _ := none

/-- A message with one flag and one quoted label. -/
def labelled (text : List Char) (h : ∀ c ∈ text, isPrintable c = true) : FetchValues where
  uid := 7
  flags := [⟨"\\Seen".toList,by decide,by decide⟩]
  internalDate := some
    { day := "17".toList
      month := "Jul".toList
      time := "1996 02:44:25 -0700".toList
      date := { year := 1996, month := 7, day := 17, hour := 9, minute := 44, second := 25 }
      day_time := by decide
      month_mem := by decide
      time_time := by decide }
  size := some 120
  gmailMsgid := some 11
  gmailThrid := some 12
  gmailLabels := some [⟨text,true,h,by intro hquoted; cases hquoted⟩]

theorem labelled_datesRead (text : List Char) (h : ∀ c ∈ text, isPrintable c = true) :
    (labelled text h).DatesRead oneDate := by
  intro d hd
  obtain rfl := Option.some.inj hd
  decide

/-- Quotes, backslashes, ampersands and the name of an attribute are read back. -/
theorem readExactly_quotes :
    (labelled "size \"UID\" \\ & more".toList (by decide)).ReadExactly oneDate 3
      FetchName.all.reverse .plain [] := by
  refine (readExactly_iff _ oneDate (labelled_datesRead _ _) 3 _ (List.reverse_perm _)
    .plain []).mpr ⟨?_,?_⟩
  · intro labels hlabels l hl
    obtain rfl := Option.some.inj hlabels
    obtain rfl := List.mem_singleton.mp hl
    decide
  · intro k s hs
    have hnone : (labelled "size \"UID\" \\ & more".toList (by decide)).stray oneDate .plain k
        FetchName.all.reverse = none := by
      cases k <;> decide
    rw [hnone] at hs
    cases hs

/-- A label `UID 5` in front of the UID is taken for it. -/
theorem readExactly_fails : ¬ ∀ (v : FetchValues) (lib : EmailLib) (sequence : Nat)
    (order : List FetchName) (ending : LineEnd) (body : Bytes), v.DatesRead lib →
    order.Perm FetchName.all → v.ReadExactly lib sequence order ending body := by
  intro h
  have hread := (h (labelled "UID 5".toList (by decide)) oneDate 3 FetchName.all.reverse .plain []
    (labelled_datesRead _ _) (List.reverse_perm _)).1
  have huid : (parseFetchResponse oneDate ((labelled "UID 5".toList (by decide)).metadata 3
      FetchName.all.reverse .plain) []).toOption.map RemoteMessageRef.uid = some 5 := by
    decide
  rw [hread] at huid
  revert huid
  decide

end FetchValues

end MailDock
