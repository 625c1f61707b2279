import Mathlib.Data.List.TakeWhile
import MailDock.Lib.Json

/-!
# What is written is read back

A value in the form a program holds it (keys in order, floats with the text `repr`
gives them) is the value `loads` reads from the bytes it is written as, and these
bytes hold no line feed.
-/

namespace Json

variable {host : Host} {rest : List Char}

/-- `text` is what `repr` gives for some float. -/
def isFloatRepr (host : Host) (text : List Char) : Bool :=
  nonFinite text ||
    match scanNumber text with
    | some (n,[]) => n.tail ≠ [] && host.floatRepr n.text = text
    | _ => false

mutual

/-- Dictionaries list their keys once and in order, and floats are texts of `repr`. -/
def canonical (host : Host) : Value → Bool
  | .null | .bool _ | .int _ | .str _ => true
  | .float text => isFloatRepr host text
  | .arr items => canonicalItems host items
  | .obj fields => decide (fields.Pairwise fun a b => a.1 < b.1) && canonicalFields host fields

def canonicalItems (host : Host) : List Value → Bool
  | [] => true
  | v :: vs => canonical host v && canonicalItems host vs

def canonicalFields (host : Host) : List (String × Value) → Bool
  | [] => true
  | (_,v) :: fs => canonical host v && canonicalFields host fs

end

/-- What follows a value in a text: nothing, a comma or a closing bracket. -/
def Stops (rest : List Char) : Prop :=
  ∀ c ∈ rest.head?, c = ',' ∨ c = ']' ∨ c = '}'

theorem Stops.nil : Stops [] := by
  intro c hc
  cases hc

theorem Stops.comma : Stops (',' :: rest) := by
  intro c hc
  exact .inl (Option.some.inj hc).symm

theorem Stops.dumpItems (items : List Value) : Stops (dumpItems [','] items ++ rest) := by
  cases items with
  | nil =>
    intro c hc
    exact .inr (.inl (Option.some.inj hc).symm)
  | cons v vs => exact Stops.comma

theorem Stops.dumpFields (fields : List (String × Value)) :
    Stops (dumpFields [','] fields ++ rest) := by
  cases fields with
  | nil =>
    intro c hc
    exact .inr (.inr (Option.some.inj hc).symm)
  | cons f fs => exact Stops.comma

/-! ## Strings -/

theorem hexValue_digitChar {n : Nat} (hn : n < 16) : hexValue (Nat.digitChar n) = some n := by
  revert n
  decide

/-- A character below the blank, written as `\u00XX`. -/
theorem scanUnicode_control {n : Nat} (hn : n < 0x20) :
    scanUnicode ('0' :: '0' :: Nat.digitChar (n / 16) :: Nat.digitChar (n % 16) :: rest) =
      .ok (some (Char.ofNat n),rest) := by
  have hzero : hexValue '0' = some 0 := rfl
  have hvalue : ((0 * 16 + 0) * 16 + n / 16) * 16 + n % 16 = n := by omega
  have hhex : hex4 ('0' :: '0' :: Nat.digitChar (n / 16) :: Nat.digitChar (n % 16) :: rest) =
      some (n,rest) := by
    simp only [hex4,hzero,hexValue_digitChar (show n / 16 < 16 by omega),
      hexValue_digitChar (show n % 16 < 16 by omega),Option.bind_eq_bind,Option.bind_some,hvalue]
  have hhigh : ¬ (0xD800 ≤ n ∧ n ≤ 0xDBFF) := by omega
  have hlow : ¬ (0xDC00 ≤ n ∧ n ≤ 0xDFFF) := by omega
  simp only [scanUnicode,hhex,if_neg hhigh,if_neg hlow]

theorem scanChar_escapeChar (c : Char) : scanChar (escapeChar c ++ rest) = .ok (some c,rest) := by
  by_cases hquote : c = '"'
  · rw [hquote]
    rfl
  by_cases hslash : c = '\\'
  · rw [hslash]
    rfl
  by_cases hn : c = '\n'
  · rw [hn]
    rfl
  by_cases hr : c = '\r'
  · rw [hr]
    rfl
  by_cases ht : c = '\t'
  · rw [ht]
    rfl
  by_cases hf : c = '\x0c'
  · rw [hf]
    rfl
  by_cases hb : c = '\x08'
  · rw [hb]
    rfl
  by_cases hcontrol : c.toNat < 0x20
  · rw [escapeChar,if_neg hquote,if_neg hslash,if_neg hn,if_neg hr,if_neg ht,if_neg hf,if_neg hb,
      if_pos hcontrol]
    show scanUnicode ('0' :: '0' :: _ :: _ :: rest) = _
    rw [scanUnicode_control hcontrol,Char.ofNat_toNat]
  · rw [escapeChar,if_neg hquote,if_neg hslash,if_neg hn,if_neg hr,if_neg ht,if_neg hf,if_neg hb,
      if_neg hcontrol]
    show scanChar (c :: rest) = _
    rw [scanChar,if_neg hquote,if_neg hslash,if_neg hcontrol]

theorem length_escapeChar_pos (c : Char) : 0 < (escapeChar c).length := by
  unfold escapeChar
  repeat' split
  all_goals simp

theorem scanChars_escape (s : List Char) {fuel : Nat} (hfuel : s.length < fuel) :
    scanChars fuel (s.flatMap escapeChar ++ '"' :: rest) = .ok (s,rest) := by
  induction s generalizing fuel with
  | nil =>
    obtain ⟨fuel,rfl⟩ := Nat.exists_eq_succ_of_ne_zero (Nat.ne_of_gt hfuel)
    rfl
  | cons c s ih =>
    obtain ⟨fuel,rfl⟩ := Nat.exists_eq_succ_of_ne_zero (Nat.ne_of_gt (Nat.zero_lt_of_lt hfuel))
    have hs : s.length < fuel := Nat.lt_of_succ_lt_succ hfuel
    rw [List.flatMap_cons,List.append_assoc,scanChars,scanChar_escapeChar]
    dsimp only
    rw [ih hs]

theorem length_le_escape (s : List Char) : s.length ≤ (s.flatMap escapeChar).length := by
  induction s with
  | nil => simp
  | cons c s ih =>
    have hc := length_escapeChar_pos c
    rw [List.flatMap_cons,List.length_append,List.length_cons]
    omega

theorem scanString_dumpString (s : String) :
    scanString (s.toList.flatMap escapeChar ++ '"' :: rest) = .ok (s,rest) := by
  have hlength := length_le_escape s.toList
  have hfuel : s.toList.length < (s.toList.flatMap escapeChar ++ '"' :: rest).length + 1 := by
    rw [List.length_append]
    omega
  rw [scanString,scanChars_escape s.toList hfuel]
  simp only [String.ofList_toList]

/-! ## Numbers -/

theorem takeWhile_stop {p : Char → Bool} (hrest : ∀ c ∈ rest.head?, p c = false) (cs : List Char) :
    (cs ++ rest).takeWhile p = cs.takeWhile p := by
  induction cs with
  | nil =>
    cases rest with
    | nil => rfl
    | cons c rest => simp [hrest c rfl]
  | cons c cs ih =>
    rw [List.cons_append,List.takeWhile_cons,List.takeWhile_cons,ih]

theorem dropWhile_stop {p : Char → Bool} (hrest : ∀ c ∈ rest.head?, p c = false) (cs : List Char) :
    (cs ++ rest).dropWhile p = cs.dropWhile p ++ rest := by
  induction cs with
  | nil =>
    cases rest with
    | nil => rfl
    | cons c rest => simp [hrest c rfl]
  | cons c cs ih =>
    rw [List.cons_append,List.dropWhile_cons,List.dropWhile_cons,ih]
    split
    · rfl
    · rfl

theorem Stops.not_digit (h : Stops rest) : ∀ c ∈ rest.head?, c.isDigit = false := by
  intro c hc
  obtain rfl | rfl | rfl := h c hc
  all_goals rfl

theorem scanInteger_append (h : Stops rest) (cs : List Char) :
    scanInteger (cs ++ rest) = (scanInteger cs).map fun r => (r.1,r.2 ++ rest) := by
  cases cs with
  | nil =>
    cases rest with
    | nil => rfl
    | cons c rest =>
      obtain rfl | rfl | rfl := h c rfl
      all_goals rfl
  | cons c cs =>
    rw [List.cons_append,scanInteger,scanInteger,takeWhile_stop h.not_digit,
      dropWhile_stop h.not_digit]
    split
    · rfl
    · split
      · rfl
      · rfl

theorem scanFraction_append (h : Stops rest) (cs : List Char) :
    scanFraction (cs ++ rest) = ((scanFraction cs).1,(scanFraction cs).2 ++ rest) := by
  cases cs with
  | nil =>
    cases rest with
    | nil => rfl
    | cons c rest =>
      obtain rfl | rfl | rfl := h c rfl
      all_goals rfl
  | cons c cs =>
    by_cases hc : c = '.'
    · rw [hc,List.cons_append,scanFraction,scanFraction,takeWhile_stop h.not_digit,
        dropWhile_stop h.not_digit]
      split
      · rfl
      · rfl
    · rw [List.cons_append,scanFraction.eq_2 _ fun cs' h => hc (List.cons.inj h).1,
        scanFraction.eq_2 _ fun cs' h => hc (List.cons.inj h).1]
      rfl

theorem scanSign_append (h : Stops rest) (cs : List Char) :
    scanSign (cs ++ rest) = ((scanSign cs).1,(scanSign cs).2 ++ rest) := by
  cases cs with
  | nil =>
    cases rest with
    | nil => rfl
    | cons c rest =>
      obtain rfl | rfl | rfl := h c rfl
      all_goals rfl
  | cons c cs =>
    by_cases hminus : c = '-'
    · rw [hminus]
      rfl
    by_cases hplus : c = '+'
    · rw [hplus]
      rfl
    rw [List.cons_append,scanSign.eq_3 _ (fun cs' h => hminus (List.cons.inj h).1)
      (fun cs' h => hplus (List.cons.inj h).1),scanSign.eq_3 _
      (fun cs' h => hminus (List.cons.inj h).1) (fun cs' h => hplus (List.cons.inj h).1)]
    rfl

theorem scanExponent_append (h : Stops rest) (cs : List Char) :
    scanExponent (cs ++ rest) = ((scanExponent cs).1,(scanExponent cs).2 ++ rest) := by
  cases cs with
  | nil =>
    cases rest with
    | nil => rfl
    | cons c rest =>
      obtain rfl | rfl | rfl := h c rfl
      all_goals rfl
  | cons c cs =>
    rw [List.cons_append,scanExponent,scanExponent,scanSign_append h]
    dsimp only
    rw [takeWhile_stop h.not_digit,dropWhile_stop h.not_digit]
    split
    · split
      · rfl
      · rfl
    · rfl

theorem scanUnsigned_append (h : Stops rest) (negative : Bool) (cs : List Char) :
    scanUnsigned negative (cs ++ rest) =
      (scanUnsigned negative cs).map fun r => (r.1,r.2 ++ rest) := by
  rw [scanUnsigned,scanUnsigned,scanInteger_append h]
  cases scanInteger cs with
  | none => rfl
  | some r =>
    dsimp only [Option.map_some]
    rw [scanFraction_append h]
    dsimp only
    rw [scanExponent_append h]

theorem scanNumber_append (h : Stops rest) (cs : List Char) :
    scanNumber (cs ++ rest) = (scanNumber cs).map fun r => (r.1,r.2 ++ rest) := by
  by_cases hminus : ∃ cs', cs = '-' :: cs'
  · obtain ⟨cs',rfl⟩ := hminus
    exact scanUnsigned_append h true cs'
  · have hcs : ∀ cs', cs = '-' :: cs' → False := fun cs' h => hminus ⟨cs',h⟩
    have happend : ∀ cs', cs ++ rest = '-' :: cs' → False := by
      intro cs' heq
      cases cs with
      | nil =>
        rw [List.nil_append] at heq
        rw [heq] at h
        obtain hc | hc | hc := h '-' rfl
        all_goals cases hc
      | cons c cs => exact hcs cs (by rw [(List.cons.inj heq).1])
    rw [scanNumber.eq_2 _ happend,scanNumber.eq_2 _ hcs]
    exact scanUnsigned_append h false cs

/-- The digits of a positive number do not start with a zero. -/
theorem toDigits_head {n : Nat} (hn : 0 < n) :
    ∃ c cs, Nat.toDigits 10 n = c :: cs ∧ c ≠ '0' ∧ c.isDigit = true := by
  induction n using Nat.strongRecOn with
  | ind n ih =>
    by_cases hlt : n < 10
    · have hdigits : ∀ m < 10, 0 < m → m.digitChar ≠ '0' ∧ m.digitChar.isDigit = true := by decide
      exact ⟨n.digitChar,[],Nat.toDigits_of_lt_base hlt,hdigits n hlt hn⟩
    · have hdiv : 0 < n / 10 := Nat.div_pos (Nat.le_of_not_lt hlt) (by decide)
      obtain ⟨c,cs,heq,hc,hdigit⟩ := ih (n / 10) (Nat.div_lt_self hn (by decide)) hdiv
      rw [Nat.toDigits_of_base_le (by decide) (Nat.le_of_not_lt hlt),heq]
      exact ⟨c,_,rfl,hc,hdigit⟩

theorem scanInteger_toDigits (n : Nat) :
    scanInteger (Nat.toDigits 10 n) = some (Nat.toDigits 10 n,[]) := by
  cases Nat.eq_zero_or_pos n with
  | inl hzero =>
    rw [hzero]
    rfl
  | inr hpos =>
    obtain ⟨c,cs,heq,hc,hdigit⟩ := toDigits_head hpos
    have hall : ∀ d ∈ cs, d.isDigit = true := by
      intro d hd
      refine Nat.isDigit_of_mem_toDigits (b := 10) (n := n) (by decide) (by decide) ?_
      rw [heq]
      exact List.mem_cons_of_mem c hd
    rw [heq,scanInteger,if_neg hc,if_pos hdigit,List.takeWhile_eq_self_iff.mpr hall,
      List.dropWhile_eq_nil_iff.mpr hall]

theorem scanNumber_dumpInt (n : Int) :
    scanNumber (dumpInt n) = some (⟨decide (n < 0),Nat.toDigits 10 n.natAbs,[]⟩,[]) := by
  have hunsigned : ∀ b, scanUnsigned b (Nat.toDigits 10 n.natAbs) =
      some (⟨b,Nat.toDigits 10 n.natAbs,[]⟩,[]) := by
    intro b
    rw [scanUnsigned,scanInteger_toDigits]
    rfl
  by_cases hneg : n < 0
  · rw [dumpInt,if_pos hneg,decide_eq_true hneg]
    exact hunsigned true
  · rw [dumpInt,if_neg hneg,decide_eq_false hneg,scanNumber.eq_2]
    · exact hunsigned false
    · intro cs heq
      have hdigit : '-'.isDigit = true :=
        Nat.isDigit_of_mem_toDigits (b := 10) (n := n.natAbs) (by decide) (by decide)
          (by rw [heq]; exact List.mem_cons_self)
      exact absurd hdigit (by decide)

/-- A number starts with a digit or a minus sign. -/
theorem scanNumber_head {cs : List Char} {r : Number × List Char} (h : scanNumber cs = some r) :
    ∃ c cs', cs = c :: cs' ∧ (c.isDigit = true ∨ c = '-') := by
  cases cs with
  | nil => cases h
  | cons c cs =>
    refine ⟨c,cs,rfl,?_⟩
    by_cases hminus : c = '-'
    · exact .inr hminus
    · rw [scanNumber.eq_2 _ fun cs' h => hminus (List.cons.inj h).1,scanUnsigned,scanInteger] at h
      by_cases hzero : c = '0'
      · rw [hzero]
        exact .inl rfl
      · by_cases hdigit : c.isDigit = true
        · exact .inl hdigit
        · rw [if_neg hzero,if_neg hdigit] at h
          cases h

/-- A number is not taken for one of the words. -/
theorem scanWord_number {cs : List Char} {r : Number × List Char} (h : scanNumber cs = some r) :
    scanWord host cs = scanScalar host cs := by
  obtain ⟨c,cs',rfl,hc⟩ := scanNumber_head h
  have hne : ∀ d : Char, d.isDigit = false → d ≠ '-' → c ≠ d := by
    rintro d hd hminus rfl
    obtain hdigit | rfl := hc
    · rw [hd] at hdigit
      cases hdigit
    · exact hminus rfl
  rw [scanWord.eq_4]
  · exact fun rest h => hne 'n' rfl (by decide) (List.cons.inj h).1
  · exact fun rest h => hne 't' rfl (by decide) (List.cons.inj h).1
  · exact fun rest h => hne 'f' rfl (by decide) (List.cons.inj h).1

theorem scanWord_dumpInt (h : Stops rest) {n : Int} (hn : dumpError (.int n) = none) :
    scanWord host (dumpInt n ++ rest) = .ok (.int n,rest) := by
  have hscan : scanNumber (dumpInt n ++ rest) =
      some (⟨decide (n < 0),Nat.toDigits 10 n.natAbs,[]⟩,rest) := by
    rw [scanNumber_append h,scanNumber_dumpInt]
    rfl
  have hdigits : ¬ maxStrDigits < (Nat.toDigits 10 n.natAbs).length := by
    intro hlt
    rw [dumpError,if_pos hlt] at hn
    cases hn
  have hvalue : (if decide (n < 0) = true then -((n.natAbs : Nat) : Int) else (n.natAbs : Nat)) = n := by
    split
    · rename_i hneg
      have := of_decide_eq_true hneg
      omega
    · rename_i hneg
      have := of_decide_eq_false (Bool.not_eq_true _ ▸ hneg)
      omega
  rw [scanWord_number hscan,scanScalar,hscan]
  simp only [Number.value,ne_eq,not_true_eq_false,if_false,if_neg hdigits,
    Nat.ofDigitChars_ten_toDigits,hvalue]

theorem scanWord_float (h : Stops rest) {text : List Char} (hfinite : nonFinite text = false)
    (hrepr : isFloatRepr host text = true) :
    scanWord host (text ++ rest) = .ok (.float text,rest) := by
  rw [isFloatRepr,hfinite,Bool.false_or] at hrepr
  split at hrepr
  · rename_i n hscan
    rw [Bool.and_eq_true,decide_eq_true_eq,decide_eq_true_eq] at hrepr
    have happend : scanNumber (text ++ rest) = some (n,rest) := by
      rw [scanNumber_append h,hscan]
      rfl
    rw [scanWord_number happend,scanScalar,happend]
    simp only [Number.value,if_pos hrepr.1,hrepr.2]
  · cases hrepr

/-! ## Values -/

theorem skipSpace_cons {c : Char} {cs : List Char} (h : isSpace c = false) :
    skipSpace (c :: cs) = c :: cs := by
  rw [skipSpace,List.dropWhile_cons,h]
  rfl

/-- A written value starts with a character that is neither a blank nor a closing bracket. -/
theorem dump_head {v : Value} (hv : canonical host v = true) (hdump : dumpError v = none) :
    ∃ c cs, dump v = c :: cs ∧ isSpace c = false ∧ c ≠ ']' := by
  have hnumber : ∀ {cs r}, scanNumber cs = some r →
      ∃ c cs', cs = c :: cs' ∧ isSpace c = false ∧ c ≠ ']' := by
    intro cs r hscan
    obtain ⟨c,cs',rfl,hdigit | rfl⟩ := scanNumber_head hscan
    · refine ⟨c,cs',rfl,?_,?_⟩
      · by_contra hspace
        rw [Bool.not_eq_false] at hspace
        have hcases : c = ' ' ∨ c = '\t' ∨ c = '\n' ∨ c = '\r' := by
          simpa [isSpace,or_assoc] using hspace
        obtain rfl | rfl | rfl | rfl := hcases
        all_goals cases hdigit
      · rintro rfl
        cases hdigit
    · exact ⟨'-',cs',rfl,rfl,by decide⟩
  cases v with
  | null => exact ⟨'n',_,rfl,rfl,by decide⟩
  | bool b =>
    cases b with
    | false => exact ⟨'f',_,rfl,rfl,by decide⟩
    | true => exact ⟨'t',_,rfl,rfl,by decide⟩
  | int n => exact hnumber (scanNumber_dumpInt n)
  | float text =>
    rw [canonical,isFloatRepr,Bool.or_eq_true] at hv
    obtain hnan | hv := hv
    · rw [dumpError,if_pos hnan] at hdump
      cases hdump
    · split at hv
      · rename_i n hscan
        exact hnumber hscan
      · cases hv
  | str s => exact ⟨'"',_,rfl,rfl,by decide⟩
  | arr items => exact ⟨'[',_,rfl,rfl,by decide⟩
  | obj fields => exact ⟨'{',_,rfl,rfl,by decide⟩

theorem insertField_append {k : String} {v : Value} {fields : List (String × Value)}
    (h : ∀ f ∈ fields, f.1 < k) : insertField k v fields = fields ++ [(k,v)] := by
  induction fields with
  | nil => rfl
  | cons f fields ih =>
    have hk := h f List.mem_cons_self
    rw [insertField,if_neg (not_lt.mpr hk.le),if_neg (ne_of_gt hk),
      ih fun g hg => h g (List.mem_cons_of_mem f hg)]
    rfl

theorem foldl_insertField {fields pairs : List (String × Value)}
    (h : (fields ++ pairs).Pairwise fun a b => a.1 < b.1) :
    pairs.foldl (fun fields pair => insertField pair.1 pair.2 fields) fields = fields ++ pairs := by
  induction pairs generalizing fields with
  | nil => rw [List.append_nil]; rfl
  | cons p pairs ih =>
    have hp : ∀ f ∈ fields, f.1 < p.1 := fun f hf =>
      (List.pairwise_append.mp h).2.2 f hf p List.mem_cons_self
    rw [List.foldl_cons,insertField_append hp]
    rw [ih (by rwa [List.append_assoc]),List.append_assoc]
    rfl

/-- Pairs in the order of their keys are the dictionary they build. -/
theorem ofPairs_eq_self {fields : List (String × Value)}
    (h : fields.Pairwise fun a b => a.1 < b.1) : ofPairs fields = fields :=
  foldl_insertField h

theorem length_dumpItems_pos (separator : List Char) (items : List Value) :
    0 < (dumpItems separator items).length := by
  cases items with
  | nil => exact Nat.zero_lt_one
  | cons v vs =>
    have := length_dumpItems_pos [','] vs
    rw [dumpItems,List.length_append,List.length_append]
    omega

theorem length_dumpFields_pos (separator : List Char) (fields : List (String × Value)) :
    0 < (dumpFields separator fields).length := by
  cases fields with
  | nil => exact Nat.zero_lt_one
  | cons f fs =>
    rw [dumpFields,List.length_append,List.length_append,List.length_cons]
    omega

theorem length_dump_pos {v : Value} (hv : canonical host v = true) (hdump : dumpError v = none) :
    0 < (dump v).length := by
  obtain ⟨c,cs,heq,-⟩ := dump_head hv hdump
  rw [heq]
  exact Nat.succ_pos _

theorem skipSpace_dump {v : Value} (hv : canonical host v = true) (hdump : dumpError v = none) :
    skipSpace (dump v ++ rest) = dump v ++ rest := by
  obtain ⟨c,cs,heq,hspace,-⟩ := dump_head hv hdump
  rw [heq,List.cons_append,skipSpace_cons hspace]

theorem dumpItems_cons_append (v : Value) (vs : List Value) :
    dumpItems [','] (v :: vs) ++ rest = ',' :: (dump v ++ (dumpItems [','] vs ++ rest)) := by
  rw [dumpItems,List.append_assoc,List.append_assoc]
  rfl

theorem dumpFields_cons_append (k : String) (v : Value) (fs : List (String × Value)) :
    dumpFields [','] ((k,v) :: fs) ++ rest = ',' :: '"' :: (k.toList.flatMap escapeChar ++
      '"' :: ':' :: (dump v ++ (dumpFields [','] fs ++ rest))) := by
  simp only [dumpFields,dumpString,List.append_assoc,List.cons_append,List.nil_append]

mutual

/-- A written value is read back, whatever follows it in the text. -/
theorem scanValue_dump (v : Value) {rest : List Char} {fuel : Nat} (hv : canonical host v = true)
    (hdump : dumpError v = none) (hrest : Stops rest) (hfuel : (dump v).length ≤ fuel) :
    scanValue host fuel (dump v ++ rest) = .ok (v,rest) := by
  have hpos := length_dump_pos hv hdump
  obtain ⟨fuel,rfl⟩ := Nat.exists_eq_succ_of_ne_zero (Nat.ne_of_gt (Nat.lt_of_lt_of_le hpos hfuel))
  -- a word or a number: none of the three openings
  have hword : ∀ c cs, dump v = c :: cs → c ≠ '"' → c ≠ '{' → c ≠ '[' →
      scanValue host (fuel + 1) (dump v ++ rest) = scanWord host (dump v ++ rest) := by
    intro c cs heq hquote hbrace hbracket
    rw [heq,List.cons_append,scanValue,if_neg hquote,if_neg hbrace,if_neg hbracket]
  have hnumber : ∀ {r}, scanNumber (dump v) = some r →
      scanValue host (fuel + 1) (dump v ++ rest) = scanWord host (dump v ++ rest) := by
    intro r hscan
    obtain ⟨c,cs,heq,hc⟩ := scanNumber_head hscan
    have hne : ∀ d : Char, d.isDigit = false → d ≠ '-' → c ≠ d := by
      rintro d hd hminus rfl
      obtain hdigit | rfl := hc
      · rw [hd] at hdigit
        cases hdigit
      · exact hminus rfl
    exact hword c cs heq (hne '"' rfl (by decide)) (hne '{' rfl (by decide))
      (hne '[' rfl (by decide))
  cases v with
  | null =>
    rw [hword 'n' _ rfl (by decide) (by decide) (by decide)]
    rfl
  | bool b =>
    cases b with
    | false =>
      rw [hword 'f' _ rfl (by decide) (by decide) (by decide)]
      rfl
    | true =>
      rw [hword 't' _ rfl (by decide) (by decide) (by decide)]
      rfl
  | int n =>
    rw [hnumber (scanNumber_dumpInt n)]
    exact scanWord_dumpInt hrest hdump
  | float text =>
    have hfinite : nonFinite text = false := by
      by_contra hnan
      rw [Bool.not_eq_false] at hnan
      rw [dumpError,if_pos hnan] at hdump
      cases hdump
    have hscan : ∃ r, scanNumber text = some r := by
      rw [canonical,isFloatRepr,hfinite,Bool.false_or] at hv
      split at hv
      · rename_i n hscan
        exact ⟨_,hscan⟩
      · cases hv
    obtain ⟨r,hscan⟩ := hscan
    rw [hnumber hscan]
    exact scanWord_float hrest hfinite hv
  | str s =>
    have htext : dump (.str s) ++ rest = '"' :: (s.toList.flatMap escapeChar ++ '"' :: rest) := by
      simp only [dump,dumpString,List.append_assoc,List.cons_append,List.nil_append]
    rw [htext,scanValue,if_pos rfl,scanString_dumpString]
  | arr items =>
    cases items with
    | nil =>
      show scanValue host (fuel + 1) ('[' :: ']' :: rest) = _
      rw [scanValue,if_neg (by decide),if_neg (by decide),if_pos rfl]
      rfl
    | cons v vs =>
      have hread : scanItems host fuel (dump v ++ (dumpItems [','] vs ++ rest)) =
          .ok (v :: vs,rest) := scanItems_dump v vs hv hdump
        (by
          simp only [dump,dumpItems,List.length_cons,List.length_append,List.length_nil] at hfuel
          omega)
      rw [canonical,canonicalItems,Bool.and_eq_true] at hv
      rw [dumpError,itemsError,Option.or_eq_none_iff] at hdump
      obtain ⟨c,cs,heq,hspace,hc⟩ := dump_head hv.1 hdump.1
      have htext : dump (.arr (v :: vs)) ++ rest =
          '[' :: (dump v ++ (dumpItems [','] vs ++ rest)) := by
        simp only [dump,dumpItems,List.append_assoc,List.cons_append,List.nil_append]
      rw [htext,scanValue,if_neg (by decide),if_neg (by decide),if_pos rfl,
        skipSpace_dump hv.1 hdump.1]
      split
      · rename_i heq'
        rw [heq,List.cons_append] at heq'
        exact absurd (List.cons.inj heq').1 hc
      · rw [hread]
  | obj fields =>
    cases fields with
    | nil =>
      show scanValue host (fuel + 1) ('{' :: '}' :: rest) = _
      rw [scanValue,if_neg (by decide),if_pos rfl]
      rfl
    | cons f fs =>
      obtain ⟨k,v⟩ := f
      have hsorted : ((k,v) :: fs).Pairwise fun a b => a.1 < b.1 := by
        rw [canonical,Bool.and_eq_true] at hv
        exact of_decide_eq_true hv.1
      have hread : scanFields host fuel (k.toList.flatMap escapeChar ++ '"' :: ':' ::
          (dump v ++ (dumpFields [','] fs ++ rest))) = .ok ((k,v) :: fs,rest) :=
        scanFields_dump k v fs (by rw [canonical,Bool.and_eq_true] at hv; exact hv.2) hdump
        (by
          simp only [dump,dumpFields,dumpString,List.length_cons,List.length_append,
            List.length_nil] at hfuel ⊢
          omega)
      have htext : dump (.obj ((k,v) :: fs)) ++ rest = '{' :: '"' :: (k.toList.flatMap escapeChar ++
          '"' :: ':' :: (dump v ++ (dumpFields [','] fs ++ rest))) := by
        simp only [dump,dumpFields,dumpString,List.append_assoc,List.cons_append,List.nil_append]
      rw [htext,scanValue,if_neg (by decide),if_pos rfl,skipSpace_cons rfl]
      simp only [hread,ofPairs_eq_self hsorted]
termination_by fuel

theorem scanItems_dump (v : Value) (vs : List Value) {rest : List Char} {fuel : Nat}
    (hv : canonicalItems host (v :: vs) = true) (hdump : itemsError (v :: vs) = none)
    (hfuel : (dump v).length + (dumpItems [','] vs).length ≤ fuel) :
    scanItems host fuel (dump v ++ (dumpItems [','] vs ++ rest)) = .ok (v :: vs,rest) := by
  rw [canonicalItems,Bool.and_eq_true] at hv
  rw [itemsError,Option.or_eq_none_iff] at hdump
  have hpos := length_dump_pos hv.1 hdump.1
  have hrest := length_dumpItems_pos [','] vs
  obtain ⟨fuel,rfl⟩ := Nat.exists_eq_succ_of_ne_zero (show fuel ≠ 0 by omega)
  rw [scanItems,scanValue_dump v hv.1 hdump.1 (Stops.dumpItems vs) (by omega)]
  dsimp only
  cases vs with
  | nil => rfl
  | cons w ws =>
    have hread : scanItems host fuel (dump w ++ (dumpItems [','] ws ++ rest)) =
        .ok (w :: ws,rest) := scanItems_dump w ws hv.2 hdump.2
      (by
        simp only [dumpItems,List.length_append,List.length_cons,List.length_nil] at hfuel
        omega)
    have hw := hv.2
    have hwdump := hdump.2
    rw [canonicalItems,Bool.and_eq_true] at hw
    rw [itemsError,Option.or_eq_none_iff] at hwdump
    rw [dumpItems_cons_append,skipSpace_cons rfl]
    simp only [skipSpace_dump hw.1 hwdump.1,hread]
termination_by fuel

theorem scanFields_dump (k : String) (v : Value) (fs : List (String × Value)) {rest : List Char}
    {fuel : Nat} (hv : canonicalFields host ((k,v) :: fs) = true)
    (hdump : fieldsError ((k,v) :: fs) = none)
    (hfuel : (dump v).length + (dumpFields [','] fs).length ≤ fuel) :
    scanFields host fuel (k.toList.flatMap escapeChar ++ '"' :: ':' ::
      (dump v ++ (dumpFields [','] fs ++ rest))) = .ok ((k,v) :: fs,rest) := by
  rw [canonicalFields,Bool.and_eq_true] at hv
  rw [fieldsError,Option.or_eq_none_iff] at hdump
  have hpos := length_dump_pos hv.1 hdump.1
  have hrest := length_dumpFields_pos [','] fs
  obtain ⟨fuel,rfl⟩ := Nat.exists_eq_succ_of_ne_zero (show fuel ≠ 0 by omega)
  have hvalue : scanValue host fuel (dump v ++ (dumpFields [','] fs ++ rest)) =
      .ok (v,dumpFields [','] fs ++ rest) :=
    scanValue_dump v hv.1 hdump.1 (Stops.dumpFields fs) (by omega)
  rw [scanFields,scanString_dumpString]
  simp only [skipSpace_cons (show isSpace ':' = false from rfl),skipSpace_dump hv.1 hdump.1,hvalue]
  cases fs with
  | nil => rfl
  | cons f fs =>
    obtain ⟨k',v'⟩ := f
    have hread : scanFields host fuel (k'.toList.flatMap escapeChar ++ '"' :: ':' ::
        (dump v' ++ (dumpFields [','] fs ++ rest))) = .ok ((k',v') :: fs,rest) :=
      scanFields_dump k' v' fs hv.2 hdump.2
      (by
        simp only [dumpFields,dumpString,List.length_append,List.length_cons,List.length_nil] at hfuel
        omega)
    rw [dumpFields_cons_append,skipSpace_cons rfl]
    simp only [skipSpace_cons (show isSpace '"' = false from rfl),hread]
termination_by fuel

end

/-- `json.loads(json.dumps(v)) == v`. -/
theorem parse_dump {v : Value} (hv : canonical host v = true) (hdump : dumpError v = none) :
    parse host (dump v) = .ok v := by
  have hskip : skipSpace (dump v ++ []) = dump v ++ [] := skipSpace_dump hv hdump
  have hread : scanValue host (2 * (dump v).length + 2) (dump v ++ []) = .ok (v,[]) :=
    scanValue_dump v hv hdump Stops.nil (by omega)
  rw [List.append_nil] at hskip hread
  rw [parse,hskip,hread]
  rfl

/-! ## Bytes -/

theorem utf8Decode_utf8Encode (text : List Char) : utf8Decode (utf8Encode text) = some text := by
  show (text.utf8Encode).utf8Decode?.map Array.toList = some text
  rw [List.utf8Decode?_utf8Encode]
  rfl

/-- `json.loads` of the bytes of an object that is not empty: they start with `{"`, which every
encoding but UTF-8 rules out. -/
theorem loads_dump {f : String × Value} {fs : List (String × Value)}
    (hv : canonical host (.obj (f :: fs)) = true) (hdump : dumpError (.obj (f :: fs)) = none) :
    loads host (utf8Encode (dump (.obj (f :: fs)))) = .ok (.obj (f :: fs)) := by
  have hencoding : detectEncoding (utf8Encode (dump (.obj (f :: fs)))) = none := by
    have hbytes : ∃ tail, utf8Encode (dump (.obj (f :: fs))) = 0x7B :: 0x22 :: tail :=
      ⟨_,rfl⟩
    obtain ⟨tail,hbytes⟩ := hbytes
    rw [hbytes]
    unfold detectEncoding
    rw [if_neg,if_neg,if_neg]
    · cases tail with
      | nil => rfl
      | cons c tail =>
        cases tail with
        | nil => rfl
        | cons d tail => rfl
    all_goals simp
  rw [loads,hencoding]
  dsimp only
  rw [utf8Decode_utf8Encode]
  exact parse_dump hv hdump

/-- What a scanner takes off a text holds no line feed. -/
def Takes (cs rest : List Char) : Prop :=
  ∀ c ∈ cs, c ∈ rest ∨ c ≠ '\n'

theorem Takes.trans {cs cs' cs'' : List Char} (h : Takes cs cs') (h' : Takes cs' cs'') :
    Takes cs cs'' := by
  intro c hc
  obtain hmem | hne := h c hc
  · exact h' c hmem
  · exact .inr hne

theorem Takes.cons {c : Char} {cs cs' : List Char} (hc : c ≠ '\n') (h : Takes cs cs') :
    Takes (c :: cs) cs' := by
  intro d hd
  obtain rfl | hd := List.mem_cons.mp hd
  · exact .inr hc
  · exact h d hd

theorem Takes.refl (cs : List Char) : Takes cs cs := fun _ hc => .inl hc

theorem takes_digits (cs : List Char) : Takes cs (cs.dropWhile Char.isDigit) := by
  induction cs with
  | nil => exact Takes.refl []
  | cons c cs ih =>
    by_cases hdigit : c.isDigit = true
    · rw [List.dropWhile_cons,if_pos hdigit]
      refine ih.cons ?_
      rintro rfl
      cases hdigit
    · rw [List.dropWhile_cons,if_neg hdigit]
      exact Takes.refl _

theorem scanInteger_takes {cs : List Char} {r : List Char × List Char}
    (h : scanInteger cs = some r) : Takes cs r.2 := by
  cases cs with
  | nil => cases h
  | cons c cs =>
    rw [scanInteger] at h
    split at h
    · rename_i hzero
      rw [← Option.some.inj h,hzero]
      exact (Takes.refl cs).cons (by decide)
    · split at h
      · rename_i hdigit
        rw [← Option.some.inj h]
        refine (takes_digits cs).cons ?_
        rintro rfl
        cases hdigit
      · cases h

theorem scanFraction_takes (cs : List Char) : Takes cs (scanFraction cs).2 := by
  unfold scanFraction
  split
  · split
    · exact Takes.refl _
    · exact (takes_digits _).cons (by decide)
  · exact Takes.refl _

theorem scanSign_takes (cs : List Char) : Takes cs (scanSign cs).2 := by
  unfold scanSign
  split
  · exact (Takes.refl _).cons (by decide)
  · exact (Takes.refl _).cons (by decide)
  · exact Takes.refl _

theorem scanExponent_takes (cs : List Char) : Takes cs (scanExponent cs).2 := by
  cases cs with
  | nil => exact Takes.refl _
  | cons c cs =>
    rw [scanExponent]
    split
    · rename_i he
      dsimp only
      split
      · exact Takes.refl _
      · refine ((scanSign_takes cs).trans (takes_digits _)).cons ?_
        rintro rfl
        obtain he | he := he
        all_goals cases he
    · exact Takes.refl _

theorem scanUnsigned_takes {negative : Bool} {cs : List Char} {r : Number × List Char}
    (h : scanUnsigned negative cs = some r) : Takes cs r.2 := by
  rw [scanUnsigned] at h
  split at h
  · cases h
  · rename_i hinteger
    rw [← Option.some.inj h]
    exact ((scanInteger_takes hinteger).trans (scanFraction_takes _)).trans (scanExponent_takes _)

theorem scanNumber_takes {cs : List Char} {r : Number × List Char} (h : scanNumber cs = some r) :
    Takes cs r.2 := by
  unfold scanNumber at h
  split at h
  · exact (scanUnsigned_takes h).cons (by decide)
  · exact scanUnsigned_takes h

theorem newline_not_mem_escapeChar (c : Char) : '\n' ∉ escapeChar c := by
  have hdigit : ∀ n < 16, Nat.digitChar n ≠ '\n' := by decide
  unfold escapeChar
  split_ifs with hquote hslash hn hr ht hf hb hcontrol
  · decide
  · decide
  · decide
  · decide
  · decide
  · decide
  · decide
  · have hhigh := hdigit (c.toNat / 16) (by omega)
    have hlow := hdigit (c.toNat % 16) (by omega)
    simp [hhigh.symm,hlow.symm]
  · rw [List.mem_singleton]
    exact Ne.symm hn

theorem newline_not_mem_dumpString (s : String) : '\n' ∉ dumpString s := by
  intro h
  rw [dumpString,List.mem_cons,List.mem_append,List.mem_flatMap] at h
  obtain h | ⟨c,-,hc⟩ | h := h
  · cases h
  · exact newline_not_mem_escapeChar c hc
  · simp at h

theorem newline_not_mem_number {cs : List Char} {n : Number} (h : scanNumber cs = some (n,[])) :
    '\n' ∉ cs := by
  intro hmem
  obtain hnil | hne := scanNumber_takes h '\n' hmem
  · cases hnil
  · exact hne rfl

mutual

theorem newline_not_mem_dump (v : Value) (hv : canonical host v = true) : '\n' ∉ dump v := by
  cases v with
  | null => simp [dump]
  | bool b => cases b <;> simp [dump]
  | int n => exact newline_not_mem_number (scanNumber_dumpInt n)
  | float text =>
    rw [canonical,isFloatRepr,Bool.or_eq_true] at hv
    rw [dump]
    obtain hnan | hv := hv
    · simp only [nonFinite,Bool.or_eq_true,decide_eq_true_eq] at hnan
      obtain (rfl | rfl) | rfl := hnan
      all_goals simp
    · split at hv
      · rename_i n hscan
        exact newline_not_mem_number hscan
      · cases hv
  | str s => exact newline_not_mem_dumpString s
  | arr items =>
    rw [dump,List.mem_cons,not_or]
    exact ⟨by decide,newline_not_mem_dumpItems items (by simp) hv⟩
  | obj fields =>
    rw [canonical,Bool.and_eq_true] at hv
    rw [dump,List.mem_cons,not_or]
    exact ⟨by decide,newline_not_mem_dumpFields fields (by simp) hv.2⟩

theorem newline_not_mem_dumpItems (items : List Value) {separator : List Char}
    (hseparator : '\n' ∉ separator) (hitems : canonicalItems host items = true) :
    '\n' ∉ dumpItems separator items := by
  cases items with
  | nil => simp [dumpItems]
  | cons v vs =>
    rw [canonicalItems,Bool.and_eq_true] at hitems
    rw [dumpItems,List.mem_append,List.mem_append,not_or,not_or]
    exact ⟨hseparator,newline_not_mem_dump v hitems.1,
      newline_not_mem_dumpItems vs (by simp) hitems.2⟩

theorem newline_not_mem_dumpFields (fields : List (String × Value)) {separator : List Char}
    (hseparator : '\n' ∉ separator) (hfields : canonicalFields host fields = true) :
    '\n' ∉ dumpFields separator fields := by
  cases fields with
  | nil => simp [dumpFields]
  | cons f fs =>
    obtain ⟨k,v⟩ := f
    rw [canonicalFields,Bool.and_eq_true] at hfields
    rw [dumpFields,List.mem_append,List.mem_append,List.mem_cons,List.mem_append,not_or,not_or,
      not_or,not_or]
    exact ⟨hseparator,newline_not_mem_dumpString k,by decide,newline_not_mem_dump v hfields.1,
      newline_not_mem_dumpFields fs (by simp) hfields.2⟩

end

/-- The byte of a line feed only comes from a line feed. -/
theorem newline_mem_utf8EncodeChar {c : Char} (h : (0x0A : UInt8) ∈ String.utf8EncodeChar c) :
    c = '\n' := by
  -- every byte of a longer sequence has its highest bit set
  have hbyte : ∀ n, 0x80 ≤ n → n < 0x100 → (0x0A : UInt8) ≠ UInt8.ofNat n := by
    intro n hlow hhigh heq
    have hnat := congrArg UInt8.toNat heq
    rw [UInt8.toNat_ofNat_of_lt' hhigh] at hnat
    change 10 = n at hnat
    omega
  unfold String.utf8EncodeChar at h
  dsimp only at h
  split_ifs at h with hone htwo hthree
  · rw [List.mem_singleton] at h
    have hnat := congrArg UInt8.toNat h
    rw [UInt8.toNat_ofNat_of_lt' (show c.val.toNat < 256 by omega)] at hnat
    exact Char.ext (UInt32.toNat_inj.mp hnat.symm)
  · simp only [List.mem_cons,List.not_mem_nil,or_false] at h
    obtain h | h := h
    all_goals exact absurd h (hbyte _ (by omega) (by omega))
  · simp only [List.mem_cons,List.not_mem_nil,or_false] at h
    obtain h | h | h := h
    all_goals exact absurd h (hbyte _ (by omega) (by omega))
  · simp only [List.mem_cons,List.not_mem_nil,or_false] at h
    obtain h | h | h | h := h
    all_goals exact absurd h (hbyte _ (by omega) (by omega))

theorem newline_not_mem_utf8Encode {text : List Char} (h : '\n' ∉ text) :
    (0x0A : UInt8) ∉ utf8Encode text := by
  intro hmem
  obtain ⟨c,hc,hbyte⟩ := List.mem_flatMap.mp hmem
  rw [newline_mem_utf8EncodeChar hbyte] at hc
  exact h hc

end Json
