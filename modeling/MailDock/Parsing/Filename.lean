import MailDock.Lib.Program
import MailDock.Parsing.Headers

/-!
# File names in continued parameters

RFC 2231 lets a sender cut the percent-encoded bytes of a file name into numbered segments, of
which the first one names the charset.  `_filename_from_parameters` decodes the segments one by
one.

## Main definitions

- `Octet`, `Continuation` — a file name as it is written
- `Continuation.SpellsApart` — every segment spells a part of the name by itself

## Main result

- `filenameFromParameters_iff` — when the name is read back
-/

namespace MailDock

namespace Headers

/-- The library where it reads names and numbers of ASCII and decodes UTF-8. -/
structure HeaderLibrary.Lawful (lib : HeaderLibrary) : Prop where
  lower_letters : ∀ text : List Char, (∀ c ∈ text, c.isLower = true) →
    lib.lower (pyText text) = pyText text
  digit_ascii : ∀ c : Char, c.isDigit = true →
    lib.digit (.ofChar c) = some (c.toNat - '0'.toNat)
  digit_star : lib.digit (.ofChar '*') = none
  decode_utf8 : ∀ bytes, lib.decode utf8Label bytes =
    match Utf8.decodeStrict bytes with
    | some text => .ok text
    | none => .error .unicodeDecodeError

/-- A library that knows the letters and digits of ASCII and the codec of UTF-8. -/
def plainLibrary : HeaderLibrary where
  lower text := text.map fun c =>
    if h : 0x41 ≤ c.val ∧ c.val ≤ 0x5a then ⟨c.val + 0x20,CodePoint.small_lt h⟩ else c
  casefold text := text
  digit c := if 0x30 ≤ c.val ∧ c.val ≤ 0x39 then some (c.val - 0x30) else none
  decode label bytes :=
    if label = utf8Label then
      match Utf8.decodeStrict bytes with
      | some text => .ok text
      | none => .error .unicodeDecodeError
    else .error ⟨.lookup,"LookupError",by decide⟩
  decodeHeader text := .ok [(.inl text,none)]
  makeHeader pairs := .ok (pairs.flatMap fun pair => pair.1.elim id fun _ => [])
  parsedateToDatetime _ := .error .valueError
  tomorrow := ⟨⟨2026,1,1,0,0,0⟩,0,true⟩

theorem plainLibrary_lawful : plainLibrary.Lawful where
  lower_letters letters hletters := by
    refine (List.map_congr_left fun c hc => ?_).trans (List.map_id _)
    obtain ⟨d,hd,rfl⟩ := List.mem_map.mp hc
    have hlower := hletters d hd
    have hval : (CodePoint.ofChar d).val = d.val.toNat := rfl
    have hrange : (decide (d.val ≥ 'a'.val) && decide (d.val ≤ 'z'.val)) = true := hlower
    simp only [Bool.and_eq_true,decide_eq_true_eq,ge_iff_le,UInt32.le_iff_toNat_le] at hrange
    rw [dif_neg]
    · rfl
    · intro hcapital
      have hsmall : 'a'.val.toNat = 97 := rfl
      omega
  digit_ascii c hc := by
    have hval : (CodePoint.ofChar c).val = c.val.toNat := rfl
    simp only [Char.isDigit,Bool.and_eq_true,decide_eq_true_eq,ge_iff_le,
      UInt32.le_iff_toNat_le] at hc
    exact if_pos hc
  digit_star := rfl
  decode_utf8 _ := rfl

/-! ## Written names -/

/-- A digit of base sixteen, as a capital or a small letter from ten on. -/
def hexDigit (capital : Bool) (n : Nat) : UInt8 :=
  .ofNat (if n < 10 then 0x30 + n else if capital then 0x37 + n else 0x57 + n)

/-- A byte that stands for itself, or for which a percent sign and two digits stand. -/
structure Octet where
  byte : UInt8
  form : Option (Bool × Bool)
  plain : form = none → byte.toNat < 0x80 ∧ byte ≠ 0x25

/-- The bytes an octet is written with. -/
def Octet.spelling (o : Octet) : List UInt8 :=
  match o.form with
  | none => [o.byte]
  | some (high,low) => [0x25,hexDigit high (o.byte.toNat / 16),hexDigit low (o.byte.toNat % 16)]

/-- A code point of ASCII, given its byte. -/
def asciiPoint (b : UInt8) : CodePoint := ⟨b.toNat,by have := b.toNat_lt; omega⟩

def octetsText (octets : List Octet) : PyText := (octets.flatMap Octet.spelling).map asciiPoint

def octetsBytes (octets : List Octet) : List UInt8 := octets.map (·.byte)

def Octet.isApostrophe (o : Octet) : Bool := o.form.isNone && o.byte == 0x27

/-- A name in segments, with the charset and the language in the first one. -/
structure Continuation where
  charset : PyText
  language : PyText
  first : List Octet
  rest : List (List Octet)
  charset_plain : CodePoint.ofChar '\'' ∉ charset
  language_plain : CodePoint.ofChar '\'' ∉ language

namespace Continuation

def firstValue (c : Continuation) : PyText :=
  c.charset ++ .ofChar '\'' :: (c.language ++ .ofChar '\'' :: octetsText c.first)

def bytes (c : Continuation) : List UInt8 :=
  ((c.first :: c.rest).map octetsBytes).flatten

end Continuation

def numbered (index : Nat) : List (List Octet) → List Segment
  | [] => []
  | octets :: rest => ⟨index,octetsText octets,true⟩ :: numbered (index + 1) rest

def Continuation.segments (c : Continuation) : List Segment :=
  ⟨0,c.firstValue,true⟩ :: numbered 1 c.rest

def segmentName (baseName : PyText) (index : Nat) : PyText :=
  baseName ++ .ofChar '*' :: (pyText (Nat.toDigits 10 index) ++ [CodePoint.ofChar '*'])

/-- The parameters of the header, in their order. -/
def Continuation.parameters (baseName : PyText) (c : Continuation) : List (PyText × PyText) :=
  c.segments.map fun segment => (segmentName baseName segment.index,segment.value)

/-! ## Octets -/

theorem hexValue_hexDigit (capital : Bool) :
    ∀ n < 16, hexValue (hexDigit capital n) = some (.ofNat n) := by
  cases capital <;> decide

theorem hexDigit_lt (capital : Bool) : ∀ n < 16, (hexDigit capital n).toNat < 0x80 ∧
    hexDigit capital n ≠ 0x27 := by
  cases capital <;> decide

theorem unquoteBytes_octet (o : Octet) (rest : List UInt8) :
    unquoteBytes (o.spelling ++ rest) = o.byte :: unquoteBytes rest := by
  unfold Octet.spelling
  cases hform : o.form with
  | none =>
    obtain ⟨-,hbyte⟩ := o.plain hform
    match rest with
    | [] | [_] => rfl
    | b :: c :: rest =>
      simp only [List.cons_append,List.nil_append]
      rw [unquoteBytes,if_neg hbyte]
  | some digits =>
    obtain ⟨high,low⟩ := digits
    have hlt := o.byte.toNat_lt
    simp only [List.cons_append,List.nil_append]
    rw [unquoteBytes,if_pos rfl,hexValue_hexDigit high _ (by omega),
      hexValue_hexDigit low _ (by omega)]
    have hbyte : UInt8.ofNat (o.byte.toNat / 16) * 16 + UInt8.ofNat (o.byte.toNat % 16) =
        o.byte := by
      apply UInt8.toNat_inj.mp
      simp only [UInt8.toNat_add,UInt8.toNat_mul,UInt8.toNat_ofNat']
      rw [show (16 : UInt8).toNat = 16 from rfl]
      omega
    simp only [hbyte]

theorem unquoteBytes_octets (octets : List Octet) :
    unquoteBytes (octets.flatMap Octet.spelling) = octetsBytes octets := by
  induction octets with
  | nil => rfl
  | cons o octets ih =>
    rw [List.flatMap_cons,unquoteBytes_octet,ih]
    rfl

theorem spelling_lt {o : Octet} {b : UInt8} (hb : b ∈ o.spelling) : b.toNat < 0x80 := by
  have hlt := o.byte.toNat_lt
  unfold Octet.spelling at hb
  cases hform : o.form with
  | none =>
    rw [hform] at hb
    rw [List.mem_singleton.mp hb]
    exact (o.plain hform).1
  | some digits =>
    rw [hform] at hb
    simp only [List.mem_cons,List.not_mem_nil,or_false] at hb
    rcases hb with rfl | rfl | rfl
    · decide
    · exact (hexDigit_lt _ _ (by omega)).1
    · exact (hexDigit_lt _ _ (by omega)).1

theorem encode_asciiPoint {bytes : List UInt8} (h : ∀ b ∈ bytes, b.toNat < 0x80) :
    Utf8.encode (bytes.map asciiPoint) = bytes := by
  induction bytes with
  | nil => rfl
  | cons b bytes ih =>
    have hb : Utf8.encodeCodePoint (asciiPoint b) = [b] := by
      have hval : (asciiPoint b).val = b.toNat := rfl
      rw [Utf8.encodeCodePoint,hval,if_pos (h b List.mem_cons_self),UInt8.ofNat_toNat]
    rw [List.map_cons,Utf8.encode,List.flatMap_cons,hb,← Utf8.encode,
      ih fun d hd => h d (List.mem_cons_of_mem b hd)]
    rfl

/-- An encoded value is unquoted to the bytes it was written from. -/
theorem unquoteToBytes_octetsText (octets : List Octet) :
    unquoteToBytes (octetsText octets) = .ok (octetsBytes octets) := by
  have hascii : ∀ b ∈ octets.flatMap Octet.spelling, b.toNat < 0x80 := by
    intro b hb
    obtain ⟨o,-,hb⟩ := List.mem_flatMap.mp hb
    exact spelling_lt hb
  have hsurrogate : (octetsText octets).any Utf8.isSurrogate = false := by
    rw [List.any_eq_false]
    intro c hc
    obtain ⟨b,hb,rfl⟩ := List.mem_map.mp hc
    have hlt := hascii b hb
    have hval : (asciiPoint b).val = b.toNat := rfl
    simp only [Utf8.isSurrogate,hval,Bool.and_eq_true,decide_eq_true_eq]
    omega
  rw [unquoteToBytes,hsurrogate]
  simp only [Bool.false_eq_true,if_false]
  rw [octetsText,encode_asciiPoint hascii,unquoteBytes_octets]

/-! ## Apostrophes -/

/-- What stands before and after the first apostrophe that is written as it is. -/
def cutApostrophe : List Octet → List Octet × Option (List Octet)
  | [] => ([],none)
  | o :: octets =>
    if o.isApostrophe then ([],some octets)
    else (o :: (cutApostrophe octets).1,(cutApostrophe octets).2)

/-- The charset and the bytes a later segment is read with.  Two apostrophes make what stands
before them a charset, a single one makes it a charset of the whole segment. -/
def laterReading (octets : List Octet) : PyText × List UInt8 :=
  match cutApostrophe octets with
  | (charset,some rest) =>
    match (cutApostrophe rest).2 with
    | some encoded => (octetsText charset,octetsBytes encoded)
    | none => (octetsText charset,octetsBytes octets)
  | (_,none) => (utf8Label,octetsBytes octets)

theorem octetsText_cons (o : Octet) (octets : List Octet) :
    octetsText (o :: octets) = o.spelling.map asciiPoint ++ octetsText octets := by
  simp [octetsText]

theorem asciiPoint_ne {b : UInt8} {c : Char} (h : b.toNat ≠ c.toNat) :
    asciiPoint b ≠ CodePoint.ofChar c := fun heq => h (congrArg Fin.val heq)

theorem spelling_apostrophe {o : Octet} (h : o.isApostrophe = false) :
    CodePoint.ofChar '\'' ∉ o.spelling.map asciiPoint := by
  have hlt := o.byte.toNat_lt
  intro hmem
  obtain ⟨b,hb,heq⟩ := List.mem_map.mp hmem
  refine asciiPoint_ne (fun hval => ?_) heq
  have hbyte : b = 0x27 := UInt8.toNat_inj.mp hval
  subst hbyte
  unfold Octet.spelling at hb
  cases hform : o.form with
  | none =>
    rw [hform] at hb
    have hapostrophe : o.isApostrophe = true := by
      simp [Octet.isApostrophe,hform,← List.mem_singleton.mp hb]
    rw [hapostrophe] at h
    cases h
  | some digits =>
    rw [hform] at hb
    simp only [List.mem_cons,List.not_mem_nil,or_false] at hb
    rcases hb with hb | hb | hb
    · exact absurd hb (by decide)
    · exact (hexDigit_lt _ _ (by omega)).2 hb.symm
    · exact (hexDigit_lt _ _ (by omega)).2 hb.symm

theorem partition_append_left {separator : CodePoint} {before : PyText} (h : separator ∉ before)
    (text : PyText) : PyText.partition separator (before ++ text) =
      (before ++ (PyText.partition separator text).1,(PyText.partition separator text).2) := by
  induction before with
  | nil => rfl
  | cons c before ih =>
    have hc : c ≠ separator := fun heq => h (heq ▸ List.mem_cons_self)
    rw [List.cons_append,PyText.partition,if_neg hc,ih fun hmem => h (List.mem_cons_of_mem _ hmem)]
    rfl

theorem partition_octetsText (octets : List Octet) :
    PyText.partition (.ofChar '\'') (octetsText octets) =
      (octetsText (cutApostrophe octets).1,(cutApostrophe octets).2.map octetsText) := by
  induction octets with
  | nil => rfl
  | cons o octets ih =>
    rw [octetsText_cons,cutApostrophe]
    cases happostrophe : o.isApostrophe with
    | false =>
      rw [partition_append_left (spelling_apostrophe happostrophe),ih]
      simp only [Bool.false_eq_true,if_false,octetsText_cons]
    | true =>
      have hspelling : o.spelling.map asciiPoint = [CodePoint.ofChar '\''] := by
        simp only [Octet.isApostrophe,Bool.and_eq_true,Option.isNone_iff_eq_none,
          beq_iff_eq] at happostrophe
        rw [Octet.spelling,happostrophe.1,happostrophe.2]
        rfl
      rw [hspelling,List.singleton_append,PyText.partition,if_pos rfl]
      rfl

section
variable (lib : HeaderLibrary)

theorem rfc2231Parts_octetsText (octets : List Octet) :
    ∃ encoded, rfc2231Parts (octetsText octets) = ((laterReading octets).1,octetsText encoded) ∧
      (laterReading octets).2 = octetsBytes encoded := by
  rw [rfc2231Parts,laterReading,partition_octetsText]
  rcases cutApostrophe octets with ⟨charset,_ | rest⟩
  · exact ⟨octets,rfl,rfl⟩
  · simp only [Option.map_some,partition_octetsText]
    cases (cutApostrophe rest).2 with
    | none => exact ⟨octets,rfl,rfl⟩
    | some encoded => exact ⟨encoded,rfl,rfl⟩

theorem decodeRfc2231Value_later (octets : List Octet) :
    decodeRfc2231Value lib (octetsText octets) true =
      decodeBytes lib (laterReading octets).1 (laterReading octets).2 := by
  obtain ⟨encoded,hparts,hbytes⟩ := rfc2231Parts_octetsText octets
  rw [decodeRfc2231Value,if_pos rfl,hparts,hbytes]
  simp only [unquoteToBytes_octetsText]
  rfl

theorem decodeRfc2231Value_first (c : Continuation) :
    decodeRfc2231Value lib c.firstValue true =
      decodeBytes lib c.charset (octetsBytes c.first) := by
  have hparts : rfc2231Parts c.firstValue = (c.charset,octetsText c.first) := by
    rw [rfc2231Parts,Continuation.firstValue,PyText.partition_append c.charset_plain]
    simp only [PyText.partition_append c.language_plain]
  rw [decodeRfc2231Value,if_pos rfl,hparts]
  simp only [unquoteToBytes_octetsText]
  rfl

/-! ## The segments -/

/-- `charset or "utf-8"`. -/
def charsetLabel (charset : PyText) : PyText := if charset = [] then utf8Label else charset

/-- The bytes spell the text in their charset, or they are malformed there and spell it in UTF-8,
where U+FFFD stands for what is malformed. -/
def Reads (charset : PyText) (bytes : List UInt8) (text : PyText) : Prop :=
  lib.decode (charsetLabel charset) bytes = .ok text ∨
    ∃ e, lib.decode (charsetLabel charset) bytes = .error e ∧
      e.isDecodeError = true ∧ text = Utf8.decodeReplace bytes

theorem decodeBytes_eq_ok {charset : PyText} {bytes : List UInt8} {text : PyText} :
    decodeBytes lib charset bytes = .ok text ↔ Reads lib charset bytes text := by
  rw [decodeBytes,← charsetLabel,Reads]
  cases hdecode : lib.decode (charsetLabel charset) bytes with
  | ok decoded => simp
  | error e =>
    show (if e.isDecodeError = true then (.ok (Utf8.decodeReplace bytes) : Result PyText)
      else .error e) = _ ↔ _
    by_cases he : e.isDecodeError = true
    · rw [if_pos he]
      constructor
      · intro htext
        exact .inr ⟨e,rfl,he,(Except.ok.inj htext).symm⟩
      · rintro (hok | ⟨-,-,-,htext⟩)
        · cases hok
        · rw [htext]
    · rw [if_neg he]
      constructor
      · intro htext
        cases htext
      · rintro (hok | ⟨e',herror,he',-⟩)
        · cases hok
        · cases herror
          exact absurd he' he

/-- Every segment by itself spells a part of the name: the first one in its charset, the later
ones in UTF-8 or in what they take for a charset. -/
def Continuation.SpellsApart (c : Continuation) (name : PyText) : Prop :=
  ∃ part parts, name = part ++ List.flatten parts ∧
    Reads lib c.charset (octetsBytes c.first) part ∧
    List.Forall₂ (fun octets part =>
      Reads lib (laterReading octets).1 (laterReading octets).2 part) c.rest parts

theorem joinSegments_numbered {index : Nat} {rest : List (List Octet)} {joined : PyText} :
    joinSegments lib index (numbered index rest) = .ok joined ↔
      ∃ parts, joined = List.flatten parts ∧ List.Forall₂ (fun octets part =>
        Reads lib (laterReading octets).1 (laterReading octets).2 part) rest parts := by
  induction rest generalizing index joined with
  | nil =>
    simp only [numbered,joinSegments,Except.ok.injEq,List.forall₂_nil_left_iff]
    constructor
    · rintro rfl
      exact ⟨[],rfl,rfl⟩
    · rintro ⟨parts,rfl,rfl⟩
      rfl
  | cons octets rest ih =>
    rw [numbered,joinSegments,if_neg (by simp)]
    simp only [Except.bind_eq_ok_iff,decodeRfc2231Value_later,decodeBytes_eq_ok,ih]
    constructor
    · rintro ⟨part,hpart,others,⟨parts,rfl,hparts⟩,hjoined⟩
      exact ⟨part :: parts,(Except.ok.inj hjoined).symm,.cons hpart hparts⟩
    · rintro ⟨_,rfl,hparts⟩
      cases hparts with
      | cons hpart hparts => exact ⟨_,hpart,_,⟨_,rfl,hparts⟩,rfl⟩

theorem joinSegments_segments {c : Continuation} {joined : PyText} :
    joinSegments lib 0 c.segments = .ok joined ↔ c.SpellsApart lib joined := by
  rw [Continuation.segments,joinSegments,if_neg (by simp)]
  simp only [Except.bind_eq_ok_iff,decodeRfc2231Value_first,decodeBytes_eq_ok,Nat.zero_add,
    joinSegments_numbered]
  constructor
  · rintro ⟨part,hpart,others,⟨parts,rfl,hparts⟩,hjoined⟩
    exact ⟨part,parts,(Except.ok.inj hjoined).symm,hpart,hparts⟩
  · rintro ⟨part,parts,rfl,hpart,hparts⟩
    exact ⟨part,hpart,_,⟨parts,rfl,hparts⟩,rfl⟩

/-! ## The parameters of a header -/

variable {lib}

theorem takeWhile_digits (h : lib.Lawful) (index : Nat) :
    (pyText (Nat.toDigits 10 index) ++ [CodePoint.ofChar '*']).takeWhile
        (fun c => (lib.digit c).isSome) = pyText (Nat.toDigits 10 index) ∧
      (pyText (Nat.toDigits 10 index) ++ [CodePoint.ofChar '*']).dropWhile
        (fun c => (lib.digit c).isSome) = [CodePoint.ofChar '*'] := by
  have hdigits : ∀ c ∈ pyText (Nat.toDigits 10 index), (lib.digit c).isSome = true := by
    intro c hc
    obtain ⟨d,hd,rfl⟩ := List.mem_map.mp hc
    rw [h.digit_ascii d (Nat.isDigit_of_mem_toDigits (by decide) (by decide) hd)]
    rfl
  have hstar : (lib.digit (CodePoint.ofChar '*')).isSome = false := by rw [h.digit_star]; rfl
  constructor
  · rw [List.takeWhile_append_of_pos hdigits,List.takeWhile_cons_of_neg (by simp [hstar]),
      List.append_nil]
  · rw [List.dropWhile_append_of_pos hdigits,List.dropWhile_cons_of_neg (by simp [hstar])]

theorem foldl_digits (h : lib.Lawful) {digits : List Char}
    (hdigits : ∀ c ∈ digits, c.isDigit = true) (n : Nat) :
    (pyText digits).foldl (fun n c => n * 10 + (lib.digit c).getD 0) n =
      Nat.ofDigitChars 10 digits n := by
  induction digits generalizing n with
  | nil => rw [Nat.ofDigitChars_nil]; rfl
  | cons c digits ih =>
    rw [pyText,List.map_cons,List.foldl_cons,← pyText,
      ih fun d hd => hdigits d (List.mem_cons_of_mem c hd),
      h.digit_ascii c (hdigits c List.mem_cons_self),Nat.ofDigitChars_cons,Nat.mul_comm 10 n]
    rfl

theorem matchParameterName_segmentName (h : lib.Lawful) {baseName : PyText} (hne : baseName ≠ [])
    (hstar : CodePoint.ofChar '*' ∉ baseName) (index : Nat) :
    matchParameterName lib (segmentName baseName index) = some (baseName,some (index,true)) := by
  obtain ⟨htake,hdrop⟩ := takeWhile_digits h index
  have hdigits : pyText (Nat.toDigits 10 index) ≠ [] := by
    intro hnil
    have := Nat.length_toDigits_pos (b := 10) (n := index)
    rw [List.map_eq_nil_iff.mp hnil] at this
    exact absurd this (by decide)
  have hnumber : (pyText (Nat.toDigits 10 index)).foldl
      (fun n c => n * 10 + (lib.digit c).getD 0) 0 = index := by
    rw [foldl_digits h fun c hc => Nat.isDigit_of_mem_toDigits (by decide) (by decide) hc,
      Nat.ofDigitChars_ten_toDigits]
  obtain ⟨c,rest,rfl⟩ := List.exists_cons_of_ne_nil hne
  rw [matchParameterName,segmentName,PyText.partition_append hstar]
  simp only [htake,hdrop,hnumber,if_neg hdigits,if_true]

/-- The name of a parameter with a file name. -/
structure BaseName (lib : HeaderLibrary) (baseName : PyText) : Prop where
  ne_nil : baseName ≠ []
  star : CodePoint.ofChar '*' ∉ baseName
  lower : lib.lower baseName = baseName

theorem HeaderLibrary.Lawful.baseName (h : lib.Lawful) {letters : List Char} (hne : letters ≠ [])
    (hletters : ∀ c ∈ letters, c.isLower = true) : BaseName lib (pyText letters) where
  ne_nil := fun hnil => hne (List.map_eq_nil_iff.mp hnil)
  star := by
    intro hmem
    obtain ⟨c,hc,heq⟩ := List.mem_map.mp hmem
    have hlower := hletters c hc
    rw [CodePoint.ofChar_injective heq] at hlower
    exact absurd hlower (by decide)
  lower := h.lower_letters letters hletters

theorem segmentOf_segmentName (h : lib.Lawful) {baseName : PyText} (hbase : BaseName lib baseName)
    (segment : Segment) (hencoded : segment.encoded = true) :
    segmentOf lib baseName (segmentName baseName segment.index,segment.value) = some segment := by
  rw [segmentOf,matchParameterName_segmentName h hbase.ne_nil hbase.star]
  simp only [hbase.lower,if_true]
  rw [← hencoded]

theorem numbered_spec (index : Nat) (rest : List (List Octet)) :
    (∀ s ∈ numbered index rest, s.encoded = true ∧ index ≤ s.index) ∧
      (numbered index rest).Pairwise fun a b => a.index < b.index := by
  induction rest generalizing index with
  | nil => exact ⟨nofun,.nil⟩
  | cons octets rest ih =>
    obtain ⟨hmem,hsorted⟩ := ih (index + 1)
    constructor
    · intro s hs
      rcases List.mem_cons.mp hs with rfl | hs
      · exact ⟨rfl,Nat.le_refl index⟩
      · have := hmem s hs
        exact ⟨this.1,by omega⟩
    · exact List.pairwise_cons.mpr ⟨fun s hs => (hmem s hs).2,hsorted⟩

theorem Continuation.segments_sorted (c : Continuation) :
    (∀ s ∈ c.segments, s.encoded = true) ∧
      c.segments.Pairwise fun a b => a.index < b.index := by
  obtain ⟨hmem,hsorted⟩ := numbered_spec 1 c.rest
  constructor
  · intro s hs
    rcases List.mem_cons.mp hs with rfl | hs
    · rfl
    · exact (hmem s hs).1
  · exact List.pairwise_cons.mpr ⟨fun s hs => (hmem s hs).2,hsorted⟩

theorem filterMap_parameters (h : lib.Lawful) {baseName : PyText} (hbase : BaseName lib baseName)
    (c : Continuation) : (c.parameters baseName).filterMap (segmentOf lib baseName) = c.segments := by
  have hmem := c.segments_sorted.1
  rw [Continuation.parameters]
  generalize c.segments = segments at hmem
  induction segments with
  | nil => rfl
  | cons segment segments ih =>
    rw [List.map_cons,List.filterMap_cons,
      segmentOf_segmentName h hbase segment (hmem segment List.mem_cons_self),
      ih fun s hs => hmem s (List.mem_cons_of_mem _ hs)]

/-- Whatever the order of the parameters, sorting puts the segments into theirs. -/
theorem sorted_segments (h : lib.Lawful) {baseName : PyText} (hbase : BaseName lib baseName)
    {c : Continuation} {parameters others : List (PyText × PyText)}
    (hperm : parameters.Perm (c.parameters baseName ++ others))
    (hothers : ∀ p ∈ others, segmentOf lib baseName p = none) :
    (parameters.filterMap (segmentOf lib baseName)).insertionSort
      (fun a b => a.index ≤ b.index) = c.segments := by
  have hsegments : (parameters.filterMap (segmentOf lib baseName)).Perm c.segments := by
    have := hperm.filterMap (segmentOf lib baseName)
    rwa [List.filterMap_append,filterMap_parameters h hbase,
      List.filterMap_eq_nil_iff.mpr hothers,List.append_nil] at this
  have htotal : Std.Total fun a b : Segment => a.index ≤ b.index :=
    ⟨fun a b => Nat.le_total a.index b.index⟩
  have htrans : IsTrans Segment fun a b => a.index ≤ b.index := ⟨fun _ _ _ => Nat.le_trans⟩
  have hstrict := c.segments_sorted.2
  have hdistinct : (parameters.filterMap (segmentOf lib baseName)).Pairwise
      fun a b => a.index ≠ b.index :=
    (List.Perm.pairwise_iff Ne.symm hsegments).mpr (hstrict.imp Nat.ne_of_lt)
  have hsort := List.perm_insertionSort (fun a b : Segment => a.index ≤ b.index)
    (parameters.filterMap (segmentOf lib baseName))
  have hsorted := List.pairwise_insertionSort (fun a b : Segment => a.index ≤ b.index)
    (parameters.filterMap (segmentOf lib baseName))
  have hsorted' := hsorted.and ((List.Perm.pairwise_iff Ne.symm hsort).mpr hdistinct)
  refine (hsort.trans hsegments).eq_of_pairwise ?_
    (hsorted'.imp fun hab => Nat.lt_of_le_of_ne hab.1 hab.2) hstrict
  intro a b _ _ hab hba
  exact absurd hab hba.asymm

/-- A label under which the library decodes UTF-8. -/
def LabelsUtf8 (lib : HeaderLibrary) (label : PyText) : Prop :=
  ∀ bytes, lib.decode label bytes = lib.decode utf8Label bytes

theorem reads_utf8 (h : lib.Lawful) {charset : PyText} (hlabel : LabelsUtf8 lib (charsetLabel charset))
    {bytes : List UInt8} {text : PyText} :
    Reads lib charset bytes text ↔ text = Utf8.decodeReplace bytes := by
  rw [Reads,hlabel,h.decode_utf8]
  cases hstrict : Utf8.decodeStrict bytes with
  | some decoded =>
    rw [Utf8.decodeReplace_of_strict hstrict]
    constructor
    · rintro (hok | ⟨e,herror,-⟩)
      · exact (Except.ok.inj hok).symm
      · cases herror
    · rintro rfl
      exact .inl rfl
  | none =>
    constructor
    · rintro (hok | ⟨-,-,-,htext⟩)
      · cases hok
      · exact htext
    · intro htext
      exact .inr ⟨_,rfl,rfl,htext⟩

theorem cutApostrophe_plain {octets : List Octet} (h : ∀ o ∈ octets, o.isApostrophe = false) :
    cutApostrophe octets = (octets,none) := by
  induction octets with
  | nil => rfl
  | cons o octets ih =>
    rw [cutApostrophe,h o List.mem_cons_self,ih fun p hp => h p (List.mem_cons_of_mem o hp)]
    rfl

/-- A name in UTF-8 whose later segments have no apostrophe that is not percent-encoded. -/
structure Continuation.InUtf8 (lib : HeaderLibrary) (c : Continuation) (name : PyText) : Prop where
  label : LabelsUtf8 lib (charsetLabel c.charset)
  bytes : c.bytes = Utf8.encode name
  name : ∀ ch ∈ name, Utf8.isSurrogate ch = false
  rest : ∀ octets ∈ c.rest, ∀ o ∈ octets, o.isApostrophe = false

theorem spellsApart_utf8 (h : lib.Lawful) {c : Continuation} {name : PyText}
    (hutf8 : c.InUtf8 lib name) : c.SpellsApart lib name ↔
      (((c.first :: c.rest).map octetsBytes).map Utf8.decodeReplace).flatten = name := by
  have hlabel : LabelsUtf8 lib (charsetLabel utf8Label) := fun _ => rfl
  have hlater : ∀ parts : List PyText, List.Forall₂ (fun octets part =>
      Reads lib (laterReading octets).1 (laterReading octets).2 part) c.rest parts ↔
      parts = (c.rest.map octetsBytes).map Utf8.decodeReplace := by
    have hrest := hutf8.rest
    generalize c.rest = rest at hrest
    induction rest with
    | nil =>
      intro parts
      exact List.forall₂_nil_left_iff
    | cons octets rest ih =>
      have hread : laterReading octets = (utf8Label,octetsBytes octets) := by
        rw [laterReading,cutApostrophe_plain (hrest octets List.mem_cons_self)]
      have ih := ih fun o ho => hrest o (List.mem_cons_of_mem octets ho)
      intro parts
      rw [List.forall₂_cons_left_iff]
      simp only [hread,reads_utf8 h hlabel,ih,List.map_cons]
      constructor
      · rintro ⟨part,parts,rfl,rfl,rfl⟩
        rfl
      · rintro rfl
        exact ⟨_,_,rfl,rfl,rfl⟩
  rw [Continuation.SpellsApart]
  simp only [hlater,reads_utf8 h hutf8.label,List.map_cons,List.flatten_cons]
  constructor
  · rintro ⟨part,parts,rfl,rfl,rfl⟩
    rfl
  · rintro rfl
    exact ⟨_,_,rfl,rfl,rfl⟩

section
variable {letters : List Char} {c : Continuation} {parameters others : List (PyText × PyText)}
  {name : PyText}

theorem filenameFromParameters_segments (h : lib.Lawful) (hne : letters ≠ [])
    (hletters : ∀ ch ∈ letters, ch.isLower = true)
    (hperm : parameters.Perm (c.parameters (pyText letters) ++ others))
    (hothers : ∀ p ∈ others, segmentOf lib (pyText letters) p = none ∧
      p.1 ≠ pyText letters ++ [CodePoint.ofChar '*']) :
    filenameFromParameters lib parameters (pyText letters) =
      (joinSegments lib 0 c.segments >>= fun joined =>
        pure (if joined = [] then none else some joined)) := by
  have hbase := h.baseName hne hletters
  have hextended : parameters.lookup (pyText letters ++ [CodePoint.ofChar '*']) = none := by
    rw [List.lookup_eq_none_iff]
    intro p hp
    rw [bne_iff_ne]
    rcases List.mem_append.mp (hperm.mem_iff.mp hp) with hp | hp
    · obtain ⟨segment,-,rfl⟩ := List.mem_map.mp hp
      intro heq
      have hlength := congrArg List.length heq
      have hpos := Nat.length_toDigits_pos (b := 10) (n := segment.index)
      simp only [segmentName,pyText,List.length_append,List.length_cons,List.length_map,
        List.length_nil] at hlength
      omega
    · exact (hothers p hp).2.symm
  rw [filenameFromParameters,hextended]
  simp only [sorted_segments h hbase hperm fun p hp => (hothers p hp).1]
  rfl

/-- Each segment is decoded by itself, and only the first one in the charset. -/
theorem filenameFromParameters_iff (h : lib.Lawful) (hne : letters ≠ [])
    (hletters : ∀ ch ∈ letters, ch.isLower = true)
    (hperm : parameters.Perm (c.parameters (pyText letters) ++ others))
    (hothers : ∀ p ∈ others, segmentOf lib (pyText letters) p = none ∧
      p.1 ≠ pyText letters ++ [CodePoint.ofChar '*'])
    (hname : name ≠ []) (hbytes : lib.decode (charsetLabel c.charset) c.bytes = .ok name) :
    (filenameFromParameters lib parameters (pyText letters) = .ok (some name) ↔
      c.SpellsApart lib name) ∧
    (c.rest = [] →
      filenameFromParameters lib parameters (pyText letters) = .ok (some name)) ∧
    (c.InUtf8 lib name →
      (filenameFromParameters lib parameters (pyText letters) = .ok (some name) ↔
        ∀ octets ∈ c.first :: c.rest, Utf8.Whole (octetsBytes octets))) := by
  have hiff : filenameFromParameters lib parameters (pyText letters) = .ok (some name) ↔
      c.SpellsApart lib name := by
    rw [filenameFromParameters_segments h hne hletters hperm hothers,Except.bind_eq_ok_iff]
    constructor
    · rintro ⟨joined,hjoined,hresult⟩
      have hresult := Except.ok.inj hresult
      by_cases hnil : joined = []
      · rw [if_pos hnil] at hresult
        cases hresult
      · rw [if_neg hnil] at hresult
        cases hresult
        exact (joinSegments_segments lib).mp hjoined
    · intro happart
      refine ⟨name,(joinSegments_segments lib).mpr happart,?_⟩
      rw [if_neg hname]
      rfl
  refine ⟨hiff,fun hrest => hiff.mpr ?_,fun hutf8 => hiff.trans ?_⟩
  · have hfirst : c.bytes = octetsBytes c.first := by simp [Continuation.bytes,hrest]
    rw [hfirst] at hbytes
    refine ⟨name,[],(List.append_nil name).symm,.inl hbytes,?_⟩
    rw [hrest]
    exact .nil
  · rw [spellsApart_utf8 h hutf8,Utf8.decodeReplace_pieces hutf8.name hutf8.bytes.symm]
    simp

end

end

def octetOf (b : UInt8) : Octet := ⟨b,some (true,true),nofun⟩

/-- The file name `é`, cut between its two bytes. -/
def cutName : Continuation :=
  ⟨utf8Label,[],[octetOf 0xc3],[[octetOf 0xa9]],by decide,by decide⟩

/-- The file name `éa` in two segments. -/
def wholeName : Continuation :=
  ⟨utf8Label,[],[octetOf 0xc3,octetOf 0xa9],[[octetOf 0x61]],by decide,by decide⟩

theorem filenameFromParameters_reversed :
    filenameFromParameters plainLibrary (wholeName.parameters (pyText "filename".toList)).reverse
      (pyText "filename".toList) = .ok (some (pyText "éa".toList)) := by
  have hname : (pyText "éa".toList).all (fun ch => !Utf8.isSurrogate ch) = true := by
    decide
  have hwhole : ∀ octets ∈ wholeName.first :: wholeName.rest,
      ∀ b ∈ (octetsBytes octets).head?, Utf8.isContinuation b = false := by decide
  have hperm : (wholeName.parameters (pyText "filename".toList)).reverse.Perm
      (wholeName.parameters (pyText "filename".toList) ++ []) := by
    rw [List.append_nil]
    exact List.reverse_perm _
  refine ((filenameFromParameters_iff plainLibrary_lawful (by decide) (by decide) hperm
    (fun _ hp => absurd hp List.not_mem_nil) (by decide) (by decide)).2.2
      ⟨fun _ => rfl,?_,fun ch hch => ?_,?_⟩).mpr hwhole
  · decide
  · simpa using List.all_eq_true.mp hname ch hch
  · decide

theorem filenameFromParameters_cut :
    plainLibrary.decode (charsetLabel cutName.charset) cutName.bytes =
      .ok (pyText "é".toList) ∧
    cutName.parameters (pyText "filename".toList) =
      [(pyText "filename*0*".toList,pyText "utf-8''%C3".toList),
        (pyText "filename*1*".toList,pyText "%A9".toList)] ∧
    filenameFromParameters plainLibrary (cutName.parameters (pyText "filename".toList))
      (pyText "filename".toList) = .ok (some (pyText "\uFFFD\uFFFD".toList)) := by
  refine ⟨?_,?_,?_⟩ <;> decide

end Headers

end MailDock
