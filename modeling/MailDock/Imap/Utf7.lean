import MailDock.Imap.Fetch
import Mathlib.Data.List.DropRight

/-!
# Modified UTF-7

`encode_modified_utf7` of `imap_common.py`, and that its decoder undoes it.  A run of
characters outside printable ASCII becomes one shift sequence: UTF-16, then base64 without
padding.  Each of these layers has its own inverse, and the decoder takes a shift sequence
off the text because no character of a token is the hyphen that closes it.

## Main definitions

- `encodeModifiedUtf7` — the encoder, with the run of characters that is still to be flushed
- `shiftToken` — what stands between the ampersand and the hyphen

## Main results

- `decodeShifted_token` — a token stands for the run it was made from
- `encodeModifiedUtf7_roundTrip` — every text comes back, through printable ASCII
-/

namespace MailDock

/-! ## UTF-16 -/

/-- `str.encode("utf-16-be")`. -/
def encodeUtf16be : List Char → List Nat
  | [] => []
  | c :: text =>
    if c.toNat < 0x10000 then c.toNat / 256 :: c.toNat % 256 :: encodeUtf16be text
    else
      let high := 0xd800 + (c.toNat - 0x10000) / 1024
      let low := 0xdc00 + (c.toNat - 0x10000) % 1024
      high / 256 :: high % 256 :: low / 256 :: low % 256 :: encodeUtf16be text

/-- A character is a scalar value: no surrogate, and at most seventeen planes. -/
theorem char_scalar (c : Char) : c.toNat < 0xd800 ∨ 0xdfff < c.toNat ∧ c.toNat < 0x110000 := by
  have hvalid := c.valid
  simp only [UInt32.isValidChar,Nat.isValidChar] at hvalid
  exact hvalid

theorem encodeUtf16be_lt (text : List Char) : ∀ b ∈ encodeUtf16be text, b < 256 := by
  induction text with
  | nil => simp [encodeUtf16be]
  | cons c text ih =>
    have hc := char_scalar c
    intro b hb
    unfold encodeUtf16be at hb
    split at hb
    · simp only [List.mem_cons] at hb
      rcases hb with rfl | rfl | hb
      · omega
      · omega
      · exact ih b hb
    · simp only [List.mem_cons] at hb
      rcases hb with hb | hb | hb | hb | hb
      · omega
      · omega
      · omega
      · omega
      · exact ih b hb

theorem encodeUtf16be_ne_nil {text : List Char} (h : text ≠ []) : encodeUtf16be text ≠ [] := by
  cases text with
  | nil => exact absurd rfl h
  | cons c text =>
    unfold encodeUtf16be
    split
    · simp
    · simp

/-- A unit that is no surrogate is a character. -/
theorem decodeUtf16be_unit {hi lo : Nat} (rest : List Nat)
    (h : 256 * hi + lo < 0xd800 ∨ 0xdfff < 256 * hi + lo) :
    decodeUtf16be (hi :: lo :: rest) =
      (decodeUtf16be rest).map (Char.ofNat (256 * hi + lo) :: ·) := by
  conv => lhs; unfold decodeUtf16be
  exact if_pos h

/-- A surrogate pair is read as the character it was made from. -/
theorem decodeUtf16be_encode (text : List Char) :
    decodeUtf16be (encodeUtf16be text) = some text := by
  induction text with
  | nil => rfl
  | cons c text ih =>
    have hc := char_scalar c
    unfold encodeUtf16be
    split
    · -- one unit
      have hunit : 256 * (c.toNat / 256) + c.toNat % 256 = c.toNat := by omega
      rw [decodeUtf16be_unit _ (by omega),hunit,ih]
      simp
    · -- a pair
      have hhigh : 256 * ((0xd800 + (c.toNat - 0x10000) / 1024) / 256) +
          (0xd800 + (c.toNat - 0x10000) / 1024) % 256 =
            0xd800 + (c.toNat - 0x10000) / 1024 := by omega
      have hlow : 256 * ((0xdc00 + (c.toNat - 0x10000) % 1024) / 256) +
          (0xdc00 + (c.toNat - 0x10000) % 1024) % 256 =
            0xdc00 + (c.toNat - 0x10000) % 1024 := by omega
      have hback : 0x10000 + 1024 * (0xd800 + (c.toNat - 0x10000) / 1024 - 0xd800) +
          (0xdc00 + (c.toNat - 0x10000) % 1024 - 0xdc00) = c.toNat := by omega
      rw [decodeUtf16be]
      simp only [hhigh,hlow,hback,ih]
      rw [if_neg (by omega),if_neg (by omega),if_pos (by omega)]
      simp

/-! ## Base64 -/

/-- The alphabet of `base64.b64encode`. -/
def base64Digit (v : Nat) : Char :=
  if v < 26 then Char.ofNat (v + 65)
  else if v < 52 then Char.ofNat (v + 71)
  else if v < 62 then Char.ofNat (v - 4)
  else if v = 62 then '+'
  else '/'

/-- The sextets of bytes; the last one is filled up with zero bits. -/
def sextets : List Nat → List Nat
  | a :: b :: c :: rest =>
    a / 4 :: (16 * (a % 4) + b / 16) :: (4 * (b % 16) + c / 64) :: c % 64 :: sextets rest
  | [a,b] => [a / 4,16 * (a % 4) + b / 16,4 * (b % 16)]
  | [a] => [a / 4,16 * (a % 4)]
  | [] => []

/-- `base64.b64encode`. -/
def b64encode (raw : List Nat) : List Char :=
  (sextets raw).map base64Digit ++ List.replicate ((3 - raw.length % 3) % 3) '='

/-- What the decoder and the printer need to know of a digit. -/
theorem base64Digit_spec : ∀ v < 64,base64Value (base64Digit v) = some v ∧ base64Digit v ≠ '=' ∧
    base64Digit v ≠ ',' ∧ base64Digit v ≠ '-' ∧ 0x20 ≤ (base64Digit v).toNat ∧
      (base64Digit v).toNat ≤ 0x7e := by
  decide

theorem sextets_lt (raw : List Nat) (h : ∀ b ∈ raw, b < 256) : ∀ v ∈ sextets raw, v < 64 := by
  induction raw using sextets.induct with
  | case1 a b c rest ih =>
    simp only [List.mem_cons,forall_eq_or_imp] at h
    have hrest := ih h.2.2.2
    simp only [sextets,List.mem_cons,forall_eq_or_imp]
    refine ⟨?_,?_,?_,?_,hrest⟩
    · omega
    · omega
    · omega
    · omega
  | case2 a b =>
    simp only [List.mem_cons,forall_eq_or_imp] at h
    simp only [sextets,List.mem_cons,forall_eq_or_imp,List.not_mem_nil,false_imp_iff,implies_true,
      and_true]
    omega
  | case3 a =>
    simp only [List.mem_cons,forall_eq_or_imp] at h
    simp only [sextets,List.mem_cons,forall_eq_or_imp,List.not_mem_nil,false_imp_iff,implies_true,
      and_true]
    omega
  | case4 => simp [sextets]

theorem sextetBytes_sextets (raw : List Nat) (h : ∀ b ∈ raw, b < 256) :
    sextetBytes (sextets raw) = raw := by
  induction raw using sextets.induct with
  | case1 a b c rest ih =>
    simp only [List.mem_cons,forall_eq_or_imp] at h
    have ha : 4 * (a / 4) + (16 * (a % 4) + b / 16) / 16 = a := by omega
    have hb : 16 * ((16 * (a % 4) + b / 16) % 16) + (4 * (b % 16) + c / 64) / 4 = b := by omega
    have hc : 64 * ((4 * (b % 16) + c / 64) % 4) + c % 64 = c := by omega
    simp only [sextets,sextetBytes,ha,hb,hc,ih h.2.2.2]
  | case2 a b =>
    simp only [List.mem_cons,forall_eq_or_imp] at h
    have ha : 4 * (a / 4) + (16 * (a % 4) + b / 16) / 16 = a := by omega
    have hb : 16 * ((16 * (a % 4) + b / 16) % 16) + 4 * (b % 16) / 4 = b := by omega
    simp only [sextets,sextetBytes,ha,hb]
  | case3 a =>
    have ha : 4 * (a / 4) + 16 * (a % 4) / 16 = a := by omega
    simp only [sextets,sextetBytes,ha]
  | case4 => rfl

/-- A whole number of bytes never leaves a single digit over. -/
theorem sextets_length (raw : List Nat) : (sextets raw).length % 4 ≠ 1 := by
  induction raw using sextets.induct with
  | case1 a b c rest ih =>
    simp only [sextets,List.length_cons]
    omega
  | case2 a b => simp [sextets]
  | case3 a => simp [sextets]
  | case4 => simp [sextets]

theorem mapM_base64Value {data : List Nat} (h : ∀ v ∈ data, v < 64) :
    (data.map base64Digit).mapM base64Value = some data := by
  induction data with
  | nil => rfl
  | cons v data ih =>
    simp only [List.mem_cons,forall_eq_or_imp] at h
    rw [List.map_cons,List.mapM_cons,(base64Digit_spec v h.1).1,ih h.2]
    rfl

theorem takeWhile_padding {data : List Char} (h : ∀ c ∈ data, c ≠ '=') (n : Nat) :
    (data ++ List.replicate n '=').takeWhile (· ≠ '=') = data ∧
      (data ++ List.replicate n '=').dropWhile (· ≠ '=') = List.replicate n '=' := by
  induction data with
  | nil =>
    cases n with
    | zero => simp
    | succ n => simp [List.replicate_succ]
  | cons c data ih =>
    simp only [List.mem_cons,forall_eq_or_imp] at h
    obtain ⟨htake,hdrop⟩ := ih h.2
    exact ⟨by rw [List.cons_append,List.takeWhile_cons_of_pos (by simpa using h.1),htake],
      by rw [List.cons_append,List.dropWhile_cons_of_pos (by simpa using h.1),hdrop]⟩

/-- Data without its padding is read back when the padding is put on again. -/
theorem b64decode_sextets {raw : List Nat} (h : ∀ b ∈ raw, b < 256) :
    b64decode ((sextets raw).map base64Digit ++
      List.replicate ((4 - ((sextets raw).map base64Digit).length % 4) % 4) '=') = some raw := by
  have hlt := sextets_lt raw h
  have hdata : ∀ c ∈ (sextets raw).map base64Digit, c ≠ '=' := by
    intro c hc
    obtain ⟨v,hv,rfl⟩ := List.mem_map.mp hc
    exact (base64Digit_spec v (hlt v hv)).2.1
  have hlength := sextets_length raw
  obtain ⟨htake,hdrop⟩ := takeWhile_padding hdata
    ((4 - ((sextets raw).map base64Digit).length % 4) % 4)
  simp only [b64decode,htake,hdrop,mapM_base64Value hlt,Option.bind_eq_bind,Option.bind_some]
  rw [if_pos]
  · rw [sextetBytes_sextets raw h]
  · simp [hlength]

/-! ## Tokens -/

/-- `base64.b64encode(raw).decode("ascii").rstrip("=").replace("/",",")`. -/
def shiftToken (nonAscii : List Char) : List Char :=
  ((b64encode (encodeUtf16be nonAscii)).rdropWhile (· == '=')).map
    fun c => if c = '/' then ',' else c

theorem rdropWhile_padding {data : List Char} (h : ∀ c ∈ data, c ≠ '=') (n : Nat) :
    (data ++ List.replicate n '=').rdropWhile (· == '=') = data := by
  induction n with
  | zero =>
    rw [List.replicate_zero,List.append_nil,List.rdropWhile_eq_self_iff]
    intro hne
    simpa using h _ (List.getLast_mem hne)
  | succ n ih =>
    rw [List.replicate_succ',← List.append_assoc,List.rdropWhile_concat_pos _ _ _ (by simp),ih]

/-- A token is the digits of its run, with the slash written as a comma. -/
theorem shiftToken_eq (nonAscii : List Char) :
    shiftToken nonAscii = ((sextets (encodeUtf16be nonAscii)).map base64Digit).map
      fun c => if c = '/' then ',' else c := by
  have hlt := sextets_lt _ (encodeUtf16be_lt nonAscii)
  unfold shiftToken b64encode
  rw [rdropWhile_padding]
  intro c hc
  obtain ⟨v,hv,rfl⟩ := List.mem_map.mp hc
  exact (base64Digit_spec v (hlt v hv)).2.1

theorem mem_shiftToken {nonAscii : List Char} {c : Char} (h : c ∈ shiftToken nonAscii) :
    c ≠ '-' ∧ 0x20 ≤ c.toNat ∧ c.toNat ≤ 0x7e := by
  rw [shiftToken_eq,List.map_map] at h
  obtain ⟨v,hv,rfl⟩ := List.mem_map.mp h
  obtain ⟨-,-,-,hhyphen,hprintable⟩ :=
    base64Digit_spec v (sextets_lt _ (encodeUtf16be_lt nonAscii) v hv)
  simp only [Function.comp_apply]
  split
  · decide
  · exact ⟨hhyphen,hprintable⟩

theorem shiftToken_ne_nil {nonAscii : List Char} (h : nonAscii ≠ []) : shiftToken nonAscii ≠ [] := by
  have hraw := encodeUtf16be_ne_nil h
  have hsextets : sextets (encodeUtf16be nonAscii) ≠ [] := by
    generalize encodeUtf16be nonAscii = raw at hraw
    cases raw using sextets.induct with
    | case1 a b c rest => simp [sextets]
    | case2 a b => simp [sextets]
    | case3 a => simp [sextets]
    | case4 => exact absurd rfl hraw
  rw [shiftToken_eq]
  simpa using hsextets

/-- A token stands for the run it was made from. -/
theorem decodeShifted_token {nonAscii : List Char} (h : nonAscii ≠ []) :
    decodeShifted (shiftToken nonAscii) = some nonAscii := by
  have hlt := sextets_lt _ (encodeUtf16be_lt nonAscii)
  have hback : (shiftToken nonAscii).map (fun c => if c = ',' then '/' else c) =
      (sextets (encodeUtf16be nonAscii)).map base64Digit := by
    rw [shiftToken_eq,List.map_map,List.map_map]
    refine List.map_congr_left fun v hv => ?_
    have hcomma := (base64Digit_spec v (hlt v hv)).2.2.1
    by_cases hslash : base64Digit v = '/'
    · simp [hslash]
    · simp [hslash,hcomma]
  unfold decodeShifted
  rw [if_neg (by simpa using shiftToken_ne_nil h)]
  simp only [hback]
  rw [b64decode_sextets (encodeUtf16be_lt nonAscii),Option.bind_some,decodeUtf16be_encode]

/-! ## Names -/

/-- `flush_non_ascii`. -/
def flushNonAscii (nonAscii : List Char) : List Char :=
  if nonAscii.isEmpty then [] else '&' :: (shiftToken nonAscii ++ ['-'])

/-- `encode_modified_utf7`; the first argument is the run that has not been flushed. -/
def encodeModifiedUtf7 : List Char → List Char → List Char
  | nonAscii,[] => flushNonAscii nonAscii
  | nonAscii,c :: text =>
    if 0x20 ≤ c.toNat ∧ c.toNat ≤ 0x7e ∧ c ≠ '&' then
      flushNonAscii nonAscii ++ c :: encodeModifiedUtf7 [] text
    else if c = '&' then flushNonAscii nonAscii ++ '&' :: '-' :: encodeModifiedUtf7 [] text
    else encodeModifiedUtf7 (nonAscii ++ [c]) text

/-- The decoder reads a token up to its hyphen. -/
theorem decodeModifiedUtf7_token (token : List Char) (h : ∀ c ∈ token, c ≠ '-')
    (rest : List Char) (front : List Char) :
    decodeModifiedUtf7 (some front) (token ++ '-' :: rest) =
      (decodeShifted (front ++ token)).bind fun decoded =>
        (decodeModifiedUtf7 none rest).map (decoded ++ ·) := by
  induction token generalizing front with
  | nil =>
    rw [List.nil_append,List.append_nil,decodeModifiedUtf7,if_pos rfl]
    cases decodeShifted front with
    | none => rfl
    | some decoded =>
      cases decodeModifiedUtf7 none rest with
      | none => rfl
      | some tail => rfl
  | cons c token ih =>
    simp only [List.mem_cons,forall_eq_or_imp] at h
    rw [List.cons_append,decodeModifiedUtf7,if_neg h.1,ih h.2,List.append_assoc,
      List.singleton_append]

theorem decodeModifiedUtf7_flush (nonAscii rest : List Char) :
    decodeModifiedUtf7 none (flushNonAscii nonAscii ++ rest) =
      (decodeModifiedUtf7 none rest).map (nonAscii ++ ·) := by
  by_cases hempty : nonAscii = []
  · subst hempty
    simp [flushNonAscii]
  · have hhyphen : ∀ c ∈ shiftToken nonAscii, c ≠ '-' := fun c hc => (mem_shiftToken hc).1
    rw [flushNonAscii,if_neg (by simpa using hempty),List.cons_append,List.append_assoc,
      List.singleton_append,decodeModifiedUtf7,if_pos rfl,decodeModifiedUtf7_token _ hhyphen,
      List.nil_append,decodeShifted_token hempty,Option.bind_some]

theorem mem_flushNonAscii {nonAscii : List Char} {c : Char} (h : c ∈ flushNonAscii nonAscii) :
    0x20 ≤ c.toNat ∧ c.toNat ≤ 0x7e := by
  unfold flushNonAscii at h
  split at h
  · cases h
  · rcases List.mem_cons.mp h with rfl | h
    · decide
    · rcases List.mem_append.mp h with h | h
      · exact (mem_shiftToken h).2
      · rw [List.mem_singleton.mp h]
        decide

theorem decodeModifiedUtf7_encode (text nonAscii : List Char) :
    decodeModifiedUtf7 none (encodeModifiedUtf7 nonAscii text) = some (nonAscii ++ text) := by
  induction text generalizing nonAscii with
  | nil =>
    rw [encodeModifiedUtf7,← List.append_nil (flushNonAscii nonAscii),decodeModifiedUtf7_flush]
    rfl
  | cons c text ih =>
    unfold encodeModifiedUtf7
    split
    · next hdirect =>
      rw [decodeModifiedUtf7_flush,decodeModifiedUtf7,if_neg hdirect.2.2,ih]
      rfl
    · split
      · next hampersand =>
        -- the empty token stands for the ampersand
        rw [decodeModifiedUtf7_flush,decodeModifiedUtf7,if_pos rfl,decodeModifiedUtf7,if_pos rfl,
          ih,hampersand]
        rfl
      · rw [ih,List.append_assoc,List.singleton_append]

theorem mem_encodeModifiedUtf7 (text nonAscii : List Char) :
    ∀ c ∈ encodeModifiedUtf7 nonAscii text, 0x20 ≤ c.toNat ∧ c.toNat ≤ 0x7e := by
  induction text generalizing nonAscii with
  | nil => exact fun c hc => mem_flushNonAscii hc
  | cons d text ih =>
    unfold encodeModifiedUtf7
    intro c hc
    split at hc
    · next hdirect =>
      rcases List.mem_append.mp hc with hflush | htail
      · exact mem_flushNonAscii hflush
      · rcases List.mem_cons.mp htail with rfl | hrest
        · exact ⟨hdirect.1,hdirect.2.1⟩
        · exact ih [] c hrest
    · split at hc
      · simp only [List.mem_append,List.mem_cons] at hc
        rcases hc with hflush | rfl | rfl | hrest
        · exact mem_flushNonAscii hflush
        · decide
        · decide
        · exact ih [] c hrest
      · exact ih (nonAscii ++ [d]) c hc

/-- Every text comes back from its encoding, and the encoding is printable ASCII. -/
theorem encodeModifiedUtf7_roundTrip (value : List Char) :
    decodeModifiedUtf7 none (encodeModifiedUtf7 [] value) = some value ∧
      ∀ c ∈ encodeModifiedUtf7 [] value, 0x20 ≤ c.toNat ∧ c.toNat ≤ 0x7e :=
  ⟨decodeModifiedUtf7_encode value [],mem_encodeModifiedUtf7 value []⟩

example : encodeModifiedUtf7 [] ['A',Char.ofNat 233,'&'] = "A&AOk-&-".toList := by decide

end MailDock
