import Mathlib.Algebra.GroupWithZero.Nat
import Mathlib.Data.List.Infix
import Mathlib.Data.List.TakeWhile

/-!
# Checksummed lines

`zlib.crc32`, its eight hexadecimal digits, and the two ways to take such a suffix off
a line: a pattern at its end, and a split at the last occurrence of a separator with
`int(…, 16)` of what follows.
-/

namespace Checksum

abbrev Bytes := List UInt8

def crcBit (crc : UInt32) : UInt32 :=
  if crc &&& 1 = 1 then (crc >>> 1) ^^^ 0xEDB88320 else crc >>> 1

def crcByte (crc : UInt32) (b : UInt8) : UInt32 :=
  Nat.repeat crcBit 8 (crc ^^^ b.toUInt32)

/-- `zlib.crc32`. -/
def crc32 (bytes : Bytes) : UInt32 :=
  bytes.foldl crcByte 0xFFFFFFFF ^^^ 0xFFFFFFFF

def hexByte (n : Nat) : UInt8 :=
  if n < 10 then UInt8.ofNat (0x30 + n) else UInt8.ofNat (0x57 + n)

/-- `format(n, "08x")`. -/
def hex8 (n : Nat) : Bytes :=
  [7,6,5,4,3,2,1,0].map fun i => hexByte (n / 16 ^ i % 16)

def hexDigit (b : UInt8) : Option Nat :=
  if 0x30 ≤ b ∧ b ≤ 0x39 then some (b.toNat - 0x30)
  else if 0x61 ≤ b ∧ b ≤ 0x66 then some (b.toNat - 0x57)
  else if 0x41 ≤ b ∧ b ≤ 0x46 then some (b.toNat - 0x37)
  else none

def isHexDigit (b : UInt8) : Bool := (hexDigit b).isSome

/-- The number the digits stand for; other bytes are passed over. -/
def hexNumber (digits : Bytes) : Nat :=
  digits.foldl (fun n b =>
    match hexDigit b with
    | some d => n * 16 + d
    | none => n) 0

/-- `re.compile(separator + "([0-9a-fA-F]{8})$").search`: what stands before the match and the
number its digits give.  `$` matches before a final line feed too. -/
def searchSuffix (separator content : Bytes) : Option (Bytes × Nat) :=
  let content := if content.getLast? = some 0x0A then content.dropLast else content
  let start := content.length - (separator.length + 8)
  let digits := content.drop (start + separator.length)
  if content = content.take start ++ separator ++ digits ∧ digits.length = 8 ∧
      digits.all isHexDigit then
    some (content.take start,hexNumber digits)
  else none

/-- `bytes.rpartition`; `none` when the separator does not occur. -/
def rpartition (separator : Bytes) : Bytes → Option (Bytes × Bytes)
  | [] => none
  | c :: cs =>
    match rpartition separator cs with
    | some (before,after) => some (c :: before,after)
    | none =>
      if separator <+: c :: cs then some ([],(c :: cs).drop separator.length) else none

/-- `Py_ISSPACE`. -/
def isSpace (b : UInt8) : Bool :=
  b = 0x20 || (0x09 ≤ b && b ≤ 0x0D)

def stripSign : Bytes → Bool × Bytes
  | 0x2B :: bs => (false,bs)
  | 0x2D :: bs => (true,bs)
  | bs => (false,bs)

/-- `0x` or `0X` and one underscore after it. -/
def stripHexPrefix : Bytes → Bytes
  | 0x30 :: x :: bs =>
    if x = 0x78 ∨ x = 0x58 then
      if bs.head? = some 0x5F then bs.tail else bs
    else 0x30 :: x :: bs
  | bs => bs

/-- Single underscores may stand between digits. -/
def groupedDigits (digits : Bytes) : Bool :=
  decide (digits ≠ [] ∧ digits.head? ≠ some 0x5F ∧ digits.getLast? ≠ some 0x5F ∧
    ¬ [0x5F,0x5F] <:+: digits)

/-- `int(bytes, 16)`; `none` is its `ValueError`. -/
def intBase16 (bytes : Bytes) : Option Int :=
  let signed := stripSign (bytes.dropWhile isSpace)
  let number := stripHexPrefix signed.2
  let digits := number.takeWhile fun b => isHexDigit b || b = 0x5F
  let after := number.dropWhile fun b => isHexDigit b || b = 0x5F
  if groupedDigits digits && after.all isSpace then
    some (if signed.1 then -(hexNumber digits : Int) else hexNumber digits)
  else none

/-! ## The suffix of a written line -/

variable {separator payload : Bytes} {n : Nat}

theorem hexDigit_hexByte {d : Nat} (hd : d < 16) : hexDigit (hexByte d) = some d := by
  revert d
  decide

theorem length_hex8 : (hex8 n).length = 8 := rfl

theorem mem_hex8 {b : UInt8} (h : b ∈ hex8 n) : ∃ d < 16, b = hexByte d := by
  obtain ⟨i,-,rfl⟩ := List.mem_map.mp h
  exact ⟨_,Nat.mod_lt _ (by decide),rfl⟩

theorem isHexDigit_of_mem {b : UInt8} (h : b ∈ hex8 n) : isHexDigit b = true := by
  obtain ⟨d,hd,rfl⟩ := mem_hex8 h
  rw [isHexDigit,hexDigit_hexByte hd]
  rfl

theorem hexNumber_hex8 (hn : n < 2 ^ 32) : hexNumber (hex8 n) = n := by
  have hdigit : ∀ i, hexDigit (hexByte (n / 16 ^ i % 16)) = some (n / 16 ^ i % 16) := fun i =>
    hexDigit_hexByte (Nat.mod_lt _ (by decide))
  -- Horner's scheme: the digits read so far are what is left of the number without the others
  have hnext : ∀ i, n / 16 ^ (i + 1) * 16 + n / 16 ^ i % 16 = n / 16 ^ i := by
    intro i
    rw [Nat.pow_succ,← Nat.div_div_eq_div_mul]
    exact Nat.div_add_mod' _ _
  have hfirst : 0 * 16 + n / 16 ^ 7 % 16 = n / 16 ^ 7 := by
    have hnone : n / 16 ^ 8 = 0 := Nat.div_eq_of_lt hn
    have hlast := hnext 7
    rwa [hnone] at hlast
  simp only [hexNumber,hex8,List.map_cons,List.map_nil,List.foldl_cons,List.foldl_nil,hdigit]
  rw [hfirst,hnext 6,hnext 5,hnext 4,hnext 3,hnext 2,hnext 1,hnext 0,Nat.pow_zero,Nat.div_one]

/-- The pattern finds the suffix that was written. -/
theorem searchSuffix_hex8 (hn : n < 2 ^ 32) :
    searchSuffix separator (payload ++ separator ++ hex8 n) = some (payload,n) := by
  have hlast : (payload ++ separator ++ hex8 n).getLast? ≠ some 0x0A := by
    intro h
    have hne : hex8 n ≠ [] := List.cons_ne_nil _ _
    rw [List.getLast?_append_of_ne_nil _ hne] at h
    have hdigit := isHexDigit_of_mem (List.mem_of_getLast? h)
    exact absurd hdigit (by decide)
  have hstart : (payload ++ separator ++ hex8 n).length - (separator.length + 8) =
      payload.length := by
    simp only [List.length_append,length_hex8]
    omega
  have htake : (payload ++ separator ++ hex8 n).take payload.length = payload := by
    rw [List.append_assoc]
    exact List.take_left
  have hdrop : (payload ++ separator ++ hex8 n).drop (payload.length + separator.length) =
      hex8 n := by
    rw [← List.length_append]
    exact List.drop_left
  have hall : (hex8 n).all isHexDigit = true :=
    List.all_eq_true.mpr fun b hb => isHexDigit_of_mem hb
  rw [searchSuffix,if_neg hlast]
  simp only [hstart,htake,hdrop,length_hex8,hall,and_self,if_true,hexNumber_hex8 hn]

/-- A separator whose first byte is missing does not occur. -/
theorem rpartition_eq_none {b : UInt8} {bs content : Bytes} (h : b ∉ content) :
    rpartition (b :: bs) content = none := by
  induction content with
  | nil => rfl
  | cons c cs ih =>
    rw [rpartition,ih fun hmem => h (List.mem_cons_of_mem c hmem)]
    dsimp only
    rw [if_neg]
    intro hpre
    exact h ((List.cons_prefix_cons.mp hpre).1 ▸ List.mem_cons_self)

/-- The last separator is the one that was written. -/
theorem rpartition_append {b : UInt8} {bs after : Bytes} (h : b ∉ bs ++ after) :
    rpartition (b :: bs) (payload ++ (b :: bs) ++ after) = some (payload,after) := by
  induction payload with
  | nil =>
    rw [List.nil_append,List.cons_append,rpartition,rpartition_eq_none h]
    dsimp only
    rw [if_pos ⟨after,rfl⟩]
    simp
  | cons c cs ih =>
    rw [List.cons_append,List.cons_append,rpartition,ih]

theorem groupedDigits_hex8 : groupedDigits (hex8 n) = true := by
  have hscore : (0x5F : UInt8) ∉ hex8 n := fun h => absurd (isHexDigit_of_mem h) (by decide)
  refine decide_eq_true ⟨List.cons_ne_nil _ _,?_,?_,?_⟩
  · exact fun h => hscore (List.mem_of_mem_head? h)
  · exact fun h => hscore (List.mem_of_getLast? h)
  · exact fun h => hscore (h.mem List.mem_cons_self)

theorem stripHexPrefix_hex8 : stripHexPrefix (hex8 n) = hex8 n := by
  have hx : ∀ b ∈ hex8 n, ¬ (b = 0x78 ∨ b = 0x58) := by
    rintro b hb (rfl | rfl)
    all_goals exact absurd (isHexDigit_of_mem hb) (by decide)
  generalize hex8 n = digits at hx
  unfold stripHexPrefix
  split
  · rename_i x bs
    rw [if_neg (hx x (by simp))]
  · rfl

theorem intBase16_hex8 (hn : n < 2 ^ 32) : intBase16 (hex8 n) = some (n : Int) := by
  have hspace : (hex8 n).dropWhile isSpace = hex8 n := by
    rw [List.dropWhile_eq_self_iff]
    intro hl
    have hmem := List.getElem_mem hl
    obtain ⟨d,hd,hbyte⟩ := mem_hex8 hmem
    have hnot : ∀ d < 16, ¬ isSpace (hexByte d) = true := by decide
    rw [hbyte]
    exact hnot d hd
  have hsign : stripSign (hex8 n) = (false,hex8 n) := by
    have hx : ∀ b ∈ hex8 n, b ≠ 0x2B ∧ b ≠ 0x2D := by
      intro b hb
      constructor
      all_goals
        rintro rfl
        exact absurd (isHexDigit_of_mem hb) (by decide)
    generalize hex8 n = digits at hx
    unfold stripSign
    split
    · exact absurd rfl (hx _ List.mem_cons_self).1
    · exact absurd rfl (hx _ List.mem_cons_self).2
    · rfl
  have hall : ∀ b ∈ hex8 n, (isHexDigit b || decide (b = 0x5F)) = true := fun b hb => by
    rw [isHexDigit_of_mem hb,Bool.true_or]
  rw [intBase16,hspace,hsign]
  simp only [stripHexPrefix_hex8,List.takeWhile_eq_self_iff.mpr hall,
    List.dropWhile_eq_nil_iff.mpr hall,groupedDigits_hex8,List.all_nil,Bool.and_self,if_true,
    hexNumber_hex8 hn,Bool.false_eq_true,if_false]

end Checksum
