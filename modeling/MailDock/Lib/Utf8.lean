import Mathlib.Algebra.GroupWithZero.Nat
import Mathlib.Data.Fin.Basic
import Mathlib.Data.List.Basic
import Mathlib.Tactic.SplitIfs

/-!
# UTF-8 with replacement

The encoding of code points, and a decoder that reads one byte at a time and marks what is
malformed: every byte that begins no sequence, and every sequence that is cut short.

## Main definitions

- `Utf8.encode` — the bytes of a text
- `Utf8.decode` — the code points of some bytes, `none` for a malformed part
- `Utf8.leads` — how many bytes are no continuation bytes
- `Utf8.takeBytes` — the longest prefix of a text that fits into a number of bytes

## Main results

- `Utf8.decode_encode` — a text without surrogates is read back
- `Utf8.leads_le_length_decode` — every byte that begins a sequence gives a code point or a mark
- `Utf8.encode_split` — a cut in front of no continuation byte is one between code points
- `Utf8.decodeReplace_pieces` — when a text can be decoded piece by piece
-/

namespace Utf8

abbrev CodePoint := Fin 0x110000

instance codePoint_neZero : NeZero 0x110000 := ⟨by decide⟩

/-- What is said of the characters of a text is decided along the text: characters are a finite type,
and deciding it for all of them would not end. -/
instance (priority := high) decidableForallMem {p : Char → Prop} [DecidablePred p]
    (text : List Char) : Decidable (∀ c ∈ text, p c) :=
  List.decidableBAll p text

instance (priority := high) decidableForallMemOption {p : UInt8 → Prop} [DecidablePred p]
    (found : Option UInt8) : Decidable (∀ b ∈ found, p b) :=
  Option.decidableForallMem found

/-- The bytes of one code point; surrogates have some, too. -/
def encodeCodePoint (c : CodePoint) : List UInt8 :=
  if c.val < 0x80 then [.ofNat c.val]
  else if c.val < 0x800 then [.ofNat (0xC0 + c.val / 64),.ofNat (0x80 + c.val % 64)]
  else if c.val < 0x10000 then
    [.ofNat (0xE0 + c.val / 4096),.ofNat (0x80 + c.val / 64 % 64),.ofNat (0x80 + c.val % 64)]
  else
    [.ofNat (0xF0 + c.val / 262144),.ofNat (0x80 + c.val / 4096 % 64),
      .ofNat (0x80 + c.val / 64 % 64),.ofNat (0x80 + c.val % 64)]

def encode (text : List CodePoint) : List UInt8 := text.flatMap encodeCodePoint

def isSurrogate (c : CodePoint) : Bool := 0xD800 ≤ c.val && c.val ≤ 0xDFFF

def isContinuation (b : UInt8) : Bool := 0x80 ≤ b.toNat && b.toNat < 0xC0

/-! ## The decoder -/

/-- A sequence that has begun: the value so far, how many bytes follow the next one, and which
bytes may be the next one. -/
structure Pending where
  value : Nat
  left : Nat
  low : Nat
  high : Nat
  low_ge : 0x80 ≤ low
  high_lt : high < 0xC0

/-- What a first byte from `0xC2` on begins; the second byte must not make the sequence an overlong
one, a surrogate or a value beyond Unicode. -/
def first (b : Nat) : Option Pending :=
  if 0xC2 ≤ b ∧ b ≤ 0xDF then some ⟨b - 0xC0,0,0x80,0xBF,by decide,by decide⟩
  else if b = 0xE0 then some ⟨0,1,0xA0,0xBF,by decide,by decide⟩
  else if b = 0xED then some ⟨0xD,1,0x80,0x9F,by decide,by decide⟩
  else if 0xE1 ≤ b ∧ b ≤ 0xEF then some ⟨b - 0xE0,1,0x80,0xBF,by decide,by decide⟩
  else if b = 0xF0 then some ⟨0,2,0x90,0xBF,by decide,by decide⟩
  else if b = 0xF4 then some ⟨4,2,0x80,0x8F,by decide,by decide⟩
  else if 0xF1 ≤ b ∧ b ≤ 0xF3 then some ⟨b - 0xF0,2,0x80,0xBF,by decide,by decide⟩
  else none

def start (b : UInt8) : List (Option CodePoint) × Option Pending :=
  if b.toNat < 0x80 then ([some (Fin.ofNat _ b.toNat)],none)
  else
    match first b.toNat with
    | none => ([none],none)
    | some p => ([],some p)

/-- The next byte goes on with the sequence, or cuts it short and is read afresh. -/
def step : Option Pending → UInt8 → List (Option CodePoint) × Option Pending
  | none,b => start b
  | some p,b =>
    if p.low ≤ b.toNat ∧ b.toNat ≤ p.high then
      let value := p.value * 64 + (b.toNat - 0x80)
      if p.left = 0 then ([some (Fin.ofNat _ value)],none)
      else ([],some ⟨value,p.left - 1,0x80,0xBF,by decide,by decide⟩)
    else (none :: (start b).1,(start b).2)

def decodeFrom (pending : Option Pending) : List UInt8 → List (Option CodePoint)
  | [] => if pending.isSome then [none] else []
  | b :: rest => (step pending b).1 ++ decodeFrom (step pending b).2 rest

def decode (bytes : List UInt8) : List (Option CodePoint) := decodeFrom none bytes

/-- A malformed part becomes U+FFFD. -/
def decodeReplace (bytes : List UInt8) : List CodePoint := (decode bytes).map (·.getD 0xFFFD)

/-- Nothing may be malformed. -/
def decodeStrict (bytes : List UInt8) : Option (List CodePoint) := (decode bytes).mapM id

/-! ## Reading back -/

theorem ofNat_eq_iff {a b : Nat} : UInt8.ofNat a = UInt8.ofNat b ↔ a % 256 = b % 256 := by
  rw [← UInt8.toNat_inj,UInt8.toNat_ofNat',UInt8.toNat_ofNat']

/-- No code point's bytes begin another's. -/
theorem encodeCodePoint_append_inj {c c' : CodePoint} {rest rest' : List UInt8}
    (h : encodeCodePoint c ++ rest = encodeCodePoint c' ++ rest') : c = c' ∧ rest = rest' := by
  have hc := c.isLt
  have hc' := c'.isLt
  suffices hval : c.val = c'.val ∧ rest = rest' from ⟨Fin.ext hval.1,hval.2⟩
  -- the first byte tells how many follow
  unfold encodeCodePoint at h
  split_ifs at h <;> simp only [List.cons_append,List.nil_append,List.cons.injEq,ofNat_eq_iff] at h
  all_goals first
    | exact ⟨by omega,h.2⟩
    | exact ⟨by omega,h.2.2⟩
    | exact ⟨by omega,h.2.2.2⟩
    | exact ⟨by omega,h.2.2.2.2⟩
    | omega

theorem encodeCodePoint_ne_nil (c : CodePoint) : encodeCodePoint c ≠ [] := by
  simp only [encodeCodePoint]
  split_ifs <;> simp

theorem encode_injective : Function.Injective encode := by
  intro s t h
  induction s generalizing t with
  | nil =>
    cases t with
    | nil => rfl
    | cons c t =>
      have hnil := (List.append_eq_nil_iff.mp h.symm).1
      exact absurd hnil (encodeCodePoint_ne_nil c)
  | cons c s ih =>
    cases t with
    | nil =>
      have hnil := (List.append_eq_nil_iff.mp h).1
      exact absurd hnil (encodeCodePoint_ne_nil c)
    | cons c' t =>
      obtain ⟨rfl,hrest⟩ := encodeCodePoint_append_inj h
      rw [ih hrest]

theorem toNat_ofNat_of_lt {n : Nat} (h : n < 256) : (UInt8.ofNat n).toNat = n := by
  rw [UInt8.toNat_ofNat']
  exact Nat.mod_eq_of_lt h

theorem start_ascii {n : Nat} (h : n < 0x80) :
    start (.ofNat n) = ([some (Fin.ofNat _ n)],none) := by
  rw [start,toNat_ofNat_of_lt (by omega),if_pos h]

theorem start_first {n : Nat} (hlow : 0x80 ≤ n) (hhigh : n < 256) {p : Pending}
    (hp : first n = some p) : start (.ofNat n) = ([],some p) := by
  rw [start,toNat_ofNat_of_lt hhigh,if_neg (by omega),hp]

theorem step_last {p : Pending} {n : Nat} (hlow : p.low ≤ n) (hhigh : n ≤ p.high)
    (hleft : p.left = 0) :
    step (some p) (.ofNat n) = ([some (Fin.ofNat _ (p.value * 64 + (n - 0x80)))],none) := by
  have hlt := p.high_lt
  rw [step,toNat_ofNat_of_lt (by omega),if_pos ⟨hlow,hhigh⟩,if_pos hleft]

theorem step_more {p : Pending} {n : Nat} (hlow : p.low ≤ n) (hhigh : n ≤ p.high)
    (hleft : p.left ≠ 0) :
    step (some p) (.ofNat n) = ([],some ⟨p.value * 64 + (n - 0x80),p.left - 1,0x80,0xBF,
      by decide,by decide⟩) := by
  have hlt := p.high_lt
  rw [step,toNat_ofNat_of_lt (by omega),if_pos ⟨hlow,hhigh⟩,if_neg hleft]

theorem ofNat_eq_self {c : CodePoint} {n : Nat} (h : n = c.val) :
    (Fin.ofNat 0x110000 n : CodePoint) = c := by
  apply Fin.ext
  rw [h,Fin.ofNat_eq_cast]
  simp

/-- What is known of a sequence after its first byte, for the second byte `0x80 + m`. -/
def Begins (b value left m : Nat) : Prop :=
  ∃ p, first b = some p ∧ p.value = value ∧ p.left = left ∧ p.low ≤ 0x80 + m ∧ 0x80 + m ≤ p.high

theorem begins_two {h m : Nat} (hh : 2 ≤ h ∧ h < 32) (hm : m < 64) : Begins (0xC0 + h) h 0 m := by
  refine ⟨⟨h,0,0x80,0xBF,by decide,by decide⟩,?_,rfl,rfl,?_⟩
  · rw [first,if_pos (by omega)]
    simp
  · show 0x80 ≤ 0x80 + m ∧ 0x80 + m ≤ 0xBF
    omega

theorem begins_three {h m : Nat} (hh : h < 16) (hm : m < 64) (hoverlong : h = 0 → 32 ≤ m)
    (hsurrogate : h = 13 → m < 32) : Begins (0xE0 + h) h 1 m := by
  unfold Begins first
  rw [if_neg (by omega)]
  by_cases hzero : h = 0
  · subst hzero
    have := hoverlong rfl
    refine ⟨_,rfl,rfl,rfl,?_,?_⟩ <;> dsimp only <;> omega
  by_cases hthirteen : h = 13
  · subst hthirteen
    have := hsurrogate rfl
    refine ⟨_,rfl,rfl,rfl,?_,?_⟩ <;> dsimp only <;> omega
  rw [if_neg (by omega),if_neg (by omega),if_pos (by omega)]
  refine ⟨_,rfl,?_,rfl,?_,?_⟩ <;> dsimp only <;> omega

theorem begins_four {h m : Nat} (hh : h < 5) (hm : m < 64) (hoverlong : h = 0 → 16 ≤ m)
    (hlimit : h = 4 → m < 16) : Begins (0xF0 + h) h 2 m := by
  unfold Begins first
  rw [if_neg (by omega),if_neg (by omega),if_neg (by omega),if_neg (by omega)]
  by_cases hzero : h = 0
  · subst hzero
    have := hoverlong rfl
    refine ⟨_,rfl,rfl,rfl,?_,?_⟩ <;> dsimp only <;> omega
  by_cases hfour : h = 4
  · subst hfour
    have := hlimit rfl
    refine ⟨_,rfl,rfl,rfl,?_,?_⟩ <;> dsimp only <;> omega
  rw [if_neg (by omega),if_neg (by omega),if_pos (by omega)]
  refine ⟨_,rfl,?_,rfl,?_,?_⟩ <;> dsimp only <;> omega

theorem decodeFrom_encodeCodePoint {c : CodePoint} (hc : isSurrogate c = false)
    (rest : List UInt8) :
    decodeFrom none (encodeCodePoint c ++ rest) = some c :: decodeFrom none rest := by
  have hlt := c.isLt
  have hrange : ¬(0xD800 ≤ c.val ∧ c.val ≤ 0xDFFF) := by
    simpa [isSurrogate] using hc
  unfold encodeCodePoint
  split_ifs with hone htwo hthree
  · simp only [List.cons_append,List.nil_append,decodeFrom,step,start_ascii hone]
    rw [ofNat_eq_self (c := c) rfl]
  · obtain ⟨p,hp,hvalue,hleft,hlow,hhigh⟩ :=
      begins_two (h := c.val / 64) (m := c.val % 64) (by omega) (by omega)
    simp only [List.cons_append,List.nil_append,decodeFrom,step.eq_1,
      start_first (by omega) (by omega) hp,step_last hlow hhigh hleft]
    rw [ofNat_eq_self (c := c) (by omega)]
  · obtain ⟨p,hp,hvalue,hleft,hlow,hhigh⟩ :=
      begins_three (h := c.val / 4096) (m := c.val / 64 % 64) (by omega) (by omega) (by omega)
        (by omega)
    simp only [List.cons_append,List.nil_append,decodeFrom,step.eq_1,
      start_first (by omega) (by omega) hp,step_more hlow hhigh (by omega)]
    rw [step_last (by simp) (by simp; omega) (by simp; omega),ofNat_eq_self (c := c) (by simp; omega)]
    rfl
  · obtain ⟨p,hp,hvalue,hleft,hlow,hhigh⟩ :=
      begins_four (h := c.val / 262144) (m := c.val / 4096 % 64) (by omega) (by omega) (by omega)
        (by omega)
    simp only [List.cons_append,List.nil_append,decodeFrom,step.eq_1,
      start_first (by omega) (by omega) hp,step_more hlow hhigh (by omega)]
    rw [step_more (by simp) (by simp; omega) (by simp; omega),
      step_last (by simp) (by simp; omega) (by simp; omega),ofNat_eq_self (c := c) (by simp; omega)]
    rfl

theorem decode_encode {text : List CodePoint} (h : ∀ c ∈ text, isSurrogate c = false) :
    decode (encode text) = text.map some := by
  induction text with
  | nil => rfl
  | cons c text ih =>
    rw [encode,List.flatMap_cons,decode,decodeFrom_encodeCodePoint (h c List.mem_cons_self),
      List.map_cons]
    rw [← decode,← encode,ih fun d hd => h d (List.mem_cons_of_mem c hd)]

theorem decodeReplace_encode {text : List CodePoint} (h : ∀ c ∈ text, isSurrogate c = false) :
    decodeReplace (encode text) = text := by
  rw [decodeReplace,decode_encode h,List.map_map]
  exact List.map_id _

/-- Where nothing is malformed, nothing is replaced. -/
theorem decodeReplace_of_strict {bytes : List UInt8} {text : List CodePoint}
    (h : decodeStrict bytes = some text) : decodeReplace bytes = text := by
  unfold decodeReplace
  unfold decodeStrict at h
  generalize decode bytes = marks at h
  induction marks generalizing text with
  | nil =>
    cases h
    rfl
  | cons m marks ih =>
    rw [List.mapM_cons] at h
    cases m with
    | none => cases h
    | some c =>
      cases hrest : marks.mapM id with
      | none =>
        rw [hrest] at h
        cases h
      | some rest =>
        rw [hrest] at h
        cases h
        rw [List.map_cons,ih hrest]
        rfl

/-! ## Counting -/

/-- The bytes that begin a sequence, or cannot. -/
def leads (bytes : List UInt8) : Nat := bytes.countP fun b => !isContinuation b

theorem leads_append (a b : List UInt8) : leads (a ++ b) = leads a + leads b :=
  List.countP_append

/-- A sequence that has begun will give one more. -/
def owed : Option Pending → Nat
  | none => 0
  | some _ => 1

theorem length_start (b : UInt8) : (start b).1.length + owed (start b).2 = 1 := by
  unfold start
  by_cases hascii : b.toNat < 0x80
  · rw [if_pos hascii]
    rfl
  · rw [if_neg hascii]
    cases first b.toNat <;> rfl

theorem Pending.isContinuation {p : Pending} {b : UInt8} (hlow : p.low ≤ b.toNat)
    (hhigh : b.toNat ≤ p.high) : isContinuation b = true := by
  have hge := p.low_ge
  have hlt := p.high_lt
  rw [Utf8.isContinuation,Bool.and_eq_true,decide_eq_true_eq,decide_eq_true_eq]
  omega

/-- A step answers for its byte and for the sequence that had begun. -/
theorem length_step (pending : Option Pending) (b : UInt8) :
    leads [b] + owed pending ≤ (step pending b).1.length + owed (step pending b).2 := by
  have hlead : leads [b] ≤ 1 := List.countP_le_length
  have hstart := length_start b
  cases pending with
  | none =>
    rw [step,owed]
    omega
  | some p =>
    by_cases hnext : p.low ≤ b.toNat ∧ b.toNat ≤ p.high
    · have hzero : leads [b] = 0 := by
        simp [leads,Pending.isContinuation hnext.1 hnext.2]
      rw [hzero,step,if_pos hnext]
      by_cases hleft : p.left = 0
      · rw [if_pos hleft,List.length_singleton]
        simp only [owed]
        omega
      · rw [if_neg hleft,List.length_nil]
        simp only [owed]
        omega
    · rw [step,if_neg hnext,List.length_cons]
      have howed : owed (some p) = 1 := rfl
      dsimp only
      omega

/-- Every byte that is no continuation byte gives rise to a code point or a mark, and so does a
sequence that has begun. -/
theorem leads_le_length_decodeFrom (pending : Option Pending) (bytes : List UInt8) :
    leads bytes + owed pending ≤ (decodeFrom pending bytes).length := by
  induction bytes generalizing pending with
  | nil => cases pending <;> simp [leads,decodeFrom,owed]
  | cons b rest ih =>
    have hstep := length_step pending b
    have hrest := ih (step pending b).2
    have hcons : leads (b :: rest) = leads [b] + leads rest := leads_append [b] rest
    rw [decodeFrom,List.length_append,hcons]
    omega

theorem leads_le_length_decode (bytes : List UInt8) : leads bytes ≤ (decode bytes).length :=
  leads_le_length_decodeFrom none bytes

/-- A continuation byte in front gives a mark of its own. -/
theorem leads_lt_length_decode {b : UInt8} (hb : isContinuation b = true) (rest : List UInt8) :
    leads (b :: rest) < (decode (b :: rest)).length := by
  have hfirst : first b.toNat = none := by
    simp only [isContinuation,Bool.and_eq_true,decide_eq_true_eq] at hb
    unfold first
    split_ifs <;> first | rfl | omega
  have hstart : start b = ([none],none) := by
    simp only [isContinuation,Bool.and_eq_true,decide_eq_true_eq] at hb
    rw [start,if_neg (by omega),hfirst]
  have hzero : leads [b] = 0 := by
    simp [leads,hb]
  have hrest := leads_le_length_decode rest
  have hcons : leads (b :: rest) = leads [b] + leads rest := leads_append [b] rest
  rw [decode,decodeFrom,step.eq_1,hstart,hcons,hzero]
  simp only [List.cons_append,List.nil_append,List.length_cons]
  rw [← decode]
  omega

/-- A code point's bytes are one that begins a sequence and continuation bytes. -/
theorem encodeCodePoint_eq_cons (c : CodePoint) : ∃ b rest, encodeCodePoint c = b :: rest ∧
    isContinuation b = false ∧ ∀ d ∈ rest, isContinuation d = true := by
  have hlt := c.isLt
  have hcontinuation : ∀ n < 64, isContinuation (.ofNat (0x80 + n)) = true := by
    intro n hn
    rw [isContinuation,toNat_ofNat_of_lt (by omega),Bool.and_eq_true,decide_eq_true_eq,
      decide_eq_true_eq]
    omega
  have hlead : ∀ n, n < 0x80 ∨ 0xC0 ≤ n → n < 256 → isContinuation (.ofNat n) = false := by
    intro n hn hlt
    rw [isContinuation,toNat_ofNat_of_lt hlt,Bool.and_eq_false_iff,decide_eq_false_iff_not,
      decide_eq_false_iff_not]
    omega
  unfold encodeCodePoint
  split_ifs
  · exact ⟨_,_,rfl,hlead _ (by omega) (by omega),nofun⟩
  all_goals
    refine ⟨_,_,rfl,hlead _ (by omega) (by omega),fun d hd => ?_⟩
    simp only [List.mem_cons,List.not_mem_nil,or_false] at hd
  · exact hd ▸ hcontinuation _ (by omega)
  · rcases hd with rfl | rfl
    · exact hcontinuation _ (by omega)
    · exact hcontinuation _ (by omega)
  · rcases hd with rfl | rfl | rfl
    · exact hcontinuation _ (by omega)
    · exact hcontinuation _ (by omega)
    · exact hcontinuation _ (by omega)

theorem leads_encodeCodePoint (c : CodePoint) : leads (encodeCodePoint c) = 1 := by
  obtain ⟨b,rest,hbytes,hb,hrest⟩ := encodeCodePoint_eq_cons c
  have hzero : leads rest = 0 := by
    rw [leads,List.countP_eq_zero]
    intro d hd
    simp [hrest d hd]
  have hone : leads [b] = 1 := by
    simp [leads,hb]
  have hcons : leads (b :: rest) = leads [b] + leads rest := leads_append [b] rest
  rw [hbytes,hcons,hzero,hone]

theorem leads_encode (text : List CodePoint) : leads (encode text) = text.length := by
  induction text with
  | nil => rfl
  | cons c text ih =>
    rw [encode,List.flatMap_cons,leads_append,leads_encodeCodePoint,← encode,ih,List.length_cons]
    omega

/-! ## Cutting -/

/-- Bytes that do not begin in the middle of a code point. -/
def Whole (bytes : List UInt8) : Prop := ∀ b ∈ bytes.head?, isContinuation b = false

theorem encode_split {text : List CodePoint} {a b : List UInt8} (h : encode text = a ++ b)
    (hb : Whole b) : ∃ s t, text = s ++ t ∧ a = encode s ∧ b = encode t := by
  induction text generalizing a with
  | nil =>
    obtain ⟨rfl,rfl⟩ := List.append_eq_nil_iff.mp h.symm
    exact ⟨[],[],rfl,rfl,rfl⟩
  | cons c text ih =>
    by_cases hnil : a = []
    · subst hnil
      exact ⟨[],c :: text,rfl,rfl,h.symm⟩
    rw [encode,List.flatMap_cons,← encode] at h
    rcases List.append_eq_append_iff.mp h with ⟨a',rfl,htail⟩ | ⟨cut,hcode,hrest⟩
    · obtain ⟨s,t,rfl,rfl,rfl⟩ := ih htail
      exact ⟨c :: s,t,rfl,rfl,rfl⟩
    · -- what is cut off the bytes of `c` are continuation bytes
      obtain ⟨lead,rest,hbytes,-,hcontinuation⟩ := encodeCodePoint_eq_cons c
      cases cut with
      | nil =>
        rw [List.append_nil] at hcode
        refine ⟨[c],text,rfl,?_,hrest⟩
        rw [← hcode]
        exact (List.append_nil _).symm
      | cons d cut =>
        obtain ⟨lead',a',rfl⟩ := List.exists_cons_of_ne_nil hnil
        rw [hbytes,List.cons_append,List.cons.injEq] at hcode
        have hmem : d ∈ rest := by
          rw [hcode.2]
          simp
        have hd : isContinuation d = false := hb d (by rw [hrest]; rfl)
        rw [hcontinuation d hmem] at hd
        cases hd

theorem whole_flatten {pieces : List (List UInt8)} (h : ∀ p ∈ pieces, Whole p) :
    Whole pieces.flatten := by
  induction pieces with
  | nil => nofun
  | cons p pieces ih =>
    cases p with
    | nil => exact ih fun q hq => h q (List.mem_cons_of_mem _ hq)
    | cons b p => exact h (b :: p) List.mem_cons_self

theorem leads_le_length_decodeReplace (bytes : List UInt8) :
    leads bytes ≤ (decodeReplace bytes).length := by
  rw [decodeReplace,List.length_map]
  exact leads_le_length_decode bytes

/-- A piece that begins in the middle of a code point gives a replacement too many. -/
theorem leads_lt_length_decodeReplace {bytes : List UInt8} (h : ¬ Whole bytes) :
    leads bytes < (decodeReplace bytes).length := by
  rw [decodeReplace,List.length_map]
  cases bytes with
  | nil => exact absurd nofun h
  | cons b rest =>
    by_cases hb : isContinuation b = true
    · exact leads_lt_length_decode hb rest
    · refine absurd (fun d hd => ?_) h
      cases hd
      simpa using hb

theorem leads_flatten_le (pieces : List (List UInt8)) :
    leads pieces.flatten ≤ ((pieces.map decodeReplace).flatten).length := by
  induction pieces with
  | nil => exact Nat.le_refl 0
  | cons p pieces ih =>
    have hp := leads_le_length_decodeReplace p
    rw [List.flatten_cons,leads_append,List.map_cons,List.flatten_cons,List.length_append]
    omega

theorem leads_flatten_lt {pieces : List (List UInt8)} {p : List UInt8} (hp : p ∈ pieces)
    (hwhole : ¬ Whole p) : leads pieces.flatten < ((pieces.map decodeReplace).flatten).length := by
  induction pieces with
  | nil => cases hp
  | cons q pieces ih =>
    have hq := leads_le_length_decodeReplace q
    have hrest := leads_flatten_le pieces
    rw [List.flatten_cons,leads_append,List.map_cons,List.flatten_cons,List.length_append]
    rcases List.mem_cons.mp hp with rfl | hp
    · have hlt := leads_lt_length_decodeReplace hwhole
      omega
    · have hlt := ih hp
      omega

/-- The pieces of a text, decoded one by one, give the text exactly when none of them begins in the
middle of a code point. -/
theorem decodeReplace_pieces {text : List CodePoint} (htext : ∀ c ∈ text, isSurrogate c = false)
    {pieces : List (List UInt8)} (h : encode text = pieces.flatten) :
    (pieces.map decodeReplace).flatten = text ↔ ∀ p ∈ pieces, Whole p := by
  constructor
  · intro hdecoded p hp
    by_contra hwhole
    have hlt := leads_flatten_lt hp hwhole
    rw [hdecoded,← h,leads_encode] at hlt
    exact Nat.lt_irrefl _ hlt
  · intro hwhole
    induction pieces generalizing text with
    | nil =>
      have hlength := leads_encode text
      rw [h] at hlength
      exact (List.length_eq_zero_iff.mp hlength.symm).symm
    | cons p pieces ih =>
      have hrest := whole_flatten fun q hq => hwhole q (List.mem_cons_of_mem p hq)
      obtain ⟨s,t,rfl,rfl,ht⟩ := encode_split h hrest
      have hs := decodeReplace_encode fun c hc => htext c (List.mem_append_left t hc)
      rw [List.map_cons,List.flatten_cons,hs,
        ih (fun c hc => htext c (List.mem_append_right s hc)) ht.symm
          fun q hq => hwhole q (List.mem_cons_of_mem _ hq)]

/-! ## Sizes -/

/-- The number of bytes of a text. -/
def size (text : List CodePoint) : Nat := (encode text).length

/-- The longest prefix that fits into so many bytes. -/
def takeBytes (budget : Nat) : List CodePoint → List CodePoint
  | [] => []
  | c :: text =>
    if size [c] ≤ budget then c :: takeBytes (budget - size [c]) text else []

@[simp] theorem size_nil : size [] = 0 := rfl

theorem size_append (a b : List CodePoint) : size (a ++ b) = size a + size b := by
  simp [size,encode]

theorem size_cons (c : CodePoint) (text : List CodePoint) :
    size (c :: text) = size [c] + size text := size_append [c] text

theorem size_singleton (c : CodePoint) : 1 ≤ size [c] ∧ size [c] ≤ 4 := by
  have hencode : encode [c] = encodeCodePoint c := List.append_nil _
  rw [size,hencode]
  unfold encodeCodePoint
  split_ifs <;> simp

theorem length_le_size (text : List CodePoint) : text.length ≤ size text := by
  induction text with
  | nil => exact Nat.le_refl 0
  | cons c text ih =>
    have hc := (size_singleton c).1
    rw [size_cons,List.length_cons]
    omega

theorem size_le_length (text : List CodePoint) : size text ≤ 4 * text.length := by
  induction text with
  | nil => exact Nat.le_refl 0
  | cons c text ih =>
    have hc := (size_singleton c).2
    rw [size_cons,List.length_cons]
    omega

theorem takeBytes_of_fits {budget : Nat} {text : List CodePoint} (h : size text ≤ budget) :
    takeBytes budget text = text := by
  induction text generalizing budget with
  | nil => rfl
  | cons c text ih =>
    rw [size_cons] at h
    rw [takeBytes,if_pos (by omega),ih (by omega)]

theorem takeBytes_append (a b : List CodePoint) (n : Nat) :
    takeBytes (size a + n) (a ++ b) = a ++ takeBytes n b := by
  induction a with
  | nil => rw [size_nil,Nat.zero_add,List.nil_append,List.nil_append]
  | cons c a ih =>
    have hsize := size_cons c a
    have hrest : size (c :: a) + n - size [c] = size a + n := by omega
    rw [List.cons_append,takeBytes,if_pos (by omega),hrest,ih,List.cons_append]

theorem takeBytes_zero (text : List CodePoint) : takeBytes 0 text = [] := by
  cases text with
  | nil => rfl
  | cons c text =>
    have hpos := (size_singleton c).1
    rw [takeBytes,if_neg (by omega)]

theorem takeBytes_prefix (budget : Nat) (text : List CodePoint) :
    takeBytes budget text <+: text := by
  induction text generalizing budget with
  | nil => exact List.prefix_rfl
  | cons c text ih =>
    rw [takeBytes]
    by_cases hc : size [c] ≤ budget
    · rw [if_pos hc]
      exact List.cons_prefix_cons.mpr ⟨rfl,ih _⟩
    · rw [if_neg hc]
      exact List.nil_prefix

theorem size_takeBytes_le (budget : Nat) (text : List CodePoint) :
    size (takeBytes budget text) ≤ budget := by
  induction text generalizing budget with
  | nil => exact Nat.zero_le _
  | cons c text ih =>
    rw [takeBytes]
    by_cases hc : size [c] ≤ budget
    · have hrest := ih (budget - size [c])
      rw [if_pos hc,size_cons]
      omega
    · rw [if_neg hc]
      exact Nat.zero_le _

/-- What does not fit is missed by less than the bytes of one code point. -/
theorem lt_size_takeBytes {budget : Nat} {text : List CodePoint} (h : budget < size text) :
    budget < size (takeBytes budget text) + 4 := by
  induction text generalizing budget with
  | nil => exact absurd h (Nat.not_lt_zero _)
  | cons c text ih =>
    have hwidth := (size_singleton c).2
    rw [size_cons] at h
    rw [takeBytes]
    by_cases hc : size [c] ≤ budget
    · have hrest := @ih (budget - size [c]) (by omega)
      rw [if_pos hc,size_cons]
      omega
    · rw [if_neg hc,size_nil]
      omega

end Utf8
