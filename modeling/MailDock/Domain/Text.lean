import Mathlib.Data.List.DropRight
import Mathlib.Data.List.TakeWhile
import MailDock.Lib.Utf8

/-!
# Texts

A text of Python is a list of code points, among which there may be lone surrogates: header
lines with bytes outside ASCII are full of them.  Where a text comes from a database or a
file it is a `String` elsewhere.

## Main definitions

- `PyText` — a text as a list of code points
- `PyText.strip`, `PyText.partition` — the methods of `str`
-/

namespace MailDock

/-- Surrogates are code points of their own. -/
abbrev CodePoint := Utf8.CodePoint

abbrev PyText := List CodePoint

theorem Char.toNat_lt (c : Char) : c.toNat < 0x110000 := by
  have hvalid := c.valid
  simp only [UInt32.isValidChar,Nat.isValidChar] at hvalid
  have htoNat : c.toNat = c.val.toNat := rfl
  omega

def CodePoint.ofChar (c : Char) : CodePoint := ⟨c.toNat,Char.toNat_lt c⟩

theorem CodePoint.ofChar_injective : Function.Injective CodePoint.ofChar := by
  intro a b h
  have hval : (ofChar a).val = (ofChar b).val := congrArg Fin.val h
  exact Char.toNat_inj.mp hval

def pyText (s : List Char) : PyText := s.map CodePoint.ofChar

theorem pyText_injective : Function.Injective pyText :=
  List.map_injective_iff.mpr CodePoint.ofChar_injective

/-- A capital letter of ASCII has a small one. -/
theorem CodePoint.small_lt {c : CodePoint} (h : 0x41 ≤ c.val ∧ c.val ≤ 0x5a) :
    c.val + 0x20 < 0x110000 := by
  omega

/-- `str.isspace` of one code point. -/
def CodePoint.isSpace (c : CodePoint) : Bool :=
  let n := c.val
  (0x09 ≤ n && n ≤ 0x0d) || (0x1c ≤ n && n ≤ 0x20) || n == 0x85 || n == 0xa0 || n == 0x1680 ||
    (0x2000 ≤ n && n ≤ 0x200a) || n == 0x2028 || n == 0x2029 || n == 0x202f || n == 0x205f ||
    n == 0x3000

namespace PyText

def strip (text : PyText) : PyText :=
  (text.dropWhile CodePoint.isSpace).rdropWhile CodePoint.isSpace

/-- The text before the first separator, and the one after it if there is a separator. -/
def partition (separator : CodePoint) : PyText → PyText × Option PyText
  | [] => ([],none)
  | c :: text =>
    if c = separator then ([],some text)
    else
      let (before,after) := partition separator text
      (c :: before,after)

/-- `text.rsplit(separator,1)` of a text that has the separator. -/
def rsplit (separator : CodePoint) : PyText → Option (PyText × PyText)
  | [] => none
  | c :: text =>
    match rsplit separator text with
    | some (before,after) => some (c :: before,after)
    | none => if c = separator then some ([],text) else none

theorem strip_padded {before text after : PyText} (hbefore : before.all CodePoint.isSpace = true)
    (hafter : after.all CodePoint.isSpace = true)
    (hhead : ∀ c ∈ text.head?, CodePoint.isSpace c = false)
    (hlast : ∀ c ∈ text.getLast?, CodePoint.isSpace c = false) :
    strip (before ++ (text ++ after)) = text := by
  have hall : ∀ c ∈ after, CodePoint.isSpace c = true := List.all_eq_true.mp hafter
  cases text with
  | nil =>
    have hnil : (before ++ ([] ++ after)).dropWhile CodePoint.isSpace = [] := by
      rw [List.dropWhile_eq_nil_iff]
      intro c hc
      simp only [List.nil_append,List.mem_append] at hc
      exact hc.elim (List.all_eq_true.mp hbefore c) (hall c)
    rw [strip,hnil,List.rdropWhile_nil]
  | cons c text =>
    have hc : CodePoint.isSpace c = false := hhead c rfl
    have hdrop : (before ++ (c :: text ++ after)).dropWhile CodePoint.isSpace =
        c :: text ++ after := by
      rw [List.dropWhile_append_of_pos (List.all_eq_true.mp hbefore),List.cons_append,
        List.dropWhile_cons_of_neg (by simp [hc])]
    rw [strip,hdrop,List.rdropWhile,List.reverse_append,
      List.dropWhile_append_of_pos (by simpa using hall)]
    have hself : (c :: text).rdropWhile CodePoint.isSpace = c :: text := by
      rw [List.rdropWhile_eq_self_iff]
      intro hne
      have := hlast _ (List.getLast?_eq_some_getLast hne)
      simp [this]
    exact hself

theorem partition_append {separator : CodePoint} {before : PyText} (h : separator ∉ before)
    (after : PyText) : partition separator (before ++ separator :: after) = (before,some after) := by
  induction before with
  | nil => simp [partition]
  | cons c before ih =>
    have hc : c ≠ separator := fun heq => h (heq ▸ List.mem_cons_self)
    rw [List.cons_append,partition,if_neg hc,ih fun hmem => h (List.mem_cons_of_mem _ hmem)]

theorem rsplit_eq_none {separator : CodePoint} {text : PyText} :
    rsplit separator text = none ↔ separator ∉ text := by
  induction text with
  | nil => simp [rsplit]
  | cons c text ih =>
    rw [rsplit,List.mem_cons]
    cases hrest : rsplit separator text with
    | some cut =>
      have hmem : separator ∈ text := by
        by_contra hnone
        rw [ih.mpr hnone] at hrest
        cases hrest
      simp [hmem]
    | none =>
      have hmem := ih.mp hrest
      by_cases hc : c = separator
      · simp [hc]
      · simp [hc,hmem,Ne.symm hc]

theorem rsplit_append {separator : CodePoint} {after : PyText} (h : separator ∉ after)
    (before : PyText) : rsplit separator (before ++ separator :: after) = some (before,after) := by
  induction before with
  | nil => rw [List.nil_append,rsplit,rsplit_eq_none.mpr h,if_pos rfl]
  | cons c before ih => rw [List.cons_append,rsplit,ih]

theorem eq_of_rsplit {separator : CodePoint} {text before after : PyText}
    (h : rsplit separator text = some (before,after)) :
    text = before ++ separator :: after ∧ separator ∉ after := by
  induction text generalizing before with
  | nil => cases h
  | cons c text ih =>
    rw [rsplit] at h
    cases hrest : rsplit separator text with
    | some cut =>
      rw [hrest] at h
      cases h
      obtain ⟨rfl,hafter⟩ := ih hrest
      exact ⟨rfl,hafter⟩
    | none =>
      rw [hrest] at h
      by_cases hc : c = separator
      · rw [if_pos hc] at h
        cases h
        exact ⟨by rw [hc]; rfl,rsplit_eq_none.mp hrest⟩
      · rw [if_neg hc] at h
        cases h

end PyText

end MailDock
