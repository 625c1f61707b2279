/-!
# Searching a text whose characters carry marks

A search tries a pattern at every position that a word does not run across, and returns the
first match with the mark of the character it begins at.  The text that follows the searched
part is visible to the pattern, so a search of a concatenation is the search of the first
part, then that of the second.

## Main definitions

- `searchMarked` — the first match that begins in a marked text

## Main results

- `searchMarked_append` — searching a concatenation
- `searchMarked_eq_none` — a part in which the pattern fails everywhere
-/

namespace MailDock

section Search

variable {σ μ α : Type} (word : σ → Bool) (pattern : List σ → Option α)

/-- The first match that begins in `text`, which `rest` follows. -/
def searchMarked : Option σ → List (μ × σ) → List σ → Option (μ × α)
  | _,[],_ => none
  | previous,(mark,c) :: text,rest =>
    if previous.any word then searchMarked (some c) text rest
    else match pattern (c :: (text.map Prod.snd ++ rest)) with
      | some a => some (mark,a)
      | none => searchMarked (some c) text rest

/-- The character in front of what follows `text`. -/
def lastOf : Option σ → List (μ × σ) → Option σ
  | previous,[] => previous
  | _,(_,c) :: text => lastOf (some c) text

theorem searchMarked_append (previous : Option σ) (text more : List (μ × σ)) (rest : List σ) :
    searchMarked word pattern previous (text ++ more) rest =
      (searchMarked word pattern previous text (more.map Prod.snd ++ rest)).or
        (searchMarked word pattern (lastOf previous text) more rest) := by
  induction text generalizing previous with
  | nil => rfl
  | cons p text ih =>
    obtain ⟨mark,c⟩ := p
    simp only [List.cons_append,searchMarked,lastOf,List.map_append,List.append_assoc]
    split
    · exact ih (some c)
    · cases pattern (c :: (text.map Prod.snd ++ (more.map Prod.snd ++ rest))) with
      | some a => rfl
      | none => exact ih (some c)

/-- A match at the start is the first one. -/
theorem searchMarked_cons_some {previous : Option σ} (hprevious : previous.any word = false)
    {mark : μ} {c : σ} {text : List (μ × σ)} {rest : List σ} {a : α}
    (h : pattern (c :: (text.map Prod.snd ++ rest)) = some a) :
    searchMarked word pattern previous ((mark,c) :: text) rest = some (mark,a) := by
  rw [searchMarked,if_neg (by simp [hprevious]),h]

/-- Where no position matches, nothing is found. -/
theorem searchMarked_eq_none (previous : Option σ) (text : List (μ × σ)) (rest : List σ)
    (h : ∀ front mark c back, text = front ++ (mark,c) :: back →
      ((lastOf previous front).any word = true ∨
        pattern (c :: (back.map Prod.snd ++ rest)) = none)) :
    searchMarked word pattern previous text rest = none := by
  induction text generalizing previous with
  | nil => rfl
  | cons p text ih =>
    obtain ⟨mark,c⟩ := p
    have htail : searchMarked word pattern (some c) text rest = none := by
      apply ih
      intro front mark' c' back heq
      exact h ((mark,c) :: front) mark' c' back (by rw [heq]; rfl)
    rw [searchMarked]
    by_cases hprevious : previous.any word = true
    · rw [if_pos hprevious]
      exact htail
    · rw [if_neg hprevious]
      rcases h [] mark c text rfl with hword | hnone
      · exact absurd hword hprevious
      · rw [hnone]
        exact htail

end Search

end MailDock
