import Mathlib.Data.List.Sort

/-!
# Keyset pagination

A listing in strictly descending order of a key is read in pages: a page holds the
first rows whose key lies below a cursor, and the next cursor is the key of the last
row of the page.
-/

namespace Keyset

variable {α κ : Type*} [LinearOrder κ] (key : α → κ)

def Descending (rows : List α) : Prop := rows.Pairwise fun a b => key b < key a

/-- The rows below the cursor. -/
def after (cursor : Option κ) (rows : List α) : List α :=
  rows.filter fun r => decide (∀ c ∈ cursor, key r < c)

@[simp] theorem after_none (rows : List α) : after key none rows = rows := by
  simp [after]

/-- `ORDER BY key DESC`. -/
def descend (rows : List α) : List α := rows.insertionSort fun a b => key b ≤ key a

variable {key}

theorem perm_descend (rows : List α) : (descend key rows).Perm rows :=
  List.perm_insertionSort _ rows

/-- Sorting rows with distinct keys puts them in strictly descending order. -/
theorem descending_descend {rows : List α} (h : rows.Pairwise fun a b => key a ≠ key b) :
    Descending key (descend key rows) := by
  have htotal : Std.Total fun a b : α => key b ≤ key a := ⟨fun a b => le_total (key b) (key a)⟩
  have htrans : IsTrans α fun a b => key b ≤ key a := ⟨fun a b c hab hbc => hbc.trans hab⟩
  have hsorted : (descend key rows).Pairwise fun a b => key b ≤ key a :=
    List.pairwise_insertionSort _ rows
  have hsymm : ∀ {a b : α}, key a ≠ key b → key b ≠ key a := fun h => h.symm
  have hdistinct : (descend key rows).Pairwise fun a b => key a ≠ key b :=
    (List.Perm.pairwise_iff hsymm (perm_descend rows)).mpr h
  exact (hsorted.and hdistinct).imp fun hab => lt_of_le_of_ne hab.1 hab.2.symm

/-- It does not matter whether a cursor is applied before the rows are sorted or after. -/
theorem descend_after {rows : List α} (h : rows.Pairwise fun a b => key a ≠ key b)
    (cursor : Option κ) :
    descend key (after key cursor rows) = after key cursor (descend key rows) := by
  have hsub : (after key cursor rows).Pairwise fun a b => key a ≠ key b :=
    h.sublist List.filter_sublist
  have hperm : (descend key (after key cursor rows)).Perm (after key cursor (descend key rows)) :=
    (perm_descend _).trans ((perm_descend rows).symm.filter _)
  refine hperm.eq_of_pairwise ?_ (descending_descend hsub)
    ((descending_descend h).sublist List.filter_sublist)
  intro a b _ _ hab hba
  exact absurd hab hba.asymm

/-- Below the key of a row lie the rows that come after it. -/
theorem Descending.after_key {before rows : List α} {last : α}
    (h : Descending key (before ++ last :: rows)) :
    after key (some (key last)) (before ++ last :: rows) = rows := by
  obtain ⟨-,hrest,hcross⟩ := List.pairwise_append.mp h
  have hbelow := (List.pairwise_cons.mp hrest).1
  have hbefore : before.filter (fun r => decide (∀ c ∈ some (key last), key r < c)) = [] := by
    refine List.filter_eq_nil_iff.mpr fun a ha => ?_
    have := hcross a ha last (by simp)
    simpa using this.le
  have hrows : rows.filter (fun r => decide (∀ c ∈ some (key last), key r < c)) = rows := by
    refine List.filter_eq_self.mpr fun a ha => ?_
    simpa using hbelow a ha
  simp only [after,List.filter_append,hbefore,List.nil_append]
  rw [List.filter_cons_of_neg (by simp),hrows]

/-- After a page whose last row is `last`, the cursor leaves the rows the page did not
reach. -/
theorem Descending.after_page {rows : List α} (h : Descending key rows) {cursor : Option κ}
    {limit : Nat} {last : α} (hlast : ((after key cursor rows).take limit).getLast? = some last) :
    after key (some (key last)) rows = (after key cursor rows).drop limit := by
  have hsub : (after key cursor rows).Sublist rows := List.filter_sublist
  obtain ⟨page,hpage⟩ := List.getLast?_eq_some_iff.mp hlast
  have hsplit : after key cursor rows =
      page ++ last :: (after key cursor rows).drop limit := by
    conv_lhs => rw [← List.take_append_drop limit (after key cursor rows)]
    rw [hpage]
    simp
  have hdesc : Descending key (page ++ last :: (after key cursor rows).drop limit) :=
    hsplit ▸ List.Pairwise.sublist hsub h
  -- a row below the last key of the page is below the cursor the page was asked with
  have hbelow : ∀ c ∈ cursor, key last < c := by
    have hmem : last ∈ after key cursor rows := hsplit ▸ by simp
    simpa [after] using (List.mem_filter.mp hmem).2
  have hmono : after key (some (key last)) rows =
      after key (some (key last)) (after key cursor rows) := by
    simp only [after,List.filter_filter]
    refine List.filter_congr fun r _ => ?_
    by_cases hr : key r < key last
    · have hcursor : decide (∀ c ∈ cursor, key r < c) = true :=
        decide_eq_true fun c hc => hr.trans (hbelow c hc)
      rw [hcursor,Bool.and_true]
    · simp [hr]
  rw [hmono]
  conv_lhs => rw [hsplit]
  exact hdesc.after_key

end Keyset
