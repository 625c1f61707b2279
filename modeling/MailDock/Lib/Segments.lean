import Mathlib.Data.List.Perm.Basic
import Mathlib.Data.List.Flatten
import Mathlib.Order.Lattice

/-!
# Lists split by a key

A log that is split over segments by a key of its entries is read segment after
segment, in the order of the keys.  What is read is a rearrangement of the log which
keeps the order inside a segment; it is the log itself exactly when the keys of the
entries never step back.
-/

namespace Segments

variable {α ι : Type*} [LinearOrder ι] {key : α → ι} {keys : List ι} {l : List α}

/-- The entries of the segments, segment after segment. -/
def regroup (key : α → ι) (keys : List ι) (l : List α) : List α :=
  keys.flatMap fun k => l.filter fun a => key a = k

theorem regroup_cons (k : ι) (keys : List ι) (l : List α) :
    regroup key (k :: keys) l = (l.filter fun a => key a = k) ++ regroup key keys l :=
  List.flatMap_cons

theorem filter_regroup (p : α → Bool) :
    (regroup key keys l).filter p = regroup key keys (l.filter p) := by
  induction keys with
  | nil => rfl
  | cons k keys ih =>
    rw [regroup_cons,regroup_cons,List.filter_append,ih,List.filter_filter,List.filter_filter]
    congr 1
    refine List.filter_congr fun a _ => ?_
    rw [Bool.and_comm]

theorem mem_regroup {a : α} : a ∈ regroup key keys l ↔ a ∈ l ∧ key a ∈ keys := by
  simp only [regroup,List.mem_flatMap,List.mem_filter,decide_eq_true_eq]
  constructor
  · rintro ⟨k,hk,ha,rfl⟩
    exact ⟨ha,hk⟩
  · rintro ⟨ha,hk⟩
    exact ⟨key a,hk,ha,rfl⟩

/-- Entries of other segments do not matter. -/
theorem regroup_filter_ne {k : ι} (hk : k ∉ keys) :
    regroup key keys (l.filter fun a => key a ≠ k) = regroup key keys l := by
  rw [← filter_regroup,List.filter_eq_self]
  intro a ha
  have hmem := (mem_regroup.mp ha).2
  exact decide_eq_true fun heq => hk (heq ▸ hmem)

theorem regroup_perm (hnodup : keys.Nodup) (hcovers : ∀ a ∈ l, key a ∈ keys) :
    (regroup key keys l).Perm l := by
  induction keys generalizing l with
  | nil =>
    obtain rfl : l = [] := List.eq_nil_iff_forall_not_mem.mpr fun a ha => by
      cases hcovers a ha
    exact List.Perm.refl _
  | cons k keys ih =>
    obtain ⟨hk,hnodup⟩ := List.nodup_cons.mp hnodup
    have hrest : (regroup key keys (l.filter fun a => key a ≠ k)).Perm
        (l.filter fun a => key a ≠ k) := by
      refine ih hnodup fun a ha => ?_
      obtain ⟨ha,hne⟩ := List.mem_filter.mp ha
      exact (List.mem_cons.mp (hcovers a ha)).resolve_left (of_decide_eq_true hne)
    rw [regroup_filter_ne hk] at hrest
    rw [regroup_cons]
    refine (hrest.append_left _).trans ?_
    have hsplit := List.filter_append_perm (fun a => decide (key a = k)) l
    refine List.Perm.trans (List.Perm.append_left _ (List.Perm.of_eq ?_)) hsplit
    exact List.filter_congr fun a _ => by simp

/-- Inside a segment the order is the order of the log. -/
theorem regroup_filter_key (hnodup : keys.Nodup) (hcovers : ∀ a ∈ l, key a ∈ keys) (k : ι) :
    ((regroup key keys l).filter fun a => key a = k) = l.filter fun a => key a = k := by
  rw [filter_regroup]
  have hfilter : ∀ a ∈ l.filter (fun a => key a = k), key a = k := fun a ha =>
    of_decide_eq_true (List.mem_filter.mp ha).2
  have hmem : ∀ a ∈ l.filter (fun a => key a = k), key a ∈ keys := fun a ha =>
    hcovers a (List.mem_filter.mp ha).1
  generalize l.filter (fun a => key a = k) = group at hfilter hmem
  clear hcovers
  induction keys with
  | nil =>
    obtain rfl : group = [] := List.eq_nil_iff_forall_not_mem.mpr fun a ha => by
      cases hmem a ha
    rfl
  | cons k' keys ih =>
    obtain ⟨hk',hnodup⟩ := List.nodup_cons.mp hnodup
    rw [regroup_cons]
    by_cases heq : k' = k
    · have hall : group.filter (fun a => key a = k') = group :=
        List.filter_eq_self.mpr fun a ha => decide_eq_true ((hfilter a ha).trans heq.symm)
      have hnone : regroup key keys group = [] := List.eq_nil_iff_forall_not_mem.mpr fun a ha =>
        have hra := mem_regroup.mp ha
        hk' (heq.trans (hfilter a hra.1).symm ▸ hra.2)
      rw [hall,hnone,List.append_nil]
    · have hnone : group.filter (fun a => key a = k') = [] :=
        List.filter_eq_nil_iff.mpr fun a ha hkey =>
          heq ((of_decide_eq_true hkey).symm.trans (hfilter a ha))
      rw [hnone,List.nil_append]
      exact ih hnodup fun a ha => (List.mem_cons.mp (hmem a ha)).resolve_left fun hkey =>
        heq (hkey.symm.trans (hfilter a ha))

/-- The keys of what is read never step back. -/
theorem regroup_pairwise_le (hkeys : keys.Pairwise (· < ·)) :
    (regroup key keys l).Pairwise fun a b => key a ≤ key b := by
  induction keys with
  | nil => exact List.Pairwise.nil
  | cons k keys ih =>
    obtain ⟨hk,hkeys⟩ := List.pairwise_cons.mp hkeys
    rw [regroup_cons]
    refine List.pairwise_append.mpr ⟨?_,ih hkeys,?_⟩
    · refine List.pairwise_of_forall_mem_list fun a ha b hb => ?_
      rw [of_decide_eq_true (List.mem_filter.mp ha).2,of_decide_eq_true (List.mem_filter.mp hb).2]
    · intro a ha b hb
      rw [of_decide_eq_true (List.mem_filter.mp ha).2]
      exact le_of_lt (hk _ (mem_regroup.mp hb).2)

section Order

variable {r : α → α → Prop}

/-- The keys decide first, then the order of the log. -/
theorem regroup_pairwise_lex (hkeys : keys.Pairwise (· < ·)) (hl : l.Pairwise r) :
    (regroup key keys l).Pairwise fun a b => key a < key b ∨ (key a = key b ∧ r a b) := by
  induction keys with
  | nil => exact List.Pairwise.nil
  | cons k keys ih =>
    obtain ⟨hk,hkeys⟩ := List.pairwise_cons.mp hkeys
    rw [regroup_cons]
    refine List.pairwise_append.mpr ⟨?_,ih hkeys,?_⟩
    · have hgroup := (hl.filter fun a => key a = k).and
        (List.pairwise_of_forall_mem_list fun a ha b hb =>
          (of_decide_eq_true (List.mem_filter.mp ha).2).trans
            (of_decide_eq_true (List.mem_filter.mp hb).2).symm)
      exact hgroup.imp fun h => .inr ⟨h.2,h.1⟩
    · intro a ha b hb
      rw [of_decide_eq_true (List.mem_filter.mp ha).2]
      exact .inl (hk _ (mem_regroup.mp hb).2)

/-- A log whose keys never step back is read in its own order. -/
theorem regroup_eq_self (hkeys : keys.Pairwise (· < ·)) (hcovers : ∀ a ∈ l, key a ∈ keys)
    (hasymm : ∀ a ∈ l, ∀ b ∈ l, r a b → ¬ r b a) (hl : l.Pairwise r)
    (hordered : l.Pairwise fun a b => key a ≤ key b) : regroup key keys l = l := by
  have hperm := regroup_perm (hkeys.imp fun h => ne_of_lt h) hcovers
  have hlex : l.Pairwise fun a b => key a < key b ∨ (key a = key b ∧ r a b) :=
    (hl.and hordered).imp fun h => (lt_or_eq_of_le h.2).imp id fun heq => ⟨heq,h.1⟩
  refine List.Perm.eq_of_pairwise ?_ (regroup_pairwise_lex hkeys hl) hlex hperm
  intro a b ha hb hab hba
  have ha := (mem_regroup.mp ha).1
  obtain hlt | ⟨heq,hr⟩ := hab
  · obtain hlt' | ⟨heq',-⟩ := hba
    · exact absurd hlt (lt_asymm hlt')
    · exact absurd hlt (by rw [heq']; exact lt_irrefl _)
  · obtain hlt' | ⟨-,hr'⟩ := hba
    · exact absurd hlt' (by rw [heq]; exact lt_irrefl _)
    · exact absurd hr' (hasymm a ha b hb hr)

/-- What is read is in the order of the log exactly when the keys never step back. -/
theorem regroup_pairwise_iff (hkeys : keys.Pairwise (· < ·)) (hcovers : ∀ a ∈ l, key a ∈ keys)
    (hasymm : ∀ a ∈ l, ∀ b ∈ l, r a b → ¬ r b a) (hl : l.Pairwise r) :
    (regroup key keys l).Pairwise r ↔ l.Pairwise fun a b => key a ≤ key b := by
  constructor
  · intro hread
    have hperm := regroup_perm (hkeys.imp fun h => ne_of_lt h) hcovers
    have heq : regroup key keys l = l := by
      refine List.Perm.eq_of_pairwise ?_ hread hl hperm
      intro a b ha hb hab hba
      exact absurd hba (hasymm a (mem_regroup.mp ha).1 b hb hab)
    rw [← heq]
    exact regroup_pairwise_le hkeys
  · intro hordered
    rw [regroup_eq_self hkeys hcovers hasymm hl hordered]
    exact hl

end Order

end Segments
