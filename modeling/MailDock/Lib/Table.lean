import Mathlib.Data.List.Dedup
import Mathlib.Data.List.Pairwise

/-!
# Keyed tables

A table is the list of its rows in insertion order.  A key is a partial function
of the row, `none` standing for an SQL `NULL`, which never takes part in a
uniqueness constraint.  The statements are the ones a program issues against
such a table: `UPDATE … WHERE`, `DELETE … WHERE`, and an upsert on a key.
-/

namespace Relational

variable {α κ : Type*}

/-- Two rows never agree on a key that is not `NULL`. -/
def UniqueOn (key : α → Option κ) (rows : List α) : Prop :=
  rows.Pairwise fun a b => key a = none ∨ key a ≠ key b

instance (key : α → Option κ) [DecidableEq κ] (rows : List α) : Decidable (UniqueOn key rows) :=
  inferInstanceAs (Decidable (List.Pairwise _ rows))

theorem UniqueOn.eq_of_key {key : α → Option κ} {rows : List α} (h : UniqueOn key rows)
    {a b : α} {k : κ} (ha : a ∈ rows) (hb : b ∈ rows) (hka : key a = some k)
    (hkb : key b = some k) : a = b := by
  by_contra hne
  have hsym : Std.Symm fun a b : α => key a = none ∨ key a ≠ key b :=
    ⟨fun x y hxy => by grind⟩
  have := List.Pairwise.forall h ha hb hne
  simp [hka,hkb] at this

/-- At most one row has a given key. -/
theorem UniqueOn.filter_eq {key : α → Option κ} {rows : List α} (h : UniqueOn key rows)
    {p : α → Bool} {a : α} {k : κ} (ha : a ∈ rows) (hpa : p a = true)
    (hp : ∀ r ∈ rows, p r = true → key r = some k) : rows.filter p = [a] := by
  have hall : ∀ r ∈ rows.filter p, r = a := by
    intro r hr
    obtain ⟨hr,hpr⟩ := List.mem_filter.mp hr
    exact h.eq_of_key hr ha (hp r hr hpr) (hp a ha hpa)
  have hunique : (rows.filter p).Pairwise fun x y => key x = none ∨ key x ≠ key y :=
    List.Pairwise.sublist List.filter_sublist h
  cases hrows : rows.filter p with
  | nil => exact absurd (hrows ▸ List.mem_filter.mpr ⟨ha,hpa⟩) List.not_mem_nil
  | cons x xs =>
    rw [hrows] at hall hunique
    obtain rfl := hall x List.mem_cons_self
    cases xs with
    | nil => rfl
    | cons y ys =>
      obtain rfl := hall y (by simp)
      have hne := (List.pairwise_cons.mp hunique).1 y List.mem_cons_self
      simp [hp y ha hpa] at hne

theorem UniqueOn.sublist {key : α → Option κ} {rows rows' : List α} (h : UniqueOn key rows)
    (hs : rows'.Sublist rows) : UniqueOn key rows' :=
  List.Pairwise.sublist hs h

/-- Appending a row keeps a key unique when no present row has the key. -/
theorem UniqueOn.concat {key : α → Option κ} {rows : List α} (h : UniqueOn key rows) {r : α}
    (hr : ∀ a ∈ rows, key a = none ∨ key a ≠ key r) : UniqueOn key (rows ++ [r]) := by
  refine List.pairwise_append.mpr ⟨h,List.pairwise_singleton _ _,?_⟩
  intro a ha b hb
  rw [List.mem_singleton.mp hb]
  exact hr a ha

/-- `UPDATE … SET f WHERE p`. -/
def update (p : α → Bool) (f : α → α) (rows : List α) : List α :=
  rows.map fun r => if p r then f r else r

/-- `DELETE … WHERE p`. -/
def deleteWhere (p : α → Bool) (rows : List α) : List α :=
  rows.filter fun r => !p r

theorem mem_update {p : α → Bool} {f : α → α} {rows : List α} {r : α} :
    r ∈ update p f rows ↔ (r ∈ rows ∧ p r = false) ∨ ∃ a ∈ rows, p a = true ∧ f a = r := by
  simp only [update,List.mem_map]
  constructor
  · rintro ⟨a,ha,rfl⟩
    cases hp : p a with
    | true => exact .inr ⟨a,ha,hp,by simp⟩
    | false => exact .inl (by simpa [hp] using ha)
  · rintro (⟨hr,hp⟩ | ⟨a,ha,hp,rfl⟩)
    · exact ⟨r,hr,by simp [hp]⟩
    · exact ⟨a,ha,by simp [hp]⟩

theorem mem_deleteWhere {p : α → Bool} {rows : List α} {r : α} :
    r ∈ deleteWhere p rows ↔ r ∈ rows ∧ p r = false := by
  simp [deleteWhere]

/-- An update that leaves the key of every row it touches alone keeps it unique. -/
theorem UniqueOn.update_of_key {key : α → Option κ} {rows : List α} (h : UniqueOn key rows)
    {p : α → Bool} {f : α → α} (hf : ∀ r ∈ rows, p r = true → key (f r) = key r) :
    UniqueOn key (update p f rows) := by
  have hkey : ∀ r ∈ rows, key (if p r then f r else r) = key r := by
    intro r hr
    split
    · next hp => exact hf r hr hp
    · rfl
  refine List.pairwise_map.mpr (List.Pairwise.imp_of_mem ?_ h)
  intro a b ha hb hab
  rwa [hkey a ha,hkey b hb]

/-- Overwriting the one row that matches keeps a key unique when no other row has the new key. -/
theorem UniqueOn.update_const {key : α → Option κ} {rows : List α} (h : UniqueOn key rows)
    {p : α → Bool} {row : α} (hp : rows.Pairwise fun a b => p a = false ∨ p b = false)
    (hr : ∀ a ∈ rows, p a = false → key a = none ∨ key a ≠ key row) :
    UniqueOn key (update p (fun _ => row) rows) := by
  refine List.pairwise_map.mpr (List.Pairwise.imp_of_mem ?_ (List.Pairwise.and h hp))
  rintro a b ha hb ⟨hab,hpab⟩
  cases hpa : p a with
  | false =>
    cases hpb : p b with
    | false => simpa using hab
    | true => simpa using hr a ha hpa
  | true =>
    have hpb : p b = false := by simpa [hpa] using hpab
    have hrb := hr b hb hpb
    simp only [hpb,if_true,Bool.false_eq_true,if_false]
    grind

/-- The keys of a mapping filled in this order: each key where it first occurs. -/
def distinct {α : Type*} [DecidableEq α] (xs : List α) : List α := xs.reverse.dedup.reverse

@[simp]
theorem mem_distinct {α : Type*} [DecidableEq α] {xs : List α} {x : α} :
    x ∈ distinct xs ↔ x ∈ xs := by
  simp [distinct]

theorem nodup_distinct {α : Type*} [DecidableEq α] (xs : List α) : (distinct xs).Nodup :=
  List.nodup_reverse.mpr (List.nodup_dedup _)

/-- `d[k] = v` on a mapping: a key that is there keeps its place, a new one goes to the end. -/
def assign {ν : Type*} [DecidableEq κ] (d : List (κ × ν)) (k : κ) (v : ν) : List (κ × ν) :=
  if d.any fun e => e.1 == k then update (fun e => e.1 == k) (fun _ => (k,v)) d
  else d ++ [(k,v)]

/-- A key that is not there goes to the end. -/
theorem assign_new {ν : Type*} [DecidableEq κ] {d : List (κ × ν)} {k : κ} {v : ν}
    (h : k ∉ d.map Prod.fst) : assign d k v = d ++ [(k,v)] := by
  unfold assign
  rw [if_neg]
  intro hany
  obtain ⟨e,he,hkey⟩ := List.any_eq_true.mp hany
  exact h (List.mem_map.mpr ⟨e,he,beq_iff_eq.mp hkey⟩)

end Relational
