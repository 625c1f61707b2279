import Mathlib.Data.List.Basic

/-!
# Ordered forests

A forest is a list of trees whose branches and leaves carry labels of two kinds.  Document order is
the preorder of the labels.  Pruning drops every branch with a certain label, and with it what
stands below; relabelling changes the labels of branches in place.

## Main definitions

- `preorder` — the labels in document order
- `prune` — the forest without the branches of certain labels
- `relabel` — the forest with other labels on its branches
-/

namespace Forest

inductive Tree (α β : Type)
  | branch (label : α) (children : List (Tree α β))
  | leaf (value : β)

variable {α β : Type}

mutual

def Tree.preorder : Tree α β → List (α ⊕ β)
  | .branch a children => .inl a :: preorder children
  | .leaf b => [.inr b]

/-- The labels of a forest in document order. -/
def preorder : List (Tree α β) → List (α ⊕ β)
  | [] => []
  | t :: forest => t.preorder ++ preorder forest

end

mutual

def Tree.prune (p : α → Bool) : Tree α β → List (Tree α β)
  | .branch a children => if p a then [] else [.branch a (prune p children)]
  | .leaf b => [.leaf b]

/-- The forest without the branches `p` holds of, and what is below them. -/
def prune (p : α → Bool) : List (Tree α β) → List (Tree α β)
  | [] => []
  | t :: forest => t.prune p ++ prune p forest

end

mutual

def Tree.relabel (f : α → α) : Tree α β → Tree α β
  | .branch a children => .branch (f a) (relabel f children)
  | .leaf b => .leaf b

def relabel (f : α → α) : List (Tree α β) → List (Tree α β)
  | [] => []
  | t :: forest => t.relabel f :: relabel f forest

end

theorem preorder_append (forest forest' : List (Tree α β)) :
    preorder (forest ++ forest') = preorder forest ++ preorder forest' := by
  induction forest with
  | nil => rfl
  | cons t forest ih => rw [List.cons_append,preorder,preorder,ih,List.append_assoc]

theorem preorder_branch (a : α) (children : List (Tree α β)) :
    preorder [.branch a children] = .inl a :: preorder children := by
  rw [preorder,preorder,List.append_nil,Tree.preorder]

theorem prune_branch (p : α → Bool) (a : α) (children forest : List (Tree α β)) :
    prune p (.branch a children :: forest) =
      if p a then prune p forest else .branch a (prune p children) :: prune p forest := by
  rw [prune,Tree.prune]
  split
  · rfl
  · rfl

mutual

theorem Tree.mem_preorder_prune {p : α → Bool} {x : α ⊕ β} : (t : Tree α β) →
    x ∈ Forest.preorder (t.prune p) → x ∈ t.preorder ∧ ∀ a, x = .inl a → p a = false
  | .branch a children,h => by
    rw [Tree.prune] at h
    split at h
    · cases h
    · next hp =>
      rw [preorder_branch] at h
      rw [Tree.preorder]
      rcases List.mem_cons.mp h with rfl | h
      · refine ⟨List.mem_cons_self,fun b hb => ?_⟩
        cases hb
        simpa using hp
      · obtain ⟨hmem,hlabel⟩ := mem_preorder_prune children h
        exact ⟨List.mem_cons_of_mem _ hmem,hlabel⟩
  | .leaf b,h => by
    rw [Tree.prune,preorder,preorder,List.append_nil] at h
    refine ⟨h,fun a ha => ?_⟩
    rw [Tree.preorder,ha] at h
    simp at h

/-- What is left after pruning was there before, and carries no label that was pruned. -/
theorem mem_preorder_prune {p : α → Bool} {x : α ⊕ β} : (forest : List (Tree α β)) →
    x ∈ preorder (prune p forest) → x ∈ preorder forest ∧ ∀ a, x = .inl a → p a = false
  | [],h => by cases h
  | t :: forest,h => by
    rw [prune,preorder_append] at h
    rw [preorder]
    rcases List.mem_append.mp h with h | h
    · obtain ⟨hmem,hlabel⟩ := t.mem_preorder_prune h
      exact ⟨List.mem_append_left _ hmem,hlabel⟩
    · obtain ⟨hmem,hlabel⟩ := mem_preorder_prune forest h
      exact ⟨List.mem_append_right _ hmem,hlabel⟩

end

mutual

theorem Tree.preorder_relabel (f : α → α) : (t : Tree α β) →
    (t.relabel f).preorder = t.preorder.map (Sum.map f id)
  | .branch a children => by
    rw [Tree.relabel,Tree.preorder,Tree.preorder,List.map_cons,preorder_relabel f children]
    rfl
  | .leaf b => rfl

theorem preorder_relabel (f : α → α) : (forest : List (Tree α β)) →
    preorder (relabel f forest) = (preorder forest).map (Sum.map f id)
  | [] => rfl
  | t :: forest => by
    rw [relabel,preorder,preorder,List.map_append,t.preorder_relabel f,preorder_relabel f forest]

end

/-- A branch of a relabelled forest has the new label of one of the old branches. -/
theorem mem_preorder_relabel {f : α → α} {forest : List (Tree α β)} {a : α}
    (h : .inl a ∈ preorder (relabel f forest)) : ∃ b, .inl b ∈ preorder forest ∧ f b = a := by
  rw [preorder_relabel] at h
  obtain ⟨x,hx,hxa⟩ := List.mem_map.mp h
  cases x with
  | inl b =>
    cases hxa
    exact ⟨b,hx,rfl⟩
  | inr b => cases hxa

end Forest
