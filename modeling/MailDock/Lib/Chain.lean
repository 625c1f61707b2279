import Mathlib.Data.List.Basic
import Mathlib.Logic.Relation

/-!
# Chains of links

Following a partial function from a point either ends or enters a cycle.  A search that remembers
the points it has passed decides which, and it cannot pass more points than there are links.

## Main definitions

- `Chain.EndsAt`, `Chain.Cyclic` — what becomes of a chain
- `Chain.Search` — the search for the end, as the rounds of a loop

## Main results

- `Chain.endsAt_or_cyclic` — the outcomes of a search
- `Chain.unseen_lt` — every round leaves fewer links to follow
-/

namespace Chain

open Relation

variable {α : Type*} (f : α → Option α)

def Next (a b : α) : Prop := f a = some b

def EndsAt (a e : α) : Prop := ReflTransGen (Next f) a e ∧ f e = none

/-- The chain of `a` enters a cycle, which need not contain `a`. -/
def Cyclic (a : α) : Prop := ∃ c, ReflTransGen (Next f) a c ∧ TransGen (Next f) c c

/-- The rounds of a loop that follows the links and gives up at a point it has seen. -/
inductive Search : List α → α → Option α → Prop
  | ended {seen : List α} {a : α} (h : f a = none) : Search seen a (some a)
  | met {seen : List α} {a b : α} (h : f a = some b) (hseen : a ∈ seen) : Search seen a none
  | round {seen : List α} {a b : α} {r : Option α} (h : f a = some b) (hseen : a ∉ seen)
      (hrest : Search (a :: seen) b r) : Search seen a r

variable {f} {a b c e : α} {seen : List α} {r : Option α}

theorem rightUnique_next : Relator.RightUnique (Next f) := by
  intro a b c hb hc
  exact Option.some.inj (hb.symm.trans hc)

/-- From an end no link leads on. -/
theorem eq_of_end (he : f e = none) (h : ReflTransGen (Next f) e c) : c = e := by
  rcases h.cases_head with rfl | ⟨d,hd,-⟩
  · rfl
  · rw [Next,he] at hd
    cases hd

theorem EndsAt.unique {e' : α} (h : EndsAt f a e) (h' : EndsAt f a e') : e = e' := by
  rcases ReflTransGen.total_of_right_unique rightUnique_next h.1 h'.1 with hee' | he'e
  · exact (eq_of_end h.2 hee').symm
  · exact eq_of_end h'.2 he'e

/-- A chain never leaves a cycle. -/
theorem cycle_closed (hcycle : TransGen (Next f) c c) (h : ReflTransGen (Next f) c b) :
    TransGen (Next f) b b := by
  induction h with
  | refl => exact hcycle
  | @tail b d _ hbd ih =>
    obtain ⟨x,hbx,hxb⟩ := TransGen.head'_iff.mp ih
    obtain rfl : x = d := rightUnique_next hbx hbd
    exact TransGen.tail' hxb hbd

theorem EndsAt.not_cyclic (h : EndsAt f a e) : ¬ Cyclic f a := by
  rintro ⟨c,hac,hcycle⟩
  have hend : ReflTransGen (Next f) c e := by
    rcases ReflTransGen.total_of_right_unique rightUnique_next h.1 hac with hec | hce
    · rw [eq_of_end h.2 hec]
    · exact hce
  obtain ⟨x,hex,-⟩ := TransGen.head'_iff.mp (cycle_closed hcycle hend)
  rw [Next,h.2] at hex
  cases hex

/-- What a search finds, when the points it has seen all lead to where it stands. -/
theorem Search.outcome (h : Search f seen a r) (hseen : ∀ s ∈ seen, TransGen (Next f) s a) :
    (∀ e, r = some e → EndsAt f a e) ∧ (r = none → Cyclic f a) := by
  induction h with
  | @ended _ a h => exact ⟨fun e he => Option.some.inj he ▸ ⟨.refl,h⟩,nofun⟩
  | @met _ a b h hmem => exact ⟨nofun,fun _ => ⟨a,.refl,hseen a hmem⟩⟩
  | @round seen a b r h _ _ ih =>
    have hback : ∀ s ∈ a :: seen, TransGen (Next f) s b := by
      intro s hs
      rcases List.mem_cons.mp hs with rfl | hs
      · exact .single h
      · exact (hseen s hs).tail h
    obtain ⟨hend,hcycle⟩ := ih hback
    refine ⟨fun e he => ⟨.head h (hend e he).1,(hend e he).2⟩,fun hnone => ?_⟩
    obtain ⟨c,hbc,hcc⟩ := hcycle hnone
    exact ⟨c,.head h hbc,hcc⟩

/-- A search from a fresh start finds the end of the chain, or nothing when it is cyclic. -/
theorem endsAt_or_cyclic (h : Search f [] a r) :
    (∀ e, r = some e ↔ EndsAt f a e) ∧ (r = none ↔ Cyclic f a) := by
  obtain ⟨hend,hcycle⟩ := h.outcome (by simp)
  cases r with
  | none =>
    refine ⟨fun e => ⟨nofun,fun he => ?_⟩,fun _ => hcycle rfl,fun _ => rfl⟩
    exact (he.not_cyclic (hcycle rfl)).elim
  | some e =>
    have he := hend e rfl
    exact ⟨fun e' => ⟨hend e',fun he' => congrArg some (he.unique he')⟩,nofun,
      fun hcyclic => (he.not_cyclic hcyclic).elim⟩

/-- The links that are still to be passed. -/
def unseen [DecidableEq α] (keys seen : List α) : List α := keys.filter fun k => k ∉ seen

theorem unseen_lt [DecidableEq α] {keys : List α} (ha : a ∈ keys) (hseen : a ∉ seen) :
    (unseen keys (a :: seen)).length < (unseen keys seen).length := by
  have hsub : unseen keys (a :: seen) = (unseen keys seen).filter fun k => k ≠ a := by
    rw [unseen,unseen,List.filter_filter]
    apply List.filter_congr
    intro k _
    simp [not_or]
  rw [hsub]
  refine List.length_filter_lt_length_iff_exists.mpr ⟨a,?_,by simp⟩
  exact List.mem_filter.mpr ⟨ha,by simpa using hseen⟩

end Chain
