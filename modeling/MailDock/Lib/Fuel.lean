import MailDock.Lib.Program

/-!
# Programs with fuel

A loop that may run for ever is a program for each amount of fuel.  It ends if from some amount on
the outcome is always the same.

## Main definitions

- `Hoare.Converges` — the outcome with enough fuel
- `Hoare.Total` — a triple that also says that the program ends

## Main results

- `Hoare.Converges.bind`, `Hoare.Converges.handle` — the parts of a program can be run one by one
- `Hoare.Converges.succ` — one round of a loop takes one unit of fuel
- `Hoare.Total.accumulate_prefix` — a loop over a list ends if its body does
-/

namespace Hoare

variable {ε σ α β : Type}

/-- With enough fuel the program ends like this. -/
def Converges (p : Nat → Prog ε σ α) (s : σ) (r : Except ε α × σ) : Prop :=
  ∃ n, ∀ fuel, n ≤ fuel → p fuel s = r

namespace Converges

variable {p : Nat → Prog ε σ α} {s s' : σ} {r : Except ε α × σ}

theorem const (p : Prog ε σ α) (s : σ) : Converges (fun _ => p) s (p s) := ⟨0,fun _ _ => rfl⟩

theorem of_eq {p : Prog ε σ α} (h : p s = r) : Converges (fun _ => p) s r := ⟨0,fun _ _ => h⟩

theorem bind {f : Nat → α → Prog ε σ β} {a : α} {q : Except ε β × σ}
    (hp : Converges p s (.ok a,s')) (hf : Converges (fun fuel => f fuel a) s' q) :
    Converges (fun fuel => p fuel >>= f fuel) s q := by
  obtain ⟨n,hn⟩ := hp
  obtain ⟨m,hm⟩ := hf
  refine ⟨max n m,fun fuel hfuel => ?_⟩
  show (p fuel >>= f fuel) s = q
  rw [Prog.bind_of_ok (hn fuel (by omega))]
  exact hm fuel (by omega)

theorem bind_error {f : Nat → α → Prog ε σ β} {e : ε} (hp : Converges p s (.error e,s')) :
    Converges (fun fuel => p fuel >>= f fuel) s (.error e,s') := by
  obtain ⟨n,hn⟩ := hp
  exact ⟨n,fun fuel hfuel => Prog.bind_of_error (hn fuel hfuel)⟩

theorem handle {handler : Nat → ε → Prog ε σ α} {e : ε} (hp : Converges p s (.error e,s'))
    (hh : Converges (fun fuel => handler fuel e) s' r) :
    Converges (fun fuel => tryCatch (p fuel) (handler fuel)) s r := by
  obtain ⟨n,hn⟩ := hp
  obtain ⟨m,hm⟩ := hh
  refine ⟨max n m,fun fuel hfuel => ?_⟩
  show Prog.tryCatch (p fuel) (handler fuel) s = r
  rw [Prog.tryCatch,hn fuel (by omega)]
  exact hm fuel (by omega)

theorem handle_ok {handler : Nat → ε → Prog ε σ α} {a : α} (hp : Converges p s (.ok a,s')) :
    Converges (fun fuel => tryCatch (p fuel) (handler fuel)) s (.ok a,s') := by
  obtain ⟨n,hn⟩ := hp
  refine ⟨n,fun fuel hfuel => ?_⟩
  show Prog.tryCatch (p fuel) (handler fuel) s = (.ok a,s')
  rw [Prog.tryCatch,hn fuel hfuel]

/-- One more unit of fuel pays for one round of a loop. -/
theorem succ {p : Nat → Prog ε σ α} (h : Converges (fun fuel => p (fuel + 1)) s r) :
    Converges p s r := by
  obtain ⟨n,hn⟩ := h
  refine ⟨n + 1,fun fuel hfuel => ?_⟩
  obtain ⟨m,rfl⟩ : ∃ m, fuel = m + 1 := ⟨fuel - 1,by omega⟩
  exact hn m (by omega)

end Converges

/-- From a state satisfying `P` the program ends, and its outcome is as in a triple. -/
def Total (P : σ → Prop) (p : Nat → Prog ε σ α) (Q : α → σ → Prop) (E : ε → σ → Prop) : Prop :=
  ∀ s, P s → ∃ r, Converges p s r ∧ Holds Q E r

namespace Total

variable {P P' : σ → Prop} {Q Q' : α → σ → Prop} {E E' : ε → σ → Prop} {R : β → σ → Prop}

theorem of_triple {p : Prog ε σ α} (h : Triple P p Q E) : Total P (fun _ => p) Q E :=
  fun s hs => ⟨p s,.const p s,h s hs⟩

theorem seq {p : Nat → Prog ε σ α} {f : Nat → α → Prog ε σ β} (hp : Total P p Q E)
    (hf : ∀ a, Total (Q a) (fun fuel => f fuel a) R E) :
    Total P (fun fuel => p fuel >>= f fuel) R E := by
  intro s hs
  obtain ⟨⟨outcome,s'⟩,hconverges,hholds⟩ := hp s hs
  cases outcome with
  | ok a =>
    obtain ⟨r,hr,hholds⟩ := hf a s' hholds
    exact ⟨r,hconverges.bind hr,hholds⟩
  | error e => exact ⟨(.error e,s'),hconverges.bind_error,hholds⟩

/-- One more unit of fuel pays for one round of a loop. -/
theorem succ {p : Nat → Prog ε σ α} (h : Total P (fun fuel => p (fuel + 1)) Q E) :
    Total P p Q E := by
  intro s hs
  obtain ⟨r,hconverges,hholds⟩ := h s hs
  exact ⟨r,hconverges.succ,hholds⟩

/-- A fact that does not depend on the state can be used in the proof. -/
theorem assume {φ : Prop} {p : Nat → Prog ε σ α} (h : φ → Total P p Q E) :
    Total (fun s => P s ∧ φ) p Q E :=
  fun s hs => h hs.2 s hs.1

theorem consequence {p : Nat → Prog ε σ α} (h : Total P p Q E) (hP : ∀ s, P' s → P s)
    (hQ : ∀ a s, Q a s → Q' a s) (hE : ∀ e s, E e s → E' e s) : Total P' p Q' E' := by
  intro s hs
  obtain ⟨⟨outcome,s'⟩,hconverges,hholds⟩ := h s (hP s hs)
  refine ⟨_,hconverges,?_⟩
  cases outcome with
  | ok a => exact hQ a s' hholds
  | error e => exact hE e s' hholds

/-- The invariant of a loop speaks about the part of the list that is done. -/
theorem accumulate_prefix {I : List α → β → σ → Prop} {f : Nat → β → α → Prog ε σ β} (xs : List α)
    (h : ∀ done x rest, xs = done ++ x :: rest → ∀ b,
      Total (I done b) (fun fuel => f fuel b x) (I (done ++ [x])) E) (b : β) :
    Total (I [] b) (fun fuel => xs.foldlM (f fuel) b) (I xs) E := by
  have hrest : ∀ rest done b, xs = done ++ rest →
      Total (I done b) (fun fuel => rest.foldlM (f fuel) b) (I xs) E := by
    intro rest
    induction rest with
    | nil =>
      intro done b hxs
      rw [List.append_nil] at hxs
      subst hxs
      exact of_triple (Triple.ret fun s hs => hs)
    | cons x rest ih =>
      intro done b hxs
      refine (h done x rest hxs b).seq fun b' => ih (done ++ [x]) b' ?_
      rw [hxs,List.append_assoc,List.singleton_append]
  exact hrest xs [] b rfl

end Total

end Hoare
