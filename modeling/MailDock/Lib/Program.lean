import Mathlib.Order.Basic

/-!
# Programs with exceptions and state

Two kinds of program.  A pure fallible computation is an `Except ε`.  A program
with effects is a `Prog ε σ`: raising an exception does not undo the effects that
came before it, so a specification of such a program speaks about the state after
a normal return and about the state after an exception.

## Main definitions

- `Hoare.Prog` — programs over a state `σ` that may raise an `ε`
- `Hoare.Triple` — a precondition, a normal and an exceptional postcondition
- `Hoare.Maintains` — a program that keeps an invariant, however it ends
-/

namespace Except

universe u v

variable {ε : Type u} {α β : Type v}

theorem bind_eq_ok_iff {x : Except ε α} {f : α → Except ε β} {b : β} :
    x >>= f = .ok b ↔ ∃ a, x = .ok a ∧ f a = .ok b := by
  cases x with
  | error e => simp [bind,Except.bind]
  | ok a => simp [bind,Except.bind]

/-- An invariant of every successful step holds after a successful loop. -/
theorem foldlM_invariant {f : β → α → Except ε β} {I : β → Prop} (xs : List α)
    (hstep : ∀ b, ∀ x ∈ xs, ∀ b', I b → f b x = .ok b' → I b') {b b' : β} (hb : I b)
    (h : xs.foldlM f b = .ok b') : I b' := by
  induction xs generalizing b with
  | nil =>
    cases h
    exact hb
  | cons x xs ih =>
    rw [List.foldlM_cons,bind_eq_ok_iff] at h
    obtain ⟨m,hm,hrest⟩ := h
    have hmid : I m := hstep b x (by simp) m hb hm
    exact ih (fun b x hx => hstep b x (by simp [hx])) hmid hrest

/-- What the step of an element establishes and the other steps keep holds of
every element after a successful loop. -/
theorem foldlM_establishes {f : β → α → Except ε β} {I : β → Prop} {P : α → β → Prop}
    (xs : List α) (hstep : ∀ b, ∀ x ∈ xs, ∀ b', I b → f b x = .ok b' →
      I b' ∧ P x b' ∧ ∀ y, P y b → P y b') {b b' : β} (hb : I b)
    (h : xs.foldlM f b = .ok b') : ∀ x ∈ xs, P x b' := by
  induction xs generalizing b with
  | nil => simp
  | cons x xs ih =>
    rw [List.foldlM_cons,bind_eq_ok_iff] at h
    obtain ⟨m,hm,hrest⟩ := h
    obtain ⟨hmid,hx,-⟩ := hstep b x (by simp) m hb hm
    have hstep' := fun b y (hy : y ∈ xs) => hstep b y (by simp [hy])
    intro y hy
    rcases List.mem_cons.mp hy with rfl | hy
    · refine (foldlM_invariant (I := fun b => I b ∧ P y b) xs ?_ ⟨hmid,hx⟩ hrest).2
      intro b z hz b' hb hbz
      obtain ⟨hb',-,hkept⟩ := hstep' b z hz b' hb.1 hbz
      exact ⟨hb',hkept y hb.2⟩
    · exact ih hstep' hmid hrest y hy

/-- Every element of a list that was mapped without an error was. -/
theorem ok_of_mapM {f : α → Except ε β} {xs : List α} {ys : List β} (h : xs.mapM f = .ok ys) :
    ∀ x ∈ xs, ∃ y ∈ ys, f x = .ok y := by
  induction xs generalizing ys with
  | nil => simp
  | cons x xs ih =>
    rw [List.mapM_cons,bind_eq_ok_iff] at h
    obtain ⟨y,hy,h⟩ := h
    rw [bind_eq_ok_iff] at h
    obtain ⟨zs,hzs,h⟩ := h
    cases h
    intro z hz
    rcases List.mem_cons.mp hz with rfl | hz
    · exact ⟨y,by simp,hy⟩
    · obtain ⟨v,hv,hfv⟩ := ih hzs z hz
      exact ⟨v,by simp [hv],hfv⟩

/-- Every error the computation can raise satisfies the predicate. -/
def RaisesOnly (p : ε → Prop) (x : Except ε α) : Prop := ∀ e, x = .error e → p e

namespace RaisesOnly

variable {p : ε → Prop}

theorem ret (a : α) : RaisesOnly p (.ok a : Except ε α) := fun _ h => by cases h

theorem raise {e : ε} (h : p e) : RaisesOnly p (.error e : Except ε α) := by
  intro e' he
  cases he
  exact h

theorem seq {x : Except ε α} {f : α → Except ε β} (hx : RaisesOnly p x)
    (hf : ∀ a, RaisesOnly p (f a)) : RaisesOnly p (x >>= f) := by
  intro e he
  cases x with
  | error e' =>
    cases he
    exact hx _ rfl
  | ok a => exact hf a e he

theorem accumulate {f : β → α → Except ε β} (h : ∀ b a, RaisesOnly p (f b a)) (xs : List α) (b : β) :
    RaisesOnly p (xs.foldlM f b) := by
  induction xs generalizing b with
  | nil => exact ret b
  | cons x xs ih =>
    rw [List.foldlM_cons]
    exact (h b x).seq fun b' => ih b'

theorem loop {f : α → Except ε PUnit} (h : ∀ a, RaisesOnly p (f a)) (xs : List α) :
    RaisesOnly p (xs.forM f) := by
  induction xs with
  | nil => exact ret _
  | cons x xs ih => exact (h x).seq fun _ => ih

end RaisesOnly

end Except

namespace Hoare

/-- A program that changes a state and may raise; the state survives the exception. -/
def Prog (ε σ α : Type) := σ → Except ε α × σ

variable {ε σ α β : Type}

namespace Prog

def bind (p : Prog ε σ α) (f : α → Prog ε σ β) : Prog ε σ β := fun s =>
  match p s with
  | (.ok a,s') => f a s'
  | (.error e,s') => (.error e,s')

def tryCatch (p : Prog ε σ α) (handler : ε → Prog ε σ α) : Prog ε σ α := fun s =>
  match p s with
  | (.ok a,s') => (.ok a,s')
  | (.error e,s') => handler e s'

instance : Monad (Prog ε σ) where
  pure a s := (.ok a,s)
  bind := bind

instance : MonadExcept ε (Prog ε σ) where
  throw e s := (.error e,s)
  tryCatch := tryCatch

instance : MonadStateOf σ (Prog ε σ) where
  get s := (.ok s,s)
  set s _ := (.ok ⟨⟩,s)
  modifyGet f s := (.ok (f s).1,(f s).2)

/-- Raise the error of a pure computation, or return its value. -/
def ofExcept (x : Except ε α) : Prog ε σ α := fun s => (x,s)

/-! Running a program whose first part is known. -/

theorem bind_of_ok {p : Prog ε σ α} {f : α → Prog ε σ β} {s s' : σ} {a : α}
    (h : p s = (.ok a,s')) : (p >>= f) s = f a s' := by
  show bind p f s = f a s'
  rw [bind,h]

theorem bind_of_error {p : Prog ε σ α} {f : α → Prog ε σ β} {s s' : σ} {e : ε}
    (h : p s = (.error e,s')) : (p >>= f) s = (.error e,s') := by
  show bind p f s = (.error e,s')
  rw [bind,h]

theorem bind_assoc {γ : Type} (p : Prog ε σ α) (f : α → Prog ε σ β) (g : β → Prog ε σ γ) :
    (p >>= f) >>= g = p >>= fun a => f a >>= g := by
  funext s
  show bind (bind p f) g s = bind p (fun a => bind (f a) g) s
  unfold bind
  rcases p s with ⟨r,s'⟩
  cases r <;> rfl

/-! A program that returned, taken apart. -/

theorem ok_of_bind {p : Prog ε σ α} {f : α → Prog ε σ β} {s s' : σ} {b : β}
    (h : (p >>= f) s = (.ok b,s')) : ∃ a m, p s = (.ok a,m) ∧ f a m = (.ok b,s') := by
  rcases hp : p s with ⟨r,m⟩
  cases r with
  | ok a => exact ⟨a,m,rfl,(bind_of_ok hp).symm.trans h⟩
  | error e => exact nomatch (bind_of_error hp).symm.trans h

theorem ok_of_tryCatch {p : Prog ε σ α} {handler : ε → Prog ε σ α} {s s' : σ} {a : α}
    (h : tryCatch p handler s = (.ok a,s')) :
    p s = (.ok a,s') ∨ ∃ e m, p s = (.error e,m) ∧ handler e m = (.ok a,s') := by
  rw [tryCatch] at h
  rcases hp : p s with ⟨r,m⟩
  rw [hp] at h
  cases r with
  | ok b => exact .inl h
  | error e => exact .inr ⟨e,m,rfl,h⟩

end Prog

/-- One predicate for a normal and one for an exceptional outcome. -/
def Holds (Q : α → σ → Prop) (E : ε → σ → Prop) : Except ε α × σ → Prop
  | (.ok a,s) => Q a s
  | (.error e,s) => E e s

/-- From a state satisfying `P`, a normal return satisfies `Q` and an exception satisfies `E`. -/
def Triple (P : σ → Prop) (p : Prog ε σ α) (Q : α → σ → Prop) (E : ε → σ → Prop) : Prop :=
  ∀ s, P s → Holds Q E (p s)

namespace Triple

variable {P P' : σ → Prop} {Q Q' : α → σ → Prop} {E E' : ε → σ → Prop} {R : β → σ → Prop}

theorem ret {a : α} (h : ∀ s, P s → Q a s) : Triple P (pure a : Prog ε σ α) Q E :=
  fun s hs => h s hs

theorem raise {e : ε} (h : ∀ s, P s → E e s) : Triple P (throw e : Prog ε σ α) Q E :=
  fun s hs => h s hs

theorem read {Q : σ → σ → Prop} (h : ∀ s, P s → Q s s) : Triple P (get : Prog ε σ σ) Q E :=
  fun s hs => h s hs

theorem write {f : σ → σ} {Q : PUnit → σ → Prop} (h : ∀ s, P s → Q ⟨⟩ (f s)) :
    Triple P (modify f : Prog ε σ PUnit) Q E :=
  fun s hs => h s hs

theorem ofExcept {x : Except ε α} (hok : ∀ a, x = .ok a → ∀ s, P s → Q a s)
    (herror : ∀ e, x = .error e → ∀ s, P s → E e s) : Triple P (Prog.ofExcept x) Q E := by
  intro s hs
  cases x with
  | ok a => exact hok a rfl s hs
  | error e => exact herror e rfl s hs

theorem seq {p : Prog ε σ α} {f : α → Prog ε σ β} (hp : Triple P p Q E)
    (hf : ∀ a, Triple (Q a) (f a) R E) : Triple P (p >>= f) R E := by
  intro s hs
  have h := hp s hs
  show Holds R E (Prog.bind p f s)
  unfold Prog.bind
  rcases hps : p s with ⟨r,s'⟩
  rw [hps] at h
  cases r with
  | ok a => exact hf a s' h
  | error e => exact h

theorem handle {p : Prog ε σ α} {handler : ε → Prog ε σ α} {F : ε → σ → Prop}
    (hp : Triple P p Q F) (hh : ∀ e, Triple (F e) (handler e) Q E) :
    Triple P (tryCatch p handler) Q E := by
  intro s hs
  have h := hp s hs
  show Holds Q E (Prog.tryCatch p handler s)
  unfold Prog.tryCatch
  rcases hps : p s with ⟨r,s'⟩
  rw [hps] at h
  cases r with
  | ok a => exact h
  | error e => exact hh e s' h

theorem consequence {p : Prog ε σ α} (h : Triple P p Q E) (hP : ∀ s, P' s → P s)
    (hQ : ∀ a s, Q a s → Q' a s) (hE : ∀ e s, E e s → E' e s) : Triple P' p Q' E' := by
  intro s hs
  have h' := h s (hP s hs)
  rcases hp : p s with ⟨r,s'⟩
  rw [hp] at h'
  cases r with
  | ok a => exact hQ a s' h'
  | error e => exact hE e s' h'

theorem weaken_pre {p : Prog ε σ α} (h : Triple P p Q E) (hP : ∀ s, P' s → P s) :
    Triple P' p Q E :=
  h.consequence hP (fun _ _ h => h) (fun _ _ h => h)

theorem strengthen_post {p : Prog ε σ α} (h : Triple P p Q E) (hQ : ∀ a s, Q a s → Q' a s) :
    Triple P p Q' E :=
  h.consequence (fun _ h => h) hQ (fun _ _ h => h)

theorem weaken_error {p : Prog ε σ α} (h : Triple P p Q E) (hE : ∀ e s, E e s → E' e s) :
    Triple P p Q E' :=
  h.consequence (fun _ h => h) (fun _ _ h => h) hE

/-- A fact that does not depend on the state can be used in the proof of the triple. -/
theorem assume {φ : Prop} {p : Prog ε σ α} (h : φ → Triple P p Q E) :
    Triple (fun s => P s ∧ φ) p Q E :=
  fun s hs => h hs.2 s hs.1

/-- The same for a state that satisfies the precondition for some value. -/
theorem choose {ι : Type} {P : ι → σ → Prop} {p : Prog ε σ α} (h : ∀ i, Triple (P i) p Q E) :
    Triple (fun s => ∃ i, P i s) p Q E :=
  fun s ⟨i,hs⟩ => h i s hs

/-- Sequencing when the first part is only asked about its result. -/
theorem seq_result {p : Prog ε σ α} {f : α → Prog ε σ β} {φ : α → Prop}
    (hp : Triple P p (fun a _ => φ a) E) (hf : ∀ a, φ a → Triple (fun _ => True) (f a) R E) :
    Triple P (p >>= f) R E :=
  hp.seq fun a s ha => hf a ha s trivial

/-- Every program satisfies the triple that says nothing. -/
theorem skip (p : Prog ε σ α) : Triple P p (fun _ _ => True) (fun _ _ => True) := by
  intro s _
  rcases p s with ⟨r,s'⟩
  cases r with
  | ok a => trivial
  | error e => trivial

/-- What holds after a normal return and after an exception holds of the final state. -/
theorem final {R : σ → Prop} {p : Prog ε σ α} (h : Triple P p (fun _ => R) (fun _ => R)) {s : σ}
    (hs : P s) : R (p s).2 := by
  have h' := h s hs
  rcases hp : p s with ⟨r,s'⟩
  rw [hp] at h'
  cases r with
  | ok a => exact h'
  | error e => exact h'

/-- Two specifications of one program hold together. -/
theorem and {p : Prog ε σ α} (h : Triple P p Q E) (h' : Triple P' p Q' E') :
    Triple (fun s => P s ∧ P' s) p (fun a s => Q a s ∧ Q' a s) (fun e s => E e s ∧ E' e s) := by
  intro s hs
  have hl := h s hs.1
  have hr := h' s hs.2
  rcases hp : p s with ⟨r,s'⟩
  rw [hp] at hl hr
  cases r with
  | ok a => exact ⟨hl,hr⟩
  | error e => exact ⟨hl,hr⟩

/-- A loop whose body keeps the invariant keeps it. -/
theorem loop {I : σ → Prop} {f : α → Prog ε σ PUnit} (xs : List α)
    (h : ∀ x ∈ xs, Triple I (f x) (fun _ => I) E) : Triple I (xs.forM f) (fun _ => I) E := by
  induction xs with
  | nil => exact ret fun _ hs => hs
  | cons x xs ih => exact (h x (by simp)).seq fun _ => ih fun y hy => h y (by simp [hy])

/-- The same for a loop with an accumulator. -/
theorem accumulate {I : β → σ → Prop} {f : β → α → Prog ε σ β} (xs : List α)
    (h : ∀ b, ∀ x ∈ xs, Triple (I b) (f b x) I E) (b : β) :
    Triple (I b) (xs.foldlM f b) I E := by
  induction xs generalizing b with
  | nil => exact ret fun _ hs => hs
  | cons x xs ih =>
    rw [List.foldlM_cons]
    exact (h b x (by simp)).seq fun b' => ih (fun b y hy => h b y (by simp [hy])) b'

/-- A loop whose invariant speaks about the part of the list that is done. -/
theorem loop_prefix {I : List α → σ → Prop} {f : α → Prog ε σ PUnit} (xs : List α)
    (h : ∀ done, ∀ x ∈ xs, Triple (I done) (f x) (fun _ => I (done ++ [x])) E)
    (done : List α) : Triple (I done) (xs.forM f) (fun _ => I (done ++ xs)) E := by
  induction xs generalizing done with
  | nil => exact ret fun s hs => by rwa [List.append_nil]
  | cons x xs ih =>
    rw [List.append_cons]
    exact (h done x (by simp)).seq fun _ => ih (fun d y hy => h d y (by simp [hy])) _

theorem accumulate_prefix {I : List α → β → σ → Prop} {f : β → α → Prog ε σ β} (xs : List α)
    (h : ∀ done b, ∀ x ∈ xs, Triple (I done b) (f b x) (I (done ++ [x])) E)
    (done : List α) (b : β) : Triple (I done b) (xs.foldlM f b) (I (done ++ xs)) E := by
  induction xs generalizing done b with
  | nil => exact ret fun s hs => by rwa [List.append_nil]
  | cons x xs ih =>
    rw [List.foldlM_cons,List.append_cons]
    exact (h done b x (by simp)).seq fun b' => ih (fun d b y hy => h d b y (by simp [hy])) _ b'

/-- A loop whose invariant speaks about the part of the list that is still to come. -/
theorem loop_rest {I : List α → σ → Prop} {f : α → Prog ε σ PUnit} (xs : List α)
    (h : ∀ x ∈ xs, ∀ rest, Triple (I (x :: rest)) (f x) (fun _ => I rest) E) :
    Triple (I xs) (xs.forM f) (fun _ => I []) E := by
  induction xs with
  | nil => exact ret fun _ hs => hs
  | cons x xs ih => exact (h x (by simp) xs).seq fun _ => ih fun y hy => h y (by simp [hy])

theorem accumulate_rest {I : List α → σ → Prop} {f : β → α → Prog ε σ β} (xs : List α)
    (h : ∀ b, ∀ x ∈ xs, ∀ rest, Triple (I (x :: rest)) (f b x) (fun _ => I rest) E) (b : β) :
    Triple (I xs) (xs.foldlM f b) (fun _ => I []) E := by
  induction xs generalizing b with
  | nil => exact ret fun _ hs => hs
  | cons x xs ih =>
    rw [List.foldlM_cons]
    exact (h b x (by simp) xs).seq fun b' => ih (fun b y hy => h b y (by simp [hy])) b'

end Triple

/-- The invariant holds of the final state, after a normal return and after an exception. -/
def Maintains (I : σ → Prop) (p : Prog ε σ α) : Prop := Triple I p (fun _ => I) fun _ => I

namespace Maintains

variable {I : σ → Prop}

theorem final {p : Prog ε σ α} (h : Maintains I p) {s : σ} (hs : I s) : I (p s).2 := Triple.final h hs

theorem ret (a : α) : Maintains I (pure a : Prog ε σ α) := Triple.ret fun _ hs => hs

theorem raise (e : ε) : Maintains I (throw e : Prog ε σ α) := Triple.raise fun _ hs => hs

theorem read : Maintains I (get : Prog ε σ σ) := Triple.read fun _ hs => hs

theorem write {f : σ → σ} (h : ∀ s, I s → I (f s)) : Maintains I (modify f : Prog ε σ PUnit) :=
  Triple.write h

theorem seq {p : Prog ε σ α} {f : α → Prog ε σ β} (hp : Maintains I p) (hf : ∀ a, Maintains I (f a)) :
    Maintains I (p >>= f) :=
  Triple.seq hp hf

theorem loop {f : α → Prog ε σ PUnit} (xs : List α) (h : ∀ x ∈ xs, Maintains I (f x)) :
    Maintains I (xs.forM f) :=
  Triple.loop xs h

theorem accumulate {f : β → α → Prog ε σ β} (xs : List α) (h : ∀ b, ∀ x ∈ xs, Maintains I (f b x))
    (b : β) : Maintains I (xs.foldlM f b) :=
  Triple.accumulate (I := fun _ => I) xs h b

/-- What is read of the state can be used by the part that follows. -/
theorem reading {f : σ → Prog ε σ α} (h : ∀ s, I s → I (f s s).2) :
    Maintains I (do
      let s ← get
      f s) := by
  intro s hs
  have hfinal := h s hs
  show Holds _ _ (f s s)
  rcases hf : f s s with ⟨r,s'⟩
  rw [hf] at hfinal
  cases r with
  | ok a => exact hfinal
  | error e => exact hfinal

end Maintains

end Hoare
