import Mathlib.Data.List.Basic

/-!
# Logs of effects

A log holds the effects of a run, the newest first.  A crash cuts a run short, so
what survives it is a suffix of the log.  `Always G` says that every effect of the
log satisfied `G` relative to the log at its time; it holds of every suffix.
-/

namespace Trace

variable {ε : Type*}

/-- Every effect was allowed by what came before it. -/
def Always (G : List ε → ε → Prop) : List ε → Prop
  | [] => True
  | e :: before => G before e ∧ Always G before

instance instDecidableAlways {G : List ε → ε → Prop} [∀ before e, Decidable (G before e)] :
    ∀ log, Decidable (Always G log)
  | [] => isTrue trivial
  | e :: before =>
    have : Decidable (Always G before) := instDecidableAlways before
    inferInstanceAs (Decidable (G before e ∧ Always G before))

theorem Always.suffix {G : List ε → ε → Prop} {log log' : List ε} (h : Always G log)
    (hs : log' <:+ log) : Always G log' := by
  induction log with
  | nil =>
    rw [List.suffix_nil.mp hs]
    exact h
  | cons e before ih =>
    rcases List.suffix_cons_iff.mp hs with rfl | hs
    · exact h
    · exact ih h.2 hs

theorem Always.at {G : List ε → ε → Prop} {after before : List ε} {e : ε}
    (h : Always G (after ++ e :: before)) : G before e :=
  (h.suffix (List.suffix_append after _)).1

theorem Always.mono {G G' : List ε → ε → Prop} {log : List ε} (h : Always G log)
    (hG : ∀ before e, G before e → G' before e) : Always G' log := by
  induction log with
  | nil => trivial
  | cons e before ih => exact ⟨hG before e h.1,ih h.2⟩

theorem Always.and {G G' : List ε → ε → Prop} {log : List ε} (h : Always G log)
    (h' : Always G' log) : Always (fun before e => G before e ∧ G' before e) log := by
  induction log with
  | nil => trivial
  | cons e before ih => exact ⟨⟨h.1,h'.1⟩,ih h.2 h'.2⟩

end Trace
