import Mathlib.Data.List.Basic
import Mathlib.Data.List.TakeDrop

/-!
# Append-only logs of lines

A log is a sequence of symbols, one record a line.  A reader takes it line by line
and keeps a state; a line it cannot read is an error in the middle of the log and a
torn tail at its end, to be cut off.  For a log of complete lines that was cut at
any position, such a reader finds exactly the records whose line is still complete
and cuts the log at the end of the last of them.
-/

namespace LineLog

variable {α σ ρ ε : Type*}

/-- What `readline` returns, up to the end of the file. -/
def lines [DecidableEq α] (newline : α) : List α → List (List α)
  | [] => []
  | c :: cs =>
    if c = newline then [c] :: lines newline cs
    else
      match lines newline cs with
      | [] => [[c]]
      | l :: ls => (c :: l) :: ls

/-- A line with its end, which stands nowhere else in it. -/
def IsLine (newline : α) (line : List α) : Prop :=
  ∃ body, line = body ++ [newline] ∧ newline ∉ body

/-- What a reader makes of one line: a record and its next state, a line that may be torn, or
an error wherever the line stands. -/
inductive Verdict (σ ρ ε : Type*)
  | accept (state : σ) (record : ρ)
  | malformed (error : ε)
  | invalid (error : ε)

/-- The loop of a reader: the records it yields, and an error or the offset to cut at. -/
def walk (check : σ → List α → Verdict σ ρ ε) :
    σ → Nat → List (List α) → List ρ × Except ε (Option Nat)
  | _, _, [] => ([],.ok none)
  | state, offset, line :: next =>
    match check state line with
    | .accept state' record =>
      (record :: (walk check state' (offset + line.length) next).1,
        (walk check state' (offset + line.length) next).2)
    | .malformed e => ([],if next = [] then .ok (some offset) else .error e)
    | .invalid e => ([],.error e)

/-- The log after a reader that found `truncateAt`. -/
def cut (log : List α) : Option Nat → List α
  | none => log
  | some n => log.take n

/-- The reader takes the written records one after the other. -/
def Accepts (check : σ → List α → Verdict σ ρ ε) (encode : ρ → List α) : σ → List ρ → Prop
  | _, [] => True
  | state, r :: rs => ∃ state', check state (encode r) = .accept state' r ∧
      Accepts check encode state' rs

/-- `kept` are the records whose lines are complete in the first `n` symbols of the log. -/
structure Survive (encode : ρ → List α) (records : List ρ) (n : Nat) (kept : List ρ) : Prop where
  isPrefix : kept <+: records
  complete : (kept.flatMap encode).length ≤ n
  torn : ∀ r, kept ++ [r] <+: records → n < ((kept ++ [r]).flatMap encode).length

variable [DecidableEq α] {newline : α} {encode : ρ → List α} {records kept : List ρ} {n : Nat}

theorem lines_line_append {line rest : List α} (h : IsLine newline line) :
    lines newline (line ++ rest) = line :: lines newline rest := by
  obtain ⟨body,rfl,hbody⟩ := h
  induction body with
  | nil => simp [lines]
  | cons c body ih =>
    have hc : c ≠ newline := fun h => hbody (h ▸ List.mem_cons_self)
    have hrest := ih fun h => hbody (List.mem_cons_of_mem c h)
    rw [List.cons_append,List.cons_append,lines,if_neg hc,hrest]

theorem lines_of_not_mem {text : List α} (h : newline ∉ text) (hne : text ≠ []) :
    lines newline text = [text] := by
  induction text with
  | nil => exact absurd rfl hne
  | cons c text ih =>
    have hc : c ≠ newline := fun heq => h (heq ▸ List.mem_cons_self)
    rw [lines,if_neg hc]
    cases text with
    | nil => rfl
    | cons d text => rw [ih (fun hmem => h (List.mem_cons_of_mem c hmem)) (List.cons_ne_nil d text)]

omit [DecidableEq α] in
/-- A line cut before its end has no end. -/
theorem IsLine.not_mem_take {line : List α} (h : IsLine newline line) (hn : n < line.length) :
    newline ∉ line.take n := by
  obtain ⟨body,rfl,hbody⟩ := h
  rw [List.length_append,List.length_singleton] at hn
  rw [List.take_append_of_le_length (by omega)]
  exact fun hmem => hbody (List.mem_of_mem_take hmem)

omit [DecidableEq α] in
theorem Survive.exists (encode : ρ → List α) (records : List ρ) (n : Nat) :
    ∃ kept, Survive encode records n kept := by
  induction records generalizing n with
  | nil =>
    refine ⟨[],List.prefix_refl _,Nat.zero_le n,?_⟩
    intro r hr
    exact absurd (List.prefix_nil.mp hr) (by simp)
  | cons r rs ih =>
    by_cases hn : (encode r).length ≤ n
    · obtain ⟨kept,hpre,hcomplete,htorn⟩ := ih (n - (encode r).length)
      refine ⟨r :: kept,List.prefix_cons_inj r |>.mpr hpre,?_,?_⟩
      · rw [List.flatMap_cons,List.length_append]
        omega
      · intro s hs
        have hlt := htorn s (List.prefix_cons_inj r |>.mp hs)
        rw [List.cons_append,List.flatMap_cons,List.length_append]
        omega
    · refine ⟨[],List.nil_prefix,Nat.zero_le n,?_⟩
      intro s hs
      obtain rfl : s = r := (List.prefix_cons_iff.mp hs).elim (by simp) (by
        rintro ⟨t,ht,-⟩
        exact (List.cons.inj ht).1)
      simpa using hn

omit [DecidableEq α] in
/-- What survives of a record and those after it. -/
theorem Survive.cons_cases {r : ρ} {rs : List ρ} (h : Survive encode (r :: rs) n kept) :
    (kept = [] ∧ n < (encode r).length) ∨
      ∃ kept', kept = r :: kept' ∧ (encode r).length ≤ n ∧
        Survive encode rs (n - (encode r).length) kept' := by
  obtain ⟨hpre,hcomplete,htorn⟩ := h
  cases kept with
  | nil =>
    left
    refine ⟨rfl,?_⟩
    simpa using htorn r (by simp)
  | cons s kept =>
    right
    obtain ⟨rfl,htail⟩ := List.cons_prefix_cons.mp hpre
    rw [List.flatMap_cons,List.length_append] at hcomplete
    refine ⟨kept,rfl,by omega,htail,by omega,?_⟩
    intro t ht
    have hlt := htorn t (by simpa using ht)
    rw [List.cons_append,List.flatMap_cons,List.length_append] at hlt
    omega

/-- The records that survive, and the cut at the end of their lines when anything is left
behind it. -/
theorem walk_take {check : σ → List α → Verdict σ ρ ε} {state : σ} (offset : Nat)
    (hlines : ∀ r ∈ records, IsLine newline (encode r))
    (haccepts : Accepts check encode state records)
    (htorn : ∀ state line, newline ∉ line → ∃ e, check state line = .malformed e)
    (hkept : Survive encode records n kept) :
    walk check state offset (lines newline ((records.flatMap encode).take n)) =
      (kept,.ok (if (kept.flatMap encode).length < ((records.flatMap encode).take n).length then
        some (offset + (kept.flatMap encode).length) else none)) := by
  induction records generalizing state offset n kept with
  | nil =>
    obtain rfl := List.prefix_nil.mp hkept.isPrefix
    simp [lines,walk]
  | cons r rs ih =>
    have hline := hlines r List.mem_cons_self
    obtain ⟨rfl,hn⟩ | ⟨kept',rfl,hn,hkept'⟩ := hkept.cons_cases
    · -- the cut is inside the first line
      have htake : ((r :: rs).flatMap encode).take n = (encode r).take n := by
        rw [List.flatMap_cons,List.take_append_of_le_length (Nat.le_of_lt hn)]
      rw [htake]
      by_cases hzero : n = 0
      · simp [hzero,lines,walk]
      · have hmem := hline.not_mem_take hn
        have hlength : ((encode r).take n).length = n := List.length_take_of_le (Nat.le_of_lt hn)
        have hne : (encode r).take n ≠ [] := by
          intro hnil
          rw [hnil] at hlength
          exact hzero hlength.symm
        obtain ⟨e,he⟩ := htorn state _ hmem
        rw [lines_of_not_mem hmem hne,walk,he,hlength]
        simp [Nat.pos_of_ne_zero hzero]
    · -- the first line is complete
      obtain ⟨state',haccept,hrest⟩ := haccepts
      have htake : ((r :: rs).flatMap encode).take n =
          encode r ++ (rs.flatMap encode).take (n - (encode r).length) := by
        rw [List.flatMap_cons,List.take_append,List.take_of_length_le hn]
      have hread := ih (offset + (encode r).length)
        (fun s hs => hlines s (List.mem_cons_of_mem r hs)) hrest hkept'
      rw [htake,lines_line_append hline,walk,haccept]
      simp only [hread,List.flatMap_cons,List.length_append,Nat.add_lt_add_iff_left,
        Nat.add_assoc]

omit [DecidableEq α] in
/-- The log after the cut. -/
theorem Survive.cut_take (hkept : Survive encode records n kept) :
    cut ((records.flatMap encode).take n)
      (if (kept.flatMap encode).length < ((records.flatMap encode).take n).length then
        some (kept.flatMap encode).length else none) = kept.flatMap encode := by
  obtain ⟨lost,rfl⟩ := hkept.isPrefix
  have hpre : ((kept ++ lost).flatMap encode).take (kept.flatMap encode).length =
      kept.flatMap encode := by
    rw [List.flatMap_append]
    exact List.take_left
  split
  · rename_i hlt
    rw [cut,List.take_take,Nat.min_eq_left hkept.complete,hpre]
  · rename_i hle
    have htake : ((kept ++ lost).flatMap encode).take n =
        (((kept ++ lost).flatMap encode).take n).take (kept.flatMap encode).length :=
      (List.take_of_length_le (Nat.le_of_not_lt hle)).symm
    rw [cut,htake,List.take_take,Nat.min_eq_left hkept.complete,hpre]

end LineLog
