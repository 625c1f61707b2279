import MailDock.Domain.Time

/-!
# Time stamps read back from the database

`to_utc_iso8601` writes the dates of a message, `_datetime` of `search_repository.py`
reads them and `_db_datetime` writes them again for a cursor or a filter.
-/

namespace MailDock

namespace DateTime

/-- The fields lie in the ranges of `datetime.datetime`. -/
structure WellFormed (d : DateTime) : Prop where
  year : 1 ≤ d.year ∧ d.year < 10000
  month : 1 ≤ d.month ∧ d.month ≤ 12
  day : 1 ≤ d.day ∧ d.day ≤ daysInMonth d.year d.month
  hour : d.hour < 24
  minute : d.minute < 60
  second : d.second < 60

theorem daysInMonth_le (year month : Nat) : daysInMonth year month ≤ 31 := by
  unfold daysInMonth
  split
  · split <;> omega
  · split <;> omega

/-! Decimal texts of a fixed width. -/

theorem digits_append (cs : List Char) (c : Char) :
    digits (cs ++ [c]) = (digits cs).bind fun n =>
      if c.isDigit then some (n * 10 + (c.toNat - '0'.toNat)) else none := by
  simp only [digits,List.foldlM_append,List.foldlM_cons,List.foldlM_nil]
  cases (List.foldlM (fun n c => if c.isDigit then some (n * 10 + (c.toNat - '0'.toNat)) else none)
    0 cs : Option Nat) with
  | none => rfl
  | some n => simp

theorem digits_zeros (width : Nat) : digits (List.replicate width '0') = some 0 := by
  induction width with
  | zero => rfl
  | succ width ih =>
    rw [List.replicate_succ',digits_append,ih]
    rfl

/-- A digit character spells its digit. -/
theorem digitChar_spells : ∀ n < 10, (Nat.digitChar n).isDigit = true ∧
    (Nat.digitChar n).toNat - '0'.toNat = n := by decide

theorem digits_zeros_toDigits (width n : Nat) :
    digits (List.replicate width '0' ++ Nat.toDigits 10 n) = some n := by
  induction n using Nat.strongRecOn with
  | ind n ih =>
    by_cases hlt : n < 10
    · rw [Nat.toDigits_of_lt_base hlt,digits_append,digits_zeros]
      obtain ⟨hdigit,hvalue⟩ := digitChar_spells n hlt
      simp only [Option.bind_some,hdigit,if_true,hvalue]
      simp
    · rw [Nat.toDigits_of_base_le (by decide) (Nat.le_of_not_lt hlt),← List.append_assoc,
        digits_append,ih (n / 10) (by omega)]
      obtain ⟨hdigit,hvalue⟩ := digitChar_spells (n % 10) (by omega)
      simp only [Option.bind_some,hdigit,if_true,hvalue]
      congr 1
      omega

theorem toList_padded (width n : Nat) : (padded width n).toList =
    List.replicate (width - (Nat.toDigits 10 n).length) '0' ++ Nat.toDigits 10 n := by
  simp [padded]

theorem digits_padded (width n : Nat) : digits (padded width n).toList = some n := by
  rw [toList_padded,digits_zeros_toDigits]

theorem length_padded {width n : Nat} (hwidth : 0 < width) (hn : n < 10 ^ width) :
    (padded width n).toList.length = width := by
  have hlength : (Nat.toDigits 10 n).length ≤ width := by
    exact (Nat.length_toDigits_le_iff (by decide) hwidth).mpr hn
  rw [toList_padded,List.length_append,List.length_replicate]
  omega

theorem exists_padded_two {n : Nat} (hn : n < 100) :
    ∃ a b, (padded 2 n).toList = [a,b] ∧ digits [a,b] = some n := by
  have hlength : (padded 2 n).toList.length = 2 := length_padded (by decide) (by omega)
  obtain ⟨a,b,hab⟩ := List.length_eq_two.mp hlength
  exact ⟨a,b,hab,hab ▸ digits_padded 2 n⟩

theorem exists_padded_four {n : Nat} (hn : n < 10000) :
    ∃ a b c d, (padded 4 n).toList = [a,b,c,d] ∧ digits [a,b,c,d] = some n := by
  have hlength : (padded 4 n).toList.length = 4 := length_padded (by decide) (by omega)
  obtain ⟨a,b,c,d,habcd⟩ : ∃ a b c d, (padded 4 n).toList = [a,b,c,d] := by
    match (padded 4 n).toList,hlength with
    | [a,b,c,d],_ => exact ⟨a,b,c,d,rfl⟩
  exact ⟨a,b,c,d,habcd,habcd ▸ digits_padded 4 n⟩

/-- The characters of a written time, field by field. -/
theorem exists_toUtcIso8601 {d : DateTime} (hd : d.WellFormed) :
    ∃ y1 y2 y3 y4 m1 m2 d1 d2 h1 h2 i1 i2 s1 s2, (toUtcIso8601 d).toList =
        y1 :: y2 :: y3 :: y4 :: '-' :: m1 :: m2 :: '-' :: d1 :: d2 :: 'T' :: h1 :: h2 :: ':' ::
          i1 :: i2 :: ':' :: s1 :: s2 :: ['Z'] ∧
      digits [y1,y2,y3,y4] = some d.year ∧ digits [m1,m2] = some d.month ∧
      digits [d1,d2] = some d.day ∧ digits [h1,h2] = some d.hour ∧
      digits [i1,i2] = some d.minute ∧ digits [s1,s2] = some d.second := by
  have hmonth := hd.month
  have hday := hd.day
  have hdays := daysInMonth_le d.year d.month
  have hhour := hd.hour
  have hminute := hd.minute
  have hsecond := hd.second
  obtain ⟨y1,y2,y3,y4,hy,hy'⟩ := exists_padded_four hd.year.2
  obtain ⟨m1,m2,hm,hm'⟩ := exists_padded_two (show d.month < 100 by omega)
  obtain ⟨d1,d2,hd,hd'⟩ := exists_padded_two (show d.day < 100 by omega)
  obtain ⟨h1,h2,hh,hh'⟩ := exists_padded_two (show d.hour < 100 by omega)
  obtain ⟨i1,i2,hi,hi'⟩ := exists_padded_two (show d.minute < 100 by omega)
  obtain ⟨s1,s2,hs,hs'⟩ := exists_padded_two (show d.second < 100 by omega)
  refine ⟨y1,y2,y3,y4,m1,m2,d1,d2,h1,h2,i1,i2,s1,s2,?_,hy',hm',hd',hh',hi',hs'⟩
  simp [toUtcIso8601,hy,hm,hd,hh,hi,hs]

/-- What `to_utc_iso8601` writes is read back as it was. -/
theorem fromIsoformat_toUtcIso8601 {d : DateTime} (hd : d.WellFormed) :
    fromIsoformat (toUtcIso8601 d) = some d := by
  obtain ⟨y1,y2,y3,y4,m1,m2,d1,d2,h1,h2,i1,i2,s1,s2,htext,hyear,hmonth,hday,hhour,hminute,
    hsecond⟩ := exists_toUtcIso8601 hd
  have hrange : 1 ≤ d.year ∧ 1 ≤ d.month ∧ d.month ≤ 12 ∧ 1 ≤ d.day ∧
      d.day ≤ daysInMonth d.year d.month ∧ d.hour < 24 ∧ d.minute < 60 ∧ d.second < 60 :=
    ⟨hd.year.1,hd.month.1,hd.month.2,hd.day.1,hd.day.2,hd.hour,hd.minute,hd.second⟩
  unfold fromIsoformat
  rw [htext]
  simp [hyear,hmonth,hday,hhour,hminute,hsecond,hrange]

end DateTime

/-- A `datetime`: a time in UTC with its microseconds, or a naive one. -/
structure Stamp where
  time : DateTime
  microsecond : Nat := 0
  aware : Bool := true
deriving DecidableEq, Repr

namespace Stamp

/-- The microseconds of a time stamp's fraction. -/
def fraction (text : String) : Nat :=
  match text.toList.drop 19 with
  | '.' :: rest =>
    let digits := (rest.takeWhile Char.isDigit).take 6
    (DateTime.digits (digits ++ List.replicate (6 - digits.length) '0')).getD 0
  | _ => 0

/-- `_datetime`: an unreadable text counts as missing. -/
def read (text : String) : Option Stamp :=
  (DateTime.fromIsoformat text).map fun d => ⟨d,fraction text,true⟩

/-- `_db_datetime`: `isoformat()` with `Z` in place of `+00:00`. -/
def dbDatetime (s : Stamp) : String :=
  padded 4 s.time.year ++ "-" ++ padded 2 s.time.month ++ "-" ++ padded 2 s.time.day ++ "T" ++
    padded 2 s.time.hour ++ ":" ++ padded 2 s.time.minute ++ ":" ++ padded 2 s.time.second ++
    (if s.microsecond == 0 then "" else "." ++ padded 6 s.microsecond) ++
    (if s.aware then "Z" else "")

theorem read_toUtcIso8601 {d : DateTime} (hd : d.WellFormed) :
    read (toUtcIso8601 d) = some ⟨d,0,true⟩ := by
  have hfraction : fraction (toUtcIso8601 d) = 0 := by
    obtain ⟨y1,y2,y3,y4,m1,m2,d1,d2,h1,h2,i1,i2,s1,s2,htext,-⟩ := DateTime.exists_toUtcIso8601 hd
    simp [fraction,htext]
  simp [read,DateTime.fromIsoformat_toUtcIso8601 hd,hfraction]

theorem dbDatetime_whole (d : DateTime) : dbDatetime ⟨d,0,true⟩ = toUtcIso8601 d := by
  simp [dbDatetime,toUtcIso8601]

end Stamp

/-- A date column that is `NULL` or was written by `to_utc_iso8601`. -/
def DateWritten (column : Option String) : Prop :=
  ∀ text ∈ column, ∃ d : DateTime, d.WellFormed ∧ text = toUtcIso8601 d

/-- Reading a date and writing it again gives the text the database has. -/
theorem DateWritten.read_write {column : Option String} (h : DateWritten column) :
    (column.bind Stamp.read).map Stamp.dbDatetime = column := by
  cases column with
  | none => rfl
  | some text =>
    obtain ⟨d,hd,rfl⟩ := h text rfl
    simp [Stamp.read_toUtcIso8601 hd,Stamp.dbDatetime_whole]

end MailDock
