import MailDock.Domain.Messages

/-!
# Calendar arithmetic

What the use cases need of `datetime`: the proleptic Gregorian ordinal and its
inverse, a difference in seconds, and the two text formats time stamps have.
-/

namespace MailDock

namespace DateTime

def isLeap (year : Nat) : Bool := year % 4 == 0 && (year % 100 != 0 || year % 400 == 0)

def daysInMonth (year month : Nat) : Nat :=
  if month == 2 then (if isLeap year then 29 else 28)
  else if month == 4 || month == 6 || month == 9 || month == 11 then 30
  else 31

def daysBeforeMonth (year month : Nat) : Nat :=
  ((List.range (month - 1)).map fun m => daysInMonth year (m + 1)).sum

def daysBeforeYear (year : Nat) : Nat :=
  let y := year - 1
  y * 365 + y / 4 - y / 100 + y / 400

/-- The day number, the first of January of year 1 being day 1. -/
def toOrdinal (d : DateTime) : Nat :=
  daysBeforeYear d.year + daysBeforeMonth d.year d.month + d.day

def toSeconds (d : DateTime) : Nat :=
  d.toOrdinal * 86400 + d.hour * 3600 + d.minute * 60 + d.second

/-- Year, month and day of a day number, by cycles of 400, 100, 4 and 1 years. -/
def ofOrdinal (ordinal : Nat) : Nat × Nat × Nat :=
  let n := ordinal - 1
  let n400 := n / 146097
  let n := n % 146097
  let n100 := n / 36524
  let n := n % 36524
  let n4 := n / 1461
  let n := n % 1461
  let n1 := n / 365
  let n := n % 365
  let year := n400 * 400 + 1 + n100 * 100 + n4 * 4 + n1
  if n1 == 4 || n100 == 4 then (year - 1,12,31)
  else
    let month := (n + 50) / 32
    if n < daysBeforeMonth year month then
      (year,month - 1,n - daysBeforeMonth year (month - 1) + 1)
    else (year,month,n - daysBeforeMonth year month + 1)

def minusDays (d : DateTime) (days : Nat) : DateTime :=
  let (year,month,day) := ofOrdinal (d.toOrdinal - days)
  { d with year := year, month := month, day := day }

example : minusDays ⟨2024,3,1,12,0,0⟩ 1 = ⟨2024,2,29,12,0,0⟩ := by decide

/-- `datetime.isoformat()` of a time in UTC. -/
def isoformat (d : DateTime) (microsecond : Nat) : String :=
  padded 4 d.year ++ "-" ++ padded 2 d.month ++ "-" ++ padded 2 d.day ++ "T" ++
    padded 2 d.hour ++ ":" ++ padded 2 d.minute ++ ":" ++ padded 2 d.second ++
    (if microsecond == 0 then "" else "." ++ padded 6 microsecond) ++ "+00:00"

/-- The decimal number a list of characters spells. -/
def digits (cs : List Char) : Option Nat :=
  cs.foldlM (fun n c => if c.isDigit then some (n * 10 + (c.toNat - '0'.toNat)) else none) 0

/-- `datetime.fromisoformat` on the two formats that are ever stored; fractions of
a second are dropped. -/
def fromIsoformat (text : String) : Option DateTime :=
  match text.toList with
  | y1 :: y2 :: y3 :: y4 :: '-' :: m1 :: m2 :: '-' :: d1 :: d2 :: 'T' :: h1 :: h2 :: ':' :: i1 ::
      i2 :: ':' :: s1 :: s2 :: rest => do
    let year ← digits [y1,y2,y3,y4]
    let month ← digits [m1,m2]
    let day ← digits [d1,d2]
    let hour ← digits [h1,h2]
    let minute ← digits [i1,i2]
    let second ← digits [s1,s2]
    let zone := if rest.head? == some '.' then (rest.drop 1).dropWhile Char.isDigit else rest
    if (zone == ['Z'] || zone == "+00:00".toList) && 1 ≤ year && 1 ≤ month && month ≤ 12 &&
        1 ≤ day && day ≤ daysInMonth year month && hour < 24 && minute < 60 && second < 60 then
      some ⟨year,month,day,hour,minute,second⟩
    else none
  | _ => none

end DateTime

/-- `_flag_seen_at_is_expired`: a missing or unreadable time stamp counts as expired. -/
def flagSeenAtIsExpired (value : Option String) (now : DateTime) (minimumInterval : Nat) : Bool :=
  match value.bind DateTime.fromIsoformat with
  | none => true
  | some seenAt => seenAt.toSeconds + minimumInterval ≤ now.toSeconds

end MailDock
