import MailDock.Domain.Stamps

/-!
# The order of times

A later date has a larger day number, a day number is read back as its date, and the texts of
times compare as the times do.  So a time moved back by some days is what it should be, and
texts that the database compares stand for the instants they were written at.

## Main results

- `toOrdinal_lt`, `toOrdinal_ofOrdinal` — dates and day numbers
- `minusDays_wellFormed`, `toSeconds_minusDays` — going back some days
- `isoformat_lt`, `toUtcIso8601_lt` — comparing texts
-/

namespace MailDock

namespace DateTime

/-! ## Days of a year -/

theorem daysBeforeMonth_succ {month : Nat} (h : 1 ≤ month) (year : Nat) :
    daysBeforeMonth year (month + 1) = daysBeforeMonth year month + daysInMonth year month := by
  obtain ⟨m,rfl⟩ : ∃ m, month = m + 1 := ⟨month - 1,by omega⟩
  simp [daysBeforeMonth,List.range_succ]

theorem daysBeforeMonth_mono (year : Nat) {a b : Nat} (ha : 1 ≤ a) (hab : a ≤ b) :
    daysBeforeMonth year a ≤ daysBeforeMonth year b := by
  induction hab with
  | refl => exact Nat.le_refl _
  | step hb ih =>
    rw [Nat.succ_eq_add_one,daysBeforeMonth_succ (Nat.le_trans ha hb)]
    omega

/-- Only whether a year is a leap year matters for its months. -/
theorem daysBeforeMonth_congr {year : Nat} (other : Nat) (h : isLeap year = isLeap other)
    (month : Nat) : daysBeforeMonth year month = daysBeforeMonth other month := by
  simp only [daysBeforeMonth,daysInMonth,h]

def yearLength (year : Nat) : Nat := if isLeap year then 366 else 365

theorem daysBeforeMonth_thirteen (year : Nat) : daysBeforeMonth year 13 = yearLength year := by
  by_cases h : isLeap year = true
  · rw [daysBeforeMonth_congr 4 (by rw [h]; rfl),yearLength,if_pos h]
    rfl
  · rw [daysBeforeMonth_congr 1 (by rw [Bool.not_eq_true] at h; rw [h]; rfl),
      yearLength,if_neg h]
    rfl

theorem daysBeforeYear_succ {year : Nat} (h : 1 ≤ year) :
    daysBeforeYear (year + 1) = daysBeforeYear year + yearLength year := by
  obtain ⟨y,rfl⟩ : ∃ y, year = y + 1 := ⟨year - 1,by omega⟩
  have hleap : isLeap (y + 1) = true ↔
      (y + 1) % 4 = 0 ∧ ((y + 1) % 100 ≠ 0 ∨ (y + 1) % 400 = 0) := by
    simp [isLeap]
  -- each of the three quotients grows in the years that its divisor divides
  have hquotient : ∀ n, 0 < n → (y + 1) / n = y / n + if (y + 1) % n = 0 then 1 else 0 := by
    intro n hn
    rw [Nat.succ_div]
    simp only [Nat.dvd_iff_mod_eq_zero]
  simp only [daysBeforeYear,Nat.add_sub_cancel,hquotient 4 (by decide),
    hquotient 100 (by decide),hquotient 400 (by decide),yearLength,hleap]
  have hle : y / 100 ≤ y / 4 := Nat.div_le_div_left (by decide) (by decide)
  have hfour : (y + 1) % 100 = 0 → (y + 1) % 4 = 0 := by omega
  have hhundred : (y + 1) % 400 = 0 → (y + 1) % 100 = 0 := by omega
  by_cases h4 : (y + 1) % 4 = 0
  · by_cases h100 : (y + 1) % 100 = 0
    · by_cases h400 : (y + 1) % 400 = 0
      · simp only [h4,h100,h400,if_true,ne_eq,not_true,false_or,and_self]
        omega
      · simp only [h4,h100,h400,if_true,if_false,ne_eq,not_true,or_self,and_false]
        omega
    · have h400 : ¬ (y + 1) % 400 = 0 := mt hhundred h100
      simp only [h4,h100,h400,if_true,if_false,ne_eq,not_false_iff,true_or,and_self]
      omega
  · have h100 : ¬ (y + 1) % 100 = 0 := mt hfour h4
    have h400 : ¬ (y + 1) % 400 = 0 := mt hhundred h100
    simp only [h4,h100,h400,if_false,false_and]
    omega

theorem daysBeforeYear_mono {a b : Nat} (ha : 1 ≤ a) (hab : a ≤ b) :
    daysBeforeYear a ≤ daysBeforeYear b := by
  induction hab with
  | refl => exact Nat.le_refl _
  | step hb ih =>
    rw [Nat.succ_eq_add_one,daysBeforeYear_succ (Nat.le_trans ha hb)]
    omega

/-! ## Day numbers -/

/-- A date lies within its month, and so within its year. -/
theorem day_le {year month day : Nat} (hmonth : 1 ≤ month ∧ month ≤ 12)
    (hday : day ≤ daysInMonth year month) :
    daysBeforeMonth year month + day ≤ daysBeforeMonth year (month + 1) ∧
      daysBeforeMonth year (month + 1) ≤ yearLength year := by
  refine ⟨?_,?_⟩
  · rw [daysBeforeMonth_succ hmonth.1]
    omega
  · rw [← daysBeforeMonth_thirteen]
    exact daysBeforeMonth_mono year (by omega) (by omega)

/-- An earlier date has a smaller number. -/
theorem toOrdinal_lt {a b : DateTime} (ha : a.WellFormed) (hb : b.WellFormed)
    (h : a.year < b.year ∨ a.year = b.year ∧ (a.month < b.month ∨
      a.month = b.month ∧ a.day < b.day)) : a.toOrdinal < b.toOrdinal := by
  obtain ⟨hin,hmonths⟩ := day_le ha.month ha.day.2
  have hbday := hb.day.1
  unfold toOrdinal
  rcases h with hyear | ⟨hyear,hmonth | ⟨hmonth,hday⟩⟩
  · have hnext := daysBeforeYear_mono (by omega) hyear
    rw [Nat.succ_eq_add_one,daysBeforeYear_succ ha.year.1] at hnext
    omega
  · have hnext := daysBeforeMonth_mono b.year (by omega) hmonth
    rw [Nat.succ_eq_add_one,← hyear] at hnext
    rw [← hyear]
    omega
  · rw [← hyear,← hmonth]
    omega

theorem daysBeforeYear_cycles (a : Nat) {b c e : Nat} (hb : b ≤ 3) (hc : c ≤ 24) (he : e ≤ 3) :
    daysBeforeYear (a * 400 + 1 + b * 100 + c * 4 + e) =
      146097 * a + 36524 * b + 1461 * c + 365 * e := by
  simp only [daysBeforeYear]
  omega

/-- The month is found from the day of the year. -/
theorem month_of_day : ∀ r < 365, ∀ year ∈ [1,4],
    let month := (r + 50) / 32
    let date := if r < daysBeforeMonth year month then
      (month - 1,r - daysBeforeMonth year (month - 1) + 1)
      else (month,r - daysBeforeMonth year month + 1)
    (1 ≤ date.1 ∧ date.1 ≤ 12) ∧ (1 ≤ date.2 ∧ date.2 ≤ daysInMonth year date.1) ∧
      daysBeforeMonth year date.1 + date.2 = r + 1 := by
  decide +kernel

/-- Year, month and day of a day number are the date with that number. -/
theorem ofOrdinal_spec (ordinal : Nat) (h : 1 ≤ ordinal) :
    1 ≤ (ofOrdinal ordinal).1 ∧
      (1 ≤ (ofOrdinal ordinal).2.1 ∧ (ofOrdinal ordinal).2.1 ≤ 12) ∧
      (1 ≤ (ofOrdinal ordinal).2.2 ∧
        (ofOrdinal ordinal).2.2 ≤ daysInMonth (ofOrdinal ordinal).1 (ofOrdinal ordinal).2.1) ∧
      daysBeforeYear (ofOrdinal ordinal).1 +
        daysBeforeMonth (ofOrdinal ordinal).1 (ofOrdinal ordinal).2.1 +
          (ofOrdinal ordinal).2.2 = ordinal := by
  -- the day number by its cycles
  obtain ⟨a,r1,ha,hr1⟩ : ∃ a r, ordinal - 1 = 146097 * a + r ∧ r < 146097 :=
    ⟨(ordinal - 1) / 146097,(ordinal - 1) % 146097,by omega,by omega⟩
  obtain ⟨b,r2,hb,hr2⟩ : ∃ b r, r1 = 36524 * b + r ∧ r < 36524 :=
    ⟨r1 / 36524,r1 % 36524,by omega,by omega⟩
  obtain ⟨c,r3,hc,hr3⟩ : ∃ c r, r2 = 1461 * c + r ∧ r < 1461 :=
    ⟨r2 / 1461,r2 % 1461,by omega,by omega⟩
  obtain ⟨e,r4,he,hr4⟩ : ∃ e r, r3 = 365 * e + r ∧ r < 365 :=
    ⟨r3 / 365,r3 % 365,by omega,by omega⟩
  have hn400 : (ordinal - 1) / 146097 = a := by omega
  have hn400' : (ordinal - 1) % 146097 = r1 := by omega
  have hn100 : r1 / 36524 = b := by omega
  have hn100' : r1 % 36524 = r2 := by omega
  have hn4 : r2 / 1461 = c := by omega
  have hn4' : r2 % 1461 = r3 := by omega
  have hn1 : r3 / 365 = e := by omega
  have hn1' : r3 % 365 = r4 := by omega
  simp only [ofOrdinal,hn400,hn400',hn100,hn100',hn4,hn4',hn1,hn1']
  by_cases hlast : (e == 4 || b == 4) = true
  · -- the last day of a leap year
    rw [if_pos hlast]
    simp only [Bool.or_eq_true,beq_iff_eq] at hlast
    obtain ⟨y,hy,hleap,hordinal⟩ : ∃ y, a * 400 + 1 + b * 100 + c * 4 + e - 1 = y + 1 ∧
        isLeap (y + 1) = true ∧ daysBeforeYear (y + 2) = ordinal := by
      simp only [isLeap,Bool.and_eq_true,Bool.or_eq_true,beq_iff_eq,bne_iff_ne,daysBeforeYear]
      rcases hlast with rfl | rfl
      · obtain rfl : r4 = 0 := by omega
        have hb3 : b ≤ 3 := by omega
        have hc23 : c ≤ 23 := by omega
        have hyear : a * 400 + b * 100 + c * 4 + 3 + 2 - 1 = a * 400 + b * 100 + c * 4 + 4 := by
          omega
        have hfour : (a * 400 + b * 100 + c * 4 + 4) / 4 = a * 100 + b * 25 + c + 1 := by omega
        have hhundred : (a * 400 + b * 100 + c * 4 + 4) / 100 = a * 4 + b := by omega
        have hcentury : (a * 400 + b * 100 + c * 4 + 4) / 400 = a := by omega
        refine ⟨a * 400 + b * 100 + c * 4 + 3,by omega,by omega,?_⟩
        rw [hyear,hfour,hhundred,hcentury]
        omega
      · obtain rfl : r2 = 0 := by omega
        obtain rfl : c = 0 := by omega
        obtain rfl : r3 = 0 := by omega
        obtain rfl : e = 0 := by omega
        exact ⟨a * 400 + 399,by omega,by omega,by omega⟩
    have hlength : daysBeforeMonth (y + 1) 12 + 31 = 366 := by
      rw [daysBeforeMonth_congr 4 hleap]
      rfl
    rw [daysBeforeYear_succ (by omega),yearLength,if_pos hleap] at hordinal
    have hdays : daysInMonth (y + 1) 12 = 31 := rfl
    simp only [hy]
    exact ⟨by omega,by omega,by omega,by omega⟩
  · rw [if_neg hlast]
    simp only [Bool.or_eq_true,beq_iff_eq,not_or] at hlast
    have hyear := daysBeforeYear_cycles a (b := b) (c := c) (e := e) (by omega) (by omega)
      (by omega)
    set year := a * 400 + 1 + b * 100 + c * 4 + e with hdef
    obtain ⟨other,hother,hleap⟩ : ∃ other ∈ [1,4], isLeap year = isLeap other := by
      cases isLeap year with
      | true => exact ⟨4,by decide,rfl⟩
      | false => exact ⟨1,by decide,rfl⟩
    have hdays : ∀ month, daysInMonth year month = daysInMonth other month := by
      intro month
      simp only [daysInMonth,hleap]
    have hmonth := month_of_day r4 hr4 other hother
    simp only at hmonth
    simp only [daysBeforeMonth_congr other hleap]
    split
    · next hbefore =>
      rw [if_pos hbefore] at hmonth
      obtain ⟨htwelve,hin,hsum⟩ := hmonth
      simp only [hdays] at hin hsum ⊢
      rw [daysBeforeMonth_congr other hleap]
      exact ⟨by omega,htwelve,hin,by omega⟩
    · next hbefore =>
      rw [if_neg hbefore] at hmonth
      obtain ⟨htwelve,hin,hsum⟩ := hmonth
      simp only [hdays] at hin hsum ⊢
      rw [daysBeforeMonth_congr other hleap]
      exact ⟨by omega,htwelve,hin,by omega⟩

theorem toOrdinal_pos {d : DateTime} (hd : d.WellFormed) : 1 ≤ d.toOrdinal := by
  have := hd.day.1
  unfold toOrdinal
  omega

/-- The day that lies `days` days back, at the same time of day. -/
theorem toOrdinal_minusDays {d : DateTime} {days : Nat} (hdays : days < d.toOrdinal) :
    (d.minusDays days).toOrdinal = d.toOrdinal - days := by
  obtain ⟨-,-,-,hordinal⟩ := ofOrdinal_spec (d.toOrdinal - days) (by omega)
  exact hordinal

theorem minusDays_wellFormed {d : DateTime} (hd : d.WellFormed) {days : Nat}
    (hdays : days < d.toOrdinal) : (d.minusDays days).WellFormed := by
  obtain ⟨hyear,hmonth,hday,hordinal⟩ := ofOrdinal_spec (d.toOrdinal - days) (by omega)
  refine ⟨⟨hyear,?_⟩,hmonth,hday,hd.hour,hd.minute,hd.second⟩
  -- a later year would have a larger day number
  by_contra hlate
  have hyears : d.year + 1 ≤ (ofOrdinal (d.toOrdinal - days)).1 := by
    have := hd.year.2
    simp only [minusDays] at hlate
    omega
  have hmono := daysBeforeYear_mono (by omega) hyears
  rw [daysBeforeYear_succ hd.year.1] at hmono
  obtain ⟨hin,hlength⟩ := day_le hd.month hd.day.2
  have htotal : d.toOrdinal = daysBeforeYear d.year + daysBeforeMonth d.year d.month + d.day := rfl
  omega

theorem toSeconds_minusDays {d : DateTime} {days : Nat} (hdays : days < d.toOrdinal) :
    (d.minusDays days).toSeconds + days * 86400 = d.toSeconds := by
  have hordinal := toOrdinal_minusDays hdays
  have hseconds : (d.minusDays days).toSeconds =
      (d.minusDays days).toOrdinal * 86400 + d.hour * 3600 + d.minute * 60 + d.second := rfl
  rw [hseconds,hordinal,toSeconds]
  omega

/-! ## The order of instants -/

/-- The fields of one time come before those of another. -/
def Earlier (a b : DateTime) : Prop :=
  a.year < b.year ∨ a.year = b.year ∧ (a.month < b.month ∨ a.month = b.month ∧
    (a.day < b.day ∨ a.day = b.day ∧ (a.hour < b.hour ∨ a.hour = b.hour ∧
      (a.minute < b.minute ∨ a.minute = b.minute ∧ a.second < b.second))))

theorem Earlier.toSeconds_lt {a b : DateTime} (ha : a.WellFormed) (hb : b.WellFormed)
    (h : Earlier a b) : a.toSeconds < b.toSeconds := by
  have hhour := ha.hour
  have hminute := ha.minute
  have hsecond := ha.second
  by_cases hdate : a.year = b.year ∧ a.month = b.month ∧ a.day = b.day
  · have hordinal : a.toOrdinal = b.toOrdinal := by
      simp only [toOrdinal,hdate]
    unfold Earlier at h
    unfold toSeconds
    omega
  · have hordinal := toOrdinal_lt ha hb (by unfold Earlier at h; omega)
    unfold toSeconds
    omega

theorem eq_of_not_earlier {a b : DateTime} (h : ¬ Earlier a b) (h' : ¬ Earlier b a) : a = b := by
  obtain ⟨y,m,d,h1,i1,s1⟩ := a
  obtain ⟨y',m',d',h2,i2,s2⟩ := b
  simp only [Earlier] at h h'
  simp only [mk.injEq]
  omega

theorem toSeconds_lt_iff {a b : DateTime} (ha : a.WellFormed) (hb : b.WellFormed) :
    a.toSeconds < b.toSeconds ↔ Earlier a b := by
  refine ⟨?_,Earlier.toSeconds_lt ha hb⟩
  intro h
  by_contra hnot
  by_cases hback : Earlier b a
  · have := Earlier.toSeconds_lt hb ha hback
    omega
  · rw [eq_of_not_earlier hnot hback] at h
    omega

/-! ## The order of texts -/

theorem append_lt_append {x y : List Char} (h : x.length = y.length) (u v : List Char) :
    x ++ u < y ++ v ↔ x < y ∨ x = y ∧ u < v := by
  induction x generalizing y with
  | nil =>
    obtain rfl := List.length_eq_zero_iff.mp h.symm
    simp
  | cons a x ih =>
    cases y with
    | nil => cases h
    | cons b y =>
      have hlength : x.length = y.length := by simpa using h
      simp only [List.cons_append,List.cons_lt_cons_iff,ih hlength,List.cons.injEq]
      tauto

/-- A decimal of one more digit ends in the last digit of its number. -/
theorem padded_succ {width n : Nat} (hwidth : 0 < width) (hn : n < 10 ^ (width + 1)) :
    (padded (width + 1) n).toList =
      (padded width (n / 10)).toList ++ [Nat.digitChar (n % 10)] := by
  rw [toList_padded,toList_padded]
  by_cases hlt : n < 10
  · have hzero : n / 10 = 0 := by omega
    have hmod : n % 10 = n := by omega
    rw [hzero,hmod,Nat.toDigits_of_lt_base hlt,Nat.toDigits_of_lt_base (by decide)]
    obtain ⟨w,rfl⟩ : ∃ w, width = w + 1 := ⟨width - 1,by omega⟩
    simp [List.replicate_succ']
  · have hlength : (Nat.toDigits 10 (n / 10)).length ≤ width := by
      rw [Nat.length_toDigits_le_iff (by decide) hwidth]
      rw [Nat.pow_succ] at hn
      omega
    rw [Nat.toDigits_of_base_le (by decide) (Nat.le_of_not_lt hlt),← List.append_assoc]
    simp only [List.length_append,List.length_singleton,Nat.add_sub_add_right]

theorem digitChar_lt : ∀ a < 10, ∀ b < 10, Nat.digitChar a < Nat.digitChar b ↔ a < b := by decide

/-- Decimals of one width compare as their numbers. -/
theorem padded_lt {width : Nat} (hwidth : 0 < width) {n m : Nat} (hn : n < 10 ^ width)
    (hm : m < 10 ^ width) : (padded width n).toList < (padded width m).toList ↔ n < m := by
  induction width generalizing n m with
  | zero => cases hwidth
  | succ width ih =>
    rcases Nat.eq_zero_or_pos width with rfl | hpos
    · have hone : ∀ k < 10, (padded 1 k).toList = [Nat.digitChar k] := by
        intro k hk
        rw [toList_padded,Nat.toDigits_of_lt_base hk]
        rfl
      rw [hone n (by omega),hone m (by omega),List.cons_lt_cons_iff,
        digitChar_lt n (by omega) m (by omega)]
      simp
    · have hpow : 10 ^ (width + 1) = 10 * 10 ^ width := by rw [Nat.pow_succ,Nat.mul_comm]
      have hlength : (padded width (n / 10)).toList.length =
          (padded width (m / 10)).toList.length := by
        rw [length_padded hpos (by omega),length_padded hpos (by omega)]
      have heq : (padded width (n / 10)).toList = (padded width (m / 10)).toList ↔
          n / 10 = m / 10 := by
        constructor
        · intro h
          have hdigits := digits_padded width (n / 10)
          rw [h,digits_padded] at hdigits
          exact (Option.some.inj hdigits).symm
        · intro h
          rw [h]
      rw [padded_succ hpos hn,padded_succ hpos hm,append_lt_append hlength,
        ih hpos (by omega) (by omega),heq,List.cons_lt_cons_iff,
        digitChar_lt _ (by omega) _ (by omega)]
      simp only [List.lt_irrefl,and_false,or_false]
      omega

/-- One field of a text. -/
theorem padded_append_lt {width : Nat} (hwidth : 0 < width) {n m : Nat} (hn : n < 10 ^ width)
    (hm : m < 10 ^ width) (u v : List Char) :
    (padded width n).toList ++ u < (padded width m).toList ++ v ↔ n < m ∨ n = m ∧ u < v := by
  have hlength : (padded width n).toList.length = (padded width m).toList.length := by
    rw [length_padded hwidth hn,length_padded hwidth hm]
  have heq : (padded width n).toList = (padded width m).toList ↔ n = m := by
    constructor
    · intro h
      have hdigits := digits_padded width n
      rw [h,digits_padded] at hdigits
      exact (Option.some.inj hdigits).symm
    · intro h
      rw [h]
  rw [append_lt_append hlength,padded_lt hwidth hn hm,heq]

/-- A time down to its seconds, and what follows it. -/
def spelled (d : DateTime) (rest : List Char) : List Char :=
  (padded 4 d.year).toList ++ '-' :: ((padded 2 d.month).toList ++ '-' ::
    ((padded 2 d.day).toList ++ 'T' :: ((padded 2 d.hour).toList ++ ':' ::
      ((padded 2 d.minute).toList ++ ':' :: ((padded 2 d.second).toList ++ rest)))))

/-- Texts of times compare by the times, and then by what follows. -/
theorem spelled_lt {a b : DateTime} (ha : a.WellFormed) (hb : b.WellFormed) (u v : List Char) :
    spelled a u < spelled b v ↔
      a.toSeconds < b.toSeconds ∨ a.toSeconds = b.toSeconds ∧ u < v := by
  have hfields : ∀ {d : DateTime}, d.WellFormed → d.year < 10 ^ 4 ∧ d.month < 10 ^ 2 ∧
      d.day < 10 ^ 2 ∧ d.hour < 10 ^ 2 ∧ d.minute < 10 ^ 2 ∧ d.second < 10 ^ 2 := by
    intro d hd
    have hdays := daysInMonth_le d.year d.month
    exact ⟨hd.year.2,by have := hd.month; omega,by have := hd.day; omega,
      by have := hd.hour; omega,by have := hd.minute; omega,by have := hd.second; omega⟩
  obtain ⟨ay,am,ad,ah,ai,as⟩ := hfields ha
  obtain ⟨by',bm,bd,bh,bi,bs⟩ := hfields hb
  have htext : spelled a u < spelled b v ↔ Earlier a b ∨ a = b ∧ u < v := by
    simp only [spelled,padded_append_lt (by decide) ay by',padded_append_lt (by decide) am bm,
      padded_append_lt (by decide) ad bd,padded_append_lt (by decide) ah bh,
      padded_append_lt (by decide) ai bi,padded_append_lt (by decide) as bs,
      List.cons_lt_cons_iff,Char.lt_irrefl,false_or,true_and,Earlier]
    obtain ⟨y,m,d,h1,i1,s1⟩ := a
    obtain ⟨y',m',d',h2,i2,s2⟩ := b
    simp only [mk.injEq,and_or_left,or_assoc,and_assoc]
  have hsame : a.toSeconds = b.toSeconds ↔ a = b := by
    constructor
    · intro h
      apply eq_of_not_earlier
      · rw [← toSeconds_lt_iff ha hb]
        omega
      · rw [← toSeconds_lt_iff hb ha]
        omega
    · rintro rfl
      rfl
  rw [htext,toSeconds_lt_iff ha hb,hsame]

/-- What `isoformat` writes after the seconds. -/
def isoSuffix (microsecond : Nat) : List Char :=
  (if microsecond = 0 then [] else '.' :: (padded 6 microsecond).toList) ++ "+00:00".toList

theorem toList_isoformat (d : DateTime) (microsecond : Nat) :
    (d.isoformat microsecond).toList = spelled d (isoSuffix microsecond) := by
  by_cases h : microsecond = 0
  · simp [isoformat,spelled,isoSuffix,h]
  · simp [isoformat,spelled,isoSuffix,h]

theorem toList_toUtcIso8601 (d : DateTime) : (toUtcIso8601 d).toList = spelled d ['Z'] := by
  simp [toUtcIso8601,spelled]

theorem isoSuffix_lt {m n : Nat} (hm : m < 10 ^ 6) (hn : n < 10 ^ 6) :
    isoSuffix m < isoSuffix n ↔ m < n := by
  have hplus : '+' < '.' := by decide
  have hdot : ¬ '.' < '+' := by decide
  have hne : '+' ≠ '.' := by decide
  by_cases hm0 : m = 0
  · by_cases hn0 : n = 0
    · simp [isoSuffix,hm0,hn0]
    · simp only [isoSuffix,hm0,hn0,if_true,if_false,List.nil_append,List.cons_append]
      have hlt : "+00:00".toList < '.' :: ((padded 6 n).toList ++ "+00:00".toList) :=
        List.cons_lt_cons_iff.mpr (Or.inl hplus)
      simp only [hlt,true_iff]
      omega
  · by_cases hn0 : n = 0
    · simp only [isoSuffix,hm0,hn0,if_true,if_false,List.nil_append,List.cons_append]
      have hnot : ¬ '.' :: ((padded 6 m).toList ++ "+00:00".toList) < "+00:00".toList := by
        intro hlt
        rcases List.cons_lt_cons_iff.mp hlt with h | h
        · exact hdot h
        · exact hne h.1.symm
      simp only [hnot,false_iff]
      omega
    · simp only [isoSuffix,hm0,hn0,if_false,List.cons_append,List.cons_lt_cons_iff,
        padded_append_lt (by decide) hm hn,List.lt_irrefl,and_false,or_false,Char.lt_irrefl,
        false_or,true_and]

/-- The letter of `strftime` comes after what `isoformat` writes. -/
theorem isoSuffix_before_zulu (m : Nat) : ¬ ['Z'] < isoSuffix m := by
  by_cases h : m = 0
  · subst h
    decide
  · simp only [isoSuffix,h,if_false,List.cons_append,List.cons_lt_cons_iff]
    rintro (hlt | ⟨heq,-⟩)
    · revert hlt
      decide
    · revert heq
      decide

/-! ## Instants -/

/-- Microseconds on the time line. -/
def micros (d : DateTime) (microsecond : Nat) : Nat := d.toSeconds * 10 ^ 6 + microsecond

theorem isoformat_lt {a b : DateTime} (ha : a.WellFormed) (hb : b.WellFormed) {m n : Nat}
    (hm : m < 10 ^ 6) (hn : n < 10 ^ 6) :
    a.isoformat m < b.isoformat n ↔ a.micros m < b.micros n := by
  rw [String.lt_iff,toList_isoformat,toList_isoformat,spelled_lt ha hb,isoSuffix_lt hm hn]
  unfold micros
  omega

theorem toUtcIso8601_lt {a b : DateTime} (ha : a.WellFormed) (hb : b.WellFormed) (n : Nat) :
    toUtcIso8601 a < b.isoformat n ↔ a.toSeconds < b.toSeconds := by
  rw [String.lt_iff,toList_isoformat,toList_toUtcIso8601,spelled_lt ha hb]
  simp only [isoSuffix_before_zulu,and_false,or_false]

end DateTime

end MailDock
