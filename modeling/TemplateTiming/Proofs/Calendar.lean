import Mathlib.Tactic.IntervalCases
import Mathlib.Tactic.SplitIfs
import TemplateTiming.Instant.Reader

/-! Days and dates. The reader counts days by the rules of the calendar, and its count goes on by one from each date to
the next. A date is found the other way round in years that begin with March, in which the day of the year alone tells
month and day: the leap day is the last one. So every day has a date that there is, and it is counted as that day. -/

namespace TemplateTiming.Date

/-! ### The count of the calendar -/

/-- The number of days in the month of a date. -/
def monthLength (d : Date) : Nat := ((monthLengths d.year)[d.month - 1]?).getD 0

/-- The day after a date: the next one in its month, the first of the next month, or New Year. -/
def next (d : Date) : Date :=
  if d.day < d.monthLength then { d with day := d.day + 1 }
  else if d.month < 12 then ⟨d.year, d.month + 1, 1⟩
  else ⟨d.year + 1, 1, 1⟩

/-- The leap day of a year, if it has one. -/
def leapDay (year : Int) : Nat := if isLeap year then 1 else 0

/-- The days from 1 March of the year 0 to 1 March of `year`. -/
def marchDays (year : Int) : Int := 365 * year + year / 4 - year / 100 + year / 400

theorem isLeap_iff (year : Int) : isLeap year = true ↔ year % 4 = 0 ∧ (year % 100 ≠ 0 ∨ year % 400 = 0) := by
  simp [isLeap]

theorem isValid_iff (d : Date) : d.isValid = true ↔ 1 ≤ d.month ∧ 1 ≤ d.day ∧ d.day ≤ d.monthLength := by
  simp only [isValid, monthLength, Bool.and_eq_true, decide_eq_true_eq, and_assoc]

theorem length_monthLengths (year : Int) : (monthLengths year).length = 12 := rfl

theorem month_le_of_isValid {d : Date} (h : d.isValid = true) : d.month ≤ 12 := by
  obtain ⟨-, hday, hlength⟩ := (isValid_iff d).mp h
  by_contra hlarge
  have hnone : (monthLengths d.year)[d.month - 1]? = none := by
    rw [List.getElem?_eq_none_iff, length_monthLengths]
    omega
  rw [monthLength, hnone, Option.getD_none] at hlength
  omega

theorem monthLength_bounds (d : Date) (hlow : 1 ≤ d.month) (hhigh : d.month ≤ 12) :
    28 ≤ d.monthLength ∧ d.monthLength ≤ 31 := by
  obtain ⟨year, month, day⟩ := d
  simp only [monthLength, monthLengths] at hlow hhigh ⊢
  cases isLeap year <;> interval_cases month <;> decide

theorem daysBeforeMonth_succ (d : Date) (hlow : 1 ≤ d.month) (hhigh : d.month ≤ 12) :
    daysBeforeMonth d.year (d.month + 1) = daysBeforeMonth d.year d.month + d.monthLength := by
  obtain ⟨year, month, day⟩ := d
  simp only [daysBeforeMonth, monthLength, monthLengths] at hlow hhigh ⊢
  cases isLeap year <;> interval_cases month <;> rfl

theorem daysBeforeMonth_one (year : Int) : daysBeforeMonth year 1 = 0 := rfl

/-- From 1 January to 1 March. -/
theorem daysBefore_to_march (year : Int) : daysBefore year + 59 + leapDay year = marchDays year + 60 := by
  have hleap := isLeap_iff year
  rw [leapDay]
  split_ifs with h
  · rw [hleap] at h
    simp only [daysBefore, marchDays]
    omega
  · rw [hleap] at h
    simp only [daysBefore, marchDays]
    omega

/-- From 1 March to 1 January. -/
theorem daysBefore_succ (year : Int) : daysBefore (year + 1) = marchDays year + 60 + 306 := by
  simp only [daysBefore, marchDays]
  omega

theorem daysBefore_next_year (year : Int) : daysBefore (year + 1) = daysBefore year + daysBeforeMonth year 13 := by
  have hmonths : daysBeforeMonth year 13 = 365 + leapDay year := by
    simp only [daysBeforeMonth, monthLengths, leapDay]
    cases isLeap year <;> rfl
  have hmarch := daysBefore_to_march year
  rw [daysBefore_succ, hmonths]
  omega

/-- The count begins with 1 January 1970. -/
theorem toDays_epoch : toDays ⟨1970, 1, 1⟩ = 0 := by decide

/-- It goes on by one from each date to the next. -/
theorem toDays_next {d : Date} (h : d.isValid = true) : d.next.isValid = true ∧ d.next.toDays = d.toDays + 1 := by
  have hhigh := month_le_of_isValid h
  obtain ⟨hmonth, hday, hlength⟩ := (isValid_iff d).mp h
  have hmonths := daysBeforeMonth_succ d hmonth hhigh
  rw [next]
  split_ifs with hinside hyear
  · refine ⟨(isValid_iff _).mpr ⟨hmonth, Nat.le_add_left 1 d.day, hinside⟩, ?_⟩
    simp only [toDays]
    omega
  · have hbounds := monthLength_bounds ⟨d.year, d.month + 1, 1⟩ (Nat.le_add_left 1 d.month) hyear
    have hfirst := (show 1 ≤ 28 by decide).trans hbounds.1
    refine ⟨(isValid_iff _).mpr ⟨Nat.le_add_left 1 d.month, Nat.le_refl 1, hfirst⟩, ?_⟩
    simp only [toDays, hmonths]
    omega
  · have hlast : d.month = 12 := by omega
    refine ⟨rfl, ?_⟩
    rw [hlast] at hmonths
    simp only [toDays, daysBefore_next_year, hmonths, hlast, daysBeforeMonth_one]
    omega

/-! ### Years that begin with March -/

/-- The date that is `day` days after 1 March of the year `year`. -/
def ofMarch (year : Int) (day : Nat) : Date :=
  let fromMarch := (5 * day + 2) / 153
  let month := if fromMarch < 10 then fromMarch + 3 else fromMarch - 9
  ⟨year + (if month ≤ 2 then 1 else 0), month, day - (153 * fromMarch + 2) / 5 + 1⟩

/-- There are 366 days in such a year if the February in it, which belongs to the next year, has 29. -/
structure InMarchYear (year : Int) (day : Nat) : Prop where
  day_le : day ≤ 365
  leap : day = 365 → isLeap (year + 1) = true

theorem daysBeforeMonth_march (year : Int) {m : Nat} (hm : m ≤ 9) :
    daysBeforeMonth year (m + 3) = 59 + leapDay year + (153 * m + 2) / 5 := by
  simp only [daysBeforeMonth, monthLengths, leapDay]
  cases isLeap year <;> interval_cases m <;> rfl

theorem monthLength_march (year : Int) {m : Nat} (hm : m ≤ 9) (day : Nat) :
    monthLength ⟨year, m + 3, day⟩ = (153 * (m + 1) + 2) / 5 - (153 * m + 2) / 5 := by
  interval_cases m <;> rfl

/-- The ten months up to the end of the calendar year. -/
theorem ofMarch_early (year : Int) {day m : Nat} (hm : m ≤ 9) (hmonth : (5 * day + 2) / 153 = m) :
    ofMarch year day = ⟨year, m + 3, day - (153 * m + 2) / 5 + 1⟩ := by
  simp only [ofMarch, hmonth]
  rw [if_pos (show m < 10 by omega), if_neg (show ¬m + 3 ≤ 2 by omega), Int.add_zero]

theorem ofMarch_january (year : Int) {day : Nat} (hmonth : (5 * day + 2) / 153 = 10) :
    ofMarch year day = ⟨year + 1, 1, day - 306 + 1⟩ := by
  simp only [ofMarch, hmonth]
  rfl

theorem ofMarch_february (year : Int) {day : Nat} (hmonth : (5 * day + 2) / 153 = 11) :
    ofMarch year day = ⟨year + 1, 2, day - 337 + 1⟩ := by
  simp only [ofMarch, hmonth]
  rfl

theorem month_cases {day : Nat} (hday : day ≤ 365) :
    (5 * day + 2) / 153 ≤ 9 ∨ (5 * day + 2) / 153 = 10 ∨ (5 * day + 2) / 153 = 11 := by
  omega

namespace InMarchYear

variable {year : Int} {day : Nat}

theorem isValid_ofMarch (h : InMarchYear year day) : (ofMarch year day).isValid = true := by
  rw [isValid_iff]
  rcases month_cases h.day_le with hm | hm | hm
  · generalize hmonth : (5 * day + 2) / 153 = m at hm
    rw [ofMarch_early year hm hmonth, monthLength_march year hm]
    simp only
    omega
  · have hlength : monthLength ⟨year + 1, 1, day - 306 + 1⟩ = 31 := rfl
    rw [ofMarch_january year hm, hlength]
    simp only
    omega
  · have hlength : monthLength ⟨year + 1, 2, day - 337 + 1⟩ = if isLeap (year + 1) then 29 else 28 := rfl
    rw [ofMarch_february year hm, hlength]
    have hle := h.day_le
    have hleap := h.leap
    simp only
    split_ifs with hyear
    · omega
    · have hnotLast : day ≠ 365 := fun hlast => hyear (hleap hlast)
      omega

theorem toDays_ofMarch (h : InMarchYear year day) :
    (ofMarch year day).toDays + epochOffset = marchDays year + day := by
  have hepoch : daysBefore 1970 = epochOffset + 60 := by decide
  rcases month_cases h.day_le with hm | hm | hm
  · generalize hmonth : (5 * day + 2) / 153 = m at hm
    have hmarch := daysBefore_to_march year
    have hlow : (153 * m + 2) / 5 ≤ day := by omega
    rw [ofMarch_early year hm hmonth]
    simp only [toDays, daysBeforeMonth_march year hm, hepoch]
    omega
  · rw [ofMarch_january year hm]
    simp only [toDays, daysBefore_succ, hepoch, daysBeforeMonth_one]
    omega
  · have hbefore : daysBeforeMonth (year + 1) 2 = 31 := rfl
    rw [ofMarch_february year hm]
    simp only [toDays, daysBefore_succ, hepoch, hbefore]
    omega

end InMarchYear

/-! ### Cycles of 400 years -/

/-- A day of a cycle: century, group of four years, year and day. Of the years only the last of a group can have 366
days, and in the last group of a century it has them in the last century only. -/
structure CycleDay (n c q y r : Nat) : Prop where
  total : n = 36524 * c + 1461 * q + 365 * y + r
  century_le : c ≤ 3
  group_le : q ≤ 24
  year_le : y ≤ 3
  day_le : r ≤ 365
  leap : r = 365 → y = 3 ∧ (q < 24 ∨ c = 3)

theorem exists_cycleDay {n : Nat} (hn : n < cycle) : ∃ c q y r, CycleDay n c q y r := by
  have hcycle : cycle = 146097 := rfl
  -- the last day of a cycle, and that of a group, is one more than its equal parts hold
  have hcentury : ∃ c m, n = 36524 * c + m ∧ c ≤ 3 ∧ m ≤ 36524 ∧ (m = 36524 → c = 3) := by
    by_cases hlast : n = 146096
    · exact ⟨3, 36524, by omega, by omega, by omega, fun _ => rfl⟩
    · exact ⟨n / 36524, n % 36524, by omega, by omega, by omega, fun h => by omega⟩
  obtain ⟨c, m, hm, hc, hmle, hmlast⟩ := hcentury
  have hgroup : ∃ y r, m % 1461 = 365 * y + r ∧ y ≤ 3 ∧ r ≤ 365 ∧ (r = 365 → y = 3) := by
    by_cases hlast : m % 1461 = 1460
    · exact ⟨3, 365, by omega, by omega, by omega, fun _ => rfl⟩
    · exact ⟨m % 1461 / 365, m % 1461 % 365, by omega, by omega, by omega, fun h => by omega⟩
  obtain ⟨y, r, hr, hy, hrle, hrlast⟩ := hgroup
  refine ⟨c, m / 1461, y, r, by omega, hc, by omega, hy, hrle, fun h => ⟨hrlast h, ?_⟩⟩
  have hthree := hrlast h
  by_cases hfull : m = 36524
  · exact Or.inr (hmlast hfull)
  · exact Or.inl (by omega)

namespace CycleDay

variable {n c q y r : Nat}

theorem yearOfEra (h : CycleDay n c q y r) :
    (n - n / 1460 + n / 36524 - n / 146096) / 365 = 100 * c + 4 * q + y := by
  obtain ⟨htotal, hc, hq, hy, hr, hleap⟩ := h
  have hcentury : n / 36524 = c + n / 146096 := by
    by_cases hlast : n = 146096
    · omega
    · have : n / 146096 = 0 := by omega
      omega
  by_cases hsmall : 24 * c + q + 365 * y + r < 1460
  · have hgroup : n / 1460 = 25 * c + q := by omega
    omega
  · have hgroup : n / 1460 = 25 * c + q + 1 := by omega
    omega

theorem dayOfYear (h : CycleDay n c q y r) :
    n - (365 * (100 * c + 4 * q + y) + (100 * c + 4 * q + y) / 4 - (100 * c + 4 * q + y) / 100) = r := by
  obtain ⟨htotal, hc, hq, hy, hr, -⟩ := h
  have hgroup : (100 * c + 4 * q + y) / 4 = 25 * c + q := by omega
  have hcentury : (100 * c + 4 * q + y) / 100 = c := by omega
  omega

theorem inMarchYear (h : CycleDay n c q y r) (era : Int) :
    InMarchYear (((100 * c + 4 * q + y : Nat) : Int) + era * 400) r := by
  obtain ⟨htotal, hc, hq, hy, hr, hleap⟩ := h
  refine ⟨hr, fun hlast => ?_⟩
  obtain ⟨rfl, hgroup⟩ := hleap hlast
  rw [isLeap_iff]
  omega

theorem marchDays (h : CycleDay n c q y r) (era : Int) :
    Date.marchDays (((100 * c + 4 * q + y : Nat) : Int) + era * 400) + r = cycle * era + n := by
  obtain ⟨htotal, hc, hq, hy, hr, -⟩ := h
  have hcycle : (cycle : Int) = 146097 := rfl
  rw [Date.marchDays, hcycle]
  omega

end CycleDay

/-- Every day belongs to one year that begins with March. -/
theorem ofDays_eq (days : Int) :
    ∃ year day, ofDays days = ofMarch year day ∧ InMarchYear year day ∧ marchDays year + day = days + epochOffset := by
  have hcycle : (0 : Int) < cycle := by decide
  have hnonneg := Int.emod_nonneg (days + epochOffset) hcycle.ne'
  have hlt := Int.emod_lt_of_pos (days + epochOffset) hcycle
  obtain ⟨c, q, y, r, h⟩ := exists_cycleDay (n := ((days + epochOffset) % cycle).toNat) (by omega)
  refine ⟨_, r, ?_, h.inMarchYear ((days + epochOffset) / cycle), ?_⟩
  · simp only [ofDays, h.yearOfEra, h.dayOfYear]
    rfl
  · rw [h.marchDays, Int.toNat_of_nonneg hnonneg, Int.mul_ediv_add_emod]

theorem ofDays_isValid (days : Int) : (ofDays days).isValid = true := by
  obtain ⟨year, day, heq, hyear, -⟩ := ofDays_eq days
  rw [heq]
  exact hyear.isValid_ofMarch

/-- The date of a day is counted as that day. -/
theorem toDays_ofDays (days : Int) : (ofDays days).toDays = days := by
  obtain ⟨year, day, heq, hyear, hdays⟩ := ofDays_eq days
  have hcount := hyear.toDays_ofMarch
  rw [heq]
  omega

end TemplateTiming.Date
