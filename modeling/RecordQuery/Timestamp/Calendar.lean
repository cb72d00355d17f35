/-!
# Calendar

The proleptic Gregorian calendar, with a year zero, as a numbering of its days. Day zero is the
first of January 1970. Years start in March for the arithmetic, which puts the leap day at the end
of the year, where it moves no other day, and come in eras of 400, which all have the same days.

1. `isValid_iff`: which dates stand in the calendar.
2. `dayNumber` and `ofDayNumber`: from a date to its number and back.
3. `ofDayNumber_dayNumber` and `dayNumber_ofDayNumber`: the dates of the calendar and the numbers
   match one to one. Both count the days of an era first (`yearOfEra_dayOfEra`), then those of a
   year (`ofYearDay_dayOfYear`).
-/
namespace RecordQuery.Calendar

structure Date where
  year : Int
  month : Nat
  day : Nat
  deriving DecidableEq, Repr

/-- Every fourth year is a leap year, but of the full centuries only every fourth is. -/
def isLeapYear (year : Int) : Bool :=
  year % 4 = 0 && (year % 100 != 0 || year % 400 = 0)

theorem isLeapYear_iff (year : Int) :
    isLeapYear year = true ↔ year % 4 = 0 ∧ (year % 100 = 0 → year % 400 = 0) := by
  simp [isLeapYear]
  omega

/-- The number of days of a month; zero for a number that is no month. -/
def monthLength (year : Int) (month : Nat) : Nat :=
  match month with
  | 1 | 3 | 5 | 7 | 8 | 10 | 12 => 31
  | 4 | 6 | 9 | 11 => 30
  | 2 => if isLeapYear year then 29 else 28
  | _ => 0

/-- The days of a year that starts in March before a month of it. The months are counted from zero
and take 153 days for every five of them; what February lacks of that is at the end. -/
def monthStart (index : Nat) : Nat :=
  (153 * index + 2) / 5

theorem monthOfDay_eq_iff {index day : Nat} :
    (5 * day + 2) / 153 = index ↔ monthStart index ≤ day ∧ day < monthStart (index + 1) := by
  unfold monthStart
  omega

/-- A year that starts in March has a day 365, counted from zero, when the next January does. -/
def IsDayOfYear (year : Int) (day : Nat) : Prop :=
  day < 365 ∨ day = 365 ∧ isLeapYear (year + 1) = true

theorem isDayOfYear_add_era {era : Int} {year day : Nat} :
    IsDayOfYear (era * 400 + year) day ↔ IsDayOfYear year day := by
  unfold IsDayOfYear
  rw [isLeapYear_iff, isLeapYear_iff]
  omega

/-- The days from the start of an era of 400 years to a day of one of its years. -/
def dayOfEra (year day : Nat) : Nat :=
  year * 365 + year / 4 - year / 100 + day

/-- The year of the era that a day of the era falls in. -/
def yearOfEra (n : Nat) : Nat :=
  (n - n / 1460 + n / 36524 - n / 146096) / 365

/-- The corrections in `yearOfEra` take the leap days out of the count of days. -/
theorem yearOfEra_dayOfEra {year day : Nat} (hyear : year < 400) (hday : IsDayOfYear year day) :
    yearOfEra (dayOfEra year day) = year := by
  unfold IsDayOfYear at hday
  rw [isLeapYear_iff] at hday
  -- the full centuries, the full four-year spans after them and the years after those
  obtain ⟨c, q, r, hc, hq, hr, rfl⟩ :
      ∃ c q r, c < 4 ∧ q < 25 ∧ r < 4 ∧ year = 100 * c + 4 * q + r :=
    ⟨year / 100, year % 100 / 4, year % 4, by omega, by omega, by omega, by omega⟩
  have hn : dayOfEra (100 * c + 4 * q + r) day = 36524 * c + 1461 * q + 365 * r + day := by
    unfold dayOfEra
    omega
  have hday : day < 365 ∨ day = 365 ∧ r = 3 ∧ (q = 24 → c = 3) := by omega
  rw [hn, yearOfEra]
  clear hn hyear
  obtain hday | ⟨rfl, rfl, hcentury⟩ := hday
  · -- a leap day may be counted before it comes, but not on the first day of a year
    have h4 : (36524 * c + 1461 * q + 365 * r + day) / 1460 = 25 * c + q ∨
        (36524 * c + 1461 * q + 365 * r + day) / 1460 = 25 * c + q + 1 ∧ 0 < day := by omega
    have h100 : (36524 * c + 1461 * q + 365 * r + day) / 36524 = c := by omega
    have h400 : (36524 * c + 1461 * q + 365 * r + day) / 146096 = 0 := by omega
    omega
  · -- a leap day, which is the last day of the era or lies in one of the other four-year spans
    obtain rfl | hq : q = 24 ∨ q < 24 := by omega
    · rw [hcentury rfl]
    · have h4 : (36524 * c + 1461 * q + 365 * 3 + 365) / 1460 = 25 * c + q + 1 := by omega
      have h100 : (36524 * c + 1461 * q + 365 * 3 + 365) / 36524 = c := by omega
      have h400 : (36524 * c + 1461 * q + 365 * 3 + 365) / 146096 = 0 := by omega
      omega

theorem dayOfEra_lt {year day : Nat} (hyear : year < 400) (hday : IsDayOfYear year day) :
    dayOfEra year day < 146097 := by
  unfold IsDayOfYear at hday
  rw [isLeapYear_iff] at hday
  unfold dayOfEra
  omega

/-- The days of an era are the days of its years. -/
theorem exists_dayOfEra_eq {n : Nat} (h : n < 146097) :
    ∃ year day : Nat, year < 400 ∧ IsDayOfYear year day ∧ dayOfEra year day = n := by
  -- the last century and the last year of a span are the long ones, so no quotient passes three
  obtain ⟨c, a, hc, ha, rfl⟩ : ∃ c a, c < 4 ∧ (a < 36524 ∨ a = 36524 ∧ c = 3) ∧
      n = 36524 * c + a :=
    ⟨min (n / 36524) 3, n - 36524 * min (n / 36524) 3, by omega, by omega, by omega⟩
  obtain ⟨q, b, hq, hb, rfl⟩ : ∃ q b, q < 25 ∧ b < 1461 ∧ a = 1461 * q + b :=
    ⟨a / 1461, a % 1461, by omega, by omega, by omega⟩
  obtain ⟨r, day, hr, hday, rfl⟩ : ∃ r day, r < 4 ∧ (day < 365 ∨ day = 365 ∧ r = 3) ∧
      b = 365 * r + day :=
    ⟨min (b / 365) 3, b - 365 * min (b / 365) 3, by omega, by omega, by omega⟩
  have h4 : (100 * c + 4 * q + r) / 4 = 25 * c + q := by omega
  have h100 : (100 * c + 4 * q + r) / 100 = c := by omega
  refine ⟨100 * c + 4 * q + r, day, by omega, ?_, by unfold dayOfEra; omega⟩
  rw [IsDayOfYear, isLeapYear_iff]
  omega

namespace Date

def isValid (d : Date) : Bool :=
  1 ≤ d.day && d.day ≤ monthLength d.year d.month

/-- The year of the date when years start in March. -/
def marchYear (d : Date) : Int :=
  if d.month ≤ 2 then d.year - 1 else d.year

/-- The place of the date's month when years start in March. -/
def monthIndex (d : Date) : Nat :=
  if d.month ≤ 2 then d.month + 9 else d.month - 3

def dayOfYear (d : Date) : Nat :=
  monthStart d.monthIndex + (d.day - 1)

def ofYearDay (year : Int) (day : Nat) : Date :=
  let index := (5 * day + 2) / 153
  let month := if index < 10 then index + 3 else index - 9
  ⟨if month ≤ 2 then year + 1 else year, month, day - monthStart index + 1⟩

/-- The number of the date's day. -/
def dayNumber (d : Date) : Int :=
  d.marchYear / 400 * 146097 + dayOfEra (d.marchYear % 400).toNat d.dayOfYear - 719468

def ofDayNumber (n : Int) : Date :=
  let era := (n + 719468) / 146097
  let day := ((n + 719468) % 146097).toNat
  let year := yearOfEra day
  ofYearDay (era * 400 + year) (day - dayOfEra year 0)

/-- A date exists when its month does and has that many days. -/
theorem isValid_iff (d : Date) :
    d.isValid = true ↔ 1 ≤ d.day ∧ d.day ≤ monthLength d.year d.month := by
  simp [isValid]

theorem month_bounds {d : Date} (h : d.isValid = true) : 1 ≤ d.month ∧ d.month ≤ 12 := by
  obtain ⟨hday, hlength⟩ := d.isValid_iff.1 h
  unfold monthLength at hlength
  split at hlength <;> omega

theorem dayOfYear_lt {d : Date} (h : d.isValid = true) :
    d.dayOfYear < monthStart (d.monthIndex + 1) := by
  obtain ⟨hday, hlength⟩ := d.isValid_iff.1 h
  obtain ⟨year, month, day⟩ := d
  unfold dayOfYear monthIndex
  dsimp only at hday hlength ⊢
  unfold monthLength at hlength
  split at hlength <;> simp [monthStart] <;> grind

theorem isDayOfYear_dayOfYear {d : Date} (h : d.isValid = true) :
    IsDayOfYear d.marchYear d.dayOfYear := by
  have hlt := dayOfYear_lt h
  have ⟨_, hmonth⟩ := month_bounds h
  obtain hindex | hindex : d.monthIndex < 11 ∨ d.month = 2 := by unfold monthIndex; grind
  · exact .inl (by unfold monthStart at hlt; omega)
  · obtain ⟨hday, hlength⟩ := d.isValid_iff.1 h
    rw [hindex, monthLength] at hlength
    unfold IsDayOfYear marchYear dayOfYear monthIndex
    rw [hindex]
    simp [monthStart]
    grind

theorem ofYearDay_dayOfYear {d : Date} (h : d.isValid = true) :
    ofYearDay d.marchYear d.dayOfYear = d := by
  obtain ⟨hday, -⟩ := d.isValid_iff.1 h
  have ⟨hpos, hmonth⟩ := month_bounds h
  have hindex : (5 * d.dayOfYear + 2) / 153 = d.monthIndex :=
    monthOfDay_eq_iff.2 ⟨Nat.le_add_right _ _, dayOfYear_lt h⟩
  obtain ⟨year, month, day⟩ := d
  rw [ofYearDay, hindex]
  simp only [dayOfYear, monthIndex, marchYear, mk.injEq] at hpos hmonth hday ⊢
  refine ⟨?_, ?_, ?_⟩ <;> grind

theorem isValid_ofYearDay {year : Int} {day : Nat} (h : IsDayOfYear year day) :
    (ofYearDay year day).isValid = true := by
  unfold IsDayOfYear at h
  obtain ⟨index, hindex⟩ : ∃ index, (5 * day + 2) / 153 = index := ⟨_, rfl⟩
  obtain ⟨hstart, hnext⟩ := monthOfDay_eq_iff.1 hindex
  have : index < 12 := by omega
  rw [isValid_iff, ofYearDay, hindex]
  refine ⟨Nat.le_add_left _ _, ?_⟩
  unfold monthStart at hstart hnext ⊢
  dsimp only
  match index with
  | 0 | 1 | 2 | 3 | 4 | 5 | 6 | 7 | 8 | 9 | 10 => simp [monthLength]; omega
  | 11 => simp [monthLength]; grind

theorem marchYear_ofYearDay (year : Int) (day : Nat) : (ofYearDay year day).marchYear = year := by
  unfold ofYearDay marchYear
  grind

theorem dayOfYear_ofYearDay {year : Int} {day : Nat} (h : day < 366) :
    (ofYearDay year day).dayOfYear = day := by
  have hstart := (monthOfDay_eq_iff.1 (Eq.refl ((5 * day + 2) / 153))).1
  have hindex : (ofYearDay year day).monthIndex = (5 * day + 2) / 153 := by
    unfold ofYearDay monthIndex
    grind
  rw [dayOfYear, hindex, ofYearDay]
  dsimp only
  omega

theorem ofDayNumber_dayOfEra {era : Int} {year day : Nat} (hyear : year < 400)
    (hday : IsDayOfYear year day) :
    ofDayNumber (era * 146097 + dayOfEra year day - 719468) = ofYearDay (era * 400 + year) day := by
  have hlt := dayOfEra_lt hyear hday
  have hera : (era * 146097 + dayOfEra year day : Int) / 146097 = era := by omega
  have hrest : ((era * 146097 + dayOfEra year day : Int) % 146097).toNat = dayOfEra year day := by
    omega
  simp only [ofDayNumber, Int.sub_add_cancel, hera, hrest, yearOfEra_dayOfEra hyear hday]
  rw [show dayOfEra year day - dayOfEra year 0 = day by unfold dayOfEra; omega]

/-- A date comes back from its number. -/
theorem ofDayNumber_dayNumber {d : Date} (h : d.isValid = true) :
    ofDayNumber d.dayNumber = d := by
  obtain ⟨year, hyear⟩ : ∃ year : Nat, d.marchYear % 400 = year :=
    ⟨(d.marchYear % 400).toNat, by omega⟩
  have heq : d.marchYear = d.marchYear / 400 * 400 + year := by omega
  have hday := isDayOfYear_dayOfYear h
  rw [heq, isDayOfYear_add_era] at hday
  rw [dayNumber, hyear, Int.toNat_natCast, ofDayNumber_dayOfEra (by omega) hday, ← heq,
    ofYearDay_dayOfYear h]

/-- Every number is the number of a date. -/
theorem dayNumber_ofDayNumber (n : Int) :
    (ofDayNumber n).isValid = true ∧ (ofDayNumber n).dayNumber = n := by
  obtain ⟨year, day, hyear, hday, heq⟩ :=
    exists_dayOfEra_eq (n := ((n + 719468) % 146097).toNat) (by omega)
  have hn : n = (n + 719468) / 146097 * 146097 + dayOfEra year day - 719468 := by omega
  generalize (n + 719468) / 146097 = era at hn
  rw [hn, ofDayNumber_dayOfEra hyear hday]
  refine ⟨isValid_ofYearDay (isDayOfYear_add_era.2 hday), ?_⟩
  have hlt : day < 366 := by unfold IsDayOfYear at hday; omega
  have hera : (era * 400 + year) / 400 = era := by omega
  have hrest : ((era * 400 + year) % 400).toNat = year := by omega
  rw [dayNumber, marchYear_ofYearDay, dayOfYear_ofYearDay hlt, hera, hrest]

example :
    ([⟨1970, 1, 1⟩, ⟨1969, 12, 31⟩, ⟨2000, 2, 29⟩, ⟨1900, 3, 1⟩, ⟨0, 1, 1⟩, ⟨9999, 12, 31⟩] :
      List Date).map dayNumber = [0, -1, 11016, -25508, -719528, 2932896] := by
  decide

end Date

end RecordQuery.Calendar
