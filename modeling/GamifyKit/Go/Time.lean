import GamifyKit.Go.Format

/-! The calendar of Go's `time` package, in UTC, as the analytics keys read it.

    Days are counted from 0001-01-01, the date of the zero `time.Time`, which was a Monday;
    an instant is a count of seconds from its midnight. `yearYday` is how `absDate` cuts a day
    number into 400-, 100-, 4- and 1-year cycles, `monthDay` its month estimate, `Date` is
    `time.Date` at midnight with the month brought into range by `norm`, and `Weekday`,
    `ISOWeek` and the layouts `2006-01-02` and `2006-01` of `Format` are written as Go 1.22
    computes them.

    Every day is the `Date` of its own year, month and day (`Date_civil`), a valid date is read
    back from its `Date` (`civil_Date`), two days share an ISO week exactly when they share a
    Monday (`ISOWeek_eq_iff`), and the day layout tells days apart (`FormatDate_inj`). -/

namespace GamifyKit.Go

/-- The day of an instant given in seconds from 0001-01-01T00:00:00Z: `abs / secondsPerDay`. -/
def dayOf (t : Int) : Int := t / 86400

/-- The midnight of day `D` is on day `D`. -/
theorem dayOf_midnight (D : Int) : dayOf (D * 86400) = D := by
  unfold dayOf; omega

/-! ### Years -/

/-- `isLeap(year)`. -/
def isLeap (year : Int) : Bool := year % 4 = 0 && (year % 100 ≠ 0 || year % 400 = 0)

/-- The days of `year`. -/
def daysInYear (year : Int) : Int := if isLeap year then 366 else 365

/-- `daysSinceEpoch(year)`: the days from 0001-01-01 to January 1 of `year`. -/
def daysBeforeYear (year : Int) : Int :=
  365 * (year - 1) + (year - 1) / 4 - (year - 1) / 100 + (year - 1) / 400

/-- `absDate(abs, false)` on day `n` counted from 0001-01-01: its year, and its day of the year
    from 0. Go cuts 400-, 100-, 4- and 1-year cycles off the day number, trimming the estimate of
    the last day of a long cycle. -/
def yearYday (n : Int) : Int × Nat :=
  let q := n / 146097
  let d := n % 146097
  let c := d / 36524 - d / 36524 / 4
  let d := d - 36524 * c
  let f := d / 1461
  let d := d - 1461 * f
  let k := d / 365 - d / 365 / 4
  (400 * q + 100 * c + 4 * f + k + 1, (d - 365 * k).toNat)

theorem daysBeforeYear_succ (y : Int) : daysBeforeYear (y + 1) = daysBeforeYear y + daysInYear y := by
  unfold daysBeforeYear daysInYear isLeap
  split_ifs with h <;> simp only [Bool.and_eq_true, Bool.or_eq_true, decide_eq_true_eq, ne_eq] at h <;>
    omega

theorem daysBeforeYear_mono {a b : Int} (h : a ≤ b) : daysBeforeYear a ≤ daysBeforeYear b := by
  unfold daysBeforeYear; omega

/-- The days before a year, counted in the cycles `absDate` cuts. -/
theorem daysBeforeYear_cycles {q c f k : Int} (hc : 0 ≤ c ∧ c ≤ 3) (hf : 0 ≤ f ∧ f ≤ 24)
    (hk : 0 ≤ k ∧ k ≤ 3) :
    daysBeforeYear (400 * q + 100 * c + 4 * f + k + 1) =
      146097 * q + 36524 * c + 1461 * f + 365 * k := by
  unfold daysBeforeYear; omega

/-- The year whose last day ends a 4-year cycle is a leap year, unless it ends a 100-year cycle
    that is not the last of its 400-year cycle. -/
theorem isLeap_cycle_end {q c f : Int} (hf : 0 ≤ f ∧ f ≤ 24) (h : f = 24 → c = 3) :
    isLeap (400 * q + 100 * c + 4 * f + 3 + 1) = true := by
  simp only [isLeap, Bool.and_eq_true, Bool.or_eq_true, decide_eq_true_eq, ne_eq]
  omega

theorem yearYday_spec (n : Int) :
    daysBeforeYear (yearYday n).1 + (yearYday n).2 = n ∧
      ((yearYday n).2 : Int) < daysInYear (yearYday n).1 := by
  unfold yearYday
  dsimp only
  generalize hq : n / 146097 = q
  generalize hd : n % 146097 = d
  have hn : n = 146097 * q + d ∧ 0 ≤ d ∧ d < 146097 := by omega
  generalize hc : d / 36524 - d / 36524 / 4 = c
  have hc' : 0 ≤ c ∧ c ≤ 3 ∧ 0 ≤ d - 36524 * c ∧ d - 36524 * c ≤ 36524 ∧
      (d - 36524 * c = 36524 → c = 3) := by omega
  generalize hd₁ : d - 36524 * c = d₁ at hc'
  generalize hf : d₁ / 1461 = f
  have hf' : 0 ≤ f ∧ f ≤ 24 ∧ 0 ≤ d₁ - 1461 * f ∧ d₁ - 1461 * f ≤ 1460 := by omega
  generalize hd₂ : d₁ - 1461 * f = d₂ at hf'
  generalize hk : d₂ / 365 - d₂ / 365 / 4 = k
  have hk' : 0 ≤ k ∧ k ≤ 3 ∧ 0 ≤ d₂ - 365 * k ∧ d₂ - 365 * k ≤ 365 ∧
      (d₂ - 365 * k = 365 → k = 3 ∧ d₂ = 1460) := by omega
  rw [daysBeforeYear_cycles ⟨hc'.1, hc'.2.1⟩ ⟨hf'.1, hf'.2.1⟩ ⟨hk'.1, hk'.2.1⟩]
  refine ⟨by omega, ?_⟩
  by_cases h365 : d₂ - 365 * k = 365
  · obtain ⟨rfl, rfl⟩ := hk'.2.2.2.2 h365
    rw [daysInYear, if_pos (isLeap_cycle_end ⟨hf'.1, hf'.2.1⟩ (by omega))]
    omega
  · unfold daysInYear; split_ifs <;> omega

/-! ### Months -/

/-- Go's `daysBefore` table: `daysBefore m` is the days of a common year before month `m + 1`,
    for `m` from 0 to 12. -/
def daysBefore (m : Nat) : Nat := [0, 31, 59, 90, 120, 151, 181, 212, 243, 273, 304, 334, 365].getD m 0

/-- `daysIn(month, year)`. -/
def daysIn (leap : Bool) (month : Nat) : Nat :=
  if month = 2 ∧ leap then 29 else daysBefore month - daysBefore (month - 1)

/-- The days of a year before the first of `month`, as `Date` counts them. -/
def monthStart (leap : Bool) (month : Nat) : Nat :=
  daysBefore (month - 1) + if leap ∧ 3 ≤ month then 1 else 0

/-- The month and the day of the month of day `day` (from 0) of a common year, as `absDate`
    finds them: it estimates the month as `day / 31` and moves on one month when that is
    short. -/
def commonMonthDay (day : Nat) : Nat × Nat :=
  let month := day / 31
  if daysBefore (month + 1) ≤ day then (month + 2, day - daysBefore (month + 1) + 1)
  else (month + 1, day - daysBefore month + 1)

/-- The rest of `absDate(abs, true)`: the month and day of the month of day `yday` (from 0) of a
    year. Go takes February 29 apart and counts the later days of a leap year as the day
    before. -/
def monthDay (leap : Bool) (yday : Nat) : Nat × Nat :=
  if leap ∧ yday = 59 then (2, 29) else commonMonthDay (if leap ∧ 59 < yday then yday - 1 else yday)

theorem monthStart_succ (leap : Bool) {m : Nat} (h₁ : 1 ≤ m) (h₂ : m ≤ 12) :
    monthStart leap (m + 1) = monthStart leap m + daysIn leap m := by
  interval_cases m <;> cases leap <;> rfl

/-- What the month estimate `day / 31` needs of the table: it is never past the month, and at
    most one month short. -/
theorem daysBefore_table : ∀ m < 12, daysBefore m ≤ 31 * m ∧ daysBefore m ≤ daysBefore (m + 1) ∧
    (m ≤ 10 → daysBefore (m + 1) ≤ daysBefore (m + 2) ∧ 31 * m + 30 < daysBefore (m + 2)) ∧
    (m = 11 → daysBefore (m + 1) = 365) ∧ (1 ≤ m → 59 ≤ daysBefore (m + 1)) ∧
    (m ≤ 1 → daysBefore (m + 1) ≤ 59) := by
  decide

theorem commonMonthDay_spec {day : Nat} (h : day < 365) :
    1 ≤ (commonMonthDay day).1 ∧ (commonMonthDay day).1 ≤ 12 ∧ 1 ≤ (commonMonthDay day).2 ∧
      (commonMonthDay day).2 ≤ daysIn false (commonMonthDay day).1 ∧
      daysBefore ((commonMonthDay day).1 - 1) + (commonMonthDay day).2 - 1 = day ∧
      (59 ≤ day ↔ 3 ≤ (commonMonthDay day).1) := by
  have hm : day / 31 < 12 ∧ 31 * (day / 31) ≤ day ∧ day < 31 * (day / 31) + 31 := by omega
  have ht := daysBefore_table _ hm.1
  unfold commonMonthDay
  generalize day / 31 = m at hm ht
  dsimp only
  split_ifs <;> simp only [daysIn, Bool.false_eq_true, and_false, if_false, Nat.add_sub_cancel,
    show m + 2 - 1 = m + 1 by omega] <;> omega

theorem monthDay_spec (leap : Bool) {yday : Nat} (h : yday < if leap then 366 else 365) :
    1 ≤ (monthDay leap yday).1 ∧ (monthDay leap yday).1 ≤ 12 ∧ 1 ≤ (monthDay leap yday).2 ∧
      (monthDay leap yday).2 ≤ daysIn leap (monthDay leap yday).1 ∧
      monthStart leap (monthDay leap yday).1 + (monthDay leap yday).2 - 1 = yday := by
  unfold monthDay
  by_cases hf : leap ∧ yday = 59
  · obtain ⟨rfl, rfl⟩ := hf; decide
  rw [if_neg hf]
  cases leap with
  | false =>
    simp only [Bool.false_eq_true, false_and, if_false] at h ⊢
    obtain ⟨h₁, h₂, h₃, h₄, h₅, -⟩ := commonMonthDay_spec h
    simp only [monthStart, Bool.false_eq_true, false_and, if_false, Nat.add_zero]
    omega
  | true =>
    simp only [true_and, if_true] at h hf ⊢
    have hdi : ∀ m, daysIn true m = if m = 2 then 29 else daysIn false m := fun m => by
      simp [daysIn]
    by_cases hl : 59 < yday
    · rw [if_pos hl]
      obtain ⟨h₁, h₂, h₃, h₄, h₅, h₆⟩ := commonMonthDay_spec (show yday - 1 < 365 by omega)
      have hm : 3 ≤ (commonMonthDay (yday - 1)).1 := h₆.1 (by omega)
      have hs : monthStart true (commonMonthDay (yday - 1)).1 =
          daysBefore ((commonMonthDay (yday - 1)).1 - 1) + 1 := by
        simp only [monthStart, true_and, if_pos hm]
      rw [hdi, if_neg (by omega), hs]
      omega
    · rw [if_neg hl]
      obtain ⟨h₁, h₂, h₃, h₄, h₅, h₆⟩ := commonMonthDay_spec (show yday < 365 by omega)
      have hm : (commonMonthDay yday).1 < 3 := by
        by_contra hm; have := h₆.2 (by omega); omega
      have hs : monthStart true (commonMonthDay yday).1 = daysBefore ((commonMonthDay yday).1 - 1) := by
        simp only [monthStart, true_and, if_neg (show ¬3 ≤ (commonMonthDay yday).1 by omega),
          Nat.add_zero]
      rw [hdi, hs]
      split_ifs with h2
      · rw [h2, show daysIn false 2 = 28 from rfl] at h₄; omega
      · omega

theorem monthStart_mono (leap : Bool) {a b : Nat} (ha : 1 ≤ a) (hab : a ≤ b) (hb : b ≤ 13) :
    monthStart leap a ≤ monthStart leap b := by
  induction b, hab using Nat.le_induction with
  | base => exact le_rfl
  | succ b hab ih => rw [monthStart_succ leap (by omega) (by omega)]; have := ih (by omega); omega

theorem monthStart_thirteen (leap : Bool) : monthStart leap 13 = if leap then 366 else 365 := by
  cases leap <;> rfl

/-! ### Dates -/

/-- `norm(hi, lo, base)`: `lo` brought into `[0, base)`, what overflows carried into `hi`. -/
def norm (hi lo base : Int) : Int × Int :=
  let p := if lo < 0 then (hi - ((-lo - 1) / base + 1), lo + ((-lo - 1) / base + 1) * base)
    else (hi, lo)
  if base ≤ p.2 then (p.1 + p.2 / base, p.2 - p.2 / base * base) else p

theorem norm_twelve (hi lo : Int) : norm hi lo 12 = (hi + lo / 12, lo % 12) := by
  unfold norm
  by_cases h : lo < 0
  · rw [if_pos h]; dsimp only; rw [if_neg (by omega)]; simp only [Prod.mk.injEq]; omega
  · rw [if_neg h]; dsimp only; split_ifs <;> simp only [Prod.mk.injEq, true_and] <;> omega

/-- `time.Date(year, month, day, 0, 0, 0, 0, time.UTC)` as a day number: the month is brought
    into range, carrying into the year, and the day is added whatever its size. -/
def Date (year month day : Int) : Int :=
  let ym := norm year (month - 1) 12
  daysBeforeYear ym.1 + monthStart (isLeap ym.1) (ym.2 + 1).toNat + day - 1

/-- `t.Date()` on day `n`: its year, month and day of the month. -/
def civil (n : Int) : Int × Nat × Nat :=
  let yd := yearYday n
  let md := monthDay (isLeap yd.1) yd.2
  (yd.1, md.1, md.2)

theorem Date_of_valid {y : Int} {m : Nat} (h₁ : 1 ≤ m) (h₂ : m ≤ 12) (d : Int) :
    Date y m d = daysBeforeYear y + monthStart (isLeap y) m + d - 1 := by
  simp only [Date, norm_twelve]
  rw [show ((m : Int) - 1) / 12 = 0 by omega, show ((m : Int) - 1) % 12 + 1 = m by omega]
  simp

/-- `Date` adds days on. -/
theorem Date_add (y m d k : Int) : Date y m (d + k) = Date y m d + k := by
  simp only [Date]; omega

theorem civil_valid (n : Int) :
    1 ≤ (civil n).2.1 ∧ (civil n).2.1 ≤ 12 ∧ 1 ≤ (civil n).2.2 ∧
      (civil n).2.2 ≤ daysIn (isLeap (civil n).1) (civil n).2.1 := by
  obtain ⟨-, hy⟩ := yearYday_spec n
  have := @monthDay_spec (isLeap (yearYday n).1) (yearYday n).2
    (by unfold daysInYear at hy; split_ifs at hy ⊢ <;> omega)
  exact ⟨this.1, this.2.1, this.2.2.1, this.2.2.2.1⟩

/-- A day is the `Date` of its year, month and day of the month. -/
theorem Date_civil (n : Int) : Date (civil n).1 (civil n).2.1 (civil n).2.2 = n := by
  obtain ⟨hn, hy⟩ := yearYday_spec n
  have hm := @monthDay_spec (isLeap (yearYday n).1) (yearYday n).2
    (by unfold daysInYear at hy; split_ifs at hy ⊢ <;> omega)
  obtain ⟨h₁, h₂, h₃, -, h₅⟩ := hm
  simp only [civil]
  rw [Date_of_valid h₁ h₂]
  omega

theorem monthStart_lt {leap : Bool} {m d : Nat} (h₁ : 1 ≤ m) (h₂ : m ≤ 12) (h₄ : d ≤ daysIn leap m) :
    monthStart leap m + d ≤ monthStart leap (m + 1) ∧ monthStart leap (m + 1) ≤ monthStart leap 13 :=
  ⟨by rw [monthStart_succ leap h₁ h₂]; omega, monthStart_mono leap (by omega) (by omega) le_rfl⟩

/-- The year and day of the year of a day counted from its year's first. -/
theorem yearYday_eq {y : Int} {k : Nat} (hk : (k : Int) < daysInYear y) :
    yearYday (daysBeforeYear y + k) = (y, k) := by
  obtain ⟨hn, hy⟩ := yearYday_spec (daysBeforeYear y + k)
  generalize yearYday (daysBeforeYear y + k) = p at hn hy
  obtain ⟨y', k'⟩ := p
  dsimp only at hn hy
  have hy' : y' = y := by
    rcases lt_trichotomy y' y with h | h | h
    · have := daysBeforeYear_mono (show y' + 1 ≤ y by omega); have := daysBeforeYear_succ y'; omega
    · exact h
    · have := daysBeforeYear_mono (show y + 1 ≤ y' by omega); have := daysBeforeYear_succ y; omega
  subst hy'
  simp only [Prod.mk.injEq, true_and]
  omega

/-- The month and day of the month of a day counted from its month's first. -/
theorem monthDay_eq {leap : Bool} {m d : Nat} (h₁ : 1 ≤ m) (h₂ : m ≤ 12) (h₃ : 1 ≤ d)
    (h₄ : d ≤ daysIn leap m) : monthDay leap (monthStart leap m + d - 1) = (m, d) := by
  obtain ⟨hs, h13⟩ := monthStart_lt h₁ h₂ h₄
  have hlt : monthStart leap m + d - 1 < if leap then 366 else 365 := by
    rw [← monthStart_thirteen]; omega
  obtain ⟨g₁, g₂, g₃, g₄, g₅⟩ := monthDay_spec leap hlt
  generalize monthDay leap (monthStart leap m + d - 1) = p at *
  obtain ⟨m', d'⟩ := p
  dsimp only at *
  have hs' := (monthStart_lt g₁ g₂ g₄).1
  have hm : m' = m := by
    rcases lt_trichotomy m' m with h | h | h
    · have := monthStart_mono leap (show 1 ≤ m' + 1 by omega) (show m' + 1 ≤ m by omega) (by omega)
      omega
    · exact h
    · have := monthStart_mono leap (show 1 ≤ m + 1 by omega) (show m + 1 ≤ m' by omega) (by omega)
      omega
  subst hm
  simp only [Prod.mk.injEq, true_and]
  omega

/-- A valid date is the `civil` date of its `Date`. -/
theorem civil_Date {y : Int} {m d : Nat} (h₁ : 1 ≤ m) (h₂ : m ≤ 12) (h₃ : 1 ≤ d)
    (h₄ : d ≤ daysIn (isLeap y) m) : civil (Date y m d) = (y, m, d) := by
  obtain ⟨hs, h13⟩ := monthStart_lt h₁ h₂ h₄
  have hk : ((monthStart (isLeap y) m + d - 1 : Nat) : Int) < daysInYear y := by
    rw [monthStart_thirteen] at h13; unfold daysInYear; split_ifs at h13 ⊢ <;> omega
  have hD : Date y m d = daysBeforeYear y + ((monthStart (isLeap y) m + d - 1 : Nat) : Int) := by
    rw [Date_of_valid h₁ h₂]; omega
  rw [hD, civil]
  simp only [yearYday_eq hk, monthDay_eq h₁ h₂ h₃ h₄]

/-- `t.AddDate(years, months, days)` of the midnight of day `n`: `time.Date` of its year, month
    and day moved on, which `Date` brings back into range. -/
def AddDate (n years months days : Int) : Int :=
  Date ((civil n).1 + years) ((civil n).2.1 + months) ((civil n).2.2 + days)

/-- Adding days moves on by that many days. -/
theorem AddDate_days (n k : Int) : AddDate n 0 0 k = n + k := by
  rw [AddDate, add_zero, add_zero, Date_add, Date_civil]

theorem daysIn_pos (leap : Bool) {m : Nat} (h₁ : 1 ≤ m) (h₂ : m ≤ 12) : 1 ≤ daysIn leap m := by
  interval_cases m <;> cases leap <;> decide

/-- The first of the next month is the month's length on from the first of the month, December
    carrying into the next year. -/
theorem Date_next_month (y : Int) {m : Nat} (h₁ : 1 ≤ m) (h₂ : m ≤ 12) :
    Date y (m + 1) 1 = Date y m 1 + daysIn (isLeap y) m := by
  rw [Date_of_valid h₁ h₂]
  rcases Nat.lt_or_ge m 12 with hm | hm
  · rw [show (m : Int) + 1 = ((m + 1 : Nat) : Int) by push_cast; rfl, Date_of_valid (by omega) hm,
      monthStart_succ _ h₁ h₂]
    push_cast; ring
  · obtain rfl : m = 12 := by omega
    have h13 := @monthStart_succ (isLeap y) 12 (by omega) le_rfl
    rw [monthStart_thirteen] at h13
    have hD : Date y (12 + 1) 1 = daysBeforeYear (y + 1) := by
      simp [Date, norm_twelve, monthStart, daysBefore]
    rw [show ((12 : Nat) : Int) + 1 = 12 + 1 from rfl, hD, daysBeforeYear_succ, daysInYear]
    split_ifs at h13 ⊢ <;> omega

/-- A month on from the first of a month is the first of the next. -/
theorem AddDate_month {y : Int} {m : Nat} (h₁ : 1 ≤ m) (h₂ : m ≤ 12) :
    AddDate (Date y m 1) 0 1 0 = Date y m 1 + daysIn (isLeap y) m := by
  have hc := @civil_Date y m 1 h₁ h₂ le_rfl (daysIn_pos _ h₁ h₂)
  rw [Nat.cast_one] at hc
  rw [AddDate, hc, add_zero, add_zero, Nat.cast_one]
  exact Date_next_month y h₁ h₂

/-- The days of a month are those from its first for the month's length. -/
theorem civil_month_iff {D y : Int} {m : Nat} (h₁ : 1 ≤ m) (h₂ : m ≤ 12) :
    (civil D).1 = y ∧ (civil D).2.1 = m ↔ Date y m 1 ≤ D ∧ D < Date y m 1 + daysIn (isLeap y) m := by
  constructor
  · rintro ⟨rfl, rfl⟩
    obtain ⟨-, -, hd₁, hd₂⟩ := civil_valid D
    have hD := Date_civil D
    rw [show ((civil D).2.2 : Int) = 1 + ((civil D).2.2 - 1) by ring, Date_add] at hD
    omega
  · rintro ⟨hlo, hhi⟩
    have hD : D = Date y m ((D - Date y m 1).toNat + 1 : Nat) := by
      push_cast; rw [Int.toNat_of_nonneg (by omega), add_comm, Date_add]; ring
    rw [hD, civil_Date h₁ h₂ (by omega) (by omega)]
    exact ⟨rfl, rfl⟩

/-! ### Weeks -/

/-- `t.Weekday()` of day `n`, Sunday being 0: 0001-01-01 was a Monday. -/
def Weekday (n : Int) : Int := (n + 1) % 7

/-- `t.ISOWeek()` of day `n`: the year and the week of the Thursday of its week, found as
    `Thursday - absWeekday(abs)` days on, Sunday counting as the week's last day. -/
def ISOWeek (n : Int) : Int × Int :=
  let d := 4 - Weekday n
  let d := if d = 4 then -3 else d
  let yd := yearYday (n + d)
  (yd.1, ((yd.2 / 7 + 1 : Nat) : Int))

/-- The Thursday `ISOWeek` reads is the fourth day from the Monday `n - n % 7`. -/
theorem ISOWeek_eq (n : Int) :
    ISOWeek n = ((yearYday (n - n % 7 + 3)).1, (((yearYday (n - n % 7 + 3)).2 / 7 + 1 : Nat) : Int)) := by
  unfold ISOWeek Weekday
  have : n + (if 4 - (n + 1) % 7 = 4 then -3 else 4 - (n + 1) % 7) = n - n % 7 + 3 := by
    split_ifs <;> omega
  simp only [this]

/-- Two days have the same ISO year and week exactly when they have the same Monday. -/
theorem ISOWeek_eq_iff {a b : Int} : ISOWeek a = ISOWeek b ↔ a - a % 7 = b - b % 7 := by
  refine ⟨fun h => ?_, fun h => by rw [ISOWeek_eq, ISOWeek_eq, h]⟩
  rw [ISOWeek_eq, ISOWeek_eq, Prod.mk.injEq] at h
  obtain ⟨ha, -⟩ := yearYday_spec (a - a % 7 + 3)
  obtain ⟨hb, -⟩ := yearYday_spec (b - b % 7 + 3)
  rw [h.1] at ha
  omega

/-- The ISO week of a day is between 1 and 53. -/
theorem ISOWeek_week_bounds (n : Int) : 1 ≤ (ISOWeek n).2 ∧ (ISOWeek n).2 ≤ 53 := by
  have h := (yearYday_spec (n - n % 7 + 3)).2
  rw [ISOWeek_eq]
  unfold daysInYear at h
  split_ifs at h <;> dsimp only <;> omega

/-! ### Layouts -/

/-- `t.Format("2006-01-02")` of day `n`. -/
def FormatDate (n : Int) : GoString :=
  appendInt (civil n).1 4 ++ [0x2D] ++ appendInt (civil n).2.1 2 ++ [0x2D] ++ appendInt (civil n).2.2 2

/-- `t.Format("2006-01")` of day `n`. -/
def FormatMonth (n : Int) : GoString := appendInt (civil n).1 4 ++ [0x2D] ++ appendInt (civil n).2.1 2

theorem daysIn_le (leap : Bool) {m : Nat} (h₁ : 1 ≤ m) (h₂ : m ≤ 12) : daysIn leap m ≤ 31 := by
  interval_cases m <;> cases leap <;> decide

/-- Distinct days have distinct `2006-01-02` keys. -/
theorem FormatDate_inj {a b : Int} (h : FormatDate a = FormatDate b) : a = b := by
  obtain ⟨ma₁, ma₂, da₁, da₂⟩ := civil_valid a
  obtain ⟨mb₁, mb₂, db₁, db₂⟩ := civil_valid b
  have := daysIn_le (isLeap (civil a).1) ma₁ ma₂
  have := daysIn_le (isLeap (civil b).1) mb₁ mb₂
  unfold FormatDate at h
  obtain ⟨h, hd⟩ := List.append_inj' h (by rw [length_appendInt_two, length_appendInt_two] <;> omega)
  obtain ⟨h, -⟩ := List.append_inj' h rfl
  obtain ⟨h, hm⟩ := List.append_inj' h (by rw [length_appendInt_two, length_appendInt_two] <;> omega)
  obtain ⟨hy, -⟩ := List.append_inj' h rfl
  have hc : civil a = civil b := by
    rw [Prod.ext_iff, Prod.ext_iff]
    exact ⟨appendInt_inj hy, by exact_mod_cast appendInt_inj hm, by exact_mod_cast appendInt_inj hd⟩
  rw [← Date_civil a, ← Date_civil b, hc]

/-- Two days have the same `2006-01` key exactly when they have the same year and month. -/
theorem FormatMonth_eq_iff {a b : Int} :
    FormatMonth a = FormatMonth b ↔ (civil a).1 = (civil b).1 ∧ (civil a).2.1 = (civil b).2.1 := by
  refine ⟨fun h => ?_, fun ⟨hy, hm⟩ => by rw [FormatMonth, FormatMonth, hy, hm]⟩
  obtain ⟨ma₁, ma₂, -⟩ := civil_valid a
  obtain ⟨mb₁, mb₂, -⟩ := civil_valid b
  unfold FormatMonth at h
  obtain ⟨h, hm⟩ := List.append_inj' h (by rw [length_appendInt_two, length_appendInt_two] <;> omega)
  obtain ⟨hy, -⟩ := List.append_inj' h rfl
  exact ⟨appendInt_inj hy, by exact_mod_cast appendInt_inj hm⟩

end GamifyKit.Go
