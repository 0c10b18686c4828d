import GamifyKit.Analytics.Metrics

/-! The `AggregationEngine` of package `analytics`: snapshots of the metrics for the day, the ISO
    week and the month of an instant `now`, one map of them per period, under the period's key.

    `aggregateDaily` copies the day's counters. `aggregateWeekly` and `aggregateMonthly` add up
    the daily counters over the days of the week and of the month, found from `now` with
    `time.Date` and `AddDate`, each `+=` in `int64`. Instants are seconds from
    0001-01-01T00:00:00Z and days are counted from that date, as in `Metrics`.

    Every aggregation leaves the maps by metric, badge and achievement of its `AggregatedData`
    empty and the points spent, levels and achievements at zero; they are left out, with the
    mutex, the hook (which is the metrics) and the ticker of `Start`.

    The weekly loop starts on the Monday of `now`'s week (`weekStart_eq`), the monthly loop on
    the first of its month for the month's length (`daysInMonth_eq`), and their keys are those of
    distinct days (`nodup_dayKeys`): a day is summed exactly when its week or month key is the
    one the data is stored under (`aggregateWeekly_covers`, `aggregateMonthly_covers`). -/

namespace GamifyKit.Analytics
open GamifyKit.Go GamifyKit.Core

/-- `PeriodDaily`. -/
def PeriodDaily : GoString := lit "daily"

/-- `PeriodWeekly`. -/
def PeriodWeekly : GoString := lit "weekly"

/-- `PeriodMonthly`. -/
def PeriodMonthly : GoString := lit "monthly"

/-- `AggregatedData`, without the maps and counters no aggregation fills. -/
structure AggregatedData where
  period : GoString
  key : GoString
  startTime : Int
  endTime : Int
  activeUsers : Nat
  pointsAwarded : Int
  badgesAwarded : Int
  createdAt : Int
  deriving DecidableEq

/-- `AggregationEngine`, without its mutex, hook and interval. -/
structure AggregationEngine where
  metrics : ComprehensiveMetrics
  dailyAggregations : GoMap AggregatedData
  weeklyAggregations : GoMap AggregatedData
  monthlyAggregations : GoMap AggregatedData
  lastAggregation : Int

/-- `NewAggregationEngine(metrics, interval)`, made at wall-clock time `now`. -/
def NewAggregationEngine (metrics : ComprehensiveMetrics) (now : Int) : AggregationEngine :=
  ⟨metrics, .empty, .empty, .empty, now⟩

/-- `OnEvent(e)`, handed on to the metrics. -/
def AggregationEngine.OnEvent (ae : AggregationEngine) (e : Event) (time now : Int) :
    AggregationEngine :=
  { ae with metrics := ae.metrics.OnEvent e time now }

/-- The day keys a loop of `aggregateWeekly` or `aggregateMonthly` visits:
    `start.AddDate(0, 0, i).Format("2006-01-02")` for `i` from 0 below `count`. -/
def dayKeys (start : Int) (count : Nat) : List GoString :=
  (List.range count).map fun i : Nat => FormatDate (AddDate start 0 0 i)

/-- The sums of such a loop, `data.PointsAwarded += GetPointsAwardedByDay(dayKey)` and
    `data.BadgesAwarded += GetBadgesAwardedByDay(dayKey)`, from `acc`. -/
def ComprehensiveMetrics.sumDays (cm : ComprehensiveMetrics) (days : List GoString)
    (acc : Int × Int) : Int × Int :=
  days.foldl (fun a k => (wrap64 (a.1 + cm.GetPointsAwardedByDay k),
    wrap64 (a.2 + cm.GetBadgesAwardedByDay k))) acc

/-- `daysSinceMonday` of `aggregateWeekly`: `int(now.Weekday()-time.Monday) % 7`, plus 7 when
    negative. Go's `%` truncates. -/
def daysSinceMonday (n : Int) : Int :=
  let x := (Weekday n - 1).tmod 7
  if x < 0 then x + 7 else x

/-- The day of `startTime` in `aggregateWeekly`: `time.Date(y, m, d-daysSinceMonday, …)`. -/
def weekStart (n : Int) : Int :=
  Date (civil n).1 (civil n).2.1 ((civil n).2.2 - daysSinceMonday n)

/-- The day of `startTime` in `aggregateMonthly`: `time.Date(y, m, 1, …)`. -/
def monthStartDay (n : Int) : Int := Date (civil n).1 (civil n).2.1 1

/-- `int(daysInMonth)` of `aggregateMonthly`: `endTime.Sub(startTime).Hours() / 24` with
    `endTime = startTime.AddDate(0, 1, 0)`. Both are midnights, so the quotient is exact. -/
def daysInMonth (n : Int) : Nat :=
  ((AddDate (monthStartDay n) 0 1 0 * 86400 - monthStartDay n * 86400) / 3600 / 24).toNat

/-- `aggregateDaily(now)`, which returns `nil`. -/
def AggregationEngine.aggregateDaily (ae : AggregationEngine) (now : Int) : AggregationEngine :=
  let today := FormatDate (dayOf now)
  let startTime := Date (civil (dayOf now)).1 (civil (dayOf now)).2.1 (civil (dayOf now)).2.2 * 86400
  let data : AggregatedData := ⟨PeriodDaily, today, startTime, startTime + 86400,
    ae.metrics.GetDailyActiveUsers today, ae.metrics.GetPointsAwardedByDay today,
    ae.metrics.GetBadgesAwardedByDay today, now⟩
  { ae with dailyAggregations := ae.dailyAggregations.insert today data }

/-- `aggregateWeekly(now)`, which returns `nil`. -/
def AggregationEngine.aggregateWeekly (ae : AggregationEngine) (now : Int) : AggregationEngine :=
  let weekKey := appendInt (ISOWeek (dayOf now)).1 0 ++ lit "-W" ++ appendInt (ISOWeek (dayOf now)).2 2
  let startTime := weekStart (dayOf now) * 86400
  let sums := ae.metrics.sumDays (dayKeys (weekStart (dayOf now)) 7) (0, 0)
  let data : AggregatedData := ⟨PeriodWeekly, weekKey, startTime, startTime + 7 * 86400,
    ae.metrics.GetWeeklyActiveUsers weekKey, sums.1, sums.2, now⟩
  { ae with weeklyAggregations := ae.weeklyAggregations.insert weekKey data }

/-- `aggregateMonthly(now)`, which returns `nil`. -/
def AggregationEngine.aggregateMonthly (ae : AggregationEngine) (now : Int) : AggregationEngine :=
  let monthKey := FormatMonth (dayOf now)
  let startTime := monthStartDay (dayOf now) * 86400
  let sums := ae.metrics.sumDays (dayKeys (monthStartDay (dayOf now)) (daysInMonth (dayOf now))) (0, 0)
  let data : AggregatedData := ⟨PeriodMonthly, monthKey, startTime,
    AddDate (monthStartDay (dayOf now)) 0 1 0 * 86400, ae.metrics.GetMonthlyActiveUsers monthKey,
    sums.1, sums.2, now⟩
  { ae with monthlyAggregations := ae.monthlyAggregations.insert monthKey data }

/-- `AggregateNow()` at wall-clock time `now`; none of the three aggregations fails. -/
def AggregationEngine.AggregateNow (ae : AggregationEngine) (now : Int) : AggregationEngine :=
  { ((ae.aggregateDaily now).aggregateWeekly now).aggregateMonthly now with lastAggregation := now }

/-- `GetAggregatedData(period, key)`: `none` for another period or an absent key. -/
def AggregationEngine.GetAggregatedData (ae : AggregationEngine) (period key : GoString) :
    Option AggregatedData :=
  if period = PeriodDaily then ae.dailyAggregations.find? key
  else if period = PeriodWeekly then ae.weeklyAggregations.find? key
  else if period = PeriodMonthly then ae.monthlyAggregations.find? key
  else none

/-- `GetAllAggregatedData(period)`: the aggregations of the period, in the order `range` visits
    them, which Go leaves unspecified and is taken here as the keys' order; `nil` for another
    period. -/
def AggregationEngine.GetAllAggregatedData (ae : AggregationEngine) (period : GoString) :
    List AggregatedData :=
  if period = PeriodDaily then ae.dailyAggregations.entries.map Prod.snd
  else if period = PeriodWeekly then ae.weeklyAggregations.entries.map Prod.snd
  else if period = PeriodMonthly then ae.monthlyAggregations.entries.map Prod.snd
  else []

/-! ### The days of a loop -/

theorem daysSinceMonday_eq (n : Int) : daysSinceMonday n = n % 7 := by
  have hw : 0 ≤ (n + 1) % 7 ∧ (n + 1) % 7 < 7 := by omega
  rw [daysSinceMonday, Weekday, show n % 7 = ((n + 1) % 7 + 6) % 7 by omega]
  generalize (n + 1) % 7 = w at hw ⊢
  obtain ⟨h₀, h₇⟩ := hw
  interval_cases w <;> decide

/-- The weekly loop starts on the Monday of the week of `n`. -/
theorem weekStart_eq (n : Int) : weekStart n = n - n % 7 := by
  rw [weekStart, daysSinceMonday_eq, sub_eq_add_neg, Date_add, Date_civil, ← sub_eq_add_neg]

/-- The monthly loop runs for the length of the month of `n`. -/
theorem daysInMonth_eq (n : Int) : daysInMonth n = daysIn (isLeap (civil n).1) (civil n).2.1 := by
  obtain ⟨h₁, h₂, -⟩ := civil_valid n
  rw [daysInMonth, monthStartDay, AddDate_month h₁ h₂]
  omega

theorem dayKeys_eq (start : Int) (count : Nat) :
    dayKeys start count = (List.range count).map fun i : Nat => FormatDate (start + i) := by
  simp only [dayKeys, AddDate_days]

/-- A day's key is among the keys of a loop exactly when the day is among its days. -/
theorem mem_dayKeys {start D : Int} {count : Nat} :
    FormatDate D ∈ dayKeys start count ↔ start ≤ D ∧ D < start + count := by
  rw [dayKeys_eq, List.mem_map]
  constructor
  · rintro ⟨i, hi, h⟩
    have := FormatDate_inj h
    rw [List.mem_range] at hi
    omega
  · intro h
    refine ⟨(D - start).toNat, List.mem_range.2 (by omega), ?_⟩
    rw [Int.toNat_of_nonneg (by omega), add_sub_cancel]

theorem nodup_dayKeys (start : Int) (count : Nat) : (dayKeys start count).Nodup := by
  rw [dayKeys_eq]
  exact (List.nodup_range count).map fun i j h => by have := FormatDate_inj h; omega

theorem dayKeys_dates {start : Int} {count : Nat} :
    ∀ k ∈ dayKeys start count, ∃ D, k = FormatDate D := by
  intro k hk
  obtain ⟨i, -, rfl⟩ := List.mem_map.1 hk
  exact ⟨_, rfl⟩

/-- The loop's `int64` sums are the wraps of the exact sums. -/
theorem sumDays_eq (cm : ComprehensiveMetrics) (days : List GoString) (a b : Int) :
    cm.sumDays days (wrap64 a, wrap64 b) =
      (wrap64 (a + (days.map cm.GetPointsAwardedByDay).sum),
        wrap64 (b + (days.map cm.GetBadgesAwardedByDay).sum)) := by
  induction days generalizing a b with
  | nil => simp [ComprehensiveMetrics.sumDays]
  | cons k days ih =>
    simp only [ComprehensiveMetrics.sumDays, List.foldl_cons, wrap64_add_wrap] at ih ⊢
    rw [ih, List.map_cons, List.sum_cons, List.map_cons, List.sum_cons, add_assoc, add_assoc]

theorem sumDays_zero (cm : ComprehensiveMetrics) (days : List GoString) :
    cm.sumDays days (0, 0) =
      (wrap64 (days.map cm.GetPointsAwardedByDay).sum, wrap64 (days.map cm.GetBadgesAwardedByDay).sum) := by
  simpa using sumDays_eq cm days 0 0

/-! ### What the periods hold -/

/-- What an aggregation over the day keys `days`, stored as `data` under `key`, should be: the
    keys are those of distinct days, a day is among them exactly when `keyOf` files its midnight
    under `key`, and the points and badges stored are the `int64` sums of those days' counters. -/
structure Covers (cm : ComprehensiveMetrics) (keyOf : Int → GoString) (key : GoString)
    (days : List GoString) (data : AggregatedData) : Prop where
  key_eq : data.key = key
  nodup : days.Nodup
  dates : ∀ k ∈ days, ∃ D, k = FormatDate D
  exact : ∀ D, FormatDate D ∈ days ↔ keyOf (D * 86400) = key
  points : data.pointsAwarded = wrap64 (days.map cm.GetPointsAwardedByDay).sum
  badges : data.badgesAwarded = wrap64 (days.map cm.GetBadgesAwardedByDay).sum

theorem aggregateWeekly_covers (ae : AggregationEngine) (now : Int) :
    ∃ data, (ae.aggregateWeekly now).weeklyAggregations.find? (getWeekKey now) = some data ∧
      Covers ae.metrics getWeekKey (getWeekKey now) (dayKeys (weekStart (dayOf now)) 7) data := by
  refine ⟨_, by simp only [AggregationEngine.aggregateWeekly, GoMap.find?_insert]; exact if_pos rfl,
    ⟨rfl, nodup_dayKeys _ _, dayKeys_dates, fun D => ?_, by rw [sumDays_zero],
      by rw [sumDays_zero]⟩⟩
  rw [mem_dayKeys, weekStart_eq, getWeekKey_eq_iff, dayOf_midnight, ISOWeek_eq_iff]
  omega

theorem aggregateMonthly_covers (ae : AggregationEngine) (now : Int) :
    ∃ data, (ae.aggregateMonthly now).monthlyAggregations.find? (getMonthKey now) = some data ∧
      Covers ae.metrics getMonthKey (getMonthKey now)
        (dayKeys (monthStartDay (dayOf now)) (daysInMonth (dayOf now))) data := by
  refine ⟨_, by simp only [AggregationEngine.aggregateMonthly, GoMap.find?_insert]; exact if_pos rfl,
    ⟨rfl, nodup_dayKeys _ _, dayKeys_dates, fun D => ?_, by rw [sumDays_zero],
      by rw [sumDays_zero]⟩⟩
  obtain ⟨h₁, h₂, -⟩ := civil_valid (dayOf now)
  rw [mem_dayKeys, daysInMonth_eq, monthStartDay, getMonthKey, getMonthKey, dayOf_midnight,
    FormatMonth_eq_iff, civil_month_iff h₁ h₂]

/-- The weekly and monthly aggregations of `now` cover exactly their days: the day keys each loop
    sums are those of distinct days, a day is among them exactly when its week or month key is the
    key the data is stored under, and the points and badges stored are the `int64` sums of the
    daily counters over those days. -/
theorem periods_cover_days (ae : AggregationEngine) (now : Int) :
    (∃ data, (ae.aggregateWeekly now).weeklyAggregations.find? (getWeekKey now) = some data ∧
      Covers ae.metrics getWeekKey (getWeekKey now) (dayKeys (weekStart (dayOf now)) 7) data) ∧
    ∃ data, (ae.aggregateMonthly now).monthlyAggregations.find? (getMonthKey now) = some data ∧
      Covers ae.metrics getMonthKey (getMonthKey now)
        (dayKeys (monthStartDay (dayOf now)) (daysInMonth (dayOf now))) data :=
  ⟨aggregateWeekly_covers ae now, aggregateMonthly_covers ae now⟩

/-- The hook's calls for the events the service publishes when users `a` and `b` each add
    `math.MaxInt64` points on `coins`, on Monday 0001-01-01 and on the Tuesday after. -/
def maxCoinsWeekCalls : List Call :=
  ((Engine.runCalls id DefaultRuleEngine [.addPoints (lit "a") (lit "coins") MaxInt64,
    .addPoints (lit "b") (lit "coins") MaxInt64]).published.zip [0, 86400]).map
    fun p => ⟨p.1, p.2, p.2⟩

/-- The weekly sum wraps: after those two calls the daily counters of the week add up to
    `2 * math.MaxInt64`, and the weekly aggregation stores -2 points. -/
theorem weekly_points_wrap :
    ((dayKeys (weekStart (dayOf 86400)) 7).map (run 0 maxCoinsWeekCalls).GetPointsAwardedByDay).sum =
        2 * MaxInt64 ∧
      (((NewAggregationEngine (run 0 maxCoinsWeekCalls) 0).aggregateWeekly 86400).weeklyAggregations.find?
        (getWeekKey 86400)).map AggregatedData.pointsAwarded = some (-2) := by
  decide

/-- After `AggregateNow()`, `GetAggregatedData` finds under the keys of `now` its day's counters,
    and a week and a month that cover exactly their days. -/
theorem GetAggregatedData_AggregateNow (ae : AggregationEngine) (now : Int) :
    (ae.AggregateNow now).GetAggregatedData PeriodDaily (getDayKey now) =
      some ⟨PeriodDaily, getDayKey now, dayOf now * 86400, dayOf now * 86400 + 86400,
        ae.metrics.GetDailyActiveUsers (getDayKey now), ae.metrics.GetPointsAwardedByDay (getDayKey now),
        ae.metrics.GetBadgesAwardedByDay (getDayKey now), now⟩ ∧
    (∃ data, (ae.AggregateNow now).GetAggregatedData PeriodWeekly (getWeekKey now) = some data ∧
      Covers ae.metrics getWeekKey (getWeekKey now) (dayKeys (weekStart (dayOf now)) 7) data) ∧
    ∃ data, (ae.AggregateNow now).GetAggregatedData PeriodMonthly (getMonthKey now) = some data ∧
      Covers ae.metrics getMonthKey (getMonthKey now)
        (dayKeys (monthStartDay (dayOf now)) (daysInMonth (dayOf now))) data := by
  have hw : PeriodWeekly ≠ PeriodDaily := by decide
  have hm : PeriodMonthly ≠ PeriodDaily ∧ PeriodMonthly ≠ PeriodWeekly := by decide
  refine ⟨?_, ?_, ?_⟩
  · rw [AggregationEngine.GetAggregatedData, if_pos rfl]
    show (ae.dailyAggregations.insert (getDayKey now) _).find? (getDayKey now) = _
    rw [GoMap.find?_insert, if_pos rfl, Date_civil]; rfl
  · obtain ⟨data, h, hc⟩ := aggregateWeekly_covers (ae.aggregateDaily now) now
    exact ⟨data, by rw [AggregationEngine.GetAggregatedData, if_neg hw, if_pos rfl]; exact h, hc⟩
  · obtain ⟨data, h, hc⟩ := aggregateMonthly_covers ((ae.aggregateDaily now).aggregateWeekly now) now
    exact ⟨data, by rw [AggregationEngine.GetAggregatedData, if_neg hm.1, if_neg hm.2, if_pos rfl]; exact h, hc⟩

end GamifyKit.Analytics
