import GamifyKit.Go.Time
import GamifyKit.Engine.Service

/-! Package `analytics`: the `ComprehensiveMetrics` hook, which counts the service's events by
    day, ISO week, month, metric and badge, and its report `GetTopMetrics`.

    `OnEvent` reads an event's type, user, metric, delta and badge, and the instant `e.Time`,
    given here in seconds from 0001-01-01T00:00:00Z; the wall clock that `time.Since` reads for
    the reset of the realtime counters is an argument too. Every counter is an `int64`, so
    each `+=` wraps (`wrap64`). The counters of level-ups by day and metric, the level
    distribution and the achievement counters are written by `OnEvent` and read by no function
    of the package; they are left out, and so the achievement case changes nothing here.

    `GetTopMetrics` copies `pointsAwardedByMetric` into a slice in the order `range` visits the
    map, which Go leaves unspecified: it is the argument `order`, a permutation of the map's
    entries. The slice is sorted by an exchange loop (`exchangeSort`) and cut to `limit`. -/

namespace GamifyKit.Analytics
open GamifyKit.Go GamifyKit.Core GamifyKit.Engine

/-- `getWeekKey(t)`: `fmt.Sprintf("%d-W%02d", year, week)` of `t.UTC().ISOWeek()`. -/
def getWeekKey (t : Int) : GoString :=
  appendInt (ISOWeek (dayOf t)).1 0 ++ lit "-W" ++ appendInt (ISOWeek (dayOf t)).2 2

/-- `getMonthKey(t)`: `t.UTC().Format("2006-01")`. -/
def getMonthKey (t : Int) : GoString := FormatMonth (dayOf t)

/-- The day key `OnEvent` files an event under: `e.Time.UTC().Format("2006-01-02")`. -/
def getDayKey (t : Int) : GoString := FormatDate (dayOf t)

/-- Two instants have the same week key exactly when they have the same ISO year and week. -/
theorem getWeekKey_eq_iff {a b : Int} :
    getWeekKey a = getWeekKey b ↔ ISOWeek (dayOf a) = ISOWeek (dayOf b) := by
  refine ⟨fun h => ?_, fun h => by rw [getWeekKey, getWeekKey, h]⟩
  obtain ⟨ha₁, ha₂⟩ := ISOWeek_week_bounds (dayOf a)
  obtain ⟨hb₁, hb₂⟩ := ISOWeek_week_bounds (dayOf b)
  unfold getWeekKey at h
  obtain ⟨h, hw⟩ := List.append_inj' h (by rw [length_appendInt_two, length_appendInt_two] <;> omega)
  obtain ⟨hy, -⟩ := List.append_inj' h rfl
  exact Prod.ext (appendInt_inj hy) (appendInt_inj hw)

/-- `ComprehensiveMetrics`, without its mutex and the counters no function reads. -/
structure ComprehensiveMetrics where
  dailyActiveUsers : GoMap (GoMap Unit)
  weeklyActiveUsers : GoMap (GoMap Unit)
  monthlyActiveUsers : GoMap (GoMap Unit)
  pointsAwardedByDay : GoMap Int
  pointsAwardedByMetric : GoMap Int
  badgesAwardedByDay : GoMap Int
  badgesAwardedByType : GoMap Int
  uniqueBadgeHolders : GoMap (GoMap Unit)
  realtimePoints : Int
  realtimeBadges : Int
  realtimeLevels : Int
  lastReset : Int

/-- `NewComprehensiveMetrics()`, made at wall-clock time `now`. -/
def NewComprehensiveMetrics (now : Int) : ComprehensiveMetrics :=
  ⟨.empty, .empty, .empty, .empty, .empty, .empty, .empty, .empty, 0, 0, 0, now⟩

/-- `m[k] += v` on a map of `int64` counters. -/
def bump (m : GoMap Int) (k : GoString) (v : Int) : GoMap Int := m.insert k (wrap64 (m.getD k 0 + v))

/-- `if m[k] == nil { m[k] = make(…) }; m[k][v] = struct{}{}`. -/
def addTo (m : GoMap (GoMap Unit)) (k v : GoString) : GoMap (GoMap Unit) :=
  m.insert k ((m.getD k .empty).insert v ())

/-- `trackUserEngagement`. -/
def ComprehensiveMetrics.trackUserEngagement (cm : ComprehensiveMetrics) (userID : UserID)
    (day week month : GoString) : ComprehensiveMetrics :=
  { cm with dailyActiveUsers := addTo cm.dailyActiveUsers day userID
            weeklyActiveUsers := addTo cm.weeklyActiveUsers week userID
            monthlyActiveUsers := addTo cm.monthlyActiveUsers month userID }

/-- The `switch e.Type` of `OnEvent`, filing under day key `day`. -/
def ComprehensiveMetrics.count (cm : ComprehensiveMetrics) (e : Event) (day : GoString) :
    ComprehensiveMetrics :=
  if e.type = EventPointsAdded then
    if 0 < e.delta then
      { cm with pointsAwardedByDay := bump cm.pointsAwardedByDay day e.delta
                pointsAwardedByMetric := bump cm.pointsAwardedByMetric e.metric e.delta
                realtimePoints := wrap64 (cm.realtimePoints + e.delta) }
    else cm
  else if e.type = EventLevelUp then { cm with realtimeLevels := wrap64 (cm.realtimeLevels + 1) }
  else if e.type = EventBadgeAwarded then
    { cm with badgesAwardedByDay := bump cm.badgesAwardedByDay day 1
              badgesAwardedByType := bump cm.badgesAwardedByType e.badge 1
              uniqueBadgeHolders := addTo cm.uniqueBadgeHolders e.badge e.userID
              realtimeBadges := wrap64 (cm.realtimeBadges + 1) }
  else cm

/-- The reset of the realtime counters once a day has passed on the wall clock `now`. -/
def ComprehensiveMetrics.resetRealtime (cm : ComprehensiveMetrics) (now : Int) :
    ComprehensiveMetrics :=
  if 86400 < now - cm.lastReset then
    { cm with realtimePoints := 0, realtimeBadges := 0, realtimeLevels := 0, lastReset := now }
  else cm

/-- `OnEvent(e)` for an event made at `time`, with the wall clock at `now`. -/
def ComprehensiveMetrics.OnEvent (cm : ComprehensiveMetrics) (e : Event) (time now : Int) :
    ComprehensiveMetrics :=
  ((cm.trackUserEngagement e.userID (getDayKey time) (getWeekKey time) (getMonthKey time)).count e
    (getDayKey time)).resetRealtime now

/-- `GetDailyActiveUsers(day)`. -/
def ComprehensiveMetrics.GetDailyActiveUsers (cm : ComprehensiveMetrics) (day : GoString) : Nat :=
  (cm.dailyActiveUsers.getD day .empty).entries.length

/-- `GetWeeklyActiveUsers(week)`. -/
def ComprehensiveMetrics.GetWeeklyActiveUsers (cm : ComprehensiveMetrics) (week : GoString) : Nat :=
  (cm.weeklyActiveUsers.getD week .empty).entries.length

/-- `GetMonthlyActiveUsers(month)`. -/
def ComprehensiveMetrics.GetMonthlyActiveUsers (cm : ComprehensiveMetrics) (month : GoString) :
    Nat :=
  (cm.monthlyActiveUsers.getD month .empty).entries.length

/-- `GetPointsAwardedByDay(day)`. -/
def ComprehensiveMetrics.GetPointsAwardedByDay (cm : ComprehensiveMetrics) (day : GoString) : Int :=
  cm.pointsAwardedByDay.getD day 0

/-- `GetPointsAwardedByMetric(metric)`. -/
def ComprehensiveMetrics.GetPointsAwardedByMetric (cm : ComprehensiveMetrics) (metric : Metric) :
    Int :=
  cm.pointsAwardedByMetric.getD metric 0

/-- `GetBadgesAwardedByDay(day)`. -/
def ComprehensiveMetrics.GetBadgesAwardedByDay (cm : ComprehensiveMetrics) (day : GoString) : Int :=
  cm.badgesAwardedByDay.getD day 0

/-- `GetBadgesAwardedByType(badge)`. -/
def ComprehensiveMetrics.GetBadgesAwardedByType (cm : ComprehensiveMetrics) (badge : Badge) : Int :=
  cm.badgesAwardedByType.getD badge 0

/-- `GetUniqueBadgeHolders(badge)`. -/
def ComprehensiveMetrics.GetUniqueBadgeHolders (cm : ComprehensiveMetrics) (badge : Badge) : Nat :=
  (cm.uniqueBadgeHolders.getD badge .empty).entries.length

/-- `GetRealtimeStats()`. -/
def ComprehensiveMetrics.GetRealtimeStats (cm : ComprehensiveMetrics) : Int × Int × Int :=
  (cm.realtimePoints, cm.realtimeBadges, cm.realtimeLevels)

/-- One call of `OnEvent`: the event, its `Time`, and the wall clock when the hook runs. -/
structure Call where
  event : Event
  time : Int
  clock : Int

/-- The metrics made at `start` after a sequence of calls of `OnEvent`. -/
def run (start : Int) (calls : List Call) : ComprehensiveMetrics :=
  calls.foldl (fun cm c => cm.OnEvent c.event c.time c.clock) (NewComprehensiveMetrics start)

/-- `sumMapValues(m)`: the counters of `m` added up in `int64`. The order `range` visits them in
    does not change a wrapping sum (`sumMapValues_eq`). -/
def sumMapValues (m : GoMap Int) : Int := m.entries.foldl (fun total kv => wrap64 (total + kv.2)) 0

theorem foldl_wrap64 (l : List (GoString × Int)) (a : Int) :
    l.foldl (fun total kv => wrap64 (total + kv.2)) (wrap64 a) = wrap64 (a + (l.map Prod.snd).sum) := by
  induction l generalizing a with
  | nil => simp
  | cons kv l ih => rw [List.foldl_cons, wrap64_add_wrap, ih, List.map_cons, List.sum_cons, add_assoc]

/-- A wrapping sum of the counters, in any order, is the wrap of their exact sum. -/
theorem sumMapValues_eq (m : GoMap Int) : sumMapValues m = wrap64 (m.entries.map Prod.snd).sum := by
  simpa using foldl_wrap64 m.entries 0

/-! ### The points counters -/

/-- The exact sum of the positive deltas of the `PointsAdded` events among `calls` that `p`
    selects. -/
def awarded (p : Call → Bool) (calls : List Call) : Int :=
  ((calls.filter fun c => decide (c.event.type = EventPointsAdded) && decide (0 < c.event.delta) &&
    p c).map fun c => c.event.delta).sum

theorem run_append (start : Int) (calls : List Call) (c : Call) :
    run start (calls ++ [c]) = (run start calls).OnEvent c.event c.time c.clock := by
  simp [run, List.foldl_append]

@[simp] theorem pointsAwardedByDay_OnEvent (cm : ComprehensiveMetrics) (e : Event) (time now : Int) :
    (cm.OnEvent e time now).pointsAwardedByDay =
      if e.type = EventPointsAdded ∧ 0 < e.delta then
        bump cm.pointsAwardedByDay (getDayKey time) e.delta
      else cm.pointsAwardedByDay := by
  simp only [ComprehensiveMetrics.OnEvent, ComprehensiveMetrics.resetRealtime,
    ComprehensiveMetrics.count, ComprehensiveMetrics.trackUserEngagement]
  split_ifs <;> simp_all

@[simp] theorem pointsAwardedByMetric_OnEvent (cm : ComprehensiveMetrics) (e : Event)
    (time now : Int) :
    (cm.OnEvent e time now).pointsAwardedByMetric =
      if e.type = EventPointsAdded ∧ 0 < e.delta then
        bump cm.pointsAwardedByMetric e.metric e.delta
      else cm.pointsAwardedByMetric := by
  simp only [ComprehensiveMetrics.OnEvent, ComprehensiveMetrics.resetRealtime,
    ComprehensiveMetrics.count, ComprehensiveMetrics.trackUserEngagement]
  split_ifs <;> simp_all

theorem awarded_append (p : Call → Bool) (calls : List Call) (c : Call) :
    awarded p (calls ++ [c]) =
      awarded p calls + if c.event.type = EventPointsAdded ∧ 0 < c.event.delta ∧ p c = true then
        c.event.delta else 0 := by
  simp only [awarded, List.filter_append, List.map_append, List.sum_append, List.filter_cons,
    List.filter_nil, Bool.and_eq_true, decide_eq_true_eq]
  split_ifs <;> simp_all

section
variable (M : ComprehensiveMetrics → GoMap Int) (key : Call → GoString)
  (hM : ∀ cm c, M (cm.OnEvent c.event c.time c.clock) =
    if c.event.type = EventPointsAdded ∧ 0 < c.event.delta then bump (M cm) (key c) c.event.delta
    else M cm)
  (h₀ : ∀ start, M (NewComprehensiveMetrics start) = .empty)
include hM h₀

/-- A points counter filed by `key` holds, under each key, the `int64` wrap of the exact sum of
    the deltas filed there. -/
theorem counter_run (start : Int) (calls : List Call) (k : GoString) :
    (M (run start calls)).getD k 0 = wrap64 (awarded (fun c => key c = k) calls) := by
  induction calls using List.reverseRecOn with
  | nil => rw [run, List.foldl_nil, h₀]; rfl
  | append_singleton calls c ih =>
    rw [run_append, hM, awarded_append]
    by_cases hc : c.event.type = EventPointsAdded ∧ 0 < c.event.delta
    · rw [if_pos hc, bump, GoMap.getD_insert]
      by_cases hk : key c = k
      · rw [if_pos hk.symm, if_pos ⟨hc.1, hc.2, decide_eq_true hk⟩, hk, ih, wrap64_add_wrap]
      · rw [if_neg (Ne.symm hk), if_neg (by simp [hk]), ih, add_zero]
    · rw [if_neg hc, if_neg (by tauto), ih, add_zero]

/-- The counters filed by `key` add up, in `int64`, to the wrap of the exact sum of all the
    deltas. -/
theorem sum_counter_run (start : Int) (calls : List Call) :
    sumMapValues (M (run start calls)) = wrap64 (awarded (fun _ => true) calls) := by
  rw [sumMapValues_eq]
  induction calls using List.reverseRecOn with
  | nil => rw [run, List.foldl_nil, h₀]; rfl
  | append_singleton calls c ih =>
    rw [run_append, hM, awarded_append]
    by_cases hc : c.event.type = EventPointsAdded ∧ 0 < c.event.delta
    · rw [if_pos hc, if_pos ⟨hc.1, hc.2, rfl⟩, bump, GoMap.sum_insert, wrap64_sub_add_wrap,
        ← wrap64_add_wrap, ih, wrap64_add_wrap]
    · rw [if_neg hc, if_neg (by tauto), ih, add_zero]

end

/-- The points counters: under each day and each metric, the `int64` wrap of the exact sum of the
    positive deltas filed there, and in total, as `GetTopMetrics` reports it, the wrap of the sum
    of them all. -/
theorem points_counters (start : Int) (calls : List Call) (day metric : GoString) :
    (run start calls).GetPointsAwardedByDay day =
        wrap64 (awarded (fun c => getDayKey c.time = day) calls) ∧
      (run start calls).GetPointsAwardedByMetric metric =
        wrap64 (awarded (fun c => c.event.metric = metric) calls) ∧
      sumMapValues (run start calls).pointsAwardedByMetric = wrap64 (awarded (fun _ => true) calls) :=
  ⟨counter_run (·.pointsAwardedByDay) (fun c => getDayKey c.time)
      (fun cm c => pointsAwardedByDay_OnEvent cm c.event c.time c.clock) (fun _ => rfl) start calls day,
    counter_run (·.pointsAwardedByMetric) (fun c => c.event.metric)
      (fun cm c => pointsAwardedByMetric_OnEvent cm c.event c.time c.clock) (fun _ => rfl) start calls
      metric,
    sum_counter_run (·.pointsAwardedByMetric) (fun c => c.event.metric)
      (fun cm c => pointsAwardedByMetric_OnEvent cm c.event c.time c.clock) (fun _ => rfl) start calls⟩

/-- The hook's calls for the events the service publishes when users `a` and `b` each add
    `math.MaxInt64` points on `coins`, all at instant 0. -/
def maxCoinsCalls : List Call :=
  (runCalls id DefaultRuleEngine [.addPoints (lit "a") (lit "coins") MaxInt64,
    .addPoints (lit "b") (lit "coins") MaxInt64]).published.map fun e => ⟨e, 0, 0⟩

/-- Two users who each add `math.MaxInt64` points on one metric through the service, on one day:
    both calls succeed and publish their events, and the analytics hook, fed those events, reads
    -2 for the day, for the metric and in total, where the points awarded add up to
    `2 * math.MaxInt64`. -/
theorem points_counters_wrap :
    awarded (fun _ => true) maxCoinsCalls = 2 * MaxInt64 ∧
      (run 0 maxCoinsCalls).GetPointsAwardedByDay (getDayKey 0) = -2 ∧
      (run 0 maxCoinsCalls).GetPointsAwardedByMetric (lit "coins") = -2 ∧
      sumMapValues (run 0 maxCoinsCalls).pointsAwardedByMetric = -2 := by
  decide

/-- `sumBadgeMapValues(m)`, the same loop over the badge counters. -/
def sumBadgeMapValues (m : GoMap Int) : Int := sumMapValues m

/-! ### `GetTopMetrics` -/

/-- A slot of `topMetrics`: a metric and its points. -/
abbrev Entry := Metric × Int

/-- The inner loop of the sort for one slot `i`: `cand` is `topMetrics[i]`, and each later slot
    `j` in turn is swapped with it when `topMetrics[i].points < topMetrics[j].points`. It gives the
    final `topMetrics[i]` and the later slots. -/
def sweep (cand : Entry) : List Entry → Entry × List Entry
  | [] => (cand, [])
  | x :: xs =>
    if cand.2 < x.2 then ((sweep x xs).1, cand :: (sweep x xs).2)
    else ((sweep cand xs).1, x :: (sweep cand xs).2)

/-- The outer loop of the sort, over `fuel` slots. -/
def exchangeSortAux : Nat → List Entry → List Entry
  | 0, l => l
  | _ + 1, [] => []
  | k + 1, x :: xs => (sweep x xs).1 :: exchangeSortAux k (sweep x xs).2

/-- The nested loops of `GetTopMetrics`: for each slot `i` in turn, every later slot `j`. -/
def exchangeSort (l : List Entry) : List Entry := exchangeSortAux l.length l

/-- The result of `GetTopMetrics`: the map it returns, with its three keys. -/
structure TopMetrics where
  topMetricsByPoints : List Entry
  totalPointsAwarded : Int
  totalBadgesAwarded : Int

/-- `GetTopMetrics(limit)`, reading `pointsAwardedByMetric` in the order `order`. For a negative
    `limit`, `topMetrics[:limit]` panics. -/
def ComprehensiveMetrics.GetTopMetrics (cm : ComprehensiveMetrics) (order : List Entry)
    (limit : Int) : Except String TopMetrics :=
  let sorted := exchangeSort order
  let top : Except String (List Entry) :=
    if limit < sorted.length then
      if limit < 0 then .error ("runtime error: slice bounds out of range [:" ++ toString limit ++ "]")
      else .ok (sorted.take limit.toNat)
    else .ok sorted
  top.map fun t =>
    ⟨t, sumMapValues cm.pointsAwardedByMetric, sumBadgeMapValues cm.badgesAwardedByType⟩

theorem sweep_perm (cand : Entry) : ∀ l : List Entry,
    ((sweep cand l).1 :: (sweep cand l).2).Perm (cand :: l)
  | [] => .refl _
  | x :: xs => by
    unfold sweep
    split_ifs
    · exact (List.Perm.swap _ _ _).trans (.cons _ (sweep_perm x xs))
    · exact ((List.Perm.swap _ _ _).trans (.cons _ (sweep_perm cand xs))).trans (.swap _ _ _)

/-- The slot the sweep fills holds the most points of the slot and the slots after it. -/
theorem sweep_ge (cand : Entry) : ∀ l : List Entry, ∀ y ∈ cand :: l, y.2 ≤ (sweep cand l).1.2
  | [] => by simp [sweep]
  | x :: xs => by
    have ihx := sweep_ge x xs
    have ihc := sweep_ge cand xs
    unfold sweep
    split_ifs with h
    · intro y hy
      rcases List.mem_cons.1 hy with rfl | hy
      · exact h.le.trans (ihx _ (List.mem_cons_self _ _))
      · exact ihx y hy
    · intro y hy
      rcases List.mem_cons.1 hy with rfl | hy
      · exact ihc _ (List.mem_cons_self _ _)
      rcases List.mem_cons.1 hy with rfl | hy
      · exact (not_lt.1 h).trans (ihc _ (List.mem_cons_self _ _))
      · exact ihc y (List.mem_cons_of_mem _ hy)

theorem length_sweep (cand : Entry) : ∀ l : List Entry, (sweep cand l).2.length = l.length
  | [] => rfl
  | x :: xs => by unfold sweep; split_ifs <;> simp [length_sweep]

/-- With a slot of fuel for every entry, the sort permutes its input into non-increasing order of
    points. -/
theorem exchangeSortAux_spec : ∀ (k : Nat) (l : List Entry), l.length ≤ k →
    (exchangeSortAux k l).Perm l ∧ (exchangeSortAux k l).Pairwise (fun a b => b.2 ≤ a.2)
  | 0, l, h => by rw [List.length_eq_zero.1 (Nat.le_zero.1 h)]; exact ⟨.refl _, .nil⟩
  | _ + 1, [], _ => ⟨.refl _, .nil⟩
  | k + 1, x :: xs, h => by
    obtain ⟨hp, hs⟩ := exchangeSortAux_spec k (sweep x xs).2
      (by rw [length_sweep]; simp at h; omega)
    refine ⟨(hp.cons _).trans (sweep_perm x xs), .cons (fun b hb => ?_) hs⟩
    exact sweep_ge x xs b ((sweep_perm x xs).subset (List.mem_cons_of_mem _ (hp.subset hb)))

theorem exchangeSort_perm (l : List Entry) : (exchangeSort l).Perm l :=
  (exchangeSortAux_spec _ l le_rfl).1

theorem exchangeSort_sorted (l : List Entry) : (exchangeSort l).Pairwise (fun a b => b.2 ≤ a.2) :=
  (exchangeSortAux_spec _ l le_rfl).2

/-- The entries of a map are distinct. -/
theorem GoMap.nodup_entries {V : Type} (m : GoMap V) : m.entries.Nodup :=
  m.sorted.imp fun {a b} (h : a.1 < b.1) (heq : a = b) => lt_irrefl a.1 (heq ▸ h)

theorem GetTopMetrics_of_neg (cm : ComprehensiveMetrics) (order : List Entry) {limit : Int}
    (h : limit < 0) : cm.GetTopMetrics order limit =
      .error ("runtime error: slice bounds out of range [:" ++ toString limit ++ "]") := by
  simp only [ComprehensiveMetrics.GetTopMetrics, if_pos h,
    if_pos (show limit < ((exchangeSort order).length : Int) by omega)]
  rfl

theorem GetTopMetrics_of_nonneg (cm : ComprehensiveMetrics) (order : List Entry) {limit : Int}
    (h : 0 ≤ limit) : cm.GetTopMetrics order limit =
      .ok ⟨(exchangeSort order).take limit.toNat, sumMapValues cm.pointsAwardedByMetric,
        sumBadgeMapValues cm.badgesAwardedByType⟩ := by
  unfold ComprehensiveMetrics.GetTopMetrics
  dsimp only
  split_ifs with h₁ h₂
  · omega
  · rfl
  · rw [List.take_of_length_le (by omega)]; rfl

/-- What `GetTopMetrics` returns, whatever order `range` visits the map in: for a negative
    `limit` it panics; otherwise its list holds `min limit n` distinct entries of the map in
    non-increasing order of points, and every entry left out has no more points than the last one
    listed. -/
theorem GetTopMetrics_spec (cm : ComprehensiveMetrics) {order : List Entry}
    (ho : order.Perm cm.pointsAwardedByMetric.entries) (limit : Int) :
    (limit < 0 → ∃ e, cm.GetTopMetrics order limit = .error e) ∧
    (0 ≤ limit → ∃ r : TopMetrics, cm.GetTopMetrics order limit = .ok r ∧
      r.topMetricsByPoints.length = min limit.toNat cm.pointsAwardedByMetric.entries.length ∧
      r.topMetricsByPoints.Nodup ∧
      (∀ x ∈ r.topMetricsByPoints, x ∈ cm.pointsAwardedByMetric.entries) ∧
      r.topMetricsByPoints.Pairwise (fun a b => b.2 ≤ a.2) ∧
      ∀ x ∈ cm.pointsAwardedByMetric.entries, x ∉ r.topMetricsByPoints →
        ∀ y ∈ r.topMetricsByPoints.getLast?, x.2 ≤ y.2) := by
  have hp := (exchangeSort_perm order).trans ho
  have hs := exchangeSort_sorted order
  refine ⟨fun hl => ⟨_, GetTopMetrics_of_neg cm order hl⟩,
    fun hl => ⟨_, GetTopMetrics_of_nonneg cm order hl, ?_, ?_, ?_, ?_, ?_⟩⟩
  · rw [List.length_take, hp.length_eq]
  · exact (hp.nodup_iff.2 (GoMap.nodup_entries _)).sublist (List.take_sublist _ _)
  · exact fun x hx => hp.subset (List.mem_of_mem_take hx)
  · exact hs.sublist (List.take_sublist _ _)
  · intro x hx hn y hy
    rw [← List.take_append_drop limit.toNat (exchangeSort order)] at hs hp
    have hx' := hp.symm.subset hx
    rw [List.mem_append] at hx'
    exact List.pairwise_append.1 hs |>.2.2 y (List.mem_of_mem_getLast? hy) x (hx'.resolve_left hn)

/-- The top metric of two point events, `range` visiting the map in key order. -/
theorem GetTopMetrics_spec_two :
    let cm := run 0 [⟨NewPointsAdded (lit "u") (lit "coins") 5 5, 0, 0⟩,
      ⟨NewPointsAdded (lit "u") MetricXP 7 7, 0, 0⟩]
    let order := cm.pointsAwardedByMetric.entries
    order.Perm cm.pointsAwardedByMetric.entries ∧
      ((1 : Int) < 0 → ∃ e, cm.GetTopMetrics order 1 = .error e) ∧
      (0 ≤ (1 : Int) → ∃ r : TopMetrics, cm.GetTopMetrics order 1 = .ok r ∧
        r.topMetricsByPoints.length = min (1 : Int).toNat cm.pointsAwardedByMetric.entries.length ∧
        r.topMetricsByPoints.Nodup ∧
        (∀ x ∈ r.topMetricsByPoints, x ∈ cm.pointsAwardedByMetric.entries) ∧
        r.topMetricsByPoints.Pairwise (fun a b => b.2 ≤ a.2) ∧
        ∀ x ∈ cm.pointsAwardedByMetric.entries, x ∉ r.topMetricsByPoints →
          ∀ y ∈ r.topMetricsByPoints.getLast?, x.2 ≤ y.2) := by
  intro cm order
  exact ⟨.refl _, GetTopMetrics_spec cm (.refl _) 1⟩

/-- `GetTopMetrics` with a negative `limit` panics, whatever the metrics hold. -/
theorem GetTopMetrics_negative_panics (cm : ComprehensiveMetrics) (order : List Entry) :
    cm.GetTopMetrics order (-1) = .error "runtime error: slice bounds out of range [:-1]" :=
  GetTopMetrics_of_neg cm order (by decide)

end GamifyKit.Analytics
