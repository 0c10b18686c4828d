import GamifyKit.Analytics.Metrics

/-! The engagement counters of package `analytics`: the `DAU` hook, and the active users, badge
    holders and badge counts of `ComprehensiveMetrics`.

    Each set of users is a map of maps, `m[key][user] = struct{}{}`, grown by `addTo`; its count
    is the size of the inner map. Over every run of the hook, the count under a key is the number
    of distinct users among the events filed there (`count_foldl`): the daily, weekly and monthly
    active users and the holders of a badge (`activeUsers_run`). `DAU` files events under the same
    day key as `ComprehensiveMetrics`, so the two hooks report the same daily active users
    (`Count_dauRun`). The badge counters are `int64` tallies of the badge events, by day and by
    badge (`badges_run`). -/

namespace GamifyKit.Analytics
open GamifyKit.Go GamifyKit.Core

/-- `DAU`, without its mutex: the users seen on each day. -/
structure DAU where
  days : GoMap (GoMap Unit)

/-- `NewDAU()`. -/
def NewDAU : DAU := ⟨.empty⟩

/-- `OnEvent(e)` for an event made at `time`: `time.Unix(e.Time.Unix(), 0)` drops what is below
    the second, which instants here do not have, so its day key is `getDayKey time`. -/
def DAU.OnEvent (d : DAU) (e : Event) (time : Int) : DAU := ⟨addTo d.days (getDayKey time) e.userID⟩

/-- `Count(day)`. -/
def DAU.Count (d : DAU) (day : GoString) : Nat := (d.days.getD day .empty).entries.length

/-- The `DAU` hook after a sequence of calls of `OnEvent`. -/
def dauRun (calls : List Call) : DAU := calls.foldl (fun d c => d.OnEvent c.event c.time) NewDAU

/-- The number of distinct users among the calls `p` selects. -/
def users (p : Call → Prop) [DecidablePred p] (calls : List Call) : Nat :=
  ((calls.filter fun c => decide (p c)).map fun c => c.event.userID).dedup.length

/-! ### Sets of users -/

@[simp] theorem find?_getD_addTo (m : GoMap (GoMap Unit)) (k v j u : GoString) :
    ((addTo m k v).getD j .empty).find? u =
      if j = k ∧ u = v then some () else (m.getD j .empty).find? u := by
  unfold addTo
  by_cases hj : j = k <;> by_cases hu : u = v <;> simp [hj, hu]

section
variable {σ : Type} (f : σ → Call → σ) (M : σ → GoMap (GoMap Unit)) (sel : Call → Bool)
  (key : Call → GoString)
  (hM : ∀ s c, M (f s c) = if sel c then addTo (M s) (key c) c.event.userID else M s)
include hM

/-- A set of users grown by `addTo` along a fold holds, under each key, the users of the calls
    filed there. -/
theorem seen_foldl (init : σ) (h₀ : M init = .empty) (calls : List Call) (k u : GoString) :
    (∃ v, ((M (calls.foldl f init)).getD k .empty).find? u = some v) ↔
      ∃ c ∈ calls, sel c ∧ key c = k ∧ c.event.userID = u := by
  induction calls using List.reverseRecOn with
  | nil => simp only [List.foldl_nil, h₀, GoMap.getD_empty, GoMap.find?_empty, List.not_mem_nil,
      false_and, exists_false, reduceCtorEq]
  | append_singleton calls c ih =>
    rw [List.foldl_append, List.foldl_cons, List.foldl_nil, hM]
    simp only [List.mem_append, List.mem_singleton, or_and_right, exists_or, exists_eq_left, ← ih]
    by_cases hs : sel c
    · simp only [hs, if_true, find?_getD_addTo, true_and]
      split_ifs with h
      · exact iff_of_true ⟨(), rfl⟩ (.inr ⟨h.1.symm, h.2.symm⟩)
      · exact ⟨.inl, fun h' => h'.resolve_right fun ⟨h₁, h₂⟩ => h ⟨h₁.symm, h₂.symm⟩⟩
    · simp only [hs, Bool.false_eq_true, ↓reduceIte, false_and, or_false]

/-- The size of such a set under a key is the number of distinct users of the calls filed
    there. -/
theorem count_foldl (init : σ) (h₀ : M init = .empty) (calls : List Call) (k : GoString) :
    ((M (calls.foldl f init)).getD k .empty).entries.length =
      users (fun c => sel c ∧ key c = k) calls := by
  have hp : (((M (calls.foldl f init)).getD k .empty).entries.map Prod.fst).Perm
      ((calls.filter fun c => decide (sel c ∧ key c = k)).map fun c => c.event.userID).dedup :=
    (List.perm_ext_iff_of_nodup (GoMap.nodup_keys _) (List.nodup_dedup _)).2 fun u => by
      rw [GoMap.mem_keys, seen_foldl f M sel key hM init h₀, List.mem_dedup, List.mem_map]
      simp only [List.mem_filter, decide_eq_true_eq, and_assoc]
  simpa [users] using hp.length_eq

end

section
variable {σ : Type} (f : σ → Call → σ) (M : σ → GoMap Int) (sel : Call → Bool)
  (key : Call → GoString) (hM : ∀ s c, M (f s c) = if sel c then bump (M s) (key c) 1 else M s)
include hM

/-- A map of counters bumped by one along a fold holds, under each key, the `int64` wrap of the
    number of calls filed there. -/
theorem tally_foldl (init : σ) (h₀ : M init = .empty) (calls : List Call) (k : GoString) :
    (M (calls.foldl f init)).getD k 0 = wrap64 (calls.countP fun c => sel c ∧ key c = k) := by
  induction calls using List.reverseRecOn with
  | nil => rw [List.foldl_nil, h₀, GoMap.getD_empty, List.countP_nil]; decide
  | append_singleton calls c ih =>
    rw [List.foldl_append, List.foldl_cons, List.foldl_nil, hM, List.countP_append,
      List.countP_singleton, Nat.cast_add]
    by_cases hs : sel c
    · rw [if_pos hs, bump, GoMap.getD_insert]
      by_cases hk : key c = k
      · rw [if_pos hk.symm, hk, ih, wrap64_add_wrap]; simp [hs]
      · rw [if_neg (Ne.symm hk), ih]; simp [hk]
    · rw [if_neg hs, ih]; simp [hs]

/-- Its counters add up, in `int64`, to the wrap of the number of calls it files. -/
theorem sum_tally_foldl (init : σ) (h₀ : M init = .empty) (calls : List Call) :
    sumMapValues (M (calls.foldl f init)) = wrap64 (calls.countP sel) := by
  rw [sumMapValues_eq]
  induction calls using List.reverseRecOn with
  | nil => rw [List.foldl_nil, h₀, List.countP_nil]; decide
  | append_singleton calls c ih =>
    rw [List.foldl_append, List.foldl_cons, List.foldl_nil, hM, List.countP_append,
      List.countP_singleton, Nat.cast_add]
    by_cases hs : sel c
    · rw [if_pos hs, if_pos hs, bump, GoMap.sum_insert, wrap64_sub_add_wrap, ← wrap64_add_wrap, ih,
        wrap64_add_wrap, Nat.cast_one]
    · rw [if_neg hs, if_neg hs, ih, Nat.cast_zero, add_zero]

end

/-! ### The hook's sets -/

/-- The `switch` of `OnEvent` leaves the active users alone. -/
theorem count_activeUsers (cm : ComprehensiveMetrics) (e : Event) (day : GoString) :
    (cm.count e day).dailyActiveUsers = cm.dailyActiveUsers ∧
      (cm.count e day).weeklyActiveUsers = cm.weeklyActiveUsers ∧
      (cm.count e day).monthlyActiveUsers = cm.monthlyActiveUsers := by
  unfold ComprehensiveMetrics.count
  split_ifs <;> exact ⟨rfl, rfl, rfl⟩

@[simp] theorem dailyActiveUsers_OnEvent (cm : ComprehensiveMetrics) (e : Event) (time now : Int) :
    (cm.OnEvent e time now).dailyActiveUsers = addTo cm.dailyActiveUsers (getDayKey time) e.userID := by
  simp only [ComprehensiveMetrics.OnEvent, ComprehensiveMetrics.resetRealtime]
  split_ifs <;> exact (count_activeUsers _ _ _).1

@[simp] theorem weeklyActiveUsers_OnEvent (cm : ComprehensiveMetrics) (e : Event) (time now : Int) :
    (cm.OnEvent e time now).weeklyActiveUsers = addTo cm.weeklyActiveUsers (getWeekKey time) e.userID := by
  simp only [ComprehensiveMetrics.OnEvent, ComprehensiveMetrics.resetRealtime]
  split_ifs <;> exact (count_activeUsers _ _ _).2.1

@[simp] theorem monthlyActiveUsers_OnEvent (cm : ComprehensiveMetrics) (e : Event) (time now : Int) :
    (cm.OnEvent e time now).monthlyActiveUsers =
      addTo cm.monthlyActiveUsers (getMonthKey time) e.userID := by
  simp only [ComprehensiveMetrics.OnEvent, ComprehensiveMetrics.resetRealtime]
  split_ifs <;> exact (count_activeUsers _ _ _).2.2

/-- On a badge event, the `switch` of `OnEvent` files the badge. -/
theorem count_of_badge (cm : ComprehensiveMetrics) {e : Event} (day : GoString)
    (hb : e.type = EventBadgeAwarded) :
    cm.count e day = { cm with badgesAwardedByDay := bump cm.badgesAwardedByDay day 1
                               badgesAwardedByType := bump cm.badgesAwardedByType e.badge 1
                               uniqueBadgeHolders := addTo cm.uniqueBadgeHolders e.badge e.userID
                               realtimeBadges := wrap64 (cm.realtimeBadges + 1) } := by
  rw [ComprehensiveMetrics.count, if_neg (by rw [hb]; decide), if_neg (by rw [hb]; decide), if_pos hb]

/-- On any other event, it leaves the badge maps alone. -/
theorem count_of_not_badge (cm : ComprehensiveMetrics) {e : Event} (day : GoString)
    (hb : e.type ≠ EventBadgeAwarded) :
    (cm.count e day).badgesAwardedByDay = cm.badgesAwardedByDay ∧
      (cm.count e day).badgesAwardedByType = cm.badgesAwardedByType ∧
      (cm.count e day).uniqueBadgeHolders = cm.uniqueBadgeHolders := by
  unfold ComprehensiveMetrics.count
  split_ifs <;> exact ⟨rfl, rfl, rfl⟩

@[simp] theorem uniqueBadgeHolders_OnEvent (cm : ComprehensiveMetrics) (e : Event) (time now : Int) :
    (cm.OnEvent e time now).uniqueBadgeHolders =
      if e.type = EventBadgeAwarded then addTo cm.uniqueBadgeHolders e.badge e.userID
      else cm.uniqueBadgeHolders := by
  simp only [ComprehensiveMetrics.OnEvent, ComprehensiveMetrics.resetRealtime]
  by_cases hb : e.type = EventBadgeAwarded
  · rw [count_of_badge _ _ hb, if_pos hb]; split_ifs <;> rfl
  · rw [if_neg hb]; split_ifs <;> exact (count_of_not_badge _ _ hb).2.2

@[simp] theorem badgesAwardedByDay_OnEvent (cm : ComprehensiveMetrics) (e : Event) (time now : Int) :
    (cm.OnEvent e time now).badgesAwardedByDay =
      if e.type = EventBadgeAwarded then bump cm.badgesAwardedByDay (getDayKey time) 1
      else cm.badgesAwardedByDay := by
  simp only [ComprehensiveMetrics.OnEvent, ComprehensiveMetrics.resetRealtime]
  by_cases hb : e.type = EventBadgeAwarded
  · rw [count_of_badge _ _ hb, if_pos hb]; split_ifs <;> rfl
  · rw [if_neg hb]; split_ifs <;> exact (count_of_not_badge _ _ hb).1

@[simp] theorem badgesAwardedByType_OnEvent (cm : ComprehensiveMetrics) (e : Event) (time now : Int) :
    (cm.OnEvent e time now).badgesAwardedByType =
      if e.type = EventBadgeAwarded then bump cm.badgesAwardedByType e.badge 1
      else cm.badgesAwardedByType := by
  simp only [ComprehensiveMetrics.OnEvent, ComprehensiveMetrics.resetRealtime]
  by_cases hb : e.type = EventBadgeAwarded
  · rw [count_of_badge _ _ hb, if_pos hb]; split_ifs <;> rfl
  · rw [if_neg hb]; split_ifs <;> exact (count_of_not_badge _ _ hb).2.1

theorem GetDailyActiveUsers_run (start : Int) (calls : List Call) (day : GoString) :
    (run start calls).GetDailyActiveUsers day = users (fun c => getDayKey c.time = day) calls := by
  simpa using count_foldl (fun cm c => cm.OnEvent c.event c.time c.clock) (·.dailyActiveUsers)
    (fun _ => true) (fun c => getDayKey c.time) (by simp) (NewComprehensiveMetrics start) rfl calls day

theorem GetBadgesAwardedByDay_run (start : Int) (calls : List Call) (day : GoString) :
    (run start calls).GetBadgesAwardedByDay day =
      wrap64 (calls.countP fun c => c.event.type = EventBadgeAwarded ∧ getDayKey c.time = day) := by
  simpa using tally_foldl (fun cm c => cm.OnEvent c.event c.time c.clock) (·.badgesAwardedByDay)
    (fun c => c.event.type = EventBadgeAwarded) (fun c => getDayKey c.time) (by simp)
    (NewComprehensiveMetrics start) rfl calls day

/-- Over every run of the hook, the daily, weekly and monthly active users are the distinct users
    with an event filed under the day, ISO week or month key, and the holders of a badge are the
    distinct users it was awarded to. -/
theorem activeUsers_run (start : Int) (calls : List Call) (day week month badge : GoString) :
    (run start calls).GetDailyActiveUsers day = users (fun c => getDayKey c.time = day) calls ∧
      (run start calls).GetWeeklyActiveUsers week = users (fun c => getWeekKey c.time = week) calls ∧
      (run start calls).GetMonthlyActiveUsers month =
        users (fun c => getMonthKey c.time = month) calls ∧
      (run start calls).GetUniqueBadgeHolders badge =
        users (fun c => c.event.type = EventBadgeAwarded ∧ c.event.badge = badge) calls := by
  let f := fun (cm : ComprehensiveMetrics) (c : Call) => cm.OnEvent c.event c.time c.clock
  refine ⟨GetDailyActiveUsers_run start calls day, ?_, ?_, ?_⟩
  · simpa using count_foldl f (·.weeklyActiveUsers) (fun _ => true) (fun c => getWeekKey c.time)
      (by simp [f]) (NewComprehensiveMetrics start) rfl calls week
  · simpa using count_foldl f (·.monthlyActiveUsers) (fun _ => true) (fun c => getMonthKey c.time)
      (by simp [f]) (NewComprehensiveMetrics start) rfl calls month
  · simpa using count_foldl f (·.uniqueBadgeHolders) (fun c => c.event.type = EventBadgeAwarded)
      (fun c => c.event.badge) (by simp [f]) (NewComprehensiveMetrics start) rfl calls badge

/-- Over every run of the hook, the badge counters by day and by badge are the `int64` wraps of the
    numbers of badge events filed there, and their total, as `GetTopMetrics` reports it, the wrap
    of the number of badge events. -/
theorem badges_run (start : Int) (calls : List Call) (day badge : GoString) :
    (run start calls).GetBadgesAwardedByDay day =
        wrap64 (calls.countP fun c => c.event.type = EventBadgeAwarded ∧ getDayKey c.time = day) ∧
      (run start calls).GetBadgesAwardedByType badge =
        wrap64 (calls.countP fun c => c.event.type = EventBadgeAwarded ∧ c.event.badge = badge) ∧
      sumBadgeMapValues (run start calls).badgesAwardedByType =
        wrap64 (calls.countP fun c => c.event.type = EventBadgeAwarded) := by
  let f := fun (cm : ComprehensiveMetrics) (c : Call) => cm.OnEvent c.event c.time c.clock
  refine ⟨GetBadgesAwardedByDay_run start calls day, ?_, ?_⟩
  · simpa using tally_foldl f (·.badgesAwardedByType) (fun c => c.event.type = EventBadgeAwarded)
      (fun c => c.event.badge) (by simp [f]) (NewComprehensiveMetrics start) rfl calls badge
  · simpa using sum_tally_foldl f (·.badgesAwardedByType) (fun c => c.event.type = EventBadgeAwarded)
      (fun c => c.event.badge) (by simp [f]) (NewComprehensiveMetrics start) rfl calls

/-- The `DAU` hook and `ComprehensiveMetrics` count the same daily active users over every run. -/
theorem Count_dauRun (start : Int) (calls : List Call) (day : GoString) :
    (dauRun calls).Count day = (run start calls).GetDailyActiveUsers day := by
  rw [GetDailyActiveUsers_run, DAU.Count, dauRun,
    count_foldl (fun d c => d.OnEvent c.event c.time) DAU.days (fun _ => true)
      (fun c => getDayKey c.time) (fun _ _ => by simp [DAU.OnEvent]) NewDAU rfl]
  simp [users]

end GamifyKit.Analytics
