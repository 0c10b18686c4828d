import GamifyKit.Go.Map

/-! The rate limiter of `httpapi`: `withRateLimit` puts a token bucket in front of the handler,
    one bucket per client key.

    The bucket's `float64` arithmetic is taken as exact rational arithmetic, and a clock reading
    is an integer of nanoseconds. `Time.Sub` saturates to the range of `Duration`, so the minutes
    a bucket is credited never exceed the time that passed (`minutes_timeSub_le`). Requests are
    handled one at a time, in the order of their clock readings.

    Over every window `[a, b]` a client key gets at most `burst + rpm * (b - a)` requests through
    (`rate_limited`). The proof keeps, for the key, what is left of the window (`budget`): a
    bucket last touched inside the window holds its tokens and will earn the rest of the window;
    any other bucket starts the window with at most `burst`. Each request spends from it what it
    lets through (`budget_allow`). -/

namespace GamifyKit.Api
open GamifyKit.Go

/-- `t.Sub(u)`: the `Duration` `t - u` in nanoseconds, saturated to the range of `int64`. -/
def timeSub (t u : Int) : Int := max MinInt64 (min MaxInt64 (t - u))

/-- `Duration.Minutes`. -/
def Minutes (d : Int) : ℚ := d / 60000000000

/-- `bucket`. -/
structure Bucket where
  tokens : ℚ
  last : Int
  deriving DecidableEq

/-- `rateLimiter`: the refill rate per minute, the capacity, and a bucket per client key. -/
structure RateLimiter where
  rpm : ℚ
  burst : ℚ
  b : GoMap Bucket

/-- `newRateLimiter(rpm, burst)`. -/
def newRateLimiter (rpm burst : Int) : RateLimiter := ⟨rpm, burst, .empty⟩

/-- `rateLimiter.allow(key)` at clock reading `now`. -/
def RateLimiter.allow (l : RateLimiter) (key : GoString) (now : Int) : Bool × RateLimiter :=
  match l.b.find? key with
  | none => (true, { l with b := l.b.insert key ⟨l.burst - 1, now⟩ })
  | some bk =>
    let tokens := bk.tokens + Minutes (timeSub now bk.last) * l.rpm
    let tokens := if tokens > l.burst then l.burst else tokens
    if tokens < 1 then (false, { l with b := l.b.insert key ⟨tokens, now⟩ })
    else (true, { l with b := l.b.insert key ⟨tokens - 1, now⟩ })

/-- The requests, each a client key and a clock reading, that the limiter passes to `next`. -/
def RateLimiter.passed (l : RateLimiter) : List (GoString × Int) → List (GoString × Int)
  | [] => []
  | r :: rs =>
    if (l.allow r.1 r.2).1 then r :: (l.allow r.1 r.2).2.passed rs else (l.allow r.1 r.2).2.passed rs

/-- The requests a handler built by `withRateLimit(next, rpm, burst)` passes to `next`. -/
def withRateLimit (rpm burst : Int) (reqs : List (GoString × Int)) : List (GoString × Int) :=
  (newRateLimiter rpm burst).passed reqs

/-- A request of key `k` inside the window `[a, b]`. -/
def inWindow (k : GoString) (a b : Int) (r : GoString × Int) : Bool := r.1 = k && a ≤ r.2 && r.2 ≤ b

/-! ### Time -/

theorem minutes_add (x y : Int) : Minutes (x + y) = Minutes x + Minutes y := by
  simp only [Minutes, Int.cast_add, add_div]

theorem minutes_mono {x y : Int} (h : x ≤ y) : Minutes x ≤ Minutes y :=
  div_le_div_of_nonneg_right (Int.cast_le.2 h) (by norm_num)

theorem minutes_nonneg {x : Int} (h : 0 ≤ x) : 0 ≤ Minutes x := by
  simpa [Minutes] using minutes_mono h

/-- A forward clock reading credits between none and all of the time that passed. -/
theorem minutes_timeSub_le {t u : Int} (h : u ≤ t) :
    0 ≤ Minutes (timeSub t u) ∧ Minutes (timeSub t u) ≤ Minutes (t - u) := by
  have : 0 ≤ timeSub t u ∧ timeSub t u ≤ t - u := by
    simp only [timeSub, MaxInt64, MinInt64]; omega
  exact ⟨minutes_nonneg this.1, minutes_mono this.2⟩

/-! ### One request -/

/-- A limiter whose rate is not negative, whose capacity is a token at least, and whose buckets
    hold between none and `burst` tokens. -/
structure RateLimiter.Good (l : RateLimiter) : Prop where
  rpm : 0 ≤ l.rpm
  burst : 1 ≤ l.burst
  tokens : ∀ key bk, l.b.find? key = some bk → 0 ≤ bk.tokens ∧ bk.tokens ≤ l.burst

/-- The tokens a present bucket holds at `now`, refilled for the minutes since it was last
    touched and capped at `burst`, before the request spends one. -/
def RateLimiter.refill (l : RateLimiter) (bk : Bucket) (now : Int) : ℚ :=
  min (bk.tokens + Minutes (timeSub now bk.last) * l.rpm) l.burst

theorem allow_none {l : RateLimiter} {key : GoString} (h : l.b.find? key = none) (now : Int) :
    l.allow key now = (true, { l with b := l.b.insert key ⟨l.burst - 1, now⟩ }) := by
  simp only [RateLimiter.allow, h]

theorem allow_some {l : RateLimiter} {key : GoString} {bk : Bucket} (h : l.b.find? key = some bk)
    (now : Int) : l.allow key now =
      if 1 ≤ l.refill bk now then (true, { l with b := l.b.insert key ⟨l.refill bk now - 1, now⟩ })
      else (false, { l with b := l.b.insert key ⟨l.refill bk now, now⟩ }) := by
  have hmin : ∀ x y : ℚ, (if x > y then y else x) = min x y := fun x y => by
    rw [min_def]; split_ifs <;> first | rfl | linarith
  simp only [RateLimiter.allow, h, hmin, RateLimiter.refill]
  split_ifs <;> first | rfl | (exfalso; linarith)

/-- A request keeps the limiter good when no bucket it touches was stamped after it. -/
theorem RateLimiter.Good.allow {l : RateLimiter} (hl : l.Good) {key : GoString} {now : Int}
    (hlast : ∀ bk, l.b.find? key = some bk → bk.last ≤ now) : (l.allow key now).2.Good := by
  have keep : ∀ τ : ℚ, 0 ≤ τ → τ ≤ l.burst →
      RateLimiter.Good { l with b := l.b.insert key ⟨τ, now⟩ } := fun τ h₀ h₁ =>
    ⟨hl.rpm, hl.burst, fun j bk hj => by
      rw [GoMap.find?_insert] at hj
      split_ifs at hj
      · cases hj; exact ⟨h₀, h₁⟩
      · exact hl.tokens j bk hj⟩
  rcases hf : l.b.find? key with _ | bk
  · rw [allow_none hf]; exact keep _ (by linarith [hl.burst]) (by linarith)
  · have hacc := mul_nonneg (minutes_timeSub_le (hlast bk hf)).1 hl.rpm
    have hτ := (hl.tokens key bk hf).1
    have hR : 0 ≤ l.refill bk now ∧ l.refill bk now ≤ l.burst :=
      ⟨le_min (by linarith) (by linarith [hl.burst]), min_le_right _ _⟩
    rw [allow_some hf]
    split_ifs with h
    · exact keep _ (by linarith) (by linarith)
    · exact keep _ hR.1 hR.2

/-- What is left of the window `[a, b]` for key `k`: a bucket stamped inside the window holds its
    tokens and will earn the rest of the window; any other bucket, or none, starts the window with
    `burst` tokens at most. -/
def RateLimiter.budget (l : RateLimiter) (k : GoString) (a b : Int) : ℚ :=
  match l.b.find? k with
  | some bk =>
    if a ≤ bk.last then bk.tokens + Minutes (max 0 (b - bk.last)) * l.rpm
    else l.burst + Minutes (b - a) * l.rpm
  | none => l.burst + Minutes (b - a) * l.rpm

theorem RateLimiter.Good.budget_nonneg {l : RateLimiter} (hl : l.Good) (k : GoString) {a b : Int}
    (hab : a ≤ b) : 0 ≤ l.budget k a b := by
  have hw := mul_nonneg (minutes_nonneg (by omega : 0 ≤ b - a)) hl.rpm
  unfold RateLimiter.budget
  split
  · next bk hf =>
    have := mul_nonneg (minutes_nonneg (le_max_left 0 (b - bk.last))) hl.rpm
    split_ifs
    · linarith [(hl.tokens k bk hf).1]
    · linarith [hl.burst]
  · linarith [hl.burst]

/-- A request the limiter passes inside the window spends a token of the budget, and the clock
    moving from the bucket's stamp to the request pays for the refill. -/
theorem budget_allow {l : RateLimiter} (hl : l.Good) (k : GoString) (a : Int) {key : GoString} {t b : Int}
    (hlast : ∀ bk, l.b.find? key = some bk → bk.last ≤ t) (htb : t ≤ b) :
    (if (l.allow key t).1 && inWindow k a b (key, t) then 1 else 0) +
      (l.allow key t).2.budget k a b ≤ l.budget k a b := by
  obtain ⟨tokens, ok, hallow, hspent⟩ : ∃ tokens ok, l.allow key t =
      (ok, { l with b := l.b.insert key ⟨tokens, t⟩ }) ∧ (if ok then 1 else 0) + tokens ≤
        match l.b.find? key with
        | some bk => l.refill bk t
        | none => l.burst := by
    rcases hf : l.b.find? key with _ | bk
    · exact ⟨_, _, allow_none hf t, by simp⟩
    · rw [allow_some hf]
      split_ifs
      · exact ⟨_, _, rfl, by simp⟩
      · exact ⟨_, _, rfl, by simp⟩
  rw [hallow]
  by_cases hk : key = k
  · subst hk
    have hw := fun {x y : Int} (h : x ≤ y) => mul_le_mul_of_nonneg_right (minutes_mono h) hl.rpm
    simp only [RateLimiter.budget, GoMap.find?_insert, if_pos rfl, ↓reduceIte, inWindow, decide_True,
      Bool.true_and]
    by_cases ha : a ≤ t
    · rw [if_pos ha, max_eq_right (by omega : (0 : Int) ≤ b - t)]
      have hin : (ok && (decide (a ≤ t) && decide (t ≤ b))) = ok := by simp [ha, htb]
      rw [hin]
      rcases hf : l.b.find? key with _ | bk <;> rw [hf] at hspent <;> simp only at hspent ⊢
      · linarith [hw (by omega : b - t ≤ b - a)]
      · have hbt := hlast bk hf
        have hR := min_le_left (bk.tokens + Minutes (timeSub t bk.last) * l.rpm) l.burst
        have hR' := min_le_right (bk.tokens + Minutes (timeSub t bk.last) * l.rpm) l.burst
        have hacc := mul_le_mul_of_nonneg_right (minutes_timeSub_le hbt).2 hl.rpm
        unfold RateLimiter.refill at hspent
        by_cases hal : a ≤ bk.last
        · have hsum : Minutes (b - bk.last) = Minutes (t - bk.last) + Minutes (b - t) := by
            rw [← minutes_add]; congr 1; omega
          rw [if_pos hal, max_eq_right (by omega : (0 : Int) ≤ b - bk.last), hsum, add_mul]
          linarith
        · rw [if_neg hal]
          linarith [hw (by omega : b - t ≤ b - a)]
    · rw [if_neg ha]
      have hout : (ok && (decide (a ≤ t) && decide (t ≤ b))) = false := by simp [ha]
      rw [hout]
      rcases hf : l.b.find? key with _ | bk <;> simp only
      · simp
      · rw [if_neg (fun h : a ≤ bk.last => ha (le_trans h (hlast bk hf)))]
        simp
  · have hout : inWindow k a b (key, t) = false := by simp [inWindow, hk]
    simp only [RateLimiter.budget, GoMap.find?_insert, if_neg (Ne.symm hk), hout, Bool.and_false]
    simp

/-- A request leaves every bucket but its key's as it was, and stamps that one `now`. -/
theorem allow_snd (l : RateLimiter) (key : GoString) (now : Int) :
    ∃ τ, (l.allow key now).2 = { l with b := l.b.insert key ⟨τ, now⟩ } := by
  rcases hf : l.b.find? key with _ | bk
  · exact ⟨_, by rw [allow_none hf]⟩
  · rw [allow_some hf]; split_ifs <;> exact ⟨_, rfl⟩

/-! ### A run -/

theorem passed_sublist (l : RateLimiter) : ∀ reqs, (l.passed reqs).Sublist reqs
  | [] => .slnil
  | r :: rs => by
    rw [RateLimiter.passed]
    split
    · exact (passed_sublist _ rs).cons₂ r
    · exact (passed_sublist _ rs).cons r

theorem passed_cons_count (l : RateLimiter) (key : GoString) (t : Int) (rs : List (GoString × Int))
    (k : GoString) (a b : Int) :
    (((l.passed ((key, t) :: rs)).filter (inWindow k a b)).length : ℚ) =
      (if (l.allow key t).1 && inWindow k a b (key, t) then 1 else 0) +
        (((l.allow key t).2.passed rs).filter (inWindow k a b)).length := by
  rw [RateLimiter.passed]
  cases hok : (l.allow key t).1 <;> cases hw : inWindow k a b (key, t) <;>
    simp [List.filter_cons, hw] <;> ring

/-- Over requests stamped in order, none before a bucket's stamp, the limiter lets through no
    more requests of `k` inside `[a, b]` than the budget it starts with. -/
theorem passed_window (k : GoString) {a b : Int} (hab : a ≤ b) :
    ∀ (reqs : List (GoString × Int)) (l : RateLimiter), l.Good →
      (∀ r ∈ reqs, ∀ key bk, l.b.find? key = some bk → bk.last ≤ r.2) →
      reqs.Pairwise (fun x y => x.2 ≤ y.2) →
      (((l.passed reqs).filter (inWindow k a b)).length : ℚ) ≤ l.budget k a b
  | [], l, hl, _, _ => by simpa [RateLimiter.passed] using hl.budget_nonneg k hab
  | (key, t) :: rs, l, hl, hlast, hs => by
    obtain ⟨hr, hs⟩ := List.pairwise_cons.1 hs
    have hfirst : ∀ bk, l.b.find? key = some bk → bk.last ≤ t :=
      fun bk => hlast (key, t) (List.mem_cons_self _ _) key bk
    by_cases htb : t ≤ b
    · obtain ⟨τ, hτ⟩ := allow_snd l key t
      have ih := passed_window k hab rs _ (hl.allow hfirst) (fun r' hr' j bk h => by
        rw [hτ, GoMap.find?_insert] at h
        split_ifs at h
        · cases h; exact hr r' hr'
        · exact hlast r' (List.mem_cons_of_mem _ hr') j bk h) hs
      rw [passed_cons_count]
      linarith [budget_allow hl k a hfirst htb]
    · have hnone : (l.passed ((key, t) :: rs)).filter (inWindow k a b) = [] :=
        List.filter_eq_nil_iff.2 fun r hr' => by
          have hlate : b < r.2 := by
            rcases List.mem_cons.1 ((passed_sublist l _).subset hr') with rfl | h
            · exact lt_of_not_le htb
            · exact lt_of_lt_of_le (lt_of_not_le htb) (hr r h)
          simp [inWindow, not_le.2 hlate]
      simpa [hnone] using hl.budget_nonneg k hab

/-- `withRateLimit(next, rpm, burst)`, with `rpm > 0` and `burst > 0` as `NewMux` ensures, is a
    token bucket: over requests in the order of their clock readings, at most
    `burst + rpm * (b - a)` requests of a client key with readings in a window `[a, b]` reach
    `next`, `b - a` counted in minutes. -/
theorem rate_limited (rpm burst : Int) (hr : 0 < rpm) (hb : 0 < burst) (reqs : List (GoString × Int))
    (hs : reqs.Pairwise (fun x y => x.2 ≤ y.2)) (k : GoString) (a b : Int) (hab : a ≤ b) :
    (((withRateLimit rpm burst reqs).filter (inWindow k a b)).length : ℚ) ≤
      burst + rpm * Minutes (b - a) := by
  have hl : (newRateLimiter rpm burst).Good :=
    ⟨show (0 : ℚ) ≤ rpm by exact_mod_cast hr.le, show (1 : ℚ) ≤ burst by exact_mod_cast hb,
      fun _ _ h => nomatch h⟩
  have := passed_window k hab reqs _ hl (fun _ _ _ _ h => nomatch h) hs
  simpa [withRateLimit, RateLimiter.budget, newRateLimiter, mul_comm] using this

/-- `rate_limited` on two requests of one key a minute apart, with `rpm = burst = 1`. -/
theorem rate_limited_minute :
    (0 : Int) < 1 ∧ (0 : Int) < 1 ∧
      [(lit "k", (0 : Int)), (lit "k", 60000000000)].Pairwise (fun x y => x.2 ≤ y.2) ∧ (0 : Int) ≤ 60000000000 ∧
      (((withRateLimit 1 1 [(lit "k", 0), (lit "k", 60000000000)]).filter
        (inWindow (lit "k") 0 60000000000)).length : ℚ) ≤ (1 : Int) + (1 : Int) * Minutes (60000000000 - 0) :=
  ⟨by decide, by decide, by decide, by decide,
    rate_limited 1 1 (by decide) (by decide) _ (by decide) (lit "k") 0 60000000000 (by decide)⟩

end GamifyKit.Api
