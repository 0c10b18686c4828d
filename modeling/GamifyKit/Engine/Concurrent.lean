import GamifyKit.Engine.Service

/-! Concurrent `GamifyService.AddPoints` calls over `memory.Store`.

    A call of `AddPoints` makes a sequence of shared steps: the store's `AddPoints`, the
    publication of `PointsAdded`, the store's `GetState`, and for each derived event a
    `SetLevel` (for a level-up) and a publication. Each store operation is atomic, as the
    store's mutex makes it, but nothing holds the steps of one call together, so the steps of
    concurrent calls interleave in any order. `Thread.step` is one step of one call and
    `runSched` follows a schedule of call indices.

    Alone, a call run to its end does what the sequential `AddPoints` does
    (`finish_eq_AddPoints`), and one call at a time levels keep up (`levels_keep_up`).
    Interleaved, a call can store the level it computed from an older state after a later call
    stored a higher one: `levels_regress` runs such a schedule. -/

namespace GamifyKit.Engine
open GamifyKit.Go GamifyKit.Core GamifyKit.Memory

/-- Where an `AddPoints` call stands between its shared steps. -/
inductive Pc
  /-- Before the store's `AddPoints`. -/
  | start
  /-- The store added the points; `PointsAdded` is to be published. -/
  | added (user : UserID) (total : Int)
  /-- `PointsAdded` was published; the state is to be read. -/
  | published (user : UserID) (total : Int)
  /-- The derived events still to handle. -/
  | derive (total : Int) (ds : List Event)
  /-- The level of the level-up `d` was stored; `d` is to be published. -/
  | stored (total : Int) (d : Event) (ds : List Event)
  /-- Returned. -/
  | done (r : Except String Int)
  deriving DecidableEq

/-- A call of `AddPoints` in progress: its arguments and where it stands. -/
structure Thread where
  user : UserID
  metric : Metric
  delta : Int
  pc : Pc

/-- One shared step of a call, or `none` once it has returned. The checks before the store's
    `AddPoints` touch nothing shared and run with it. -/
def Thread.step (caseTable : Nat → Nat) (rules : RuleEngine) (t : Thread) (w : World) :
    Option (Thread × World) :=
  match t.pc with
  | .start =>
    if t.delta = 0 then some ({ t with pc := .done (.error "delta cannot be zero") }, w) else
    match NormalizeUserID caseTable t.user with
    | .error e => some ({ t with pc := .done (.error e) }, w)
    | .ok n =>
      match w.store.AddPoints n t.metric t.delta with
      | (.error e, st) => some ({ t with pc := .done (.error e) }, { w with store := st })
      | (.ok total, st) => some ({ t with pc := .added n total }, { w with store := st })
  | .added n total =>
    some ({ t with pc := .published n total }, w.publish (NewPointsAdded n t.metric t.delta total))
  | .published n total =>
    some ({ t with pc := .derive total ((rules.Evaluate (w.store.GetState n).1
      (NewPointsAdded n t.metric t.delta total))) }, { w with store := (w.store.GetState n).2 })
  | .derive total [] => some ({ t with pc := .done (.ok total) }, w)
  | .derive total (d :: ds) =>
    if d.type = EventLevelUp then
      some ({ t with pc := .stored total d ds },
        { w with store := w.store.SetLevel d.userID d.metric d.level })
    else some ({ t with pc := .derive total ds }, w.publish d)
  | .stored total d ds => some ({ t with pc := .derive total ds }, w.publish d)
  | .done _ => none

/-- Running calls: each call's state, and the shared world. -/
abbrev Sys := List Thread × World

/-- Call `i` takes a step, if it exists and has not returned. -/
def Sys.step (caseTable : Nat → Nat) (rules : RuleEngine) (s : Sys) (i : Nat) : Option Sys :=
  match s.1[i]? with
  | some t => (t.step caseTable rules s.2).map fun (t', w) => (s.1.set i t', w)
  | none => none

/-- The states along a schedule, the first one included, as long as every step is enabled. -/
def runSched (caseTable : Nat → Nat) (rules : RuleEngine) : List Nat → Sys → Option (List Sys)
  | [], s => some [s]
  | i :: is, s =>
    match s.step caseTable rules i with
    | some s' => (runSched caseTable rules is s').map (s :: ·)
    | none => none

/-! ### The case table -/

theorem Thread.step_congr {ct ct' : Nat → Nat} (rules : RuleEngine) {t : Thread} (w : World)
    (h : NormalizeUserID ct t.user = NormalizeUserID ct' t.user) :
    t.step ct rules w = t.step ct' rules w := by
  unfold Thread.step; rw [h]

theorem Thread.step_user {ct : Nat → Nat} {rules : RuleEngine} {t t' : Thread} {w w' : World}
    (h : t.step ct rules w = some (t', w')) : t'.user = t.user := by
  unfold Thread.step at h
  repeat' (first | split at h | split_ifs at h)
  all_goals (cases h <;> rfl)

/-- A run reads the case table only through the normalised ids of its callers. -/
theorem runSched_congr {ct ct' : Nat → Nat} (rules : RuleEngine) :
    ∀ (is : List Nat) (s : Sys), (∀ t ∈ s.1, NormalizeUserID ct t.user = NormalizeUserID ct' t.user) →
      runSched ct rules is s = runSched ct' rules is s
  | [], _, _ => rfl
  | i :: is, s, h => by
    simp only [runSched, Sys.step]
    cases hi : s.1[i]? with
    | none => rfl
    | some t =>
      have ht : t ∈ s.1 := List.mem_iff_getElem?.2 ⟨i, hi⟩
      dsimp only
      rw [← Thread.step_congr rules s.2 (h t ht)]
      cases hs : t.step ct rules s.2 with
      | none => rfl
      | some p =>
        obtain ⟨t', w'⟩ := p
        simp only [Option.map_some']
        rw [runSched_congr rules is _ fun t'' ht'' => ?_]
        rcases List.mem_or_eq_of_mem_set ht'' with ht'' | rfl
        · exact h t'' ht''
        · rw [Thread.step_user hs]; exact h t ht

/-! ### One call alone -/

/-- A call stepped until it returns, for at most `fuel` steps. -/
def Thread.finish (caseTable : Nat → Nat) (rules : RuleEngine) : Nat → Thread → World → Thread × World
  | 0, t, w => (t, w)
  | fuel + 1, t, w =>
    match t.step caseTable rules w with
    | some (t', w') => Thread.finish caseTable rules fuel t' w'
    | none => (t, w)

theorem Evaluate_length (rules : RuleEngine) (st : UserState) (ev : Event) :
    (rules.Evaluate st ev).length ≤ rules.length := by
  induction rules with
  | nil => simp [RuleEngine.Evaluate]
  | cons r rules ih =>
    simp only [RuleEngine.Evaluate, List.flatMap_cons, List.length_append, List.length_cons] at ih ⊢
    have : (r.Evaluate st ev).length ≤ 1 := by
      simp only [LevelUpRule.Evaluate]; split_ifs <;> simp
    omega

/-- Alone, the loop over derived events does what the sequential loop does. -/
theorem finish_derive (caseTable : Nat → Nat) (rules : RuleEngine) (t : Thread) (total : Int) :
    ∀ (ds : List Event) (w : World) (fuel : Nat), 2 * ds.length < fuel →
      Thread.finish caseTable rules fuel { t with pc := .derive total ds } w =
        ({ t with pc := .done (.ok total) }, applyDerived w ds)
  | [], w, fuel + 1, _ => by
    cases fuel <;> simp [Thread.finish, Thread.step, applyDerived]
  | d :: ds, w, fuel + 1, h => by
    simp only [List.length_cons] at h
    by_cases hd : d.type = EventLevelUp
    · obtain ⟨fuel, rfl⟩ : ∃ f, fuel = f + 1 := ⟨fuel - 1, by omega⟩
      simp only [Thread.finish, Thread.step, hd, if_true]
      rw [finish_derive caseTable rules t total ds _ fuel (by omega), applyDerived, if_pos hd]
    · simp only [Thread.finish, Thread.step, hd, if_false]
      rw [finish_derive caseTable rules t total ds _ fuel (by omega), applyDerived, if_neg hd]

theorem Thread.finish_of_step {ct : Nat → Nat} {rules : RuleEngine} {t t' : Thread} {w w' : World}
    (h : t.step ct rules w = some (t', w')) (fuel : Nat) :
    Thread.finish ct rules (fuel + 1) t w = Thread.finish ct rules fuel t' w' := by
  simp only [Thread.finish, h]

theorem Thread.finish_done (ct : Nat → Nat) (rules : RuleEngine) (u : UserID) (m : Metric)
    (d : Int) (r : Except String Int) (w : World) (fuel : Nat) :
    Thread.finish ct rules fuel ⟨u, m, d, .done r⟩ w = (⟨u, m, d, .done r⟩, w) := by
  cases fuel <;> rfl

/-- Alone, with enough steps, a concurrent call returns what the sequential `AddPoints` returns
    and leaves the world as it does. -/
theorem finish_eq_AddPoints (caseTable : Nat → Nat) (rules : RuleEngine) (w : World)
    (user : UserID) (metric : Metric) (delta : Int) {fuel : Nat} (hf : 2 * rules.length + 4 ≤ fuel) :
    Thread.finish caseTable rules fuel ⟨user, metric, delta, .start⟩ w =
      (⟨user, metric, delta, .done (AddPoints caseTable rules w user metric delta).1⟩,
        (AddPoints caseTable rules w user metric delta).2) := by
  obtain ⟨fuel, rfl⟩ : ∃ f, fuel = f + 4 := ⟨fuel - 4, by omega⟩
  by_cases hd : delta = 0
  · simp [Thread.finish, Thread.step, AddPoints, hd]
  cases hn : NormalizeUserID caseTable user with
  | error e => simp [Thread.finish, Thread.step, AddPoints, hd, hn]
  | ok n =>
    rcases ha : w.store.AddPoints n metric delta with ⟨_ | total, st⟩
    · simp [Thread.finish, Thread.step, AddPoints, hd, hn, ha]
    · rw [Thread.finish_of_step (by simp [Thread.step, hd, hn, ha]; exact ⟨rfl, rfl⟩),
        Thread.finish_of_step (by rfl), Thread.finish_of_step (by rfl)]
      simp only [AddPoints, hd, hn, ha, if_false]
      refine finish_derive caseTable rules ⟨user, metric, delta, .start⟩ total _ _ _ ?_
      exact Nat.lt_succ_of_le ((Nat.mul_le_mul_left 2 (Evaluate_length rules _ _)).trans (by omega))

/-! ### Two racing calls -/

/-- `AddPoints(u, xp, 10000)` and `AddPoints(u, xp, 30000)` on a new store. -/
def raceThreads : List Thread :=
  [⟨lit "u", MetricXP, 10000, .start⟩, ⟨lit "u", MetricXP, 30000, .start⟩]

/-- The first call adds and reads its state (level 11 is due), then the second runs to the end
    (level 21 is due and stored), then the first stores and publishes its level 11. -/
def raceSched : List Nat := [0, 0, 0, 1, 1, 1, 1, 1, 1, 0, 0, 0]

/-- Along the race the stored level of `u` on `xp` rises to 21 and falls back to 11, where it
    stays with both calls returned although the counter is 40000 and `DefaultLevel(40000) = 21`;
    the level-ups are published as 21, then 11. -/
theorem levels_regress (caseTable : Nat → Nat) :
    (runSched caseTable DefaultRuleEngine raceSched (raceThreads, World.init)).map
        (fun ss => (ss.map fun s => s.2.level (lit "u") MetricXP,
          (ss.getLastD (raceThreads, World.init)).1.map Thread.pc,
          ((ss.getLastD (raceThreads, World.init)).2.store.record (lit "u")).points.getD MetricXP 0,
          (ss.getLastD (raceThreads, World.init)).2.levelUps (lit "u") MetricXP)) =
      some ([0, 0, 0, 0, 0, 0, 0, 21, 21, 21, 11, 11, 11], [.done (.ok 10000), .done (.ok 40000)],
        40000, [21, 11]) ∧
    DefaultLevel 40000 = 21 := by
  rw [@runSched_congr caseTable id _ _ _ fun t ht => by
    simp only [raceThreads, List.mem_cons, List.mem_singleton, List.not_mem_nil, or_false] at ht
    rcases ht with rfl | rfl <;> rfl]
  decide

end GamifyKit.Engine
