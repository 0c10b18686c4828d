import GamifyKit.Go.Json
import GamifyKit.Go.Strings

/-! Package `core`: the user state every store keeps, the overflow-checked addition behind every
    points counter, user id normalisation, badge id validation, the level curve, events, and the
    one rule of the default rule engine.

    A `UserState` keeps its maps as values (`GoMap`), so `Clone` is the identity here. Its
    `Updated` time, which `GetState` returns and the HTTP `GET` route writes out, is kept beside
    the state where stores differ on it (`Gamify.TimedStore`) and left out elsewhere. `AddSafe` is
    written with the `int64` arithmetic of its guard made explicit (`wrap64`); `AddSafe_spec`
    shows the guard never wraps on the branch that evaluates it, so the function is exact integer
    addition with an error outside the `int64` range. -/

namespace GamifyKit.Core
open GamifyKit.Go

/-- `core.UserID`. -/
abbrev UserID := GoString

/-- `core.Metric`. -/
abbrev Metric := GoString

/-- `core.Badge`. -/
abbrev Badge := GoString

/-- `core.MetricXP`. -/
def MetricXP : Metric := lit "xp"

/-- `core.UserState`, without `Updated`. -/
structure UserState where
  userID : UserID
  points : GoMap Int
  badges : GoMap Unit
  levels : GoMap Int
  deriving DecidableEq

/-- The state a store makes for a user it has not seen: `UserState{UserID: user}` with three empty
    maps, as `memory.getOrCreate`, `jsonfile.get` and `redis.buildStateFromKeys` build it. -/
def UserState.empty (user : UserID) : UserState := ⟨user, .empty, .empty, .empty⟩

/-- A state written by `json.Marshal` and read back by `json.Unmarshal`, as the Redis cache and
    the JSON file store keep it. -/
def UserState.jsonRoundTrip (st : UserState) : UserState :=
  ⟨coerceUTF8 st.userID, st.points.jsonRoundTrip, st.badges.jsonRoundTrip, st.levels.jsonRoundTrip⟩

/-- Every string of a state is valid UTF-8: its id, and the keys of its three maps. -/
structure UserState.Valid (st : UserState) : Prop where
  userID : ValidString st.userID
  points : st.points.KeysValid
  badges : st.badges.KeysValid
  levels : st.levels.KeysValid

theorem UserState.valid_empty {user : UserID} (h : ValidString user) : (UserState.empty user).Valid :=
  ⟨h, .empty, .empty, .empty⟩

theorem UserState.jsonRoundTrip_of_valid {st : UserState} (h : st.Valid) : st.jsonRoundTrip = st := by
  rw [UserState.jsonRoundTrip, coerceUTF8_of_valid h.userID, Go.jsonRoundTrip_of_valid _ h.points,
    Go.jsonRoundTrip_of_valid _ h.badges, Go.jsonRoundTrip_of_valid _ h.levels]

/-- The counters have their Go type: every value of `Points` is an `int64`. -/
def UserState.Typed (st : UserState) : Prop := ∀ m v, st.points.find? m = some v → InInt64 v

/-! ### `AddSafe` -/

/-- `core.AddSafe`. The bounds `math.MaxInt64-delta` and `math.MinInt64-delta` are `int64`
    expressions, hence `wrap64`. -/
def AddSafe (base delta : Int) : Except String Int :=
  if (delta > 0 ∧ base > wrap64 (MaxInt64 - delta)) ∨ (delta < 0 ∧ base < wrap64 (MinInt64 - delta))
  then .error "integer overflow in AddSafe"
  else .ok (wrap64 (base + delta))

/-- On `int64` operands `AddSafe` is exact addition, failing exactly outside the `int64` range. -/
theorem AddSafe_spec {base delta : Int} (hb : InInt64 base) (hd : InInt64 delta) :
    AddSafe base delta =
      if InInt64 (base + delta) then .ok (base + delta) else .error "integer overflow in AddSafe" := by
  have hb' := hb
  have hd' := hd
  unfold InInt64 MinInt64 MaxInt64 at hb' hd'
  have hmax : 0 < delta → wrap64 (MaxInt64 - delta) = MaxInt64 - delta := fun h =>
    wrap64_of_inInt64 (by unfold InInt64 MinInt64 MaxInt64; omega)
  have hmin : delta < 0 → wrap64 (MinInt64 - delta) = MinInt64 - delta := fun h =>
    wrap64_of_inInt64 (by unfold InInt64 MinInt64 MaxInt64; omega)
  by_cases hr : InInt64 (base + delta)
  · rw [if_pos hr, AddSafe, if_neg, wrap64_of_inInt64 hr]
    unfold InInt64 MinInt64 MaxInt64 at hr
    rintro (⟨h, h'⟩ | ⟨h, h'⟩)
    · rw [hmax h] at h'; unfold MaxInt64 at h'; omega
    · rw [hmin h] at h'; unfold MinInt64 at h'; omega
  · rw [if_neg hr, AddSafe, if_pos]
    unfold InInt64 MinInt64 MaxInt64 at hr
    rcases lt_trichotomy delta 0 with h | h | h
    · exact .inr ⟨h, by rw [hmin h]; unfold MinInt64; omega⟩
    · omega
    · exact .inl ⟨h, by rw [hmax h]; unfold MaxInt64; omega⟩

/-- A failed `AddSafe` reports the same text whatever its operands. -/
theorem AddSafe_error {base delta : Int} {e : String} (h : AddSafe base delta = .error e) :
    e = "integer overflow in AddSafe" := by
  unfold AddSafe at h; split_ifs at h; cases h; rfl

/-! ### Identifiers -/

/-- `core.NormalizeUserID`. -/
def NormalizeUserID (caseTable : Nat → Nat) (id : UserID) : Except String UserID :=
  let s := TrimSpace id
  if s = [] then .error "empty user id" else .ok (ToLower caseTable s)

/-- The runes `ValidateBadgeID` admits: `a`–`z`, `A`–`Z`, `0`–`9`, `-` and `_`. -/
def badgeRune (r : Nat) : Bool :=
  0x61 ≤ r && r ≤ 0x7A || 0x41 ≤ r && r ≤ 0x5A || 0x30 ≤ r && r ≤ 0x39 || r = 0x2D || r = 0x5F

/-- `core.ValidateBadgeID`; `nil` is `.ok ()`. The loop returns at the first rune it rejects. -/
def ValidateBadgeID (b : Badge) : Except String Unit :=
  let s := TrimSpace b
  if s = [] then .error "empty badge id"
  else if (runes s).all badgeRune then .ok () else .error "invalid badge id"

theorem NormalizeUserID_eq_ok {caseTable : Nat → Nat} {s v : UserID} :
    NormalizeUserID caseTable s = .ok v ↔ TrimSpace s ≠ [] ∧ ToLower caseTable (TrimSpace s) = v := by
  simp only [NormalizeUserID]
  split_ifs with h <;> simp [h]

/-- `NormalizeUserID` leaves the id it gives as it is: the id it gives is the lowered runes of the
    trimmed id, whose first and last runes lowering keeps apart from spaces, and lowering them
    again changes none. -/
theorem NormalizeUserID_idem {caseTable : Nat → Nat} (hc : LowerCaseTable caseTable) {s v : UserID}
    (hv : NormalizeUserID caseTable s = .ok v) : NormalizeUserID caseTable v = .ok v := by
  obtain ⟨ht, rfl⟩ := NormalizeUserID_eq_ok.1 hv
  have hR : runes (TrimSpace s) = (trimPieces (segments s)).map runeOf := by
    rw [runes, segments_TrimSpace]
  have hseg := segments_flatMap_encodeRune (unicodeToLower caseTable) (runes (TrimSpace s))
  rw [← ToLower_eq] at hseg
  have hends : ∀ o : Option GoString, (∀ g ∈ o, spaceSeg g = false) →
      ∀ g ∈ o.map (fun g => encodeRune (unicodeToLower caseTable (runeOf g))), spaceSeg g = false := by
    intro o ho g hg
    obtain ⟨g, hg', rfl⟩ := Option.mem_map.1 hg
    rw [spaceSeg_encodeRune]
    exact hc.lower_space (ho g hg')
  have htrim : TrimSpace (ToLower caseTable (TrimSpace s)) = ToLower caseTable (TrimSpace s) := by
    apply TrimSpace_eq_self
    · rw [hseg, hR, List.map_map, List.head?_map]
      exact hends _ (trimPieces_head _)
    · rw [hseg, hR, List.map_map, List.getLast?_map]
      exact hends _ (trimPieces_last _)
  have hne : ToLower caseTable (TrimSpace s) ≠ [] := by
    intro h
    rw [h, hR] at hseg
    exact ht (TrimSpace_eq_nil.2 (List.map_eq_nil_iff.1 (List.map_eq_nil_iff.1 hseg.symm)))
  refine NormalizeUserID_eq_ok.2 ⟨by rwa [htrim], ?_⟩
  rw [htrim, ToLower_eq caseTable (ToLower _ _), ToLower_eq caseTable (TrimSpace s),
    runes_flatMap_encodeRune, List.flatMap_map]
  refine List.flatMap_congr fun r _ => ?_
  simp only [Function.comp, hc.lower_idem, encodeRune_scalar]

theorem badgeRune_ascii (r : Nat) (h : badgeRune r = true) : r < 0x80 := by
  simp only [badgeRune, Bool.or_eq_true, Bool.and_eq_true, decide_eq_true_eq] at h
  omega

/-- `ValidateBadgeID` accepts exactly the ids whose trimmed text is not empty and is made of
    `a`–`z`, `A`–`Z`, `0`–`9`, `-` and `_` byte by byte. -/
theorem ValidateBadgeID_ok_iff (b : Badge) : ValidateBadgeID b = .ok () ↔
    TrimSpace b ≠ [] ∧ ∀ c ∈ TrimSpace b, badgeRune c.toNat = true := by
  rw [← runes_all_iff badgeRune_ascii]
  simp only [ValidateBadgeID]
  split_ifs with h₁ h₂ <;> simp_all

/-! ### Levels -/

/-- `⌊√n⌋` found bit by bit, from bit `k - 1` down; `r` is the root so far. -/
def sqrtBits (n : Nat) : Nat → Nat → Nat
  | 0, r => r
  | k + 1, r => if (r + 2 ^ k) * (r + 2 ^ k) ≤ n then sqrtBits n k (r + 2 ^ k) else sqrtBits n k r

theorem sqrtBits_eq (n : Nat) :
    ∀ k r, r * r ≤ n → n < (r + 2 ^ k) * (r + 2 ^ k) → sqrtBits n k r = Nat.sqrt n
  | 0, r, h₁, h₂ => Nat.eq_sqrt.2 ⟨h₁, by simpa using h₂⟩
  | k + 1, r, h₁, h₂ => by
    have e : r + 2 ^ k + 2 ^ k = r + 2 ^ (k + 1) := by rw [pow_succ]; ring
    rw [sqrtBits]
    split_ifs with h
    · exact sqrtBits_eq n k _ h (by rwa [e])
    · exact sqrtBits_eq n k r h₁ (not_le.1 h)

/-- `core.DefaultLevel`, with the `float64` square root and division taken as exact: the level
    is `⌊⌊√x⌋ / 10⌋ + 1`, the root found over the 32 bits an `int64`'s root has
    (`DefaultLevel_eq`). Go's rounding can only differ where `√x / 10` lies within a few units in
    the last place below an integer, which needs `x` beyond `10^15`; at perfect squares below
    `2^53` both are exact. -/
def DefaultLevel (totalXP : Int) : Int :=
  if totalXP ≤ 0 then 1
  else
    let lvl : Int := (sqrtBits totalXP.toNat 32 0 / 10 : Nat) + 1
    if lvl < 1 then 1 else lvl

theorem DefaultLevel_eq {x : Int} (h : InInt64 x) (hx : 0 < x) :
    DefaultLevel x = (Nat.sqrt x.toNat / 10 : Nat) + 1 := by
  unfold InInt64 MaxInt64 at h
  have hn : x.toNat < 2 ^ 64 := by omega
  rw [DefaultLevel, if_neg (by omega), sqrtBits_eq _ 32 0 (by simp) (by simp; omega)]
  simp only
  rw [if_neg (by omega)]

/-! ### Events -/

/-- `core.EventPointsAdded`. -/
def EventPointsAdded : GoString := lit "points_added"

/-- `core.EventBadgeAwarded`. -/
def EventBadgeAwarded : GoString := lit "badge_awarded"

/-- `core.EventLevelUp`. -/
def EventLevelUp : GoString := lit "level_up"

/-- `core.EventAchievementUnlocked`. -/
def EventAchievementUnlocked : GoString := lit "achievement_unlocked"

/-- `core.Event`, without `Time` and `Metadata`: the analytics hooks, which read them, take the
    event's time and its `achievement` metadata as arguments. -/
structure Event where
  type : GoString
  userID : UserID
  metric : Metric
  delta : Int
  total : Int
  badge : Badge
  level : Int
  deriving DecidableEq

/-- `core.Event{UserID: user}`. -/
def Event.bare (user : UserID) : Event := ⟨[], user, [], 0, 0, [], 0⟩

/-- `core.NewPointsAdded`. -/
def NewPointsAdded (user : UserID) (metric : Metric) (delta total : Int) : Event :=
  ⟨EventPointsAdded, user, metric, delta, total, [], 0⟩

/-- `core.NewBadgeAwarded`. -/
def NewBadgeAwarded (user : UserID) (badge : Badge) : Event :=
  ⟨EventBadgeAwarded, user, [], 0, 0, badge, 0⟩

/-- `core.NewLevelUp`. -/
def NewLevelUp (user : UserID) (metric : Metric) (level : Int) : Event :=
  ⟨EventLevelUp, user, metric, 0, 0, [], level⟩

/-! ### Rules -/

/-- `core.LevelUpRule`, the one implementation of `core.Rule`. -/
structure LevelUpRule where
  metric : Metric

/-- `LevelUpRule.Evaluate`: after points on its metric, a level-up when the curve passes the
    stored level. -/
def LevelUpRule.Evaluate (r : LevelUpRule) (state : UserState) (trigger : Event) : List Event :=
  if trigger.type ≠ EventPointsAdded ∨ trigger.metric ≠ r.metric then []
  else
    let total := state.points.getD r.metric 0
    let currentLevel := state.levels.getD r.metric 0
    let newLevel := DefaultLevel total
    if newLevel > currentLevel then [NewLevelUp state.userID r.metric newLevel] else []

/-- `engine.simpleRuleEngine`: its rules in order. -/
abbrev RuleEngine := List LevelUpRule

/-- `simpleRuleEngine.Evaluate`: the events of every rule, in the rules' order. -/
def RuleEngine.Evaluate (rules : RuleEngine) (state : UserState) (trigger : Event) : List Event :=
  rules.flatMap fun r => r.Evaluate state trigger

/-- `engine.DefaultRuleEngine`: one level-up rule on `xp`. -/
def DefaultRuleEngine : RuleEngine := [⟨MetricXP⟩]

/-- The default engine derives a level-up exactly after points on `xp` that take the curve past
    the stored level. -/
theorem DefaultRuleEngine_Evaluate (st : UserState) (ev : Event) :
    DefaultRuleEngine.Evaluate st ev =
      if ev.type = EventPointsAdded ∧ ev.metric = MetricXP ∧
          st.levels.getD MetricXP 0 < DefaultLevel (st.points.getD MetricXP 0)
      then [NewLevelUp st.userID MetricXP (DefaultLevel (st.points.getD MetricXP 0))] else [] := by
  simp only [DefaultRuleEngine, RuleEngine.Evaluate, List.flatMap_cons, List.flatMap_nil,
    List.append_nil, LevelUpRule.Evaluate]
  by_cases h₁ : ev.type = EventPointsAdded <;> by_cases h₂ : ev.metric = MetricXP <;> simp [h₁, h₂]

/-- A trigger that is no `PointsAdded` event, such as the bare event of `EvaluateRules`, derives
    nothing. -/
theorem Evaluate_of_type_ne (rules : RuleEngine) (state : UserState) {trigger : Event}
    (h : trigger.type ≠ EventPointsAdded) : rules.Evaluate state trigger = [] := by
  simp [RuleEngine.Evaluate, LevelUpRule.Evaluate, h]

end GamifyKit.Core
