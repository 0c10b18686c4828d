import GamifyKit.Memory.Store

/-! `engine.GamifyService` over `memory.Store`, one call at a time.

    The service normalises the user id, calls the store, publishes events on its bus and lets
    its rule engine derive more events from the state it reads back; a derived level-up is
    stored with `SetLevel` before it is published. `World` is what calls share: the store and
    the events passed to `bus.Publish`, in order (what the bus's handlers then do is not part
    of the service). `caseTable` is the Unicode lower-case table `NormalizeUserID` reads.

    Run one call at a time, the level-up rule keeps each rule's level at or above the curve of
    its counter once the counter exists, never lowers a level, and publishes strictly rising
    levels (`levels_keep_up`). `GetState` and `EvaluateRules` read the record of the id exactly
    as given, where `AddPoints` and `AwardBadge` write that of the normalised id
    (`getState_addPoints_of_ne`). -/

namespace GamifyKit.Engine
open GamifyKit.Go GamifyKit.Core GamifyKit.Memory

/-- What the service's calls share: the store, and every event published so far. -/
structure World where
  store : Store
  published : List Event

/-- A service over a new store, before any call. -/
def World.init : World := ⟨Store.empty, []⟩

/-- `g.bus.Publish(ctx, ev)`. -/
def World.publish (w : World) (ev : Event) : World := { w with published := w.published ++ [ev] }

/-- The loop over derived events: a level-up is stored with `SetLevel`, whose error is
    ignored, and then every event is published. -/
def applyDerived (w : World) : List Event → World
  | [] => w
  | d :: ds =>
    applyDerived ((if d.type = EventLevelUp then
      { w with store := w.store.SetLevel d.userID d.metric d.level } else w).publish d) ds

/-- `GamifyService.AddPoints`. -/
def AddPoints (caseTable : Nat → Nat) (rules : RuleEngine) (w : World) (user : UserID)
    (metric : Metric) (delta : Int) : Except String Int × World :=
  if delta = 0 then (.error "delta cannot be zero", w) else
  match NormalizeUserID caseTable user with
  | .error e => (.error e, w)
  | .ok normalized =>
    match w.store.AddPoints normalized metric delta with
    | (.error e, st) => (.error e, { w with store := st })
    | (.ok total, st) =>
      let ev := NewPointsAdded normalized metric delta total
      let w := ({ w with store := st } : World).publish ev
      (.ok total,
        applyDerived { w with store := (w.store.GetState normalized).2 }
          (rules.Evaluate (w.store.GetState normalized).1 ev))

/-- `GamifyService.AwardBadge`. -/
def AwardBadge (caseTable : Nat → Nat) (w : World) (user : UserID) (badge : Badge) :
    Except String Unit × World :=
  match NormalizeUserID caseTable user with
  | .error e => (.error e, w)
  | .ok normalized =>
    match ValidateBadgeID badge with
    | .error e => (.error e, w)
    | .ok () =>
      (.ok (), ({ w with store := w.store.AwardBadge normalized badge } : World).publish
        (NewBadgeAwarded normalized badge))

/-- `GamifyService.EvaluateRules`: the rules see the record of `user` as given, and a bare
    trigger. -/
def EvaluateRules (rules : RuleEngine) (w : World) (user : UserID) : Except String Unit × World :=
  (.ok (), applyDerived { w with store := (w.store.GetState user).2 }
    (rules.Evaluate (w.store.GetState user).1 (Event.bare user)))

/-- `GamifyService.GetState`: the record of `user` as given. -/
def GetState (w : World) (user : UserID) : UserState × World :=
  ((w.store.GetState user).1, { w with store := (w.store.GetState user).2 })

/-- The service's calls. -/
inductive Call
  | addPoints (user : UserID) (metric : Metric) (delta : Int)
  | awardBadge (user : UserID) (badge : Badge)
  | evaluateRules (user : UserID)
  | getState (user : UserID)

/-- A call run to completion; its result is dropped. -/
def Call.apply (caseTable : Nat → Nat) (rules : RuleEngine) (w : World) : Call → World
  | .addPoints u m d => (AddPoints caseTable rules w u m d).2
  | .awardBadge u b => (AwardBadge caseTable w u b).2
  | .evaluateRules u => (EvaluateRules rules w u).2
  | .getState u => (GetState w u).2

/-- The world after a sequence of calls, one at a time. -/
def runCalls (caseTable : Nat → Nat) (rules : RuleEngine) (calls : List Call) : World :=
  calls.foldl (Call.apply caseTable rules) World.init

/-! ### Observations -/

/-- The level of `v` on `m` that `GetState(v)` reports. -/
def World.level (w : World) (v : UserID) (m : Metric) : Int := (w.store.record v).levels.getD m 0

/-- The levels of the level-ups published for `v` on `m`, in the order `Publish` was called. -/
def World.levelUps (w : World) (v : UserID) (m : Metric) : List Int :=
  (w.published.filter fun ev => ev.type = EventLevelUp ∧ ev.userID = v ∧ ev.metric = m).map
    Event.level

@[simp] theorem World.publish_store (w : World) (ev : Event) : (w.publish ev).store = w.store := rfl

@[simp] theorem World.publish_published (w : World) (ev : Event) :
    (w.publish ev).published = w.published ++ [ev] := rfl

/-! ### `AddPoints` with the default engine -/

/-- The record of the normalised id after a successful `AddPoints` of `total` on `metric`, as the
    default engine leaves it: on `xp`, the level rises to the curve if the curve passed it. -/
def afterAdd (st : UserState) (metric : Metric) (total : Int) : UserState :=
  if metric = MetricXP ∧ st.levels.getD MetricXP 0 < DefaultLevel total then
    setLevelCS { st with points := st.points.insert metric total } MetricXP (DefaultLevel total)
  else { st with points := st.points.insert metric total }

/-- What a successful `AddPoints` publishes with the default engine. -/
def addEvents (st : UserState) (n : UserID) (metric : Metric) (delta total : Int) : List Event :=
  NewPointsAdded n metric delta total ::
    if metric = MetricXP ∧ st.levels.getD MetricXP 0 < DefaultLevel total then
      [NewLevelUp n MetricXP (DefaultLevel total)] else []

/-- After points on `metric` the default engine derives the level-up `addEvents` names. -/
theorem Evaluate_after_points {st : UserState} {n : UserID} (hid : st.userID = n) (metric : Metric)
    (delta total : Int) :
    DefaultRuleEngine.Evaluate { st with points := st.points.insert metric total }
        (NewPointsAdded n metric delta total) =
      if metric = MetricXP ∧ st.levels.getD MetricXP 0 < DefaultLevel total then
        [NewLevelUp n MetricXP (DefaultLevel total)] else [] := by
  rw [DefaultRuleEngine_Evaluate]
  by_cases hm : metric = MetricXP
  · subst hm; simp [NewPointsAdded, hid]
  · simp [NewPointsAdded, hm]

theorem applyDerived_levelUp (w : World) (c : Prop) [Decidable c] (n : UserID) (l : Int) :
    applyDerived w (if c then [NewLevelUp n MetricXP l] else []) =
      if c then ({ w with store := w.store.SetLevel n MetricXP l } : World).publish
        (NewLevelUp n MetricXP l) else w := by
  split_ifs <;> rfl

/-- Everything `AddPoints` can do with the default engine, on a store whose records carry their
    own ids: fail and leave every record and the published events as they were, or, for the
    normalised id `n`, store the new counter and the level `afterAdd` gives and publish
    `addEvents`. -/
theorem AddPoints_cases {caseTable : Nat → Nat} {w w' : World} {user : UserID} {metric : Metric}
    {delta : Int} {r : Except String Int} (hids : ∀ v, (w.store.record v).userID = v)
    (h : AddPoints caseTable DefaultRuleEngine w user metric delta = (r, w')) :
    ((∃ e, r = .error e) ∧ (∀ v, w'.store.record v = w.store.record v) ∧
        w'.published = w.published) ∨
      ∃ n total, NormalizeUserID caseTable user = .ok n ∧ r = .ok total ∧
        (∀ v, w'.store.record v =
          if v = n then afterAdd (w.store.record n) metric total else w.store.record v) ∧
        w'.published = w.published ++ addEvents (w.store.record n) n metric delta total := by
  unfold AddPoints at h
  split_ifs at h with hd
  · cases h; exact .inl ⟨⟨_, rfl⟩, fun _ => rfl, rfl⟩
  rcases hn : NormalizeUserID caseTable user with e | n <;> simp only [hn] at h
  · cases h; exact .inl ⟨⟨_, rfl⟩, fun _ => rfl, rfl⟩
  rcases ha : AddSafe ((w.store.record n).points.getD metric 0) delta with e | total <;>
    simp only [Store.AddPoints, addPointsCS, ha, Prod.mk.injEq] at h <;> obtain ⟨rfl, rfl⟩ := h
  · refine .inl ⟨⟨_, rfl⟩, fun v => ?_, rfl⟩
    by_cases hv : v = n <;> simp [hv]
  · refine .inr ⟨n, total, rfl, rfl, ?_⟩
    simp only [World.publish_store, Store.GetState_fst, Store.record_set, if_true,
      Evaluate_after_points (hids n), applyDerived_levelUp, afterAdd, addEvents]
    split_ifs with hup <;> refine ⟨fun v => ?_, by simp⟩ <;> by_cases hv : v = n <;> simp [hv]

/-- Whether the default engine raises the level after a successful `AddPoints`. -/
def raises (st : UserState) (metric : Metric) (total : Int) : Prop :=
  metric = MetricXP ∧ st.levels.getD MetricXP 0 < DefaultLevel total

instance (st : UserState) (metric : Metric) (total : Int) : Decidable (raises st metric total) :=
  inferInstanceAs (Decidable (_ ∧ _))

@[simp] theorem afterAdd_userID (st : UserState) (metric : Metric) (total : Int) :
    (afterAdd st metric total).userID = st.userID := by
  unfold afterAdd; split_ifs <;> rfl

@[simp] theorem afterAdd_points (st : UserState) (metric : Metric) (total : Int) :
    (afterAdd st metric total).points = st.points.insert metric total := by
  unfold afterAdd; split_ifs <;> rfl

theorem afterAdd_level (st : UserState) (metric : Metric) (total : Int) :
    (afterAdd st metric total).levels.getD MetricXP 0 =
      if raises st metric total then DefaultLevel total else st.levels.getD MetricXP 0 := by
  unfold afterAdd raises; split_ifs <;> simp [setLevelCS]

theorem levelUps_addEvents {w w' : World} {st : UserState} {n : UserID} {metric : Metric}
    {delta total : Int} (h : w'.published = w.published ++ addEvents st n metric delta total)
    (v : UserID) :
    w'.levelUps v MetricXP = w.levelUps v MetricXP ++
      if v = n ∧ raises st metric total then [DefaultLevel total] else [] := by
  simp only [World.levelUps, h, List.filter_append, List.map_append, addEvents, raises]
  congr 1
  have hne : EventPointsAdded ≠ EventLevelUp := by decide
  by_cases hv : v = n
  · subst hv; split_ifs <;> simp_all [NewPointsAdded, NewLevelUp]
  · have hv' : n ≠ v := Ne.symm hv
    split_ifs <;> simp_all [NewPointsAdded, NewLevelUp]

/-! ### One call at a time, levels keep up -/

/-- What one call at a time keeps for the rule on `xp`: every record carries its own id, every
    `xp` counter has its level at or above the curve, and the level-ups published for a user
    rise strictly and never pass the stored level. -/
structure World.KeepsUp (w : World) : Prop where
  ids : ∀ v, (w.store.record v).userID = v
  curve : ∀ v p, (w.store.record v).points.find? MetricXP = some p →
    DefaultLevel p ≤ w.level v MetricXP
  rising : ∀ v, (w.levelUps v MetricXP).Pairwise (· < ·)
  below : ∀ v, ∀ l ∈ w.levelUps v MetricXP, l ≤ w.level v MetricXP

theorem World.init_keepsUp : World.init.KeepsUp where
  ids _ := rfl
  curve _ _ h := by simp [World.init, Store.empty, Store.record, UserState.empty] at h
  rising _ := by simp [World.levelUps, World.init]
  below _ := by simp [World.levelUps, World.init]

/-- `w'` shows every user as `w` does, badges apart. -/
structure World.Agree (w w' : World) : Prop where
  ids : ∀ v, (w'.store.record v).userID = (w.store.record v).userID
  points : ∀ v, (w'.store.record v).points = (w.store.record v).points
  levels : ∀ v, (w'.store.record v).levels = (w.store.record v).levels
  levelUps : ∀ v, w'.levelUps v MetricXP = w.levelUps v MetricXP

theorem World.Agree.level {w w' : World} (ha : w.Agree w') (v : UserID) (m : Metric) :
    w'.level v m = w.level v m := by
  simp only [World.level, ha.levels v]

theorem World.KeepsUp.of_agree {w w' : World} (h : w.KeepsUp) (ha : w.Agree w') : w'.KeepsUp where
  ids v := (ha.ids v).trans (h.ids v)
  curve v p := by rw [ha.points v, ha.level]; exact h.curve v p
  rising v := ha.levelUps v ▸ h.rising v
  below v := by rw [ha.levelUps v, ha.level]; exact h.below v

/-- A world with the same records and the same published events agrees with `w`. -/
theorem World.agree_of_eq {w w' : World} (hr : ∀ v, w'.store.record v = w.store.record v)
    (hp : w'.published = w.published) : w.Agree w' where
  ids v := by rw [hr]
  points v := by rw [hr]
  levels v := by rw [hr]
  levelUps v := by simp only [World.levelUps, hp]

/-- A successful `AddPoints` keeps levels up: the counter moves, the level follows the curve. -/
theorem World.KeepsUp.of_afterAdd {w w' : World} (h : w.KeepsUp) {n : UserID} {metric : Metric}
    {delta total : Int}
    (hr : ∀ v, w'.store.record v =
      if v = n then afterAdd (w.store.record n) metric total else w.store.record v)
    (hp : w'.published = w.published ++ addEvents (w.store.record n) n metric delta total) :
    w'.KeepsUp ∧ ∀ v, w.level v MetricXP ≤ w'.level v MetricXP := by
  have hl : ∀ v, w'.level v MetricXP =
      if v = n ∧ raises (w.store.record n) metric total then DefaultLevel total
      else w.level v MetricXP := fun v => by
    by_cases hv : v = n
    · subst hv; simp only [World.level, hr, if_true, afterAdd_level, true_and]
    · simp only [World.level, hr, hv, if_false, false_and]
  have hu := levelUps_addEvents hp
  refine ⟨⟨fun v => ?_, fun v p hf => ?_, fun v => ?_, fun v l hl' => ?_⟩, fun v => ?_⟩
  · rw [hr]
    split_ifs with hv
    · rw [afterAdd_userID, h.ids n, hv]
    · exact h.ids v
  · rw [hl]
    by_cases hv : v = n
    · subst hv
      rw [hr, if_pos rfl, afterAdd_points, GoMap.find?_insert] at hf
      split_ifs at hf with hm
      · cases hf
        split_ifs with hup
        · exact le_rfl
        · exact not_lt.1 fun hlt => hup ⟨rfl, hm.symm, hlt⟩
      · split_ifs with hup
        · exact absurd hup.2.1 (Ne.symm hm)
        · exact h.curve v p hf
    · simp only [hr, hv, if_false] at hf
      simpa [hv] using h.curve v p hf
  · rw [hu, List.pairwise_append]
    refine ⟨h.rising v, by split_ifs <;> simp, fun a ha b hb => ?_⟩
    split_ifs at hb with hup
    · obtain ⟨rfl, -, hlt⟩ := hup
      simp only [List.mem_singleton] at hb
      exact hb ▸ lt_of_le_of_lt (h.below _ a ha) hlt
    · simp at hb
  · rw [hu, List.mem_append] at hl'
    rw [hl]
    by_cases hup : v = n ∧ raises (w.store.record n) metric total
    · obtain ⟨rfl, hra⟩ := hup
      rw [if_pos ⟨rfl, hra⟩] at hl' ⊢
      rcases hl' with hl' | hl'
      · exact (h.below _ l hl').trans hra.2.le
      · exact (List.mem_singleton.1 hl').le
    · rw [if_neg hup] at hl' ⊢
      exact h.below v l (by simpa using hl')
  · rw [hl]
    split_ifs with hup
    · obtain ⟨rfl, -, hlt⟩ := hup; exact hlt.le
    · exact le_rfl

/-- `AwardBadge` touches only the badges of a record and publishes no level-up. -/
theorem World.agree_awardBadge (w : World) (n : UserID) (b : Badge) :
    w.Agree (({ w with store := w.store.AwardBadge n b } : World).publish (NewBadgeAwarded n b)) := by
  have hne : EventBadgeAwarded ≠ EventLevelUp := by decide
  refine ⟨fun v => ?_, fun v => ?_, fun v => ?_, fun v => ?_⟩
  all_goals by_cases hv : v = n <;>
    simp [Store.record_AwardBadge, awardBadgeCS, World.levelUps, NewBadgeAwarded, hv, hne]

/-- Every call keeps levels up and lowers no level. -/
theorem World.KeepsUp.apply {w : World} (h : w.KeepsUp) (caseTable : Nat → Nat) (c : Call) :
    (c.apply caseTable DefaultRuleEngine w).KeepsUp ∧
      ∀ v, w.level v MetricXP ≤ (c.apply caseTable DefaultRuleEngine w).level v MetricXP := by
  have of_agree : ∀ {w'}, w.Agree w' → w'.KeepsUp ∧ ∀ v, w.level v MetricXP ≤ w'.level v MetricXP :=
    fun ha => ⟨h.of_agree ha, fun v => (ha.level v _).ge⟩
  have read : ∀ u, w.Agree { w with store := (w.store.GetState u).2 } := fun u =>
    World.agree_of_eq (fun v => Store.record_GetState _ _ _) rfl
  cases c with
  | addPoints u m d =>
    rcases hA : AddPoints caseTable DefaultRuleEngine w u m d with ⟨r, w'⟩
    simp only [Call.apply, hA]
    rcases AddPoints_cases h.ids hA with ⟨-, hr, hp⟩ | ⟨n, total, -, -, hr, hp⟩
    · exact of_agree (World.agree_of_eq hr hp)
    · exact h.of_afterAdd hr hp
  | awardBadge u b =>
    simp only [Call.apply, AwardBadge]
    split
    · exact of_agree (World.agree_of_eq (fun _ => rfl) rfl)
    · split
      · exact of_agree (World.agree_of_eq (fun _ => rfl) rfl)
      · exact of_agree (World.agree_awardBadge _ _ _)
  | evaluateRules u =>
    have hbare : (Event.bare u).type ≠ EventPointsAdded := (by decide : ([] : GoString) ≠ _)
    simp only [Call.apply, EvaluateRules, Evaluate_of_type_ne _ _ hbare, applyDerived]
    exact of_agree (read u)
  | getState u => exact of_agree (read u)

/-- A run of calls from a world that keeps levels up keeps them up and lowers no level. -/
theorem World.KeepsUp.foldl {w : World} (h : w.KeepsUp) (caseTable : Nat → Nat) (calls : List Call) :
    (calls.foldl (Call.apply caseTable DefaultRuleEngine) w).KeepsUp ∧
      ∀ v, w.level v MetricXP ≤ (calls.foldl (Call.apply caseTable DefaultRuleEngine) w).level v MetricXP := by
  induction calls generalizing w with
  | nil => exact ⟨h, fun _ => le_rfl⟩
  | cons c cs ih =>
    obtain ⟨h₁, hl₁⟩ := h.apply caseTable c
    obtain ⟨h₂, hl₂⟩ := ih h₁
    exact ⟨h₂, fun v => (hl₁ v).trans (hl₂ v)⟩

/-- One call at a time, with the default engine: no call lowers the level on `xp` of any user;
    once the user's `xp` counter exists its level is at or above the curve of the counter; and
    the level-ups published for the user carry strictly rising levels. -/
theorem levels_keep_up (caseTable : Nat → Nat) (calls more : List Call) (v : UserID) :
    (runCalls caseTable DefaultRuleEngine calls).level v MetricXP ≤
        (runCalls caseTable DefaultRuleEngine (calls ++ more)).level v MetricXP ∧
      (∀ p, ((runCalls caseTable DefaultRuleEngine calls).store.record v).points.find? MetricXP =
          some p → DefaultLevel p ≤ (runCalls caseTable DefaultRuleEngine calls).level v MetricXP) ∧
      ((runCalls caseTable DefaultRuleEngine calls).levelUps v MetricXP).Pairwise (· < ·) := by
  have h := (World.init_keepsUp.foldl caseTable calls).1
  refine ⟨?_, h.curve v, h.rising v⟩
  rw [runCalls, runCalls, List.foldl_append]
  exact (h.foldl caseTable more).2 v

/-! ### Stored badges -/

/-- Every badge stored in a record passes `ValidateBadgeID`. -/
def World.BadgesValid (w : World) : Prop :=
  ∀ v b, (w.store.record v).badges.find? b = some () → ValidateBadgeID b = .ok ()

/-- Derived events store levels, never badges. -/
theorem badges_applyDerived (w : World) (evs : List Event) (v : UserID) :
    ((applyDerived w evs).store.record v).badges = (w.store.record v).badges := by
  induction evs generalizing w with
  | nil => rfl
  | cons d ds ih =>
    rw [applyDerived, ih]
    split_ifs
    · by_cases hv : v = d.userID <;> simp [hv, setLevelCS]
    · rfl

/-- `AddPoints` stores no badge, whatever the rules derive. -/
theorem badges_AddPoints (caseTable : Nat → Nat) (rules : RuleEngine) (w : World) (user : UserID)
    (metric : Metric) (delta : Int) (v : UserID) :
    ((AddPoints caseTable rules w user metric delta).2.store.record v).badges =
      (w.store.record v).badges := by
  unfold AddPoints
  split_ifs
  · rfl
  rcases hn : NormalizeUserID caseTable user with _ | n
  · rfl
  have hs := Store.badges_AddPoints w.store n v metric delta
  rcases ha : w.store.AddPoints n metric delta with ⟨_ | total, st⟩ <;> rw [ha] at hs <;>
    simpa only [ha, badges_applyDerived, World.publish_store, Store.record_GetState] using hs

/-- A world whose every stored badge is valid stays so after any call, whatever the rules: only
    `AwardBadge` stores a badge, and only one that `ValidateBadgeID` accepts. -/
theorem World.BadgesValid.apply {w : World} (h : w.BadgesValid) (caseTable : Nat → Nat)
    (rules : RuleEngine) (c : Call) : (c.apply caseTable rules w).BadgesValid := by
  have keep : ∀ w' : World, (∀ v, (w'.store.record v).badges = (w.store.record v).badges) →
      w'.BadgesValid := fun w' hw v b hb => h v b (by rwa [← hw v])
  cases c with
  | addPoints u m d => exact keep _ (badges_AddPoints caseTable rules w u m d)
  | awardBadge u b =>
    simp only [Call.apply, AwardBadge]
    rcases hn : NormalizeUserID caseTable u with _ | n <;> simp only [hn]
    · exact h
    rcases hb : ValidateBadgeID b with _ | ⟨⟩ <;> simp only [hb]
    · exact h
    intro v b' hb'
    by_cases hv : v = n
    · subst hv
      by_cases hbb : b' = b
      · exact hbb ▸ hb
      · exact h _ b' (by simpa [awardBadgeCS, hbb] using hb')
    · exact h v b' (by simpa [hv] using hb')
  | evaluateRules u =>
    exact keep _ fun v => by simp [Call.apply, EvaluateRules, badges_applyDerived]
  | getState u => exact keep _ fun v => by simp [Call.apply, GetState]

theorem World.BadgesValid.foldl {w : World} (h : w.BadgesValid) (caseTable : Nat → Nat)
    (rules : RuleEngine) (calls : List Call) :
    (calls.foldl (Call.apply caseTable rules) w).BadgesValid := by
  induction calls generalizing w with
  | nil => exact h
  | cons c cs ih => exact ih (h.apply caseTable rules c)

theorem World.init_badgesValid : World.init.BadgesValid := fun v b hb => by
  simp [World.init, Store.empty, Store.record, UserState.empty] at hb

/-- `ValidateBadgeID` accepts exactly the ids whose trimmed text is a non-empty word over
    `a`–`z`, `A`–`Z`, `0`–`9`, `-` and `_`; every badge that a run of service calls stores, with
    any rules, is such an id, kept as it was given. -/
theorem stored_badges_grammar (caseTable : Nat → Nat) (rules : RuleEngine) (calls : List Call) :
    (∀ b, ValidateBadgeID b = .ok () ↔
        TrimSpace b ≠ [] ∧ ∀ c ∈ TrimSpace b, badgeRune c.toNat = true) ∧
      ∀ v b, ((runCalls caseTable rules calls).store.record v).badges.find? b = some () →
        TrimSpace b ≠ [] ∧ ∀ c ∈ TrimSpace b, badgeRune c.toNat = true :=
  ⟨ValidateBadgeID_ok_iff, fun v b hb =>
    (ValidateBadgeID_ok_iff b).1 (World.init_badgesValid.foldl caseTable rules calls v b hb)⟩

/-- The badge ` a` passes `ValidateBadgeID` although it holds a space, and `AwardBadge` stores
    it with the space. -/
theorem padded_badge_stored :
    ValidateBadgeID (lit " a") = .ok () ∧ (∃ c ∈ lit " a", badgeRune c.toNat = false) ∧
      ((runCalls id DefaultRuleEngine [.awardBadge (lit "u") (lit " a")]).store.record
        (lit "u")).badges.find? (lit " a") = some () := by
  decide

/-! ### `GetState` reads the id as given -/

/-- Normalisation sends `AddPoints(u, …)` to the record of the normalised id `n`, so when `n`
    differs from `u`, `GetState(u)` reads afterwards what it read before. -/
theorem getState_addPoints_of_ne {caseTable : Nat → Nat} {w : World} (h : w.KeepsUp)
    {u n : UserID} (hn : NormalizeUserID caseTable u = .ok n) (hne : u ≠ n) (m : Metric) (d : Int) :
    (GetState (AddPoints caseTable DefaultRuleEngine w u m d).2 u).1 = (GetState w u).1 := by
  rcases hA : AddPoints caseTable DefaultRuleEngine w u m d with ⟨r, w'⟩
  simp only [GetState, Store.GetState_fst]
  rcases AddPoints_cases h.ids hA with ⟨-, hr, -⟩ | ⟨n', total, hn', -, hr, -⟩
  · exact hr u
  · rw [hn] at hn'
    cases hn'
    rw [hr, if_neg hne]

/-- `AddPoints("Alice", xp, 5)` counts 5 on the record of `alice`, which `GetState("alice")`
    reads, while `GetState("Alice")` reads a record of its own with no points, although both ids
    normalise to `alice`. -/
theorem getState_skips_normalize (caseTable : Nat → Nat) :
    NormalizeUserID caseTable (lit "Alice") = .ok (lit "alice") ∧
      NormalizeUserID caseTable (lit "alice") = .ok (lit "alice") ∧
      (GetState (AddPoints caseTable DefaultRuleEngine World.init (lit "Alice") MetricXP 5).2
        (lit "alice")).1.points.getD MetricXP 0 = 5 ∧
      (GetState (AddPoints caseTable DefaultRuleEngine World.init (lit "Alice") MetricXP 5).2
        (lit "Alice")).1.points.getD MetricXP 0 = 0 := by
  have h : NormalizeUserID caseTable (lit "Alice") = .ok (lit "alice") := rfl
  refine ⟨h, rfl, ?_⟩
  simp only [AddPoints, h]
  decide

end GamifyKit.Engine
