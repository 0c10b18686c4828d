import GamifyKit.Leaderboard.Invariant

/-! The skip list refines a finite map from users to scores.

    A board stands for the map `toMap` that sends each indexed user to the score of its node; a
    sequence of calls denotes the map in which `Update` overwrites and `Remove` deletes. Every
    call moves `toMap` as its denotation says, so on every reachable board `Get` answers from the
    denoted map, and `TopN` returns a prefix of the one list that ranks the map's entries by
    `less`. The one exception is the size check of `make`: `TopN(n)` panics once `n` entries
    exceed `maxAlloc` bytes, however few entries the board holds. -/

namespace GamifyKit.Leaderboard
open GamifyKit.Go GamifyKit.Core SkipList

/-- The map a board stands for: each indexed user's score. -/
def SkipList.toMap (s : SkipList) (u : UserID) : Option Int :=
  (s.byUser u).map fun p => (s.nodes p).e.score

/-- What a call does to the map: `Update` overwrites, `Remove` deletes. -/
def Op.denote : Op → (UserID → Option Int) → UserID → Option Int
  | .update u sc _, M => Function.update M u (some sc)
  | .remove u, M => Function.update M u none

/-- The map a sequence of calls denotes, from the empty one. -/
def denote (ops : List Op) : UserID → Option Int :=
  ops.foldl (fun M op => op.denote M) fun _ => none

/-- `l` lists exactly the entries of `M`, ranked by `less`. -/
def Ranked (M : UserID → Option Int) (l : List Entry) : Prop :=
  l.Pairwise (fun a b => less a b) ∧ ∀ e, e ∈ l ↔ M e.user = some e.score

/-- A map has at most one ranking. -/
theorem Ranked.unique {M : UserID → Option Int} {l l' : List Entry} (h : Ranked M l)
    (h' : Ranked M l') : l = l' := by
  have : IsAntisymm Entry (fun a b => less a b) :=
    ⟨fun a b hab hba => by simp [less_asymm hab] at hba⟩
  exact List.eq_of_perm_of_sorted ((List.perm_ext_iff_of_nodup (h.1.imp ne_of_less)
    (h'.1.imp ne_of_less)).2 fun e => by rw [h.2, h'.2]) h.1 h'.1

/-- A ranking names each user once. -/
theorem Ranked.nodup_users {M : UserID → Option Int} {l : List Entry} (h : Ranked M l) :
    (l.map Entry.user).Nodup := by
  refine List.Nodup.map_on (fun a ha b hb hu => ?_) (h.1.imp ne_of_less)
  have ha' := (h.2 a).1 ha
  have hb' := (h.2 b).1 hb
  rw [hu, hb'] at ha'
  cases a; cases b; simp_all

/-! ### One call -/

section Step

variable {s : SkipList} {L : List Tower} (hS : Shape s L)
include hS

theorem Shape.byUser_lt {u : UserID} {p : Ptr} (hb : s.byUser u = some p) : p < s.alloc := by
  obtain ⟨h, hm, -⟩ := (hS.byUser u p).1 hb
  exact hS.ptr_lt hm

theorem Shape.toMap_insertNode {e : Entry} {h : Nat} :
    (s.insertNode e h).toMap = Function.update s.toMap e.user (some e.score) := by
  funext v
  by_cases hv : v = e.user
  · subst hv; simp [toMap]
  · simp only [toMap, insertNode_byUser, insertNode_e, Function.update_noteq hv]
    cases hb : s.byUser v with
    | none => rfl
    | some p => simp [(hS.byUser_lt hb).ne]

theorem Shape.toMap_update (u : UserID) (sc : Int) (coin : Nat → Bool) :
    (s.update u sc coin).toMap = Function.update s.toMap u (some sc) := by
  unfold SkipList.update
  split
  · next p hb =>
    obtain ⟨L', hS', hb'⟩ := hS.remove_node hb
    rw [hS'.toMap_insertNode]
    funext v
    by_cases hv : v = u
    · subst hv; simp
    · simp [toMap, hb', Function.update_noteq hv]
  · exact hS.toMap_insertNode

theorem Shape.toMap_remove (u : UserID) : (s.remove u).toMap = Function.update s.toMap u none := by
  unfold SkipList.remove
  split
  · next p hb =>
    obtain ⟨L', -, hb'⟩ := hS.remove_node hb
    funext v
    by_cases hv : v = u
    · subst hv; simp [toMap, hb']
    · simp [toMap, hb', Function.update_noteq hv]
  · next hb =>
    funext v
    by_cases hv : v = u
    · subst hv; simp [toMap, hb]
    · simp [Function.update_noteq hv]

/-- `Get` answers from the map. -/
theorem Shape.get_eq (u : UserID) : s.get u = match s.toMap u with
    | some sc => (⟨u, sc⟩, true)
    | none => (Entry.zero, false) := by
  unfold SkipList.get SkipList.toMap
  cases hb : s.byUser u with
  | none => rfl
  | some p =>
    obtain ⟨_, _, hu⟩ := (hS.byUser u p).1 hb
    simp [← hu]

/-- The entries of the board, in level-0 order, rank its map. -/
theorem Shape.ranked : Ranked s.toMap (L.map fun t => (s.nodes t.1).e) := by
  refine ⟨List.pairwise_map.2 hS.sorted, fun e => ?_⟩
  simp only [List.mem_map, toMap, Option.map_eq_some']
  constructor
  · rintro ⟨t, ht, rfl⟩
    exact ⟨t.1, (hS.byUser _ _).2 ⟨t.2, ht, rfl⟩, rfl⟩
  · rintro ⟨p, hb, hsc⟩
    obtain ⟨h, hm, hu⟩ := (hS.byUser _ _).1 hb
    exact ⟨(p, h), hm, by cases e; subst hu; subst hsc; rfl⟩

end Step

/-! ### Queries on a well-formed board -/

/-- The `TopN` loop reads the first `k` entries of the level-0 chain. -/
theorem collect_eq {s : SkipList} : ∀ (k : Nat) {p : Ptr} {xs : List Ptr}, Chain (s.nextAt 0) p xs →
    s.collect k (s.nextAt 0 p) = (xs.map fun q => (s.nodes q).e).take k
  | 0, _, _, _ => by simp [collect]
  | _ + 1, _, [], hc => by simp [collect, chain_nil.1 hc]
  | k + 1, _, q :: _, ⟨h₁, h₂⟩ => by simp [collect, h₁, collect_eq k h₂]

/-- `TopN(n)` with `make`'s size check passed returns the first `n` ranked entries. -/
theorem Shape.topN_eq {s : SkipList} {L : List Tower} (hS : Shape s L) {n : Int} (hn : 0 < n)
    (hcap : entrySize * n ≤ maxAlloc) :
    s.topN n = .ok ((L.map fun t => (s.nodes t.1).e).take n.toNat) := by
  have hc := hS.chain 0
  rw [hS.level_zero] at hc
  simp only [topN, show ¬ n ≤ 0 by omega, show ¬ maxAlloc < entrySize * n by omega, if_false,
    collect_eq _ hc, List.map_map]
  rfl

/-- `TopN(n)` panics in `make` whenever `n` entries exceed `maxAlloc`, on every board. -/
theorem topN_cap_panics (s : SkipList) {n : Int} (hcap : maxAlloc < entrySize * n) :
    s.topN n = .error "makeslice: cap out of range" := by
  have : ¬ n ≤ 0 := by unfold maxAlloc entrySize at hcap; omega
  simp [topN, this, hcap]

/-- `TopN(1 << 62)` on a new board panics instead of returning the empty list. -/
theorem topN_new_huge_panics : NewSkipList.topN (2 ^ 62) = .error "makeslice: cap out of range" :=
  topN_cap_panics NewSkipList (by decide)

/-! ### Every reachable board -/

theorem toMap_run_of (ops : List Op) : ∀ s : SkipList, (∃ L, Shape s L) →
    (ops.foldl (fun s op => op.apply s) s).toMap = ops.foldl (fun M op => op.denote M) s.toMap := by
  induction ops with
  | nil => exact fun _ _ => rfl
  | cons op ops ih =>
    rintro s ⟨L, hS⟩
    cases op with
    | update u sc coin =>
      have := ih _ (hS.update u sc coin)
      simp only [List.foldl_cons, Op.apply, Op.denote] at this ⊢
      rw [this, hS.toMap_update]
    | remove u =>
      have := ih _ (hS.remove u)
      simp only [List.foldl_cons, Op.apply, Op.denote] at this ⊢
      rw [this, hS.toMap_remove]

/-- The board's map is the denoted map. -/
theorem toMap_run (ops : List Op) : (run ops).toMap = denote ops :=
  toMap_run_of ops _ ⟨_, shape_new⟩

/-- The skip list refines the map its calls denote, for every sequence of `Update` and `Remove`
    calls and every draw of tower heights: `Get(u)` returns `u`'s entry exactly when `u` is in the
    map, `TopN(n)` is empty for `n ≤ 0`, and for every `n > 0` that `make` admits it returns the
    first `n` entries of the map ranked by `less`. -/
theorem refines_map (ops : List Op) :
    (∀ u, (run ops).get u = match denote ops u with
      | some sc => (⟨u, sc⟩, true)
      | none => (Entry.zero, false)) ∧
    (∀ n : Int, n ≤ 0 → (run ops).topN n = .ok []) ∧
    ∃ l, Ranked (denote ops) l ∧ ∀ n : Int, 0 < n → entrySize * n ≤ maxAlloc →
      (run ops).topN n = .ok (l.take n.toNat) := by
  obtain ⟨L, hS⟩ := run_shape ops
  refine ⟨fun u => by rw [hS.get_eq, toMap_run], fun n hn => by simp [topN, hn], _,
    toMap_run ops ▸ hS.ranked, fun n hn hcap => hS.topN_eq hn hcap⟩

/-- On every reachable board `TopN(n)` panics exactly when `n` entries exceed `maxAlloc`, however
    few entries the board holds; when it returns, it returns `min(max(n, 0), size)` entries, where
    `size` is the number of users on the board, the length of the map's ranking. -/
theorem topN_panics_iff (ops : List Op) : ∃ l, Ranked (denote ops) l ∧ ∀ n : Int,
    ((run ops).topN n = .error "makeslice: cap out of range" ↔ maxAlloc < entrySize * n) ∧
      ∀ r, (run ops).topN n = .ok r → r.length = min n.toNat l.length := by
  obtain ⟨L, hS⟩ := run_shape ops
  refine ⟨_, toMap_run ops ▸ hS.ranked, fun n => ⟨⟨fun h => ?_, topN_cap_panics _⟩, fun r hr => ?_⟩⟩
  · unfold topN at h
    split_ifs at h with h₁ h₂
    exact h₂
  · by_cases hn : n ≤ 0
    · rw [topN, if_pos hn] at hr
      cases hr
      simp [Int.toNat_of_nonpos hn]
    · by_cases hcap : maxAlloc < entrySize * n
      · rw [topN_cap_panics _ hcap] at hr
        cases hr
      · rw [hS.topN_eq (by omega) (by omega)] at hr
        cases hr
        simp

end GamifyKit.Leaderboard
