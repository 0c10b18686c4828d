import GamifyKit.Leaderboard.Chain

/-! The shape of a well-formed skip list.

    A well-formed board is described by its towers `L`: the nodes of the level-0 chain in order,
    each with its height. Level `i` is the sub-chain of the towers taller than `i`, and `Shape s L`
    says that the heap links each level exactly so, that the nodes are distinct, allocated and
    ordered by `less`, that `byUser` indexes them, and that `lvl` is the height of the tallest
    tower (at least 1). `less` is a strict total order on entries, which is what makes the
    ordered chains unique. -/

namespace GamifyKit.Leaderboard
open GamifyKit.Go

/-! ### The order -/

theorem less_iff {a b : Entry} : less a b ↔ b.score < a.score ∨ (a.score = b.score ∧ a.user < b.user) := by
  unfold less; split_ifs with h <;> simp [h]

theorem less_irrefl (a : Entry) : less a a = false := by
  rw [Bool.eq_false_iff]; simp [less_iff]

theorem less_trans {a b c : Entry} (h₁ : less a b) (h₂ : less b c) : less a c := by
  rw [less_iff] at *
  rcases h₁ with h₁ | ⟨h₁, h₁'⟩ <;> rcases h₂ with h₂ | ⟨h₂, h₂'⟩
  · exact .inl (by omega)
  · exact .inl (by omega)
  · exact .inl (by omega)
  · exact .inr ⟨h₁.trans h₂, lt_trans h₁' h₂'⟩

theorem less_asymm {a b : Entry} (h : less a b) : less b a = false := by
  cases h' : less b a
  · rfl
  · simpa [less_irrefl] using less_trans h h'

theorem ne_of_less {a b : Entry} (h : less a b) : a ≠ b := fun heq => by
  rw [heq, less_irrefl] at h; cases h

theorem less_total {a b : Entry} (h : a ≠ b) : less a b ∨ less b a := by
  simp only [less_iff]
  rcases lt_trichotomy a.score b.score with hs | hs | hs
  · exact .inr (.inl hs)
  · rcases lt_trichotomy a.user b.user with hu | hu | hu
    · exact .inl (.inr ⟨hs, hu⟩)
    · exact absurd (by cases a; cases b; simp_all) h
    · exact .inr (.inr ⟨hs.symm, hu⟩)
  · exact .inl (.inl hs)

/-! ### Towers and levels -/

/-- A tower: a node and its height. -/
abbrev Tower := Ptr × Nat

/-- The nodes on level `i`: those whose towers are taller than `i`, in order. -/
def level (L : List Tower) (i : Nat) : List Ptr := (L.filter (fun t => decide (i < t.2))).map Prod.fst

@[simp] theorem level_nil (i : Nat) : level [] i = [] := rfl

theorem level_append (A B : List Tower) (i : Nat) : level (A ++ B) i = level A i ++ level B i := by
  simp [level]

theorem level_cons (t : Tower) (L : List Tower) (i : Nat) :
    level (t :: L) i = if i < t.2 then t.1 :: level L i else level L i := by
  by_cases h : i < t.2 <;> simp [level, List.filter_cons, h]

theorem mem_level {L : List Tower} {i : Nat} {p : Ptr} : p ∈ level L i ↔ ∃ h, (p, h) ∈ L ∧ i < h := by
  simp [level]

theorem level_sublist (L : List Tower) (i : Nat) : (level L i).Sublist (L.map Prod.fst) :=
  (List.filter_sublist L).map _

/-- Each level is a subsequence of the one below it. -/
theorem level_succ_sublist (L : List Tower) (i : Nat) : (level L (i + 1)).Sublist (level L i) :=
  (List.monotone_filter_right L (fun t h => by simp at h ⊢; omega)).map _

theorem level_subset {L : List Tower} {i j : Nat} (h : i ≤ j) : level L j ⊆ level L i := by
  intro p hp
  obtain ⟨k, hk, hj⟩ := mem_level.1 hp
  exact mem_level.2 ⟨k, hk, by omega⟩

theorem level_eq_nil {L : List Tower} {i : Nat} (h : ∀ t ∈ L, t.2 ≤ i) : level L i = [] := by
  simp only [level, List.map_eq_nil_iff, List.filter_eq_nil_iff, decide_eq_true_eq, not_lt]
  exact h

/-! ### The invariant -/

/-- The heap of `s` lays out the towers `L`. -/
structure Shape (s : SkipList) (L : List Tower) : Prop where
  chain : ∀ i, Chain (s.nextAt i) s.head (level L i)
  nodup : (s.head :: L.map Prod.fst).Nodup
  sorted : L.Pairwise (fun a b => less (s.nodes a.1).e (s.nodes b.1).e)
  height : ∀ t ∈ L, 1 ≤ t.2 ∧ t.2 ≤ s.lvl
  lvl_pos : 1 ≤ s.lvl
  lvl_le : s.lvl ≤ maxLevel
  lvl_top : s.lvl = 1 ∨ ∃ t ∈ L, t.2 = s.lvl
  byUser : ∀ u p, s.byUser u = some p ↔ ∃ h, (p, h) ∈ L ∧ (s.nodes p).e.user = u
  alloc : ∀ p ∈ s.head :: L.map Prod.fst, p < s.alloc

theorem length_le_of_nodup {l : List Nat} {n : Nat} (hd : l.Nodup) (h : ∀ x ∈ l, x < n) :
    l.length ≤ n := by
  simpa using (List.subperm_of_subset hd (fun x hx => List.mem_range.2 (h x hx))).length_le

/-- A chain of the board is no longer than the heap is large. -/
theorem Shape.length_le {s : SkipList} {L : List Tower} (hS : Shape s L) : L.length < s.alloc := by
  have := length_le_of_nodup hS.nodup hS.alloc
  simpa using this

theorem Shape.ptr_lt {s : SkipList} {L : List Tower} (hS : Shape s L) {t : Tower} (ht : t ∈ L) :
    t.1 < s.alloc :=
  hS.alloc _ (List.mem_cons_of_mem _ (List.mem_map_of_mem _ ht))

theorem Shape.head_not_mem {s : SkipList} {L : List Tower} (hS : Shape s L) {t : Tower} (ht : t ∈ L) :
    t.1 ≠ s.head := fun h => (List.nodup_cons.1 hS.nodup).1 (h ▸ List.mem_map_of_mem _ ht)

/-- The empty board is well formed. -/
theorem shape_new : Shape NewSkipList [] where
  chain _ := rfl
  nodup := by simp
  sorted := List.Pairwise.nil
  height := by simp
  lvl_pos := le_refl _
  lvl_le := by decide
  lvl_top := .inl rfl
  byUser := by simp [NewSkipList]
  alloc := by simp [NewSkipList]

/-! ### Splitting the towers at a target -/

/-- A sorted list splits into the elements below any downward-closed predicate and the rest. -/
theorem split_sorted {α : Type} {R : α → α → Prop} {P : α → Bool} (hP : ∀ a b, R a b → P b → P a) :
    ∀ {L : List α}, L.Pairwise R → ∃ A B, L = A ++ B ∧ (∀ a ∈ A, P a) ∧ (∀ b ∈ B, P b = false)
  | [], _ => ⟨[], [], rfl, by simp, by simp⟩
  | x :: xs, h => by
    obtain ⟨hx, hxs⟩ := List.pairwise_cons.1 h
    obtain ⟨A, B, rfl, hA, hB⟩ := split_sorted hP hxs
    cases hPx : P x
    · refine ⟨[], x :: (A ++ B), rfl, by simp, fun b hb => ?_⟩
      rcases List.mem_cons.1 hb with rfl | hb
      · exact hPx
      · cases hPb : P b
        · rfl
        · simpa [hPx] using hP x b (hx b hb) hPb
    · exact ⟨x :: A, B, rfl, by simp [hPx]; exact hA, hB⟩

end GamifyKit.Leaderboard
