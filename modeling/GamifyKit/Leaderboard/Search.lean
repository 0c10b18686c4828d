import GamifyKit.Leaderboard.Shape

/-! The search shared by `Update` and `removeLocked`.

    Split the towers of a well-formed board into the part `A` whose entries precede the target `e`
    and the rest `B` (the towers are sorted, so this is a prefix). Walking level `i` from any node
    of `A` on that level, or from the head, stops at the last node of `A` on level `i`; so the
    descent records, for every level, the last node of `A` there, or the head when there is none.
    The walk never exhausts its fuel: every chain is shorter than the heap. -/

namespace GamifyKit.Leaderboard
open SkipList

variable {s : SkipList} {L A B : List Tower} {e : Entry}

/-- The walk follows a chain while the entries it meets precede `e`. -/
theorem walk_eq {i : Nat} : ∀ {fuel : Nat} {cur : Ptr} {ys : List Ptr}, Chain (s.nextAt i) cur ys →
    ys.length ≤ fuel →
    s.walk i e fuel cur = (ys.takeWhile (fun p => less (s.nodes p).e e)).getLastD cur
  | 0, _, [], _, _ => rfl
  | 0, _, _ :: _, _, hl => absurd hl (by simp)
  | _ + 1, _, [], hc, _ => by simp [walk, chain_nil.1 hc]
  | _ + 1, _, q :: _, ⟨h₁, h₂⟩, hl => by
    simp only [walk, h₁, List.takeWhile_cons]
    split_ifs with hq
    · rw [walk_eq h₂ (by simpa using hl), List.getLastD_cons]
    · rfl

theorem takeWhile_append_of_neg {α : Type} {p : α → Bool} {xs ys : List α} (hx : ∀ x ∈ xs, p x)
    (hy : ∀ y ∈ ys, p y = false) : (xs ++ ys).takeWhile p = xs := by
  rw [List.takeWhile_append_of_pos hx]
  cases ys with
  | nil => simp
  | cons y ys => simp [List.takeWhile_cons, hy y (List.mem_cons_self _ _)]

theorem Shape.level_length_le (hS : Shape s L) (i : Nat) : (level L i).length ≤ s.alloc :=
  ((level_sublist L i).length_le.trans (by simp)).trans hS.length_le.le

/-- The last node on level `i` of the towers `L` whose entry precedes `e`, or the head when there
    is none. -/
def lastBefore (s : SkipList) (L : List Tower) (e : Entry) (i : Nat) : Ptr :=
  ((level L i).filter fun p => less (s.nodes p).e e).getLastD s.head

section Split

variable (hS : Shape s L) (hL : L = A ++ B)
  (hA : ∀ t ∈ A, less (s.nodes t.1).e e) (hB : ∀ t ∈ B, less (s.nodes t.1).e e = false)
include hS hL hA hB

/-- Walking level `i` from the head or a node of `A` ends at the last node of `A` there. -/
theorem walk_level {i : Nat} {cur : Ptr} (hcur : cur ∈ s.head :: level A i) :
    s.walk i e s.alloc cur = (level A i).getLastD s.head := by
  have hch := hS.chain i
  rw [hL, level_append] at hch
  have hAi : ∀ p ∈ level A i, less (s.nodes p).e e := fun p hp => by
    obtain ⟨h, hm, -⟩ := mem_level.1 hp; exact hA _ hm
  have hBi : ∀ p ∈ level B i, less (s.nodes p).e e = false := fun p hp => by
    obtain ⟨h, hm, -⟩ := mem_level.1 hp; exact hB _ hm
  have hlen := hS.level_length_le i
  rw [hL, level_append] at hlen
  rcases List.mem_cons.1 hcur with rfl | hmem
  · rw [walk_eq hch hlen, takeWhile_append_of_neg hAi hBi]
  · obtain ⟨X, Y, hXY⟩ := List.append_of_mem hmem
    rw [hXY, List.append_assoc, List.cons_append] at hch
    rw [hXY, List.append_assoc, List.cons_append] at hlen
    rw [walk_eq (chain_suffix hch) (by simp at hlen ⊢; omega), hXY, getLastD_append_cons,
      takeWhile_append_of_neg (fun p hp => hAi p (by rw [hXY]; simp [hp])) hBi]

omit hS in
/-- With the towers split at `e`, the last node before `e` on a level is the last node of `A`
    there. -/
theorem lastBefore_eq (i : Nat) : lastBefore s L e i = (level A i).getLastD s.head := by
  have hAi : ∀ p ∈ level A i, less (s.nodes p).e e := fun p hp => by
    obtain ⟨h, hm, -⟩ := mem_level.1 hp; exact hA _ hm
  have hBi : ∀ p ∈ level B i, ¬less (s.nodes p).e e := fun p hp => by
    obtain ⟨h, hm, -⟩ := mem_level.1 hp; simp [hB _ hm]
  rw [lastBefore, hL, level_append, List.filter_append, List.filter_eq_self.2 hAi,
    List.filter_eq_nil_iff.2 hBi, List.append_nil]

/-- The descent from level `k - 1` records at each level the last node of `A` there. -/
theorem descend_eq : ∀ (k : Nat) (cur : Ptr) (upd : Nat → Ptr),
    (∀ i < k, cur ∈ s.head :: level A i) → ∀ j,
    s.descend e k cur upd j = if j < k then (level A j).getLastD s.head else upd j
  | 0, _, _, _, j => by simp [descend]
  | k + 1, cur, upd, hcur, j => by
    simp only [descend, walk_level hS hL hA hB (hcur k (Nat.lt_succ_self k))]
    rw [descend_eq k _ _ (fun i hi => List.cons_subset_cons _ (level_subset hi.le)
      (List.getLastD_mem_cons _ _)) j]
    by_cases hjk : j < k
    · simp [hjk, Nat.lt_succ_of_lt hjk]
    · by_cases hj : j = k
      · subst hj; simp
      · simp [hjk, hj, Function.update_noteq, show ¬ j < k + 1 by omega]

/-- The update vector: on every level, the last node of `A` there, or the head. -/
theorem search_eq (j : Nat) : s.search e j = (level A j).getLastD s.head := by
  rw [search, descend_eq hS hL hA hB _ _ _ (fun _ _ => List.mem_cons_self _ _)]
  split_ifs with hj
  · rfl
  · rw [level_eq_nil (fun t ht => ?_)]
    · rfl
    · exact le_trans (hS.height t (hL ▸ List.mem_append_left _ ht)).2 (by omega)

end Split

end GamifyKit.Leaderboard
