import GamifyKit.Leaderboard.Search

/-! The representation invariant holds on every reachable board.

    Each mutation loop is summarised once, as the links it leaves on every level: the splice loop
    inserts the new node after `update[i]` on the levels below its height, the unlink loop
    bypasses the target wherever `update[i]` points at it, and the shrink loop stops at the
    tallest remaining tower. With the search lemma these give one preservation lemma per
    operation (`removeLocked_shape`, `insertNode_shape`), and by induction over the calls,
    `Shape` on every board built from `NewSkipList`. -/

namespace GamifyKit.Leaderboard
open GamifyKit.Core SkipList

/-! ### The loops -/

section Loops

variable (upd : Nat → Ptr) (n target : Ptr)

@[simp] theorem splice_e : ∀ k (s : SkipList) p, ((splice upd n k s).nodes p).e = (s.nodes p).e
  | 0, _, _ => rfl
  | k + 1, s, p => by simp [splice, splice_e k s p]

@[simp] theorem splice_head : ∀ k (s : SkipList), (splice upd n k s).head = s.head
  | 0, _ => rfl
  | k + 1, s => by simp [splice, splice_head k s]

@[simp] theorem splice_alloc : ∀ k (s : SkipList), (splice upd n k s).alloc = s.alloc
  | 0, _ => rfl
  | k + 1, s => by simp [splice, splice_alloc k s]

@[simp] theorem splice_lvl : ∀ k (s : SkipList), (splice upd n k s).lvl = s.lvl
  | 0, _ => rfl
  | k + 1, s => by simp [splice, splice_lvl k s]

@[simp] theorem splice_byUser : ∀ k (s : SkipList), (splice upd n k s).byUser = s.byUser
  | 0, _ => rfl
  | k + 1, s => by simp [splice, splice_byUser k s]

/-- After `k` rounds of the splice loop, `n` follows `update[j]` on each level `j < k`. -/
theorem splice_nextAt : ∀ k (s : SkipList) j, (splice upd n k s).nextAt j =
    if j < k then Function.update (Function.update (s.nextAt j) n (s.nextAt j (upd j))) (upd j) (some n)
    else s.nextAt j
  | 0, _, _ => rfl
  | k + 1, s, j => by
    simp only [splice, nextAt_setNext, splice_nextAt k s]
    by_cases hjk : j = k
    · subst hjk; simp
    · simp only [hjk, if_false]
      by_cases hj : j < k
      · simp [hj, Nat.lt_succ_of_lt hj]
      · simp [hj, show ¬ j < k + 1 by omega]

@[simp] theorem unlink_e : ∀ k (s : SkipList) p, ((unlink upd target k s).nodes p).e = (s.nodes p).e
  | 0, _, _ => rfl
  | k + 1, s, p => by simp only [unlink]; split_ifs <;> simp [unlink_e k s p]

@[simp] theorem unlink_head : ∀ k (s : SkipList), (unlink upd target k s).head = s.head
  | 0, _ => rfl
  | k + 1, s => by simp only [unlink]; split_ifs <;> simp [unlink_head k s]

@[simp] theorem unlink_alloc : ∀ k (s : SkipList), (unlink upd target k s).alloc = s.alloc
  | 0, _ => rfl
  | k + 1, s => by simp only [unlink]; split_ifs <;> simp [unlink_alloc k s]

@[simp] theorem unlink_lvl : ∀ k (s : SkipList), (unlink upd target k s).lvl = s.lvl
  | 0, _ => rfl
  | k + 1, s => by simp only [unlink]; split_ifs <;> simp [unlink_lvl k s]

@[simp] theorem unlink_byUser : ∀ k (s : SkipList), (unlink upd target k s).byUser = s.byUser
  | 0, _ => rfl
  | k + 1, s => by simp only [unlink]; split_ifs <;> simp [unlink_byUser k s]

/-- After `k` rounds of the unlink loop, each level `j < k` whose `update[j]` pointed at the
    target bypasses it. -/
theorem unlink_nextAt : ∀ k (s : SkipList) j, (unlink upd target k s).nextAt j =
    if j < k ∧ s.nextAt j (upd j) = some target then
      Function.update (s.nextAt j) (upd j) (s.nextAt j target)
    else s.nextAt j
  | 0, _, _ => by simp [unlink]
  | k + 1, s, j => by
    have ih := unlink_nextAt k s
    simp only [unlink]
    by_cases hjk : j = k
    · subst hjk
      split_ifs with h₁ h₂ h₂ <;> simp_all [nextAt_setNext]
    · have hlt : j < k + 1 ↔ j < k := by omega
      split_ifs <;> simp_all [nextAt_setNext]

end Loops

/-- The head links onward on level `i` exactly when some tower is taller than `i`. -/
theorem nextAt_head_eq_none {s : SkipList} {L : List Tower} (hch : ∀ i, Chain (s.nextAt i) s.head (level L i))
    (i : Nat) : s.nextAt i s.head = none ↔ ∀ t ∈ L, t.2 ≤ i := by
  have hc := hch i
  constructor
  · intro h t ht
    by_contra hlt
    cases hl : level L i with
    | nil => exact (List.not_mem_nil _) (hl ▸ mem_level.2 ⟨t.2, ht, by omega⟩ :)
    | cons q qs => rw [hl] at hc; simp [hc.1] at h
  · intro h; rw [level_eq_nil h] at hc; exact hc

/-- The shrink loop stops at the height of the tallest tower, and at 1 on an empty board. -/
theorem shrink_spec {s : SkipList} {L : List Tower} (hch : ∀ i, Chain (s.nextAt i) s.head (level L i)) :
    ∀ l, 1 ≤ l → (∀ t ∈ L, t.2 ≤ l) →
    1 ≤ s.shrink l ∧ s.shrink l ≤ l ∧ (∀ t ∈ L, t.2 ≤ s.shrink l) ∧
      (s.shrink l = 1 ∨ ∃ t ∈ L, t.2 = s.shrink l)
  | 0, h, _ => absurd h (by omega)
  | 1, _, hL => ⟨le_refl _, le_refl _, hL, .inl rfl⟩
  | l + 2, _, hL => by
    simp only [shrink]
    split_ifs with hn
    · obtain ⟨h₁, h₂, h₃, h₄⟩ :=
        shrink_spec hch (l + 1) (by omega) ((nextAt_head_eq_none hch _).1 hn)
      exact ⟨h₁, by omega, h₃, h₄⟩
    · refine ⟨by omega, le_refl _, hL, .inr ?_⟩
      obtain ⟨t, ht, hlt⟩ : ∃ t ∈ L, ¬ t.2 ≤ l + 1 := by
        by_contra hall; push_neg at hall
        exact hn ((nextAt_head_eq_none hch _).2 (fun t ht => hall t ht))
      exact ⟨t, ht, by have := hL t ht; omega⟩

theorem Shape.nodup_level {s : SkipList} {L : List Tower} (hS : Shape s L) (j : Nat) :
    (s.head :: level L j).Nodup :=
  hS.nodup.sublist ((level_sublist L j).cons_cons _)

/-! ### Removal -/

section Remove

variable {s : SkipList} {X Y : List Tower} {user : UserID} {p : Ptr} {h₀ : Nat}
  (hS : Shape s (X ++ (p, h₀) :: Y))
include hS

/-- The towers before the node `p` precede its entry; it and those after do not. -/
theorem precede_split :
    (∀ t ∈ X, less (s.nodes t.1).e (s.nodes p).e) ∧
    (∀ t ∈ (p, h₀) :: Y, less (s.nodes t.1).e (s.nodes p).e = false) := by
  have hs := List.pairwise_append.1 hS.sorted
  refine ⟨fun t ht => hs.2.2 t ht _ (List.mem_cons_self _ _), fun t ht => ?_⟩
  rcases List.mem_cons.1 ht with rfl | ht
  · exact less_irrefl _
  · exact less_asymm ((List.pairwise_cons.1 hs.2.1).1 t ht)

/-- On each level below the height of `p`, the search for its entry stops right before `p`. -/
theorem search_next {i : Nat} (hi : i < h₀) : s.nextAt i (s.search (s.nodes p).e i) = some p := by
  obtain ⟨hX, hY⟩ := precede_split hS
  have hc := hS.chain i
  rw [level_append, level_cons, if_pos (show i < (p, h₀).2 from hi)] at hc
  rw [search_eq hS rfl hX hY, chain_next_getLastD hc]
  rfl

/-- The search for the entry of `p` finds `p` after `update[0]`. -/
theorem removeLocked_target : s.nextAt 0 (s.search (s.nodes p).e 0) = some p :=
  search_next hS (hS.height (p, h₀) (by simp)).1

theorem not_mem_after : p ∉ (X ++ Y).map Prod.fst := by
  have := (List.nodup_cons.1 hS.nodup).2
  rw [List.map_append, List.map_cons, List.nodup_middle, List.nodup_cons] at this
  simpa using this.1

/-- The unlink loop takes `p` out of every level it is on and changes no other link. -/
theorem unlink_chain (j : Nat) :
    Chain ((unlink (s.search (s.nodes p).e) p s.lvl s).nextAt j) s.head (level (X ++ Y) j) := by
  obtain ⟨hX, hY⟩ := precede_split hS
  have hc := hS.chain j
  have hnd := hS.nodup_level j
  rw [level_append, level_cons] at hc hnd
  have hnext := chain_next_getLastD hc
  rw [unlink_nextAt, search_eq hS rfl hX hY, level_append]
  split_ifs at hc hnd hnext with hj
  · rw [if_pos ⟨lt_of_lt_of_le hj (hS.height (p, h₀) (by simp)).2, hnext⟩]
    exact chain_remove hnd hc
  · have hp : p ∉ level Y j := fun h =>
      not_mem_after hS (by simpa using Or.inr ((level_sublist Y j).subset h))
    rw [if_neg (fun h => hp (List.mem_of_mem_head? (hnext ▸ h.2)))]
    exact hc

/-- `removeLocked` of a present user's own entry leaves a well-formed board without its node,
    and drops the user from the index. -/
theorem removeLocked_shape (hb : s.byUser user = some p) :
    Shape (s.removeLocked user (s.nodes p).e) (X ++ Y) ∧
      (s.removeLocked user (s.nodes p).e).byUser = Function.update s.byUser user none := by
  have hu : (s.nodes p).e.user = user := by
    obtain ⟨_, _, h⟩ := (hS.byUser user p).1 hb; exact h
  have hsub : (X ++ Y).Sublist (X ++ (p, h₀) :: Y) := (List.sublist_cons_self _ _).append_left _
  have hch := unlink_chain hS
  simp only [removeLocked, removeLocked_target hS, hu, ne_eq, not_true_eq_false, if_false,
    unlink_lvl]
  refine ⟨?_, by simp⟩
  obtain ⟨h₁, h₂, h₃, h₄⟩ := shrink_spec (s := unlink (s.search (s.nodes p).e) p s.lvl s)
    (fun j => by rw [unlink_head]; exact hch j) s.lvl hS.lvl_pos
    (fun t ht => (hS.height t (hsub.subset ht)).2)
  exact
  { chain := fun j => by simpa only [unlink_head] using hch j
    nodup := by simpa using hS.nodup.sublist ((hsub.map _).cons_cons _)
    sorted := (hS.sorted.sublist hsub).imp (fun h => by simpa using h)
    height := fun t ht => ⟨(hS.height t (hsub.subset ht)).1, h₃ t ht⟩
    lvl_pos := h₁
    lvl_le := h₂.trans hS.lvl_le
    lvl_top := h₄
    byUser := fun u q => by
      simp only [unlink_byUser, unlink_e]
      by_cases hq : u = user
      · subst hq
        rw [Function.update_same]
        refine ⟨fun h => (by cases h), fun ⟨h, hm, hqu⟩ => ?_⟩
        obtain rfl : q = p :=
          Option.some.inj (((hS.byUser _ q).2 ⟨h, hsub.subset hm, hqu⟩).symm.trans hb)
        exact absurd (List.mem_map_of_mem Prod.fst hm) (not_mem_after hS)
      · rw [Function.update_noteq hq, hS.byUser u q]
        refine ⟨fun ⟨h, hm, hqu⟩ => ⟨h, ?_, hqu⟩, fun ⟨h, hm, hqu⟩ => ⟨h, hsub.subset hm, hqu⟩⟩
        rcases List.mem_append.1 hm with hm | hm
        · exact List.mem_append_left _ hm
        rcases List.mem_cons.1 hm with hm | hm
        · cases hm; exact absurd (hu.symm.trans hqu) (Ne.symm hq)
        · exact List.mem_append_right _ hm
    alloc := fun q hq => by
      simpa using hS.alloc q (by simpa using List.cons_subset_cons _ (hsub.map _).subset hq) }

end Remove

/-! ### Insertion -/

section Insert

variable {s : SkipList} {e : Entry} {h : Nat}

@[simp] theorem insertNode_e (q : Ptr) :
    ((s.insertNode e h).nodes q).e = if q = s.alloc then e else (s.nodes q).e := by
  by_cases hq : q = s.alloc <;> simp [insertNode, newNode_nodes, hq]

@[simp] theorem insertNode_byUser :
    (s.insertNode e h).byUser = Function.update s.byUser e.user (some s.alloc) := by
  simp [insertNode]

@[simp] theorem insertNode_alloc : (s.insertNode e h).alloc = s.alloc + 1 := by simp [insertNode]

@[simp] theorem insertNode_head : (s.insertNode e h).head = s.head := by simp [insertNode]

@[simp] theorem insertNode_lvl : (s.insertNode e h).lvl = if h > s.lvl then h else s.lvl := by
  simp [insertNode]

variable {L A B : List Tower} (hS : Shape s L) (hL : L = A ++ B)
  (hA : ∀ t ∈ A, less (s.nodes t.1).e e) (hB : ∀ t ∈ B, less (s.nodes t.1).e e = false)
include hS hL hA hB

/-- After the growth step, `update[j]` is the last node of `A` on level `j` for every level of
    the new tower. -/
theorem grown_update_eq {j : Nat} (hj : j < h) :
    (if h > s.lvl then (fun i => if s.lvl ≤ i ∧ i < h then s.head else s.search e i)
      else s.search e) j = (level A j).getLastD s.head := by
  have hnil : s.lvl ≤ j → level A j = [] := fun hj => level_eq_nil fun t ht =>
    (hS.height t (hL ▸ List.mem_append_left _ ht)).2.trans hj
  by_cases hg : h > s.lvl
  · by_cases hi : s.lvl ≤ j
    · simp only [hg, if_true, hi, hj, and_self, hnil hi]; rfl
    · simp only [hg, if_true, hi, false_and, if_false]; exact search_eq hS hL hA hB j
  · simp only [hg, if_false]; exact search_eq hS hL hA hB j

/-- The splice loop puts the fresh node after the last node of `A` on each of its levels. -/
theorem insertNode_chain (j : Nat) :
    Chain ((s.insertNode e h).nextAt j) s.head (level (A ++ (s.alloc, h) :: B) j) := by
  have hc := hS.chain j
  have hfresh : s.alloc ∉ s.head :: level L j := fun hm =>
    lt_irrefl _ (hS.alloc _ (List.cons_subset_cons _ (level_sublist L j).subset hm))
  have hc' : Chain ((s.newNode e).nextAt j) s.head (level L j) := chain_congr (fun q hq => by
    simp [nextAt, newNode_nodes,
      Function.update_noteq (show q ≠ s.alloc from fun hqa => hfresh (hqa ▸ hq))]) hc
  have hnd := hS.nodup_level j
  rw [hL, level_append] at hc' hfresh hnd
  have hunfold : (s.insertNode e h).nextAt j = (splice
      (if h > s.lvl then (fun i => if s.lvl ≤ i ∧ i < h then s.head else s.search e i) else s.search e)
      s.alloc h ({ s with lvl := if h > s.lvl then h else s.lvl }.newNode e)).nextAt j := rfl
  rw [hunfold, splice_nextAt, level_append, level_cons]
  by_cases hj : j < h
  · simp only [hj, if_true]
    rw [grown_update_eq hS hL hA hB hj]
    exact chain_insert hnd hfresh hc'
  · simp only [hj, if_false]
    exact hc'

/-- Inserting the entry of a user with no node leaves a well-formed board, with the fresh tower
    between the towers that precede the entry and those that follow it. -/
theorem insertNode_shape (hnone : s.byUser e.user = none) (hh : 1 ≤ h ∧ h ≤ maxLevel) :
    Shape (s.insertNode e h) (A ++ (s.alloc, h) :: B) := by
  have hmem : ∀ t, t ∈ A ++ (s.alloc, h) :: B ↔ t = (s.alloc, h) ∨ t ∈ L := by
    intro t; rw [hL]; simp [or_left_comm]
  have hold : ∀ t ∈ L, t.1 ≠ s.alloc := fun t ht hq => lt_irrefl _ (hq ▸ hS.ptr_lt ht)
  have hBe : ∀ t ∈ B, less e (s.nodes t.1).e := fun t ht => by
    have hne : (s.nodes t.1).e ≠ e := fun heq => by
      have := (hS.byUser e.user t.1).2 ⟨t.2, hL ▸ List.mem_append_right _ ht, by rw [heq]⟩
      rw [hnone] at this; cases this
    rcases less_total hne with h₁ | h₁
    · rw [hB t ht] at h₁; cases h₁
    · exact h₁
  have hsorted := hS.sorted
  rw [hL, List.pairwise_append] at hsorted
  have hAold : ∀ t ∈ A, t.1 ≠ s.alloc := fun t ht => hold t (hL ▸ List.mem_append_left _ ht)
  have hBold : ∀ t ∈ B, t.1 ≠ s.alloc := fun t ht => hold t (hL ▸ List.mem_append_right _ ht)
  exact
  { chain := fun j => by simpa using insertNode_chain hS hL hA hB j
    nodup := by
      have hn : s.alloc ∉ s.head :: L.map Prod.fst := fun hm => lt_irrefl _ (hS.alloc _ hm)
      have h₂ := List.nodup_cons.2 ⟨hn, hS.nodup⟩
      rw [hL, List.map_append, ← List.cons_append, ← List.nodup_middle] at h₂
      simpa using h₂
    sorted := by
      simp only [insertNode_e]
      refine List.pairwise_append.2 ⟨?_, List.pairwise_cons.2 ⟨fun t ht => ?_, ?_⟩, ?_⟩
      · exact hsorted.1.imp_of_mem (fun ha hb hr => by simpa [hAold _ ha, hAold _ hb] using hr)
      · simpa [hBold t ht] using hBe t ht
      · exact hsorted.2.1.imp_of_mem (fun ha hb hr => by simpa [hBold _ ha, hBold _ hb] using hr)
      · intro a ha b hb
        rcases List.mem_cons.1 hb with rfl | hb
        · simpa [hAold a ha] using hA a ha
        · simpa [hAold a ha, hBold b hb] using hsorted.2.2 a ha b hb
    height := fun t ht => by
      rw [insertNode_lvl]
      rcases (hmem t).1 ht with rfl | ht
      · split_ifs <;> omega
      · have := hS.height t ht; split_ifs <;> omega
    lvl_pos := by rw [insertNode_lvl]; have := hS.lvl_pos; split_ifs <;> omega
    lvl_le := by rw [insertNode_lvl]; have := hS.lvl_le; split_ifs <;> omega
    lvl_top := by
      rw [insertNode_lvl]
      split_ifs with hg
      · exact .inr ⟨(s.alloc, h), (hmem _).2 (.inl rfl), rfl⟩
      · rcases hS.lvl_top with h₁ | ⟨t, ht, h₁⟩
        · exact .inl h₁
        · exact .inr ⟨t, (hmem t).2 (.inr ht), h₁⟩
    byUser := fun u q => by
      rw [insertNode_byUser, insertNode_e]
      by_cases hu : u = e.user
      · subst hu
        rw [Function.update_same]
        refine ⟨fun hq => ⟨h, (hmem _).2 (.inl (by cases hq; rfl)), by cases hq; simp⟩,
          fun ⟨h', hm, hqu⟩ => ?_⟩
        rcases (hmem _).1 hm with hm | hm
        · cases hm; rfl
        · rw [if_neg (hold _ hm)] at hqu
          have := (hS.byUser _ q).2 ⟨h', hm, hqu⟩
          rw [hnone] at this; cases this
      · rw [Function.update_noteq hu, hS.byUser u q]
        constructor
        · rintro ⟨h', hm, hqu⟩
          exact ⟨h', (hmem _).2 (.inr hm), by rwa [if_neg (hold _ hm)]⟩
        · rintro ⟨h', hm, hqu⟩
          rcases (hmem _).1 hm with hm | hm
          · cases hm; simp at hqu; exact absurd hqu.symm hu
          · exact ⟨h', hm, by rwa [if_neg (hold _ hm)] at hqu⟩
    alloc := fun q hq => by
      rw [insertNode_head] at hq
      rw [insertNode_alloc]
      rcases List.mem_cons.1 hq with rfl | hq
      · exact Nat.lt_succ_of_lt (hS.alloc _ (List.mem_cons_self _ _))
      · obtain ⟨t, ht, rfl⟩ := List.mem_map.1 hq
        rcases (hmem t).1 ht with rfl | ht
        · exact Nat.lt_succ_self _
        · exact Nat.lt_succ_of_lt (hS.ptr_lt ht) }

end Insert

/-! ### Every reachable board -/

@[simp] theorem removeLocked_e (s : SkipList) (user : UserID) (e : Entry) (q : Ptr) :
    ((s.removeLocked user e).nodes q).e = (s.nodes q).e := by
  simp only [removeLocked]; split
  · rfl
  · split_ifs <;> simp

@[simp] theorem removeLocked_alloc (s : SkipList) (user : UserID) (e : Entry) :
    (s.removeLocked user e).alloc = s.alloc := by
  simp only [removeLocked]; split
  · rfl
  · split_ifs <;> simp

theorem randomLevel_go_mem (coin : Nat → Bool) : ∀ fuel lvl, 1 ≤ lvl → lvl ≤ maxLevel →
    1 ≤ randomLevel.go coin fuel lvl ∧ randomLevel.go coin fuel lvl ≤ maxLevel
  | 0, _, h₁, h₂ => ⟨h₁, h₂⟩
  | fuel + 1, lvl, h₁, h₂ => by
    simp only [randomLevel.go]
    split_ifs with h
    · exact randomLevel_go_mem coin fuel (lvl + 1) (by omega) h.1
    · exact ⟨h₁, h₂⟩

/-- `randomLevel` draws a height in `1..maxLevel`. -/
theorem randomLevel_mem (coin : Nat → Bool) : 1 ≤ randomLevel coin ∧ randomLevel coin ≤ maxLevel :=
  randomLevel_go_mem coin maxLevel 1 (le_refl _) (by decide)

theorem randomLevel_go_stop (h : Nat) (hh : h ≤ maxLevel) :
    ∀ fuel lvl, 1 ≤ lvl → lvl ≤ h → h - lvl ≤ fuel → randomLevel.go (fun l => decide (l < h)) fuel lvl = h
  | 0, lvl, _, h₂, h₃ => by simp only [randomLevel.go]; omega
  | fuel + 1, lvl, h₁, h₂, h₃ => by
    simp only [randomLevel.go, decide_eq_true_eq]
    split_ifs with hc
    · exact randomLevel_go_stop h hh fuel (lvl + 1) (by omega) (by omega) (by omega)
    · omega

/-- Every height in `1..maxLevel` is drawn by some outcome of the coin flips. -/
theorem randomLevel_surj {h : Nat} (h₁ : 1 ≤ h) (h₂ : h ≤ maxLevel) :
    randomLevel (fun l => decide (l < h)) = h :=
  randomLevel_go_stop h h₂ maxLevel 1 (le_refl _) h₁ (by omega)

/-- A user's node, removed before re-insertion: the board is well formed and the user is no
    longer indexed. -/
theorem Shape.remove_node {s : SkipList} {L : List Tower} {user : UserID} {p : Ptr}
    (hS : Shape s L) (hb : s.byUser user = some p) : ∃ L', Shape (s.removeLocked user (s.nodes p).e) L' ∧
      (s.removeLocked user (s.nodes p).e).byUser = Function.update s.byUser user none := by
  obtain ⟨h₀, hm, -⟩ := (hS.byUser user p).1 hb
  obtain ⟨X, Y, rfl⟩ := List.append_of_mem hm
  exact ⟨X ++ Y, removeLocked_shape hS hb⟩

/-- A user with no node, inserted: the board is well formed. -/
theorem Shape.insert_node {s : SkipList} {L : List Tower} {e : Entry} {h : Nat} (hS : Shape s L)
    (hnone : s.byUser e.user = none) (hh : 1 ≤ h ∧ h ≤ maxLevel) : ∃ L', Shape (s.insertNode e h) L' := by
  obtain ⟨A, B, hL, hA, hB⟩ := split_sorted (P := fun t : Tower => less (s.nodes t.1).e e)
    (fun a b hab hb => less_trans hab hb) hS.sorted
  exact ⟨_, insertNode_shape hS hL hA hB hnone hh⟩

theorem Shape.update {s : SkipList} {L : List Tower} (hS : Shape s L) (u : UserID) (sc : Int)
    (coin : Nat → Bool) : ∃ L', Shape (s.update u sc coin) L' := by
  unfold SkipList.update
  split
  · next p hb =>
    obtain ⟨L', hS', hb'⟩ := hS.remove_node hb
    exact hS'.insert_node (by simp [hb']) (randomLevel_mem coin)
  · next hb => exact hS.insert_node hb (randomLevel_mem coin)

theorem Shape.remove {s : SkipList} {L : List Tower} (hS : Shape s L) (u : UserID) :
    ∃ L', Shape (s.remove u) L' := by
  unfold SkipList.remove
  split
  · next p hb => exact (hS.remove_node hb).imp fun _ h => h.1
  · exact ⟨L, hS⟩

/-- Every board reached from `NewSkipList` is well formed. -/
theorem run_shape (ops : List Op) : ∃ L, Shape (run ops) L := by
  suffices ∀ s, (∃ L, Shape s L) → ∃ L, Shape (ops.foldl (fun s op => op.apply s) s) L from
    this _ ⟨_, shape_new⟩
  induction ops with
  | nil => exact fun s h => h
  | cons op ops ih =>
    rintro s ⟨L, hS⟩
    apply ih
    cases op with
    | update u sc coin => exact hS.update u sc coin
    | remove u => exact hS.remove u

section Derived

variable {s : SkipList} {L : List Tower} (hS : Shape s L)
include hS

theorem Shape.level_zero : level L 0 = L.map Prod.fst := by
  rw [level, (List.filter_eq_self (p := fun t : Tower => decide (0 < t.2))).2
    fun t ht => decide_eq_true (hS.height t ht).1]

/-- A node is on exactly the levels below its height. -/
theorem Shape.mem_level_iff {t : Tower} (ht : t ∈ L) (i : Nat) : t.1 ∈ level L i ↔ i < t.2 := by
  refine ⟨fun hm => ?_, fun hi => mem_level.2 ⟨t.2, ht, hi⟩⟩
  obtain ⟨h, hm, hi⟩ := mem_level.1 hm
  have := List.inj_on_of_nodup_map (List.nodup_cons.1 hS.nodup).2 hm ht rfl
  rw [← this]; exact hi

/-- Every level is in the order of `less`. -/
theorem Shape.level_sorted (j : Nat) :
    (level L j).Pairwise fun p q => less (s.nodes p).e (s.nodes q).e := by
  rw [level, List.pairwise_map]; exact hS.sorted.filter _

theorem Shape.head_next_none {i : Nat} (hi : s.lvl ≤ i) : s.nextAt i s.head = none :=
  (nextAt_head_eq_none hS.chain i).2 fun t ht => (hS.height t ht).2.trans hi

theorem Shape.head_next_top : s.lvl = 1 ∨ s.nextAt (s.lvl - 1) s.head ≠ none := by
  refine hS.lvl_top.imp_right fun ⟨t, ht, hl⟩ hn => ?_
  have := (nextAt_head_eq_none hS.chain _).1 hn t ht
  have := hS.lvl_pos
  omega

end Derived

/-- The representation invariant of the skip list, on every board reached from `NewSkipList` by
    any calls with any draws: each level is a finite chain of distinct nodes from the head; level 0
    is ordered by `less`; every tower has a height in `1..maxLevel`, its node is on exactly the
    levels below that height, and each level is a subsequence of the one below; `byUser` indexes
    exactly the nodes of level 0, each by its own user; and `lvl` is at least 1, at most
    `maxLevel`, the head links nowhere at or above it, and it links somewhere just below it unless
    `lvl` is 1. -/
theorem reachable_invariant (ops : List Op) : ∃ L : List Tower,
    (∀ i, Chain ((run ops).nextAt i) (run ops).head (level L i)) ∧
    ((run ops).head :: L.map Prod.fst).Nodup ∧
    (level L 0).Pairwise (fun p q => less ((run ops).nodes p).e ((run ops).nodes q).e) ∧
    (∀ t ∈ L, 1 ≤ t.2 ∧ t.2 ≤ maxLevel ∧ ∀ i, t.1 ∈ level L i ↔ i < t.2) ∧
    (∀ i, (level L (i + 1)).Sublist (level L i)) ∧
    (∀ u p, (run ops).byUser u = some p ↔ p ∈ level L 0 ∧ ((run ops).nodes p).e.user = u) ∧
    1 ≤ (run ops).lvl ∧ (run ops).lvl ≤ maxLevel ∧
    (∀ i, (run ops).lvl ≤ i → (run ops).nextAt i (run ops).head = none) ∧
    ((run ops).lvl = 1 ∨ (run ops).nextAt ((run ops).lvl - 1) (run ops).head ≠ none) := by
  obtain ⟨L, hS⟩ := run_shape ops
  refine ⟨L, hS.chain, hS.nodup, ?_, fun t ht => ⟨(hS.height t ht).1,
    (hS.height t ht).2.trans hS.lvl_le, hS.mem_level_iff ht⟩, level_succ_sublist L,
    fun u p => ?_, hS.lvl_pos, hS.lvl_le, fun i => hS.head_next_none, hS.head_next_top⟩
  · rw [hS.level_zero, List.pairwise_map]; exact hS.sorted
  · rw [hS.byUser, hS.level_zero]
    simp only [List.mem_map, Prod.exists, exists_and_right, exists_eq_right]

/-! ### The update vector -/

section UpdateVector

variable {s : SkipList} {L : List Tower} (hS : Shape s L)
include hS

/-- The search records on every level the last node before `e` there, or the head. -/
theorem Shape.search_eq_lastBefore (e : Entry) (i : Nat) : s.search e i = lastBefore s L e i := by
  obtain ⟨A, B, hL, hA, hB⟩ := split_sorted (P := fun t : Tower => less (s.nodes t.1).e e)
    (fun a b hab hb => less_trans hab hb) hS.sorted
  rw [search_eq hS hL hA hB, lastBefore_eq hL hA hB]

/-- For the entry of a node of height `h`, the search links to the node on each level below `h`. -/
theorem Shape.search_next {x : Ptr} {h i : Nat} (hx : (x, h) ∈ L) (hi : i < h) :
    s.nextAt i (s.search (s.nodes x).e i) = some x := by
  obtain ⟨X, Y, rfl⟩ := List.append_of_mem hx
  exact search_next hS hi

/-- `removeLocked` of a present user's own entry takes the user's node off every level: the board
    lays out the other towers. -/
theorem Shape.removeLocked_erase {user : UserID} {x : Ptr} {h : Nat} (hb : s.byUser user = some x)
    (hx : (x, h) ∈ L) :
    Shape (s.removeLocked user (s.nodes x).e) (L.erase (x, h)) ∧ ∀ i, x ∉ level (L.erase (x, h)) i := by
  obtain ⟨X, Y, rfl⟩ := List.append_of_mem hx
  have hX : (x, h) ∉ X := fun hm =>
    not_mem_after hS (List.mem_map_of_mem Prod.fst (List.mem_append_left Y hm))
  rw [List.erase_append_right _ hX, List.erase_cons_head]
  exact ⟨(removeLocked_shape hS hb).1, fun i hi => not_mem_after hS ((level_sublist _ i).subset hi)⟩

/-- On each level of the new tower, the splice puts the fresh node right after the last node before
    `e`, and links it to that node's old successor. -/
theorem Shape.insertNode_splice {e : Entry} {h j : Nat} (hj : j < h) :
    (s.insertNode e h).nextAt j (lastBefore s L e j) = some s.alloc ∧
      (s.insertNode e h).nextAt j s.alloc = s.nextAt j (lastBefore s L e j) := by
  obtain ⟨A, B, hL, hA, hB⟩ := split_sorted (P := fun t : Tower => less (s.nodes t.1).e e)
    (fun a b hab hb => less_trans hab hb) hS.sorted
  have hc := @insertNode_chain s e h L A B hS hL hA hB j
  have hold := hS.chain j
  rw [level_append, level_cons, if_pos (show j < (s.alloc, h).2 from hj)] at hc
  rw [hL, level_append] at hold
  rw [lastBefore_eq hL hA hB, chain_next_getLastD hc, chain_next_getLastD hold]
  exact ⟨rfl, by simpa using chain_next_getLastD (show Chain _ s.alloc ([] ++ level B j) from
    chain_suffix hc)⟩

end UpdateVector

/-- The search shared by `Update` and `removeLocked`, on a well-formed board, for any entry `e`:
    its walks never run out of fuel, and it records on every level below `lvl` the last node
    before `e` there, or the head. For the entry of a node of the board it therefore links to that
    node on every level below the node's height, so `removeLocked` takes the node off every level
    it is on; and the insertion of `Update` splices the fresh node right after the recorded node
    on each of its levels, before that node's old successor, leaving every level in order. -/
theorem search_update_vector {s : SkipList} {L : List Tower} (hS : Shape s L) (e : Entry) :
    (∀ i < s.lvl, s.search e i = lastBefore s L e i) ∧
    (∀ x h, (x, h) ∈ L → ∀ i < h, s.nextAt i (s.search (s.nodes x).e i) = some x) ∧
    (∀ user x h, s.byUser user = some x → (x, h) ∈ L →
      Shape (s.removeLocked user (s.nodes x).e) (L.erase (x, h)) ∧
        ∀ i, x ∉ level (L.erase (x, h)) i) ∧
    (∀ h j, j < h → (s.insertNode e h).nextAt j (lastBefore s L e j) = some s.alloc ∧
      (s.insertNode e h).nextAt j s.alloc = s.nextAt j (lastBefore s L e j)) ∧
    (s.byUser e.user = none → ∀ h, 1 ≤ h → h ≤ maxLevel → ∃ L', Shape (s.insertNode e h) L' ∧
      ∀ j, (level L' j).Pairwise fun p q =>
        less ((s.insertNode e h).nodes p).e ((s.insertNode e h).nodes q).e) :=
  ⟨fun i _ => hS.search_eq_lastBefore e i, fun _ _ hx _ hi => hS.search_next hx hi,
    fun _ _ _ hb hx => hS.removeLocked_erase hb hx, fun _ _ hj => hS.insertNode_splice hj,
    fun hnone _ h₁ h₂ => (hS.insert_node hnone ⟨h₁, h₂⟩).imp fun _ hS' => ⟨hS', hS'.level_sorted⟩⟩

/-- The search lemma on a board where `alice` scored 10 with a tower of one level and `bob` 20
    with one of two, searched for `carol` at 15. -/
theorem search_update_vector_run :
    let s := run [.update (Go.lit "alice") 10 fun _ => false, .update (Go.lit "bob") 20 fun l => l = 1]
    let e : Entry := ⟨Go.lit "carol", 15⟩
    s.byUser (Go.lit "alice") = some 1 ∧ s.byUser (Go.lit "bob") = some 2 ∧ ∃ L, Shape s L ∧
      ((∀ i < s.lvl, s.search e i = lastBefore s L e i) ∧
      (∀ x h, (x, h) ∈ L → ∀ i < h, s.nextAt i (s.search (s.nodes x).e i) = some x) ∧
      (∀ user x h, s.byUser user = some x → (x, h) ∈ L →
        Shape (s.removeLocked user (s.nodes x).e) (L.erase (x, h)) ∧ ∀ i, x ∉ level (L.erase (x, h)) i) ∧
      (∀ h j, j < h → (s.insertNode e h).nextAt j (lastBefore s L e j) = some s.alloc ∧
        (s.insertNode e h).nextAt j s.alloc = s.nextAt j (lastBefore s L e j)) ∧
      (s.byUser e.user = none → ∀ h, 1 ≤ h → h ≤ maxLevel → ∃ L', Shape (s.insertNode e h) L' ∧
        ∀ j, (level L' j).Pairwise fun p q =>
          less ((s.insertNode e h).nodes p).e ((s.insertNode e h).nodes q).e)) :=
  let ⟨L, hS⟩ := run_shape [.update (Go.lit "alice") 10 fun _ => false, .update (Go.lit "bob") 20 fun l => l = 1]
  ⟨by decide, by decide, L, hS, search_update_vector hS _⟩

end GamifyKit.Leaderboard
