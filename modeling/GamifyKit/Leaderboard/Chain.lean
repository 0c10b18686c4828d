import GamifyKit.Leaderboard.SkipList

/-! Linked chains in the node heap.

    `Chain nx p xs` says that following the links `nx` from node `p` visits exactly the nodes `xs`
    and then reaches `nil`. Each level of the skip list is such a chain from the head, so the
    splice and unlink loops become list insertion and deletion: `chain_insert` and `chain_remove`
    say what one round of either does to a chain, given that the nodes are distinct. -/

namespace GamifyKit.Leaderboard

/-- Following `nx` from `p` visits `xs`, then `nil`. -/
def Chain (nx : Ptr → Option Ptr) : Ptr → List Ptr → Prop
  | p, [] => nx p = none
  | p, q :: qs => nx p = some q ∧ Chain nx q qs

variable {nx nx' : Ptr → Option Ptr}

@[simp] theorem chain_nil {p : Ptr} : Chain nx p [] ↔ nx p = none := Iff.rfl

@[simp] theorem chain_cons {p q : Ptr} {qs : List Ptr} :
    Chain nx p (q :: qs) ↔ nx p = some q ∧ Chain nx q qs := Iff.rfl

/-- A chain only reads the links of the nodes it visits. -/
theorem chain_congr : ∀ {p : Ptr} {xs : List Ptr}, (∀ q ∈ p :: xs, nx' q = nx q) →
    Chain nx p xs → Chain nx' p xs
  | p, [], h, hc => by simpa [h p (List.mem_cons_self _ _)] using hc
  | p, q :: qs, h, ⟨hp, hc⟩ =>
    ⟨by rw [h p (List.mem_cons_self _ _), hp],
      chain_congr (fun r hr => h r (List.mem_cons_of_mem _ hr)) hc⟩

/-- A chain keeps its nodes when its first link is taken from another node. -/
theorem chain_redirect {a b : Ptr} {ys : List Ptr} (hc : Chain nx a ys) (hb : nx' b = nx a)
    (hys : ∀ q ∈ ys, nx' q = nx q) : Chain nx' b ys := by
  cases ys with
  | nil => simpa [hb] using hc
  | cons y ys =>
    exact ⟨hb.trans hc.1, chain_congr (fun r hr => hys r hr) hc.2⟩

/-- The part of a chain after one of its nodes is the chain from that node. -/
theorem chain_suffix : ∀ {p c : Ptr} {xs ys : List Ptr}, Chain nx p (xs ++ c :: ys) → Chain nx c ys
  | _, _, [], _, hc => hc.2
  | _, _, _ :: _, _, hc => chain_suffix hc.2

theorem getLastD_append_cons : ∀ (xs : List Ptr) (p c : Ptr) (ys : List Ptr),
    (xs ++ c :: ys).getLastD p = ys.getLastD c
  | [], p, c, ys => List.getLastD_cons p c ys
  | x :: xs, p, c, ys => by
    rw [List.cons_append, List.getLastD_cons, getLastD_append_cons xs x c ys]

/-- The link out of the last node of a prefix leads to the rest of the chain. -/
theorem chain_next_getLastD : ∀ {p : Ptr} {xs ys : List Ptr}, Chain nx p (xs ++ ys) →
    nx (xs.getLastD p) = ys.head?
  | _, [], [], hc => hc
  | _, [], _ :: _, hc => hc.1
  | _, x :: xs, ys, hc => by
    rw [List.getLastD_cons]; exact chain_next_getLastD hc.2

/-- One round of the splice loop: node `n` goes in after the last node of `xs`. -/
theorem chain_insert {n : Ptr} : ∀ {p : Ptr} {xs ys : List Ptr}, (p :: (xs ++ ys)).Nodup →
    n ∉ p :: (xs ++ ys) → Chain nx p (xs ++ ys) →
    Chain (Function.update (Function.update nx n (nx (xs.getLastD p))) (xs.getLastD p) (some n))
      p (xs ++ n :: ys)
  | p, [], ys, hd, hn, hc => by
    simp only [List.nil_append, List.mem_cons, not_or] at hd hn
    simp only [List.getLastD_nil, List.nil_append, chain_cons, Function.update_same, true_and]
    refine chain_redirect hc (by simp [hn.1]) (fun q hq => ?_)
    have hqn : q ≠ n := fun h => hn.2 (h ▸ hq)
    have hqp : q ≠ p := fun h => (List.nodup_cons.1 hd).1 (h ▸ hq)
    simp [hqn, hqp]
  | p, x :: xs, ys, hd, hn, hc => by
    have hu : (x :: xs).getLastD p ∈ x :: xs := by
      rw [List.getLastD_cons]; exact List.getLastD_mem_cons xs x
    have hpu : p ≠ (x :: xs).getLastD p := fun h =>
      (List.nodup_cons.1 hd).1 (List.mem_append_left _ (h ▸ hu))
    have hpn : p ≠ n := fun h => hn (h ▸ List.mem_cons_self _ _)
    refine ⟨by simp [Function.update_noteq hpu, Function.update_noteq hpn, hc.1], ?_⟩
    rw [List.getLastD_cons]
    exact chain_insert (List.nodup_cons.1 hd).2 (fun h => hn (List.mem_cons_of_mem _ h)) hc.2

/-- One round of the unlink loop: node `t` leaves, its predecessor taking over its link. -/
theorem chain_remove {t : Ptr} : ∀ {p : Ptr} {xs ys : List Ptr}, (p :: (xs ++ t :: ys)).Nodup →
    Chain nx p (xs ++ t :: ys) →
    Chain (Function.update nx (xs.getLastD p) (nx t)) p (xs ++ ys)
  | p, [], ys, hd, hc => by
    simp only [List.nil_append, List.nodup_cons, List.mem_cons, not_or] at hd
    refine chain_redirect hc.2 (by rw [List.getLastD_nil, Function.update_same]) (fun q hq => ?_)
    have hqp : q ≠ p := fun h => hd.1.2 (h ▸ hq)
    simp [hqp]
  | p, x :: xs, ys, hd, hc => by
    have hu : (x :: xs).getLastD p ∈ x :: xs := by
      rw [List.getLastD_cons]; exact List.getLastD_mem_cons xs x
    have hpu : p ≠ (x :: xs).getLastD p := fun h =>
      (List.nodup_cons.1 hd).1 (List.mem_append_left _ (h ▸ hu))
    refine ⟨by simp [Function.update_noteq hpu, hc.1], ?_⟩
    rw [List.getLastD_cons]
    exact chain_remove (List.nodup_cons.1 hd).2 hc.2

end GamifyKit.Leaderboard
