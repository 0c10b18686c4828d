import GamifyKit.Go.Basic

/-! Go maps keyed by strings.

    A Go `map[K]V` whose key type is a string is modelled by its bindings listed in increasing byte
    order of the keys, the order `encoding/json` writes them in. Keeping the list sorted makes the
    representation canonical: two maps with the same bindings are the same value, so an equation
    between maps is proved key by key (`GoMap.ext`). Reading an absent key gives `none`; the zero
    value a Go read returns is applied by the caller (`getD`). Insertion replaces in one pass, so
    its lookup lemma needs no sortedness. -/

namespace GamifyKit.Go

variable {V W : Type}

/-- Lookup in a list of bindings. -/
def findKV (k : GoString) : List (GoString × V) → Option V
  | [] => none
  | (k', v) :: t => if k' = k then some v else findKV k t

/-- Sorted insertion, replacing the binding of a present key. -/
def insertKV (k : GoString) (v : V) : List (GoString × V) → List (GoString × V)
  | [] => [(k, v)]
  | (k', v') :: t =>
    if k < k' then (k, v) :: (k', v') :: t
    else if k = k' then (k, v) :: t
    else (k', v') :: insertKV k v t

theorem findKV_insertKV (j k : GoString) (v : V) :
    ∀ l : List (GoString × V), findKV j (insertKV k v l) = if j = k then some v else findKV j l
  | [] => by by_cases h : j = k <;> simp [findKV, insertKV, h, eq_comm]
  | (k', v') :: t => by
    have ih := findKV_insertKV j k v t
    by_cases h₁ : k < k'
    · rw [insertKV, if_pos h₁]; simp [findKV, eq_comm]
    by_cases h₂ : k = k'
    · subst h₂; rw [insertKV, if_neg h₁, if_pos rfl]
      by_cases hj : j = k <;> simp [findKV, hj, eq_comm]
    rw [insertKV, if_neg h₁, if_neg h₂]
    by_cases hj : j = k
    · subst hj; simp [findKV, Ne.symm h₂, ih]
    · simp [findKV, hj, ih]

theorem mem_insertKV {k : GoString} {v : V} {b : GoString × V} :
    ∀ {l : List (GoString × V)}, b ∈ insertKV k v l → b = (k, v) ∨ b ∈ l
  | [], h => by simpa [insertKV] using h
  | (k', v') :: t, h => by
    unfold insertKV at h
    split_ifs at h <;> simp only [List.mem_cons] at h ⊢
    · exact h
    · tauto
    · rcases h with h | h
      · exact .inr (.inl h)
      · rcases mem_insertKV h with h | h <;> tauto

theorem mem_of_findKV {k : GoString} {v : V} :
    ∀ {l : List (GoString × V)}, findKV k l = some v → (k, v) ∈ l
  | [], h => by simp [findKV] at h
  | (k', v') :: t, h => by
    unfold findKV at h
    split_ifs at h with hk
    · cases h; subst hk; exact List.mem_cons_self _ _
    · exact List.mem_cons_of_mem _ (mem_of_findKV h)

/-- In sorted bindings, a binding is what lookup finds. -/
theorem findKV_of_mem {k : GoString} {v : V} :
    ∀ {l : List (GoString × V)}, l.Pairwise (fun a b => a.1 < b.1) → (k, v) ∈ l → findKV k l = some v
  | [], _, h => nomatch h
  | (k', v') :: t, hs, h => by
    obtain ⟨hb, ht⟩ := List.pairwise_cons.1 hs
    rcases List.mem_cons.1 h with h | h
    · cases h; simp [findKV]
    · simp [findKV, (hb _ h).ne, findKV_of_mem ht h]

theorem findKV_eq_none {k : GoString} :
    ∀ {l : List (GoString × V)}, (∀ b ∈ l, k < b.1) → findKV k l = none
  | [], _ => rfl
  | (k', v') :: t, h => by
    have hk : k < k' := h _ (List.mem_cons_self _ _)
    simp [findKV, hk.ne', findKV_eq_none fun b hb => h b (List.mem_cons_of_mem _ hb)]

theorem findKV_filter (j k : GoString) :
    ∀ l : List (GoString × V), findKV j (l.filter fun b => b.1 ≠ k) = if j = k then none else findKV j l
  | [] => by simp [findKV]
  | (k', v') :: t => by
    have ih := findKV_filter j k t
    by_cases hk : k' = k <;> by_cases hj : j = k <;> simp_all [List.filter_cons, findKV, eq_comm]

theorem sorted_insertKV (k : GoString) (v : V) : ∀ {l : List (GoString × V)},
    l.Pairwise (fun a b => a.1 < b.1) → (insertKV k v l).Pairwise (fun a b => a.1 < b.1)
  | [], _ => by simp [insertKV]
  | (k', v') :: t, h => by
    obtain ⟨hb, ht⟩ := List.pairwise_cons.1 h
    unfold insertKV
    split_ifs with h₁ h₂
    · exact .cons (fun c hc => by
        rcases List.mem_cons.1 hc with rfl | hc
        exacts [h₁, h₁.trans (hb c hc)]) h
    · subst h₂; exact .cons hb ht
    · refine .cons (fun c hc => ?_) (sorted_insertKV k v ht)
      rcases mem_insertKV hc with rfl | hc
      exacts [lt_of_le_of_ne (not_lt.1 h₁) (Ne.symm h₂), hb c hc]

/-- Insertion into sorted bindings replaces the value of the key: the values add up to the old
    total, less the key's old value, plus the new one. -/
theorem sum_insertKV (k : GoString) (v : Int) : ∀ {l : List (GoString × Int)},
    l.Pairwise (fun a b => a.1 < b.1) →
      ((insertKV k v l).map Prod.snd).sum = (l.map Prod.snd).sum - (findKV k l).getD 0 + v
  | [], _ => by simp [insertKV, findKV]
  | (k', v') :: t, h => by
    obtain ⟨hb, ht⟩ := List.pairwise_cons.1 h
    unfold insertKV
    split_ifs with h₁ h₂
    · rw [findKV, if_neg (ne_of_gt h₁), findKV_eq_none fun c hc => h₁.trans (hb c hc)]
      simp only [List.map_cons, List.sum_cons, Option.getD_none]
      ring
    · subst h₂
      simp only [findKV, if_true, List.map_cons, List.sum_cons, Option.getD_some]
      ring
    · rw [findKV, if_neg (Ne.symm h₂)]
      simp only [List.map_cons, List.sum_cons, sum_insertKV k v ht]
      ring

/-- A Go map with string keys: its bindings, sorted by key. -/
structure GoMap (V : Type) where
  entries : List (GoString × V)
  sorted : entries.Pairwise (fun a b => a.1 < b.1)

namespace GoMap

/-- The empty map a composite literal such as `map[K]V{}` makes. -/
def empty : GoMap V := ⟨[], .nil⟩

/-- `v, ok := m[k]`. -/
def find? (m : GoMap V) (k : GoString) : Option V := findKV k m.entries

/-- `m[k]`, with the zero value `d` for an absent key. -/
def getD (m : GoMap V) (k : GoString) (d : V) : V := (m.find? k).getD d

/-- `m[k] = v`. -/
def insert (m : GoMap V) (k : GoString) (v : V) : GoMap V :=
  ⟨insertKV k v m.entries, sorted_insertKV k v m.sorted⟩

/-- `delete(m, k)`. -/
def erase (m : GoMap V) (k : GoString) : GoMap V :=
  ⟨m.entries.filter fun b => b.1 ≠ k, m.sorted.filter _⟩

@[simp] theorem find?_empty (k : GoString) : (empty : GoMap V).find? k = none := rfl

@[simp] theorem find?_insert (m : GoMap V) (j k : GoString) (v : V) :
    (m.insert k v).find? j = if j = k then some v else m.find? j :=
  findKV_insertKV j k v m.entries

@[simp] theorem find?_erase (m : GoMap V) (j k : GoString) :
    (m.erase k).find? j = if j = k then none else m.find? j :=
  findKV_filter j k m.entries

/-- A binding of the map is what lookup finds. -/
theorem find?_of_mem {m : GoMap V} {k : GoString} {v : V} (h : (k, v) ∈ m.entries) :
    m.find? k = some v :=
  findKV_of_mem m.sorted h

/-- The keys of a map are distinct. -/
theorem nodup_keys (m : GoMap V) : (m.entries.map Prod.fst).Nodup :=
  (List.pairwise_map.2 m.sorted).imp ne_of_lt

/-- A key is bound in the map exactly when lookup finds it. -/
theorem mem_keys {m : GoMap V} {k : GoString} :
    k ∈ m.entries.map Prod.fst ↔ ∃ v, m.find? k = some v := by
  constructor
  · intro h
    obtain ⟨⟨k', v⟩, hm, rfl⟩ := List.mem_map.1 h
    exact ⟨v, find?_of_mem hm⟩
  · rintro ⟨v, h⟩
    exact List.mem_map_of_mem _ (mem_of_findKV h)

theorem getD_eq (m : GoMap V) (k : GoString) (d : V) : m.getD k d = (m.find? k).getD d := rfl

@[simp] theorem getD_empty (k : GoString) (d : V) : (empty : GoMap V).getD k d = d := rfl

@[simp] theorem getD_insert (m : GoMap V) (j k : GoString) (v d : V) :
    (m.insert k v).getD j d = if j = k then v else m.getD j d := by
  by_cases h : j = k <;> simp [getD, h]

/-- Maps with the same bindings are equal. -/
theorem ext {m m' : GoMap V} (h : ∀ k, m.find? k = m'.find? k) : m = m' := by
  obtain ⟨l, hl⟩ := m
  obtain ⟨l', hl'⟩ := m'
  simp only [find?] at h
  congr
  induction l generalizing l' with
  | nil =>
    cases l' with
    | nil => rfl
    | cons b _ => simpa [findKV] using (h b.1).symm
  | cons b t ih =>
    cases l' with
    | nil => simpa [findKV] using h b.1
    | cons b' t' =>
      have hlt := List.pairwise_cons.1 hl
      have hlt' := List.pairwise_cons.1 hl'
      have hkey : b.1 = b'.1 := by
        rcases lt_trichotomy b.1 b'.1 with hb | hb | hb
        · have := h b.1
          rw [findKV, if_pos rfl, findKV, if_neg hb.ne',
            findKV_eq_none fun c hc => hb.trans (hlt'.1 c hc)] at this
          cases this
        · exact hb
        · have := h b'.1
          rw [findKV, if_neg hb.ne', findKV_eq_none fun c hc => hb.trans (hlt.1 c hc), findKV,
            if_pos rfl] at this
          cases this
      have hval : b.2 = b'.2 := by simpa [findKV, hkey] using h b'.1
      have htail : ∀ k, findKV k t = findKV k t' := fun k => by
        by_cases hk : k = b.1
        · rw [findKV_eq_none (hk ▸ hlt.1), findKV_eq_none (hk ▸ hkey ▸ hlt'.1)]
        · have := h k
          rwa [findKV, if_neg (Ne.symm hk), findKV, if_neg (hkey ▸ Ne.symm hk)] at this
      rw [Prod.ext hkey hval, ih hlt.2 t' hlt'.2 htail]

theorem insert_insert (m : GoMap V) (k : GoString) (v w : V) :
    (m.insert k v).insert k w = m.insert k w :=
  ext fun j => by by_cases h : j = k <;> simp [h]

theorem insert_find? {m : GoMap V} {k : GoString} {v : V} (h : m.find? k = some v) :
    m.insert k v = m :=
  ext fun j => by by_cases hj : j = k <;> simp [hj, h]

theorem sum_insert (m : GoMap Int) (k : GoString) (v : Int) :
    ((m.insert k v).entries.map Prod.snd).sum = (m.entries.map Prod.snd).sum - m.getD k 0 + v :=
  sum_insertKV k v m.sorted

instance [DecidableEq V] : DecidableEq (GoMap V) := fun m m' =>
  decidable_of_iff (m.entries = m'.entries) ⟨fun h => by cases m; cases m'; cases h; rfl,
    fun h => h ▸ rfl⟩

end GoMap

end GamifyKit.Go
