import GamifyKit.Go.Map
import GamifyKit.Go.Utf8

/-! `encoding/json` as the stores use it: `json.Marshal` of strings and of maps with string keys,
    read back by `json.Unmarshal`.

    The model is the pair's contract, not the byte format. A string comes back with every byte
    that starts no rune replaced by U+FFFD (`coerceUTF8`). A map is written with its keys in
    sorted order and read back by inserting each key, coerced, in that order, so that of two keys
    that coerce to the same string the later one wins (`GoMap.jsonRoundTrip`). On valid UTF-8 both
    are the identity (`jsonRoundTrip_of_valid`). -/

namespace GamifyKit.Go

variable {V : Type}

/-- A map with string keys written by `json.Marshal` and read back by `json.Unmarshal`. -/
def GoMap.jsonRoundTrip (m : GoMap V) : GoMap V :=
  m.entries.foldl (fun acc kv => acc.insert (coerceUTF8 kv.1) kv.2) .empty

/-- Inserting sorted bindings one by one: a key bound in the list gets its binding. -/
theorem find?_foldl_insert (k : GoString) :
    ∀ (l : List (GoString × V)) (acc : GoMap V), l.Pairwise (fun a b => a.1 < b.1) →
      (l.foldl (fun acc kv => acc.insert kv.1 kv.2) acc).find? k = (findKV k l).or (acc.find? k)
  | [], _, _ => rfl
  | b :: t, acc, h => by
    obtain ⟨hb, ht⟩ := List.pairwise_cons.1 h
    rw [List.foldl_cons, find?_foldl_insert k t _ ht, GoMap.find?_insert, findKV]
    by_cases hk : k = b.1
    · subst hk
      rw [findKV_eq_none hb, if_pos rfl, if_pos rfl]
      rfl
    · rw [if_neg hk, if_neg (Ne.symm hk)]

/-- Every key of the map is valid UTF-8, so that `json.Marshal` writes it unchanged. -/
def GoMap.KeysValid (m : GoMap V) : Prop := ∀ kv ∈ m.entries, ValidString kv.1

theorem GoMap.KeysValid.empty : (GoMap.empty : GoMap V).KeysValid := fun _ h => nomatch h

theorem GoMap.KeysValid.insert {m : GoMap V} (hm : m.KeysValid) {k : GoString} (hk : ValidString k)
    (v : V) : (m.insert k v).KeysValid := fun kv h =>
  (mem_insertKV h).elim (fun e => by rw [e]; exact hk) (hm kv)

/-- Reading back a map whose keys are valid UTF-8, each value through `f`, gives the map back
    when `f` gives each of its values back. -/
theorem foldl_coerce_of_valid (m : GoMap V) (f : V → V)
    (h : ∀ kv ∈ m.entries, ValidString kv.1 ∧ f kv.2 = kv.2) :
    m.entries.foldl (fun (acc : GoMap V) kv => acc.insert (coerceUTF8 kv.1) (f kv.2)) .empty = m := by
  have hl : m.entries.foldl (fun (acc : GoMap V) kv => acc.insert (coerceUTF8 kv.1) (f kv.2)) .empty =
      m.entries.foldl (fun (acc : GoMap V) kv => acc.insert kv.1 kv.2) .empty :=
    List.foldl_ext _ _ _ fun acc kv hkv => by rw [coerceUTF8_of_valid (h kv hkv).1, (h kv hkv).2]
  refine GoMap.ext fun k => ?_
  rw [hl, find?_foldl_insert k _ _ m.sorted, GoMap.find?_empty, Option.or_none]
  rfl

/-- On keys that are valid UTF-8 the round trip gives the map back. -/
theorem jsonRoundTrip_of_valid (m : GoMap V) (h : m.KeysValid) : m.jsonRoundTrip = m :=
  foldl_coerce_of_valid m id fun kv hkv => ⟨h kv hkv, rfl⟩

end GamifyKit.Go
