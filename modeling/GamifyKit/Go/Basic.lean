import Mathlib

/-! Go runtime values shared by every package of gamifykit.

    A Go `string` is an immutable sequence of bytes with no encoding promise: it may hold invalid
    UTF-8, and `<` on strings compares bytes lexicographically (a proper prefix is smaller). We
    model it as `List UInt8` under the lexicographic order, so user ids, metrics and badges range
    over every byte string the code can receive. An `int64` is an `Int` together with the range
    check `InInt64`; the one place the code computes in wrapping `int64` arithmetic (`AddSafe`)
    uses `wrap64` explicitly. `maxAlloc` is the allocation ceiling `make` enforces. -/

namespace GamifyKit.Go

/-- Bytes are ordered by value, as Go's `runtime.cmpstring` compares them. -/
instance uint8LinearOrder : LinearOrder UInt8 where
  le_refl := UInt8.le_refl
  le_trans _ _ _ := UInt8.le_trans
  le_antisymm _ _ h₁ h₂ := UInt8.eq_of_toBitVec_eq (BitVec.le_antisymm h₁ h₂)
  le_total := UInt8.le_total
  lt_iff_le_not_le _ _ := ⟨fun h => ⟨(UInt8.le_total _ _).resolve_right fun h' => UInt8.not_lt.2 h' h,
    UInt8.not_le.2 h⟩, fun h => UInt8.not_le.1 h.2⟩
  decidableLE := inferInstance

/-- A Go `string`: its bytes, compared lexicographically. -/
abbrev GoString := List UInt8

/-- The bytes of a Go string literal (its UTF-8 encoding). -/
def lit (s : String) : GoString := s.toUTF8.data.toList

/-- Results of fallible calls compare by their error text or value, so outcomes can be decided. -/
instance exceptDecidableEq {ε α : Type} [DecidableEq ε] [DecidableEq α] : DecidableEq (Except ε α)
  | .error a, .error b => if h : a = b then isTrue (h ▸ rfl) else isFalse (h ∘ Except.error.inj)
  | .ok a, .ok b => if h : a = b then isTrue (h ▸ rfl) else isFalse (h ∘ Except.ok.inj)
  | .error _, .ok _ => isFalse Except.noConfusion
  | .ok _, .error _ => isFalse Except.noConfusion

/-- `math.MaxInt64`. -/
def MaxInt64 : Int := 2 ^ 63 - 1

/-- `math.MinInt64`. -/
def MinInt64 : Int := -2 ^ 63

/-- The values an `int64` can hold. -/
def InInt64 (x : Int) : Prop := MinInt64 ≤ x ∧ x ≤ MaxInt64

instance (x : Int) : Decidable (InInt64 x) := inferInstanceAs (Decidable (_ ∧ _))

/-- Two's-complement wrap-around of `int64` arithmetic. -/
def wrap64 (x : Int) : Int := (x + 2 ^ 63) % 2 ^ 64 - 2 ^ 63

theorem wrap64_of_inInt64 {x : Int} (h : InInt64 x) : wrap64 x = x := by
  unfold InInt64 MinInt64 MaxInt64 at h
  unfold wrap64
  rw [Int.emod_eq_of_lt (by omega) (by omega)]
  omega

/-- Wrapping after each addition is wrapping once at the end. -/
theorem wrap64_add_wrap (a b : Int) : wrap64 (wrap64 a + b) = wrap64 (a + b) := by
  unfold wrap64; omega

theorem wrap64_sub_add_wrap (s a b : Int) : wrap64 (s - a + wrap64 (a + b)) = wrap64 (s + b) := by
  unfold wrap64; omega

theorem inInt64_wrap64 (a : Int) : InInt64 (wrap64 a) := by
  unfold wrap64 InInt64 MinInt64 MaxInt64; omega

/-- `maxAlloc` on 64-bit Linux (`heapAddrBits = 48`): `makeslice` panics with
    "makeslice: cap out of range" when the backing array would be larger. -/
def maxAlloc : Int := 2 ^ 48

end GamifyKit.Go
