import GamifyKit.Go.Basic

/-! Decimal numbers as the analytics keys write them.

    `time.Time.Format` writes the year, month and day with the `appendInt` of package `time`,
    and `fmt.Sprintf` writes the ISO year and week with `%d` and `%02d`; on an `int` all of them
    write a `-` for a negative value, then the decimal digits padded with `0` to a width.
    Reading the digits back gives the value (`intVal_appendInt`), which is how the keys built
    from them are told apart. -/

namespace GamifyKit.Go

/-- The digit byte `'0' + u`. -/
def digit (u : Nat) : UInt8 := UInt8.ofNat (0x30 + u)

/-- The decimal digits of `u`, most significant first; `fuel` bounds their number. -/
def decimalAux : Nat → Nat → GoString
  | 0, _ => []
  | fuel + 1, u => (if u < 10 then [] else decimalAux fuel (u / 10)) ++ [digit (u % 10)]

/-- The decimal digits of `u`, most significant first. -/
def decimal (u : Nat) : GoString := decimalAux (u + 1) u

/-- `appendInt(nil, x, width)` of package `time`: a `-` for a negative `x`, then the digits of
    `|x|` padded with `0` to `width`. Its fast paths for two and four digits write the same
    bytes. `fmt`'s `%d` and `%02d` write an `int` the same way, with width 0 and 2. -/
def appendInt (x : Int) (width : Nat) : GoString :=
  (if x < 0 then [0x2D] else []) ++
    List.replicate (width - (decimal x.natAbs).length) 0x30 ++ decimal x.natAbs

/-- The value of a string of digits, read from the left. -/
def digitsVal (s : GoString) : Nat := s.foldl (fun acc b => 10 * acc + (b.toNat - 0x30)) 0

/-- The value of what `appendInt` writes. -/
def intVal (s : GoString) : Int :=
  match s with
  | 0x2D :: t => -(digitsVal t : Int)
  | _ => digitsVal s

/-! ### Reading back -/

theorem digit_toNat {u : Nat} (h : u < 10) : (digit u).toNat = 0x30 + u :=
  UInt8.toNat_ofNat_of_lt (by show 0x30 + u < 256; omega)

theorem digitsVal_append_digit (s : GoString) {u : Nat} (h : u < 10) :
    digitsVal (s ++ [digit u]) = 10 * digitsVal s + u := by
  rw [digitsVal, List.foldl_append, ← digitsVal]
  simp [digit_toNat h]

theorem decimalAux_eq {fuel u : Nat} (h : u < 10 ^ fuel) :
    digitsVal (decimalAux fuel u) = u := by
  induction fuel generalizing u with
  | zero => simp at h; subst h; rfl
  | succ f ih =>
    rw [decimalAux, digitsVal_append_digit _ (Nat.mod_lt _ (by omega))]
    split_ifs with hu
    · simp [digitsVal]; omega
    · rw [ih (by rw [pow_succ] at h; omega)]; omega

theorem digitsVal_decimal (u : Nat) : digitsVal (decimal u) = u :=
  decimalAux_eq (by have := Nat.lt_pow_self (by decide : 1 < 10) (u + 1); omega)

theorem digitsVal_zeros (k : Nat) (s : GoString) : digitsVal (List.replicate k 0x30 ++ s) = digitsVal s := by
  induction k with
  | zero => rfl
  | succ k ih => rw [List.replicate_succ, List.cons_append, digitsVal, List.foldl_cons]; exact ih

theorem decimalAux_digits : ∀ (fuel u : Nat), ∀ b ∈ decimalAux fuel u, 0x30 ≤ b.toNat ∧ b.toNat ≤ 0x39
  | 0, _ => by simp [decimalAux]
  | f + 1, u => by
    intro b hb
    rw [decimalAux, List.mem_append, List.mem_singleton] at hb
    rcases hb with hb | rfl
    · split_ifs at hb
      · simp at hb
      · exact decimalAux_digits f _ b hb
    · rw [digit_toNat (Nat.mod_lt _ (by omega))]; omega

theorem decimal_ne_nil (u : Nat) : decimal u ≠ [] := by
  simp [decimal, decimalAux]

theorem intVal_of_head {s : GoString} (h : ∀ b ∈ s.head?, b ≠ 0x2D) : intVal s = digitsVal s := by
  match s, h with
  | [], _ => rfl
  | b :: t, h =>
    have hb : b ≠ 0x2D := h b rfl
    simp only [intVal]
    split
    · next heq => cases heq; exact absurd rfl hb
    · rfl

theorem intVal_appendInt (x : Int) (width : Nat) : intVal (appendInt x width) = x := by
  unfold appendInt
  split_ifs with hx
  · simp only [List.singleton_append, List.cons_append, List.nil_append, intVal, digitsVal_zeros,
      digitsVal_decimal]
    omega
  · rw [List.nil_append, intVal_of_head, digitsVal_zeros, digitsVal_decimal]
    · omega
    rcases width - (decimal x.natAbs).length with _ | k
    · rcases hd : decimal x.natAbs with _ | ⟨b, t⟩
      · exact absurd hd (decimal_ne_nil _)
      · have := decimalAux_digits _ _ b (by rw [decimal] at hd; rw [hd]; simp)
        rintro b' hb' rfl
        simp at hb'
        subst hb'
        exact absurd this (by decide)
    · simp [List.replicate_succ]

theorem appendInt_inj {x y : Int} {w : Nat} (h : appendInt x w = appendInt y w) : x = y := by
  simpa only [intVal_appendInt] using congrArg intVal h

/-! ### Two-digit fields -/

theorem decimal_of_lt_ten {u : Nat} (h : u < 10) : decimal u = [digit u] := by
  rw [decimal, decimalAux, if_pos h, Nat.mod_eq_of_lt h]; rfl

theorem decimal_of_lt_hundred {u : Nat} (h₁ : 10 ≤ u) (h₂ : u < 100) :
    decimal u = [digit (u / 10), digit (u % 10)] := by
  obtain ⟨f, hf⟩ : ∃ f, u = f + 1 := ⟨u - 1, by omega⟩
  rw [decimal, decimalAux, if_neg (by omega), hf, decimalAux, if_pos (by omega), ← hf,
    Nat.mod_eq_of_lt (show u / 10 < 10 by omega)]
  rfl

/-- A field of width two below 100 is the two digits `appendInt`'s fast path writes. -/
theorem appendInt_two {x : Int} (h₀ : 0 ≤ x) (h₁ : x < 100) :
    appendInt x 2 = [digit (x.natAbs / 10), digit (x.natAbs % 10)] := by
  rw [appendInt, if_neg (by omega), List.nil_append]
  by_cases h : x.natAbs < 10
  · rw [decimal_of_lt_ten h, Nat.div_eq_of_lt h, Nat.mod_eq_of_lt h]; rfl
  · rw [decimal_of_lt_hundred (by omega) (by omega)]; rfl

theorem length_appendInt_two {x : Int} (h₀ : 0 ≤ x) (h₁ : x < 100) : (appendInt x 2).length = 2 := by
  rw [appendInt_two h₀ h₁]; rfl

end GamifyKit.Go
