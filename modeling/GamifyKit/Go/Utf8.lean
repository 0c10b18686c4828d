import GamifyKit.Go.Basic

/-! UTF-8 as Go's runtime decodes it.

    A `for _, r := range s` loop, `utf8.DecodeRuneInString`, the functions of `strings` and the
    string encoder of `encoding/json` all cut a string the same way: into the valid encoding of
    one rune, or a single byte that starts none, which decodes to `RuneError` (U+FFFD) with width
    one. A rune (Go's `int32` `rune`) is a natural number here: decoding yields 0 to 0x10FFFF.
    `segments` makes that cut from the tables `first` and `acceptRanges` of `unicode/utf8`,
    and `runeOf` decodes one piece; the cut loses no byte (`flatten_segments`). `encodeRune` is
    `utf8.AppendRune`. Re-encoding the rune of an accepted piece gives the piece back, so
    `coerceUTF8`, which re-encodes every piece as `encoding/json` does, is the identity exactly on
    the pieces of a valid string and turns each invalid byte into the three bytes of U+FFFD. -/

namespace GamifyKit.Go

/-- `utf8.RuneError`, U+FFFD. -/
def RuneError : Nat := 0xFFFD

/-- A continuation byte, `0x80` to `0xBF`. -/
def isTail (b : UInt8) : Bool := 0x80 ≤ b.toNat && b.toNat ≤ 0xBF

/-- The tables `first` and `acceptRanges` of `unicode/utf8`, by sequence length: `b0` leads an
    `n`-byte sequence whose second byte may be `b1`. -/
def accepts (n : Nat) (b0 b1 : UInt8) : Bool :=
  let x := b0.toNat
  let y := b1.toNat
  match n with
  | 2 => 0xC2 ≤ x && x ≤ 0xDF && 0x80 ≤ y && y ≤ 0xBF
  | 3 => x = 0xE0 && 0xA0 ≤ y && y ≤ 0xBF || x = 0xED && 0x80 ≤ y && y ≤ 0x9F ||
      (0xE1 ≤ x && x ≤ 0xEC || 0xEE ≤ x && x ≤ 0xEF) && 0x80 ≤ y && y ≤ 0xBF
  | 4 => x = 0xF0 && 0x90 ≤ y && y ≤ 0xBF || x = 0xF4 && 0x80 ≤ y && y ≤ 0x8F ||
      0xF1 ≤ x && x ≤ 0xF3 && 0x80 ≤ y && y ≤ 0xBF
  | _ => false

/-- A piece that encodes a rune: an ASCII byte or an accepted sequence. -/
def accepted : GoString → Bool
  | [b0] => b0.toNat < 0x80
  | [b0, b1] => accepts 2 b0 b1
  | [b0, b1, b2] => accepts 3 b0 b1 && isTail b2
  | [b0, b1, b2, b3] => accepts 4 b0 b1 && isTail b2 && isTail b3
  | _ => false

/-- The pieces a string decodes into, in order: each an accepted sequence or one byte. A sequence
    cut short by the end of the string decodes as `RuneError` of width one, like any other. -/
def segments : GoString → List GoString
  | b0 :: b1 :: b2 :: b3 :: t =>
    if accepted [b0, b1] then [b0, b1] :: segments (b2 :: b3 :: t)
    else if accepted [b0, b1, b2] then [b0, b1, b2] :: segments (b3 :: t)
    else if accepted [b0, b1, b2, b3] then [b0, b1, b2, b3] :: segments t
    else [b0] :: segments (b1 :: b2 :: b3 :: t)
  | [b0, b1, b2] =>
    if accepted [b0, b1] then [b0, b1] :: segments [b2]
    else if accepted [b0, b1, b2] then [[b0, b1, b2]]
    else [b0] :: segments [b1, b2]
  | [b0, b1] => if accepted [b0, b1] then [[b0, b1]] else [b0] :: segments [b1]
  | [b0] => [[b0]]
  | [] => []

/-- The rune of a piece. `utf8.DecodeRune` masks the lead byte with `0x1F`, `0x0F` or `0x07` and
    the others with `0x3F`; on the accepted ranges the masks subtract `0xC0`, `0xE0`, `0xF0`
    and `0x80`. -/
def runeOf : GoString → Nat
  | [b0] => if b0.toNat < 0x80 then b0.toNat else RuneError
  | [b0, b1] => (b0.toNat - 0xC0) * 0x40 + (b1.toNat - 0x80)
  | [b0, b1, b2] => (b0.toNat - 0xE0) * 0x1000 + (b1.toNat - 0x80) * 0x40 + (b2.toNat - 0x80)
  | [b0, b1, b2, b3] =>
    (b0.toNat - 0xF0) * 0x40000 + (b1.toNat - 0x80) * 0x1000 + (b2.toNat - 0x80) * 0x40 +
      (b3.toNat - 0x80)
  | _ => RuneError

/-- The runes a `for _, r := range s` loop visits. -/
def runes (s : GoString) : List Nat := (segments s).map runeOf

/-- `utf8.AppendRune`: surrogate halves and values past U+10FFFF are written as `RuneError`. -/
def encodeRune (r : Nat) : GoString :=
  if r < 0x80 then [UInt8.ofNat r]
  else if r < 0x800 then [UInt8.ofNat (0xC0 + r / 0x40), UInt8.ofNat (0x80 + r % 0x40)]
  else if 0xD800 ≤ r ∧ r ≤ 0xDFFF ∨ 0x10FFFF < r then [0xEF, 0xBF, 0xBD]
  else if r < 0x10000 then
    [UInt8.ofNat (0xE0 + r / 0x1000), UInt8.ofNat (0x80 + r / 0x40 % 0x40),
      UInt8.ofNat (0x80 + r % 0x40)]
  else
    [UInt8.ofNat (0xF0 + r / 0x40000), UInt8.ofNat (0x80 + r / 0x1000 % 0x40),
      UInt8.ofNat (0x80 + r / 0x40 % 0x40), UInt8.ofNat (0x80 + r % 0x40)]

/-- `utf8.ValidString`: every piece encodes a rune. -/
def ValidString (s : GoString) : Bool := (segments s).all accepted

/-- A string as `encoding/json` writes it and reads it back: each piece re-encoded, so each byte
    that starts no rune becomes U+FFFD. -/
def coerceUTF8 (s : GoString) : GoString := (segments s).flatMap fun g => encodeRune (runeOf g)

/-! ### The cut -/

theorem flatten_segments (s : GoString) : (segments s).flatten = s := by
  induction s using segments.induct <;> rw [segments] <;> (try split_ifs) <;> simp_all

/-- Every piece is accepted or a single byte. -/
theorem segments_piece {s g : GoString} (h : g ∈ segments s) : accepted g ∨ g.length = 1 := by
  induction s using segments.induct <;> rw [segments] at h <;> simp_all <;>
    rcases h with rfl | h <;> simp_all

theorem accepts_ascii {n : Nat} {b0 : UInt8} (b1 : UInt8) (h : b0.toNat < 0x80) :
    accepts n b0 b1 = false := by
  unfold accepts; split <;> simp <;> omega

/-- A string of ASCII bytes is cut into its bytes. -/
theorem segments_ascii : ∀ {s : GoString}, (∀ b ∈ s, b.toNat < 0x80) →
    segments s = s.map fun b => [b] := by
  intro s
  induction s using segments.induct <;> intro h <;> simp_all [segments, accepts_ascii, accepted]

/-! ### Re-encoding -/

theorem ofNat_eq {b : UInt8} {n : Nat} (h : n = b.toNat) : UInt8.ofNat n = b :=
  UInt8.ext (by rw [UInt8.toNat_ofNat_of_lt (h ▸ b.toNat_lt)]; exact h)

theorem accepts_two {b0 b1 : UInt8} (h : accepts 2 b0 b1) :
    0xC2 ≤ b0.toNat ∧ b0.toNat ≤ 0xDF ∧ 0x80 ≤ b1.toNat ∧ b1.toNat ≤ 0xBF := by
  simpa only [accepts, Bool.and_eq_true, decide_eq_true_eq, and_assoc] using h

theorem accepts_three {b0 b1 : UInt8} (h : accepts 3 b0 b1) :
    0xE0 ≤ b0.toNat ∧ b0.toNat ≤ 0xEF ∧ 0x80 ≤ b1.toNat ∧ b1.toNat ≤ 0xBF ∧
      (b0.toNat = 0xE0 → 0xA0 ≤ b1.toNat) ∧ (b0.toNat = 0xED → b1.toNat ≤ 0x9F) := by
  simp only [accepts, Bool.or_eq_true, Bool.and_eq_true, decide_eq_true_eq] at h
  omega

theorem accepts_four {b0 b1 : UInt8} (h : accepts 4 b0 b1) :
    0xF0 ≤ b0.toNat ∧ b0.toNat ≤ 0xF4 ∧ 0x80 ≤ b1.toNat ∧ b1.toNat ≤ 0xBF ∧
      (b0.toNat = 0xF0 → 0x90 ≤ b1.toNat) ∧ (b0.toNat = 0xF4 → b1.toNat ≤ 0x8F) := by
  simp only [accepts, Bool.or_eq_true, Bool.and_eq_true, decide_eq_true_eq] at h
  omega

theorem encodeRune_two {r : Nat} (h : 0x80 ≤ r ∧ r < 0x800) :
    encodeRune r = [UInt8.ofNat (0xC0 + r / 0x40), UInt8.ofNat (0x80 + r % 0x40)] := by
  unfold encodeRune; split_ifs <;> first | rfl | omega

theorem encodeRune_three {r : Nat} (h : 0x800 ≤ r ∧ r < 0x10000 ∧ ¬ (0xD800 ≤ r ∧ r ≤ 0xDFFF)) :
    encodeRune r = [UInt8.ofNat (0xE0 + r / 0x1000), UInt8.ofNat (0x80 + r / 0x40 % 0x40),
      UInt8.ofNat (0x80 + r % 0x40)] := by
  unfold encodeRune; split_ifs <;> first | rfl | omega

theorem encodeRune_four {r : Nat} (h : 0x10000 ≤ r ∧ r ≤ 0x10FFFF) :
    encodeRune r = [UInt8.ofNat (0xF0 + r / 0x40000), UInt8.ofNat (0x80 + r / 0x1000 % 0x40),
      UInt8.ofNat (0x80 + r / 0x40 % 0x40), UInt8.ofNat (0x80 + r % 0x40)] := by
  unfold encodeRune; split_ifs <;> first | rfl | omega

/-- Re-encoding the rune of an accepted piece gives the piece back. -/
theorem encodeRune_runeOf : ∀ {g : GoString}, accepted g → encodeRune (runeOf g) = g
  | [b0], h => by
    have h : b0.toNat < 0x80 := by simpa [accepted] using h
    simp only [runeOf, encodeRune, if_pos h, ofNat_eq rfl]
  | [b0, b1], h => by
    obtain ⟨h₁, h₂, h₃, h₄⟩ := accepts_two h
    rw [encodeRune_two (by simp only [runeOf]; omega), runeOf]
    simp only [List.cons.injEq, and_true]
    exact ⟨ofNat_eq (by omega), ofNat_eq (by omega)⟩
  | [b0, b1, b2], h => by
    simp only [accepted, Bool.and_eq_true] at h
    obtain ⟨h₁, h₂, h₃, h₄, h₅, h₆⟩ := accepts_three h.1
    have ht : 0x80 ≤ b2.toNat ∧ b2.toNat ≤ 0xBF := by simpa [isTail] using h.2
    rw [encodeRune_three (by simp only [runeOf]; omega), runeOf]
    simp only [List.cons.injEq, and_true]
    exact ⟨ofNat_eq (by omega), ofNat_eq (by omega), ofNat_eq (by omega)⟩
  | [b0, b1, b2, b3], h => by
    simp only [accepted, Bool.and_eq_true] at h
    obtain ⟨h₁, h₂, h₃, h₄, h₅, h₆⟩ := accepts_four h.1.1
    have ht : (0x80 ≤ b2.toNat ∧ b2.toNat ≤ 0xBF) ∧ 0x80 ≤ b3.toNat ∧ b3.toNat ≤ 0xBF := by
      simpa [isTail] using And.intro h.1.2 h.2
    rw [encodeRune_four (by simp only [runeOf]; omega), runeOf]
    simp only [List.cons.injEq, and_true]
    exact ⟨ofNat_eq (by omega), ofNat_eq (by omega), ofNat_eq (by omega), ofNat_eq (by omega)⟩

/-- Writing a valid string as JSON and reading it back changes nothing. -/
theorem coerceUTF8_of_valid {s : GoString} (h : ValidString s) : coerceUTF8 s = s := by
  rw [ValidString, List.all_eq_true] at h
  rw [coerceUTF8, List.flatMap, List.map_congr_left fun g hg => encodeRune_runeOf (h g hg),
    List.map_id', flatten_segments]

/-! ### Encoding runes -/

/-- The rune `utf8.AppendRune` writes for `r`: `r` itself, or `RuneError` for a surrogate half
    or a value past U+10FFFF. -/
def scalar (r : Nat) : Nat := if 0xD800 ≤ r ∧ r ≤ 0xDFFF ∨ 0x10FFFF < r then RuneError else r

theorem scalar_of_lt {r : Nat} (h : r < 0xD800) : scalar r = r := by
  rw [scalar, if_neg (by omega)]

/-- Every encoding is one piece the decoder accepts. -/
theorem accepted_encodeRune (r : Nat) : accepted (encodeRune r) = true := by
  unfold encodeRune
  split_ifs with h₁ h₂ h₃ h₄
  · simp [accepted, UInt8.toNat_ofNat_of_lt (by omega : r < 256), h₁]
  · simp only [accepted, accepts, UInt8.toNat_ofNat_of_lt (by omega : 0xC0 + r / 0x40 < 256),
      UInt8.toNat_ofNat_of_lt (by omega : 0x80 + r % 0x40 < 256)]
    simp only [Bool.and_eq_true, decide_eq_true_eq]; omega
  · decide
  · simp only [accepted, accepts, isTail,
      UInt8.toNat_ofNat_of_lt (by omega : 0xE0 + r / 0x1000 < 256),
      UInt8.toNat_ofNat_of_lt (by omega : 0x80 + r / 0x40 % 0x40 < 256),
      UInt8.toNat_ofNat_of_lt (by omega : 0x80 + r % 0x40 < 256)]
    simp only [Bool.and_eq_true, Bool.or_eq_true, decide_eq_true_eq]; omega
  · simp only [accepted, accepts, isTail,
      UInt8.toNat_ofNat_of_lt (by omega : 0xF0 + r / 0x40000 < 256),
      UInt8.toNat_ofNat_of_lt (by omega : 0x80 + r / 0x1000 % 0x40 < 256),
      UInt8.toNat_ofNat_of_lt (by omega : 0x80 + r / 0x40 % 0x40 < 256),
      UInt8.toNat_ofNat_of_lt (by omega : 0x80 + r % 0x40 < 256)]
    simp only [Bool.and_eq_true, Bool.or_eq_true, decide_eq_true_eq]; omega

/-- An encoding decodes to the rune written. -/
theorem runeOf_encodeRune (r : Nat) : runeOf (encodeRune r) = scalar r := by
  unfold encodeRune scalar
  by_cases h₀ : 0xD800 ≤ r ∧ r ≤ 0xDFFF ∨ 0x10FFFF < r
  · rw [if_pos h₀, if_neg (by omega), if_neg (by omega), if_pos h₀]; rfl
  rw [if_neg h₀]
  split_ifs with h₁ h₂ h₃
  · simp [runeOf, UInt8.toNat_ofNat_of_lt (by omega : r < 256), h₁]
  · simp only [runeOf, UInt8.toNat_ofNat_of_lt (by omega : 0xC0 + r / 0x40 < 256),
      UInt8.toNat_ofNat_of_lt (by omega : 0x80 + r % 0x40 < 256)]; omega
  · simp only [runeOf, UInt8.toNat_ofNat_of_lt (by omega : 0xE0 + r / 0x1000 < 256),
      UInt8.toNat_ofNat_of_lt (by omega : 0x80 + r / 0x40 % 0x40 < 256),
      UInt8.toNat_ofNat_of_lt (by omega : 0x80 + r % 0x40 < 256)]; omega
  · simp only [runeOf, UInt8.toNat_ofNat_of_lt (by omega : 0xF0 + r / 0x40000 < 256),
      UInt8.toNat_ofNat_of_lt (by omega : 0x80 + r / 0x1000 % 0x40 < 256),
      UInt8.toNat_ofNat_of_lt (by omega : 0x80 + r / 0x40 % 0x40 < 256),
      UInt8.toNat_ofNat_of_lt (by omega : 0x80 + r % 0x40 < 256)]; omega

theorem encodeRune_scalar (r : Nat) : encodeRune (scalar r) = encodeRune r := by
  unfold scalar
  split_ifs with h
  · rw [show encodeRune RuneError = [0xEF, 0xBF, 0xBD] from rfl, encodeRune, if_neg (by omega),
      if_neg (by omega), if_pos h]
  · rfl

/-! ### The cut of a prefix -/

/-- The decoder cuts an accepted piece off the front of a string whatever follows it. -/
theorem segments_append_of_accepted {g : GoString} (hg : accepted g = true) (rest : GoString) :
    segments (g ++ rest) = g :: segments rest := by
  match g, rest with
  | [b0], rest =>
    have h : b0.toNat < 0x80 := by simpa [accepted] using hg
    match rest with
    | [] => rfl
    | [b1] => simp [segments, accepted, accepts_ascii _ h]
    | [b1, b2] => simp [segments, accepted, accepts_ascii _ h]
    | b1 :: b2 :: b3 :: t => simp [segments, accepted, accepts_ascii _ h]
  | [b0, b1], rest =>
    match rest with
    | [] => simp [segments, hg]
    | [b2] => simp [segments, hg]
    | b2 :: b3 :: t => simp [segments, hg]
  | [b0, b1, b2], rest =>
    simp only [accepted, Bool.and_eq_true] at hg
    have := accepts_three hg.1
    have h₂ : accepts 2 b0 b1 = false := by
      unfold accepts; simp only [Bool.and_eq_false_iff, decide_eq_false_iff_not]; omega
    match rest with
    | [] => simp [segments, accepted, h₂, hg]
    | b3 :: t => simp [segments, accepted, h₂, hg]
  | [b0, b1, b2, b3], rest =>
    simp only [accepted, Bool.and_eq_true] at hg
    have := accepts_four hg.1.1
    have h₂ : accepts 2 b0 b1 = false := by
      unfold accepts; simp only [Bool.and_eq_false_iff, decide_eq_false_iff_not]; omega
    have h₃ : accepts 3 b0 b1 = false := by
      unfold accepts
      simp only [Bool.or_eq_false_iff, Bool.and_eq_false_iff, decide_eq_false_iff_not]; omega
    simp [segments, accepted, h₂, h₃, hg]

/-- A byte the decoder takes alone stays alone when fewer bytes follow it. -/
theorem segments_single_prefix {b : UInt8} {r u : GoString}
    (h : segments (b :: r ++ u) = [b] :: segments (r ++ u)) :
    segments (b :: r) = [b] :: segments r := by
  match r, u with
  | [], _ => rfl
  | [_], [] | [_, _], [] => exact h
  | [_], [_] | [_], _ :: _ :: _ | [_, _], _ :: _ | _ :: _ :: _ :: _, _ =>
    simp only [List.singleton_append, List.cons_append, List.nil_append, segments] at h ⊢
    split_ifs at h ⊢ <;> simp_all

/-- The pieces after the first are the pieces of the bytes after it. -/
theorem segments_tail {s g : GoString} {P : List GoString} (h : segments s = g :: P) :
    segments P.flatten = P := by
  induction s using segments.induct <;> simp only [segments] at h <;> (try split_ifs at h) <;>
    cases h <;> first | rfl | rw [flatten_segments] | simp_all [segments]

/-- The first `k` pieces are the pieces of their bytes. -/
theorem segments_take : ∀ (k : Nat) (s : GoString),
    segments ((segments s).take k).flatten = (segments s).take k
  | 0, s => rfl
  | k + 1, s => by
    rcases h : segments s with _ | ⟨g, P⟩
    · rfl
    · have hs : s = g ++ P.flatten := by rw [← flatten_segments s, h, List.flatten_cons]
      have ih := segments_take k P.flatten
      rw [segments_tail h] at ih
      rw [List.take_succ_cons, List.flatten_cons]
      rcases segments_piece (h ▸ List.mem_cons_self g P : g ∈ segments s) with hg | hg
      · rw [segments_append_of_accepted hg, ih]
      · obtain ⟨b, rfl⟩ := List.length_eq_one.1 hg
        have hP : segments (b :: P.flatten) = [b] :: segments P.flatten := by
          rw [segments_tail h, ← h, hs]; rfl
        rw [← List.take_append_drop k P, List.flatten_append] at hP
        rw [List.singleton_append, segments_single_prefix (by simpa using hP), ih]

/-- The pieces left after dropping leading pieces are the pieces of their bytes. -/
theorem segments_dropWhile (p : GoString → Bool) : ∀ {P : List GoString} {s : GoString},
    segments s = P → segments (P.dropWhile p).flatten = P.dropWhile p
  | [], _, _ => rfl
  | g :: P, s, h => by
    rw [List.dropWhile_cons]
    split
    · exact segments_dropWhile p (segments_tail h)
    · rw [← h, flatten_segments]

/-- Runes written one after another are cut back into their encodings. -/
theorem segments_flatMap_encodeRune (f : Nat → Nat) : ∀ rs : List Nat,
    segments (rs.flatMap fun r => encodeRune (f r)) = rs.map fun r => encodeRune (f r)
  | [] => rfl
  | r :: rs => by
    rw [List.flatMap_cons, segments_append_of_accepted (accepted_encodeRune _),
      segments_flatMap_encodeRune f rs, List.map_cons]

theorem runes_flatMap_encodeRune (f : Nat → Nat) (rs : List Nat) :
    runes (rs.flatMap fun r => encodeRune (f r)) = rs.map fun r => scalar (f r) := by
  rw [runes, segments_flatMap_encodeRune, List.map_map]
  exact List.map_congr_left fun r _ => runeOf_encodeRune (f r)

/-! ### ASCII runes -/

/-- A piece whose rune is ASCII is that one byte. -/
theorem piece_of_ascii {s g : GoString} (hg : g ∈ segments s) (h : runeOf g < 0x80) :
    g = [UInt8.ofNat (runeOf g)] := by
  rcases segments_piece hg with ha | hl
  · calc g = encodeRune (runeOf g) := (encodeRune_runeOf ha).symm
      _ = _ := if_pos h
  · obtain ⟨b, rfl⟩ := List.length_eq_one.1 hl
    have hb : b.toNat < 0x80 := by
      by_contra hb; rw [runeOf, if_neg hb] at h; exact absurd h (by decide)
    rw [runeOf, if_pos hb, ofNat_eq rfl]

/-- For a test that holds of ASCII runes only, every rune of a string passes it exactly when every
    byte does. -/
theorem runes_all_iff {p : Nat → Bool} (hp : ∀ r, p r = true → r < 0x80) (s : GoString) :
    (runes s).all p = true ↔ ∀ c ∈ s, p c.toNat = true := by
  constructor
  · intro h c hc
    rw [← flatten_segments s, List.mem_flatten] at hc
    obtain ⟨g, hg, hcg⟩ := hc
    have hr : p (runeOf g) = true := List.all_eq_true.1 h _ (List.mem_map_of_mem _ hg)
    rw [piece_of_ascii hg (hp _ hr), List.mem_singleton] at hcg
    rwa [hcg, UInt8.toNat_ofNat_of_lt (lt_trans (hp _ hr) (by decide))]
  · intro h
    rw [runes, segments_ascii fun c hc => hp _ (h c hc), List.map_map, List.all_eq_true]
    intro r hr
    obtain ⟨c, hc, rfl⟩ := List.mem_map.1 hr
    simpa [runeOf, hp _ (h c hc)] using h c hc

end GamifyKit.Go
