import GamifyKit.Go.Utf8

/-! The functions of Go's `strings` and `unicode` packages that the model calls.

    `TrimSpace` drops the leading and trailing runes that `unicode.IsSpace` holds of, and `ToLower`
    lowers every rune; both work on the pieces `segments` cuts, and Go's ASCII fast paths give the
    same strings. `unicode.IsSpace` is transcribed: its Latin-1 switch and the `White_Space` ranges
    above Latin-1 are short. `unicode.ToLower` beyond ASCII reads the Unicode case tables, which
    are not part of this repository; they enter as the parameter `caseTable`, the rune that
    `unicode.To(unicode.LowerCase, r)` gives, and no result below depends on its values. -/

namespace GamifyKit.Go

/-- `unicode.IsSpace`: the Latin-1 switch, then the `White_Space` table. -/
def IsSpace (r : Nat) : Bool :=
  if r ≤ 0xFF then
    r = 0x09 || r = 0x0A || r = 0x0B || r = 0x0C || r = 0x0D || r = 0x20 || r = 0x85 || r = 0xA0
  else
    r = 0x1680 || (0x2000 ≤ r && r ≤ 0x200A) || r = 0x2028 || r = 0x2029 || r = 0x202F ||
      r = 0x205F || r = 0x3000

/-- A piece that decodes to a space; an invalid byte decodes to `RuneError`, which is none. -/
def spaceSeg (g : GoString) : Bool := IsSpace (runeOf g)

/-- `strings.TrimSpace`, that is `TrimFunc(s, unicode.IsSpace)`. Go finds the trailing runes by
    decoding backwards; that stops on a space exactly where the forward cut has one, since every
    space is a valid sequence whose first byte is not a continuation byte. -/
def TrimSpace (s : GoString) : GoString :=
  (((segments s).dropWhile spaceSeg).reverse.dropWhile spaceSeg).reverse.flatten

/-- `unicode.ToLower`: below 0x80, `A` to `Z` move by 32 and the rest stay; above, the case
    table decides. -/
def unicodeToLower (caseTable : Nat → Nat) (r : Nat) : Nat :=
  if r < 0x80 then (if 0x41 ≤ r ∧ r ≤ 0x5A then r + 0x20 else r) else caseTable r

/-- `strings.Map`: a piece that encodes a rune the mapping keeps stays as it is; every other
    piece, an invalid byte included, is replaced by the encoding of its mapped rune. -/
def Map (mapping : Nat → Nat) (s : GoString) : GoString :=
  (segments s).flatMap fun g =>
    if mapping (runeOf g) = runeOf g && accepted g then g else encodeRune (mapping (runeOf g))

/-- The byte `A` to `Z` lowered, as `strings.ToLower`'s ASCII loop writes it. -/
def asciiLower (c : UInt8) : UInt8 := if 0x41 ≤ c.toNat ∧ c.toNat ≤ 0x5A then c + 0x20 else c

/-- `strings.ToLower`: an all-ASCII string is lowered byte by byte; any other string is
    `Map(unicode.ToLower, s)`. -/
def ToLower (caseTable : Nat → Nat) (s : GoString) : GoString :=
  if s.all fun c => c.toNat < 0x80 then s.map asciiLower else Map (unicodeToLower caseTable) s

/-- On an ASCII string `ToLower` reads no case table. -/
theorem ToLower_ascii {s : GoString} (h : ∀ c ∈ s, c.toNat < 0x80) (caseTable : Nat → Nat) :
    ToLower caseTable s = s.map asciiLower := by
  rw [ToLower, if_pos (List.all_eq_true.2 fun c hc => decide_eq_true (h c hc))]

/-! ### `TrimSpace` and `ToLower` piece by piece -/

/-- The pieces `TrimSpace` keeps: those between the spaces at either end. -/
def trimPieces (P : List GoString) : List GoString :=
  ((P.dropWhile spaceSeg).reverse.dropWhile spaceSeg).reverse

@[simp] theorem spaceSeg_encodeRune (r : Nat) : spaceSeg (encodeRune r) = IsSpace (scalar r) := by
  rw [spaceSeg, runeOf_encodeRune]

/-- `TrimSpace` keeps whole pieces: the pieces of its result are those `trimPieces` keeps. -/
theorem segments_TrimSpace (s : GoString) : segments (TrimSpace s) = trimPieces (segments s) := by
  have hD := segments_dropWhile spaceSeg (rfl : segments s = segments s)
  have hpre := List.prefix_iff_eq_take.1
    (List.rdropWhile_prefix spaceSeg ((segments s).dropWhile spaceSeg))
  unfold TrimSpace trimPieces
  unfold List.rdropWhile at hpre
  calc segments (((segments s).dropWhile spaceSeg).reverse.dropWhile spaceSeg).reverse.flatten
      = segments ((segments ((segments s).dropWhile spaceSeg).flatten).take
          (((segments s).dropWhile spaceSeg).reverse.dropWhile spaceSeg).reverse.length).flatten := by
        rw [hD, ← hpre]
    _ = _ := by rw [segments_take, hD, ← hpre]

theorem TrimSpace_eq_nil {s : GoString} : TrimSpace s = [] ↔ trimPieces (segments s) = [] := by
  constructor
  · intro h; rw [← segments_TrimSpace, h]; rfl
  · intro h; rw [TrimSpace, ← trimPieces, h]; rfl

/-- The first piece kept is no space. -/
theorem trimPieces_head (P : List GoString) : ∀ g ∈ (trimPieces P).head?, spaceSeg g = false := by
  intro g hg
  obtain ⟨u, hu⟩ : trimPieces P <+: P.dropWhile spaceSeg := List.rdropWhile_prefix spaceSeg _
  have hd := List.head?_dropWhile_not spaceSeg P
  rw [← hu] at hd
  rcases htp : trimPieces P with _ | ⟨x, xs⟩
  · simp [htp] at hg
  · rw [htp] at hg hd
    simp only [List.head?_cons, Option.mem_def, Option.some.injEq, List.cons_append] at hg hd
    exact hg ▸ hd

/-- The last piece kept is no space. -/
theorem trimPieces_last (P : List GoString) : ∀ g ∈ (trimPieces P).getLast?, spaceSeg g = false := by
  intro g hg
  have hd := List.head?_dropWhile_not spaceSeg (P.dropWhile spaceSeg).reverse
  rw [trimPieces, List.getLast?_reverse, Option.mem_def] at hg
  rw [hg] at hd
  exact hd

theorem trimPieces_of_ends {P : List GoString} (hh : ∀ g ∈ P.head?, spaceSeg g = false)
    (hl : ∀ g ∈ P.getLast?, spaceSeg g = false) : trimPieces P = P := by
  rcases P with _ | ⟨g, P⟩
  · rfl
  · rw [trimPieces, List.dropWhile_cons_of_neg (by simp [hh g rfl])]
    rcases hr : (g :: P).reverse with _ | ⟨x, xs⟩
    · simp at hr
    · have hx : x ∈ (g :: P).getLast? := by rw [← List.head?_reverse, hr]; rfl
      rw [List.dropWhile_cons_of_neg (by simp [hl x hx]), ← hr, List.reverse_reverse]

/-- A string whose first and last pieces are not spaces is its own `TrimSpace`. -/
theorem TrimSpace_eq_self {s : GoString} (hh : ∀ g ∈ (segments s).head?, spaceSeg g = false)
    (hl : ∀ g ∈ (segments s).getLast?, spaceSeg g = false) : TrimSpace s = s := by
  rw [TrimSpace, ← trimPieces, trimPieces_of_ends hh hl, flatten_segments]

/-- `strings.Map` writes the mapped rune of every piece. -/
theorem Map_eq (mapping : Nat → Nat) (s : GoString) :
    Map mapping s = (runes s).flatMap fun r => encodeRune (mapping r) := by
  rw [Map, runes, List.flatMap_map]
  refine List.flatMap_congr fun g _ => ?_
  split
  · next h =>
    simp only [Bool.and_eq_true, decide_eq_true_eq] at h
    rw [h.1, encodeRune_runeOf h.2]
  · rfl

theorem encodeRune_lower_ascii (caseTable : Nat → Nat) {b : UInt8} (h : b.toNat < 0x80) :
    encodeRune (unicodeToLower caseTable b.toNat) = [asciiLower b] := by
  simp only [unicodeToLower, if_pos h, asciiLower]
  split_ifs with hu
  · rw [encodeRune, if_pos (by omega)]
    exact congrArg (· :: []) (ofNat_eq (by show _ = (b.toNat + 0x20) % 256; omega))
  · rw [encodeRune, if_pos h, ofNat_eq rfl]

/-- On both of its paths `ToLower` writes the lowered rune of every piece. -/
theorem ToLower_eq (caseTable : Nat → Nat) (s : GoString) :
    ToLower caseTable s = (runes s).flatMap fun r => encodeRune (unicodeToLower caseTable r) := by
  unfold ToLower
  split
  · next h =>
    have ha : ∀ b ∈ s, b.toNat < 0x80 := fun b hb => by simpa using List.all_eq_true.1 h b hb
    rw [runes, segments_ascii ha, List.map_map, List.flatMap_map, List.map_eq_flatMap]
    refine List.flatMap_congr fun b hb => ?_
    simp only [Function.comp, runeOf, if_pos (ha b hb), encodeRune_lower_ascii caseTable (ha b hb)]
  · exact Map_eq _ _

/-! ### The case table -/

/-- What normalisation needs of Go's lower-case table above ASCII: a lowered rune lowers to
    itself, and lowering makes a space only of a space. Both hold of Unicode's simple lower-case
    mapping. -/
structure LowerCaseTable (caseTable : Nat → Nat) : Prop where
  idem : ∀ r, 0x80 ≤ r → unicodeToLower caseTable (scalar (caseTable r)) = scalar (caseTable r)
  space : ∀ r, 0x80 ≤ r → IsSpace (scalar (caseTable r)) = true → IsSpace r = true

/-- The table that lowers nothing above ASCII is one. -/
theorem lowerCaseTable_id : LowerCaseTable id where
  idem r hr := by
    show unicodeToLower id (scalar r) = scalar r
    unfold unicodeToLower scalar RuneError
    split_ifs <;> first | rfl | omega
  space r _ hs := by
    unfold scalar at hs
    split_ifs at hs
    · exact absurd hs (by decide)
    · exact hs

section
variable {caseTable : Nat → Nat} (h : LowerCaseTable caseTable)
include h

theorem LowerCaseTable.lower_idem (r : Nat) :
    unicodeToLower caseTable (scalar (unicodeToLower caseTable r)) =
      scalar (unicodeToLower caseTable r) := by
  by_cases hr : r < 0x80
  · have hl : unicodeToLower caseTable r < 0x80 := by
      rw [unicodeToLower, if_pos hr]; split_ifs <;> omega
    rw [scalar_of_lt (by omega), unicodeToLower, if_pos hl]
    simp only [unicodeToLower, if_pos hr]
    split_ifs <;> omega
  · rw [show unicodeToLower caseTable r = caseTable r from if_neg hr]
    exact h.idem r (by omega)

theorem LowerCaseTable.lower_space {r : Nat} (hr : IsSpace r = false) :
    IsSpace (scalar (unicodeToLower caseTable r)) = false := by
  by_cases hr' : r < 0x80
  · rw [unicodeToLower, if_pos hr']
    split_ifs with hu
    · rw [scalar_of_lt (by omega), IsSpace, if_pos (by omega)]
      simp only [Bool.or_eq_false_iff, decide_eq_false_iff_not]; omega
    · rwa [scalar_of_lt (by omega)]
  · rw [unicodeToLower, if_neg hr']
    exact Bool.eq_false_iff.2 fun hs => by simp [h.space r (by omega) hs] at hr

end

end GamifyKit.Go
