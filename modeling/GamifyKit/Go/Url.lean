import GamifyKit.Go.Utf8

/-! `net/url` as the SDK and the server use it: `url.PathEscape` on the client, and the
    unescaping that gives a server request its `URL.Path`.

    `PathEscape` is `escape(s, encodePathSegment)`: letters, digits and `-_.~` stay, so do the
    reserved bytes `$&+:=@` that a path segment may hold, and every other byte, `/` `;` `,` `?`
    and `%` included, becomes `%XX` in upper-case hex. The server parses the request target with
    `url.ParseRequestURI`, whose `unescape(p, encodePath)` turns each `%XX` back into its byte and
    rejects a `%` that two hex digits do not follow. An escaped segment reads back as the segment,
    whatever follows it (`unescape_PathEscape`). -/

namespace GamifyKit.Go

/-- `shouldEscape(c, encodePathSegment)`. -/
def shouldEscapeSegment (c : UInt8) : Bool :=
  let x := c.toNat
  if 0x61 ≤ x && x ≤ 0x7A || 0x41 ≤ x && x ≤ 0x5A || 0x30 ≤ x && x ≤ 0x39 then false
  else if x = 0x2D || x = 0x5F || x = 0x2E || x = 0x7E then false
  else if x = 0x24 || x = 0x26 || x = 0x2B || x = 0x2C || x = 0x2F || x = 0x3A || x = 0x3B ||
      x = 0x3D || x = 0x3F || x = 0x40 then x = 0x2F || x = 0x3B || x = 0x2C || x = 0x3F
  else true

/-- The digit `"0123456789ABCDEF"[n]` that `escape` writes. -/
def upperhex (n : Nat) : UInt8 := if n < 10 then UInt8.ofNat (0x30 + n) else UInt8.ofNat (0x37 + n)

/-- `url.PathEscape`. -/
def PathEscape (s : GoString) : GoString :=
  s.flatMap fun c =>
    if shouldEscapeSegment c then [0x25, upperhex (c.toNat / 16), upperhex (c.toNat % 16)] else [c]

/-- `ishex`. -/
def ishex (c : UInt8) : Bool :=
  let x := c.toNat
  0x30 ≤ x && x ≤ 0x39 || 0x61 ≤ x && x ≤ 0x66 || 0x41 ≤ x && x ≤ 0x46

/-- `unhex`. -/
def unhex (c : UInt8) : Nat :=
  let x := c.toNat
  if 0x30 ≤ x ∧ x ≤ 0x39 then x - 0x30
  else if 0x61 ≤ x ∧ x ≤ 0x66 then x - 0x57
  else if 0x41 ≤ x ∧ x ≤ 0x46 then x - 0x37
  else 0

/-- `unescape(s, encodePath)`: `none` is the `EscapeError` of a `%` without two hex digits. Go
    checks every escape before it decodes any; failing at the first bad one gives the same
    outcome. -/
def unescape : GoString → Option GoString
  | [] => some []
  | c :: rest =>
    if c = 0x25 then
      match rest with
      | a :: b :: t =>
        if ishex a && ishex b then (unescape t).map (UInt8.ofNat (unhex a * 16 + unhex b) :: ·)
        else none
      | _ => none
    else (unescape rest).map (c :: ·)

theorem upperhex_spec : ∀ n, n < 16 → ishex (upperhex n) = true ∧ unhex (upperhex n) = n := by
  decide

theorem ne_percent_of_kept {c : UInt8} (h : shouldEscapeSegment c = false) : c ≠ 0x25 := by
  rintro rfl
  exact absurd h (by decide)

theorem unescape_cons_of_ne {c : UInt8} (h : c ≠ 0x25) (rest : GoString) :
    unescape (c :: rest) = (unescape rest).map (c :: ·) := by
  match rest with
  | [] | [_] | _ :: _ :: _ => simp [unescape, h]

theorem PathEscape_cons (c : UInt8) (s : GoString) : PathEscape (c :: s) =
    (if shouldEscapeSegment c then [0x25, upperhex (c.toNat / 16), upperhex (c.toNat % 16)] else [c]) ++
      PathEscape s :=
  List.flatMap_cons _ _ _

/-- One escaped byte reads back as the byte. -/
theorem unescape_escaped (c : UInt8) (rest : GoString) :
    unescape (0x25 :: upperhex (c.toNat / 16) :: upperhex (c.toNat % 16) :: rest) =
      (unescape rest).map (c :: ·) := by
  have hc := c.toNat_lt
  obtain ⟨hi, hi'⟩ := upperhex_spec (c.toNat / 16) (by omega)
  obtain ⟨lo, lo'⟩ := upperhex_spec (c.toNat % 16) (by omega)
  have hbyte : UInt8.ofNat (c.toNat / 16 * 16 + c.toNat % 16) = c := ofNat_eq (by omega)
  simp only [unescape, if_pos rfl, hi, lo, Bool.and_self, if_true, hi', lo', hbyte]

/-- An escaped string reads back as the string, whatever follows it. -/
theorem unescape_PathEscape (s rest : GoString) :
    unescape (PathEscape s ++ rest) = (unescape rest).map (s ++ ·) := by
  induction s with
  | nil => simp [PathEscape]
  | cons c s ih =>
    rw [PathEscape_cons, List.append_assoc]
    split
    · rw [List.cons_append, List.cons_append, List.singleton_append, unescape_escaped, ih,
        Option.map_map]
      rfl
    · next hk =>
      rw [List.singleton_append, unescape_cons_of_ne (ne_percent_of_kept (by simpa using hk)), ih,
        Option.map_map]
      rfl

/-- A string without `%` reads back as itself, whatever follows it. -/
theorem unescape_of_no_percent {p : GoString} (h : 0x25 ∉ p) (rest : GoString) :
    unescape (p ++ rest) = (unescape rest).map (p ++ ·) := by
  induction p with
  | nil => simp
  | cons c p ih =>
    rw [List.mem_cons, not_or] at h
    rw [List.cons_append, unescape_cons_of_ne (Ne.symm h.1), ih h.2, Option.map_map]
    rfl

end GamifyKit.Go
