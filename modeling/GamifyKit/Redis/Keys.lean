import GamifyKit.Core.Types

/-! Package `redis`: the key layout, and what Redis does with a key pattern.

    Every key the store writes is `user:{id}:…`, built by `fmt.Sprintf` byte for byte.
    `buildStateFromKeys` finds a user's counters with `KEYS user:{id}:points:*` and reads each
    key's metric back with `redisKeyParts`, which walks the key rune by rune, re-encodes each rune
    as `string(r)` does, and splits at every `:`, dropping empty parts.

    `stringmatch` is Redis's `stringmatchlen` without case folding: `*`, `?`, classes `[…]` with
    `^`, ranges and `\` escapes, where the C code compares bytes as `char`, which is signed, so
    that in a range the bytes from `0x80` on sort below the ASCII ones. The early exit that guards
    `*` against exponential backtracking changes no answer and is left out. -/

namespace GamifyKit.Redis
open GamifyKit.Go GamifyKit.Core

/-! ### Keys -/

/-- `userPointsKey`: `user:{userID}:points:{metric}`. -/
def userPointsKey (userID : UserID) (metric : Metric) : GoString :=
  lit "user:" ++ userID ++ lit ":points:" ++ metric

/-- `userBadgesKey`: `user:{userID}:badges`. -/
def userBadgesKey (userID : UserID) : GoString := lit "user:" ++ userID ++ lit ":badges"

/-- `userLevelsKey`: `user:{userID}:levels:{metric}`. -/
def userLevelsKey (userID : UserID) (metric : Metric) : GoString :=
  lit "user:" ++ userID ++ lit ":levels:" ++ metric

/-- `userStateKey`: `user:{userID}:state`. -/
def userStateKey (userID : UserID) : GoString := lit "user:" ++ userID ++ lit ":state"

/-- The pattern `buildStateFromKeys` gives `KEYS` for `kind`, `points` or `levels`:
    `user:{userID}:{kind}:*`. -/
def kindPattern (kind : GoString) (userID : UserID) : GoString :=
  lit "user:" ++ userID ++ lit ":" ++ kind ++ lit ":*"

/-! ### `redisKeyParts` -/

/-- The loop of `redisKeyParts` over the runes of the key; `current` is the part being read, and
    the last part is appended after the loop. -/
def keyPartsLoop : List GoString → GoString → List Nat → List GoString
  | parts, current, [] => if current = [] then parts else parts ++ [current]
  | parts, current, r :: rs =>
    if r = 0x3A then
      if current = [] then keyPartsLoop parts [] rs else keyPartsLoop (parts ++ [current]) [] rs
    else keyPartsLoop parts (current ++ encodeRune r) rs

/-- `redisKeyParts`. -/
def redisKeyParts (key : GoString) : List GoString := keyPartsLoop [] [] (runes key)

/-! ### `stringmatchlen` -/

/-- Where `stringmatchlen` stands: in its main loop, or inside a class `[…]`, opened with `^`
    (`negated`), that has `matched` the string's byte so far. -/
inductive GlobMode
  | main
  | cls (negated matched : Bool)

/-- A byte as C's signed `char`. -/
def signedChar (b : UInt8) : Int := if b.toNat < 0x80 then b.toNat else b.toNat - 0x100

/-- A range `a-b` of a class holds `c`; its ends are swapped if they come in decreasing order. -/
def inRange (a b c : UInt8) : Bool :=
  min (signedChar a) (signedChar b) ≤ signedChar c && signedChar c ≤ max (signedChar a) (signedChar b)

/-- `stringmatchlen(pattern, string, nocase = 0)`. In the main loop each case consumes one byte
    of the string; when the string is used up the loop skips the pattern's trailing `*`s and
    accepts if the pattern is used up too. In a class the string's byte `c` stays put while the
    class is read. -/
def stringmatchAux : GlobMode → GoString → GoString → Bool
  | .main, [], s => s.isEmpty
  | .main, _ :: _, [] => false
  | .main, 0x2A :: 0x2A :: ps, s => stringmatchAux .main (0x2A :: ps) s
  | .main, [0x2A], _ => true
  | .main, 0x2A :: ps, s => s.tails.dropLast.any fun t => stringmatchAux .main ps t
  | .main, 0x3F :: ps, _ :: cs =>
    match cs with
    | [] => (ps.dropWhile (· = 0x2A)).isEmpty
    | _ :: _ => stringmatchAux .main ps cs
  | .main, 0x5B :: 0x5E :: ps, s => stringmatchAux (.cls true false) ps s
  | .main, 0x5B :: ps, s => stringmatchAux (.cls false false) ps s
  | .main, 0x5C :: p :: ps, c :: cs =>
    p = c &&
      match cs with
      | [] => (ps.dropWhile (· = 0x2A)).isEmpty
      | _ :: _ => stringmatchAux .main ps cs
  | .main, p :: ps, c :: cs =>
    p = c &&
      match cs with
      | [] => (ps.dropWhile (· = 0x2A)).isEmpty
      | _ :: _ => stringmatchAux .main ps cs
  | .cls _ _, _, [] => false
  | .cls n m, [], _ :: cs =>
    (m != n) &&
      match cs with
      | [] => true
      | _ :: _ => false
  | .cls n m, 0x5C :: p :: ps, c :: cs => stringmatchAux (.cls n (m || p = c)) ps (c :: cs)
  | .cls n m, 0x5D :: ps, _ :: cs =>
    (m != n) &&
      match cs with
      | [] => (ps.dropWhile (· = 0x2A)).isEmpty
      | _ :: _ => stringmatchAux .main ps cs
  | .cls n m, p :: 0x2D :: q :: ps, c :: cs =>
    stringmatchAux (.cls n (m || inRange p q c)) ps (c :: cs)
  | .cls n m, p :: ps, c :: cs => stringmatchAux (.cls n (m || p = c)) ps (c :: cs)

/-- Whether `KEYS pattern` lists `key`. -/
def stringmatch (pattern key : GoString) : Bool := stringmatchAux .main pattern key

end GamifyKit.Redis
