import GamifyKit.Core.Types

/-! The ranked leaderboard of `leaderboard/skiplist.go`, as the Go code runs it.

    The Go structure is a graph of `*node` pointers. We keep it as a heap: `nodes` maps an address
    to its node (entry and forward links), `alloc` is the next free address, and `nil` is `none`.
    Every loop of the source is a recursive function here, iterating in the source's order and
    reading the heap as the previous iterations left it. The random generator is replaced by its
    draws: `Update` takes the outcomes `coin` of the tests `rng.Float64() < pFactor`, so a theorem
    over every `coin` covers every level sequence `randomLevel` can produce. The search loop has
    no bound in Go; here it runs at most `alloc` steps, which a well-formed list never exhausts
    (`Search.walk_eq`). -/

namespace GamifyKit.Leaderboard
open GamifyKit.Go GamifyKit.Core

/-- `leaderboard.Entry`. -/
structure Entry where
  user : UserID
  score : Int
  deriving DecidableEq, Repr

/-- `Entry{}`. -/
def Entry.zero : Entry := ⟨[], 0⟩

/-- `maxLevel`. -/
def maxLevel : Nat := 16

/-- `unsafe.Sizeof(Entry{})` on 64-bit targets: a string header and an `int64`. -/
def entrySize : Int := 24

/-- `less`: higher score first, equal scores by ascending user id. -/
def less (a b : Entry) : Bool :=
  if a.score = b.score then decide (a.user < b.user) else decide (a.score > b.score)

/-- A heap address; the Go code's `*node`. -/
abbrev Ptr := Nat

/-- `node`: an entry and its forward links, `next i` being the link on level `i`. -/
structure Node where
  e : Entry
  next : Nat → Option Ptr

/-- `SkipList`, with its heap. The mutex is not modelled: every operation holds it throughout. -/
structure SkipList where
  nodes : Ptr → Node
  alloc : Nat
  head : Ptr
  lvl : Nat
  byUser : UserID → Option Ptr

namespace SkipList

/-- The links of level `i`, read as a function of the node. -/
def nextAt (s : SkipList) (i : Nat) (p : Ptr) : Option Ptr := (s.nodes p).next i

/-- The write `p.next[i] = q`. -/
def setNext (s : SkipList) (p : Ptr) (i : Nat) (q : Option Ptr) : SkipList :=
  { s with nodes := Function.update s.nodes p ⟨(s.nodes p).e, Function.update (s.nodes p).next i q⟩ }

/-- `&node{e: e}`: a node with no links, at the next free address. -/
def newNode (s : SkipList) (e : Entry) : SkipList :=
  { s with nodes := Function.update s.nodes s.alloc ⟨e, fun _ => none⟩, alloc := s.alloc + 1 }

@[simp] theorem setNext_head (s : SkipList) p i q : (s.setNext p i q).head = s.head := rfl
@[simp] theorem setNext_alloc (s : SkipList) p i q : (s.setNext p i q).alloc = s.alloc := rfl
@[simp] theorem setNext_lvl (s : SkipList) p i q : (s.setNext p i q).lvl = s.lvl := rfl
@[simp] theorem setNext_byUser (s : SkipList) p i q : (s.setNext p i q).byUser = s.byUser := rfl

@[simp] theorem setNext_e (s : SkipList) p i q r : ((s.setNext p i q).nodes r).e = (s.nodes r).e := by
  by_cases h : r = p
  · subst h; simp [setNext]
  · simp [setNext, h]

/-- A write on level `i` changes that level's links at one node, and no other level. -/
theorem nextAt_setNext (s : SkipList) p i q j :
    (s.setNext p i q).nextAt j = if j = i then Function.update (s.nextAt i) p q else s.nextAt j := by
  funext r
  by_cases hj : j = i <;> by_cases hr : r = p <;> simp [nextAt, setNext, Function.update_apply, hj, hr]

@[simp] theorem newNode_head (s : SkipList) e : (s.newNode e).head = s.head := rfl
@[simp] theorem newNode_alloc (s : SkipList) e : (s.newNode e).alloc = s.alloc + 1 := rfl
@[simp] theorem newNode_lvl (s : SkipList) e : (s.newNode e).lvl = s.lvl := rfl
@[simp] theorem newNode_byUser (s : SkipList) e : (s.newNode e).byUser = s.byUser := rfl

theorem newNode_nodes (s : SkipList) e :
    (s.newNode e).nodes = Function.update s.nodes s.alloc ⟨e, fun _ => none⟩ := rfl

/-! ### Search -/

/-- The inner search loop `for cur.next[i] != nil && less(cur.next[i].e, e) { cur = cur.next[i] }`,
    for at most `fuel` steps. -/
def walk (s : SkipList) (i : Nat) (e : Entry) : Nat → Ptr → Ptr
  | 0, cur => cur
  | fuel + 1, cur =>
    match s.nextAt i cur with
    | some nx => if less (s.nodes nx).e e then s.walk i e fuel nx else cur
    | none => cur

/-- The outer search loop over levels `k-1, …, 0`, recording `update[i] = cur` after each. -/
def descend (s : SkipList) (e : Entry) : Nat → Ptr → (Nat → Ptr) → Nat → Ptr
  | 0, _, upd => upd
  | i + 1, cur, upd =>
    let cur := s.walk i e s.alloc cur
    s.descend e i cur (Function.update upd i cur)

/-- The update vector of `Update` and `removeLocked`: a search for `e` from the head at level
    `lvl - 1`. Go starts from an array of `nil`s; no slot is read before the search or the growth
    step writes it, so the initial value is immaterial. -/
def search (s : SkipList) (e : Entry) : Nat → Ptr :=
  s.descend e s.lvl s.head (fun _ => s.head)

/-! ### Mutation -/

/-- `randomLevel`, given the outcomes `coin l` of the draws `rng.Float64() < pFactor` made while
    the candidate level is `l`. -/
def randomLevel (coin : Nat → Bool) : Nat := go maxLevel 1
where
  /-- The promotion loop, from candidate level `lvl`; it ends within `maxLevel` rounds. -/
  go : Nat → Nat → Nat
  | 0, lvl => lvl
  | fuel + 1, lvl => if lvl < maxLevel ∧ coin lvl then go fuel (lvl + 1) else lvl

/-- The splice loop `for i := 0; i < lvl; i++ { n.next[i] = update[i].next[i];
    update[i].next[i] = n }`, after `k` rounds. -/
def splice (upd : Nat → Ptr) (n : Ptr) : Nat → SkipList → SkipList
  | 0, s => s
  | k + 1, s =>
    let s := splice upd n k s
    (s.setNext n k (s.nextAt k (upd k))).setNext (upd k) k (some n)

/-- The unlink loop `for i := 0; i < s.lvl; i++ { if update[i].next[i] == target {
    update[i].next[i] = target.next[i] } }`, after `k` rounds. -/
def unlink (upd : Nat → Ptr) (target : Ptr) : Nat → SkipList → SkipList
  | 0, s => s
  | k + 1, s =>
    let s := unlink upd target k s
    if s.nextAt k (upd k) = some target then s.setNext (upd k) k (s.nextAt k target) else s

/-- `for s.lvl > 1 && s.head.next[s.lvl-1] == nil { s.lvl-- }`, from level `l`. -/
def shrink (s : SkipList) : Nat → Nat
  | l + 2 => if s.nextAt (l + 1) s.head = none then s.shrink (l + 1) else l + 2
  | l => l

/-- `removeLocked`. The `delete` from `byUser` and the shrink loop touch different fields, and the
    loop reads only the links, so they are one record update here. -/
def removeLocked (s : SkipList) (user : UserID) (e : Entry) : SkipList :=
  let upd := s.search e
  match s.nextAt 0 (upd 0) with
  | none => s
  | some target =>
    if (s.nodes target).e.user ≠ user then s
    else
      let s := unlink upd target s.lvl s
      { s with byUser := Function.update s.byUser user none, lvl := s.shrink s.lvl }

/-- The insertion half of `Update`, from the search on: grow the top level if the new tower is
    higher, splice a fresh node of height `lvl` in, and index it by its user. -/
def insertNode (s : SkipList) (e : Entry) (lvl : Nat) : SkipList :=
  let upd := s.search e
  let upd := if lvl > s.lvl then (fun i => if s.lvl ≤ i ∧ i < lvl then s.head else upd i) else upd
  let s := { s with lvl := if lvl > s.lvl then lvl else s.lvl }
  let n := s.alloc
  let s := splice upd n lvl (s.newNode e)
  { s with byUser := Function.update s.byUser e.user (some n) }

/-- `Update`: remove the user's node if there is one, then insert a fresh one. -/
def update (s : SkipList) (user : UserID) (score : Int) (coin : Nat → Bool) : SkipList :=
  let s := match s.byUser user with
    | some old => s.removeLocked user (s.nodes old).e
    | none => s
  s.insertNode ⟨user, score⟩ (randomLevel coin)

/-- `Remove`. -/
def remove (s : SkipList) (user : UserID) : SkipList :=
  match s.byUser user with
  | some n => s.removeLocked user (s.nodes n).e
  | none => s

/-! ### Queries -/

/-- The loop of `TopN` along level 0, with room for `k` more entries. -/
def collect (s : SkipList) : Nat → Option Ptr → List Entry
  | 0, _ => []
  | _ + 1, none => []
  | k + 1, some p => (s.nodes p).e :: s.collect k (s.nextAt 0 p)

/-- `TopN`. An `error` is the panic of `make([]Entry, 0, n)` when `n` entries exceed
    `maxAlloc`. -/
def topN (s : SkipList) (n : Int) : Except String (List Entry) :=
  if n ≤ 0 then .ok []
  else if maxAlloc < entrySize * n then .error "makeslice: cap out of range"
  else .ok (s.collect n.toNat (s.nextAt 0 s.head))

/-- `Get`. -/
def get (s : SkipList) (user : UserID) : Entry × Bool :=
  match s.byUser user with
  | some n => ((s.nodes n).e, true)
  | none => (Entry.zero, false)

end SkipList

/-- `NewSkipList`: the head sentinel alone, at address 0. -/
def NewSkipList : SkipList where
  nodes := fun _ => ⟨Entry.zero, fun _ => none⟩
  alloc := 1
  head := 0
  lvl := 1
  byUser := fun _ => none

/-- A call on the board, with the draws of `Update`'s `randomLevel`. -/
inductive Op where
  | update (user : UserID) (score : Int) (coin : Nat → Bool)
  | remove (user : UserID)

/-- One call. -/
def Op.apply : Op → SkipList → SkipList
  | .update u sc coin, s => s.update u sc coin
  | .remove u, s => s.remove u

/-- The board after a sequence of calls on a new one. -/
def run (ops : List Op) : SkipList := ops.foldl (fun s op => op.apply s) NewSkipList

end GamifyKit.Leaderboard
