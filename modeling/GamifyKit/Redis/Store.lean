import GamifyKit.Redis.Keys
import GamifyKit.Memory.Store

/-! `redis.Store`, one call at a time.

    The database is a keyspace, each command an atomic function of it. A string value the store
    wrote from an integer (the script's `SET`, `SetLevel`'s `SET`) is kept as that integer: its
    text is the integer's decimal digits, which `tonumber` and `Int64()` read back exactly. The
    cached state is kept as the state `json.Marshal` wrote, and `json.Unmarshal` gives back its
    `jsonRoundTrip`. `KEYS` replies in the order of the server's hash table, which the model
    leaves open: `keysOrder` puts the matching keys in that order, a permutation of them. The
    script's numbers are Lua doubles, exact below 2^53; the model computes in integers.

    The layout does not keep users and metrics apart: a metric `a:b` is read back as `a`, and a
    counter of one user can be another user's level (`redis_diverges`). -/

namespace GamifyKit.Redis
open GamifyKit.Go GamifyKit.Core

/-- A value of the database, as the store writes them. -/
inductive Val
  /-- A string holding the decimal text of `n`. -/
  | int (n : Int)
  /-- A string holding `json.Marshal(st)`. -/
  | json (st : UserState)
  /-- A set of strings. -/
  | set (members : GoMap Unit)
  deriving DecidableEq

/-- The keys of the database and their values. -/
abbrev Keyspace := GoMap Val

/-- Redis's reply to a command on a key that holds another type. -/
def wrongType : String := "WRONGTYPE Operation against a key holding the wrong kind of value"

/-- The Lua error of `current + delta` after `tonumber` gave `nil`. -/
def luaArith : String := "attempt to perform arithmetic on local 'current' (a nil value)"

/-- `KEYS pattern`: the matching keys, in the server's order. -/
def Keyspace.keys (db : Keyspace) (keysOrder : List GoString → List GoString) (pattern : GoString) :
    List GoString :=
  keysOrder ((db.entries.map Prod.fst).filter (stringmatch pattern))

/-- `GET key` read with `Int64()`: an integer, or an error. -/
def Keyspace.getInt (db : Keyspace) (key : GoString) : Option Int :=
  match db.find? key with
  | some (.int n) => some n
  | _ => none

/-- `SMEMBERS key`, whose error `buildStateFromKeys` takes as no badges. -/
def Keyspace.smembers (db : Keyspace) (key : GoString) : GoMap Unit :=
  match db.find? key with
  | some (.set ms) => ms
  | _ => .empty

/-- `SADD key member`. -/
def Keyspace.sadd (db : Keyspace) (key member : GoString) : Except String Keyspace :=
  match db.find? key with
  | none => .ok (db.insert key (.set (GoMap.empty.insert member ())))
  | some (.set ms) => .ok (db.insert key (.set (ms.insert member ())))
  | some _ => .error wrongType

/-- `tonumber(redis.call('GET', key) or '0')` in the script. -/
def luaCurrent : Option Val → Except String Int
  | none => .ok 0
  | some (.int n) => .ok n
  | some (.json _) => .error luaArith
  | some (.set _) => .error wrongType

/-- `addPointsScript` on `key` with `delta`, run atomically. -/
def addPointsScript (db : Keyspace) (key : GoString) (delta : Int) : Except String Int × Keyspace :=
  match luaCurrent (db.find? key) with
  | .error e => (.error e, db)
  | .ok current =>
    if current + delta > MaxInt64 ∨ current + delta < MinInt64 then (.error "integer overflow", db)
    else (.ok (current + delta), db.insert key (.int (current + delta)))

/-- `invalidateStateCache`: `DEL user:{userID}:state`. -/
def invalidateStateCache (db : Keyspace) (userID : UserID) : Keyspace := db.erase (userStateKey userID)

/-! ### The store's calls -/

/-- `Store.AddPoints`. -/
def AddPoints (db : Keyspace) (userID : UserID) (metric : Metric) (delta : Int) :
    Except String Int × Keyspace :=
  if delta = 0 then (.error "delta cannot be zero", db) else
  match addPointsScript db (userPointsKey userID metric) delta with
  | (.error e, db) => (.error ("failed to add points: " ++ e), db)
  | (.ok total, db) => (.ok total, invalidateStateCache db userID)

/-- `Store.AwardBadge`. -/
def AwardBadge (db : Keyspace) (userID : UserID) (badge : Badge) : Except String Unit × Keyspace :=
  match db.sadd (userBadgesKey userID) badge with
  | .error e => (.error ("failed to award badge: " ++ e), db)
  | .ok db => (.ok (), invalidateStateCache db userID)

/-- `Store.SetLevel`; `SET` replaces a value of any type, so it never fails. -/
def SetLevel (db : Keyspace) (userID : UserID) (metric : Metric) (level : Int) : Keyspace :=
  invalidateStateCache (db.insert (userLevelsKey userID metric) (.int level)) userID

/-- `getCachedState`: the cached state, if the state key holds one that `json.Unmarshal` reads. -/
def getCachedState (db : Keyspace) (userID : UserID) : Option UserState :=
  match db.find? (userStateKey userID) with
  | some (.json st) => some st.jsonRoundTrip
  | _ => none

/-- One turn of the loops of `buildStateFromKeys` over the keys `KEYS` gave for `kind`, `points`
    or `levels`: a key whose parts are `user`, …, `kind`, `metric`, … and whose value `GET` reads
    as an integer sets `metric`; any other key is skipped. -/
def readKey (db : Keyspace) (kind : GoString) (acc : GoMap Int) (key : GoString) : GoMap Int :=
  if 4 ≤ (redisKeyParts key).length ∧ (redisKeyParts key).getD 2 [] = kind then
    match db.getInt key with
    | some v => acc.insert ((redisKeyParts key).getD 3 []) v
    | none => acc
  else acc

/-- The loop of `buildStateFromKeys` over the keys of `kind`. -/
def readCounters (db : Keyspace) (kind : GoString) (acc : GoMap Int) (keys : List GoString) :
    GoMap Int :=
  keys.foldl (readKey db kind) acc

/-- `buildStateFromKeys`; the `KEYS` of this model never fails. -/
def buildStateFromKeys (keysOrder : List GoString → List GoString) (db : Keyspace)
    (userID : UserID) : UserState :=
  ⟨userID,
    readCounters db (lit "points") .empty (db.keys keysOrder (lit "user:" ++ userID ++ lit ":points:*")),
    db.smembers (userBadgesKey userID),
    readCounters db (lit "levels") .empty (db.keys keysOrder (lit "user:" ++ userID ++ lit ":levels:*"))⟩

/-- `Store.GetState`: the cached state, or the state built from the keys, then cached. -/
def GetState (keysOrder : List GoString → List GoString) (db : Keyspace) (userID : UserID) :
    UserState × Keyspace :=
  match getCachedState db userID with
  | some st => (st, db)
  | none =>
    (buildStateFromKeys keysOrder db userID,
      db.insert (userStateKey userID) (.json (buildStateFromKeys keysOrder db userID)))

/-! ### The order of `KEYS` -/

/-- `GetState` reads the order of `KEYS` only through the keys' lists. -/
theorem GetState_congr {o o' : List GoString → List GoString} {db : Keyspace}
    (h : ∀ p, db.keys o p = db.keys o' p) (userID : UserID) :
    GetState o db userID = GetState o' db userID := by
  simp only [GetState, buildStateFromKeys, h]

/-- On a database of at most one key every order of `KEYS` gives the same lists. -/
theorem keys_of_subsingleton {o : List GoString → List GoString} (ho : ∀ l, (o l).Perm l)
    {db : Keyspace} (hdb : db.entries.length ≤ 1) (p : GoString) : db.keys o p = db.keys id p := by
  have hl : ((db.entries.map Prod.fst).filter (stringmatch p)).length ≤ 1 :=
    (List.length_filter_le _ _).trans (by simpa using hdb)
  simp only [Keyspace.keys, id]
  generalize (db.entries.map Prod.fst).filter (stringmatch p) = l at hl ⊢
  match l, hl with
  | [], _ => exact (ho []).eq_nil
  | [a], _ => exact List.perm_singleton.1 (ho [a])

/-! ### Where the layout fails -/

/-- Two runs where the store is not `memory.Store`. A metric with a `:` is read back renamed:
    after `AddPoints("u", "a:b", 5)` the state built from the keys counts 5 on `a` and nothing on
    `a:b`. And a level of one user is a counter of another: after `SetLevel("a:points:b", "c", 7)`,
    `AddPoints("a", "b:levels:c", 1)` returns 8 where `memory.Store` returns 1. -/
theorem redis_diverges (keysOrder : List GoString → List GoString) (ho : ∀ l, (keysOrder l).Perm l) :
    (AddPoints .empty (lit "u") (lit "a:b") 5).1 = .ok 5 ∧
      (GetState keysOrder (AddPoints .empty (lit "u") (lit "a:b") 5).2 (lit "u")).1.points.find?
        (lit "a:b") = none ∧
      (GetState keysOrder (AddPoints .empty (lit "u") (lit "a:b") 5).2 (lit "u")).1.points.find?
        (lit "a") = some 5 ∧
      ((Memory.Store.empty.AddPoints (lit "u") (lit "a:b") 5).2.record (lit "u")).points.find?
        (lit "a:b") = some 5 ∧
      (AddPoints (SetLevel .empty (lit "a:points:b") (lit "c") 7) (lit "a") (lit "b:levels:c") 1).1 =
        .ok 8 ∧
      (Memory.Store.empty.AddPoints (lit "a") (lit "b:levels:c") 1).1 = .ok 1 := by
  rw [GetState_congr (keys_of_subsingleton ho (by decide))]
  decide

/-- `redis_diverges` with `KEYS` in the keyspace's own order. -/
theorem redis_diverges_sorted :
    (AddPoints .empty (lit "u") (lit "a:b") 5).1 = .ok 5 ∧
      (GetState id (AddPoints .empty (lit "u") (lit "a:b") 5).2 (lit "u")).1.points.find?
        (lit "a:b") = none ∧
      (GetState id (AddPoints .empty (lit "u") (lit "a:b") 5).2 (lit "u")).1.points.find?
        (lit "a") = some 5 ∧
      ((Memory.Store.empty.AddPoints (lit "u") (lit "a:b") 5).2.record (lit "u")).points.find?
        (lit "a:b") = some 5 ∧
      (AddPoints (SetLevel .empty (lit "a:points:b") (lit "c") 7) (lit "a") (lit "b:levels:c") 1).1 =
        .ok 8 ∧
      (Memory.Store.empty.AddPoints (lit "a") (lit "b:levels:c") 1).1 = .ok 1 :=
  redis_diverges id fun _ => List.Perm.refl _

end GamifyKit.Redis
