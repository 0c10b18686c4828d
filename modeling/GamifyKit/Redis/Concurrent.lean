import GamifyKit.Redis.Store

/-! Concurrent calls of `redis.Store` on one Redis server.

    Every Redis command, the Lua script included, is an atomic step, and nothing but the store
    writes the database. A call of the store is a sequence of commands: `AddPoints`, `AwardBadge`
    and `SetLevel` make their write and then `DEL` the cached state; `GetState` `GET`s the cached
    state and, on a miss, reads the keys one command at a time (`KEYS`, a `GET` per key,
    `SMEMBERS`, `KEYS`, a `GET` per key) and then `SET`s the state it built as the cache. Between
    two commands of one call any command of another call may run. A `KEYS` step is given the
    order of its reply, any permutation of the matching keys.

    Alone, a call makes exactly the sequential call (`finish_eq`). Interleaved,
    a `GetState` that read the keys before an `AddPoints` wrote, and `SET` its state after that
    `AddPoints` deleted the cache, leaves a stale state in the cache, and a `GetState` that starts
    after the `AddPoints` returned reads it (`stale_cache`). The time-to-live of the cache, five
    minutes, is not modelled: the stale state is read within it. -/

namespace GamifyKit.Redis
open GamifyKit.Go GamifyKit.Core

/-- A call of the store, with its arguments. -/
inductive Op
  | addPoints (userID : UserID) (metric : Metric) (delta : Int)
  | awardBadge (userID : UserID) (badge : Badge)
  | setLevel (userID : UserID) (metric : Metric) (level : Int)
  | getState (userID : UserID)
  deriving DecidableEq

/-- The user a call is for. -/
def Op.userID : Op → UserID
  | .addPoints u _ _ | .awardBadge u _ | .setLevel u _ _ | .getState u => u

/-- What a call returns. -/
inductive Ret
  | total (r : Except String Int)
  | unit (r : Except String Unit)
  | state (st : UserState)
  deriving DecidableEq

/-- Where a call stands between its commands. -/
inductive Pc
  | start
  /-- The write is made; `DEL` of the cached state is next, and then the call returns `r`. -/
  | invalidate (r : Ret)
  /-- `GetState` missed the cache; `KEYS` for points is next. -/
  | pointsKeys
  /-- A `GET` of each of `keys` is next, then `SMEMBERS`; `st` is the state built so far. -/
  | readPoints (st : UserState) (keys : List GoString)
  /-- `KEYS` for levels is next. -/
  | levelsKeys (st : UserState)
  /-- A `GET` of each of `keys` is next, then the `SET` of the cache. -/
  | readLevels (st : UserState) (keys : List GoString)
  /-- Returned. -/
  | done (r : Ret)
  deriving DecidableEq

/-- A call and where it stands. -/
structure Call where
  op : Op
  pc : Pc
  deriving DecidableEq

/-- The database and the calls so far. -/
structure Sys where
  db : Keyspace
  calls : List Call
  deriving DecidableEq

/-- An empty database before any call. -/
def Sys.init : Sys := ⟨.empty, []⟩

/-- A step of a schedule: a new call, the next command of call `i`, or the `KEYS` of call `i`,
    whose reply lists the keys in `order`. -/
inductive Act
  | invoke (op : Op)
  | step (i : Nat)
  | keys (i : Nat) (order : List GoString)

/-- The next command of a call on the database: the call's new stand and the database. -/
def Call.step (c : Call) (db : Keyspace) : Option (Pc × Keyspace) :=
  match c.op, c.pc with
  | .addPoints u m d, .start =>
    if d = 0 then some (.done (.total (.error "delta cannot be zero")), db) else
    match addPointsScript db (userPointsKey u m) d with
    | (.error e, db) => some (.done (.total (.error ("failed to add points: " ++ e))), db)
    | (.ok total, db) => some (.invalidate (.total (.ok total)), db)
  | .awardBadge u b, .start =>
    match db.sadd (userBadgesKey u) b with
    | .error e => some (.done (.unit (.error ("failed to award badge: " ++ e))), db)
    | .ok db => some (.invalidate (.unit (.ok ())), db)
  | .setLevel u m l, .start => some (.invalidate (.unit (.ok ())), db.insert (userLevelsKey u m) (.int l))
  | op, .invalidate r => some (.done r, invalidateStateCache db op.userID)
  | .getState u, .start =>
    match getCachedState db u with
    | some st => some (.done (.state st), db)
    | none => some (.pointsKeys, db)
  | .getState _, .readPoints st (k :: ks) =>
    some (.readPoints { st with points := readKey db (lit "points") st.points k } ks, db)
  | .getState u, .readPoints st [] =>
    some (.levelsKeys { st with badges := db.smembers (userBadgesKey u) }, db)
  | .getState _, .readLevels st (k :: ks) =>
    some (.readLevels { st with levels := readKey db (lit "levels") st.levels k } ks, db)
  | .getState u, .readLevels st [] => some (.done (.state st), db.insert (userStateKey u) (.json st))
  | _, _ => none

/-- The `KEYS` of a call, answered in `order`, if `order` lists the matching keys. -/
def Call.keys (c : Call) (db : Keyspace) (order : List GoString) : Option Pc :=
  match c.op, c.pc with
  | .getState u, .pointsKeys =>
    if order.Perm ((db.entries.map Prod.fst).filter (stringmatch (lit "user:" ++ u ++ lit ":points:*")))
    then some (.readPoints (UserState.empty u) order) else none
  | .getState u, .levelsKeys st =>
    if order.Perm ((db.entries.map Prod.fst).filter (stringmatch (lit "user:" ++ u ++ lit ":levels:*")))
    then some (.readLevels st order) else none
  | _, _ => none

/-- One step of a schedule, or `none` where it is not enabled. -/
def Sys.step (s : Sys) : Act → Option Sys
  | .invoke op => some ⟨s.db, s.calls ++ [⟨op, .start⟩]⟩
  | .step i =>
    match s.calls[i]? with
    | some c => (c.step s.db).map fun (pc, db) => ⟨db, s.calls.set i { c with pc := pc }⟩
    | none => none
  | .keys i order =>
    match s.calls[i]? with
    | some c => (c.keys s.db order).map fun pc => ⟨s.db, s.calls.set i { c with pc := pc }⟩
    | none => none

/-- The state after a schedule, if every step of it is enabled. -/
def Sys.run (acts : List Act) : Option Sys := acts.foldlM Sys.step Sys.init

/-! ### One call alone -/

/-- A call of the sequential store. -/
def Op.run (keysOrder : List GoString → List GoString) (db : Keyspace) : Op → Ret × Keyspace
  | .addPoints u m d => (.total (AddPoints db u m d).1, (AddPoints db u m d).2)
  | .awardBadge u b => (.unit (AwardBadge db u b).1, (AwardBadge db u b).2)
  | .setLevel u m l => (.unit (.ok ()), SetLevel db u m l)
  | .getState u => (.state (GetState keysOrder db u).1, (GetState keysOrder db u).2)

/-- The pattern of the `KEYS` a call makes next, if it makes one. -/
def Call.pattern (c : Call) : GoString :=
  match c.op, c.pc with
  | .getState u, .pointsKeys => lit "user:" ++ u ++ lit ":points:*"
  | .getState u, .levelsKeys _ => lit "user:" ++ u ++ lit ":levels:*"
  | _, _ => []

/-- A call run alone for at most `fuel` steps, its `KEYS` answered in the order `keysOrder`
    gives. -/
def Call.finish (keysOrder : List GoString → List GoString) : Nat → Call → Keyspace → Call × Keyspace
  | 0, c, db => (c, db)
  | fuel + 1, c, db =>
    match c.step db with
    | some (pc, db') => Call.finish keysOrder fuel { c with pc := pc } db'
    | none =>
      match c.keys db (db.keys keysOrder c.pattern) with
      | some pc => Call.finish keysOrder fuel { c with pc := pc } db
      | none => (c, db)

section Alone

variable {keysOrder : List GoString → List GoString}

theorem finish_step {c : Call} {db db' : Keyspace} {pc : Pc} (h : c.step db = some (pc, db'))
    (fuel : Nat) :
    Call.finish keysOrder (fuel + 1) c db = Call.finish keysOrder fuel { c with pc := pc } db' := by
  simp only [Call.finish, h]

theorem finish_keys {c : Call} {db : Keyspace} {pc : Pc} (hs : c.step db = none)
    (h : c.keys db (db.keys keysOrder c.pattern) = some pc) (fuel : Nat) :
    Call.finish keysOrder (fuel + 1) c db = Call.finish keysOrder fuel { c with pc := pc } db := by
  simp only [Call.finish, hs, h]

theorem finish_done (op : Op) (r : Ret) (db : Keyspace) (fuel : Nat) :
    Call.finish keysOrder fuel ⟨op, .done r⟩ db = (⟨op, .done r⟩, db) := by
  cases fuel <;> cases op <;> rfl

/-- Alone, the `GET`s of a `GetState` fold `readKey` over the keys. -/
theorem finish_readPoints (u : UserID) (db : Keyspace) :
    ∀ (keys : List GoString) (st : UserState) (fuel : Nat),
      Call.finish keysOrder (fuel + keys.length) ⟨.getState u, .readPoints st keys⟩ db =
        Call.finish keysOrder fuel
          ⟨.getState u, .readPoints { st with points := readCounters db (lit "points") st.points keys } []⟩ db
  | [], st, fuel => rfl
  | k :: ks, st, fuel => by
    rw [List.length_cons, ← Nat.add_assoc, finish_step (by rfl), finish_readPoints u db ks _ fuel]
    rfl

theorem finish_readLevels (u : UserID) (db : Keyspace) :
    ∀ (keys : List GoString) (st : UserState) (fuel : Nat),
      Call.finish keysOrder (fuel + keys.length) ⟨.getState u, .readLevels st keys⟩ db =
        Call.finish keysOrder fuel
          ⟨.getState u, .readLevels { st with levels := readCounters db (lit "levels") st.levels keys } []⟩ db
  | [], st, fuel => rfl
  | k :: ks, st, fuel => by
    rw [List.length_cons, ← Nat.add_assoc, finish_step (by rfl), finish_readLevels u db ks _ fuel]
    rfl

theorem length_keys (ho : ∀ l, (keysOrder l).Perm l) (db : Keyspace) (p : GoString) :
    (db.keys keysOrder p).length ≤ db.entries.length := by
  rw [Keyspace.keys, (ho _).length_eq]
  exact (List.length_filter_le _ _).trans (List.length_map _ _).le

theorem keys_points (ho : ∀ l, (keysOrder l).Perm l) (db : Keyspace) (u : UserID) :
    Call.keys ⟨.getState u, .pointsKeys⟩ db (db.keys keysOrder (lit "user:" ++ u ++ lit ":points:*")) =
      some (.readPoints (UserState.empty u) (db.keys keysOrder (lit "user:" ++ u ++ lit ":points:*"))) :=
  if_pos (ho _)

theorem keys_levels (ho : ∀ l, (keysOrder l).Perm l) (db : Keyspace) (u : UserID) (st : UserState) :
    Call.keys ⟨.getState u, .levelsKeys st⟩ db (db.keys keysOrder (lit "user:" ++ u ++ lit ":levels:*")) =
      some (.readLevels st (db.keys keysOrder (lit "user:" ++ u ++ lit ":levels:*"))) :=
  if_pos (ho _)

/-- Alone, with enough steps, a call does what the sequential store does. -/
theorem finish_eq (ho : ∀ l, (keysOrder l).Perm l) (op : Op) (db : Keyspace) {fuel : Nat}
    (hf : 2 * db.entries.length + 5 ≤ fuel) :
    Call.finish keysOrder fuel ⟨op, .start⟩ db = (⟨op, .done (op.run keysOrder db).1⟩, (op.run keysOrder db).2) := by
  obtain ⟨fuel, rfl⟩ : ∃ f, fuel = f + 1 + 1 := ⟨fuel - 2, by omega⟩
  cases op with
  | addPoints u m d =>
    by_cases hd : d = 0
    · rw [finish_step (by simp [Call.step, hd]; exact ⟨rfl, rfl⟩), finish_done]
      simp [Op.run, AddPoints, hd]
    rcases ha : addPointsScript db (userPointsKey u m) d with ⟨_ | total, db'⟩
    · rw [finish_step (by simp [Call.step, hd, ha]; exact ⟨rfl, rfl⟩), finish_done]
      simp [Op.run, AddPoints, hd, ha]
    · rw [finish_step (by simp [Call.step, hd, ha]; exact ⟨rfl, rfl⟩), finish_step (by rfl), finish_done]
      simp [Op.run, AddPoints, hd, ha, Op.userID]
  | awardBadge u b =>
    rcases hs : db.sadd (userBadgesKey u) b with e | db'
    · rw [finish_step (by simp [Call.step, hs]; exact ⟨rfl, rfl⟩), finish_done]
      simp [Op.run, AwardBadge, hs]
    · rw [finish_step (by simp [Call.step, hs]; exact ⟨rfl, rfl⟩), finish_step (by rfl), finish_done]
      simp [Op.run, AwardBadge, hs, Op.userID]
  | setLevel u m l =>
    rw [finish_step (by rfl), finish_step (by rfl), finish_done]
    rfl
  | getState u =>
    rcases hc : getCachedState db u with _ | st
    · have hp := length_keys ho db (lit "user:" ++ u ++ lit ":points:*")
      have hl := length_keys ho db (lit "user:" ++ u ++ lit ":levels:*")
      obtain ⟨r, hr⟩ : ∃ r, fuel + 1 + 1 = r + 1 + (db.keys keysOrder (lit "user:" ++ u ++ lit ":levels:*")).length + 1 + 1 +
          (db.keys keysOrder (lit "user:" ++ u ++ lit ":points:*")).length + 1 + 1 :=
        ⟨fuel - 3 - (db.keys keysOrder (lit "user:" ++ u ++ lit ":points:*")).length -
          (db.keys keysOrder (lit "user:" ++ u ++ lit ":levels:*")).length, by omega⟩
      rw [hr, finish_step (by simp [Call.step, hc]; exact ⟨rfl, rfl⟩), finish_keys (by rfl) (keys_points ho db u),
        finish_readPoints, finish_step (by rfl), finish_keys (by rfl) (keys_levels ho db u _),
        finish_readLevels, finish_step (by rfl), finish_done]
      simp [Op.run, GetState, hc, buildStateFromKeys, UserState.empty]
    · rw [finish_step (by simp [Call.step, hc]; exact ⟨rfl, rfl⟩), finish_done]
      simp [Op.run, GetState, hc]

end Alone

/-! ### A stale cache -/

/-- `GetState("u")` misses the cache and reads the keys (there are none); `AddPoints("u", xp, 5)`
    runs to its end, deleting the cache; the `GetState` then `SET`s the state it read as the
    cache; a second `GetState("u")` starts and reads it. -/
def staleRun : List Act :=
  [.invoke (.getState (lit "u")), .step 0, .keys 0 [], .step 0, .keys 0 [],
    .invoke (.addPoints (lit "u") MetricXP 5), .step 1, .step 1,
    .step 0,
    .invoke (.getState (lit "u")), .step 2]

/-- In `staleRun` the `AddPoints` returns 5 and the counter holds 5, yet the `GetState` that
    started after it returned reports no points. -/
theorem stale_cache :
    (Sys.run staleRun).map (fun s => (s.calls.map Call.pc,
        s.db.getInt (userPointsKey (lit "u") MetricXP))) =
      some ([.done (.state (UserState.empty (lit "u"))), .done (.total (.ok 5)),
        .done (.state (UserState.empty (lit "u")))], some 5) := by
  decide

end GamifyKit.Redis
