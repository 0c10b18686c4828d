import GamifyKit.Core.Types

/-! `adapters/memory`: the in-memory store.

    `memory.Store` keeps one `userRecord` per user in a `sync.Map`, each record a mutex and the
    user's state. Every call finds or creates the record (`getOrCreate`) and then runs a critical
    section on the record's state. The critical sections are functions of the state here
    (`Req.run`); `Store` is the store as calls see it one at a time, which is how
    `GamifyService` uses it, and `Memory.Concurrent` interleaves the steps of concurrent calls.

    `Req.spec` says what the store is for: a state per user, created empty on first use, in which
    `AddPoints` adds in exact integers and, outside the `int64` range, fails and changes nothing.
    On `int64` arguments and states the code's critical sections are that specification
    (`run_eq_spec`). -/

namespace GamifyKit.Memory
open GamifyKit.Go GamifyKit.Core

/-- The critical section of `Store.AddPoints`. -/
def addPointsCS (st : UserState) (metric : Metric) (delta : Int) : Except String Int × UserState :=
  match AddSafe (st.points.getD metric 0) delta with
  | .error e => (.error e, st)
  | .ok next => (.ok next, { st with points := st.points.insert metric next })

/-- The critical section of `Store.AwardBadge`. -/
def awardBadgeCS (st : UserState) (badge : Badge) : UserState :=
  { st with badges := st.badges.insert badge () }

/-- The critical section of `Store.SetLevel`. -/
def setLevelCS (st : UserState) (metric : Metric) (level : Int) : UserState :=
  { st with levels := st.levels.insert metric level }

/-- A call of the store, with its arguments. -/
inductive Req
  | addPoints (user : UserID) (metric : Metric) (delta : Int)
  | awardBadge (user : UserID) (badge : Badge)
  | getState (user : UserID)
  | setLevel (user : UserID) (metric : Metric) (level : Int)
  deriving DecidableEq

/-- What a call returns; `ok` is a `nil` error. -/
inductive Resp
  | points (r : Except String Int)
  | state (st : UserState)
  | ok
  deriving DecidableEq

/-- The user whose record a call locks. -/
def Req.user : Req → UserID
  | .addPoints u _ _ | .awardBadge u _ | .getState u | .setLevel u _ _ => u

/-- The arguments have their Go types: deltas and levels are `int64`. -/
def Req.Typed : Req → Prop
  | .addPoints _ _ d => InInt64 d
  | .setLevel _ _ l => InInt64 l
  | _ => True

instance (q : Req) : Decidable q.Typed :=
  match q with
  | .addPoints _ _ d => inferInstanceAs (Decidable (InInt64 d))
  | .setLevel _ _ l => inferInstanceAs (Decidable (InInt64 l))
  | .awardBadge _ _ => isTrue trivial
  | .getState _ => isTrue trivial

/-- A call's critical section on its user's state; `GetState` returns a clone, the state itself. -/
def Req.run : Req → UserState → Resp × UserState
  | .addPoints _ m d, st => ((.points (addPointsCS st m d).1), (addPointsCS st m d).2)
  | .awardBadge _ b, st => (.ok, awardBadgeCS st b)
  | .getState _, st => (.state st, st)
  | .setLevel _ m l, st => (.ok, setLevelCS st m l)

/-! ### One call at a time -/

/-- The users' records as calls see them one at a time: the state of every user that has one. -/
def Store := UserID → Option UserState

/-- `memory.New()`. -/
def Store.empty : Store := fun _ => none

/-- The state `getOrCreate(user)` finds: the record's, or a new empty one. -/
def Store.record (s : Store) (user : UserID) : UserState := (s user).getD (UserState.empty user)

/-- The record of `user` set to `st`. -/
def Store.set (s : Store) (user : UserID) (st : UserState) : Store := Function.update s user (some st)

/-- A whole call: `getOrCreate`, then the critical section on the record. -/
def Store.call (s : Store) (q : Req) : Resp × Store :=
  ((q.run (s.record q.user)).1, s.set q.user (q.run (s.record q.user)).2)

/-- `Store.AddPoints`. -/
def Store.AddPoints (s : Store) (user : UserID) (metric : Metric) (delta : Int) :
    Except String Int × Store :=
  ((addPointsCS (s.record user) metric delta).1,
    s.set user (addPointsCS (s.record user) metric delta).2)

/-- `Store.GetState`. -/
def Store.GetState (s : Store) (user : UserID) : UserState × Store :=
  (s.record user, s.set user (s.record user))

/-- `Store.AwardBadge`; it never fails. -/
def Store.AwardBadge (s : Store) (user : UserID) (badge : Badge) : Store :=
  s.set user (awardBadgeCS (s.record user) badge)

/-- `Store.SetLevel`; it never fails. -/
def Store.SetLevel (s : Store) (user : UserID) (metric : Metric) (level : Int) : Store :=
  s.set user (setLevelCS (s.record user) metric level)

@[simp] theorem Store.record_set (s : Store) (u v : UserID) (st : UserState) :
    (s.set u st).record v = if v = u then st else s.record v := by
  by_cases h : v = u
  · subst h; simp [Store.record, Store.set]
  · simp [Store.record, Store.set, h]

/-- `getOrCreate` stores the record it finds, so a read leaves every record as it was. -/
@[simp] theorem Store.record_GetState (s : Store) (u v : UserID) :
    (s.GetState u).2.record v = s.record v := by
  by_cases h : v = u
  · subst h; simp [Store.GetState]
  · simp [Store.GetState, h]

@[simp] theorem Store.GetState_fst (s : Store) (u : UserID) : (s.GetState u).1 = s.record u := rfl

@[simp] theorem Store.record_SetLevel (s : Store) (u v : UserID) (m : Metric) (l : Int) :
    (s.SetLevel u m l).record v = if v = u then setLevelCS (s.record u) m l else s.record v :=
  Store.record_set _ _ _ _

@[simp] theorem Store.record_AwardBadge (s : Store) (u v : UserID) (b : Badge) :
    (s.AwardBadge u b).record v = if v = u then awardBadgeCS (s.record u) b else s.record v :=
  Store.record_set _ _ _ _

/-- `AddPoints` changes no record's badges. -/
@[simp] theorem Store.badges_AddPoints (s : Store) (u v : UserID) (m : Metric) (d : Int) :
    ((s.AddPoints u m d).2.record v).badges = (s.record v).badges := by
  by_cases h : v = u
  · subst h
    simp only [Store.AddPoints, Store.record_set, if_true, addPointsCS]
    split <;> rfl
  · simp [Store.AddPoints, h]

/-! ### The specification -/

/-- What a call does to a state by specification: `AddPoints` adds in exact integers, failing
    without change outside the `int64` range; the other calls are their critical sections. -/
def Req.spec (q : Req) (st : UserState) : Resp × UserState :=
  match q with
  | .addPoints _ m d =>
    if InInt64 (st.points.getD m 0 + d) then
      (.points (.ok (st.points.getD m 0 + d)),
        { st with points := st.points.insert m (st.points.getD m 0 + d) })
    else (.points (.error "integer overflow in AddSafe"), st)
  | q => q.run st

theorem typed_getD {st : UserState} (h : st.Typed) (m : Metric) : InInt64 (st.points.getD m 0) := by
  rw [GoMap.getD_eq]
  cases hm : st.points.find? m with
  | none => exact ⟨by decide, by decide⟩
  | some v => exact h m v hm

/-- On `int64` arguments and counters the code's critical sections meet the specification. -/
theorem run_eq_spec {q : Req} {st : UserState} (hq : q.Typed) (hst : st.Typed) :
    q.run st = q.spec st := by
  cases q with
  | addPoints u m d =>
    simp only [Req.run, Req.spec, addPointsCS, AddSafe_spec (typed_getD hst m) hq]
    split_ifs <;> rfl
  | _ => rfl

/-- The specification keeps every counter an `int64`. -/
theorem spec_typed {q : Req} {st : UserState} (hst : st.Typed) : (q.spec st).2.Typed := by
  cases q with
  | addPoints u m d =>
    simp only [Req.spec]
    split_ifs with h
    · intro m' v hv
      simp only [GoMap.find?_insert] at hv
      split_ifs at hv
      · cases hv; exact h
      · exact hst m' v hv
    · exact hst
  | _ => exact hst

end GamifyKit.Memory
