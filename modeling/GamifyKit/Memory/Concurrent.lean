import GamifyKit.Memory.Store

/-! Concurrent calls of `memory.Store`, and their linearisation.

    A call takes three atomic steps: `users.Load` of its user's record, then, on a miss,
    `users.LoadOrStore` of a new record (which yields the record some racing call stored first,
    if any), then its critical section under the record's mutex, after which it returns. `Sys`
    holds the `sync.Map`, the records, every call invoked so far with its program point, and a
    clock that ticks at each invocation and each return. Any number of calls interleave their
    steps in any order (`Reachable`).

    The linearisation point of a call is its critical section. The ghost `log` lists the calls in
    the order they passed it, with their invocation and return times. `Inv` says the records
    show exactly the specification's state after the log, that each logged response is the
    specification's at its place, and that the log holds each returned call once, in return
    order. The one hazard is the race to create a record: a call that lost it must use the
    winner's record, or its update would be lost; `Inv.holds` records that the record a call
    holds is the one the map points to. -/

namespace GamifyKit.Memory
open GamifyKit.Go GamifyKit.Core

/-! ### The specification -/

/-- What the store is for: a state per user, every user starting empty. -/
def Spec := UserID → UserState

/-- The specification before any call. -/
def Spec.init : Spec := UserState.empty

/-- One call on the specification: its response, and the new states. -/
def Spec.apply (A : Spec) (q : Req) : Resp × Spec :=
  ((q.spec (A q.user)).1, Function.update A q.user (q.spec (A q.user)).2)

/-- A call in the linearisation: its id, request, response, and the clock at its invocation and
    at its return. -/
structure Lin where
  id : Nat
  req : Req
  resp : Resp
  inv : Nat
  ret : Nat

/-- The specification after the calls of `l`, in order. -/
def Spec.after (A : Spec) (l : List Lin) : Spec := l.foldl (fun A e => (A.apply e.req).2) A

/-- Each response of `l` is the one the specification gives at its place. -/
def Legal : Spec → List Lin → Prop
  | _, [] => True
  | A, e :: l => (A.apply e.req).1 = e.resp ∧ Legal (A.apply e.req).2 l

theorem Spec.after_append_single (A : Spec) (l : List Lin) (e : Lin) :
    A.after (l ++ [e]) = ((A.after l).apply e.req).2 := by
  simp [Spec.after]

theorem legal_append_single {A : Spec} {l : List Lin} {e : Lin} :
    Legal A (l ++ [e]) ↔ Legal A l ∧ ((A.after l).apply e.req).1 = e.resp := by
  induction l generalizing A with
  | nil => simp [Legal, Spec.after]
  | cons e' l ih => simp [Legal, Spec.after, ih, and_assoc]

theorem Spec.apply_typed {A : Spec} (h : ∀ u, (A u).Typed) (q : Req) (u : UserID) :
    ((A.apply q).2 u).Typed := by
  by_cases hu : u = q.user
  · subst hu; simpa [Spec.apply] using spec_typed (h q.user)
  · simpa [Spec.apply, hu] using h u

theorem Spec.after_typed {A : Spec} (h : ∀ u, (A u).Typed) :
    ∀ (l : List Lin) (u : UserID), (A.after l u).Typed := by
  intro l
  induction l generalizing A with
  | nil => exact h
  | cons e l ih => exact ih (Spec.apply_typed h e.req)

theorem Spec.init_typed (u : UserID) : (Spec.init u).Typed := by
  intro m v hv; simp [Spec.init, UserState.empty] at hv

/-- The deltas of the calls `AddPoints(u, m, d)` of `l` that succeeded. -/
def deltas (u : UserID) (m : Metric) (l : List Lin) : List Int :=
  l.filterMap fun e => match e.req, e.resp with
    | .addPoints u' m' d, .points (.ok _) => if u' = u ∧ m' = m then some d else none
    | _, _ => none

theorem Spec.apply_points (A : Spec) (q : Req) (u : UserID) (m : Metric) (id ti tr : Nat) :
    ((A.apply q).2 u).points.getD m 0 =
      (A u).points.getD m 0 + (deltas u m [⟨id, q, (A.apply q).1, ti, tr⟩]).sum := by
  cases q with
  | addPoints u' m' d =>
    by_cases hr : InInt64 ((A u').points.getD m' 0 + d)
    · by_cases hu : u = u'
      · subst hu
        by_cases hm : m = m'
        · subst hm; simp [Spec.apply, Req.spec, Req.user, deltas, hr]
        · simp [Spec.apply, Req.spec, Req.user, deltas, hr, hm, Ne.symm hm]
      · simp [Spec.apply, Req.spec, Req.user, deltas, hr, hu, Ne.symm hu]
    · simp [Spec.apply, Req.spec, Req.user, deltas, hr]
  | awardBadge u' b =>
    by_cases hu : u = u' <;> simp [deltas, Spec.apply, Req.spec, Req.run, Req.user, awardBadgeCS, hu]
  | getState u' =>
    by_cases hu : u = u' <;> simp [deltas, Spec.apply, Req.spec, Req.run, Req.user, hu]
  | setLevel u' m' lv =>
    by_cases hu : u = u' <;> simp [deltas, Spec.apply, Req.spec, Req.run, Req.user, setLevelCS, hu]

/-- Along a legal sequence each counter moves by exactly the deltas of its successful calls. -/
theorem Legal.points {A : Spec} {l : List Lin} (h : Legal A l) (u : UserID) (m : Metric) :
    (A.after l u).points.getD m 0 = (A u).points.getD m 0 + (deltas u m l).sum := by
  induction l generalizing A with
  | nil => simp [Spec.after, deltas]
  | cons e l ih =>
    obtain ⟨he, hl⟩ := h
    obtain ⟨id, q, r, ti, tr⟩ := e
    simp only at he
    subst he
    rw [show A.after (⟨id, q, _, ti, tr⟩ :: l) = (A.apply q).2.after l from rfl, ih hl,
      Spec.apply_points A q u m id ti tr, show deltas u m (⟨id, q, (A.apply q).1, ti, tr⟩ :: l) =
        deltas u m [⟨id, q, (A.apply q).1, ti, tr⟩] ++ deltas u m l from
        List.filterMap_append [_] l _,
      List.sum_append, add_assoc]

/-! ### The concurrent store -/

/-- Where a call stands between its atomic steps. -/
inductive Pc
  | start
  | miss
  | holds (r : Nat)
  | done (resp : Resp) (ret : Nat)

/-- An invoked call: its request, where it stands, and the clock at its invocation. -/
structure Call where
  req : Req
  pc : Pc
  inv : Nat

/-- The store shared by concurrent calls, with the calls themselves. -/
structure Sys where
  /-- The `sync.Map`: each user's record. -/
  users : UserID → Option Nat
  /-- The states of the records. -/
  recs : Nat → UserState
  /-- The next record to allocate. -/
  nrec : Nat
  /-- The calls invoked so far, by id. -/
  calls : Nat → Option Call
  ncalls : Nat
  clock : Nat
  /-- Ghost: the calls that passed their critical section, in that order. -/
  log : List Lin

/-- `memory.New()`, before any call. -/
def Sys.init : Sys := ⟨fun _ => none, fun _ => UserState.empty [], 0, fun _ => none, 0, 0, []⟩

/-- What a call may do next. -/
inductive Act
  | invoke (q : Req)
  | load (i : Nat)
  | loadOrStore (i : Nat)
  | exec (i : Nat)

/-- Call `i` moved to `pc`. -/
def Sys.setPc (s : Sys) (i : Nat) (c : Call) (pc : Pc) : Sys :=
  { s with calls := Function.update s.calls i (some { c with pc := pc }) }

@[simp] theorem Sys.setPc_users (s : Sys) (i : Nat) (c : Call) (pc : Pc) :
    (s.setPc i c pc).users = s.users := rfl

@[simp] theorem Sys.setPc_recs (s : Sys) (i : Nat) (c : Call) (pc : Pc) :
    (s.setPc i c pc).recs = s.recs := rfl

@[simp] theorem Sys.setPc_ncalls (s : Sys) (i : Nat) (c : Call) (pc : Pc) :
    (s.setPc i c pc).ncalls = s.ncalls := rfl

@[simp] theorem Sys.setPc_log (s : Sys) (i : Nat) (c : Call) (pc : Pc) :
    (s.setPc i c pc).log = s.log := rfl

/-- One atomic step, or `none` when the action is not enabled. An invocation's arguments have
    their Go types. -/
def Sys.step (s : Sys) : Act → Option Sys
  | .invoke q =>
    if q.Typed then
      some { s with
        calls := Function.update s.calls s.ncalls (some ⟨q, .start, s.clock⟩)
        ncalls := s.ncalls + 1
        clock := s.clock + 1 }
    else none
  | .load i =>
    match s.calls i with
    | some c =>
      match c.pc with
      | .start =>
        some (s.setPc i c (match s.users c.req.user with | some r => .holds r | none => .miss))
      | _ => none
    | none => none
  | .loadOrStore i =>
    match s.calls i with
    | some c =>
      match c.pc with
      | .miss =>
        match s.users c.req.user with
        | some r => some (s.setPc i c (.holds r))
        | none =>
          some { s.setPc i c (.holds s.nrec) with
            users := Function.update s.users c.req.user (some s.nrec)
            recs := Function.update s.recs s.nrec (UserState.empty c.req.user)
            nrec := s.nrec + 1 }
      | _ => none
    | none => none
  | .exec i =>
    match s.calls i with
    | some c =>
      match c.pc with
      | .holds r =>
        some { s.setPc i c (.done (c.req.run (s.recs r)).1 s.clock) with
          recs := Function.update s.recs r (c.req.run (s.recs r)).2
          clock := s.clock + 1
          log := s.log ++ [⟨i, c.req, (c.req.run (s.recs r)).1, c.inv, s.clock⟩] }
      | _ => none
    | none => none

/-- The states reachable from `memory.New()` by any interleaving of steps. -/
inductive Reachable : Sys → Prop
  | init : Reachable Sys.init
  | step {s s' : Sys} (a : Act) : Reachable s → s.step a = some s' → Reachable s'

/-- The state after a sequence of actions, if each was enabled. -/
def Sys.run (acts : List Act) : Option Sys := acts.foldlM Sys.step Sys.init

theorem reachable_of_foldlM : ∀ (acts : List Act) {s s' : Sys}, Reachable s →
    acts.foldlM Sys.step s = some s' → Reachable s'
  | [], _, _, hs, h => by cases h; exact hs
  | a :: acts, s, s', hs, h => by
    simp only [List.foldlM_cons] at h
    cases ha : s.step a with
    | none => rw [ha] at h; cases h
    | some s₁ => rw [ha] at h; exact reachable_of_foldlM acts (.step a hs ha) h

/-- The state `GetState(u)` would read: the record's, or the empty state `getOrCreate` makes. -/
def Sys.view (s : Sys) (u : UserID) : UserState :=
  match s.users u with
  | some r => s.recs r
  | none => UserState.empty u

/-! ### What one step can do -/

theorem step_cases {s s' : Sys} {a : Act} (h : s.step a = some s') :
    (∃ q, q.Typed ∧ s' = { s with
      calls := Function.update s.calls s.ncalls (some ⟨q, .start, s.clock⟩)
      ncalls := s.ncalls + 1
      clock := s.clock + 1 }) ∨
    (∃ i c, s.calls i = some c ∧ c.pc = .start ∧
      s' = s.setPc i c (match s.users c.req.user with | some r => .holds r | none => .miss)) ∨
    (∃ i c r, s.calls i = some c ∧ c.pc = .miss ∧ s.users c.req.user = some r ∧
      s' = s.setPc i c (.holds r)) ∨
    (∃ i c, s.calls i = some c ∧ c.pc = .miss ∧ s.users c.req.user = none ∧
      s' = { s.setPc i c (.holds s.nrec) with
              users := Function.update s.users c.req.user (some s.nrec)
              recs := Function.update s.recs s.nrec (UserState.empty c.req.user)
              nrec := s.nrec + 1 }) ∨
    (∃ i c r, s.calls i = some c ∧ c.pc = .holds r ∧
      s' = { s.setPc i c (.done (c.req.run (s.recs r)).1 s.clock) with
              recs := Function.update s.recs r (c.req.run (s.recs r)).2
              clock := s.clock + 1
              log := s.log ++ [⟨i, c.req, (c.req.run (s.recs r)).1, c.inv, s.clock⟩] }) := by
  cases a with
  | invoke q =>
    simp only [Sys.step] at h
    split_ifs at h with hq
    exact .inl ⟨q, hq, (Option.some.inj h).symm⟩
  | load i =>
    simp only [Sys.step] at h
    split at h <;> [split at h; cases h] <;> try cases h
    exact .inr (.inl ⟨i, _, ‹_›, ‹_›, rfl⟩)
  | loadOrStore i =>
    simp only [Sys.step] at h
    split at h <;> [split at h; cases h] <;> try cases h
    split at h <;> cases h
    · exact .inr (.inr (.inl ⟨i, _, _, ‹_›, ‹_›, ‹_›, rfl⟩))
    · exact .inr (.inr (.inr (.inl ⟨i, _, ‹_›, ‹_›, ‹_›, rfl⟩)))
  | exec i =>
    simp only [Sys.step] at h
    split at h <;> [split at h; cases h] <;> try cases h
    exact .inr (.inr (.inr (.inr ⟨i, _, _, ‹_›, ‹_›, rfl⟩)))

/-! ### The invariant -/

/-- What holds of every reachable state. -/
structure Inv (s : Sys) : Prop where
  /-- The records show the specification's state after the linearisation. -/
  view : ∀ u, s.view u = Spec.init.after s.log u
  /-- Each logged response is the specification's at its place. -/
  legal : Legal Spec.init s.log
  /-- Records in the map are allocated. -/
  fresh : ∀ u r, s.users u = some r → r < s.nrec
  /-- No two users share a record. -/
  inj : ∀ u v r, s.users u = some r → s.users v = some r → u = v
  /-- A call holds the record the map gives its user. -/
  holds : ∀ i c r, s.calls i = some c → c.pc = .holds r → s.users c.req.user = some r
  /-- Invoked calls have typed arguments. -/
  typed : ∀ i c, s.calls i = some c → c.req.Typed
  /-- Calls have the ids below `ncalls`. -/
  ids : ∀ i, s.ncalls ≤ i → s.calls i = none
  /-- Calls were invoked in the past. -/
  invoked : ∀ i c, s.calls i = some c → c.inv < s.clock
  /-- A returned call is logged. -/
  done : ∀ i c r t, s.calls i = some c → c.pc = .done r t → ⟨i, c.req, r, c.inv, t⟩ ∈ s.log
  /-- A logged call has returned, with the logged response and times. -/
  logged : ∀ e ∈ s.log, s.calls e.id = some ⟨e.req, .done e.resp e.ret, e.inv⟩
  /-- The log is in return order, and every call returns after its invocation. -/
  order : s.log.Pairwise (fun a b => a.ret < b.ret)
  /-- The log's times lie in the past, each return after its invocation. -/
  times : ∀ e ∈ s.log, e.inv < e.ret ∧ e.ret < s.clock

theorem inv_init : Inv Sys.init where
  view _ := rfl
  legal := trivial
  fresh _ _ h := by cases h
  inj _ _ _ h := by cases h
  holds _ _ _ h := by cases h
  typed _ _ h := by cases h
  ids _ _ := rfl
  invoked _ _ h := by cases h
  done _ _ _ _ h := by cases h
  logged _ h := by cases h
  order := .nil
  times _ h := by cases h

section Step

variable {s : Sys} (hI : Inv s)
include hI

theorem Inv.view_eq {u : UserID} {r : Nat} (h : s.users u = some r) :
    s.recs r = Spec.init.after s.log u := by
  rw [← hI.view u, Sys.view, h]

theorem Inv.not_logged {i : Nat} {c : Call} (hc : s.calls i = some c)
    (hpc : ∀ r t, c.pc ≠ .done r t) : ∀ e ∈ s.log, e.id ≠ i := by
  rintro e he rfl
  have := hI.logged e he
  rw [hc] at this
  cases this
  exact hpc _ _ rfl

theorem Inv.lt_ncalls {i : Nat} {c : Call} (hc : s.calls i = some c) : i < s.ncalls :=
  Nat.lt_of_not_le fun h => by rw [hI.ids i h] at hc; cases hc

/-- A call that has not returned moves on; if it now holds a record, the map's. -/
theorem Inv.move {i : Nat} {c : Call} (hc : s.calls i = some c) (hpc : ∀ r t, c.pc ≠ .done r t)
    (pc : Pc) (hnew : ∀ r t, pc ≠ .done r t)
    (hheld : ∀ r, pc = .holds r → s.users c.req.user = some r) : Inv (s.setPc i c pc) where
  view := hI.view
  legal := hI.legal
  fresh := hI.fresh
  inj := hI.inj
  holds j c' r hj hpc' := by
    by_cases hji : j = i
    · subst hji
      simp only [Sys.setPc, Function.update_same, Option.some.injEq] at hj
      subst hj
      exact hheld r hpc'
    · simp only [Sys.setPc, Function.update_noteq hji] at hj
      exact hI.holds j c' r hj hpc'
  typed j c' hj := by
    by_cases hji : j = i
    · subst hji
      simp only [Sys.setPc, Function.update_same, Option.some.injEq] at hj
      subst hj
      exact hI.typed _ c hc
    · simp only [Sys.setPc, Function.update_noteq hji] at hj
      exact hI.typed j c' hj
  ids j hj := by
    rw [Sys.setPc_ncalls] at hj
    simp only [Sys.setPc, Function.update_noteq (show j ≠ i by have := hI.lt_ncalls hc; omega)]
    exact hI.ids j hj
  invoked j c' hj := by
    by_cases hji : j = i
    · subst hji
      simp only [Sys.setPc, Function.update_same, Option.some.injEq] at hj
      subst hj
      exact hI.invoked _ c hc
    · simp only [Sys.setPc, Function.update_noteq hji] at hj
      exact hI.invoked j c' hj
  done j c' r t hj hd := by
    by_cases hji : j = i
    · subst hji
      simp only [Sys.setPc, Function.update_same, Option.some.injEq] at hj
      subst hj
      exact absurd hd (hnew r t)
    · simp only [Sys.setPc, Function.update_noteq hji] at hj
      exact hI.done j c' r t hj hd
  logged e he := by
    simpa [Sys.setPc, Function.update_noteq (hI.not_logged hc hpc e he)] using hI.logged e he
  order := hI.order
  times := hI.times

/-- An invocation adds a call that has not started. -/
theorem Inv.invoke {q : Req} (hq : q.Typed) : Inv { s with
    calls := Function.update s.calls s.ncalls (some ⟨q, .start, s.clock⟩)
    ncalls := s.ncalls + 1
    clock := s.clock + 1 } where
  view := hI.view
  legal := hI.legal
  fresh := hI.fresh
  inj := hI.inj
  holds j c r hj hpc := by
    by_cases hj' : j = s.ncalls
    · subst hj'; simp only [Function.update_same, Option.some.injEq] at hj; subst hj; cases hpc
    · simp only [Function.update_noteq hj'] at hj; exact hI.holds j c r hj hpc
  typed j c hj := by
    by_cases hj' : j = s.ncalls
    · subst hj'; simp only [Function.update_same, Option.some.injEq] at hj; subst hj; exact hq
    · simp only [Function.update_noteq hj'] at hj; exact hI.typed j c hj
  ids j hj := by
    dsimp only at hj ⊢
    rw [Function.update_noteq (show j ≠ s.ncalls by omega)]
    exact hI.ids j (by omega)
  invoked j c hj := by
    by_cases hj' : j = s.ncalls
    · subst hj'; simp only [Function.update_same, Option.some.injEq] at hj; subst hj
      exact Nat.lt_succ_self _
    · simp only [Function.update_noteq hj'] at hj; exact Nat.lt_succ_of_lt (hI.invoked j c hj)
  done j c r t hj hd := by
    by_cases hj' : j = s.ncalls
    · subst hj'; simp only [Function.update_same, Option.some.injEq] at hj; subst hj; cases hd
    · simp only [Function.update_noteq hj'] at hj; exact hI.done j c r t hj hd
  logged e he := by
    have h := hI.logged e he
    simpa [Function.update_noteq (hI.lt_ncalls h).ne] using h
  order := hI.order
  times e he := ⟨(hI.times e he).1, Nat.lt_succ_of_lt (hI.times e he).2⟩

/-- A new empty record for a user without one changes no user's state. -/
theorem Inv.alloc {u : UserID} (hu : s.users u = none) : Inv { s with
    users := Function.update s.users u (some s.nrec)
    recs := Function.update s.recs s.nrec (UserState.empty u)
    nrec := s.nrec + 1 } := by
  have hold : ∀ v r, s.users v = some r → v ≠ u := fun v r hv h => by rw [h, hu] at hv; cases hv
  refine ⟨fun v => ?_, hI.legal, fun v r hv => ?_, fun v w r hv hw => ?_, fun j c r hj hpc => ?_,
    hI.typed, hI.ids, hI.invoked, hI.done, hI.logged, hI.order, hI.times⟩
  · rw [← hI.view v]
    by_cases hv : v = u
    · subst hv; simp [Sys.view, hu]
    · simp only [Sys.view, Function.update_noteq hv]
      cases h : s.users v with
      | none => rfl
      | some r => simp [Function.update_noteq (hI.fresh v r h).ne]
  · by_cases hvu : v = u
    · subst hvu; simp at hv; subst hv; exact Nat.lt_succ_self _
    · simp only [Function.update_noteq hvu] at hv; exact Nat.lt_succ_of_lt (hI.fresh v r hv)
  · by_cases hvu : v = u <;> by_cases hwu : w = u
    · rw [hvu, hwu]
    · subst hvu; simp only [Function.update_same, Function.update_noteq hwu] at hv hw
      cases hv; exact absurd (hI.fresh w _ hw) (lt_irrefl _)
    · subst hwu; simp only [Function.update_same, Function.update_noteq hvu] at hv hw
      cases hw; exact absurd (hI.fresh v _ hv) (lt_irrefl _)
    · simp only [Function.update_noteq hvu, Function.update_noteq hwu] at hv hw
      exact hI.inj v w r hv hw
  · have h := hI.holds j c r hj hpc
    simpa [Function.update_noteq (hold _ _ h)] using h

/-- A call that lost no race stores a new, empty record for its user. -/
theorem Inv.storeNew {i : Nat} {c : Call} (hc : s.calls i = some c) (hpc : c.pc = .miss)
    (hu : s.users c.req.user = none) : Inv { s.setPc i c (.holds s.nrec) with
      users := Function.update s.users c.req.user (some s.nrec)
      recs := Function.update s.recs s.nrec (UserState.empty c.req.user)
      nrec := s.nrec + 1 } :=
  (hI.alloc hu).move (c := c) hc (by simp [hpc]) (.holds s.nrec) (by simp)
    (fun r h => by cases h; exact Function.update_same _ _ _)

/-- The critical section of a call that holds its user's record, and its return. -/
theorem Inv.exec {i : Nat} {c : Call} {r : Nat} (hc : s.calls i = some c) (hpc : c.pc = .holds r) :
    Inv { s.setPc i c (.done (c.req.run (s.recs r)).1 s.clock) with
      recs := Function.update s.recs r (c.req.run (s.recs r)).2
      clock := s.clock + 1
      log := s.log ++ [⟨i, c.req, (c.req.run (s.recs r)).1, c.inv, s.clock⟩] } := by
  have hr := hI.holds i c r hc hpc
  have hrun : c.req.run (s.recs r) = c.req.spec (Spec.init.after s.log c.req.user) := by
    rw [hI.view_eq hr, run_eq_spec (hI.typed i c hc) (Spec.after_typed Spec.init_typed _ _)]
  have hni := hI.not_logged hc (by simp [hpc])
  refine ⟨fun v => ?_, ?_, hI.fresh, hI.inj, fun j c' r' hj hpc' => ?_, fun j c' hj => ?_,
    fun j hj => ?_, fun j c' hj => ?_, fun j c' r' t hj hd => ?_, fun e he => ?_, ?_, fun e he => ?_⟩
  · rw [Spec.after_append_single]
    by_cases hv : v = c.req.user
    · subst hv; simp [Sys.view, hr, hrun, Spec.apply]
    · simp only [Spec.apply, Function.update_noteq hv]
      rw [← hI.view v]
      simp only [Sys.view, Sys.setPc_users]
      cases h : s.users v with
      | none => rfl
      | some r' =>
        have : r' ≠ r := fun he => hv (hI.inj v _ r (he ▸ h) hr)
        simp [Function.update_noteq this]
  · rw [legal_append_single]
    exact ⟨hI.legal, by simp [hrun, Spec.apply]⟩
  · by_cases hji : j = i
    · subst hji; simp [Sys.setPc] at hj; subst hj; cases hpc'
    · simp only [Sys.setPc, Function.update_noteq hji] at hj; exact hI.holds j c' r' hj hpc'
  · by_cases hji : j = i
    · subst hji; simp [Sys.setPc] at hj; subst hj; exact hI.typed _ c hc
    · simp only [Sys.setPc, Function.update_noteq hji] at hj; exact hI.typed j c' hj
  · dsimp only [Sys.setPc] at hj ⊢
    rw [Function.update_noteq (show j ≠ i by have := hI.lt_ncalls hc; omega)]
    exact hI.ids j hj
  · by_cases hji : j = i
    · subst hji; simp [Sys.setPc] at hj; subst hj; exact Nat.lt_succ_of_lt (hI.invoked _ c hc)
    · simp only [Sys.setPc, Function.update_noteq hji] at hj
      exact Nat.lt_succ_of_lt (hI.invoked j c' hj)
  · by_cases hji : j = i
    · subst hji; simp [Sys.setPc] at hj; subst hj; cases hd; simp
    · simp only [Sys.setPc, Function.update_noteq hji] at hj
      exact List.mem_append_left _ (hI.done j c' r' t hj hd)
  · rcases List.mem_append.1 he with he | he
    · simpa [Sys.setPc, Function.update_noteq (hni e he)] using hI.logged e he
    · simp at he; subst he; simp [Sys.setPc]
  · refine List.pairwise_append.2 ⟨hI.order, by simp, fun a ha b hb => ?_⟩
    simp at hb; subst hb; exact (hI.times a ha).2
  · rcases List.mem_append.1 he with he | he
    · exact ⟨(hI.times e he).1, Nat.lt_succ_of_lt (hI.times e he).2⟩
    · simp at he; subst he; exact ⟨hI.invoked i c hc, Nat.lt_succ_self _⟩

end Step


/-! ### Every reachable state -/

theorem Inv.step {s s' : Sys} {a : Act} (hI : Inv s) (h : s.step a = some s') : Inv s' := by
  rcases step_cases h with ⟨q, hq, rfl⟩ | ⟨i, c, hc, hpc, rfl⟩ | ⟨i, c, r, hc, hpc, hu, rfl⟩ |
    ⟨i, c, hc, hpc, hu, rfl⟩ | ⟨i, c, r, hc, hpc, rfl⟩
  · exact hI.invoke hq
  · exact hI.move hc (by simp [hpc]) _ (by split <;> simp) fun r hr => by split at hr <;> simp_all
  · exact hI.move hc (by simp [hpc]) _ (by simp) fun r' h => by cases h; exact hu
  · exact hI.storeNew hc hpc hu
  · exact hI.exec hc hpc

theorem reachable_inv {s : Sys} (hs : Reachable s) : Inv s := by
  induction hs with
  | init => exact inv_init
  | step a _ h ih => exact ih.step h

end GamifyKit.Memory
