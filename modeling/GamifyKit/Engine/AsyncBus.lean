import GamifyKit.Engine.EventBus

/-! The `EventBus` of package `engine` in `DispatchAsync` mode, the mode `gamify.New` builds by
    default: `Publish` puts an event in a queue of 2048 or drops it when the queue is full, four
    workers each loop on a `select` between a receive from the queue, which they hand to
    `dispatchSync`, and `ctx.Done()`, and `Close` cancels the context. Each receive, copy of the
    handlers and handler call is a step, the steps of workers and callers interleave in any order,
    and beside the code's state a bus records the events accepted and taken, the copies and the
    calls. Over every schedule each accepted event is taken once, in order, and each handler it
    copied is called once (`reachable_accounts`); some schedule delivers everything queued
    (`drain_delivers`), `Close` can strand the queue (`close_strands`), and two events can be
    handled in the reverse of the order they were published in (`dispatch_reorders`). -/

namespace GamifyKit.Engine
open GamifyKit.Go GamifyKit.Core

/-- The capacity of `asyncQueue`: `make(chan core.Event, 2048)`. -/
def asyncQueueCap : Nat := 2048

/-- `asyncWorkers`. -/
def asyncWorkers : Nat := 4

/-- Where a goroutine of `startWorkers` stands: in its `select`; holding the event it received,
    before `dispatchSync` copies the handlers; calling the handlers `dispatchSync` copied, those
    still to call; or returned. -/
inductive Worker (H : Type)
  | selecting
  | received (ev : Event)
  | calling (ev : Event) (handlers : List H)
  | returned
  deriving DecidableEq

/-- A bus in `DispatchAsync` mode: the subscriptions with `nextID`, the cancel functions handed
    out, `asyncQueue` (oldest first), whether `cancel` has closed `ctx.Done()`, and the workers.
    Beside them, what a run observes: the events the queue accepted and those the workers took,
    in order, each copy of handlers with its event, and each handler call with its event. -/
structure AsyncBus (H : Type) where
  bus : EventBus H
  cancels : List (GoString × Int)
  queue : List Event
  cancelled : Bool
  workers : List (Worker H)
  accepted : List Event
  taken : List Event
  copies : List (Event × List H)
  calls : List (H × Event)

/-- The steps of a schedule: a call on the bus, or a step of worker `i`. -/
inductive AsyncAct (H : Type)
  /-- `Subscribe(typ, handler)`. -/
  | subscribe (typ : GoString) (handler : H)
  /-- A call of the cancel function the `k`-th `Subscribe` returned, from 0. -/
  | cancel (k : Nat)
  /-- `Publish(ctx, ev)`. -/
  | publish (ev : Event)
  /-- `Close()`. -/
  | close
  /-- Worker `i`'s `select` takes the receive from the queue. -/
  | recv (i : Nat)
  /-- Worker `i`'s `select` takes `ctx.Done()`, and the goroutine returns. -/
  | exit (i : Nat)
  /-- Worker `i`'s next step in `dispatchSync`: the copy of the handlers, a handler call, or the
      return to the `select`. -/
  | work (i : Nat)

variable {H : Type}

/-- `NewEventBus(DispatchAsync)`, its workers started. -/
def NewAsyncBus : AsyncBus H :=
  ⟨NewEventBus, [], [], false, List.replicate asyncWorkers .selecting, [], [], [], []⟩

/-- The handler calls a dispatch of `ev` to the handlers `hs` makes, in order. -/
def deliveries (ev : Event) (hs : List H) : List (H × Event) := hs.map (·, ev)

namespace AsyncBus

/-- One step of a schedule, or `none` where it is not enabled. -/
def step (s : AsyncBus H) : AsyncAct H → Option (AsyncBus H)
  | .subscribe typ handler =>
    some { s with bus := (s.bus.Subscribe typ handler).1,
                  cancels := s.cancels ++ [(s.bus.Subscribe typ handler).2] }
  | .cancel k =>
    match s.cancels[k]? with
    | some (typ, id) => some { s with bus := s.bus.cancel typ id }
    | none => some s
  | .publish ev =>
    if s.queue.length < asyncQueueCap then
      some { s with queue := s.queue ++ [ev], accepted := s.accepted ++ [ev] }
    else some s
  | .close => some { s with cancelled := true }
  | .recv i =>
    match s.workers[i]?, s.queue with
    | some .selecting, ev :: q =>
      some { s with workers := s.workers.set i (.received ev), queue := q, taken := s.taken ++ [ev] }
    | _, _ => none
  | .exit i =>
    match s.workers[i]?, s.cancelled with
    | some .selecting, true => some { s with workers := s.workers.set i .returned }
    | _, _ => none
  | .work i =>
    match s.workers[i]? with
    | some (.received ev) =>
      some { s with workers := s.workers.set i (.calling ev (s.bus.dispatchSync ev)),
                    copies := s.copies ++ [(ev, s.bus.dispatchSync ev)] }
    | some (.calling ev (h :: hs)) =>
      some { s with workers := s.workers.set i (.calling ev hs), calls := s.calls ++ [(h, ev)] }
    | some (.calling _ []) => some { s with workers := s.workers.set i .selecting }
    | _ => none

/-- The state after a schedule from `s`, if every step of it is enabled. -/
def runFrom (s : AsyncBus H) (acts : List (AsyncAct H)) : Option (AsyncBus H) :=
  acts.foldlM step s

/-- The states some schedule reaches from a new bus. -/
inductive Reachable : AsyncBus H → Prop
  | init : Reachable NewAsyncBus
  | step {s s' : AsyncBus H} (a : AsyncAct H) : Reachable s → s.step a = some s' → Reachable s'

theorem runFrom_cons (s : AsyncBus H) (a : AsyncAct H) (acts : List (AsyncAct H)) :
    s.runFrom (a :: acts) = (s.step a).bind fun s' => s'.runFrom acts := rfl

theorem Reachable.runFrom : ∀ {s s' : AsyncBus H} (acts : List (AsyncAct H)), Reachable s →
    s.runFrom acts = some s' → Reachable s'
  | _, _, [], hs, h => by cases h; exact hs
  | s, _, a :: acts, hs, h => by
    rw [runFrom_cons] at h
    cases ha : s.step a with
    | none => rw [ha] at h; cases h
    | some s₁ => rw [ha] at h; exact Reachable.runFrom acts (.step a hs ha) h

/-- A step of worker `i`'s `select` that receives. -/
theorem step_recv {s s' : AsyncBus H} {i : Nat} (h : s.step (.recv i) = some s') :
    ∃ ev q, s.workers[i]? = some .selecting ∧ s.queue = ev :: q ∧
      s' = { s with workers := s.workers.set i (.received ev), queue := q, taken := s.taken ++ [ev] } := by
  simp only [step] at h
  split at h
  · cases h; exact ⟨_, _, ‹_›, ‹_›, rfl⟩
  · cases h

/-- A step of worker `i`'s `select` that returns. -/
theorem step_exit {s s' : AsyncBus H} {i : Nat} (h : s.step (.exit i) = some s') :
    s.workers[i]? = some .selecting ∧ s.cancelled = true ∧
      s' = { s with workers := s.workers.set i .returned } := by
  simp only [step] at h
  split at h
  · cases h; exact ⟨‹_›, ‹_›, rfl⟩
  · cases h

/-- A step of worker `i` in `dispatchSync`: the copy, a handler call, or the return to the
    `select`. -/
theorem step_work {s s' : AsyncBus H} {i : Nat} (h : s.step (.work i) = some s') :
    (∃ ev, s.workers[i]? = some (.received ev) ∧
      s' = { s with workers := s.workers.set i (.calling ev (s.bus.dispatchSync ev)),
                    copies := s.copies ++ [(ev, s.bus.dispatchSync ev)] }) ∨
    (∃ ev f hs, s.workers[i]? = some (.calling ev (f :: hs)) ∧
      s' = { s with workers := s.workers.set i (.calling ev hs), calls := s.calls ++ [(f, ev)] }) ∨
    (∃ ev, s.workers[i]? = some (.calling ev []) ∧
      s' = { s with workers := s.workers.set i .selecting }) := by
  simp only [step] at h
  split at h
  · cases h; exact .inl ⟨_, ‹_›, rfl⟩
  · cases h; exact .inr (.inl ⟨_, _, _, ‹_›, rfl⟩)
  · cases h; exact .inr (.inr ⟨_, ‹_›, rfl⟩)
  · cases h

end AsyncBus

/-! ### Every schedule: each accepted event is taken once, dispatched once, and its handlers
    called once -/

namespace Worker

/-- The event a worker received and has not yet given to `dispatchSync`'s copy. -/
def held : Worker H → List Event
  | .received ev => [ev]
  | _ => []

/-- The handler calls a worker's dispatch still owes. -/
def owed : Worker H → List (H × Event)
  | .calling ev hs => deliveries ev hs
  | _ => []

end Worker

/-- Putting `b` in the place of the `i`-th element `a` of a list changes what a `flatMap` over it
    collects by `f a` out and `f b` in. -/
theorem flatMap_set_perm {α β : Type} (f : α → List β) :
    ∀ {l : List α} {i : Nat} {a : α}, l[i]? = some a → ∀ b : α,
      ((l.set i b).flatMap f ++ f a).Perm (l.flatMap f ++ f b)
  | [], _, _, h, _ => by simp at h
  | x :: xs, 0, a, h, b => by
    simp only [List.getElem?_cons_zero, Option.some.injEq] at h
    subst h
    simp only [List.set_cons_zero, List.flatMap_cons, List.append_assoc]
    calc List.Perm (f b ++ (xs.flatMap f ++ f x)) (f x ++ (f b ++ xs.flatMap f)) := by
          rw [← List.append_assoc]; exact List.perm_append_comm
      List.Perm _ (f x ++ (xs.flatMap f ++ f b)) := List.perm_append_comm.append_left _
  | x :: xs, i + 1, a, h, b => by
    simp only [List.set_cons_succ, List.flatMap_cons, List.append_assoc]
    rw [List.getElem?_cons_succ] at h
    exact (flatMap_set_perm f h b).append_left _

namespace AsyncBus

/-- What every reachable bus keeps: four workers; at most 2048 queued events; the events taken
    and those queued are those accepted, in order; every event taken has been copied for, once,
    or is held by a worker; every handler a copy found has been called, once, or is owed by the
    worker copying; and a worker returns only once the context is cancelled. -/
structure Accounts (s : AsyncBus H) : Prop where
  workers : s.workers.length = asyncWorkers
  cap : s.queue.length ≤ asyncQueueCap
  fifo : s.taken ++ s.queue = s.accepted
  taken : (s.copies.map Prod.fst ++ s.workers.flatMap Worker.held).Perm s.taken
  calls : (s.calls ++ s.workers.flatMap Worker.owed).Perm
    (s.copies.flatMap fun c => deliveries c.1 c.2)
  returned : Worker.returned ∈ s.workers → s.cancelled = true

theorem accounts_init : (NewAsyncBus : AsyncBus H).Accounts where
  workers := rfl
  cap := Nat.zero_le _
  fifo := rfl
  taken := by simp [NewAsyncBus, asyncWorkers, Worker.held]
  calls := by simp [NewAsyncBus, asyncWorkers, Worker.owed]
  returned h := by simp [NewAsyncBus] at h

/-- A worker that stops at `b` in place of `a` where neither returned. -/
theorem returned_of_set {l : List (Worker H)} {i : Nat} {b : Worker H} (hb : b ≠ .returned)
    (h : Worker.returned ∈ l.set i b) : Worker.returned ∈ l :=
  (List.mem_or_eq_of_mem_set h).resolve_right fun h' => hb h'.symm

theorem Accounts.recv {s s' : AsyncBus H} {i : Nat} (hs : s.Accounts) (h : s.step (.recv i) = some s') :
    s'.Accounts := by
  obtain ⟨ev, q, hi, hq, rfl⟩ := step_recv h
  have held := flatMap_set_perm Worker.held hi (.received ev)
  have owed := flatMap_set_perm Worker.owed hi (.received ev)
  simp only [Worker.held, Worker.owed, List.append_nil] at held owed
  refine ⟨(List.length_set ..).trans hs.workers, ?_, ?_, ?_, (owed.append_left _).trans hs.calls,
    fun h => hs.returned (returned_of_set (i := i) (b := .received ev) nofun h)⟩ <;> dsimp only
  · have := hs.cap; rw [hq] at this; exact Nat.le_of_succ_le this
  · rw [List.append_assoc, List.singleton_append, ← hq, hs.fifo]
  · exact (held.append_left _).trans (by rw [← List.append_assoc]; exact hs.taken.append_right _)

theorem Accounts.exit {s s' : AsyncBus H} {i : Nat} (hs : s.Accounts) (h : s.step (.exit i) = some s') :
    s'.Accounts := by
  obtain ⟨hi, hc, rfl⟩ := step_exit h
  have held := flatMap_set_perm Worker.held hi .returned
  have owed := flatMap_set_perm Worker.owed hi .returned
  simp only [Worker.held, Worker.owed, List.append_nil] at held owed
  exact ⟨(List.length_set ..).trans hs.workers, hs.cap, hs.fifo, (held.append_left _).trans hs.taken,
    (owed.append_left _).trans hs.calls, fun _ => hc⟩

theorem Accounts.work {s s' : AsyncBus H} {i : Nat} (hs : s.Accounts) (h : s.step (.work i) = some s') :
    s'.Accounts := by
  rcases step_work h with ⟨ev, hi, rfl⟩ | ⟨ev, f, fs, hi, rfl⟩ | ⟨ev, hi, rfl⟩
  · have held := flatMap_set_perm Worker.held hi (.calling ev (s.bus.dispatchSync ev))
    have owed := flatMap_set_perm Worker.owed hi (.calling ev (s.bus.dispatchSync ev))
    simp only [Worker.held, Worker.owed, List.append_nil] at held owed
    refine ⟨(List.length_set ..).trans hs.workers, hs.cap, hs.fifo, ?_, ?_,
      fun h => hs.returned (returned_of_set (i := i) (b := .calling ev (s.bus.dispatchSync ev))
        nofun h)⟩ <;> dsimp only
    · rw [List.map_append, List.append_assoc]
      exact ((List.perm_append_comm.trans held).append_left _).trans hs.taken
    · rw [List.flatMap_append, List.flatMap_singleton]
      refine (owed.append_left _).trans ?_
      rw [← List.append_assoc]
      exact hs.calls.append_right _
  · have held := flatMap_set_perm Worker.held hi (.calling ev fs)
    have owed := flatMap_set_perm Worker.owed hi (.calling ev fs)
    simp only [Worker.held, Worker.owed, List.append_nil, deliveries, List.map_cons] at held owed
    have owed' : ((s.workers.set i (.calling ev fs)).flatMap Worker.owed ++ [(f, ev)]).Perm
        (s.workers.flatMap Worker.owed) :=
      (List.perm_append_right_iff (fs.map (·, ev))).1 (by simpa only [List.append_assoc] using owed)
    refine ⟨(List.length_set ..).trans hs.workers, hs.cap, hs.fifo, (held.append_left _).trans hs.taken,
      ?_, fun h => hs.returned (returned_of_set (i := i) (b := .calling ev fs) nofun h)⟩
    dsimp only
    rw [List.append_assoc]
    exact ((List.perm_append_comm.trans owed').append_left _).trans hs.calls
  · have held := flatMap_set_perm Worker.held hi .selecting
    have owed := flatMap_set_perm Worker.owed hi .selecting
    simp only [Worker.held, Worker.owed, List.append_nil, deliveries, List.map_nil] at held owed
    exact ⟨(List.length_set ..).trans hs.workers, hs.cap, hs.fifo, (held.append_left _).trans hs.taken,
      (owed.append_left _).trans hs.calls,
      fun h => hs.returned (returned_of_set (i := i) (b := .selecting) nofun h)⟩

/-- Every step keeps the accounts. -/
theorem Accounts.step {s s' : AsyncBus H} (hs : s.Accounts) :
    ∀ {a : AsyncAct H}, s.step a = some s' → s'.Accounts
  | .subscribe _ _, h => by cases h; exact ⟨hs.1, hs.2, hs.3, hs.4, hs.5, hs.6⟩
  | .cancel k, h => by
    simp only [AsyncBus.step] at h
    split at h <;> cases h
    · exact ⟨hs.1, hs.2, hs.3, hs.4, hs.5, hs.6⟩
    · exact hs
  | .publish ev, h => by
    simp only [AsyncBus.step] at h
    split_ifs at h with hq <;> cases h
    · refine ⟨hs.1, ?_, by rw [← List.append_assoc, hs.fifo], hs.4, hs.5, hs.6⟩
      rw [List.length_append, List.length_singleton]; exact hq
    · exact hs
  | .close, h => by cases h; exact ⟨hs.1, hs.2, hs.3, hs.4, hs.5, fun _ => rfl⟩
  | .recv _, h => hs.recv h
  | .exit _, h => hs.exit h
  | .work _, h => hs.work h

/-- Over every schedule of a bus in `DispatchAsync` mode: four workers; at most 2048 events
    queued; the workers have taken the accepted events in the order they were queued and the
    rest wait in the queue, so none is taken twice; each event taken has been copied for once, or
    is held by the worker that took it; each handler a copy found has been called once, or is
    still owed by the worker; no other call is made; and a worker has returned only after
    `Close`. -/
theorem reachable_accounts {s : AsyncBus H} (h : s.Reachable) : s.Accounts := by
  induction h with
  | init => exact accounts_init
  | step _ _ hs' ih => exact ih.step hs'

/-- A new bus, before any call. -/
theorem reachable_accounts_new :
    (NewAsyncBus : AsyncBus Nat).Reachable ∧ (NewAsyncBus : AsyncBus Nat).Accounts :=
  ⟨.init, reachable_accounts .init⟩

/-- Events published while the queue has room for them are queued, in order. -/
theorem runFrom_publish : ∀ (evs : List Event) {s : AsyncBus H},
    s.queue.length + evs.length ≤ asyncQueueCap →
      s.runFrom (evs.map .publish) = some { s with queue := s.queue ++ evs, accepted := s.accepted ++ evs }
  | [], _, _ => by simp only [List.map_nil, List.append_nil]; rfl
  | ev :: evs, s, h => by
    rw [List.length_cons] at h
    have hlt : s.queue.length < asyncQueueCap := by omega
    have h' : (s.queue ++ [ev]).length + evs.length ≤ asyncQueueCap := by
      rw [List.length_append, List.length_singleton]; omega
    rw [List.map_cons, runFrom_cons, step, if_pos hlt, Option.some_bind,
      runFrom_publish evs (s := { s with queue := s.queue ++ [ev], accepted := s.accepted ++ [ev] }) h']
    simp only [List.append_assoc, List.singleton_append]

end AsyncBus

/-! ### Schedules that deliver, and schedules that strand -/

namespace Worker

/-- Where a worker stands once it has finished the dispatch under way. -/
def settle : Worker H → Worker H
  | .returned => .returned
  | _ => .selecting

/-- The copy a worker makes in finishing the dispatch under way, from the subscriptions of
    `bus`. -/
def copied (bus : EventBus H) : Worker H → List (Event × List H)
  | .received ev => [(ev, bus.dispatchSync ev)]
  | _ => []

/-- The handler calls a worker makes in finishing the dispatch under way, from the subscriptions
    of `bus`. -/
def rest (bus : EventBus H) : Worker H → List (H × Event)
  | .received ev => deliveries ev (bus.dispatchSync ev)
  | .calling ev hs => deliveries ev hs
  | _ => []

theorem settle_idle (w : Worker H) : w.settle = .selecting ∨ w.settle = .returned := by
  cases w <;> simp [settle]

end Worker

theorem set_eq_self_of_getElem? {α : Type} {l : List α} {i : Nat} {a : α} (h : l[i]? = some a) :
    l.set i a = l :=
  List.ext_getElem? fun j => by
    rw [List.getElem?_set]
    split_ifs with h₁ h₂
    · rw [← h₁, h]
    · exact absurd (h₁ ▸ (List.getElem?_eq_some_iff.1 h).1) h₂
    · rfl

namespace AsyncBus

theorem step_recv_eq {s : AsyncBus H} {i : Nat} {ev : Event} {q : List Event}
    (hi : s.workers[i]? = some .selecting) (hq : s.queue = ev :: q) :
    s.step (.recv i) = some { s with workers := s.workers.set i (.received ev), queue := q,
                                     taken := s.taken ++ [ev] } := by
  simp only [step, hi, hq]

theorem step_exit_eq {s : AsyncBus H} {i : Nat} (hi : s.workers[i]? = some .selecting)
    (hc : s.cancelled = true) : s.step (.exit i) = some { s with workers := s.workers.set i .returned } := by
  simp only [step, hi, hc]

theorem step_copy_eq {s : AsyncBus H} {i : Nat} {ev : Event} (hi : s.workers[i]? = some (.received ev)) :
    s.step (.work i) = some { s with workers := s.workers.set i (.calling ev (s.bus.dispatchSync ev)),
                                     copies := s.copies ++ [(ev, s.bus.dispatchSync ev)] } := by
  simp only [step, hi]

theorem step_call_eq {s : AsyncBus H} {i : Nat} {ev : Event} {f : H} {fs : List H}
    (hi : s.workers[i]? = some (.calling ev (f :: fs))) :
    s.step (.work i) = some { s with workers := s.workers.set i (.calling ev fs),
                                     calls := s.calls ++ [(f, ev)] } := by
  simp only [step, hi]

theorem step_done_eq {s : AsyncBus H} {i : Nat} {ev : Event} (hi : s.workers[i]? = some (.calling ev [])) :
    s.step (.work i) = some { s with workers := s.workers.set i .selecting } := by
  simp only [step, hi]

/-- Some schedule leads from `s` to `t`. -/
def Leads (s t : AsyncBus H) : Prop := ∃ acts, s.runFrom acts = some t

theorem Leads.of_eq {s t : AsyncBus H} (h : s = t) : s.Leads t := ⟨[], congrArg some h⟩

theorem Leads.head {s t u : AsyncBus H} {a : AsyncAct H} (h : s.step a = some t) (h' : t.Leads u) :
    s.Leads u :=
  let ⟨acts, hr⟩ := h'
  ⟨a :: acts, by rw [runFrom_cons, h]; exact hr⟩

theorem Leads.trans {s t u : AsyncBus H} (h : s.Leads t) (h' : t.Leads u) : s.Leads u :=
  let ⟨a, r⟩ := h
  let ⟨a', r'⟩ := h'
  ⟨a ++ a', by rw [runFrom, List.foldlM_append, ← runFrom, r]; exact r'⟩

/-- Worker `i`, calling handlers, calls the rest and goes back to its `select`. -/
theorem Leads.calling {ev : Event} : ∀ (fs : List H) {s : AsyncBus H} {i : Nat},
    s.workers[i]? = some (.calling ev fs) →
      s.Leads { s with workers := s.workers.set i .selecting, calls := s.calls ++ deliveries ev fs }
  | [], _, _, hi => .head (step_done_eq hi) (.of_eq (by simp only [deliveries, List.map_nil, List.append_nil]))
  | f :: fs, _, _, hi => .head (step_call_eq hi)
      ((Leads.calling fs (List.getElem?_set_self (List.getElem?_eq_some_iff.1 hi).1)).trans
        (.of_eq (by simp only [List.set_set, deliveries, List.map_cons, List.append_assoc,
          List.singleton_append])))

/-- Worker `i`, holding an event it received, copies the handlers, calls them, and goes back to
    its `select`. -/
theorem Leads.received {s : AsyncBus H} {i : Nat} {ev : Event} (hi : s.workers[i]? = some (.received ev)) :
    s.Leads { s with workers := s.workers.set i .selecting,
                     copies := s.copies ++ [(ev, s.bus.dispatchSync ev)],
                     calls := s.calls ++ deliveries ev (s.bus.dispatchSync ev) } :=
  .head (step_copy_eq hi) ((Leads.calling _ (List.getElem?_set_self (List.getElem?_eq_some_iff.1 hi).1)).trans
    (.of_eq (by simp only [List.set_set])))

/-- Worker `i`, in its `select`, takes the oldest queued event, dispatches it to the handlers
    subscribed, and goes back to its `select`. -/
theorem Leads.take {s : AsyncBus H} {i : Nat} {ev : Event} {q : List Event}
    (hi : s.workers[i]? = some .selecting) (hq : s.queue = ev :: q) :
    s.Leads { s with queue := q, taken := s.taken ++ [ev],
                     copies := s.copies ++ [(ev, s.bus.dispatchSync ev)],
                     calls := s.calls ++ deliveries ev (s.bus.dispatchSync ev) } :=
  .head (step_recv_eq hi hq) ((Leads.received (List.getElem?_set_self (List.getElem?_eq_some_iff.1 hi).1)).trans
    (.of_eq (by simp only [List.set_set, set_eq_self_of_getElem? hi])))

/-- A worker finishes the dispatch under way. -/
theorem Leads.settle {s : AsyncBus H} {i : Nat} {w : Worker H} (hi : s.workers[i]? = some w) :
    s.Leads { s with workers := s.workers.set i w.settle, copies := s.copies ++ w.copied s.bus,
                     calls := s.calls ++ w.rest s.bus } := by
  cases w with
  | selecting =>
    exact .of_eq (by simp only [Worker.settle, Worker.copied, Worker.rest, List.append_nil,
      set_eq_self_of_getElem? hi])
  | returned =>
    exact .of_eq (by simp only [Worker.settle, Worker.copied, Worker.rest, List.append_nil,
      set_eq_self_of_getElem? hi])
  | received ev => exact Leads.received hi
  | calling ev fs =>
    exact (Leads.calling fs hi).trans
      (.of_eq (by simp only [Worker.settle, Worker.copied, Worker.rest, List.append_nil]))

/-- The workers after `pre` finish their dispatches, one after the other. -/
theorem Leads.settle_suffix : ∀ (ws pre : List (Worker H)) {s : AsyncBus H}, s.workers = pre ++ ws →
    s.Leads { s with workers := pre ++ ws.map Worker.settle,
                     copies := s.copies ++ ws.flatMap (Worker.copied s.bus),
                     calls := s.calls ++ ws.flatMap (Worker.rest s.bus) }
  | [], _, _, h => .of_eq (by
      rw [List.append_nil] at h
      simp only [List.map_nil, List.flatMap_nil, List.append_nil, ← h])
  | w :: ws, pre, s, h => by
    have hi : s.workers[pre.length]? = some w := by
      rw [h, List.getElem?_append_right le_rfl, Nat.sub_self, List.getElem?_cons_zero]
    refine (Leads.settle hi).trans ((Leads.settle_suffix ws (pre ++ [w.settle]) ?_).trans (.of_eq ?_))
    · dsimp only
      rw [h, List.set_append_right _ _ le_rfl, Nat.sub_self, List.set_cons_zero, List.append_assoc,
        List.singleton_append]
    · simp only [List.map_cons, List.flatMap_cons, List.append_assoc, List.singleton_append]

/-- Once the context is cancelled, each idle worker after `pre` takes `ctx.Done()`. -/
theorem Leads.exit_all : ∀ (ws pre : List (Worker H)) {s : AsyncBus H}, s.cancelled = true →
    (∀ w ∈ ws, w = .selecting ∨ w = .returned) → s.workers = pre ++ ws →
    s.Leads { s with workers := pre ++ ws.map fun _ => .returned }
  | [], _, _, _, _, h => .of_eq (by
      rw [List.append_nil] at h
      simp only [List.map_nil, List.append_nil, ← h])
  | w :: ws, pre, s, hc, hw, h => by
    have hws : ∀ w' ∈ ws, w' = .selecting ∨ w' = .returned := fun w' h' => hw w' (List.mem_cons_of_mem _ h')
    have hi : s.workers[pre.length]? = some w := by
      rw [h, List.getElem?_append_right le_rfl, Nat.sub_self, List.getElem?_cons_zero]
    rcases hw w (List.mem_cons_self _ _) with rfl | rfl
    · refine .head (step_exit_eq hi hc)
        ((Leads.exit_all ws (pre ++ [.returned]) (by exact hc) hws ?_).trans (.of_eq ?_))
      · dsimp only
        rw [h, List.set_append_right _ _ le_rfl, Nat.sub_self, List.set_cons_zero, List.append_assoc,
          List.singleton_append]
      · simp only [List.map_cons, List.append_assoc, List.singleton_append]
    · refine (Leads.exit_all ws (pre ++ [.returned]) hc hws ?_).trans (.of_eq ?_)
      · rw [h, List.append_assoc, List.singleton_append]
      · simp only [List.map_cons, List.append_assoc, List.singleton_append]

/-- A worker whose `select` takes the queue delivers the queued events one after the other. -/
theorem Leads.queue {i : Nat} : ∀ (q : List Event) {s : AsyncBus H}, s.workers[i]? = some .selecting →
    s.queue = q →
    s.Leads { s with queue := [], taken := s.taken ++ q,
                     copies := s.copies ++ q.map fun ev => (ev, s.bus.dispatchSync ev),
                     calls := s.calls ++ q.flatMap fun ev => deliveries ev (s.bus.dispatchSync ev) }
  | [], ⟨_, _, _, _, _, _, _, _, _⟩, _, hq => by
    dsimp only at hq
    subst hq
    exact .of_eq (by simp only [List.append_nil, List.map_nil, List.flatMap_nil])
  | _ :: q, _, hi, hq => (Leads.take hi hq).trans ((Leads.queue q (by exact hi) (by rfl)).trans
      (.of_eq (by simp only [List.map_cons, List.flatMap_cons, List.append_assoc, List.singleton_append])))

/-- While one worker has not returned, some schedule finishes every dispatch under way and then
    delivers every queued event, in the order queued, to the handlers of its type: every worker
    ends in its `select` or returned, the queue empty, every queued event taken, and each handler
    called as the dispatches under way and the subscriptions of `s` say. -/
theorem drain_delivers {s : AsyncBus H} (hw : ∃ w ∈ s.workers, w ≠ .returned) :
    ∃ acts t, s.runFrom acts = some t ∧ t.workers = s.workers.map Worker.settle ∧ t.bus = s.bus ∧
      t.queue = [] ∧ t.taken = s.taken ++ s.queue ∧
      t.calls = s.calls ++ s.workers.flatMap (Worker.rest s.bus) ++
        s.queue.flatMap fun ev => deliveries ev (s.bus.dispatchSync ev) := by
  obtain ⟨w, hw, hr⟩ := hw
  obtain ⟨i, hi⟩ := List.mem_iff_getElem?.1 hw
  have hsel : (s.workers.map Worker.settle)[i]? = some .selecting := by
    rw [List.getElem?_map, hi, Option.map_some']
    exact congrArg some ((Worker.settle_idle w).resolve_right fun h => hr (by cases w <;> simp_all [Worker.settle]))
  obtain ⟨acts, h⟩ := (Leads.settle_suffix s.workers [] rfl).trans (Leads.queue _ hsel rfl)
  exact ⟨acts, _, h, rfl, rfl, rfl, rfl, rfl⟩

/-- A new bus with one badge event queued. -/
theorem drain_delivers_badge :
    let s : AsyncBus Nat := { NewAsyncBus with queue := [NewBadgeAwarded (lit "alice") (lit "gold")],
                                               accepted := [NewBadgeAwarded (lit "alice") (lit "gold")] }
    (∃ w ∈ s.workers, w ≠ .returned) ∧
      ∃ acts t, s.runFrom acts = some t ∧ t.workers = s.workers.map Worker.settle ∧ t.bus = s.bus ∧
        t.queue = [] ∧ t.taken = s.taken ++ s.queue ∧
        t.calls = s.calls ++ s.workers.flatMap (Worker.rest s.bus) ++
          s.queue.flatMap fun ev => deliveries ev (s.bus.dispatchSync ev) :=
  ⟨by decide, drain_delivers (by decide)⟩

/-- Once every worker has returned, no step takes an event or calls a handler. -/
theorem step_all_returned {s t : AsyncBus H} {a : AsyncAct H} (hr : ∀ w ∈ s.workers, w = .returned)
    (h : s.step a = some t) : t.workers = s.workers ∧ t.calls = s.calls ∧ t.taken = s.taken := by
  cases a with
  | recv i => obtain ⟨_, _, hi, -, -⟩ := step_recv h; cases hr _ (List.getElem?_mem hi)
  | exit i => obtain ⟨hi, -, -⟩ := step_exit h; cases hr _ (List.getElem?_mem hi)
  | work i =>
    rcases step_work h with ⟨_, hi, -⟩ | ⟨_, _, _, hi, -⟩ | ⟨_, hi, -⟩ <;> cases hr _ (List.getElem?_mem hi)
  | subscribe => cases h; exact ⟨rfl, rfl, rfl⟩
  | cancel k => simp only [step] at h; split at h <;> cases h <;> exact ⟨rfl, rfl, rfl⟩
  | publish ev => simp only [step] at h; split_ifs at h <;> cases h <;> exact ⟨rfl, rfl, rfl⟩
  | close => cases h; exact ⟨rfl, rfl, rfl⟩

theorem runFrom_all_returned : ∀ (acts : List (AsyncAct H)) {s t : AsyncBus H},
    (∀ w ∈ s.workers, w = .returned) → s.runFrom acts = some t → t.calls = s.calls ∧ t.taken = s.taken
  | [], _, _, _, h => by cases h; exact ⟨rfl, rfl⟩
  | a :: acts, s, _, hr, h => by
    rw [runFrom_cons] at h
    cases ha : s.step a with
    | none => rw [ha] at h; cases h
    | some s₁ =>
      rw [ha] at h
      obtain ⟨hw, hc, ht⟩ := step_all_returned hr ha
      obtain ⟨hc', ht'⟩ := runFrom_all_returned acts (fun w h' => hr w (hw ▸ h')) h
      exact ⟨hc'.trans hc, ht'.trans ht⟩

/-- `Close` does not drain the queue. From any state, some schedule finishes the dispatches under
    way, calls `Close`, and has every worker's `select` take `ctx.Done()`: the queue keeps every
    event it held, none of them taken, every worker has returned, and after that no schedule,
    whatever it publishes, takes an event or calls a handler. -/
theorem close_strands (s : AsyncBus H) :
    ∃ acts t, s.runFrom acts = some t ∧ t.cancelled = true ∧ t.queue = s.queue ∧
      t.taken = s.taken ∧ (∀ w ∈ t.workers, w = .returned) ∧
      t.calls = s.calls ++ s.workers.flatMap (Worker.rest s.bus) ∧
      ∀ acts' u, t.runFrom acts' = some u → u.calls = t.calls ∧ u.taken = t.taken := by
  have hidle : ∀ w ∈ s.workers.map Worker.settle, w = .selecting ∨ w = .returned := by
    simp only [List.mem_map]
    rintro _ ⟨w, -, rfl⟩
    exact Worker.settle_idle w
  obtain ⟨acts, h⟩ := (Leads.settle_suffix s.workers [] rfl).trans
    (Leads.head (a := .close) rfl (Leads.exit_all _ [] rfl hidle rfl))
  have hr : ∀ w ∈ [] ++ (s.workers.map Worker.settle).map fun _ => (.returned : Worker H),
      w = .returned := by
    simp only [List.nil_append, List.mem_map]
    rintro _ ⟨_, -, rfl⟩
    rfl
  exact ⟨acts, _, h, rfl, rfl, rfl, hr, rfl, fun acts' _ => runFrom_all_returned acts' hr⟩

/-- Four workers reorder. In a state with nothing queued and workers 0 and 1 in their `select`,
    two events published one after the other can be handled the other way round: worker 0 takes
    the first, worker 1 takes the second and calls all its handlers, and only then does worker 0
    call the first's. -/
theorem dispatch_reorders {s : AsyncBus H} (hq : s.queue = []) (h₀ : s.workers[0]? = some .selecting)
    (h₁ : s.workers[1]? = some .selecting) (e₁ e₂ : Event) :
    ∃ acts t, s.runFrom (.publish e₁ :: .publish e₂ :: acts) = some t ∧
      t.accepted = s.accepted ++ [e₁, e₂] ∧ t.queue = [] ∧
      t.calls = s.calls ++ deliveries e₂ (s.bus.dispatchSync e₂) ++
        deliveries e₁ (s.bus.dispatchSync e₁) := by
  have hlt : 0 < s.workers.length := (List.getElem?_eq_some_iff.1 h₀).1
  have hp : ∀ acts, s.runFrom (.publish e₁ :: .publish e₂ :: acts) =
      ({ s with queue := [e₁, e₂], accepted := s.accepted ++ [e₁, e₂] } : AsyncBus H).runFrom acts := by
    intro acts
    simp [runFrom_cons, step, hq, asyncQueueCap]
  let t : AsyncBus H := { s with queue := [e₁, e₂], accepted := s.accepted ++ [e₁, e₂] }
  obtain ⟨acts, h⟩ := Leads.head (step_recv_eq (s := t) h₀ rfl)
    (Leads.trans (Leads.take (i := 1) (by dsimp only; rw [List.getElem?_set_ne (by decide)]; exact h₁) rfl)
      (Leads.received (i := 0) (by dsimp only; rw [List.getElem?_set_self hlt])))
  exact ⟨acts, _, (hp acts).trans h, rfl, rfl, rfl⟩

/-- The two events an `AddPoints` that levels a user up publishes, on a bus where handler `1` is
    subscribed to both types. -/
theorem dispatch_reorders_levelUp :
    let s : AsyncBus Nat :=
      { NewAsyncBus with bus := ((NewEventBus.Subscribe EventPointsAdded 1).1.Subscribe EventLevelUp 1).1 }
    let e₁ := NewPointsAdded (lit "alice") MetricXP 150 150
    let e₂ := NewLevelUp (lit "alice") MetricXP 2
    s.queue = [] ∧ s.workers[0]? = some .selecting ∧ s.workers[1]? = some .selecting ∧
      ∃ acts t, s.runFrom (.publish e₁ :: .publish e₂ :: acts) = some t ∧
        t.accepted = s.accepted ++ [e₁, e₂] ∧ t.queue = [] ∧
        t.calls = s.calls ++ deliveries e₂ (s.bus.dispatchSync e₂) ++
          deliveries e₁ (s.bus.dispatchSync e₁) :=
  ⟨rfl, rfl, rfl, dispatch_reorders (by rfl) (by rfl) (by rfl) _ _⟩

example : (((NewEventBus.Subscribe EventPointsAdded 1).1.Subscribe EventLevelUp 1).1.dispatchSync
    (NewLevelUp (lit "alice") MetricXP 2) : List Nat) = [1] := by decide

theorem mem_dispatchSync_Subscribe (e : EventBus H) (ev : Event) (f : H) :
    f ∈ (e.Subscribe ev.type f).1.dispatchSync ev := by
  simp only [EventBus.dispatchSync, EventBus.Subscribe, GoMap.getD_insert, if_true]
  exact List.mem_map.2 ⟨_, IdMap.mem_insert.2 (.inr rfl), rfl⟩

/-- A handler is chosen when a worker copies the handlers, not when `Publish` returns: a handler
    subscribed after `Publish` has returned can still be called with the event. -/
theorem late_subscriber_called {s : AsyncBus H} (hq : s.queue = []) (h₀ : s.workers[0]? = some .selecting)
    (ev : Event) (f : H) :
    ∃ acts t, s.runFrom (.publish ev :: .subscribe ev.type f :: acts) = some t ∧ (f, ev) ∈ t.calls := by
  have hp : ∀ acts, s.runFrom (.publish ev :: .subscribe ev.type f :: acts) =
      ({ s with bus := (s.bus.Subscribe ev.type f).1,
                cancels := s.cancels ++ [(s.bus.Subscribe ev.type f).2],
                queue := [ev], accepted := s.accepted ++ [ev] } : AsyncBus H).runFrom acts := by
    intro acts
    simp [runFrom_cons, step, hq, asyncQueueCap]
  let t : AsyncBus H :=
    { s with bus := (s.bus.Subscribe ev.type f).1, cancels := s.cancels ++ [(s.bus.Subscribe ev.type f).2],
             queue := [ev], accepted := s.accepted ++ [ev] }
  obtain ⟨acts, h⟩ := Leads.take (s := t) h₀ rfl
  exact ⟨acts, _, (hp acts).trans h, List.mem_append_right _
    (List.mem_map.2 ⟨f, mem_dispatchSync_Subscribe _ _ _, rfl⟩)⟩

end AsyncBus

end GamifyKit.Engine
