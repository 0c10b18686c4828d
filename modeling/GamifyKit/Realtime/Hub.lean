import GamifyKit.Core.Types

/-! Package `realtime`: the `Hub` that fans events out to subscribers' channels. `Subscribe` and
    `Unsubscribe` each run one critical section, an atomic step; `Broadcast` copies the channels
    under the read lock, in any order, and then sends to each copy as a step of its own, so other
    calls run between its sends. Channels live in a heap and behave as Go's runtime makes them
    (blocked receivers, buffering, `select` with `default`, panics on a closed channel).
    `Unsubscribe` closes only the channel it removes from the map, so no channel is closed twice
    (`never_closed_twice`), but it can close one a `Broadcast` copied before, whose send then
    panics (`broadcast_panics`). -/

namespace GamifyKit.Realtime
open GamifyKit.Go GamifyKit.Core

/-- A channel of events: its capacity, its buffer, the calls waiting to receive in the order they
    blocked, and whether it was closed. -/
structure Chan where
  cap : Nat
  buf : List Event
  recvq : List Nat
  closed : Bool
  deriving DecidableEq

/-- `make(chan core.Event, n)`: an open channel with room for `n` events. -/
def makeChan (n : Nat) : Chan := ⟨n, [], [], false⟩

/-- `realtime.Hub`: `subs`, id ↦ index of the channel, and `next`, the last id handed out. -/
structure Hub where
  subs : List (Nat × Nat)
  next : Nat
  deriving DecidableEq

/-- `NewHub()`. -/
def NewHub : Hub := ⟨[], 0⟩

/-- `h.subs[id]`: the channel of subscription `id`, if it has one. -/
def Hub.lookup (h : Hub) (id : Nat) : Option Nat := (h.subs.find? fun p => p.1 = id).map Prod.snd

/-- The subscriptions without `id`: `delete(h.subs, id)`. -/
def Hub.delete (h : Hub) (id : Nat) : List (Nat × Nat) := h.subs.filter fun p => p.1 ≠ id

/-- The calls on a hub, and a subscriber's receive on its channel. -/
inductive Op
  /-- `Subscribe(buffer)`. -/
  | subscribe (buffer : Int)
  /-- `Unsubscribe(id)`. -/
  | unsubscribe (id : Nat)
  /-- `Broadcast(ctx, ev)`. -/
  | broadcast (ev : Event)
  /-- `<-ch` on the channel at `ch`. -/
  | recv (ch : Nat)
  deriving DecidableEq

/-- Where a call stands. -/
inductive Pc
  | start
  /-- `Broadcast` has its copy; `rest` are the channels still to send to. -/
  | sending (rest : List Nat)
  /-- A receive blocked on an empty open channel. -/
  | waiting
  /-- `Subscribe` returned `id` and the channel at `ch`. -/
  | subscribed (id ch : Nat)
  /-- A receive returned a value, or `none` from a closed channel. -/
  | received (ev : Option Event)
  /-- Returned with nothing. -/
  | done
  /-- Stopped by a run-time panic. -/
  | panicked (msg : String)
  deriving DecidableEq

/-- A call and where it stands. -/
structure Call where
  op : Op
  pc : Pc
  deriving DecidableEq

/-- The hub, the channel heap and the calls so far. -/
structure Sys where
  hub : Hub
  chans : List Chan
  calls : List Call
  deriving DecidableEq

/-- A hub just made by `NewHub`, before any call. -/
def Sys.init : Sys := ⟨NewHub, [], []⟩

/-- The run-time panic of `close` on a closed channel. -/
def closeMsg : String := "close of closed channel"

/-- The run-time panic of a send on a closed channel. -/
def sendMsg : String := "send on closed channel"

/-- The run-time panic of `make` with a negative buffer. -/
def makechanMsg : String := "makechan: size out of range"

/-- Call `i` now stands at `pc`. -/
def Sys.setPc (s : Sys) (i : Nat) (pc : Pc) : Sys :=
  match s.calls[i]? with
  | some c => { s with calls := s.calls.set i { c with pc := pc } }
  | none => s

/-- The channel at `c` is now `ch`. -/
def Sys.setChan (s : Sys) (c : Nat) (ch : Chan) : Sys := { s with chans := s.chans.set c ch }

/-- Each waiting receiver in `q` returns `none`, as a close wakes them. -/
def Sys.wake (s : Sys) : List Nat → Sys
  | [] => s
  | j :: q => (s.setPc j (.received none)).wake q

/-- A step of a schedule: a new call, a step of call `i`, or the first step of `Broadcast` call
    `i`, whose range over the map meets the channels in `order`. -/
inductive Act
  | invoke (op : Op)
  | step (i : Nat)
  | copy (i : Nat) (order : List Nat)

/-- `ch <- ev` inside `select` with a `default` case, by call `i`. -/
def Sys.send (s : Sys) (i c : Nat) (ch : Chan) (ev : Event) (rest : List Nat) : Sys :=
  if ch.closed then s.setPc i (.panicked sendMsg)
  else match ch.recvq with
    | j :: q => ((s.setChan c { ch with recvq := q }).setPc j (.received (some ev))).setPc i (.sending rest)
    | [] =>
      if ch.buf.length < ch.cap then (s.setChan c { ch with buf := ch.buf ++ [ev] }).setPc i (.sending rest)
      else s.setPc i (.sending rest)

/-- One step of a schedule, or `none` where it is not enabled. -/
def Sys.step (s : Sys) : Act → Option Sys
  | .invoke op => some { s with calls := s.calls ++ [⟨op, .start⟩] }
  | .copy i order =>
    match s.calls[i]? with
    | some ⟨.broadcast _, .start⟩ =>
      if order.Perm (s.hub.subs.map Prod.snd) then some (s.setPc i (.sending order)) else none
    | _ => none
  | .step i =>
    match s.calls[i]? with
    | some ⟨.subscribe buffer, .start⟩ =>
      let id := s.hub.next + 1
      if buffer < 0 then some ({ s with hub := { s.hub with next := id } }.setPc i (.panicked makechanMsg))
      else
        some ({ s with hub := ⟨(id, s.chans.length) :: s.hub.delete id, id⟩,
                       chans := s.chans ++ [makeChan buffer.toNat] }.setPc i
          (.subscribed id s.chans.length))
    | some ⟨.unsubscribe id, .start⟩ =>
      match s.hub.lookup id with
      | none => some (s.setPc i .done)
      | some c =>
        match s.chans[c]? with
        | none => none
        | some ch =>
          let s' := { s with hub := { s.hub with subs := s.hub.delete id } }
          if ch.closed then some (s'.setPc i (.panicked closeMsg))
          else some (((s'.setChan c { ch with recvq := [], closed := true }).wake ch.recvq).setPc i .done)
    | some ⟨.broadcast _, .sending []⟩ => some (s.setPc i .done)
    | some ⟨.broadcast ev, .sending (c :: rest)⟩ => (s.chans[c]?).map fun ch => s.send i c ch ev rest
    | some ⟨.recv c, .start⟩ =>
      match s.chans[c]? with
      | some ⟨cap, e :: buf, q, closed⟩ =>
        some ((s.setChan c ⟨cap, buf, q, closed⟩).setPc i (.received (some e)))
      | some ⟨cap, [], q, false⟩ => some ((s.setChan c ⟨cap, [], q ++ [i], false⟩).setPc i .waiting)
      | some ⟨_, [], _, true⟩ => some (s.setPc i (.received none))
      | none => none
    | _ => none

/-- The state after a schedule, if every step of it is enabled. -/
def Sys.run (acts : List Act) : Option Sys := acts.foldlM Sys.step Sys.init

/-- The states some schedule reaches. -/
inductive Reachable : Sys → Prop
  | init : Reachable Sys.init
  | step {s s' : Sys} (a : Act) : Reachable s → s.step a = some s' → Reachable s'

theorem reachable_of_foldlM :
    ∀ (acts : List Act) {s s' : Sys}, Reachable s → acts.foldlM Sys.step s = some s' → Reachable s'
  | [], _, _, hs, h => by cases h; exact hs
  | a :: acts, s, s', hs, h => by
    simp only [List.foldlM_cons] at h
    cases ha : s.step a with
    | none => rw [ha] at h; cases h
    | some s₁ =>
      rw [ha] at h
      exact reachable_of_foldlM acts (.step a hs ha) h

/-! ### No channel is closed twice -/

@[simp] theorem Sys.setPc_hub (s : Sys) (i : Nat) (pc : Pc) : (s.setPc i pc).hub = s.hub := by
  unfold Sys.setPc; split <;> rfl

@[simp] theorem Sys.setPc_chans (s : Sys) (i : Nat) (pc : Pc) : (s.setPc i pc).chans = s.chans := by
  unfold Sys.setPc; split <;> rfl

@[simp] theorem Sys.setChan_hub (s : Sys) (c : Nat) (ch : Chan) : (s.setChan c ch).hub = s.hub := rfl

@[simp] theorem Sys.setChan_calls (s : Sys) (c : Nat) (ch : Chan) :
    (s.setChan c ch).calls = s.calls := rfl

@[simp] theorem Sys.wake_hub (s : Sys) (q : List Nat) : (s.wake q).hub = s.hub := by
  induction q generalizing s <;> simp [Sys.wake, *]

@[simp] theorem Sys.wake_chans (s : Sys) (q : List Nat) : (s.wake q).chans = s.chans := by
  induction q generalizing s <;> simp [Sys.wake, *]

/-- A call after `setPc` is one of before, or stands at the `pc` given. -/
theorem Sys.mem_setPc {s : Sys} {i : Nat} {pc : Pc} {c : Call} (h : c ∈ (s.setPc i pc).calls) :
    c ∈ s.calls ∨ c.pc = pc := by
  unfold Sys.setPc at h
  split at h
  · exact (List.mem_or_eq_of_mem_set h).imp id fun e => by subst e; rfl
  · exact .inl h

theorem Sys.mem_wake {s : Sys} {c : Call} :
    ∀ {q : List Nat}, c ∈ (s.wake q).calls → c ∈ s.calls ∨ c.pc = .received none
  | [], h => .inl h
  | j :: q, h => (@Sys.mem_wake (s.setPc j (.received none)) c q h).elim Sys.mem_setPc .inr

/-- The channel at `c` is allocated and open. -/
def Sys.Open (s : Sys) (c : Nat) : Prop := ∃ ch, s.chans[c]? = some ch ∧ ch.closed = false

/-- What every reachable state keeps: each subscribed channel is open and belongs to one
    subscription only, and no call has closed a closed channel. -/
structure Inv (s : Sys) : Prop where
  nodup : (s.hub.subs.map Prod.snd).Nodup
  opened : ∀ p ∈ s.hub.subs, s.Open p.2
  safe : ∀ c ∈ s.calls, c.pc ≠ .panicked closeMsg

theorem inv_init : Inv Sys.init := ⟨List.nodup_nil, fun _ h => (nomatch h), fun _ h => (nomatch h)⟩

/-- A step that keeps the subscriptions and every open channel open, and sets no panic on a
    close, keeps the invariant. -/
theorem Inv.frame {s s' : Sys} (h : Inv s) (hh : s'.hub.subs = s.hub.subs)
    (ho : ∀ c, s.Open c → s'.Open c)
    (hc : ∀ c ∈ s'.calls, c ∈ s.calls ∨ c.pc ≠ .panicked closeMsg) : Inv s' where
  nodup := by rw [hh]; exact h.nodup
  opened p hp := ho _ (h.opened p (hh ▸ hp))
  safe c hc' := (hc c hc').elim (h.safe c) id

theorem setPc_calls {s : Sys} {i : Nat} {pc : Pc} (hpc : pc ≠ .panicked closeMsg) :
    ∀ c ∈ (s.setPc i pc).calls, c ∈ s.calls ∨ c.pc ≠ .panicked closeMsg :=
  fun _ hc => (Sys.mem_setPc hc).imp id fun h => by rw [h]; exact hpc

theorem open_of_chans {s s' : Sys} (hch : s'.chans = s.chans) (d : Nat) (hd : s.Open d) :
    s'.Open d := by
  unfold Sys.Open; rw [hch]; exact hd

/-- Rewriting the channel at `c` with its closed flag kept leaves every channel as open as it
    was. -/
theorem open_setChan {s : Sys} {c : Nat} {ch ch' : Chan} (hc : s.chans[c]? = some ch)
    (hcl : ch'.closed = ch.closed) (d : Nat) (hd : s.Open d) : (s.setChan c ch').Open d := by
  obtain ⟨dh, hdh, hdo⟩ := hd
  by_cases hcd : c = d
  · subst hcd
    rw [hc] at hdh; cases hdh
    exact ⟨ch', by simp [Sys.setChan, (List.getElem?_eq_some_iff.1 hc).1], hcl ▸ hdo⟩
  · exact ⟨dh, by simp [Sys.setChan, List.getElem?_set, hcd, hdh], hdo⟩

theorem open_setPc {s : Sys} (i : Nat) (pc : Pc) (d : Nat) (hd : s.Open d) : (s.setPc i pc).Open d :=
  open_of_chans (Sys.setPc_chans s i pc) d hd

theorem Inv.send {s : Sys} (h : Inv s) {i c : Nat} {ch : Chan} (hc : s.chans[c]? = some ch)
    (ev : Event) (rest : List Nat) : Inv (s.send i c ch ev rest) := by
  unfold Sys.send
  split
  · exact h.frame (by simp) (open_setPc _ _) (setPc_calls (by simp [sendMsg, closeMsg]))
  split
  · refine h.frame (by simp) (fun d hd => ?_) fun x hx => ?_
    · exact open_setPc _ _ d (open_setPc _ _ d (open_setChan hc (by rfl) d hd))
    rcases Sys.mem_setPc hx with hx | hx
    · exact (Sys.mem_setPc hx).imp id fun e => by simp [e]
    · simp [hx]
  split
  · exact h.frame (by simp) (fun d hd => open_setPc _ _ d (open_setChan hc (by rfl) d hd))
      (setPc_calls (by simp))
  · exact h.frame (by simp) (open_setPc _ _) (setPc_calls (by simp))

theorem Inv.subscribe {s : Sys} (h : Inv s) (i : Nat) (buffer : Int) (id : Nat) :
    Inv ({ s with hub := ⟨(id, s.chans.length) :: s.hub.delete id, id⟩,
                  chans := s.chans ++ [makeChan buffer.toNat] }.setPc i
      (.subscribed id s.chans.length)) := by
  have hlt : ∀ p ∈ s.hub.subs, p.2 < s.chans.length := fun p hp => by
    obtain ⟨ch, hch, -⟩ := h.opened p hp
    exact (List.getElem?_eq_some_iff.1 hch).1
  refine ⟨?_, ?_, fun c hc => ?_⟩
  · simp only [Sys.setPc_hub, List.map_cons, List.nodup_cons, List.mem_map, Hub.delete,
      List.mem_filter]
    refine ⟨?_, h.nodup.sublist (List.Sublist.map _ (List.filter_sublist _))⟩
    rintro ⟨p, ⟨hp, -⟩, hpe⟩
    exact absurd (hlt p hp) (by omega)
  · simp only [Sys.setPc_hub, List.mem_cons, Hub.delete, List.mem_filter]
    rintro p (rfl | ⟨hp, -⟩)
    · exact ⟨makeChan buffer.toNat, by simp, rfl⟩
    · obtain ⟨ch, hch, hcl⟩ := h.opened p hp
      exact ⟨ch, by rw [Sys.setPc_chans, List.getElem?_append_left (hlt p hp)]; exact hch, hcl⟩
  · rcases Sys.mem_setPc hc with hc | hc
    · exact h.safe c hc
    · simp [hc]

/-- `Unsubscribe` finds its channel open, closes it and removes its subscription. -/
theorem Inv.unsubscribe {s : Sys} (h : Inv s) (i id c : Nat) (hl : s.hub.lookup id = some c)
    (ch : Chan) (hc : s.chans[c]? = some ch) :
    ch.closed = false ∧
      Inv (((({ s with hub := { s.hub with subs := s.hub.delete id } } : Sys).setChan c
        { ch with recvq := [], closed := true }).wake ch.recvq).setPc i .done) := by
  obtain ⟨p, hp, rfl⟩ := Option.map_eq_some'.1 hl
  have hpid : p.1 = id := by simpa using List.find?_some hp
  have hpm : p ∈ s.hub.subs := List.mem_of_find?_eq_some hp
  obtain ⟨ch₀, hch₀, hcl⟩ := h.opened p hpm
  rw [hc] at hch₀; cases hch₀
  refine ⟨hcl, ?_, fun q hq => ?_, fun x hx => ?_⟩
  · simpa [Hub.delete] using h.nodup.sublist (List.Sublist.map _ (List.filter_sublist _))
  · simp only [Sys.setPc_hub, Sys.wake_hub, Sys.setChan_hub, Hub.delete, List.mem_filter,
      decide_eq_true_eq] at hq
    obtain ⟨dh, hdh, hdo⟩ := h.opened q hq.1
    have hqp : q.2 ≠ p.2 := fun e => hq.2 (by rw [List.inj_on_of_nodup_map h.nodup hq.1 hpm e, hpid])
    exact ⟨dh, by simp [Sys.setChan, List.getElem?_set, Ne.symm hqp, hdh], hdo⟩
  · rcases Sys.mem_setPc hx with hx | hx
    · rcases Sys.mem_wake hx with hx | hx
      · exact h.safe x hx
      · simp [hx]
    · simp [hx]

/-- Every step keeps the invariant. -/
theorem Inv.step {s s' : Sys} (h : Inv s) {a : Act} (hs : s.step a = some s') : Inv s' := by
  cases a with
  | invoke op =>
    cases hs
    refine h.frame rfl (fun _ => id) fun c hc => ?_
    rcases List.mem_append.1 hc with hc | hc
    · exact .inl hc
    · simp only [List.mem_singleton] at hc; subst hc; exact .inr (by simp)
  | copy i order =>
    simp only [Sys.step] at hs
    split at hs <;> try cases hs
    split_ifs at hs; cases hs
    exact h.frame (by simp) (open_setPc _ _) (setPc_calls (by simp))
  | step i =>
    simp only [Sys.step] at hs
    split at hs
    · split_ifs at hs <;> cases hs
      · exact h.frame (by simp) (open_of_chans (by simp)) (setPc_calls (by simp [makechanMsg, closeMsg]))
      · exact h.subscribe i _ _
    · rcases hl : s.hub.lookup _ with _ | c <;> rw [hl] at hs
      · cases hs; exact h.frame (by simp) (open_setPc _ _) (setPc_calls (by simp))
      · rcases hc : s.chans[c]? with _ | ch <;> simp only [hc] at hs
        · cases hs
        · have ⟨hcl, hi⟩ := h.unsubscribe i _ c hl ch hc
          rw [if_neg (by simp [hcl])] at hs
          cases hs; exact hi
    · cases hs; exact h.frame (by simp) (open_setPc _ _) (setPc_calls (by simp))
    · obtain ⟨ch, hc, rfl⟩ := Option.map_eq_some'.1 hs
      exact h.send hc _ _
    · split at hs <;> cases hs
      all_goals refine h.frame (by simp) (fun d hd => ?_) (setPc_calls (by simp))
      · next hc => exact open_setPc _ _ d (open_setChan hc (by rfl) d hd)
      · next hc => exact open_setPc _ _ d (open_setChan hc (by rfl) d hd)
      · exact open_setPc _ _ d hd
    · cases hs

theorem reachable_inv {s : Sys} (hs : Reachable s) : Inv s := by
  induction hs with
  | init => exact inv_init
  | step a _ hst ih => exact ih.step hst

/-- Under any interleaving of `Subscribe`, `Unsubscribe`, `Broadcast` and receives, no call ever
    closes a closed channel. -/
theorem never_closed_twice {s : Sys} (hs : Reachable s) : ∀ c ∈ s.calls, c.pc ≠ .panicked closeMsg :=
  (reachable_inv hs).safe

/-! ### A send on a closed channel -/

/-- `Subscribe(1)`; a `Broadcast` takes its copy of the one channel; `Unsubscribe` of that
    subscription closes it; the `Broadcast` sends. -/
def hubRace : List Act :=
  [.invoke (.subscribe 1), .step 0, .invoke (.broadcast (NewPointsAdded (lit "bob") MetricXP 10 10)),
    .copy 1 [0], .invoke (.unsubscribe 1), .step 2, .step 1]

/-- Where `hubRace` ends, a `Broadcast` has panicked on the channel `Unsubscribe` closed, and no
    call has panicked on a second close. -/
theorem never_closed_twice_hubRace :
    ∃ s, Sys.run hubRace = some s ∧ ∀ c ∈ s.calls, c.pc ≠ .panicked closeMsg := by
  cases h : Sys.run hubRace with
  | none => exact absurd (congrArg Option.isSome h) (by decide)
  | some s => exact ⟨s, rfl, never_closed_twice (reachable_of_foldlM hubRace .init h)⟩

/-- The `Broadcast` of `hubRace` panics with a send on the channel `Unsubscribe` closed. -/
theorem broadcast_panics :
    (Sys.run hubRace).map (fun s => s.calls.map Call.pc) =
      some [.subscribed 1 0, .panicked sendMsg, .done] := by
  decide

end GamifyKit.Realtime
