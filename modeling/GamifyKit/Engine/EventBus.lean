import GamifyKit.Core.Types

/-! The `EventBus` of package `engine` in `DispatchSync` mode: its subscriptions by event type and
    id, the cancel functions `Subscribe` hands out, and the handlers each `Publish` calls.

    `Subscribe` takes the next id from the `int64` counter `nextID` and files the handler under
    the event type and that id; the cancel function it returns deletes that id under that type.
    `Publish` copies the handlers of the event's type under the read lock and then calls each.
    A handler is a value of any type `H`: what it does is not the bus's concern, and the calls it
    makes on the bus come later in the sequence of calls. Go's `range` visits the handlers in no
    fixed order; the model takes one, and the results say nothing of it. The async mode, its
    queue and workers are left out.

    The abstract bus `Spec` keeps the subscriptions in the order they were made, each live or
    cancelled, and a publish calls the live ones of the event's type. The bus refines it while at
    most `2^64` subscriptions have been made (`refines_run`): after that `nextID` comes round to
    an id it gave before, and the new subscription takes the place of a live one. -/

namespace GamifyKit.Engine
open GamifyKit.Go GamifyKit.Core

/-- `subscription`. -/
structure subscription (H : Type) where
  id : Int
  typ : GoString
  fn : H

/-- A `map[int64]subscription`: its subscriptions, one per id. -/
structure IdMap (H : Type) where
  subs : List (subscription H)
  nodup : (subs.map (·.id)).Nodup

/-- The bus's state: `subs` and `nextID`. -/
structure EventBus (H : Type) where
  subs : GoMap (IdMap H)
  nextID : Int

/-- The calls made on a bus: `Subscribe`, a call of the cancel function the `k`-th `Subscribe`
    returned (from 0), and `Publish`. -/
inductive BusCall (H : Type)
  | subscribe (typ : GoString) (handler : H)
  | cancel (k : Nat)
  | publish (ev : Event)

/-- A bus with the cancel functions handed out so far, as the type and id each deletes, and the
    handlers each `Publish` called, in order. -/
structure BusRun (H : Type) where
  bus : EventBus H
  cancels : List (GoString × Int)
  calls : List (List H)

variable {H : Type}

namespace IdMap

/-- `make(map[int64]subscription)`. -/
def empty : IdMap H := ⟨[], .nil⟩

theorem nodup_insert (m : IdMap H) (s : subscription H) :
    (((m.subs.filter fun t => t.id ≠ s.id) ++ [s]).map (·.id)).Nodup := by
  rw [List.map_append, List.nodup_append]
  refine ⟨((List.filter_sublist _).map _).nodup m.nodup, List.nodup_singleton _, ?_⟩
  simp [List.disjoint_singleton]

/-- `m[s.id] = s`. -/
def insert (m : IdMap H) (s : subscription H) : IdMap H :=
  ⟨(m.subs.filter fun t => t.id ≠ s.id) ++ [s], nodup_insert m s⟩

/-- `delete(m, id)`. -/
def erase (m : IdMap H) (id : Int) : IdMap H :=
  ⟨m.subs.filter fun t => t.id ≠ id, ((List.filter_sublist _).map _).nodup m.nodup⟩

@[simp] theorem mem_empty (x : subscription H) : x ∉ (empty : IdMap H).subs := List.not_mem_nil x

@[simp] theorem mem_insert {m : IdMap H} {s x : subscription H} :
    x ∈ (m.insert s).subs ↔ x ∈ m.subs ∧ x.id ≠ s.id ∨ x = s := by
  simp [insert]

@[simp] theorem mem_erase {m : IdMap H} {id : Int} {x : subscription H} :
    x ∈ (m.erase id).subs ↔ x ∈ m.subs ∧ x.id ≠ id := by
  simp [erase]

theorem erase_erase (m : IdMap H) (id : Int) : (m.erase id).erase id = m.erase id := by
  simp only [erase, List.filter_filter, Bool.and_self]

end IdMap

/-- `NewEventBus(DispatchSync)`. -/
def NewEventBus : EventBus H := ⟨.empty, 0⟩

/-- `Subscribe(typ, handler)`: the bus after it, and the type and id its cancel function
    deletes. -/
def EventBus.Subscribe (e : EventBus H) (typ : GoString) (handler : H) :
    EventBus H × (GoString × Int) :=
  let nextID := wrap64 (e.nextID + 1)
  let m := e.subs.getD typ .empty
  (⟨e.subs.insert typ (m.insert ⟨nextID, typ, handler⟩), nextID⟩, (typ, nextID))

/-- The cancel function `Subscribe` returns, for `typ` and `id`. -/
def EventBus.cancel (e : EventBus H) (typ : GoString) (id : Int) : EventBus H :=
  match e.subs.find? typ with
  | some m => { e with subs := e.subs.insert typ (m.erase id) }
  | none => e

/-- `dispatchSync(ctx, ev)`, which is `Publish(ctx, ev)` in `DispatchSync` mode: the handlers it
    calls, in the order it calls them. -/
def EventBus.dispatchSync (e : EventBus H) (ev : Event) : List H :=
  (e.subs.getD ev.type .empty).subs.map (·.fn)

/-- One call on the bus. A cancel function that no `Subscribe` has returned yet cannot be
    called; such a call does nothing here. -/
def BusRun.step (r : BusRun H) : BusCall H → BusRun H
  | .subscribe typ handler =>
    { r with bus := (r.bus.Subscribe typ handler).1,
             cancels := r.cancels ++ [(r.bus.Subscribe typ handler).2] }
  | .cancel k =>
    match r.cancels[k]? with
    | some (typ, id) => { r with bus := r.bus.cancel typ id }
    | none => r
  | .publish ev => { r with calls := r.calls ++ [r.bus.dispatchSync ev] }

/-- A fresh bus after a sequence of calls. -/
def runBus (calls : List (BusCall H)) : BusRun H := calls.foldl BusRun.step ⟨NewEventBus, [], []⟩

/-- Calling a cancel function again changes nothing. -/
theorem cancel_cancel (e : EventBus H) (typ : GoString) (id : Int) :
    (e.cancel typ id).cancel typ id = e.cancel typ id := by
  unfold EventBus.cancel
  cases hm : e.subs.find? typ with
  | none => simp only [hm]
  | some m => simp only [GoMap.find?_insert, if_true, IdMap.erase_erase, GoMap.insert_insert]

theorem step_cancel_cancel (r : BusRun H) (k : Nat) :
    ((r.step (.cancel k)).step (.cancel k)) = r.step (.cancel k) := by
  cases h : r.cancels[k]? with
  | none => simp only [BusRun.step, h]
  | some p => simp only [BusRun.step, h, cancel_cancel]

/-! ### The abstract bus -/

/-- A subscription as its client sees it: its event type, its handler, and whether it is live. -/
structure Registration (H : Type) where
  typ : GoString
  fn : H
  live : Bool

/-- The abstract bus: every subscription made, in order, and the handlers each publish called. -/
structure Spec (H : Type) where
  regs : List (Registration H)
  calls : List (List H)

/-- A subscription is made live; a cancel ends the one it was returned for; a publish calls the
    handler of every live subscription of the event's type. -/
def Spec.step (s : Spec H) : BusCall H → Spec H
  | .subscribe typ handler => { s with regs := s.regs ++ [⟨typ, handler, true⟩] }
  | .cancel k => { s with regs := s.regs.modify (fun r => { r with live := false }) k }
  | .publish ev =>
    { s with calls := s.calls ++ [(s.regs.filter fun r => r.live ∧ r.typ = ev.type).map (·.fn)] }

/-- The abstract bus after a sequence of calls. -/
def Spec.run (calls : List (BusCall H)) : Spec H := calls.foldl Spec.step ⟨[], []⟩

/-- Whether a call is a `Subscribe`. -/
def BusCall.isSubscribe : BusCall H → Bool
  | .subscribe _ _ => true
  | _ => false

theorem length_regs_run (calls : List (BusCall H)) :
    (Spec.run calls).regs.length = (calls.filter BusCall.isSubscribe).length := by
  induction calls using List.reverseRecOn with
  | nil => rfl
  | append_singleton calls c ih =>
    rw [Spec.run, List.foldl_append, ← Spec.run, List.filter_append, List.length_append, ← ih]
    cases c <;> simp [Spec.step, BusCall.isSubscribe]

/-! ### Live subscriptions as the bus files them -/

/-- The id `Subscribe` gives the `k`-th subscription, from 0: `nextID` counts them in `int64`. -/
def idOf (k : Nat) : Int := wrap64 (k + 1)

theorem idOf_inj {j k : Nat} (hj : j < 2 ^ 64) (hk : k < 2 ^ 64) (h : idOf j = idOf k) : j = k := by
  unfold idOf wrap64 at h; omega

/-- The live subscriptions of type `typ`, each as the bus files it. -/
def Spec.liveSubs (s : Spec H) (typ : GoString) : List (subscription H) :=
  (s.regs.enum.filter fun p => p.2.live ∧ p.2.typ = typ).map fun p => ⟨idOf p.1, p.2.typ, p.2.fn⟩

theorem mem_liveSubs {s : Spec H} {typ : GoString} {x : subscription H} :
    x ∈ s.liveSubs typ ↔ ∃ k r, s.regs[k]? = some r ∧ r.live = true ∧ r.typ = typ ∧
      x = ⟨idOf k, r.typ, r.fn⟩ := by
  simp only [Spec.liveSubs, List.mem_map, List.mem_filter, List.mem_enum_iff_getElem?,
    Prod.exists, decide_eq_true_eq]
  constructor
  · rintro ⟨k, r, ⟨h, hl, ht⟩, rfl⟩; exact ⟨k, r, h, hl, ht, rfl⟩
  · rintro ⟨k, r, h, hl, ht, rfl⟩; exact ⟨k, r, ⟨h, hl, ht⟩, rfl⟩

theorem liveSubs_fn (s : Spec H) (typ : GoString) :
    (s.liveSubs typ).map (·.fn) = (s.regs.filter fun r => r.live ∧ r.typ = typ).map (·.fn) := by
  rw [← List.enum_map_snd s.regs, List.filter_map, List.map_map, Spec.liveSubs, List.map_map]
  rfl

/-- Distinct positions give distinct subscriptions when `f` tells the positions apart. -/
theorem nodup_map_enum {l : List (Registration H)} (p : Nat × Registration H → Bool) (f : Nat → Int)
    (hf : ∀ j k, j < l.length → k < l.length → f j = f k → j = k) :
    ((l.enum.filter p).map fun q => (⟨f q.1, q.2.typ, q.2.fn⟩ : subscription H)).Nodup := by
  refine List.Nodup.map_on (fun q hq q' hq' h => ?_)
    ((List.filter_sublist _).nodup (List.Nodup.of_map Prod.fst ?_))
  · have h₁ := List.mem_enum_iff_getElem?.1 (List.mem_of_mem_filter hq)
    have h₂ := List.mem_enum_iff_getElem?.1 (List.mem_of_mem_filter hq')
    have hk : q.1 = q'.1 := hf _ _ (List.getElem?_eq_some_iff.1 h₁).1
      (List.getElem?_eq_some_iff.1 h₂).1 (congrArg subscription.id h)
    rw [hk, h₂] at h₁
    exact Prod.ext hk (Option.some.inj h₁).symm
  · rw [List.enum_map_fst]; exact List.nodup_range _

theorem nodup_liveSubs {s : Spec H} (hs : s.regs.length ≤ 2 ^ 64) (typ : GoString) :
    (s.liveSubs typ).Nodup :=
  nodup_map_enum _ idOf fun _ _ hj hk h => idOf_inj (by omega) (by omega) h

theorem liveSubs_subscribe (s : Spec H) (typ typ' : GoString) (h : H) :
    (s.step (.subscribe typ h)).liveSubs typ' =
      s.liveSubs typ' ++ if typ = typ' then [⟨idOf s.regs.length, typ, h⟩] else [] := by
  simp only [Spec.step, Spec.liveSubs, List.enum_append, List.enumFrom_singleton, List.filter_append,
    List.map_append, List.filter_cons, List.filter_nil, true_and, decide_eq_true_eq]
  split_ifs <;> rfl

/-- The id of a live subscription of another type is not that of the `k`-th subscription. -/
theorem id_ne_of_typ_ne {s : Spec H} (hs : s.regs.length ≤ 2 ^ 64) {typ : GoString}
    {x : subscription H} (hx : x ∈ s.liveSubs typ) {k : Nat} {reg : Registration H}
    (hk : s.regs[k]? = some reg) (ht : reg.typ ≠ typ) : x.id ≠ idOf k := by
  obtain ⟨j, r, hj, -, hrt, rfl⟩ := mem_liveSubs.1 hx
  intro h
  have hjl := (List.getElem?_eq_some_iff.1 hj).1
  have hkl := (List.getElem?_eq_some_iff.1 hk).1
  obtain rfl := idOf_inj (by omega) (by omega) h
  rw [hj, Option.some_inj] at hk
  exact ht (hk ▸ hrt)

theorem regs_cancel (s : Spec H) (k j : Nat) :
    (s.step (.cancel k)).regs[j]? =
      if k = j then s.regs[j]?.map fun r => { r with live := false } else s.regs[j]? := by
  simp only [Spec.step, List.getElem?_modify]
  split_ifs <;> simp

theorem mem_liveSubs_cancel {s : Spec H} (hs : s.regs.length ≤ 2 ^ 64) {k : Nat}
    (hk : k < s.regs.length) {typ : GoString} {x : subscription H} :
    x ∈ (s.step (.cancel k)).liveSubs typ ↔ x ∈ s.liveSubs typ ∧ x.id ≠ idOf k := by
  simp only [mem_liveSubs, regs_cancel]
  constructor
  · rintro ⟨j, r, hj, hl, ht, rfl⟩
    split_ifs at hj with hjk
    · obtain ⟨r', -, rfl⟩ := Option.map_eq_some'.1 hj
      simp at hl
    · have hjl := (List.getElem?_eq_some_iff.1 hj).1
      exact ⟨⟨j, r, hj, hl, ht, rfl⟩, fun h => hjk (idOf_inj (by omega) (by omega) h.symm)⟩
  · rintro ⟨⟨j, r, hj, hl, ht, rfl⟩, hne⟩
    have hjk : k ≠ j := fun h => hne (h ▸ rfl)
    exact ⟨j, r, by rw [if_neg hjk]; exact hj, hl, ht, rfl⟩

/-! ### The bus refines the abstract bus -/

/-- How the bus stands to the abstract bus: the publishes called the same handlers, each up to
    order; `nextID` counts the subscriptions; the `k`-th cancel function deletes the type and id of
    the `k`-th subscription; and under each type the bus files the live subscriptions of that
    type. -/
structure Refines (r : BusRun H) (s : Spec H) : Prop where
  calls : List.Forall₂ List.Perm r.calls s.calls
  nextID : r.bus.nextID = wrap64 s.regs.length
  cancels : ∀ k, r.cancels[k]? = s.regs[k]?.map fun reg => (reg.typ, idOf k)
  subs : ∀ typ x, x ∈ (r.bus.subs.getD typ .empty).subs ↔ x ∈ s.liveSubs typ

theorem refines_init : Refines (⟨NewEventBus, [], []⟩ : BusRun H) ⟨[], []⟩ :=
  ⟨.nil, show (0 : Int) = wrap64 0 by decide, fun _ => rfl, fun _ x => by simp [NewEventBus, Spec.liveSubs]⟩

theorem mem_getD_cancel (e : EventBus H) (typ typ' : GoString) (id : Int) (x : subscription H) :
    x ∈ ((e.cancel typ id).subs.getD typ' .empty).subs ↔
      x ∈ (e.subs.getD typ' .empty).subs ∧ (typ' = typ → x.id ≠ id) := by
  unfold EventBus.cancel
  cases hm : e.subs.find? typ with
  | none =>
    by_cases ht : typ' = typ
    · subst ht; simp [GoMap.getD_eq, hm]
    · simp [ht]
  | some m =>
    by_cases ht : typ' = typ
    · subst ht; simp [GoMap.getD_eq, hm]
    · simp [ht]

theorem Refines.length_cancels {r : BusRun H} {s : Spec H} (hr : Refines r s) :
    r.cancels.length = s.regs.length := by
  have h₁ := hr.cancels r.cancels.length
  have h₂ := hr.cancels s.regs.length
  rw [List.getElem?_eq_none le_rfl, eq_comm, Option.map_eq_none', List.getElem?_eq_none_iff] at h₁
  rw [List.getElem?_eq_none le_rfl, Option.map_none', List.getElem?_eq_none_iff] at h₂
  omega

theorem Refines.subscribe {r : BusRun H} {s : Spec H} (hr : Refines r s)
    (hs : s.regs.length < 2 ^ 64) (typ : GoString) (h : H) :
    Refines (r.step (.subscribe typ h)) (s.step (.subscribe typ h)) := by
  have hid : wrap64 (r.bus.nextID + 1) = idOf s.regs.length := by
    rw [hr.nextID, wrap64_add_wrap]; rfl
  have hlen := hr.length_cancels
  refine ⟨hr.calls, ?_, fun k => ?_, fun typ' x => ?_⟩
  · simp only [BusRun.step, EventBus.Subscribe, Spec.step, List.length_append, List.length_singleton,
      hid]
    rfl
  · simp only [BusRun.step, EventBus.Subscribe, Spec.step]
    by_cases hk : k < s.regs.length
    · rw [List.getElem?_append_left (hlen ▸ hk), List.getElem?_append_left hk, hr.cancels]
    · rw [List.getElem?_append_right (by omega), List.getElem?_append_right (by omega), hlen]
      by_cases hk' : k = s.regs.length
      · subst hk'; simp [hid]
      · rw [List.getElem?_eq_none (by simp; omega), List.getElem?_eq_none (by simp; omega)]; rfl
  · have hfresh : ∀ y ∈ s.liveSubs typ, y.id ≠ idOf s.regs.length := fun y hy hy' => by
      obtain ⟨j, _, hj, -, -, rfl⟩ := mem_liveSubs.1 hy
      have := (List.getElem?_eq_some_iff.1 hj).1
      exact absurd (idOf_inj (by omega) (by omega) hy') (by omega)
    simp only [BusRun.step, EventBus.Subscribe, GoMap.getD_insert, liveSubs_subscribe, List.mem_append]
    by_cases ht : typ' = typ
    · subst ht
      simp only [if_true, IdMap.mem_insert, hr.subs, hid, List.mem_singleton]
      constructor
      · rintro (⟨hx, -⟩ | rfl)
        · exact .inl hx
        · exact .inr rfl
      · rintro (hx | rfl)
        · exact .inl ⟨hx, hfresh x hx⟩
        · exact .inr rfl
    · rw [if_neg ht, if_neg (Ne.symm ht), hr.subs]; simp

theorem cancel_nextID (e : EventBus H) (typ : GoString) (id : Int) :
    (e.cancel typ id).nextID = e.nextID := by
  unfold EventBus.cancel; split <;> rfl

theorem Refines.cancel {r : BusRun H} {s : Spec H} (hr : Refines r s) (hs : s.regs.length ≤ 2 ^ 64)
    (k : Nat) : Refines (r.step (.cancel k)) (s.step (.cancel k)) := by
  have hc := hr.cancels k
  cases hk : s.regs[k]? with
  | none =>
    rw [hk, Option.map_none'] at hc
    have hs' : s.step (.cancel k) = s := by
      simp only [Spec.step, List.modify_eq_self (List.getElem?_eq_none_iff.1 hk)]
    rw [hs', show r.step (.cancel k) = r by simp only [BusRun.step, hc]]
    exact hr
  | some reg =>
    rw [hk, Option.map_some'] at hc
    have hkl := (List.getElem?_eq_some_iff.1 hk).1
    have hr' : r.step (.cancel k) = { r with bus := r.bus.cancel reg.typ (idOf k) } := by
      simp only [BusRun.step, hc]
    rw [hr']
    refine ⟨hr.calls, ?_, fun j => ?_, fun typ' x => ?_⟩
    · rw [cancel_nextID, hr.nextID, Spec.step, List.length_modify]
    · rw [hr.cancels, regs_cancel]
      split_ifs
      · rw [Option.map_map]; rfl
      · rfl
    · rw [mem_getD_cancel, hr.subs, mem_liveSubs_cancel hs hkl]
      by_cases ht : typ' = reg.typ
      · simp only [ht, forall_const]
      · exact and_congr_right fun hx =>
          ⟨fun _ => id_ne_of_typ_ne hs hx hk (Ne.symm ht), fun h _ => h⟩

/-- What the handlers a publish calls are: a permutation of those of the live subscriptions of
    the event's type. -/
theorem Refines.dispatch {r : BusRun H} {s : Spec H} (hr : Refines r s)
    (hs : s.regs.length ≤ 2 ^ 64) (ev : Event) :
    (r.bus.dispatchSync ev).Perm ((s.regs.filter fun reg => reg.live ∧ reg.typ = ev.type).map (·.fn)) := by
  rw [← liveSubs_fn]
  exact ((List.perm_ext_iff_of_nodup (List.Nodup.of_map _ (r.bus.subs.getD ev.type .empty).nodup)
    (nodup_liveSubs hs _)).2 (hr.subs ev.type)).map _

theorem Refines.step {r : BusRun H} {s : Spec H} (hr : Refines r s) (c : BusCall H)
    (hs : (s.step c).regs.length ≤ 2 ^ 64) : Refines (r.step c) (s.step c) := by
  cases c with
  | subscribe typ h =>
    simp only [Spec.step, List.length_append, List.length_singleton] at hs
    exact hr.subscribe (by omega) typ h
  | cancel k =>
    rw [Spec.step, List.length_modify] at hs
    exact hr.cancel hs k
  | publish ev =>
    exact ⟨List.rel_append hr.calls (.cons (hr.dispatch hs ev) .nil), hr.nextID, hr.cancels, hr.subs⟩

theorem runBus_append (calls : List (BusCall H)) (c : BusCall H) :
    runBus (calls ++ [c]) = (runBus calls).step c := by
  rw [runBus, List.foldl_append]; rfl

theorem Spec.run_append (calls : List (BusCall H)) (c : BusCall H) :
    Spec.run (calls ++ [c]) = (Spec.run calls).step c := by
  rw [Spec.run, List.foldl_append]; rfl

/-- While at most `2^64` subscriptions have been made, the bus refines the abstract bus. -/
theorem refines_run (calls : List (BusCall H))
    (h : (calls.filter BusCall.isSubscribe).length ≤ 2 ^ 64) :
    Refines (runBus calls) (Spec.run calls) := by
  induction calls using List.reverseRecOn with
  | nil => exact refines_init
  | append_singleton calls c ih =>
    have hlen := length_regs_run (calls ++ [c])
    rw [List.filter_append, List.length_append] at h hlen
    rw [Spec.run_append] at hlen
    rw [runBus_append, Spec.run_append]
    exact (ih (by omega)).step c (by omega)

/-- In `DispatchSync` mode, while at most `2^64` subscriptions have been made, each publish calls
    the handler of every subscription of the event's type that is live when it starts, once, and
    no other (a cancel ends only the subscription it was returned for); and a cancel function
    called again changes nothing. -/
theorem sync_bus_delivers (calls : List (BusCall H))
    (h : (calls.filter BusCall.isSubscribe).length ≤ 2 ^ 64) :
    List.Forall₂ List.Perm (runBus calls).calls (Spec.run calls).calls ∧
      ∀ k, ((runBus calls).step (.cancel k)).step (.cancel k) = (runBus calls).step (.cancel k) :=
  ⟨(refines_run calls h).calls, step_cancel_cancel _⟩

/-- Two handlers on one event type, the first cancelled twice, then a publish. -/
theorem sync_bus_delivers_two :
    let calls : List (BusCall Nat) := [.subscribe EventPointsAdded 1, .subscribe EventPointsAdded 2,
      .cancel 0, .cancel 0, .publish { Event.bare [] with type := EventPointsAdded }]
    (calls.filter BusCall.isSubscribe).length ≤ 2 ^ 64 ∧
      List.Forall₂ List.Perm (runBus calls).calls (Spec.run calls).calls ∧
        ∀ k, ((runBus calls).step (.cancel k)).step (.cancel k) = (runBus calls).step (.cancel k) :=
  ⟨by decide, sync_bus_delivers _ (by decide)⟩

theorem foldl_subscribes (s : Spec H) (typ : GoString) (h : H) (n : Nat) :
    (List.replicate n (BusCall.subscribe typ h)).foldl Spec.step s =
      { s with regs := s.regs ++ List.replicate n ⟨typ, h, true⟩ } := by
  induction n generalizing s with
  | zero => simp
  | succ n ih =>
    rw [List.replicate_succ, List.foldl_cons, ih, List.replicate_succ]
    simp [Spec.step]

/-- After `2^64` subscriptions `nextID` has come round: the next subscription gets the id of the
    first and takes its place, and a publish no longer calls the first handler, which was never
    cancelled. -/
theorem nextID_wraps_drops_handler :
    let calls : List (BusCall Nat) := (BusCall.subscribe EventPointsAdded 0 ::
      List.replicate (2 ^ 64 - 1) (.subscribe EventPointsAdded 1)) ++
      [.subscribe EventPointsAdded 2, .publish { Event.bare [] with type := EventPointsAdded }]
    (calls.filter BusCall.isSubscribe).length = 2 ^ 64 + 1 ∧
      (∃ l, (runBus calls).calls = [l] ∧ 0 ∉ l) ∧ ∃ l, (Spec.run calls).calls = [l] ∧ 0 ∈ l := by
  intro calls
  have hsplit : calls = (BusCall.subscribe EventPointsAdded 0 ::
      List.replicate (2 ^ 64 - 1) (.subscribe EventPointsAdded 1)) ++
      [.subscribe EventPointsAdded 2] ++ [.publish { Event.bare [] with type := EventPointsAdded }] := by
    simp only [calls, List.append_assoc, List.singleton_append]
  have hsub : ((BusCall.subscribe EventPointsAdded 0 ::
      List.replicate (2 ^ 64 - 1) (.subscribe EventPointsAdded (1 : Nat))).filter
        BusCall.isSubscribe).length = 2 ^ 64 := by
    rw [List.filter_eq_self.2 fun c hc => ?_]
    · rw [List.length_cons, List.length_replicate]; norm_num
    · rcases List.mem_cons.1 hc with rfl | hc
      · rfl
      · rw [(List.mem_replicate.1 hc).2]; rfl
  have hrun : Spec.run (BusCall.subscribe EventPointsAdded 0 ::
      List.replicate (2 ^ 64 - 1) (.subscribe EventPointsAdded (1 : Nat))) =
      ⟨⟨EventPointsAdded, 0, true⟩ :: List.replicate (2 ^ 64 - 1) ⟨EventPointsAdded, 1, true⟩, []⟩ := by
    rw [Spec.run, List.foldl_cons, foldl_subscribes]
    simp only [Spec.step, List.nil_append, List.singleton_append]
  have hr := refines_run _ hsub.le
  rw [hrun] at hr
  refine ⟨?_, ?_, ?_⟩
  · rw [hsplit, List.filter_append, List.filter_append, List.length_append, List.length_append, hsub]
    rfl
  · rw [hsplit, runBus_append, runBus_append]
    generalize runBus _ = r₀ at hr ⊢
    have hc₀ := List.forall₂_nil_right_iff.1 hr.calls
    have hn : r₀.bus.nextID = wrap64 (2 ^ 64) := by
      rw [hr.nextID, List.length_cons, List.length_replicate]; norm_num
    refine ⟨((r₀.bus.subs.getD EventPointsAdded .empty).insert
      ⟨wrap64 (r₀.bus.nextID + 1), EventPointsAdded, 2⟩).subs.map (·.fn), ?_, fun hmem => ?_⟩
    · simp only [BusRun.step, hc₀, List.nil_append, EventBus.dispatchSync, EventBus.Subscribe,
        GoMap.getD_insert, if_true]
    · obtain ⟨x, hx, hx0⟩ := List.mem_map.1 hmem
      rcases IdMap.mem_insert.1 hx with ⟨hx, hne⟩ | rfl
      · obtain ⟨j, reg, hj, -, -, rfl⟩ := mem_liveSubs.1 ((hr.subs _ x).1 hx)
        cases j with
        | zero => exact hne (by rw [hn, wrap64_add_wrap]; show idOf 0 = wrap64 (2 ^ 64 + 1); decide)
        | succ j =>
          rw [List.getElem?_cons_succ, List.getElem?_replicate] at hj
          split_ifs at hj
          cases hj
          simp at hx0
      · simp at hx0
  · rw [hsplit, Spec.run_append, Spec.run_append, hrun]
    exact ⟨_, rfl, List.mem_map.2 ⟨⟨EventPointsAdded, 0, true⟩,
      List.mem_filter.2 ⟨List.mem_append_left _ (List.mem_cons_self _ _), by decide⟩, rfl⟩⟩

end GamifyKit.Engine
