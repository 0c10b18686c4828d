import GamifyKit.Memory.Store
import GamifyKit.Engine.AsyncBus

/-! Package `gamify`: the builder `New` of a `GamifyService`, and the store it falls back on.
    An option sets one field of the builder's `config`; `New` starts from the defaults (async
    dispatch, the default rule engine, no storage, no hub) and applies the options in order, so
    the last option of a kind wins (`New_storage`). Without a storage it uses `inMemoryFallback`,
    a Go map of user states written without a lock, so a store one call at a time: it answers
    every sequence of requests as `memory.Store` does and keeps the same states, but leaves
    `Updated` at the zero time where `memory.Store` stamps it (`fallback_refines`). With a hub,
    `New` subscribes its `Broadcast` to the four primary event types, and the bus hands an event
    to the hub, once, exactly when its type is one of them (`New_bridges`); in the default
    `DispatchAsync` mode, where the bus is `Engine.AsyncBus`, every schedule broadcasts only
    bridged events the queue accepted, none more often than accepted, and some schedule
    broadcasts a whole burst in order (`New_async_bridges`). The storage and the hub are the
    values the caller gave, of types `S` and `Hb`; a handler on the bus is the hub whose
    `Broadcast` it calls. -/

namespace GamifyKit.Gamify
open GamifyKit.Go GamifyKit.Core GamifyKit.Memory GamifyKit.Engine

/-! ### The fallback store -/

/-- `memStore`: the map of user states. A `nil` map reads as an empty one and `ensure` makes it
    before writing, so the map starts empty. -/
structure memStore where
  data : GoMap UserState

/-- `memStore.ensure(u)`: the state of `u`, stored new and empty when it had none. -/
def memStore.ensure (s : memStore) (u : UserID) : UserState × memStore :=
  match s.data.find? u with
  | some st => (st, s)
  | none => (UserState.empty u, ⟨s.data.insert u (UserState.empty u)⟩)

/-- `memStore.AddPoints`. -/
def memStore.AddPoints (s : memStore) (u : UserID) (metric : Metric) (d : Int) :
    Except String Int × memStore :=
  let (st, s) := s.ensure u
  match AddSafe (st.points.getD metric 0) d with
  | .error e => (.error e, s)
  | .ok next => (.ok next, ⟨s.data.insert u { st with points := st.points.insert metric next }⟩)

/-- `memStore.AwardBadge`. -/
def memStore.AwardBadge (s : memStore) (u : UserID) (b : Badge) : memStore :=
  let (st, s) := s.ensure u
  ⟨s.data.insert u { st with badges := st.badges.insert b () }⟩

/-- `memStore.GetState`: `ensure(u).Clone()`. -/
def memStore.GetState (s : memStore) (u : UserID) : UserState × memStore := s.ensure u

/-- `memStore.SetLevel`. -/
def memStore.SetLevel (s : memStore) (u : UserID) (metric : Metric) (lvl : Int) : memStore :=
  let (st, s) := s.ensure u
  ⟨s.data.insert u { st with levels := st.levels.insert metric lvl }⟩

/-- A call of the store interface on a `memStore`. -/
def memStore.call (s : memStore) : Req → Resp × memStore
  | .addPoints u m d => (.points (s.AddPoints u m d).1, (s.AddPoints u m d).2)
  | .awardBadge u b => (.ok, s.AwardBadge u b)
  | .getState u => (.state (s.GetState u).1, (s.GetState u).2)
  | .setLevel u m l => (.ok, s.SetLevel u m l)

/-- The `Updated` time a response carries: that of the state `GetState` returns. -/
def withUpdated (q : Req) (r : Resp) (t : Int) : Resp × Option Int :=
  (r, match q with
    | .getState _ => some t
    | _ => none)

/-- `inMemoryFallback`: its `mem`, `nil` until the first call. -/
def inMemoryFallback := Option memStore

/-- A call on `inMemoryFallback`: `ensure()` makes the `memStore` once, then the call goes to it.
    Its states keep the zero `time.Time` they are made with. -/
def inMemoryFallback.call (f : inMemoryFallback) (q : Req) : (Resp × Option Int) × inMemoryFallback :=
  let s := f.getD ⟨.empty⟩
  (withUpdated q (s.call q).1 0, some (s.call q).2)

/-- The responses of a sequence of requests, and the fallback after them. -/
def inMemoryFallback.run (f : inMemoryFallback) : List Req → List (Resp × Option Int) × inMemoryFallback
  | [] => ([], f)
  | q :: qs => let r := f.call q; let rs := r.2.run qs; (r.1 :: rs.1, rs.2)

/-- Whether a call's critical section writes the state it finds: `AwardBadge`, `SetLevel`, and an
    `AddPoints` that does not overflow. -/
def writes : Req → UserState → Bool
  | .addPoints _ m d, st => (AddSafe (st.points.getD m 0) d).toBool
  | .awardBadge .., _ | .setLevel .., _ => true
  | .getState _, _ => false

/-- `memory.Store` with the `Updated` time of each record. -/
structure TimedStore where
  store : Store
  updated : UserID → Int

/-- `memory.New()`. -/
def TimedStore.empty : TimedStore := ⟨Store.empty, fun _ => 0⟩

/-- A call of `memory.Store` at time `now`, `time.Now()` reading `now` throughout: `getOrCreate`
    stamps a record it makes, and a write that succeeds stamps it again. -/
def TimedStore.call (s : TimedStore) (now : Int) (q : Req) : (Resp × Option Int) × TimedStore :=
  let updated := if (s.store q.user).isNone || writes q (s.store.record q.user) then
    Function.update s.updated q.user now else s.updated
  (withUpdated q (s.store.call q).1 (updated q.user), ⟨(s.store.call q).2, updated⟩)

/-- The responses of `memory.Store` to a sequence of requests, each with its time, and the store
    after them. -/
def TimedStore.run (s : TimedStore) : List (Int × Req) → List (Resp × Option Int) × TimedStore
  | [] => ([], s)
  | (now, q) :: qs => let r := s.call now q; let rs := r.2.run qs; (r.1 :: rs.1, rs.2)

/-- The state `ensure` finds, stored or new. -/
def memStore.record (s : memStore) (u : UserID) : UserState :=
  (s.data.find? u).getD (UserState.empty u)

theorem memStore.ensure_eq (s : memStore) (u : UserID) :
    s.ensure u = (s.record u, ⟨s.data.insert u (s.record u)⟩) := by
  unfold memStore.ensure memStore.record
  cases h : s.data.find? u with
  | none => rfl
  | some st => exact Prod.ext rfl (congrArg memStore.mk (GoMap.insert_find? h).symm)

/-- Each method of `memStore` is the critical section of `memory.Store` on the state `ensure`
    finds, written back under the user. -/
theorem memStore.call_eq (s : memStore) (q : Req) :
    s.call q = ((q.run (s.record q.user)).1, ⟨s.data.insert q.user (q.run (s.record q.user)).2⟩) := by
  cases q with
  | addPoints u m d =>
    simp only [memStore.call, memStore.AddPoints, memStore.ensure_eq, Req.run, Req.user, addPointsCS]
    cases AddSafe ((s.record u).points.getD m 0) d <;> simp [GoMap.insert_insert]
  | awardBadge u b =>
    simp [memStore.call, memStore.AwardBadge, memStore.ensure_eq, Req.run, Req.user, awardBadgeCS,
      GoMap.insert_insert]
  | getState u => simp [memStore.call, memStore.GetState, memStore.ensure_eq, Req.run, Req.user]
  | setLevel u m l =>
    simp [memStore.call, memStore.SetLevel, memStore.ensure_eq, Req.run, Req.user, setLevelCS,
      GoMap.insert_insert]

/-- The fallback holds, for every user, the state `memory.Store` holds. -/
def Sim (f : inMemoryFallback) (s : Store) : Prop := ∀ u, (f.getD ⟨.empty⟩).data.find? u = s u

theorem sim_init : Sim none Store.empty := fun _ => rfl

/-- A response with its `Updated` read as the zero `time.Time`. -/
def zeroUpdated (r : Resp × Option Int) : Resp × Option Int := (r.1, r.2.map fun _ => 0)

/-- One request answers alike on both stores, but for `Updated`, and keeps them alike. -/
theorem Sim.call {f : inMemoryFallback} {s : TimedStore} (h : Sim f s.store) (now : Int) (q : Req) :
    (f.call q).1 = zeroUpdated (s.call now q).1 ∧ Sim (f.call q).2 (s.call now q).2.store := by
  have hr : (f.getD ⟨.empty⟩).record q.user = s.store.record q.user := by
    rw [memStore.record, Store.record, h]
  refine ⟨?_, fun u => ?_⟩
  · simp only [inMemoryFallback.call, TimedStore.call, memStore.call_eq, hr, Store.call]
    cases q <;> rfl
  · simp only [inMemoryFallback.call, TimedStore.call, memStore.call_eq, hr, Store.call,
      Option.getD_some, GoMap.find?_insert, Store.set]
    by_cases hu : u = q.user
    · subst hu; simp
    · simp [hu, h u]

/-- `gamify`'s fallback store answers every sequence of requests as `memory.Store` does and holds
    the same states after it, but for the `Updated` time of the states `GetState` returns: the
    fallback leaves it at the zero `time.Time`, where `memory.Store` has the time of the call that
    made the record or last wrote it. -/
theorem fallback_refines (reqs : List (Int × Req)) :
    (inMemoryFallback.run none (reqs.map Prod.snd)).1 = (TimedStore.empty.run reqs).1.map zeroUpdated ∧
      Sim (inMemoryFallback.run none (reqs.map Prod.snd)).2 (TimedStore.empty.run reqs).2.store := by
  suffices ∀ (f : inMemoryFallback) (s : TimedStore), Sim f s.store →
      (f.run (reqs.map Prod.snd)).1 = (s.run reqs).1.map zeroUpdated ∧
        Sim (f.run (reqs.map Prod.snd)).2 (s.run reqs).2.store from this none TimedStore.empty sim_init
  induction reqs with
  | nil => exact fun _ _ h => ⟨rfl, h⟩
  | cons nq qs ih =>
    intro f s h
    obtain ⟨h₁, h₂⟩ := h.call nq.1 nq.2
    obtain ⟨ih₁, ih₂⟩ := ih _ _ h₂
    exact ⟨by simp only [List.map_cons, inMemoryFallback.run, TimedStore.run, h₁, ih₁], ih₂⟩

/-- A first `GetState` at time 7: `memory.Store` stamps the record it makes, the fallback does not. -/
example : (TimedStore.empty.run [(7, .getState (lit "u"))]).1 =
      [(.state (UserState.empty (lit "u")), some 7)] ∧
    (inMemoryFallback.run none [.getState (lit "u")]).1 = [(.state (UserState.empty (lit "u")), some 0)] := by
  decide

/-! ### The builder -/

/-- `engine.DispatchMode`. -/
inductive DispatchMode
  | DispatchSync
  | DispatchAsync
  deriving DecidableEq

/-- The builder's `config`. -/
structure config (S Hb : Type) where
  storage : Option S
  mode : DispatchMode
  rules : RuleEngine
  hub : Option Hb

/-- `gamify.Option`, named apart from Lean's `Option`: `WithStorage`, `WithRuleEngine`,
    `WithDispatchMode` and `WithRealtime`, each with the value it sets (`none` for `nil`). -/
inductive Opt (S Hb : Type)
  | WithStorage (s : Option S)
  | WithRuleEngine (r : RuleEngine)
  | WithDispatchMode (m : DispatchMode)
  | WithRealtime (h : Option Hb)

variable {S Hb : Type}

/-- An option applied to the builder's `config`. -/
def Opt.apply (c : config S Hb) : Opt S Hb → config S Hb
  | .WithStorage s => { c with storage := s }
  | .WithRuleEngine r => { c with rules := r }
  | .WithDispatchMode m => { c with mode := m }
  | .WithRealtime h => { c with hub := h }

/-- The storage a service uses: the caller's, or `inMemoryFallback`. -/
inductive Storage (S : Type)
  | given (s : S)
  | fallback

/-- The `GamifyService` `New` builds: its storage, its bus's mode and subscriptions, and its rule
    engine. -/
structure Service (S Hb : Type) where
  storage : Storage S
  mode : DispatchMode
  bus : EventBus Hb
  rules : RuleEngine

/-- The event types `New` bridges to the hub. -/
def bridged : List GoString :=
  [EventPointsAdded, EventLevelUp, EventBadgeAwarded, EventAchievementUnlocked]

/-- The bus after `Subscribe(typ, hub.Broadcast)` for each type, in order. -/
def subscribeAll (h : Hb) (b : EventBus Hb) (typs : List GoString) : EventBus Hb :=
  typs.foldl (fun b typ => (b.Subscribe typ h).1) b

/-- `New(opts...)`. -/
def New (opts : List (Opt S Hb)) : Service S Hb :=
  let cfg := opts.foldl Opt.apply ⟨none, .DispatchAsync, DefaultRuleEngine, none⟩
  ⟨match cfg.storage with
    | some s => .given s
    | none => .fallback,
   cfg.mode,
   match cfg.hub with
    | some h => subscribeAll h NewEventBus bridged
    | none => NewEventBus,
   cfg.rules⟩

/-- The storage option of an option, if it is one. -/
def Opt.storage? : Opt S Hb → Option (Option S)
  | .WithStorage s => some s
  | _ => none

/-- The hub option of an option, if it is one. -/
def Opt.hub? : Opt S Hb → Option (Option Hb)
  | .WithRealtime h => some h
  | _ => none

theorem foldl_apply_storage (opts : List (Opt S Hb)) (c : config S Hb) :
    (opts.foldl Opt.apply c).storage = ((opts.filterMap Opt.storage?).getLast?).getD c.storage := by
  induction opts generalizing c with
  | nil => rfl
  | cons o opts ih =>
    rw [List.foldl_cons, ih]
    cases o <;> simp [Opt.apply, Opt.storage?, List.getLast?_cons, Option.getD]

theorem foldl_apply_hub (opts : List (Opt S Hb)) (c : config S Hb) :
    (opts.foldl Opt.apply c).hub = ((opts.filterMap Opt.hub?).getLast?).getD c.hub := by
  induction opts generalizing c with
  | nil => rfl
  | cons o opts ih =>
    rw [List.foldl_cons, ih]
    cases o <;> simp [Opt.apply, Opt.hub?, List.getLast?_cons, Option.getD]

/-- The service stores through the storage of the last `WithStorage`, and falls back on the
    in-memory store when there is none or it was `nil`. -/
theorem New_storage (opts : List (Opt S Hb)) :
    (New opts).storage = match (opts.filterMap Opt.storage?).getLast? with
      | some (some s) => .given s
      | _ => .fallback := by
  simp only [New, foldl_apply_storage]
  rcases (opts.filterMap Opt.storage?).getLast? with _ | _ | s <;> rfl

/-- Subscribing the hub to distinct new types hands each of them to the hub once, and changes
    no other type's handlers. -/
theorem dispatchSync_subscribeAll (h : Hb) (b : EventBus Hb) (typs : List GoString)
    (hn : typs.Nodup) (hf : ∀ t ∈ typs, b.subs.getD t .empty = .empty) (ev : Event) :
    (subscribeAll h b typs).dispatchSync ev =
      if ev.type ∈ typs then [h] else b.dispatchSync ev := by
  induction typs generalizing b with
  | nil => simp [subscribeAll]
  | cons t typs ih =>
    have ht := hf t (List.mem_cons_self t typs)
    have hn' := List.nodup_cons.1 hn
    have hf' : ∀ t' ∈ typs, ((b.Subscribe t h).1.subs.getD t' .empty) = .empty := fun t' ht' => by
      have hne : t' ≠ t := fun e => hn'.1 (e ▸ ht')
      simp only [EventBus.Subscribe, GoMap.getD_insert, hne, if_false]
      exact hf t' (List.mem_cons_of_mem t ht')
    rw [subscribeAll, List.foldl_cons, ← subscribeAll, ih _ hn'.2 hf']
    by_cases he : ev.type = t
    · subst he
      have hd : (b.Subscribe ev.type h).1.dispatchSync ev = [h] := by
        simp only [EventBus.dispatchSync, EventBus.Subscribe, GoMap.getD_insert, if_true, ht]; rfl
      rw [if_neg hn'.1, hd, if_pos (List.mem_cons_self _ _)]
    · by_cases hm : ev.type ∈ typs
      · simp [hm]
      · simp [hm, he, EventBus.dispatchSync, EventBus.Subscribe]

/-- The bus of a service as it runs in `DispatchAsync` mode, as `New` leaves it: its
    subscriptions, the workers just started, nothing queued. `New` drops the cancel functions of
    the hub's subscriptions. -/
def Service.asyncBus (svc : Service S Hb) : AsyncBus Hb := { NewAsyncBus with bus := svc.bus }

theorem accounts_asyncBus (svc : Service S Hb) : svc.asyncBus.Accounts :=
  let h := (AsyncBus.accounts_init : (NewAsyncBus : AsyncBus Hb).Accounts)
  ⟨h.1, h.2, h.3, h.4, h.5, h.6⟩

/-- With a hub, the bus `New` builds hands an event to the hub alone, exactly when its type is
    bridged. -/
theorem dispatchSync_New {opts : List (Opt S Hb)} {h : Hb}
    (hh : (opts.filterMap Opt.hub?).getLast? = some (some h)) (ev : Event) :
    (New opts).bus.dispatchSync ev = if ev.type ∈ bridged then [h] else [] := by
  simp only [New, foldl_apply_hub, hh, Option.getD_some]
  exact dispatchSync_subscribeAll h NewEventBus bridged (by decide) (fun _ _ => rfl) ev

theorem flatMap_deliveries_bridged (h : Hb) (evs : List Event) :
    (evs.flatMap fun ev => deliveries ev (if ev.type ∈ bridged then [h] else [])) =
      (evs.filter fun ev => ev.type ∈ bridged).map (h, ·) := by
  induction evs with
  | nil => rfl
  | cons ev evs ih =>
    rw [List.flatMap_cons, ih, List.filter_cons]
    by_cases hb : ev.type ∈ bridged <;> simp [hb, deliveries]

/-- What a schedule that subscribes nothing keeps of the bus `b`: its subscriptions, no cancel
    function to call, and every copy of handlers taken from them. -/
structure Unsubscribed (b : EventBus Hb) (s : AsyncBus Hb) : Prop where
  bus : s.bus = b
  cancels : s.cancels = []
  copies : ∀ c ∈ s.copies, c.2 = b.dispatchSync c.1

theorem Unsubscribed.step {b : EventBus Hb} {s t : AsyncBus Hb} (hs : Unsubscribed b s) :
    ∀ {a : AsyncAct Hb}, (∀ typ f, a ≠ .subscribe typ f) → s.step a = some t → Unsubscribed b t
  | .subscribe typ f, ha, _ => absurd rfl (ha typ f)
  | .cancel k, _, h => by
    simp only [AsyncBus.step, hs.cancels, List.getElem?_nil] at h
    cases h; exact hs
  | .publish ev, _, h => by
    simp only [AsyncBus.step] at h
    split_ifs at h <;> cases h <;> exact ⟨hs.bus, hs.cancels, hs.copies⟩
  | .close, _, h => by cases h; exact ⟨hs.bus, hs.cancels, hs.copies⟩
  | .recv _, _, h => by
    obtain ⟨_, _, -, -, rfl⟩ := AsyncBus.step_recv h; exact ⟨hs.bus, hs.cancels, hs.copies⟩
  | .exit _, _, h => by
    obtain ⟨-, -, rfl⟩ := AsyncBus.step_exit h; exact ⟨hs.bus, hs.cancels, hs.copies⟩
  | .work _, _, h => by
    rcases AsyncBus.step_work h with ⟨ev, -, rfl⟩ | ⟨_, _, _, -, rfl⟩ | ⟨_, -, rfl⟩
    · refine ⟨hs.bus, hs.cancels, fun c hc => ?_⟩
      rcases List.mem_append.1 hc with hc | hc
      · exact hs.copies c hc
      · rw [List.mem_singleton.1 hc, hs.bus]
    · exact ⟨hs.bus, hs.cancels, hs.copies⟩
    · exact ⟨hs.bus, hs.cancels, hs.copies⟩

/-- A schedule that subscribes nothing keeps the subscriptions and the accounts. -/
theorem Unsubscribed.runFrom {b : EventBus Hb} : ∀ (acts : List (AsyncAct Hb)) {s t : AsyncBus Hb},
    Unsubscribed b s → s.Accounts → (∀ a ∈ acts, ∀ typ f, a ≠ .subscribe typ f) →
      s.runFrom acts = some t → Unsubscribed b t ∧ t.Accounts
  | [], _, _, hs, hA, _, h => by cases h; exact ⟨hs, hA⟩
  | a :: acts, s, _, hs, hA, ha, h => by
    rw [AsyncBus.runFrom_cons] at h
    cases hst : s.step a with
    | none => rw [hst] at h; cases h
    | some s₁ =>
      rw [hst] at h
      exact Unsubscribed.runFrom acts (hs.step (ha a (List.mem_cons_self _ _)) hst) (hA.step hst)
        (fun a' h' => ha a' (List.mem_cons_of_mem _ h')) h

/-- Some schedule publishes a burst the queue has room for, and one worker dispatches it in
    order. -/
theorem asyncBus_burst (svc : Service S Hb) {evs : List Event} (hl : evs.length ≤ asyncQueueCap) :
    ∃ acts t, svc.asyncBus.runFrom (evs.map .publish ++ acts) = some t ∧
      t.calls = evs.flatMap fun ev => deliveries ev (svc.bus.dispatchSync ev) := by
  have hp := AsyncBus.runFrom_publish evs (s := svc.asyncBus)
    (by simpa [Service.asyncBus, NewAsyncBus] using hl)
  obtain ⟨acts, hq⟩ := AsyncBus.Leads.queue (i := 0) evs
    (s := { svc.asyncBus with queue := [] ++ evs, accepted := [] ++ evs }) rfl rfl
  exact ⟨acts, _, by rw [AsyncBus.runFrom, List.foldlM_append, ← AsyncBus.runFrom, hp]; exact hq, rfl⟩

/-- Over every schedule that subscribes nothing, each handler call is owed by a copy of the
    service's subscriptions, and the copies were made for events the queue accepted. -/
theorem asyncBus_calls (svc : Service S Hb) {acts : List (AsyncAct Hb)} {t : AsyncBus Hb}
    (ha : ∀ a ∈ acts, ∀ typ f, a ≠ .subscribe typ f) (ht : svc.asyncBus.runFrom acts = some t) :
    t.calls.Subperm ((t.copies.map Prod.fst).flatMap fun ev => deliveries ev (svc.bus.dispatchSync ev)) ∧
      (t.copies.map Prod.fst).Subperm t.accepted := by
  obtain ⟨hU, hA⟩ := Unsubscribed.runFrom acts
    ⟨rfl, rfl, fun _ hc => by simp [Service.asyncBus, NewAsyncBus] at hc⟩ (accounts_asyncBus svc) ha ht
  have hcopies : (t.copies.flatMap fun c => deliveries c.1 c.2) =
      (t.copies.map Prod.fst).flatMap fun ev => deliveries ev (svc.bus.dispatchSync ev) := by
    rw [List.flatMap_map]
    exact List.flatMap_congr fun c hc => by rw [hU.copies c hc]; rfl
  exact ⟨hcopies ▸ (List.sublist_append_left _ _).subperm.trans hA.calls.subperm,
    ((List.sublist_append_left _ _).subperm.trans hA.taken.subperm).trans
      (hA.fifo ▸ List.sublist_append_left _ _).subperm⟩

/-- In `DispatchAsync` mode, with a hub (the one of the last `WithRealtime`): some schedule
    broadcasts every bridged event of a burst of at most 2048 published events, in order, once
    each; and over every schedule that subscribes nothing else, every handler call is the hub's,
    with a bridged event the queue accepted, and no event is broadcast more often than it was
    accepted. -/
theorem New_async_bridges (opts : List (Opt S Hb)) {h : Hb}
    (hh : (opts.filterMap Opt.hub?).getLast? = some (some h)) :
    (∀ evs : List Event, evs.length ≤ asyncQueueCap →
      ∃ acts t, (New opts).asyncBus.runFrom (evs.map .publish ++ acts) = some t ∧
        t.calls = (evs.filter fun ev => ev.type ∈ bridged).map (h, ·)) ∧
    ∀ acts t, (∀ a ∈ acts, ∀ typ f, a ≠ .subscribe typ f) → (New opts).asyncBus.runFrom acts = some t →
      (∀ c ∈ t.calls, c.1 = h) ∧
        (t.calls.map Prod.snd).Subperm (t.accepted.filter fun ev => ev.type ∈ bridged) := by
  have hbr : ∀ evs : List Event, (evs.flatMap fun ev => deliveries ev ((New opts).bus.dispatchSync ev)) =
      (evs.filter fun ev => ev.type ∈ bridged).map (h, ·) := fun evs => by
    simp only [dispatchSync_New hh, flatMap_deliveries_bridged]
  refine ⟨fun evs hl => ?_, fun acts t ha ht => ?_⟩
  · obtain ⟨acts, t, ht, hc⟩ := asyncBus_burst (New opts) hl
    exact ⟨acts, t, ht, hc.trans (hbr evs)⟩
  · obtain ⟨hcalls, hcopies⟩ := asyncBus_calls (New opts) ha ht
    rw [hbr] at hcalls
    refine ⟨fun c hc => ?_, ?_⟩
    · obtain ⟨ev, -, rfl⟩ := List.mem_map.1 (hcalls.subset hc)
      rfl
    · obtain ⟨l, hp, hs⟩ := hcalls
      exact (List.Subperm.trans ⟨l.map Prod.snd, hp.map _, by simpa using hs.map Prod.snd⟩
        (hcopies.filter _))

/-- A service built with the hub `1`. -/
theorem New_async_bridges_hub :
    (([.WithRealtime (some 1)] : List (Opt Unit Nat)).filterMap Opt.hub?).getLast? = some (some 1) ∧
    (∀ evs : List Event, evs.length ≤ asyncQueueCap →
      ∃ acts t, (New ([.WithRealtime (some 1)] : List (Opt Unit Nat))).asyncBus.runFrom
          (evs.map .publish ++ acts) = some t ∧
        t.calls = (evs.filter fun ev => ev.type ∈ bridged).map (1, ·)) ∧
    ∀ acts t, (∀ a ∈ acts, ∀ typ f, a ≠ .subscribe typ f) →
      (New ([.WithRealtime (some 1)] : List (Opt Unit Nat))).asyncBus.runFrom acts = some t →
      (∀ c ∈ t.calls, c.1 = 1) ∧
        (t.calls.map Prod.snd).Subperm (t.accepted.filter fun ev => ev.type ∈ bridged) :=
  ⟨rfl, New_async_bridges _ rfl⟩

end GamifyKit.Gamify
