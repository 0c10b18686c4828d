import GamifyKit.Analytics.Metrics

/-! `analytics/streaming.go`: the `StreamPublisher` and the subscribers of the package. The
    publisher's map binds ids to references of subscribers, objects in a heap (`objects`); a caller
    may bind one subscriber under several ids, and `PublishEvent` then calls it once per id
    (`run_bound`), so a subscriber bound under one id receives every event once, in order
    (`run_delivers`), and one bound under two ids twice (`run_bound_twice`). Where a `select` has
    several ready cases Go picks one at random: a `WebSocketSubscriber` carries the choices its
    `select`s make (`picks`), and whatever they are, what its reader gets, then what is buffered, is
    a sublist of the events offered (`run_sublist`). Every call runs as one atomic step. -/

namespace GamifyKit.Analytics
open GamifyKit.Go GamifyKit.Core

/-- `StreamEvent`; of its `Metadata`, the one key `convertToStreamEvent` writes. -/
structure StreamEvent where
  type : GoString
  userID : UserID
  metric : Metric
  badge : Badge
  points : Int
  level : Int
  timestamp : Int
  achievement : Option GoString
  deriving DecidableEq

/-- `convertToStreamEvent(e)` for an event made at `time` whose `Metadata["achievement"]` holds the
    string `achievement`, if it holds a string. -/
def convertToStreamEvent (e : Event) (time : Int) (achievement : Option GoString) : StreamEvent :=
  let event : StreamEvent := ⟨e.type, e.userID, [], [], 0, 0, time, none⟩
  if e.type = EventPointsAdded then
    { event with type := lit "points_awarded", points := e.delta, metric := e.metric }
  else if e.type = EventLevelUp then
    { event with type := lit "level_reached", level := e.level, metric := e.metric }
  else if e.type = EventBadgeAwarded then { event with type := lit "badge_awarded", badge := e.badge }
  else if e.type = EventAchievementUnlocked then
    { event with type := lit "achievement_unlocked", achievement := achievement }
  else event

/-! ### Subscribers -/

/-- `WebSocketSubscriber`: the events buffered in `sendChan`, its capacity, the reads blocked in
    `ReadEvent`'s `select`, whether `closeChan` is closed, and the choices of its `select`s: where
    several cases are ready, the one made at turn `turn` takes the `picks turn`-th of them (counted
    modulo their number, in the order the code lists them). -/
structure WebSocketSubscriber where
  queue : List StreamEvent
  bufferSize : Nat
  waiting : Nat
  closed : Bool
  picks : Nat → Nat
  turn : Nat

/-- `NewWebSocketSubscriber(id, bufferSize)` with the choices `picks`: `make(chan *StreamEvent,
    bufferSize)` panics on a negative size or a buffer past `maxAlloc` less the channel header. -/
def NewWebSocketSubscriber (bufferSize : Int) (picks : Nat → Nat) :
    Except String WebSocketSubscriber :=
  if bufferSize < 0 ∨ maxAlloc - 96 < 8 * bufferSize then .error "makechan: size out of range"
  else .ok ⟨[], bufferSize.toNat, 0, false, picks, 0⟩

/-- `OnStreamEvent(event)`: the send is ready when a read is blocked on the empty buffer, which
    takes the event at once, or when the buffer has room; the `select` sends unless `closeChan` is
    closed too and the choice falls on it, and with no case ready it takes `default`, dropping the
    event. The subscriber after it, and the event a blocked read returns. -/
def WebSocketSubscriber.OnStreamEvent (ws : WebSocketSubscriber) (event : StreamEvent) :
    WebSocketSubscriber × List StreamEvent :=
  let handoff := decide (0 < ws.waiting) && ws.queue.isEmpty
  let sends := (handoff || decide (ws.queue.length < ws.bufferSize)) &&
    (!ws.closed || ws.picks ws.turn % 2 = 0)
  let ws' := { ws with turn := ws.turn + 1 }
  if sends && handoff then ({ ws' with waiting := ws.waiting - 1 }, [event])
  else if sends then ({ ws' with queue := ws.queue ++ [event] }, [])
  else (ws', [])

/-- `ReadEvent(ctx)`, `ctxErr` being `ctx.Err()` once the context is done: what it returns and
    the subscriber after it, or `none` while no case is ready and the call blocks. -/
def WebSocketSubscriber.ReadEvent (ws : WebSocketSubscriber) (ctxErr : Option GoString) :
    Option (Except GoString StreamEvent × WebSocketSubscriber) :=
  let ready : List (Except GoString StreamEvent × List StreamEvent) :=
    (match ws.queue with
      | event :: rest => [(.ok event, rest)]
      | [] => []) ++
    (if ws.closed then [(.error (lit "EOF"), ws.queue)] else []) ++
    (match ctxErr with
      | some err => [(.error err, ws.queue)]
      | none => [])
  (ready[ws.picks ws.turn % ready.length]?).map fun r => (r.1, { ws with queue := r.2, turn := ws.turn + 1 })

/-- `Close()`: closes `closeChan` unless it is closed already; the reads blocked on it return
    `io.EOF`. -/
def WebSocketSubscriber.Close (ws : WebSocketSubscriber) : WebSocketSubscriber :=
  { ws with closed := true, waiting := 0 }

/-- `InMemorySubscriber`: the events it received. -/
structure InMemorySubscriber where
  events : List StreamEvent
  deriving DecidableEq

/-- `NewInMemorySubscriber(id)`. -/
def NewInMemorySubscriber : InMemorySubscriber := ⟨[]⟩

/-- `OnStreamEvent(event)`. -/
def InMemorySubscriber.OnStreamEvent (ims : InMemorySubscriber) (event : StreamEvent) :
    InMemorySubscriber :=
  ⟨ims.events ++ [event]⟩

/-- `GetEvents()`: a copy of the events. -/
def InMemorySubscriber.GetEvents (ims : InMemorySubscriber) : List StreamEvent := ims.events

/-- `ClearEvents()`. -/
def InMemorySubscriber.ClearEvents (_ : InMemorySubscriber) : InMemorySubscriber := ⟨[]⟩

/-- `DashboardManager`, without the publisher and metrics it points to: its recent events and
    their bound. -/
structure DashboardManager where
  recentEvents : List StreamEvent
  maxEvents : Int
  deriving DecidableEq

/-- `OnStreamEvent(event)`: append, and drop the oldest once there are more than `maxEvents`. -/
def DashboardManager.OnStreamEvent (dm : DashboardManager) (event : StreamEvent) :
    DashboardManager :=
  let recent := dm.recentEvents ++ [event]
  { dm with recentEvents := if dm.maxEvents < recent.length then recent.tail else recent }

/-- The subscribers of the package: the implementations of `StreamSubscriber`. -/
inductive Subscriber
  | inMemory (ims : InMemorySubscriber)
  | webSocket (ws : WebSocketSubscriber)
  | dashboard (dm : DashboardManager)

/-- `OnStreamEvent(event)` of a subscriber; none of them panics. -/
def Subscriber.OnStreamEvent : Subscriber → StreamEvent → Subscriber
  | .inMemory ims, event => .inMemory (ims.OnStreamEvent event)
  | .webSocket ws, event => .webSocket (ws.OnStreamEvent event).1
  | .dashboard dm, event => .dashboard (dm.OnStreamEvent event)

/-- `Close()` of a subscriber, which returns `nil`. -/
def Subscriber.Close : Subscriber → Subscriber
  | .webSocket ws => .webSocket ws.Close
  | s => s

/-! ### The publisher -/

/-- `StreamPublisher`: `subscribers`, id ↦ reference of a subscriber in the heap `objects`, where
    the next subscriber made goes at `next`. -/
structure StreamPublisher where
  subscribers : GoMap Nat
  objects : Nat → Subscriber
  next : Nat

/-- `NewStreamPublisher(metrics)`; the heap holds no subscriber yet. -/
def NewStreamPublisher : StreamPublisher := ⟨.empty, fun _ => .inMemory NewInMemorySubscriber, 0⟩

/-- A subscriber made by its constructor: its reference and the publisher's heap after. -/
def StreamPublisher.alloc (sp : StreamPublisher) (s : Subscriber) : Nat × StreamPublisher :=
  (sp.next, { sp with objects := Function.update sp.objects sp.next s, next := sp.next + 1 })

/-- `Subscribe(id, subscriber)`, the subscriber at reference `r`: binds it under `id`, in place of
    the subscriber the id had, which is not closed. -/
def StreamPublisher.Subscribe (sp : StreamPublisher) (id : GoString) (r : Nat) : StreamPublisher :=
  { sp with subscribers := sp.subscribers.insert id r }

/-- `Unsubscribe(id)`: closes the subscriber bound to `id`, if any, and removes the binding. -/
def StreamPublisher.Unsubscribe (sp : StreamPublisher) (id : GoString) : StreamPublisher :=
  match sp.subscribers.find? id with
  | some r => ⟨sp.subscribers.erase id, Function.update sp.objects r (sp.objects r).Close, sp.next⟩
  | none => sp

/-- The subscribers the loop of `PublishEvent` visits, in the order `refs`: each gets the event. -/
def StreamPublisher.deliver (sp : StreamPublisher) (event : StreamEvent) (refs : List Nat) :
    StreamPublisher :=
  let objects := refs.foldl (fun objs r => Function.update objs r ((objs r).OnStreamEvent event))
    sp.objects
  { sp with objects := objects }

/-- `PublishEvent(event)`, the subscribers visited in the map's key order. -/
def StreamPublisher.PublishEvent (sp : StreamPublisher) (event : StreamEvent) : StreamPublisher :=
  sp.deliver event (sp.subscribers.entries.map Prod.snd)

/-- `OnEvent(e)` for an event made at `time` with `achievement` metadata, on the wall clock `now`:
    the metrics count it, then the subscribers get it. -/
def StreamPublisher.OnEvent (sp : StreamPublisher) (cm : ComprehensiveMetrics) (e : Event)
    (time now : Int) (achievement : Option GoString) : ComprehensiveMetrics × StreamPublisher :=
  (cm.OnEvent e time now, sp.PublishEvent (convertToStreamEvent e time achievement))

/-- The statistics of `GetRealtimeStats()`, but for the `timestamp`, which is the wall clock. -/
structure RealtimeStats where
  pointsAwarded24h : Int
  badgesAwarded24h : Int
  levelsReached24h : Int
  activeSubscribers : Nat
  deriving DecidableEq

/-- `GetRealtimeStats()`. -/
def StreamPublisher.GetRealtimeStats (sp : StreamPublisher) (cm : ComprehensiveMetrics) :
    RealtimeStats :=
  ⟨cm.GetRealtimeStats.1, cm.GetRealtimeStats.2.1, cm.GetRealtimeStats.2.2,
    sp.subscribers.entries.length⟩

/-- `NewDashboardManager(publisher, metrics, maxEvents)`: `make([]*StreamEvent, 0, maxEvents)`
    panics on a negative capacity or one past `maxAlloc`; the manager subscribes as
    `"dashboard"`. Its reference and the publisher after the call. -/
def NewDashboardManager (sp : StreamPublisher) (maxEvents : Int) : Except String (Nat × StreamPublisher) :=
  if maxEvents < 0 ∨ maxAlloc < 8 * maxEvents then .error "makeslice: cap out of range"
  else
    let made := sp.alloc (.dashboard ⟨[], maxEvents⟩)
    .ok (made.1, made.2.Subscribe (lit "dashboard") made.1)

/-! ### The order of `PublishEvent` -/

/-- Handing the event to two subscribers in either order gives the same heap. -/
theorem update_deliver_comm (event : StreamEvent) (objs : Nat → Subscriber) (a b : Nat) :
    let step := fun (objs : Nat → Subscriber) r => Function.update objs r ((objs r).OnStreamEvent event)
    step (step objs a) b = step (step objs b) a := by
  intro step
  by_cases h : a = b
  · rw [h]
  · simp only [step, Function.update_noteq (Ne.symm h), Function.update_noteq h]
    exact Function.update_comm h _ _ _

/-- `PublishEvent` comes to the same whatever order `range` visits the subscribers in. -/
theorem deliver_perm (sp : StreamPublisher) (event : StreamEvent) {refs : List Nat}
    (h : refs.Perm (sp.subscribers.entries.map Prod.snd)) :
    sp.deliver event refs = sp.PublishEvent event := by
  simp only [StreamPublisher.PublishEvent, StreamPublisher.deliver]
  rw [h.foldl_eq' fun a _ b _ objs => update_deliver_comm event objs a b]

/-- The loop of `PublishEvent` calls `OnStreamEvent` on a subscriber once for each time its
    reference is listed. -/
theorem deliver_apply (event : StreamEvent) (x : Nat) :
    ∀ (refs : List Nat) (objs : Nat → Subscriber),
      (refs.foldl (fun objs r => Function.update objs r ((objs r).OnStreamEvent event)) objs) x =
        (fun s => s.OnStreamEvent event)^[refs.count x] (objs x)
  | [], _ => rfl
  | r :: refs, objs => by
    rw [List.foldl_cons, deliver_apply event x refs, List.count_cons]
    by_cases h : r = x
    · subst h
      simp [Function.iterate_succ_apply]
    · simp [h, Function.update_noteq (Ne.symm h)]

/-- The number of ids bound to the reference `r`: the times the loop of `PublishEvent` visits it. -/
def StreamPublisher.bound (sp : StreamPublisher) (r : Nat) : Nat :=
  (sp.subscribers.entries.map Prod.snd).count r

/-- The ids bound to `r` are the keys of the map's entries with value `r`. -/
theorem StreamPublisher.mem_boundIds {sp : StreamPublisher} {r : Nat} {k : GoString} :
    k ∈ (sp.subscribers.entries.filter fun b => b.2 == r).map Prod.fst ↔
      sp.subscribers.find? k = some r := by
  simp only [List.mem_map, List.mem_filter, beq_iff_eq]
  constructor
  · rintro ⟨⟨k', r'⟩, ⟨hm, rfl⟩, rfl⟩
    exact GoMap.find?_of_mem hm
  · exact fun hk => ⟨(k, r), ⟨mem_of_findKV hk, rfl⟩, rfl⟩

/-- A reference is listed among the map's values once for each id bound to it. -/
theorem StreamPublisher.bound_eq_length {sp : StreamPublisher} {r : Nat} {ks : List GoString}
    (hks : ks.Nodup) (h : ∀ k, sp.subscribers.find? k = some r ↔ k ∈ ks) : sp.bound r = ks.length := by
  have hperm := (List.perm_ext_iff_of_nodup
    (((List.filter_sublist _).map _).nodup (GoMap.nodup_keys _)) hks).2 fun k => mem_boundIds.trans (h k)
  rw [StreamPublisher.bound, List.count, List.countP_map, List.countP_eq_length_filter,
    ← hperm.length_eq, List.length_map]
  rfl

/-- Publishers binding the same ids to `r` visit it equally often. -/
theorem StreamPublisher.bound_congr {sp sp' : StreamPublisher} {r : Nat}
    (h : ∀ k, sp'.subscribers.find? k = some r ↔ sp.subscribers.find? k = some r) :
    sp'.bound r = sp.bound r := by
  have hnd : ((sp.subscribers.entries.filter fun b => b.2 == r).map Prod.fst).Nodup :=
    ((List.filter_sublist _).map _).nodup (GoMap.nodup_keys _)
  rw [bound_eq_length hnd fun k => mem_boundIds.symm, bound_eq_length hnd fun k => (h k).trans mem_boundIds.symm]

/-- A subscriber bound under one id only is visited once. -/
theorem StreamPublisher.bound_eq_one {sp : StreamPublisher} {k : GoString} {r : Nat}
    (hk : sp.subscribers.find? k = some r) (hu : ∀ k', sp.subscribers.find? k' = some r → k' = k) :
    sp.bound r = 1 :=
  bound_eq_length (List.nodup_singleton k) fun k' =>
    ⟨fun h => List.mem_singleton.2 (hu k' h), fun h => List.mem_singleton.1 h ▸ hk⟩

/-! ### Runs of the publisher -/

/-- What a `Subscribe` call passes: a subscriber its constructor makes for the call, or the one at
    a reference made before, which may be bound already. -/
inductive SubscriberArg
  | new (s : Subscriber)
  | ref (r : Nat)

/-- The calls on a publisher. -/
inductive PublisherCall
  | Subscribe (id : GoString) (arg : SubscriberArg)
  | Unsubscribe (id : GoString)
  | OnEvent (e : Event) (time now : Int) (achievement : Option GoString)

/-- The id a call subscribes or unsubscribes. -/
def PublisherCall.names : PublisherCall → Option GoString
  | .Subscribe id _ => some id
  | .Unsubscribe id => some id
  | .OnEvent .. => none

/-- The reference of a subscriber made before that a call binds. -/
def PublisherCall.binds : PublisherCall → Option Nat
  | .Subscribe _ (.ref r) => some r
  | _ => none

/-- The stream event a call publishes. -/
def PublisherCall.published : PublisherCall → List StreamEvent
  | .OnEvent e time _ achievement => [convertToStreamEvent e time achievement]
  | _ => []

/-- A call on the publisher and the metrics it points to. A reference no constructor has returned
    is no value of the program: a call passing one does nothing. -/
def StreamPublisher.call (sp : StreamPublisher) (cm : ComprehensiveMetrics) :
    PublisherCall → ComprehensiveMetrics × StreamPublisher
  | .Subscribe id (.new s) => (cm, (sp.alloc s).2.Subscribe id (sp.alloc s).1)
  | .Subscribe id (.ref r) => (cm, if r < sp.next then sp.Subscribe id r else sp)
  | .Unsubscribe id => (cm, sp.Unsubscribe id)
  | .OnEvent e time now achievement => sp.OnEvent cm e time now achievement

/-- A run of calls on the publisher and its metrics. -/
def StreamPublisher.run (sp : StreamPublisher) (cm : ComprehensiveMetrics) :
    List PublisherCall → ComprehensiveMetrics × StreamPublisher
  | [] => (cm, sp)
  | c :: cs => (sp.call cm c).2.run (sp.call cm c).1 cs

/-- The publisher's bindings refer to subscribers already made. -/
structure StreamPublisher.WF (sp : StreamPublisher) : Prop where
  lt_next : ∀ k r, sp.subscribers.find? k = some r → r < sp.next

theorem wf_NewStreamPublisher : NewStreamPublisher.WF :=
  ⟨fun _ _ h => (nomatch h)⟩

/-- A call makes no reference go stale. -/
theorem StreamPublisher.next_le_call (sp : StreamPublisher) (cm : ComprehensiveMetrics)
    (c : PublisherCall) : sp.next ≤ (sp.call cm c).2.next := by
  rcases c with ⟨id, s | r⟩ | id | _
  · exact Nat.le_succ _
  · simp only [StreamPublisher.call]; split_ifs <;> exact le_rfl
  · simp only [StreamPublisher.call, StreamPublisher.Unsubscribe]; split <;> exact le_rfl
  · exact le_rfl

/-- One call keeps the publisher well formed. -/
theorem StreamPublisher.WF.call {sp : StreamPublisher} (hw : sp.WF) (cm : ComprehensiveMetrics)
    (c : PublisherCall) : (sp.call cm c).2.WF := by
  rcases c with ⟨id, s | r'⟩ | id | _
  · refine ⟨fun k r h => ?_⟩
    simp only [StreamPublisher.call, StreamPublisher.alloc, StreamPublisher.Subscribe,
      GoMap.find?_insert] at h ⊢
    split_ifs at h
    · cases h; omega
    · exact Nat.lt_succ_of_lt (hw.lt_next k r h)
  · simp only [StreamPublisher.call]
    split_ifs with hr'
    · refine ⟨fun k r h => ?_⟩
      simp only [StreamPublisher.Subscribe, GoMap.find?_insert] at h ⊢
      split_ifs at h
      · cases h; exact hr'
      · exact hw.lt_next k r h
    · exact hw
  · simp only [StreamPublisher.call, StreamPublisher.Unsubscribe]
    split
    · refine ⟨fun k r h => ?_⟩
      simp only [GoMap.find?_erase] at h
      split_ifs at h
      exact hw.lt_next k r h
    · exact hw
  · exact ⟨hw.lt_next⟩

theorem StreamPublisher.WF.run {sp : StreamPublisher} (hw : sp.WF) (cm : ComprehensiveMetrics) :
    ∀ cs : List PublisherCall, (sp.run cm cs).2.WF
  | [] => hw
  | c :: cs => (hw.call cm c).run _ cs

/-- One call that names no id bound to the subscriber at `r` and binds none to it keeps the ids
    bound to it, and hands it the event the call publishes once for each of them. -/
theorem StreamPublisher.call_bound {sp : StreamPublisher} {r : Nat} (hr : r < sp.next)
    (cm : ComprehensiveMetrics) {c : PublisherCall}
    (hc : ∀ k, c.names = some k → sp.subscribers.find? k ≠ some r) (hb : c.binds ≠ some r) :
    (∀ k, (sp.call cm c).2.subscribers.find? k = some r ↔ sp.subscribers.find? k = some r) ∧
      (sp.call cm c).2.objects r =
        c.published.foldl (fun s e => (·.OnStreamEvent e)^[sp.bound r] s) (sp.objects r) := by
  rcases c with ⟨id, s | r'⟩ | id | ⟨e, time, now, achievement⟩
  · have hid := hc id rfl
    refine ⟨fun k => ?_, ?_⟩
    · simp only [StreamPublisher.call, StreamPublisher.alloc, StreamPublisher.Subscribe,
        GoMap.find?_insert]
      split_ifs with hk
      · subst hk; simp only [Option.some.injEq, hid, iff_false]; omega
      · rfl
    · simp [StreamPublisher.call, StreamPublisher.alloc, StreamPublisher.Subscribe,
        PublisherCall.published, Function.update_noteq hr.ne]
  · have hid := hc id rfl
    have hr' : r' ≠ r := fun h => hb (by rw [h]; rfl)
    refine ⟨fun k => ?_, ?_⟩
    · simp only [StreamPublisher.call]
      split_ifs
      · simp only [StreamPublisher.Subscribe, GoMap.find?_insert]
        split_ifs with hk
        · subst hk; simp [hid, hr']
        · rfl
      · rfl
    · simp only [StreamPublisher.call, PublisherCall.published, List.foldl_nil]
      split_ifs <;> rfl
  · have hid := hc id rfl
    simp only [StreamPublisher.call, StreamPublisher.Unsubscribe, PublisherCall.published,
      List.foldl_nil]
    split
    · rename_i r'' h''
      have hr'' : r ≠ r'' := fun h => hid (h ▸ h'')
      refine ⟨fun k => ?_, Function.update_noteq hr'' _ _⟩
      simp only [GoMap.find?_erase]
      split_ifs with hk
      · subst hk; simp [hid]
      · rfl
    · exact ⟨fun _ => Iff.rfl, rfl⟩
  · refine ⟨fun _ => Iff.rfl, ?_⟩
    simp only [StreamPublisher.call, StreamPublisher.OnEvent, StreamPublisher.PublishEvent,
      StreamPublisher.deliver, deliver_apply, PublisherCall.published]
    rfl

/-- A subscriber whose ids no call names, and under which none binds it again, keeps its ids over
    a run and receives every event the publisher publishes, in order, once for each of its ids. -/
theorem StreamPublisher.run_bound {sp : StreamPublisher} {r : Nat} (hr : r < sp.next)
    (cm : ComprehensiveMetrics) {cs : List PublisherCall}
    (hcs : ∀ c ∈ cs, (∀ k, c.names = some k → sp.subscribers.find? k ≠ some r) ∧ c.binds ≠ some r) :
    (∀ k, (sp.run cm cs).2.subscribers.find? k = some r ↔ sp.subscribers.find? k = some r) ∧
      (sp.run cm cs).2.objects r = (cs.flatMap PublisherCall.published).foldl
        (fun s e => (·.OnStreamEvent e)^[sp.bound r] s) (sp.objects r) := by
  induction cs generalizing sp cm with
  | nil => exact ⟨fun _ => Iff.rfl, rfl⟩
  | cons c cs ih =>
    obtain ⟨hc, hb⟩ := hcs c (List.mem_cons_self c cs)
    obtain ⟨hk, ho⟩ := sp.call_bound hr cm hc hb
    obtain ⟨ih₁, ih₂⟩ := ih (lt_of_lt_of_le hr (sp.next_le_call cm c)) (sp.call cm c).1 fun c' h' =>
      ⟨fun k hn h => (hcs c' (List.mem_cons_of_mem c h')).1 k hn ((hk k).1 h),
        (hcs c' (List.mem_cons_of_mem c h')).2⟩
    refine ⟨fun k => (ih₁ k).trans (hk k), ?_⟩
    rw [StreamPublisher.run, ih₂, ho, StreamPublisher.bound_congr hk, List.flatMap_cons,
      List.foldl_append]

/-- A subscriber bound under the id `k` and under no other receives every event the publisher
    publishes, once and in order, for as long as no call subscribes or unsubscribes `k` or binds the
    subscriber again. -/
theorem StreamPublisher.run_delivers {sp : StreamPublisher} (hw : sp.WF) {k : GoString} {r : Nat}
    (hk : sp.subscribers.find? k = some r) (hu : ∀ k', sp.subscribers.find? k' = some r → k' = k)
    (cm : ComprehensiveMetrics) {cs : List PublisherCall}
    (hcs : ∀ c ∈ cs, c.names ≠ some k ∧ c.binds ≠ some r) :
    (sp.run cm cs).2.subscribers.find? k = some r ∧
      (sp.run cm cs).2.objects r =
        (cs.flatMap PublisherCall.published).foldl Subscriber.OnStreamEvent (sp.objects r) := by
  obtain ⟨h₁, h₂⟩ := sp.run_bound (hw.lt_next k r hk) cm fun c hc =>
    ⟨fun k' hn h => (hcs c hc).1 (hu k' h ▸ hn), (hcs c hc).2⟩
  exact ⟨(h₁ k).2 hk, by rw [h₂, StreamPublisher.bound_eq_one hk hu]; rfl⟩

/-- An in-memory subscriber on `"a"` gets the event of a badge, while `"b"` subscribes. -/
theorem run_delivers_badge :
    let sp := (NewStreamPublisher.call (NewComprehensiveMetrics 0)
      (.Subscribe (lit "a") (.new (.inMemory NewInMemorySubscriber)))).2
    let cs := [PublisherCall.Subscribe (lit "b") (.new (.inMemory NewInMemorySubscriber)),
      .OnEvent (NewBadgeAwarded (lit "u") (lit "first")) 0 0 none]
    sp.subscribers.find? (lit "a") = some 0 ∧ (∀ k', sp.subscribers.find? k' = some 0 → k' = lit "a") ∧
      (∀ c ∈ cs, c.names ≠ some (lit "a") ∧ c.binds ≠ some 0) ∧
      (sp.run (NewComprehensiveMetrics 0) cs).2.subscribers.find? (lit "a") = some 0 ∧
      (sp.run (NewComprehensiveMetrics 0) cs).2.objects 0 =
        (cs.flatMap PublisherCall.published).foldl Subscriber.OnStreamEvent (sp.objects 0) := by
  intro sp cs
  have hu : ∀ k', sp.subscribers.find? k' = some 0 → k' = lit "a" := fun k' h => by
    simpa [sp, StreamPublisher.call, StreamPublisher.alloc, StreamPublisher.Subscribe,
      NewStreamPublisher] using h
  exact ⟨by decide, hu, by decide,
    StreamPublisher.run_delivers (wf_NewStreamPublisher.call _ _) (by decide) hu _ (by decide)⟩

/-- A subscriber bound under two ids and under no third receives every event the publisher
    publishes twice, for as long as no call subscribes or unsubscribes either id or binds the
    subscriber again. -/
theorem StreamPublisher.run_bound_twice {sp : StreamPublisher} (hw : sp.WF) {k₁ k₂ : GoString}
    {r : Nat} (h₁ : sp.subscribers.find? k₁ = some r) (h₂ : sp.subscribers.find? k₂ = some r)
    (hne : k₁ ≠ k₂) (hu : ∀ k, sp.subscribers.find? k = some r → k = k₁ ∨ k = k₂)
    (cm : ComprehensiveMetrics) {cs : List PublisherCall}
    (hcs : ∀ c ∈ cs, c.names ≠ some k₁ ∧ c.names ≠ some k₂ ∧ c.binds ≠ some r) :
    (sp.run cm cs).2.objects r = (cs.flatMap PublisherCall.published).foldl
      (fun s e => (s.OnStreamEvent e).OnStreamEvent e) (sp.objects r) := by
  have htwo : sp.bound r = 2 :=
    StreamPublisher.bound_eq_length (List.nodup_cons.2 ⟨by simpa using hne, List.nodup_singleton _⟩)
      fun k => by
      simp only [List.mem_cons, List.mem_singleton, List.not_mem_nil, or_false]
      exact ⟨hu k, fun h => h.elim (· ▸ h₁) (· ▸ h₂)⟩
  obtain ⟨-, h⟩ := sp.run_bound (hw.lt_next k₁ r h₁) cm fun c hc =>
    ⟨fun k hn hk => (hu k hk).elim (fun h => (hcs c hc).1 (h ▸ hn)) fun h => (hcs c hc).2.1 (h ▸ hn),
      (hcs c hc).2.2⟩
  rw [h, htwo]
  rfl

/-- An in-memory subscriber subscribed as `"a"` and then passed again as `"b"` records a badge
    event twice. -/
theorem run_bound_twice_badge :
    let sp := (NewStreamPublisher.run (NewComprehensiveMetrics 0)
      [.Subscribe (lit "a") (.new (.inMemory NewInMemorySubscriber)), .Subscribe (lit "b") (.ref 0)]).2
    let event := convertToStreamEvent (NewBadgeAwarded (lit "u") (lit "first")) 0 none
    let cs := [PublisherCall.OnEvent (NewBadgeAwarded (lit "u") (lit "first")) 0 0 none]
    sp.subscribers.find? (lit "a") = some 0 ∧ sp.subscribers.find? (lit "b") = some 0 ∧
      (∀ k, sp.subscribers.find? k = some 0 → k = lit "a" ∨ k = lit "b") ∧
      (∀ c ∈ cs, c.names ≠ some (lit "a") ∧ c.names ≠ some (lit "b") ∧ c.binds ≠ some 0) ∧
      (sp.run (NewComprehensiveMetrics 0) cs).2.objects 0 = .inMemory ⟨[event, event]⟩ := by
  intro sp event cs
  have hu : ∀ k, sp.subscribers.find? k = some 0 → k = lit "a" ∨ k = lit "b" := fun k h => by
    by_cases ha : k = lit "a"
    · exact .inl ha
    · refine .inr ?_
      simpa [sp, StreamPublisher.run, StreamPublisher.call, StreamPublisher.alloc,
        StreamPublisher.Subscribe, NewStreamPublisher, ha] using h
  refine ⟨by decide, by decide, hu, by decide, ?_⟩
  rw [StreamPublisher.run_bound_twice (wf_NewStreamPublisher.run _ _) (by decide) (by decide)
    (by decide) hu _ (by decide)]
  rfl

/-! ### The dashboard -/

/-- The last `n` elements of a list, all of them when it has fewer. -/
def lastN {α : Type} (n : Nat) (l : List α) : List α := l.drop (l.length - n)

/-- The dashboard keeps a window of the last `maxEvents` events. -/
theorem OnStreamEvent_lastN (m : Nat) (l : List StreamEvent) (event : StreamEvent) :
    (⟨lastN m l, m⟩ : DashboardManager).OnStreamEvent event = ⟨lastN m (l ++ [event]), m⟩ := by
  have happ : l.drop (l.length - m) ++ [event] = (l ++ [event]).drop (l.length - m) :=
    (List.drop_append_of_le_length (Nat.sub_le _ _)).symm
  simp only [DashboardManager.OnStreamEvent, happ, lastN, DashboardManager.mk.injEq, and_true,
    List.length_drop, List.length_append, List.length_singleton]
  split_ifs with h
  · rw [List.tail_drop]; congr 1; omega
  · congr 1; omega

theorem foldl_dashboard (m : Nat) (l es : List StreamEvent) :
    es.foldl Subscriber.OnStreamEvent (.dashboard ⟨lastN m l, m⟩) = .dashboard ⟨lastN m (l ++ es), m⟩ := by
  induction es generalizing l with
  | nil => rw [List.append_nil]; rfl
  | cons event es ih =>
    rw [List.foldl_cons, Subscriber.OnStreamEvent, OnStreamEvent_lastN, ih, List.append_assoc,
      List.singleton_append]

/-- The dashboard, once made, holds the last `maxEvents` events the publisher published, for as
    long as no call subscribes or unsubscribes the id `"dashboard"` or binds the dashboard again. -/
theorem dashboard_recent {sp sp' : StreamPublisher} (hw : sp.WF) {maxEvents : Int} {r : Nat}
    (h : NewDashboardManager sp maxEvents = .ok (r, sp')) (cm : ComprehensiveMetrics)
    {cs : List PublisherCall}
    (hcs : ∀ c ∈ cs, c.names ≠ some (lit "dashboard") ∧ c.binds ≠ some r) :
    (sp'.run cm cs).2.objects r =
      .dashboard ⟨lastN maxEvents.toNat (cs.flatMap PublisherCall.published), maxEvents⟩ := by
  unfold NewDashboardManager at h
  split_ifs at h with hm
  have e := Except.ok.inj h
  have hr : r = sp.next := (congrArg Prod.fst e).symm
  have hs : sp' = (sp.call cm (.Subscribe (lit "dashboard") (.new (.dashboard ⟨[], maxEvents⟩)))).2 :=
    (congrArg Prod.snd e).symm
  subst hr
  have hw' := hw.call cm (.Subscribe (lit "dashboard") (.new (.dashboard ⟨[], maxEvents⟩)))
  rw [← hs] at hw'
  have hk : sp'.subscribers.find? (lit "dashboard") = some sp.next := by
    simp [hs, StreamPublisher.call, StreamPublisher.alloc, StreamPublisher.Subscribe]
  have hu : ∀ k, sp'.subscribers.find? k = some sp.next → k = lit "dashboard" := fun k hk' => by
    simp only [hs, StreamPublisher.call, StreamPublisher.alloc, StreamPublisher.Subscribe,
      GoMap.find?_insert] at hk'
    split_ifs at hk' with hd
    · exact hd
    · exact absurd (hw.lt_next k _ hk') (lt_irrefl _)
  obtain ⟨-, ho⟩ := sp'.run_bound (hw'.lt_next _ _ hk) cm fun c hc =>
    ⟨fun k hn hk' => (hcs c hc).1 (hu k hk' ▸ hn), (hcs c hc).2⟩
  have hmax := Int.toNat_of_nonneg (not_lt.1 (not_or.1 hm).1)
  have h₀ : sp'.objects sp.next = .dashboard ⟨lastN maxEvents.toNat [], (maxEvents.toNat : Int)⟩ := by
    simp [hs, StreamPublisher.call, StreamPublisher.alloc, StreamPublisher.Subscribe, lastN, hmax]
  rw [ho, StreamPublisher.bound_eq_one hk hu, h₀]
  exact (foldl_dashboard _ [] _).trans (by rw [List.nil_append, hmax])

/-! ### The WebSocket subscriber -/

/-- The calls on a `WebSocketSubscriber`: an event from the publisher, a read by the
    connection's writer, the context of a blocked read done, a close. -/
inductive WSCall
  | OnStreamEvent (event : StreamEvent)
  | ReadEvent (ctxErr : Option GoString)
  | CtxDone
  | Close

/-- The event a call offers the subscriber. -/
def WSCall.offered : WSCall → List StreamEvent
  | .OnStreamEvent event => [event]
  | _ => []

/-- A call: the subscriber after it, and the event a read returned. A read with no case ready
    blocks until an event is handed to it, the subscriber is closed or its context is done, when
    it returns `ctx.Err()`. -/
def WebSocketSubscriber.call (ws : WebSocketSubscriber) : WSCall → WebSocketSubscriber × List StreamEvent
  | .OnStreamEvent event => ws.OnStreamEvent event
  | .ReadEvent ctxErr =>
    match ws.ReadEvent ctxErr with
    | some (.ok event, ws') => (ws', [event])
    | some (.error _, ws') => (ws', [])
    | none => ({ ws with waiting := ws.waiting + 1 }, [])
  | .CtxDone => ({ ws with waiting := ws.waiting - 1 }, [])
  | .Close => (ws.Close, [])

/-- A run of calls: the subscriber after them and the events read, in order. -/
def WebSocketSubscriber.run (ws : WebSocketSubscriber) : List WSCall → WebSocketSubscriber × List StreamEvent
  | [] => (ws, [])
  | c :: cs =>
    let (ws', got) := ws.call c
    let (ws'', rest) := ws'.run cs
    (ws'', got ++ rest)

/-- A read returns the head of the buffer and keeps the rest, or an error and keeps the buffer. -/
theorem ReadEvent_cases {ws ws' : WebSocketSubscriber} {ctxErr : Option GoString}
    {res : Except GoString StreamEvent} (h : ws.ReadEvent ctxErr = some (res, ws')) :
    ws'.bufferSize = ws.bufferSize ∧
      ((∃ event, res = .ok event ∧ ws.queue = event :: ws'.queue) ∨
        (∃ err, res = .error err ∧ ws'.queue = ws.queue)) := by
  unfold WebSocketSubscriber.ReadEvent at h
  obtain ⟨⟨res₀, q⟩, hmem, hr⟩ := Option.map_eq_some'.1 h
  cases hr
  refine ⟨rfl, ?_⟩
  dsimp only
  have hmem := List.getElem?_mem hmem
  simp only [List.mem_append] at hmem
  rcases hmem with (hq | hc) | hx
  · split at hq
    · rename_i event rest heq
      simp only [List.mem_singleton, Prod.mk.injEq] at hq
      exact .inl ⟨event, hq.1, by rw [heq, hq.2]⟩
    · simp at hq
  · split_ifs at hc
    · simp only [List.mem_singleton, Prod.mk.injEq] at hc
      exact .inr ⟨_, hc.1, hc.2⟩
    · simp at hc
  · split at hx
    · simp only [List.mem_singleton, Prod.mk.injEq] at hx
      exact .inr ⟨_, hx.1, hx.2⟩
    · simp at hx

/-- One call: what it reads, then the buffer, is a sublist of the buffer before and what it
    offers; the buffer stays within its capacity. -/
theorem WebSocketSubscriber.call_sublist (ws : WebSocketSubscriber) (c : WSCall) :
    ((ws.call c).2 ++ (ws.call c).1.queue).Sublist (ws.queue ++ c.offered) ∧
      (ws.call c).1.bufferSize = ws.bufferSize ∧
      (ws.queue.length ≤ ws.bufferSize → (ws.call c).1.queue.length ≤ ws.bufferSize) := by
  cases c with
  | OnStreamEvent event =>
    simp only [WebSocketSubscriber.call, WebSocketSubscriber.OnStreamEvent, WSCall.offered]
    split_ifs with h₁ h₂
    · have hq : ws.queue = [] := List.isEmpty_iff.1 (Bool.and_eq_true_iff.1 (Bool.and_eq_true_iff.1 h₁).2).2
      exact ⟨by rw [hq]; rfl, rfl, id⟩
    · refine ⟨List.Sublist.refl _, rfl, fun _ => ?_⟩
      have hl := (Bool.or_eq_true_iff.1 (Bool.and_eq_true_iff.1 h₂).1).resolve_left ?_
      · simp only [decide_eq_true_eq] at hl
        simp only [List.length_append, List.length_singleton]
        omega
      · exact fun h => h₁ (by rw [h₂, h]; rfl)
    · exact ⟨List.sublist_append_left _ _, rfl, id⟩
  | ReadEvent ctxErr =>
    simp only [WebSocketSubscriber.call, WSCall.offered, List.append_nil]
    split
    · rename_i event ws' h
      obtain ⟨hb, ⟨e, he, hq⟩ | ⟨_, he, _⟩⟩ := ReadEvent_cases h
      · cases he
        refine ⟨by rw [hq]; rfl, hb, fun hl => ?_⟩
        rw [hq, List.length_cons] at hl
        dsimp only
        omega
      · cases he
    · rename_i err ws' h
      obtain ⟨hb, ⟨_, he, _⟩ | ⟨_, _, hq⟩⟩ := ReadEvent_cases h
      · cases he
      · exact ⟨by rw [hq]; rfl, hb, fun hl => by dsimp only; rw [hq]; exact hl⟩
    · exact ⟨List.Sublist.refl _, rfl, id⟩
  | CtxDone => exact ⟨by simp [WebSocketSubscriber.call, WSCall.offered], rfl, id⟩
  | Close =>
    exact ⟨by simp [WebSocketSubscriber.call, WebSocketSubscriber.Close, WSCall.offered], rfl, id⟩

/-- Whatever the choices of its `select`s and however reads, events and closes interleave, the
    events a WebSocket subscriber's reader gets, followed by those still buffered, are a sublist of
    the buffer to start with and the events offered: each is read at most once, in the order
    offered; and the buffer never holds more than its capacity. -/
theorem WebSocketSubscriber.run_sublist (ws : WebSocketSubscriber) (cs : List WSCall)
    (hl : ws.queue.length ≤ ws.bufferSize) :
    ((ws.run cs).2 ++ (ws.run cs).1.queue).Sublist (ws.queue ++ cs.flatMap WSCall.offered) ∧
      (ws.run cs).1.queue.length ≤ ws.bufferSize := by
  induction cs generalizing ws with
  | nil => exact ⟨by simp [WebSocketSubscriber.run], hl⟩
  | cons c cs ih =>
    obtain ⟨hs, hb, hq⟩ := ws.call_sublist c
    obtain ⟨ih₁, ih₂⟩ := ih (ws.call c).1 (hb ▸ hq hl)
    refine ⟨?_, hb ▸ ih₂⟩
    have h₂ := hs.append_right (cs.flatMap WSCall.offered)
    rw [List.append_assoc] at h₂
    rw [WebSocketSubscriber.run, List.flatMap_cons, List.append_assoc, ← List.append_assoc ws.queue]
    exact (ih₁.append_left _).trans h₂

/-- A subscriber with room for two events, offered one and read once. -/
theorem run_sublist_two :
    let ws : WebSocketSubscriber := ⟨[], 2, 0, false, fun _ => 0, 0⟩
    let cs := [WSCall.OnStreamEvent (convertToStreamEvent (NewBadgeAwarded (lit "u") (lit "first")) 0 none),
      .ReadEvent none]
    ws.queue.length ≤ ws.bufferSize ∧
      ((ws.run cs).2 ++ (ws.run cs).1.queue).Sublist (ws.queue ++ cs.flatMap WSCall.offered) ∧
      (ws.run cs).1.queue.length ≤ ws.bufferSize :=
  ⟨by decide, WebSocketSubscriber.run_sublist _ _ (by decide)⟩

end GamifyKit.Analytics
