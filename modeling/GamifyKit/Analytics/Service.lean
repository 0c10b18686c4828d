import GamifyKit.Analytics.Engagement
import GamifyKit.Analytics.Streaming
import GamifyKit.Analytics.Export

/-! `analytics/integration.go`: the `AnalyticsService`, which wires one `ComprehensiveMetrics`
    into an aggregation engine, a stream publisher with its dashboard, and an export manager.

    The metrics are shared: the aggregator, the publisher and the dashboard hold the same
    pointer. Here they are the aggregator's `metrics`, which the publisher's `OnEvent` (the hook
    `GetHook` returns) updates and `ForceAggregation` reads; the dashboard is the reference of the
    `DashboardManager` in the publisher's heap. A tick of `startPeriodicExport` hands the daily
    aggregations to the export manager; the tickers of `Start` are the calls themselves.

    Over every run of the service, the metrics are those of the hook's events in order
    (`service_run`), so an aggregation forced at `now` stores for today the distinct users, the
    points and the badges of the events dated today (`ForceAggregation_today`); the dashboard
    holds the last 100 of the events, for as long as no caller subscribes or unsubscribes the id
    `"dashboard"`. A configured HTTP exporter keeps the batch size of its configuration
    (`configExporters_http`): the default of 10 is written to the loop's copy of the configuration
    after the exporter is made. -/

namespace GamifyKit.Analytics
open GamifyKit.Go GamifyKit.Core

/-- `AnalyticsService`: its aggregator, whose metrics are the service's, the publisher, the
    dashboard's reference in the publisher's heap, and the export manager. -/
structure AnalyticsService where
  aggregator : AggregationEngine
  publisher : StreamPublisher
  dashboard : Nat
  exporter : ExportManager

/-- The service made with `metrics`, a dashboard of `maxEvents` events and the exporters. -/
def newService (now maxEvents : Int) (exporters : List Exporter) : Except String AnalyticsService :=
  match NewDashboardManager NewStreamPublisher maxEvents with
  | .ok (dashboard, publisher) =>
    .ok ⟨NewAggregationEngine (NewComprehensiveMetrics now) now, publisher, dashboard, ⟨exporters⟩⟩
  | .error err => .error err

/-- `NewAnalyticsService()` at wall-clock time `now`: a dashboard of 100 events, and a console
    exporter. -/
def NewAnalyticsService (now : Int) : Except String AnalyticsService :=
  newService now 100 [.Console (lit "[ANALYTICS]")]

/-- `CreateAnalyticsServiceForTesting()`: a dashboard of 10 events. -/
def CreateAnalyticsServiceForTesting (now : Int) : Except String AnalyticsService :=
  newService now 10 [.Console (lit "[TEST]")]

/-- `ExporterConfig`, with, in place of its `Endpoint`, the error `http.NewRequestWithContext`
    gives on it; `Properties` is read by no function. -/
structure ExporterConfig where
  type : GoString
  requestErr : Option GoString
  apiKey : GoString
  batchSize : Int

/-- `AnalyticsConfig`, without the intervals and the streaming switch, which only the tickers
    read or nothing reads. -/
structure AnalyticsConfig where
  maxRecentEvents : Int
  exporters : List ExporterConfig

/-- The exporters `NewAnalyticsServiceWithConfig` adds for the configurations, in order. The
    `BatchSize` default it writes to `expConfig` comes after the exporter is made. -/
def configExporters : List ExporterConfig → Except String (List Exporter)
  | [] => .ok []
  | ec :: ecs =>
    if ec.type = lit "http" then
      match NewHTTPExporter ec.requestErr ec.batchSize, configExporters ecs with
      | .ok e, .ok xs => .ok (.HTTP e :: xs)
      | .error err, _ => .error err
      | _, .error err => .error err
    else if ec.type = lit "segment" ∧ ec.apiKey ≠ [] then
      (configExporters ecs).map (.Segment ec.apiKey :: ·)
    else configExporters ecs

/-- `NewAnalyticsServiceWithConfig(config)` at wall-clock time `now`. The source makes the
    dashboard before the exporters; both fail with the same panic, so the order is not seen. -/
def NewAnalyticsServiceWithConfig (config : AnalyticsConfig) (now : Int) :
    Except String AnalyticsService :=
  match configExporters config.exporters with
  | .ok xs => newService now config.maxRecentEvents (.Console (lit "[ANALYTICS]") :: xs)
  | .error err => .error err

/-- `ForceAggregation()` at wall-clock time `now`, which returns `nil`. -/
def AnalyticsService.ForceAggregation (svc : AnalyticsService) (now : Int) : AnalyticsService :=
  { svc with aggregator := svc.aggregator.AggregateNow now }

/-- The dashboard's `recentEvents`. -/
def AnalyticsService.recentEvents (svc : AnalyticsService) : List StreamEvent :=
  match svc.publisher.objects svc.dashboard with
  | .dashboard dm => dm.recentEvents
  | _ => []

/-- `DashboardData`, but for its `timestamp`, which is the wall clock. -/
structure DashboardData where
  realtimeStats : RealtimeStats
  topMetrics : TopMetrics
  recentEvents : List StreamEvent

/-- `GetDashboardData()`, `GetTopMetrics` reading the metrics' points in the order `order`. -/
def AnalyticsService.GetDashboardData (svc : AnalyticsService) (order : List Entry) :
    Except String DashboardData :=
  (svc.aggregator.metrics.GetTopMetrics order 10).map fun top =>
    ⟨svc.publisher.GetRealtimeStats svc.aggregator.metrics, top, svc.recentEvents⟩

/-! ### Runs -/

/-- The calls on the service. -/
inductive ServiceCall
  /-- `GetHook().OnEvent(e)` for an event made at `time` with `achievement` metadata. -/
  | OnEvent (e : Event) (time now : Int) (achievement : Option GoString)
  | ForceAggregation (now : Int)
  | SubscribeToRealtime (id : GoString) (s : Subscriber)
  | UnsubscribeFromRealtime (id : GoString)
  /-- A tick of `startPeriodicExport`, the network answering as `net`. -/
  | ExportTick (net : Nat → Nat → Nat → Reply)

/-- A call on the service. -/
def AnalyticsService.call (svc : AnalyticsService) : ServiceCall → AnalyticsService
  | .OnEvent e time now achievement =>
    let r := svc.publisher.OnEvent svc.aggregator.metrics e time now achievement
    { svc with aggregator := { svc.aggregator with metrics := r.1 }, publisher := r.2 }
  | .ForceAggregation now => svc.ForceAggregation now
  | .SubscribeToRealtime id s =>
    let made := svc.publisher.alloc s
    { svc with publisher := made.2.Subscribe id made.1 }
  | .UnsubscribeFromRealtime id => { svc with publisher := svc.publisher.Unsubscribe id }
  | .ExportTick net =>
    { svc with exporter :=
        (svc.exporter.ExportData (svc.aggregator.GetAllAggregatedData PeriodDaily) net).2 }

/-- A run of calls on the service. -/
def AnalyticsService.run (svc : AnalyticsService) (cs : List ServiceCall) : AnalyticsService :=
  cs.foldl AnalyticsService.call svc

/-- The call of the hook a service call makes. -/
def ServiceCall.hookCalls : ServiceCall → List Call
  | .OnEvent e time now _ => [⟨e, time, now⟩]
  | _ => []

/-- The call on the publisher a service call makes. -/
def ServiceCall.publisherCalls : ServiceCall → List PublisherCall
  | .OnEvent e time now achievement => [.OnEvent e time now achievement]
  | .SubscribeToRealtime id s => [.Subscribe id (.new s)]
  | .UnsubscribeFromRealtime id => [.Unsubscribe id]
  | _ => []

/-- The subscribers a caller passes the service are made for the call. -/
theorem ServiceCall.binds_publisherCalls : ∀ (c : ServiceCall), ∀ pc ∈ c.publisherCalls, pc.binds = none
  | .OnEvent .., _, h | .SubscribeToRealtime .., _, h | .UnsubscribeFromRealtime _, _, h => by
    rw [List.mem_singleton.1 h]; rfl
  | .ForceAggregation _, _, h | .ExportTick _, _, h => nomatch h

/-- A call's effect on the metrics and the publisher is that of its calls on them. -/
theorem call_publisher (svc : AnalyticsService) (c : ServiceCall) :
    ((svc.call c).aggregator.metrics, (svc.call c).publisher) =
      svc.publisher.run svc.aggregator.metrics c.publisherCalls ∧
      (svc.call c).dashboard = svc.dashboard ∧
      ((svc.call c).aggregator.metrics =
        (c.hookCalls.foldl (fun cm c => cm.OnEvent c.event c.time c.clock) svc.aggregator.metrics)) := by
  cases c <;> exact ⟨rfl, rfl, rfl⟩

theorem StreamPublisher.run_append (sp : StreamPublisher) (cm : ComprehensiveMetrics)
    (l₁ l₂ : List PublisherCall) :
    sp.run cm (l₁ ++ l₂) = (sp.run cm l₁).2.run (sp.run cm l₁).1 l₂ := by
  induction l₁ generalizing sp cm with
  | nil => rfl
  | cons c l₁ ih => exact ih _ _

/-- A run of the service is a run of its publisher and of the hook, the dashboard staying where
    it was made. -/
theorem run_parts (svc : AnalyticsService) (cs : List ServiceCall) :
    ((svc.run cs).aggregator.metrics, (svc.run cs).publisher) =
        svc.publisher.run svc.aggregator.metrics (cs.flatMap ServiceCall.publisherCalls) ∧
      (svc.run cs).dashboard = svc.dashboard ∧
      (svc.run cs).aggregator.metrics =
        (cs.flatMap ServiceCall.hookCalls).foldl (fun cm c => cm.OnEvent c.event c.time c.clock)
          svc.aggregator.metrics := by
  induction cs generalizing svc with
  | nil => exact ⟨rfl, rfl, rfl⟩
  | cons c cs ih =>
    obtain ⟨h₁, h₂, h₃⟩ := call_publisher svc c
    obtain ⟨ih₁, ih₂, ih₃⟩ := ih (svc.call c)
    refine ⟨?_, ih₂.trans h₂, ?_⟩
    · rw [AnalyticsService.run, List.foldl_cons, ← AnalyticsService.run, ih₁, List.flatMap_cons,
        StreamPublisher.run_append, ← h₁]
    · rw [AnalyticsService.run, List.foldl_cons, ← AnalyticsService.run, ih₃, h₃, List.flatMap_cons,
        List.foldl_append]

/-- A new service holds new metrics, and its dashboard, made empty with room for `maxEvents`
    events, is subscribed to its publisher. -/
theorem newService_ok {now maxEvents : Int} {xs : List Exporter} {svc : AnalyticsService}
    (h : newService now maxEvents xs = .ok svc) :
    svc.aggregator.metrics = NewComprehensiveMetrics now ∧
      NewDashboardManager NewStreamPublisher maxEvents = .ok (svc.dashboard, svc.publisher) ∧
      svc.exporter.exporters = xs := by
  unfold newService at h
  split at h
  · rename_i r hr
    cases h
    exact ⟨rfl, hr, rfl⟩
  · cases h

/-- Over every run of a new service, its metrics are those of the hook's events in order; and as
    long as no caller subscribes or unsubscribes the id `"dashboard"`, the dashboard holds the last
    100 events the publisher published. -/
theorem service_run {now₀ : Int} {svc : AnalyticsService} (h : NewAnalyticsService now₀ = .ok svc)
    {cs : List ServiceCall}
    (hcs : ∀ c ∈ cs, ∀ pc ∈ c.publisherCalls, pc.names ≠ some (lit "dashboard")) :
    (svc.run cs).aggregator.metrics = run now₀ (cs.flatMap ServiceCall.hookCalls) ∧
      (svc.run cs).recentEvents =
        lastN 100 ((cs.flatMap ServiceCall.publisherCalls).flatMap PublisherCall.published) := by
  obtain ⟨hm, hd, -⟩ := newService_ok h
  obtain ⟨h₁, h₂, h₃⟩ := run_parts svc cs
  refine ⟨by rw [h₃, hm]; rfl, ?_⟩
  have hpub : (svc.run cs).publisher =
      (svc.publisher.run svc.aggregator.metrics (cs.flatMap ServiceCall.publisherCalls)).2 := by
    rw [← h₁]
  have hd' := @dashboard_recent _ _ wf_NewStreamPublisher _ _ hd svc.aggregator.metrics
    (cs.flatMap ServiceCall.publisherCalls) fun pc hpc => by
      obtain ⟨c, hc, hpc⟩ := List.mem_flatMap.1 hpc
      exact ⟨hcs c hc pc hpc, by rw [c.binds_publisherCalls pc hpc]; exact Option.noConfusion⟩
  rw [AnalyticsService.recentEvents, hpub, h₂, hd']
  rfl

/-- A new service after one badge and a forced aggregation. -/
theorem service_run_badge :
    let svc : AnalyticsService := ⟨NewAggregationEngine (NewComprehensiveMetrics 0) 0,
      (NewStreamPublisher.alloc (.dashboard ⟨[], 100⟩)).2.Subscribe (lit "dashboard") 0, 0,
      ⟨[.Console (lit "[ANALYTICS]")]⟩⟩
    let cs := [ServiceCall.OnEvent (NewBadgeAwarded (lit "u") (lit "first")) 0 0 none,
      .ForceAggregation 0]
    NewAnalyticsService 0 = .ok svc ∧
      (∀ c ∈ cs, ∀ pc ∈ c.publisherCalls, pc.names ≠ some (lit "dashboard")) ∧
      (svc.run cs).aggregator.metrics = run 0 (cs.flatMap ServiceCall.hookCalls) ∧
      (svc.run cs).recentEvents =
        lastN 100 ((cs.flatMap ServiceCall.publisherCalls).flatMap PublisherCall.published) :=
  ⟨rfl, by decide, service_run rfl (by decide)⟩

/-- Over every run of a new service, an aggregation forced at `now` stores under today's key the
    distinct users with an event dated today, the `int64` sum of the points the day's events
    awarded, and the number of badges awarded that day. -/
theorem ForceAggregation_today {now₀ : Int} {svc : AnalyticsService}
    (h : NewAnalyticsService now₀ = .ok svc) (cs : List ServiceCall) (now : Int) :
    ((svc.run cs).ForceAggregation now).aggregator.GetAggregatedData PeriodDaily (getDayKey now) =
      some ⟨PeriodDaily, getDayKey now, dayOf now * 86400, dayOf now * 86400 + 86400,
        users (fun c => getDayKey c.time = getDayKey now) (cs.flatMap ServiceCall.hookCalls),
        wrap64 (awarded (fun c => getDayKey c.time = getDayKey now) (cs.flatMap ServiceCall.hookCalls)),
        wrap64 ((cs.flatMap ServiceCall.hookCalls).countP fun c =>
          c.event.type = EventBadgeAwarded ∧ getDayKey c.time = getDayKey now),
        now⟩ := by
  have hm : (svc.run cs).aggregator.metrics = run now₀ (cs.flatMap ServiceCall.hookCalls) := by
    rw [(run_parts svc cs).2.2, (newService_ok h).1]; rfl
  rw [AnalyticsService.ForceAggregation, (GetAggregatedData_AggregateNow _ now).1, hm,
    GetDailyActiveUsers_run, (points_counters _ _ _ []).1, GetBadgesAwardedByDay_run]

/-- Today's aggregate of a new service after one badge. -/
theorem ForceAggregation_today_badge :
    let svc : AnalyticsService := ⟨NewAggregationEngine (NewComprehensiveMetrics 0) 0,
      (NewStreamPublisher.alloc (.dashboard ⟨[], 100⟩)).2.Subscribe (lit "dashboard") 0, 0,
      ⟨[.Console (lit "[ANALYTICS]")]⟩⟩
    let cs := [ServiceCall.OnEvent (NewBadgeAwarded (lit "u") (lit "first")) 0 0 none]
    NewAnalyticsService 0 = .ok svc ∧
      ((svc.run cs).ForceAggregation 0).aggregator.GetAggregatedData PeriodDaily (getDayKey 0) =
        some ⟨PeriodDaily, getDayKey 0, dayOf 0 * 86400, dayOf 0 * 86400 + 86400,
          users (fun c => getDayKey c.time = getDayKey 0) (cs.flatMap ServiceCall.hookCalls),
          wrap64 (awarded (fun c => getDayKey c.time = getDayKey 0) (cs.flatMap ServiceCall.hookCalls)),
          wrap64 ((cs.flatMap ServiceCall.hookCalls).countP fun c =>
            c.event.type = EventBadgeAwarded ∧ getDayKey c.time = getDayKey 0),
          0⟩ :=
  ⟨rfl, ForceAggregation_today rfl _ 0⟩

/-- Each HTTP exporter `NewAnalyticsServiceWithConfig` makes is empty, with the batch size and
    endpoint of its configuration. -/
theorem configExporters_http : ∀ {ecs : List ExporterConfig} {xs : List Exporter},
    configExporters ecs = .ok xs → ∀ {e : HTTPExporter}, .HTTP e ∈ xs →
      ∃ ec ∈ ecs, e = ⟨[], ec.batchSize, ec.requestErr⟩
  | [], xs, h, e, he => by cases h; cases he
  | ec :: ecs, xs, h, e, he => by
    have tail : ∀ {xs'}, configExporters ecs = .ok xs' → .HTTP e ∈ xs' →
        ∃ ec' ∈ ec :: ecs, e = ⟨[], ec'.batchSize, ec'.requestErr⟩ := fun hr he' =>
      let ⟨ec', hec', he''⟩ := configExporters_http hr he'
      ⟨ec', List.mem_cons_of_mem _ hec', he''⟩
    unfold configExporters NewHTTPExporter at h
    rcases hr : configExporters ecs with err | xs' <;> simp only [hr] at h
    · split_ifs at h; simp [Except.map] at h
    · split_ifs at h <;> simp only [Except.map, Except.ok.injEq, reduceCtorEq] at h <;> subst h
      · rcases List.mem_cons.1 he with he | he
        · cases he; exact ⟨ec, List.mem_cons_self _ _, rfl⟩
        · exact tail hr he
      · exact tail hr ((List.mem_cons.1 he).resolve_left nofun)
      · exact tail hr he

end GamifyKit.Analytics
