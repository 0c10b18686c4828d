import GamifyKit.Analytics.Aggregation

/-! The `HTTPExporter` of package `analytics`: it buffers the aggregations it is given and POSTs
    the whole buffer as one JSON array once it holds `batchSize` of them, or on `Flush`. A POST
    that fails keeps the buffer for the next one; one the endpoint accepts empties it.

    The network is an argument: a `Reply` says how a request sent ended (a client error, or the
    endpoint's status and body). An endpoint that does not parse fails every request, with the
    error the exporter keeps. `json.Marshal` of the buffer fails exactly when one of its times has
    a year outside `[0,9999]`, which RFC 3339 cannot write.

    What the endpoint has accepted, followed by the buffer, is always the data exported, in
    order, whatever the replies (`run_conserves`): nothing is lost and nothing is sent twice. An
    item JSON cannot encode stays in the buffer for good, and nothing is delivered after it
    (`run_of_unmarshalable`). When every POST succeeds, each payload holds exactly `batchSize`
    items, or one when the batch size is below one (`run_batches`). -/

namespace GamifyKit.Analytics
open GamifyKit.Go

/-- How a request sent ends: the client's `Do` fails, or the endpoint answers with a status and
    a body. -/
inductive Reply
  | sendFailed (err : GoString)
  | status (code : Int) (body : GoString)
  deriving DecidableEq

/-- `t.Year()` of an instant. -/
def yearOf (t : Int) : Int := (civil (dayOf t)).1

/-- `Time.MarshalJSON` succeeds: RFC 3339 writes four-digit years only. -/
def timeMarshals (t : Int) : Bool := 0 ≤ yearOf t && yearOf t ≤ 9999

/-- `json.Marshal` of an `AggregatedData` succeeds: each of its times encodes. -/
def AggregatedData.marshals (d : AggregatedData) : Bool :=
  timeMarshals d.startTime && timeMarshals d.endTime && timeMarshals d.createdAt

/-- The error of `json.Marshal` on a time it cannot encode. -/
def marshalTimeError : GoString :=
  lit "json: error calling MarshalJSON for type time.Time: Time.MarshalJSON: year outside of range [0,9999]"

/-- `HTTPExporter`: its buffer and batch size, and of its endpoint the error
    `http.NewRequestWithContext` gives on it, if it does not parse; the API key and the client
    only shape the request. -/
structure HTTPExporter where
  buffer : List AggregatedData
  batchSize : Int
  requestErr : Option GoString
  deriving DecidableEq

/-- `NewHTTPExporter(endpoint, apiKey, batchSize)`, `requestErr` being the error of the endpoint:
    `make([]*AggregatedData, 0, batchSize)` panics on a negative capacity or one past
    `maxAlloc`. -/
def NewHTTPExporter (requestErr : Option GoString) (batchSize : Int) : Except String HTTPExporter :=
  if batchSize < 0 ∨ maxAlloc < 8 * batchSize then .error "makeslice: cap out of range"
  else .ok ⟨[], batchSize, requestErr⟩

/-- The error of the POST of a nonempty buffer `payload`, `none` when the endpoint accepts it. -/
def postError (requestErr : Option GoString) (payload : List AggregatedData) (reply : Reply) :
    Option GoString :=
  if payload.all AggregatedData.marshals then
    match requestErr, reply with
    | some err, _ => some (lit "failed to create request: " ++ err)
    | none, .sendFailed err => some (lit "failed to send analytics data: " ++ err)
    | none, .status code body =>
      if 400 ≤ code then
        some (lit "analytics export failed with status " ++ appendInt code 0 ++ lit ": " ++ body)
      else none
  else some (lit "failed to marshal analytics data: " ++ marshalTimeError)

/-- `Flush(ctx)` with the reply to its request: the error it returns and the exporter after it. -/
def HTTPExporter.Flush (e : HTTPExporter) (reply : Reply) : Option GoString × HTTPExporter :=
  if e.buffer = [] then (none, e)
  else match postError e.requestErr e.buffer reply with
    | none => (none, { e with buffer := [] })
    | some err => (some err, e)

/-- `Export(ctx, data)` with the reply to the request it may make. -/
def HTTPExporter.Export (e : HTTPExporter) (data : AggregatedData) (reply : Reply) :
    Option GoString × HTTPExporter :=
  let e' := { e with buffer := e.buffer ++ [data] }
  if e'.batchSize ≤ e'.buffer.length then e'.Flush reply else (none, e')

/-! ### Runs -/

/-- What the endpoint takes in from `e.Flush reply`: the buffer, when its POST succeeds. -/
def HTTPExporter.sent (e : HTTPExporter) (reply : Reply) : List AggregatedData :=
  if postError e.requestErr e.buffer reply = none then e.buffer else []

/-- A call on the exporter, with the reply to the request it may make. -/
inductive ExportCall
  | Export (data : AggregatedData) (reply : Reply)
  | Flush (reply : Reply)

/-- The data a call hands to the exporter. -/
def ExportCall.data : ExportCall → List AggregatedData
  | .Export d _ => [d]
  | .Flush _ => []

/-- A call: its error, the exporter after it, and what the endpoint took in. -/
def HTTPExporter.call (e : HTTPExporter) : ExportCall → Option GoString × HTTPExporter × List AggregatedData
  | .Export d r =>
    let e' := { e with buffer := e.buffer ++ [d] }
    ((e.Export d r).1, (e.Export d r).2, if e'.batchSize ≤ e'.buffer.length then e'.sent r else [])
  | .Flush r => ((e.Flush r).1, (e.Flush r).2, e.sent r)

/-- A run of calls: the exporter after them and what the endpoint took in, call by call. -/
def HTTPExporter.run (e : HTTPExporter) : List ExportCall → HTTPExporter × List (List AggregatedData)
  | [] => (e, [])
  | c :: cs =>
    let (_, e', sent) := e.call c
    let (e'', log) := e'.run cs
    (e'', sent :: log)

/-- A POST the endpoint accepts hands the whole buffer over and empties it. -/
theorem Flush_of_accepted {e : HTTPExporter} {r : Reply} (h : postError e.requestErr e.buffer r = none) :
    e.sent r = e.buffer ∧ (e.Flush r).2 = { e with buffer := [] } := by
  unfold HTTPExporter.sent HTTPExporter.Flush
  by_cases hb : e.buffer = []
  · cases e; simp_all
  · simp [hb, h]

/-- A POST that fails hands nothing over and keeps the exporter as it is. -/
theorem Flush_of_rejected {e : HTTPExporter} {r : Reply} {err : GoString}
    (h : postError e.requestErr e.buffer r = some err) : e.sent r = [] ∧ (e.Flush r).2 = e := by
  unfold HTTPExporter.sent HTTPExporter.Flush
  by_cases hb : e.buffer = [] <;> simp [hb, h]

/-- `Flush` either hands the whole buffer over and empties it, or keeps the exporter as it is. -/
theorem Flush_cases (e : HTTPExporter) (r : Reply) :
    (e.sent r = e.buffer ∧ (e.Flush r).2 = { e with buffer := [] }) ∨
      (e.sent r = [] ∧ (e.Flush r).2 = e) := by
  cases h : postError e.requestErr e.buffer r
  · exact .inl (Flush_of_accepted h)
  · exact .inr (Flush_of_rejected h)

/-- A call keeps the batch size and the endpoint. -/
theorem call_keeps (e : HTTPExporter) (c : ExportCall) :
    (e.call c).2.1.batchSize = e.batchSize ∧ (e.call c).2.1.requestErr = e.requestErr := by
  cases c with
  | Export d r =>
    simp only [HTTPExporter.call, HTTPExporter.Export]
    split_ifs
    · rcases Flush_cases { e with buffer := e.buffer ++ [d] } r with ⟨-, h⟩ | ⟨-, h⟩ <;> rw [h] <;>
        exact ⟨rfl, rfl⟩
    · exact ⟨rfl, rfl⟩
  | Flush r =>
    rcases Flush_cases e r with ⟨-, h⟩ | ⟨-, h⟩ <;> simp [HTTPExporter.call, h]

/-- One call: what the endpoint took in, then the buffer, is the buffer before and the call's
    data. -/
theorem call_conserves (e : HTTPExporter) (c : ExportCall) :
    (e.call c).2.2 ++ (e.call c).2.1.buffer = e.buffer ++ c.data := by
  cases c with
  | Export d r =>
    simp only [HTTPExporter.call, HTTPExporter.Export, ExportCall.data]
    split_ifs
    · rcases Flush_cases { e with buffer := e.buffer ++ [d] } r with ⟨h₁, h₂⟩ | ⟨h₁, h₂⟩ <;>
        simp [h₁, h₂]
    · rfl
  | Flush r =>
    rcases Flush_cases e r with ⟨h₁, h₂⟩ | ⟨h₁, h₂⟩ <;> simp [HTTPExporter.call, h₁, h₂, ExportCall.data]

@[simp] theorem run_nil (e : HTTPExporter) : e.run [] = (e, []) := rfl

@[simp] theorem run_cons (e : HTTPExporter) (c : ExportCall) (cs : List ExportCall) :
    e.run (c :: cs) = (((e.call c).2.1.run cs).1, (e.call c).2.2 :: ((e.call c).2.1.run cs).2) := rfl

/-- Whatever the replies, what the endpoint has accepted, followed by the buffer, is the buffer
    to start with and the data exported, in order: no item is lost or sent twice. -/
theorem run_conserves (e : HTTPExporter) (cs : List ExportCall) :
    (e.run cs).2.flatten ++ (e.run cs).1.buffer = e.buffer ++ cs.flatMap ExportCall.data := by
  induction cs generalizing e with
  | nil => simp
  | cons c cs ih =>
    rw [run_cons, List.flatten_cons, List.append_assoc, ih, ← List.append_assoc, call_conserves,
      List.flatMap_cons, List.append_assoc]

/-! ### A buffer JSON cannot encode -/

/-- The POST of a payload holding an item JSON cannot encode fails, whatever the reply. -/
theorem postError_of_unmarshalable (q : Option GoString) {p : List AggregatedData}
    {d : AggregatedData} (hd : d ∈ p) (hm : d.marshals = false) (r : Reply) :
    postError q p r = some (lit "failed to marshal analytics data: " ++ marshalTimeError) := by
  have : p.all AggregatedData.marshals = false := List.all_eq_false.2 ⟨d, hd, by simp [hm]⟩
  simp [postError, this]

/-- A call on an exporter whose buffer holds an item JSON cannot encode hands nothing over and
    keeps the item. -/
theorem call_of_unmarshalable {e : HTTPExporter} {d : AggregatedData} (hd : d ∈ e.buffer)
    (hm : d.marshals = false) (c : ExportCall) :
    (e.call c).2.2 = [] ∧ d ∈ (e.call c).2.1.buffer := by
  cases c with
  | Export x r =>
    have hd' : d ∈ e.buffer ++ [x] := List.mem_append_left _ hd
    simp only [HTTPExporter.call, HTTPExporter.Export]
    split_ifs
    · obtain ⟨h₁, h₂⟩ := Flush_of_rejected (e := { e with buffer := e.buffer ++ [x] })
        (postError_of_unmarshalable _ hd' hm r)
      exact ⟨h₁, by rw [h₂]; exact hd'⟩
    · exact ⟨rfl, hd'⟩
  | Flush r =>
    obtain ⟨h₁, h₂⟩ := Flush_of_rejected (postError_of_unmarshalable _ hd hm r)
    simp only [HTTPExporter.call, h₁, h₂]
    exact ⟨trivial, hd⟩

/-- Once the buffer holds an item JSON cannot encode, no POST ever succeeds again: the endpoint
    takes in nothing more, and the buffer only grows by what is exported. -/
theorem run_of_unmarshalable {e : HTTPExporter} {d : AggregatedData} (hd : d ∈ e.buffer)
    (hm : d.marshals = false) (cs : List ExportCall) :
    (e.run cs).2.flatten = [] ∧ (e.run cs).1.buffer = e.buffer ++ cs.flatMap ExportCall.data := by
  induction cs generalizing e with
  | nil => simp
  | cons c cs ih =>
    obtain ⟨h₁, h₂⟩ := call_of_unmarshalable hd hm c
    obtain ⟨ih₁, ih₂⟩ := ih h₂
    have hc := call_conserves e c
    rw [h₁, List.nil_append] at hc
    rw [run_cons, List.flatten_cons, h₁, ih₁, ih₂, hc, List.flatMap_cons, List.append_assoc]
    exact ⟨rfl, rfl⟩

/-- An aggregation dated in year −2 blocks its exporter, though the endpoint accepts every POST. -/
theorem run_of_unmarshalable_year_minus_two :
    let d : AggregatedData := ⟨PeriodDaily, [], -800 * 86400, -799 * 86400, 0, 0, 0, -800 * 86400⟩
    d.marshals = false ∧ ((⟨[d], 1, none⟩ : HTTPExporter).run [.Flush (.status 200 [])]).2.flatten = [] :=
  ⟨by decide, (run_of_unmarshalable (List.mem_singleton_self _) (by decide) _).1⟩

/-! ### Batches -/

/-- A call that exports an item JSON can encode, its request accepted by the endpoint. -/
def ExportCall.succeeds : ExportCall → Bool
  | .Export d (.status code _) => decide (code < 400) && d.marshals
  | _ => false

/-- The POST of a payload JSON can encode, answered below 400, succeeds. -/
theorem postError_of_encodable {p : List AggregatedData} (hp : ∀ d ∈ p, d.marshals)
    {code : Int} (hc : code < 400) (body : GoString) : postError none p (.status code body) = none := by
  have : p.all AggregatedData.marshals := List.all_eq_true.2 hp
  simp [postError, this, hc]

/-- A successful export onto a buffer of fewer than `max batchSize 1` items that JSON can encode
    keeps it so, and hands over either nothing or exactly `max batchSize 1` items. -/
theorem call_batch {e : HTTPExporter} (hq : e.requestErr = none) (hb : ∀ d ∈ e.buffer, d.marshals)
    (hl : (e.buffer.length : Int) < max e.batchSize 1) {c : ExportCall} (hc : c.succeeds) :
    ((e.call c).2.2 = [] ∨ ((e.call c).2.2.length : Int) = max e.batchSize 1) ∧
      (∀ d ∈ (e.call c).2.1.buffer, d.marshals) ∧
      ((e.call c).2.1.buffer.length : Int) < max e.batchSize 1 := by
  match c, hc with
  | .Export x (.status code body), hc =>
    simp only [ExportCall.succeeds, Bool.and_eq_true, decide_eq_true_eq] at hc
    have hb' : ∀ d ∈ e.buffer ++ [x], d.marshals := fun d hd =>
      (List.mem_append.1 hd).elim (hb d) fun h => List.mem_singleton.1 h ▸ hc.2
    simp only [HTTPExporter.call, HTTPExporter.Export, List.length_append, List.length_singleton]
    split_ifs with hfull
    · obtain ⟨h₁, h₂⟩ := Flush_of_accepted (e := { e with buffer := e.buffer ++ [x] })
        (by simpa only [hq] using postError_of_encodable hb' hc.1 body)
      rw [h₁, h₂]
      simp only [List.length_append, List.length_singleton, Nat.cast_add, Nat.cast_one] at hfull ⊢
      exact ⟨.inr (by omega), by simp, by simp only [List.length_nil, Nat.cast_zero]; omega⟩
    · simp only [List.length_append, List.length_singleton, Nat.cast_add, Nat.cast_one] at hfull ⊢
      exact ⟨.inl trivial, hb', by omega⟩

/-- When every call exports an item JSON can encode and every POST is accepted, the endpoint
    receives the data in payloads of exactly `max batchSize 1` items, and fewer than that are left
    in the buffer. -/
theorem run_batches {e : HTTPExporter} (hq : e.requestErr = none) (hb : ∀ d ∈ e.buffer, d.marshals)
    (hl : (e.buffer.length : Int) < max e.batchSize 1) {cs : List ExportCall}
    (hc : ∀ c ∈ cs, c.succeeds) :
    (∀ p ∈ (e.run cs).2, p = [] ∨ (p.length : Int) = max e.batchSize 1) ∧
      ((e.run cs).1.buffer.length : Int) < max e.batchSize 1 := by
  induction cs generalizing e with
  | nil => exact ⟨fun _ h => (nomatch h), hl⟩
  | cons c cs ih =>
    obtain ⟨h₁, h₂, h₃⟩ := call_batch hq hb hl (hc c (List.mem_cons_self c cs))
    obtain ⟨hk₁, hk₂⟩ := call_keeps e c
    have ih' := ih (hk₂.trans hq) h₂ (by rw [hk₁]; exact h₃) fun c' h' => hc c' (List.mem_cons_of_mem c h')
    rw [hk₁] at ih'
    refine ⟨?_, ih'.2⟩
    rintro p hp
    rw [run_cons, List.mem_cons] at hp
    rcases hp with rfl | hp
    · exact h₁
    · exact ih'.1 p hp

/-- Three aggregations exported in batches of two, every POST answered 200. -/
theorem run_batches_of_two :
    let cs := List.replicate 3 (ExportCall.Export ⟨PeriodDaily, [], 0, 86400, 0, 0, 0, 0⟩ (.status 200 []))
    (∀ c ∈ cs, c.succeeds) ∧
      (∀ p ∈ ((⟨[], 2, none⟩ : HTTPExporter).run cs).2, p = [] ∨ (p.length : Int) = max 2 1) ∧
      (((⟨[], 2, none⟩ : HTTPExporter).run cs).1.buffer.length : Int) < max 2 1 :=
  ⟨by decide, run_batches rfl (by simp) (by decide) (by decide)⟩

/-! ### The other exporters and the manager -/

/-- `segmentEvent`: the event's name and time, and of its properties the period, the period's
    key and the counter it reports, by name; the maps `points_by_metric` and `badges_by_type` it
    also carries are empty, as no aggregation fills them. -/
structure segmentEvent where
  userID : GoString
  event : GoString
  timestamp : Int
  period : GoString
  periodKey : GoString
  counter : GoString
  value : Int
  deriving DecidableEq

/-- The `segmentEvent` of `convertToSegmentEvents` that reports the counter `counter` of `data`. -/
def segmentEventOf (data : AggregatedData) (event counter : GoString) (value : Int) :
    segmentEvent :=
  ⟨lit "system", event, data.createdAt, data.period, data.key, counter, value⟩

/-- `convertToSegmentEvents(data)`: one event for each counter above zero. -/
def convertToSegmentEvents (data : AggregatedData) : List segmentEvent :=
  (if 0 < data.activeUsers then
    [segmentEventOf data (lit "gamification_active_users") (lit "active_users") data.activeUsers]
  else []) ++
  (if 0 < data.pointsAwarded then
    [segmentEventOf data (lit "gamification_points_awarded") (lit "points_awarded") data.pointsAwarded]
  else []) ++
  (if 0 < data.badgesAwarded then
    [segmentEventOf data (lit "gamification_badges_awarded") (lit "badges_awarded") data.badgesAwarded]
  else [])

/-- `sendEvent(ctx, event)` with the reply to its request to Segment's fixed URL, which always
    parses. -/
def sendEvent (event : segmentEvent) (reply : Reply) : Option GoString :=
  if timeMarshals event.timestamp then
    match reply with
    | .sendFailed err => some err
    | .status code body =>
      if 400 ≤ code then some (lit "segment API returned status " ++ appendInt code 0 ++ lit ": " ++ body)
      else none
  else some marshalTimeError

/-- The loop of `SegmentExporter.Export`: the events in turn, the `k`-th with `replies k`, up to
    the first that fails. -/
def sendEvents (replies : Nat → Reply) : List segmentEvent → Nat → Option GoString
  | [], _ => none
  | event :: events, k =>
    match sendEvent event (replies k) with
    | some err => some (lit "failed to send segment event: " ++ err)
    | none => sendEvents replies events (k + 1)

/-- The exporters of the package, each with its state: the implementations of `Exporter`. -/
inductive Exporter
  | HTTP (e : HTTPExporter)
  | Segment (writeKey : GoString)
  | Console (pre : GoString)
  deriving DecidableEq

/-- `%T` of an exporter. -/
def Exporter.typeName : Exporter → GoString
  | .HTTP _ => lit "*analytics.HTTPExporter"
  | .Segment _ => lit "*analytics.SegmentExporter"
  | .Console _ => lit "*analytics.ConsoleExporter"

/-- `Export(ctx, data)` of an exporter, `replies k` answering its `k`-th request: the error and
    the exporter after the call. `ConsoleExporter` prints the aggregation as indented JSON, which
    fails on a time JSON cannot encode. -/
def Exporter.Export (x : Exporter) (data : AggregatedData) (replies : Nat → Reply) :
    Option GoString × Exporter :=
  match x with
  | .HTTP e => ((e.Export data (replies 0)).1, .HTTP (e.Export data (replies 0)).2)
  | .Segment _ => (sendEvents replies (convertToSegmentEvents data) 0, x)
  | .Console _ => (if data.marshals then none else some marshalTimeError, x)

/-- `Flush(ctx)` of an exporter, with the reply to its request. -/
def Exporter.Flush (x : Exporter) (reply : Reply) : Option GoString × Exporter :=
  match x with
  | .HTTP e => ((e.Flush reply).1, .HTTP (e.Flush reply).2)
  | _ => (none, x)

/-- `ExportManager`. -/
structure ExportManager where
  exporters : List Exporter
  deriving DecidableEq

/-- The inner loop of `ExportData` for one aggregation: each exporter in turn exports it, the
    `j`-th with `replies j`, up to the first that fails, whose error names its type. -/
def exportEach (data : AggregatedData) (replies : Nat → Nat → Reply) :
    List Exporter → Nat → Option GoString × List Exporter
  | [], _ => (none, [])
  | x :: xs, j =>
    match x.Export data (replies j) with
    | (some err, x') => (some (lit "export failed for " ++ x.typeName ++ lit ": " ++ err), x' :: xs)
    | (none, x') => ((exportEach data replies xs (j + 1)).1, x' :: (exportEach data replies xs (j + 1)).2)

/-- `Flush(ctx)` of the manager: each exporter in turn, the `j`-th with `replies j`, up to the first
    that fails. -/
def flushEach (replies : Nat → Reply) : List Exporter → Nat → Option GoString × List Exporter
  | [], _ => (none, [])
  | x :: xs, j =>
    match x.Flush (replies j) with
    | (some err, x') => (some (lit "flush failed for " ++ x.typeName ++ lit ": " ++ err), x' :: xs)
    | (none, x') => ((flushEach replies xs (j + 1)).1, x' :: (flushEach replies xs (j + 1)).2)

/-- The outer loop of `ExportData`: the aggregations in turn, the `i`-th with `net i`, then the
    flush, with `net` at the number of aggregations. -/
def exportAll (net : Nat → Nat → Nat → Reply) :
    List AggregatedData → Nat → List Exporter → Option GoString × List Exporter
  | [], i, xs => flushEach (fun j => net i j 0) xs 0
  | d :: ds, i, xs =>
    match exportEach d (net i) xs 0 with
    | (some err, xs') => (some err, xs')
    | (none, xs') => exportAll net ds (i + 1) xs'

/-- `ExportData(ctx, data)`, `net i j k` answering the `k`-th request of the `j`-th exporter while
    it handles the `i`-th aggregation (the flush coming after the last). -/
def ExportManager.ExportData (em : ExportManager) (data : List AggregatedData)
    (net : Nat → Nat → Nat → Reply) : Option GoString × ExportManager :=
  ((exportAll net data 0 em.exporters).1, ⟨(exportAll net data 0 em.exporters).2⟩)

/-! ### What a successful `ExportData` delivers -/

/-- The calls the `k`-th exporter gets from `ExportData`, from the `i`-th aggregation on: each
    aggregation, then the flush. -/
def callsFor (net : Nat → Nat → Nat → Reply) (k : Nat) : List AggregatedData → Nat → List ExportCall
  | [], i => [.Flush (net i k 0)]
  | d :: ds, i => .Export d (net i k 0) :: callsFor net k ds (i + 1)

/-- A flush that returns `nil` leaves the buffer empty. -/
theorem Flush_buffer {e : HTTPExporter} {r : Reply} (h : (e.Flush r).1 = none) :
    (e.Flush r).2.buffer = [] := by
  unfold HTTPExporter.Flush at h ⊢
  by_cases hb : e.buffer = []
  · simp [hb]
  · cases hp : postError e.requestErr e.buffer r <;> simp_all

/-- When the inner loop returns `nil`, each exporter has exported the aggregation. -/
theorem exportEach_ok {d : AggregatedData} {replies : Nat → Nat → Reply} :
    ∀ {xs : List Exporter} {j : Nat}, (exportEach d replies xs j).1 = none →
      ∀ k : Nat, (exportEach d replies xs j).2[k]? =
        xs[k]?.map fun x : Exporter => (x.Export d (replies (j + k))).2
  | [], _, _, _ => rfl
  | x :: xs, j, h, k => by
    rcases hx : x.Export d (replies j) with ⟨_ | err, x'⟩
    · simp only [exportEach, hx] at h ⊢
      cases k with
      | zero => simp only [List.getElem?_cons_zero, Option.map_some', Nat.add_zero, hx]
      | succ k =>
        rw [List.getElem?_cons_succ, exportEach_ok h k, List.getElem?_cons_succ,
          show j + 1 + k = j + (k + 1) by omega]
    · simp [exportEach, hx] at h

/-- When the manager's flush returns `nil`, each exporter has flushed, with `nil`. -/
theorem flushEach_ok {replies : Nat → Reply} :
    ∀ {xs : List Exporter} {j : Nat}, (flushEach replies xs j).1 = none →
      ∀ (k : Nat) (x : Exporter), xs[k]? = some x →
        (flushEach replies xs j).2[k]? = some (x.Flush (replies (j + k))).2 ∧
          (x.Flush (replies (j + k))).1 = none
  | [], _, _, _, _, hk => nomatch hk
  | x :: xs, j, h, k, y, hk => by
    rcases hx : x.Flush (replies j) with ⟨_ | err, x'⟩
    · simp only [flushEach, hx] at h ⊢
      cases k with
      | zero =>
        rw [List.getElem?_cons_zero, Option.some_inj] at hk
        subst hk
        simp only [List.getElem?_cons_zero, Nat.add_zero, hx, and_self]
      | succ k =>
        rw [List.getElem?_cons_succ] at hk ⊢
        rw [show j + (k + 1) = j + 1 + k by omega]
        exact flushEach_ok h k y hk
    · simp [flushEach, hx] at h

/-- When `ExportData` returns `nil`, each HTTP exporter has run the calls `callsFor`, handed its
    endpoint its buffer and then the aggregations, and emptied its buffer. -/
theorem exportAll_ok {net : Nat → Nat → Nat → Reply} :
    ∀ {ds : List AggregatedData} {i : Nat} {xs : List Exporter}, (exportAll net ds i xs).1 = none →
      ∀ (k : Nat) (e : HTTPExporter), xs[k]? = some (.HTTP e) →
        (exportAll net ds i xs).2[k]? = some (.HTTP (e.run (callsFor net k ds i)).1) ∧
          (e.run (callsFor net k ds i)).2.flatten = e.buffer ++ ds ∧
          (e.run (callsFor net k ds i)).1.buffer = []
  | [], i, xs, h, k, e, hk => by
    obtain ⟨h₁, h₂⟩ := flushEach_ok h k _ hk
    simp only [Nat.zero_add, Exporter.Flush] at h₁ h₂
    have hc := call_conserves e (.Flush (net i k 0))
    simp only [HTTPExporter.call, Flush_buffer h₂, List.append_nil, ExportCall.data] at hc
    exact ⟨h₁, by simp [callsFor, HTTPExporter.call, hc], Flush_buffer h₂⟩
  | d :: ds, i, xs, h, k, e, hk => by
    rcases hx : exportEach d (net i) xs 0 with ⟨_ | err, xs'⟩
    · simp only [exportAll, hx] at h ⊢
      have hk' : xs'[k]? = some (.HTTP (e.Export d (net i k 0)).2) := by
        rw [show xs' = (exportEach d (net i) xs 0).2 by rw [hx], exportEach_ok (by rw [hx]) k, hk]
        simp [Exporter.Export]
      obtain ⟨h₁, h₂, h₃⟩ := exportAll_ok h k _ hk'
      have hc := call_conserves e (.Export d (net i k 0))
      refine ⟨h₁, ?_, h₃⟩
      rw [callsFor, run_cons, List.flatten_cons]
      simp only [HTTPExporter.call] at hc h₂ h₃ ⊢
      rw [h₂, ← List.append_assoc, hc, ExportCall.data, List.append_assoc, List.singleton_append]
    · simp [exportAll, hx] at h

/-- When `ExportData` returns `nil`, every HTTP exporter of the manager has handed its endpoint,
    for good, what its buffer held and then every aggregation, in order and each once, and its
    buffer is empty. -/
theorem ExportData_delivers {em : ExportManager} {data : List AggregatedData}
    {net : Nat → Nat → Nat → Reply} (h : (em.ExportData data net).1 = none) {k : Nat}
    {e : HTTPExporter} (hk : em.exporters[k]? = some (.HTTP e)) :
    (em.ExportData data net).2.exporters[k]? = some (.HTTP (e.run (callsFor net k data 0)).1) ∧
      (e.run (callsFor net k data 0)).2.flatten = e.buffer ++ data ∧
      (e.run (callsFor net k data 0)).1.buffer = [] :=
  exportAll_ok h k e hk

/-- A manager with one HTTP exporter, exporting one aggregation, every request answered 200. -/
theorem ExportData_delivers_one :
    let em : ExportManager := ⟨[.HTTP ⟨[], 10, none⟩]⟩
    let data : List AggregatedData := [⟨PeriodDaily, [], 0, 86400, 1, 5, 0, 0⟩]
    let net : Nat → Nat → Nat → Reply := fun _ _ _ => .status 200 []
    (em.ExportData data net).1 = none ∧
      (em.ExportData data net).2.exporters[0]? = some (.HTTP (HTTPExporter.run ⟨[], 10, none⟩ (callsFor net 0 data 0)).1) ∧
      (HTTPExporter.run ⟨[], 10, none⟩ (callsFor net 0 data 0)).2.flatten = [] ++ data ∧
      (HTTPExporter.run ⟨[], 10, none⟩ (callsFor net 0 data 0)).1.buffer = [] :=
  ⟨by decide, ExportData_delivers (by decide) rfl⟩

end GamifyKit.Analytics
