import GamifyKit.Go.Url
import GamifyKit.Engine.Service

/-! Package `httpapi`: the users routes of `NewMux`, and the requests the Go SDK sends them.

    A request reaches the users handler as its request target, the escaped path. `net/http`
    unescapes it into `URL.Path`, answering `400 Bad Request` to a bad `%` escape; the `ServeMux`
    of Go 1.22 redirects a path that `cleanPath` would change and otherwise hands every path under
    `{prefix}/users/` to the handler. The handler cuts `URL.Path`, the unescaped path, with
    `split`, so a `/` that the SDK escaped as `%2F` inside a user id separates parts like any
    other. The outcomes stop where the handler calls the service: `points` goes on to read
    `metric` and `delta` from the query and calls `AddPoints`, `badge` calls `AwardBadge`, `get`
    calls `GetState`.

    The SDK client joins its base URL, the user id escaped by `url.PathEscape`, and the route's
    words; `url.Parse` and `URL.String` keep a path that is already in escaped form as it is, so
    the request target is that text. -/

namespace GamifyKit.Api
open GamifyKit.Go GamifyKit.Core GamifyKit.Engine

/-! ### The server -/

/-- `strings.TrimPrefix`. -/
def TrimPrefix (s pre : GoString) : GoString := if pre.isPrefixOf s then s.drop pre.length else s

/-- `withPrefix(prefix, path)`: the pattern a route is registered under. -/
def withPrefix (pre path : GoString) : GoString :=
  if pre = [] ∨ pre = lit "/" then path
  else if pre.getLast? = some 0x2F then pre.dropLast ++ path
  else pre ++ path

/-- The loop of `split` over the runes of the path: `cur` is the part being read, and the last
    part is appended after the loop. -/
def splitLoop (sep : Nat) : List GoString → GoString → List Nat → List GoString
  | parts, cur, [] => if cur = [] then parts else parts ++ [cur]
  | parts, cur, r :: rs =>
    if r = sep then
      if cur = [] then splitLoop sep parts [] rs else splitLoop sep (parts ++ [cur]) [] rs
    else splitLoop sep parts (cur ++ encodeRune r) rs

/-- `split(p, sep)`: the leading `/` bytes trimmed, then the parts between separators, empty parts
    dropped; each part is re-encoded rune by rune by `string(cur)`. -/
def split (p : GoString) (sep : Nat) : List GoString :=
  splitLoop sep [] [] (runes (p.dropWhile (· = 0x2F)))

/-- `cleanPath(p) == p` for a path that starts with `/`: no segment is `.` or `..`, and none is
    empty but the one a trailing `/` leaves. -/
def Clean (p : GoString) : Bool :=
  match p.splitOn 0x2F with
  | [] :: segs =>
    (segs.dropLast.all fun g => g ≠ [] && g ≠ lit "." && g ≠ lit "..") &&
      (segs.getLast?.all fun g => g ≠ lit "." && g ≠ lit "..")
  | _ => false

/-- The request methods the users handler tells apart. -/
inductive Method
  | GET
  | POST
  | other
  deriving DecidableEq

/-- Where a request ends. -/
inductive Outcome
  /-- `400 Bad Request` from `net/http`: the target has a bad `%` escape. -/
  | badRequest
  /-- `301` from `ServeMux` to the cleaned path. -/
  | redirect
  /-- A route other than the users routes. -/
  | otherRoute
  /-- `404 not_found`, "route not found". -/
  | notFound
  /-- `400 invalid_user`, with `NormalizeUserID`'s error. -/
  | invalidUser (msg : String)
  /-- The points route for `user`. -/
  | points (user : UserID)
  /-- `400 invalid_badge`, with `ValidateBadgeID`'s error. -/
  | invalidBadge (msg : String)
  /-- The badges route: `AwardBadge(user, badge)`. -/
  | badge (user : UserID) (badge : Badge)
  /-- The read route: `GetState(user)`. -/
  | get (user : UserID)
  deriving DecidableEq

/-- The users handler of `NewMux` once it has cut the path into `parts`. -/
def route (caseTable : Nat → Nat) (method : Method) (parts : List GoString) : Outcome :=
  if parts.length < 2 then .notFound else
  match NormalizeUserID caseTable (parts.getD 1 []) with
  | .error e => .invalidUser e
  | .ok user =>
    match method with
    | .POST =>
      if 3 ≤ parts.length ∧ parts.getD 2 [] = lit "points" then .points user
      else if 4 ≤ parts.length ∧ parts.getD 2 [] = lit "badges" then
        match ValidateBadgeID (parts.getD 3 []) with
        | .error e => .invalidBadge e
        | .ok () => .badge user (parts.getD 3 [])
      else .notFound
    | .GET => .get user
    | .other => .notFound

/-- The users handler of `NewMux` on `URL.Path`. -/
def usersHandler (caseTable : Nat → Nat) (pathPrefix : GoString) (method : Method)
    (urlPath : GoString) : Outcome :=
  if method = .other then .notFound else
  let path := TrimPrefix urlPath pathPrefix
  route caseTable method (split (if path.head? = some 0x2F then path else 0x2F :: path) 0x2F)

/-- A request with target path `target` to a server built with `PathPrefix` `pathPrefix`. -/
def serve (caseTable : Nat → Nat) (pathPrefix : GoString) (method : Method) (target : GoString) :
    Outcome :=
  match unescape target with
  | none => .badRequest
  | some urlPath =>
    if !Clean target then .redirect
    else if (withPrefix pathPrefix (lit "/users/")).isPrefixOf target then
      usersHandler caseTable pathPrefix method urlPath
    else .otherRoute

/-- The badges route awards only a badge that `ValidateBadgeID` accepts. -/
theorem route_badge {caseTable : Nat → Nat} {method : Method} {parts : List GoString} {user : UserID}
    {b : Badge} (h : route caseTable method parts = .badge user b) : ValidateBadgeID b = .ok () := by
  unfold route at h
  rcases hn : NormalizeUserID caseTable (parts.getD 1 []) with _ | u <;>
    rcases hv : ValidateBadgeID (parts.getD 3 []) with _ | ⟨⟩ <;> cases method <;>
    simp only [hn, hv] at h <;> split_ifs at h <;> cases h
  exact hv

/-- The read route serves `NormalizeUserID` of the second part. -/
theorem route_GET {caseTable : Nat → Nat} {parts : List GoString} {n : UserID}
    (hl : 2 ≤ parts.length) (hn : NormalizeUserID caseTable (parts.getD 1 []) = .ok n) :
    route caseTable .GET parts = .get n := by
  simp only [route, if_neg (show ¬parts.length < 2 by omega), hn]

/-- The write routes serve `NormalizeUserID` of the second part. -/
theorem route_POST_user {caseTable : Nat → Nat} {parts : List GoString} {u : UserID} {b : Badge}
    (h : route caseTable .POST parts = .points u ∨ route caseTable .POST parts = .badge u b) :
    NormalizeUserID caseTable (parts.getD 1 []) = .ok u := by
  unfold route at h
  rcases hn : NormalizeUserID caseTable (parts.getD 1 []) with _ | n <;>
    rcases hv : ValidateBadgeID (parts.getD 3 []) with _ | ⟨⟩ <;>
    simp only [hn, hv] at h <;> split_ifs at h <;> simp_all

/-- Reads and writes on the users routes for one path segment reach one record. An id that
    `NormalizeUserID` gives is normalised again to itself, so the id that `AddPoints` and
    `AwardBadge` store under, after the service normalises the handler's id a second time, is
    the id the read route passes as it is to `GetState`. -/
theorem write_read_same_key {caseTable : Nat → Nat} (hc : LowerCaseTable caseTable) {s v : UserID}
    (hv : NormalizeUserID caseTable s = .ok v) :
    NormalizeUserID caseTable v = .ok v ∧
      ∀ parts : List GoString, 2 ≤ parts.length → parts.getD 1 [] = s →
        route caseTable .GET parts = .get v ∧
          ∀ u b, route caseTable .POST parts = .points u ∨ route caseTable .POST parts = .badge u b →
            NormalizeUserID caseTable u = .ok v := by
  have hvv := NormalizeUserID_idem hc hv
  refine ⟨hvv, fun parts hl hs => ⟨route_GET hl (hs ▸ hv), fun u b h => ?_⟩⟩
  have hu := route_POST_user h
  rw [hs, hv] at hu
  cases hu
  exact hvv

theorem write_read_same_key_alice :
    NormalizeUserID id (lit " Alice ") = .ok (lit "alice") ∧
      NormalizeUserID id (lit "alice") = .ok (lit "alice") ∧
      ∀ parts : List GoString, 2 ≤ parts.length → parts.getD 1 [] = lit " Alice " →
        route id .GET parts = .get (lit "alice") ∧
          ∀ u b, route id .POST parts = .points u ∨ route id .POST parts = .badge u b →
            NormalizeUserID id u = .ok (lit "alice") :=
  ⟨rfl, @write_read_same_key id lowerCaseTable_id (lit " Alice ") (lit "alice") rfl⟩

/-- Points added through the points route are read back by the read route for the same path
    segment, on a store whose records carry their own ids. -/
theorem points_read_back {caseTable : Nat → Nat} (hc : LowerCaseTable caseTable) {w w' : World}
    (hids : ∀ v, (w.store.record v).userID = v) {parts : List GoString} {u : UserID}
    (hp : route caseTable .POST parts = .points u) {metric : Metric} {delta total : Int}
    (hA : AddPoints caseTable DefaultRuleEngine w u metric delta = (.ok total, w')) :
    ∃ v, route caseTable .GET parts = .get v ∧ (GetState w' v).1.points.find? metric = some total := by
  have hu := @route_POST_user caseTable parts u [] (.inl hp)
  have hl : 2 ≤ parts.length := by
    by_contra hl; simp [route, show parts.length < 2 by omega] at hp
  refine ⟨u, route_GET hl (NormalizeUserID_idem hc hu ▸ hu), ?_⟩
  rcases AddPoints_cases hids hA with ⟨⟨e, he⟩, -⟩ | ⟨n, t, hn, ht, hr, -⟩
  · cases he
  · rw [NormalizeUserID_idem hc hu] at hn
    cases hn
    cases ht
    simp [GetState, hr]

/-- Ten points added to `u` through the points route on a new store are read back. -/
theorem points_read_back_new :
    let parts := [[], lit "u", lit "points"]
    let r := AddPoints id DefaultRuleEngine World.init (lit "u") MetricXP 10
    LowerCaseTable id ∧ (∀ v, (World.init.store.record v).userID = v) ∧
      route id .POST parts = .points (lit "u") ∧ r = (.ok 10, r.2) ∧
      ∃ v, route id .GET parts = .get v ∧ (GetState r.2 v).1.points.find? MetricXP = some 10 := by
  intro parts r
  have hA : r = (.ok 10, r.2) := Prod.ext rfl rfl
  exact ⟨lowerCaseTable_id, fun _ => rfl, rfl, hA,
    @points_read_back id lowerCaseTable_id World.init r.2 (fun _ => rfl) parts (lit "u") rfl MetricXP 10 10 hA⟩

/-! ### The SDK -/

/-- The target of `Client.AddPoints(userID, …)` on base path `base`, its query apart. -/
def addPointsPath (base userID : GoString) : GoString :=
  base ++ lit "/users/" ++ PathEscape userID ++ lit "/points"

/-- The target of `Client.AwardBadge(userID, badge)`. -/
def awardBadgePath (base userID badge : GoString) : GoString :=
  base ++ lit "/users/" ++ PathEscape userID ++ lit "/badges/" ++ PathEscape badge

/-- The target of `Client.GetUser(userID)`. -/
def getUserPath (base userID : GoString) : GoString := base ++ lit "/users/" ++ PathEscape userID

/-- The server reads back exactly the user id the SDK escaped: below a base path without `%`,
    the unescaped target is the base, `/users/`, the id itself, and the route's words. -/
theorem unescape_getUserPath {base : GoString} (hb : 0x25 ∉ base) (userID : GoString) :
    unescape (getUserPath base userID) = some (base ++ lit "/users/" ++ userID) := by
  rw [getUserPath, List.append_assoc, unescape_of_no_percent hb,
    unescape_of_no_percent (by decide), ← List.append_nil (PathEscape userID), unescape_PathEscape]
  simp [unescape]

/-- The path of `GetUser("a b")` below `/api` unescapes to the id itself. -/
theorem unescape_getUserPath_api :
    0x25 ∉ lit "/api" ∧
      unescape (getUserPath (lit "/api") (lit "a b")) = some (lit "/api" ++ lit "/users/" ++ lit "a b") :=
  ⟨by decide, unescape_getUserPath (by decide) _⟩

/-- An SDK user id holding `/` is cut apart by the server. `GetUser("a/b")` reads the state of
    `a`, while `NormalizeUserID("a/b")` is `a/b`; `AddPoints("x/badges/y", …)` awards badge `y`
    to `x`. Both ids pass the SDK's check that `TrimSpace(id)` is not empty. -/
theorem slash_id_misrouted (caseTable : Nat → Nat) :
    TrimSpace (lit "a/b") ≠ [] ∧ NormalizeUserID caseTable (lit "a/b") = .ok (lit "a/b") ∧
      serve caseTable (lit "/api") .GET (getUserPath (lit "/api") (lit "a/b")) = .get (lit "a") ∧
      TrimSpace (lit "x/badges/y") ≠ [] ∧
      serve caseTable (lit "/api") .POST (addPointsPath (lit "/api") (lit "x/badges/y")) =
        .badge (lit "x") (lit "y") :=
  ⟨by decide, rfl, rfl, by decide, rfl⟩

end GamifyKit.Api
