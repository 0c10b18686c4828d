import GamifyKit.Core.Types

/-! `adapters/jsonfile`: the store that keeps every user's state in one JSON file.

    `Store` keeps the map in memory and rewrites the whole file after each change (`persist`):
    it marshals the map, writes it to `path.tmp` and renames that over `path`, so the file is
    replaced whole or not at all. `persist` fails when `MkdirAll`, `WriteFile` or `Rename` does;
    the model takes that outcome as an argument, `fail`, the error if there is one. The file holds
    the map `json.MarshalIndent` wrote; `New` reads it back with `json.Unmarshal`, which gives the
    map's `jsonRoundTrip` on its keys and on every state (`decodeFile`). Calls hold the store's
    mutex for their whole length, so one call at a time is every run.

    `get` returns a state whose maps are the very maps the store holds, so a change made before
    `persist` stays in memory when `persist` fails (`mutate_fail`), although only an overflow in
    `AddSafe` leaves the store as it was (`view_addPoints_overflow`). On valid UTF-8 the file
    reads back what the store reports (`reload_agrees`); other bytes do not survive the JSON
    encoding. -/

namespace GamifyKit.JsonFile
open GamifyKit.Go GamifyKit.Core

/-- `jsonfile.Store`: the map in memory, and what the file at `path` holds, the map the last
    successful `persist` wrote, or nothing before the first. -/
structure Store where
  data : GoMap UserState
  file : Option (GoMap UserState)
  deriving DecidableEq

/-- The map `json.Unmarshal` reads from a file that `json.MarshalIndent` wrote from `m`. -/
def decodeFile (m : GoMap UserState) : GoMap UserState :=
  m.entries.foldl (fun acc kv => acc.insert (coerceUTF8 kv.1) kv.2.jsonRoundTrip) .empty

/-- `New(path)`: the map in the file, or an empty map if there is no file yet. -/
def New (file : Option (GoMap UserState)) : Store := ⟨(file.map decodeFile).getD .empty, file⟩

/-- `Store.get`: the user's state, or a new empty one, which `get` stores. -/
def Store.get (s : Store) (user : UserID) : UserState × Store :=
  match s.data.find? user with
  | some st => (st, s)
  | none => (UserState.empty user, { s with data := s.data.insert user (UserState.empty user) })

/-- `Store.persist`, failing with `fail` if one of its file operations does. -/
def Store.persist (s : Store) (fail : Option String) : Except String Store :=
  match fail with
  | some e => .error e
  | none => .ok { s with file := some s.data }

/-- The shape of `AwardBadge`, `SetLevel` and `AddPoints` past its check: `get` the user's state,
    change it by `f`, store it, and `persist`. -/
def Store.mutate (s : Store) (fail : Option String) (user : UserID) (f : UserState → UserState) :
    Except String Unit × Store :=
  match ({ (s.get user).2 with data := (s.get user).2.data.insert user (f (s.get user).1) } : Store).persist fail with
  | .error e => (.error e, { (s.get user).2 with data := (s.get user).2.data.insert user (f (s.get user).1) })
  | .ok s' => (.ok (), s')

/-- `Store.AddPoints`. -/
def Store.AddPoints (s : Store) (fail : Option String) (user : UserID) (metric : Metric) (delta : Int) :
    Except String Int × Store :=
  match AddSafe ((s.get user).1.points.getD metric 0) delta with
  | .error e => (.error e, (s.get user).2)
  | .ok next =>
    match s.mutate fail user fun st => { st with points := st.points.insert metric next } with
    | (.error e, s') => (.error e, s')
    | (.ok (), s') => (.ok next, s')

/-- `Store.AwardBadge`. -/
def Store.AwardBadge (s : Store) (fail : Option String) (user : UserID) (badge : Badge) :
    Except String Unit × Store :=
  s.mutate fail user fun st => { st with badges := st.badges.insert badge () }

/-- `Store.SetLevel`. -/
def Store.SetLevel (s : Store) (fail : Option String) (user : UserID) (metric : Metric) (level : Int) :
    Except String Unit × Store :=
  s.mutate fail user fun st => { st with levels := st.levels.insert metric level }

/-- `Store.GetState`; the clone is the state itself. -/
def Store.GetState (s : Store) (user : UserID) : UserState × Store := s.get user

/-- What `GetState(user)` reports: the points, badges and levels of the user's state. -/
def Store.view (s : Store) (user : UserID) : GoMap Int × GoMap Unit × GoMap Int :=
  ((s.GetState user).1.points, (s.GetState user).1.badges, (s.GetState user).1.levels)

/-! ### Errors -/

/-- The views of a map: a user's state, or empty maps for a user without one. -/
theorem view_eq (s : Store) (user : UserID) :
    s.view user = match s.data.find? user with
      | some st => (st.points, st.badges, st.levels)
      | none => (.empty, .empty, .empty) := by
  unfold Store.view Store.GetState Store.get
  split <;> rfl

/-- `get` changes no view. -/
theorem view_get (s : Store) (user u : UserID) : (s.get user).2.view u = s.view u := by
  rw [view_eq, view_eq]
  unfold Store.get
  rcases h : s.data.find? user with _ | st
  · by_cases hu : u = user
    · subst hu; simp [h, UserState.empty]
    · simp [hu]
  · rfl

/-- An overflow in `AddSafe` changes no user's view. -/
theorem view_addPoints_overflow {s : Store} {fail : Option String} {user : UserID} {metric : Metric}
    {delta : Int} {e : String} (h : AddSafe ((s.get user).1.points.getD metric 0) delta = .error e)
    (u : UserID) : (s.AddPoints fail user metric delta).2.view u = s.view u := by
  simp only [Store.AddPoints, h, view_get]

/-- `AddPoints` leaves the store `get` left on an overflow, and the one `mutate` leaves
    otherwise. -/
theorem AddPoints_snd (s : Store) (fail : Option String) (user : UserID) (metric : Metric)
    (delta : Int) : (s.AddPoints fail user metric delta).2 =
      match AddSafe ((s.get user).1.points.getD metric 0) delta with
      | .error _ => (s.get user).2
      | .ok next => (s.mutate fail user fun st => { st with points := st.points.insert metric next }).2 := by
  unfold Store.AddPoints
  split
  · rfl
  · next next _ => rcases s.mutate fail user _ with ⟨_ | ⟨⟩, _⟩ <;> rfl

@[simp] theorem Store.get_file (s : Store) (user : UserID) : (s.get user).2.file = s.file := by
  unfold Store.get; split <;> rfl

/-- A failed `persist` keeps the change in memory and leaves the file as it was. -/
theorem mutate_fail (s : Store) (e : String) (user : UserID) (f : UserState → UserState) :
    s.mutate (some e) user f =
      (.error e, ⟨(s.get user).2.data.insert user (f (s.get user).1), s.file⟩) := by
  simp only [Store.mutate, Store.persist, Store.get_file]

/-- `AddPoints("alice", xp, 5)` on a new store whose `persist` fails returns the error, yet
    `GetState("alice")` reports 5 points afterwards where it reported none before, and the file
    was never written. -/
theorem persist_failure_kept (e : String) :
    ((New none).GetState (lit "alice")).1.points.getD MetricXP 0 = 0 ∧
      ((New none).AddPoints (some e) (lit "alice") MetricXP 5).1 = .error e ∧
      (((New none).AddPoints (some e) (lit "alice") MetricXP 5).2.GetState (lit "alice")).1.points.getD
        MetricXP 0 = 5 ∧
      ((New none).AddPoints (some e) (lit "alice") MetricXP 5).2.file = none :=
  ⟨rfl, rfl, rfl, rfl⟩

/-! ### Reloading the file -/

/-- The map reads back unchanged: every user id is valid UTF-8, and so is every string of every
    state. -/
def DataValid (m : GoMap UserState) : Prop := ∀ kv ∈ m.entries, ValidString kv.1 ∧ kv.2.Valid

theorem DataValid.insert {m : GoMap UserState} (hm : DataValid m) {u : UserID} (hu : ValidString u)
    {st : UserState} (hst : st.Valid) : DataValid (m.insert u st) := fun kv h =>
  (mem_insertKV h).elim (fun e => by rw [e]; exact ⟨hu, hst⟩) (hm kv)

theorem decodeFile_of_valid {m : GoMap UserState} (hm : DataValid m) : decodeFile m = m :=
  foldl_coerce_of_valid m UserState.jsonRoundTrip fun kv hkv =>
    ⟨(hm kv hkv).1, UserState.jsonRoundTrip_of_valid (hm kv hkv).2⟩

/-- The state `get` returns is valid, and so is the map it leaves. -/
theorem get_valid {s : Store} (hs : DataValid s.data) {user : UserID} (hu : ValidString user) :
    (s.get user).1.Valid ∧ DataValid (s.get user).2.data := by
  unfold Store.get
  split
  · next st h => exact ⟨(hs _ (mem_of_findKV h)).2, hs⟩
  · exact ⟨UserState.valid_empty hu, hs.insert hu (UserState.valid_empty hu)⟩

/-- A successful `persist` writes the map the store holds. -/
theorem mutate_ok (s : Store) (user : UserID) (f : UserState → UserState) :
    s.mutate none user f = (.ok (), ⟨(s.get user).2.data.insert user (f (s.get user).1),
      some ((s.get user).2.data.insert user (f (s.get user).1))⟩) := rfl

/-- What the store and its file keep between calls when every `persist` succeeds: both hold
    valid UTF-8, and a store made by `New` over the file reports what the store reports. -/
structure Store.Reloads (s : Store) : Prop where
  data : DataValid s.data
  file : ∀ m ∈ s.file, DataValid m
  agree : ∀ u, (New s.file).view u = s.view u

theorem Store.Reloads.new {file : Option (GoMap UserState)} (hf : ∀ m ∈ file, DataValid m) :
    (New file).Reloads := by
  refine ⟨?_, hf, fun _ => rfl⟩
  cases file with
  | none => exact fun _ h => nomatch h
  | some m => simpa [New, decodeFile_of_valid (hf m rfl)] using hf m rfl

theorem Store.Reloads.get {s : Store} (hs : s.Reloads) {user : UserID} (hu : ValidString user) :
    (s.get user).2.Reloads :=
  ⟨(get_valid hs.data hu).2, by simpa using hs.file, fun u => by rw [get_file, view_get, hs.agree]⟩

theorem Store.Reloads.mutate {s : Store} (hs : s.Reloads) {user : UserID} (hu : ValidString user)
    {f : UserState → UserState} (hf : ∀ st, st.Valid → (f st).Valid) :
    (s.mutate none user f).2.Reloads := by
  have hd := (get_valid hs.data hu).2.insert hu (hf _ (get_valid hs.data hu).1)
  rw [mutate_ok]
  exact ⟨hd, fun m hm => by cases hm; exact hd, fun u => by
    simp only [New, Option.map_some', Option.getD_some, decodeFile_of_valid hd]⟩

/-- A call of the store. -/
inductive Op
  | addPoints (user : UserID) (metric : Metric) (delta : Int)
  | awardBadge (user : UserID) (badge : Badge)
  | setLevel (user : UserID) (metric : Metric) (level : Int)
  | getState (user : UserID)
  deriving DecidableEq

/-- The store after `op`, every `persist` succeeding. -/
def Op.apply (s : Store) : Op → Store
  | .addPoints user metric delta => (s.AddPoints none user metric delta).2
  | .awardBadge user badge => (s.AwardBadge none user badge).2
  | .setLevel user metric level => (s.SetLevel none user metric level).2
  | .getState user => (s.GetState user).2

/-- The strings of a call are valid UTF-8. -/
def Op.Valid : Op → Bool
  | .addPoints user metric _ => ValidString user && ValidString metric
  | .awardBadge user badge => ValidString user && ValidString badge
  | .setLevel user metric _ => ValidString user && ValidString metric
  | .getState user => ValidString user

theorem Store.Reloads.apply {s : Store} (hs : s.Reloads) {op : Op} (hv : op.Valid) :
    (op.apply s).Reloads := by
  cases op with
  | addPoints user metric delta =>
    simp only [Op.Valid, Bool.and_eq_true] at hv
    rw [Op.apply, AddPoints_snd]
    split
    · exact hs.get hv.1
    · exact hs.mutate hv.1 fun st h => ⟨h.userID, h.points.insert hv.2 _, h.badges, h.levels⟩
  | awardBadge user badge =>
    simp only [Op.Valid, Bool.and_eq_true] at hv
    exact hs.mutate hv.1 fun st h => ⟨h.userID, h.points, h.badges.insert hv.2 _, h.levels⟩
  | setLevel user metric level =>
    simp only [Op.Valid, Bool.and_eq_true] at hv
    exact hs.mutate hv.1 fun st h => ⟨h.userID, h.points, h.badges, h.levels.insert hv.2 _⟩
  | getState user => exact hs.get hv

theorem Store.Reloads.foldl {s : Store} (hs : s.Reloads) :
    ∀ {ops : List Op}, (∀ op ∈ ops, op.Valid) → (ops.foldl Op.apply s).Reloads
  | [], _ => hs
  | op :: _, hv => (hs.apply (hv op (List.mem_cons_self _ _))).foldl fun o h => hv o (List.mem_cons_of_mem _ h)

/-- Over calls whose strings are valid UTF-8, each `persist` succeeding, a store made by `New` over
    the file reports for every user what the store that wrote it reports; from a new store, or
    one made over a file of valid UTF-8. -/
theorem reload_agrees (file : Option (GoMap UserState)) (hf : ∀ m ∈ file, DataValid m) (ops : List Op)
    (hv : ∀ op ∈ ops, op.Valid) (u : UserID) :
    (New (ops.foldl Op.apply (New file)).file).view u = (ops.foldl Op.apply (New file)).view u :=
  ((Store.Reloads.new hf).foldl hv).agree u

/-- `reload_agrees` on the run of `TestStorePersistAndLoad`. -/
theorem reload_agrees_alice :
    (∀ m ∈ (none : Option (GoMap UserState)), DataValid m) ∧
      (∀ op ∈ [Op.addPoints (lit "alice") MetricXP 10, .awardBadge (lit "alice") (lit "onboarded")],
        op.Valid) ∧
      (New ([Op.addPoints (lit "alice") MetricXP 10, .awardBadge (lit "alice") (lit "onboarded")].foldl
        Op.apply (New none)).file).view (lit "alice") =
        ([Op.addPoints (lit "alice") MetricXP 10, .awardBadge (lit "alice") (lit "onboarded")].foldl
          Op.apply (New none)).view (lit "alice") :=
  ⟨fun _ h => (nomatch h), by decide,
    reload_agrees none (fun _ h => (nomatch h)) _ (by decide) (lit "alice")⟩

/-- A user id that is not valid UTF-8 does not survive the file: after `AddPoints("\xff", xp, 5)`
    succeeds, the store reports 5 points for it, and a store made by `New` over the file it wrote
    reports none. -/
theorem invalid_id_lost :
    ((New none).AddPoints none [0xFF] MetricXP 5).1 = .ok 5 ∧
      (((New none).AddPoints none [0xFF] MetricXP 5).2.GetState [0xFF]).1.points.getD MetricXP 0 = 5 ∧
      ((New ((New none).AddPoints none [0xFF] MetricXP 5).2.file).GetState [0xFF]).1.points.getD
        MetricXP 0 = 0 := by
  decide

end GamifyKit.JsonFile
