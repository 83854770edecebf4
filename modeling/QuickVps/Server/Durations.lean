import QuickVps.Go.Rounding
import QuickVps.Metrics.Collector
import QuickVps.Server.Routes

/-!
# The interval and the lifetime of the cache

`PUT /api/interval` and `PUT /api/ncdu/cache` take a number of milliseconds or seconds, scale it to
a `time.Duration` by a product that wraps, and store it in the collector or in the runner.

* `Held`, `execHeld` — what the two keep, and the operations on it;
* `Setting` — one of the two endpoints; `Setting.Works` — what its handler does (`works_interval`,
  `works_cache`);
* `wholeSeconds_mul` — whole seconds are printed exactly.

**Main result.** `stored_exactly_iff`: an accepted number is stored and shown exactly unless its
product wraps to another positive duration. `interval_wraps`: it can.
-/

namespace Go

theorem wrap64_eq_iff {x : Int} (h : 0 ≤ x) : wrap64 x = x ↔ x ≤ maxInt64 := by
  refine ⟨fun heq => heq ▸ wrap64_le x, fun hle => wrap64_eq ?_ hle⟩
  simp only [minInt64]
  omega

/-- The low 64 bits of a number, read as an `int64`, are positive. -/
theorem wrap64_pos_iff (x : Int) :
    0 < wrap64 x ↔
      0 < x % 18446744073709551616 ∧ x % 18446744073709551616 < 9223372036854775808 := by
  rw [wrap64, Int.bmod_def]
  split_ifs <;> omega

/-- **Whole seconds are printed exactly** as long as a `float64` holds them. -/
theorem wholeSeconds_mul {n : Int} (hn : 0 ≤ n) (hlt : n < 2 ^ 53) :
    wholeSeconds (n * 1000000000) = n := by
  obtain ⟨k, rfl⟩ := Int.eq_ofNat_of_zero_le hn
  have hk : k < 2 ^ 53 := by exact_mod_cast hlt
  have hround : roundFloat64 (((k : ℤ) : ℚ)) = k := by
    rw [Int.cast_natCast]
    exact roundFloat64_natCast hk
  unfold wholeSeconds
  rw [Int.mul_ediv_cancel _ (by decide), Int.mul_emod_left, hround]
  simp only [Int.cast_zero, zero_div, roundFloat64_zero, add_zero, roundFloat64_natCast hk]
  exact_mod_cast Rat.floor_intCast (k : ℤ)

end Go

namespace QuickVps.Server

open Go

variable {patterns : List (List Char)} {env : Env patterns} {cs cs' : List Choice}

/-! ## What is kept -/

/-- The collector and the runner of the server. -/
structure Held where
  collector : Metrics.Collector
  runner : Ncdu.State

def Held.interval (h : Held) : Int := h.collector.interval

/-- The rest of `SetInterval` passes the value on to the ticker. -/
def Held.setInterval (h : Held) (interval : Int) : Except String Unit × Held :=
  match h.collector.setInterval interval with
  | (some err, collector) => (.error err, { h with collector := collector })
  | (none, collector) => (.ok (), { h with collector := collector })

def Held.cacheTTL (h : Held) : Int := h.runner.runner.cacheTTL

def Held.setCacheTTL (h : Held) (ttl : Int) : Except String Unit × Held :=
  match h.runner.setCacheTTL ttl with
  | none => (.error "cache ttl must be greater than zero", h)
  | some runner => (.ok (), { h with runner := runner })

/-- The calls that read and write these two work on them; the others are the environment's. -/
def execHeld (env : Env patterns) (c : Choice) (op : Op) (s : World × Held) :
    Option (op.Ans × (World × Held)) :=
  match op with
  | .system .interval => some (s.2.interval, s)
  | .system (.setInterval interval) =>
    some ((s.2.setInterval interval).1, (s.1, (s.2.setInterval interval).2))
  | .system .cacheTTL => some (s.2.cacheTTL, s)
  | .system (.setCacheTTL ttl) => some ((s.2.setCacheTTL ttl).1, (s.1, (s.2.setCacheTTL ttl).2))
  | op => (exec env c op s.1).map fun r => (r.1, (r.2, s.2))

theorem setInterval_refused (h : Held) {interval : Int} (hle : interval ≤ 0) :
    ∃ err, h.setInterval interval = (.error err, h) := by
  unfold Held.setInterval Metrics.Collector.setInterval
  rw [if_pos hle]
  exact ⟨_, rfl⟩

theorem setInterval_ok (h : Held) {interval : Int} (hpos : 0 < interval) :
    (h.setInterval interval).1 = .ok () ∧ (h.setInterval interval).2.interval = interval := by
  unfold Held.setInterval Metrics.Collector.setInterval
  rw [if_neg (not_le.2 hpos)]
  split_ifs with hsame
  · exact ⟨rfl, hsame⟩
  · exact ⟨rfl, rfl⟩

theorem setCacheTTL_refused (h : Held) {ttl : Int} (hle : ttl ≤ 0) :
    ∃ err, h.setCacheTTL ttl = (.error err, h) := by
  unfold Held.setCacheTTL Ncdu.State.setCacheTTL
  rw [if_pos hle]
  exact ⟨_, rfl⟩

theorem setCacheTTL_ok (h : Held) {ttl : Int} (hpos : 0 < ttl) :
    (h.setCacheTTL ttl).1 = .ok () ∧ (h.setCacheTTL ttl).2.cacheTTL = ttl := by
  unfold Held.setCacheTTL Ncdu.State.setCacheTTL
  rw [if_neg (not_le.2 hpos)]
  exact ⟨rfl, rfl⟩

/-- A number is refused, or scaled and set, which is refused or stores the product. -/
theorem scaled_cases {set : Held → Int → Except String Unit × Held} {stored : Held → Int}
    (hrefused : ∀ h d, d ≤ 0 → ∃ err, set h d = (.error err, h))
    (hok : ∀ h d, 0 < d → (set h d).1 = .ok () ∧ stored (set h d).2 = d)
    {n d : Int} {invalid : String} {call : M (Except String Unit)} {v : Json}
    {answer : Except String Unit → M Response} {s s' : World × Held} {resp : Response}
    (hcall : ∀ {x ds t}, call.run (execHeld env) cs s = some (x, ds, t) →
      x = (set s.2 d).1 ∧ t = (s.1, (set s.2 d).2))
    (herror : ∀ err, answer (.error err) = Prog.ret (writeError 400 err))
    (hanswer : answer (.ok ()) = Prog.ret (writeJSON 200 v))
    (hrun : (if n ≤ 0 then return writeError 400 invalid else call >>= answer).run
      (execHeld env) cs s = some (resp, cs', s')) :
    (n ≤ 0 ∨ d ≤ 0) ∧ resp.status = 400 ∧ s' = s ∨
      0 < n ∧ 0 < d ∧ resp.status = 200 ∧ stored s'.2 = d := by
  by_cases hn : n ≤ 0
  · rw [if_pos hn] at hrun
    obtain ⟨rfl, -, rfl⟩ := Prog.run_ret hrun
    exact .inl ⟨.inl hn, rfl, rfl⟩
  rw [if_neg hn] at hrun
  obtain ⟨x, ds, t, hset, hrest⟩ := Prog.run_bind hrun
  obtain ⟨rfl, rfl⟩ := hcall hset
  by_cases hd : d ≤ 0
  · obtain ⟨err, herr⟩ := hrefused s.2 d hd
    rw [herr, herror] at hrest
    obtain ⟨rfl, -, rfl⟩ := Prog.run_ret hrest
    exact .inl ⟨.inr hd, rfl, rfl⟩
  · rw [not_le] at hn hd
    obtain ⟨hset, hstored⟩ := hok s.2 d hd
    rw [hset, hanswer] at hrest
    obtain ⟨rfl, -, rfl⟩ := Prog.run_ret hrest
    exact .inr ⟨hn, hd, rfl, hstored⟩

/-! ## The two endpoints -/

/-- An endpoint: the member with the number, the nanoseconds of its unit, the handler, what is
stored, and the number that is shown for it. -/
structure Setting where
  member : String
  unit : Int
  handle : Request → M Response
  stored : Held → Int
  shown : Int → Int

def intervalSetting : Setting where
  member := "interval_ms"
  unit := 1000000
  handle := handleInterval
  stored := Held.interval
  shown d := d.tdiv 1000000

def cacheSetting : Setting where
  member := "cache_ttl_sec"
  unit := 1000000000
  handle := handleNcduCache
  stored := Held.cacheTTL
  shown := wholeSeconds

/-- A `GET` is answered with this number. -/
def Setting.Shows (st : Setting) (env : Env patterns) (s : World × Held) (n : Int) : Prop :=
  ∀ (r : Request) (c : Choice), r.method = "GET" →
    ∃ v, (st.handle r).run (execHeld env) [c] s = some (writeJSON 200 v, [], s) ∧
      v.member st.member = some (.int n)

theorem shows_iff {st : Setting} {s : World × Held} (view : Int → Json)
    (hget : ∀ (r : Request) (c : Choice), r.method = "GET" →
      (st.handle r).run (execHeld env) [c] s = some (writeJSON 200 (view (st.stored s.2)), [], s))
    (hview : ∀ d, (view d).member st.member = some (.int (st.shown d))) (n : Int) :
    st.Shows env s n ↔ st.shown (st.stored s.2) = n := by
  constructor
  · intro hshows
    let get : Request := { method := "GET", escapedPath := ['/'], path := ['/'] }
    obtain ⟨v, hrun, hmember⟩ := hshows get {} rfl
    rw [hget get {} rfl] at hrun
    cases hrun
    rw [hview] at hmember
    exact Json.int.inj (Option.some.inj hmember)
  · rintro rfl r c hr
    exact ⟨_, hget r c hr, hview _⟩

/-- What the handler of an endpoint does. -/
structure Setting.Works (st : Setting) (env : Env patterns) : Prop where
  /-- A `PUT` is refused and changes nothing, or the wrapped product is stored. -/
  put : ∀ (r : Request) (n : Int) (cs cs' : List Choice) (s s' : World × Held) (resp : Response),
    r.method = "PUT" → r.decode (intField st.member) 0 = some n →
    (st.handle r).run (execHeld env) cs s = some (resp, cs', s') →
      (n ≤ 0 ∨ wrap64 (n * st.unit) ≤ 0) ∧ resp.status = 400 ∧ s' = s ∨
        0 < n ∧ 0 < wrap64 (n * st.unit) ∧ resp.status = 200 ∧
          st.stored s'.2 = wrap64 (n * st.unit)
  get : ∀ (s : World × Held) (n : Int), st.Shows env s n ↔ st.shown (st.stored s.2) = n
  exact : ∀ n, 0 < n → n * st.unit ≤ maxInt64 → st.shown (n * st.unit) = n

theorem works_interval : intervalSetting.Works env where
  put := by
    intro r n cs cs' s s' resp hput hdecode hrun
    have hhandle : handleInterval r = putInterval r := by
      unfold handleInterval
      rw [hput]
      rfl
    change (handleInterval r).run _ _ _ = _ at hrun
    change r.decode (intField "interval_ms") 0 = _ at hdecode
    rw [hhandle] at hrun
    unfold putInterval at hrun
    simp only [hdecode] at hrun
    refine scaled_cases (fun h d => setInterval_refused h) (fun h d => setInterval_ok h) ?_
      (fun err => rfl) rfl hrun
    intro x ds t hcall
    obtain ⟨c, -, hexec⟩ := Prog.run_op hcall
    cases hexec
    exact ⟨rfl, rfl⟩
  get := by
    intro s n
    have hget (r : Request) (c : Choice) (hr : r.method = "GET") :
        (handleInterval r).run (execHeld env) [c] s =
          some (writeJSON 200 (intervalJSON s.2.interval), [], s) := by
      unfold handleInterval
      rw [if_pos hr]
      rfl
    exact shows_iff intervalJSON hget (fun d => rfl) n
  exact := by
    intro n hpos hle
    exact Int.mul_tdiv_cancel n (by decide)

theorem works_cache : cacheSetting.Works env where
  put := by
    intro r n cs cs' s s' resp hput hdecode hrun
    have hhandle : handleNcduCache r = putCache r := by
      unfold handleNcduCache
      rw [hput]
      rfl
    change (handleNcduCache r).run _ _ _ = _ at hrun
    change r.decode (intField "cache_ttl_sec") 0 = _ at hdecode
    rw [hhandle] at hrun
    unfold putCache at hrun
    simp only [hdecode] at hrun
    refine scaled_cases (fun h d => setCacheTTL_refused h) (fun h d => setCacheTTL_ok h) ?_
      (fun err => rfl) rfl hrun
    intro x ds t hcall
    obtain ⟨c, -, hexec⟩ := Prog.run_op hcall
    cases hexec
    exact ⟨rfl, rfl⟩
  get := by
    intro s n
    have hget (r : Request) (c : Choice) (hr : r.method = "GET") :
        (handleNcduCache r).run (execHeld env) [c] s =
          some (writeJSON 200 (cacheJSON s.2.cacheTTL), [], s) := by
      unfold handleNcduCache
      rw [if_pos hr]
      rfl
    exact shows_iff cacheJSON hget (fun d => rfl) n
  exact := by
    intro n hpos hle
    refine wholeSeconds_mul hpos.le ?_
    change n * 1000000000 ≤ maxInt64 at hle
    simp only [maxInt64] at hle
    omega

/-! ## Exactly what is stored -/

/-- An accepted number is stored exactly and shown again; a refused one changes nothing. -/
structure Setting.StoredExactly (st : Setting) (env : Env patterns) (n : Int) (s s' : World × Held)
    (resp : Response) : Prop where
  accepted : resp.status = 200 → st.stored s'.2 = n * st.unit ∧ st.Shows env s' n
  refused : resp.status ≠ 200 → st.stored s'.2 = st.stored s.2

/-- **Main result.** For every number that a request gives: it is stored and shown exactly, or
refused without a change, if and only if it is not positive, or its product is a duration, or its
product wraps to a duration that is not positive. -/
theorem stored_exactly_iff {st : Setting} (hst : st = intervalSetting ∨ st = cacheSetting)
    {r : Request} {n : Int} (hput : r.method = "PUT")
    (hdecode : r.decode (intField st.member) 0 = some n) {s s' : World × Held} {resp : Response}
    (hrun : (st.handle r).run (execHeld env) cs s = some (resp, cs', s')) :
    st.StoredExactly env n s s' resp ↔
      n ≤ 0 ∨ n * st.unit ≤ maxInt64 ∨ n * st.unit % 18446744073709551616 = 0 ∨
        9223372036854775808 ≤ n * st.unit % 18446744073709551616 := by
  have hworks : st.Works env := by
    rcases hst with rfl | rfl
    · exact works_interval
    · exact works_cache
  have hunit : 0 < st.unit := by
    rcases hst with rfl | rfl <;> decide
  have hwrap := wrap64_pos_iff (n * st.unit)
  rcases hworks.put r n cs cs' s s' resp hput hdecode hrun with
    ⟨hrefused, hstatus, rfl⟩ | ⟨hn, hpos, hstatus, hstored⟩
  · refine iff_of_true ⟨fun hok => ?_, fun _ => rfl⟩ ?_
    · rw [hstatus] at hok
      cases hok
    · rcases hrefused with hn | hnot
      · exact .inl hn
      · have := Int.emod_nonneg (n * st.unit) (by decide : (18446744073709551616 : Int) ≠ 0)
        have := mt hwrap.2 (not_lt.2 hnot)
        omega
  · have hproduct : 0 ≤ n * st.unit := (Int.mul_pos hn hunit).le
    constructor
    · intro hexact
      have heq := hstored.symm.trans (hexact.accepted hstatus).1
      exact .inr (.inl ((wrap64_eq_iff hproduct).1 heq))
    · intro hcond
      have hfits : n * st.unit ≤ maxInt64 := by
        have := hwrap.1 hpos
        omega
      have hsame : st.stored s'.2 = n * st.unit :=
        hstored.trans ((wrap64_eq_iff hproduct).2 hfits)
      refine ⟨fun _ => ⟨hsame, ?_⟩, fun hnot => absurd hstatus hnot⟩
      rw [hworks.get, hsame]
      exact hworks.exact n hn hfits

/-! ### Runs -/

/-- A new server, with the two durations at their defaults. -/
def begun : World × Held :=
  ({ auth := Auth.World.empty, alerts := Alerts.World.fresh Alerts.defaultConfig ⟨"", "", ""⟩ },
    { collector := Metrics.newCollector 2000000000, runner := Ncdu.newRunner })

/-- A request that sets a duration. -/
def putNumber (st : Setting) (n : Int) : Request :=
  { method := "PUT", escapedPath := ['/'], path := ['/'],
    body := some (.obj [(st.member, .int n)]) }

theorem stored_exactly_1500 :
    ∃ resp s',
      (handleInterval (putNumber intervalSetting 1500)).run (execHeld plainEnv) [{}] begun =
        some (resp, [], s') ∧ s'.2.interval = 1500000000 ∧
      intervalSetting.StoredExactly plainEnv 1500 begun s' resp :=
  ⟨_, _, rfl, rfl, (stored_exactly_iff (.inl rfl) rfl rfl
    (rfl : (intervalSetting.handle (putNumber intervalSetting 1500)).run (execHeld plainEnv) [{}]
      begun = some _)).2 (.inr (.inl (by decide)))⟩

/-- **The product of an accepted number wraps** to less than half a millisecond, and to less than a
third of a second. -/
theorem interval_wraps :
    (∃ resp s', (handleInterval (putNumber intervalSetting 18446744073710)).run (execHeld plainEnv)
        [{}] begun = some (resp, [], s') ∧ resp.status = 200 ∧ s'.2.interval = 448384 ∧
      ¬ intervalSetting.StoredExactly plainEnv 18446744073710 begun s' resp) ∧
    ∃ resp s', (handleNcduCache (putNumber cacheSetting 18446744074)).run (execHeld plainEnv)
        [{}] begun = some (resp, [], s') ∧ resp.status = 200 ∧ s'.2.cacheTTL = 290448384 ∧
      ¬ cacheSetting.StoredExactly plainEnv 18446744074 begun s' resp :=
  ⟨⟨_, _, rfl, rfl, rfl, fun h => absurd (h.accepted rfl).1 (by decide)⟩,
    ⟨_, _, rfl, rfl, rfl, fun h => absurd (h.accepted rfl).1 (by decide)⟩⟩

end QuickVps.Server
