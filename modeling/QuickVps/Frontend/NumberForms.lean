import QuickVps.Frontend.Preferences
import QuickVps.Server.Access
import QuickVps.Server.Durations

/-!
# The numbers of the settings page

The page has two inputs for numbers: the interval of the updates and the lifetime of a scan. A
number is put into the store of the tab and sent to the server; where the request fails, the store
gets the old one back. A page that is opened takes both numbers from the server.

* `handleSaveInterval`, `handleSaveCacheTtl`, `useServerInfo` — the page;
* `Settings`, `Settings.step` — any number of pages and the server, with requests on the way;
* `saved_everywhere` — no number that was sent is refused, the server has the one that it was sent
  last, and every page that is opened shows it.
-/

namespace QuickVps.Frontend

open Go

/-! ## The page -/

inductive NumberForm where
  | interval
  | cacheTtl
  deriving DecidableEq

namespace NumberForm

def endpoint : NumberForm → Server.Setting
  | interval => Server.intervalSetting
  | cacheTtl => Server.cacheSetting

def path : NumberForm → List Char
  | interval => "/api/interval".toList
  | cacheTtl => "/api/ncdu/cache".toList

/-- The least and the greatest number that is sent. -/
def bounds : NumberForm → Int × Int
  | interval => (250, 60000)
  | cacheTtl => (1, 3600)

/-- The member of the info. -/
def infoMember : NumberForm → String
  | interval => "interval_ms"
  | cacheTtl => "ncdu_cache_ttl_sec"

/-- The number in the store. -/
def value (p : Preferences) : NumberForm → ℚ
  | interval => p.updateIntervalMs
  | cacheTtl => p.ncduCacheTtlSec

def setting (x : ℚ) : NumberForm → Setting
  | interval => .updateIntervalMs x
  | cacheTtl => .ncduCacheTtlSec x

end NumberForm

section Page

variable (js : Js.Numbers)

/-- The number that is sent, and the store with it, if the text stands for a positive number. -/
def handleSave (form : NumberForm) (input : String) (p : Preferences) :
    Option (Int × Preferences) :=
  match js.number input with
  | none => none
  | some parsed =>
    if parsed ≤ 0 then none
    else
      let next := max form.bounds.1 (min form.bounds.2 (Js.round parsed))
      some (next, p.set (form.setting next))

def handleSaveInterval := handleSave js .interval

def handleSaveCacheTtl := handleSave js .cacheTtl

def NumberForm.handler : NumberForm → String → Preferences → Option (Int × Preferences)
  | interval => handleSaveInterval js
  | cacheTtl => handleSaveCacheTtl js

theorem NumberForm.unescape_path (form : NumberForm) : unescape form.path = some form.path := by
  cases form <;> decide

/-- The request with a number. -/
def NumberForm.request (form : NumberForm) (next : Int) : Server.Request where
  method := "PUT"
  escapedPath := form.path
  path := form.path
  parsed := form.unescape_path
  body := some (.obj [(form.endpoint.member, js.json next)])

end Page

/-- A member that is a number. The whole numbers that the server sends are numbers of JavaScript. -/
def numberMember (info : Json) (name : String) : Option ℚ :=
  match info.member name with
  | some (.int n) => some n
  | some (.float (.num x)) => some x
  | _ => none

def useServerInfo (info : Json) (p : Preferences) : Preferences :=
  let p :=
    match (numberMember info "interval_ms").filter fun ms => 0 < ms with
    | some ms => p.set (.updateIntervalMs ms)
    | none => p
  match (numberMember info "ncdu_cache_ttl_sec").filter fun sec => 0 < sec with
  | some sec => p.set (.ncduCacheTtlSec sec)
  | none =>
    match (numberMember info "ncdu_cache_ttl_ms").filter fun ms => 0 < ms with
    | some ms => p.set (.ncduCacheTtlSec (Js.round (roundFloat64 (ms / 1000))))
    | none => p

/-! ## Pages and the server -/

/-- A number on its way: the page that has sent it, the one that was there before, and the status of
the answer, if there is one. -/
structure Pending where
  page : Nat
  form : NumberForm
  next : Int
  prev : ℚ
  answer : Option Nat := none

/-- `handled` are the numbers that have reached the server, in their order. -/
structure Settings where
  server : Server.World × Server.Held
  pages : List Preferences
  pending : List Pending := []
  handled : List (NumberForm × Int) := []

/-- `fail` is a request that is lost, or its answer, or one that the session check refuses; `load`
is the request of a page for the info, with which it begins: the request, its handling and what the
page takes from the answer are one step. -/
inductive SettingsAction where
  | openPage (p : Preferences)
  | save (i : Nat) (form : NumberForm) (input : String)
  | deliver (k : Nat) (cs : List Server.Choice)
  | settle (k : Nat)
  | fail (k : Nat)
  | load (i : Nat) (cs : List Server.Choice)

namespace Settings

/-- The page gets the old number back. -/
def revert (s : Settings) (k : Nat) (r : Pending) : Settings :=
  { s with
    pages := s.pages.modify r.page fun p => p.set (r.form.setting r.prev)
    pending := s.pending.eraseIdx k }

variable {patterns : List (List Char)} (js : Js.Numbers) (srv : Server)
  (env : Server.Env patterns)

def step (s : Settings) : SettingsAction → Option Settings
  | .openPage p => some { s with pages := s.pages ++ [p] }
  | .save i form input =>
    (s.pages[i]?).map fun p =>
      match form.handler js input p with
      | none => s
      | some (next, p') =>
        { s with
          pages := s.pages.set i p'
          pending := s.pending ++
            [{ page := i, form := form, next := next, prev := form.value p }] }
  | .deliver k cs =>
    match s.pending[k]? with
    | some ⟨i, form, next, prev, none⟩ =>
      match (form.endpoint.handle (form.request js next)).run (Server.execHeld env) cs s.server with
      | some (resp, [], server) =>
        some
          { s with
            server := server
            pending := s.pending.set k ⟨i, form, next, prev, some resp.status⟩
            handled := s.handled ++ [(form, next)] }
      | _ => none
    | _ => none
  | .settle k =>
    match s.pending[k]? with
    | some ⟨i, form, next, prev, some status⟩ =>
      if 200 ≤ status ∧ status < 300 then some { s with pending := s.pending.eraseIdx k }
      else some (s.revert k ⟨i, form, next, prev, some status⟩)
    | _ => none
  | .fail k => (s.pending[k]?).map (s.revert k)
  | .load i cs =>
    match srv.handleInfo.run (Server.execHeld env) cs s.server with
    | some (resp, [], server) =>
      match resp.body with
      | .json info =>
        some { s with server := server, pages := s.pages.modify i (useServerInfo info) }
      | _ => some { s with server := server }
    | _ => none

end Settings

/-- The number that was handled last. -/
def NumberForm.last (form : NumberForm) (handled : List (NumberForm × Int)) : Option Int :=
  (handled.filterMap fun x => if x.1 = form then some x.2 else none).getLast?

/-! ## What the handlers do -/

/-- The operation sets this number of the server. -/
def NumberForm.SetBy : NumberForm → Server.Op → Prop
  | interval, op => ∃ d, op = .system (.setInterval d)
  | cacheTtl, op => ∃ d, op = .system (.setCacheTTL d)

section Handlers

variable {patterns : List (List Char)} {env : Server.Env patterns} {js : Js.Numbers} {srv : Server}

theorem execHeld_stored {form : NumberForm} {c : Server.Choice} {op : Server.Op} {r : op.Ans}
    {t t' : Server.World × Server.Held} (hop : ¬ form.SetBy op)
    (h : Server.execHeld env c op t = some (r, t')) :
    form.endpoint.stored t'.2 = form.endpoint.stored t.2 := by
  unfold Server.execHeld at h
  split at h
  next =>
    cases h
    rfl
  next interval =>
    cases h
    cases form with
    | interval => exact absurd ⟨interval, rfl⟩ hop
    | cacheTtl =>
      show (t.2.setInterval interval).2.cacheTTL = t.2.cacheTTL
      unfold Server.Held.setInterval
      split <;> rfl
  next =>
    cases h
    rfl
  next ttl =>
    cases h
    cases form with
    | interval =>
      show (t.2.setCacheTTL ttl).2.interval = t.2.interval
      unfold Server.Held.setCacheTTL
      split <;> rfl
    | cacheTtl => exact absurd ⟨ttl, rfl⟩ hop
  next =>
    obtain ⟨x, -, heq⟩ := Option.map_eq_some_iff.1 h
    cases heq
    rfl

theorem stored_of_only {α : Type} {form : NumberForm} {p : Server.M α}
    (hp : p.Only fun op => ¬ form.SetBy op) {cs cs' : List Server.Choice}
    {t t' : Server.World × Server.Held} {a : α}
    (h : p.run (Server.execHeld env) cs t = some (a, cs', t')) :
    form.endpoint.stored t'.2 = form.endpoint.stored t.2 := by
  refine hp.run_keeps (I := fun u => form.endpoint.stored u.2 = form.endpoint.stored t.2) ?_ h rfl
  intro c op u r u' hop hexec hu
  rw [execHeld_stored hop hexec, hu]

/-- A call of a handler, and then a response that depends on the answer. -/
theorem only_call {C : Server.Op → Prop} {call : Server.SystemCall}
    {f : call.Ans → Server.M Server.Response} (hcall : C (.system call))
    (hf : ∀ answer, (f answer).Only C) : (Server.system call >>= f).Only C :=
  (Prog.only_op hcall).bind hf

theorem only_handleInterval (r : Server.Request) :
    (Server.handleInterval r).Only fun op => ¬ NumberForm.cacheTtl.SetBy op := by
  have hother {call : Server.SystemCall} (h : ∀ ttl, call ≠ .setCacheTTL ttl) :
      ¬ NumberForm.cacheTtl.SetBy (.system call) := by
    rintro ⟨ttl, heq⟩
    exact h ttl (Server.Op.system.inj heq)
  unfold Server.handleInterval
  split_ifs
  · exact only_call (hother fun _ h => by cases h) fun _ => Prog.only_ret _
  · unfold Server.putInterval
    cases r.decode (Server.intField "interval_ms") 0 with
    | none => exact Prog.only_ret _
    | some intervalMS =>
      simp only
      split_ifs
      · exact Prog.only_ret _
      · refine only_call (hother fun _ h => by cases h) fun answer => ?_
        cases answer <;> exact Prog.only_ret _
  · exact Prog.only_ret _

theorem only_handleNcduCache (r : Server.Request) :
    (Server.handleNcduCache r).Only fun op => ¬ NumberForm.interval.SetBy op := by
  have hother {call : Server.SystemCall} (h : ∀ d, call ≠ .setInterval d) :
      ¬ NumberForm.interval.SetBy (.system call) := by
    rintro ⟨d, heq⟩
    exact h d (Server.Op.system.inj heq)
  unfold Server.handleNcduCache
  split_ifs
  · exact only_call (hother fun _ h => by cases h) fun _ => Prog.only_ret _
  · unfold Server.putCache
    cases r.decode (Server.intField "cache_ttl_sec") 0 with
    | none => exact Prog.only_ret _
    | some cacheTTLSec =>
      simp only
      split_ifs
      · exact Prog.only_ret _
      · refine only_call (hother fun _ h => by cases h) fun answer => ?_
        cases answer <;> exact Prog.only_ret _
  · exact Prog.only_ret _

/-- The handler of one number leaves the other one alone. -/
theorem only_handle {form other : NumberForm} (hne : other ≠ form) (r : Server.Request) :
    (form.endpoint.handle r).Only fun op => ¬ other.SetBy op := by
  cases form with
  | interval =>
    cases other with
    | interval => exact absurd rfl hne
    | cacheTtl => exact only_handleInterval r
  | cacheTtl =>
    cases other with
    | interval => exact only_handleNcduCache r
    | cacheTtl => exact absurd rfl hne

theorem NumberForm.works (form : NumberForm) : form.endpoint.Works env := by
  cases form with
  | interval => exact Server.works_interval
  | cacheTtl => exact Server.works_cache

/-- Within its bounds. -/
def NumberForm.Fits (form : NumberForm) (next : Int) : Prop :=
  form.bounds.1 ≤ next ∧ next ≤ form.bounds.2

theorem NumberForm.Fits.pos {form : NumberForm} {next : Int} (h : form.Fits next) :
    0 < next ∧ next ≤ 60000 := by
  obtain ⟨hlo, hhi⟩ := h
  cases form <;> simp only [NumberForm.bounds] at hlo hhi <;> omega

theorem NumberForm.Fits.unit {form : NumberForm} {next : Int} (h : form.Fits next) :
    0 < next * form.endpoint.unit ∧ next * form.endpoint.unit ≤ maxInt64 := by
  obtain ⟨hpos, hle⟩ := h.pos
  cases form with
  | interval =>
    show 0 < next * 1000000 ∧ next * 1000000 ≤ maxInt64
    unfold maxInt64
    omega
  | cacheTtl =>
    show 0 < next * 1000000000 ∧ next * 1000000000 ≤ maxInt64
    unfold maxInt64
    omega

/-- The text of such a number is read as the number. -/
theorem decode_request {form : NumberForm} {next : Int} (h : form.Fits next) :
    (form.request js next).decode (Server.intField form.endpoint.member) 0 = some next := by
  obtain ⟨hpos, hle⟩ := h.pos
  have hexact : Js.intLiteral (js.string next).toList = some next :=
    js.exact_of_natAbs_le (by omega)
  have hjson : js.json next = .int next := by
    unfold Js.Numbers.json
    rw [hexact]
  have hwrap : minInt64 ≤ next ∧ next ≤ maxInt64 := by
    unfold minInt64 maxInt64
    omega
  have hname : Json.foldName form.endpoint.member = form.endpoint.member := by
    cases form <;> decide
  unfold Server.Request.decode NumberForm.request
  simp [hjson, hname, hwrap, Json.decode, Server.intField, Json.orKeep, Json.readInt64]

/-- **A number that is sent is accepted**, and the server has it, in nanoseconds. -/
theorem handle_request {form : NumberForm} {next : Int} (h : form.Fits next)
    {cs cs' : List Server.Choice} {t t' : Server.World × Server.Held} {resp : Server.Response}
    (hrun : (form.endpoint.handle (form.request js next)).run (Server.execHeld env) cs t =
      some (resp, cs', t')) :
    resp.status = 200 ∧ form.endpoint.stored t'.2 = next * form.endpoint.unit ∧
      ∀ other ≠ form, other.endpoint.stored t'.2 = other.endpoint.stored t.2 := by
  obtain ⟨hpos, hle⟩ := h.unit
  have hwrap : wrap64 (next * form.endpoint.unit) = next * form.endpoint.unit :=
    (wrap64_eq_iff hpos.le).2 hle
  have hother : ∀ other ≠ form, other.endpoint.stored t'.2 = other.endpoint.stored t.2 :=
    fun other hne => stored_of_only (only_handle hne _) hrun
  rcases form.works.put _ next cs cs' t t' resp rfl (decode_request h) hrun with
    ⟨hrefused, -, -⟩ | ⟨-, -, hstatus, hstored⟩
  · rw [hwrap] at hrefused
    have := h.pos
    omega
  · rw [hwrap] at hstored
    exact ⟨hstatus, hstored, hother⟩

/-! ## The info -/

/-- Both numbers are left alone. -/
def KeepsHeld (op : Server.Op) : Prop := ∀ form : NumberForm, ¬ form.SetBy op

theorem keepsHeld_system {call : Server.SystemCall} (hinterval : ∀ d, call ≠ .setInterval d)
    (hcache : ∀ ttl, call ≠ .setCacheTTL ttl) : KeepsHeld (.system call) := by
  intro form
  cases form with
  | interval =>
    rintro ⟨d, heq⟩
    exact hinterval d (Server.Op.system.inj heq)
  | cacheTtl =>
    rintro ⟨ttl, heq⟩
    exact hcache ttl (Server.Op.system.inj heq)

theorem only_system {call : Server.SystemCall} (hinterval : ∀ d, call ≠ .setInterval d)
    (hcache : ∀ ttl, call ≠ .setCacheTTL ttl) : (Server.system call).Only KeepsHeld :=
  Prog.only_op (keepsHeld_system hinterval hcache)

theorem only_bind_system {α : Type} {call : Server.SystemCall} {f : call.Ans → Server.M α}
    (hinterval : ∀ d, call ≠ .setInterval d) (hcache : ∀ ttl, call ≠ .setCacheTTL ttl)
    (hf : ∀ answer, (f answer).Only KeepsHeld) : (Server.system call >>= f).Only KeepsHeld :=
  (only_system hinterval hcache).bind hf

theorem keepsHeld_alerts {α : Type} (p : Alerts.M α) : (Server.liftAlerts p).Only KeepsHeld := by
  refine Prog.only_lift ((Prog.only_true p).mono fun op _ form => ?_)
  cases form <;> rintro ⟨_, heq⟩ <;> cases heq

theorem keepsHeld_getLocalIPs : Server.getLocalIPs.Only KeepsHeld := by
  have hresolve (ip : String) : (Server.resolvePublicIP ip).Only KeepsHeld := by
    refine only_bind_system (by simp) (by simp) fun answer => ?_
    cases answer <;> exact Prog.only_ret _
  refine only_bind_system (by simp) (by simp) fun answer => ?_
  cases answer with
  | none => exact hresolve _
  | some ip =>
    simp only
    split_ifs
    · exact hresolve _
    · exact Prog.only_ret _

theorem keepsHeld_requiredPackagesStatus : Server.requiredPackagesStatus.Only KeepsHeld := by
  refine only_bind_system (by simp) (by simp) fun _ => ?_
  exact only_bind_system (by simp) (by simp) fun _ => Prog.only_ret _

theorem keepsHeld_requiredPackagesInstallCommand (missing : List String) :
    (Server.requiredPackagesInstallCommand missing).Only KeepsHeld := by
  unfold Server.requiredPackagesInstallCommand
  split_ifs
  · exact Prog.only_ret _
  · exact only_bind_system (by simp) (by simp) fun _ => Prog.only_ret _

theorem keepsHeld_alertsInfo : srv.alertsInfo.Only KeepsHeld := by
  unfold Server.alertsInfo
  split_ifs
  · refine (keepsHeld_alerts _).bind fun _ => ?_
    exact (keepsHeld_alerts _).bind fun _ => Prog.only_ret _
  · exact Prog.only_ret _

/-- The info shows both numbers, which the calls before and after their reading leave alone. -/
theorem run_handleInfo {cs cs' : List Server.Choice} {t t' : Server.World × Server.Held}
    {resp : Server.Response}
    (hrun : srv.handleInfo.run (Server.execHeld env) cs t = some (resp, cs', t')) :
    (∀ form : NumberForm, form.endpoint.stored t'.2 = form.endpoint.stored t.2) ∧
      ∃ info, resp.body = .json info ∧
        (∀ form : NumberForm, info.member form.infoMember =
          some (.int (form.endpoint.shown (form.endpoint.stored t.2)))) := by
  have same {α : Type} {p : Server.M α} (hp : p.Only KeepsHeld) {ds ds' : List Server.Choice}
      {u u' : Server.World × Server.Held} {a : α}
      (h : p.run (Server.execHeld env) ds u = some (a, ds', u')) (form : NumberForm) :
      form.endpoint.stored u'.2 = form.endpoint.stored u.2 :=
    stored_of_only (hp.mono fun _ hop => hop form) h
  unfold Server.handleInfo at hrun
  obtain ⟨hostname, cs₁, t₁, h₁, hrun⟩ := Prog.run_bind hrun
  obtain ⟨⟨localIP, publicIP⟩, cs₂, t₂, h₂, hrun⟩ := Prog.run_bind hrun
  obtain ⟨packages, cs₃, t₃, h₃, hrun⟩ := Prog.run_bind hrun
  obtain ⟨⟨enabled, readOnly, days⟩, cs₄, t₄, h₄, hrun⟩ := Prog.run_bind hrun
  obtain ⟨uptime, cs₅, t₅, h₅, hrun⟩ := Prog.run_bind hrun
  obtain ⟨interval, cs₆, t₆, h₆, hrun⟩ := Prog.run_bind hrun
  obtain ⟨cacheTTL, cs₇, t₇, h₇, hrun⟩ := Prog.run_bind hrun
  obtain ⟨dnsServers, cs₈, t₈, h₈, hrun⟩ := Prog.run_bind hrun
  obtain ⟨installCmd, cs₉, t₉, h₉, hrun⟩ := Prog.run_bind hrun
  obtain ⟨rfl, -, rfl⟩ := Prog.run_ret hrun
  have hbefore (form : NumberForm) : form.endpoint.stored t₅.2 = form.endpoint.stored t.2 := by
    rw [same (only_system (by simp) (by simp)) h₅, same keepsHeld_alertsInfo h₄,
      same keepsHeld_requiredPackagesStatus h₃, same keepsHeld_getLocalIPs h₂,
      same (only_system (by simp) (by simp)) h₁]
  obtain ⟨c₆, -, hinterval⟩ := Prog.run_op h₆
  cases hinterval
  obtain ⟨c₇, -, hcache⟩ := Prog.run_op h₇
  cases hcache
  have hafter (form : NumberForm) : form.endpoint.stored t'.2 = form.endpoint.stored t₅.2 := by
    rw [same (keepsHeld_requiredPackagesInstallCommand _) h₉,
      same (only_system (by simp) (by simp)) h₈]
  refine ⟨fun form => (hafter form).trans (hbefore form), _, rfl, fun form => ?_⟩
  rw [← hbefore form]
  cases form with
  | interval => rfl
  | cacheTtl => rfl

end Handlers

/-! ## The two numbers of a page -/

theorem fits_of_handler {js : Js.Numbers} {form : NumberForm} {input : String}
    {p p' : Preferences} {next : Int} (h : form.handler js input p = some (next, p')) :
    form.Fits next := by
  have hsave : form.handler js input p = handleSave js form input p := by cases form <;> rfl
  rw [hsave] at h
  unfold handleSave at h
  split at h
  · cases h
  · split_ifs at h
    cases h
    have hle : form.bounds.1 ≤ form.bounds.2 := by cases form <;> decide
    exact ⟨le_max_left _ _, max_le hle (min_le_left _ _)⟩

theorem numberMember_int {info : Json} {name : String} {n : Int}
    (h : info.member name = some (.int n)) (hpos : 0 < n) :
    (numberMember info name).filter (fun x => 0 < x) = some (n : ℚ) := by
  have hnumber : numberMember info name = some (n : ℚ) := by
    unfold numberMember
    rw [h]
  rw [hnumber]
  exact if_pos (by simpa using hpos)

/-- A page that has got the info shows the number in it. -/
theorem value_useServerInfo {info : Json} {form : NumberForm} {n : Int}
    (hmember : info.member form.infoMember = some (.int n)) (hn : form.bounds.1 ≤ n)
    (p : Preferences) : form.value (useServerInfo info p) = n := by
  have hpos : 0 < n := by
    cases form <;> simp only [NumberForm.bounds] at hn <;> omega
  have hfound := numberMember_int hmember hpos
  unfold useServerInfo
  cases form with
  | interval =>
    simp only [NumberForm.infoMember] at hfound
    simp only [hfound]
    have hmax : max 250 (n : ℚ) = n := max_eq_right (by exact_mod_cast hn)
    split
    · exact hmax
    · split <;> exact hmax
  | cacheTtl =>
    simp only [NumberForm.infoMember] at hfound
    simp only [hfound]
    have hmax : max 1 (n : ℚ) = n := max_eq_right (by exact_mod_cast hn)
    exact hmax

/-- A number that fits is kept by the storage of the browser as well. -/
theorem kept_setting {form : NumberForm} {next : Int} (h : form.Fits next) :
    (form.setting next).Kept := by
  obtain ⟨hpos, hle⟩ := h.pos
  have hdouble : Js.IsDouble next := Js.isDouble_int (by omega)
  cases form with
  | interval => exact hdouble
  | cacheTtl => exact ⟨hdouble, .inr (Rat.den_intCast next)⟩

/-! ## All pages -/

section Run

variable {patterns : List (List Char)} {js : Js.Numbers} {srv : Server}
  {env : Server.Env patterns}

/-- What is on the way fits and was accepted, and the server has what it was sent last. -/
structure Settings.Sound (start : Server.Held) (s : Settings) : Prop where
  fits : ∀ r ∈ s.pending, r.form.Fits r.next
  accepted : ∀ r ∈ s.pending, r.answer = none ∨ r.answer = some 200
  handled : ∀ x ∈ s.handled, x.1.Fits x.2
  stored : ∀ form : NumberForm, form.endpoint.stored s.server.2 =
    ((form.last s.handled).map (· * form.endpoint.unit)).getD (form.endpoint.stored start)

theorem last_concat (handled : List (NumberForm × Int)) (form form' : NumberForm) (next : Int) :
    form.last (handled ++ [(form', next)]) =
      if form' = form then some next else form.last handled := by
  unfold NumberForm.last
  rw [List.filterMap_append]
  by_cases hform : form' = form
  · simp [hform]
  · simp [hform]

variable {start : Server.Held} {s s' : Settings}

theorem Settings.Sound.erase (hs : s.Sound start) (k : Nat) {pages : List Preferences} :
    Settings.Sound start { s with pages := pages, pending := s.pending.eraseIdx k } where
  fits r hr := hs.fits r (List.mem_of_mem_eraseIdx hr)
  accepted r hr := hs.accepted r (List.mem_of_mem_eraseIdx hr)
  handled := hs.handled
  stored := hs.stored

theorem sound_save (hs : s.Sound start) {i : Nat} {form : NumberForm} {input : String}
    (h : s.step js srv env (.save i form input) = some s') : s'.Sound start := by
  obtain ⟨p, -, rfl⟩ := Option.map_eq_some_iff.1 h
  cases hsave : form.handler js input p with
  | none => exact hs
  | some sent =>
    obtain ⟨next, p'⟩ := sent
    refine ⟨fun r hr => ?_, fun r hr => ?_, hs.handled, hs.stored⟩
    · rcases List.mem_append.1 hr with hr | hr
      · exact hs.fits r hr
      · rw [List.mem_singleton.1 hr]
        exact fits_of_handler hsave
    · rcases List.mem_append.1 hr with hr | hr
      · exact hs.accepted r hr
      · rw [List.mem_singleton.1 hr]
        exact .inl rfl

theorem sound_deliver (hs : s.Sound start) {k : Nat} {cs : List Server.Choice}
    (h : s.step js srv env (.deliver k cs) = some s') : s'.Sound start := by
  simp only [Settings.step] at h
  split at h
  next i form next prev hk =>
    split at h
    next resp server hrun =>
      cases h
      have hfits : form.Fits next := hs.fits _ (List.mem_of_getElem? hk)
      obtain ⟨hstatus, hstored, hother⟩ := handle_request hfits hrun
      refine ⟨fun r hr => ?_, fun r hr => ?_, fun x hx => ?_, fun form' => ?_⟩
      · rcases List.mem_or_eq_of_mem_set hr with hr | rfl
        · exact hs.fits r hr
        · exact hfits
      · rcases List.mem_or_eq_of_mem_set hr with hr | rfl
        · exact hs.accepted r hr
        · exact .inr (congrArg some hstatus)
      · rcases List.mem_append.1 hx with hx | hx
        · exact hs.handled x hx
        · rw [List.mem_singleton.1 hx]
          exact hfits
      · show form'.endpoint.stored server.2 = _
        rw [last_concat]
        by_cases hform : form' = form
        · subst hform
          rw [if_pos rfl, hstored]
          rfl
        · rw [if_neg (Ne.symm hform), hother form' hform]
          exact hs.stored form'
    next => cases h
  next => cases h

theorem sound_load (hs : s.Sound start) {i : Nat} {cs : List Server.Choice}
    (h : s.step js srv env (.load i cs) = some s') : s'.Sound start := by
  simp only [Settings.step] at h
  split at h
  next resp server hrun =>
    have hsame := (run_handleInfo hrun).1
    have hstored (form : NumberForm) : form.endpoint.stored server.2 =
        ((form.last s.handled).map (· * form.endpoint.unit)).getD (form.endpoint.stored start) :=
      (hsame form).trans (hs.stored form)
    split at h <;> cases h <;> exact ⟨hs.fits, hs.accepted, hs.handled, hstored⟩
  next => cases h

theorem sound_step {a : SettingsAction} (hs : s.Sound start)
    (h : s.step js srv env a = some s') : s'.Sound start := by
  cases a with
  | openPage p =>
    cases h
    exact ⟨hs.fits, hs.accepted, hs.handled, hs.stored⟩
  | save i form input => exact sound_save hs h
  | deliver k cs => exact sound_deliver hs h
  | settle k =>
    simp only [Settings.step] at h
    split at h
    · split_ifs at h
      · cases h
        exact hs.erase k
      · cases h
        exact hs.erase k
    · cases h
  | fail k =>
    obtain ⟨r, -, rfl⟩ := Option.map_eq_some_iff.1 h
    exact hs.erase k
  | load i cs => exact sound_load hs h

/-- The page that loads the info shows what the server was sent last. -/
theorem shown_of_load (hs : s.Sound start) {i : Nat} {cs : List Server.Choice}
    (h : s.step js srv env (.load i cs) = some s') {p : Preferences} (hp : s'.pages[i]? = some p)
    {form : NumberForm} {next : Int} (hlast : form.last s.handled = some next) :
    form.value p = next := by
  simp only [Settings.step] at h
  split at h
  next resp server hrun =>
    obtain ⟨-, info, hbody, hmember⟩ := run_handleInfo hrun
    rw [hbody] at h
    cases h
    rw [List.getElem?_modify_eq] at hp
    obtain ⟨q, -, rfl⟩ := Option.map_eq_some_iff.1 hp
    have hfits : form.Fits next := by
      obtain ⟨x, hx, hnext⟩ := List.mem_filterMap.1 (List.mem_of_getLast? hlast)
      split_ifs at hnext with hform
      cases hnext
      exact hform ▸ hs.handled x hx
    obtain ⟨hpos, hle⟩ := hfits.unit
    have hstored := hs.stored form
    rw [hlast] at hstored
    have hinfo := hmember form
    rw [hstored] at hinfo
    have hworks : form.endpoint.Works env := form.works
    have hshown : form.endpoint.shown (next * form.endpoint.unit) = next :=
      hworks.exact next hfits.pos.1 hle
    refine value_useServerInfo ?_ hfits.1 q
    rw [hinfo]
    exact congrArg (fun n => some (Json.int n)) hshown
  next => cases h

/-- **A number that was saved is everywhere.** In every run of pages and server, whatever is lost:
an answer takes no number back, so only a lost request does; every number that the server was sent
fits, so the storage of the browser keeps it too; the server has the last one, exactly; and a page
that loads the info shows it. -/
theorem saved_everywhere {server : Server.World × Server.Held} {acts : List SettingsAction}
    (h : Lts.run (Settings.step js srv env) { server := server, pages := [] } acts = some s) :
    (∀ k s', s.step js srv env (.settle k) = some s' → s'.pages = s.pages) ∧
      (∀ x ∈ s.handled, x.1.Fits x.2 ∧ (x.1.setting x.2).Kept) ∧
      (∀ form : NumberForm, form.endpoint.stored s.server.2 =
        ((form.last s.handled).map (· * form.endpoint.unit)).getD
          (form.endpoint.stored server.2)) ∧
      ∀ i cs s' p (form : NumberForm) next, s.step js srv env (.load i cs) = some s' →
        s'.pages[i]? = some p → form.last s.handled = some next → form.value p = next := by
  have hstart : Settings.Sound server.2 { server := server, pages := [] } :=
    ⟨by simp, by simp, by simp, fun form => rfl⟩
  have hs := Lts.invariant (fun _ _ _ => sound_step) hstart h
  refine ⟨fun k s' hk => ?_, fun x hx => ⟨hs.handled x hx, kept_setting (hs.handled x hx)⟩,
    hs.stored, fun i cs s' p form next hload hp hlast => shown_of_load hs hload hp hlast⟩
  simp only [Settings.step] at hk
  split at hk
  next i form next prev status hpending =>
    have hanswer : some status = none ∨ some status = some 200 :=
      hs.accepted _ (List.mem_of_getElem? hpending)
    have hstatus : status = 200 := by simpa using hanswer
    subst hstatus
    cases hk
    rfl
  next => cases hk

end Run

def homeServer : Server where
  authDisabled := true
  sessions := ⟨1000, false⟩
  hasAlerts := false

def defaultPreferences : Preferences := load Js.exactNumbers fun _ => none

/-- A new server, and one page that has sent half a second. -/
def halfSecondSent : Settings where
  server := Server.begun
  pages := [defaultPreferences.set (.updateIntervalMs (500 : Int))]
  pending := [{ page := 0, form := .interval, next := 500, prev := 2000 }]

/-- A second page is opened after the answer. -/
def halfSecond : List SettingsAction :=
  [.openPage defaultPreferences, .save 0 .interval "500", .deliver 0 [{}], .settle 0,
    .openPage defaultPreferences]

def halfSecondSaved : Settings :=
  (Lts.run (Settings.step Js.exactNumbers homeServer Server.plainEnv) halfSecondSent
    [.deliver 0 [{}], .settle 0, .openPage defaultPreferences]).getD halfSecondSent

theorem run_halfSecond :
    Lts.run (Settings.step Js.exactNumbers homeServer Server.plainEnv)
      { server := Server.begun, pages := [] } halfSecond = some halfSecondSaved := by
  have hround : max 250 (min 60000 (Js.round 500)) = 500 := by
    rw [show Js.round 500 = 500 from Js.round_int 500]
    rfl
  have hsave : handleSaveInterval Js.exactNumbers "500" defaultPreferences =
      some (500, defaultPreferences.set (.updateIntervalMs (500 : Int))) := by
    have hnumber : Js.exactNumbers.number "500" = some 500 := rfl
    have hpos : ¬ (500 : ℚ) ≤ 0 := by norm_num
    unfold handleSaveInterval handleSave
    simp only [hnumber, if_neg hpos, NumberForm.bounds, hround]
    rfl
  have hopen : Settings.step Js.exactNumbers homeServer Server.plainEnv
      { server := Server.begun, pages := [] } (.openPage defaultPreferences) =
        some { server := Server.begun, pages := [defaultPreferences] } := rfl
  have hpage : [defaultPreferences][0]? = some defaultPreferences := rfl
  have hsent : Settings.step Js.exactNumbers homeServer Server.plainEnv
      { server := Server.begun, pages := [defaultPreferences] } (.save 0 .interval "500") =
        some halfSecondSent := by
    simp only [Settings.step, hpage, Option.map_some, NumberForm.handler, hsave]
    rfl
  rw [halfSecond, Lts.run_cons, hopen, Option.bind_some, Lts.run_cons, hsent, Option.bind_some]
  rfl

theorem saved_everywhere_halfSecond :
    (∀ k s', halfSecondSaved.step Js.exactNumbers homeServer Server.plainEnv (.settle k) = some s' →
        s'.pages = halfSecondSaved.pages) ∧
      (∀ x ∈ halfSecondSaved.handled, x.1.Fits x.2 ∧ (x.1.setting x.2).Kept) ∧
      (∀ form : NumberForm, form.endpoint.stored halfSecondSaved.server.2 =
        ((form.last halfSecondSaved.handled).map (· * form.endpoint.unit)).getD
          (form.endpoint.stored Server.begun.2)) ∧
      ∀ i cs s' p (form : NumberForm) next,
        halfSecondSaved.step Js.exactNumbers homeServer Server.plainEnv (.load i cs) = some s' →
          s'.pages[i]? = some p → form.last halfSecondSaved.handled = some next →
            form.value p = next :=
  saved_everywhere run_halfSecond

end QuickVps.Frontend
