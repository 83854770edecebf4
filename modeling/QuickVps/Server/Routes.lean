import QuickVps.Server.Handlers

/-!
# Routes and the session middleware

The patterns that `registerRoutes` gives to the mux, the middleware in front of it, and the response
of the server to a request.

* `Route` — the registered handlers with their patterns;
* `isPublicPath`, `sessionAuthMiddleware` — the check of the cookie, for all paths but the public
  ones;
* `serve` — the handling of a request, with the handler that ran and the session in its context.
-/

namespace QuickVps.Server

open Go

/-! ## The registered handlers -/

inductive Route where
  | ws
  | info
  | authLogin
  | authLogout
  | authMe
  | users
  | userByID
  | userAudit
  | interval
  | metrics
  | ports
  | portByID
  | ncduScan
  | ncduCache
  | ncduStatus
  | alertsConfig
  | alertsStatus
  | alertsHistory
  | alertsTest
  | alertsSilence
  | firewallStatus
  | firewallRules
  | firewallExposures
  | packagesInventory
  | packagesUpdates
  | spa
  deriving DecidableEq

namespace Route

def pattern : Route → String
  | ws => "/ws"
  | info => "/api/info"
  | authLogin => "/api/auth/login"
  | authLogout => "/api/auth/logout"
  | authMe => "/api/auth/me"
  | users => "/api/users"
  | userByID => "/api/users/"
  | userAudit => "/api/audit/users"
  | interval => "/api/interval"
  | metrics => "/api/metrics"
  | ports => "/api/ports"
  | portByID => "/api/ports/"
  | ncduScan => "/api/ncdu/scan"
  | ncduCache => "/api/ncdu/cache"
  | ncduStatus => "/api/ncdu/status"
  | alertsConfig => "/api/alerts/config"
  | alertsStatus => "/api/alerts/status"
  | alertsHistory => "/api/alerts/history"
  | alertsTest => "/api/alerts/test"
  | alertsSilence => "/api/alerts/silence"
  | firewallStatus => "/api/firewall/status"
  | firewallRules => "/api/firewall/rules"
  | firewallExposures => "/api/firewall/exposures"
  | packagesInventory => "/api/packages/inventory"
  | packagesUpdates => "/api/packages/updates"
  | spa => "/"

/-- In the order of `registerRoutes`. -/
def all : List Route :=
  [ws, info, authLogin, authLogout, authMe, users, userByID, userAudit, interval, metrics, ports,
    portByID, ncduScan, ncduCache, ncduStatus, alertsConfig, alertsStatus, alertsHistory,
    alertsTest, alertsSilence, firewallStatus, firewallRules, firewallExposures,
    packagesInventory, packagesUpdates, spa]

def path (route : Route) : List Char := route.pattern.toList

/-- The route that is registered under a pattern. -/
def find (pattern : List Char) : Option Route := all.find? fun route => route.path = pattern

theorem path_of_find {pattern : List Char} {route : Route} (h : find pattern = some route) :
    route.path = pattern := by
  have := List.find?_some h
  simpa using this

end Route

def patterns : List (List Char) := Route.all.map Route.path

theorem rooted_patterns : ∀ q ∈ patterns, q.head? = some '/' := by decide

/-- The mux of `http.NewServeMux`. -/
def mux : ServeMux patterns := serveMux patterns rooted_patterns

/-- The packages of this model, for runs of it. -/
def plainEnv : Env patterns := ⟨Auth.plainBcrypt, Alerts.plainHttp, Alerts.plainCrypto, mux⟩

variable (s : Server) (env : Env patterns)

def handle (route : Route) (r : Request) (ctx : Context) : M Response :=
  match route with
  | .ws => handleWS
  | .info => s.handleInfo
  | .authLogin => liftAuth (s.handleAuthLogin env.bcrypt r)
  | .authLogout => liftAuth (s.handleAuthLogout r)
  | .authMe => liftAuth (s.handleAuthMe r ctx)
  | .users => liftAuth (s.handleUsers r ctx)
  | .userByID => liftAuth (s.handleUserByID r ctx)
  | .userAudit => liftAuth (s.handleUserAudit r ctx)
  | .interval => handleInterval r
  | .metrics => handleMetrics
  | .ports => handlePorts r
  | .portByID => handlePortByID r
  | .ncduScan => handleNcduScan r
  | .ncduCache => handleNcduCache r
  | .ncduStatus => handleNcduStatus
  | .alertsConfig => s.handleAlertsConfig env.crypto r ctx
  | .alertsStatus => s.handleAlertsStatus r
  | .alertsHistory => s.handleAlertsHistory r
  | .alertsTest => s.handleAlertsTest r ctx
  | .alertsSilence => s.handleAlertsSilence r ctx
  | .firewallStatus => s.handleFirewallStatus r
  | .firewallRules => s.handleFirewallRules r
  | .firewallExposures => s.handleFirewallExposures r
  | .packagesInventory => s.handlePackagesInventory r
  | .packagesUpdates => s.handlePackagesUpdates r
  | .spa => spaHandler r

/-! ## The handling of a request -/

/-- The response, and the registered handler that ran, if one did, with the session in its
context. -/
structure Served where
  response : Response
  ran : Option (Route × Context)

/-- `ServeHTTP` of the mux. -/
def serveMuxHTTP (r : Request) (ctx : Context) : M Served :=
  if r.escapedPath = ['*'] then return ⟨⟨400, .text "", none⟩, none⟩
  else
    match env.mux.dispatch r.method r.escapedPath with
    | .redirect path => return ⟨⟨301, .redirect path, none⟩, none⟩
    | .notFound => return ⟨httpError 404 "404 page not found", none⟩
    | .handler pattern =>
      match Route.find pattern with
      | none => return ⟨httpError 404 "404 page not found", none⟩
      | some route => do
        let response ← s.handle env route r ctx
        return ⟨response, some (route, ctx)⟩

def isPublicPath (path : List Char) : Bool :=
  if path = "/api/auth/login".toList then true
  else !("/api/".toList.isPrefixOf path) && path ≠ "/ws".toList

def writeUnauthorized : Response := writeError 401 "unauthorized"

def sessionAuthMiddleware (next : Request → Context → M Served) (r : Request) : M Served :=
  if isPublicPath r.path then next r none
  else
    match r.cookie with
    | none => return ⟨writeUnauthorized, none⟩
    | some token => do
      match ← liftAuth (s.sessions.get token) with
      | none => return ⟨writeUnauthorized, none⟩
      | some session => next r (some session)

/-- `Handler`, applied to a request. -/
def serve (r : Request) : M Served :=
  if s.authDisabled then s.serveMuxHTTP env r none
  else s.sessionAuthMiddleware (s.serveMuxHTTP env) r

/-! ## What ran -/

variable {s env}

theorem Route.mem_all (route : Route) : route ∈ Route.all := by
  cases route <;> decide

/-- Behind the middleware either no handler runs, or the one that the mux finds. -/
theorem serveMuxHTTP_cases {ex : Choice → (op : Op) → World → Option (op.Ans × World)}
    {r : Request} {ctx : Context} {cs cs' : List Choice} {w w' : World} {out : Served}
    (h : (s.serveMuxHTTP env r ctx).run ex cs w = some (out, cs', w')) :
    (out.ran = none ∧ w' = w ∧ (r.escapedPath = ['*'] ∨
        ∀ route : Route, env.mux.dispatch r.method r.escapedPath ≠ .handler route.path)) ∨
      ∃ route : Route, out.ran = some (route, ctx) ∧ r.escapedPath ≠ ['*'] ∧
        env.mux.dispatch r.method r.escapedPath = .handler route.path ∧
        (s.handle env route r ctx).run ex cs w = some (out.response, cs', w') := by
  unfold serveMuxHTTP at h
  split_ifs at h with hstar
  · obtain ⟨rfl, -, rfl⟩ := Prog.run_ret h
    exact .inl ⟨rfl, rfl, .inl hstar⟩
  · cases hdispatch : env.mux.dispatch r.method r.escapedPath with
    | redirect path =>
      simp only [hdispatch] at h
      obtain ⟨rfl, -, rfl⟩ := Prog.run_ret h
      exact .inl ⟨rfl, rfl, .inr fun route hroute => by cases hroute⟩
    | notFound =>
      simp only [hdispatch] at h
      obtain ⟨rfl, -, rfl⟩ := Prog.run_ret h
      exact .inl ⟨rfl, rfl, .inr fun route hroute => by cases hroute⟩
    | handler pattern =>
      simp only [hdispatch] at h
      cases hfind : Route.find pattern with
      | none =>
        simp only [hfind] at h
        obtain ⟨rfl, -, rfl⟩ := Prog.run_ret h
        refine .inl ⟨rfl, rfl, .inr fun route hroute => ?_⟩
        cases hroute
        have hnot := List.find?_eq_none.1 hfind route route.mem_all
        exact hnot (by simp)
      | some route =>
        simp only [hfind] at h
        obtain ⟨response, ds, t, hhandle, hret⟩ := Prog.run_bind h
        obtain ⟨rfl, rfl, rfl⟩ := Prog.run_ret hret
        exact .inr ⟨route, rfl, hstar, by rw [Route.path_of_find hfind], hhandle⟩

/-- A handler that ran is the one registered under a pattern that matches the path. -/
theorem matches_of_serveMuxHTTP {ex : Choice → (op : Op) → World → Option (op.Ans × World)}
    {r : Request} {ctx : Context} {cs cs' : List Choice} {w w' : World} {out : Served}
    {route : Route} {ctx' : Context}
    (h : (s.serveMuxHTTP env r ctx).run ex cs w = some (out, cs', w'))
    (hran : out.ran = some (route, ctx')) :
    ctx' = ctx ∧ Matches route.path r.path ∧
      (s.handle env route r ctx).run ex cs w = some (out.response, cs', w') := by
  rcases serveMuxHTTP_cases h with ⟨hnone, -⟩ | ⟨route', hsome, -, hdispatch, hhandle⟩
  · rw [hnone] at hran
    cases hran
  · rw [hsome] at hran
    cases hran
    exact ⟨rfl, (env.mux.handles hdispatch r.parsed).2, hhandle⟩

end QuickVps.Server
