import QuickVps.Alerts.Calls
import QuickVps.Server.Calls

/-!
# Who may do what

In auth mode a handler of the API runs with a session that was accepted for the cookie of its
request, and only an administrator changes anything but sessions.

* `session_of_ran` — a guarded handler runs after `Get` has accepted the cookie, with that session
  in its context;
* `Op.Reads` — the calls that change nothing;
* `HandlerEffect` — what a handler may do to the sessions when no administrator asks;
* `unchanged_of_not_admin` — a request that is not an administrator's changes nothing else.
-/

namespace QuickVps.Server

open Go

/-! ## Sessions before handlers -/

/-- Registered under `/api/` or as `/ws`, and not the login. -/
def Route.Guarded (route : Route) : Prop :=
  ("/api/".toList <+: route.path ∨ route.path = "/ws".toList) ∧ route ≠ .authLogin

instance (route : Route) : Decidable route.Guarded := inferInstanceAs (Decidable (_ ∧ _))

/-- The two matchers agree: a path that a guarded pattern matches is not public. -/
theorem not_public_of_matches {route : Route} {path : List Char} (hguarded : route.Guarded)
    (h : Matches route.path path) : isPublicPath path = false := by
  rcases h with rfl | ⟨hsub, hprefix⟩
  · revert hguarded
    cases route <;> decide
  · -- A subtree below `/api/` that does not contain the login.
    have hroute : "/api/".toList <+: route.path ∧ ¬ route.path <+: "/api/auth/login".toList := by
      revert hguarded hsub
      cases route <;> decide
    have hlogin : path ≠ "/api/auth/login".toList := by
      rintro rfl
      exact hroute.2 hprefix
    have hapi : "/api/".toList.isPrefixOf path = true :=
      List.isPrefixOf_iff_prefix.2 (hroute.1.trans hprefix)
    rw [isPublicPath, if_neg hlogin, hapi]
    rfl

section

variable {s : Server} {env : Env patterns} {r : Request} {cs cs' : List Choice} {w w' : World}
  {out : Served}

/-- What the middleware does with a request for a path that is not public. -/
theorem middleware_cases {ex : Choice → (op : Op) → World → Option (op.Ans × World)}
    (hauth : s.authDisabled = false) (hpath : isPublicPath r.path = false)
    (h : (s.serve env r).run ex cs w = some (out, cs', w')) :
    (r.cookie = none ∧ out.ran = none ∧ w' = w) ∨
      ∃ token found ds t, r.cookie = some token ∧
        (liftAuth (s.sessions.get token)).run ex cs w = some (found, ds, t) ∧
        (found = none ∧ out.ran = none ∧ w' = t ∨
          ∃ x, found = some x ∧
            (s.serveMuxHTTP env r (some x)).run ex ds t = some (out, cs', w')) := by
  rw [serve, if_neg (by simp [hauth]), sessionAuthMiddleware, if_neg (by simp [hpath])] at h
  cases hcookie : r.cookie with
  | none =>
    simp only [hcookie] at h
    obtain ⟨rfl, -, rfl⟩ := Prog.run_ret h
    exact .inl ⟨rfl, rfl, rfl⟩
  | some token =>
    simp only [hcookie] at h
    obtain ⟨found, ds, t, hget, hnext⟩ := Prog.run_bind h
    refine .inr ⟨token, found, ds, t, rfl, hget, ?_⟩
    cases found with
    | none =>
      obtain ⟨rfl, -, rfl⟩ := Prog.run_ret hnext
      exact .inl ⟨rfl, rfl, rfl⟩
    | some x => exact .inr ⟨x, rfl, hnext⟩

/-- **No handler of the API runs without a session.** In auth mode, a guarded handler that ran did
so after `Get` had accepted the cookie of the request, with the accepted session in its context. -/
theorem session_of_ran {route : Route} {ctx : Context} (hauth : s.authDisabled = false)
    (h : (s.serve env r).run (exec env) cs w = some (out, cs', w'))
    (hran : out.ran = some (route, ctx)) (hguarded : route.Guarded) :
    ∃ token x ds t, r.cookie = some token ∧
      (liftAuth (s.sessions.get token)).run (exec env) cs w = some (some x, ds, t) ∧
      ctx = some x ∧
      (s.handle env route r ctx).run (exec env) ds t = some (out.response, cs', w') := by
  cases hpath : isPublicPath r.path with
  | true =>
    rw [serve, if_neg (by simp [hauth]), sessionAuthMiddleware, if_pos hpath] at h
    obtain ⟨-, hmatches, -⟩ := matches_of_serveMuxHTTP h hran
    rw [not_public_of_matches hguarded hmatches] at hpath
    cases hpath
  | false =>
    rcases middleware_cases hauth hpath h with ⟨-, hnone, -⟩ |
      ⟨token, found, ds, t, hcookie, hget, ⟨-, hnone, -⟩ | ⟨x, rfl, hnext⟩⟩
    · rw [hnone] at hran
      cases hran
    · rw [hnone] at hran
      cases hran
    · obtain ⟨rfl, -, hhandle⟩ := matches_of_serveMuxHTTP hnext hran
      exact ⟨token, x, ds, t, hcookie, hget, rfl, hhandle⟩

end

def bobsSession : Auth.Session := ⟨"b", 2, "bob", .viewer, 1000⟩

/-- A server in auth mode, on which a viewer is logged in. -/
def privateAlerts : Server where
  authDisabled := false
  sessions := ⟨1000, true⟩
  hasAlerts := true

def bobSignedIn : World where
  auth :=
    { Auth.World.empty with
      memory := fun token => if token = "b" then some bobsSession else none }
  alerts := .fresh Alerts.defaultConfig ⟨"", "", ""⟩

def bobReadsStatus : Request where
  method := "GET"
  escapedPath := "/api/alerts/status".toList
  path := "/api/alerts/status".toList
  cookie := some "b"

theorem session_of_ran_bobReadsStatus :
    ∃ out cs' w',
      (privateAlerts.serve plainEnv bobReadsStatus).run (exec plainEnv) [{}, {}, {}, {}]
        bobSignedIn = some (out, cs', w') ∧
      ∃ token x ds t, bobReadsStatus.cookie = some token ∧
        (liftAuth (privateAlerts.sessions.get token)).run (exec plainEnv) [{}, {}, {}, {}]
          bobSignedIn = some (some x, ds, t) ∧
        some bobsSession = some x ∧
        (privateAlerts.handle plainEnv .alertsStatus bobReadsStatus (some bobsSession)).run
          (exec plainEnv) ds t = some (out.response, cs', w') :=
  ⟨_, _, _, rfl, session_of_ran rfl rfl rfl (by decide)⟩

/-! ## Calls that only read -/

def Op.Reads : Op → Prop
  | .auth op => op.Reads
  | .alerts op => op.Reads
  | .system _ => True

section

variable {α : Type} {env : Env patterns} {cs cs' : List Choice} {w w' : World} {a : α}

/-- A call of the authentication code does what it does alone. -/
theorem exec_auth {c : Choice} {op : Auth.Op} {r : op.Ans}
    (h : exec env c (.auth op) w = some (r, w')) :
    Auth.exec env.bcrypt c.auth op w.auth = some (r, w'.auth) ∧
      w' = { w with auth := w'.auth } := by
  obtain ⟨⟨r, u⟩, hexec, heq⟩ := Option.map_eq_some_iff.1 h
  cases heq
  exact ⟨hexec, rfl⟩

theorem Op.Reads.exec_eq {c : Choice} {op : Op} {r : op.Ans} (hop : op.Reads)
    (h : exec env c op w = some (r, w')) : w' = w := by
  cases op with
  | auth op =>
    obtain ⟨hexec, hw'⟩ := exec_auth h
    rw [hw', Auth.Op.Reads.exec_eq hop hexec]
  | alerts op =>
    obtain ⟨⟨r, u⟩, hexec, heq⟩ := Option.map_eq_some_iff.1 h
    cases heq
    obtain rfl := Alerts.Op.Reads.exec_eq hop hexec
    rfl
  | system call =>
    cases h
    rfl

/-- A run of such calls changes nothing. -/
theorem eq_of_reads {p : M α} (hp : p.Only Op.Reads)
    (h : p.run (exec env) cs w = some (a, cs', w')) : w' = w :=
  hp.run_keeps (I := fun t => t = w)
    (fun _ _ _ _ _ hop hexec hw => (hop.exec_eq hexec).trans hw) h rfl

/-! ## Calls that affect the sessions -/

/-- Everything but the sessions is the same. -/
def SameButSessions (w w' : World) : Prop :=
  ∃ sessions memory, w' = { w with auth := { w.auth with sessions := sessions, memory := memory } }

theorem SameButSessions.refl (w : World) : SameButSessions w w := ⟨_, _, rfl⟩

theorem SameButSessions.trans {w w' w'' : World} (h : SameButSessions w w')
    (h' : SameButSessions w' w'') : SameButSessions w w'' := by
  obtain ⟨_, _, rfl⟩ := h
  obtain ⟨_, _, rfl⟩ := h'
  exact ⟨_, _, rfl⟩

/-- A program of the authentication code runs as it does alone. -/
theorem run_liftAuth {p : Auth.M α} (h : (liftAuth p).run (exec env) cs w = some (a, cs', w')) :
    p.run (Auth.exec env.bcrypt) (cs.map Choice.auth) w.auth =
      some (a, cs'.map Choice.auth, w'.auth) :=
  Prog.run_lift (fun _ _ _ _ _ hexec => (exec_auth hexec).1) h

theorem same_of_harmless {p : Auth.M α} (hp : p.Only Auth.Op.Harmless)
    (h : (liftAuth p).run (exec env) cs w = some (a, cs', w')) : SameButSessions w w' := by
  have hlift : (liftAuth p).Only fun e => ∃ op, e = .auth op ∧ op.Harmless :=
    Prog.only_lift (hp.mono fun op hop => ⟨op, rfl, hop⟩)
  refine hlift.run_keeps (I := SameButSessions w) ?_ h (.refl w)
  rintro c _ t r t' ⟨op, rfl, hop⟩ hexec hw
  obtain ⟨hexec, ht'⟩ := exec_auth hexec
  obtain ⟨sessions, memory, hauth⟩ := hop.exec_eq hexec
  refine hw.trans ⟨sessions, memory, ?_⟩
  rw [ht', hauth]

/-- What the check of the cookie may do to the sessions: expired ones are removed. -/
def CheckEffect (cs : List Choice) (w w' : World) : Prop :=
  w' = w ∨ ∃ c ∈ cs, w.auth.Ages c.auth.now w'.auth

theorem effect_get {s : Server} {token : String} {found : Option Auth.Session}
    (h : (liftAuth (s.sessions.get token)).run (exec env) cs w = some (found, cs', w')) :
    SameButSessions w w' ∧ CheckEffect cs w w' := by
  refine ⟨same_of_harmless ((s.sessions.only_get token).mono fun _ => .inr) h, ?_⟩
  obtain ⟨_, hmem, hages⟩ := Auth.SessionManager.run_get (run_liftAuth h)
  obtain ⟨c, hc, rfl⟩ := List.mem_map.1 hmem
  exact .inr ⟨c, hc, hages⟩

end

/-! ## Handlers -/

section

variable {s : Server} {env : Env patterns} {r : Request} {ctx : Context}

theorem Op.OnHost.reads {op : Op} (h : op.OnHost) : op.Reads := by
  cases op with
  | system call => trivial
  | _ => exact h.elim

theorem reads_liftAuth {α : Type} {p : Auth.M α} (hp : p.Only Auth.Op.Reads) :
    (liftAuth p).Only Op.Reads := Prog.only_lift hp

theorem reads_liftAlerts {α : Type} {p : Alerts.M α} (hp : p.Only Alerts.Op.Reads) :
    (liftAlerts p).Only Op.Reads := Prog.only_lift hp

theorem reads_alertsInfo : s.alertsInfo.Only Op.Reads := by
  unfold alertsInfo
  split_ifs
  · refine (reads_liftAlerts Alerts.only_isEnabled).bind fun _ => ?_
    exact (reads_liftAlerts Alerts.only_historyRetentionDays).bind fun _ => Prog.only_ret _
  · exact Prog.only_ret _

theorem reads_handleInfo : s.handleInfo.Only Op.Reads := by
  have host {α : Type} {p : M α} (hp : p.Only Op.OnHost) : p.Only Op.Reads :=
    hp.mono fun _ => Op.OnHost.reads
  unfold handleInfo
  refine (host (onHost_system _)).bind fun _ => (host onHost_getLocalIPs).bind fun _ => ?_
  refine (host onHost_requiredPackagesStatus).bind fun _ => reads_alertsInfo.bind fun _ => ?_
  refine (host (onHost_system _)).bind fun _ => (host (onHost_system _)).bind fun _ => ?_
  refine (host (onHost_system _)).bind fun _ => (host (onHost_system _)).bind fun _ => ?_
  exact (host (onHost_requiredPackagesInstallCommand _)).bind fun _ => Prog.only_ret _

theorem reads_handleAlertsStatus : (s.handleAlertsStatus r).Only Op.Reads := by
  unfold handleAlertsStatus
  split_ifs
  · exact Prog.only_ret _
  · exact Prog.only_ret _
  · exact (reads_liftAlerts (Alerts.only_status _)).bind fun _ => Prog.only_ret _

theorem reads_handleAlertsHistory : (s.handleAlertsHistory r).Only Op.Reads := by
  unfold handleAlertsHistory
  split_ifs
  · exact Prog.only_ret _
  · exact Prog.only_ret _
  · cases parseLimit r 50 with
    | none => exact Prog.only_ret _
    | some limit =>
      cases parseBeforeID r with
      | none => exact Prog.only_ret _
      | some beforeID =>
        refine (reads_liftAlerts (Alerts.only_listHistory _ _)).bind fun answer => ?_
        cases answer <;> exact Prog.only_ret _

/-! ### Refusals -/

theorem refused_of_not_admin (hadmin : ¬ s.IsAdmin ctx) :
    ∃ refusal, s.requireAdmin ctx = .error refusal := by
  cases h : s.requireAdmin ctx with
  | error refusal => exact ⟨refusal, rfl⟩
  | ok user => exact absurd (isAdmin_of_requireAdmin h) hadmin

theorem mutation_refused_of_not_admin (hadmin : ¬ s.IsAdmin ctx) :
    ∃ refusal, s.requireAlertMutationAccess ctx = .error refusal := by
  cases h : s.requireAlertMutationAccess ctx with
  | error refusal => exact ⟨refusal, rfl⟩
  | ok => exact absurd (isAdmin_of_requireAlertMutationAccess h) hadmin

theorem reads_accounts (hadmin : ¬ s.IsAdmin ctx) :
    (s.handleUsers r ctx).Only Auth.Op.Reads ∧
      (s.handleUserByID r ctx).Only Auth.Op.Reads ∧
        (s.handleUserAudit r ctx).Only Auth.Op.Reads := by
  obtain ⟨refusal, hrefusal⟩ := refused_of_not_admin hadmin
  refine ⟨?_, ?_, ?_⟩
  · rw [handleUsers, hrefusal]
    exact Prog.only_ret _
  · rw [handleUserByID, hrefusal]
    exact Prog.only_ret _
  · rw [handleUserAudit, hrefusal]
    exact Prog.only_ret _

theorem reads_handleAlertsConfig (hadmin : ¬ s.IsAdmin ctx) :
    (s.handleAlertsConfig env.crypto r ctx).Only Op.Reads := by
  obtain ⟨refusal, hrefusal⟩ := mutation_refused_of_not_admin hadmin
  unfold handleAlertsConfig
  split_ifs
  · exact Prog.only_ret _
  · exact (reads_liftAlerts (Alerts.only_configView _)).bind fun _ => Prog.only_ret _
  · rw [putAlertsConfig, hrefusal]
    exact Prog.only_ret _
  · exact Prog.only_ret _

theorem reads_handleAlertsTest (hadmin : ¬ s.IsAdmin ctx) :
    (s.handleAlertsTest r ctx).Only Op.Reads := by
  obtain ⟨refusal, hrefusal⟩ := mutation_refused_of_not_admin hadmin
  unfold handleAlertsTest
  rw [hrefusal]
  split_ifs <;> exact Prog.only_ret _

theorem reads_handleAlertsSilence (hadmin : ¬ s.IsAdmin ctx) :
    (s.handleAlertsSilence r ctx).Only Op.Reads := by
  obtain ⟨refusal, hrefusal⟩ := mutation_refused_of_not_admin hadmin
  unfold handleAlertsSilence
  split_ifs
  · exact Prog.only_ret _
  · rw [postSilence, hrefusal]
    exact Prog.only_ret _
  · rw [deleteSilence, hrefusal]
    exact Prog.only_ret _
  · exact Prog.only_ret _

/-- The handlers that may touch a session. -/
def Route.onSession (route : Route) : Prop := route = .authLogin ∨ route = .authLogout

/-- Without an administrator's session in the context the other handlers only read. -/
theorem reads_handle (hadmin : ¬ s.IsAdmin ctx) {route : Route} (hroute : ¬ route.onSession) :
    (s.handle env route r ctx).Only Op.Reads := by
  by_cases hhost : route.onHost = true
  · exact (onHost_handle hhost r ctx).mono fun _ => Op.OnHost.reads
  cases route with
  | info => exact reads_handleInfo
  | authLogin => exact absurd (.inl rfl) hroute
  | authLogout => exact absurd (.inr rfl) hroute
  | authMe => exact reads_liftAuth (only_handleAuthMe r ctx)
  | users => exact reads_liftAuth (reads_accounts hadmin).1
  | userByID => exact reads_liftAuth (reads_accounts hadmin).2.1
  | userAudit => exact reads_liftAuth (reads_accounts hadmin).2.2
  | alertsConfig => exact reads_handleAlertsConfig hadmin
  | alertsStatus => exact reads_handleAlertsStatus
  | alertsHistory => exact reads_handleAlertsHistory
  | alertsTest => exact reads_handleAlertsTest hadmin
  | alertsSilence => exact reads_handleAlertsSilence hadmin
  | _ => exact absurd rfl hhost

/-- What the handler that ran may do to the sessions: a login opens one, a logout removes that of
the cookie, and no other handler changes anything. -/
def HandlerEffect (r : Request) (w w' : World) : Option Route → Prop
  | some .authLogin => ∃ touched, w.auth.SameBut touched w'.auth
  | some .authLogout => w.auth.SameBut r.cookie w'.auth
  | _ => w' = w

section

variable {cs cs' : List Choice} {w w' : World} {out : Served}

theorem HandlerEffect.refl (r : Request) (w : World) (route : Option Route) :
    HandlerEffect r w w route := by
  unfold HandlerEffect
  split
  · exact ⟨none, .refl _ _⟩
  · exact .refl _ _
  · rfl

theorem effect_handle (hadmin : ¬ s.IsAdmin ctx) (route : Route) {resp : Response}
    (h : (s.handle env route r ctx).run (exec env) cs w = some (resp, cs', w')) :
    SameButSessions w w' ∧ HandlerEffect r w w' (some route) := by
  by_cases hroute : route.onSession
  · rcases hroute with rfl | rfl
    · exact ⟨same_of_harmless (only_handleAuthLogin r) h, run_handleAuthLogin (run_liftAuth h)⟩
    · exact ⟨same_of_harmless (only_handleAuthLogout r) h, run_handleAuthLogout (run_liftAuth h)⟩
  · obtain rfl := eq_of_reads (reads_handle hadmin hroute) h
    exact ⟨.refl _, .refl _ _ _⟩

theorem effect_serveMuxHTTP (hadmin : ¬ s.IsAdmin ctx)
    (h : (s.serveMuxHTTP env r ctx).run (exec env) cs w = some (out, cs', w')) :
    SameButSessions w w' ∧ HandlerEffect r w w' (out.ran.map Prod.fst) := by
  rcases serveMuxHTTP_cases h with ⟨-, rfl, -⟩ | ⟨route, hran, -, -, hhandle⟩
  · exact ⟨.refl _, .refl _ _ _⟩
  · rw [hran]
    exact effect_handle hadmin route hhandle

end

theorem not_isAdmin_none : ¬ s.IsAdmin none := by
  rintro ⟨-, x, hx, -⟩
  cases hx

/-! ### Requests -/

/-- The request carries a cookie that `Get` accepts now, for a session of an administrator. -/
def AdminRequest (s : Server) (env : Env patterns) (r : Request) (cs : List Choice) (w : World) :
    Prop :=
  s.authDisabled = false ∧ ∃ token x ds t, r.cookie = some token ∧
    (liftAuth (s.sessions.get token)).run (exec env) cs w = some (some x, ds, t) ∧
      x.role = .admin

/-- **Only administrators change protected state.** Without auth, without an accepted cookie, or
with that of another user, a request leaves everything but the sessions as it is. The check of the
cookie removes expired ones, and after it only a login and a logout touch any. -/
theorem unchanged_of_not_admin {cs cs' : List Choice} {w w' : World} {out : Served}
    (hadmin : ¬ s.AdminRequest env r cs w)
    (h : (s.serve env r).run (exec env) cs w = some (out, cs', w')) :
    SameButSessions w w' ∧ ∃ t, CheckEffect cs w t ∧
      HandlerEffect r t w' (out.ran.map Prod.fst) := by
  have direct (hnone : (s.serveMuxHTTP env r none).run (exec env) cs w = some (out, cs', w')) :
      SameButSessions w w' ∧ ∃ t, CheckEffect cs w t ∧
        HandlerEffect r t w' (out.ran.map Prod.fst) := by
    obtain ⟨hsame, heffect⟩ := effect_serveMuxHTTP not_isAdmin_none hnone
    exact ⟨hsame, w, .inl rfl, heffect⟩
  cases hauth : s.authDisabled with
  | true =>
    rw [serve, if_pos hauth] at h
    exact direct h
  | false =>
    cases hpath : isPublicPath r.path with
    | true =>
      rw [serve, if_neg (by simp [hauth]), sessionAuthMiddleware, if_pos hpath] at h
      exact direct h
    | false =>
      rcases middleware_cases hauth hpath h with ⟨-, -, rfl⟩ |
        ⟨token, found, ds, t, hcookie, hget, hnext⟩
      · exact ⟨.refl _, w', .inl rfl, .refl _ _ _⟩
      obtain ⟨hsame, hcheck⟩ := effect_get hget
      rcases hnext with ⟨-, -, rfl⟩ | ⟨x, rfl, hrun⟩
      · exact ⟨hsame, w', hcheck, .refl _ _ _⟩
      · have hrole : ¬ s.IsAdmin (some x) := by
          rintro ⟨-, y, hy, hrole⟩
          cases hy
          exact hadmin ⟨hauth, token, x, ds, t, hcookie, hget, hrole⟩
        obtain ⟨hsame', heffect⟩ := effect_serveMuxHTTP hrole hrun
        exact ⟨hsame.trans hsame', t, hcheck, heffect⟩

end

def bobMutes : Request where
  method := "POST"
  escapedPath := "/api/alerts/silence".toList
  path := "/api/alerts/silence".toList
  cookie := some "b"
  body := some (.obj [("minutes", .int 60)])

theorem unchanged_of_not_admin_bobMutes :
    ∃ out cs' w',
      (privateAlerts.serve plainEnv bobMutes).run (exec plainEnv) [{}, {}] bobSignedIn =
        some (out, cs', w') ∧ out.response.status = 403 ∧ SameButSessions bobSignedIn w' ∧
          ∃ t, CheckEffect [{}, {}] bobSignedIn t ∧
            HandlerEffect bobMutes t w' (out.ran.map Prod.fst) := by
  have hadmin : ¬ privateAlerts.AdminRequest plainEnv bobMutes [{}, {}] bobSignedIn := by
    rintro ⟨-, token, x, ds, t, hcookie, hget, hrole⟩
    cases hcookie
    have hbob : (liftAuth (privateAlerts.sessions.get "b")).run (exec plainEnv) [{}, {}]
        bobSignedIn = some (some bobsSession, [], bobSignedIn) := rfl
    rw [hbob] at hget
    cases hget
    cases hrole
  exact ⟨_, _, _, rfl, rfl, unchanged_of_not_admin hadmin rfl⟩

end QuickVps.Server
