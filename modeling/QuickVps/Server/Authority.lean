import QuickVps.Server.Access
import QuickVps.Server.Genuine
import QuickVps.Server.TokenSecrecy

/-!
# Authority

Requests, snapshots and cleanups in any interleaving: every call of a request beyond a login, a
logout, the check of a cookie and the files of the web page is made for a session that this request
has presented, and every change for the session of an administrator. The session is one that was
there at the start, or that a login has created since.

* `Op.Open`, `Op.Common` — what anyone may call, and what every user may.
* `Allowed` — a call of a request, after the calls before it; `follows_serve`.
* `LoggedIn` — a login whose password was compared has created the session; `sound_run`.
* `calls_authorized` — so every call of a request goes back to a login.
-/

namespace QuickVps.Server

open Go
open Auth (Past)

/-! ## Who may call what -/

/-- A call that is made for anyone. -/
def Op.Open : Op → Prop
  | .auth (.sql (.selectUserByName _)) => True
  | .auth op => op.OnSession
  | .system (.serveFile _) => True
  | _ => False

/-- A call that is made for every user; on the users and the alerts it changes nothing. -/
def Op.Common : Op → Prop
  | .alerts op => op.Reads
  | .system _ => True
  | op => op.Open

/-- A call outside the authentication code. -/
def Op.Outside : Op → Prop
  | .auth _ => False
  | _ => True

def authCalls (h : List (Prog.Call Op Op.Ans)) : Past :=
  h.filterMap fun
    | ⟨.auth op, r⟩ => some ⟨op, r⟩
    | _ => none

@[simp]
theorem authCalls_auth (op : Auth.Op) (r : op.Ans) (h : List (Prog.Call Op Op.Ans)) :
    authCalls (⟨.auth op, r⟩ :: h) = ⟨op, r⟩ :: authCalls h := rfl

theorem mem_authCalls {h : List (Prog.Call Op Op.Ans)} {op : Auth.Op} {r : op.Ans} :
    ⟨op, r⟩ ∈ authCalls h ↔ (⟨.auth op, r⟩ : Prog.Call Op Op.Ans) ∈ h := by
  simp only [authCalls, List.mem_filterMap]
  constructor
  · intro hmem
    obtain ⟨⟨e, a⟩, hcall, heq⟩ := hmem
    cases e with
    | auth op' =>
      cases heq
      exact hcall
    | _ => cases heq
  · exact fun hmem => ⟨_, hmem, rfl⟩

theorem authCalls_mono {h h' : List (Prog.Call Op Op.Ans)} (hsub : h ⊆ h') :
    authCalls h ⊆ authCalls h' := fun _ hc => mem_authCalls.2 (hsub (mem_authCalls.1 hc))

/-- A call of a request, after the calls `h`. -/
structure Allowed (s : Server) (bcrypt : Auth.Bcrypt) (r : Request)
    (h : List (Prog.Call Op Op.Ans)) (op : Op) : Prop where
  common : ¬ op.Open → s.authDisabled = true ∨ ∃ x, Accepted s.sessions r (authCalls h) x
  admin : ¬ op.Common → s.authDisabled = false ∧
    ∃ x, Accepted s.sessions r (authCalls h) x ∧ x.role = .admin
  genuine : ∀ e, op = .auth e → Genuine s.sessions bcrypt r (authCalls h) e

theorem Op.Open.common {op : Op} (h : op.Open) : op.Common := by
  cases op with
  | alerts => exact h.elim
  | system => trivial
  | auth => exact h

theorem Op.Open.of_onSession {op : Auth.Op} (h : op.OnSession) : Op.Open (.auth op) := by
  cases op with
  | sql stmt =>
    cases stmt with
    | selectUserByName => trivial
    | _ => exact h
  | _ => exact h

theorem Op.Reads.common {op : Op} (h : op.Reads) (ho : op.Outside) : op.Common := by
  cases op with
  | auth => exact ho.elim
  | alerts => exact h
  | system => trivial

/-! ## Handlers -/

section

variable {s : Server} {env : Env patterns} {r : Request} {ctx : Context}
  {h : List (Prog.Call Op Op.Ans)}

theorem outside_onHost {α : Type} {p : M α} (hp : p.Only Op.OnHost) : p.Only Op.Outside :=
  hp.mono fun op hop => by
    cases op with
    | auth => exact hop
    | _ => trivial

theorem outside_liftAlerts {α : Type} (p : Alerts.M α) : (liftAlerts p).Only Op.Outside :=
  Prog.only_lift ((Prog.only_true p).mono fun _ _ => trivial)

/-- A call of the alert service and then a response. -/
theorem outside_respond {α : Type} {p : Alerts.M α} {f : α → M Response}
    (hf : ∀ answer, ∃ resp, f answer = pure resp) : (liftAlerts p >>= f).Only Op.Outside := by
  refine (outside_liftAlerts p).bind fun answer => ?_
  obtain ⟨resp, hresp⟩ := hf answer
  rw [hresp]
  exact Prog.only_ret _

theorem outside_handleInfo : s.handleInfo.Only Op.Outside := by
  have halerts : s.alertsInfo.Only Op.Outside := by
    unfold alertsInfo
    split_ifs
    · refine (outside_liftAlerts _).bind fun _ => ?_
      exact (outside_liftAlerts _).bind fun _ => Prog.only_ret _
    · exact Prog.only_ret _
  have host (call : SystemCall) : (system call).Only Op.Outside :=
    outside_onHost (onHost_system call)
  unfold handleInfo
  refine (host _).bind fun _ => (outside_onHost onHost_getLocalIPs).bind fun _ => ?_
  refine (outside_onHost onHost_requiredPackagesStatus).bind fun _ => halerts.bind fun _ => ?_
  refine (host _).bind fun _ => (host _).bind fun _ => (host _).bind fun _ => ?_
  refine (host _).bind fun _ => ?_
  exact (outside_onHost (onHost_requiredPackagesInstallCommand _)).bind fun _ => Prog.only_ret _

theorem outside_handleAlertsConfig :
    (s.handleAlertsConfig env.crypto r ctx).Only Op.Outside := by
  unfold handleAlertsConfig
  split_ifs
  · exact Prog.only_ret _
  · exact outside_respond fun _ => ⟨_, rfl⟩
  · unfold putAlertsConfig
    cases s.requireAlertMutationAccess ctx with
    | error refusal => exact Prog.only_ret _
    | ok =>
      cases r.decode Alerts.UpdateConfigInput.field {} with
      | none => exact Prog.only_ret _
      | some body => exact outside_respond fun answer => by cases answer <;> exact ⟨_, rfl⟩
  · exact Prog.only_ret _

theorem outside_handleAlertsStatus : (s.handleAlertsStatus r).Only Op.Outside := by
  unfold handleAlertsStatus
  split_ifs
  · exact Prog.only_ret _
  · exact Prog.only_ret _
  · exact outside_respond fun _ => ⟨_, rfl⟩

theorem outside_handleAlertsHistory : (s.handleAlertsHistory r).Only Op.Outside := by
  unfold handleAlertsHistory
  split_ifs
  · exact Prog.only_ret _
  · exact Prog.only_ret _
  · cases parseLimit r 50 with
    | none => exact Prog.only_ret _
    | some limit =>
      cases parseBeforeID r with
      | none => exact Prog.only_ret _
      | some beforeID => exact outside_respond fun answer => by cases answer <;> exact ⟨_, rfl⟩

theorem outside_handleAlertsTest : (s.handleAlertsTest r ctx).Only Op.Outside := by
  unfold handleAlertsTest
  split_ifs
  · exact Prog.only_ret _
  · exact Prog.only_ret _
  · cases s.requireAlertMutationAccess ctx with
    | error refusal => exact Prog.only_ret _
    | ok => exact outside_respond fun answer => by cases answer <;> exact ⟨_, rfl⟩

theorem outside_handleAlertsSilence : (s.handleAlertsSilence r ctx).Only Op.Outside := by
  unfold handleAlertsSilence
  split_ifs
  · exact Prog.only_ret _
  · unfold postSilence
    cases s.requireAlertMutationAccess ctx with
    | error refusal => exact Prog.only_ret _
    | ok =>
      cases r.decode (intField "minutes") 0 with
      | none => exact Prog.only_ret _
      | some minutes => exact outside_respond fun answer => by cases answer <;> exact ⟨_, rfl⟩
  · unfold deleteSilence
    cases s.requireAlertMutationAccess ctx with
    | error refusal => exact Prog.only_ret _
    | ok => exact outside_respond fun answer => by cases answer <;> exact ⟨_, rfl⟩
  · exact Prog.only_ret _

/-- The routes whose handlers call the authentication code. -/
def Route.onAuth : Route → Bool
  | authLogin => true
  | authLogout => true
  | authMe => true
  | users => true
  | userByID => true
  | userAudit => true
  | _ => false

theorem outside_handle {route : Route} (hroute : route.onAuth = false) :
    (s.handle env route r ctx).Only Op.Outside := by
  by_cases hhost : route.onHost = true
  · exact outside_onHost (onHost_handle hhost r ctx)
  cases route with
  | info => exact outside_handleInfo
  | alertsConfig => exact outside_handleAlertsConfig
  | alertsStatus => exact outside_handleAlertsStatus
  | alertsHistory => exact outside_handleAlertsHistory
  | alertsTest => exact outside_handleAlertsTest
  | alertsSilence => exact outside_handleAlertsSilence
  | authLogin | authLogout | authMe | users | userByID | userAudit => cases hroute
  | _ => exact absurd rfl hhost

/-! ### What they may call -/

/-- The session in the context was accepted, or none was asked for. -/
def Entered (s : Server) (r : Request) (h : List (Prog.Call Op Op.Ans)) (route : Route) :
    Context → Prop
  | none => s.authDisabled = true ∨ ¬ route.Guarded
  | some x => s.authDisabled = false ∧ Accepted s.sessions r (authCalls h) x

/-- Calls of the authentication code that are made for anyone. -/
theorem allowed_open {α : Type} {p : Auth.M α} (hopen : p.Only fun e => Op.Open (.auth e))
    (hp : p.Follows (Genuine s.sessions env.bcrypt r) (fun _ _ => True) (authCalls h)) :
    (liftAuth p).Follows (Allowed s env.bcrypt r) (fun _ _ => True) h := by
  have hlift : (liftAuth p).Follows
      (fun h op => ∃ e, op = .auth e ∧ Genuine s.sessions env.bcrypt r (authCalls h) e)
      (fun _ _ => True) h := Prog.follows_lift (fun _ _ _ => rfl) hp
  refine (hlift.and_only (Prog.only_lift (C := Op.Open) hopen)).mono ?_ fun _ _ _ _ => trivial
  intro h' op _ hop
  obtain ⟨⟨e, rfl, hgenuine⟩, ho⟩ := hop
  refine ⟨fun hnot => absurd ho hnot, fun hnot => absurd ho.common hnot, fun e' heq => ?_⟩
  cases heq
  exact hgenuine

/-- Calls of the authentication code for an accepted administrator. -/
theorem allowed_admin {α : Type} {x : Auth.Session} (hauth : s.authDisabled = false)
    (hx : Accepted s.sessions r (authCalls h) x) (hrole : x.role = .admin) {p : Auth.M α}
    (hp : p.Follows (Genuine s.sessions env.bcrypt r) (fun _ _ => True) (authCalls h)) :
    (liftAuth p).Follows (Allowed s env.bcrypt r) (fun _ _ => True) h := by
  have hlift : (liftAuth p).Follows
      (fun h op => ∃ e, op = .auth e ∧ Genuine s.sessions env.bcrypt r (authCalls h) e)
      (fun _ _ => True) h := Prog.follows_lift (fun _ _ _ => rfl) hp
  refine hlift.mono ?_ fun _ _ _ _ => trivial
  intro h' op hsuf hop
  obtain ⟨e, rfl, hgenuine⟩ := hop
  have hx' := hx.mono (authCalls_mono hsuf.subset)
  refine ⟨fun _ => .inr ⟨x, hx'⟩, fun _ => ⟨hauth, x, hx', hrole⟩, fun e' heq => ?_⟩
  cases heq
  exact hgenuine

theorem allowed_ret {α : Type} (a : α) :
    (Prog.ret a : M α).Follows (Allowed s env.bcrypt r) (fun _ _ => True) h :=
  Prog.follows_ret.2 trivial

/-- A handler that refuses whoever is no administrator. -/
theorem allowed_accounts {route : Route} (hctx : Entered s r h route ctx) {p : Auth.M Response}
    (hrefused : ∀ refusal, s.requireAdmin ctx = .error refusal → p = pure refusal)
    (hp : ∀ x, ctx = some x → Accepted s.sessions r (authCalls h) x →
      p.Follows (Genuine s.sessions env.bcrypt r) (fun _ _ => True) (authCalls h)) :
    (liftAuth p).Follows (Allowed s env.bcrypt r) (fun _ _ => True) h := by
  cases hadmin : s.requireAdmin ctx with
  | error refusal =>
    rw [hrefused refusal hadmin]
    exact allowed_ret refusal
  | ok admin =>
    obtain ⟨hauth, x, rfl, hrole⟩ := isAdmin_of_requireAdmin hadmin
    exact allowed_admin hauth hctx.2 hrole (hp x rfl hctx.2)

theorem open_handleAuthLogin :
    (s.handleAuthLogin env.bcrypt r).Only fun e => Op.Open (.auth e) := by
  have hname (name : String) :
      (Auth.stmt (.selectUserByName name)).Only fun e => Op.Open (.auth e) := Prog.only_op trivial
  unfold handleAuthLogin
  split_ifs
  · exact Prog.only_ret _
  · exact Prog.only_ret _
  · cases r.decode LoginBody.field {} with
    | none => exact Prog.only_ret _
    | some body =>
      simp only
      unfold Auth.authenticate
      refine Prog.Only.bind ?_ fun found => ?_
      · cases Auth.normalizeUsername body.username with
        | none => exact Prog.only_ret _
        | some name =>
          refine (hname name).bind fun answer => ?_
          match answer with
          | .error err => exact Prog.only_ret _
          | .ok none => exact Prog.only_ret _
          | .ok (some row) =>
            simp only
            split_ifs <;> exact Prog.only_ret _
      · cases found with
        | error err => cases err <;> exact Prog.only_ret _
        | ok user =>
          refine ((s.sessions.only_create user).mono fun _ => Op.Open.of_onSession).bind
            fun created => ?_
          cases created <;> exact Prog.only_ret _

theorem open_handleAuthLogout :
    (s.handleAuthLogout r).Only fun e => Op.Open (.auth e) := by
  unfold handleAuthLogout
  split_ifs
  · exact Prog.only_ret _
  · exact Prog.only_ret _
  · cases r.cookie with
    | none => exact Prog.only_ret _
    | some token =>
      exact ((s.sessions.only_delete token).mono fun _ => Op.Open.of_onSession).bind fun _ =>
        Prog.only_ret _

theorem open_spaHandler : (spaHandler r).Only fun op => op.Open ∧ op.Outside := by
  have hserve (path : List Char) :
      (system (.serveFile path)).Only fun op => op.Open ∧ op.Outside :=
    Prog.only_op ⟨trivial, trivial⟩
  unfold spaHandler
  refine (hserve _).bind fun answer => ?_
  cases answer <;> exact Prog.only_ret _

/-- Calls outside the authentication code. -/
theorem allowed_outside {α : Type} {p : M α} {I : List (Prog.Call Op Op.Ans) → Prop}
    {C : Op → Prop} (hI : ∀ h c, I h → I (c :: h))
    (hcommon : ∀ h op, C op → I h → ¬ op.Open → s.authDisabled = true ∨
      ∃ x, Accepted s.sessions r (authCalls h) x)
    (hadmin : ∀ h op, C op → I h → ¬ op.Common → s.authDisabled = false ∧
      ∃ x, Accepted s.sessions r (authCalls h) x ∧ x.role = .admin)
    (hp : p.Only fun op => C op ∧ op.Outside) (hh : I h) :
    p.Follows (Allowed s env.bcrypt r) (fun _ _ => True) h := by
  refine (hp.follows (I := I) (fun h op hop hh => ?_) (fun h _ _ _ => hI h _) hh).mono
    (fun _ _ _ hok => hok) fun _ _ _ _ => trivial
  refine ⟨hcommon h op hop.1 hh, hadmin h op hop.1 hh, fun e heq => ?_⟩
  subst heq
  exact hop.2.elim

/-- **Every handler stays within what its context allows.** -/
theorem allowed_handle {route : Route} (hctx : Entered s r h route ctx) :
    (s.handle env route r ctx).Follows (Allowed s env.bcrypt r) (fun _ _ => True) h := by
  cases hroute : route.onAuth with
  | true =>
    cases route with
    | authLogin => exact allowed_open open_handleAuthLogin (genuine_handleAuthLogin _)
    | authLogout =>
      exact allowed_open open_handleAuthLogout
        (Auth.follows_routine (fun _ _ => genuine_of_routine) routine_handleAuthLogout _)
    | authMe =>
      have hsilent : ∃ resp, s.handleAuthMe r ctx = pure resp := by
        unfold handleAuthMe
        split_ifs
        · exact ⟨_, rfl⟩
        · exact ⟨_, rfl⟩
        · cases s.currentUser ctx <;> exact ⟨_, rfl⟩
      obtain ⟨resp, hresp⟩ := hsilent
      show (liftAuth (s.handleAuthMe r ctx)).Follows _ _ _
      rw [hresp]
      exact allowed_ret resp
    | users =>
      refine allowed_accounts hctx (fun refusal hrefusal => ?_) fun x hx hacc => ?_
      · rw [handleUsers, hrefusal]
      · rw [hx]
        exact genuine_handleUsers hacc
    | userByID =>
      refine allowed_accounts hctx (fun refusal hrefusal => ?_) fun x hx hacc => ?_
      · rw [handleUserByID, hrefusal]
      · rw [hx]
        exact genuine_handleUserByID hacc
    | userAudit =>
      refine allowed_accounts hctx (fun refusal hrefusal => ?_) fun x hx hacc => ?_
      · rw [handleUserAudit, hrefusal]
      · exact Auth.follows_routine (fun _ _ => genuine_of_routine) routine_handleUserAudit _
    | _ => cases hroute
  | false =>
    have houtside : (s.handle env route r ctx).Only Op.Outside := outside_handle hroute
    by_cases hadmin : s.IsAdmin ctx
    · obtain ⟨hauth, x, rfl, hrole⟩ := hadmin
      refine allowed_outside (C := fun _ => True)
        (I := fun h => Accepted s.sessions r (authCalls h) x)
        (fun h c hh => hh.mono (authCalls_mono (List.subset_cons_self _ _)))
        (fun _ _ _ hh _ => .inr ⟨x, hh⟩) (fun _ _ _ hh _ => ⟨hauth, x, hh, hrole⟩)
        (houtside.mono fun _ ho => ⟨trivial, ho⟩) hctx.2
    · by_cases hguarded : route.Guarded
      · have hreads : (s.handle env route r ctx).Only Op.Reads := by
          refine reads_handle hadmin ?_
          intro hsession
          rcases hsession with rfl | rfl <;> cases hroute
        refine allowed_outside (C := Op.Common)
          (I := fun h => s.authDisabled = true ∨ ∃ x, Accepted s.sessions r (authCalls h) x)
          (fun h c hh => ?_) (fun _ _ _ hh _ => hh) (fun _ _ hc _ hnot => absurd hc hnot)
          ((hreads.and houtside).mono fun _ hop => ⟨hop.1.common hop.2, hop.2⟩) ?_
        · refine hh.imp_right fun hx => ?_
          obtain ⟨x, hx⟩ := hx
          exact ⟨x, hx.mono (authCalls_mono (List.subset_cons_self _ _))⟩
        · cases ctx with
          | none => exact .inl (hctx.resolve_right fun hnot => hnot hguarded)
          | some x => exact .inr ⟨x, hctx.2⟩
      · -- Of these routes only the files of the web page are not guarded.
        have hspa : route = .spa := by
          revert hguarded hroute
          cases route <;> decide
        subst hspa
        exact allowed_outside (C := Op.Open) (I := fun _ => True) (fun _ _ => id)
          (fun _ _ ho _ hnot => absurd ho hnot) (fun _ _ ho _ hnot => absurd ho.common hnot)
          open_spaHandler trivial

/-! ## Requests -/

theorem allowed_serveMuxHTTP
    (hctx : ∀ route : Route, Matches route.path r.path → Entered s r h route ctx) :
    (s.serveMuxHTTP env r ctx).Follows (Allowed s env.bcrypt r) (fun _ _ => True) h := by
  unfold serveMuxHTTP
  split_ifs
  · exact Prog.follows_ret.2 trivial
  · cases hdispatch : env.mux.dispatch r.method r.escapedPath with
    | redirect path => exact Prog.follows_ret.2 trivial
    | notFound => exact Prog.follows_ret.2 trivial
    | handler pattern =>
      simp only
      cases hfind : Route.find pattern with
      | none => exact Prog.follows_ret.2 trivial
      | some route =>
        have hmatches : Matches route.path r.path := by
          rw [Route.path_of_find hfind]
          exact (env.mux.handles hdispatch r.parsed).2
        simp only
        rw [Prog.follows_bind]
        refine (allowed_handle (hctx route hmatches)).mono (fun _ _ _ hok => hok) ?_
        exact fun _ _ _ _ => Prog.follows_ret.2 trivial

/-- **Every request stays within its authority.** -/
theorem follows_serve :
    (s.serve env r).Follows (Allowed s env.bcrypt r) (fun _ _ => True) [] := by
  unfold serve
  split_ifs with hauth
  · exact allowed_serveMuxHTTP fun _ _ => .inl hauth
  · unfold sessionAuthMiddleware
    split_ifs with hpath
    · refine allowed_serveMuxHTTP fun route hmatches => .inr fun hguarded => ?_
      rw [not_public_of_matches hguarded hmatches] at hpath
      cases hpath
    · cases hcookie : r.cookie with
      | none => exact Prog.follows_ret.2 trivial
      | some token =>
        simp only
        rw [Prog.follows_bind]
        have hopen : (s.sessions.get token).Only fun e => Op.Open (.auth e) :=
          (s.sessions.only_get token).mono fun _ => Op.Open.of_onSession
        have hget : (s.sessions.get token).Follows (Genuine s.sessions env.bcrypt r)
            (fun h out => ∀ x, out = some x → Auth.FoundAlive s.sessions h token x)
            (authCalls []) :=
          Auth.follows_checked (fun _ _ => genuine_of_routine) _
            (fun _ _ _ _ => List.mem_cons_self) _ _
        have hlift : (liftAuth (s.sessions.get token)).Only Op.Open := Prog.only_lift hopen
        refine ((Prog.follows_lift (fun _ _ _ => rfl) hget).and_only hlift).mono ?_
          fun h' found _ hfound => ?_
        · intro h' op _ hop
          obtain ⟨⟨e, rfl, hgenuine⟩, ho⟩ := hop
          refine ⟨fun hnot => absurd ho hnot, fun hnot => absurd ho.common hnot, fun e' heq => ?_⟩
          cases heq
          exact hgenuine
        · cases found with
          | none => exact Prog.follows_ret.2 trivial
          | some x =>
            refine allowed_serveMuxHTTP fun _ _ => ⟨by simpa using hauth, ?_⟩
            exact ⟨token, hcookie, hfound x rfl⟩

end

/-! ## Where a session comes from -/

abbrev ServiceLog := List (Pool.Event ServiceOp Op Op.Ans (Option Response))

/-- What a program calls. -/
def ServiceOp.Allowed (s : Server) (env : Env patterns) :
    ServiceOp → List (Prog.Call Op Op.Ans) → Op → Prop
  | request r => Server.Allowed s env.bcrypt r
  | _ => fun _ op => ∃ e, op = .alerts e

/-- A login has created the session. -/
def LoggedIn (s : Server) (env : Env patterns) (log : ServiceLog) (x : Auth.Session) : Prop :=
  ∃ j r, .invoked j (.request r) ∈ log ∧
    CheckedLogin s.sessions env.bcrypt r (authCalls (Pool.hist j log)) x ∧
      ∃ persistent, .did j (.auth (.create persistent x)) (.ok ()) ∈ log

/-- The session was there at the start, or a login has created it. -/
def Issued (s : Server) (env : Env patterns) (w : World) (log : ServiceLog) (token : String)
    (x : Auth.Session) : Prop :=
  w.auth.memory token = some x ∨ w.auth.sessions token = some x ∨
    x.token = token ∧ LoggedIn s env log x

section Runs

variable {s : Server} {env : Env patterns} {w : World} {log log' : ServiceLog} {v : Running}
  {acts : List (Pool.Act ServiceOp Choice)}

theorem hist_mono {i : Nat} (hsub : log ⊆ log') : Pool.hist i log ⊆ Pool.hist i log' :=
  fun _ hc => Pool.mem_hist.2 (hsub (Pool.mem_hist.1 hc))

theorem Issued.mono {token : String} {x : Auth.Session} (hx : Issued s env w log token x)
    (hsub : log ⊆ log') : Issued s env w log' token x := by
  refine hx.imp_right (Or.imp_right fun hlogin => ⟨hlogin.1, ?_⟩)
  obtain ⟨-, j, r, hreq, hchecked, persistent, hcreate⟩ := hlogin
  exact ⟨j, r, hsub hreq, hchecked.mono (authCalls_mono (hist_mono hsub)), persistent,
    hsub hcreate⟩

theorem follows_service (op : ServiceOp) :
    (op.program s env).Follows (op.Allowed s env) (fun _ _ => True) [] := by
  have alerts {α : Type} (p : Alerts.M α) :
      (liftAlerts p >>= fun _ => pure none : M (Option Response)).Follows
        (fun _ op => ∃ e, op = .alerts e) (fun _ _ => True) [] := by
    have hlift : (liftAlerts p).Only fun op => ∃ e, op = Op.alerts e :=
      Prog.only_lift ((Prog.only_true p).mono fun e _ => ⟨e, rfl⟩)
    exact (hlift.bind fun _ => Prog.only_ret none).follows (I := fun _ => True)
      (fun _ _ hop _ => hop) (fun _ _ _ _ _ => trivial) trivial
  cases op with
  | request r =>
    refine Prog.follows_bind.2 (follows_serve.mono (fun _ _ _ hok => hok) ?_)
    exact fun _ _ _ _ => Prog.follows_ret.2 trivial
  | evaluate now cpuPercent => exact alerts _
  | cleanup => exact alerts _

/-- Every session that is stored, or was read from the table, was issued. -/
structure Provenance (s : Server) (env : Env patterns) (w sh : World) (log : ServiceLog) :
    Prop where
  memory : ∀ token x, sh.auth.memory token = some x → Issued s env w log token x
  table : ∀ token x, sh.auth.sessions token = some x → Issued s env w log token x
  read : ∀ j token x, .did j (.auth (.sql (.selectSession token))) (.ok (some x)) ∈ log →
    Issued s env w log token x

theorem Provenance.note {sh : World} (h : Provenance s env w sh log)
    {ev : Pool.Event ServiceOp Op Op.Ans (Option Response)} (hev : ∀ j e r, ev ≠ .did j e r) :
    Provenance s env w sh (ev :: log) := by
  have hsub : log ⊆ ev :: log := List.subset_cons_self _ _
  refine ⟨fun token x hx => (h.memory token x hx).mono hsub,
    fun token x hx => (h.table token x hx).mono hsub, fun j token x hd => ?_⟩
  rcases List.mem_cons.1 hd with heq | hd
  · exact absurd heq.symm (hev _ _ _)
  · exact (h.read j token x hd).mono hsub

theorem Provenance.settle {sh : World} (h : Provenance s env w sh log) (i : Nat)
    (p : M (Option Response)) : Provenance s env w sh (Pool.settle i p log) := by
  cases p with
  | ret out => exact h.note fun _ _ _ heq => by cases heq
  | call e k => exact h

/-- A call outside the authentication code. -/
theorem Provenance.unauthenticated {sh sh' : World} (h : Provenance s env w sh log) {i : Nat}
    {e : Op} {a : e.Ans} (he : e.Outside) (hsame : sh'.auth = sh.auth) :
    Provenance s env w sh' (.did i e a :: log) := by
  have hsub : log ⊆ .did i e a :: log := List.subset_cons_self _ _
  refine ⟨?_, ?_, fun j token x hd => ?_⟩
  · rw [hsame]
    exact fun token x hx => (h.memory token x hx).mono hsub
  · rw [hsame]
    exact fun token x hx => (h.table token x hx).mono hsub
  · rcases List.mem_cons.1 hd with heq | hd
    · cases heq
      exact he.elim
    · exact (h.read j token x hd).mono hsub

/-- **One operation.** A session is created by a checked login, and written back as it was read. -/
theorem Provenance.did {sh sh' : World} (h : Provenance s env w sh log) {i : Nat} {op : ServiceOp}
    {c : Choice} {e : Op} {a : e.Ans} (hop : .invoked i op ∈ log)
    (hok : op.Allowed s env (Pool.hist i log) e) (hexec : exec env c e sh = some (a, sh')) :
    Provenance s env w sh' (.did i e a :: log) := by
  have hsub : log ⊆ .did i e a :: log := List.subset_cons_self _ _
  cases e with
  | auth e =>
    obtain ⟨hauth, -⟩ := exec_auth hexec
    -- Only a request calls the authentication code.
    cases op with
    | evaluate | cleanup =>
      obtain ⟨e', he'⟩ := hok
      cases he'
    | request r =>
      have hgenuine := hok.genuine e rfl
      have hcreated {token : String} {x : Auth.Session} (hc : e.Creates token x a) :
          Issued s env w (.did i (.auth e) a :: log) token x := by
        obtain ⟨persistent, rfl⟩ := hc.eq
        obtain ⟨-, htoken, rfl⟩ := hc
        refine .inr (.inr ⟨htoken, i, r, hsub hop, ?_, persistent, List.mem_cons_self⟩)
        exact CheckedLogin.mono hgenuine (authCalls_mono (hist_mono hsub))
      refine ⟨fun token x hx => ?_, fun token x hx => ?_, fun j token x hd => ?_⟩
      · rcases Auth.memory_exec hauth hx with ⟨hold, -⟩ | hc | rfl
        · exact (h.memory token x hold).mono hsub
        · exact hcreated hc
        · exact (h.read i token x (Pool.mem_hist.1 (mem_authCalls.1 hgenuine))).mono hsub
      · rcases Auth.stored_exec hauth hx with ⟨hold, -⟩ | hc
        · exact (h.table token x hold).mono hsub
        · exact hcreated hc
      · rcases List.mem_cons.1 hd with heq | hd
        · cases heq
          exact (h.table token x (Auth.stored_of_select hauth)).mono hsub
        · exact (h.read j token x hd).mono hsub
  | alerts e =>
    obtain ⟨⟨r, u⟩, -, heq⟩ := Option.map_eq_some_iff.1 hexec
    cases heq
    exact h.unauthenticated trivial rfl
  | system call =>
    cases hexec
    exact h.unauthenticated trivial rfl

/-- **Run.** -/
theorem provenance_run (h : Lts.run (Running.next s env) (Pool.start w) acts = some v) :
    Pool.Good (fun op => op.Allowed s env) (fun _ _ _ => True) v ∧
      Provenance s env w v.shared v.log := by
  have hstart : Provenance s env w w [] :=
    ⟨fun _ _ hx => .inl hx, fun _ _ hx => .inr (.inl hx), fun _ _ _ hd => by cases hd⟩
  refine Lts.invariant (I := fun v : Running =>
    Pool.Good (fun op => op.Allowed s env) (fun _ _ _ => True) v ∧
      Provenance s env w v.shared v.log) (fun v a v' hv hnext => ?_)
    ⟨Pool.good_start w, hstart⟩ h
  obtain ⟨hgood, hprov⟩ := hv
  refine ⟨Pool.good_next follows_service hgood hnext, ?_⟩
  cases a with
  | invoke op =>
    cases hnext
    exact (hprov.note fun _ _ _ heq => by cases heq).settle _ _
  | step i c =>
    obtain ⟨op, e, k, r, sh, hi, hexec, rfl⟩ := Pool.next_step hnext
    have hok : op.Allowed s env (Pool.hist i v.log) e :=
      (Prog.follows_call.1 (hgood.follows i _ hi)).1
    exact (hprov.did (hgood.invoked i _ hi) hok hexec).settle _ _

/-- A session that a check of a cookie has found was issued before. -/
theorem issued_of_accepted (h : Lts.run (Running.next s env) (Pool.start w) acts = some v)
    {since before : ServiceLog} {i : Nat} (hlog : v.log = since ++ before) {r : Request}
    {x : Auth.Session} (hx : Accepted s.sessions r (authCalls (Pool.hist i before)) x) :
    ∃ token, r.cookie = some token ∧ Issued s env w before token x := by
  obtain ⟨token, hcookie, hfound, -⟩ := hx
  refine ⟨token, hcookie, ?_⟩
  have htraced := Pool.traced_run h
  -- The state in which the session was found.
  have hstate {e : Auth.Op} {a : e.Ans} (hmem : ⟨e, a⟩ ∈ authCalls (Pool.hist i before)) :
      ∃ u : Running, u.log ⊆ before ∧ Provenance s env w u.shared u.log ∧
        ∃ c sh, Auth.exec env.bcrypt c e u.shared.auth = some (a, sh) := by
    obtain ⟨later, earlier, rfl⟩ := List.append_of_mem (Pool.mem_hist.1 (mem_authCalls.1 hmem))
    obtain ⟨as, u, c, sh, hrun, rfl, hexec⟩ := htraced (since ++ later) i (.auth e) a earlier
      (by simp [hlog])
    refine ⟨u, ?_, (provenance_run hrun).2, c.auth, sh.auth, (exec_auth hexec).1⟩
    exact fun ev hev => List.mem_append_right _ (List.mem_cons_of_mem _ hev)
  rcases hfound with hlookup | ⟨-, hread⟩
  · obtain ⟨u, hsub, hprov, c, sh, hexec⟩ := hstate hlookup
    exact (hprov.memory token x (Auth.memory_of_lookup hexec)).mono hsub
  · obtain ⟨u, hsub, hprov, c, sh, hexec⟩ := hstate hread
    exact (hprov.table token x (Auth.stored_of_select hexec)).mono hsub

/-- The request has presented the session, which is alive and was issued. -/
def Presented (s : Server) (env : Env patterns) (w : World) (log : ServiceLog) (i : Nat)
    (r : Request) (x : Auth.Session) : Prop :=
  Accepted s.sessions r (authCalls (Pool.hist i log)) x ∧
    ∃ token, r.cookie = some token ∧ Issued s env w log token x

theorem presented_of_accepted (h : Lts.run (Running.next s env) (Pool.start w) acts = some v)
    {since before : ServiceLog} {i : Nat} (hlog : v.log = since ++ before) {r : Request}
    {x : Auth.Session} (hx : Accepted s.sessions r (authCalls (Pool.hist i before)) x) :
    Presented s env w before i r x :=
  ⟨hx, issued_of_accepted h hlog hx⟩

/-- A call of a request is one that it may make after those it made before. -/
theorem allowed_of_did (h : Lts.run (Running.next s env) (Pool.start w) acts = some v)
    {since before : ServiceLog} {i : Nat} {op : Op} {a : op.Ans}
    (hlog : v.log = since ++ .did i op a :: before) {r : Request}
    (hreq : .invoked i (.request r) ∈ v.log) :
    Server.Allowed s env.bcrypt r (Pool.hist i before) op := by
  have hgood := (provenance_run h).1.log
  rw [hlog] at hgood hreq
  obtain ⟨op', hop', hok⟩ := hgood.did
  obtain rfl : op' = .request r := hgood.invoked_unique
    (List.mem_append_right _ (List.mem_cons_of_mem _ hop')) hreq
  exact hok

/-- **Every call of a request has its authority.** Whatever the interleaving, what is not open to
anyone is called for a session that the request has presented, unless authentication is off, and
what is not for every user is called for that of an administrator. The session was there at the
start, or a login has created it for a row whose hash the password matched. -/
theorem calls_authorized (h : Lts.run (Running.next s env) (Pool.start w) acts = some v)
    {since before : ServiceLog} {i : Nat} {op : Op} {a : op.Ans}
    (hlog : v.log = since ++ .did i op a :: before) {r : Request}
    (hreq : .invoked i (.request r) ∈ v.log) :
    (¬ op.Open → s.authDisabled = true ∨ ∃ x, Presented s env w before i r x) ∧
      (¬ op.Common → s.authDisabled = false ∧
        ∃ x, Presented s env w before i r x ∧ x.role = .admin) := by
  have hok := allowed_of_did h hlog hreq
  rw [List.append_cons] at hlog
  constructor
  · intro hnot
    refine (hok.common hnot).imp_right fun hx => ?_
    obtain ⟨x, hx⟩ := hx
    exact ⟨x, presented_of_accepted h hlog hx⟩
  · intro hnot
    obtain ⟨hauth, x, hx, hrole⟩ := hok.admin hnot
    exact ⟨hauth, x, presented_of_accepted h hlog hx, hrole⟩

end Runs

/-! ### A login and a change -/

def twoUsers : World where
  auth :=
    { Auth.World.empty with
      users := .seed [("alice", "secret-a", .admin), ("bob", "secret-b", .viewer)] }
  alerts := .fresh Alerts.defaultConfig ⟨"", "", ""⟩

theorem unescape_login :
    unescape "/api/auth/login".toList = some "/api/auth/login".toList := by
  decide

theorem unescape_change : unescape "/api/users/2".toList = some "/api/users/2".toList := by
  decide

def loginAlice : Request where
  method := "POST"
  escapedPath := "/api/auth/login".toList
  path := "/api/auth/login".toList
  parsed := unescape_login
  body := some (.obj [("username", .str "alice"), ("password", .str "secret-a")])

def aliceChangesBob : Request where
  method := "PUT"
  escapedPath := "/api/users/2".toList
  path := "/api/users/2".toList
  parsed := unescape_change
  cookie := some "a"
  body := some (.obj [("password", .str "secret-c")])

/-- The request starts while the login is in progress, and looks for its session after that. -/
def adminAtWork : List (Pool.Act ServiceOp Choice) :=
  [.invoke (.request loginAlice), .step 0 {}, .invoke (.request aliceChangesBob),
    .step 0 { auth := { token := "a" } }, .step 1 {}, .step 0 {}, .step 0 {}] ++
    List.replicate 8 (.step 1 {})

def atWork : Running :=
  (Lts.run (Running.next privateAlerts plainEnv) (Pool.start twoUsers) adminAtWork).getD
    (Pool.start twoUsers)

theorem run_adminAtWork :
    Lts.run (Running.next privateAlerts plainEnv) (Pool.start twoUsers) adminAtWork =
      some atWork := rfl

theorem calls_authorized_adminAtWork :
    ∃ since before,
      atWork.log =
        since ++ .did 1 (.auth (.sql (.updatePassword "secret-c" 2))) (.ok ()) :: before ∧
      (¬ Op.Open (.auth (.sql (.updatePassword "secret-c" 2))) →
        privateAlerts.authDisabled = true ∨
          ∃ x, Presented privateAlerts plainEnv twoUsers before 1 aliceChangesBob x) ∧
      (¬ Op.Common (.auth (.sql (.updatePassword "secret-c" 2))) →
        privateAlerts.authDisabled = false ∧
          ∃ x, Presented privateAlerts plainEnv twoUsers before 1 aliceChangesBob x ∧
            x.role = .admin) := by
  have hlog : atWork.log = atWork.log.take 5 ++
      .did 1 (.auth (.sql (.updatePassword "secret-c" 2))) (.ok ()) :: atWork.log.drop 6 := rfl
  exact ⟨_, _, hlog,
    calls_authorized run_adminAtWork hlog (List.mem_of_getElem? (i := 14) rfl)⟩

end QuickVps.Server
