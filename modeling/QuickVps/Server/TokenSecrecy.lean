import QuickVps.Alerts.Secrecy
import QuickVps.Server.Calls
import Mathlib.Data.List.Infix

/-!
# The secrecy of the bot token

Requests, snapshots and cleanups in any interleaving, from two states that differ only in the stored
bot token, with the same choices of the environment.

* `SameShown` — the same responses, and the same rows of events;
* `token_leaks` — a run in which a viewer reads the token in the history;
* `NoFinalFailure` — no last attempt to send to Telegram ends with an error of the HTTP client;
* `sameShown_of_noFinalFailure` — every run with this condition shows the same for both tokens.
-/

namespace QuickVps.Server

open Go

/-! ## The running server -/

/-- A request, and what `Run` does with a snapshot or when its ticker fires. -/
inductive ServiceOp where
  | request (r : Request)
  | evaluate (now : Int) (cpuPercent : Float64)
  | cleanup

/-- Only a request has a response. -/
def ServiceOp.program (s : Server) (env : Env patterns) : ServiceOp → M (Option Response)
  | request r => do
    let served ← s.serve env r
    return some served.response
  | evaluate now cpuPercent => do
    liftAlerts (Alerts.evaluateSnapshot now cpuPercent)
    return none
  | cleanup => do
    liftAlerts Alerts.cleanupOldEvents
    return none

abbrev Running := Pool.State World ServiceOp Op Op.Ans (Option Response)

def Running.next (s : Server) (env : Env patterns) :
    Running → Pool.Act ServiceOp Choice → Option Running :=
  Pool.next (ServiceOp.program s env) (exec env)

/-- The calls to the alert service. -/
def alertsCalls (h : List (Prog.Call Op Op.Ans)) : List (Prog.Call Alerts.Op Alerts.Op.Ans) :=
  h.filterMap fun
    | ⟨.alerts op, r⟩ => some ⟨op, r⟩
    | _ => none

/-! ## The property -/

/-- Two states that differ only in the stored bot token. -/
def World.Twin (http : Alerts.Http) (w w' : World) : Prop :=
  ∃ alerts, w.alerts.Twin http alerts ∧ w' = { w with alerts := alerts }

/-- The same responses to the same requests, and the same events. -/
def SameShown (w w' : Running) : Prop :=
  Pool.results w'.log = Pool.results w.log ∧ w'.shared.alerts.events = w.shared.alerts.events

/-- The text of a transport error names the URL. -/
def NamesURL (http : Alerts.Http) : Prop :=
  ∀ url cause, contains (http.transportError url cause) url = true

/-- A call that is an attempt to send to Telegram and fails without a response is not the last
attempt. -/
def Tolerated (http : Alerts.Http) (h : List (Prog.Call Op Op.Ans)) (c : Choice) : Op → Prop
  | .alerts op => Alerts.SendFails http c.alerts op → ¬ Alerts.LastAttempt (alertsCalls h)
  | _ => True

/-- No last attempt to send to Telegram ends with an error of the HTTP client. -/
def NoFinalFailure (env : Env patterns) (w : Running) : Pool.Act ServiceOp Choice → Prop :=
  Pool.OnCall (fun i c e => Tolerated env.http (Pool.hist i w.log) c e) w

instance (http : Alerts.Http) (c : Alerts.Choice) :
    ∀ op, Decidable (Alerts.SendFails http c op)
  | .newRequest url => inferInstanceAs (Decidable ((http.parseError url).isSome = true))
  | .post .. => inferInstanceAs (Decidable (c.fault.isSome = true))
  | .sql _ | .now | .read | .lock | .unlock _ | .historyDays | .nonce | .ctxErr | .sleep _
  | .sendMail .. => isFalse id

instance (http : Alerts.Http) (h : List (Prog.Call Op Op.Ans)) (c : Choice) :
    ∀ e, Decidable (Tolerated http h c e)
  | .alerts op => inferInstanceAs (Decidable (Alerts.SendFails http c.alerts op → ¬ _))
  | .auth _ | .system _ => isTrue trivial

instance (env : Env patterns) (w : Running) (a : Pool.Act ServiceOp Choice) :
    Decidable (NoFinalFailure env w a) := inferInstanceAs (Decidable (Pool.OnCall _ w a))

/-! ## A token in the history -/

def publicServer : Server where
  authDisabled := true
  sessions := ⟨1000, false⟩
  hasAlerts := true

/-- Only Telegram is enabled, with these delays between the attempts. -/
def telegramConfig (delays : List Int) : Alerts.Config :=
  { Alerts.defaultConfig with
    emailEnabled := false, telegramChatIDs := some ["1"], retryDelaysSec := some delays }

/-- A new service that has a token. -/
def storedToken (cfg : Alerts.Config) (token : String) : World :=
  let alerts := Alerts.World.fresh cfg ⟨"sealed " ++ token, "", ""⟩
  { auth := .empty
    alerts := { alerts with service := { alerts.service with secrets := ⟨token, "", ""⟩ } } }

theorem twin_storedToken (cfg : Alerts.Config) {token token' : String}
    (htoken : Alerts.TwinTokens Alerts.plainHttp token token')
    (hcipher : Alerts.TwinCiphers ("sealed " ++ token) ("sealed " ++ token')) :
    (storedToken cfg token).Twin Alerts.plainHttp (storedToken cfg token') :=
  ⟨(storedToken cfg token').alerts,
    ⟨_, _, ⟨_, hcipher, rfl⟩, ⟨_, _, ⟨_, htoken, rfl⟩, ⟨_, hcipher, rfl⟩, rfl⟩, rfl⟩, rfl⟩

theorem twinTokens : Alerts.TwinTokens Alerts.plainHttp "111111:AAAA-wxyz" "222222:BBBB-wxyz" :=
  .inr ⟨by decide, by decide, by decide, Iff.rfl⟩

theorem twinCiphers :
    Alerts.TwinCiphers ("sealed " ++ "111111:AAAA-wxyz") ("sealed " ++ "222222:BBBB-wxyz") :=
  .inr ⟨by decide, by decide⟩

def failedSend : Choice where
  alerts := { fault := some "dial tcp: i/o timeout" }

/-- Two snapshots above the warning threshold, five minutes apart: the second one triggers a
message, and the network is down. -/
def downNetwork : List (Pool.Act ServiceOp Choice) :=
  [.invoke (.evaluate 0 (.num 80)), .step 0 {}, .step 0 {},
    .invoke (.evaluate 300000000000 (.num 80)), .step 1 {}, .step 1 {}, .step 1 {},
    .step 1 failedSend, .step 1 {}]

/-- The channels of the events after that. -/
def channelsAfter (token : String) : Option (List (List Alerts.ChannelResult)) :=
  (Lts.run (Running.next publicServer plainEnv)
    (Pool.start (storedToken (telegramConfig [0]) token)) downNetwork).map fun w =>
      w.shared.alerts.events.rows.map Alerts.Event.channels

def failedChannel (error : String) : List (List Alerts.ChannelResult) :=
  [[⟨"telegram", false, 1, error⟩]]

/-- The errors of the client that are modelled name the URL. -/
theorem namesURL_plainHttp : NamesURL Alerts.plainHttp := by
  intro url cause
  have hlist : (Alerts.plainHttp.transportError url cause).toList =
      "Post \"".toList ++ (url.toList ++ ("\": ".toList ++ cause.toList)) := by
    simp only [Alerts.plainHttp, String.toList_append, List.append_assoc]
  rw [contains, hlist, List.any_eq_true]
  refine ⟨url.toList ++ ("\": ".toList ++ cause.toList), ?_, ?_⟩
  · exact (List.mem_tails _ _).2 (List.suffix_append _ _)
  · exact List.isPrefixOf_iff_prefix.2 (List.prefix_append _ _)

/-- **The bot token leaks**: the error of a last attempt that fails in transport is saved with the
event, and names the URL with the token. -/
theorem token_leaks :
    ¬ ∀ (s : Server) (env : Env patterns) (w₀ w₀' : World)
        (acts : List (Pool.Act ServiceOp Choice)) (w w' : Running),
      NamesURL env.http → w₀.Twin env.http w₀' →
      Lts.run (Running.next s env) (Pool.start w₀) acts = some w →
      Lts.run (Running.next s env) (Pool.start w₀') acts = some w' → SameShown w w' := by
  intro hall
  have hrun : channelsAfter "111111:AAAA-wxyz" = some (failedChannel
      ("Post \"https://api.telegram.org/bot111111:AAAA-wxyz/sendMessage\": " ++
        "dial tcp: i/o timeout")) := by
    decide
  have hrun' : channelsAfter "222222:BBBB-wxyz" = some (failedChannel
      ("Post \"https://api.telegram.org/bot222222:BBBB-wxyz/sendMessage\": " ++
        "dial tcp: i/o timeout")) := by
    decide
  obtain ⟨w, hw, hchannels⟩ := Option.map_eq_some_iff.1 hrun
  obtain ⟨w', hw', hchannels'⟩ := Option.map_eq_some_iff.1 hrun'
  have hsame := hall publicServer plainEnv _ _ downNetwork w w' namesURL_plainHttp
    (twin_storedToken _ twinTokens twinCiphers) hw hw'
  have hevents := congrArg (fun t => t.rows.map Alerts.Event.channels) hsame.2
  exact absurd (hchannels'.symm.trans (hevents.trans hchannels)) (by decide)

/-! ## Handlers in step -/

inductive Sync (http : Alerts.Http) (h : List (Prog.Call Op Op.Ans)) :
    (op op' : Op) → (op.Ans → op'.Ans → Prop) → Prop
  | auth (op : Auth.Op) : Sync http h (.auth op) (.auth op) Eq
  | alerts {op op' : Alerts.Op} {Q : op.Ans → op'.Ans → Prop}
    (hsync : Alerts.Sync http (alertsCalls h) op op' Q) : Sync http h (.alerts op) (.alerts op') Q
  | system (call : SystemCall) : Sync http h (.system call) (.system call) Eq

def Op.Plain : Op → Prop
  | .alerts op => op.Plain
  | _ => True

section

variable {http : Alerts.Http} {h : List (Prog.Call Op Op.Ans)}

theorem Op.Plain.sync {op : Op} (hop : op.Plain) (h : List (Prog.Call Op Op.Ans)) :
    Sync http h op op Eq := by
  cases op with
  | auth op => exact .auth op
  | alerts op => exact .alerts (.plain hop)
  | system call => exact .system call

theorem inStep_plain {α : Type} {p : M α} (hp : p.Only Op.Plain) :
    p.InStep (Sync http) (fun _ => Eq) h p :=
  (Prog.inStep_of_only (I := fun _ => True) (fun h _ hop _ => hop.sync h)
    (fun _ _ _ _ _ => trivial) hp trivial).mono fun _ _ _ hab => hab.1

theorem inStep_onHost {α : Type} {p : M α} (hp : p.Only Op.OnHost) :
    p.InStep (Sync http) (fun _ => Eq) h p :=
  inStep_plain <| hp.mono fun op hop => by
    cases op with
    | system call => trivial
    | _ => exact hop.elim

theorem inStep_liftAuth {α : Type} (p : Auth.M α) :
    (liftAuth p).InStep (Sync http) (fun _ => Eq) h (liftAuth p) :=
  inStep_plain (Prog.only_lift (p.only_true.mono fun _ _ => trivial))

theorem inStep_liftAlerts {α : Type} {p p' : Alerts.M α}
    (hp : p.InStep (Alerts.Sync http) (fun _ => Eq) (alertsCalls h) p') :
    (liftAlerts p).InStep (Sync http) (fun _ => Eq) h (liftAlerts p') :=
  hp.lift (fun _ _ _ => rfl) fun _ _ _ _ hsync => .alerts hsync

variable {s : Server} {env : Env patterns} {r : Request} {ctx : Context}

theorem inStep_alertsInfo :
    s.alertsInfo.InStep (Sync http) (fun _ => Eq) h s.alertsInfo := by
  unfold alertsInfo
  split_ifs
  · refine (inStep_liftAlerts (Alerts.inStep_isEnabled _)).bind_eq fun h enabled => ?_
    exact inStep_plain ((Prog.only_lift (Prog.only_op trivial)).bind fun _ => Prog.only_ret _)
  · exact Prog.inStep_ret.2 rfl

theorem inStep_handleInfo : s.handleInfo.InStep (Sync http) (fun _ => Eq) h s.handleInfo := by
  have call {h : List (Prog.Call Op Op.Ans)} (call : SystemCall) :
      (system call).InStep (Sync http) (fun _ => Eq) h (system call) :=
    inStep_onHost (onHost_system call)
  unfold handleInfo
  refine (call _).bind_eq fun h _ => (inStep_onHost onHost_getLocalIPs).bind_eq fun h _ => ?_
  refine (inStep_onHost onHost_requiredPackagesStatus).bind_eq fun h _ => ?_
  refine inStep_alertsInfo.bind_eq fun h _ => ?_
  refine (call _).bind_eq fun h _ => (call _).bind_eq fun h _ => ?_
  refine (call _).bind_eq fun h _ => (call _).bind_eq fun h _ => ?_
  refine (inStep_onHost (onHost_requiredPackagesInstallCommand _)).bind_eq fun h _ => ?_
  exact Prog.inStep_ret.2 rfl

theorem inStep_handleAlertsConfig (crypto : Alerts.Crypto) :
    (s.handleAlertsConfig crypto r ctx).InStep (Sync http) (fun _ => Eq) h
      (s.handleAlertsConfig crypto r ctx) := by
  unfold handleAlertsConfig
  split_ifs
  · exact Prog.inStep_ret.2 rfl
  · exact (inStep_liftAlerts (Alerts.inStep_configView _ _)).bind_eq fun _ _ =>
      Prog.inStep_ret.2 rfl
  · unfold putAlertsConfig
    cases s.requireAlertMutationAccess ctx with
    | error refusal => exact Prog.inStep_ret.2 rfl
    | ok =>
      cases r.decode Alerts.UpdateConfigInput.field {} with
      | none => exact Prog.inStep_ret.2 rfl
      | some body =>
        refine (inStep_liftAlerts (Alerts.inStep_updateConfig crypto body _)).bind_eq ?_
        intro h answer
        cases answer <;> exact Prog.inStep_ret.2 rfl
  · exact Prog.inStep_ret.2 rfl

theorem inStep_handleAlertsStatus :
    (s.handleAlertsStatus r).InStep (Sync http) (fun _ => Eq) h (s.handleAlertsStatus r) := by
  unfold handleAlertsStatus
  split_ifs
  · exact Prog.inStep_ret.2 rfl
  · exact Prog.inStep_ret.2 rfl
  · exact (inStep_liftAlerts (Alerts.inStep_status _ _)).bind_eq fun _ _ => Prog.inStep_ret.2 rfl

theorem inStep_handleAlertsHistory :
    (s.handleAlertsHistory r).InStep (Sync http) (fun _ => Eq) h (s.handleAlertsHistory r) := by
  unfold handleAlertsHistory
  split_ifs
  · exact Prog.inStep_ret.2 rfl
  · exact Prog.inStep_ret.2 rfl
  · cases parseLimit r 50 with
    | none => exact Prog.inStep_ret.2 rfl
    | some limit =>
      cases parseBeforeID r with
      | none => exact Prog.inStep_ret.2 rfl
      | some beforeID =>
        refine (inStep_liftAlerts (Alerts.inStep_plain (Alerts.plain_listEvents _ _) _)).bind_eq ?_
        intro h answer
        cases answer <;> exact Prog.inStep_ret.2 rfl

theorem inStep_handleAlertsTest (hh : alertsCalls h = []) :
    (s.handleAlertsTest r ctx).InStep (Sync http) (fun _ => Eq) h (s.handleAlertsTest r ctx) := by
  unfold handleAlertsTest
  split_ifs
  · exact Prog.inStep_ret.2 rfl
  · exact Prog.inStep_ret.2 rfl
  · cases s.requireAlertMutationAccess ctx with
    | error refusal => exact Prog.inStep_ret.2 rfl
    | ok =>
      have htest : (liftAlerts Alerts.triggerTest).InStep (Sync http) (fun _ => Eq) h
          (liftAlerts Alerts.triggerTest) := by
        refine inStep_liftAlerts ?_
        rw [hh]
        exact Alerts.inStep_triggerTest
      refine htest.bind_eq fun h answer => ?_
      cases answer <;> exact Prog.inStep_ret.2 rfl

theorem inStep_handleAlertsSilence :
    (s.handleAlertsSilence r ctx).InStep (Sync http) (fun _ => Eq) h
      (s.handleAlertsSilence r ctx) := by
  unfold handleAlertsSilence
  split_ifs
  · exact Prog.inStep_ret.2 rfl
  · unfold postSilence
    cases s.requireAlertMutationAccess ctx with
    | error refusal => exact Prog.inStep_ret.2 rfl
    | ok =>
      cases r.decode (intField "minutes") 0 with
      | none => exact Prog.inStep_ret.2 rfl
      | some minutes =>
        refine (inStep_liftAlerts (Alerts.inStep_setSilence minutes _)).bind_eq ?_
        intro h answer
        cases answer <;> exact Prog.inStep_ret.2 rfl
  · unfold deleteSilence
    cases s.requireAlertMutationAccess ctx with
    | error refusal => exact Prog.inStep_ret.2 rfl
    | ok =>
      refine (inStep_liftAlerts (Alerts.inStep_saveSilence none _)).bind_eq ?_
      intro h answer
      cases answer <;> exact Prog.inStep_ret.2 rfl
  · exact Prog.inStep_ret.2 rfl

/-- A handler that runs before any call to the alert service is in step with itself. -/
theorem inStep_handle (route : Route) (hh : alertsCalls h = []) :
    (s.handle env route r ctx).InStep (Sync http) (fun _ => Eq) h (s.handle env route r ctx) := by
  by_cases hhost : route.onHost = true
  · exact inStep_onHost (onHost_handle hhost r ctx)
  cases route with
  | info => exact inStep_handleInfo
  | authLogin | authLogout | authMe | users | userByID | userAudit => exact inStep_liftAuth _
  | alertsConfig => exact inStep_handleAlertsConfig env.crypto
  | alertsStatus => exact inStep_handleAlertsStatus
  | alertsHistory => exact inStep_handleAlertsHistory
  | alertsTest => exact inStep_handleAlertsTest hh
  | alertsSilence => exact inStep_handleAlertsSilence
  | _ => exact absurd rfl hhost

theorem inStep_serveMuxHTTP (hh : alertsCalls h = []) :
    (s.serveMuxHTTP env r ctx).InStep (Sync http) (fun _ => Eq) h (s.serveMuxHTTP env r ctx) := by
  unfold serveMuxHTTP
  split_ifs
  · exact Prog.inStep_ret.2 rfl
  · cases env.mux.dispatch r.method r.escapedPath with
    | redirect path => exact Prog.inStep_ret.2 rfl
    | notFound => exact Prog.inStep_ret.2 rfl
    | handler pattern =>
      simp only
      cases Route.find pattern with
      | none => exact Prog.inStep_ret.2 rfl
      | some route => exact (inStep_handle route hh).bind_eq fun _ _ => Prog.inStep_ret.2 rfl

/-- The check of the session makes no call to the alert service. -/
theorem inStep_get (token : String) (hh : alertsCalls h = []) :
    (liftAuth (s.sessions.get token)).InStep (Sync http) (fun h a b => a = b ∧ alertsCalls h = [])
      h (liftAuth (s.sessions.get token)) := by
  have hauth : (liftAuth (s.sessions.get token)).Only fun op => ∃ e, op = Op.auth e :=
    Prog.only_lift ((Prog.only_true _).mono fun e _ => ⟨e, rfl⟩)
  refine Prog.inStep_of_only (I := fun h => alertsCalls h = []) ?_ ?_ hauth hh
  · rintro h _ ⟨e, rfl⟩ -
    exact .auth e
  · rintro h _ r ⟨e, rfl⟩ hh
    exact hh

theorem inStep_serve :
    (s.serve env r).InStep (Sync http) (fun _ => Eq) [] (s.serve env r) := by
  unfold serve
  split_ifs
  · exact inStep_serveMuxHTTP rfl
  · unfold sessionAuthMiddleware
    split_ifs
    · exact inStep_serveMuxHTTP rfl
    · cases r.cookie with
      | none => exact Prog.inStep_ret.2 rfl
      | some token =>
        refine (inStep_get token rfl).bind fun h found found' hfound => ?_
        obtain ⟨rfl, hh⟩ := hfound
        cases found with
        | none => exact Prog.inStep_ret.2 rfl
        | some x => exact inStep_serveMuxHTTP hh

theorem inStep_program (op : ServiceOp) :
    (op.program s env).InStep (Sync http) (fun _ => Eq) [] (op.program s env) := by
  cases op with
  | request r => exact inStep_serve.bind_eq fun _ _ => Prog.inStep_ret.2 rfl
  | evaluate now cpuPercent =>
    exact (inStep_liftAlerts (Alerts.inStep_evaluateSnapshot now cpuPercent)).bind_eq fun _ _ =>
      Prog.inStep_ret.2 rfl
  | cleanup =>
    exact (inStep_liftAlerts (Alerts.inStep_cleanupOldEvents _)).bind_eq fun _ _ =>
      Prog.inStep_ret.2 rfl

end

/-! ## Runs in step -/

theorem execInStep (env : Env patterns) :
    Pool.ExecInStep (Sync env.http) (World.Twin env.http) (exec env) (Tolerated env.http) := by
  rintro h c e e' Q w w' r t hsync ⟨alerts, halerts, rfl⟩ hok hexec
  cases hsync with
  | auth op =>
    obtain ⟨⟨r, u⟩, hcall, heq⟩ := Option.map_eq_some_iff.1 hexec
    cases heq
    exact ⟨r, _, congrArg (Option.map _) hcall, rfl, alerts, halerts, rfl⟩
  | alerts hsync =>
    obtain ⟨⟨r, u⟩, hcall, heq⟩ := Option.map_eq_some_iff.1 hexec
    cases heq
    obtain ⟨r', u', hcall', hr, hu⟩ := Alerts.exec_sync hsync halerts hok hcall
    exact ⟨r', _, congrArg (Option.map _) hcall', hr, u', hu, rfl⟩
  | system call =>
    cases hexec
    exact ⟨_, _, rfl, rfl, alerts, halerts, rfl⟩

/-- **The bot token does not show**, as long as no last attempt to send to Telegram ends with an
error of the HTTP client: beside every run there is one of the same actions with the other token,
and it shows the same. -/
theorem sameShown_of_noFinalFailure {s : Server} {env : Env patterns} {w₀ w₀' : World}
    {acts : List (Pool.Act ServiceOp Choice)} {w : Running} (htwin : w₀.Twin env.http w₀')
    (hok : Lts.Along (Running.next s env) (NoFinalFailure env) (Pool.start w₀) acts)
    (hrun : Lts.run (Running.next s env) (Pool.start w₀) acts = some w) :
    ∃ w', Lts.run (Running.next s env) (Pool.start w₀') acts = some w' ∧ SameShown w w' := by
  obtain ⟨w', hrun', hstep⟩ := Pool.inStep_run inStep_program (execInStep env)
    (Pool.inStep_start htwin) hok hrun
  refine ⟨w', hrun', hstep.results, ?_⟩
  obtain ⟨alerts, ⟨row, service, -, -, rfl⟩, hshared⟩ := hstep.shared
  rw [hshared]

def getHistory : Request where
  method := "GET"
  escapedPath := "/api/alerts/history".toList
  path := "/api/alerts/history".toList

/-- The first of two attempts fails, the second one succeeds; then somebody asks for the history. -/
def shakyNetwork : List (Pool.Act ServiceOp Choice) :=
  [.invoke (.evaluate 0 (.num 80)), .step 0 {}, .step 0 {},
    .invoke (.evaluate 300000000000 (.num 80)), .step 1 {}, .step 1 {}, .step 1 {},
    .step 1 failedSend, .step 1 {}, .step 1 {}, .step 1 {}, .step 1 {}, .step 1 {},
    .invoke (.request getHistory), .step 2 {}]

theorem sameShown_of_noFinalFailure_shakyNetwork :
    ∃ w w',
      Lts.run (Running.next publicServer plainEnv)
        (Pool.start (storedToken (telegramConfig [0, 0]) "111111:AAAA-wxyz")) shakyNetwork =
          some w ∧
      Lts.run (Running.next publicServer plainEnv)
        (Pool.start (storedToken (telegramConfig [0, 0]) "222222:BBBB-wxyz")) shakyNetwork =
          some w' ∧ SameShown w w' := by
  have hrun : (Lts.run (Running.next publicServer plainEnv)
      (Pool.start (storedToken (telegramConfig [0, 0]) "111111:AAAA-wxyz"))
        shakyNetwork).isSome = true := by
    decide
  obtain ⟨w, hw⟩ := Option.isSome_iff_exists.1 hrun
  obtain ⟨w', hw', hsame⟩ :=
    sameShown_of_noFinalFailure (twin_storedToken _ twinTokens twinCiphers) (by decide) hw
  exact ⟨w, w', hw, hw', hsame⟩

end QuickVps.Server
