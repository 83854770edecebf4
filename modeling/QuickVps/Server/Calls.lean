import QuickVps.Server.Routes

/-!
# The handlers of the host

The handlers of metrics, disk scan, ports, firewall, packages and web files, and the parts of the
information page besides the alerts, call only the host.
-/

namespace QuickVps.Server

def Op.OnHost : Op → Prop
  | .system _ => True
  | _ => False

variable {s : Server} {env : Env patterns}

theorem onHost_system (call : SystemCall) : (system call).Only Op.OnHost := Prog.only_op trivial

/-- A call and then a response. -/
theorem onHost_respond {call : SystemCall} {f : call.Ans → M Response}
    (hf : ∀ answer, ∃ resp, f answer = pure resp) : (system call >>= f).Only Op.OnHost := by
  refine (onHost_system call).bind fun answer => ?_
  obtain ⟨resp, hresp⟩ := hf answer
  rw [hresp]
  exact Prog.only_ret _

/-! ## Information about the host -/

theorem onHost_resolvePublicIP (localIP : String) : (resolvePublicIP localIP).Only Op.OnHost := by
  refine (onHost_system _).bind fun answer => ?_
  cases answer <;> exact Prog.only_ret _

theorem onHost_getLocalIPs : getLocalIPs.Only Op.OnHost := by
  refine (onHost_system _).bind fun answer => ?_
  cases answer with
  | none => exact onHost_resolvePublicIP _
  | some ip =>
    simp only
    split_ifs
    · exact onHost_resolvePublicIP _
    · exact Prog.only_ret _

theorem onHost_requiredPackagesStatus : requiredPackagesStatus.Only Op.OnHost :=
  (onHost_system _).bind fun _ => (onHost_system _).bind fun _ => Prog.only_ret _

theorem onHost_requiredPackagesInstallCommand (missing : List String) :
    (requiredPackagesInstallCommand missing).Only Op.OnHost := by
  unfold requiredPackagesInstallCommand
  split_ifs
  · exact Prog.only_ret _
  · exact (onHost_system _).bind fun _ => Prog.only_ret _

/-! ## Metrics, disk scan and ports -/

theorem onHost_handleMetrics : handleMetrics.Only Op.OnHost :=
  onHost_respond fun answer => by cases answer <;> exact ⟨_, rfl⟩

theorem onHost_handleWS : handleWS.Only Op.OnHost :=
  onHost_respond fun answer => by cases answer <;> exact ⟨_, rfl⟩

theorem onHost_putInterval (r : Request) : (putInterval r).Only Op.OnHost := by
  unfold putInterval
  cases r.decode (intField "interval_ms") 0 with
  | none => exact Prog.only_ret _
  | some intervalMS =>
    simp only
    split_ifs
    · exact Prog.only_ret _
    · exact onHost_respond fun answer => by cases answer <;> exact ⟨_, rfl⟩

theorem onHost_handleInterval (r : Request) : (handleInterval r).Only Op.OnHost := by
  unfold handleInterval
  split_ifs
  · exact onHost_respond fun _ => ⟨_, rfl⟩
  · exact onHost_putInterval r
  · exact Prog.only_ret _

theorem onHost_handleNcduScan (r : Request) : (handleNcduScan r).Only Op.OnHost := by
  unfold handleNcduScan
  split_ifs
  · refine onHost_respond fun answer => ?_
    match answer with
    | .error err => exact ⟨_, rfl⟩
    | .ok mode => cases mode <;> exact ⟨_, rfl⟩
  · exact onHost_respond fun _ => ⟨_, rfl⟩
  · exact Prog.only_ret _

theorem onHost_handleNcduStatus : handleNcduStatus.Only Op.OnHost :=
  onHost_respond fun _ => ⟨_, rfl⟩

theorem onHost_putCache (r : Request) : (putCache r).Only Op.OnHost := by
  unfold putCache
  cases r.decode (intField "cache_ttl_sec") 0 with
  | none => exact Prog.only_ret _
  | some cacheTTLSec =>
    simp only
    split_ifs
    · exact Prog.only_ret _
    · exact onHost_respond fun answer => by cases answer <;> exact ⟨_, rfl⟩

theorem onHost_handleNcduCache (r : Request) : (handleNcduCache r).Only Op.OnHost := by
  unfold handleNcduCache
  split_ifs
  · exact onHost_respond fun _ => ⟨_, rfl⟩
  · exact onHost_putCache r
  · exact Prog.only_ret _

theorem onHost_handlePorts (r : Request) : (handlePorts r).Only Op.OnHost := by
  unfold handlePorts
  split_ifs
  · exact Prog.only_ret _
  · exact onHost_respond fun answer => by cases answer <;> exact ⟨_, rfl⟩

theorem onHost_handlePortByID (r : Request) : (handlePortByID r).Only Op.OnHost := by
  unfold handlePortByID
  split_ifs
  · exact Prog.only_ret _
  · cases parsePort r.path with
    | none => exact Prog.only_ret _
    | some port =>
      refine onHost_respond fun answer => ?_
      match answer with
      | (_, none) => exact ⟨_, rfl⟩
      | (_, some err) => cases err <;> exact ⟨_, rfl⟩

/-! ## Firewall, packages and web files -/

theorem onHost_linuxAudit {r : Request} {unsupported : String} {page : M Response}
    (hpage : page.Only Op.OnHost) : (s.linuxAudit r unsupported page).Only Op.OnHost := by
  unfold linuxAudit
  split_ifs
  · exact Prog.only_ret _
  · exact Prog.only_ret _
  · exact hpage

theorem onHost_listPage {call : M (Except String Go.Json)} {name : String}
    (hcall : call.Only Op.OnHost) : (listPage call name).Only Op.OnHost := by
  refine hcall.bind fun answer => ?_
  cases answer <;> exact Prog.only_ret _

theorem onHost_handleFirewallStatus (r : Request) :
    (s.handleFirewallStatus r).Only Op.OnHost :=
  onHost_linuxAudit (onHost_respond fun _ => ⟨_, rfl⟩)

theorem onHost_handleFirewallRules (r : Request) : (s.handleFirewallRules r).Only Op.OnHost :=
  onHost_linuxAudit (onHost_listPage (onHost_system _))

theorem onHost_handleFirewallExposures (r : Request) :
    (s.handleFirewallExposures r).Only Op.OnHost :=
  onHost_linuxAudit (onHost_listPage (onHost_system _))

theorem onHost_handlePackagesInventory (r : Request) :
    (s.handlePackagesInventory r).Only Op.OnHost :=
  onHost_linuxAudit (onHost_respond fun _ => ⟨_, rfl⟩)

theorem onHost_handlePackagesUpdates (r : Request) :
    (s.handlePackagesUpdates r).Only Op.OnHost :=
  onHost_linuxAudit (onHost_respond fun _ => ⟨_, rfl⟩)

theorem onHost_spaHandler (r : Request) : (spaHandler r).Only Op.OnHost :=
  onHost_respond fun answer => by cases answer <;> exact ⟨_, rfl⟩

/-! ## By route -/

def Route.onHost : Route → Bool
  | ws => true
  | interval => true
  | metrics => true
  | ports => true
  | portByID => true
  | ncduScan => true
  | ncduCache => true
  | ncduStatus => true
  | firewallStatus => true
  | firewallRules => true
  | firewallExposures => true
  | packagesInventory => true
  | packagesUpdates => true
  | spa => true
  | _ => false

theorem onHost_handle {route : Route} (hroute : route.onHost = true) (r : Request)
    (ctx : Context) : (s.handle env route r ctx).Only Op.OnHost := by
  cases route with
  | ws => exact onHost_handleWS
  | interval => exact onHost_handleInterval r
  | metrics => exact onHost_handleMetrics
  | ports => exact onHost_handlePorts r
  | portByID => exact onHost_handlePortByID r
  | ncduScan => exact onHost_handleNcduScan r
  | ncduCache => exact onHost_handleNcduCache r
  | ncduStatus => exact onHost_handleNcduStatus
  | firewallStatus => exact onHost_handleFirewallStatus r
  | firewallRules => exact onHost_handleFirewallRules r
  | firewallExposures => exact onHost_handleFirewallExposures r
  | packagesInventory => exact onHost_handlePackagesInventory r
  | packagesUpdates => exact onHost_handlePackagesUpdates r
  | spa => exact onHost_spaHandler r
  | _ => cases hroute

end QuickVps.Server
