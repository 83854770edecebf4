import QuickVps.Alerts.Reached

/-!
# The configuration over a history of changes and restarts

A database starts with the default settings. Services are made over it one after another, any
statement may fail, and a service that is up takes changes of its configuration.

* `Host`, `Host.step` — the database with the service over it, and whether each list of the
  configuration was ever given;
* `Host.Kept` — the configuration in memory and the stored one are clean, and their lists are there
  exactly if they were given; `kept_run`: every run keeps this.

**Main results.** `config_stays_valid`: both configurations are valid after every run.
`lists_are_arrays_iff`: the views show every list as an array exactly when both lists of addresses
were given; `default_shows_null`: the first service does not.
-/

namespace QuickVps.Alerts

open Go

deriving instance DecidableEq for SettingsRow

variable {json : JsonText} {http : Http} {crypto : Crypto}

/-! ## Histories -/

/-- Whether a list was given, to the service that is up and to the table. -/
structure Given where
  memory : Bool
  table : Bool
  deriving DecidableEq

/-- A change that is made sets both lists; one that is only stored sets that of the table. -/
def Given.update (g : Given) (given made stored : Bool) : Given where
  memory := if made then g.memory || given else g.memory
  table := if stored then g.memory || given else g.table

def Given.restart (g : Given) : Given := ⟨g.table, g.table⟩

/-- The database, and whether the service over it is up. -/
structure Host where
  disk : Disk
  up : Bool
  emails : Given
  chatIDs : Given

/-- A new database. Its service is not made yet. -/
def Host.fresh (json : JsonText) : Host := ⟨Disk.fresh json, false, ⟨false, false⟩, ⟨false, false⟩⟩

/-- A change of the configuration and a new process, with the choices for their operations. -/
inductive HostStep where
  | update (i : UpdateConfigInput) (hi : i.Fits) (choices : List Choice)
  | restart (base64Key hostname : String) (choices : List Choice)

/-- After a change that was answered or refused. -/
def Host.updated (h : Host) (i : UpdateConfigInput) (answer : Except String ConfigView)
    (disk : Disk) : Host :=
  let made := answer.isOk
  let stored := made || decide (disk.settings ≠ h.disk.settings)
  { disk := disk
    up := true
    emails := h.emails.update i.recipientEmails.isSome made stored
    chatIDs := h.chatIDs.update i.telegramChatIDs.isSome made stored }

/-- After an attempt to make a service. -/
def Host.restarted (h : Host) (made : Except String Service) (disk : Disk) : Host :=
  match made with
  | .error _ => { h with disk := disk, up := false }
  | .ok s =>
    { disk := { disk with service := s, locked := false }
      up := true
      emails := h.emails.restart
      chatIDs := h.chatIDs.restart }

def Host.step (json : JsonText) (http : Http) (crypto : Crypto) (h : Host) :
    HostStep → Option Host
  | .update i _ choices =>
    if h.up then
      ((updateConfig crypto i).run (Disk.exec json http) choices h.disk).map fun r =>
        h.updated i r.1 r.2.2
    else none
  | .restart base64Key hostname choices =>
    ((newService crypto base64Key hostname).run (Disk.exec json http) choices h.disk).map fun r =>
      h.restarted r.1 r.2.2

/-! ## The invariant -/

/-- The lists of addresses are there exactly if they were given. -/
structure Config.Lists (cfg : Config) (emails chatIDs : Bool) : Prop where
  emails : cfg.recipientEmails.isSome = emails
  chatIDs : cfg.telegramChatIDs.isSome = chatIDs

theorem Config.Lists.apply {cfg : Config} {emails chatIDs : Bool} (h : cfg.Lists emails chatIDs)
    (i : UpdateConfigInput) :
    (i.apply cfg).Lists (emails || i.recipientEmails.isSome)
      (chatIDs || i.telegramChatIDs.isSome) := by
  obtain ⟨rfl, rfl⟩ := h
  constructor
  · unfold UpdateConfigInput.apply
    cases i.recipientEmails <;> cases cfg.recipientEmails <;> rfl
  · unfold UpdateConfigInput.apply
    cases i.telegramChatIDs <;> cases cfg.telegramChatIDs <;> rfl

structure Host.Kept (json : JsonText) (h : Host) : Prop where
  memory : h.up = true →
    h.disk.service.cfg.Clean ∧ h.disk.service.cfg.Lists h.emails.memory h.chatIDs.memory
  table : ∃ cfg : Config, h.disk.settings = cfg.row json ∧ cfg.Clean ∧
    cfg.Lists h.emails.table h.chatIDs.table

theorem kept_fresh : (Host.fresh json).Kept json :=
  ⟨nofun, defaultConfig, rfl, clean_defaultConfig, rfl, rfl⟩

theorem kept_updated {h : Host} (hkept : h.Kept json) (hup : h.up = true) {i : UpdateConfigInput}
    (hi : i.Fits) {cs cs' : List Choice} {answer : Except String ConfigView} {disk : Disk}
    (hrun : (updateConfig crypto i).run (Disk.exec json http) cs h.disk =
      some (answer, cs', disk)) : (h.updated i answer disk).Kept json := by
  obtain ⟨hclean, hlists⟩ := hkept.memory hup
  rcases updateConfig_cases hrun with
    ⟨⟨err, rfl⟩, rfl | ⟨hvalid, rfl⟩⟩ | ⟨hvalid, token, password, rfl, -, rfl⟩
  · -- refused
    have hsame : (h.updated i (.error err) { h.disk with locked := false }) =
        { h with disk := { h.disk with locked := false }, up := true } := by
      simp [Host.updated, Given.update, Except.isOk, Except.toBool]
    rw [hsame]
    exact ⟨fun _ => ⟨hclean, hlists⟩, hkept.table⟩
  · -- the settings were stored, the secrets were not
    refine ⟨fun _ => ⟨hclean, hlists⟩, ?_⟩
    by_cases hchanged : (i.apply h.disk.service.cfg).row json = h.disk.settings
    · obtain ⟨cfg, hrow, hcfg⟩ := hkept.table
      refine ⟨cfg, hchanged.trans hrow, ?_⟩
      simpa [Host.updated, Given.update, Except.isOk, Except.toBool, hchanged] using hcfg
    · refine ⟨_, rfl, clean_apply hi hclean hvalid, ?_⟩
      simpa [Host.updated, Given.update, Except.isOk, Except.toBool, hchanged] using hlists.apply i
  · -- made
    have hcfg : (i.apply h.disk.service.cfg).Clean := clean_apply hi hclean hvalid
    exact ⟨fun _ => ⟨hcfg, hlists.apply i⟩, _, rfl, hcfg, hlists.apply i⟩

theorem Op.Queries.disk_eq {op : Op} (hop : op.Queries) {c : Choice} {d d' : Disk} {r : op.Ans}
    (h : Disk.exec json http c op d = some (r, d')) : d' = d := by
  cases op with
  | sql stmt =>
    cases hfault : c.fault with
    | some err =>
      simp only [Disk.exec, hfault] at h
      cases h
      rfl
    | none =>
      simp only [Disk.exec, hfault] at h
      cases stmt with
      | loadConfig | loadSecretRecord | listEvents _ _ | getMutedUntil =>
        cases h
        rfl
      | _ => cases hop
  | now =>
    cases h
    rfl
  | _ => exact hop.elim

theorem newService_disk {base64Key hostname : String} {cs cs' : List Choice}
    {made : Except String Service} {d d' : Disk}
    (h : (newService crypto base64Key hostname).run (Disk.exec json http) cs d =
      some (made, cs', d')) : d' = d :=
  (only_newService crypto base64Key hostname).run_keeps (I := fun t => t = d)
    (fun _ _ _ _ _ hop hexec ht => (hop.disk_eq hexec).trans ht) h rfl

theorem kept_restarted (hjson : json.RoundTrips) {h : Host} (hkept : h.Kept json)
    {base64Key hostname : String} {cs cs' : List Choice} {made : Except String Service}
    {disk : Disk}
    (hrun : (newService crypto base64Key hostname).run (Disk.exec json http) cs h.disk =
      some (made, cs', disk)) : (h.restarted made disk).Kept json := by
  obtain ⟨cfg, hrow, hcfg, hlists⟩ := hkept.table
  have hconfig : h.disk.settings.config json = cfg := by
    rw [hrow, config_row hjson hcfg.delays_fit]
  cases made with
  | error err =>
    obtain rfl := newService_disk hrun
    exact ⟨nofun, cfg, hrow, hcfg, hlists⟩
  | ok s =>
    obtain ⟨rfl, key, mutedUntil, now, rfl⟩ := newService_ok (hconfig ▸ hcfg.delays_ne_nil) hrun
    refine ⟨fun _ => ?_, cfg, hrow, hcfg, hlists⟩
    show (h.disk.settings.config json).Clean ∧ (h.disk.settings.config json).Lists _ _
    rw [hconfig]
    exact ⟨hcfg, hlists⟩

/-- **Step.** -/
theorem kept_step (hjson : json.RoundTrips) (h : Host) (a : HostStep) (h' : Host)
    (hkept : h.Kept json) (hstep : h.step json http crypto a = some h') : h'.Kept json := by
  cases a with
  | update i hi choices =>
    unfold Host.step at hstep
    dsimp only at hstep
    split_ifs at hstep with hup
    obtain ⟨r, hrun, rfl⟩ := Option.map_eq_some_iff.1 hstep
    exact kept_updated hkept hup hi hrun
  | restart base64Key hostname choices =>
    obtain ⟨r, hrun, rfl⟩ := Option.map_eq_some_iff.1 hstep
    exact kept_restarted hjson hkept hrun

/-- **Run.** -/
theorem kept_run (hjson : json.RoundTrips) {steps : List HostStep} {h : Host}
    (hrun : Lts.run (Host.step json http crypto) (Host.fresh json) steps = some h) :
    h.Kept json :=
  Lts.invariant (kept_step hjson) kept_fresh hrun

/-! ## Both configurations are valid -/

/-- A configuration that the evaluator and the notifier can work with. -/
structure Config.Proper (cfg : Config) : Prop where
  accepted : validateConfig cfg = none
  recovery_nonneg : 0 ≤ cfg.recoveryPercent
  recovery_lt_warning : cfg.recoveryPercent < cfg.warningPercent
  warning_lt_critical : cfg.warningPercent < cfg.criticalPercent
  critical_le : cfg.criticalPercent ≤ 100
  windows_pos : ∀ n ∈ [cfg.warningForSec, cfg.criticalForSec, cfg.recoveryForSec], 0 < n
  cooldown_nonneg : 0 ≤ cfg.cooldownSec
  delays : ∃ ds, cfg.retryDelaysSec = some ds ∧ ds ≠ [] ∧ ∀ d ∈ ds, 0 ≤ d
  emails : ∀ xs, cfg.recipientEmails = some xs → ∀ x ∈ xs, x ≠ "" ∧ trim x = x
  chatIDs : ∀ xs, cfg.telegramChatIDs = some xs → ∀ x ∈ xs, x ≠ "" ∧ trim x = x

theorem percents_of_validateConfig {cfg : Config} (h : validateConfig cfg = none) :
    0 ≤ cfg.recoveryPercent ∧ cfg.criticalPercent ≤ 100 := by
  unfold validateConfig at h
  split_ifs at h with h₁ h₂ h₃ h₄ h₅ h₆ h₇
  rw [not_or, not_lt, gt_iff_lt, not_lt] at h₃
  rw [not_or, gt_iff_lt, not_lt] at h₂
  exact ⟨h₃.1, h₂.2⟩

theorem Config.Clean.proper {cfg : Config} (h : cfg.Clean) : cfg.Proper := by
  have hvalid := valid_of_validateConfig h.valid
  obtain ⟨hrecovery, hcritical⟩ := percents_of_validateConfig h.valid
  have hdelays : ∃ ds, cfg.retryDelaysSec = some ds ∧ ds ≠ [] ∧ ∀ d ∈ ds, 0 ≤ d := by
    have hne := h.delays_ne_nil
    have hnonneg := h.delays_nonneg
    cases hds : cfg.retryDelaysSec with
    | none =>
      rw [hds] at hne
      exact absurd rfl hne
    | some ds =>
      rw [hds] at hne hnonneg
      exact ⟨ds, rfl, hne, hnonneg⟩
  have hitems {list : Option (List String)} (hlist : ∀ x ∈ list.getD [], Item x) :
      ∀ xs, list = some xs → ∀ x ∈ xs, x ≠ "" ∧ trim x = x := by
    rintro xs rfl
    exact hlist
  exact {
    accepted := h.valid
    recovery_nonneg := hrecovery
    recovery_lt_warning := hvalid.recovery_lt_warning
    warning_lt_critical := hvalid.warning_lt_critical
    critical_le := hcritical
    windows_pos := by
      simpa using ⟨hvalid.warningForSec_pos, hvalid.criticalForSec_pos, hvalid.recoveryForSec_pos⟩
    cooldown_nonneg := hvalid.cooldownSec_nonneg
    delays := hdelays
    emails := hitems h.emails
    chatIDs := hitems h.chatIDs }

/-- **Main result.** After every history of changes and restarts, whatever statements fail, the
configuration of the service that is up is proper, and so is the one that `LoadConfig` reads, which
it does unless its statement fails. -/
theorem config_stays_valid (hjson : json.RoundTrips) {steps : List HostStep} {h : Host}
    (hrun : Lts.run (Host.step json http crypto) (Host.fresh json) steps = some h) :
    (h.up = true → h.disk.service.cfg.Proper) ∧
      ∃ stored : Config, stored.Proper ∧
        loadConfig.run (Disk.exec json http) [{}] h.disk = some (.ok stored, [], h.disk) ∧
        ∀ cs cs' cfg disk,
          loadConfig.run (Disk.exec json http) cs h.disk = some (.ok cfg, cs', disk) →
            cfg = stored := by
  have hkept := kept_run hjson hrun
  obtain ⟨cfg, hrow, hclean, -⟩ := hkept.table
  have hconfig : h.disk.settings.config json = cfg := by
    rw [hrow, config_row hjson hclean.delays_fit]
  refine ⟨fun hup => (hkept.memory hup).1.proper, cfg, hclean.proper, ?_, ?_⟩
  · have hread : loadConfig.run (Disk.exec json http) [{}] h.disk =
        (if (h.disk.settings.config json).retryDelaysSec.getD [] = [] then
          return .ok { h.disk.settings.config json with retryDelaysSec := some [1, 5, 15] }
        else return .ok (h.disk.settings.config json) : M _).run (Disk.exec json http) [] h.disk :=
      rfl
    rw [hread, hconfig, if_neg hclean.delays_ne_nil]
    rfl
  · intro cs cs' cfg' disk hload
    exact (loadConfig_ok (hconfig ▸ hclean.delays_ne_nil) hload).1.trans hconfig

/-- A first service, and a change of one of its windows. -/
def narrowed : List HostStep :=
  [.restart "" "host" [{}, {}, {}, {}],
    .update { warningForSec := some 60 } (by constructor <;> simp [DelaysFit, minInt64, maxInt64])
      [{}, {}, {}, {}]]

theorem config_stays_valid_narrowed :
    ∃ h, Lts.run (Host.step plainJsonText plainHttp plainCrypto) (Host.fresh plainJsonText)
        narrowed = some h ∧ h.up = true ∧ h.disk.service.cfg.warningForSec = 60 ∧
      h.disk.service.cfg.Proper :=
  ⟨_, rfl, rfl, rfl, (config_stays_valid roundTrips_plainJsonText
    (rfl : Lts.run (Host.step plainJsonText plainHttp plainCrypto) (Host.fresh plainJsonText)
      narrowed = some _)).1 rfl⟩

/-! ## The lists that the views show -/

def IsArray (v : Option Json) : Prop := ∃ items, v = some (.arr items)

/-- What the page joins: the three lists are arrays. -/
structure ShowsArrays (v : ConfigView) : Prop where
  emails : IsArray (v.json.member "recipient_emails")
  chatIDs : IsArray (v.json.member "telegram_chat_ids")
  delays : IsArray (v.json.member "retry_delays_sec")

theorem isArray_opt_iff {α : Type} (f : α → Json) (xs : Option (List α)) :
    IsArray (some (.opt (fun xs => .arr (xs.map f)) xs)) ↔ xs.isSome = true := by
  cases xs with
  | none => exact iff_of_false (fun ⟨_, h⟩ => by cases h) Bool.false_ne_true
  | some xs => exact iff_of_true ⟨_, rfl⟩ rfl

theorem showsArrays_iff (v : ConfigView) :
    ShowsArrays v ↔ v.config.recipientEmails.isSome = true ∧
      v.config.telegramChatIDs.isSome = true ∧ v.config.retryDelaysSec.isSome = true := by
  rw [← isArray_opt_iff Json.str v.config.recipientEmails,
    ← isArray_opt_iff Json.str v.config.telegramChatIDs,
    ← isArray_opt_iff Json.int v.config.retryDelaysSec]
  exact ⟨fun h => ⟨h.emails, h.chatIDs, h.delays⟩, fun ⟨h₁, h₂, h₃⟩ => ⟨h₁, h₂, h₃⟩⟩

theorem Config.Clean.showsArrays_iff {cfg : Config} (hclean : cfg.Clean) {emails chatIDs : Bool}
    (hlists : cfg.Lists emails chatIDs) {v : ConfigView} (hv : v.config = cfg) :
    ShowsArrays v ↔ emails = true ∧ chatIDs = true := by
  obtain ⟨ds, hds, -⟩ := hclean.proper.delays
  rw [QuickVps.Alerts.showsArrays_iff, hv, hlists.emails, hlists.chatIDs, hds]
  simp

/-- **Main result.** After every history of changes and restarts, whatever statements fail, the view
of the service that is up shows its lists as arrays if and only if both lists of addresses were
given to it; and so does the view with which a change is answered, where those that it gives
count. -/
theorem lists_are_arrays_iff (hjson : json.RoundTrips) {steps : List HostStep} {h : Host}
    (hrun : Lts.run (Host.step json http crypto) (Host.fresh json) steps = some h)
    (hup : h.up = true) :
    (∀ readOnly, ShowsArrays (h.disk.service.configView readOnly) ↔
      h.emails.memory = true ∧ h.chatIDs.memory = true) ∧
      ∀ (i : UpdateConfigInput) (cs cs' : List Choice) (view : ConfigView) (disk : Disk), i.Fits →
        (updateConfig crypto i).run (Disk.exec json http) cs h.disk = some (.ok view, cs', disk) →
        (ShowsArrays view ↔ (h.emails.memory || i.recipientEmails.isSome) = true ∧
          (h.chatIDs.memory || i.telegramChatIDs.isSome) = true) := by
  obtain ⟨hclean, hlists⟩ := (kept_run hjson hrun).memory hup
  refine ⟨fun readOnly => hclean.showsArrays_iff hlists rfl, ?_⟩
  intro i cs cs' view disk hi hupdate
  rcases updateConfig_cases hupdate with ⟨⟨err, herr⟩, -⟩ | ⟨hvalid, token, password, hview, -, -⟩
  · cases herr
  · cases hview
    exact (clean_apply hi hclean hvalid).showsArrays_iff (hlists.apply i) rfl

/-- Given to the service and stored. -/
def Given.Settled (g : Given) : Prop := g.memory = true ∧ g.table = true

theorem Given.Settled.update {g : Given} (h : g.Settled) (given made stored : Bool) :
    (g.update given made stored).Settled := by
  obtain ⟨memory, table⟩ := g
  obtain ⟨rfl, rfl⟩ := h
  cases made <;> cases stored <;> exact ⟨rfl, rfl⟩

/-- **Once a change that gives both lists has been made, they are shown as arrays for good.** -/
theorem settled_run {steps : List HostStep} {h h' : Host}
    (hsettled : h.emails.Settled ∧ h.chatIDs.Settled)
    (hrun : Lts.run (Host.step json http crypto) h steps = some h') :
    h'.emails.Settled ∧ h'.chatIDs.Settled := by
  refine Lts.invariant (I := fun h => h.emails.Settled ∧ h.chatIDs.Settled) ?_ hsettled hrun
  rintro h (⟨i, hi, choices⟩ | ⟨base64Key, hostname, choices⟩) h' hs hstep
  · unfold Host.step at hstep
    dsimp only at hstep
    split_ifs at hstep
    obtain ⟨r, -, rfl⟩ := Option.map_eq_some_iff.1 hstep
    exact ⟨hs.1.update _ _ _, hs.2.update _ _ _⟩
  · obtain ⟨⟨made, -, disk⟩, -, rfl⟩ := Option.map_eq_some_iff.1 hstep
    cases made with
    | error err => exact hs
    | ok s => exact ⟨⟨hs.1.2, hs.1.2⟩, ⟨hs.2.2, hs.2.2⟩⟩

/-- The page can join the lists of a service to which both were given. -/
def addressed : List HostStep :=
  [.restart "" "host" [{}, {}, {}, {}],
    .update { recipientEmails := some [], telegramChatIDs := some ["42"] }
      (by constructor <;> simp [DelaysFit]) [{}, {}, {}, {}]]

theorem lists_are_arrays_addressed :
    ∃ h, Lts.run (Host.step plainJsonText plainHttp plainCrypto) (Host.fresh plainJsonText)
        addressed = some h ∧ ShowsArrays (h.disk.service.configView false) :=
  ⟨_, rfl, ((lists_are_arrays_iff roundTrips_plainJsonText
    (rfl : Lts.run (Host.step plainJsonText plainHttp plainCrypto) (Host.fresh plainJsonText)
      addressed = some _) rfl).1 false).2 ⟨rfl, rfl⟩⟩

/-- **The first service shows null for both lists.** -/
theorem default_shows_null :
    ∃ h, Lts.run (Host.step plainJsonText plainHttp plainCrypto) (Host.fresh plainJsonText)
        [.restart "" "host" [{}, {}, {}, {}]] = some h ∧ h.up = true ∧
      (h.disk.service.configView false).json.member "recipient_emails" = some .null ∧
      (h.disk.service.configView false).json.member "telegram_chat_ids" = some .null ∧
      ¬ ShowsArrays (h.disk.service.configView false) :=
  ⟨_, rfl, rfl, rfl, rfl, fun h => Bool.false_ne_true ((showsArrays_iff _).1 h).1⟩

end QuickVps.Alerts
