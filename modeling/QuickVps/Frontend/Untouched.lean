import QuickVps.Frontend.AlertForm

/-!
# Saving the alert form without an edit

The form is filled from the configuration that the backend shows, and saving it sends a request that
the backend applies to the same configuration.

* `Untouched` — the request is accepted and changes neither the configuration nor the secrets;
* `Carries` — the texts of the form carry everything that is shown;
* `untouched_iff` — in every reached state, exactly then the request changes nothing.
-/

namespace QuickVps.Frontend

open Go Alerts

section Request

variable {js : Js.Numbers}

/-! ## The request -/

theorem orNil_strings (xs : List String) :
    Json.orNil (Json.readSlice Json.readString "") (.arr (xs.map .str)) = some (some xs) := by
  show (Json.readSlice Json.readString "" (.arr (xs.map .str))).map some = _
  rw [readSlice_map fun _ _ => rfl]
  rfl

/-- What the backend reads of the body: only numbers can be refused. -/
theorem decode_handleSaveAlerts (form : AlertForm) :
    (handleSaveAlerts js form).decode UpdateConfigInput.field {} = (do
      let warningPercent ← Json.orNil Json.readFloat64 (js.jsonNumber (js.number form.warningPct))
      let warningForSec ← Json.orNil Json.readInt64 (js.jsonNumber (js.number form.warningForSec))
      let criticalPercent ←
        Json.orNil Json.readFloat64 (js.jsonNumber (js.number form.criticalPct))
      let criticalForSec ←
        Json.orNil Json.readInt64 (js.jsonNumber (js.number form.criticalForSec))
      let recoveryPercent ←
        Json.orNil Json.readFloat64 (js.jsonNumber (js.number form.recoveryPct))
      let recoveryForSec ←
        Json.orNil Json.readInt64 (js.jsonNumber (js.number form.recoveryForSec))
      let cooldownSec ← Json.orNil Json.readInt64 (js.jsonNumber (js.number form.cooldownSec))
      let retryDelaysSec ← Json.orNil (Json.readSlice Json.readInt64 0)
        (.arr ((normalizeRetryDelays js form.retryDelaysInput).map fun d : Int => js.json d))
      some
        { enabled := some form.alertEnabled
          warningPercent := warningPercent
          warningForSec := warningForSec
          criticalPercent := criticalPercent
          criticalForSec := criticalForSec
          recoveryPercent := recoveryPercent
          recoveryForSec := recoveryForSec
          cooldownSec := cooldownSec
          telegramEnabled := some form.telegramEnabled
          emailEnabled := some form.emailEnabled
          recipientEmails := some (parseCommaList form.emailsInput)
          telegramChatIDs := some (parseCommaList form.chatIDsInput)
          retryDelaysSec := retryDelaysSec
          telegramBotToken :=
            if form.rotateTelegramSecret then Js.trim form.telegramTokenInput else ""
          clearTelegramBotToken := form.clearTelegramSecret
          gmailAddress := Js.trim form.gmailAddressInput
          gmailAppPassword :=
            if form.rotateGmailSecret then Js.trim form.gmailPasswordInput else ""
          clearGmailAppPassword := form.clearGmailSecret }) := by
  have hnames : ∀ name ∈ ["enabled", "warning_percent", "warning_for_sec", "critical_percent",
      "critical_for_sec", "recovery_percent", "recovery_for_sec", "cooldown_sec",
      "telegram_enabled", "email_enabled", "recipient_emails", "telegram_chat_ids",
      "retry_delays_sec", "telegram_bot_token", "clear_telegram_bot_token", "gmail_address",
      "gmail_app_password", "clear_gmail_app_password"], Json.foldName name = name := by decide
  have hbool (b : Bool) : Json.orNil Json.readBool (.bool b) = some (some b) := rfl
  have hflag (b old : Bool) : Json.orKeep Json.readBool old (.bool b) = some b := rfl
  have htext (s old : String) : Json.orKeep Json.readString old (.str s) = some s := rfl
  simp only [List.forall_mem_cons] at hnames
  simp only [handleSaveAlerts, Json.decode, List.foldlM_cons, List.foldlM_nil, hnames,
    UpdateConfigInput.field, hbool, hflag, htext, orNil_strings, Option.map_some,
    Option.bind_eq_bind, Option.bind_some, Option.bind_map, Function.comp_def]
  rfl

/-- The integers that the backend reads. -/
structure Integers where
  warningForSec : Int
  criticalForSec : Int
  recoveryForSec : Int
  cooldownSec : Int
  retryDelaysSec : List Int

/-- The request of an untouched form, with the integers that are read of it. -/
def request (view : ConfigView) (emails chatIDs : List String) (n : Integers) :
    UpdateConfigInput where
  enabled := some view.config.enabled
  warningPercent := some view.config.warningPercent
  warningForSec := some n.warningForSec
  criticalPercent := some view.config.criticalPercent
  criticalForSec := some n.criticalForSec
  recoveryPercent := some view.config.recoveryPercent
  recoveryForSec := some n.recoveryForSec
  cooldownSec := some n.cooldownSec
  telegramEnabled := some view.config.telegramEnabled
  emailEnabled := some view.config.emailEnabled
  recipientEmails := some (parseCommaList (Js.join emails ", "))
  telegramChatIDs := some (parseCommaList (Js.join chatIDs ", "))
  retryDelaysSec := some n.retryDelaysSec
  gmailAddress := Js.trim view.gmailAddress

/-- The numbers of the configuration are finite numbers of JavaScript. -/
structure Doubles (cfg : Config) : Prop where
  warningPercent : Js.IsDouble cfg.warningPercent
  criticalPercent : Js.IsDouble cfg.criticalPercent
  recoveryPercent : Js.IsDouble cfg.recoveryPercent
  integers : ∀ n ∈ cfg.seconds ++ cfg.retryDelaysSec.getD [], Js.IsDouble n

theorem percents_of_valid {cfg : Config} (h : validateConfig cfg = none) :
    |cfg.warningPercent| ≤ 100 ∧ |cfg.criticalPercent| ≤ 100 ∧ |cfg.recoveryPercent| ≤ 100 := by
  unfold validateConfig at h
  split_ifs at h with h₁ h₂ h₃ h₄ h₅ h₆ h₇
  simp only [not_or, not_le, not_lt] at h₁ h₂ h₃
  exact ⟨abs_le.2 ⟨by linarith, h₁.2⟩, abs_le.2 ⟨by linarith, h₂.2⟩,
    abs_le.2 ⟨by linarith, h₃.2⟩⟩

theorem representable {cfg : Config} (hcfg : cfg.Clean) (hdoubles : Doubles cfg) :
    ∀ n ∈ cfg.seconds ++ cfg.retryDelaysSec.getD [], Representable n := by
  intro n hn
  have hrange : minInt64 ≤ n ∧ n ≤ maxInt64 := by
    rcases List.mem_append.1 hn with hn | hn
    · exact hcfg.seconds_fit n hn
    · cases hdelays : cfg.retryDelaysSec with
      | none => simp [hdelays] at hn
      | some ds =>
        rw [hdelays] at hn
        exact hcfg.delays_fit ds hdelays n hn
  exact ⟨hdoubles.integers n hn, hrange.1, hrange.2⟩

/-- A number of the form is sent as it was shown. -/
theorem orNil_number {α : Type} {read : Json → Option α} {x : ℚ} (h : Js.IsDouble x) :
    Json.orNil read (js.jsonNumber (js.number (js.string x))) = (read (js.json x)).map some := by
  rw [js.number_string x h]
  show Json.orNil read (js.json x) = _
  unfold Js.Numbers.json
  split <;> rfl

theorem orNil_arr {α : Type} {read : Json → Option α} (items : List Json) :
    Json.orNil read (.arr items) = (read (.arr items)).map some := rfl

/-- The body of an untouched form is read if its integers are. -/
theorem decode_untouched {view : ConfigView} {form : AlertForm} {emails chatIDs : List String}
    {delays : List Int} (hvalid : validateConfig view.config = none)
    (hdoubles : Doubles view.config) (hemails : view.config.recipientEmails = some emails)
    (hchatIDs : view.config.telegramChatIDs = some chatIDs)
    (hdelays : view.config.retryDelaysSec = some delays)
    (hload : loadAlertConfig js view = some form) {i : UpdateConfigInput} :
    (handleSaveAlerts js form).decode UpdateConfigInput.field {} = some i ↔
      ∃ n : Integers, i = request view emails chatIDs n ∧
        Json.readInt64 (js.json view.config.warningForSec) = some n.warningForSec ∧
        Json.readInt64 (js.json view.config.criticalForSec) = some n.criticalForSec ∧
        Json.readInt64 (js.json view.config.recoveryForSec) = some n.recoveryForSec ∧
        Json.readInt64 (js.json view.config.cooldownSec) = some n.cooldownSec ∧
        Json.readSlice Json.readInt64 0 (.arr ((normalizeRetryDelays js
          (Js.join (delays.map fun d : Int => js.string d) ",")).map fun d : Int => js.json d)) =
            some n.retryDelaysSec := by
  obtain ⟨hwarning, hcritical, hrecovery⟩ := percents_of_valid hvalid
  have hintegers := hdoubles.integers
  simp only [Config.seconds, List.cons_append, List.nil_append, List.forall_mem_cons]
    at hintegers
  obtain ⟨hwarningFor, hcriticalFor, hrecoveryFor, hcooldown, -⟩ := hintegers
  unfold loadAlertConfig at hload
  simp only [hemails, hchatIDs, hdelays, Option.some.injEq] at hload
  subst hload
  rw [decode_handleSaveAlerts]
  simp only [orNil_number hdoubles.warningPercent, orNil_number hdoubles.criticalPercent,
    orNil_number hdoubles.recoveryPercent, orNil_number hwarningFor, orNil_number hcriticalFor,
    orNil_number hrecoveryFor, orNil_number hcooldown,
    js.readFloat64_json hdoubles.warningPercent hwarning,
    js.readFloat64_json hdoubles.criticalPercent hcritical,
    js.readFloat64_json hdoubles.recoveryPercent hrecovery, orNil_arr, Option.bind_eq_bind,
    Option.bind_map, Function.comp_def, Option.bind_some]
  constructor
  · intro h
    obtain ⟨w, hw, h⟩ := Option.bind_eq_some_iff.1 h
    obtain ⟨c, hc, h⟩ := Option.bind_eq_some_iff.1 h
    obtain ⟨r, hr, h⟩ := Option.bind_eq_some_iff.1 h
    obtain ⟨cool, hcool, h⟩ := Option.bind_eq_some_iff.1 h
    obtain ⟨ds, hds, h⟩ := Option.bind_eq_some_iff.1 h
    obtain rfl := Option.some.inj h
    exact ⟨⟨w, c, r, cool, ds⟩, rfl, hw, hc, hr, hcool, hds⟩
  · rintro ⟨n, rfl, hw, hc, hr, hcool, hds⟩
    simp only [hw, hc, hr, hcool, hds, Option.bind_some]
    rfl

theorem apply_request_eq_iff (view : ConfigView) {emails chatIDs : List String}
    {delays : List Int} (hemails : view.config.recipientEmails = some emails)
    (hchatIDs : view.config.telegramChatIDs = some chatIDs)
    (hdelays : view.config.retryDelaysSec = some delays) {n : Integers} :
    (request view emails chatIDs n).apply view.config = view.config ↔
      (n.warningForSec = view.config.warningForSec ∧
        n.criticalForSec = view.config.criticalForSec ∧
        n.recoveryForSec = view.config.recoveryForSec ∧
        n.cooldownSec = view.config.cooldownSec) ∧
      sanitizeStringSlice (parseCommaList (Js.join emails ", ")) = emails ∧
      sanitizeStringSlice (parseCommaList (Js.join chatIDs ", ")) = chatIDs ∧
      sanitizeRetryDelays n.retryDelaysSec = delays := by
  constructor
  · intro h
    have hlist := congrArg Config.recipientEmails h
    have hlist' := congrArg Config.telegramChatIDs h
    have hslice := congrArg Config.retryDelaysSec h
    rw [hemails] at hlist
    rw [hchatIDs] at hlist'
    rw [hdelays] at hslice
    exact ⟨⟨congrArg Config.warningForSec h, congrArg Config.criticalForSec h,
      congrArg Config.recoveryForSec h, congrArg Config.cooldownSec h⟩, Option.some.inj hlist,
      Option.some.inj hlist', Option.some.inj hslice⟩
  · rintro ⟨⟨hw, hc, hr, hcool⟩, hlist, hlist', hslice⟩
    unfold UpdateConfigInput.apply request
    simp only [Option.getD_some, Option.map_some, Option.some_or, hw, hc, hr, hcool, hlist,
      hlist', hslice]
    rw [← hemails, ← hchatIDs, ← hdelays]

end Request

/-! ## Saving -/

section Saving

variable (js : Js.Numbers) (json : JsonText) (http : Http) (crypto : Crypto) (d : Disk)

/-- The request of the untouched form is accepted, and no run of it changes the configuration or the
secrets. -/
def Untouched (readOnly : Bool) : Prop :=
  ∃ form i, loadAlertConfig js (d.service.configView readOnly) = some form ∧
    (handleSaveAlerts js form).decode UpdateConfigInput.field {} = some i ∧
    (∃ cs view d', (updateConfig crypto i).run (Disk.exec json http) cs d =
      some (.ok view, [], d')) ∧
    ∀ cs a cs' d', (updateConfig crypto i).run (Disk.exec json http) cs d = some (a, cs', d') →
      SameSettings d d'

/-- **What the form carries.** No item of a list has a comma or is changed by `trim`, nor is the
address; every integer is written with its own digits; and the tables hold what is shown. -/
structure Carries : Prop where
  emails : ∀ x ∈ d.service.cfg.recipientEmails.getD [], Carried x
  chatIDs : ∀ x ∈ d.service.cfg.telegramChatIDs.getD [], Carried x
  address : Js.trim d.service.secretRec.gmailAddress = d.service.secretRec.gmailAddress ∨
    trim (Js.trim d.service.secretRec.gmailAddress) = ""
  integers : ∀ n ∈ d.service.cfg.seconds ++ d.service.cfg.retryDelaysSec.getD [], js.Exact n
  settings : d.settings = d.service.cfg.row json
  secrets : d.secrets = d.service.secretRec

variable {js json http crypto d} {readOnly : Bool}

theorem plain_request (view : ConfigView) (emails chatIDs : List String) (n : Integers) :
    (request view emails chatIDs n).Plain := by
  have hempty : trim "" = "" := by decide
  exact ⟨hempty, hempty, rfl, rfl⟩

theorem request_gmailAddress (view : ConfigView) (emails chatIDs : List String) (n : Integers) :
    (request view emails chatIDs n).gmailAddress = Js.trim view.gmailAddress := rfl

theorem address_kept_iff {address : String} (h : trim address = address) :
    (if trim (Js.trim address) ≠ "" then trim (Js.trim address) else address) = address ↔
      Js.trim address = address ∨ trim (Js.trim address) = "" := by
  by_cases hempty : trim (Js.trim address) = ""
  · rw [if_neg (not_not.2 hempty)]
    exact iff_of_true rfl (.inr hempty)
  · rw [if_pos hempty]
    constructor
    · intro heq
      exact .inl (Js.trim_eq_of_goTrim heq)
    · rintro (heq | heq)
      · rw [heq, h]
      · exact absurd heq hempty

theorem forall_getD_iff {α : Type} {P : α → Prop} {xs : Option (List α)} {ys : List α}
    (h : xs = some ys) : (∀ x ∈ xs.getD [], P x) ↔ ∀ x ∈ ys, P x := by
  rw [h, Option.getD_some]

section Lists

variable {emails chatIDs : List String} {delays : List Int} (hclean : d.Clean json)
  (hdoubles : Doubles d.service.cfg) (hemails : d.service.cfg.recipientEmails = some emails)
  (hchatIDs : d.service.cfg.telegramChatIDs = some chatIDs)
  (hdelays : d.service.cfg.retryDelaysSec = some delays)

include hclean hdoubles hemails hchatIDs hdelays in
theorem carries_of_untouched (h : Untouched js json http crypto d readOnly) :
    Carries js json d := by
  obtain ⟨form, i, hload, hbody, hkeeps⟩ := h
  obtain ⟨n, rfl, hw, hc, hr, hcool, hds⟩ :=
    (decode_untouched hclean.cfg.valid hdoubles hemails hchatIDs hdelays hload).1 hbody
  obtain ⟨happly, haddress, hsettings, hsecrets⟩ :=
    (keeps_iff (plain_request _ _ _ _) hclean).1 hkeeps
  obtain ⟨⟨hw', hc', hr', hcool'⟩, hlist, hlist', hslice⟩ :=
    (apply_request_eq_iff (d.service.configView readOnly) hemails hchatIDs hdelays).1
      happly
  have hview : (d.service.configView readOnly).gmailAddress =
      d.service.secretRec.gmailAddress := hclean.address
  rw [request_gmailAddress, hview] at haddress
  have hrep := representable hclean.cfg hdoubles
  rw [hdelays, Option.getD_some, List.forall_mem_append] at hrep
  obtain ⟨hseconds, hdelays_rep⟩ := hrep
  simp only [Config.seconds, List.forall_mem_cons] at hseconds
  obtain ⟨hwarning, hcritical, hrecovery, hcooldown, -⟩ := hseconds
  have hne := hclean.cfg.delays_ne_nil
  rw [hdelays, Option.getD_some] at hne
  refine ⟨?_, ?_, (address_kept_iff hclean.address).1 haddress, ?_, hsettings, hsecrets⟩
  · exact (forall_getD_iff hemails).2
      ((commaList_eq_iff ((forall_getD_iff hemails).1 hclean.cfg.emails)).1 hlist)
  · exact (forall_getD_iff hchatIDs).2
      ((commaList_eq_iff ((forall_getD_iff hchatIDs).1 hclean.cfg.chatIDs)).1 hlist')
  · have hnonneg := (forall_getD_iff hdelays).1 hclean.cfg.delays_nonneg
    have hexact := (retryDelays_eq_iff js hne hnonneg hdelays_rep).1
      (by rw [hds, Option.map_some, hslice])
    rw [hdelays, Option.getD_some, List.forall_mem_append]
    simp only [Config.seconds, List.forall_mem_cons]
    exact ⟨⟨(readInt64_json js hwarning).1 (hw' ▸ hw), (readInt64_json js hcritical).1 (hc' ▸ hc),
      (readInt64_json js hrecovery).1 (hr' ▸ hr), (readInt64_json js hcooldown).1 (hcool' ▸ hcool),
      by simp⟩, hexact⟩

include hclean hdoubles hemails hchatIDs hdelays in
theorem untouched_of_carries (h : Carries js json d) :
    Untouched js json http crypto d readOnly := by
  have hintegers := h.integers
  have hrep := representable hclean.cfg hdoubles
  have hne := hclean.cfg.delays_ne_nil
  rw [hdelays, Option.getD_some] at hne
  rw [hdelays, Option.getD_some, List.forall_mem_append] at hintegers hrep
  simp only [Config.seconds, List.forall_mem_cons] at hintegers hrep
  obtain ⟨⟨hw, hc, hr, hcool, -⟩, hds⟩ := hintegers
  obtain ⟨⟨hwarning, hcritical, hrecovery, hcooldown, -⟩, hdelays_rep⟩ := hrep
  have hlist := (commaList_eq_iff ((forall_getD_iff hemails).1 hclean.cfg.emails)).2
    ((forall_getD_iff hemails).1 h.emails)
  have hlist' := (commaList_eq_iff ((forall_getD_iff hchatIDs).1 hclean.cfg.chatIDs)).2
    ((forall_getD_iff hchatIDs).1 h.chatIDs)
  have hnonneg := (forall_getD_iff hdelays).1 hclean.cfg.delays_nonneg
  obtain ⟨ms, hms, hslice⟩ := Option.map_eq_some_iff.1
    ((retryDelays_eq_iff js hne hnonneg hdelays_rep).2 hds)
  obtain ⟨form, hload⟩ : ∃ form,
      loadAlertConfig js (d.service.configView readOnly) = some form := by
    unfold loadAlertConfig
    simp only [Service.configView, hemails, hchatIDs, hdelays]
    exact ⟨_, rfl⟩
  -- Every integer is read as it is stored.
  let n : Integers :=
    ⟨d.service.cfg.warningForSec, d.service.cfg.criticalForSec, d.service.cfg.recoveryForSec,
      d.service.cfg.cooldownSec, ms⟩
  have hbody := (decode_untouched hclean.cfg.valid hdoubles hemails hchatIDs hdelays hload).2
    ⟨n, rfl, (readInt64_json js hwarning).2 hw, (readInt64_json js hcritical).2 hc,
      (readInt64_json js hrecovery).2 hr, (readInt64_json js hcooldown).2 hcool, hms⟩
  have happly := (apply_request_eq_iff (d.service.configView readOnly) hemails hchatIDs
    hdelays (n := n)).2 ⟨⟨rfl, rfl, rfl, rfl⟩, hlist, hlist', hslice⟩
  have hview : (d.service.configView readOnly).gmailAddress =
      d.service.secretRec.gmailAddress := hclean.address
  refine ⟨form, _, hload, hbody, (keeps_iff (plain_request _ _ _ _) hclean).2
    ⟨happly, ?_, h.settings, h.secrets⟩⟩
  rw [request_gmailAddress, hview]
  exact (address_kept_iff hclean.address).2 h.address

end Lists

/-- **When saving the untouched form changes nothing.** -/
theorem untouched_iff (hjson : json.RoundTrips) (hd : Reached json http crypto d)
    (hemails : d.service.cfg.recipientEmails ≠ none)
    (hchatIDs : d.service.cfg.telegramChatIDs ≠ none)
    (hdelays : d.service.cfg.retryDelaysSec ≠ none) (hdoubles : Doubles d.service.cfg) :
    Untouched js json http crypto d readOnly ↔ Carries js json d := by
  have hclean := reached_clean hjson hd
  obtain ⟨emails, hemails⟩ := Option.ne_none_iff_exists'.1 hemails
  obtain ⟨chatIDs, hchatIDs⟩ := Option.ne_none_iff_exists'.1 hchatIDs
  obtain ⟨delays, hdelays⟩ := Option.ne_none_iff_exists'.1 hdelays
  constructor
  · exact carries_of_untouched hclean hdoubles hemails hchatIDs hdelays
  · exact untouched_of_carries hclean hdoubles hemails hchatIDs hdelays

end Saving

/-! ## A run -/

/-- A request for these recipients and no chats. -/
def recipientsBody (recipients : List String) : Json :=
  .obj [("recipient_emails", .arr (recipients.map .str)), ("telegram_chat_ids", .arr [])]

def recipientsInput (recipients : List String) : UpdateConfigInput :=
  { recipientEmails := some recipients, telegramChatIDs := some [] }

/-- A service without a key over new tables. -/
def begun : Disk := Disk.fresh plainJsonText

/-- After a request for these recipients. -/
def recipientsSaved (recipients : List String) : Disk :=
  let s := begun.service.changed (recipientsInput recipients) begun.service.token
    begun.service.password
  { begun with settings := s.cfg.row plainJsonText, secrets := s.secretRec, service := s }

theorem reached_begun : Reached plainJsonText plainHttp plainCrypto begun := by
  have h : (newService plainCrypto "" "host").run (Disk.exec plainJsonText plainHttp)
      [{}, {}, {}, {}] (Disk.fresh plainJsonText) =
        some (.ok begun.service, [], Disk.fresh plainJsonText) := rfl
  exact Reached.start h

theorem decode_recipientsBody (recipients : List String) :
    (recipientsBody recipients).decode UpdateConfigInput.field {} =
      some (recipientsInput recipients) := by
  have hemails : Json.foldName "recipient_emails" = "recipient_emails" := by decide
  have hchatIDs : Json.foldName "telegram_chat_ids" = "telegram_chat_ids" := by decide
  have hnil : Json.orNil (Json.readSlice Json.readString "") (.arr []) = some (some []) := rfl
  simp only [recipientsBody, Json.decode, List.foldlM_cons, List.foldlM_nil, hemails, hchatIDs,
    UpdateConfigInput.field, orNil_strings, hnil, Option.map_some, Option.bind_eq_bind,
    Option.bind_some]
  rfl

theorem reached_recipientsSaved (recipients : List String) :
    Reached plainJsonText plainHttp plainCrypto (recipientsSaved recipients) := by
  have hempty : trim "" = "" := by decide
  have hvalid : validateConfig ((recipientsInput recipients).apply begun.service.cfg) = none :=
    validateConfig_defaultConfig
  exact Reached.update reached_begun (decode_recipientsBody recipients)
    (updateConfig_plain ⟨hempty, hempty, rfl, rfl⟩ hvalid rfl)

/-- The numbers of the default configuration. -/
theorem doubles_recipientsSaved (recipients : List String) :
    Doubles (recipientsSaved recipients).service.cfg := by
  have hsmall (n : Int) (h : n.natAbs < 2 ^ 53) (x : ℚ) (hx : x = n) : Js.IsDouble x :=
    hx ▸ Js.isDouble_int h
  refine ⟨hsmall 75 (by decide) _ rfl, hsmall 85 (by decide) _ rfl, hsmall 70 (by decide) _ rfl,
    fun n hn => ?_⟩
  have hall : ∀ n ∈ ([300, 600, 300, 1800, 1, 5, 15] : List Int), n.natAbs < 2 ^ 53 := by decide
  exact Js.isDouble_int (hall n hn)

theorem untouched_iff_recipientsSaved :
    Untouched Js.exactNumbers plainJsonText plainHttp plainCrypto
        (recipientsSaved ["ops@example.org", "dev@example.org"]) false ↔
      Carries Js.exactNumbers plainJsonText
        (recipientsSaved ["ops@example.org", "dev@example.org"]) :=
  untouched_iff roundTrips_plainJsonText (reached_recipientsSaved _) (by decide) (by decide)
    (by decide) (doubles_recipientsSaved _)

/-- **A recipient with a comma becomes two recipients**, although no part of the form is edited. -/
theorem comma_not_carried :
    ¬ ∀ (js : Js.Numbers) (json : JsonText) (http : Http) (crypto : Crypto) (d : Disk)
      (readOnly : Bool), json.RoundTrips → Reached json http crypto d →
      d.service.cfg.recipientEmails ≠ none → d.service.cfg.telegramChatIDs ≠ none →
      d.service.cfg.retryDelaysSec ≠ none → Doubles d.service.cfg →
      Untouched js json http crypto d readOnly := by
  intro hall
  have hreached := reached_recipientsSaved ["ops,dev@example.org"]
  have huntouched := hall Js.exactNumbers plainJsonText plainHttp plainCrypto _ false
    roundTrips_plainJsonText hreached (by decide) (by decide) (by decide)
    (doubles_recipientsSaved _)
  have hcarries := carries_of_untouched (reached_clean roundTrips_plainJsonText hreached)
    (doubles_recipientsSaved _) rfl rfl rfl huntouched
  have hcarried := hcarries.emails "ops,dev@example.org" (by decide)
  exact absurd hcarried.1 (by decide)

end QuickVps.Frontend
