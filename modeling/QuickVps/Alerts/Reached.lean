import QuickVps.Alerts.HalfUpdate
import QuickVps.Alerts.Restart

/-!
# What the configuration of the alert service can be

The configuration is changed by requests whose bodies are JSON, and read from the tables when a
service is made. Statements may fail.

* `changeConfig_cases`, `updateConfig_cases` — what a change does to the service and the tables;
* `Disk.Clean` — the configuration is valid, its lists are sanitized, its integers are `int64`s;
* `Reached` — the states after any calls and restarts, which are all clean (`reached_clean`).
-/

namespace QuickVps.Alerts

open Go

variable {json : JsonText} {http : Http} {crypto : Crypto} {cs cs' : List Choice} {d d' : Disk}

/-! ## Changes -/

/-- The secret and the ciphertext of the token. -/
def Service.token (s : Service) : Sealed :=
  ⟨s.secrets.telegramBotToken, s.secretRec.telegramTokenCipher⟩

/-- The secret and the ciphertext of the password. -/
def Service.password (s : Service) : Sealed :=
  ⟨s.secrets.gmailAppPassword, s.secretRec.gmailPasswordCipher⟩

/-- The service that a change leaves, with this token and this password. -/
def Service.changed (s : Service) (i : UpdateConfigInput) (token password : Sealed) : Service :=
  { s with
    cfg := i.apply s.cfg
    secrets :=
      { telegramBotToken := token.secret
        gmailAddress :=
          if trim i.gmailAddress ≠ "" then trim i.gmailAddress else s.secrets.gmailAddress
        gmailAppPassword := password.secret }
    secretRec :=
      { telegramTokenCipher := token.cipher
        gmailAddress :=
          if trim i.gmailAddress ≠ "" then trim i.gmailAddress else s.secretRec.gmailAddress
        gmailPasswordCipher := password.cipher } }

/-- No token and no password is given, and none is to be cleared. -/
structure UpdateConfigInput.Plain (i : UpdateConfigInput) : Prop where
  token : trim i.telegramBotToken = ""
  password : trim i.gmailAppPassword = ""
  clearToken : i.clearTelegramBotToken = false
  clearPassword : i.clearGmailAppPassword = false

theorem changeSecret_kept {s : Service} {given : String} {clear : Bool} {old x : Sealed}
    (hgiven : trim given = "") (hclear : clear = false)
    (h : (changeSecret crypto s given clear old).run (Disk.exec json http) cs d =
      some (.ok x, cs', d')) : x = old := by
  unfold changeSecret at h
  rw [if_neg (not_not.2 hgiven), hclear] at h
  obtain ⟨hx, -, -⟩ := Prog.run_ret h
  exact Except.ok.inj hx

/-- A change is refused, fails at one of the two writes, or is made. -/
theorem changeConfig_cases {s : Service} {i : UpdateConfigInput} {a : Except String Service}
    (h : (changeConfig crypto s i).run (Disk.exec json http) cs d = some (a, cs', d')) :
    (∃ err, a = .error err) ∧ (d' = d ∨ validateConfig (i.apply s.cfg) = none ∧
        d' = { d with settings := (i.apply s.cfg).row json }) ∨
      validateConfig (i.apply s.cfg) = none ∧ ∃ token password,
        a = .ok (s.changed i token password) ∧
          (i.Plain → token = s.token ∧ password = s.password) ∧
            d' =
              { d with
                settings := (i.apply s.cfg).row json
                secrets := (s.changed i token password).secretRec } := by
  unfold changeConfig at h
  cases hvalid : validateConfig (i.apply s.cfg) with
  | some err =>
    simp only [hvalid] at h
    obtain ⟨rfl, -, rfl⟩ := Prog.run_ret h
    exact .inl ⟨⟨err, rfl⟩, .inl rfl⟩
  | none =>
    simp only [hvalid] at h
    obtain ⟨token, ds, t, htoken, hrest⟩ := Prog.run_bind h
    obtain ⟨rfl, ⟨⟨err, rfl⟩, -⟩ | ⟨⟨token, rfl⟩, -⟩⟩ := changeSecret_run htoken
    · obtain ⟨rfl, -, rfl⟩ := Prog.run_ret hrest
      exact .inl ⟨⟨err, rfl⟩, .inl rfl⟩
    obtain ⟨password, es, u, hpassword, hrest⟩ := Prog.run_bind hrest
    obtain ⟨rfl, ⟨⟨err, rfl⟩, -⟩ | ⟨⟨password, rfl⟩, -⟩⟩ := changeSecret_run hpassword
    · obtain ⟨rfl, -, rfl⟩ := Prog.run_ret hrest
      exact .inl ⟨⟨err, rfl⟩, .inl rfl⟩
    obtain ⟨saved, fs, v, hsave, hsaved⟩ := Prog.run_bind hrest
    obtain ⟨-, ⟨⟨err, rfl⟩, -, rfl⟩ | ⟨rfl, -, rfl⟩⟩ := saveConfig_run hsave
    · obtain ⟨rfl, -, rfl⟩ := Prog.run_ret hsaved
      exact .inl ⟨⟨err, rfl⟩, .inl rfl⟩
    obtain ⟨saved, gs, x, hsave', hend⟩ := Prog.run_bind hsaved
    rcases saveSecretRecord_run hsave' with ⟨⟨err, rfl⟩, -, rfl⟩ | ⟨rfl, -, rfl⟩
    · obtain ⟨rfl, -, rfl⟩ := Prog.run_ret hend
      exact .inl ⟨⟨err, rfl⟩, .inr ⟨rfl, rfl⟩⟩
    · obtain ⟨rfl, -, rfl⟩ := Prog.run_ret hend
      refine .inr ⟨rfl, token, password, rfl, fun hplain => ⟨?_, ?_⟩, rfl⟩
      · exact changeSecret_kept hplain.token hplain.clearToken htoken
      · exact changeSecret_kept hplain.password hplain.clearPassword hpassword

theorem updateConfig_cases {i : UpdateConfigInput} {a : Except String ConfigView}
    (h : (updateConfig crypto i).run (Disk.exec json http) cs d = some (a, cs', d')) :
    let s := d.service
    (∃ err, a = .error err) ∧
        (d' = { d with locked := false } ∨ validateConfig (i.apply s.cfg) = none ∧
          d' = { d with settings := (i.apply s.cfg).row json, locked := false }) ∨
      validateConfig (i.apply s.cfg) = none ∧ ∃ token password,
        a = .ok (s.changed i token password).updatedView ∧
          (i.Plain → token = s.token ∧ password = s.password) ∧
            d' =
              { d with
                settings := (i.apply s.cfg).row json
                secrets := (s.changed i token password).secretRec
                service := s.changed i token password
                locked := false } := by
  obtain ⟨s, ds, t, hlock, hrest⟩ := Prog.run_bind h
  obtain ⟨rfl, rfl, rfl⟩ := lock_run hlock
  obtain ⟨changed, es, u, hchange, hrest⟩ := Prog.run_bind hrest
  rcases changeConfig_cases hchange with
    ⟨⟨err, rfl⟩, hd⟩ | ⟨hvalid, token, password, rfl, hplain, rfl⟩
  · obtain ⟨_, fs, v, hunlock, hret⟩ := Prog.run_bind hrest
    obtain ⟨rfl, -, rfl⟩ := Prog.run_ret hret
    obtain rfl := unlock_run hunlock
    refine .inl ⟨⟨err, rfl⟩, ?_⟩
    rcases hd with rfl | ⟨hvalid, rfl⟩
    · exact .inl rfl
    · exact .inr ⟨hvalid, rfl⟩
  · obtain ⟨_, fs, v, hunlock, hret⟩ := Prog.run_bind hrest
    obtain ⟨rfl, -, rfl⟩ := Prog.run_ret hret
    obtain rfl := unlock_run hunlock
    exact .inr ⟨hvalid, token, password, rfl, hplain, rfl⟩

/-! ### Where nothing fails -/

theorem changeSecret_plain {s : Service} {given : String} {old : Sealed}
    (hgiven : trim given = "") :
    (changeSecret crypto s given false old).run (Disk.exec json http) cs d =
      some (.ok old, cs, d) := by
  unfold changeSecret
  rw [if_neg (not_not.2 hgiven)]
  rfl

theorem saveConfig_plain (cfg : Config) :
    (saveConfig cfg).run (Disk.exec json http) ({} :: cs) d =
      some (.ok (), cs, { d with settings := cfg.row json }) := rfl

theorem saveSecretRecord_plain (row : SecretRecord) :
    (saveSecretRecord row).run (Disk.exec json http) ({} :: cs) d =
      some (.ok (), cs, { d with secrets := row }) := rfl

theorem changeConfig_plain {s : Service} {i : UpdateConfigInput} (hplain : i.Plain)
    (hvalid : validateConfig (i.apply s.cfg) = none) :
    (changeConfig crypto s i).run (Disk.exec json http) ({} :: {} :: cs) d =
      some (.ok (s.changed i s.token s.password), cs,
        { d with
          settings := (i.apply s.cfg).row json
          secrets := (s.changed i s.token s.password).secretRec }) := by
  unfold changeConfig
  simp only [hvalid, hplain.clearToken, hplain.clearPassword]
  rw [Prog.run_bind_of_run (changeSecret_plain hplain.token),
    Prog.run_bind_of_run (changeSecret_plain hplain.password),
    Prog.run_bind_of_run (saveConfig_plain (i.apply s.cfg)),
    Prog.run_bind_of_run (saveSecretRecord_plain _)]
  rfl

/-- A valid change without secrets is made where nothing fails. -/
theorem updateConfig_plain {i : UpdateConfigInput} (hplain : i.Plain)
    (hvalid : validateConfig (i.apply d.service.cfg) = none) (hunlocked : d.locked = false) :
    let s := d.service.changed i d.service.token d.service.password
    (updateConfig crypto i).run (Disk.exec json http) [{}, {}, {}, {}] d =
      some (.ok s.updatedView, [],
        { d with
          settings := s.cfg.row json, secrets := s.secretRec, service := s, locked := false }) := by
  have hlock : (Prog.op Op.lock : M Service).run (Disk.exec json http) [{}, {}, {}, {}] d =
      some (d.service, [{}, {}, {}], { d with locked := true }) := by
    simp [Prog.op, Prog.run, Disk.exec, exec, Disk.world, Disk.update, hunlocked]
  unfold updateConfig
  rw [Prog.run_bind_of_run hlock, Prog.run_bind_of_run (changeConfig_plain hplain hvalid)]
  rfl

/-! ## Integers of a request -/

/-- The integers of a request are `int64`s. -/
structure UpdateConfigInput.Fits (i : UpdateConfigInput) : Prop where
  warningForSec : ∀ n ∈ i.warningForSec, minInt64 ≤ n ∧ n ≤ maxInt64
  criticalForSec : ∀ n ∈ i.criticalForSec, minInt64 ≤ n ∧ n ≤ maxInt64
  recoveryForSec : ∀ n ∈ i.recoveryForSec, minInt64 ≤ n ∧ n ≤ maxInt64
  cooldownSec : ∀ n ∈ i.cooldownSec, minInt64 ≤ n ∧ n ≤ maxInt64
  retryDelaysSec : DelaysFit i.retryDelaysSec

theorem range_of_readInt64 {v : Json} {n : Int} (h : v.readInt64 = some n) :
    minInt64 ≤ n ∧ n ≤ maxInt64 := by
  cases v with
  | int m =>
    unfold Json.readInt64 at h
    simp only at h
    split_ifs at h with hrange
    exact Option.some.inj h ▸ hrange
  | _ => cases h

theorem read_of_orNil {α : Type} {read : Json → Option α} {v : Json} {x : α}
    (h : v.orNil read = some (some x)) : read v = some x := by
  cases v with
  | null => cases h
  | _ =>
    change (read _).map some = _ at h
    obtain ⟨y, hread, heq⟩ := Option.map_eq_some_iff.1 h
    cases heq
    exact hread

/-- The elements of a slice have what the values that can be read have. -/
theorem forall_of_readSlice {α : Type} {read : Json → Option α} {zero : α} {P : α → Prop}
    (hzero : P zero) (hread : ∀ v x, read v = some x → P x) {v : Json} {xs : List α}
    (h : Json.readSlice read zero v = some xs) : ∀ x ∈ xs, P x := by
  cases v with
  | arr items =>
    change items.mapM (Json.orKeep read zero) = some xs at h
    induction items generalizing xs with
    | nil =>
      obtain rfl := Option.some.inj h
      simp
    | cons v items ih =>
      rw [List.mapM_cons] at h
      obtain ⟨x, hx, h⟩ := Option.bind_eq_some_iff.1 h
      obtain ⟨rest, hrest, h⟩ := Option.bind_eq_some_iff.1 h
      obtain rfl := Option.some.inj h
      rw [List.forall_mem_cons]
      refine ⟨?_, ih hrest⟩
      cases v with
      | null => exact Option.some.inj hx ▸ hzero
      | _ => exact hread _ x hx
  | _ => cases h

theorem range_of_orNil {v : Json} {x : Option Int} (h : v.orNil Json.readInt64 = some x) :
    ∀ n ∈ x, minInt64 ≤ n ∧ n ≤ maxInt64 := by
  rintro n rfl
  exact range_of_readInt64 (read_of_orNil h)

theorem fit_of_orNil {v : Json} {x : Option (List Int)}
    (h : v.orNil (Json.readSlice Json.readInt64 0) = some x) : DelaysFit x := by
  rintro xs rfl
  exact forall_of_readSlice (by decide) (fun _ _ => range_of_readInt64) (read_of_orNil h)

theorem fits_field {name : String} {v : Json} {i i' : UpdateConfigInput} (hi : i.Fits)
    (h : i.field name v = some i') : i'.Fits := by
  unfold UpdateConfigInput.field at h
  split at h
  case h_19 =>
    obtain rfl := Option.some.inj h
    exact hi
  all_goals
    obtain ⟨x, hx, rfl⟩ := Option.map_eq_some_iff.1 h
  case h_3 => exact { hi with warningForSec := range_of_orNil hx }
  case h_5 => exact { hi with criticalForSec := range_of_orNil hx }
  case h_7 => exact { hi with recoveryForSec := range_of_orNil hx }
  case h_8 => exact { hi with cooldownSec := range_of_orNil hx }
  case h_13 => exact { hi with retryDelaysSec := fit_of_orNil hx }
  all_goals exact { hi with }

/-- A body is read as a request with `int64`s. -/
theorem fits_of_decode {body : Json} {i : UpdateConfigInput}
    (h : body.decode UpdateConfigInput.field {} = some i) : i.Fits := by
  have hzero : UpdateConfigInput.Fits {} := by constructor <;> simp [DelaysFit]
  cases body with
  | null => exact Option.some.inj h ▸ hzero
  | obj members =>
    change members.foldlM _ _ = some i at h
    generalize ({} : UpdateConfigInput) = j at h hzero
    induction members generalizing j with
    | nil => exact Option.some.inj h ▸ hzero
    | cons m members ih =>
      rw [List.foldlM_cons] at h
      obtain ⟨k, hk, h⟩ := Option.bind_eq_some_iff.1 h
      exact ih k h (fits_field hzero hk)
  | _ => cases h

/-! ## Clean states -/

/-- A text that `sanitizeStringSlice` keeps. -/
def Item (x : String) : Prop := x ≠ "" ∧ trim x = x

/-- The four numbers of seconds. -/
def Config.seconds (cfg : Config) : List Int :=
  [cfg.warningForSec, cfg.criticalForSec, cfg.recoveryForSec, cfg.cooldownSec]

/-- The configuration is valid, its lists are sanitized, and its integers are `int64`s. -/
structure Config.Clean (cfg : Config) : Prop where
  valid : validateConfig cfg = none
  emails : ∀ x ∈ cfg.recipientEmails.getD [], Item x
  chatIDs : ∀ x ∈ cfg.telegramChatIDs.getD [], Item x
  delays_ne_nil : cfg.retryDelaysSec.getD [] ≠ []
  delays_nonneg : ∀ n ∈ cfg.retryDelaysSec.getD [], 0 ≤ n
  delays_fit : DelaysFit cfg.retryDelaysSec
  seconds_fit : ∀ n ∈ cfg.seconds, minInt64 ≤ n ∧ n ≤ maxInt64

theorem clean_defaultConfig : defaultConfig.Clean := by
  constructor
  case emails => exact fun x hx => absurd hx (List.not_mem_nil)
  case chatIDs => exact fun x hx => absurd hx (List.not_mem_nil)
  all_goals decide

theorem item_sanitizeStringSlice {xs : List String} {x : String}
    (h : x ∈ sanitizeStringSlice xs) : Item x := by
  unfold sanitizeStringSlice at h
  obtain ⟨hmem, hne⟩ := List.mem_filter.1 h
  obtain ⟨raw, -, rfl⟩ := List.mem_map.1 hmem
  exact ⟨of_decide_eq_true hne, trim_trim raw⟩

/-- An accepted change of a clean configuration gives a clean one. -/
theorem clean_apply {i : UpdateConfigInput} {cfg : Config} (hi : i.Fits) (hcfg : cfg.Clean)
    (hvalid : validateConfig (i.apply cfg) = none) : (i.apply cfg).Clean where
  valid := hvalid
  emails := by
    unfold UpdateConfigInput.apply
    cases i.recipientEmails with
    | none => exact hcfg.emails
    | some xs => exact fun x => item_sanitizeStringSlice
  chatIDs := by
    unfold UpdateConfigInput.apply
    cases i.telegramChatIDs with
    | none => exact hcfg.chatIDs
    | some xs => exact fun x => item_sanitizeStringSlice
  delays_ne_nil := delays_apply hcfg.delays_ne_nil
  delays_nonneg := by
    unfold UpdateConfigInput.apply
    cases i.retryDelaysSec with
    | none => exact hcfg.delays_nonneg
    | some xs => exact fun n => nonneg_sanitizeRetryDelays
  delays_fit := fit_apply hi.retryDelaysSec hcfg.delays_fit
  seconds_fit := by
    have hgiven {given : Option Int} {old : Int}
        (hfits : ∀ n ∈ given, minInt64 ≤ n ∧ n ≤ maxInt64)
        (hold : minInt64 ≤ old ∧ old ≤ maxInt64) :
        minInt64 ≤ given.getD old ∧ given.getD old ≤ maxInt64 := by
      cases given with
      | none => exact hold
      | some n => exact hfits n rfl
    have hseconds := hcfg.seconds_fit
    simp only [Config.seconds, List.forall_mem_cons] at hseconds ⊢
    obtain ⟨hwarning, hcritical, hrecovery, hcooldown, hnil⟩ := hseconds
    exact ⟨hgiven hi.warningForSec hwarning, hgiven hi.criticalForSec hcritical,
      hgiven hi.recoveryForSec hrecovery, hgiven hi.cooldownSec hcooldown, hnil⟩

/-- The configuration in memory and the one of the tables are clean, and the address is
trimmed. -/
structure Disk.Clean (json : JsonText) (d : Disk) : Prop where
  cfg : d.service.cfg.Clean
  settings : ∃ cfg : Config, cfg.Clean ∧ d.settings = cfg.row json
  address : trim d.service.secretRec.gmailAddress = d.service.secretRec.gmailAddress
  secrets : d.service.secrets.gmailAddress = d.service.secretRec.gmailAddress
  row : trim d.secrets.gmailAddress = d.secrets.gmailAddress
  unlocked : d.locked = false

theorem trim_changed {s : Service} (h : trim s.secretRec.gmailAddress = s.secretRec.gmailAddress)
    (i : UpdateConfigInput) (token password : Sealed) :
    trim (s.changed i token password).secretRec.gmailAddress =
      (s.changed i token password).secretRec.gmailAddress := by
  unfold Service.changed
  simp only
  split_ifs
  · exact trim_trim i.gmailAddress
  · exact h

theorem address_changed {s : Service} (h : s.secrets.gmailAddress = s.secretRec.gmailAddress)
    (i : UpdateConfigInput) (token password : Sealed) :
    (s.changed i token password).secrets.gmailAddress =
      (s.changed i token password).secretRec.gmailAddress := by
  unfold Service.changed
  simp only
  rw [h]

theorem updateConfig_clean (hd : d.Clean json) {i : UpdateConfigInput} (hi : i.Fits)
    {a : Except String ConfigView}
    (h : (updateConfig crypto i).run (Disk.exec json http) cs d = some (a, cs', d')) :
    d'.Clean json := by
  rcases updateConfig_cases h with
    ⟨-, rfl | ⟨hvalid, rfl⟩⟩ | ⟨hvalid, token, password, -, -, rfl⟩
  · exact { hd with unlocked := rfl }
  · exact { hd with settings := ⟨_, clean_apply hi hd.cfg hvalid, rfl⟩, unlocked := rfl }
  · have hcfg := clean_apply hi hd.cfg hvalid
    have haddress := trim_changed hd.address i token password
    exact ⟨hcfg, ⟨_, hcfg, rfl⟩, haddress, address_changed hd.secrets i token password, haddress,
      rfl⟩

theorem changed_self {s : Service} {i : UpdateConfigInput} (happly : i.apply s.cfg = s.cfg)
    (haddress : (if trim i.gmailAddress ≠ "" then trim i.gmailAddress
      else s.secretRec.gmailAddress) = s.secretRec.gmailAddress)
    (hsecrets : s.secrets.gmailAddress = s.secretRec.gmailAddress) :
    s.changed i s.token s.password = s := by
  have haddress' : (if trim i.gmailAddress ≠ "" then trim i.gmailAddress
      else s.secrets.gmailAddress) = s.secrets.gmailAddress := by
    rw [hsecrets]
    exact haddress
  simp only [Service.changed, happly, haddress, haddress']
  rfl

/-- A change without secrets is made, and no run of it changes anything, exactly if it gives the
configuration and the address that there are and the tables hold them. -/
theorem keeps_iff {i : UpdateConfigInput} (hplain : i.Plain) (hd : d.Clean json) :
    ((∃ cs view d', (updateConfig crypto i).run (Disk.exec json http) cs d =
        some (.ok view, [], d')) ∧
      ∀ cs a cs' d', (updateConfig crypto i).run (Disk.exec json http) cs d = some (a, cs', d') →
        SameSettings d d') ↔
      i.apply d.service.cfg = d.service.cfg ∧
      (if trim i.gmailAddress ≠ "" then trim i.gmailAddress
        else d.service.secretRec.gmailAddress) = d.service.secretRec.gmailAddress ∧
      d.settings = d.service.cfg.row json ∧ d.secrets = d.service.secretRec := by
  constructor
  · rintro ⟨⟨cs, view, d', hrun⟩, hall⟩
    obtain ⟨⟨hcfg, -, hrow⟩, hsettings, hsecrets⟩ := hall cs _ _ d' hrun
    rcases updateConfig_cases hrun with ⟨⟨err, herr⟩, -⟩ | ⟨-, token, password, -, -, rfl⟩
    · cases herr
    · have happly : i.apply d.service.cfg = d.service.cfg := hcfg
      refine ⟨happly, congrArg SecretRecord.gmailAddress hrow, ?_, hsecrets.symm.trans hrow⟩
      rw [← hsettings, happly]
  · rintro ⟨happly, haddress, hsettings, hsecrets⟩
    have hvalid : validateConfig (i.apply d.service.cfg) = none := by
      rw [happly]
      exact hd.cfg.valid
    refine ⟨⟨_, _, _, updateConfig_plain hplain hvalid hd.unlocked⟩, fun cs a cs' d' hrun => ?_⟩
    rcases updateConfig_cases hrun with
      ⟨-, rfl | ⟨-, rfl⟩⟩ | ⟨-, token, password, -, hkept, rfl⟩
    · exact ⟨⟨rfl, rfl, rfl⟩, rfl, rfl⟩
    · refine ⟨⟨rfl, rfl, rfl⟩, ?_, rfl⟩
      rw [happly]
      exact hsettings.symm
    · obtain ⟨rfl, rfl⟩ := hkept hplain
      rw [changed_self happly haddress hd.secrets, happly]
      exact ⟨⟨rfl, rfl, rfl⟩, hsettings.symm, hsecrets.symm⟩

/-! ## A new service -/

/-- A program that succeeds, and fails when its first statement does, did not fail there. -/
theorem stmt_bind_ok {α : Type} {s : Stmt} {k : Except String s.Ans → M (Except String α)} {a : α}
    (h : (stmt s >>= k).run (Disk.exec json http) cs d = some (.ok a, cs', d'))
    (hk : ∀ err, ∃ text, k (.error err) = pure (.error text)) :
    ∃ answer ds t, d.execStmt json s = (answer, t) ∧
      (k answer).run (Disk.exec json http) ds t = some (.ok a, cs', d') := by
  obtain ⟨answer, ds, t, hstmt, hrest⟩ := Prog.run_bind h
  obtain ⟨c, -, ⟨-, ⟨err, rfl⟩, -⟩ | ⟨-, hexec⟩⟩ := stmt_run hstmt
  · obtain ⟨text, hfails⟩ := hk err
    rw [hfails] at hrest
    obtain ⟨herr, -, -⟩ := Prog.run_ret hrest
    cases herr
  · exact ⟨answer, ds, t, hexec, hrest⟩

theorem loadConfig_ok {cfg : Config}
    (hdelays : (d.settings.config json).retryDelaysSec.getD [] ≠ [])
    (h : loadConfig.run (Disk.exec json http) cs d = some (.ok cfg, cs', d')) :
    cfg = d.settings.config json ∧ d' = d := by
  obtain ⟨answer, ds, t, hexec, hrest⟩ := stmt_bind_ok h fun err => ⟨_, rfl⟩
  cases hexec
  change (if (d.settings.config json).retryDelaysSec.getD [] = [] then _ else _ : M _).run _ ds
    d = _ at hrest
  rw [if_neg hdelays] at hrest
  obtain ⟨hcfg, -, rfl⟩ := Prog.run_ret hrest
  exact ⟨Except.ok.inj hcfg, rfl⟩

theorem loadSecretRecord_ok {row : SecretRecord}
    (h : loadSecretRecord.run (Disk.exec json http) cs d = some (.ok row, cs', d')) :
    row = d.secrets ∧ d' = d := by
  obtain ⟨answer, ds, t, hexec, hrest⟩ := stmt_bind_ok h fun err => ⟨_, rfl⟩
  cases hexec
  obtain ⟨hrow, -, rfl⟩ := Prog.run_ret hrest
  exact ⟨Except.ok.inj hrow, rfl⟩

theorem getMutedUntil_ok {mutedUntil : Option Int}
    (h : getMutedUntil.run (Disk.exec json http) cs d = some (.ok mutedUntil, cs', d')) :
    d' = d := by
  obtain ⟨answer, ds, t, hexec, hrest⟩ := stmt_bind_ok h fun err => ⟨_, rfl⟩
  cases hexec
  obtain ⟨-, -, rfl⟩ := Prog.run_ret hrest
  rfl

/-- A service that is made has the configuration and the secrets of the tables. -/
theorem newService_ok {base64Key hostname : String} {s : Service}
    (hdelays : (d.settings.config json).retryDelaysSec.getD [] ≠ [])
    (h : (newService crypto base64Key hostname).run (Disk.exec json http) cs d =
      some (.ok s, cs', d')) :
    d' = d ∧ ∃ key mutedUntil now,
      s = Service.init crypto key hostname (d.settings.config json) d.secrets mutedUntil now := by
  obtain ⟨loaded, ds, t, hload, hrest⟩ := Prog.run_bind h
  cases loaded with
  | error err =>
    obtain ⟨herr, -, -⟩ := Prog.run_ret hrest
    cases herr
  | ok cfg =>
    obtain ⟨rfl, rfl⟩ := loadConfig_ok hdelays hload
    obtain ⟨row, ds₁, t₁, hrow, hrest⟩ := Prog.run_bind hrest
    cases row with
    | error err =>
      obtain ⟨herr, -, -⟩ := Prog.run_ret hrest
      cases herr
    | ok row =>
      obtain ⟨rfl, rfl⟩ := loadSecretRecord_ok hrow
      cases hkey : serviceKey crypto base64Key with
      | error err =>
        rw [hkey] at hrest
        obtain ⟨herr, -, -⟩ := Prog.run_ret hrest
        cases herr
      | ok key =>
        rw [hkey] at hrest
        obtain ⟨muted, ds₂, t₂, hmuted, hrest⟩ := Prog.run_bind hrest
        cases muted with
        | error err =>
          obtain ⟨herr, -, -⟩ := Prog.run_ret hrest
          cases herr
        | ok mutedUntil =>
          obtain rfl := getMutedUntil_ok hmuted
          obtain ⟨now, ds₃, t₃, hnow, hrest⟩ := Prog.run_bind hrest
          obtain ⟨c, -, hexec⟩ := Prog.run_op hnow
          cases hexec
          obtain ⟨hs, -, rfl⟩ := Prog.run_ret hrest
          exact ⟨rfl, key, mutedUntil, c.now, Except.ok.inj hs⟩

/-- A service over clean tables is clean. -/
theorem clean_newService (hjson : json.RoundTrips) {base64Key hostname : String}
    {s : Service} {cfg : Config} (hcfg : cfg.Clean) (hsettings : d.settings = cfg.row json)
    (hrow : trim d.secrets.gmailAddress = d.secrets.gmailAddress)
    (h : (newService crypto base64Key hostname).run (Disk.exec json http) cs d =
      some (.ok s, cs', d')) :
    Disk.Clean json { d' with service := s, locked := false } := by
  have hconfig : d.settings.config json = cfg := by
    rw [hsettings, config_row hjson hcfg.delays_fit]
  obtain ⟨rfl, key, mutedUntil, now, rfl⟩ := newService_ok (hconfig ▸ hcfg.delays_ne_nil) h
  exact ⟨hconfig ▸ hcfg, ⟨cfg, hcfg, hsettings⟩, hrow, rfl, hrow, rfl⟩

/-! ## Reached states -/

/-- The states between the calls, after a service has been made over new tables. Whatever leaves the
configuration and the secrets alone may happen; a request to change them comes as JSON; and a new
process may make a new service, with any key. -/
inductive Reached (json : JsonText) (http : Http) (crypto : Crypto) : Disk → Prop where
  | start {base64Key hostname : String} {cs cs' : List Choice} {s : Service} {d : Disk}
      (h : (newService crypto base64Key hostname).run (Disk.exec json http) cs (Disk.fresh json) =
        some (.ok s, cs', d)) :
      Reached json http crypto { d with service := s, locked := false }
  | update {body : Json} {i : UpdateConfigInput} {cs cs' : List Choice} {d d' : Disk}
      {a : Except String ConfigView} (hd : Reached json http crypto d)
      (hbody : body.decode UpdateConfigInput.field {} = some i)
      (h : (updateConfig crypto i).run (Disk.exec json http) cs d = some (a, cs', d')) :
      Reached json http crypto d'
  | other {d d' : Disk} (hd : Reached json http crypto d) (hsame : SameSettings d d')
      (hlocked : d'.locked = d.locked) : Reached json http crypto d'
  | restart {base64Key hostname : String} {cs cs' : List Choice} {s : Service} {d d' : Disk}
      (hd : Reached json http crypto d)
      (h : (newService crypto base64Key hostname).run (Disk.exec json http) cs d =
        some (.ok s, cs', d')) :
      Reached json http crypto { d' with service := s, locked := false }

/-- **Invariant.** Every state that is reached is clean. -/
theorem reached_clean (hjson : json.RoundTrips) (h : Reached json http crypto d) :
    d.Clean json := by
  induction h with
  | start h => exact clean_newService hjson clean_defaultConfig rfl rfl h
  | update _ hbody h ih => exact updateConfig_clean ih (fits_of_decode hbody) h
  | other _ hsame hlocked ih =>
    obtain ⟨⟨hcfg, hsecrets, hrow⟩, hsettings, htable⟩ := hsame
    obtain ⟨cfg, hclean, heq⟩ := ih.settings
    refine ⟨hcfg ▸ ih.cfg, ⟨cfg, hclean, hsettings.trans heq⟩, ?_, ?_, ?_, ?_⟩
    · rw [hrow]
      exact ih.address
    · rw [hsecrets, hrow]
      exact ih.secrets
    · rw [htable]
      exact ih.row
    · rw [hlocked]
      exact ih.unlocked
  | restart _ h ih =>
    obtain ⟨cfg, hclean, heq⟩ := ih.settings
    exact clean_newService hjson hclean heq ih.row h

end QuickVps.Alerts
