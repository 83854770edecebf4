import QuickVps.Alerts.Service
import QuickVps.Go.JsonText

/-!
# The stored settings

The row of `alert_settings` as `SaveConfig` writes it and `LoadConfig` reads it: flags are numbers,
and slices are JSON texts in which null and the empty list differ. The other tables hold their
values as they are.

* `Config.row`, `SettingsRow.config` — both directions, and `config_row`, the round trip;
* `Disk`, `Disk.exec` — the database with that row, and the operations on it;
* `exec_world` — what is done to the row is what is done to the configuration it stands for;
* `stmt_run`, `lock_run`, `unlock_run` — what one operation does.
-/

namespace QuickVps.Alerts

open Go

structure SettingsRow where
  enabled : Int
  warningPercent : ℚ
  warningForSec : Int
  criticalPercent : ℚ
  criticalForSec : Int
  recoveryPercent : ℚ
  recoveryForSec : Int
  cooldownSec : Int
  telegramEnabled : Int
  emailEnabled : Int
  recipientEmails : String
  telegramChatIDs : String
  retryDelaysSec : String

/-! ## Columns -/

def boolToInt (v : Bool) : Int := if v then 1 else 0

def mustJSON (json : JsonText) (v : Json) : String := (json.marshal v).getD "[]"

/-- The slice of a column. It is nil when the text is empty, null, or no slice. -/
def decodeSlice {α : Type} (json : JsonText) (read : Json → Option α) (zero : α) (v : String) :
    Option (List α) :=
  if v = "" then none
  else ((json.unmarshal v).bind (Json.orNil (Json.readSlice read zero))).join

def decodeStringSlice (json : JsonText) (v : String) : Option (List String) :=
  decodeSlice json Json.readString "" v

def decodeIntSlice (json : JsonText) (v : String) : Option (List Int) :=
  decodeSlice json Json.readInt64 0 v

/-- The columns of the configuration. -/
def Config.row (json : JsonText) (cfg : Config) : SettingsRow where
  enabled := boolToInt cfg.enabled
  warningPercent := cfg.warningPercent
  warningForSec := cfg.warningForSec
  criticalPercent := cfg.criticalPercent
  criticalForSec := cfg.criticalForSec
  recoveryPercent := cfg.recoveryPercent
  recoveryForSec := cfg.recoveryForSec
  cooldownSec := cfg.cooldownSec
  telegramEnabled := boolToInt cfg.telegramEnabled
  emailEnabled := boolToInt cfg.emailEnabled
  recipientEmails := mustJSON json (.opt JsonText.strings cfg.recipientEmails)
  telegramChatIDs := mustJSON json (.opt JsonText.strings cfg.telegramChatIDs)
  retryDelaysSec := mustJSON json (.opt JsonText.ints cfg.retryDelaysSec)

/-- The configuration of the columns, before `LoadConfig` looks at the delays. -/
def SettingsRow.config (json : JsonText) (row : SettingsRow) : Config where
  enabled := row.enabled = 1
  warningPercent := row.warningPercent
  warningForSec := row.warningForSec
  criticalPercent := row.criticalPercent
  criticalForSec := row.criticalForSec
  recoveryPercent := row.recoveryPercent
  recoveryForSec := row.recoveryForSec
  cooldownSec := row.cooldownSec
  telegramEnabled := row.telegramEnabled = 1
  emailEnabled := row.emailEnabled = 1
  recipientEmails := decodeStringSlice json row.recipientEmails
  telegramChatIDs := decodeStringSlice json row.telegramChatIDs
  retryDelaysSec := decodeIntSlice json row.retryDelaysSec

/-! ## The round trip -/

/-- The delays are `int`s, which have 64 bits. -/
def DelaysFit (delays : Option (List Int)) : Prop :=
  ∀ xs ∈ delays, ∀ x ∈ xs, minInt64 ≤ x ∧ x ≤ maxInt64

instance (delays : Option (List Int)) : Decidable (DelaysFit delays) :=
  inferInstanceAs (Decidable (∀ xs ∈ delays, ∀ x ∈ xs, _ ∧ _))

theorem boolToInt_eq_one (v : Bool) : decide (boolToInt v = 1) = v := by cases v <;> rfl

section RoundTrip

variable {json : JsonText}

theorem decodeSlice_mustJSON {α : Type} {read : Json → Option α} {zero : α} {v : Json}
    (hempty : json.unmarshal "" = none) (h : (json.marshal v).bind json.unmarshal = some v) :
    decodeSlice json read zero (mustJSON json v) =
      (Json.orNil (Json.readSlice read zero) v).join := by
  obtain ⟨text, hmarshal, hread⟩ := Option.bind_eq_some_iff.1 h
  have htext : text ≠ "" := by
    rintro rfl
    rw [hempty] at hread
    cases hread
  rw [decodeSlice, mustJSON, hmarshal, Option.getD_some, if_neg htext, hread, Option.bind_some]

theorem readSlice_map {α : Type} {read : Json → Option α} {f : α → Json} {zero : α} {xs : List α}
    (h : ∀ x ∈ xs, Json.orKeep read zero (f x) = some x) :
    Json.readSlice read zero (.arr (xs.map f)) = some xs := by
  show (xs.map f).mapM (Json.orKeep read zero) = some xs
  induction xs with
  | nil => rfl
  | cons x xs ih =>
    rw [List.map_cons, List.mapM_cons, h x List.mem_cons_self,
      ih fun y hy => h y (List.mem_cons_of_mem x hy)]
    rfl

theorem eq_map_of_readSlice {α : Type} {read : Json → Option α} {f : α → Json} {g : α → α}
    {zero : α} {xs ys : List α}
    (hread : ∀ x ∈ xs, ∀ y, Json.orKeep read zero (f x) = some y → y = g x)
    (h : Json.readSlice read zero (.arr (xs.map f)) = some ys) : ys = xs.map g := by
  change (xs.map f).mapM (Json.orKeep read zero) = some ys at h
  induction xs generalizing ys with
  | nil => exact (Option.some.inj h).symm
  | cons x xs ih =>
    rw [List.map_cons, List.mapM_cons] at h
    obtain ⟨y, hy, h⟩ := Option.bind_eq_some_iff.1 h
    obtain ⟨rest, hrest, h⟩ := Option.bind_eq_some_iff.1 h
    obtain rfl := Option.some.inj h
    rw [List.map_cons, ← hread x List.mem_cons_self y hy,
      ← ih (fun z hz => hread z (List.mem_cons_of_mem x hz)) hrest]

theorem decodeStringSlice_mustJSON (hjson : json.RoundTrips) (xs : Option (List String)) :
    decodeStringSlice json (mustJSON json (.opt JsonText.strings xs)) = xs := by
  cases xs with
  | none => exact decodeSlice_mustJSON hjson.empty hjson.null
  | some xs =>
    refine (decodeSlice_mustJSON hjson.empty (hjson.strings xs)).trans ?_
    show ((Json.readSlice _ _ (.arr (xs.map .str))).map some).join = some xs
    rw [readSlice_map fun _ _ => rfl]
    rfl

theorem decodeIntSlice_mustJSON (hjson : json.RoundTrips) {xs : Option (List Int)}
    (hxs : DelaysFit xs) : decodeIntSlice json (mustJSON json (.opt JsonText.ints xs)) = xs := by
  cases xs with
  | none => exact decodeSlice_mustJSON hjson.empty hjson.null
  | some xs =>
    have hread : ∀ x ∈ xs, Json.orKeep Json.readInt64 0 (.int x) = some x :=
      fun x hx => if_pos (hxs xs rfl x hx)
    refine (decodeSlice_mustJSON hjson.empty (hjson.ints xs (hxs xs rfl))).trans ?_
    show ((Json.readSlice _ _ (.arr (xs.map .int))).map some).join = some xs
    rw [readSlice_map hread]
    rfl

/-- **Round trip.** A configuration is read as it was saved. -/
theorem config_row (hjson : json.RoundTrips) {cfg : Config} (h : DelaysFit cfg.retryDelaysSec) :
    (cfg.row json).config json = cfg := by
  unfold Config.row SettingsRow.config
  simp only [boolToInt_eq_one, decodeStringSlice_mustJSON hjson, decodeIntSlice_mustJSON hjson h]

end RoundTrip

/-! ## The database -/

/-- The tables as they are stored, and the service with its lock. -/
structure Disk where
  settings : SettingsRow
  secrets : SecretRecord
  events : Events
  mutedUntil : Option Int
  service : Service
  locked : Bool

namespace Disk

variable (json : JsonText)

/-- The tables with the configuration that the row stands for. -/
def world (d : Disk) : World where
  settings := d.settings.config json
  secrets := d.secrets
  events := d.events
  mutedUntil := d.mutedUntil
  service := d.service
  locked := d.locked

/-- Everything but the settings as in `w`. -/
def update (d : Disk) (w : World) : Disk where
  settings := d.settings
  secrets := w.secrets
  events := w.events
  mutedUntil := w.mutedUntil
  service := w.service
  locked := w.locked

/-- A statement that does not fail. -/
def execStmt (d : Disk) : (stmt : Stmt) → Except String stmt.Ans × Disk
  | .saveConfig cfg => (.ok (), { d with settings := cfg.row json })
  | stmt => ((stmt.exec (d.world json)).1, d.update (stmt.exec (d.world json)).2)

def exec (http : Http) (c : Choice) (op : Op) (d : Disk) : Option (op.Ans × Disk) :=
  match op with
  | .sql stmt =>
    match c.fault with
    | some err => some (.error err, d)
    | none => some (d.execStmt json stmt)
  | op => (Alerts.exec http c op (d.world json)).map fun r => (r.1, d.update r.2)

/-- A new database; there is no service yet. -/
def fresh : Disk where
  settings := defaultConfig.row json
  secrets := ⟨"", "", ""⟩
  events := .empty
  mutedUntil := none
  service := (World.fresh defaultConfig ⟨"", "", ""⟩).service
  locked := false

end Disk

/-! ## The row and the configuration -/

/-- The delays that the operation saves. -/
def Op.delays : Op → Option (List Int)
  | .sql (.saveConfig cfg) => cfg.retryDelaysSec
  | _ => none

/-- Only a configuration that is saved changes the settings. -/
theorem settings_of_exec {http : Http} {c : Choice} {op : Op} {w w' : World} {r : op.Ans}
    (h : exec http c op w = some (r, w')) (hop : ∀ cfg, op ≠ .sql (.saveConfig cfg)) :
    w'.settings = w.settings := by
  cases op with
  | sql stmt =>
    cases hfault : c.fault with
    | some err =>
      simp only [exec, hfault] at h
      cases h
      rfl
    | none =>
      simp only [exec, hfault, Option.some.injEq] at h
      cases stmt with
      | saveConfig cfg => exact absurd rfl (hop cfg)
      | saveEvent level message cpuPercent channels createdAt =>
        simp only [Stmt.exec] at h
        split_ifs at h <;> cases h <;> rfl
      | _ =>
        cases h
        rfl
  | read | lock =>
    simp only [exec] at h
    split_ifs at h
    cases h
    rfl
  | nonce | post url body | sendMail from_ password recipients message =>
    cases hfault : c.fault <;> simp only [exec, hfault] at h <;> cases h <;> rfl
  | newRequest url =>
    cases herror : http.parseError url <;> simp only [exec, herror] at h <;> cases h <;> rfl
  | _ =>
    cases h
    rfl

theorem world_update {json : JsonText} {d : Disk} {w : World}
    (h : w.settings = d.settings.config json) : (d.update w).world json = w := by
  unfold Disk.update Disk.world
  rw [← h]

variable {json : JsonText} {http : Http} {c : Choice} {op : Op} {d d' : Disk} {r : op.Ans}

/-- Every other operation works on the tables with the configuration. -/
theorem disk_exec_eq (hop : ∀ cfg, op ≠ .sql (.saveConfig cfg)) :
    d.exec json http c op = (exec http c op (d.world json)).map fun r => (r.1, d.update r.2) := by
  cases op with
  | sql stmt =>
    cases hfault : c.fault with
    | some err =>
      simp only [Disk.exec, exec, hfault]
      rfl
    | none =>
      simp only [Disk.exec, exec, hfault]
      cases stmt with
      | saveConfig cfg => exact absurd rfl (hop cfg)
      | _ => rfl
  | _ => rfl

/-- **The row stands for its configuration.** What is done to the stored tables is done to the
tables of values. -/
theorem exec_world (hjson : json.RoundTrips) (hop : DelaysFit op.delays)
    (h : d.exec json http c op = some (r, d')) :
    exec http c op (d.world json) = some (r, d'.world json) := by
  by_cases hsave : ∃ cfg, op = .sql (.saveConfig cfg)
  · obtain ⟨cfg, rfl⟩ := hsave
    cases hfault : c.fault with
    | some err =>
      simp only [Disk.exec, hfault] at h
      cases h
      simp only [exec, hfault]
    | none =>
      simp only [Disk.exec, hfault, Option.some.injEq] at h
      cases h
      simp only [exec, hfault, Stmt.exec, Disk.world, config_row hjson hop]
  · have hother : ∀ cfg, op ≠ .sql (.saveConfig cfg) := fun cfg hop => hsave ⟨cfg, hop⟩
    rw [disk_exec_eq hother] at h
    obtain ⟨⟨r', w'⟩, hexec, heq⟩ := Option.map_eq_some_iff.1 h
    cases heq
    rw [world_update (settings_of_exec hexec hother)]
    exact hexec

/-- **Refinement.** A program that saves only such configurations runs on the stored tables as it
does on the tables of values. -/
theorem run_world (hjson : json.RoundTrips) {α : Type} {p : M α} {cs cs' : List Choice} {a : α}
    (h : p.run (Prog.within (fun _ op => DelaysFit op.delays) (Disk.exec json http)) cs d =
      some (a, cs', d')) :
    p.run (exec http) cs (d.world json) = some (a, cs', d'.world json) := by
  refine Prog.run_map (fun c op d r d' hcall => ?_) h
  obtain ⟨hop, hcall⟩ := Prog.within_some.1 hcall
  exact exec_world hjson hop hcall

/-! ## Runs of one operation -/

section Run

variable {cs cs' : List Choice}

/-- A run of one statement fails and changes nothing, or does what it says. -/
theorem stmt_run {s : Stmt} {a : Except String s.Ans}
    (h : (stmt s).run (Disk.exec json http) cs d = some (a, cs', d')) :
    ∃ c, cs = c :: cs' ∧
      ((c.fault ≠ none ∧ (∃ err, a = .error err) ∧ d' = d) ∨
        (c.fault = none ∧ d.execStmt json s = (a, d'))) := by
  obtain ⟨c, rfl, hexec⟩ := Prog.run_op h
  refine ⟨c, rfl, ?_⟩
  cases hfault : c.fault with
  | some err =>
    simp only [Disk.exec, hfault, Option.some.injEq, Prod.mk.injEq] at hexec
    exact .inl ⟨by simp, ⟨err, hexec.1.symm⟩, hexec.2.symm⟩
  | none =>
    simp only [Disk.exec, hfault, Option.some.injEq] at hexec
    exact .inr ⟨rfl, hexec⟩

theorem lock_run {s : Service}
    (h : (Prog.op Op.lock : M Service).run (Disk.exec json http) cs d = some (s, cs', d')) :
    cs' = cs.drop 1 ∧ s = d.service ∧ d' = { d with locked := true } := by
  obtain ⟨c, rfl, hexec⟩ := Prog.run_op h
  rw [disk_exec_eq fun _ hop => by cases hop] at hexec
  obtain ⟨⟨s', w⟩, hlock, heq⟩ := Option.map_eq_some_iff.1 hexec
  cases heq
  unfold exec at hlock
  simp only at hlock
  split_ifs at hlock
  cases hlock
  exact ⟨rfl, rfl, rfl⟩

theorem unlock_run {s : Service}
    (h : (Prog.op (Op.unlock s) : M Unit).run (Disk.exec json http) cs d = some ((), cs', d')) :
    d' = { d with service := s, locked := false } := by
  obtain ⟨c, -, hexec⟩ := Prog.run_op h
  cases hexec
  rfl

end Run

end QuickVps.Alerts
