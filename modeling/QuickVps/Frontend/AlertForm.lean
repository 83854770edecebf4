import QuickVps.Alerts.Reached
import QuickVps.Js.Numbers

/-!
# The alert form of the settings page

The form shows every number as a text and every list as one text, and saving reads the texts back.

* `loadAlertConfig`, `handleSaveAlerts` — the two directions;
* `parseCommaList`, `normalizeRetryDelays` — how a list is read from its text;
* `commaList_eq_iff` — exactly the items without a comma that `trim` leaves alone are read back;
* `retryDelays_eq_iff` — exactly the delays that are written with their own digits are.
-/

namespace QuickVps.Frontend

open Go Alerts

/-- The inputs of the form. -/
structure AlertForm where
  alertEnabled : Bool
  warningPct : String
  warningForSec : String
  criticalPct : String
  criticalForSec : String
  recoveryPct : String
  recoveryForSec : String
  cooldownSec : String
  telegramEnabled : Bool
  emailEnabled : Bool
  emailsInput : String
  chatIDsInput : String
  retryDelaysInput : String
  telegramTokenInput : String
  gmailAddressInput : String
  gmailPasswordInput : String
  rotateTelegramSecret : Bool
  rotateGmailSecret : Bool
  clearTelegramSecret : Bool
  clearGmailSecret : Bool

/-- The items between the commas, without those that are empty. -/
def parseCommaList (raw : String) : List String :=
  ((Js.split raw ',').map Js.trim).filter fun item => item ≠ ""

section Form

variable (js : Js.Numbers)

def normalizeRetryDelays (raw : String) : List Int :=
  let delays := (((Js.split raw ',').filterMap fun item => js.number (Js.trim item)).filter
    fun n => 0 ≤ n).map Js.round
  if delays = [] then [1, 5, 15] else delays

/-- The form with a configuration whose numbers are finite numbers of JavaScript. There is none if a
list is null, which has no `join`. -/
def loadAlertConfig (view : ConfigView) : Option AlertForm :=
  let cfg := view.config
  match cfg.recipientEmails, cfg.telegramChatIDs, cfg.retryDelaysSec with
  | some emails, some chatIDs, some delays =>
    some
      { alertEnabled := cfg.enabled
        warningPct := js.string cfg.warningPercent
        warningForSec := js.string cfg.warningForSec
        criticalPct := js.string cfg.criticalPercent
        criticalForSec := js.string cfg.criticalForSec
        recoveryPct := js.string cfg.recoveryPercent
        recoveryForSec := js.string cfg.recoveryForSec
        cooldownSec := js.string cfg.cooldownSec
        telegramEnabled := cfg.telegramEnabled
        emailEnabled := cfg.emailEnabled
        emailsInput := Js.join emails ", "
        chatIDsInput := Js.join chatIDs ", "
        retryDelaysInput := Js.join (delays.map fun d : Int => js.string d) ","
        telegramTokenInput := ""
        gmailAddressInput := view.gmailAddress
        gmailPasswordInput := ""
        rotateTelegramSecret := false
        rotateGmailSecret := false
        clearTelegramSecret := false
        clearGmailSecret := false }
  | _, _, _ => none

/-- The body of the request that saves the form. -/
def handleSaveAlerts (form : AlertForm) : Json :=
  .obj
    [("enabled", .bool form.alertEnabled),
      ("warning_percent", js.jsonNumber (js.number form.warningPct)),
      ("warning_for_sec", js.jsonNumber (js.number form.warningForSec)),
      ("critical_percent", js.jsonNumber (js.number form.criticalPct)),
      ("critical_for_sec", js.jsonNumber (js.number form.criticalForSec)),
      ("recovery_percent", js.jsonNumber (js.number form.recoveryPct)),
      ("recovery_for_sec", js.jsonNumber (js.number form.recoveryForSec)),
      ("cooldown_sec", js.jsonNumber (js.number form.cooldownSec)),
      ("telegram_enabled", .bool form.telegramEnabled), ("email_enabled", .bool form.emailEnabled),
      ("recipient_emails", .arr ((parseCommaList form.emailsInput).map .str)),
      ("telegram_chat_ids", .arr ((parseCommaList form.chatIDsInput).map .str)),
      ("retry_delays_sec",
        .arr ((normalizeRetryDelays js form.retryDelaysInput).map fun d : Int => js.json d)),
      ("telegram_bot_token",
        .str (if form.rotateTelegramSecret then Js.trim form.telegramTokenInput else "")),
      ("clear_telegram_bot_token", .bool form.clearTelegramSecret),
      ("gmail_address", .str (Js.trim form.gmailAddressInput)),
      ("gmail_app_password",
        .str (if form.rotateGmailSecret then Js.trim form.gmailPasswordInput else "")),
      ("clear_gmail_app_password", .bool form.clearGmailSecret)]

end Form

/-! ## Lists of texts -/

/-- An item that the text of a list carries. -/
def Carried (x : String) : Prop := ',' ∉ x.toList ∧ Js.trim x = x

theorem parseCommaList_join {xs : List String} (h : ∀ x ∈ xs, ',' ∉ x.toList) :
    parseCommaList (Js.join xs ", ") = (xs.map Js.trim).filter fun item => item ≠ "" := by
  cases xs with
  | nil => decide
  | cons x xs =>
    have hspaces : (xs.map (" " ++ ·)).map Js.trim = xs.map Js.trim := by
      rw [List.map_map]
      exact List.map_congr_left fun y _ => Js.trim_space y
    rw [parseCommaList, Js.split_join h, List.map_cons, List.map_cons, hspaces]

/-- What the backend keeps of the trimmed items. -/
theorem sanitizeStringSlice_trim (xs : List String) :
    sanitizeStringSlice ((xs.map Js.trim).filter fun item => item ≠ "") =
      (xs.map fun x => trim (Js.trim x)).filter fun item => item ≠ "" := by
  have hempty : trim "" = "" := by decide
  induction xs with
  | nil => simp only [sanitizeStringSlice, List.map_nil, List.filter_nil]
  | cons x xs ih =>
    rw [List.map_cons, List.map_cons]
    by_cases hx : Js.trim x = ""
    · rw [List.filter_cons_of_neg (by simp only [hx]; decide), ih,
        List.filter_cons_of_neg (by simp only [hx, hempty]; decide)]
    · rw [List.filter_cons_of_pos (by simpa only [decide_eq_true_eq] using hx)]
      unfold sanitizeStringSlice at ih ⊢
      rw [List.map_cons, List.filter_cons, List.filter_cons, ih]

theorem not_mem_of_mem_sanitize {raw x : String}
    (h : x ∈ sanitizeStringSlice (parseCommaList raw)) : ',' ∉ x.toList := by
  obtain ⟨item, hitem, rfl⟩ := List.mem_map.1 (List.mem_of_mem_filter h)
  obtain ⟨piece, hpiece, rfl⟩ := List.mem_map.1 (List.mem_of_mem_filter hitem)
  intro hcomma
  rw [Go.toList_trim] at hcomma
  have hinner := (List.strip_infix isSpace _).subset hcomma
  rw [Js.toList_trim] at hinner
  exact Js.not_mem_of_mem_split hpiece ((List.strip_infix Js.isSpace _).subset hinner)

/-- **Lists of texts.** Items that the backend has kept are read back from their text exactly if
none has a comma or is changed by `trim`. -/
theorem commaList_eq_iff {xs : List String} (hxs : ∀ x ∈ xs, Item x) :
    sanitizeStringSlice (parseCommaList (Js.join xs ", ")) = xs ↔ ∀ x ∈ xs, Carried x := by
  constructor
  · intro heq
    have hcomma : ∀ x ∈ xs, ',' ∉ x.toList := fun x hx => not_mem_of_mem_sanitize (heq ▸ hx)
    rw [parseCommaList_join hcomma, sanitizeStringSlice_trim] at heq
    have hall : (xs.map fun x => trim (Js.trim x)).filter (fun item => item ≠ "") =
        xs.map fun x => trim (Js.trim x) := by
      apply List.filter_sublist.eq_of_length_le
      rw [heq, List.length_map]
    rw [hall] at heq
    have hfix : ∀ x ∈ xs, trim (Js.trim x) = x :=
      List.map_inj_left.1 (heq.trans (List.map_id xs).symm)
    exact fun x hx => ⟨hcomma x hx, Js.trim_eq_of_goTrim (hfix x hx)⟩
  · intro hcarried
    have hmap : (xs.map fun x => trim (Js.trim x)) = xs := by
      refine (List.map_congr_left fun x hx => ?_).trans (List.map_id xs)
      rw [(hcarried x hx).2]
      exact (hxs x hx).2
    rw [parseCommaList_join fun x hx => (hcarried x hx).1, sanitizeStringSlice_trim, hmap,
      List.filter_eq_self]
    exact fun x hx => by simpa using (hxs x hx).1

/-! ## Numbers -/

section Numbers

variable (js : Js.Numbers)

/-- An `int64` that is a finite number of JavaScript. -/
structure Representable (n : Int) : Prop where
  double : Js.IsDouble n
  min : minInt64 ≤ n
  max : n ≤ maxInt64

theorem json_representable {n : Int} (h : Representable n) :
    js.json n = .int (js.reread n) ∧ (js.reread n = n ↔ js.Exact n) := by
  refine js.json_int h.double ?_
  have hmin := h.min
  have hmax := h.max
  simp only [minInt64, maxInt64] at hmin hmax
  have hlt : |n| < 10 ^ 21 := abs_lt.2 ⟨by omega, by omega⟩
  exact_mod_cast hlt

theorem eq_of_readInt64 {m k : Int} (h : Json.readInt64 (.int m) = some k) : k = m := by
  unfold Json.readInt64 at h
  simp only at h
  split_ifs at h
  exact (Option.some.inj h).symm

/-- An integer is read back exactly if it is written with its own digits. -/
theorem readInt64_json {n : Int} (h : Representable n) :
    Json.readInt64 (js.json n) = some n ↔ js.Exact n := by
  obtain ⟨hjson, hexact⟩ := json_representable js h
  rw [hjson, ← hexact]
  constructor
  · intro hread
    exact (eq_of_readInt64 hread).symm
  · intro heq
    rw [heq]
    exact if_pos ⟨h.min, h.max⟩

/-! ### Delays -/

/-- The delays are read from their texts as they are. -/
theorem normalizeRetryDelays_join {ds : List Int} (hne : ds ≠ []) (hnonneg : ∀ d ∈ ds, 0 ≤ d)
    (hds : ∀ d ∈ ds, Representable d) :
    normalizeRetryDelays js (Js.join (ds.map fun d : Int => js.string d) ",") = ds := by
  have hcomma : ∀ x ∈ ds.map (fun d : Int => js.string d), ',' ∉ x.toList := by
    intro x hx hmem
    obtain ⟨d, hd, rfl⟩ := List.mem_map.1 hx
    exact (js.plain d (hds d hd).double ',' hmem).1 rfl
  have hnumber : (ds.map fun d : Int => js.string d).filterMap
      (fun item => js.number (Js.trim item)) = ds.map fun d : Int => (d : ℚ) := by
    rw [List.filterMap_map, ← List.filterMap_eq_map]
    refine List.filterMap_congr fun d hd => ?_
    show js.number (Js.trim (js.string d)) = some (d : ℚ)
    rw [js.trim_string (hds d hd).double, js.number_string d (hds d hd).double]
  have hfilter : (ds.map fun d : Int => (d : ℚ)).filter (fun n => 0 ≤ n) =
      ds.map fun d : Int => (d : ℚ) := by
    rw [List.filter_eq_self]
    intro x hx
    obtain ⟨d, hd, rfl⟩ := List.mem_map.1 hx
    exact decide_eq_true (Int.cast_nonneg (hnonneg d hd))
  have hround : (ds.map fun d : Int => (d : ℚ)).map Js.round = ds := by
    rw [List.map_map]
    refine (List.map_congr_left fun d _ => ?_).trans (List.map_id ds)
    exact Js.round_int d
  unfold normalizeRetryDelays
  rw [Js.split_join_comma (by simpa using hne) hcomma, hnumber, hfilter, hround]
  exact if_neg hne

theorem sanitizeRetryDelays_eq_self {ds : List Int} (hne : ds ≠ []) (hnonneg : ∀ d ∈ ds, 0 ≤ d) :
    sanitizeRetryDelays ds = ds := by
  have hfilter : ds.filter (fun d => 0 ≤ d) = ds :=
    List.filter_eq_self.2 fun d hd => decide_eq_true (hnonneg d hd)
  unfold sanitizeRetryDelays
  rw [hfilter]
  exact if_neg hne

theorem sanitizeRetryDelays_eq_iff {ds : List Int} (hne : ds ≠ []) (hnonneg : ∀ d ∈ ds, 0 ≤ d)
    (hds : ∀ d ∈ ds, Representable d) :
    sanitizeRetryDelays (ds.map js.reread) = ds ↔ ∀ d ∈ ds, js.Exact d := by
  constructor
  · intro heq d hd
    unfold sanitizeRetryDelays at heq
    simp only at heq
    split_ifs at heq with hnil
    · -- The defaults are small.
      have hsmall : ∀ n ∈ [1, 5, 15], (n : Int).natAbs ≤ 2 ^ 53 := by decide
      exact js.exact_of_natAbs_le (hsmall d (heq ▸ hd))
    · have hall : (ds.map js.reread).filter (fun d => 0 ≤ d) = ds.map js.reread := by
        apply List.filter_sublist.eq_of_length_le
        rw [heq, List.length_map]
      have hfix : ∀ d ∈ ds, js.reread d = d :=
        List.map_inj_left.1 ((hall.symm.trans heq).trans (List.map_id ds).symm)
      exact (json_representable js (hds d hd)).2.1 (hfix d hd)
  · intro hexact
    have hmap : ds.map js.reread = ds :=
      (List.map_congr_left fun d hd => (json_representable js (hds d hd)).2.2 (hexact d hd)).trans
        (List.map_id ds)
    rw [hmap, sanitizeRetryDelays_eq_self hne hnonneg]

theorem orKeep_json {d : Int} (h : Representable d) :
    Json.orKeep Json.readInt64 0 (js.json d) = Json.readInt64 (js.json d) := by
  rw [(json_representable js h).1]
  rfl

/-- **Delays.** The delays that the backend has kept are read back from their text exactly if each
is written with its own digits. -/
theorem retryDelays_eq_iff {ds : List Int} (hne : ds ≠ []) (hnonneg : ∀ d ∈ ds, 0 ≤ d)
    (hds : ∀ d ∈ ds, Representable d) :
    (Json.readSlice Json.readInt64 0 (.arr ((normalizeRetryDelays js
      (Js.join (ds.map fun d : Int => js.string d) ",")).map fun d : Int => js.json d))).map
        sanitizeRetryDelays = some ds ↔ ∀ d ∈ ds, js.Exact d := by
  rw [normalizeRetryDelays_join js hne hnonneg hds]
  constructor
  · intro h
    obtain ⟨ms, hread, heq⟩ := Option.map_eq_some_iff.1 h
    have hms : ms = ds.map js.reread := by
      refine eq_map_of_readSlice (fun d hd m hm => ?_) hread
      rw [orKeep_json js (hds d hd), (json_representable js (hds d hd)).1] at hm
      exact eq_of_readInt64 hm
    rw [hms] at heq
    exact (sanitizeRetryDelays_eq_iff js hne hnonneg hds).1 heq
  · intro hexact
    have hread : ∀ d ∈ ds, Json.orKeep Json.readInt64 0 (js.json d) = some d := fun d hd =>
      (orKeep_json js (hds d hd)).trans ((readInt64_json js (hds d hd)).2 (hexact d hd))
    rw [readSlice_map hread, Option.map_some, sanitizeRetryDelays_eq_self hne hnonneg]

end Numbers

end QuickVps.Frontend
