import QuickVps.Alerts.Accounting
import QuickVps.Alerts.Evaluator
import QuickVps.Alerts.Service

/-!
# Counts of seconds

The windows, the cooldown and the retry delays are counts of seconds without an upper bound, and
become durations by a product that wraps.

* `WindowExact`, `CooldownExact`, `WaitsExact` — the duration is the count;
* `retryLoop_failing` — where every attempt fails, every delay but the last is waited for.

**Main result.** `counts_exact_iff`: each of them holds exactly for the counts up to `maxSeconds`.
`cooldown_wraps`: a longer cooldown is accepted and is over in less than a second.
-/

namespace QuickVps.Alerts

open Go

/-- A window is over exactly when so many seconds lie between the two instants. -/
def WindowExact (requiredSec : Int) : Prop :=
  ∀ since now : Int, since ≤ now →
    (windowElapsed (some since) now requiredSec = true ↔ requiredSec * 1000000000 ≤ now - since)

/-- A level is held back exactly when its last trigger is less than the cooldown old. -/
def CooldownExact (cooldownSec : Int) : Prop :=
  ∀ (e : Evaluator) (level : Level) (now : Int),
    (∀ last, e.lastSent level = some last → last ≤ now) →
    (e.canSend level now cooldownSec = false ↔
      ∃ last, e.lastSent level = some last ∧ now - last < cooldownSec * 1000000000)

/-- How long `time.Sleep` waits: not at all for a duration that is not positive. -/
def slept (duration : Int) : Int := max 0 duration

/-- Whatever the attempts return, the waits are so many seconds long each. -/
def WaitsExact (delays : List Int) : Prop :=
  ∀ (o : Notifier.Outcomes) (m : Notifier.Message),
    ((((Notifier.retry delays (Notifier.send m)).play o.answer []).2.filterMap
      Notifier.pause).map slept) <+: delays.dropLast.map (· * 1000000000)

theorem windowExact_iff {requiredSec : Int} (h : 0 < requiredSec) :
    WindowExact requiredSec ↔ requiredSec ≤ maxSeconds := by
  have helapsed (since now : Int) : windowElapsed (some since) now requiredSec = true ↔
      seconds requiredSec ≤ timeSub now since := by
    simp [windowElapsed, not_le.2 h]
  rw [← seconds_exact_iff h.le]
  constructor
  · exact fun hexact t u hle => (helapsed u t).symm.trans (hexact u t hle)
  · exact fun hexact since now hle => (helapsed since now).trans (hexact now since hle)

/-- No cooldown is the comparison with it, too. -/
theorem canSend_some {e : Evaluator} {level : Level} {last now cooldownSec : Int}
    (hlast : e.lastSent level = some last) (hle : last ≤ now) (h : 0 ≤ cooldownSec) :
    e.canSend level now cooldownSec = true ↔ seconds cooldownSec ≤ timeSub now last := by
  have hsub : 0 ≤ timeSub now last := by
    simp only [timeSub, minInt64, maxInt64]
    omega
  unfold Evaluator.canSend
  rw [hlast]
  by_cases hzero : cooldownSec ≤ 0
  · obtain rfl : cooldownSec = 0 := by omega
    have hzero : seconds 0 = 0 := by decide
    simpa [hzero] using hsub
  · simp [hzero]

theorem cooldownExact_iff {cooldownSec : Int} (h : 0 ≤ cooldownSec) :
    CooldownExact cooldownSec ↔ cooldownSec ≤ maxSeconds := by
  rw [← seconds_exact_iff h]
  constructor
  · -- an evaluator whose last warning was at the earlier instant
    intro hexact t u hle
    let e : Evaluator := { newEvaluator with lastSent := fun _ => some u }
    have hsend := hexact e .warning t fun last hlast => by
      cases hlast
      exact hle
    rw [← canSend_some (rfl : e.lastSent .warning = some u) hle h, ← Bool.not_eq_false, hsend]
    simp [e]
  · intro hexact e level now hpast
    cases hlast : e.lastSent level with
    | none => simp [Evaluator.canSend, hlast]
    | some last =>
      have hle := hpast last hlast
      rw [← Bool.not_eq_true, canSend_some hlast hle h, hexact now last hle, not_le]
      simp

/-! ## The waits -/

theorem slept_seconds_eq_iff {delay : Int} (h : 0 ≤ delay) :
    slept (seconds delay) = delay * 1000000000 ↔ delay ≤ maxSeconds := by
  unfold slept
  constructor
  · intro heq
    by_contra hlarge
    rw [not_le] at hlarge
    have := seconds_lt hlarge
    simp only [maxSeconds] at hlarge
    omega
  · intro hle
    rw [seconds_eq h (le_maxSeconds_iff.1 hle)]
    omega

/-- No attempt succeeds, and the context is never done. -/
def failing : Notifier.Outcomes where
  telegram := fun _ => .error "refused"
  email := fun _ => .error "refused"
  done := fun _ => none

theorem failing_not_ends {p : Notifier.Program (Option String × Nat)} :
    ∀ c ∈ (p.play failing.answer []).2, ¬ Notifier.Ends c := by
  rintro ⟨op, r⟩ hc
  rcases Prog.play_answers _ hc with hnil | ⟨past, hanswer⟩
  · cases hnil
  · dsimp only at hanswer
    subst hanswer
    rcases op with ⟨_ | _⟩ | _ | _ <;> exact not_false

/-- **Where every attempt fails, every delay but the last is waited for.** -/
theorem retryLoop_failing {m : Notifier.Message} {delays : List Int} (hne : delays ≠ []) :
    ((Notifier.retry delays (Notifier.send m)).play failing.answer []).2.filterMap Notifier.pause =
      delays.dropLast.map seconds := by
  obtain ⟨calls, result, htried, hplay⟩ := Notifier.retryLoop_tried failing m hne 0 []
  have hends := failing_not_ends (p := Notifier.retryLoop (Notifier.send m) delays 0)
  rw [Notifier.retry, if_neg hne]
  rw [hplay] at hends ⊢
  exact htried.waits_eq hends

theorem waitsExact_iff {delays : List Int} (hne : delays ≠ []) (h : ∀ d ∈ delays, 0 ≤ d) :
    WaitsExact delays ↔ ∀ d ∈ delays.dropLast, d ≤ maxSeconds := by
  constructor
  · intro hexact
    have hwaits := hexact failing (.telegram "" none "")
    rw [retryLoop_failing hne, List.map_map] at hwaits
    have heq := hwaits.eq_of_length (by simp)
    intro d hd
    exact (slept_seconds_eq_iff (h d (List.dropLast_subset _ hd))).1
      (List.map_inj_left.1 heq d hd)
  · intro hle o m
    obtain ⟨calls, result, htried, hplay⟩ := Notifier.retryLoop_tried o m hne 0 []
    rw [Notifier.retry, if_neg hne, hplay]
    have hmap : delays.dropLast.map (· * 1000000000) = (delays.dropLast.map seconds).map slept := by
      rw [List.map_map]
      exact List.map_congr_left fun d hd =>
        ((slept_seconds_eq_iff (h d (List.dropLast_subset _ hd))).2 (hle d hd)).symm
    rw [hmap]
    exact htried.waits.map slept

/-! ## All counts -/

/-- **Main result.** The windows and the cooldown of an accepted configuration, and the retry delays
that are kept and waited for, are exact if and only if no count is above `maxSeconds`. -/
theorem counts_exact_iff (cfg : Config) (hvalid : validateConfig cfg = none) (items : List Int) :
    (WindowExact cfg.warningForSec ↔ cfg.warningForSec ≤ maxSeconds) ∧
      (WindowExact cfg.criticalForSec ↔ cfg.criticalForSec ≤ maxSeconds) ∧
      (WindowExact cfg.recoveryForSec ↔ cfg.recoveryForSec ≤ maxSeconds) ∧
      (CooldownExact cfg.cooldownSec ↔ cfg.cooldownSec ≤ maxSeconds) ∧
      (WaitsExact (sanitizeRetryDelays items) ↔
        ∀ d ∈ (sanitizeRetryDelays items).dropLast, d ≤ maxSeconds) := by
  have h := valid_of_validateConfig hvalid
  exact ⟨windowExact_iff h.warningForSec_pos, windowExact_iff h.criticalForSec_pos,
    windowExact_iff h.recoveryForSec_pos, cooldownExact_iff h.cooldownSec_nonneg,
    waitsExact_iff (sanitizeRetryDelays_ne_nil items) fun _ => nonneg_sanitizeRetryDelays⟩

theorem counts_exact_iff_default :
    validateConfig defaultConfig = none ∧
      (CooldownExact defaultConfig.cooldownSec ↔ defaultConfig.cooldownSec ≤ maxSeconds) :=
  ⟨validateConfig_defaultConfig,
    (counts_exact_iff defaultConfig validateConfig_defaultConfig []).2.2.2.1⟩

/-- A cooldown of more than five hundred years. -/
def longCooldown : Config := { defaultConfig with cooldownSec := 18446744074 }

/-- **It is accepted, and over after less than one second.** -/
theorem cooldown_wraps :
    validateConfig longCooldown = none ∧ longCooldown.cooldownSec ≤ maxInt64 ∧
      (newEvaluator.markSent .warning 0).lastSent .warning = some 0 ∧
      (newEvaluator.markSent .warning 0).canSend .warning 1000000000 longCooldown.cooldownSec =
        true ∧
      (1000000000 - 0 : Int) < longCooldown.cooldownSec * 1000000000 ∧
      ¬ CooldownExact longCooldown.cooldownSec := by
  refine ⟨by decide, by decide, by decide, by decide, by decide, fun h => ?_⟩
  exact absurd ((cooldownExact_iff (by decide)).1 h) (by decide)

end QuickVps.Alerts
