import QuickVps.Alerts.EvaluatorHistory

/-!
# Sustained overloads

A load that stays at or above the warning threshold for the whole warning window should be
reported: by the call that completes the window, or by a call less than one cooldown before it.
The critical branch starts the warning timer and returns without testing it, so a load above the
critical threshold goes unreported until the longer critical window is over.

* `Reports` — what one call of a run owes to the samples so far,
* `overload_unreported` — ten samples above the critical threshold and no trigger,
* `Masked` — the critical branch keeps the warning back,
* `reports_iff_not_masked` — every other call reports.
-/

namespace QuickVps.Alerts

open Go

/-- The samples up to the newest have been at or above `percent` since a sample taken at least
`sec` seconds before `now`. -/
def Sustained (percent : ℚ) (inputs : List Input) (now sec : Int) : Prop :=
  ∃ recent s older, inputs = recent ++ s :: older ∧
    (∀ j ∈ recent ++ [s], j.cpu.ge percent = true) ∧ sec * 1000000000 ≤ now - s.now

/-- Some call of `past` sent a warning or a critical alert less than `sec` seconds before
`now`. -/
def SentWithin (past : List Record) (now sec : Int) : Prop :=
  ∃ r ∈ past, (r.emits .warning = true ∨ r.emits .critical = true) ∧
    now - sec * 1000000000 < r.input.now

/-- After a full warning window above the warning threshold the call on `i` sends a warning or a
critical alert, unless one was sent within the cooldown. -/
def Reports (past : List Input) (i : Input) : Prop :=
  Sustained i.cfg.warningPercent (i :: past) i.now i.cfg.warningForSec →
    ((recordAfter past i).emits .warning = true ∨ (recordAfter past i).emits .critical = true) ∨
      SentWithin (run past).1 i.now i.cfg.cooldownSec

/-- A run under one enabled configuration that the service accepts, never silenced. -/
structure Watched (cfg : Config) (inputs : List Input) : Prop where
  enabled : cfg.enabled = true
  valid : validateConfig cfg = none
  fits : cfg.Fits
  constant : ∀ i ∈ inputs, i.cfg = cfg
  audible : ∀ i ∈ inputs, i.silenced = false
  sorted : inputs.Pairwise fun newer older => older.now ≤ newer.now

/-! ## The gap -/

/-- A CPU at 90 percent, sampled at the start and after five minutes. -/
def fiveMinutesAbove : List Input :=
  [⟨300000000000, .num 90, defaultConfig, false⟩, ⟨0, .num 90, defaultConfig, false⟩]

theorem fiveMinutesAbove_watched : Watched defaultConfig fiveMinutesAbove where
  enabled := rfl
  valid := validateConfig_defaultConfig
  fits := fits_defaultConfig
  constant := by simp [fiveMinutesAbove]
  audible := by simp [fiveMinutesAbove]
  sorted := by simp [fiveMinutesAbove]

/-- **Five minutes at 90 percent go unreported** under the default configuration, whose warning
window is five minutes at 75 percent. -/
theorem overload_unreported :
    ¬ ∀ cfg i past, Watched cfg (i :: past) → Reports past i := by
  intro hall
  have hreports := hall _ _ _ fiveMinutesAbove_watched
  have hsustained : Sustained 75 fiveMinutesAbove 300000000000 300 :=
    ⟨[⟨300000000000, .num 90, defaultConfig, false⟩], ⟨0, .num 90, defaultConfig, false⟩, [],
      rfl, by simp only [List.mem_append, List.mem_singleton, forall_eq_or_imp, forall_eq]; decide,
      by decide⟩
  rcases hreports hsustained with hnow | ⟨r, hr, hsent, -⟩
  · revert hnow
    decide
  · revert hsent
    obtain rfl := List.mem_singleton.1 hr
    decide

/-! ## The exact condition -/

/-- The critical branch keeps the warning back: the sample is at or above the critical threshold
and has not been so for the critical window, while the warning window is over and both levels
could be sent. -/
structure Masked (past : List Input) (i : Input) : Prop where
  critical : i.cpu.ge i.cfg.criticalPercent = true
  early : ¬ Sustained i.cfg.criticalPercent (i :: past) i.now i.cfg.criticalForSec
  due : Sustained i.cfg.warningPercent (i :: past) i.now i.cfg.warningForSec
  canWarn : (run past).2.canSend .warning i.now i.cfg.cooldownSec = true
  canAlarm : (run past).2.canSend .critical i.now i.cfg.cooldownSec = true

theorem sustained_cons {percent : ℚ} {i : Input} {past : List Input} {now sec : Int} :
    Sustained percent (i :: past) now sec ↔
      i.cpu.ge percent = true ∧
        (sec * 1000000000 ≤ now - i.now ∨ Sustained percent past now sec) := by
  constructor
  · rintro ⟨recent, s, older, heq, hge, hsec⟩
    cases recent with
    | nil =>
      obtain ⟨rfl, rfl⟩ := List.cons.inj heq
      exact ⟨hge _ (by simp), .inl hsec⟩
    | cons r recent =>
      obtain ⟨rfl, rfl⟩ := List.cons.inj heq
      exact ⟨hge _ (by simp), .inr ⟨recent, s, older, rfl, fun j hj => hge j (by simp_all), hsec⟩⟩
  · rintro ⟨hi, hsec | ⟨recent, s, older, rfl, hge, hsec⟩⟩
    · exact ⟨[], i, past, rfl, by simpa using hi, hsec⟩
    · refine ⟨i :: recent, s, older, rfl, fun j hj => ?_, hsec⟩
      rcases List.mem_cons.1 hj with rfl | hj
      · exact hi
      · exact hge j hj

theorem not_sustained_nil {percent : ℚ} {now sec : Int} : ¬ Sustained percent [] now sec := by
  rintro ⟨recent, s, older, heq, -⟩
  simp at heq

theorem lasted_cons {p : Record → Bool} {r : Record} {past : List Record} {now sec : Int}
    (hold : ∀ q ∈ past, q.input.now ≤ r.input.now) :
    Lasted p (r :: past) now sec ↔
      p r = true ∧ (sec * 1000000000 ≤ now - r.input.now ∨ Lasted p past now sec) := by
  unfold Lasted
  rw [blockStart_cons]
  by_cases hr : p r = true
  · rw [if_pos hr]
    cases hstart : blockStart p past with
    | none => simp [hr]
    | some start =>
      have hle : start ≤ r.input.now := by
        obtain ⟨q, hq, rfl⟩ := Option.map_eq_some_iff.1 hstart
        exact hold q ((List.takeWhile_prefix p).subset (List.mem_of_getLast? hq))
      simp only [Option.getD_some, Option.some.injEq, exists_eq_left', hr, true_and]
      omega
  · simp [hr]

section Watched

variable {cfg : Config} {i : Input} {past : List Input}

theorem Watched.tail (h : Watched cfg (i :: past)) : Watched cfg past :=
  ⟨h.enabled, h.valid, h.fits, fun j hj => h.constant j (List.mem_cons_of_mem _ hj),
    fun j hj => h.audible j (List.mem_cons_of_mem _ hj), (List.pairwise_cons.1 h.sorted).2⟩

theorem Watched.admissible {inputs : List Input} (h : Watched cfg inputs) : Admissible inputs where
  sorted := h.sorted
  valid := fun j hj => by rw [h.constant j hj]; exact h.valid
  fits := fun j hj => by rw [h.constant j hj]; exact h.fits

/-- Under one enabled configuration a block of records is a block of samples. -/
theorem Watched.lasted_iff {inputs : List Input} {p : Record → Bool} {percent : ℚ}
    {now sec : Int} (h : Watched cfg inputs)
    (hp : ∀ r : Record, r.input.cfg = cfg → p r = r.input.cpu.ge percent) :
    Lasted p (run inputs).1 now sec ↔ Sustained percent inputs now sec := by
  induction inputs with
  | nil => simp [run, Lasted, not_sustained_nil]
  | cons i past ih =>
    have hi : p (recordAfter past i) = i.cpu.ge percent :=
      hp _ (h.constant i List.mem_cons_self)
    rw [run_cons, lasted_cons h.admissible.le_now, sustained_cons, ih h.tail, hi]
    rfl

theorem Watched.overCritical_iff (h : Watched cfg (i :: past)) :
    Lasted Record.overCritical (recordAfter past i :: (run past).1) i.now cfg.criticalForSec ↔
      Sustained cfg.criticalPercent (i :: past) i.now cfg.criticalForSec := by
  refine Watched.lasted_iff h fun r hr => ?_
  rw [Record.overCritical, hr, h.enabled, Bool.true_and]

theorem Watched.overWarning_iff (h : Watched cfg (i :: past)) :
    Lasted Record.overWarning (recordAfter past i :: (run past).1) i.now cfg.warningForSec ↔
      Sustained cfg.warningPercent (i :: past) i.now cfg.warningForSec := by
  refine Watched.lasted_iff h fun r hr => ?_
  rw [Record.overWarning, hr, h.enabled, Bool.true_and]

/-- The last trigger of a level is the youngest one, so it decides whether any is young. -/
theorem cooledDown_iff {level : Level} {records : List Record} {now sec : Int}
    (hsorted : records.Pairwise fun newer older => older.input.now ≤ newer.input.now) :
    CooledDown level records now sec ↔
      ∀ r ∈ records, r.emits level = true → sec * 1000000000 ≤ now - r.input.now := by
  induction records with
  | nil => simp [CooledDown]
  | cons r records ih =>
    obtain ⟨hr, hrest⟩ := List.pairwise_cons.1 hsorted
    unfold CooledDown at ih ⊢
    rw [lastTrigger_cons]
    by_cases hemits : r.emits level = true
    · simp only [hemits, if_true, Option.some.injEq, forall_eq', List.mem_cons, forall_eq_or_imp,
        true_imp_iff]
      refine ⟨fun h => ⟨h, fun q hq _ => ?_⟩, fun h => h.1⟩
      have hle := hr q hq
      omega
    · rw [if_neg hemits, List.forall_mem_cons, ih hrest]
      exact (and_iff_right fun hr => absurd hr hemits).symm

theorem run_sorted {inputs : List Input}
    (h : inputs.Pairwise fun newer older => older.now ≤ newer.now) :
    (run inputs).1.Pairwise fun newer older => older.input.now ≤ newer.input.now := by
  rw [← run_inputs inputs] at h
  exact List.pairwise_map.1 h

/-- Nothing was sent within the cooldown exactly when both levels can be sent. -/
theorem Watched.sentWithin_iff (h : Watched cfg (i :: past)) :
    SentWithin (run past).1 i.now cfg.cooldownSec ↔
      ¬ ((run past).2.canSend .warning i.now cfg.cooldownSec = true ∧
        (run past).2.canSend .critical i.now cfg.cooldownSec = true) := by
  have hm : Mirrors (run past).2 (run past).1 := mirrors_run h.tail.admissible.valid
  have hv := valid_of_validateConfig h.valid
  have hsend : ∀ level, (run past).2.canSend level i.now cfg.cooldownSec = true ↔
      ∀ r ∈ (run past).1, r.emits level = true →
        cfg.cooldownSec * 1000000000 ≤ i.now - r.input.now := fun level => by
    rw [canSend_iff (hm.sent level) h.admissible.le_now hv.cooldownSec_nonneg h.fits.cooldownSec,
      cooledDown_iff (run_sorted h.tail.sorted)]
  rw [hsend, hsend]
  constructor
  · rintro ⟨r, hr, hsent | hsent, hnow⟩ ⟨hwarn, hcrit⟩
    · have := hwarn r hr hsent
      omega
    · have := hcrit r hr hsent
      omega
  · intro hnot
    by_contra hnone
    refine hnot ⟨fun r hr hsent => ?_, fun r hr hsent => ?_⟩ <;>
    · by_contra hlt
      exact hnone ⟨r, hr, by simp [hsent], by omega⟩

/-- The call of a watched run meets the history specification. -/
theorem Watched.meets (h : Watched cfg (i :: past)) :
    MeetsHistory (run past).1 (recordAfter past i) := by
  have hi : i.cfg = cfg := h.constant i List.mem_cons_self
  exact meets_step (mirrors_run h.tail.admissible.valid) (by rw [hi]; exact h.valid)
    (by rw [hi]; exact h.fits) h.admissible.le_now

theorem Watched.canSend_iff_cooledDown (h : Watched cfg (i :: past)) (level : Level) :
    (run past).2.canSend level i.now cfg.cooldownSec = true ↔
      CooledDown level (run past).1 i.now cfg.cooldownSec :=
  canSend_iff ((mirrors_run h.tail.admissible.valid).sent level) h.admissible.le_now
    (valid_of_validateConfig h.valid).cooldownSec_nonneg h.fits.cooldownSec

/-- A watched call warns when the sample is in the band, the window over and the level cool. -/
theorem Watched.warns_iff (h : Watched cfg (i :: past)) :
    (recordAfter past i).emits .warning = true ↔
      i.cpu.ge cfg.warningPercent = true ∧ i.cpu.lt cfg.criticalPercent = true ∧
        Sustained cfg.warningPercent (i :: past) i.now cfg.warningForSec ∧
        (run past).2.canSend .warning i.now cfg.cooldownSec = true := by
  have hi : i.cfg = cfg := h.constant i List.mem_cons_self
  subst hi
  rw [← h.overWarning_iff, h.canSend_iff_cooledDown]
  exact h.meets.warning h.enabled (h.audible i List.mem_cons_self)

theorem Watched.alarms_iff (h : Watched cfg (i :: past)) :
    (recordAfter past i).emits .critical = true ↔
      i.cpu.ge cfg.criticalPercent = true ∧
        Sustained cfg.criticalPercent (i :: past) i.now cfg.criticalForSec ∧
        (run past).2.canSend .critical i.now cfg.cooldownSec = true := by
  have hi : i.cfg = cfg := h.constant i List.mem_cons_self
  subst hi
  rw [← h.overCritical_iff, h.canSend_iff_cooledDown]
  exact h.meets.critical h.enabled (h.audible i List.mem_cons_self)

end Watched

/-- **Every sustained overload is reported, except where the critical branch masks the
warning.** -/
theorem reports_iff_not_masked (cfg : Config) (past : List Input) (i : Input)
    (h : Watched cfg (i :: past)) : Reports past i ↔ ¬ Masked past i := by
  have hi : i.cfg = cfg := h.constant i List.mem_cons_self
  subst hi
  constructor
  · intro hreports hmasked
    rcases hreports hmasked.due with (hwarns | halarms) | hsent
    · have hlt := (h.warns_iff.1 hwarns).2.1
      rw [Float64.lt_eq_false_of_ge le_rfl hmasked.critical] at hlt
      exact absurd hlt (by simp)
    · exact hmasked.early (h.alarms_iff.1 halarms).2.1
    · exact h.sentWithin_iff.1 hsent ⟨hmasked.canWarn, hmasked.canAlarm⟩
  · intro hnot hdue
    by_contra hsilent
    obtain ⟨hquiet, hnotsent⟩ := not_or.1 hsilent
    obtain ⟨hnotwarns, hnotalarms⟩ := not_or.1 hquiet
    rw [h.sentWithin_iff, not_not] at hnotsent
    obtain ⟨hcanWarn, hcanAlarm⟩ := hnotsent
    have hband : i.cpu.ge i.cfg.warningPercent = true := (sustained_cons.1 hdue).1
    by_cases hcrit : i.cpu.ge i.cfg.criticalPercent = true
    · by_cases hlong : Sustained i.cfg.criticalPercent (i :: past) i.now i.cfg.criticalForSec
      · exact hnotalarms (h.alarms_iff.2 ⟨hcrit, hlong, hcanAlarm⟩)
      · exact hnot ⟨hcrit, hlong, hdue, hcanWarn, hcanAlarm⟩
    · have hlt : i.cpu.lt i.cfg.criticalPercent = true :=
        Float64.lt_of_ge_of_not_ge hband (by simpa using hcrit)
      exact hnotwarns (h.warns_iff.2 ⟨hband, hlt, hdue, hcanWarn⟩)

theorem reports_iff_not_masked_fiveMinutesAbove :
    Reports [⟨0, .num 90, defaultConfig, false⟩] ⟨300000000000, .num 90, defaultConfig, false⟩ ↔
      ¬ Masked [⟨0, .num 90, defaultConfig, false⟩]
        ⟨300000000000, .num 90, defaultConfig, false⟩ :=
  reports_iff_not_masked defaultConfig _ _ fiveMinutesAbove_watched

end QuickVps.Alerts
