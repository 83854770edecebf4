import QuickVps.Alerts.Levels
import QuickVps.Lib.Lts

/-!
# Muting and the shown state

Two evaluators get the same samples under one configuration, each with mute flags of its own. Muting
is to suppress notifications only, so both should show the same state after every sample. But the
state follows a due level only when the cooldown of the level is over, and a cooldown is started
by a notification that was really sent.

* `muting_shows` — an alarm that was muted in one run only, and a second alarm within its cooldown.
* `sameState_iff` — the states stay the same exactly when, at every sample that is to move the
  level, the cooldown tests of the two runs agree.

The invariant is `InStep`: as long as the levels have been the same, so are the window timers.
-/

namespace QuickVps.Alerts

open Go

/-! ## Two runs -/

/-- A sample, and whether the first and the second run find it muted. -/
structure TwinSample where
  now : Int
  cpu : Float64
  muted : Bool
  muted' : Bool

structure Twins where
  first : Evaluator
  second : Evaluator

def newTwins : Twins := ⟨newEvaluator, newEvaluator⟩

def Twins.step (cfg : Config) (t : Twins) (s : TwinSample) : Option Twins :=
  some
    { first := (t.first.evaluate s.now s.cpu cfg s.muted).2
      second := (t.second.evaluate s.now s.cpu cfg s.muted').2 }

/-- Both runs show the same state. -/
def SameState (t : Twins) : Prop := t.first.state = t.second.state

instance (t : Twins) : Decidable (SameState t) := inferInstanceAs (Decidable (_ = _))

/-- An alarm from 600 s on, over at 960 s, that the second run does not send, and another one from
1000 s on. -/
def mutedFirstAlarm : List TwinSample :=
  [⟨0, .num 90, false, true⟩, ⟨600000000000, .num 90, false, true⟩,
    ⟨660000000000, .num 60, false, true⟩, ⟨960000000000, .num 60, false, true⟩,
    ⟨1000000000000, .num 90, false, false⟩, ⟨1600000000000, .num 90, false, false⟩]

/-- **Muting shows in the state.** The run that sent the first alarm keeps quiet about the second
one and shows no alarm; the run that was muted shows it as critical. -/
theorem muting_shows :
    ¬ ∀ (cfg : Config) (samples : List TwinSample), validateConfig cfg = none → cfg.Fits →
      (samples.Pairwise fun older newer => older.now ≤ newer.now) →
      Lts.Visits (Twins.step cfg) SameState newTwins samples := by
  intro hall
  have hvisits := hall defaultConfig mutedFirstAlarm validateConfig_defaultConfig
    fits_defaultConfig (by decide)
  have hdiffer : (Lts.run (Twins.step defaultConfig) newTwins mutedFirstAlarm).map
      (fun t => decide (SameState t)) = some false := by
    decide
  obtain ⟨t, ht, hne⟩ := Option.map_eq_some_iff.1 hdiffer
  exact of_decide_eq_false hne (hvisits.last ht)

/-! ## When it does not show -/

/-- If the sample is to move the level, its cooldown is over in both runs or in neither. -/
def CooldownsAgree (cfg : Config) (t : Twins) (s : TwinSample) : Prop :=
  ∀ level, t.first.due s.now s.cpu cfg = some level → t.first.state.follow level ≠ t.first.state →
    t.first.canSend level s.now cfg.cooldownSec = t.second.canSend level s.now cfg.cooldownSec

/-! ### The window timers -/

def Evaluator.windows (e : Evaluator) : Option Int × Option Int × Option Int :=
  (e.aboveWarningSince, e.aboveCriticalSince, e.belowRecoverySince)

/-- The timers after a sample that leaves the active level `level`. -/
def Evaluator.windowsAfter (e : Evaluator) (now : Int) (cpu : Float64) (cfg : Config)
    (level : Level) : Option Int × Option Int × Option Int :=
  if !cfg.enabled then (none, none, none)
  else if cpu.ge cfg.criticalPercent then
    (some (e.aboveWarningSince.getD now), some (e.aboveCriticalSince.getD now), none)
  else if cpu.ge cfg.warningPercent then (some (e.aboveWarningSince.getD now), none, none)
  else if e.activeLevel ≠ .none && cpu.lt cfg.recoveryPercent && level ≠ .none then
    (none, none, some (e.belowRecoverySince.getD now))
  else (none, none, none)

theorem windows_evaluateCritical (e : Evaluator) (now : Int) (cpu : Float64) (cfg : Config)
    (silenced : Bool) :
    (e.evaluateCritical now cpu cfg silenced).2.windows =
      (some (e.aboveWarningSince.getD now), some (e.aboveCriticalSince.getD now), none) := by
  unfold Evaluator.evaluateCritical Evaluator.windows
  simp only
  split_ifs <;> rfl

theorem windows_evaluateWarning (e : Evaluator) (now : Int) (cpu : Float64) (cfg : Config)
    (silenced : Bool) :
    (e.evaluateWarning now cpu cfg silenced).2.windows =
      (some (e.aboveWarningSince.getD now), e.aboveCriticalSince, none) := by
  unfold Evaluator.evaluateWarning Evaluator.windows
  simp only
  split_ifs <;> rfl

theorem windows_evaluateBelow (e : Evaluator) (now : Int) (cpu : Float64) (cfg : Config)
    (silenced : Bool) (hw : e.aboveWarningSince = none) (hc : e.aboveCriticalSince = none) :
    (e.evaluateBelow now cpu cfg silenced).2.windows =
      if e.activeLevel ≠ .none && cpu.lt cfg.recoveryPercent &&
          (e.evaluateBelow now cpu cfg silenced).2.activeLevel ≠ .none then
        (none, none, some (e.belowRecoverySince.getD now))
      else (none, none, none) := by
  simp only [Evaluator.evaluateBelow, Evaluator.windows, Evaluator.canSend]
  split_ifs <;> simp_all [Evaluator.resetWindows]

/-- The timers after a sample depend on the timers and the level before it, and on the level after
it. -/
theorem windows_evaluate (e : Evaluator) (now : Int) (cpu : Float64) (cfg : Config)
    (silenced : Bool) :
    (e.evaluate now cpu cfg silenced).2.windows =
      e.windowsAfter now cpu cfg (e.evaluate now cpu cfg silenced).2.activeLevel := by
  unfold Evaluator.evaluate Evaluator.windowsAfter
  split
  case isTrue => rfl
  split
  case isTrue => exact windows_evaluateCritical e now cpu cfg silenced
  split
  case isTrue => exact windows_evaluateWarning _ now cpu cfg silenced
  case isFalse => exact windows_evaluateBelow _ now cpu cfg silenced rfl rfl

/-! ### The two runs in step -/

/-- The timers of the two runs are the same. -/
structure InStep (t : Twins) : Prop where
  windows : t.first.windows = t.second.windows
  active : t.first.activeLevel.Active
  active' : t.second.activeLevel.Active

/-- With the same timers and level the same is due. -/
theorem due_eq {e e' : Evaluator} (hw : e.windows = e'.windows)
    (hl : e.activeLevel = e'.activeLevel) (now : Int) (cpu : Float64) (cfg : Config) :
    e.due now cpu cfg = e'.due now cpu cfg := by
  simp only [Evaluator.windows, Prod.mk.injEq] at hw
  obtain ⟨hwarning, hcritical, hrecovery⟩ := hw
  simp only [Evaluator.due, hwarning, hcritical, hrecovery, hl]

theorem windowsAfter_eq {e e' : Evaluator} (hw : e.windows = e'.windows)
    (hl : e.activeLevel = e'.activeLevel) (now : Int) (cpu : Float64) (cfg : Config)
    (level : Level) : e.windowsAfter now cpu cfg level = e'.windowsAfter now cpu cfg level := by
  simp only [Evaluator.windows, Prod.mk.injEq] at hw
  obtain ⟨hwarning, hcritical, hrecovery⟩ := hw
  simp only [Evaluator.windowsAfter, hwarning, hcritical, hrecovery, hl]

theorem inStep_step {cfg : Config} {t t' : Twins} {s : TwinSample} (hi : InStep t)
    (hs : SameState t) (h : t.step cfg s = some t') (hs' : SameState t') : InStep t' := by
  cases h
  refine ⟨?_, active_evaluate hi.active ⟨s.now, s.cpu, cfg, s.muted⟩,
    active_evaluate hi.active' ⟨s.now, s.cpu, cfg, s.muted'⟩⟩
  have hlevel : (t.first.evaluate s.now s.cpu cfg s.muted).2.activeLevel =
      (t.second.evaluate s.now s.cpu cfg s.muted').2.activeLevel := hs'
  rw [windows_evaluate, windows_evaluate, hlevel]
  exact windowsAfter_eq hi.windows hs s.now s.cpu cfg _

/-- Two runs in step move to the same level exactly when their cooldowns agree. -/
theorem sameState_step_iff {cfg : Config} {t t' : Twins} {s : TwinSample} (hi : InStep t)
    (hs : SameState t) (h : t.step cfg s = some t') :
    SameState t' ↔ CooldownsAgree cfg t s := by
  cases h
  have hfirst := activeLevel_evaluate hi.active ⟨s.now, s.cpu, cfg, s.muted⟩
  have hsecond := activeLevel_evaluate hi.active' ⟨s.now, s.cpu, cfg, s.muted'⟩
  have hlevel : t.second.activeLevel = t.first.activeLevel := hs.symm
  rw [← due_eq hi.windows hs, hlevel] at hsecond
  unfold SameState CooldownsAgree Evaluator.state
  simp only at hfirst hsecond ⊢
  rw [hfirst, hsecond]
  cases hon : cfg.enabled with
  | false => simp [Evaluator.due, hon]
  | true =>
    cases hdue : t.first.due s.now s.cpu cfg with
    | none => simp
    | some level =>
      simp only [if_true, Option.some.injEq, forall_eq']
      by_cases hmoves : t.first.activeLevel.follow level = t.first.activeLevel
      · simp [hmoves]
      · cases t.first.canSend level s.now cfg.cooldownSec <;>
          cases t.second.canSend level s.now cfg.cooldownSec <;> simp [hmoves, Ne.symm hmoves]

theorem inStep_newTwins : InStep newTwins := ⟨rfl, Or.inl rfl, Or.inl rfl⟩

/-- Twins take every sample. -/
theorem run_twins (cfg : Config) (t : Twins) (samples : List TwinSample) :
    ∃ t', Lts.run (Twins.step cfg) t samples = some t' := by
  induction samples generalizing t with
  | nil => exact ⟨t, rfl⟩
  | cons s samples ih => exact ih _

/-- **Muting does not show exactly where the cooldowns agree.** -/
theorem sameState_iff (cfg : Config) (samples : List TwinSample) :
    Lts.Visits (Twins.step cfg) SameState newTwins samples ↔
      Lts.Along (Twins.step cfg) (CooldownsAgree cfg) newTwins samples := by
  obtain ⟨t, ht⟩ := run_twins cfg newTwins samples
  exact Lts.visits_iff_along_within (fun _ _ _ hi hs h hs' => inStep_step hi hs h hs')
    (fun _ _ _ hi hs h => sameState_step_iff hi hs h) inStep_newTwins rfl ht

end QuickVps.Alerts
