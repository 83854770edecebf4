import QuickVps.Alerts.EvaluatorHistory

/-!
# What a sample does to the active level

The branches of `evaluate` differ in the window they test and the level they report. One sample
has at most one level *due*: the one of its branch, if the window of that branch has elapsed. What
is due is reported, and the active level follows it, when its cooldown is over.

* `due` — the level that is due at a sample.
* `out_evaluate`, `activeLevel_evaluate` — the answer and the next level in terms of it.
* `state_eq_levelSince` — in a run without silence the level is what the triggers since the last
  reset say, and `level_corresponds`, with what follows for recoveries.
-/

namespace QuickVps.Alerts

open Go

/-- The level whose window has elapsed at a sample. -/
def Evaluator.due (e : Evaluator) (now : Int) (cpu : Float64) (cfg : Config) : Option Level :=
  if !cfg.enabled then none
  else if cpu.ge cfg.criticalPercent then
    if windowElapsed (some (e.aboveCriticalSince.getD now)) now cfg.criticalForSec then
      some .critical
    else none
  else if cpu.ge cfg.warningPercent then
    if windowElapsed (some (e.aboveWarningSince.getD now)) now cfg.warningForSec then
      some .warning
    else none
  else if e.activeLevel ≠ .none && cpu.lt cfg.recoveryPercent &&
      windowElapsed (some (e.belowRecoverySince.getD now)) now cfg.recoveryForSec then
    some .recovery
  else none

/-- A recovery is due only at an active level. -/
theorem due_cases {e : Evaluator} {now : Int} {cpu : Float64} {cfg : Config} {level : Level}
    (h : e.due now cpu cfg = some level) :
    level = .critical ∨ level = .warning ∨ (level = .recovery ∧ e.activeLevel ≠ .none) := by
  unfold Evaluator.due at h
  split_ifs at h with _ _ _ _ _ hrec <;> cases h
  · exact Or.inl rfl
  · exact Or.inr (Or.inl rfl)
  · simp only [Bool.and_eq_true, decide_eq_true_eq] at hrec
    exact Or.inr (Or.inr ⟨rfl, hrec.1.1⟩)

/-- The level after `sent` was reported. -/
def Level.follow (active : Level) : Level → Level
  | .critical => .critical
  | .warning => if active = .critical then .critical else .warning
  | .recovery => .none
  | _ => active

/-- The levels an evaluator can have. -/
def Level.Active (level : Level) : Prop := level = .none ∨ level = .warning ∨ level = .critical

/-- A branch answers nothing before its window has elapsed. -/
theorem answer_window (elapsed sends : Bool) (level : Level) (i : Input) :
    answer (elapsed && sends) level i =
      match (if elapsed then some level else none) with
      | some level => answer sends level i
      | none => [] := by
  cases elapsed <;> rfl

theorem out_evaluate (e : Evaluator) (i : Input) :
    (e.evaluate i.now i.cpu i.cfg i.silenced).1 =
      match e.due i.now i.cpu i.cfg with
      | some level => answer (e.canSend level i.now i.cfg.cooldownSec) level i
      | none => [] := by
  unfold Evaluator.evaluate Evaluator.due
  simp only
  split
  case isTrue => rfl
  split
  case isTrue =>
    rw [out_evaluateCritical, answer_window]
    split_ifs <;> rfl
  split
  case isTrue =>
    rw [out_evaluateWarning, answer_window]
    split_ifs <;> rfl
  case isFalse =>
    rw [out_evaluateBelow, ← Bool.and_assoc, answer_window]
    split_ifs <;> rfl

theorem activeLevel_evaluateCritical (e : Evaluator) (i : Input) :
    (e.evaluateCritical i.now i.cpu i.cfg i.silenced).2.activeLevel =
      if windowElapsed (some (e.aboveCriticalSince.getD i.now)) i.now i.cfg.criticalForSec &&
          e.canSend .critical i.now i.cfg.cooldownSec then e.activeLevel.follow .critical
      else e.activeLevel := by
  simp only [Evaluator.evaluateCritical, Evaluator.canSend]
  split_ifs <;> rfl

/-- In silence the warning branch tests the level the other way round, to the same effect. -/
theorem activeLevel_evaluateWarning {e : Evaluator} (he : e.activeLevel.Active) (i : Input) :
    (e.evaluateWarning i.now i.cpu i.cfg i.silenced).2.activeLevel =
      if windowElapsed (some (e.aboveWarningSince.getD i.now)) i.now i.cfg.warningForSec &&
          e.canSend .warning i.now i.cfg.cooldownSec then e.activeLevel.follow .warning
      else e.activeLevel := by
  simp only [Evaluator.evaluateWarning, Evaluator.canSend, Level.follow]
  rcases he with hl | hl | hl
  all_goals
    rw [hl]
    split_ifs <;> simp_all [Evaluator.markSent]

theorem activeLevel_evaluateBelow (e : Evaluator) (i : Input) :
    (e.evaluateBelow i.now i.cpu i.cfg i.silenced).2.activeLevel =
      if e.activeLevel ≠ .none && i.cpu.lt i.cfg.recoveryPercent &&
          (windowElapsed (some (e.belowRecoverySince.getD i.now)) i.now i.cfg.recoveryForSec &&
            e.canSend .recovery i.now i.cfg.cooldownSec) then e.activeLevel.follow .recovery
      else e.activeLevel := by
  simp only [Evaluator.evaluateBelow, Evaluator.canSend, Level.follow]
  split_ifs <;> simp_all [Evaluator.resetWindows]

/-- A branch leaves the level alone before its window has elapsed. -/
theorem follow_window (elapsed : Bool) (sends : Level → Bool) (level active : Level) :
    (if (elapsed && sends level) = true then active.follow level else active) =
      match (if elapsed then some level else none) with
      | some level => if sends level then active.follow level else active
      | none => active := by
  cases elapsed <;> rfl

/-- **The level follows what is due**, when its cooldown is over, in silence or not. -/
theorem activeLevel_evaluate {e : Evaluator} (he : e.activeLevel.Active) (i : Input) :
    (e.evaluate i.now i.cpu i.cfg i.silenced).2.activeLevel =
      if i.cfg.enabled then
        match e.due i.now i.cpu i.cfg with
        | some level =>
          if e.canSend level i.now i.cfg.cooldownSec then e.activeLevel.follow level
          else e.activeLevel
        | none => e.activeLevel
      else .none := by
  let sends : Level → Bool := fun level => e.canSend level i.now i.cfg.cooldownSec
  unfold Evaluator.evaluate Evaluator.due
  cases i.cfg.enabled
  case false => rfl
  simp only [Bool.not_true, Bool.false_eq_true, if_false, if_true]
  split
  case isTrue =>
    exact (activeLevel_evaluateCritical e i).trans (follow_window _ sends .critical _)
  split
  case isTrue =>
    exact (activeLevel_evaluateWarning (e := { e with aboveCriticalSince := none }) he i).trans
      (follow_window _ sends .warning _)
  case isFalse =>
    rw [activeLevel_evaluateBelow, ← Bool.and_assoc]
    exact follow_window _ sends .recovery _

theorem active_follow {active level : Level} (h : active.Active) :
    (active.follow level).Active := by
  cases level with
  | critical => exact Or.inr (Or.inr rfl)
  | warning =>
    unfold Level.follow
    split_ifs
    · exact Or.inr (Or.inr rfl)
    · exact Or.inr (Or.inl rfl)
  | recovery => exact Or.inl rfl
  | none => exact h
  | test => exact h

theorem active_evaluate {e : Evaluator} (he : e.activeLevel.Active) (i : Input) :
    (e.evaluate i.now i.cpu i.cfg i.silenced).2.activeLevel.Active := by
  rw [activeLevel_evaluate he]
  split_ifs
  · split
    · split_ifs
      · exact active_follow he
      · exact he
    · exact he
  · exact Or.inl rfl

theorem active_run (past : List Input) : (run past).2.activeLevel.Active := by
  induction past with
  | nil => exact Or.inl rfl
  | cons i past ih => exact active_evaluate ih i

/-! ## The level is what the triggers say -/

/-- The calls since the last Recovery trigger or the last one that found the alerts disabled. -/
def sinceReset (records : List Record) : List Record :=
  records.takeWhile fun r => r.input.cfg.enabled && !r.emits .recovery

/-- Critical if there was a Critical trigger since the last reset, warning if there were only
Warning triggers, and none otherwise. -/
def levelSince (records : List Record) : Level :=
  if (sinceReset records).any fun r => r.emits .critical then .critical
  else if (sinceReset records).any fun r => r.emits .warning then .warning
  else .none

theorem sinceReset_cons (r : Record) (records : List Record) :
    sinceReset (r :: records) =
      if r.input.cfg.enabled && !r.emits .recovery then r :: sinceReset records else [] :=
  List.takeWhile_cons

theorem levelSince_cons (r : Record) (records : List Record) :
    levelSince (r :: records) =
      if r.input.cfg.enabled && !r.emits .recovery then
        if r.emits .critical then .critical
        else if r.emits .warning then (levelSince records).follow .warning
        else levelSince records
      else .none := by
  unfold levelSince
  rw [sinceReset_cons]
  cases r.input.cfg.enabled && !r.emits .recovery with
  | false => rfl
  | true =>
    simp only [if_true, List.any_cons, Level.follow]
    cases r.emits .critical <;> cases r.emits .warning
    case false.true =>
      simp only [Bool.true_or, Bool.false_or, if_true, Bool.false_eq_true, if_false]
      split_ifs <;> simp_all
    all_goals simp

/-- The level that the one trigger of an unsilenced call leaves. -/
theorem activeLevel_of_audible {e : Evaluator} (he : e.activeLevel.Active) {i : Input}
    (h : i.silenced = false) :
    let r := called i e.state (e.evaluate i.now i.cpu i.cfg i.silenced).1
    (e.evaluate i.now i.cpu i.cfg i.silenced).2.activeLevel =
      if i.cfg.enabled && !r.emits .recovery then
        if r.emits .critical then .critical
        else if r.emits .warning then e.activeLevel.follow .warning
        else e.activeLevel
      else .none := by
  intro r
  have hr : r = called i e.state (match e.due i.now i.cpu i.cfg with
      | some level => answer (e.canSend level i.now i.cfg.cooldownSec) level i
      | none => []) := congrArg (called i e.state) (out_evaluate e i)
  rw [activeLevel_evaluate he, hr]
  cases i.cfg.enabled with
  | false => rfl
  | true =>
    cases hdue : e.due i.now i.cpu i.cfg with
    | none => simp [Record.emits]
    | some level =>
      simp only [emits_answer h]
      rcases due_cases hdue with rfl | rfl | ⟨rfl, -⟩
      all_goals cases e.canSend _ i.now i.cfg.cooldownSec <;> rfl

/-- **The level is what the triggers say**, in a run without silence. -/
theorem state_eq_levelSince {inputs : List Input} (h : ∀ i ∈ inputs, i.silenced = false) :
    (run inputs).2.state = levelSince (run inputs).1 := by
  induction inputs with
  | nil => rfl
  | cons i past ih =>
    have hpast := ih fun j hj => h j (List.mem_cons_of_mem _ hj)
    rw [run_cons, levelSince_cons, ← hpast]
    exact activeLevel_of_audible (active_run past) (h i List.mem_cons_self)

/-- A recovery is sent only from an active level. -/
theorem state_ne_none_of_recovery {past : List Input} {i : Input}
    (h : (recordAfter past i).emits .recovery = true) : (run past).2.state ≠ .none := by
  unfold recordAfter Record.emits at h
  rw [out_evaluate] at h
  cases hdue : (run past).2.due i.now i.cpu i.cfg with
  | none => simp [hdue] at h
  | some level =>
    rw [hdue] at h
    rcases due_cases hdue with rfl | rfl | ⟨-, hne⟩
    · simp [answer] at h
    · simp [answer] at h
    · exact hne

/-- **State and notifications correspond.** In a run without silence the level after each call is
what the triggers since the last Recovery trigger or disabled call say, and a Recovery trigger has
a Warning or Critical trigger among these before it. -/
theorem level_corresponds (past : List Input) (i : Input)
    (h : ∀ j ∈ i :: past, j.silenced = false) :
    (run (i :: past)).2.state = levelSince (run (i :: past)).1 ∧
      ((recordAfter past i).emits .recovery = true →
        ∃ r ∈ sinceReset (run past).1, r.emits .warning = true ∨ r.emits .critical = true) := by
  refine ⟨state_eq_levelSince h, fun hrec => ?_⟩
  have hstate := state_ne_none_of_recovery hrec
  rw [state_eq_levelSince fun j hj => h j (List.mem_cons_of_mem _ hj), levelSince] at hstate
  split_ifs at hstate with hcrit hwarn
  · obtain ⟨r, hr, hemits⟩ := List.any_eq_true.1 hcrit
    exact ⟨r, hr, Or.inr hemits⟩
  · obtain ⟨r, hr, hemits⟩ := List.any_eq_true.1 hwarn
    exact ⟨r, hr, Or.inl hemits⟩
  · exact absurd rfl hstate

/-- Ten minutes at 90 percent, and the first of five minutes at 60. -/
def overloadThenQuiet : List Input :=
  [⟨660000000000, .num 60, defaultConfig, false⟩, ⟨600000000000, .num 90, defaultConfig, false⟩,
    ⟨0, .num 90, defaultConfig, false⟩]

theorem level_corresponds_overloadThenQuiet :
    (run (⟨960000000000, .num 60, defaultConfig, false⟩ :: overloadThenQuiet)).2.state =
        levelSince (run (⟨960000000000, .num 60, defaultConfig, false⟩ :: overloadThenQuiet)).1 ∧
      ∃ r ∈ sinceReset (run overloadThenQuiet).1,
        r.emits .warning = true ∨ r.emits .critical = true :=
  have h := level_corresponds overloadThenQuiet ⟨960000000000, .num 60, defaultConfig, false⟩
    (by simp [overloadThenQuiet])
  ⟨h.1, h.2 (by decide)⟩

end QuickVps.Alerts
