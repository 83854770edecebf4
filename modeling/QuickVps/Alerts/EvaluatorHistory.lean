import QuickVps.Alerts.Evaluator

/-!
# The evaluator against its history

The evaluator keeps timers; what it should do is said by the history of its calls alone:

* `blockStart` — when the current block of consecutive calls with a property began,
* `lastTrigger` — when a level was last triggered,
* `MeetsHistory` — which triggers a call emits, in terms of these two.

`Mirrors` ties every timer to the history. It holds of the new evaluator, every branch of
`evaluate` keeps it (`mirrors_step`), and under it the tests on the timers are the tests on the
history, so every call of an admissible run meets the specification (`evaluate_meetsHistory`).
-/

namespace QuickVps.Alerts

open Go

/-! ## The specification -/

/-- The start of the maximal block of calls with `p`, counted back from the newest. -/
def blockStart (p : Record → Bool) (records : List Record) : Option Int :=
  (records.takeWhile p).getLast?.map fun r => r.input.now

def Record.emits (r : Record) (level : Level) : Bool := r.out.any fun t => t.level = level

/-- The time of the most recent call that triggered `level`. -/
def lastTrigger (level : Level) (records : List Record) : Option Int :=
  (records.find? fun r => r.emits level).map fun r => r.input.now

def Record.overCritical (r : Record) : Bool :=
  r.input.cfg.enabled && r.input.cpu.ge r.input.cfg.criticalPercent

def Record.overWarning (r : Record) : Bool :=
  r.input.cfg.enabled && r.input.cpu.ge r.input.cfg.warningPercent

def Record.recovering (r : Record) : Bool :=
  r.input.cfg.enabled && r.input.cpu.lt r.input.cfg.recoveryPercent && r.entered ≠ .none

/-- The block of calls with `p` that ends with the newest one began at least `sec` seconds
before `now`. -/
def Lasted (p : Record → Bool) (records : List Record) (now sec : Int) : Prop :=
  ∃ start, blockStart p records = some start ∧ sec * 1000000000 ≤ now - start

/-- The last trigger of `level`, if any, is at least `sec` seconds old at `now`. -/
def CooledDown (level : Level) (past : List Record) (now sec : Int) : Prop :=
  ∀ last, lastTrigger level past = some last → sec * 1000000000 ≤ now - last

/-- What the call recorded as `r` should emit after the calls `past`. -/
structure MeetsHistory (past : List Record) (r : Record) : Prop where
  atMostOne : r.out.length ≤ 1
  quiet : r.input.cfg.enabled = false ∨ r.input.silenced = true → r.out = []
  critical : r.input.cfg.enabled = true → r.input.silenced = false →
    (r.emits .critical = true ↔
      r.input.cpu.ge r.input.cfg.criticalPercent = true ∧
      Lasted Record.overCritical (r :: past) r.input.now r.input.cfg.criticalForSec ∧
      CooledDown .critical past r.input.now r.input.cfg.cooldownSec)
  warning : r.input.cfg.enabled = true → r.input.silenced = false →
    (r.emits .warning = true ↔
      r.input.cpu.ge r.input.cfg.warningPercent = true ∧
      r.input.cpu.lt r.input.cfg.criticalPercent = true ∧
      Lasted Record.overWarning (r :: past) r.input.now r.input.cfg.warningForSec ∧
      CooledDown .warning past r.input.now r.input.cfg.cooldownSec)
  recovery : r.input.cfg.enabled = true → r.input.silenced = false →
    (r.emits .recovery = true ↔
      r.input.cpu.lt r.input.cfg.recoveryPercent = true ∧
      Lasted Record.recovering (r :: past) r.input.now r.input.cfg.recoveryForSec ∧
      CooledDown .recovery past r.input.now r.input.cfg.cooldownSec)

/-! ## Blocks and last triggers, one call at a time -/

@[simp] theorem blockStart_nil (p : Record → Bool) : blockStart p [] = none := rfl

theorem blockStart_cons (p : Record → Bool) (r : Record) (past : List Record) :
    blockStart p (r :: past) =
      if p r then some ((blockStart p past).getD r.input.now) else none := by
  by_cases hr : p r = true
  · rw [if_pos hr, blockStart, List.takeWhile_cons_of_pos hr, List.getLast?_cons, blockStart]
    cases (past.takeWhile p).getLast? <;> rfl
  · rw [if_neg hr, blockStart, List.takeWhile_cons_of_neg hr]
    rfl

@[simp] theorem lastTrigger_nil (level : Level) : lastTrigger level [] = none := rfl

theorem lastTrigger_cons (level : Level) (r : Record) (past : List Record) :
    lastTrigger level (r :: past) =
      if r.emits level then some r.input.now else lastTrigger level past := by
  cases hr : r.emits level <;> simp [lastTrigger, hr]

theorem lastTrigger_mem {level : Level} {past : List Record} {last : Int}
    (h : lastTrigger level past = some last) :
    ∃ r ∈ past, r.emits level = true ∧ r.input.now = last := by
  obtain ⟨r, hr, hnow⟩ := Option.map_eq_some_iff.1 h
  exact ⟨r, List.mem_of_find?_eq_some hr, by simpa using List.find?_some hr, hnow⟩

/-! ## The timers mirror the history -/

structure Mirrors (e : Evaluator) (past : List Record) : Prop where
  warning : e.aboveWarningSince = blockStart Record.overWarning past
  critical : e.aboveCriticalSince = blockStart Record.overCritical past
  recovery : e.belowRecoverySince =
    if e.activeLevel = .none then none else blockStart Record.recovering past
  sent : ∀ level, e.lastSent level = lastTrigger level past

theorem mirrors_new : Mirrors newEvaluator [] :=
  ⟨rfl, rfl, rfl, fun _ => rfl⟩

@[simp] theorem lastSent_markSent (e : Evaluator) (level : Level) (now : Int) :
    (e.markSent level now).lastSent = Function.update e.lastSent level (some now) := by
  cases level <;> rfl

@[simp] theorem windows_markSent (e : Evaluator) (level : Level) (now : Int) :
    (e.markSent level now).aboveWarningSince = e.aboveWarningSince ∧
      (e.markSent level now).aboveCriticalSince = e.aboveCriticalSince ∧
      (e.markSent level now).belowRecoverySince = e.belowRecoverySince ∧
      (e.markSent level now).activeLevel = e.activeLevel := by
  cases level <;> exact ⟨rfl, rfl, rfl, rfl⟩

/-- A call on `i` that found the level `entered` and answered `out`. -/
abbrev called (i : Input) (entered : Level) (out : List Trigger) : Record := ⟨i, entered, out⟩

theorem lastTrigger_of_silent {level : Level} {i : Input} {entered : Level}
    {past : List Record} :
    lastTrigger level (called i entered [] :: past) = lastTrigger level past := by
  rw [lastTrigger_cons]
  rfl

theorem lastTrigger_of_trigger {level sent : Level} {i : Input} {entered : Level}
    {past : List Record} :
    lastTrigger level (called i entered [⟨sent, i.cpu⟩] :: past) =
      Function.update (fun l => lastTrigger l past) sent (some i.now) level := by
  rw [lastTrigger_cons]
  by_cases hl : sent = level
  · subst hl
    simp [Record.emits]
  · simp [Record.emits, hl, Function.update_of_ne (Ne.symm hl)]

theorem mirrors_disabled {e : Evaluator} {past : List Record} {i : Input} (h : Mirrors e past)
    (hi : i.cfg.enabled = false) :
    Mirrors { e.resetWindows with activeLevel := .none } (called i e.state [] :: past) where
  warning := by simp [blockStart_cons, Record.overWarning, hi, Evaluator.resetWindows]
  critical := by simp [blockStart_cons, Record.overCritical, hi, Evaluator.resetWindows]
  recovery := by simp [Evaluator.resetWindows]
  sent := fun level => by rw [lastTrigger_of_silent]; exact h.sent level

theorem mirrors_evaluateCritical {e : Evaluator} {past : List Record} {i : Input}
    (h : Mirrors e past) (hi : i.cfg.enabled = true) (hv : i.cfg.Valid)
    (hcpu : i.cpu.ge i.cfg.criticalPercent = true) :
    Mirrors (e.evaluateCritical i.now i.cpu i.cfg i.silenced).2
      (called i e.state (e.evaluateCritical i.now i.cpu i.cfg i.silenced).1 :: past) := by
  have hwarn : i.cpu.ge i.cfg.warningPercent = true :=
    Float64.ge_mono hv.warning_lt_critical.le hcpu
  have hrec : i.cpu.lt i.cfg.recoveryPercent = false :=
    Float64.lt_eq_false_of_ge hv.recovery_lt_warning.le hwarn
  -- Whatever is answered, the call extends both blocks and is not recovering.
  have hblocks : ∀ out,
      some (e.aboveWarningSince.getD i.now) =
        blockStart Record.overWarning (called i e.state out :: past) ∧
      some (e.aboveCriticalSince.getD i.now) =
        blockStart Record.overCritical (called i e.state out :: past) ∧
      none = blockStart Record.recovering (called i e.state out :: past) := by
    intro out
    simp [blockStart_cons, Record.overWarning, Record.overCritical, Record.recovering, hi, hcpu,
      hwarn, hrec, h.warning, h.critical]
  unfold Evaluator.evaluateCritical
  simp only
  split_ifs with htest hsil
  · refine ⟨?_, ?_, ?_, fun level => ?_⟩
    · simpa using (hblocks _).1
    · simpa using (hblocks _).2.1
    · simpa using (hblocks _).2.2
    · rw [lastTrigger_of_trigger]
      simp [funext h.sent]
  · refine ⟨(hblocks _).1, (hblocks _).2.1, by simpa using (hblocks _).2.2, fun level => ?_⟩
    rw [lastTrigger_of_silent]
    exact h.sent level
  · refine ⟨(hblocks _).1, (hblocks _).2.1, ?_, fun level => ?_⟩
    · simp [← (hblocks _).2.2]
    · rw [lastTrigger_of_silent]
      exact h.sent level

theorem mirrors_evaluateWarning {e : Evaluator} {past : List Record} {i : Input}
    (h : Mirrors e past) (hi : i.cfg.enabled = true) (hv : i.cfg.Valid)
    (hcrit : i.cpu.ge i.cfg.criticalPercent = false)
    (hcpu : i.cpu.ge i.cfg.warningPercent = true) :
    let e' : Evaluator := { e with aboveCriticalSince := none }
    Mirrors (e'.evaluateWarning i.now i.cpu i.cfg i.silenced).2
      (called i e.state (e'.evaluateWarning i.now i.cpu i.cfg i.silenced).1 :: past) := by
  have hrec : i.cpu.lt i.cfg.recoveryPercent = false :=
    Float64.lt_eq_false_of_ge hv.recovery_lt_warning.le hcpu
  -- The call extends the block above warning and breaks the other two.
  have hblocks : ∀ out,
      some (e.aboveWarningSince.getD i.now) =
        blockStart Record.overWarning (called i e.state out :: past) ∧
      none = blockStart Record.overCritical (called i e.state out :: past) ∧
      none = blockStart Record.recovering (called i e.state out :: past) := by
    intro out
    simp [blockStart_cons, Record.overWarning, Record.overCritical, Record.recovering, hi, hcpu,
      hcrit, hrec, h.warning]
  simp only [Evaluator.evaluateWarning]
  split
  · split
    · refine ⟨?_, ?_, ?_, fun level => ?_⟩
      · simpa using (hblocks _).1
      · simpa using (hblocks _).2.1
      · simp [← (hblocks _).2.2]
      · rw [lastTrigger_of_trigger]
        simp [funext h.sent]
    · refine ⟨(hblocks _).1, (hblocks _).2.1, by simp [← (hblocks _).2.2], fun level => ?_⟩
      rw [lastTrigger_of_silent]
      exact h.sent level
  · refine ⟨(hblocks _).1, (hblocks _).2.1, by simp [← (hblocks _).2.2], fun level => ?_⟩
    rw [lastTrigger_of_silent]
    exact h.sent level

theorem mirrors_evaluateBelow {e : Evaluator} {past : List Record} {i : Input}
    (h : Mirrors e past) (hi : i.cfg.enabled = true) (hv : i.cfg.Valid)
    (hcpu : i.cpu.ge i.cfg.warningPercent = false) :
    let e' : Evaluator := { e with aboveCriticalSince := none, aboveWarningSince := none }
    Mirrors (e'.evaluateBelow i.now i.cpu i.cfg i.silenced).2
      (called i e.state (e'.evaluateBelow i.now i.cpu i.cfg i.silenced).1 :: past) := by
  have hcrit : i.cpu.ge i.cfg.criticalPercent = false :=
    Float64.ge_eq_false_mono hv.warning_lt_critical.le hcpu
  have hblocks : ∀ out,
      none = blockStart Record.overWarning (called i e.state out :: past) ∧
      none = blockStart Record.overCritical (called i e.state out :: past) := by
    intro out
    simp [blockStart_cons, Record.overWarning, Record.overCritical, hcpu, hcrit]
  simp only [Evaluator.evaluateBelow]
  split_ifs with hrec htest hsil
  · -- A recovery: the level is none afterwards, whatever the block of recovering calls.
    refine ⟨(hblocks _).1, (hblocks _).2, by simp [Evaluator.resetWindows], fun level => ?_⟩
    rw [lastTrigger_of_trigger]
    simp [Evaluator.resetWindows, funext h.sent]
  · refine ⟨(hblocks _).1, (hblocks _).2, by simp [Evaluator.resetWindows], fun level => ?_⟩
    rw [lastTrigger_of_silent]
    exact h.sent level
  · -- The window is not over: the call extends the block of recovering calls.
    simp only [Bool.and_eq_true, decide_eq_true_eq] at hrec
    refine ⟨(hblocks _).1, (hblocks _).2, ?_, fun level => ?_⟩
    · simp [blockStart_cons, Record.recovering, hi, hrec, h.recovery, Evaluator.state]
    · rw [lastTrigger_of_silent]
      exact h.sent level
  · refine ⟨(hblocks _).1, (hblocks _).2, ?_, fun level => ?_⟩
    · by_cases hnone : e.activeLevel = .none
      · simp [hnone]
      · have hlt : i.cpu.lt i.cfg.recoveryPercent = false := by simpa [hnone] using hrec
        simp [blockStart_cons, Record.recovering, hlt]
    · rw [lastTrigger_of_silent]
      exact h.sent level

/-- **Every branch keeps the timers in step with the history.** -/
theorem mirrors_step {e : Evaluator} {past : List Record} {i : Input} (h : Mirrors e past)
    (hv : i.cfg.Valid) :
    Mirrors (e.evaluate i.now i.cpu i.cfg i.silenced).2
      (called i e.state (e.evaluate i.now i.cpu i.cfg i.silenced).1 :: past) := by
  unfold Evaluator.evaluate
  simp only
  split_ifs with hoff hcrit hwarn
  · exact mirrors_disabled h (by simpa using hoff)
  · exact mirrors_evaluateCritical h (by simpa using hoff) hv hcrit
  · exact mirrors_evaluateWarning h (by simpa using hoff) hv (by simpa using hcrit) hwarn
  · exact mirrors_evaluateBelow h (by simpa using hoff) hv (by simpa using hwarn)

/-- The evaluator mirrors the whole history of a run. -/
theorem mirrors_run {past : List Input} (hv : ∀ i ∈ past, validateConfig i.cfg = none) :
    Mirrors (run past).2 (run past).1 := by
  induction past with
  | nil => exact mirrors_new
  | cons i past ih =>
    have hpast := ih fun j hj => hv j (List.mem_cons_of_mem _ hj)
    exact mirrors_step hpast (valid_of_validateConfig (hv i List.mem_cons_self))

/-! ## The tests on the timers are the tests on the history -/

theorem windowElapsed_iff {p : Record → Bool} {records : List Record} {now sec : Int}
    (hpos : 0 < sec) (hfit : sec * 1000000000 ≤ maxInt64) :
    windowElapsed (blockStart p records) now sec = true ↔ Lasted p records now sec := by
  unfold Lasted windowElapsed
  cases blockStart p records with
  | none => simp
  | some start =>
    simp only [if_neg (not_le.2 hpos), decide_eq_true_eq, Option.some.injEq, exists_eq_left']
    rw [seconds_eq hpos.le hfit, le_timeSub_iff (by omega) hfit]

theorem canSend_iff {e : Evaluator} {past : List Record} {level : Level} {now sec : Int}
    (hsent : e.lastSent level = lastTrigger level past) (hnow : ∀ r ∈ past, r.input.now ≤ now)
    (hpos : 0 ≤ sec) (hfit : sec * 1000000000 ≤ maxInt64) :
    e.canSend level now sec = true ↔ CooledDown level past now sec := by
  unfold CooledDown Evaluator.canSend
  rw [hsent]
  cases hlast : lastTrigger level past with
  | none => simp
  | some last =>
    obtain ⟨r, hr, -, rfl⟩ := lastTrigger_mem hlast
    have hle := hnow r hr
    simp only [Option.some.injEq, forall_eq']
    split_ifs with hzero
    · simp only [true_iff]
      omega
    · rw [decide_eq_true_iff, seconds_eq hpos hfit, le_timeSub_iff (by omega) hfit]

/-- The answer of a branch: one trigger of its level when its test is met and the call is not
silenced. -/
def answer (test : Bool) (level : Level) (i : Input) : List Trigger :=
  if test && !i.silenced then [⟨level, i.cpu⟩] else []

theorem length_answer (test : Bool) (level : Level) (i : Input) :
    (answer test level i).length ≤ 1 := by
  unfold answer
  split_ifs <;> simp

theorem answer_silenced {test : Bool} {level : Level} {i : Input} (h : i.silenced = true) :
    answer test level i = [] := by
  simp [answer, h]

theorem emits_answer {test : Bool} {level asked : Level} {i : Input} {entered : Level}
    (h : i.silenced = false) :
    (called i entered (answer test level i)).emits asked = (test && decide (level = asked)) := by
  cases test <;> simp [answer, Record.emits, h]

theorem out_evaluateCritical (e : Evaluator) (i : Input) :
    (e.evaluateCritical i.now i.cpu i.cfg i.silenced).1 =
      answer (windowElapsed (some (e.aboveCriticalSince.getD i.now)) i.now i.cfg.criticalForSec &&
        e.canSend .critical i.now i.cfg.cooldownSec) .critical i := by
  simp only [Evaluator.evaluateCritical, answer, Evaluator.canSend]
  split_ifs <;> simp_all

theorem out_evaluateWarning (e : Evaluator) (i : Input) :
    (e.evaluateWarning i.now i.cpu i.cfg i.silenced).1 =
      answer (windowElapsed (some (e.aboveWarningSince.getD i.now)) i.now i.cfg.warningForSec &&
        e.canSend .warning i.now i.cfg.cooldownSec) .warning i := by
  simp only [Evaluator.evaluateWarning, answer, Evaluator.canSend]
  split_ifs <;> simp_all

theorem out_evaluateBelow (e : Evaluator) (i : Input) :
    (e.evaluateBelow i.now i.cpu i.cfg i.silenced).1 =
      answer (e.activeLevel ≠ .none && i.cpu.lt i.cfg.recoveryPercent &&
        (windowElapsed (some (e.belowRecoverySince.getD i.now)) i.now i.cfg.recoveryForSec &&
          e.canSend .recovery i.now i.cfg.cooldownSec)) .recovery i := by
  simp only [Evaluator.evaluateBelow, answer, Evaluator.canSend]
  split_ifs <;> simp_all

/-! ## Every call meets the specification -/

section Meets

variable {e : Evaluator} {past : List Record} {i : Input}

theorem meets_disabled (hi : i.cfg.enabled = false) : MeetsHistory past (called i e.state []) where
  atMostOne := Nat.zero_le 1
  quiet := fun _ => rfl
  critical := fun hon => absurd (hi.symm.trans hon) (by simp)
  warning := fun hon => absurd (hi.symm.trans hon) (by simp)
  recovery := fun hon => absurd (hi.symm.trans hon) (by simp)

theorem meets_evaluateCritical (h : Mirrors e past) (hi : i.cfg.enabled = true)
    (hv : i.cfg.Valid) (hf : i.cfg.Fits) (hnow : ∀ r ∈ past, r.input.now ≤ i.now)
    (hcpu : i.cpu.ge i.cfg.criticalPercent = true) :
    MeetsHistory past
      (called i e.state (e.evaluateCritical i.now i.cpu i.cfg i.silenced).1) := by
  have hnotcrit : i.cpu.lt i.cfg.criticalPercent = false :=
    Float64.lt_eq_false_of_ge le_rfl hcpu
  have hnotrec : i.cpu.lt i.cfg.recoveryPercent = false :=
    Float64.lt_eq_false_of_ge (hv.recovery_lt_warning.le.trans hv.warning_lt_critical.le) hcpu
  rw [out_evaluateCritical]
  constructor
  case atMostOne => exact length_answer _ _ _
  case quiet =>
    rintro (hoff | hsil)
    · exact absurd (hoff.symm.trans hi) (by simp)
    · exact answer_silenced hsil
  case critical =>
    intro _ hsil
    have hwindow : ∀ out,
        windowElapsed (some (e.aboveCriticalSince.getD i.now)) i.now i.cfg.criticalForSec = true ↔
          Lasted Record.overCritical (called i e.state out :: past) i.now i.cfg.criticalForSec := by
      intro out
      rw [← windowElapsed_iff hv.criticalForSec_pos hf.criticalForSec]
      simp [blockStart_cons, Record.overCritical, hi, hcpu, h.critical]
    have hsend := canSend_iff (h.sent .critical) hnow hv.cooldownSec_nonneg hf.cooldownSec
    rw [emits_answer hsil, decide_eq_true rfl, Bool.and_true, Bool.and_eq_true]
    exact (and_congr (hwindow _) hsend).trans (and_iff_right hcpu).symm
  case warning =>
    intro _ hsil
    rw [emits_answer hsil]
    simp [hnotcrit]
  case recovery =>
    intro _ hsil
    rw [emits_answer hsil]
    simp [hnotrec]

theorem meets_evaluateWarning (h : Mirrors e past) (hi : i.cfg.enabled = true)
    (hv : i.cfg.Valid) (hf : i.cfg.Fits) (hnow : ∀ r ∈ past, r.input.now ≤ i.now)
    (hcrit : i.cpu.ge i.cfg.criticalPercent = false)
    (hcpu : i.cpu.ge i.cfg.warningPercent = true) :
    let e' : Evaluator := { e with aboveCriticalSince := none }
    MeetsHistory past
      (called i e.state (e'.evaluateWarning i.now i.cpu i.cfg i.silenced).1) := by
  have hlt : i.cpu.lt i.cfg.criticalPercent = true := Float64.lt_of_ge_of_not_ge hcpu hcrit
  have hnotrec : i.cpu.lt i.cfg.recoveryPercent = false :=
    Float64.lt_eq_false_of_ge hv.recovery_lt_warning.le hcpu
  intro e'
  rw [out_evaluateWarning]
  constructor
  case atMostOne => exact length_answer _ _ _
  case quiet =>
    rintro (hoff | hsil)
    · exact absurd (hoff.symm.trans hi) (by simp)
    · exact answer_silenced hsil
  case critical =>
    intro _ hsil
    rw [emits_answer hsil]
    simp [hcrit]
  case warning =>
    intro _ hsil
    have hwindow : ∀ out,
        windowElapsed (some (e'.aboveWarningSince.getD i.now)) i.now i.cfg.warningForSec = true ↔
          Lasted Record.overWarning (called i e.state out :: past) i.now i.cfg.warningForSec := by
      intro out
      rw [← windowElapsed_iff hv.warningForSec_pos hf.warningForSec]
      simp [e', blockStart_cons, Record.overWarning, hi, hcpu, h.warning]
    have hsend : e'.canSend .warning i.now i.cfg.cooldownSec = true ↔ _ :=
      canSend_iff (h.sent .warning) hnow hv.cooldownSec_nonneg hf.cooldownSec
    rw [emits_answer hsil, decide_eq_true rfl, Bool.and_true, Bool.and_eq_true]
    exact (and_congr (hwindow _) hsend).trans
      ((and_iff_right hlt).symm.trans (and_iff_right hcpu).symm)
  case recovery =>
    intro _ hsil
    rw [emits_answer hsil]
    simp [hnotrec]

theorem meets_evaluateBelow (h : Mirrors e past) (hi : i.cfg.enabled = true)
    (hv : i.cfg.Valid) (hf : i.cfg.Fits) (hnow : ∀ r ∈ past, r.input.now ≤ i.now)
    (hcpu : i.cpu.ge i.cfg.warningPercent = false) :
    let e' : Evaluator := { e with aboveCriticalSince := none, aboveWarningSince := none }
    MeetsHistory past
      (called i e.state (e'.evaluateBelow i.now i.cpu i.cfg i.silenced).1) := by
  have hcrit : i.cpu.ge i.cfg.criticalPercent = false :=
    Float64.ge_eq_false_mono hv.warning_lt_critical.le hcpu
  intro e'
  rw [out_evaluateBelow]
  constructor
  case atMostOne => exact length_answer _ _ _
  case quiet =>
    rintro (hoff | hsil)
    · exact absurd (hoff.symm.trans hi) (by simp)
    · exact answer_silenced hsil
  case critical =>
    intro _ hsil
    rw [emits_answer hsil]
    simp [hcrit]
  case warning =>
    intro _ hsil
    rw [emits_answer hsil]
    simp [hcpu]
  case recovery =>
    intro _ hsil
    rw [emits_answer hsil]
    by_cases hrec : e.activeLevel ≠ .none ∧ i.cpu.lt i.cfg.recoveryPercent = true
    · have hwindow : ∀ out,
          windowElapsed (some (e'.belowRecoverySince.getD i.now)) i.now i.cfg.recoveryForSec =
              true ↔
            Lasted Record.recovering (called i e.state out :: past) i.now
              i.cfg.recoveryForSec := by
        intro out
        rw [← windowElapsed_iff hv.recoveryForSec_pos hf.recoveryForSec]
        simp [e', blockStart_cons, Record.recovering, hi, hrec, h.recovery, Evaluator.state]
      have hsend : e'.canSend .recovery i.now i.cfg.cooldownSec = true ↔ _ :=
        canSend_iff (h.sent .recovery) hnow hv.cooldownSec_nonneg hf.cooldownSec
      have hentered : (e'.activeLevel ≠ .none && i.cpu.lt i.cfg.recoveryPercent) = true := by
        simpa [e'] using hrec
      rw [hentered, Bool.true_and, decide_eq_true rfl, Bool.and_true, Bool.and_eq_true]
      exact (and_congr (hwindow _) hsend).trans (and_iff_right hrec.2).symm
    · -- Entered without an active level, or not below: the call is in no recovering block.
      have hout : ∀ out, Record.recovering (called i e.state out) = false := fun out => by
        by_contra hne
        simp only [Record.recovering, Bool.not_eq_false, Bool.and_eq_true,
          decide_eq_true_eq] at hne
        exact hrec ⟨hne.2, hne.1.2⟩
      have hanswer : (e'.activeLevel ≠ .none && i.cpu.lt i.cfg.recoveryPercent) = false := by
        simpa [e'] using hrec
      rw [hanswer, Bool.false_and, Bool.false_and]
      simp [Lasted, blockStart_cons, hout]

end Meets

theorem run_inputs (past : List Input) : (run past).1.map Record.input = past := by
  induction past with
  | nil => rfl
  | cons i past ih =>
    rw [run_cons, List.map_cons, ih]
    rfl

theorem Admissible.le_now {i : Input} {past : List Input} (h : Admissible (i :: past)) :
    ∀ r ∈ (run past).1, r.input.now ≤ i.now := by
  intro r hr
  refine (List.pairwise_cons.1 h.sorted).1 r.input ?_
  rw [← run_inputs past]
  exact List.mem_map_of_mem hr

/-- Every branch answers what the history says. -/
theorem meets_step {e : Evaluator} {past : List Record} {i : Input} (h : Mirrors e past)
    (hvalid : validateConfig i.cfg = none) (hf : i.cfg.Fits)
    (hnow : ∀ r ∈ past, r.input.now ≤ i.now) :
    MeetsHistory past
      (called i e.state (e.evaluate i.now i.cpu i.cfg i.silenced).1) := by
  have hv : i.cfg.Valid := valid_of_validateConfig hvalid
  unfold Evaluator.evaluate
  simp only
  split_ifs with hoff hcrit hwarn
  · exact meets_disabled (by simpa using hoff)
  · exact meets_evaluateCritical h (by simpa using hoff) hv hf hnow hcrit
  · exact meets_evaluateWarning h (by simpa using hoff) hv hf hnow (by simpa using hcrit) hwarn
  · exact meets_evaluateBelow h (by simpa using hoff) hv hf hnow (by simpa using hwarn)

/-- **The evaluator equals its history specification.** In every admissible run, each call emits
what the history of the calls before it says. -/
theorem evaluate_meetsHistory (past : List Input) (i : Input) (h : Admissible (i :: past)) :
    MeetsHistory (run past).1 (recordAfter past i) :=
  meets_step (mirrors_run h.tail.valid) (h.valid i List.mem_cons_self)
    (h.fits i List.mem_cons_self) h.le_now

/-- A sample every ten minutes at 90 percent: admissible, and the second one is critical. -/
def twoHighSamples : List Input :=
  [⟨600000000000, .num 90, defaultConfig, false⟩, ⟨0, .num 90, defaultConfig, false⟩]

theorem twoHighSamples_admissible : Admissible twoHighSamples where
  sorted := by simp [twoHighSamples]
  valid := by simp [twoHighSamples, validateConfig_defaultConfig]
  fits := by simp [twoHighSamples, fits_defaultConfig]

theorem evaluate_meetsHistory_twoHighSamples :
    MeetsHistory (run [⟨0, .num 90, defaultConfig, false⟩]).1
      (recordAfter [⟨0, .num 90, defaultConfig, false⟩]
        ⟨600000000000, .num 90, defaultConfig, false⟩) :=
  evaluate_meetsHistory _ _ twoHighSamples_admissible

end QuickVps.Alerts
