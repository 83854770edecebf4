import QuickVps.Alerts.Types
import Mathlib.Logic.Function.Basic

/-!
# The alert evaluator

One sample at a time, `evaluate` moves three window timers, the active level and the time of the
last trigger of each level, and answers with the triggers to send. The body follows the source
branch by branch: switched off, above the critical threshold, above the warning threshold, below.
-/

namespace QuickVps.Alerts

open Go

structure Trigger where
  level : Level
  cpuPercent : Float64
  deriving DecidableEq

structure Evaluator where
  activeLevel : Level
  aboveWarningSince : Option Int
  aboveCriticalSince : Option Int
  belowRecoverySince : Option Int
  lastSent : Level → Option Int
  lastWarningAt : Option Int
  lastCriticalAt : Option Int
  lastRecoveryAt : Option Int

def newEvaluator : Evaluator where
  activeLevel := .none
  aboveWarningSince := none
  aboveCriticalSince := none
  belowRecoverySince := none
  lastSent := fun _ => none
  lastWarningAt := none
  lastCriticalAt := none
  lastRecoveryAt := none

def windowElapsed (since : Option Int) (now requiredSec : Int) : Bool :=
  match since with
  | none => false
  | some since => if requiredSec ≤ 0 then true else seconds requiredSec ≤ timeSub now since

namespace Evaluator

def state (e : Evaluator) : Level := e.activeLevel

def resetWindows (e : Evaluator) : Evaluator :=
  { e with aboveWarningSince := none, aboveCriticalSince := none, belowRecoverySince := none }

def canSend (e : Evaluator) (level : Level) (now cooldownSec : Int) : Bool :=
  match e.lastSent level with
  | none => true
  | some last => if cooldownSec ≤ 0 then true else seconds cooldownSec ≤ timeSub now last

def markSent (e : Evaluator) (level : Level) (now : Int) : Evaluator :=
  let e := { e with lastSent := Function.update e.lastSent level (some now) }
  match level with
  | .warning => { e with lastWarningAt := some now }
  | .critical => { e with lastCriticalAt := some now }
  | .recovery => { e with lastRecoveryAt := some now }
  | _ => e

/-- The branch for a sample at or above the critical threshold. -/
def evaluateCritical (e : Evaluator) (now : Int) (cpu : Float64) (cfg : Config)
    (silenced : Bool) : List Trigger × Evaluator :=
  let e := { e with
    belowRecoverySince := none
    aboveWarningSince := some (e.aboveWarningSince.getD now)
    aboveCriticalSince := some (e.aboveCriticalSince.getD now) }
  if windowElapsed e.aboveCriticalSince now cfg.criticalForSec &&
      e.canSend .critical now cfg.cooldownSec then
    if !silenced then
      ([⟨.critical, cpu⟩], { e.markSent .critical now with activeLevel := .critical })
    else ([], { e with activeLevel := .critical })
  else ([], e)

/-- The branch for a sample between the warning and the critical threshold. -/
def evaluateWarning (e : Evaluator) (now : Int) (cpu : Float64) (cfg : Config)
    (silenced : Bool) : List Trigger × Evaluator :=
  let e := { e with
    belowRecoverySince := none
    aboveWarningSince := some (e.aboveWarningSince.getD now) }
  if windowElapsed e.aboveWarningSince now cfg.warningForSec &&
      e.canSend .warning now cfg.cooldownSec then
    if !silenced then
      let e := e.markSent .warning now
      ([⟨.warning, cpu⟩],
        { e with activeLevel := if e.activeLevel ≠ .critical then .warning else e.activeLevel })
    else ([], { e with activeLevel := if e.activeLevel = .none then .warning else e.activeLevel })
  else ([], e)

/-- The branch for a sample below the warning threshold. -/
def evaluateBelow (e : Evaluator) (now : Int) (cpu : Float64) (cfg : Config)
    (silenced : Bool) : List Trigger × Evaluator :=
  if e.activeLevel ≠ .none && cpu.lt cfg.recoveryPercent then
    let e := { e with belowRecoverySince := some (e.belowRecoverySince.getD now) }
    if windowElapsed e.belowRecoverySince now cfg.recoveryForSec &&
        e.canSend .recovery now cfg.cooldownSec then
      if !silenced then
        ([⟨.recovery, cpu⟩],
          ({ e.markSent .recovery now with activeLevel := .none } : Evaluator).resetWindows)
      else ([], ({ e with activeLevel := .none } : Evaluator).resetWindows)
    else ([], e)
  else ([], { e with belowRecoverySince := none })

def evaluate (e : Evaluator) (now : Int) (cpu : Float64) (cfg : Config) (silenced : Bool) :
    List Trigger × Evaluator :=
  if !cfg.enabled then ([], { e.resetWindows with activeLevel := .none })
  else if cpu.ge cfg.criticalPercent then e.evaluateCritical now cpu cfg silenced
  else
    let e := { e with aboveCriticalSince := none }
    if cpu.ge cfg.warningPercent then e.evaluateWarning now cpu cfg silenced
    else ({ e with aboveWarningSince := none } : Evaluator).evaluateBelow now cpu cfg silenced

end Evaluator

/-! ## Runs

A run is the list of its samples, the newest first, and is evaluated from the oldest on. -/

/-- The arguments of one call of `Evaluate`. -/
structure Input where
  now : Int
  cpu : Float64
  cfg : Config
  silenced : Bool

/-- One call: its arguments, the level before it and its answer. -/
structure Record where
  input : Input
  entered : Level
  out : List Trigger

/-- The evaluator after a run, and the record of every call, newest first. -/
def run : List Input → List Record × Evaluator
  | [] => ([], newEvaluator)
  | i :: past =>
    let (records, e) := run past
    let (out, e') := e.evaluate i.now i.cpu i.cfg i.silenced
    (⟨i, e.state, out⟩ :: records, e')

/-- The record of the call on `i` after the run `past`. -/
def recordAfter (past : List Input) (i : Input) : Record where
  input := i
  entered := (run past).2.state
  out := ((run past).2.evaluate i.now i.cpu i.cfg i.silenced).1

def evaluatorAfter (past : List Input) (i : Input) : Evaluator :=
  ((run past).2.evaluate i.now i.cpu i.cfg i.silenced).2

theorem run_cons (i : Input) (past : List Input) :
    run (i :: past) = (recordAfter past i :: (run past).1, evaluatorAfter past i) := rfl

/-- Times do not decrease, and every configuration is accepted with durations in range. -/
structure Admissible (inputs : List Input) : Prop where
  sorted : inputs.Pairwise fun newer older => older.now ≤ newer.now
  valid : ∀ i ∈ inputs, validateConfig i.cfg = none
  fits : ∀ i ∈ inputs, i.cfg.Fits

theorem Admissible.tail {i : Input} {past : List Input} (h : Admissible (i :: past)) :
    Admissible past :=
  ⟨(List.pairwise_cons.1 h.sorted).2, fun j hj => h.valid j (List.mem_cons_of_mem _ hj),
    fun j hj => h.fits j (List.mem_cons_of_mem _ hj)⟩

end QuickVps.Alerts
