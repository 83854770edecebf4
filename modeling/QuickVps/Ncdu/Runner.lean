import QuickVps.Go.Time
import QuickVps.Lib.Lts

/-!
# The disk scan runner

`Runner` holds the result of the latest scan behind one lock. `Start` cancels the running scan,
replaces the result and starts a goroutine; the goroutine works on its own and touches the
runner only in one last lock region, where it writes the outcome. `Cancel` cancels the context
and sets the status.

The state is the runner together with every scan goroutine ever started, each with its context.
A step is one lock region (`start`, `cancel`, `setCacheTTL`, `write`), or a goroutine working up
to its last lock region (`leave`): between the two anything else may happen.
-/

namespace QuickVps.Ncdu

open Go

/-! ## Results -/

inductive ScanStatus where
  | idle
  | running
  | done
  | error
  deriving DecidableEq, Repr

/-- A file or directory of a finished scan. -/
structure DirEntry where
  name : String
  allocSize : Int
  diskSize : Int
  isDir : Bool
  children : List DirEntry

structure ScanResult where
  path : String := ""
  scannedAt : Int := 0
  totalSize : Int := 0
  root : Option DirEntry := none
  status : ScanStatus
  error : String := ""

inductive StartMode where
  | started
  | running
  | cached
  deriving DecidableEq, Repr

/-! ## One scan -/

/-- What the machine answers to one scan: the calls of `Runner.run` in order. -/
structure ScanRun where
  installed : Bool := true
  installErr : Option String := none
  pipeErr : Option String := none
  startErr : Option String := none
  parsed : Except String (Option DirEntry)
  waitErr : Option String := none

/-- How a scan goroutine leaves: the message given to `setError`, the exit of a cancelled scan, or
the tree it found. -/
inductive Exit where
  | failed (msg : String)
  | cancelled
  | finished (root : Option DirEntry)

/-- The part of `Runner.run` before its last lock region. `ctxErr` is whether the context is
cancelled at the moment `cmd.Wait` has failed. -/
def ScanRun.exit (o : ScanRun) (ctxErr : Bool) : Exit :=
  if let (false, some err) := (o.installed, o.installErr) then
    .failed ("ncdu not installed and auto-install failed: " ++ err)
  else if let some err := o.pipeErr then
    .failed ("failed to create stdout pipe: " ++ err)
  else if let some err := o.startErr then
    .failed ("failed to start ncdu: " ++ err)
  else match o.waitErr, o.parsed with
    | some err, parsed =>
      if ctxErr then .cancelled
      else match parsed with
        | .error _ => .failed ("ncdu failed: " ++ err)
        | .ok root => .finished root
    | none, .error parseErr => .failed ("parse ncdu output: " ++ parseErr)
    | none, .ok root => .finished root

/-- The last lock region of `Runner.run` (or of `setError`) on the shared result. -/
def Exit.write (path : String) (now : Int) (result : ScanResult) : Exit → ScanResult
  | .failed msg => { result with status := .error, error := msg }
  | .cancelled => { result with status := .idle }
  | .finished root =>
    { path := path
      scannedAt := now
      totalSize := (root.map DirEntry.diskSize).getD 0
      root := root
      status := .done }

/-! ## The runner and its goroutines -/

/-- `cancel` is the stored `CancelFunc`: the number of the context it cancels. -/
structure Runner where
  result : ScanResult
  cancel : Option Nat
  cacheTTL : Int

inductive Phase where
  | scanning
  | exiting (e : Exit)
  | ended

/-- A goroutine `run(ctx, path)`, with whether `ctx` is cancelled. -/
structure Scan where
  path : String
  cancelled : Bool
  phase : Phase

/-- Scan `i` was started by the `i`-th `Start` that returned `started`. -/
structure State where
  runner : Runner
  scans : List Scan

def defaultCacheTTL : Int := 600000000000

def newRunner : State where
  runner := { result := { status := .idle }, cancel := none, cacheTTL := defaultCacheTTL }
  scans := []

/-- Call a stored `CancelFunc`, if there is one. -/
def cancelScan (scans : List Scan) : Option Nat → List Scan
  | some i => scans.modify i fun sc => { sc with cancelled := true }
  | none => scans

def State.start (s : State) (path : String) (now : Int) : StartMode × State :=
  if s.runner.result.status = .done ∧ s.runner.result.path = path ∧
      timeSub now s.runner.result.scannedAt ≤ s.runner.cacheTTL then
    (.cached, s)
  else if s.runner.result.status = .running ∧ s.runner.result.path = path then
    (.running, s)
  else
    let scans := cancelScan s.scans s.runner.cancel
    (.started,
      { runner := { s.runner with
          result := { path := path, status := .running }
          cancel := some scans.length }
        scans := scans ++ [{ path := path, cancelled := false, phase := .scanning }] })

def State.cancel (s : State) : State where
  runner := { s.runner with
    result := { s.runner.result with status := .idle }
    cancel := none }
  scans := cancelScan s.scans s.runner.cancel

/-- `SetCacheTTL`: `none` is the error "cache ttl must be greater than zero". -/
def State.setCacheTTL (s : State) (ttl : Int) : Option State :=
  if ttl ≤ 0 then none else some { s with runner := { s.runner with cacheTTL := ttl } }

/-- Goroutine `i` works up to its last lock region. -/
def State.leave (s : State) (i : Nat) (o : ScanRun) : Option State :=
  match s.scans[i]? with
  | some ⟨path, cancelled, .scanning⟩ =>
    some { s with scans := s.scans.set i ⟨path, cancelled, .exiting (o.exit cancelled)⟩ }
  | _ => none

/-- Goroutine `i` takes its last lock region and ends. -/
def State.write (s : State) (i : Nat) (now : Int) : Option State :=
  match s.scans[i]? with
  | some ⟨path, cancelled, .exiting e⟩ =>
    some
      { runner := { s.runner with result := e.write path now s.runner.result }
        scans := s.scans.set i ⟨path, cancelled, .ended⟩ }
  | _ => none

def State.isReady (s : State) : Bool := s.runner.result.status = .done

inductive Action where
  | start (path : String) (now : Int)
  | cancel
  | setCacheTTL (ttl : Int)
  | leave (i : Nat) (o : ScanRun)
  | write (i : Nat) (now : Int)

def step (s : State) : Action → Option State
  | .start path now => some (s.start path now).2
  | .cancel => some s.cancel
  | .setCacheTTL ttl => s.setCacheTTL ttl
  | .leave i o => s.leave i o
  | .write i now => s.write i now

/-! ## What a step can do -/

@[simp] theorem length_cancelScan (scans : List Scan) (c : Option Nat) :
    (cancelScan scans c).length = scans.length := by
  cases c <;> simp [cancelScan]

/-- The two modes of `Start` that change nothing, and the one that replaces the result. -/
theorem start_cases (s : State) (path : String) (now : Int) :
    ((s.start path now).1 ≠ .started ∧ (s.start path now).2 = s) ∨
    ((s.start path now).1 = .started ∧
      (s.start path now).2.runner.result = { path := path, status := .running } ∧
      (s.start path now).2.runner.cancel = some s.scans.length ∧
      (s.start path now).2.scans = cancelScan s.scans s.runner.cancel ++
        [{ path := path, cancelled := false, phase := .scanning }]) := by
  unfold State.start
  split_ifs <;> simp

theorem leave_cases {s s' : State} {i : Nat} {o : ScanRun} (h : s.leave i o = some s') :
    ∃ path cancelled, s.scans[i]? = some ⟨path, cancelled, .scanning⟩ ∧
      s' = { s with scans := s.scans.set i ⟨path, cancelled, .exiting (o.exit cancelled)⟩ } := by
  unfold State.leave at h
  split at h
  · next path cancelled hi => exact ⟨path, cancelled, hi, by simpa using h.symm⟩
  · cases h

theorem write_cases {s s' : State} {i : Nat} {now : Int} (h : s.write i now = some s') :
    ∃ path cancelled e, s.scans[i]? = some ⟨path, cancelled, .exiting e⟩ ∧
      s' = { runner := { s.runner with result := e.write path now s.runner.result }
             scans := s.scans.set i ⟨path, cancelled, .ended⟩ } := by
  unfold State.write at h
  split at h
  · next path cancelled e hi => exact ⟨path, cancelled, e, hi, by simpa using h.symm⟩
  · cases h

end QuickVps.Ncdu
