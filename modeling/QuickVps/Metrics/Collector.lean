import QuickVps.Lib.Chan
import QuickVps.Lib.Lts

/-!
# The metrics collector

`Collector.Run` is one goroutine: at each tick it collects a snapshot and offers it to every
subscriber, and between ticks it takes new periods for its ticker from a channel of one slot.
`SetInterval` writes the interval field under its lock and puts the value into the channel in up to
three further steps, none of which blocks and between which anything else may happen.

The state is the collector together with where `Run` stands and with all calls of `SetInterval`
that have changed the field. The snapshots are numbered in the order they are collected.
-/

namespace QuickVps.Metrics

/-! ## State -/

/-- What a call of `SetInterval` does next, after it has written the field. -/
inductive CallPhase where
  | send
  | drain
  | resend
  | returned
  deriving DecidableEq, Repr

/-- A call `SetInterval(interval)` that has changed the field. -/
structure Call where
  interval : Int
  phase : CallPhase
  deriving DecidableEq, Repr

/-- Where `Run` stands: before its ticker exists, in its select, with a snapshot collected, in the
loop over the subscribers, or returned. -/
inductive Loop where
  | starting
  | waiting
  | collected (snap : Nat)
  | offering (snap next : Nat)
  | stopped
  deriving DecidableEq, Repr

/-- The subscribers' channels hold four snapshots each. -/
abbrev Sub := Chan 4 Nat

/-- `period` is that of `Run`'s ticker, once there is one. -/
structure Collector where
  interval : Int
  intervalCh : Option Int
  period : Option Int
  loop : Loop
  collected : Nat
  latest : Option Nat
  subs : List Sub
  calls : List Call

def newCollector (interval : Int) : Collector where
  interval := interval
  intervalCh := none
  period := none
  loop := .starting
  collected := 0
  latest := none
  subs := []
  calls := []

/-! ## SetInterval -/

namespace Collector

/-- The first lock region of `SetInterval`. The call is over here when the value is refused or is
the field's own. -/
def setInterval (c : Collector) (interval : Int) : Option String × Collector :=
  if interval ≤ 0 then (some "interval must be greater than zero", c)
  else if c.interval = interval then (none, c)
  else (none, { c with interval := interval, calls := c.calls ++ [⟨interval, .send⟩] })

/-- The first non-blocking send of call `i`. -/
def send (c : Collector) (i : Nat) : Option Collector :=
  match c.calls[i]? with
  | some ⟨v, .send⟩ =>
    match c.intervalCh with
    | none => some { c with intervalCh := some v, calls := c.calls.set i ⟨v, .returned⟩ }
    | some _ => some { c with calls := c.calls.set i ⟨v, .drain⟩ }
  | _ => none

/-- The non-blocking receive of call `i`. -/
def drain (c : Collector) (i : Nat) : Option Collector :=
  match c.calls[i]? with
  | some ⟨v, .drain⟩ => some { c with intervalCh := none, calls := c.calls.set i ⟨v, .resend⟩ }
  | _ => none

/-- The second non-blocking send of call `i`. -/
def resend (c : Collector) (i : Nat) : Option Collector :=
  match c.calls[i]? with
  | some ⟨v, .resend⟩ =>
    match c.intervalCh with
    | none => some { c with intervalCh := some v, calls := c.calls.set i ⟨v, .returned⟩ }
    | some _ => some { c with calls := c.calls.set i ⟨v, .returned⟩ }
  | _ => none

/-! ## Run -/

/-- `Run` creates its ticker. -/
def begin (c : Collector) : Option Collector :=
  match c.loop with
  | .starting => some { c with period := some c.interval, loop := .waiting }
  | _ => none

/-- `ticker.Reset` with what is in the channel. -/
def receive (c : Collector) : Option Collector :=
  match c.loop, c.intervalCh with
  | .waiting, some v => some { c with period := some v, intervalCh := none }
  | _, _ => none

/-- A tick: the next snapshot is collected and becomes the latest. -/
def tick (c : Collector) : Option Collector :=
  match c.loop with
  | .waiting =>
    some { c with
      loop := .collected c.collected
      latest := some c.collected
      collected := c.collected + 1 }
  | _ => none

/-- `Run` takes `subsMu`. -/
def lock (c : Collector) : Option Collector :=
  match c.loop with
  | .collected snap => some { c with loop := .offering snap 0 }
  | _ => none

/-- One round of the loop over the subscribers, or its end. -/
def offer (c : Collector) : Option Collector :=
  match c.loop with
  | .offering snap next =>
    if next < c.subs.length then
      some { c with
        subs := c.subs.modify next fun q => q.offer snap
        loop := .offering snap (next + 1) }
    else some { c with loop := .waiting }
  | _ => none

/-- The branch of `ctx.Done`. -/
def stop (c : Collector) : Option Collector :=
  match c.loop with
  | .waiting => some { c with loop := .stopped }
  | _ => none

/-- `Subscribe`: the channel's index is the number of subscribers so far. It waits for `subsMu`. -/
def subscribe (c : Collector) : Option Collector :=
  match c.loop with
  | .offering _ _ => none
  | _ => some { c with subs := c.subs ++ [Chan.empty] }

/-- Whoever holds subscription `k` receives from it. -/
def take (c : Collector) (k : Nat) : Option (Nat × Collector) :=
  match c.subs[k]? with
  | some q => q.take?.map fun r => (r.1, { c with subs := c.subs.set k r.2 })
  | none => none

end Collector

inductive Action where
  | setInterval (interval : Int)
  | send (i : Nat)
  | drain (i : Nat)
  | resend (i : Nat)
  | begin
  | receive
  | tick
  | lock
  | offer
  | stop
  | subscribe
  | take (k : Nat)
  deriving DecidableEq

def step (c : Collector) : Action → Option Collector
  | .setInterval v => some (c.setInterval v).2
  | .send i => c.send i
  | .drain i => c.drain i
  | .resend i => c.resend i
  | .begin => c.begin
  | .receive => c.receive
  | .tick => c.tick
  | .lock => c.lock
  | .offer => c.offer
  | .stop => c.stop
  | .subscribe => c.subscribe
  | .take k => (c.take k).map Prod.snd

end QuickVps.Metrics
