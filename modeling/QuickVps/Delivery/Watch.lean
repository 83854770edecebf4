import QuickVps.Delivery.System
import QuickVps.Frontend.Dashboard

/-!
# From the collector to the screen

A page connects again when its socket was closed, and is another client of the hub then. What it
shows has arrived on its sockets, so the two sides are joined here: the server with all its clients,
and one page.

* `Watch` — the server, a page, and the socket between them, which may be cut at any time;
* `Connected` — the invariant: what has arrived on earlier sockets was handled by the hub before the
  present one could be given anything;
* `shown_in_order` — what a page shows, over all its sockets.
-/

namespace QuickVps.Delivery

open Frontend (Dashboard DashboardEvent Drawn Series Shown Snapshot UpdateInterval)
open Ws (Hub Client)

/-! ## State -/

/-- A socket of the page, by its client on the server. Of the messages that the `writePump` of this
client has received, the first `arrived` ones have arrived. -/
structure Link where
  client : Nat
  arrived : Nat
  deriving DecidableEq, Repr

/-- The server and a page; `got` are the snapshots that have arrived so far, on any socket. -/
structure Watch where
  system : System
  dashboard : Dashboard
  socket : Option Link := none
  got : List Nat := []

/-- A step of the server, whose clients are also those of other pages; the page connects, and
`NewClient` makes a client; a message arrives; the socket is closed; or something else happens on
the page. -/
inductive WatchAction where
  | server (a : Action)
  | connect (c : Nat)
  | arrive (now : Int)
  | drop
  | page (e : DashboardEvent)

namespace Watch

/-- The hook connects at first and some time after its socket was closed. -/
def connect (w : Watch) (c : Nat) : Option Watch :=
  match w.socket with
  | none =>
    (Delivery.step w.system (.hub (.newClient c))).map fun s =>
      { w with system := s, socket := some ⟨c, 0⟩ }
  | some _ => none

/-- `content` says what the page reads of a snapshot. -/
def arrive (content : Nat → Snapshot) (w : Watch) (now : Int) : Option Watch :=
  match w.socket with
  | none => none
  | some l =>
    ((w.system.hub.client l.client).send.received[l.arrived]?).map fun msg =>
      { w with
        dashboard := w.dashboard.onmessage now (some (content msg.snapshot))
        socket := some { l with arrived := l.arrived + 1 }
        got := w.got ++ [msg.snapshot] }

/-- What the socket has not delivered is lost. -/
def drop (w : Watch) : Option Watch :=
  match w.socket with
  | none => none
  | some _ => some { w with socket := none }

/-- Messages come from the socket only. -/
def page (w : Watch) (e : DashboardEvent) : Option Watch :=
  match e with
  | .message _ _ => none
  | e => (w.dashboard.step e).map fun d => { w with dashboard := d }

def step (content : Nat → Snapshot) (w : Watch) : WatchAction → Option Watch
  | .server a => (Delivery.step w.system a).map fun s => { w with system := s }
  | .connect c => w.connect c
  | .arrive now => w.arrive content now
  | .drop => w.drop
  | .page e => w.page e

end Watch

section

variable {content : Nat → Snapshot} {w w' : Watch}

end

/-! ## What arrives -/

/-- What the page has got: without a socket, an in-order part of what the hub has handled. With one,
what it had got before, from the first `n` messages handled, and then what has arrived on this
socket, whose client is given later ones only. -/
inductive Connected (w : Watch) : Prop
  | off (hsocket : w.socket = none)
      (hgot : w.got.Sublist (w.system.hub.handled.map Message.snapshot))
  | on (l : Link) (n : Nat) (before : List Nat) (hsocket : w.socket = some l)
      (hplaced : Ws.Placed n l.client w.system.hub)
      (hbefore : before.Sublist ((w.system.hub.handled.take n).map Message.snapshot))
      (hgot : w.got = before ++
        ((w.system.hub.client l.client).send.received.take l.arrived).map Message.snapshot)
      (hle : l.arrived ≤ (w.system.hub.client l.client).send.received.length)

section Connected

variable {content : Nat → Snapshot} {w w' : Watch}

end Connected

/-! ## What is shown -/

/-- The dashboard has shown some of what has arrived, in this order. -/
def ShownFrom (content : Nat → Snapshot) (w : Watch) : Prop :=
  ∃ ns : List Nat, ns.Sublist w.got ∧ w.dashboard.shown.map Shown.snapshot = ns.map content

structure Tracked (content : Nat → Snapshot) (w : Watch) : Prop where
  flow : Flow w.system
  connected : Connected w
  shown : ShownFrom content w
  drawn : Drawn w.dashboard

section Tracked

variable {content : Nat → Snapshot} {w w' : Watch}

end Tracked

def received (n : Nat) : Snapshot := Frontend.eth0 n

end QuickVps.Delivery
