import QuickVps.Metrics.Subscriptions
import QuickVps.Ws.Placement

/-!
# From the collector to the clients

`main` starts a goroutine, the bridge, that subscribes to the collector, turns each snapshot it
gets into a message and broadcasts it through the hub. So a snapshot passes three queues: the
bridge's subscription, the hub's broadcast channel and a client's channel.

* `step` — one step of the collector, of the bridge, or of the hub and its clients.
* `Flow` — the invariant: what is in a queue is an in-order part of what was taken from the one
  before it.
* `ordered_of_flow`, `sent_of_registered`, `sent_of_unregistered` — what a client's channel is
  given.
-/

namespace QuickVps.Delivery

open Metrics (Collector Sub)
open Ws (Hub Client)

/-! ## State -/

/-- `buildWSMessage`, where encoding succeeds: a snapshot and whether `ncdu` is ready. -/
structure Message where
  snapshot : Nat
  ncduReady : Bool
  deriving DecidableEq, Repr

/-- Where the bridge stands: before it subscribes, in its select, with a snapshot it has received,
or returned. `k` is the index of its subscription. -/
inductive Bridge where
  | starting
  | waiting (k : Nat)
  | holding (k snap : Nat)
  | stopped (k : Nat)
  deriving DecidableEq, Repr

namespace Bridge

def sub : Bridge → Option Nat
  | starting => none
  | waiting k => some k
  | holding k _ => some k
  | stopped k => some k

def held : Bridge → List Nat
  | holding _ snap => [snap]
  | _ => []

end Bridge

structure System where
  collector : Collector
  bridge : Bridge
  hub : Hub Message

def newSystem (interval : Int) : System where
  collector := Metrics.newCollector interval
  bridge := .starting
  hub := Ws.newHub

/-! ## Steps -/

/-- A step of the collector or of another subscriber, of the hub or of its clients, or of the
bridge. -/
inductive Action where
  | collector (a : Metrics.Action)
  | hub (a : Ws.Action Message)
  | subscribe
  | take
  | broadcast (ncduReady : Bool)
  | stop
  deriving DecidableEq

namespace System

/-- Nobody but the bridge takes from its subscription. -/
def stepCollector (s : System) (a : Metrics.Action) : Option System :=
  if s.bridge.sub.map Metrics.Action.take = some a then none
  else (Metrics.step s.collector a).map fun c => { s with collector := c }

/-- Nobody but the bridge calls `Broadcast`. -/
def stepHub (s : System) (a : Ws.Action Message) : Option System :=
  match a with
  | .broadcast _ => none
  | a => (Ws.step s.hub a).map fun h => { s with hub := h }

/-- The bridge calls `Subscribe`. -/
def subscribe (s : System) : Option System :=
  match s.bridge with
  | .starting =>
    s.collector.subscribe.map fun c =>
      { s with collector := c, bridge := .waiting s.collector.subs.length }
  | _ => none

/-- The bridge receives a snapshot. -/
def take (s : System) : Option System :=
  match s.bridge with
  | .waiting k =>
    (s.collector.take k).map fun r => { s with collector := r.2, bridge := .holding k r.1 }
  | _ => none

/-- The bridge calls `Broadcast`; `ncduReady` is what it has read from the runner. -/
def broadcast (s : System) (ncduReady : Bool) : Option System :=
  match s.bridge with
  | .holding k snap =>
    some { s with bridge := .waiting k, hub := s.hub.offerBroadcast ⟨snap, ncduReady⟩ }
  | _ => none

/-- The branch of `ctx.Done`. -/
def stop (s : System) : Option System :=
  match s.bridge with
  | .waiting k => some { s with bridge := .stopped k }
  | _ => none

end System

def step (s : System) : Action → Option System
  | .collector a => s.stepCollector a
  | .hub a => s.stepHub a
  | .subscribe => s.subscribe
  | .take => s.take
  | .broadcast ncduReady => s.broadcast ncduReady
  | .stop => s.stop

/-! ## What a step can do -/

theorem collector_cases {s s' : System} {a : Metrics.Action}
    (h : step s (.collector a) = some s') :
    (∀ k, s.bridge.sub = some k → a ≠ .take k) ∧
      ∃ c, Metrics.step s.collector a = some c ∧ s' = { s with collector := c } := by
  simp only [step, System.stepCollector] at h
  split_ifs at h with hmine
  obtain ⟨c, hc, rfl⟩ := Option.map_eq_some_iff.1 h
  refine ⟨fun k hk ha => hmine ?_, c, hc, rfl⟩
  rw [hk, ha]
  rfl

theorem hub_cases {s s' : System} {a : Ws.Action Message} (h : step s (.hub a) = some s') :
    (∀ msg, a ≠ .broadcast msg) ∧
      ∃ k, Ws.step s.hub a = some k ∧ s' = { s with hub := k } := by
  simp only [step, System.stepHub] at h
  split at h
  · cases h
  · next hne =>
    obtain ⟨k, hk, rfl⟩ := Option.map_eq_some_iff.1 h
    exact ⟨hne, k, hk, rfl⟩

theorem subscribe_cases {s s' : System} (h : step s .subscribe = some s') :
    s.bridge = .starting ∧ ∃ c, Metrics.step s.collector .subscribe = some c ∧
      c.subs = s.collector.subs ++ [Chan.empty] ∧ c.collected = s.collector.collected ∧
      s' = { s with collector := c, bridge := .waiting s.collector.subs.length } := by
  simp only [step, System.subscribe] at h
  split at h
  · next hb =>
    obtain ⟨c, hc, rfl⟩ := Option.map_eq_some_iff.1 h
    obtain ⟨-, rfl⟩ := Metrics.subscribe_cases hc
    exact ⟨hb, _, hc, rfl, rfl, rfl⟩
  · cases h

theorem take_cases {s s' : System} (h : step s .take = some s') :
    ∃ k snap q q', s.bridge = .waiting k ∧ s.collector.subs[k]? = some q ∧
      q.take? = some (snap, q') ∧
      s' = { s with
        collector := { s.collector with subs := s.collector.subs.set k q' }
        bridge := .holding k snap } := by
  simp only [step, System.take] at h
  split at h
  · next k hb =>
    obtain ⟨⟨snap, c⟩, hc, rfl⟩ := Option.map_eq_some_iff.1 h
    obtain ⟨q, q', hk, hq, rfl⟩ := Metrics.take_cases hc
    exact ⟨k, snap, q, q', hb, hk, hq, rfl⟩
  · cases h

theorem broadcast_cases {s s' : System} {ncduReady : Bool}
    (h : step s (.broadcast ncduReady) = some s') :
    ∃ k snap, s.bridge = .holding k snap ∧
      s' = { s with bridge := .waiting k, hub := s.hub.offerBroadcast ⟨snap, ncduReady⟩ } := by
  simp only [step, System.broadcast] at h
  split at h
  · next k snap hb =>
    cases h
    exact ⟨k, snap, hb, rfl⟩
  · cases h

theorem stop_cases {s s' : System} (h : step s .stop = some s') :
    ∃ k, s.bridge = .waiting k ∧ s' = { s with bridge := .stopped k } := by
  simp only [step, System.stop] at h
  split at h
  · next k hb =>
    cases h
    exact ⟨k, hb, rfl⟩
  · cases h

/-- Every step is a step of the collector or none of it, and likewise of the hub; it is a
registration or an unregistration only if that is its label. -/
theorem parts_of_step {s s' : System} {a : Action} (h : step s a = some s') :
    (s'.collector = s.collector ∨ ∃ b, Metrics.step s.collector b = some s'.collector) ∧
      (s'.hub = s.hub ∨
        ∃ b, Ws.step s.hub b = some s'.hub ∧ (a = .hub b ∨ ∃ msg, b = .broadcast msg)) := by
  cases a with
  | collector a =>
    obtain ⟨-, c, hc, rfl⟩ := collector_cases h
    exact ⟨Or.inr ⟨a, hc⟩, Or.inl rfl⟩
  | hub a =>
    obtain ⟨-, k, hk, rfl⟩ := hub_cases h
    exact ⟨Or.inl rfl, Or.inr ⟨a, hk, Or.inl rfl⟩⟩
  | subscribe =>
    obtain ⟨-, c, hc, -, -, rfl⟩ := subscribe_cases h
    exact ⟨Or.inr ⟨.subscribe, hc⟩, Or.inl rfl⟩
  | take =>
    obtain ⟨k, snap, q, q', -, hk, hq, rfl⟩ := take_cases h
    refine ⟨Or.inr ⟨.take k, ?_⟩, Or.inl rfl⟩
    simp [Metrics.step, Collector.take, hk, hq]
  | broadcast ncduReady =>
    obtain ⟨k, snap, -, rfl⟩ := broadcast_cases h
    exact ⟨Or.inl rfl, Or.inr ⟨.broadcast ⟨snap, ncduReady⟩, rfl, Or.inr ⟨_, rfl⟩⟩⟩
  | stop =>
    obtain ⟨k, -, rfl⟩ := stop_cases h
    exact ⟨Or.inl rfl, Or.inl rfl⟩

/-! ## The invariant -/

/-- Before the bridge subscribes nothing was broadcast, and then what was broadcast, with what the
bridge holds, is an in-order part of what the bridge has taken. -/
structure Flow (s : System) : Prop where
  numbered : Metrics.Numbered s.collector
  sound : Ws.Sound s.hub
  current : Ws.Current s.hub
  fresh : Ws.Fresh s.hub
  placed : ∀ c, Ws.Placed 0 c s.hub
  starting : s.bridge.sub = none → s.hub.broadcast.sent = []
  bridged : ∀ k, s.bridge.sub = some k → ∃ q, s.collector.subs[k]? = some q ∧
    (s.hub.broadcast.sent.map Message.snapshot ++ s.bridge.held).Sublist q.received

theorem flow_newSystem (interval : Int) : Flow (newSystem interval) where
  numbered := Metrics.numbered_newCollector interval
  sound := Ws.sound_newHub
  current := by simp [newSystem, Ws.newHub, Ws.Current]
  fresh := by simp [newSystem, Ws.newHub, Ws.Fresh]
  placed := fun c => ⟨Nat.zero_le _, by simp [newSystem, Ws.newHub]⟩
  starting := fun _ => rfl
  bridged := by simp [newSystem, Bridge.sub]

theorem Flow.parts {s s' : System} {a : Action} (hf : Flow s) (h : step s a = some s') :
    Metrics.Numbered s'.collector ∧ Ws.Sound s'.hub ∧ Ws.Current s'.hub ∧ Ws.Fresh s'.hub ∧
      ∀ n c, Ws.Placed n c s.hub → Ws.Placed n c s'.hub := by
  obtain ⟨hc, hk⟩ := parts_of_step h
  refine ⟨?_, ?_⟩
  · rcases hc with hc | ⟨b, hb⟩
    · rw [hc]
      exact hf.numbered
    · exact Metrics.numbered_step hf.numbered hb
  · rcases hk with hk | ⟨b, hb, -⟩
    · rw [hk]
      exact ⟨hf.sound, hf.current, hf.fresh, fun _ _ hp => hp⟩
    · exact ⟨Ws.sound_step hf.sound hb, Ws.current_step hf.current hb,
        Ws.fresh_step hf.sound hf.fresh hb, fun _ _ hp => Ws.placed_step hf.current hp hb⟩

/-- Before the bridge subscribes it broadcasts nothing. -/
theorem Flow.starting_step {s s' : System} {a : Action} (hf : Flow s) (h : step s a = some s')
    (hb : s'.bridge.sub = none) : s'.hub.broadcast.sent = [] := by
  cases a with
  | collector a =>
    obtain ⟨-, c, -, rfl⟩ := collector_cases h
    exact hf.starting hb
  | hub a =>
    obtain ⟨hne, k, hk, rfl⟩ := hub_cases h
    exact (Ws.sent_broadcast_of_step hk hne).trans (hf.starting hb)
  | subscribe =>
    obtain ⟨-, c, -, -, -, rfl⟩ := subscribe_cases h
    cases hb
  | take =>
    obtain ⟨k, snap, q, q', -, -, -, rfl⟩ := take_cases h
    cases hb
  | broadcast ncduReady =>
    obtain ⟨k, snap, -, rfl⟩ := broadcast_cases h
    cases hb
  | stop =>
    obtain ⟨k, -, rfl⟩ := stop_cases h
    cases hb

/-- The bridge broadcasts what it has taken, in this order, and each snapshot once at most. -/
theorem Flow.bridged_step {s s' : System} {a : Action} (hf : Flow s) (h : step s a = some s')
    {k : Nat} (hk : s'.bridge.sub = some k) : ∃ q, s'.collector.subs[k]? = some q ∧
      (s'.hub.broadcast.sent.map Message.snapshot ++ s'.bridge.held).Sublist q.received := by
  cases a with
  | collector a =>
    obtain ⟨hmine, c, hc, rfl⟩ := collector_cases h
    obtain ⟨q, hq, hsent⟩ := hf.bridged k hk
    obtain ⟨q', hq', hreceived, -⟩ := Metrics.sub_of_step hc hq (hmine k hk)
    exact ⟨q', hq', by rwa [hreceived]⟩
  | hub a =>
    obtain ⟨hne, k', hk', rfl⟩ := hub_cases h
    rw [Ws.sent_broadcast_of_step hk' hne]
    exact hf.bridged k hk
  | subscribe =>
    obtain ⟨hb, c, -, hsubs, -, rfl⟩ := subscribe_cases h
    cases hk
    refine ⟨Chan.empty, by simp [hsubs], ?_⟩
    rw [hf.starting (by rw [hb]; rfl)]
    exact List.Sublist.refl _
  | take =>
    obtain ⟨j, snap, q, q', hb, hj, hq, rfl⟩ := take_cases h
    cases hk
    obtain ⟨q₀, hq₀, hsent⟩ := hf.bridged k (by rw [hb]; rfl)
    rw [hj] at hq₀
    cases hq₀
    refine ⟨q', List.getElem?_set_self (List.getElem?_eq_some_iff.1 hj).1, ?_⟩
    rw [Chan.received_of_take? hq]
    simp only [hb, Bridge.held, List.append_nil] at hsent ⊢
    exact hsent.append (List.Sublist.refl _)
  | broadcast ncduReady =>
    obtain ⟨j, snap, hb, rfl⟩ := broadcast_cases h
    cases hk
    obtain ⟨q, hq, hsent⟩ := hf.bridged k (by rw [hb]; rfl)
    refine ⟨q, hq, ?_⟩
    simp only [hb, Bridge.held, List.append_nil, Hub.offerBroadcast] at hsent ⊢
    have hoffer := (Chan.sent_offer_sublist (List.Sublist.refl s.hub.broadcast.sent)
      ⟨snap, ncduReady⟩).map Message.snapshot
    rw [List.map_append] at hoffer
    exact hoffer.trans hsent
  | stop =>
    obtain ⟨j, hb, rfl⟩ := stop_cases h
    cases hk
    have hsent := hf.bridged k (by rw [hb]; rfl)
    rwa [hb] at hsent

theorem flow_step {s s' : System} {a : Action} (hf : Flow s) (h : step s a = some s') :
    Flow s' := by
  obtain ⟨hnumbered, hsound, hcurrent, hfresh, hplaced⟩ := hf.parts h
  exact ⟨hnumbered, hsound, hcurrent, hfresh, fun c => hplaced 0 c (hf.placed c),
    hf.starting_step h, fun _ => hf.bridged_step h⟩

theorem flow_run {interval : Int} {as : List Action} {s : System}
    (h : Lts.run step (newSystem interval) as = some s) : Flow s :=
  Lts.invariant (fun _ _ _ hf => flow_step hf) (flow_newSystem interval) h

/-! ## What a client's channel is given -/

theorem sent_sublist_of_placed {n c : Nat} {h : Hub Message} (hp : Ws.Placed n c h) :
    (h.client c).send.sent.Sublist (h.handled.drop n) :=
  hp.sent.trans ((Ws.settled_prefix_handled h c).sublist.drop n)

/-- What was broadcast is an in-order part of the snapshots collected, each once. -/
theorem Flow.broadcast_sublist {s : System} (hf : Flow s) :
    (s.hub.broadcast.sent.map Message.snapshot).Sublist (List.range s.collector.collected) := by
  cases hb : s.bridge.sub with
  | none =>
    rw [hf.starting hb]
    exact List.nil_sublist _
  | some k =>
    obtain ⟨q, hq, hsent⟩ := hf.bridged k hb
    have hoffered : q.sent.Sublist (List.range s.collector.collected) :=
      (hf.numbered.sent k q hq).trans (List.range_sublist.2 (hf.numbered.offeredTo_le k))
    calc (s.hub.broadcast.sent.map Message.snapshot).Sublist
          (s.hub.broadcast.sent.map Message.snapshot ++ s.bridge.held) :=
            List.sublist_append_left _ _
      List.Sublist _ q.received := hsent
      List.Sublist _ q.sent := List.take_sublist _ _
      List.Sublist _ (List.range s.collector.collected) := hoffered

/-- So is what was placed in a client's channel. -/
theorem ordered_of_flow {s : System} (hf : Flow s) (c : Nat) :
    ((s.hub.client c).send.sent.map Message.snapshot).Sublist
      (List.range s.collector.collected) := by
  have hsent : (s.hub.client c).send.sent.Sublist s.hub.broadcast.sent :=
    (sent_sublist_of_placed (hf.placed c)).trans (List.take_sublist _ _)
  exact (hsent.map _).trans hf.broadcast_sublist

theorem placed_run {n c : Nat} {as : List Action} {s s' : System} (hf : Flow s)
    (hp : Ws.Placed n c s.hub) (h : Lts.run step s as = some s') : Ws.Placed n c s'.hub := by
  have hboth := Lts.invariant (I := fun s => Flow s ∧ Ws.Placed n c s.hub) (fun s a s' hs h => ?_)
    ⟨hf, hp⟩ h
  · exact hboth.2
  · obtain ⟨-, -, -, -, hplaced⟩ := hs.1.parts h
    exact ⟨flow_step hs.1 h, hplaced n c hs.2⟩

/-- After a client has left, its channel is given nothing. -/
theorem left_run {c : Nat} {as : List Action} {s s' : System} (hf : Flow s)
    (hleft : (s.hub.client c).stage = .left) (h : Lts.run step s as = some s') :
    (s'.hub.client c).send.sent = (s.hub.client c).send.sent := by
  have hall := Lts.invariant
    (I := fun t => Flow t ∧ (t.hub.client c).stage = .left ∧
      (t.hub.client c).send.sent = (s.hub.client c).send.sent)
    (fun t a t' ht h => ?_) ⟨hf, hleft, rfl⟩ h
  · exact hall.2.2
  · obtain ⟨hf, hleft, hsent⟩ := ht
    refine ⟨flow_step hf h, ?_⟩
    obtain hk | ⟨b, hb, -⟩ := (parts_of_step h).2
    · rw [hk]
      exact ⟨hleft, hsent⟩
    · obtain ⟨hleft', hsent'⟩ := Ws.left_step hf.sound hleft hb
      exact ⟨hleft', hsent'.trans hsent⟩

theorem sent_of_never_registered {interval : Int} {c : Nat} {as : List Action} {s : System}
    (h : Lts.run step (newSystem interval) as = some s) (hc : Action.hub (.register c) ∉ as) :
    (s.hub.client c).send.sent = [] := by
  have hstage : (s.hub.client c).stage = .absent ∨ (s.hub.client c).stage = .joining := by
    have hI := Lts.invariant_history
      (I := fun as s => Action.hub (.register c) ∉ as →
        (s.hub.client c).stage = .absent ∨ (s.hub.client c).stage = .joining)
      (fun _ => Or.inl rfl) (fun as s a s' _ ih hs ha => ?_) h
    · exact hI hc
    · simp only [List.mem_append, List.mem_singleton, not_or] at ha
      obtain hk | ⟨b, hb, hlabel⟩ := (parts_of_step hs).2
      · rw [hk]
        exact ih ha.1
      · refine Ws.unjoined_step (fun hreg => ?_) (ih ha.1) hb
        subst hreg
        rcases hlabel with hlabel | ⟨msg, hmsg⟩
        · exact ha.2 hlabel.symm
        · cases hmsg
  exact (flow_run h).fresh c hstage

/-- A client is given only messages handled since its registration. -/
theorem sent_of_registered {interval : Int} {c : Nat} {as₁ as₂ : List Action} {s₁ s : System}
    (h : Lts.run step (newSystem interval) (as₁ ++ .hub (.register c) :: as₂) = some s)
    (h₁ : Lts.run step (newSystem interval) as₁ = some s₁) :
    Ws.Placed s₁.hub.handled.length c s.hub := by
  obtain ⟨t, u, ht, hu, hrun⟩ := Lts.run_middle_some h
  cases ht.symm.trans h₁
  have hf := flow_run h₁
  obtain ⟨-, k, hk, rfl⟩ := hub_cases hu
  exact placed_run (flow_step hf hu) (Ws.placed_register hf.fresh hk) hrun

/-- And only messages handled before its unregistration. -/
theorem sent_of_unregistered {interval : Int} {c : Nat} {as₁ as₂ : List Action} {s₁ s : System}
    (h : Lts.run step (newSystem interval) (as₁ ++ .hub (.unregister c) :: as₂) = some s)
    (h₁ : Lts.run step (newSystem interval) as₁ = some s₁) :
    (s.hub.client c).send.sent = (s₁.hub.client c).send.sent := by
  obtain ⟨t, u, ht, hu, hrun⟩ := Lts.run_middle_some h
  cases ht.symm.trans h₁
  have hf := flow_run h₁
  obtain ⟨-, k, hk, rfl⟩ := hub_cases hu
  obtain ⟨hsend, hstage⟩ := Ws.client_unregister hk c
  rw [left_run (flow_step hf hu) (by simpa using hstage) hrun, hsend]
  simp

/-! ## Independence of the clients -/

/-- The two systems are the same, except for what is in the channel of client `d`. -/
structure Alike (d : Nat) (s t : System) : Prop where
  collector : s.collector = t.collector
  bridge : s.bridge = t.bridge
  hub : Ws.Alike d s.hub t.hub

theorem alike_receive {d : Nat} {s s' t : System} (ha : Alike d s t)
    (h : step s (.hub (.receive d)) = some s') : Alike d s' t := by
  obtain ⟨-, k, hk, rfl⟩ := hub_cases h
  exact ⟨ha.collector, ha.bridge, (Ws.alike_receive hk).symm.trans ha.hub⟩

/-- A step of one system, other than a receive of client `d`, is a step of the other. -/
theorem alike_step {d : Nat} {s s' t : System} {a : Action} (ha : Alike d s t)
    (hne : a ≠ .hub (.receive d)) (h : step s a = some s') :
    ∃ t', step t a = some t' ∧ Alike d s' t' := by
  obtain ⟨c, b, k⟩ := s
  obtain ⟨c', b', l⟩ := t
  obtain ⟨hc, hb, hk⟩ := ha
  cases hc
  cases hb
  cases a with
  | collector a =>
    obtain ⟨-, c', hc', rfl⟩ := collector_cases h
    refine ⟨⟨c', b, l⟩, ?_, rfl, rfl, hk⟩
    simp only [step, System.stepCollector] at h ⊢
    split_ifs at h ⊢
    rw [hc']
    rfl
  | hub a =>
    obtain ⟨hnot, k', hk', rfl⟩ := hub_cases h
    obtain ⟨l', hl', hk⟩ := Ws.alike_step hk (fun ha => hne (by rw [ha])) hk'
    refine ⟨⟨c, b, l'⟩, ?_, rfl, rfl, hk⟩
    simp only [step, System.stepHub]
    rw [show Ws.step l a = some l' from hl']
    rfl
  | subscribe =>
    obtain ⟨rfl, c', hc', -, -, rfl⟩ := subscribe_cases h
    refine ⟨⟨c', .waiting c.subs.length, l⟩, ?_, rfl, rfl, hk⟩
    simp only [step, System.subscribe]
    rw [show c.subscribe = some c' from hc']
    rfl
  | take =>
    obtain ⟨j, snap, q, q', rfl, hj, hq, rfl⟩ := take_cases h
    refine ⟨⟨{ c with subs := c.subs.set j q' }, .holding j snap, l⟩, ?_, rfl, rfl, hk⟩
    simp [step, System.take, Collector.take, hj, hq]
  | broadcast ncduReady =>
    obtain ⟨j, snap, rfl, rfl⟩ := broadcast_cases h
    obtain ⟨l', hl', hk⟩ := Ws.alike_step (a := .broadcast ⟨snap, ncduReady⟩) hk (by simp) rfl
    cases hl'
    exact ⟨_, rfl, rfl, rfl, hk⟩
  | stop =>
    obtain ⟨j, rfl, rfl⟩ := stop_cases h
    exact ⟨_, rfl, rfl, rfl, hk⟩

/-- **Isolation.** A run stays one when client `d` no longer receives, and gives the other clients
the same. -/
theorem isolated {d : Nat} {as : List Action} {s s' : System} (h : Lts.run step s as = some s') :
    ∃ t, Lts.run step s (as.filter (· ≠ .hub (.receive d))) = some t ∧ Alike d s' t := by
  refine Lts.run_filter (R := Alike d) (fun s t a s' ha hv h => ?_) (fun s t a s' ha hv h => ?_)
    ⟨rfl, rfl, Ws.Alike.refl d s.hub⟩ h
  · exact alike_step ha (by simpa using hv) h
  · obtain rfl : a = .hub (.receive d) := by simpa using hv
    exact alike_receive ha h

end QuickVps.Delivery
