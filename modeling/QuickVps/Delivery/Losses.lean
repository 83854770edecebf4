import QuickVps.Delivery.System

/-!
# Where snapshots are lost

A snapshot collected after the bridge has subscribed goes through three queues, and each may be full
when the snapshot is offered to it. There is no other loss, but for the clients that are not
registered when the hub handles its message.

* `Fate` — what has become of a snapshot, for one client, and `fate_step`.
* `delivered_of_run` — what a run delivers.
* `snapshot_lost_before_subscription` — a snapshot collected before the bridge has subscribed gets
  lost although no queue is full.
-/

namespace QuickVps.Delivery

open Metrics (Collector Sub)
open Ws (Hub Client)

/-! ## Losses -/

/-- The collector offers snapshot `n` to the bridge, whose four slots are full. -/
def SubFull (n : Nat) (s : System) (a : Action) : Prop :=
  ∃ k q, s.bridge.sub = some k ∧ a = .collector .offer ∧ s.collector.loop = .offering n k ∧
    s.collector.subs[k]? = some q ∧ q.Full

/-- The bridge broadcasts snapshot `n` when the broadcast channel is full. -/
def BroadcastFull (n : Nat) (s : System) (a : Action) : Prop :=
  ∃ k ncduReady, s.bridge = .holding k n ∧ a = .broadcast ncduReady ∧ s.hub.broadcast.Full

/-- The hub offers snapshot `n` to client `c`, whose channel is full. -/
def ClientFull (c n : Nat) (s : System) (a : Action) : Prop :=
  ∃ msg todo, s.hub.loop = .sending msg todo ∧ msg.snapshot = n ∧ a = .hub (.offer c) ∧
    (s.hub.client c).send.Full

/-- The hub takes the message of snapshot `n` when client `c` is not registered. -/
def Unregistered (c n : Nat) (s : System) (a : Action) : Prop :=
  ∃ msg q, s.hub.broadcast.take? = some (msg, q) ∧ msg.snapshot = n ∧ a = .hub .handle ∧
    c ∉ s.hub.clients

/-- Snapshot `n` is still on its way to client `c`. -/
inductive OnTheWay (s : System) (c n : Nat) : Prop
  | collected (k : Nat) (hb : s.bridge.sub = some k) (hloop : s.collector.loop = .collected n)
  | offering (k next : Nat) (hb : s.bridge.sub = some k) (hle : next ≤ k)
      (hloop : s.collector.loop = .offering n next)
  | subscribed (k : Nat) (q : Sub) (hb : s.bridge.sub = some k)
      (hq : s.collector.subs[k]? = some q) (hmem : n ∈ q.buffer)
  | held (hmem : n ∈ s.bridge.held)
  | broadcast (msg : Message) (hmem : msg ∈ s.hub.broadcast.buffer) (hmsg : msg.snapshot = n)
  | sending (msg : Message) (todo : Finset Nat) (hloop : s.hub.loop = .sending msg todo)
      (hmem : c ∈ todo) (hmsg : msg.snapshot = n)

/-- What has become of snapshot `n` for client `c`, in the run `as` from `start` to `s`. -/
inductive Fate (start : System) (as : List Action) (s : System) (c n : Nat) : Prop
  | placed (msg : Message) (hmem : msg ∈ (s.hub.client c).send.sent) (hmsg : msg.snapshot = n)
  | subFull (h : Lts.Sometime step (SubFull n) start as)
  | broadcastFull (h : Lts.Sometime step (BroadcastFull n) start as)
  | clientFull (h : Lts.Sometime step (ClientFull c n) start as)
  | unregistered (h : Lts.Sometime step (Unregistered c n) start as)
  | onTheWay (h : OnTheWay s c n)

section Step

variable {start s s' : System} {as : List Action} {a : Action} {c n : Nat}

/-- What was placed in a client's channel stays there. -/
theorem placed_stays (h : step s a = some s') {msg : Message}
    (hmem : msg ∈ (s.hub.client c).send.sent) : msg ∈ (s'.hub.client c).send.sent := by
  obtain hk | ⟨b, hb, -⟩ := (parts_of_step h).2
  · rwa [hk]
  · exact (Ws.sent_prefix_of_step c hb).subset hmem

/-- The bridge keeps its subscription. -/
theorem sub_stays (h : step s a = some s') {k : Nat} (hb : s.bridge.sub = some k) :
    s'.bridge.sub = some k := by
  cases a with
  | collector a =>
    obtain ⟨-, c, -, rfl⟩ := collector_cases h
    exact hb
  | hub a =>
    obtain ⟨-, l, -, rfl⟩ := hub_cases h
    exact hb
  | subscribe =>
    obtain ⟨hstart, c, -, -, -, rfl⟩ := subscribe_cases h
    rw [hstart] at hb
    cases hb
  | take =>
    obtain ⟨j, snap, q, q', hj, -, -, rfl⟩ := take_cases h
    rwa [hj] at hb
  | broadcast ncduReady =>
    obtain ⟨j, snap, hj, rfl⟩ := broadcast_cases h
    rwa [hj] at hb
  | stop =>
    obtain ⟨j, hj, rfl⟩ := stop_cases h
    rwa [hj] at hb

/-- What the collector does next with a snapshot: it is in the loop over the subscribers, before
the turn of the bridge, until that one's slots take the snapshot or are full. -/
theorem onTheWay_collector {b : Metrics.Action} {k : Nat} (hf : Flow s)
    (hrun : Lts.run step start as = some s) (h : step s (.collector b) = some s')
    (hb : s.bridge.sub = some k)
    (hloop : s.collector.loop = .collected n ∨
      ∃ next, next ≤ k ∧ s.collector.loop = .offering n next) :
    Fate start (as ++ [.collector b]) s' c n := by
  obtain ⟨-, d, hd, rfl⟩ := collector_cases h
  obtain ⟨q, hq, -⟩ := hf.bridged k hb
  have hsame : d.loop = s.collector.loop → Fate start (as ++ [.collector b])
      { s with collector := d } c n := fun hl => by
    rcases hloop with hloop | ⟨next, hle, hloop⟩
    · exact .onTheWay (.collected k hb (hl.trans hloop))
    · exact .onTheWay (.offering k next hb hle (hl.trans hloop))
  cases Metrics.loopMove_of_step hd with
  | quiet hl hcollected hsubs => exact hsame hl
  | begin hl hl' hcollected hsubs => simp [hl] at hloop
  | tick hl hl' hcollected hsubs => simp [hl] at hloop
  | lock snap hl hl' hcollected hsubs =>
    obtain rfl : snap = n := by simpa [hl] using hloop
    exact .onTheWay (.offering k 0 hb (Nat.zero_le k) hl')
  | offer snap next ha hl hlt hl' hcollected hsubs =>
    obtain ⟨rfl, hle⟩ : snap = n ∧ next ≤ k := by
      simpa [hl, and_comm] using hloop
    by_cases hk : next = k
    · -- It is the turn of the bridge.
      subst hk
      by_cases hfull : q.Full
      · exact .subFull (Lts.sometime_last hrun ⟨next, q, hb, by rw [ha], hl, hq, hfull⟩)
      · refine .onTheWay (.subscribed next (q.offer snap) hb (by simp [hsubs, hq]) ?_)
        rw [Chan.buffer_offer_of_not_full hfull]
        exact List.mem_concat_self
    · exact .onTheWay (.offering k (next + 1) hb (by omega) hl')
  | offered snap next hl hle' hl' hcollected hsubs =>
    obtain ⟨rfl, hle⟩ : snap = n ∧ next ≤ k := by
      simpa [hl, and_comm] using hloop
    have hk := (List.getElem?_eq_some_iff.1 hq).1
    omega
  | stop hl hl' hcollected hsubs => simp [hl] at hloop
  | subscribe hfree hl hcollected hsubs => exact hsame hl
  | take j snap q₀ q' ha hj hq₀ hl hcollected hsubs => exact hsame hl

/-- Other steps leave the snapshot with the collector. -/
theorem onTheWay_offering {k : Nat} (hf : Flow s) (hrun : Lts.run step start as = some s)
    (h : step s a = some s') (hb : s.bridge.sub = some k)
    (hloop : s.collector.loop = .collected n ∨
      ∃ next, next ≤ k ∧ s.collector.loop = .offering n next) :
    Fate start (as ++ [a]) s' c n := by
  have hsame : s'.collector.loop = s.collector.loop → Fate start (as ++ [a]) s' c n :=
    fun hl => by
      rcases hloop with hloop | ⟨next, hle, hloop⟩
      · exact .onTheWay (.collected k (sub_stays h hb) (hl.trans hloop))
      · exact .onTheWay (.offering k next (sub_stays h hb) hle (hl.trans hloop))
  cases a with
  | collector b => exact onTheWay_collector hf hrun h hb hloop
  | hub a =>
    obtain ⟨-, l, -, rfl⟩ := hub_cases h
    exact hsame rfl
  | subscribe =>
    obtain ⟨hstart, -⟩ := subscribe_cases h
    rw [hstart] at hb
    cases hb
  | take =>
    obtain ⟨j, snap, q, q', -, -, -, rfl⟩ := take_cases h
    exact hsame rfl
  | broadcast ncduReady =>
    obtain ⟨j, snap, -, rfl⟩ := broadcast_cases h
    exact hsame rfl
  | stop =>
    obtain ⟨j, -, rfl⟩ := stop_cases h
    exact hsame rfl

/-- The bridge may take a snapshot that waits for it. -/
theorem onTheWay_subscribed {k : Nat} {q : Sub} (h : step s a = some s')
    (hb : s.bridge.sub = some k) (hq : s.collector.subs[k]? = some q) (hmem : n ∈ q.buffer) :
    OnTheWay s' c n := by
  have hb' := sub_stays h hb
  cases a with
  | collector a =>
    obtain ⟨hmine, d, hd, rfl⟩ := collector_cases h
    obtain ⟨q', hq', -, hbuffer⟩ := Metrics.sub_of_step hd hq (hmine k hb)
    exact .subscribed k q' hb' hq' (hbuffer.subset hmem)
  | hub a =>
    obtain ⟨-, l, -, rfl⟩ := hub_cases h
    exact .subscribed k q hb' hq hmem
  | subscribe =>
    obtain ⟨hstart, -⟩ := subscribe_cases h
    rw [hstart] at hb
    cases hb
  | take =>
    obtain ⟨j, snap, q₀, q', hj, hq₀, htake, rfl⟩ := take_cases h
    obtain rfl : j = k := by simpa [Bridge.sub] using hb'
    rw [hq] at hq₀
    cases hq₀
    rw [Chan.buffer_of_take? htake, List.mem_cons] at hmem
    rcases hmem with rfl | hmem
    · exact .held (List.mem_singleton_self n)
    · exact .subscribed j q' hb'
        (List.getElem?_set_self (List.getElem?_eq_some_iff.1 hq).1) hmem
  | broadcast ncduReady =>
    obtain ⟨j, snap, -, rfl⟩ := broadcast_cases h
    exact .subscribed k q hb' hq hmem
  | stop =>
    obtain ⟨j, -, rfl⟩ := stop_cases h
    exact .subscribed k q hb' hq hmem

/-- The bridge broadcasts the snapshot it holds. -/
theorem onTheWay_held (hrun : Lts.run step start as = some s) (h : step s a = some s')
    (hmem : n ∈ s.bridge.held) : Fate start (as ++ [a]) s' c n := by
  cases a with
  | collector a =>
    obtain ⟨-, d, -, rfl⟩ := collector_cases h
    exact .onTheWay (.held hmem)
  | hub a =>
    obtain ⟨-, l, -, rfl⟩ := hub_cases h
    exact .onTheWay (.held hmem)
  | subscribe =>
    obtain ⟨hstart, -⟩ := subscribe_cases h
    simp [hstart, Bridge.held] at hmem
  | take =>
    obtain ⟨j, snap, q, q', hj, -⟩ := take_cases h
    simp [hj, Bridge.held] at hmem
  | broadcast ncduReady =>
    obtain ⟨j, snap, hj, rfl⟩ := broadcast_cases h
    obtain rfl : n = snap := by simpa [hj, Bridge.held] using hmem
    by_cases hfull : s.hub.broadcast.Full
    · exact .broadcastFull (Lts.sometime_last hrun ⟨j, ncduReady, hj, rfl, hfull⟩)
    · refine .onTheWay (.broadcast ⟨n, ncduReady⟩ ?_ rfl)
      rw [Hub.offerBroadcast, Chan.buffer_offer_of_not_full hfull]
      exact List.mem_concat_self
  | stop =>
    obtain ⟨j, hj, -⟩ := stop_cases h
    simp [hj, Bridge.held] at hmem

/-- The hub may take a message that waits for it, and starts to offer it to its clients. -/
theorem onTheWay_broadcast (hrun : Lts.run step start as = some s) (h : step s a = some s')
    {msg : Message} (hmem : msg ∈ s.hub.broadcast.buffer) (hmsg : msg.snapshot = n) :
    Fate start (as ++ [a]) s' c n := by
  obtain hk | ⟨b, hb, hlabel⟩ := (parts_of_step h).2
  · exact .onTheWay (.broadcast msg (hk ▸ hmem) hmsg)
  · by_cases hhandle : b = .handle
    · subst hhandle
      obtain rfl : a = .hub .handle := by simpa using hlabel
      obtain ⟨msg', q, -, htake, hs'⟩ := Ws.handle_cases hb
      have hbuffer := Chan.buffer_of_take? htake
      rw [hbuffer, List.mem_cons] at hmem
      rcases hmem with rfl | hmem
      · by_cases hc : c ∈ s.hub.clients
        · exact .onTheWay (.sending msg s.hub.clients (by rw [hs']) hc hmsg)
        · exact .unregistered (Lts.sometime_last hrun ⟨msg, q, htake, hmsg, rfl, hc⟩)
      · exact .onTheWay (.broadcast msg (by rw [hs']; exact hmem) hmsg)
    · exact .onTheWay (.broadcast msg ((Ws.buffer_prefix_of_step hb hhandle).subset hmem) hmsg)

/-- The hub offers the message to each of its clients. -/
theorem onTheWay_sending (hf : Flow s) (hrun : Lts.run step start as = some s)
    (h : step s a = some s') {msg : Message} {todo : Finset Nat}
    (hloop : s.hub.loop = .sending msg todo) (hmem : c ∈ todo) (hmsg : msg.snapshot = n) :
    Fate start (as ++ [a]) s' c n := by
  obtain hk | ⟨b, hb, hlabel⟩ := (parts_of_step h).2
  · exact .onTheWay (.sending msg todo (hk ▸ hloop) hmem hmsg)
  · cases Ws.runMove_of_step hb with
    | quiet hl hhandled => exact .onTheWay (.sending msg todo (hl.trans hloop) hmem hmsg)
    | handle msg' q hb' hl hl' hq hbroadcast hhandled =>
      rw [hl] at hloop
      cases hloop
    | offer d msg' todo' hb' hl hmem' hl' hhandled =>
      rw [hl] at hloop
      cases hloop
      by_cases hd : d = c
      · -- It is the turn of the client.
        subst hd hb'
        obtain rfl : a = .hub (.offer d) := by simpa using hlabel
        by_cases hfull : (s.hub.client d).send.Full
        · exact .clientFull (Lts.sometime_last hrun ⟨msg, todo, hl, hmsg, rfl, hfull⟩)
        · refine .placed msg ?_ hmsg
          rw [Ws.send_of_offer hb hl hl', Chan.sent_offer_of_not_full hfull]
          exact List.mem_concat_self
      · exact .onTheWay (.sending msg (todo.erase d) hl'
          (Finset.mem_erase.2 ⟨fun hc => hd hc.symm, hmem⟩) hmsg)
    | rest hl hl' hhandled =>
      rcases hl with hl | ⟨msg', hl⟩ | hl
      · exact absurd hloop (hl msg todo)
      · rw [hl] at hloop
        cases hloop
        simp at hmem
      · have hsound := (Ws.sound_step hf.sound hb).standing
        rw [hl] at hsound
        exact hsound.elim

/-- **A step loses a snapshot only in a full queue**, or when the client is not registered. -/
theorem fate_step (hf : Flow s) (hrun : Lts.run step start as = some s) (h : step s a = some s')
    (hfate : Fate start as s c n) : Fate start (as ++ [a]) s' c n := by
  cases hfate with
  | placed msg hmem hmsg => exact .placed msg (placed_stays h hmem) hmsg
  | subFull hs => exact .subFull (hs.snoc a)
  | broadcastFull hs => exact .broadcastFull (hs.snoc a)
  | clientFull hs => exact .clientFull (hs.snoc a)
  | unregistered hs => exact .unregistered (hs.snoc a)
  | onTheWay hw =>
    cases hw with
    | collected k hb hloop => exact onTheWay_offering hf hrun h hb (Or.inl hloop)
    | offering k next hb hle hloop =>
      exact onTheWay_offering hf hrun h hb (Or.inr ⟨next, hle, hloop⟩)
    | subscribed k q hb hq hmem => exact .onTheWay (onTheWay_subscribed h hb hq hmem)
    | held hmem => exact onTheWay_held hrun h hmem
    | broadcast msg hmem hmsg => exact onTheWay_broadcast hrun h hmem hmsg
    | sending msg todo hloop hmem hmsg => exact onTheWay_sending hf hrun h hloop hmem hmsg

end Step

/-! ## Runs -/

/-- After the bridge has subscribed, every further snapshot has a fate. -/
def Accounted (start : System) (as : List Action) (s : System) : Prop :=
  ∀ as₁ as₂ s₁, as = as₁ ++ .subscribe :: as₂ → Lts.run step start as₁ = some s₁ →
    (∃ k, s.bridge.sub = some k) ∧
      ∀ c n, s₁.collector.collected ≤ n → n < s.collector.collected → Fate start as s c n

theorem collected_of_step {s s' : System} {a : Action} (h : step s a = some s') :
    s'.collector.collected = s.collector.collected ∨
      s'.collector.collected = s.collector.collected + 1 ∧
        s'.collector.loop = .collected s.collector.collected := by
  obtain hc | ⟨b, hb⟩ := (parts_of_step h).1
  · exact Or.inl (by rw [hc])
  · exact Metrics.collected_of_step hb

theorem accounted_step {start s s' : System} {as : List Action} {a : Action} (hf : Flow s)
    (hrun : Lts.run step start as = some s) (hs : Accounted start as s)
    (h : step s a = some s') : Accounted start (as ++ [a]) s' := by
  intro as₁ as₂ s₁ heq h₁
  obtain rfl | ⟨bs, b, rfl⟩ := List.eq_nil_or_concat as₂
  · -- This step is the subscription.
    obtain ⟨rfl, ha⟩ := List.append_inj' heq rfl
    obtain rfl : a = .subscribe := List.singleton_inj.1 ha
    cases hrun.symm.trans h₁
    obtain ⟨-, d, -, -, hcollected, rfl⟩ := subscribe_cases h
    refine ⟨⟨_, rfl⟩, fun c n hle hlt => ?_⟩
    simp only [hcollected] at hlt
    omega
  · rw [List.concat_eq_append, ← List.cons_append, ← List.append_assoc] at heq
    obtain ⟨rfl, -⟩ := List.append_inj' heq rfl
    obtain ⟨⟨k, hk⟩, hfate⟩ := hs as₁ bs s₁ rfl h₁
    refine ⟨⟨k, sub_stays h hk⟩, fun c n hle hlt => ?_⟩
    rcases collected_of_step h with hcollected | ⟨hcollected, hloop⟩
    · exact fate_step hf hrun h (hfate c n hle (by omega))
    · by_cases hn : n < s.collector.collected
      · exact fate_step hf hrun h (hfate c n hle hn)
      · obtain rfl : n = s.collector.collected := by omega
        exact .onTheWay (.collected k (sub_stays h hk) hloop)

theorem accounted_run {interval : Int} {as : List Action} {s : System}
    (h : Lts.run step (newSystem interval) as = some s) :
    Accounted (newSystem interval) as s := by
  refine Lts.invariant_history (fun as₁ as₂ s₁ heq => ?_) (fun as s a s' hrun hs h => ?_) h
  · simp at heq
  · exact accounted_step (flow_run hrun) hrun hs h

/-- What is asked of the delivery in the run `as` from `start` to `s`. -/
structure Delivered (start : System) (as : List Action) (s : System) : Prop where
  ordered : ∀ c, ((s.hub.client c).send.sent.map Message.snapshot).Sublist
    (List.range s.collector.collected)
  never : ∀ c, Action.hub (.register c) ∉ as → (s.hub.client c).send.sent = []
  registered : ∀ c as₁ as₂ s₁, as = as₁ ++ .hub (.register c) :: as₂ →
    Lts.run step start as₁ = some s₁ →
    (s.hub.client c).send.sent.Sublist (s.hub.handled.drop s₁.hub.handled.length)
  unregistered : ∀ c as₁ as₂ as₃ s₁ s₂,
    as = as₁ ++ .hub (.register c) :: as₂ ++ .hub (.unregister c) :: as₃ →
    Lts.run step start as₁ = some s₁ →
    Lts.run step start (as₁ ++ .hub (.register c) :: as₂) = some s₂ →
    (s.hub.client c).send.sent.Sublist (s₂.hub.handled.drop s₁.hub.handled.length)
  accounted : Accounted start as s
  isolated : ∀ d, ∃ t, Lts.run step start (as.filter (· ≠ .hub (.receive d))) = some t ∧
    ∀ c, c ≠ d → t.hub.client c = s.hub.client c

/-- **A client's channel is given an in-order part of the snapshots collected**, of those that the
hub handles while the client is registered; since the bridge has subscribed, a snapshot is lost
only in a full queue; and how fast a client reads does not matter to the others. -/
theorem delivered_of_run {interval : Int} {as : List Action} {s : System}
    (h : Lts.run step (newSystem interval) as = some s) :
    Delivered (newSystem interval) as s := by
  refine ⟨ordered_of_flow (flow_run h), fun c hc => sent_of_never_registered h hc, ?_, ?_,
    accounted_run h, fun d => ?_⟩
  · rintro c as₁ as₂ s₁ rfl h₁
    exact sent_sublist_of_placed (sent_of_registered h h₁)
  · rintro c as₁ as₂ as₃ s₁ s₂ rfl h₁ h₂
    rw [sent_of_unregistered h h₂]
    exact sent_sublist_of_placed (sent_of_registered h₂ h₁)
  · obtain ⟨t, ht, halike⟩ := isolated (d := d) h
    exact ⟨t, ht, fun c hc => (halike.hub.others c hc).symm⟩

/-- One snapshot reaches one client. -/
def deliverOne : List Action :=
  [.subscribe, .collector .begin, .hub (.newClient 0), .hub (.register 0), .collector .tick,
    .collector .lock, .collector .offer, .collector .offer, .take, .broadcast true, .hub .handle,
    .hub (.offer 0), .hub .finish, .hub (.unregister 0)]

theorem delivered_of_run_deliverOne :
    ∃ s, Lts.run step (newSystem 1000000000) deliverOne = some s ∧
      Delivered (newSystem 1000000000) deliverOne s := by
  obtain ⟨s, hs⟩ : ∃ s, Lts.run step (newSystem 1000000000) deliverOne = some s := ⟨_, rfl⟩
  exact ⟨s, hs, delivered_of_run hs⟩

/-! ## Before the subscription -/

/-- The collector is done with its first snapshot when the bridge comes to subscribe. -/
def subscribeLate : List Action :=
  [.collector .begin, .hub (.newClient 0), .hub (.register 0), .collector .tick,
    .collector .lock, .collector .offer, .subscribe]

/-- A step at which a snapshot could get lost, once the bridge has subscribed. -/
def MayLose (s : System) (a : Action) : Prop :=
  a = .collector .offer ∧ s.bridge.sub ≠ none ∨ (∃ b ∈ [true, false], a = .broadcast b) ∨
    a = .hub (.offer 0) ∨ a = .hub .handle

instance (s : System) (a : Action) : Decidable (MayLose s a) :=
  inferInstanceAs (Decidable (_ ∨ _))

/-- Snapshots collected before the bridge has subscribed get lost although no queue is full, the
client is registered and there is no shutdown. -/
theorem snapshot_lost_before_subscription :
    ¬ ∀ (interval : Int) (as : List Action) (s : System),
      Lts.run step (newSystem interval) as = some s →
      .collector .stop ∉ as → .stop ∉ as → .hub .shutdown ∉ as →
      ∀ c n, n < s.collector.collected → Fate (newSystem interval) as s c n := by
  intro hall
  obtain ⟨s, hs⟩ : ∃ s, Lts.run step (newSystem 1000000000) subscribeLate = some s := ⟨_, rfl⟩
  have hnever : ¬ Lts.Sometime step MayLose (newSystem 1000000000) subscribeLate :=
    Lts.not_sometime_of_along (by decide)
  have hfate := hall 1000000000 subscribeLate s hs (by decide) (by decide) (by decide) 0 0 (by
    cases hs
    decide)
  cases hfate with
  | placed msg hmem hmsg =>
    cases hs
    exact absurd hmem List.not_mem_nil
  | subFull h =>
    refine hnever (h.mono fun t a hP => ?_)
    obtain ⟨k, q, hb, rfl, -⟩ := hP
    exact Or.inl ⟨rfl, by simp [hb]⟩
  | broadcastFull h =>
    refine hnever (h.mono fun t a hP => ?_)
    obtain ⟨k, ncduReady, -, rfl, -⟩ := hP
    exact Or.inr (Or.inl ⟨ncduReady, by cases ncduReady <;> simp, rfl⟩)
  | clientFull h =>
    refine hnever (h.mono fun t a hP => ?_)
    obtain ⟨msg, todo, -, -, rfl, -⟩ := hP
    exact Or.inr (Or.inr (Or.inl rfl))
  | unregistered h =>
    refine hnever (h.mono fun t a hP => ?_)
    obtain ⟨msg, q, -, -, rfl, -⟩ := hP
    exact Or.inr (Or.inr (Or.inr rfl))
  | onTheWay h =>
    cases hs
    cases h with
    | collected k hb hloop => cases hloop
    | offering k next hb hle hloop => cases hloop
    | subscribed k q hb hq hmem =>
      cases hb
      cases hq
      exact absurd hmem List.not_mem_nil
    | held hmem => exact absurd hmem List.not_mem_nil
    | broadcast msg hmem hmsg => exact absurd hmem List.not_mem_nil
    | sending msg todo hloop hmem hmsg => cases hloop

end QuickVps.Delivery
