import QuickVps.Ws.Hub

/-!
# What the hub places in a client's channel

`Run` handles the broadcast messages one after another, and offers each to the clients that are in
the map when it takes it from the channel.

* `ClientMove` — what a step does to the stage and to the channel of one client.
* `Placed` — what was placed in a channel is an in-order part of the messages handled since some
  point, and every step keeps this (`placed_step`).
* `Alike` — two hubs that are the same but for the content of one client's channel; the same step
  leaves them so (`alike_step`).
-/

namespace QuickVps.Ws

variable {μ : Type}

/-! ## One client -/

/-- What the step `a` does to the stage and to the channel of client `c`. -/
inductive ClientMove (h h' : Hub μ) (a : Action μ) (c : Nat) : Prop
  | quiet (hstage : (h'.client c).stage = (h.client c).stage)
      (hsend : (h'.client c).send = (h.client c).send)
  | newClient (hstage : (h.client c).stage = .absent) (hstage' : (h'.client c).stage = .joining)
      (hsend : (h'.client c).send = (h.client c).send)
  | register (ha : a = .register c) (hloop : h.loop = .waiting) (hloop' : h'.loop = .waiting)
      (hstage : (h.client c).stage = .joining) (hstage' : (h'.client c).stage = .joined)
      (hsend : (h'.client c).send = (h.client c).send)
  | unregister (ha : a = .unregister c) (hloop : h.loop = .waiting)
      (hstage : (h.client c).stage = .joined) (hstage' : (h'.client c).stage = .left)
      (hsend : (h'.client c).send = (h.client c).send)
  | offer (msg : μ) (todo : Finset Nat) (ha : a = .offer c) (hloop : h.loop = .sending msg todo)
      (hmem : c ∈ todo) (hloop' : h'.loop = .sending msg (todo.erase c))
      (hbroadcast : h'.broadcast = h.broadcast)
      (hstage : (h'.client c).stage = (h.client c).stage)
      (hsend : (h'.client c).send = (h.client c).send.offer msg)
  | receive (msg : μ) (q : Chan 64 μ) (hstage : (h'.client c).stage = (h.client c).stage)
      (hq : (h.client c).send.take? = some (msg, q)) (hsend : (h'.client c).send = q)

theorem send_closeSend (h : Hub μ) (c d : Nat) :
    ((h.closeSend c).client d).send = (h.client d).send ∧
      ((h.closeSend c).client d).stage = (h.client d).stage := by
  unfold Hub.closeSend
  split_ifs
  · exact ⟨rfl, rfl⟩
  · by_cases hd : d = c
    · subst hd
      simp
    · simp [client_setClient_of_ne h hd]

theorem client_unregister {h h' : Hub μ} {c : Nat} (hs : h.unregister c = some h') (d : Nat) :
    (h'.client d).send = ((h.setClient c { h.client c with stage := .left }).client d).send ∧
      (h'.client d).stage =
        ((h.setClient c { h.client c with stage := .left }).client d).stage := by
  obtain ⟨-, -, rfl⟩ := unregister_cases hs
  split_ifs
  · exact send_closeSend _ c d
  · exact ⟨rfl, rfl⟩

theorem clientMove_of_step {h h' : Hub μ} {a : Action μ} (c : Nat) (hs : step h a = some h') :
    ClientMove h h' a c := by
  -- A step that sets the record of another client leaves that of `c` alone.
  have hother : ∀ {d : Nat} {client : Client μ}, c ≠ d →
      (h.setClient d client).client c = h.client c := fun hd => client_setClient_of_ne h hd _
  cases a with
  | newClient d =>
    obtain ⟨hstage, rfl⟩ := newClient_cases hs
    by_cases hd : c = d
    · subst hd
      exact .newClient hstage (by simp) (by simp)
    · exact .quiet (by rw [hother hd]) (by rw [hother hd])
  | register d =>
    obtain ⟨hloop, hstage, rfl⟩ := register_cases hs
    by_cases hd : c = d
    · subst hd
      exact .register rfl hloop hloop hstage (by simp) (by simp)
    · exact .quiet (by simp [hother hd]) (by simp [hother hd])
  | unregister d =>
    obtain ⟨hloop, hstage, -⟩ := unregister_cases hs
    obtain ⟨hsend', hstage'⟩ := client_unregister hs c
    by_cases hd : c = d
    · subst hd
      exact .unregister rfl hloop hstage (by simpa using hstage') (by simpa using hsend')
    · exact .quiet (by rw [hstage', hother hd]) (by rw [hsend', hother hd])
  | broadcast msg =>
    cases hs
    exact .quiet rfl rfl
  | handle =>
    obtain ⟨msg, q, -, -, rfl⟩ := handle_cases hs
    exact .quiet rfl rfl
  | offer d =>
    obtain ⟨msg, todo, hloop, hmem, ⟨-, rfl⟩ | ⟨-, rfl⟩⟩ := offer_cases hs
    · exact .quiet rfl rfl
    · by_cases hd : c = d
      · subst hd
        exact .offer msg todo rfl hloop hmem rfl rfl (by simp) (by simp)
      · exact .quiet (by simp [hother hd]) (by simp [hother hd])
  | shutdown =>
    obtain ⟨-, rfl⟩ := shutdown_cases hs
    exact .quiet rfl rfl
  | close d =>
    obtain ⟨todo, -, -, rfl⟩ := close_cases hs
    exact .quiet (send_closeSend _ d c).2 (send_closeSend _ d c).1
  | finish =>
    obtain ⟨msg, -, rfl⟩ | ⟨-, rfl⟩ := finish_cases hs
    · exact .quiet rfl rfl
    · exact .quiet rfl rfl
  | receive d =>
    obtain ⟨msg, q, hq, rfl⟩ := receive_cases hs
    by_cases hd : c = d
    · subst hd
      exact .receive msg q (by simp) hq (by simp)
    · exact .quiet (by rw [hother hd]) (by rw [hother hd])

/-- What was placed in a client's channel stays placed. -/
theorem sent_prefix_of_step {h h' : Hub μ} {a : Action μ} (c : Nat) (hs : step h a = some h') :
    (h.client c).send.sent <+: (h'.client c).send.sent := by
  have hsame : (h'.client c).send = (h.client c).send →
      (h.client c).send.sent <+: (h'.client c).send.sent := fun hsend => by
    rw [hsend]
  cases clientMove_of_step c hs with
  | quiet hstage hsend => exact hsame hsend
  | newClient hstage hstage' hsend => exact hsame hsend
  | register ha hloop hloop' hstage hstage' hsend => exact hsame hsend
  | unregister ha hloop hstage hstage' hsend => exact hsame hsend
  | offer msg todo ha hloop hmem hloop' hbroadcast hstage hsend =>
    rw [hsend]
    exact Chan.sent_prefix_offer _ _
  | receive msg q hstage hq hsend =>
    rw [hsend, (Chan.take?_cases hq).2.1]

/-- The hub places a message in the channel of an open client whose turn it is. -/
theorem send_of_offer {h h' : Hub μ} {c : Nat} {msg : μ} {todo todo' : Finset Nat}
    (hs : step h (.offer c) = some h') (hloop : h.loop = .sending msg todo)
    (hloop' : h'.loop = .sending msg todo') :
    (h'.client c).send = (h.client c).send.offer msg := by
  obtain ⟨msg', todo'', hl, -, ⟨-, rfl⟩ | ⟨-, rfl⟩⟩ := offer_cases hs
  · cases hloop'
  · rw [hloop] at hl
    cases hl
    simp

/-! ## What was placed in one channel -/

/-- The messages that `Run` has taken from the broadcast channel. -/
def Hub.handled (h : Hub μ) : List μ := h.broadcast.received

/-- Those among them that `Run` need not offer to `c` any more. -/
def Hub.settled (h : Hub μ) (c : Nat) : List μ :=
  match h.loop with
  | .sending _ todo => if c ∈ todo then h.handled.dropLast else h.handled
  | _ => h.handled

/-- The message `Run` works on is the last one it has taken. -/
def Current (h : Hub μ) : Prop :=
  ∀ msg todo, h.loop = .sending msg todo → ∃ before, h.handled = before ++ [msg]

/-- What was placed in the channel of `c` is an in-order part of the messages that came after the
first `n`. -/
structure Placed (n : Nat) (c : Nat) (h : Hub μ) : Prop where
  le : n ≤ (h.settled c).length
  sent : (h.client c).send.sent.Sublist ((h.settled c).drop n)

theorem settled_prefix_handled (h : Hub μ) (c : Nat) : h.settled c <+: h.handled := by
  unfold Hub.settled
  split
  · split_ifs
    · exact List.dropLast_prefix _
    · exact List.prefix_refl _
  · exact List.prefix_refl _

/-- What the step `a` does to the loop and to the messages handled. -/
inductive RunMove (h h' : Hub μ) (a : Action μ) : Prop
  | quiet (hloop : h'.loop = h.loop) (hhandled : h'.handled = h.handled)
  | handle (msg : μ) (q : Chan 64 μ) (ha : a = .handle) (hloop : h.loop = .waiting)
      (hloop' : h'.loop = .sending msg h.clients) (hq : h.broadcast.take? = some (msg, q))
      (hbroadcast : h'.broadcast = q) (hhandled : h'.handled = h.handled ++ [msg])
  | offer (c : Nat) (msg : μ) (todo : Finset Nat) (ha : a = .offer c)
      (hloop : h.loop = .sending msg todo) (hmem : c ∈ todo)
      (hloop' : h'.loop = .sending msg (todo.erase c)) (hhandled : h'.handled = h.handled)
  | rest (hloop : (∀ msg todo, h.loop ≠ .sending msg todo) ∨ (∃ msg, h.loop = .sending msg ∅) ∨
        h'.loop = .panicked)
      (hloop' : ∀ msg todo, h'.loop ≠ .sending msg todo) (hhandled : h'.handled = h.handled)

theorem broadcast_closeSend (h : Hub μ) (c : Nat) : (h.closeSend c).broadcast = h.broadcast := by
  unfold Hub.closeSend
  split_ifs <;> rfl

theorem loop_closeSend (h : Hub μ) (c : Nat) :
    (h.closeSend c).loop = h.loop ∨ (h.closeSend c).loop = .panicked := by
  unfold Hub.closeSend
  split_ifs
  · exact Or.inr rfl
  · exact Or.inl rfl

theorem run_unregister {h h' : Hub μ} {c : Nat} (hs : h.unregister c = some h') :
    (h'.loop = .waiting ∨ h'.loop = .panicked) ∧ h'.broadcast = h.broadcast := by
  obtain ⟨hloop, -, rfl⟩ := unregister_cases hs
  split_ifs
  · exact ⟨(loop_closeSend _ c).imp_left fun hl => hl.trans hloop, broadcast_closeSend _ c⟩
  · exact ⟨Or.inl hloop, rfl⟩

theorem runMove_of_step {h h' : Hub μ} {a : Action μ} (hs : step h a = some h') :
    RunMove h h' a := by
  cases a with
  | newClient c =>
    obtain ⟨-, rfl⟩ := newClient_cases hs
    exact .quiet rfl rfl
  | register c =>
    obtain ⟨-, -, rfl⟩ := register_cases hs
    exact .quiet rfl rfl
  | unregister c =>
    obtain ⟨hloop, -, -⟩ := unregister_cases hs
    obtain ⟨hloop', hbroadcast⟩ := run_unregister hs
    refine .rest (Or.inl (by simp [hloop])) (fun msg todo => ?_) (by
      rw [Hub.handled, hbroadcast]
      rfl)
    rcases hloop' with hl | hl <;> simp [hl]
  | broadcast msg =>
    cases hs
    exact .quiet rfl (Chan.received_offer _ _)
  | handle =>
    obtain ⟨msg, q, hloop, hq, rfl⟩ := handle_cases hs
    exact .handle msg q rfl hloop rfl hq rfl (Chan.received_of_take? hq)
  | offer c =>
    obtain ⟨msg, todo, hloop, hmem, ⟨-, rfl⟩ | ⟨-, rfl⟩⟩ := offer_cases hs
    · exact .rest (Or.inr (Or.inr rfl)) (by simp) rfl
    · exact .offer c msg todo rfl hloop hmem rfl rfl
  | shutdown =>
    obtain ⟨hloop, rfl⟩ := shutdown_cases hs
    exact .rest (Or.inl (by simp [hloop])) (by simp) rfl
  | close c =>
    obtain ⟨todo, hloop, -, rfl⟩ := close_cases hs
    refine .rest (Or.inl (by simp [hloop])) (fun msg todo' => ?_) ?_
    · rcases loop_closeSend { h with loop := .closing (todo.erase c) } c with hl | hl
      · rw [hl]; simp
      · rw [hl]; simp
    · rw [Hub.handled, broadcast_closeSend]
      rfl
  | finish =>
    obtain ⟨msg, hloop, rfl⟩ | ⟨hloop, rfl⟩ := finish_cases hs
    · exact .rest (Or.inr (Or.inl ⟨msg, hloop⟩)) (by simp) rfl
    · exact .rest (Or.inl (by simp [hloop])) (by simp) rfl
  | receive c =>
    obtain ⟨msg, q, -, rfl⟩ := receive_cases hs
    exact .quiet rfl rfl

/-- Only `Broadcast` puts messages into the broadcast channel. -/
theorem sent_broadcast_of_step {h h' : Hub μ} {a : Action μ} (hs : step h a = some h')
    (ha : ∀ msg, a ≠ .broadcast msg) : h'.broadcast.sent = h.broadcast.sent := by
  cases a with
  | newClient c =>
    obtain ⟨-, rfl⟩ := newClient_cases hs
    rfl
  | register c =>
    obtain ⟨-, -, rfl⟩ := register_cases hs
    rfl
  | unregister c => rw [(run_unregister hs).2]
  | broadcast msg => exact absurd rfl (ha msg)
  | handle =>
    obtain ⟨msg, q, -, hq, rfl⟩ := handle_cases hs
    exact (Chan.take?_cases hq).2.1
  | offer c =>
    obtain ⟨msg, todo, -, -, ⟨-, rfl⟩ | ⟨-, rfl⟩⟩ := offer_cases hs <;> rfl
  | shutdown =>
    obtain ⟨-, rfl⟩ := shutdown_cases hs
    rfl
  | close c =>
    obtain ⟨todo, -, -, rfl⟩ := close_cases hs
    rw [broadcast_closeSend]
  | finish =>
    obtain ⟨msg, -, rfl⟩ | ⟨-, rfl⟩ := finish_cases hs <;> rfl
  | receive c =>
    obtain ⟨msg, q, -, rfl⟩ := receive_cases hs
    rfl

/-- Only `Run` takes messages from the broadcast channel. -/
theorem buffer_prefix_of_step {h h' : Hub μ} {a : Action μ} (hs : step h a = some h')
    (ha : a ≠ .handle) : h.broadcast.buffer <+: h'.broadcast.buffer := by
  have hsame : h'.broadcast = h.broadcast → h.broadcast.buffer <+: h'.broadcast.buffer :=
    fun hb => by
      rw [hb]
  cases a with
  | newClient c =>
    obtain ⟨-, rfl⟩ := newClient_cases hs
    exact hsame rfl
  | register c =>
    obtain ⟨-, -, rfl⟩ := register_cases hs
    exact hsame rfl
  | unregister c => exact hsame (run_unregister hs).2
  | broadcast msg =>
    cases hs
    exact Chan.buffer_prefix_offer _ _
  | handle => exact absurd rfl ha
  | offer c =>
    obtain ⟨msg, todo, -, -, ⟨-, rfl⟩ | ⟨-, rfl⟩⟩ := offer_cases hs <;> exact hsame rfl
  | shutdown =>
    obtain ⟨-, rfl⟩ := shutdown_cases hs
    exact hsame rfl
  | close c =>
    obtain ⟨todo, -, -, rfl⟩ := close_cases hs
    exact hsame (broadcast_closeSend _ _)
  | finish =>
    obtain ⟨msg, -, rfl⟩ | ⟨-, rfl⟩ := finish_cases hs <;> exact hsame rfl
  | receive c =>
    obtain ⟨msg, q, -, rfl⟩ := receive_cases hs
    exact hsame rfl

theorem current_step {h h' : Hub μ} {a : Action μ} (hc : Current h) (hs : step h a = some h') :
    Current h' := by
  intro msg todo hl
  cases runMove_of_step hs with
  | quiet hloop hhandled =>
    rw [hhandled]
    exact hc msg todo (hloop ▸ hl)
  | handle msg' q ha hloop hloop' hq hbroadcast hhandled =>
    rw [hloop'] at hl
    cases hl
    exact ⟨h.handled, hhandled⟩
  | offer c msg' todo' ha hloop hmem hloop' hhandled =>
    rw [hloop'] at hl
    cases hl
    rw [hhandled]
    exact hc msg todo' hloop
  | rest hloop hloop' hhandled => exact absurd hl (hloop' msg todo)

/-- `Run` only gets on with the messages. -/
theorem settled_step {h h' : Hub μ} {a : Action μ} (hs : step h a = some h') (c : Nat) :
    h.settled c <+: h'.settled c := by
  cases runMove_of_step hs with
  | quiet hloop hhandled =>
    unfold Hub.settled
    rw [hloop, hhandled]
  | handle msg q ha hloop hloop' hq hbroadcast hhandled =>
    simp only [Hub.settled, hloop, hloop', hhandled]
    split_ifs
    · rw [List.dropLast_concat]
    · exact List.prefix_append _ _
  | offer d msg todo ha hloop hmem hloop' hhandled =>
    simp only [Hub.settled, hloop, hloop', hhandled, Finset.mem_erase]
    split_ifs with h₁ h₂ h₂
    · exact List.prefix_refl _
    · exact List.dropLast_prefix _
    · exact absurd h₂.2 h₁
    · exact List.prefix_refl _
  | rest hloop hloop' hhandled =>
    have hall : h'.settled c = h'.handled := by
      unfold Hub.settled
      split
      · next msg todo hl => exact absurd hl (hloop' msg todo)
      · rfl
    rw [hall, hhandled]
    exact settled_prefix_handled h c

theorem placed_step {n : Nat} {c : Nat} {h h' : Hub μ} {a : Action μ} (hc : Current h)
    (hp : Placed n c h) (hs : step h a = some h') : Placed n c h' := by
  have hgrown := settled_step hs c
  have hsame : (h'.client c).send.sent = (h.client c).send.sent → Placed n c h' := fun hsent =>
    ⟨hp.le.trans hgrown.length_le, by
      rw [hsent]
      exact hp.sent.trans (hgrown.sublist.drop n)⟩
  cases clientMove_of_step c hs with
  | quiet hstage hsend => exact hsame (by rw [hsend])
  | newClient hstage hstage' hsend => exact hsame (by rw [hsend])
  | register ha hloop hloop' hstage hstage' hsend => exact hsame (by rw [hsend])
  | unregister ha hloop hstage hstage' hsend => exact hsame (by rw [hsend])
  | receive msg q hstage hq hsend => exact hsame (by rw [hsend, (Chan.take?_cases hq).2.1])
  | offer msg todo ha hloop hmem hloop' hbroadcast hstage hsend =>
    obtain ⟨before, hbefore⟩ := hc msg todo hloop
    have hsettled : h.settled c = before := by
      simp [Hub.settled, hloop, hmem, hbefore]
    have hsettled' : h'.settled c = before ++ [msg] := by
      simp [Hub.settled, hloop', Hub.handled, hbroadcast, ← hbefore]
    refine ⟨hp.le.trans hgrown.length_le, ?_⟩
    have hle := hp.le
    have hsent := hp.sent
    rw [hsettled] at hle hsent
    rw [hsend, hsettled', List.drop_append_of_le_length hle]
    exact Chan.sent_offer_sublist hsent msg

/-! ## Before a client joins and after it has left -/

/-- Nothing was placed in the channel of a client that has not joined. -/
def Fresh (h : Hub μ) : Prop :=
  ∀ c, (h.client c).stage = .absent ∨ (h.client c).stage = .joining → (h.client c).send.sent = []

/-- A message is offered only to clients that have joined. -/
theorem joined_of_offer {h : Hub μ} (hh : Sound h) {msg : μ} {todo : Finset Nat} {c : Nat}
    (hloop : h.loop = .sending msg todo) (hmem : c ∈ todo) : (h.client c).stage = .joined :=
  (hh.members c).1 ((hh.sending hloop).2 hmem)

theorem fresh_step {h h' : Hub μ} {a : Action μ} (hh : Sound h) (hf : Fresh h)
    (hs : step h a = some h') : Fresh h' := by
  intro c hc
  cases clientMove_of_step c hs with
  | quiet hstage hsend =>
    rw [hsend]
    exact hf c (hstage ▸ hc)
  | newClient hstage hstage' hsend =>
    rw [hsend]
    exact hf c (Or.inl hstage)
  | register ha hloop hloop' hstage hstage' hsend => simp [hstage'] at hc
  | unregister ha hloop hstage hstage' hsend => simp [hstage'] at hc
  | offer msg todo ha hloop hmem hloop' hbroadcast hstage hsend =>
    simp [hstage, joined_of_offer hh hloop hmem] at hc
  | receive msg q hstage hq hsend =>
    rw [hsend, (Chan.take?_cases hq).2.1]
    exact hf c (hstage ▸ hc)

/-- A client gets no message that was handled before it joined. -/
theorem placed_register {h h' : Hub μ} {c : Nat} (hf : Fresh h)
    (hs : step h (.register c) = some h') : Placed h.handled.length c h' := by
  obtain ⟨hloop, hstage, rfl⟩ := register_cases hs
  refine ⟨?_, ?_⟩
  · simp [Hub.settled, hloop, Hub.handled]
  · simp [hf c (Or.inr hstage)]

/-- Only a registration lets a client join. -/
theorem unjoined_step {h h' : Hub μ} {a : Action μ} {c : Nat} (ha : a ≠ .register c)
    (hc : (h.client c).stage = .absent ∨ (h.client c).stage = .joining)
    (hs : step h a = some h') :
    (h'.client c).stage = .absent ∨ (h'.client c).stage = .joining := by
  cases clientMove_of_step c hs with
  | quiet hstage hsend => rwa [hstage]
  | newClient hstage hstage' hsend => exact Or.inr hstage'
  | register ha' hloop hloop' hstage hstage' hsend => exact absurd ha' ha
  | unregister ha' hloop hstage hstage' hsend => simp [hstage] at hc
  | offer msg todo ha' hloop hmem hloop' hbroadcast hstage hsend => rwa [hstage]
  | receive msg q hstage hq hsend => rwa [hstage]

/-- Nothing is placed in the channel of a client that has left. -/
theorem left_step {h h' : Hub μ} {a : Action μ} (hh : Sound h) {c : Nat}
    (hleft : (h.client c).stage = .left) (hs : step h a = some h') :
    (h'.client c).stage = .left ∧ (h'.client c).send.sent = (h.client c).send.sent := by
  cases clientMove_of_step c hs with
  | quiet hstage hsend => exact ⟨hstage.trans hleft, by rw [hsend]⟩
  | newClient hstage hstage' hsend =>
    rw [hstage] at hleft
    cases hleft
  | register ha hloop hloop' hstage hstage' hsend =>
    rw [hstage] at hleft
    cases hleft
  | unregister ha hloop hstage hstage' hsend =>
    rw [hstage] at hleft
    cases hleft
  | offer msg todo ha hloop hmem hloop' hbroadcast hstage hsend =>
    rw [joined_of_offer hh hloop hmem] at hleft
    cases hleft
  | receive msg q hstage hq hsend =>
    exact ⟨hstage.trans hleft, by rw [hsend, (Chan.take?_cases hq).2.1]⟩

/-! ## Independence of the clients -/

/-- The two hubs are the same, except for what is in the channel of `d`. -/
structure Alike (d : Nat) (h k : Hub μ) : Prop where
  loop : h.loop = k.loop
  clients : h.clients = k.clients
  broadcast : h.broadcast = k.broadcast
  others : ∀ c, c ≠ d → h.client c = k.client c
  stage : ∀ c, (h.client c).stage = (k.client c).stage
  closed : ∀ c, (h.client c).closed = (k.client c).closed

theorem Alike.refl (d : Nat) (h : Hub μ) : Alike d h h :=
  ⟨rfl, rfl, rfl, fun _ _ => rfl, fun _ => rfl, fun _ => rfl⟩

theorem Alike.symm {d : Nat} {h k : Hub μ} (ha : Alike d h k) : Alike d k h :=
  ⟨ha.loop.symm, ha.clients.symm, ha.broadcast.symm, fun c hc => (ha.others c hc).symm,
    fun c => (ha.stage c).symm, fun c => (ha.closed c).symm⟩

theorem Alike.trans {d : Nat} {h k l : Hub μ} (ha : Alike d h k) (hb : Alike d k l) :
    Alike d h l :=
  ⟨ha.loop.trans hb.loop, ha.clients.trans hb.clients, ha.broadcast.trans hb.broadcast,
    fun c hc => (ha.others c hc).trans (hb.others c hc),
    fun c => (ha.stage c).trans (hb.stage c), fun c => (ha.closed c).trans (hb.closed c)⟩

/-- Records that are alike may be set in hubs that are alike. -/
theorem Alike.setClient {d : Nat} {h k : Hub μ} (ha : Alike d h k) {c : Nat}
    {client client' : Client μ} (hother : c ≠ d → client = client')
    (hstage : client.stage = client'.stage) (hclosed : client.closed = client'.closed) :
    Alike d (h.setClient c client) (k.setClient c client') := by
  refine ⟨ha.loop, ha.clients, ha.broadcast, fun e he => ?_, fun e => ?_, fun e => ?_⟩
  · by_cases hec : e = c
    · subst hec
      simpa using hother he
    · simpa only [client_setClient_of_ne _ hec] using ha.others e he
  · by_cases hec : e = c
    · subst hec
      simpa using hstage
    · simpa only [client_setClient_of_ne _ hec] using ha.stage e
  · by_cases hec : e = c
    · subst hec
      simpa using hclosed
    · simpa only [client_setClient_of_ne _ hec] using ha.closed e

theorem Alike.closeSend {d : Nat} {h k : Hub μ} (ha : Alike d h k) (c : Nat) :
    Alike d (h.closeSend c) (k.closeSend c) := by
  unfold Hub.closeSend
  rw [ha.closed c]
  split_ifs
  · exact ⟨rfl, ha.clients, ha.broadcast, ha.others, ha.stage, ha.closed⟩
  · exact ha.setClient (fun hc => by rw [ha.others c hc]) (ha.stage c) rfl

/-- Receiving from the channel of `d` changes only its content. -/
theorem alike_receive {d : Nat} {h h' : Hub μ} (hs : step h (.receive d) = some h') :
    Alike d h h' := by
  obtain ⟨msg, q, -, rfl⟩ := receive_cases hs
  have hstage : ∀ c, ((h.setClient d { h.client d with send := q }).client c).stage =
      (h.client c).stage := stage_setClient rfl
  have hclosed : ∀ c, ((h.setClient d { h.client d with send := q }).client c).closed =
      (h.client c).closed := closed_setClient rfl
  exact ⟨rfl, rfl, rfl, fun c hc => (client_setClient_of_ne h hc _).symm, fun c => (hstage c).symm,
    fun c => (hclosed c).symm⟩

theorem alike_of_steps {d : Nat} {h k h' k' : Hub μ} {a : Action μ} (ha : Alike d h k)
    (hne : a ≠ .receive d) (hs : step h a = some h') (ks : step k a = some k') :
    Alike d h' k' := by
  cases a with
  | newClient c =>
    obtain ⟨-, rfl⟩ := newClient_cases hs
    obtain ⟨-, rfl⟩ := newClient_cases ks
    exact ha.setClient (fun hc => by rw [ha.others c hc]) rfl (ha.closed c)
  | register c =>
    obtain ⟨-, -, rfl⟩ := register_cases hs
    obtain ⟨-, -, rfl⟩ := register_cases ks
    have hset : Alike d (h.setClient c { h.client c with stage := .joined })
        (k.setClient c { k.client c with stage := .joined }) :=
      ha.setClient (fun hc => by rw [ha.others c hc]) rfl (ha.closed c)
    exact { hset with clients := by rw [ha.clients] }
  | unregister c =>
    obtain ⟨-, -, rfl⟩ := unregister_cases hs
    obtain ⟨-, -, rfl⟩ := unregister_cases ks
    have hset : Alike d (h.setClient c { h.client c with stage := .left })
        (k.setClient c { k.client c with stage := .left }) :=
      ha.setClient (fun hc => by rw [ha.others c hc]) rfl (ha.closed c)
    rw [ha.clients]
    split_ifs
    · have herase : Alike d
          { h.setClient c { h.client c with stage := .left } with clients := k.clients.erase c }
          { k.setClient c { k.client c with stage := .left } with clients := k.clients.erase c } :=
        { hset with clients := rfl }
      exact herase.closeSend c
    · exact hset
  | broadcast msg =>
    cases hs
    cases ks
    exact { ha with broadcast := by simp only [Hub.offerBroadcast, ha.broadcast] }
  | handle =>
    obtain ⟨msg, q, -, hq, rfl⟩ := handle_cases hs
    obtain ⟨msg', q', -, hq', rfl⟩ := handle_cases ks
    rw [ha.broadcast, hq'] at hq
    cases hq
    exact { ha with loop := by rw [ha.clients], broadcast := rfl }
  | offer c =>
    obtain ⟨msg, todo, hloop, -, hcase⟩ := offer_cases hs
    obtain ⟨msg', todo', kloop, -, kcase⟩ := offer_cases ks
    rw [ha.loop, kloop] at hloop
    cases hloop
    rw [ha.closed c] at hcase
    rcases hcase with ⟨hclosed, rfl⟩ | ⟨hclosed, rfl⟩ <;>
      rcases kcase with ⟨kclosed, rfl⟩ | ⟨kclosed, rfl⟩
    · exact { ha with loop := rfl }
    · rw [hclosed] at kclosed
      cases kclosed
    · rw [hclosed] at kclosed
      cases kclosed
    · have hset : Alike d
          (h.setClient c { h.client c with send := (h.client c).send.offer msg })
          (k.setClient c { k.client c with send := (k.client c).send.offer msg }) :=
        ha.setClient (fun hc => by rw [ha.others c hc]) (ha.stage c) (ha.closed c)
      exact { hset with loop := rfl }
  | shutdown =>
    obtain ⟨-, rfl⟩ := shutdown_cases hs
    obtain ⟨-, rfl⟩ := shutdown_cases ks
    exact { ha with loop := by rw [ha.clients] }
  | close c =>
    obtain ⟨todo, hloop, -, rfl⟩ := close_cases hs
    obtain ⟨todo', kloop, -, rfl⟩ := close_cases ks
    rw [ha.loop, kloop] at hloop
    cases hloop
    have hnext : Alike d { h with loop := .closing (todo.erase c) }
        { k with loop := .closing (todo.erase c) } := { ha with loop := rfl }
    exact hnext.closeSend c
  | finish =>
    rcases finish_cases hs with ⟨msg, hloop, rfl⟩ | ⟨hloop, rfl⟩ <;>
      rcases finish_cases ks with ⟨msg', kloop, rfl⟩ | ⟨kloop, rfl⟩
    · exact { ha with loop := rfl }
    · rw [ha.loop, kloop] at hloop
      cases hloop
    · rw [ha.loop, kloop] at hloop
      cases hloop
    · exact { ha with loop := rfl }
  | receive c =>
    have hc : c ≠ d := fun hc => hne (by rw [hc])
    obtain ⟨msg, q, hq, rfl⟩ := receive_cases hs
    obtain ⟨msg', q', hq', rfl⟩ := receive_cases ks
    rw [ha.others c hc, hq'] at hq
    cases hq
    have hset : Alike d (h.setClient c { h.client c with send := q })
        (k.setClient c { k.client c with send := q }) :=
      ha.setClient (fun _ => by rw [ha.others c hc]) (ha.stage c) (ha.closed c)
    exact hset

/-- A step of one hub is a step of the other. -/
theorem Alike.enabled {d : Nat} {h k : Hub μ} {a : Action μ} (ha : Alike d h k)
    (hne : a ≠ .receive d) : (step h a).isSome = (step k a).isSome := by
  cases a with
  | newClient c =>
    simp only [step, Hub.newClient, ha.stage c]
    split_ifs <;> rfl
  | register c =>
    simp only [step, Hub.register, ha.loop, ha.stage c]
    split
    · split_ifs <;> rfl
    · rfl
  | unregister c =>
    simp only [step, Hub.unregister, ha.loop, ha.stage c, clients_setClient]
    split
    · by_cases hmem : c ∈ k.clients
      · simp only [ha.clients, hmem, if_true]
        split_ifs <;> rfl
      · simp only [ha.clients, hmem, if_false]
        split_ifs <;> rfl
    · rfl
  | broadcast msg => rfl
  | handle =>
    simp only [step, Hub.handle, ha.loop, ha.broadcast]
    split
    · simp only [Option.isSome_map]
    · rfl
  | offer c =>
    simp only [step, Hub.offer, ha.loop, ha.closed c]
    split
    · split_ifs <;> rfl
    · rfl
  | shutdown =>
    simp only [step, Hub.shutdown, ha.loop]
    split <;> rfl
  | close c =>
    simp only [step, Hub.close, ha.loop]
    split
    · split_ifs <;> rfl
    · rfl
  | finish =>
    simp only [step, Hub.finish, ha.loop]
    split
    · split_ifs <;> rfl
    · split_ifs <;> rfl
    · rfl
  | receive c =>
    have hc : c ≠ d := fun hc => hne (by rw [hc])
    simp only [step, Hub.receive, ha.others c hc, Option.isSome_map]

/-- **No step depends on the content of a client's channel**, but for the receives of that
client. -/
theorem alike_step {d : Nat} {h k h' : Hub μ} {a : Action μ} (ha : Alike d h k)
    (hne : a ≠ .receive d) (hs : step h a = some h') :
    ∃ k', step k a = some k' ∧ Alike d h' k' := by
  have hk : (step k a).isSome = true := by rw [← ha.enabled hne, hs, Option.isSome_some]
  obtain ⟨k', ks⟩ := Option.isSome_iff_exists.1 hk
  exact ⟨k', ks, alike_of_steps ha hne hs ks⟩

end QuickVps.Ws
