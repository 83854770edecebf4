import QuickVps.Lib.Chan
import QuickVps.Lib.Lts
import Mathlib.Data.Finset.Basic
import Mathlib.Logic.Function.Basic

/-!
# The hub of the WebSocket clients

`Hub.Run` is one goroutine that owns the map of clients. It takes registrations, unregistrations
and broadcast messages from channels, one at a time; a message it offers to every client of the
map, in any order, without waiting for any. The map and the closing of the clients' channels are
its own business; everyone else only sends to its channels or receives from a client's.

The state is the hub with where `Run` stands, and the clients. A send on a closed channel and a
second close of a channel are panics.

* `step` — one step of `Run`, of a client's goroutines, or a call of `Broadcast`.
* `safe_of_run` — no run panics, and a client that has left has a closed channel and is not in the
  map.
-/

namespace QuickVps.Ws

variable {μ : Type}

/-! ## State -/

/-- `NewClient` waits until its registration is received; the client leaves when the deferred
unregistration of its `readPump` is received. -/
inductive Stage where
  | absent
  | joining
  | joined
  | left
  deriving DecidableEq, Repr

structure Client (μ : Type) where
  stage : Stage
  send : Chan 64 μ
  closed : Bool

/-- Where `Run` stands: in its select, in the loop that offers a message to the clients in `todo`,
in the loop that closes the channels of those in `todo`, returned, or panicked. -/
inductive Loop (μ : Type) where
  | waiting
  | sending (msg : μ) (todo : Finset Nat)
  | closing (todo : Finset Nat)
  | returned
  | panicked

/-- `client c` is the client of the `c`-th connection, and `clients` is the hub's map. -/
structure Hub (μ : Type) where
  loop : Loop μ
  clients : Finset Nat
  broadcast : Chan 64 μ
  client : Nat → Client μ

def newHub : Hub μ where
  loop := .waiting
  clients := ∅
  broadcast := Chan.empty
  client := fun _ => { stage := .absent, send := Chan.empty, closed := false }

/-! ## Steps -/

namespace Hub

def setClient (h : Hub μ) (c : Nat) (client : Client μ) : Hub μ :=
  { h with client := Function.update h.client c client }

/-- `close(c.send)`. -/
def closeSend (h : Hub μ) (c : Nat) : Hub μ :=
  if (h.client c).closed then { h with loop := .panicked }
  else h.setClient c { h.client c with closed := true }

/-- `NewClient` up to its registration. -/
def newClient (h : Hub μ) (c : Nat) : Option (Hub μ) :=
  if (h.client c).stage = .absent then
    some (h.setClient c { h.client c with stage := .joining })
  else none

/-- `Run` receives from `register`. -/
def register (h : Hub μ) (c : Nat) : Option (Hub μ) :=
  match h.loop with
  | .waiting =>
    if (h.client c).stage = .joining then
      some { h.setClient c { h.client c with stage := .joined } with
        clients := insert c h.clients }
    else none
  | _ => none

/-- `Run` receives from `unregister`. -/
def unregister (h : Hub μ) (c : Nat) : Option (Hub μ) :=
  match h.loop with
  | .waiting =>
    if (h.client c).stage = .joined then
      let h := h.setClient c { h.client c with stage := .left }
      if c ∈ h.clients then some ({ h with clients := h.clients.erase c }.closeSend c)
      else some h
    else none
  | _ => none

/-- `Broadcast`. -/
def offerBroadcast (h : Hub μ) (msg : μ) : Hub μ :=
  { h with broadcast := h.broadcast.offer msg }

/-- `Run` receives from `broadcast`. -/
def handle (h : Hub μ) : Option (Hub μ) :=
  match h.loop with
  | .waiting =>
    h.broadcast.take?.map fun r =>
      { h with loop := .sending r.1 h.clients, broadcast := r.2 }
  | _ => none

/-- One round of the loop over the clients, for a message. -/
def offer (h : Hub μ) (c : Nat) : Option (Hub μ) :=
  match h.loop with
  | .sending msg todo =>
    if c ∈ todo then
      if (h.client c).closed then some { h with loop := .panicked }
      else
        some { h.setClient c { h.client c with send := (h.client c).send.offer msg } with
          loop := .sending msg (todo.erase c) }
    else none
  | _ => none

/-- The branch of `ctx.Done`. -/
def shutdown (h : Hub μ) : Option (Hub μ) :=
  match h.loop with
  | .waiting => some { h with loop := .closing h.clients }
  | _ => none

/-- One round of the loop over the clients, at shutdown. -/
def close (h : Hub μ) (c : Nat) : Option (Hub μ) :=
  match h.loop with
  | .closing todo =>
    if c ∈ todo then some ({ h with loop := .closing (todo.erase c) }.closeSend c) else none
  | _ => none

/-- The end of either loop. -/
def finish (h : Hub μ) : Option (Hub μ) :=
  match h.loop with
  | .sending _ todo => if todo = ∅ then some { h with loop := .waiting } else none
  | .closing todo => if todo = ∅ then some { h with loop := .returned } else none
  | _ => none

/-- The `writePump` of `c` receives. -/
def receive (h : Hub μ) (c : Nat) : Option (Hub μ) :=
  (h.client c).send.take?.map fun r => h.setClient c { h.client c with send := r.2 }

end Hub

inductive Action (μ : Type) where
  | newClient (c : Nat)
  | register (c : Nat)
  | unregister (c : Nat)
  | broadcast (msg : μ)
  | handle
  | offer (c : Nat)
  | shutdown
  | close (c : Nat)
  | finish
  | receive (c : Nat)
  deriving DecidableEq

def step (h : Hub μ) : Action μ → Option (Hub μ)
  | .newClient c => h.newClient c
  | .register c => h.register c
  | .unregister c => h.unregister c
  | .broadcast msg => some (h.offerBroadcast msg)
  | .handle => h.handle
  | .offer c => h.offer c
  | .shutdown => h.shutdown
  | .close c => h.close c
  | .finish => h.finish
  | .receive c => h.receive c

/-! ## What a step can do -/

@[simp] theorem client_setClient_self (h : Hub μ) (c : Nat) (client : Client μ) :
    (h.setClient c client).client c = client := by
  simp [Hub.setClient]

theorem client_setClient_of_ne (h : Hub μ) {c d : Nat} (hd : d ≠ c) (client : Client μ) :
    (h.setClient c client).client d = h.client d := by
  simp [Hub.setClient, hd]

@[simp] theorem loop_setClient (h : Hub μ) (c : Nat) (client : Client μ) :
    (h.setClient c client).loop = h.loop := rfl

@[simp] theorem clients_setClient (h : Hub μ) (c : Nat) (client : Client μ) :
    (h.setClient c client).clients = h.clients := rfl

@[simp] theorem broadcast_setClient (h : Hub μ) (c : Nat) (client : Client μ) :
    (h.setClient c client).broadcast = h.broadcast := rfl

theorem newClient_cases {h h' : Hub μ} {c : Nat} (hs : h.newClient c = some h') :
    (h.client c).stage = .absent ∧
      h' = h.setClient c { h.client c with stage := .joining } := by
  unfold Hub.newClient at hs
  split_ifs at hs with hstage
  exact ⟨hstage, by simpa using hs.symm⟩

theorem register_cases {h h' : Hub μ} {c : Nat} (hs : h.register c = some h') :
    h.loop = .waiting ∧ (h.client c).stage = .joining ∧
      h' = { h.setClient c { h.client c with stage := .joined } with
        clients := insert c h.clients } := by
  unfold Hub.register at hs
  split at hs
  · next hloop =>
    split_ifs at hs with hstage
    exact ⟨hloop, hstage, by simpa using hs.symm⟩
  · cases hs

theorem unregister_cases {h h' : Hub μ} {c : Nat} (hs : h.unregister c = some h') :
    h.loop = .waiting ∧ (h.client c).stage = .joined ∧
      h' = if c ∈ h.clients then
          { h.setClient c { h.client c with stage := .left } with
            clients := h.clients.erase c }.closeSend c
        else h.setClient c { h.client c with stage := .left } := by
  unfold Hub.unregister at hs
  split at hs
  · next hloop =>
    split_ifs at hs with hstage
    refine ⟨hloop, hstage, ?_⟩
    by_cases hmem : c ∈ h.clients
    · simpa [hmem] using hs.symm
    · simpa [hmem] using hs.symm
  · cases hs

theorem handle_cases {h h' : Hub μ} (hs : h.handle = some h') :
    ∃ msg q, h.loop = .waiting ∧ h.broadcast.take? = some (msg, q) ∧
      h' = { h with loop := .sending msg h.clients, broadcast := q } := by
  unfold Hub.handle at hs
  split at hs
  · next hloop =>
    obtain ⟨⟨msg, q⟩, hq, rfl⟩ := Option.map_eq_some_iff.1 hs
    exact ⟨msg, q, hloop, hq, rfl⟩
  · cases hs

theorem offer_cases {h h' : Hub μ} {c : Nat} (hs : h.offer c = some h') :
    ∃ msg todo, h.loop = .sending msg todo ∧ c ∈ todo ∧
      (((h.client c).closed = true ∧ h' = { h with loop := .panicked }) ∨
        ((h.client c).closed = false ∧
          h' = { h.setClient c { h.client c with send := (h.client c).send.offer msg } with
            loop := .sending msg (todo.erase c) })) := by
  unfold Hub.offer at hs
  split at hs
  · next msg todo hloop =>
    split_ifs at hs with hmem hclosed
    · exact ⟨msg, todo, hloop, hmem, Or.inl ⟨hclosed, by simpa using hs.symm⟩⟩
    · exact ⟨msg, todo, hloop, hmem, Or.inr ⟨by simpa using hclosed, by simpa using hs.symm⟩⟩
  · cases hs

theorem shutdown_cases {h h' : Hub μ} (hs : h.shutdown = some h') :
    h.loop = .waiting ∧ h' = { h with loop := .closing h.clients } := by
  unfold Hub.shutdown at hs
  split at hs
  · next hloop => exact ⟨hloop, by simpa using hs.symm⟩
  · cases hs

theorem close_cases {h h' : Hub μ} {c : Nat} (hs : h.close c = some h') :
    ∃ todo, h.loop = .closing todo ∧ c ∈ todo ∧
      h' = { h with loop := .closing (todo.erase c) }.closeSend c := by
  unfold Hub.close at hs
  split at hs
  · next todo hloop =>
    split_ifs at hs with hmem
    exact ⟨todo, hloop, hmem, by simpa using hs.symm⟩
  · cases hs

theorem finish_cases {h h' : Hub μ} (hs : h.finish = some h') :
    (∃ msg, h.loop = .sending msg ∅ ∧ h' = { h with loop := .waiting }) ∨
      (h.loop = .closing ∅ ∧ h' = { h with loop := .returned }) := by
  unfold Hub.finish at hs
  split at hs
  · next msg todo hloop =>
    split_ifs at hs with htodo
    exact Or.inl ⟨msg, htodo ▸ hloop, by simpa using hs.symm⟩
  · next todo hloop =>
    split_ifs at hs with htodo
    exact Or.inr ⟨htodo ▸ hloop, by simpa using hs.symm⟩
  · cases hs

theorem receive_cases {h h' : Hub μ} {c : Nat} (hs : h.receive c = some h') :
    ∃ msg q, (h.client c).send.take? = some (msg, q) ∧
      h' = h.setClient c { h.client c with send := q } := by
  unfold Hub.receive at hs
  obtain ⟨⟨msg, q⟩, hq, rfl⟩ := Option.map_eq_some_iff.1 hs
  exact ⟨msg, q, hq, rfl⟩

/-! ## The invariant -/

/-- Only the channels of clients that have left are closed. -/
def OnlyLeft (h : Hub μ) : Prop := ∀ c, (h.client c).closed = true → (h.client c).stage = .left

/-- What holds where `Run` stands. -/
def Standing (h : Hub μ) : Loop μ → Prop
  | .waiting => OnlyLeft h
  | .sending _ todo => OnlyLeft h ∧ todo ⊆ h.clients
  | .closing todo => todo ⊆ h.clients ∧ ∀ c ∈ todo, (h.client c).closed = false
  | .returned => True
  | .panicked => False

/-- The map holds the clients that have joined and not left, and those that have left are closed. -/
structure Sound (h : Hub μ) : Prop where
  members : ∀ c, c ∈ h.clients ↔ (h.client c).stage = .joined
  left : ∀ c, (h.client c).stage = .left → (h.client c).closed = true
  standing : Standing h h.loop

theorem sound_newHub : Sound (newHub : Hub μ) where
  members := by simp [newHub]
  left := by simp [newHub]
  standing := by simp [newHub, Standing, OnlyLeft]

theorem Sound.waiting {h : Hub μ} (hh : Sound h) (hloop : h.loop = .waiting) : OnlyLeft h := by
  simpa only [hloop, Standing] using hh.standing

theorem Sound.sending {h : Hub μ} (hh : Sound h) {msg : μ} {todo : Finset Nat}
    (hloop : h.loop = .sending msg todo) : OnlyLeft h ∧ todo ⊆ h.clients := by
  simpa only [hloop, Standing] using hh.standing

theorem Sound.closing {h : Hub μ} (hh : Sound h) {todo : Finset Nat}
    (hloop : h.loop = .closing todo) :
    todo ⊆ h.clients ∧ ∀ c ∈ todo, (h.client c).closed = false := by
  simpa only [hloop, Standing] using hh.standing

/-- The channel of a client in the map is open while only those that have left are closed. -/
theorem Sound.opened {h : Hub μ} (hh : Sound h) (ho : OnlyLeft h) {c : Nat} (hc : c ∈ h.clients) :
    (h.client c).closed = false := by
  by_contra hclosed
  have hleft := ho c (by simpa using hclosed)
  rw [(hh.members c).1 hc] at hleft
  cases hleft

/-- What holds depends on the map, and on the stages and the closings of the clients. -/
theorem standing_congr {h h' : Hub μ} (hclients : h'.clients = h.clients)
    (hstage : ∀ c, (h'.client c).stage = (h.client c).stage)
    (hclosed : ∀ c, (h'.client c).closed = (h.client c).closed) (l : Loop μ) :
    Standing h' l ↔ Standing h l := by
  cases l <;> simp only [Standing, OnlyLeft, hclients, hstage, hclosed]

/-- A step of `Run` that closes nothing keeps the invariant if it stands well afterwards. -/
theorem Sound.move {h h' : Hub μ} (hh : Sound h) (hclients : h'.clients = h.clients)
    (hstage : ∀ c, (h'.client c).stage = (h.client c).stage)
    (hclosed : ∀ c, (h'.client c).closed = (h.client c).closed)
    (hstanding : Standing h h'.loop) : Sound h' where
  members := fun c => by rw [hclients, hstage]; exact hh.members c
  left := fun c => by rw [hstage, hclosed]; exact hh.left c
  standing := (standing_congr hclients hstage hclosed _).2 hstanding

theorem stage_setClient {h : Hub μ} {c : Nat} {client : Client μ}
    (hstage : client.stage = (h.client c).stage) (d : Nat) :
    ((h.setClient c client).client d).stage = (h.client d).stage := by
  by_cases hd : d = c
  · subst hd
    rw [client_setClient_self, hstage]
  · rw [client_setClient_of_ne h hd]

theorem closed_setClient {h : Hub μ} {c : Nat} {client : Client μ}
    (hclosed : client.closed = (h.client c).closed) (d : Nat) :
    ((h.setClient c client).client d).closed = (h.client d).closed := by
  by_cases hd : d = c
  · subst hd
    rw [client_setClient_self, hclosed]
  · rw [client_setClient_of_ne h hd]

theorem closeSend_of_open {h : Hub μ} {c : Nat} (hopen : (h.client c).closed = false) :
    h.closeSend c = h.setClient c { h.client c with closed := true } := by
  simp [Hub.closeSend, hopen]

/-- A client that has not joined yet moves on: it is not in the map and not closed. -/
theorem sound_newClient {h h' : Hub μ} {c : Nat} (hh : Sound h) (hs : h.newClient c = some h') :
    Sound h' := by
  obtain ⟨hstage, rfl⟩ := newClient_cases hs
  have hclosed : ∀ d, ((h.setClient c { h.client c with stage := .joining }).client d).closed =
      (h.client d).closed := closed_setClient rfl
  have honly : OnlyLeft h →
      OnlyLeft (h.setClient c { h.client c with stage := .joining }) := fun ho d hd => by
    rw [hclosed] at hd
    by_cases hdc : d = c
    · subst hdc
      rw [ho d hd] at hstage
      cases hstage
    · rw [client_setClient_of_ne h hdc]
      exact ho d hd
  refine ⟨fun d => ?_, fun d hd => ?_, ?_⟩
  · by_cases hdc : d = c
    · subst hdc
      simp [hh.members, hstage]
    · rw [client_setClient_of_ne h hdc]
      exact hh.members d
  · rw [hclosed]
    by_cases hdc : d = c
    · subst hdc
      simp at hd
    · rw [client_setClient_of_ne h hdc] at hd
      exact hh.left d hd
  · rw [loop_setClient]
    have hst := hh.standing
    cases hloop : h.loop with
    | waiting => exact honly (hh.waiting hloop)
    | sending msg todo => exact ⟨honly (hh.sending hloop).1, (hh.sending hloop).2⟩
    | closing todo =>
      refine ⟨(hh.closing hloop).1, fun d hd => ?_⟩
      rw [hclosed]
      exact (hh.closing hloop).2 d hd
    | returned => trivial
    | panicked => simp [hloop, Standing] at hst

theorem sound_register {h h' : Hub μ} {c : Nat} (hh : Sound h) (hs : h.register c = some h') :
    Sound h' := by
  obtain ⟨hloop, hstage, rfl⟩ := register_cases hs
  have ho := hh.waiting hloop
  refine ⟨fun d => ?_, fun d hd => ?_, ?_⟩
  · by_cases hdc : d = c
    · subst hdc
      simp
    · simp [client_setClient_of_ne h hdc, hh.members d, hdc]
  · by_cases hdc : d = c
    · subst hdc
      simp at hd
    · simp only [client_setClient_of_ne h hdc] at hd ⊢
      exact hh.left d hd
  · simp only [loop_setClient, hloop]
    intro d hd
    by_cases hdc : d = c
    · subst hdc
      simp only [client_setClient_self] at hd
      rw [ho d hd] at hstage
      cases hstage
    · simp only [client_setClient_of_ne h hdc] at hd ⊢
      exact ho d hd

/-- The one client whose channel is closed is the one that leaves. -/
theorem sound_unregister {h h' : Hub μ} {c : Nat} (hh : Sound h)
    (hs : h.unregister c = some h') : Sound h' := by
  obtain ⟨hloop, hstage, rfl⟩ := unregister_cases hs
  have ho := hh.waiting hloop
  have hmem := (hh.members c).2 hstage
  rw [if_pos hmem, closeSend_of_open (by simpa using hh.opened ho hmem)]
  refine ⟨fun d => ?_, fun d hd => ?_, ?_⟩
  · by_cases hdc : d = c
    · subst hdc
      simp
    · simp [client_setClient_of_ne _ hdc, hh.members d, hdc]
  · by_cases hdc : d = c
    · subst hdc
      simp
    · simp only [client_setClient_of_ne _ hdc] at hd ⊢
      exact hh.left d hd
  · simp only [loop_setClient, hloop]
    intro d hd
    by_cases hdc : d = c
    · subst hdc
      simp
    · simp only [client_setClient_of_ne _ hdc] at hd ⊢
      exact ho d hd

theorem sound_close {h h' : Hub μ} {c : Nat} (hh : Sound h) (hs : h.close c = some h') :
    Sound h' := by
  obtain ⟨todo, hloop, hc, rfl⟩ := close_cases hs
  obtain ⟨hsub, hopen⟩ := hh.closing hloop
  rw [closeSend_of_open (by simpa using hopen c hc)]
  have hstage : ∀ d, ((h.setClient c { h.client c with closed := true }).client d).stage =
      (h.client d).stage := stage_setClient rfl
  refine ⟨fun d => (hh.members d).trans (by rw [← hstage d]; rfl), fun d hd => ?_, ?_⟩
  · by_cases hdc : d = c
    · subst hdc
      simp
    · simp only [client_setClient_of_ne _ hdc] at hd ⊢
      exact hh.left d hd
  · refine ⟨(Finset.erase_subset _ _).trans hsub, fun d hd => ?_⟩
    obtain ⟨hdc, hd⟩ := Finset.mem_erase.1 hd
    rw [client_setClient_of_ne _ hdc]
    exact hopen d hd

theorem sound_step {h h' : Hub μ} {a : Action μ} (hh : Sound h) (hs : step h a = some h') :
    Sound h' := by
  cases a with
  | newClient c => exact sound_newClient hh hs
  | register c => exact sound_register hh hs
  | unregister c => exact sound_unregister hh hs
  | broadcast msg =>
    cases hs
    exact hh.move rfl (fun _ => rfl) (fun _ => rfl) hh.standing
  | handle =>
    obtain ⟨msg, q, hloop, -, rfl⟩ := handle_cases hs
    exact hh.move rfl (fun _ => rfl) (fun _ => rfl) ⟨hh.waiting hloop, subset_rfl⟩
  | offer c =>
    obtain ⟨msg, todo, hloop, hc, ⟨hclosed, rfl⟩ | ⟨-, rfl⟩⟩ := offer_cases hs
    · obtain ⟨ho, hsub⟩ := hh.sending hloop
      rw [hh.opened ho (hsub hc)] at hclosed
      cases hclosed
    · obtain ⟨ho, hsub⟩ := hh.sending hloop
      exact hh.move rfl (stage_setClient rfl) (closed_setClient rfl)
        ⟨ho, (Finset.erase_subset _ _).trans hsub⟩
  | shutdown =>
    obtain ⟨hloop, rfl⟩ := shutdown_cases hs
    exact hh.move rfl (fun _ => rfl) (fun _ => rfl)
      ⟨subset_rfl, fun c hc => hh.opened (hh.waiting hloop) hc⟩
  | close c => exact sound_close hh hs
  | finish =>
    obtain ⟨msg, hloop, rfl⟩ | ⟨hloop, rfl⟩ := finish_cases hs
    · exact hh.move rfl (fun _ => rfl) (fun _ => rfl) (hh.sending hloop).1
    · exact hh.move rfl (fun _ => rfl) (fun _ => rfl) trivial
  | receive c =>
    obtain ⟨msg, q, -, rfl⟩ := receive_cases hs
    exact hh.move rfl (stage_setClient rfl) (closed_setClient rfl) hh.standing

theorem sound_run {as : List (Action μ)} {h : Hub μ} (hs : Lts.run step newHub as = some h) :
    Sound h :=
  Lts.invariant (fun _ _ _ hh => sound_step hh) sound_newHub hs

/-- What is asked of the hub's channels. -/
structure Safe (h : Hub μ) : Prop where
  alive : h.loop ≠ .panicked
  gone : ∀ c, (h.client c).stage = .left → c ∉ h.clients ∧ (h.client c).closed = true

/-- **No run sends on a closed channel or closes one twice**, and a client that has left is out of
the map with its channel closed. -/
theorem safe_of_run {as : List (Action μ)} {h : Hub μ} (hs : Lts.run step newHub as = some h) :
    Safe h := by
  have hh := sound_run hs
  refine ⟨fun hpanicked => ?_, fun c hleft => ⟨fun hc => ?_, hh.left c hleft⟩⟩
  · have hst := hh.standing
    rw [hpanicked] at hst
    exact hst
  · rw [(hh.members c).1 hc] at hleft
    cases hleft

/-- Two clients, of which one leaves before a message and one is closed in the shutdown. -/
def leaveAndShutDown : List (Action String) :=
  [.newClient 0, .register 0, .newClient 1, .register 1, .unregister 0, .broadcast "m", .handle,
    .offer 1, .finish, .shutdown, .close 1, .finish]

theorem safe_of_run_leaveAndShutDown :
    ∃ h, Lts.run step newHub leaveAndShutDown = some h ∧ Safe h := by
  obtain ⟨h, hs⟩ : ∃ h, Lts.run step newHub leaveAndShutDown = some h := ⟨_, rfl⟩
  exact ⟨h, hs, safe_of_run hs⟩

end QuickVps.Ws
