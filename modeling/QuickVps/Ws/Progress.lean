import Mathlib.Data.Finset.Card
import QuickVps.Ws.Placement

/-!
# Progress and shutdown of the hub

No client can hold `Run` up: a loop over the clients takes one step for each, and none of them waits
for anybody. At shutdown `Run` closes the channels of its clients and returns; from then on nobody
receives from `register` and `unregister`.

* `Hub.rest` — how many steps `Run` is away from its select;
* `select_reached` — that many steps of its own bring it there, whatever happens in between, and
  one of them is always enabled;
* `shutdown_final` — after the shutdown no client joins or leaves, and nothing more is sent.
-/

namespace QuickVps.Ws

variable {μ : Type}

/-! ## The loops -/

/-- The steps of `Run` inside its two loops over the clients. -/
def Action.inLoop : Action μ → Bool
  | .offer _ => true
  | .close _ => true
  | .finish => true
  | _ => false

/-- The steps of its loop that `Run` has still to do. -/
def Hub.rest (h : Hub μ) : Nat :=
  match h.loop with
  | .sending _ todo => todo.card + 1
  | .closing todo => todo.card + 1
  | _ => 0

/-- `Run` can take what anybody sends to it, or it has returned. -/
def Hub.InSelect (h : Hub μ) : Prop := h.loop = .waiting ∨ h.loop = .returned

theorem Sound.inSelect {h : Hub μ} (hh : Sound h) (hrest : h.rest = 0) : h.InSelect := by
  have hst := hh.standing
  unfold Hub.rest at hrest
  cases hloop : h.loop with
  | waiting => exact Or.inl hloop
  | returned => exact Or.inr hloop
  | panicked => simp [hloop, Standing] at hst
  | sending msg todo => simp [hloop] at hrest
  | closing todo => simp [hloop] at hrest

theorem Sound.loop_closeSend {h : Hub μ} {c : Nat} (hopen : (h.client c).closed = false) :
    (h.closeSend c).loop = h.loop := by
  rw [closeSend_of_open hopen]
  rfl

/-- A step inside a loop is one less to do. -/
theorem rest_inLoop {h h' : Hub μ} {a : Action μ} (hh : Sound h) (ha : a.inLoop = true)
    (hs : step h a = some h') : h.rest = h'.rest + 1 := by
  cases a with
  | offer c =>
    obtain ⟨msg, todo, hloop, hc, ⟨hclosed, -⟩ | ⟨-, rfl⟩⟩ := offer_cases hs
    · obtain ⟨ho, hsub⟩ := hh.sending hloop
      rw [hh.opened ho (hsub hc)] at hclosed
      cases hclosed
    · simp [Hub.rest, hloop, Finset.card_erase_add_one hc]
  | close c =>
    obtain ⟨todo, hloop, hc, rfl⟩ := close_cases hs
    have hopen := (hh.closing hloop).2 c hc
    have hloop' : ({ h with loop := .closing (todo.erase c) }.closeSend c).loop =
        .closing (todo.erase c) := Sound.loop_closeSend hopen
    simp [Hub.rest, hloop, hloop', Finset.card_erase_add_one hc]
  | finish =>
    obtain ⟨msg, hloop, rfl⟩ | ⟨hloop, rfl⟩ := finish_cases hs <;> simp [Hub.rest, hloop]
  | newClient c => cases ha
  | register c => cases ha
  | unregister c => cases ha
  | broadcast msg => cases ha
  | handle => cases ha
  | shutdown => cases ha
  | receive c => cases ha

/-- The other steps do not touch the loop that `Run` is in. -/
theorem loop_of_not_inLoop {h h' : Hub μ} {a : Action μ} (ha : a.inLoop = false)
    (hrest : h.rest ≠ 0) (hs : step h a = some h') : h'.loop = h.loop := by
  have hbusy : h.loop ≠ .waiting := fun hloop => hrest (by simp [Hub.rest, hloop])
  cases a with
  | newClient c =>
    obtain ⟨-, rfl⟩ := newClient_cases hs
    rfl
  | register c => exact absurd (register_cases hs).1 hbusy
  | unregister c => exact absurd (unregister_cases hs).1 hbusy
  | broadcast msg =>
    cases hs
    rfl
  | handle =>
    obtain ⟨msg, q, hloop, -⟩ := handle_cases hs
    exact absurd hloop hbusy
  | shutdown => exact absurd (shutdown_cases hs).1 hbusy
  | receive c =>
    obtain ⟨msg, q, -, rfl⟩ := receive_cases hs
    rfl
  | offer c => cases ha
  | close c => cases ha
  | finish => cases ha

/-- While there is something left to do in a loop, `Run` can do it. -/
theorem inLoop_enabled {h : Hub μ} (hrest : h.rest ≠ 0) :
    ∃ a h', Action.inLoop a = true ∧ step h a = some h' := by
  have hfinish {todo : Finset Nat} (htodo : todo = ∅)
      (hloop : (∃ msg, h.loop = .sending msg todo) ∨ h.loop = .closing todo) :
      ∃ h', step h .finish = some h' := by
    rcases hloop with ⟨msg, hloop⟩ | hloop <;> simp [step, Hub.finish, hloop, htodo]
  cases hloop : h.loop with
  | waiting => simp [Hub.rest, hloop] at hrest
  | returned => simp [Hub.rest, hloop] at hrest
  | panicked => simp [Hub.rest, hloop] at hrest
  | sending msg todo =>
    rcases todo.eq_empty_or_nonempty with htodo | ⟨c, hc⟩
    · obtain ⟨h', hs⟩ := hfinish htodo (Or.inl ⟨msg, hloop⟩)
      exact ⟨.finish, h', rfl, hs⟩
    · refine ⟨.offer c, ?_⟩
      by_cases hclosed : (h.client c).closed = true <;>
        simp [Action.inLoop, step, Hub.offer, hloop, hc, hclosed]
  | closing todo =>
    rcases todo.eq_empty_or_nonempty with htodo | ⟨c, hc⟩
    · obtain ⟨h', hs⟩ := hfinish htodo (Or.inr hloop)
      exact ⟨.finish, h', rfl, hs⟩
    · refine ⟨.close c, ?_⟩
      simp [Action.inLoop, step, Hub.close, hloop, hc]

/-- **Nobody holds `Run` up.** In every reachable state where `Run` is in a loop it can take a step
of its own. Whatever else happens in between, it is back in its select, or has returned, after as
many of them as there were clients left to serve, and one more. -/
theorem select_reached {before : List (Action μ)} {h : Hub μ}
    (hs : Lts.run step newHub before = some h) :
    (h.rest ≠ 0 → ∃ a h', Action.inLoop a = true ∧ step h a = some h') ∧
      ∀ as h', Lts.run step h as = some h' → h.rest ≤ as.countP Action.inLoop →
        ∃ as₁ as₂ h₁, as = as₁ ++ as₂ ∧ Lts.run step h as₁ = some h₁ ∧ h₁.InSelect ∧
          as₁.countP Action.inLoop = h.rest := by
  refine ⟨inLoop_enabled, fun as h' hrun hcount => ?_⟩
  have hh := sound_run hs
  obtain ⟨as₁, as₂, h₁, has, hrun₁, hrest, hcount₁⟩ :=
    Lts.run_countdown (fun _ _ _ => sound_step) (fun _ _ _ => rest_inLoop)
      (fun h a h' _ ha hrest hstep => by
        have hloop := loop_of_not_inLoop ha hrest hstep
        simp [Hub.rest, hloop])
      hh hrun hcount
  refine ⟨as₁, as₂, h₁, has, hrun₁, ?_, hcount₁⟩
  exact (Lts.invariant (fun _ _ _ => sound_step) hh hrun₁).inSelect hrest

/-- Two clients join, and before the hub has offered them a message one of them asks to leave. -/
def joinTwo : List (Action String) :=
  [.newClient 0, .register 0, .newClient 1, .register 1, .broadcast "m", .handle]

/-- The hub's own steps, with others in between. -/
def serveTwo : List (Action String) :=
  [.broadcast "n", .offer 1, .receive 1, .newClient 2, .offer 0, .finish, .handle]

def joinedTwo : Hub String := (Lts.run step newHub joinTwo).getD newHub

theorem run_joinTwo : Lts.run step newHub joinTwo = some joinedTwo := rfl

theorem select_reached_joinTwo :
    ∃ h', Lts.run step joinedTwo serveTwo = some h' ∧ joinedTwo.rest = 3 ∧
      ∃ as₁ as₂ h₁, serveTwo = as₁ ++ as₂ ∧ Lts.run step joinedTwo as₁ = some h₁ ∧
        h₁.InSelect ∧ as₁.countP Action.inLoop = joinedTwo.rest :=
  ⟨_, rfl, rfl, (select_reached run_joinTwo).2 serveTwo _ rfl (by decide)⟩

/-! ## Shutdown -/

/-- The clients whose channels the shutdown has still to close. -/
def Hub.remaining (h : Hub μ) : Finset Nat :=
  match h.loop with
  | .closing todo => todo
  | _ => ∅

/-- What a shutdown in the state `h₀` leaves for good: nothing more is sent, who waits to join or to
leave waits for ever, and the channels that are closed are those of the clients there were. -/
structure Final (h₀ h : Hub μ) : Prop where
  ending : (∃ todo, h.loop = .closing todo) ∨ h.loop = .returned
  sent : ∀ c, (h.client c).send.sent = (h₀.client c).send.sent
  stage : ∀ c, (h.client c).stage = (h₀.client c).stage ∨
    (h₀.client c).stage = .absent ∧ (h.client c).stage = .joining
  closed : ∀ c, (h.client c).closed = true ↔
    (h₀.client c).stage = .left ∨ (h₀.client c).stage = .joined ∧ c ∉ h.remaining

theorem final_shutdown {h h' : Hub μ} (hh : Sound h) (hs : step h .shutdown = some h') :
    Final h h' := by
  obtain ⟨hloop, rfl⟩ := shutdown_cases hs
  refine ⟨Or.inl ⟨_, rfl⟩, fun _ => rfl, fun _ => Or.inl rfl, fun c => ?_⟩
  show (h.client c).closed = true ↔ _ ∨ _ ∧ c ∉ h.clients
  rw [hh.members c]
  constructor
  · exact fun hclosed => Or.inl (hh.waiting hloop c hclosed)
  · intro h
    rcases h with hleft | ⟨hjoined, hnot⟩
    · exact hh.left c hleft
    · exact absurd hjoined hnot

section Final

variable {h₀ h h' : Hub μ}

/-- `Run` takes nothing any more. -/
theorem Final.not_waiting (hf : Final h₀ h) : h.loop ≠ .waiting := by
  intro hloop
  rcases hf.ending with ⟨todo, hclosing⟩ | hreturned
  · simp [hloop] at hclosing
  · simp [hloop] at hreturned

theorem Final.newClient {c : Nat} (hf : Final h₀ h) (hs : h.newClient c = some h') :
    Final h₀ h' := by
  obtain ⟨hstage, rfl⟩ := newClient_cases hs
  have habsent : (h₀.client c).stage = .absent := by
    rcases hf.stage c with hsame | ⟨hold, -⟩
    · rw [← hsame, hstage]
    · exact hold
  have hsent (d : Nat) :
      ((h.setClient c { h.client c with stage := .joining }).client d).send.sent =
        (h.client d).send.sent := by
    by_cases hd : d = c
    · subst hd
      rw [client_setClient_self]
    · rw [client_setClient_of_ne h hd]
  have hclosed : ∀ d, ((h.setClient c { h.client c with stage := .joining }).client d).closed =
      (h.client d).closed := closed_setClient rfl
  refine ⟨hf.ending, fun d => (hsent d).trans (hf.sent d), fun d => ?_, fun d => ?_⟩
  · by_cases hd : d = c
    · subst hd
      exact Or.inr ⟨habsent, by rw [client_setClient_self]⟩
    · rw [client_setClient_of_ne h hd]
      exact hf.stage d
  · rw [hclosed]
    exact hf.closed d

theorem Final.close {c : Nat} (hh : Sound h) (hf : Final h₀ h) (hs : h.close c = some h') :
    Final h₀ h' := by
  obtain ⟨todo, hloop, hc, rfl⟩ := close_cases hs
  obtain ⟨hsub, hopen⟩ := hh.closing hloop
  have hjoined : (h₀.client c).stage = .joined := by
    have hstage := (hh.members c).1 (hsub hc)
    rcases hf.stage c with hsame | ⟨-, hjoining⟩
    · rw [← hsame, hstage]
    · rw [hstage] at hjoining
      cases hjoining
  have hremaining : h.remaining = todo := by simp [Hub.remaining, hloop]
  rw [closeSend_of_open (by exact hopen c hc)]
  have hstage : ∀ d, ((h.setClient c { h.client c with closed := true }).client d).stage =
      (h.client d).stage := stage_setClient rfl
  refine ⟨Or.inl ⟨_, rfl⟩, fun d => ?_, fun d => ?_, fun d => ?_⟩
  · rw [← hf.sent d]
    by_cases hd : d = c
    · subst hd
      simp
    · rw [client_setClient_of_ne _ hd]
  · have hsame := hf.stage d
    rw [← hstage d] at hsame
    exact hsame
  · have hiff := hf.closed d
    rw [hremaining] at hiff
    show _ ↔ _ ∨ _ ∧ d ∉ todo.erase c
    by_cases hd : d = c
    · subst hd
      simp [hjoined]
    · rw [client_setClient_of_ne _ hd, Finset.mem_erase]
      simpa [hd] using hiff

theorem final_step {a : Action μ} (hh : Sound h) (hf : Final h₀ h) (hs : step h a = some h') :
    Final h₀ h' := by
  cases a with
  | newClient c => exact hf.newClient hs
  | register c => exact absurd (register_cases hs).1 hf.not_waiting
  | unregister c => exact absurd (unregister_cases hs).1 hf.not_waiting
  | broadcast msg =>
    cases hs
    exact ⟨hf.ending, hf.sent, hf.stage, hf.closed⟩
  | handle =>
    obtain ⟨msg, q, hloop, -⟩ := handle_cases hs
    exact absurd hloop hf.not_waiting
  | offer c =>
    obtain ⟨msg, todo, hloop, -⟩ := offer_cases hs
    rcases hf.ending with ⟨todo', hclosing⟩ | hreturned
    · simp [hloop] at hclosing
    · simp [hloop] at hreturned
  | shutdown => exact absurd (shutdown_cases hs).1 hf.not_waiting
  | close c => exact hf.close hh hs
  | finish =>
    obtain ⟨msg, hloop, -⟩ | ⟨hloop, rfl⟩ := finish_cases hs
    · rcases hf.ending with ⟨todo', hclosing⟩ | hreturned
      · simp [hloop] at hclosing
      · simp [hloop] at hreturned
    · have hremaining : h.remaining = ∅ := by simp [Hub.remaining, hloop]
      refine ⟨Or.inr rfl, hf.sent, hf.stage, fun c => ?_⟩
      rw [hf.closed c, hremaining]
      rfl
  | receive c =>
    obtain ⟨msg, q, hq, rfl⟩ := receive_cases hs
    have hstage : ∀ d, ((h.setClient c { h.client c with send := q }).client d).stage =
        (h.client d).stage := stage_setClient rfl
    have hclosed : ∀ d, ((h.setClient c { h.client c with send := q }).client d).closed =
        (h.client d).closed := closed_setClient rfl
    refine ⟨hf.ending, fun d => ?_, fun d => ?_, fun d => ?_⟩
    · rw [← hf.sent d]
      by_cases hd : d = c
      · subst hd
        rw [client_setClient_self, (Chan.take?_cases hq).2.1]
      · rw [client_setClient_of_ne _ hd]
    · rw [hstage]
      exact hf.stage d
    · rw [hclosed]
      exact hf.closed d

end Final

/-- **The shutdown is final.** In every run that goes on after it nobody joins or leaves, and
nothing more is put into any client's channel. Once `Run` has returned, the channels of all clients
that had ever joined are closed, and only those. -/
theorem shutdown_final {before after : List (Action μ)} {h₀ h : Hub μ}
    (hbefore : Lts.run step newHub before = some h₀)
    (hafter : Lts.run step h₀ (.shutdown :: after) = some h) :
    (∀ c, (h.client c).send.sent = (h₀.client c).send.sent) ∧
      (∀ c, (h.client c).stage = (h₀.client c).stage ∨
        (h₀.client c).stage = .absent ∧ (h.client c).stage = .joining) ∧
      (h.loop = .returned → ∀ c, (h.client c).closed = true ↔
        (h₀.client c).stage = .joined ∨ (h₀.client c).stage = .left) := by
  obtain ⟨t, hs, hrun⟩ := Lts.run_cons_some hafter
  have hh := sound_run hbefore
  have hfinal : Sound h ∧ Final h₀ h :=
    Lts.invariant (I := fun h => Sound h ∧ Final h₀ h)
      (fun _ _ _ hI hstep => ⟨sound_step hI.1 hstep, final_step hI.1 hI.2 hstep⟩)
      ⟨sound_step hh hs, final_shutdown hh hs⟩ hrun
  refine ⟨hfinal.2.sent, hfinal.2.stage, fun hloop c => ?_⟩
  have hremaining : h.remaining = ∅ := by simp [Hub.remaining, hloop]
  rw [hfinal.2.closed c, hremaining, or_comm]
  simp

/-- One client joins in time, one too late. -/
def joinOne : List (Action String) := [.newClient 0, .register 0, .newClient 1]

def joinedOne : Hub String := (Lts.run step newHub joinOne).getD newHub

def closeOne : List (Action String) := [.broadcast "m", .close 0, .finish]

theorem run_joinOne : Lts.run step newHub joinOne = some joinedOne := rfl

theorem shutdown_final_joinOne :
    ∃ h, Lts.run step joinedOne (.shutdown :: closeOne) = some h ∧
      (∀ c, (h.client c).send.sent = (joinedOne.client c).send.sent) ∧
      (∀ c, (h.client c).stage = (joinedOne.client c).stage ∨
        (joinedOne.client c).stage = .absent ∧ (h.client c).stage = .joining) ∧
      (h.loop = .returned → ∀ c, (h.client c).closed = true ↔
        (joinedOne.client c).stage = .joined ∨ (joinedOne.client c).stage = .left) := by
  obtain ⟨h, hrun⟩ : ∃ h, Lts.run step joinedOne (.shutdown :: closeOne) = some h := ⟨_, rfl⟩
  exact ⟨h, hrun, shutdown_final run_joinOne hrun⟩

end QuickVps.Ws
