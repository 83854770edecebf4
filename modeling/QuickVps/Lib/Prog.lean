import Mathlib.Tactic.Common

/-!
# Programs over an interface

A program of type `Prog E R α` calls operations `e : E`, goes on with their answers in `R e`, and
ends with a result in `α`. What a call does to a state is given separately, by a function that also
takes the environment's choice: whether a statement fails, what the clock says.

* `run` — a program run alone, with one choice for each call; `run_bind` takes a run apart, and
  `run_map` follows one on another state.
* `within` — the same with only some of the choices; `ChoiceAt` — the choice for one of the calls.
* `Only` — every call the program can make, whatever the answers, has a property; what such calls
  keep, a run keeps (`Only.run_keeps`), and it ends where they can go on (`Only.run_total`).
* `Follows` — at every call the program has a property that depends on its calls so far, and so
  has its result at the end (`follows_bind`, `Follows.mono`).
* `play` — a program run to its end in an environment that answers every call (`play_bind`).
* `subst` — every call replaced by a program; `lift` — a program over one interface as a program
  over a larger one, on a part of whose state it runs (`run_lift`).
-/

/-- A program that calls the operations `E` and goes on with their answers. -/
inductive Prog (E : Type*) (R : E → Type*) (α : Type*)
  | ret (a : α)
  | call (e : E) (k : R e → Prog E R α)

namespace Prog

section Monad

universe u v w
variable {E : Type u} {R : E → Type v} {α β γ : Type w}

def bind : Prog E R α → (α → Prog E R β) → Prog E R β
  | ret a, f => f a
  | call e k, f => call e fun r => (k r).bind f

instance : Monad (Prog E R) where
  pure := ret
  bind := bind

/-- The program that calls one operation. -/
def op (e : E) : Prog E R (R e) := call e ret

@[simp] theorem pure_def (a : α) : (pure a : Prog E R α) = ret a := rfl

@[simp] theorem ret_bind (a : α) (f : α → Prog E R β) : (ret a >>= f) = f a := rfl

@[simp] theorem call_bind (e : E) (k : R e → Prog E R α) (f : α → Prog E R β) :
    (call e k >>= f) = call e fun r => k r >>= f := rfl

theorem bind_ret (p : Prog E R α) : p >>= ret = p := by
  induction p with
  | ret a => rfl
  | call e k ih => exact congrArg (call e) (funext ih)

theorem bind_assoc (p : Prog E R α) (f : α → Prog E R β) (g : β → Prog E R γ) :
    p >>= f >>= g = p >>= fun a => f a >>= g := by
  induction p with
  | ret a => rfl
  | call e k ih => exact congrArg (call e) (funext ih)

instance : LawfulMonad (Prog E R) :=
  LawfulMonad.mk' _ (fun p => bind_ret p) (fun _ _ => rfl) bind_assoc

end Monad

universe u v w
variable {E : Type u} {R : E → Type v} {α β : Type w} {κ σ : Type*}

/-! ## Runs -/

section Run

variable (exec : κ → (e : E) → σ → Option (R e × σ))

/-- Run `p` alone from `s`, with the choices `cs`, one for each call; the choices that are left
over are returned. A call without a choice, or with one that is not enabled, ends the run. -/
def run : Prog E R α → List κ → σ → Option (α × List κ × σ)
  | ret a, cs, s => some (a, cs, s)
  | call _ _, [], _ => none
  | call e k, c :: cs, s => (exec c e s).bind fun rs => run (k rs.1) cs rs.2

variable {exec}

/-- **Bind rule.** A run of two programs in sequence is a run of the first, then of the second. -/
theorem run_bind {p : Prog E R α} {f : α → Prog E R β} {cs cs' : List κ} {s s' : σ} {b : β}
    (h : (p >>= f).run exec cs s = some (b, cs', s')) :
    ∃ a ds t, p.run exec cs s = some (a, ds, t) ∧ (f a).run exec ds t = some (b, cs', s') := by
  induction p generalizing cs s with
  | ret a => exact ⟨a, cs, s, rfl, h⟩
  | call e k ih =>
    cases cs with
    | nil => cases h
    | cons c cs =>
      obtain ⟨⟨r, t⟩, hexec, hrun⟩ := Option.bind_eq_some_iff.1 h
      obtain ⟨a, ds, t', hp, hf⟩ := ih r hrun
      refine ⟨a, ds, t', ?_, hf⟩
      rw [run, hexec]
      exact hp

/-- After a run of the first program the second one goes on. -/
theorem run_bind_of_run {p : Prog E R α} {f : α → Prog E R β} {cs ds : List κ} {s t : σ} {a : α}
    (h : p.run exec cs s = some (a, ds, t)) :
    (p >>= f).run exec cs s = (f a).run exec ds t := by
  induction p generalizing cs s with
  | ret b =>
    cases h
    rfl
  | call e k ih =>
    cases cs with
    | nil => cases h
    | cons c cs =>
      obtain ⟨⟨r, u⟩, hexec, hrun⟩ := Option.bind_eq_some_iff.1 h
      rw [call_bind, run, hexec, Option.bind_some]
      exact ih r hrun

theorem run_ret {a b : α} {cs cs' : List κ} {s s' : σ}
    (h : (ret a : Prog E R α).run exec cs s = some (b, cs', s')) :
    b = a ∧ cs' = cs ∧ s' = s := by
  cases h
  exact ⟨rfl, rfl, rfl⟩

/-- A run that starts with a call executes it and goes on with the answer. -/
theorem run_call {e : E} {k : R e → Prog E R α} {cs cs' : List κ} {s s' : σ} {b : α}
    (h : (call e k).run exec cs s = some (b, cs', s')) :
    ∃ c ds r t, cs = c :: ds ∧ exec c e s = some (r, t) ∧
      (k r).run exec ds t = some (b, cs', s') := by
  cases cs with
  | nil => cases h
  | cons c cs =>
    obtain ⟨⟨r, t⟩, hexec, hrun⟩ := Option.bind_eq_some_iff.1 h
    exact ⟨c, cs, r, t, rfl, hexec, hrun⟩

theorem run_op {E : Type u} {R : E → Type w} {exec : κ → (e : E) → σ → Option (R e × σ)} {e : E}
    {cs cs' : List κ} {s s' : σ} {r : R e}
    (h : (op e : Prog E R (R e)).run exec cs s = some (r, cs', s')) :
    ∃ c, cs = c :: cs' ∧ exec c e s = some (r, s') := by
  obtain ⟨c, ds, r', t, rfl, hexec, hret⟩ := run_call h
  obtain ⟨rfl, rfl, rfl⟩ := run_ret hret
  exact ⟨c, rfl, hexec⟩

theorem run_suffix {p : Prog E R α} {cs cs' : List κ} {s s' : σ} {a : α}
    (h : p.run exec cs s = some (a, cs', s')) : cs' <:+ cs := by
  induction p generalizing cs s with
  | ret b =>
    obtain ⟨-, rfl, -⟩ := run_ret h
    exact List.suffix_rfl
  | call e k ih =>
    obtain ⟨c, ds, r, t, rfl, -, hrun⟩ := run_call h
    exact (ih r hrun).trans (List.suffix_cons _ _)

/-- **Simulation.** What every call does to a part of the state, the run does. -/
theorem run_map {σ' : Type*} {exec' : κ → (e : E) → σ' → Option (R e × σ')} {f : σ' → σ}
    (hexec : ∀ c e s r s', exec' c e s = some (r, s') → exec c e (f s) = some (r, f s'))
    {p : Prog E R α} {cs cs' : List κ} {s s' : σ'} {a : α}
    (h : p.run exec' cs s = some (a, cs', s')) :
    p.run exec cs (f s) = some (a, cs', f s') := by
  induction p generalizing cs s with
  | ret b =>
    obtain ⟨rfl, rfl, rfl⟩ := run_ret h
    rfl
  | call e k ih =>
    obtain ⟨c, ds, r, t, rfl, hcall, hrun⟩ := run_call h
    rw [run, hexec c e s r t hcall]
    exact ih r hrun

/-- Only the choices with `ok` are made. -/
def within (ok : κ → E → Prop) [∀ c e, Decidable (ok c e)]
    (exec : κ → (e : E) → σ → Option (R e × σ)) : κ → (e : E) → σ → Option (R e × σ) :=
  fun c e s => if ok c e then exec c e s else none

theorem within_some {ok : κ → E → Prop} [∀ c e, Decidable (ok c e)] {c : κ} {e : E} {s : σ}
    {rs : R e × σ} : within ok exec c e s = some rs ↔ ok c e ∧ exec c e s = some rs := by
  unfold within
  split_ifs with hok
  · simp [hok]
  · simp [hok]

/-- A run with such choices is a run. -/
theorem run_within {ok : κ → E → Prop} [∀ c e, Decidable (ok c e)] {p : Prog E R α}
    {cs : List κ} {s : σ} {x : α × List κ × σ} (h : p.run (within ok exec) cs s = some x) :
    p.run exec cs s = some x :=
  run_map (f := id) (fun _ _ _ _ _ hcall => (within_some.1 hcall).2) h

/-- The choice for call number `n` of a run has `p`. -/
def ChoiceAt (p : κ → Prop) (cs : List κ) (n : Nat) : Prop := ∃ c, cs[n]? = some c ∧ p c

@[simp]
theorem choiceAt_zero {p : κ → Prop} {c : κ} {cs : List κ} : ChoiceAt p (c :: cs) 0 ↔ p c := by
  simp [ChoiceAt]

@[simp]
theorem choiceAt_succ {p : κ → Prop} {c : κ} {cs : List κ} {n : Nat} :
    ChoiceAt p (c :: cs) (n + 1) ↔ ChoiceAt p cs n := by
  simp [ChoiceAt]

theorem choiceAt_drop {p : κ → Prop} {cs : List κ} {m n : Nat} :
    ChoiceAt p (cs.drop m) n ↔ ChoiceAt p cs (m + n) := by
  simp [ChoiceAt, List.getElem?_drop]

end Run

/-! ## The calls of a program -/

/-- Every call that the program can make, whatever the answers, has `C`. -/
def Only (C : E → Prop) : Prog E R α → Prop
  | ret _ => True
  | call e k => C e ∧ ∀ r, Only C (k r)

section Only

variable {C C' : E → Prop}

@[simp] theorem only_ret (a : α) : Only C (ret a : Prog E R α) := trivial

@[simp] theorem only_call {e : E} {k : R e → Prog E R α} :
    Only C (call e k) ↔ C e ∧ ∀ r, Only C (k r) := Iff.rfl

theorem only_op {e : E} (h : C e) : Only C (op e : Prog E R (R e)) := ⟨h, fun _ => trivial⟩

theorem Only.bind {p : Prog E R α} {f : α → Prog E R β} (hp : Only C p)
    (hf : ∀ a, Only C (f a)) : Only C (p >>= f) := by
  induction p with
  | ret a => exact hf a
  | call e k ih => exact ⟨hp.1, fun r => ih r (hp.2 r)⟩

theorem only_true (p : Prog E R α) : Only (fun _ => True) p := by
  induction p with
  | ret a => trivial
  | call e k ih => exact ⟨trivial, ih⟩

theorem Only.mono {p : Prog E R α} (hC : ∀ e, C e → C' e) (hp : Only C p) : Only C' p := by
  induction p with
  | ret a => trivial
  | call e k ih => exact ⟨hC e hp.1, fun r => ih r (hp.2 r)⟩

theorem Only.and {p : Prog E R α} (hp : Only C p) (hp' : Only C' p) :
    Only (fun e => C e ∧ C' e) p := by
  induction p with
  | ret a => trivial
  | call e k ih => exact ⟨⟨hp.1, hp'.1⟩, fun r => ih r (hp.2 r) (hp'.2 r)⟩

/-- **What every call keeps, the run keeps.** -/
theorem Only.run_keeps {exec : κ → (e : E) → σ → Option (R e × σ)} {I : σ → Prop}
    (hexec : ∀ c e s r s', C e → exec c e s = some (r, s') → I s → I s') {p : Prog E R α}
    (hp : Only C p) {cs cs' : List κ} {s s' : σ} {a : α}
    (h : p.run exec cs s = some (a, cs', s')) (hs : I s) : I s' := by
  induction p generalizing cs s with
  | ret b =>
    obtain ⟨-, -, rfl⟩ := run_ret h
    exact hs
  | call e k ih =>
    obtain ⟨c, ds, r, t, -, hcall, hrun⟩ := run_call h
    exact ih r (hp.2 r) hrun (hexec c e s r t hp.1 hcall hs)

/-- Where every call with `C` has a choice with `P` that lets it go on, a program of such calls ends
with such choices. -/
theorem Only.run_total {exec : κ → (e : E) → σ → Option (R e × σ)} {P : κ → Prop}
    (hexec : ∀ e s, C e → ∃ c r s', P c ∧ exec c e s = some (r, s')) {p : Prog E R α}
    (hp : Only C p) (s : σ) :
    ∃ cs a s', (∀ c ∈ cs, P c) ∧ p.run exec cs s = some (a, [], s') := by
  induction p generalizing s with
  | ret a => exact ⟨[], a, s, by simp, rfl⟩
  | call e k ih =>
    obtain ⟨c, r, t, hc, hcall⟩ := hexec e s hp.1
    obtain ⟨cs, a, s', hcs, hrun⟩ := ih r (hp.2 r) t
    refine ⟨c :: cs, a, s', ?_, ?_⟩
    · simpa using ⟨hc, hcs⟩
    · rw [run, hcall]
      exact hrun

end Only

-- The rules above take a program apart; it is never evaluated to see its calls.
attribute [irreducible] Only

/-! ## The history of a program -/

/-- A call with its answer. -/
abbrev Call (E : Type*) (R : E → Type*) := Σ e : E, R e

/-- After the calls `h`, the newest first, every call `e` of the program has `ok h e`, and its
result has `fin` at the end. -/
def Follows (ok : List (Call E R) → E → Prop) (fin : List (Call E R) → α → Prop) :
    List (Call E R) → Prog E R α → Prop
  | h, ret a => fin h a
  | h, call e k => ok h e ∧ ∀ r, Follows ok fin (⟨e, r⟩ :: h) (k r)

section Follows

variable {ok ok' : List (Call E R) → E → Prop}

@[simp] theorem follows_ret {fin : List (Call E R) → α → Prop} {h : List (Call E R)} {a : α} :
    Follows ok fin h (ret a : Prog E R α) ↔ fin h a := Iff.rfl

@[simp] theorem follows_call {fin : List (Call E R) → α → Prop} {h : List (Call E R)} {e : E}
    {k : R e → Prog E R α} :
    Follows ok fin h (call e k) ↔ ok h e ∧ ∀ r, Follows ok fin (⟨e, r⟩ :: h) (k r) := Iff.rfl

@[simp] theorem follows_op {e : E} {fin : List (Call E R) → R e → Prop} {h : List (Call E R)} :
    Follows ok fin h (op e) ↔ ok h e ∧ ∀ r, fin (⟨e, r⟩ :: h) r := Iff.rfl

/-- **Sequencing.** The second program follows from where the first one ends. -/
theorem follows_bind {fin : List (Call E R) → β → Prop} {p : Prog E R α} {f : α → Prog E R β}
    {h : List (Call E R)} :
    Follows ok fin h (p >>= f) ↔ Follows ok (fun h' a => Follows ok fin h' (f a)) h p := by
  induction p generalizing h with
  | ret a => exact Iff.rfl
  | call e k ih => exact and_congr_right fun _ => forall_congr' fun r => ih r

/-- **Consequence.** Histories only grow, so the new conditions are asked for only on histories
that end in `h`. -/
theorem Follows.mono {fin fin' : List (Call E R) → α → Prop} {p : Prog E R α}
    {h : List (Call E R)} (hp : Follows ok fin h p)
    (hok : ∀ h' e, h <:+ h' → ok h' e → ok' h' e)
    (hfin : ∀ h' a, h <:+ h' → fin h' a → fin' h' a) : Follows ok' fin' h p := by
  induction p generalizing h with
  | ret a => exact hfin h a List.suffix_rfl hp
  | call e k ih =>
    refine ⟨hok h e List.suffix_rfl hp.1, fun r => ih r (hp.2 r) ?_ ?_⟩
    · exact fun h' e' hh => hok h' e' ((List.suffix_cons _ _).trans hh)
    · exact fun h' a hh => hfin h' a ((List.suffix_cons _ _).trans hh)

/-- A program that calls only `C` keeps a property of the calls so far which such calls keep. -/
theorem Only.follows {C : E → Prop} {I : List (Call E R) → Prop}
    (hok : ∀ h e, C e → I h → ok h e) (hI : ∀ h e r, C e → I h → I (⟨e, r⟩ :: h))
    {p : Prog E R α} (hp : Only C p) {h : List (Call E R)} (hh : I h) :
    Follows ok (fun h' _ => I h') h p := by
  induction p generalizing h with
  | ret a => exact hh
  | call e k ih =>
    rw [only_call] at hp
    exact ⟨hok h e hp.1 hh, fun r => ih r (hp.2 r) (hI h e r hp.1 hh)⟩

/-- The conditions of a program, with what all its calls have in common. -/
theorem Follows.and_only {C : E → Prop} {fin : List (Call E R) → α → Prop} {p : Prog E R α}
    {h : List (Call E R)} (hp : Follows ok fin h p) (hC : Only C p) :
    Follows (fun h e => ok h e ∧ C e) fin h p := by
  induction p generalizing h with
  | ret a => exact hp
  | call e k ih =>
    rw [only_call] at hC
    exact ⟨⟨hp.1, hC.1⟩, fun r => ih r (hp.2 r) (hC.2 r)⟩

end Follows

attribute [irreducible] Follows

/-! ## Environments -/

section Play

/-- Run `p` with the answers of `env`, which depend on the calls so far, the oldest first; the
calls are returned with the result. -/
def play (env : List (Call E R) → (e : E) → R e) :
    Prog E R α → List (Call E R) → α × List (Call E R)
  | ret a, h => (a, h)
  | call e k, h => play env (k (env h e)) (h ++ [⟨e, env h e⟩])

variable {env : List (Call E R) → (e : E) → R e}

@[simp] theorem play_ret (a : α) (h : List (Call E R)) :
    (ret a : Prog E R α).play env h = (a, h) := rfl

@[simp] theorem play_call (e : E) (k : R e → Prog E R α) (h : List (Call E R)) :
    (call e k).play env h = (k (env h e)).play env (h ++ [⟨e, env h e⟩]) := rfl

@[simp] theorem play_op {E : Type u} {R : E → Type w} {env : List (Call E R) → (e : E) → R e}
    (e : E) (h : List (Call E R)) :
    (op e : Prog E R (R e)).play env h = (env h e, h ++ [⟨e, env h e⟩]) := rfl

theorem play_bind (p : Prog E R α) (f : α → Prog E R β) (h : List (Call E R)) :
    (p >>= f).play env h = (f (p.play env h).1).play env (p.play env h).2 := by
  induction p generalizing h with
  | ret a => rfl
  | call e k ih => exact ih (env h e) _

/-- Every call that a program makes is answered by the environment. -/
theorem play_answers {p : Prog E R α} {h : List (Call E R)} :
    ∀ c ∈ (p.play env h).2, c ∈ h ∨ ∃ h', c.2 = env h' c.1 := by
  induction p generalizing h with
  | ret a => exact fun c hc => .inl hc
  | call e k ih =>
    intro c hc
    rcases ih (env h e) c hc with hpast | hanswer
    · rw [List.mem_append, List.mem_singleton] at hpast
      rcases hpast with hpast | rfl
      · exact .inl hpast
      · exact .inr ⟨h, rfl⟩
    · exact .inr hanswer

end Play

/-! ## Other interfaces -/

section Subst

universe u' v'
variable {E : Type u} {R : E → Type w} {E' : Type u'} {R' : E' → Type v'} {α β : Type w}

/-- Run the program `f e` where `p` calls `e`. -/
def subst (f : ∀ e, Prog E' R' (R e)) : Prog E R α → Prog E' R' α
  | ret a => ret a
  | call e k => f e >>= fun r => subst f (k r)

variable {f : ∀ e, Prog E' R' (R e)}

@[simp] theorem subst_ret (a : α) : (ret a : Prog E R α).subst f = ret a := rfl

theorem subst_op (e : E) : (op e : Prog E R (R e)).subst f = f e := bind_ret _

theorem subst_bind (p : Prog E R α) (k : α → Prog E R β) :
    (p >>= k).subst f = p.subst f >>= fun a => (k a).subst f := by
  induction p with
  | ret a => rfl
  | call e k' ih =>
    calc ((call e k' >>= k).subst f)
        = f e >>= fun r => (k' r >>= k).subst f := rfl
      _ = f e >>= fun r => (k' r).subst f >>= fun a => (k a).subst f :=
        congrArg (f e >>= ·) (funext ih)
      _ = (f e >>= fun r => (k' r).subst f) >>= fun a => (k a).subst f :=
        (bind_assoc (f e) _ _).symm

end Subst

section Lift

universe u' v'
variable {E' : Type u'} {R' : E' → Type v'}

/-- Call `f e` where `p` calls `e`. -/
def lift (f : E → E') (g : ∀ e, R' (f e) → R e) : Prog E R α → Prog E' R' α
  | ret a => ret a
  | call e k => call (f e) fun r => lift f g (k (g e r))

variable {f : E → E'} {g : ∀ e, R' (f e) → R e}

theorem only_lift {C : E' → Prop} {p : Prog E R α} (hp : Only (fun e => C (f e)) p) :
    Only C (p.lift f g) := by
  induction p with
  | ret a => exact only_ret a
  | call e k ih =>
    rw [only_call] at hp
    exact only_call.2 ⟨hp.1, fun r => ih _ (hp.2 _)⟩

/-- **A lifted program runs as it does on its own part of the state.** -/
theorem run_lift {κ' σ' : Type*} {exec : κ → (e : E) → σ → Option (R e × σ)}
    {exec' : κ' → (e : E') → σ' → Option (R' e × σ')} {choice : κ' → κ} {part : σ' → σ}
    (hexec : ∀ c e s r s', exec' c (f e) s = some (r, s') →
      exec (choice c) e (part s) = some (g e r, part s'))
    {p : Prog E R α} {cs cs' : List κ'} {s s' : σ'} {a : α}
    (h : (p.lift f g).run exec' cs s = some (a, cs', s')) :
    p.run exec (cs.map choice) (part s) = some (a, cs'.map choice, part s') := by
  induction p generalizing cs s with
  | ret b =>
    obtain ⟨rfl, rfl, rfl⟩ := run_ret h
    rfl
  | call e k ih =>
    obtain ⟨c, ds, r, t, rfl, hcall, hrun⟩ := run_call h
    rw [List.map_cons, run, hexec c e s r t hcall]
    exact ih _ hrun

/-- **A lifted program follows its conditions on its own calls.** -/
theorem follows_lift {ok : List (Call E R) → E → Prop} {fin : List (Call E R) → α → Prop}
    {own : List (Call E' R') → List (Call E R)}
    (hown : ∀ h e r, own (⟨f e, r⟩ :: h) = ⟨e, g e r⟩ :: own h) {p : Prog E R α}
    {h : List (Call E' R')} (hp : p.Follows ok fin (own h)) :
    (p.lift f g).Follows (fun h e' => ∃ e, e' = f e ∧ ok (own h) e) (fun h a => fin (own h) a)
      h := by
  induction p generalizing h with
  | ret a => exact follows_ret.2 (follows_ret.1 hp)
  | call e k ih =>
    obtain ⟨hok, hk⟩ := follows_call.1 hp
    refine follows_call.2 ⟨⟨e, rfl, hok⟩, fun r => ih (g e r) ?_⟩
    rw [hown]
    exact hk (g e r)

end Lift

end Prog
