import QuickVps.Lib.Pool

/-!
# Two runs in step

Two programs are in step when they make corresponding calls as long as the answers correspond, and
end with corresponding results. `sync h e e' Q` says that the calls `e` and `e'` correspond after
the calls `h` of the first program, and that `Q` relates their answers.

* `Prog.InStep` — two programs in step; `InStep.bind`, `InStep.mono`, `InStep.lift`, and
  `inStep_of_only` for a program with itself;
* `Pool.InStep` — two pools in step, and **`Pool.inStep_run`**: from corresponding states, a run
  has a run of the same actions beside it, and the two pools are in step at the end.
-/

namespace Prog

universe u v w
variable {E : Type u} {R : E → Type v} {α β γ δ : Type w}

/-- When two calls correspond, and what their answers have in common. -/
abbrev Syncs (E : Type u) (R : E → Type v) :=
  List (Call E R) → (e e' : E) → (R e → R e' → Prop) → Prop

/-- After the calls `h` of the first of them, two programs are in step. -/
def InStep (sync : Syncs E R) (out : List (Call E R) → α → β → Prop) :
    List (Call E R) → Prog E R α → Prog E R β → Prop
  | h, ret a, ret b => out h a b
  | h, call e k, call e' k' =>
    ∃ Q, sync h e e' Q ∧ ∀ r r', Q r r' → InStep sync out (⟨e, r⟩ :: h) (k r) (k' r')
  | _, _, _ => False

section InStep

variable {sync : Syncs E R} {h : List (Call E R)}

theorem inStep_ret {out : List (Call E R) → α → β → Prop} {a : α} {b : β} :
    InStep sync out h (ret a) (ret b) ↔ out h a b := Iff.rfl

theorem inStep_call {out : List (Call E R) → α → β → Prop} {e e' : E} {k : R e → Prog E R α}
    {k' : R e' → Prog E R β} :
    InStep sync out h (call e k) (call e' k') ↔
      ∃ Q, sync h e e' Q ∧ ∀ r r', Q r r' → InStep sync out (⟨e, r⟩ :: h) (k r) (k' r') := Iff.rfl

theorem not_inStep_ret_call {out : List (Call E R) → α → β → Prop} {a : α} {e : E}
    {k : R e → Prog E R β} : ¬ InStep sync out h (ret a) (call e k) := id

theorem not_inStep_call_ret {out : List (Call E R) → α → β → Prop} {b : β} {e : E}
    {k : R e → Prog E R α} : ¬ InStep sync out h (call e k) (ret b) := id

/-- Two calls that correspond, and what follows. -/
theorem inStep_op {R : E → Type w} {sync : Syncs E R} {h : List (Call E R)}
    {out : List (Call E R) → α → β → Prop} {e e' : E} {Q : R e → R e' → Prop}
    (hsync : sync h e e' Q) {f : R e → Prog E R α} {f' : R e' → Prog E R β}
    (hf : ∀ r r', Q r r' → InStep sync out (⟨e, r⟩ :: h) (f r) (f' r')) :
    InStep sync out h (op e >>= f) (op e' >>= f') := ⟨Q, hsync, hf⟩

/-- A call that has the same answer in both. -/
theorem inStep_op_eq {R : E → Type w} {sync : Syncs E R} {h : List (Call E R)}
    {out : List (Call E R) → α → β → Prop} {e : E} (hsync : sync h e e Eq)
    {f : R e → Prog E R α} {f' : R e → Prog E R β}
    (hf : ∀ r, InStep sync out (⟨e, r⟩ :: h) (f r) (f' r)) :
    InStep sync out h (op e >>= f) (op e >>= f') :=
  inStep_op hsync fun r r' hr => by
    subst hr
    exact hf r

/-- **Sequencing.** -/
theorem InStep.bind {mid : List (Call E R) → α → β → Prop} {out : List (Call E R) → γ → δ → Prop}
    {p : Prog E R α} {p' : Prog E R β} {f : α → Prog E R γ} {f' : β → Prog E R δ}
    (hp : InStep sync mid h p p')
    (hf : ∀ h a b, mid h a b → InStep sync out h (f a) (f' b)) :
    InStep sync out h (p >>= f) (p' >>= f') := by
  induction p generalizing h p' with
  | ret a =>
    cases p' with
    | ret b => exact hf h a b hp
    | call e' k' => exact hp.elim
  | call e k ih =>
    cases p' with
    | ret b => exact hp.elim
    | call e' k' =>
      obtain ⟨Q, hsync, hk⟩ := hp
      exact ⟨Q, hsync, fun r r' hr => ih r (hk r r' hr)⟩

/-- Sequencing after equal results. -/
theorem InStep.bind_eq {out : List (Call E R) → γ → δ → Prop} {p p' : Prog E R α}
    {f : α → Prog E R γ} {f' : α → Prog E R δ} (hp : InStep sync (fun _ => Eq) h p p')
    (hf : ∀ h a, InStep sync out h (f a) (f' a)) : InStep sync out h (p >>= f) (p' >>= f') :=
  hp.bind fun h a b hab => by
    subst hab
    exact hf h a

/-- **Consequence.** -/
theorem InStep.mono {out out' : List (Call E R) → α → β → Prop} {p : Prog E R α} {p' : Prog E R β}
    (hp : InStep sync out h p p') (hout : ∀ h a b, out h a b → out' h a b) :
    InStep sync out' h p p' := by
  have hbind : InStep sync out' h (p >>= ret) (p' >>= ret) :=
    hp.bind fun h a b hab => inStep_ret.2 (hout h a b hab)
  rwa [bind_ret, bind_ret] at hbind

/-- A program whose calls correspond to themselves is in step with itself, and keeps what its calls
keep of the calls so far. -/
theorem inStep_of_only {C : E → Prop} {I : List (Call E R) → Prop}
    (hsync : ∀ h e, C e → I h → sync h e e Eq)
    (hI : ∀ h e r, C e → I h → I (⟨e, r⟩ :: h)) {p : Prog E R α} (hp : Only C p) (hh : I h) :
    InStep sync (fun h a b => a = b ∧ I h) h p p := by
  induction p generalizing h with
  | ret a => exact ⟨rfl, hh⟩
  | call e k ih =>
    rw [only_call] at hp
    refine ⟨Eq, hsync h e hp.1 hh, fun r r' hr => ?_⟩
    subst hr
    exact ih r (hp.2 r) (hI h e r hp.1 hh)

universe u' v'
variable {E' : Type u'} {R' : E' → Type v'}

/-- Two programs over a larger interface: `calls` picks the calls of the smaller one. -/
theorem InStep.lift {f : E → E'} {g : ∀ e, R' (f e) → R e} {sync' : Syncs E' R'}
    {calls : List (Call E' R') → List (Call E R)}
    (hcalls : ∀ h e r, calls (⟨f e, r⟩ :: h) = ⟨e, g e r⟩ :: calls h)
    (hsync : ∀ h e e' Q, sync (calls h) e e' Q →
      sync' h (f e) (f e') fun r r' => Q (g e r) (g e' r'))
    {out : List (Call E R) → α → β → Prop} {p : Prog E R α} {p' : Prog E R β}
    {h : List (Call E' R')} (hp : InStep sync out (calls h) p p') :
    InStep sync' (fun h => out (calls h)) h (p.lift f g) (p'.lift f g) := by
  induction p generalizing h p' with
  | ret a =>
    cases p' with
    | ret b => exact hp
    | call e' k' => exact hp.elim
  | call e k ih =>
    cases p' with
    | ret b => exact hp.elim
    | call e' k' =>
      obtain ⟨Q, hQ, hk⟩ := hp
      refine ⟨_, hsync h e e' Q hQ, fun r r' hr => ih _ ?_⟩
      rw [hcalls]
      exact hk _ _ hr

end InStep

attribute [irreducible] InStep

end Prog

namespace Pool

variable {E : Type*} {R : E → Type*} {ι O σ κ : Type*}

/-- The results of a log with the programs that returned them, the newest first. -/
def results (log : List (Event ι E R O)) : List (Nat × O) :=
  log.filterMap fun
    | .returned i out => some (i, out)
    | _ => none

/-- The shared states correspond, so do the rests of the programs one by one, and the same results
were returned. -/
structure InStep (sync : Prog.Syncs E R) (rel : σ → σ → Prop) (w w' : State σ ι E R O) : Prop where
  shared : rel w.shared w'.shared
  length : w'.threads.length = w.threads.length
  threads : ∀ i (t t' : Thread ι E R O), w.threads[i]? = some t → w'.threads[i]? = some t' →
    t.prog.InStep sync (fun _ => Eq) (hist i w.log) t'.prog
  results : results w'.log = results w.log
  fresh : ∀ ev ∈ w.log, ev.thread < w.threads.length

section InStep

variable {sync : Prog.Syncs E R} {rel : σ → σ → Prop}

theorem inStep_start {s s' : σ} (h : rel s s') :
    InStep sync rel (start s : State σ ι E R O) (start s') where
  shared := h
  length := rfl
  threads := by simp [start]
  results := rfl
  fresh := by simp [start]

/-- Two programs in step return at the same time. -/
theorem results_settle {h : List (Prog.Call E R)} {p p' : Prog E R O}
    {log log' : List (Event ι E R O)} {i : Nat} (hp : p.InStep sync (fun _ => Eq) h p')
    (hlog : results log' = results log) :
    results (settle i p' log') = results (settle i p log) := by
  cases p with
  | ret a =>
    cases p' with
    | ret b =>
      obtain rfl : a = b := Prog.inStep_ret.1 hp
      exact congrArg ((i, a) :: ·) hlog
    | call e' k' => exact absurd hp Prog.not_inStep_ret_call
  | call e k =>
    cases p' with
    | ret b => exact absurd hp Prog.not_inStep_call_ret
    | call e' k' => exact hlog

variable {program : ι → Prog E R O} {exec : κ → (e : E) → σ → Option (R e × σ)}
  {ok : List (Prog.Call E R) → κ → E → Prop}

theorem inStep_invoke (hprog : ∀ op, (program op).InStep sync (fun _ => Eq) [] (program op))
    {w w' : State σ ι E R O} {op : ι} (hw : InStep sync rel w w') {v v' : State σ ι E R O}
    (hv : next program exec w (.invoke op) = some v)
    (hv' : next program exec w' (.invoke op) = some v') : InStep sync rel v v' := by
  cases hv
  cases hv'
  have hhist : hist w.threads.length w.log = [] :=
    hist_eq_nil fun ev hev => Nat.ne_of_lt (hw.fresh ev hev)
  refine ⟨hw.shared, ?_, ?_, ?_, ?_⟩
  · simp [hw.length]
  · intro i t t' ht ht'
    rw [hist_settle, hist_invoked]
    rcases lookup_append ht with ⟨ht, hlt⟩ | ⟨rfl, rfl⟩
    · rcases lookup_append ht' with ⟨ht', -⟩ | ⟨rfl, -⟩
      · exact hw.threads i t t' ht ht'
      · exact absurd hlt (by simp [hw.length])
    · rcases lookup_append ht' with ⟨-, hlt⟩ | ⟨-, rfl⟩
      · exact absurd hlt (by simp [hw.length])
      · rw [hhist]
        exact hprog op
  · rw [hw.length]
    exact results_settle (hprog op) hw.results
  · rw [List.length_append, List.length_singleton]
    refine fresh_settle (Nat.lt_succ_self _) (List.forall_mem_cons.2 ⟨Nat.lt_succ_self _, ?_⟩)
    exact fun ev hev => Nat.lt_succ_of_lt (hw.fresh ev hev)

/-- What the calls of a step keep in common. -/
def ExecInStep (sync : Prog.Syncs E R) (rel : σ → σ → Prop)
    (exec : κ → (e : E) → σ → Option (R e × σ)) (ok : List (Prog.Call E R) → κ → E → Prop) : Prop :=
  ∀ h c e e' Q s s' r t, sync h e e' Q → rel s s' → ok h c e → exec c e s = some (r, t) →
    ∃ r' t', exec c e' s' = some (r', t') ∧ Q r r' ∧ rel t t'

theorem inStep_step (hexec : ExecInStep sync rel exec ok) {w w' v : State σ ι E R O} {i : Nat}
    {c : κ} (hw : InStep sync rel w w')
    (hok : OnCall (fun i c e => ok (hist i w.log) c e) w (.step i c))
    (hv : next program exec w (.step i c) = some v) :
    ∃ v', next program exec w' (.step i c) = some v' ∧ InStep sync rel v v' := by
  obtain ⟨op, e, k, r, sh, hi, hcall, rfl⟩ := next_step hv
  have hlt : i < w.threads.length := (List.getElem?_eq_some_iff.1 hi).1
  have hlt' : i < w'.threads.length := by rwa [hw.length]
  obtain ⟨⟨op', p'⟩, hi'⟩ : ∃ t', w'.threads[i]? = some t' := ⟨_, List.getElem?_eq_getElem hlt'⟩
  have hstep := hw.threads i _ _ hi hi'
  cases p' with
  | ret b => exact absurd hstep Prog.not_inStep_call_ret
  | call e' k' =>
    obtain ⟨Q, hsync, hk⟩ := Prog.inStep_call.1 hstep
    obtain ⟨r', sh', hcall', hr, hsh⟩ :=
      hexec _ c e e' Q _ _ r sh hsync hw.shared (hok.call hi) hcall
    refine ⟨_, by rw [next, hi']; exact congrArg (Option.map _) hcall', ?_⟩
    refine ⟨hsh, ?_, ?_, ?_, ?_⟩
    · simp [hw.length]
    · intro j t t' ht ht'
      rw [hist_settle]
      by_cases hj : i = j
      · subst hj
        rw [List.getElem?_set_self hlt] at ht
        rw [List.getElem?_set_self hlt'] at ht'
        cases ht
        cases ht'
        rw [hist_did_self]
        exact hk r r' hr
      · rw [List.getElem?_set_ne hj] at ht ht'
        rw [hist_did_of_ne hj]
        exact hw.threads j t t' ht ht'
    · exact results_settle (hk r r' hr) hw.results
    · rw [List.length_set]
      exact fresh_settle hlt (List.forall_mem_cons.2 ⟨hlt, hw.fresh⟩)

/-- **Two runs in step.** Let every program be in step with itself. Then a run whose calls are `ok`
has a run of the same actions beside it from every corresponding state. -/
theorem inStep_run (hprog : ∀ op, (program op).InStep sync (fun _ => Eq) [] (program op))
    (hexec : ExecInStep sync rel exec ok) {w w' v : State σ ι E R O} {as : List (Act ι κ)}
    (hw : InStep sync rel w w')
    (hok : Lts.Along (next program exec)
      (fun w => OnCall (fun i c e => ok (hist i w.log) c e) w) w as)
    (h : Lts.run (next program exec) w as = some v) :
    ∃ v', Lts.run (next program exec) w' as = some v' ∧ InStep sync rel v v' := by
  induction as generalizing w w' with
  | nil =>
    cases h
    exact ⟨w', rfl, hw⟩
  | cons a as ih =>
    obtain ⟨u, hu, hrun⟩ := Lts.run_cons_some h
    obtain ⟨u', hu', hstep⟩ : ∃ u', next program exec w' a = some u' ∧ InStep sync rel u u' := by
      cases a with
      | invoke op => exact ⟨_, rfl, inStep_invoke hprog hw hu rfl⟩
      | step i c => exact inStep_step hexec hw hok.1 hu
    obtain ⟨v', hv', hend⟩ := ih hstep (hok.2 u hu) hrun
    exact ⟨v', by rw [Lts.run_cons, hu']; exact hv', hend⟩

end InStep

end Pool
