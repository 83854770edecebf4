import Mathlib.Data.List.Induction
import Mathlib.Tactic.Common

/-!
# Runs of a labelled step function

A system is a partial step function `step : S → A → Option S`; a run is the list of labels it
takes, and a label that is not enabled ends the run with `none`.

* `run` — the state a list of labels leads to.
* `Along` — a condition on every step of a run, read in the state before the step.
* `Visits` — a property of every state a run passes through (`visits_of_along`).
* `Sometime` — a condition that some step of a run meets.

`invariant` and `invariant_along` are the two induction rules: what one step preserves, a whole
run preserves, possibly under a condition on its steps; `invariant_history` is the same for what
relates the labels so far to the state. `visits_iff_along_within` and `visits_iff_along` are the
exact form, for a condition that a step meets if and only if it keeps the property.
`run_filter` follows a run without its hidden labels, and `run_countdown` one up to the point where
its own labels have used up a rank.
-/

namespace Lts

variable {S A : Type*} {step : S → A → Option S}

/-- The state that the labels `as` lead to from `s`, if all of them are enabled. -/
def run (step : S → A → Option S) : S → List A → Option S
  | s, [] => some s
  | s, a :: as => (step s a).bind fun s' => run step s' as

/-- Every step of the run of `as` from `s` meets `G` in the state before it. -/
def Along (step : S → A → Option S) (G : S → A → Prop) : S → List A → Prop
  | _, [] => True
  | s, a :: as => G s a ∧ ∀ s', step s a = some s' → Along step G s' as

/-- Every state on the run of `as` from `s`, the first and the last included, has `P`. -/
def Visits (step : S → A → Option S) (P : S → Prop) : S → List A → Prop
  | s, [] => P s
  | s, a :: as => P s ∧ ∀ s', step s a = some s' → Visits step P s' as

instance decidableAlong {G : S → A → Prop} [∀ s a, Decidable (G s a)] :
    ∀ s as, Decidable (Along step G s as)
  | _, [] => isTrue trivial
  | s, a :: as =>
    match h : step s a with
    | none =>
      decidable_of_iff (G s a) ⟨fun hG => ⟨hG, fun s' hs' => by rw [h] at hs'; cases hs'⟩, And.left⟩
    | some t =>
      have := decidableAlong (G := G) t as
      decidable_of_iff (G s a ∧ Along step G t as)
        ⟨fun hG => ⟨hG.1, fun s' hs' => by rw [h] at hs'; cases hs'; exact hG.2⟩,
          fun hG => ⟨hG.1, hG.2 t h⟩⟩

theorem Visits.first {P : S → Prop} {s : S} {as : List A} (h : Visits step P s as) : P s := by
  cases as with
  | nil => exact h
  | cons a as => exact h.1

theorem Visits.last {P : S → Prop} {s s' : S} {as : List A} (h : Visits step P s as)
    (hrun : run step s as = some s') : P s' := by
  induction as generalizing s with
  | nil =>
    cases hrun
    exact h
  | cons a as ih =>
    obtain ⟨t, ht, hrun⟩ := Option.bind_eq_some_iff.1 hrun
    exact ih (h.2 t ht) hrun

theorem run_cons (s : S) (a : A) (as : List A) :
    run step s (a :: as) = (step s a).bind fun s' => run step s' as := rfl

theorem run_cons_some {s s' : S} {a : A} {as : List A} (h : run step s (a :: as) = some s') :
    ∃ t, step s a = some t ∧ run step t as = some s' :=
  Option.bind_eq_some_iff.1 h

/-- **Invariants.** What holds at the start and is kept by every step holds after every run. -/
theorem invariant {I : S → Prop} (hstep : ∀ s a s', I s → step s a = some s' → I s')
    {s s' : S} {as : List A} (h₀ : I s) (h : run step s as = some s') : I s' := by
  induction as generalizing s with
  | nil => cases h; exact h₀
  | cons a as ih =>
    obtain ⟨t, ht, hrun⟩ := run_cons_some h
    exact ih (hstep s a t h₀ ht) hrun

/-- **Invariants under a condition.** A step need keep `I` only where it meets `G`, when every
step of the run does. -/
theorem invariant_along {I : S → Prop} {G : S → A → Prop}
    (hstep : ∀ s a s', I s → G s a → step s a = some s' → I s')
    {s s' : S} {as : List A} (h₀ : I s) (hG : Along step G s as)
    (h : run step s as = some s') : I s' := by
  induction as generalizing s with
  | nil => cases h; exact h₀
  | cons a as ih =>
    obtain ⟨t, ht, hrun⟩ := run_cons_some h
    exact ih (hstep s a t h₀ hG.1 ht) (hG.2 t ht) hrun

/-- Every state on the way keeps it as well, as far as the labels are enabled. -/
theorem visits_of_along {I : S → Prop} {G : S → A → Prop}
    (hstep : ∀ s a s', I s → G s a → step s a = some s' → I s')
    {s : S} {as : List A} (h₀ : I s) (hG : Along step G s as) : Visits step I s as := by
  induction as generalizing s with
  | nil => exact h₀
  | cons a as ih => exact ⟨h₀, fun t ht => ih (hstep s a t h₀ hG.1 ht) (hG.2 t ht)⟩

theorem Visits.mono {P Q : S → Prop} (hPQ : ∀ s, P s → Q s) {s : S} {as : List A}
    (h : Visits step P s as) : Visits step Q s as := by
  induction as generalizing s with
  | nil => exact hPQ s h
  | cons a as ih => exact ⟨hPQ s h.1, fun t ht => ih (h.2 t ht)⟩

/-- **Invariants under a property of the states.** A step need keep `I` only from states with `P`,
when the run visits only such. -/
theorem invariant_visits {I P : S → Prop}
    (hstep : ∀ s a s', I s → P s → step s a = some s' → I s')
    {s s' : S} {as : List A} (h₀ : I s) (hP : Visits step P s as)
    (h : run step s as = some s') : I s' := by
  induction as generalizing s with
  | nil => cases h; exact h₀
  | cons a as ih =>
    obtain ⟨t, ht, hrun⟩ := run_cons_some h
    exact ih (hstep s a t h₀ hP.1 ht) (hP.2 t ht) hrun

theorem run_append (s : S) (as bs : List A) :
    run step s (as ++ bs) = (run step s as).bind fun t => run step t bs := by
  induction as generalizing s with
  | nil => rfl
  | cons a as ih =>
    rw [List.cons_append, run_cons, run_cons]
    cases step s a with
    | none => rfl
    | some t => exact ih t

theorem run_concat_some {s s' : S} {as : List A} {a : A}
    (h : run step s (as ++ [a]) = some s') :
    ∃ t, run step s as = some t ∧ step t a = some s' := by
  rw [run_append] at h
  obtain ⟨t, ht, hrun⟩ := Option.bind_eq_some_iff.1 h
  obtain ⟨u, hu, hnil⟩ := run_cons_some hrun
  cases hnil
  exact ⟨t, ht, hu⟩

theorem run_concat {s t u : S} {as : List A} {a : A} (h : run step s as = some t)
    (ha : step t a = some u) : run step s (as ++ [a]) = some u := by
  rw [run_append, h]
  simp [run, ha]

theorem run_middle_some {s s' : S} {as bs : List A} {a : A}
    (h : run step s (as ++ a :: bs) = some s') :
    ∃ t u, run step s as = some t ∧ step t a = some u ∧ run step u bs = some s' := by
  rw [run_append] at h
  obtain ⟨t, ht, hrun⟩ := Option.bind_eq_some_iff.1 h
  obtain ⟨u, hu, hrun⟩ := run_cons_some hrun
  exact ⟨t, u, ht, hu, hrun⟩

/-- **Invariants with a history.** A relation between the labels so far and the state, kept when
one more step is taken, holds after every run. -/
theorem invariant_history {I : List A → S → Prop} {s₀ : S} (h₀ : I [] s₀)
    (hstep : ∀ as s a s', run step s₀ as = some s → I as s → step s a = some s' → I (as ++ [a]) s')
    {as : List A} {s : S} (h : run step s₀ as = some s) : I as s := by
  induction as using List.reverseRecOn generalizing s with
  | nil => cases h; exact h₀
  | append_singleton as a ih =>
    obtain ⟨t, ht, hta⟩ := run_concat_some h
    exact hstep as t a s ht (ih ht) hta

/-- **Hidden labels.** Let the right one of two related states follow the visible steps of the left
one, and let the hidden ones keep them related. Then it can follow a whole run by the visible labels
alone. -/
theorem run_filter {R : S → S → Prop} {visible : A → Bool}
    (hvisible : ∀ s t a s', R s t → visible a = true → step s a = some s' →
      ∃ t', step t a = some t' ∧ R s' t')
    (hhidden : ∀ s t a s', R s t → visible a = false → step s a = some s' → R s' t)
    {s t s' : S} {as : List A} (hR : R s t) (h : run step s as = some s') :
    ∃ t', run step t (as.filter visible) = some t' ∧ R s' t' := by
  induction as generalizing s t with
  | nil =>
    cases h
    exact ⟨t, rfl, hR⟩
  | cons a as ih =>
    obtain ⟨u, hu, hrun⟩ := run_cons_some h
    by_cases ha : visible a = true
    · obtain ⟨v, hv, huv⟩ := hvisible s t a u hR ha hu
      rw [List.filter_cons_of_pos ha, run_cons, hv]
      exact ih huv hrun
    · rw [List.filter_cons_of_neg ha]
      exact ih (hhidden s t a u hR (by simpa using ha) hu) hrun

/-- **Countdown.** Let every own label lower a rank by one, and the others leave it alone until it
is 0. A run with enough own labels then passes through a state of rank 0, after as many of them as
the rank was. -/
theorem run_countdown {I : S → Prop} {own : A → Bool} {rank : S → Nat}
    (hinv : ∀ s a s', I s → step s a = some s' → I s')
    (hown : ∀ s a s', I s → own a = true → step s a = some s' → rank s = rank s' + 1)
    (hother : ∀ s a s', I s → own a = false → rank s ≠ 0 → step s a = some s' → rank s' = rank s)
    {s s' : S} {as : List A} (hI : I s) (h : run step s as = some s')
    (hcount : rank s ≤ as.countP own) :
    ∃ as₁ as₂ t, as = as₁ ++ as₂ ∧ run step s as₁ = some t ∧ rank t = 0 ∧
      as₁.countP own = rank s := by
  induction as generalizing s with
  | nil =>
    have hzero : rank s = 0 := Nat.le_zero.1 hcount
    exact ⟨[], [], s, rfl, rfl, hzero, hzero.symm⟩
  | cons a as ih =>
    by_cases hzero : rank s = 0
    · exact ⟨[], a :: as, s, rfl, rfl, hzero, hzero.symm⟩
    · obtain ⟨u, hu, hrun⟩ := run_cons_some h
      have hrank : rank s = rank u + if own a then 1 else 0 := by
        cases ha : own a with
        | true => exact hown s a u hI ha hu
        | false => exact (hother s a u hI ha hzero hu).symm
      rw [List.countP_cons] at hcount
      obtain ⟨as₁, as₂, t, rfl, hrun₁, ht, hcount₁⟩ := ih (hinv s a u hI hu) hrun (by omega)
      refine ⟨a :: as₁, as₂, t, rfl, ?_, ht, ?_⟩
      · rw [run_cons, hu]
        exact hrun₁
      · rw [List.countP_cons]
        omega

/-- Some step of the run of `as` from `s` meets `P` in the state before it. -/
def Sometime (step : S → A → Option S) (P : S → A → Prop) (s : S) (as : List A) : Prop :=
  ∃ as₁ a as₂ t, as = as₁ ++ a :: as₂ ∧ run step s as₁ = some t ∧ P t a

theorem Sometime.snoc {P : S → A → Prop} {s : S} {as : List A} (h : Sometime step P s as) (b : A) :
    Sometime step P s (as ++ [b]) := by
  obtain ⟨as₁, a, as₂, t, rfl, ht, hP⟩ := h
  exact ⟨as₁, a, as₂ ++ [b], t, by simp, ht, hP⟩

theorem Sometime.mono {P Q : S → A → Prop} {s : S} {as : List A} (h : Sometime step P s as)
    (hPQ : ∀ t a, P t a → Q t a) : Sometime step Q s as := by
  obtain ⟨as₁, a, as₂, t, has, ht, hP⟩ := h
  exact ⟨as₁, a, as₂, t, has, ht, hPQ t a hP⟩

theorem sometime_last {P : S → A → Prop} {s t : S} {as : List A} {a : A}
    (h : run step s as = some t) (hP : P t a) : Sometime step P s (as ++ [a]) :=
  ⟨as, a, [], t, rfl, h, hP⟩

theorem not_sometime_of_along {P : S → A → Prop} {s : S} {as : List A}
    (h : Along step (fun s a => ¬ P s a) s as) : ¬ Sometime step P s as := by
  rintro ⟨as₁, a, as₂, t, rfl, ht, hP⟩
  induction as₁ generalizing s with
  | nil => cases ht; exact h.1 hP
  | cons b as₁ ih =>
    obtain ⟨u, hu, hrun⟩ := run_cons_some ht
    exact ih (h.2 u hu) hrun

theorem along_of_forall {G : A → Prop} {as : List A} (h : ∀ a ∈ as, G a) (s : S) :
    Along step (fun _ a => G a) s as := by
  induction as generalizing s with
  | nil => trivial
  | cons a as ih =>
    exact ⟨h a List.mem_cons_self, fun s' _ => ih (fun b hb => h b (List.mem_cons_of_mem _ hb)) s'⟩

/-- Conditions that agree on every step agree along a run. -/
theorem along_congr {G H : S → A → Prop}
    (hGH : ∀ s a s', step s a = some s' → (G s a ↔ H s a)) {s s' : S} {as : List A}
    (h : run step s as = some s') : Along step G s as ↔ Along step H s as := by
  induction as generalizing s with
  | nil => exact Iff.rfl
  | cons a as ih =>
    obtain ⟨t, ht, hrun⟩ := run_cons_some h
    refine and_congr (hGH s a t ht) (forall_congr' fun u => forall_congr' fun hu => ?_)
    cases ht.symm.trans hu
    exact ih hrun

theorem Along.mono {G H : S → A → Prop} (hGH : ∀ s a, G s a → H s a) {s : S} {as : List A}
    (h : Along step G s as) : Along step H s as := by
  induction as generalizing s with
  | nil => trivial
  | cons a as ih => exact ⟨hGH s a h.1, fun s' hs' => ih (h.2 s' hs')⟩

theorem Along.and {G H : S → A → Prop} {s : S} {as : List A} (hG : Along step G s as)
    (hH : Along step H s as) : Along step (fun s a => G s a ∧ H s a) s as := by
  induction as generalizing s with
  | nil => trivial
  | cons a as ih => exact ⟨⟨hG.1, hH.1⟩, fun s' hs' => ih (hG.2 s' hs') (hH.2 s' hs')⟩

/-- **The exact condition.** From a state with `I` and `P` let a step lead to one with `P` exactly
when it meets `G`, and then to one with `I` as well. A run stays within `P` exactly when all its
steps meet `G`. -/
theorem visits_iff_along_within {I P : S → Prop} {G : S → A → Prop}
    (hinv : ∀ s a s', I s → P s → step s a = some s' → P s' → I s')
    (hstep : ∀ s a s', I s → P s → step s a = some s' → (P s' ↔ G s a)) {s s' : S} {as : List A}
    (hI : I s) (h₀ : P s) (h : run step s as = some s') :
    Visits step P s as ↔ Along step G s as := by
  induction as generalizing s with
  | nil => exact ⟨fun _ => trivial, fun _ => h₀⟩
  | cons a as ih =>
    obtain ⟨t, ht, hrun⟩ := run_cons_some h
    have hGt := hstep s a t hI h₀ ht
    constructor
    · rintro ⟨-, hv⟩
      have htP : P t := (hv t ht).first
      refine ⟨hGt.1 htP, fun u hu => ?_⟩
      cases ht.symm.trans hu
      exact (ih (hinv s a t hI h₀ ht htP) htP hrun).1 (hv t ht)
    · rintro ⟨hg, ha⟩
      have htP : P t := hGt.2 hg
      refine ⟨h₀, fun u hu => ?_⟩
      cases ht.symm.trans hu
      exact (ih (hinv s a t hI h₀ ht htP) htP hrun).2 (ha t ht)

/-- The exact condition, where every step keeps `I`. -/
theorem visits_iff_along {I P : S → Prop} {G : S → A → Prop}
    (hinv : ∀ s a s', I s → step s a = some s' → I s')
    (hstep : ∀ s a s', I s → P s → step s a = some s' → (P s' ↔ G s a)) {s s' : S} {as : List A}
    (hI : I s) (h₀ : P s) (h : run step s as = some s') :
    Visits step P s as ↔ Along step G s as :=
  visits_iff_along_within (fun s a s' hs _ h _ => hinv s a s' hs h) hstep hI h₀ h

end Lts
