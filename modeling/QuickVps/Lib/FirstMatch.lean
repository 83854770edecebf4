import Mathlib.Data.List.Basic
import Mathlib.Tactic.Common

/-!
# Ordered rules

A list of rules that is read from the front: the first rule that applies decides, and when none
applies, a default does.

* `decision` — what the list decides; `Undecided` — no rule applies.
* `Shadowed` — the first rule that applies denies, and a later one that applies would accept.
* `accepted_iff_decision_iff` — when the order and the default do not matter: whether some rule that
  applies accepts is the decision, but for shadowed rules and for defaults that accept.
-/

namespace FirstMatch

variable {ρ : Type*} (applies accepts : ρ → Bool) (default : Bool)

def decision (rules : List ρ) : Bool :=
  match rules.find? applies with
  | some r => accepts r
  | none => default

/-- Some rule that applies accepts, in whatever place. -/
def Accepted (rules : List ρ) : Prop := ∃ r ∈ rules, applies r = true ∧ accepts r = true

/-- The first rule that applies denies, and a later one that applies would accept. -/
def Shadowed (rules : List ρ) : Prop :=
  ∃ r, rules.find? applies = some r ∧ accepts r = false ∧ Accepted applies accepts rules

/-- No rule applies. -/
def Undecided (rules : List ρ) : Prop := rules.find? applies = none

variable {applies accepts default} {r : ρ} {rules : List ρ}

theorem decision_of_first (h : rules.find? applies = some r) :
    decision applies accepts default rules = accepts r := by
  rw [decision, h]

theorem decision_of_undecided (h : Undecided applies rules) :
    decision applies accepts default rules = default := by
  rw [decision, h]

theorem not_accepted_of_undecided (h : Undecided applies rules) :
    ¬ Accepted applies accepts rules := by
  rintro ⟨r, hr, happlies, -⟩
  exact List.find?_eq_none.1 h r hr happlies

/-- A decision that accepts comes from a rule, or from the default. -/
theorem accepted_of_decision (h : decision applies accepts default rules = true) :
    Accepted applies accepts rules ∨ Undecided applies rules ∧ default = true := by
  cases hfirst : rules.find? applies with
  | none =>
    rw [decision_of_undecided hfirst] at h
    exact .inr ⟨hfirst, h⟩
  | some r =>
    refine .inl ⟨r, List.mem_of_find?_eq_some hfirst, List.find?_some hfirst, ?_⟩
    rwa [decision_of_first hfirst] at h

/-- A rule that accepts decides, unless it is shadowed. -/
theorem decision_of_accepted (h : Accepted applies accepts rules)
    (hshadowed : ¬ Shadowed applies accepts rules) :
    decision applies accepts default rules = true := by
  cases hfirst : rules.find? applies with
  | none => exact absurd h (not_accepted_of_undecided hfirst)
  | some r =>
    rw [decision_of_first hfirst]
    by_contra hdenies
    exact hshadowed ⟨r, hfirst, by simpa using hdenies, h⟩

/-- **When the order and the default do not matter.** `extra` is what else is taken for an
acceptance. -/
theorem accepted_iff_decision_iff {extra : Prop} :
    (extra ∨ Accepted applies accepts rules ↔ decision applies accepts default rules = true) ↔
      ¬ Shadowed applies accepts rules ∧
        (extra → decision applies accepts default rules = true) ∧
        (Undecided applies rules → default = true → extra) := by
  constructor
  · intro h
    refine ⟨?_, fun hextra => h.1 (.inl hextra), fun hnone hdefault => ?_⟩
    · rintro ⟨r, hfirst, hdenies, haccepted⟩
      have hdecision := h.1 (.inr haccepted)
      rw [decision_of_first hfirst, hdenies] at hdecision
      cases hdecision
    · rw [decision_of_undecided hnone] at h
      exact (h.2 hdefault).resolve_right (not_accepted_of_undecided hnone)
  · rintro ⟨hshadowed, hextra, hdefault⟩
    constructor
    · rintro (h | haccepted)
      · exact hextra h
      · exact decision_of_accepted haccepted hshadowed
    · intro hdecision
      rcases accepted_of_decision hdecision with haccepted | ⟨hnone, haccepts⟩
      · exact .inr haccepted
      · exact .inl (hdefault hnone haccepts)

end FirstMatch
