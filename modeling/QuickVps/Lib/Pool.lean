import QuickVps.Lib.Lts
import QuickVps.Lib.Prog

/-!
# Interleaved programs

Any number of programs share one state. An action starts another program or lets one program make
its next call, and the log records what was started, called and returned, the newest first.

* `next` — one action; `next_step` says what a step of a program does.
* `Conforms` — a log of programs that follow their conditions, and `conforms_run`, that every
  reachable log is one.
* `Conforms.did`, `Conforms.returned`, `Conforms.did_since`, `Conforms.invoked_unique` — what a log
  says about a call, a result and the operation behind them.
* `prompt_run` — a result comes right after the last event of its program.
* `traced_run` — every call was made in a state that was reached with the log before it.
* `split_last` — the log around the last call of a program.
* `remembers_next` — what the last call of a program has found still holds, unless another call has
  overtaken it.
-/

namespace Pool

variable {E : Type*} {R : E → Type*} {ι O σ κ : Type*}

/-- `i` is the number of the program. -/
inductive Event (ι : Type*) (E : Type*) (R : E → Type*) (O : Type*)
  | invoked (i : Nat) (op : ι)
  | did (i : Nat) (e : E) (r : R e)
  | returned (i : Nat) (out : O)

def Event.thread : Event ι E R O → Nat
  | invoked i _ => i
  | did i _ _ => i
  | returned i _ => i

/-- A started operation and the rest of its program. -/
structure Thread (ι : Type*) (E : Type*) (R : E → Type*) (O : Type*) where
  op : ι
  prog : Prog E R O

/-- The program has ended. -/
def Thread.returned (t : Thread ι E R O) : Bool :=
  match t.prog with
  | .ret _ => true
  | .call _ _ => false

structure State (σ ι : Type*) (E : Type*) (R : E → Type*) (O : Type*) where
  shared : σ
  threads : List (Thread ι E R O)
  log : List (Event ι E R O)

inductive Act (ι κ : Type*)
  | invoke (op : ι)
  | step (i : Nat) (c : κ)

def start (s : σ) : State σ ι E R O := ⟨s, [], []⟩

/-- A program that has ended returns at once. -/
def settle (i : Nat) (p : Prog E R O) (log : List (Event ι E R O)) : List (Event ι E R O) :=
  match p with
  | .ret out => .returned i out :: log
  | .call _ _ => log

section Next

variable (program : ι → Prog E R O) (exec : κ → (e : E) → σ → Option (R e × σ))

def next (w : State σ ι E R O) : Act ι κ → Option (State σ ι E R O)
  | .invoke op =>
    some
      { w with
        threads := w.threads ++ [⟨op, program op⟩]
        log := settle w.threads.length (program op) (.invoked w.threads.length op :: w.log) }
  | .step i c =>
    match w.threads[i]? with
    | some ⟨op, .call e k⟩ =>
      (exec c e w.shared).map fun rs =>
        { shared := rs.2
          threads := w.threads.set i ⟨op, k rs.1⟩
          log := settle i (k rs.1) (.did i e rs.1 :: w.log) }
    | _ => none

variable {program exec}

theorem next_step {w w' : State σ ι E R O} {i : Nat} {c : κ}
    (h : next program exec w (.step i c) = some w') :
    ∃ op e k r sh, w.threads[i]? = some ⟨op, .call e k⟩ ∧ exec c e w.shared = some (r, sh) ∧
      w' = { shared := sh
             threads := w.threads.set i ⟨op, k r⟩
             log := settle i (k r) (.did i e r :: w.log) } := by
  simp only [next] at h
  split at h
  next op e k hi =>
    obtain ⟨⟨r, sh⟩, hexec, rfl⟩ := Option.map_eq_some_iff.1 h
    exact ⟨op, e, k, r, sh, hi, hexec, rfl⟩
  next => cases h

end Next

/-- The call that program `i` is about to make. -/
def nextCall (w : State σ ι E R O) (i : Nat) : Option E :=
  match w.threads[i]? with
  | some ⟨_, .call e _⟩ => some e
  | _ => none

/-- The call that a step is about to make, if any, has `P`. -/
def OnCall (P : Nat → κ → E → Prop) (w : State σ ι E R O) : Act ι κ → Prop
  | .invoke _ => True
  | .step i c => ∀ e ∈ nextCall w i, P i c e

instance decidableOnCall {P : Nat → κ → E → Prop} [∀ i c e, Decidable (P i c e)]
    (w : State σ ι E R O) : ∀ a, Decidable (OnCall P w a)
  | .invoke _ => isTrue trivial
  | .step i c => inferInstanceAs (Decidable (∀ e ∈ nextCall w i, P i c e))

theorem OnCall.call {P : Nat → κ → E → Prop} {w : State σ ι E R O} {i : Nat} {c : κ} {op : ι}
    {e : E} {k : R e → Prog E R O} (h : OnCall P w (.step i c))
    (hi : w.threads[i]? = some ⟨op, .call e k⟩) : P i c e :=
  h e (by simp [nextCall, hi])

theorem lookup_append {α : Type*} {l : List α} {x y : α} {i : Nat} (h : (l ++ [x])[i]? = some y) :
    l[i]? = some y ∧ i < l.length ∨ i = l.length ∧ y = x := by
  rcases Nat.lt_trichotomy i l.length with hlt | rfl | hlt
  · exact .inl ⟨by rwa [List.getElem?_append_left hlt] at h, hlt⟩
  · exact .inr ⟨rfl, by simpa using h.symm⟩
  · rw [List.getElem?_eq_none (by simp; omega)] at h
    cases h

/-! ## Logs -/

/-- The calls of program `i`, the newest first. -/
def hist (i : Nat) (log : List (Event ι E R O)) : List (Prog.Call E R) :=
  log.filterMap fun
    | .did j e r => if j = i then some ⟨e, r⟩ else none
    | _ => none

@[simp] theorem hist_invoked (i j : Nat) (op : ι) (log : List (Event ι E R O)) :
    hist i (.invoked j op :: log) = hist i log := rfl

@[simp] theorem hist_did_self (i : Nat) (e : E) (r : R e) (log : List (Event ι E R O)) :
    hist i (.did i e r :: log) = ⟨e, r⟩ :: hist i log := by
  simp [hist]

theorem hist_did_of_ne {i j : Nat} (h : j ≠ i) (e : E) (r : R e) (log : List (Event ι E R O)) :
    hist i (.did j e r :: log) = hist i log := by
  simp [hist, h]

@[simp] theorem hist_settle (i j : Nat) (p : Prog E R O) (log : List (Event ι E R O)) :
    hist i (settle j p log) = hist i log := by
  cases p <;> rfl

theorem mem_hist {i : Nat} {e : E} {r : R e} {log : List (Event ι E R O)} :
    (⟨e, r⟩ : Prog.Call E R) ∈ hist i log ↔ .did i e r ∈ log := by
  simp only [hist, List.mem_filterMap]
  constructor
  · rintro ⟨ev, hev, hcall⟩
    cases ev with
    | did j e' r' =>
      simp only at hcall
      split_ifs at hcall with hj
      cases hcall
      exact hj ▸ hev
    | invoked => cases hcall
    | returned => cases hcall
  · exact fun h => ⟨_, h, by simp⟩

theorem hist_eq_nil {i : Nat} {log : List (Event ι E R O)} (h : ∀ ev ∈ log, ev.thread ≠ i) :
    hist i log = [] := by
  refine List.filterMap_eq_nil_iff.2 fun ev hev => ?_
  cases ev with
  | did j e r =>
    have hj : j ≠ i := h _ hev
    simp [hj]
  | invoked => rfl
  | returned => rfl

theorem mem_settle {i : Nat} {p : Prog E R O} {ev : Event ι E R O} {log : List (Event ι E R O)}
    (h : ev ∈ log) : ev ∈ settle i p log := by
  cases p with
  | ret out => exact List.mem_cons_of_mem _ h
  | call e k => exact h

/-! ## Logs of programs that follow their conditions -/

section Conforms

variable (ok : ι → List (Prog.Call E R) → E → Prop) (fin : ι → List (Prog.Call E R) → O → Prop)

/-- Every started program is new, every call and every result meets the conditions of its
operation on the calls before it. -/
def Conforms : List (Event ι E R O) → Prop
  | [] => True
  | .invoked i _ :: log => (∀ ev ∈ log, ev.thread ≠ i) ∧ Conforms log
  | .did i e _ :: log => (∃ op, .invoked i op ∈ log ∧ ok op (hist i log) e) ∧ Conforms log
  | .returned i out :: log => (∃ op, .invoked i op ∈ log ∧ fin op (hist i log) out) ∧ Conforms log

/-- The log conforms, and what is left of every program follows its conditions. -/
structure Good (w : State σ ι E R O) : Prop where
  log : Conforms ok fin w.log
  invoked : ∀ i (t : Thread ι E R O), w.threads[i]? = some t → .invoked i t.op ∈ w.log
  follows : ∀ i (t : Thread ι E R O), w.threads[i]? = some t →
    t.prog.Follows (ok t.op) (fin t.op) (hist i w.log)
  fresh : ∀ ev ∈ w.log, ev.thread < w.threads.length

variable {ok fin}

theorem good_start (s : σ) : Good ok fin (start s : State σ ι E R O) where
  log := trivial
  invoked := by simp [start]
  follows := by simp [start]
  fresh := by simp [start]

theorem conforms_settle {i : Nat} (op : ι) {p : Prog E R O} {log : List (Event ι E R O)}
    (hlog : Conforms ok fin log) (hop : .invoked i op ∈ log)
    (hp : p.Follows (ok op) (fin op) (hist i log)) : Conforms ok fin (settle i p log) := by
  cases p with
  | ret out => exact ⟨⟨op, hop, Prog.follows_ret.1 hp⟩, hlog⟩
  | call e k => exact hlog

theorem fresh_settle {i n : Nat} {p : Prog E R O} {log : List (Event ι E R O)} (hi : i < n)
    (h : ∀ ev ∈ log, ev.thread < n) : ∀ ev ∈ settle i p log, ev.thread < n := by
  cases p with
  | ret out => exact List.forall_mem_cons.2 ⟨hi, h⟩
  | call e k => exact h

variable {program : ι → Prog E R O} {exec : κ → (e : E) → σ → Option (R e × σ)}

theorem good_invoke (hprog : ∀ op, (program op).Follows (ok op) (fin op) [])
    {w w' : State σ ι E R O} {op : ι} (hw : Good ok fin w)
    (h : next program exec w (.invoke op) = some w') : Good ok fin w' := by
  cases h
  have hnew : ∀ ev ∈ w.log, ev.thread ≠ w.threads.length := fun ev hev =>
    Nat.ne_of_lt (hw.fresh ev hev)
  have hhist : hist w.threads.length w.log = [] := hist_eq_nil hnew
  refine ⟨conforms_settle op ⟨hnew, hw.log⟩ List.mem_cons_self ?_, ?_, ?_, ?_⟩
  · rw [hist_invoked, hhist]
    exact hprog op
  · intro i t ht
    refine mem_settle ?_
    rcases lookup_append ht with ⟨ht, -⟩ | ⟨rfl, rfl⟩
    · exact List.mem_cons_of_mem _ (hw.invoked i t ht)
    · exact List.mem_cons_self
  · intro i t ht
    rw [hist_settle, hist_invoked]
    rcases lookup_append ht with ⟨ht, -⟩ | ⟨rfl, rfl⟩
    · exact hw.follows i t ht
    · rw [hhist]
      exact hprog op
  · rw [List.length_append, List.length_singleton]
    refine fresh_settle (Nat.lt_succ_self _) (List.forall_mem_cons.2 ⟨Nat.lt_succ_self _, ?_⟩)
    exact fun ev hev => Nat.lt_succ_of_lt (hw.fresh ev hev)

theorem good_step {w w' : State σ ι E R O} {i : Nat} {c : κ} (hw : Good ok fin w)
    (h : next program exec w (.step i c) = some w') : Good ok fin w' := by
  obtain ⟨op, e, k, r, sh, hi, -, rfl⟩ := next_step h
  obtain ⟨hok, hk⟩ := Prog.follows_call.1 (hw.follows i _ hi)
  have hop := hw.invoked i _ hi
  have hlt : i < w.threads.length := (List.getElem?_eq_some_iff.1 hi).1
  refine ⟨conforms_settle op ⟨⟨op, hop, hok⟩, hw.log⟩ (List.mem_cons_of_mem _ hop) ?_,
    ?_, ?_, ?_⟩
  · rw [hist_did_self]
    exact hk r
  · intro j t ht
    refine mem_settle (List.mem_cons_of_mem _ ?_)
    by_cases hj : i = j
    · subst hj
      rw [List.getElem?_set_self hlt] at ht
      cases ht
      exact hop
    · rw [List.getElem?_set_ne hj] at ht
      exact hw.invoked j t ht
  · intro j t ht
    rw [hist_settle]
    by_cases hj : i = j
    · subst hj
      rw [List.getElem?_set_self hlt] at ht
      cases ht
      rw [hist_did_self]
      exact hk r
    · rw [List.getElem?_set_ne hj] at ht
      rw [hist_did_of_ne hj]
      exact hw.follows j t ht
  · rw [List.length_set]
    exact fresh_settle hlt (List.forall_mem_cons.2 ⟨hlt, hw.fresh⟩)

theorem good_next (hprog : ∀ op, (program op).Follows (ok op) (fin op) [])
    {w w' : State σ ι E R O} {a : Act ι κ} (hw : Good ok fin w)
    (h : next program exec w a = some w') : Good ok fin w' := by
  cases a with
  | invoke op => exact good_invoke hprog hw h
  | step i c => exact good_step hw h

/-- **Every log conforms**, when every program follows its conditions. -/
theorem conforms_run (hprog : ∀ op, (program op).Follows (ok op) (fin op) []) {s : σ}
    {as : List (Act ι κ)} {w : State σ ι E R O}
    (h : Lts.run (next program exec) (start s) as = some w) : Conforms ok fin w.log :=
  (Lts.invariant (I := Good ok fin) (fun _ _ _ hw => good_next hprog hw) (good_start s) h).log

/-! ### Reading a log that conforms -/

theorem Conforms.append (since : List (Event ι E R O)) {log : List (Event ι E R O)}
    (h : Conforms ok fin (since ++ log)) : Conforms ok fin log := by
  induction since with
  | nil => exact h
  | cons ev since ih => cases ev <;> exact ih h.2

/-- A call was made by a started program and meets its conditions. -/
theorem Conforms.did {since before : List (Event ι E R O)} {i : Nat} {e : E} {r : R e}
    (h : Conforms ok fin (since ++ .did i e r :: before)) :
    ∃ op, .invoked i op ∈ before ∧ ok op (hist i before) e :=
  (h.append since).1

/-- A result was returned by a started program and meets its conditions. -/
theorem Conforms.returned {since before : List (Event ι E R O)} {i : Nat} {out : O}
    (h : Conforms ok fin (since ++ .returned i out :: before)) :
    ∃ op, .invoked i op ∈ before ∧ fin op (hist i before) out :=
  (h.append since).1

/-- A program is started once, and does nothing before. -/
theorem Conforms.invoked {since before : List (Event ι E R O)} {i : Nat} {op : ι}
    (h : Conforms ok fin (since ++ .invoked i op :: before)) : ∀ ev ∈ before, ev.thread ≠ i :=
  (h.append since).1

/-- What a program calls comes after its start. -/
theorem Conforms.did_since {since before : List (Event ι E R O)} {i : Nat} {op : ι} {e : E}
    {r : R e} (h : Conforms ok fin (since ++ .invoked i op :: before))
    (hd : .did i e r ∈ since ++ .invoked i op :: before) : .did i e r ∈ since := by
  rcases List.mem_append.1 hd with hd | hd
  · exact hd
  · rcases List.mem_cons.1 hd with heq | hd
    · cases heq
    · exact absurd rfl (h.invoked _ hd)

theorem Conforms.invoked_unique {log : List (Event ι E R O)} {i : Nat} {op op' : ι}
    (h : Conforms ok fin log) (hop : .invoked i op ∈ log) (hop' : .invoked i op' ∈ log) :
    op = op' := by
  induction log with
  | nil => cases hop
  | cons ev log ih =>
    rcases List.mem_cons.1 hop with rfl | hmem <;> rcases List.mem_cons.1 hop' with heq | hmem'
    · cases heq
      rfl
    · exact absurd rfl (h.1 _ hmem')
    · subst heq
      exact absurd rfl (h.1 _ hmem)
    · cases ev <;> exact ih h.2 hmem hmem'

/-- The operation that a program was started with. -/
def opOf (i : Nat) : List (Event ι E R O) → Option ι
  | [] => none
  | .invoked j op :: log => if j = i then some op else opOf i log
  | _ :: log => opOf i log

theorem Conforms.opOf_eq {log : List (Event ι E R O)} {i : Nat} {op : ι}
    (h : Conforms ok fin log) (hop : .invoked i op ∈ log) : opOf i log = some op := by
  induction log with
  | nil => cases hop
  | cons ev log ih =>
    rcases List.mem_cons.1 hop with rfl | hmem
    · exact if_pos rfl
    · cases ev with
      | invoked j op' =>
        have hne : j ≠ i := fun heq => h.1 _ hmem heq.symm
        exact (if_neg hne).trans (ih h.2 hmem)
      | did => exact ih h.2 hmem
      | returned => exact ih h.2 hmem

end Conforms

/-! ## Results come at once -/

/-- The program that starts or makes a call. -/
def Event.mover : Event ι E R O → Option Nat
  | invoked i _ => some i
  | did i _ _ => some i
  | returned _ _ => none

/-- Every result comes right after the start or the last call of its program. -/
def Prompt : List (Event ι E R O) → Prop
  | [] => True
  | .returned i _ :: log => log.head?.bind Event.mover = some i ∧ Prompt log
  | _ :: log => Prompt log

theorem Prompt.append (since : List (Event ι E R O)) {log : List (Event ι E R O)}
    (h : Prompt (since ++ log)) : Prompt log := by
  induction since with
  | nil => exact h
  | cons ev since ih =>
    cases ev with
    | returned => exact ih h.2
    | invoked => exact ih h
    | did => exact ih h

theorem prompt_settle {ev : Event ι E R O} {i : Nat} {p : Prog E R O} {log : List (Event ι E R O)}
    (hev : ev.mover = some i) (h : Prompt (ev :: log)) : Prompt (settle i p (ev :: log)) := by
  cases p with
  | ret out => exact ⟨hev, h⟩
  | call e k => exact h

/-- A program whose result comes after calls has made the newest of them right before it. -/
theorem Prompt.head_did {ok : ι → List (Prog.Call E R) → E → Prop}
    {fin : ι → List (Prog.Call E R) → O → Prop} {log : List (Event ι E R O)} {i : Nat} {out : O}
    {c : Prog.Call E R} {rest : List (Prog.Call E R)} (h : Prompt (.returned i out :: log))
    (hlog : Conforms ok fin log) (hhist : hist i log = c :: rest) :
    ∃ earlier, log = .did i c.1 c.2 :: earlier := by
  cases log with
  | nil => cases hhist
  | cons ev earlier =>
    have hev : ev.mover = some i := h.1
    cases ev with
    | returned => cases hev
    | invoked j op =>
      obtain rfl := Option.some.inj hev
      rw [hist_invoked, hist_eq_nil hlog.1] at hhist
      cases hhist
    | did j e r =>
      obtain rfl := Option.some.inj hev
      rw [hist_did_self] at hhist
      cases hhist
      exact ⟨earlier, rfl⟩

theorem prompt_run {program : ι → Prog E R O} {exec : κ → (e : E) → σ → Option (R e × σ)} {s : σ}
    {as : List (Act ι κ)} {w : State σ ι E R O}
    (h : Lts.run (next program exec) (start s) as = some w) : Prompt w.log := by
  have hstart : Prompt (start s : State σ ι E R O).log := trivial
  refine Lts.invariant (I := fun w => Prompt w.log) (fun w a w' hw hstep => ?_) hstart h
  cases a with
  | invoke op =>
    cases hstep
    exact prompt_settle rfl hw
  | step i c =>
    obtain ⟨op, e, k, r, sh, -, -, rfl⟩ := next_step hstep
    exact prompt_settle rfl hw

/-! ## The state before a call -/

section Reached

variable {program : ι → Prog E R O} {exec : κ → (e : E) → σ → Option (R e × σ)} {s : σ}

/-- Every call of the log was made in a state that was reached with the log before it. -/
def Traced (program : ι → Prog E R O) (exec : κ → (e : E) → σ → Option (R e × σ)) (s : σ)
    (log : List (Event ι E R O)) : Prop :=
  ∀ since i e r before, log = since ++ .did i e r :: before →
    ∃ as u c sh, Lts.run (next program exec) (start s) as = some u ∧ u.log = before ∧
      exec c e u.shared = some (r, sh)

theorem Traced.note {log : List (Event ι E R O)} (h : Traced program exec s log)
    {ev : Event ι E R O} (hev : ∀ i e r, ev ≠ .did i e r) : Traced program exec s (ev :: log) := by
  intro since i e r before hlog
  cases since with
  | nil => exact absurd (List.cons.inj hlog).1 (hev i e r)
  | cons _ since => exact h since i e r before (List.cons.inj hlog).2

theorem Traced.settle {log : List (Event ι E R O)} (h : Traced program exec s log) (i : Nat)
    (p : Prog E R O) : Traced program exec s (settle i p log) := by
  cases p with
  | ret out => exact h.note fun _ _ _ heq => by cases heq
  | call e k => exact h

theorem traced_run {as : List (Act ι κ)} {w : State σ ι E R O}
    (h : Lts.run (next program exec) (start s) as = some w) : Traced program exec s w.log := by
  have hstart : Traced program exec s (start s : State σ ι E R O).log := by
    intro since i e r before hlog
    simp [start] at hlog
  refine (Lts.invariant (I := fun w => (∃ as, Lts.run (next program exec) (start s) as = some w) ∧
    Traced program exec s w.log) (fun w a w' hw hstep => ?_) ⟨⟨[], rfl⟩, hstart⟩ h).2
  obtain ⟨⟨as, hrun⟩, htraced⟩ := hw
  refine ⟨⟨as ++ [a], Lts.run_concat hrun hstep⟩, ?_⟩
  cases a with
  | invoke op =>
    cases hstep
    exact (htraced.note fun _ _ _ heq => by cases heq).settle _ _
  | step i c =>
    obtain ⟨op, e, k, r, sh, -, hexec, rfl⟩ := next_step hstep
    refine Traced.settle ?_ i (k r)
    intro since j e' r' before hlog
    cases since with
    | nil =>
      cases hlog
      exact ⟨as, w, c, sh, hrun, rfl, hexec⟩
    | cons _ since => exact htraced since j e' r' before (List.cons.inj hlog).2

end Reached

/-! ## The last call of a program -/

/-- The log before the last call of program `i`. -/
def beforeLast (i : Nat) : List (Event ι E R O) → List (Event ι E R O)
  | [] => []
  | .did j _ _ :: log => if j = i then log else beforeLast i log
  | _ :: log => beforeLast i log

theorem split_last {i : Nat} {c : Prog.Call E R} {rest : List (Prog.Call E R)}
    {log : List (Event ι E R O)} (h : hist i log = c :: rest) :
    (∃ since, log = since ++ .did i c.1 c.2 :: beforeLast i log) ∧
      hist i (beforeLast i log) = rest := by
  induction log with
  | nil => cases h
  | cons ev log ih =>
    cases ev with
    | invoked j op =>
      obtain ⟨⟨since, hlog⟩, hrest⟩ := ih h
      exact ⟨⟨.invoked j op :: since, congrArg _ hlog⟩, hrest⟩
    | returned j out =>
      obtain ⟨⟨since, hlog⟩, hrest⟩ := ih h
      exact ⟨⟨.returned j out :: since, congrArg _ hlog⟩, hrest⟩
    | did j e r =>
      by_cases hj : j = i
      · subst hj
        rw [hist_did_self] at h
        cases h
        rw [beforeLast, if_pos rfl]
        exact ⟨⟨[], rfl⟩, rfl⟩
      · rw [hist_did_of_ne hj] at h
        obtain ⟨⟨since, hlog⟩, hrest⟩ := ih h
        rw [beforeLast, if_neg hj]
        exact ⟨⟨.did j e r :: since, congrArg _ hlog⟩, hrest⟩

/-- The calls of the other programs since the last one of program `i`, each with the calls that its
program had made before it, the newest first. -/
def othersSince (i : Nat) : List (Event ι E R O) → List (List (Prog.Call E R))
  | [] => []
  | .did j e r :: log => if j = i then [] else (⟨e, r⟩ :: hist j log) :: othersSince i log
  | _ :: log => othersSince i log

@[simp] theorem othersSince_did_self (i : Nat) (e : E) (r : R e) (log : List (Event ι E R O)) :
    othersSince i (.did i e r :: log) = [] := if_pos rfl

theorem othersSince_did_of_ne {i j : Nat} (h : j ≠ i) (e : E) (r : R e)
    (log : List (Event ι E R O)) :
    othersSince i (.did j e r :: log) = (⟨e, r⟩ :: hist j log) :: othersSince i log := if_neg h

@[simp] theorem othersSince_invoked (i j : Nat) (op : ι) (log : List (Event ι E R O)) :
    othersSince i (.invoked j op :: log) = othersSince i log := rfl

@[simp] theorem othersSince_settle (i j : Nat) (p : Prog E R O) (log : List (Event ι E R O)) :
    othersSince i (settle j p log) = othersSince i log := by
  cases p <;> rfl

/-! ## What a call has found -/

section Remembers

variable (Overtakes : Prog.Call E R → List (Prog.Call E R) → Prop)
  (Known : σ → Prog.Call E R → Prop)

/-- Since the last call of program `i` another program has made a call that overtakes it. -/
def Overtaken (i : Nat) (log : List (Event ι E R O)) : Prop :=
  ∃ last ∈ (hist i log).head?, ∃ h ∈ othersSince i log, Overtakes last h

instance decidableOvertaken [∀ last h, Decidable (Overtakes last h)] (i : Nat)
    (log : List (Event ι E R O)) : Decidable (Overtaken Overtakes i log) :=
  inferInstanceAs
    (Decidable (∃ last ∈ (hist i log).head?, ∃ h ∈ othersSince i log, Overtakes last h))

/-- What the last call of a program has found still holds, unless it was overtaken. -/
def Remembers (w : State σ ι E R O) : Prop :=
  ∀ i last rest, hist i w.log = last :: rest → ¬ Overtaken Overtakes i w.log → Known w.shared last

variable {Overtakes Known} {program : ι → Prog E R O} {exec : κ → (e : E) → σ → Option (R e × σ)}

theorem remembers_start (s : σ) :
    Remembers Overtakes Known (start s : State σ ι E R O) := by
  simp [Remembers, start, hist]

/-- **What a program has found by its last call still holds** after a step, if the step finds what
it answers and keeps what it does not overtake. -/
theorem remembers_next {w w' : State σ ι E R O} {a : Act ι κ}
    (hfound : ∀ c e s r s', exec c e s = some (r, s') → Known s' ⟨e, r⟩)
    (hkept : ∀ i c op e k r s' last, a = .step i c → w.threads[i]? = some ⟨op, .call e k⟩ →
      exec c e w.shared = some (r, s') → ¬ Overtakes last (⟨e, r⟩ :: hist i w.log) →
        Known w.shared last → Known s' last)
    (hw : Remembers Overtakes Known w) (h : next program exec w a = some w') :
    Remembers Overtakes Known w' := by
  intro i last rest hhist hnot
  cases a with
  | invoke op =>
    cases h
    simp only [hist_settle, hist_invoked] at hhist
    simp only [Overtaken, hist_settle, hist_invoked, othersSince_settle,
      othersSince_invoked] at hnot
    exact hw i last rest hhist hnot
  | step j c =>
    obtain ⟨op, e, k, r, sh, hj, hexec, rfl⟩ := next_step h
    rw [hist_settle] at hhist
    rw [Overtaken, hist_settle, othersSince_settle] at hnot
    by_cases hji : j = i
    · subst hji
      rw [hist_did_self] at hhist
      cases hhist
      exact hfound c e _ r _ hexec
    · rw [hist_did_of_ne hji] at hhist hnot
      rw [othersSince_did_of_ne hji] at hnot
      have hother : ¬ Overtakes last (⟨e, r⟩ :: hist j w.log) := fun hover =>
        hnot ⟨last, by simp [hhist], _, List.mem_cons_self, hover⟩
      refine hkept j c op e k r _ last rfl hj hexec hother (hw i last rest hhist ?_)
      rintro ⟨l, hl, h', hh', hover⟩
      exact hnot ⟨l, hl, h', List.mem_cons_of_mem _ hh', hover⟩

end Remembers

end Pool
