import QuickVps.Lib.Pool

/-!
# A value under a lock

Interleaved programs share a lock and a value that goes with it: a call takes the lock and answers
the value, another one gives the lock back with a new value. Between the two a program does what it
likes, and the other programs too, but for the lock.

* `Brackets` — which calls take the lock and which give it back; `Brackets.Guard` — what they do to
  it.
* `entered` — the value that a program has taken and not given back yet.
* `version` — the value that was given back last, as the log has it.
* `Serial` — the invariant: one program at most holds the lock, and what it has taken is the
  current version; `serial_run`, that it holds in every run.
* `Sections` — the programs see the current version, and every version was made from the one
  before it by one program's section; `Sections.invariant`, that what every section keeps holds of
  all versions.
-/

namespace Pool

variable {E : Type*} {R : E → Type*} {ι O σ κ S : Type*}

/-- The calls that take a lock with its value, those that give it back with a new one, and all that
answer the value. -/
structure Brackets (E : Type*) (R : E → Type*) (S : Type*) where
  takes : (e : E) → R e → Option S
  gives : E → Option S
  shows : (e : E) → R e → Option S
  exclusive : ∀ {e y} (r : R e), gives e = some y → takes e r = none

namespace Brackets

/-- The lock is in the state, with its value, and no other call changes them. -/
structure Guard (g : Brackets E R S) (exec : κ → (e : E) → σ → Option (R e × σ))
    (held : σ → Bool) (value : σ → S) : Prop where
  take : ∀ {c e s r s' x}, exec c e s = some (r, s') → g.takes e r = some x →
    held s = false ∧ held s' = true ∧ value s = x ∧ value s' = x
  give : ∀ {c e s r s' y}, exec c e s = some (r, s') → g.gives e = some y →
    held s' = false ∧ value s' = y
  other : ∀ {c e s r s'}, exec c e s = some (r, s') → g.takes e r = none → g.gives e = none →
    held s' = held s ∧ value s' = value s
  shown : ∀ {c e s r s' x}, exec c e s = some (r, s') → g.shows e r = some x → value s = x

variable (g : Brackets E R S)

/-- The value that a program with the calls `h`, the newest first, has taken and not given back. -/
def entered : List (Prog.Call E R) → Option S
  | [] => none
  | ⟨e, r⟩ :: h =>
    match g.takes e r, g.gives e with
    | some x, _ => some x
    | none, some _ => none
    | none, none => entered h

/-- The values given back so far, the newest first. -/
def versions (log : List (Event ι E R O)) : List S :=
  log.filterMap fun
    | .did _ e _ => g.gives e
    | _ => none

/-- The value given back last, or the one at the start. -/
def version (s₀ : S) (log : List (Event ι E R O)) : S := (g.versions log).headD s₀

/-- A call takes the lock only outside, and gives it back only inside, with a value that `sec`
relates to the one it has taken. -/
def Ok (sec : ι → S → S → Prop) (op : ι) (h : List (Prog.Call E R)) (e : E) : Prop :=
  (∀ r x, g.takes e r = some x → g.entered h = none) ∧
    ∀ y, g.gives e = some y → ∃ x, g.entered h = some x ∧ sec op x y

/-- What is answered is the current version, and every version was made from the one before it, by a
program that was started and has entered it. -/
def Sections (sec : ι → S → S → Prop) (s₀ : S) : List (Event ι E R O) → Prop
  | [] => True
  | .did i e r :: log =>
    ((∀ x, g.shows e r = some x → x = g.version s₀ log) ∧
      ∀ y, g.gives e = some y → g.entered (hist i log) = some (g.version s₀ log) ∧
        ∃ op, .invoked i op ∈ log ∧ sec op (g.version s₀ log) y) ∧
      Sections sec s₀ log
  | _ :: log => Sections sec s₀ log

section Facts

variable {g}

theorem entered_take {e : E} {r : R e} {x : S} (h : g.takes e r = some x)
    (hist : List (Prog.Call E R)) : g.entered (⟨e, r⟩ :: hist) = some x := by
  simp [entered, h]

theorem entered_give {e : E} {y : S} (r : R e) (h : g.gives e = some y)
    (hist : List (Prog.Call E R)) : g.entered (⟨e, r⟩ :: hist) = none := by
  simp [entered, h, g.exclusive r h]

theorem entered_other {e : E} {r : R e} (ht : g.takes e r = none) (hg : g.gives e = none)
    (hist : List (Prog.Call E R)) : g.entered (⟨e, r⟩ :: hist) = g.entered hist := by
  simp [entered, ht, hg]

@[simp] theorem versions_invoked (i : Nat) (op : ι) (log : List (Event ι E R O)) :
    g.versions (.invoked i op :: log) = g.versions log := rfl

@[simp] theorem versions_settle (i : Nat) (p : Prog E R O) (log : List (Event ι E R O)) :
    g.versions (settle i p log) = g.versions log := by
  cases p <;> rfl

theorem version_settle (s₀ : S) (i : Nat) (p : Prog E R O) (log : List (Event ι E R O)) :
    g.version s₀ (settle i p log) = g.version s₀ log := by
  rw [version, versions_settle, version]

theorem version_invoked (s₀ : S) (i : Nat) (op : ι) (log : List (Event ι E R O)) :
    g.version s₀ (.invoked i op :: log) = g.version s₀ log := rfl

theorem version_give {e : E} {y : S} (h : g.gives e = some y) (s₀ : S) (i : Nat) (r : R e)
    (log : List (Event ι E R O)) : g.version s₀ (.did i e r :: log) = y := by
  simp [version, versions, h]

theorem version_other {e : E} (h : g.gives e = none) (s₀ : S) (i : Nat) (r : R e)
    (log : List (Event ι E R O)) : g.version s₀ (.did i e r :: log) = g.version s₀ log := by
  simp [version, versions, h]

theorem sections_settle {sec : ι → S → S → Prop} {s₀ : S} {i : Nat} {p : Prog E R O}
    {log : List (Event ι E R O)} (h : g.Sections sec s₀ log) :
    g.Sections sec s₀ (settle i p log) := by
  cases p <;> exact h

theorem Sections.append {sec : ι → S → S → Prop} {s₀ : S} (since : List (Event ι E R O))
    {log : List (Event ι E R O)} (h : g.Sections sec s₀ (since ++ log)) :
    g.Sections sec s₀ log := by
  induction since with
  | nil => exact h
  | cons ev since ih =>
    cases ev with
    | did i e r => exact ih h.2
    | invoked => exact ih h
    | returned => exact ih h

theorem Sections.shown {sec : ι → S → S → Prop} {s₀ x : S} {since before : List (Event ι E R O)}
    {i : Nat} {e : E} {r : R e} (h : g.Sections sec s₀ (since ++ .did i e r :: before))
    (hx : g.shows e r = some x) : x = g.version s₀ before :=
  h.append.1.1 x hx

/-- **What every section keeps holds of the current version.** -/
theorem Sections.invariant {sec : ι → S → S → Prop} {s₀ : S} {I : S → Prop}
    (hsec : ∀ op x y, sec op x y → I x → I y) (h₀ : I s₀) {log : List (Event ι E R O)}
    (h : g.Sections sec s₀ log) : I (g.version s₀ log) := by
  induction log with
  | nil => exact h₀
  | cons ev log ih =>
    cases ev with
    | did i e r =>
      have hlog := ih h.2
      cases hg : g.gives e with
      | none => rwa [version_other hg]
      | some y =>
        obtain ⟨-, op, -, hop⟩ := h.1.2 y hg
        rw [version_give hg]
        exact hsec op _ y hop hlog
    | invoked => exact ih h
    | returned => exact ih h

/-- The same from a point of the log on, for the programs that give the lock back after it. -/
theorem Sections.invariant_since {sec : ι → S → S → Prop} {s₀ : S} {I : S → Prop}
    {before : List (Event ι E R O)} (hbefore : I (g.version s₀ before))
    {since : List (Event ι E R O)}
    (hsec : ∀ i e (r : R e) y op x, .did i e r ∈ since → g.gives e = some y →
      .invoked i op ∈ since ++ before → sec op x y → I x → I y)
    (h : g.Sections sec s₀ (since ++ before)) : I (g.version s₀ (since ++ before)) := by
  induction since with
  | nil => exact hbefore
  | cons ev since ih =>
    have hkeep : ∀ i e (r : R e) y op x, .did i e r ∈ since → g.gives e = some y →
        .invoked i op ∈ since ++ before → sec op x y → I x → I y :=
      fun i e r y op x hd hy hop =>
        hsec i e r y op x (List.mem_cons_of_mem _ hd) hy (List.mem_cons_of_mem _ hop)
    cases ev with
    | did i e r =>
      have hlog := ih hkeep h.2
      rw [List.cons_append]
      cases hg : g.gives e with
      | none => rwa [version_other hg]
      | some y =>
        obtain ⟨-, op, hop, hrel⟩ := h.1.2 y hg
        rw [version_give hg]
        exact hsec i e r y op _ List.mem_cons_self hg (List.mem_cons_of_mem _ hop) hrel hlog
    | invoked => exact ih hkeep h
    | returned => exact ih hkeep h

end Facts

/-! ## The invariant -/

/-- One program at most is inside, and what it has taken is the current version. -/
structure Serial (held : σ → Bool) (value : σ → S) (sec : ι → S → S → Prop) (s₀ : S)
    (w : State σ ι E R O) : Prop where
  current : value w.shared = g.version s₀ w.log
  free : held w.shared = false → ∀ i, g.entered (hist i w.log) = none
  taken : held w.shared = true → ∃ i, g.entered (hist i w.log) = some (value w.shared) ∧
    ∀ j, j ≠ i → g.entered (hist j w.log) = none
  sections : g.Sections sec s₀ w.log

variable {g} {exec : κ → (e : E) → σ → Option (R e × σ)} {held : σ → Bool} {value : σ → S}
  {sec : ι → S → S → Prop} {s₀ : S} {ok : ι → List (Prog.Call E R) → E → Prop}
  {fin : ι → List (Prog.Call E R) → O → Prop} {program : ι → Prog E R O}

/-- Whoever is inside has taken the current version, and is the only one. -/
theorem Serial.inside {w : State σ ι E R O} (hw : g.Serial held value sec s₀ w) {i : Nat} {x : S}
    (hx : g.entered (hist i w.log) = some x) :
    x = g.version s₀ w.log ∧ ∀ j, j ≠ i → g.entered (hist j w.log) = none := by
  have hheld : held w.shared = true := by
    cases hheld : held w.shared with
    | true => rfl
    | false => rw [hw.free hheld i] at hx; cases hx
  obtain ⟨j, hj, hothers⟩ := hw.taken hheld
  have hij : i = j := by
    by_contra hne
    rw [hothers i hne] at hx
    cases hx
  subst hij
  rw [hj, Option.some.injEq] at hx
  exact ⟨by rw [← hx, hw.current], hothers⟩

theorem serial_start {s : σ} (hfree : held s = false) :
    g.Serial held value sec (value s) (start s : State σ ι E R O) where
  current := rfl
  free := fun _ _ => rfl
  taken := fun h => by rw [start, hfree] at h; cases h
  sections := trivial

theorem serial_invoke {w w' : State σ ι E R O} {op : ι} (hw : g.Serial held value sec s₀ w)
    (h : next program exec w (.invoke op) = some w') : g.Serial held value sec s₀ w' := by
  cases h
  refine ⟨?_, ?_, ?_, sections_settle hw.sections⟩
  · rw [version_settle, version_invoked]
    exact hw.current
  · simpa using hw.free
  · simpa using hw.taken

/-- What program `i` has entered after its call, and the others are where they were. -/
theorem entered_settle {i j : Nat} {e : E} {r : R e} {p : Prog E R O}
    {log : List (Event ι E R O)} :
    g.entered (hist j (settle i p (.did i e r :: log))) =
      if j = i then g.entered (⟨e, r⟩ :: hist i log) else g.entered (hist j log) := by
  rw [hist_settle]
  split_ifs with hj
  · subst hj
    rw [hist_did_self]
  · rw [hist_did_of_ne (Ne.symm hj)]

theorem serial_step (hguard : g.Guard exec held value)
    (hok : ∀ op h e, ok op h e → g.Ok sec op h e) {w w' : State σ ι E R O} {i : Nat} {c : κ}
    (hgood : Good ok fin w) (hw : g.Serial held value sec s₀ w)
    (h : next program exec w (.step i c) = some w') : g.Serial held value sec s₀ w' := by
  obtain ⟨op, e, k, r, sh, hi, hexec, rfl⟩ := next_step h
  obtain ⟨houtside, hinside⟩ := hok _ _ _ (Prog.follows_call.1 (hgood.follows i _ hi)).1
  have hop := hgood.invoked i _ hi
  have hshown : ∀ x, g.shows e r = some x → x = g.version s₀ w.log := fun x hx => by
    rw [← hguard.shown hexec hx, hw.current]
  cases htake : g.takes e r with
  | some x =>
    obtain ⟨hfree, hheld, hold, hnew⟩ := hguard.take hexec htake
    have hgive : g.gives e = none := by
      cases hgive : g.gives e with
      | none => rfl
      | some y => rw [g.exclusive r hgive] at htake; cases htake
    refine ⟨?_, fun hno => ?_, fun _ => ⟨i, ?_, fun j hj => ?_⟩,
      sections_settle ⟨⟨hshown, fun y hy => ?_⟩, hw.sections⟩⟩
    · rw [version_settle, version_other hgive, ← hw.current, hold, hnew]
    · rw [hheld] at hno
      cases hno
    · rw [entered_settle, if_pos rfl, entered_take htake, hnew]
    · rw [entered_settle, if_neg hj]
      exact hw.free hfree j
    · rw [hgive] at hy
      cases hy
  | none =>
    cases hgive : g.gives e with
    | some y =>
      obtain ⟨hfree, hnew⟩ := hguard.give hexec hgive
      obtain ⟨x, hx, hrel⟩ := hinside y hgive
      -- Whoever is inside holds the lock, and it is the only one.
      obtain ⟨hcurrent, hothers⟩ := hw.inside hx
      refine ⟨?_, fun _ j => ?_, fun hno => ?_,
        sections_settle ⟨⟨hshown, fun y' hy' => ?_⟩, hw.sections⟩⟩
      · rw [version_settle, version_give hgive, hnew]
      · rw [entered_settle]
        split_ifs with hne
        · exact entered_give r hgive _
        · exact hothers j hne
      · rw [hfree] at hno
        cases hno
      · rw [hgive] at hy'
        cases hy'
        exact ⟨hcurrent ▸ hx, op, hop, hcurrent ▸ hrel⟩
    | none =>
      obtain ⟨hheld, hnew⟩ := hguard.other hexec htake hgive
      have hsame : ∀ j, g.entered (hist j (settle i (k r) (.did i e r :: w.log))) =
          g.entered (hist j w.log) := by
        intro j
        rw [entered_settle]
        split_ifs with hj
        · subst hj
          exact entered_other htake hgive _
        · rfl
      refine ⟨?_, fun hno j => ?_, fun hyes => ?_,
        sections_settle ⟨⟨hshown, fun y hy => ?_⟩, hw.sections⟩⟩
      · rw [version_settle, version_other hgive, hnew]
        exact hw.current
      · rw [hsame]
        exact hw.free (hheld ▸ hno) j
      · simp only [hsame, hnew]
        exact hw.taken (hheld ▸ hyes)
      · rw [hgive] at hy
        cases hy

/-- **The lock makes the sections serial**, when every program follows conditions that keep the
discipline of the lock. -/
theorem serial_run (hguard : g.Guard exec held value)
    (hok : ∀ op h e, ok op h e → g.Ok sec op h e)
    (hprog : ∀ op, (program op).Follows (ok op) (fin op) []) {s : σ} (hfree : held s = false)
    {as : List (Act ι κ)} {w : State σ ι E R O}
    (h : Lts.run (next program exec) (start s) as = some w) :
    Good ok fin w ∧ g.Serial held value sec (value s) w := by
  refine Lts.invariant (I := fun w => Good ok fin w ∧ g.Serial held value sec (value s) w)
    (fun w a w' hw hstep => ⟨good_next hprog hw.1 hstep, ?_⟩)
    ⟨good_start s, serial_start hfree⟩ h
  cases a with
  | invoke op => exact serial_invoke hw.2 hstep
  | step i c => exact serial_step hguard hok hw.1 hw.2 hstep

end Brackets

end Pool
