import QuickVps.Alerts.Service
import QuickVps.Lib.Pool

/-!
# The mute window in memory and in the table

`SetSilence` and `ClearSilence` write the window to the table, and then take the lock and write it
to the status. The two writes of one call are not under one lock, so concurrent calls can make them
in different orders.

* `SameWindow` — the status and the table hold the same window;
* `silence_disagrees` — two calls after which they do not;
* `sameWindow_of_covered` — they agree after all calls in the runs where a status is overwritten
  with another window than the table's only while the call that wrote the table has still to write
  the status;
* `differ_of_uncovered` — otherwise they disagree until the table is written again.
-/

namespace QuickVps.Alerts

/-! ## Concurrent calls -/

inductive SilenceOp where
  | setSilence (minutes : Int)
  | clearSilence

def SilenceOp.program : SilenceOp → M (Except String Unit)
  | setSilence minutes => do
    return (← Alerts.setSilence minutes).map fun _ => ()
  | clearSilence => Alerts.clearSilence

/-- The alert service with calls in progress. -/
abbrev Silences := Pool.State World SilenceOp Op Op.Ans (Except String Unit)

abbrev SilenceAct := Pool.Act SilenceOp Choice

def Silences.next (http : Http) : Silences → SilenceAct → Option Silences :=
  Pool.next SilenceOp.program (exec http)

/-- The status holds the window of the table. -/
def SameWindow (w : World) : Prop := w.service.status.mutedUntil = w.mutedUntil

instance (w : World) : Decidable (SameWindow w) := inferInstanceAs (Decidable (_ = _))

def Op.isSql : Op → Bool
  | .sql _ => true
  | _ => false

/-- No statement fails. -/
def StoreWorks : Silences → SilenceAct → Prop :=
  Pool.OnCall fun _ c op => op.isSql = true → c.fault = none

instance (s : Silences) (a : SilenceAct) : Decidable (StoreWorks s a) :=
  Pool.decidableOnCall s a

def AllReturned (s : Silences) : Prop := ∀ t ∈ s.threads, t.returned = true

instance (s : Silences) : Decidable (AllReturned s) :=
  inferInstanceAs (Decidable (∀ t ∈ s.threads, t.returned = true))

/-! ## A run after which they disagree -/

/-- The first call writes the table, the second one both, and then the first one the status. -/
def overtakenSilence : List SilenceAct :=
  [.invoke (.setSilence 10), .invoke .clearSilence, .step 0 {}, .step 0 {}, .step 1 {}, .step 1 {},
    .step 1 {}, .step 0 {}, .step 0 {}]

def freshWorld : World := World.fresh defaultConfig ⟨"", "", ""⟩

/-- **Muted in memory, not in the table.** The window of the first call outlives its clearing. -/
theorem silence_disagrees :
    ¬ ∀ (http : Http) (w : World) (acts : List SilenceAct) (s : Silences), SameWindow w →
      Lts.Along (Silences.next http) StoreWorks (Pool.start w) acts →
      Lts.run (Silences.next http) (Pool.start w) acts = some s → AllReturned s →
      SameWindow s.shared := by
  intro hall
  have hlost : (Lts.run (Silences.next plainHttp) (Pool.start freshWorld) overtakenSilence).map
      (fun s => decide (AllReturned s ∧ ¬ SameWindow s.shared)) = some true := by
    decide
  have hworks : Lts.Along (Silences.next plainHttp) StoreWorks (Pool.start freshWorld)
      overtakenSilence := by
    decide
  obtain ⟨s, hs, hdec⟩ := Option.map_eq_some_iff.1 hlost
  obtain ⟨hret, hne⟩ := of_decide_eq_true hdec
  exact hne (hall plainHttp freshWorld overtakenSilence s (by decide) hworks hs hret)

/-! ## When it holds -/

/-- Call `j` has written this window to the table and has not written the status yet. -/
def Owes (log : List (Pool.Event SilenceOp Op Op.Ans (Except String Unit))) (j : Nat)
    (until_ : Option Int) : Prop :=
  ⟨.sql (.setMutedUntil until_), .ok ()⟩ ∈ Pool.hist j log ∧
    ∀ s r, ⟨.unlock s, r⟩ ∉ Pool.hist j log

/-- A status with another window than the table's is written only while another call has still to
write the table's window. -/
def Covered (s : Silences) : SilenceAct → Prop
  | .invoke _ => True
  | .step i _ => ∀ service, Pool.nextCall s i = some (.unlock service) →
      service.status.mutedUntil ≠ s.shared.mutedUntil →
      ∃ j, j ≠ i ∧ Owes s.log j s.shared.mutedUntil

/-! ## What the calls do -/

/-- The calls of the two operations: the clock, the write of the table, and the lock, which is
given back with the window that was written. -/
def SilenceOp.ok (_ : SilenceOp) (h : List (Prog.Call Op Op.Ans)) : Op → Prop
  | .now => True
  | .sql (.setMutedUntil _) => ∀ s r, ⟨.unlock s, r⟩ ∉ h
  | .lock => True
  | .unlock s => ⟨.sql (.setMutedUntil s.status.mutedUntil), .ok ()⟩ ∈ h ∧ ∀ s r, ⟨.unlock s, r⟩ ∉ h
  | _ => False

/-- A call that has written the table does not return before it has written the status. -/
def SilenceOp.fin (_ : SilenceOp) (h : List (Prog.Call Op Op.Ans)) (_ : Except String Unit) :
    Prop :=
  ∀ until_, ⟨.sql (.setMutedUntil until_), .ok ()⟩ ∈ h → ∃ s r, ⟨.unlock s, r⟩ ∈ h

theorem follows_saveSilence (op : SilenceOp) (until_ : Option Int)
    {h : List (Prog.Call Op Op.Ans)} (hh : ∀ c ∈ h, c.1 = .now) :
    (saveSilence until_).Follows op.ok (fun h' _ => ∀ out, op.fin h' out) h := by
  have hnot : ∀ {e : Op} {r : e.Ans}, e ≠ .now → ⟨e, r⟩ ∉ h := fun hne hmem => hne (hh _ hmem)
  unfold saveSilence setMutedUntil stmt
  rw [Prog.follows_bind, Prog.follows_bind]
  refine (Prog.follows_op (e := Op.sql (.setMutedUntil until_))).2
    ⟨fun _ _ => hnot (by simp), fun r => ?_⟩
  cases r with
  | error err =>
    refine Prog.follows_ret.2 (Prog.follows_ret.2 fun _ u hu => ?_)
    rcases List.mem_cons.1 hu with heq | hmem
    · cases heq
    · exact absurd hmem (hnot (by simp))
  | ok =>
    refine Prog.follows_ret.2 ?_
    simp only
    rw [Prog.follows_bind]
    refine (Prog.follows_op (e := Op.lock)).2 ⟨trivial, fun s => ?_⟩
    rw [Prog.follows_bind]
    refine (Prog.follows_op (e := Op.unlock _)).2 ⟨⟨?_, fun s' r hmem => ?_⟩, fun r => ?_⟩
    · exact List.mem_cons_of_mem _ List.mem_cons_self
    · have hmem : (⟨.unlock s', r⟩ : Prog.Call Op Op.Ans) ∈ h := by simpa using hmem
      exact hnot (by simp) hmem
    · exact Prog.follows_ret.2 fun _ _ _ => ⟨_, _, List.mem_cons_self⟩

theorem follows_program (op : SilenceOp) : op.program.Follows op.ok op.fin [] := by
  cases op with
  | clearSilence =>
    exact (follows_saveSilence _ none (by simp)).mono (fun _ _ _ hok => hok)
      fun _ out _ hfin => hfin out
  | setSilence minutes =>
    unfold SilenceOp.program Alerts.setSilence
    simp only
    rw [Prog.follows_bind]
    split_ifs
    · exact Prog.follows_ret.2 (Prog.follows_ret.2 fun _ hmem => absurd hmem List.not_mem_nil)
    · rw [Prog.follows_bind]
      refine (Prog.follows_op (e := Op.now)).2 ⟨trivial, fun now => ?_⟩
      rw [Prog.follows_bind]
      refine (follows_saveSilence _ _ (by simp)).mono (fun _ _ _ hok => hok) fun _ out _ hfin => ?_
      exact Prog.follows_ret.2 (Prog.follows_ret.2 (hfin _))

/-! ## What a step does -/

abbrev Log := List (Pool.Event SilenceOp Op Op.Ans (Except String Unit))

theorem owes_settle_of_ne {log : Log} {i j : Nat} {p : M (Except String Unit)} {e : Op}
    {r : e.Ans} {u : Option Int} (hj : j ≠ i) :
    Owes (Pool.settle i p (.did i e r :: log)) j u ↔ Owes log j u := by
  simp [Owes, Pool.hist_did_of_ne hj.symm]

/-- A call other than the two writes changes nothing that is owed. -/
theorem owes_settle {log : Log} {i j : Nat} {p : M (Except String Unit)} {e : Op} {r : e.Ans}
    {u : Option Int} (hsql : ∀ stmt, e ≠ .sql stmt) (hunlock : ∀ s, e ≠ .unlock s) :
    Owes (Pool.settle i p (.did i e r :: log)) j u ↔ Owes log j u := by
  by_cases hj : j = i
  · subst hj
    unfold Owes
    rw [Pool.hist_settle, Pool.hist_did_self]
    refine and_congr ⟨fun h => ?_, List.mem_cons_of_mem _⟩
      ⟨fun h s r hmem => h s r (List.mem_cons_of_mem _ hmem), fun h s r hmem => ?_⟩
    · exact (List.mem_cons.1 h).resolve_left fun heq => hsql _ (congrArg Sigma.fst heq).symm
    · rcases List.mem_cons.1 hmem with heq | hmem
      · exact hunlock _ (congrArg Sigma.fst heq).symm
      · exact h s r hmem
  · exact owes_settle_of_ne hj

/-- A call that writes the table owes the status. -/
theorem owes_settle_write {log : Log} {i : Nat} {p : M (Except String Unit)} {u : Option Int}
    (hnot : ∀ s r, ⟨.unlock s, r⟩ ∉ Pool.hist i log) :
    Owes (Pool.settle i p (.did i (.sql (.setMutedUntil u)) (.ok ()) :: log)) i u := by
  unfold Owes
  rw [Pool.hist_settle, Pool.hist_did_self]
  exact ⟨List.mem_cons_self, fun s r hmem => hnot s r (by simpa using hmem)⟩

/-- What a step of a call does to the two windows and to what the calls owe. -/
theorem step_cases {http : Http} {s s' : Silences} {i : Nat} {c : Choice}
    (hgood : Pool.Good SilenceOp.ok SilenceOp.fin s) (hworks : StoreWorks s (.step i c))
    (h : s.next http (.step i c) = some s') :
    ((∀ service, Pool.nextCall s i ≠ some (.unlock service)) ∧
        s'.shared.mutedUntil = s.shared.mutedUntil ∧
        s'.shared.service.status.mutedUntil = s.shared.service.status.mutedUntil ∧
        ∀ j u, Owes s'.log j u ↔ Owes s.log j u) ∨
      (∃ u, Pool.nextCall s i = some (.sql (.setMutedUntil u)) ∧ s'.shared.mutedUntil = u ∧
        Owes s'.log i u) ∨
      (∃ service, Pool.nextCall s i = some (.unlock service) ∧
        s'.shared.mutedUntil = s.shared.mutedUntil ∧ s'.shared.service = service ∧
        Owes s.log i service.status.mutedUntil ∧ (∀ u, ¬ Owes s'.log i u) ∧
        ∀ j u, j ≠ i → (Owes s'.log j u ↔ Owes s.log j u)) := by
  obtain ⟨op, e, k, r, sh, hi, hexec, rfl⟩ := Pool.next_step h
  obtain ⟨hok, -⟩ := Prog.follows_call.1 (hgood.follows i _ hi)
  have hfault := hworks.call hi
  have hnext : Pool.nextCall s i = some e := by simp [Pool.nextCall, hi]
  cases e with
  | now =>
    cases hexec
    exact Or.inl ⟨by simp [hnext], rfl, rfl, fun j u => owes_settle (by simp) (by simp)⟩
  | lock =>
    simp only [exec] at hexec
    split_ifs at hexec
    cases hexec
    exact Or.inl ⟨by simp [hnext], rfl, rfl, fun j u => owes_settle (by simp) (by simp)⟩
  | unlock service =>
    cases hexec
    refine Or.inr (Or.inr ⟨service, hnext, rfl, rfl, hok, fun u howes => ?_, fun j u hj =>
      owes_settle_of_ne hj⟩)
    exact howes.2 service () (by simp)
  | sql stmt =>
    cases stmt with
    | setMutedUntil u =>
      simp only [exec, hfault rfl, Stmt.exec] at hexec
      cases hexec
      exact Or.inr (Or.inl ⟨u, hnext, rfl, owes_settle_write hok⟩)
    | _ => exact hok.elim
  | _ => exact hok.elim

/-! ## Agreement -/

/-- The windows agree, or a call has still to write the status with the table's. -/
structure Kept (s : Silences) : Prop where
  good : Pool.Good SilenceOp.ok SilenceOp.fin s
  agree : SameWindow s.shared ∨ ∃ j, Owes s.log j s.shared.mutedUntil

theorem kept_start {w : World} (h : SameWindow w) : Kept (Pool.start w : Silences) :=
  ⟨Pool.good_start w, Or.inl h⟩

theorem kept_next {http : Http} {s s' : Silences} {a : SilenceAct} (hk : Kept s)
    (hworks : StoreWorks s a) (hcov : Covered s a) (h : s.next http a = some s') : Kept s' := by
  refine ⟨Pool.good_next follows_program hk.good h, ?_⟩
  cases a with
  | invoke op =>
    cases h
    simpa [Owes] using hk.agree
  | step i c =>
    rcases step_cases hk.good hworks h with ⟨-, htable, hstatus, howes⟩ | ⟨u, -, htable, howes⟩ |
      ⟨service, hnext, htable, hservice, -, -, howes⟩
    · simpa only [SameWindow, htable, hstatus, howes] using hk.agree
    · exact Or.inr ⟨i, htable ▸ howes⟩
    · by_cases heq : service.status.mutedUntil = s.shared.mutedUntil
      · left
        rw [SameWindow, htable, hservice, heq]
      · obtain ⟨j, hj, howed⟩ := hcov service hnext heq
        exact Or.inr ⟨j, (howes j _ hj).2 (htable ▸ howed)⟩

/-- A call that owes the status has not returned. -/
theorem not_owes_of_returned {s : Silences} (hgood : Pool.Good SilenceOp.ok SilenceOp.fin s)
    (hret : AllReturned s) (j : Nat) (u : Option Int) : ¬ Owes s.log j u := by
  rintro ⟨hwrote, hnot⟩
  cases hj : s.threads[j]? with
  | none =>
    have hnew : Pool.hist j s.log = [] := by
      refine Pool.hist_eq_nil fun ev hev heq => ?_
      have hlt := hgood.fresh ev hev
      rw [List.getElem?_eq_none_iff] at hj
      omega
    rw [hnew] at hwrote
    cases hwrote
  | some t =>
    have hfollows := hgood.follows j t hj
    have hended := hret t (List.mem_of_getElem? hj)
    unfold Pool.Thread.returned at hended
    split at hended
    · next out hprog =>
      rw [hprog, Prog.follows_ret] at hfollows
      obtain ⟨service, r, hmem⟩ := hfollows u hwrote
      exact hnot service r hmem
    · cases hended

/-- **The windows agree in covered runs**, whenever all calls have returned. -/
theorem sameWindow_of_covered {http : Http} {w : World} {acts : List SilenceAct} {s : Silences}
    (h₀ : SameWindow w) (hworks : Lts.Along (Silences.next http) StoreWorks (Pool.start w) acts)
    (hcov : Lts.Along (Silences.next http) Covered (Pool.start w) acts)
    (h : Lts.run (Silences.next http) (Pool.start w) acts = some s) (hret : AllReturned s) :
    SameWindow s.shared := by
  have hk : Kept s :=
    Lts.invariant_along (fun _ _ _ hk hstep hs => kept_next hk hstep.1 hstep.2 hs)
      (kept_start h₀) (hworks.and hcov) h
  rcases hk.agree with hagree | ⟨j, howes⟩
  · exact hagree
  · exact absurd howes (not_owes_of_returned hk.good hret j _)

/-- The first call writes the status after the second one has cleared the table, and before the
second one writes the status. -/
def crossedSilence : List SilenceAct :=
  [.invoke (.setSilence 10), .invoke .clearSilence, .step 0 {}, .step 0 {}, .step 1 {}, .step 0 {},
    .step 0 {}, .step 1 {}, .step 1 {}]

theorem covered_crossedSilence :
    Lts.Along (Silences.next plainHttp) Covered (Pool.start freshWorld) crossedSilence := by
  refine ⟨trivial, fun s hs => ?_⟩
  cases hs
  refine ⟨trivial, fun s hs => ?_⟩
  cases hs
  refine ⟨fun service hcall => (by cases hcall), fun s hs => ?_⟩
  cases hs
  refine ⟨fun service hcall => (by cases hcall), fun s hs => ?_⟩
  cases hs
  refine ⟨fun service hcall => (by cases hcall), fun s hs => ?_⟩
  cases hs
  refine ⟨fun service hcall => (by cases hcall), fun s hs => ?_⟩
  cases hs
  -- The first call writes the status; the second one owes the window of the table.
  refine ⟨fun service hcall _ => ⟨1, by decide, List.mem_cons_self, fun s r hmem => ?_⟩,
    fun s hs => ?_⟩
  · cases hmem with
    | tail _ hmem => cases hmem
  cases hs
  refine ⟨fun service hcall => (by cases hcall), fun s hs => ?_⟩
  cases hs
  refine ⟨fun service hcall hne => ?_, fun _ _ => trivial⟩
  cases hcall
  exact absurd rfl hne

theorem sameWindow_of_covered_crossedSilence :
    ∃ s, Lts.run (Silences.next plainHttp) (Pool.start freshWorld) crossedSilence = some s ∧
      AllReturned s ∧ SameWindow s.shared :=
  ⟨_, rfl, by decide, sameWindow_of_covered (by decide) (by decide) covered_crossedSilence rfl
    (by decide)⟩

/-! ## Nothing is left out -/

/-- The windows differ and no call has still to write the status with the table's. -/
structure Parted (s : Silences) : Prop where
  good : Pool.Good SilenceOp.ok SilenceOp.fin s
  differ : ¬ SameWindow s.shared
  nobody : ∀ j, ¬ Owes s.log j s.shared.mutedUntil

/-- A step that is not a write of the table. -/
def NoTableWrite (s : Silences) : SilenceAct → Prop :=
  Pool.OnCall (fun _ _ op => op.isSql = false) s

/-- A status written with another window, when nobody else owes the table's. -/
theorem parted_of_unlock {s s' : Silences} {i : Nat} {service : Service}
    (hgood : Pool.Good SilenceOp.ok SilenceOp.fin s')
    (htable : s'.shared.mutedUntil = s.shared.mutedUntil) (hservice : s'.shared.service = service)
    (hdone : ∀ u, ¬ Owes s'.log i u)
    (howes : ∀ j u, j ≠ i → (Owes s'.log j u ↔ Owes s.log j u))
    (hne : service.status.mutedUntil ≠ s.shared.mutedUntil)
    (hothers : ∀ j, j ≠ i → ¬ Owes s.log j s.shared.mutedUntil) : Parted s' := by
  refine ⟨hgood, ?_, fun j => ?_⟩
  · rwa [SameWindow, htable, hservice]
  · by_cases hj : j = i
    · subst hj
      exact hdone _
    · rw [htable, howes j _ hj]
      exact hothers j hj

theorem parted_next {http : Http} {s s' : Silences} {a : SilenceAct} (hp : Parted s)
    (hworks : StoreWorks s a) (hno : NoTableWrite s a) (h : s.next http a = some s') :
    Parted s' := by
  have hgood := Pool.good_next follows_program hp.good h
  cases a with
  | invoke op =>
    cases h
    exact ⟨hgood, hp.differ, by simpa [Owes] using hp.nobody⟩
  | step i c =>
    rcases step_cases hp.good hworks h with ⟨-, htable, hstatus, howes⟩ | ⟨u, hnext, -⟩ |
      ⟨service, -, htable, hservice, howed, hdone, howes⟩
    · refine ⟨hgood, ?_, fun j => ?_⟩
      · simpa only [SameWindow, htable, hstatus] using hp.differ
      · rw [htable, howes]
        exact hp.nobody j
    · exact absurd (hno _ hnext) (by simp [Op.isSql])
    · refine parted_of_unlock hgood htable hservice hdone howes (fun heq => ?_) fun j _ =>
        hp.nobody j
      exact hp.nobody i (heq ▸ howed)

theorem parted_of_uncovered {http : Http} {s s' : Silences} {a : SilenceAct}
    (hgood : Pool.Good SilenceOp.ok SilenceOp.fin s) (hworks : StoreWorks s a)
    (hcov : ¬ Covered s a) (h : s.next http a = some s') : Parted s' := by
  have hgood' := Pool.good_next follows_program hgood h
  cases a with
  | invoke op => exact absurd trivial hcov
  | step i c =>
    simp only [Covered, not_forall, not_exists, not_and] at hcov
    obtain ⟨service, hnext, hne, hothers⟩ := hcov
    rcases step_cases hgood hworks h with ⟨hnot, -⟩ | ⟨u, hnext', -⟩ |
      ⟨service', hnext', htable, hservice, howed, hdone, howes⟩
    · exact absurd hnext (hnot service)
    · rw [hnext] at hnext'
      cases hnext'
    · rw [hnext] at hnext'
      cases hnext'
      exact parted_of_unlock hgood' htable hservice hdone howes hne hothers

/-- **Nothing is left out.** After a step that is not covered the windows differ until the table is
written again. -/
theorem differ_of_uncovered {http : Http} {w : World} {before acts : List SilenceAct}
    {s s₁ s' : Silences} {a : SilenceAct}
    (hreach : Lts.run (Silences.next http) (Pool.start w) before = some s)
    (hworks : StoreWorks s a) (hcov : ¬ Covered s a) (h : s.next http a = some s₁)
    (hrun : Lts.run (Silences.next http) s₁ acts = some s')
    (hstore : Lts.Along (Silences.next http) StoreWorks s₁ acts)
    (hno : Lts.Along (Silences.next http) NoTableWrite s₁ acts) : ¬ SameWindow s'.shared := by
  have hgood : Pool.Good SilenceOp.ok SilenceOp.fin s :=
    Lts.invariant (fun _ _ _ hg hs => Pool.good_next follows_program hg hs) (Pool.good_start w)
      hreach
  have hp : Parted s' :=
    Lts.invariant_along (fun _ _ _ hp hstep hs => parted_next hp hstep.1 hstep.2 hs)
      (parted_of_uncovered hgood hworks hcov h) (hstore.and hno) hrun
  exact hp.differ

end QuickVps.Alerts
