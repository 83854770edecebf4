import QuickVps.Alerts.Evaluations

/-!
# A mute window that was answered holds

The store is written before the lock is taken, so mutes that overlap can leave the table and the
service apart. Here only the service matters: once a mute has been answered, and until another one
gives the lock back, no sample before the end of the window is sent or saved.

* `evaluation_calls` — the calls of an evaluation at any moment;
* `mute_effective` — under an answered window an evaluation only takes the lock and gives it back.
-/

namespace QuickVps.Alerts

open Go

variable {http : Http} {crypto : Crypto} {w : World} {acts : List ServicesAct} {v : Services}
  {log : ServicesLog}

/-- The methods that write the window. -/
def Method.mutes : Method → Bool
  | setSilence _ => true
  | clearSilence => true
  | _ => false

/-- The calls of an evaluation so far. -/
inductive EvaluationCalls (now : Int) (cpuPercent : Float64) : Calls → Prop
  | waiting : EvaluationCalls now cpuPercent []
  | inside (s : Service) : EvaluationCalls now cpuPercent [⟨.lock, s⟩]
  | sending (s : Service) (rest : Calls)
      (h : ∀ c ∈ rest, ∃ t ∈ (s.evaluate now cpuPercent).1, c.1.ForTrigger s now t) :
      EvaluationCalls now cpuPercent (rest ++ evaluated s now cpuPercent)

theorem EvaluationCalls.cons {now : Int} {cpuPercent : Float64} {h : Calls} {op : Op}
    {r : op.Ans} (hcalls : EvaluationCalls now cpuPercent h)
    (hok : evaluateOk now cpuPercent h op) : EvaluationCalls now cpuPercent (⟨op, r⟩ :: h) := by
  rcases hok with ⟨rfl, rfl⟩ | ⟨s, rfl, rfl⟩ | ⟨s, rest, rfl, done, t, left, ht, -, hfor⟩
  · exact .inside r
  · exact .sending s [] (by simp)
  · -- The lock of these calls is the one of `evaluated`, so the service is the same.
    have hrest : ∀ c ∈ rest, ∃ t ∈ (s.evaluate now cpuPercent).1, c.1.ForTrigger s now t := by
      generalize hcs : rest ++ evaluated s now cpuPercent = cs at hcalls
      cases hcalls with
      | waiting => simp [evaluated] at hcs
      | inside s' => simp [evaluated, List.append_eq_cons_iff] at hcs
      | sending s' rest' h' =>
        obtain ⟨rfl, hsame⟩ := List.append_inj' hcs rfl
        have hs : s = s' := by
          simp only [evaluated, List.cons.injEq, and_true] at hsame
          have hlock := hsame.2
          cases hlock
          rfl
        exact hs ▸ h'
    refine .sending s (⟨op, r⟩ :: rest) fun c hc => ?_
    rcases List.mem_cons.1 hc with rfl | hc
    · exact ⟨t, by simp [ht], hfor⟩
    · exact hrest c hc

theorem evaluation_calls (hlog : Pool.Conforms Method.ok Method.fin log) {i : Nat} {now : Int}
    {cpuPercent : Float64} (hop : .invoked i (.evaluateSnapshot now cpuPercent) ∈ log) :
    EvaluationCalls now cpuPercent (Pool.hist i log) := by
  induction log with
  | nil => cases hop
  | cons ev log ih =>
    rcases List.mem_cons.1 hop with rfl | hmem
    · rw [Pool.hist_invoked, Pool.hist_eq_nil hlog.1]
      exact .waiting
    · cases ev with
      | invoked j m => exact ih hlog.2 hmem
      | returned j answer => exact ih hlog.2 hmem
      | did j op r =>
        have hih := ih hlog.2 hmem
        by_cases hj : j = i
        · subst hj
          obtain ⟨m, hm, hok⟩ := hlog.1
          obtain rfl := hlog.2.invoked_unique hmem hm
          rw [Pool.hist_did_self]
          exact hih.cons hok
        · rwa [Pool.hist_did_of_ne hj]

/-! ## The window -/

/-- Only the mutes change the window of the service. -/
theorem mutedUntil_section {m : Method} {s s' : Service} (h : m.section s s')
    (hm : m.mutes = false) : s'.status.mutedUntil = s.status.mutedUntil := by
  cases m with
  | evaluateSnapshot now cpuPercent =>
    have hs : s' = (s.evaluate now cpuPercent).2 := h
    rw [hs]
    rfl
  | cleanupOldEvents => obtain rfl | ⟨now, later, -, rfl⟩ := h <;> rfl
  | updateConfig input => obtain rfl | ⟨-, secrets, row, rfl⟩ := h <;> rfl
  | setSilence | clearSilence => cases hm
  | _ => exact h.elim

/-- A sample inside the window triggers nothing. -/
theorem evaluate_muted {s : Service} {until_ now : Int} (cpuPercent : Float64)
    (hs : s.status.mutedUntil = some until_) (hnow : now < until_) :
    (s.evaluate now cpuPercent).1 = [] := by
  have hsilenced : (s.sample now cpuPercent).silenced = true := by
    simp [Service.sample, isSilencedAt, hs, hnow]
  refine (out_evaluate s.evaluator (s.sample now cpuPercent)).trans ?_
  split
  · exact answer_silenced hsilenced
  · rfl

/-- **An answered window is effective.** If no other mute has given the lock back since, an
evaluation of a sample before the end of the window, which takes the lock after the answer, sends
and saves nothing. -/
theorem mute_effective (hfree : w.locked = false)
    (h : Lts.run (Services.next http crypto) (Pool.start w) acts = some v)
    {since before : ServicesLog} {i : Nat} {minutes until_ : Int}
    (hlog : v.log = since ++ .returned i (.silenced (.ok until_)) :: before)
    (hmute : .invoked i (.setSilence minutes) ∈ before)
    (hquiet : ∀ j s r m, .did j (.unlock s) r ∈ since → .invoked j m ∈ v.log → m.mutes = false)
    {j : Nat} {now : Int} {cpuPercent : Float64} {s : Service}
    (hop : .invoked j (.evaluateSnapshot now cpuPercent) ∈ v.log)
    (hlock : .did j .lock s ∈ since) (hnow : now < until_) :
    Pool.hist j v.log <:+ evaluated s now cpuPercent := by
  obtain ⟨hgood, hserial⟩ := services_run hfree h
  have hconforms := hgood.log
  have hsections := hserial.sections
  have hprompt := Pool.prompt_run h
  rw [hlog] at hconforms hsections hprompt
  -- The version that was answered has the window.
  obtain ⟨m, hm, -, hfin⟩ := hconforms.returned
  have hbefore := (hconforms.append since).2
  obtain rfl := hbefore.invoked_unique hmute hm
  obtain ⟨s₁, rest, hhist, hs₁⟩ := hfin until_ rfl
  obtain ⟨earlier, hearlier⟩ := (hprompt.append since).head_did hbefore hhist
  have hanswered : (serviceLock.version w.service
      (.returned i (.silenced (.ok until_)) :: before)).status.mutedUntil = some until_ := by
    rw [hearlier]
    exact hs₁
  -- So has the version that the evaluation finds.
  obtain ⟨later, middle, rfl⟩ := List.append_of_mem hlock
  rw [List.append_assoc] at hsections hconforms
  have hfound : s = serviceLock.version w.service
      (middle ++ .returned i (.silenced (.ok until_)) :: before) := hsections.shown rfl
  have hs : s.status.mutedUntil = some until_ := by
    rw [hfound]
    refine Pool.Brackets.Sections.invariant_since
      (I := fun s => s.status.mutedUntil = some until_) hanswered ?_ (hsections.append later).2
    intro k op r y m x hd hy hmem hrel hx
    have hin : .invoked k m ∈ v.log := by
      rw [hlog, List.append_assoc]
      exact List.mem_append_right _ (List.mem_cons_of_mem _ hmem)
    cases op with
    | unlock s' =>
      have hd' : .did k (.unlock s') r ∈ later ++ .did j .lock s :: middle :=
        List.mem_append_right _ (List.mem_cons_of_mem _ hd)
      rw [mutedUntil_section hrel (hquiet k s' r m hd' hin), hx]
    | _ => cases hy
  -- So it triggers nothing.
  have hcalls := evaluation_calls hgood.log hop
  have hmem : (⟨.lock, s⟩ : Prog.Call Op Op.Ans) ∈ Pool.hist j v.log := by
    rw [Pool.mem_hist, hlog]
    exact List.mem_append_left _ hlock
  generalize Pool.hist j v.log = calls at hcalls hmem
  cases hcalls with
  | waiting => cases hmem
  | inside s' =>
    obtain rfl := eq_of_heq (Sigma.mk.inj (List.mem_singleton.1 hmem)).2
    exact List.suffix_cons _ _
  | sending s' rest' hsent =>
    have hsame : s = s' := by
      rcases List.mem_append.1 hmem with hrest | hlast
      · obtain ⟨t, -, hfor⟩ := hsent _ hrest
        exact absurd (ForTrigger.free hfor) id
      · simp only [evaluated, List.mem_cons, List.not_mem_nil, or_false] at hlast
        rcases hlast with heq | heq
        · cases heq
        · exact eq_of_heq (Sigma.mk.inj heq).2
    subst hsame
    have hrest : rest' = [] := by
      refine List.eq_nil_iff_forall_not_mem.2 fun c hc => ?_
      obtain ⟨t, ht, -⟩ := hsent c hc
      rw [evaluate_muted cpuPercent hs hnow] at ht
      cases ht
    rw [hrest]
    exact List.suffix_rfl

/-- A first sample, a mute of half an hour, and a sample that would be an alarm. -/
def mutedOverload : List ServicesAct :=
  [.invoke (.evaluateSnapshot 0 (.num 90)), .step 0 {}, .step 0 {}, .invoke (.setSilence 30),
    .step 1 {}, .step 1 {}, .step 1 {}, .step 1 {},
    .invoke (.evaluateSnapshot 2000000000 (.num 90)), .step 2 {}, .step 2 {}]

def muted : Services :=
  (Lts.run (Services.next plainHttp plainCrypto) (Pool.start quickWorld) mutedOverload).getD
    (Pool.start quickWorld)

def mutedService : Service :=
  (quickWorld.service.evaluate 0 (.num 90)).2.silence (some 1800000000000)

theorem mute_effective_mutedOverload :
    Pool.hist 2 muted.log <:+ evaluated mutedService 2000000000 (.num 90) := by
  have hrun : Lts.run (Services.next plainHttp plainCrypto) (Pool.start quickWorld) mutedOverload =
      some muted := rfl
  have hlog : muted.log = [.returned 2 .done,
      .did 2 (.unlock (mutedService.evaluate 2000000000 (.num 90)).2) (), .did 2 .lock mutedService,
      .invoked 2 (.evaluateSnapshot 2000000000 (.num 90))] ++
      .returned 1 (.silenced (.ok 1800000000000)) :: muted.log.drop 5 := rfl
  have hop : .invoked 2 (.evaluateSnapshot 2000000000 (.num 90)) ∈ muted.log :=
    List.mem_of_getElem? (i := 3) rfl
  refine mute_effective rfl hrun hlog (List.mem_of_getElem? (i := 4) rfl) ?_ hop (by simp)
    (by decide)
  intro j s r m hd hm
  obtain rfl : j = 2 := by
    simp only [List.mem_cons, List.not_mem_nil, or_false, reduceCtorEq, false_or] at hd
    rcases hd with heq | heq <;> cases heq
    rfl
  obtain rfl := (services_run rfl hrun).1.log.invoked_unique hop hm
  rfl

end QuickVps.Alerts
