import QuickVps.Alerts.EvaluatorHistory
import QuickVps.Alerts.Levels
import QuickVps.Alerts.Methods

/-!
# Evaluations while everything else goes on

Any number of methods run at the same time, and the lock puts the evaluations in an order.

* `evaluations` — the samples of a log in that order, each with the settings and the mute window
  that it found.
* `evaluator_serial` — the evaluator is that of the samples evaluated one after the other.
* `evaluation_exact` — an evaluation sends what its sample triggers in that order, under the
  settings that it found, and asks the store to save it.
* `answers_serial` — what is shown is one version of the service, the current one at some moment of
  the call.
-/

namespace QuickVps.Alerts

open Go

/-- The arguments of the evaluator for a sample that finds the service. -/
def Service.sample (s : Service) (now : Int) (cpuPercent : Float64) : Input where
  now := now
  cpu := cpuPercent
  cfg := s.cfg
  silenced := isSilencedAt s.status.mutedUntil now

/-- The samples in the order of the lock, the newest first. -/
def evaluations (s₀ : Service) : ServicesLog → List Input
  | [] => []
  | .did i (.unlock _) _ :: log =>
    match Pool.opOf i log with
    | some (.evaluateSnapshot now cpuPercent) =>
      (serviceLock.version s₀ log).sample now cpuPercent :: evaluations s₀ log
    | _ => evaluations s₀ log
  | _ :: log => evaluations s₀ log

variable {http : Http} {crypto : Crypto} {w : World} {acts : List ServicesAct} {v : Services}
  {s₀ : Service} {log : ServicesLog}

/-! ## The evaluator -/

/-- What a section does to the evaluator. -/
theorem evaluator_section {m : Method} {s s' : Service} (h : m.section s s')
    (hm : ∀ now cpuPercent, m ≠ .evaluateSnapshot now cpuPercent) : s'.evaluator = s.evaluator := by
  cases m with
  | evaluateSnapshot now cpuPercent => exact absurd rfl (hm now cpuPercent)
  | cleanupOldEvents => obtain rfl | ⟨now, later, -, rfl⟩ := h <;> rfl
  | updateConfig input => obtain rfl | ⟨-, secrets, row, rfl⟩ := h <;> rfl
  | setSilence minutes =>
    obtain ⟨now, rfl⟩ := h
    rfl
  | clearSilence =>
    cases h
    rfl
  | _ => exact h.elim

/-- The version after a log, and its evaluator. -/
theorem evaluator_version (hnew : s₀.evaluator = newEvaluator)
    (hlog : Pool.Conforms Method.ok Method.fin log)
    (hsec : serviceLock.Sections Method.section s₀ log) :
    (serviceLock.version s₀ log).evaluator = (run (evaluations s₀ log)).2 := by
  induction log with
  | nil => exact hnew
  | cons ev log ih =>
    cases ev with
    | invoked => exact ih hlog.2 hsec
    | returned => exact ih hlog.2 hsec
    | did i op r =>
      have hih := ih hlog.2 hsec.2
      cases hop : serviceLock.gives op with
      | none =>
        rw [Pool.Brackets.version_other hop, hih]
        cases op <;> first | rfl | cases hop
      | some s =>
        obtain ⟨-, m, hm, hrel⟩ := hsec.1.2 s hop
        have hstarted := hlog.2.opOf_eq hm
        rw [Pool.Brackets.version_give hop]
        cases op with
        | unlock =>
          by_cases heval : ∃ now cpuPercent, m = .evaluateSnapshot now cpuPercent
          · obtain ⟨now, cpuPercent, rfl⟩ := heval
            have hs : s = ((serviceLock.version s₀ log).evaluate now cpuPercent).2 := hrel
            simp only [evaluations, hstarted, run_cons]
            rw [hs, evaluatorAfter, ← hih]
            rfl
          · have hother : evaluations s₀ (.did i (.unlock _) r :: log) = evaluations s₀ log := by
              cases m <;> simp_all [evaluations]
            rw [hother, ← hih]
            exact evaluator_section hrel fun now cpuPercent heq => heval ⟨now, cpuPercent, heq⟩
        | _ => cases hop

/-- **The evaluator is serial.** Whatever runs at the same time, it is where the samples leave it
when they come one after the other, in the order of the lock. -/
theorem evaluator_serial (hfree : w.locked = false) (hnew : w.service.evaluator = newEvaluator)
    (h : Lts.run (Services.next http crypto) (Pool.start w) acts = some v) :
    v.shared.service.evaluator = (run (evaluations w.service v.log)).2 := by
  obtain ⟨hgood, hserial⟩ := services_run hfree h
  rw [hserial.current]
  exact evaluator_version hnew hgood.log hserial.sections

/-- Critical load is reported after a second, and only in the history. -/
def quickAlarm : Config :=
  { defaultConfig with criticalForSec := 1, telegramEnabled := false, emailEnabled := false }

def quickWorld : World := World.fresh quickAlarm ⟨"", "", ""⟩

/-- Two evaluations and a request that run at the same time. -/
def overlapping : List ServicesAct :=
  [.invoke (.evaluateSnapshot 0 (.num 90)), .invoke (.evaluateSnapshot 2000000000 (.num 90)),
    .invoke (.configView false), .step 0 {}, .step 0 {}, .step 2 {}, .step 1 {}, .step 1 {},
    .step 1 {}]

def overlapped : Services :=
  (Lts.run (Services.next plainHttp plainCrypto) (Pool.start quickWorld) overlapping).getD
    (Pool.start quickWorld)

theorem run_overlapping :
    Lts.run (Services.next plainHttp plainCrypto) (Pool.start quickWorld) overlapping =
      some overlapped := rfl

theorem evaluator_serial_overlapping :
    overlapped.shared.service.evaluator =
      (run (evaluations quickWorld.service overlapped.log)).2 :=
  evaluator_serial (w := quickWorld) rfl rfl run_overlapping

/-! ## One evaluation -/

/-- The call of a program with its place in the log. -/
theorem exists_did {i : Nat} {op : Op} {r : op.Ans} {h : Calls} (hcalls : Pool.hist i log = h)
    (hmem : ⟨op, r⟩ ∈ h) : ∃ later earlier, log = later ++ .did i op r :: earlier := by
  rw [← hcalls, Pool.mem_hist] at hmem
  exact List.append_of_mem hmem

/-- **An evaluation is exact.** When it returns, it has sent what its sample triggers after the
samples that took the lock before it, under the settings that it found with the lock, and has asked
the store to save it. -/
theorem evaluation_exact (hfree : w.locked = false) (hnew : w.service.evaluator = newEvaluator)
    (h : Lts.run (Services.next http crypto) (Pool.start w) acts = some v)
    {since before : ServicesLog} {i : Nat} {answer : Answer} {now : Int} {cpuPercent : Float64}
    (hlog : v.log = since ++ .returned i answer :: before)
    (hop : .invoked i (.evaluateSnapshot now cpuPercent) ∈ before) :
    ∃ s later earlier rest, before = later ++ .did i .lock s :: earlier ∧
      s = serviceLock.version w.service earlier ∧
      Pool.hist i before = rest ++ evaluated s now cpuPercent ∧
      (saves rest).reverse =
        (recordAfter (evaluations w.service earlier) (s.sample now cpuPercent)).out.map
          (Trigger.alarm s now) ∧
      ∀ c ∈ rest, ∃ t ∈ (recordAfter (evaluations w.service earlier) (s.sample now cpuPercent)).out,
        c.1.ForTrigger s now t := by
  obtain ⟨hgood, hserial⟩ := services_run hfree h
  have hconforms := hgood.log
  have hsections := hserial.sections
  rw [hlog] at hconforms hsections
  obtain ⟨m, hm, -, hfin⟩ := hconforms.returned
  have hbefore : Pool.Conforms Method.ok Method.fin before := (hconforms.append since).2
  obtain rfl := hbefore.invoked_unique hm hop
  obtain ⟨s, -, rest, hcalls, hrows, hsent⟩ := hfin
  have hlock : (⟨.lock, s⟩ : Prog.Call Op Op.Ans) ∈ rest ++ evaluated s now cpuPercent := by
    simp [evaluated]
  obtain ⟨later, earlier, rfl⟩ := exists_did hcalls hlock
  have hearlier : serviceLock.Sections Method.section w.service
      (later ++ .did i .lock s :: earlier) := hsections.append since
  have hs : s = serviceLock.version w.service earlier := hearlier.shown rfl
  have hout : (s.evaluate now cpuPercent).1 =
      (recordAfter (evaluations w.service earlier) (s.sample now cpuPercent)).out := by
    rw [recordAfter, ← evaluator_version hnew (hbefore.append later).2 (hearlier.append later).2,
      ← hs]
    rfl
  rw [hout] at hrows hsent
  exact ⟨s, later, earlier, rest, rfl, hs, hcalls, hrows, hsent⟩

theorem evaluation_exact_overlapping :
    ∃ s later earlier rest, overlapped.log.drop 1 = later ++ .did 1 .lock s :: earlier ∧
      s = serviceLock.version quickWorld.service earlier ∧
      Pool.hist 1 (overlapped.log.drop 1) = rest ++ evaluated s 2000000000 (.num 90) ∧
      (saves rest).reverse =
        (recordAfter (evaluations quickWorld.service earlier)
          (s.sample 2000000000 (.num 90))).out.map (Trigger.alarm s 2000000000) ∧
      ∀ c ∈ rest, ∃ t ∈ (recordAfter (evaluations quickWorld.service earlier)
        (s.sample 2000000000 (.num 90))).out, c.1.ForTrigger s 2000000000 t := by
  have hlog : overlapped.log = [] ++ .returned 1 .done :: overlapped.log.drop 1 := rfl
  exact evaluation_exact rfl rfl run_overlapping hlog (List.mem_of_getElem? (i := 9) rfl)

/-! ## What is shown -/

/-- What a method shows of one version. -/
def Method.Shown : Method → Service → Answer → Prop
  | configView readOnly, s, answer => answer = .view (s.configView readOnly)
  | status readOnly, s, answer => ∃ now, answer = .status (s.statusAt readOnly now)
  | isEnabled, s, answer => answer = .enabled s.cfg.enabled
  | updateConfig _, s, answer => ∀ view, answer = .updated (.ok view) → view = s.updatedView
  | _, _, _ => True

/-- The version that a program has seen with a call was current after its start. -/
theorem exists_shown (hconforms : Pool.Conforms Method.ok Method.fin log)
    (hsections : serviceLock.Sections Method.section s₀ log) {i : Nat} {m : Method}
    (hop : .invoked i m ∈ log) {op : Op} {r : op.Ans} {s : Service} {h : Calls}
    (hcalls : Pool.hist i log = h) (hmem : ⟨op, r⟩ ∈ h) (hs : serviceLock.shows op r = some s) :
    ∃ later earlier, log = later ++ earlier ∧ .invoked i m ∈ earlier ∧
      serviceLock.version s₀ earlier = s := by
  obtain ⟨later, earlier, rfl⟩ := exists_did hcalls hmem
  obtain ⟨m', hm', -⟩ := hconforms.did
  obtain rfl := hconforms.invoked_unique hop (List.mem_append_right _ (List.mem_cons_of_mem _ hm'))
  exact ⟨later ++ [.did i op r], earlier, by simp, hm', (hsections.shown hs).symm⟩

/-- **What is shown is one version**, the current one at some moment of the call. -/
theorem answers_serial (hfree : w.locked = false)
    (h : Lts.run (Services.next http crypto) (Pool.start w) acts = some v)
    {since before : ServicesLog} {i : Nat} {answer : Answer} {m : Method}
    (hlog : v.log = since ++ .returned i answer :: before) (hop : .invoked i m ∈ before) :
    ∃ later earlier, before = later ++ earlier ∧ .invoked i m ∈ earlier ∧
      m.Shown (serviceLock.version w.service earlier) answer := by
  obtain ⟨hgood, hserial⟩ := services_run hfree h
  have hconforms := hgood.log
  have hsections := hserial.sections
  rw [hlog] at hconforms hsections
  obtain ⟨m', hm', -, hfin⟩ := hconforms.returned
  have hbefore : Pool.Conforms Method.ok Method.fin before := (hconforms.append since).2
  have hversions : serviceLock.Sections Method.section w.service before := hsections.append since
  obtain rfl := hbefore.invoked_unique hop hm'
  cases m with
  | configView readOnly =>
    obtain ⟨s, hcalls, rfl⟩ := hfin
    obtain ⟨later, earlier, rfl, hstarted, rfl⟩ :=
      exists_shown hbefore hversions hop hcalls List.mem_cons_self rfl
    exact ⟨later, earlier, rfl, hstarted, rfl⟩
  | status readOnly =>
    obtain ⟨s, now, hcalls, rfl⟩ := hfin
    obtain ⟨later, earlier, rfl, hstarted, rfl⟩ :=
      exists_shown hbefore hversions hop hcalls (List.mem_cons_of_mem _ List.mem_cons_self) rfl
    exact ⟨later, earlier, rfl, hstarted, now, rfl⟩
  | isEnabled =>
    obtain ⟨s, hcalls, rfl⟩ := hfin
    obtain ⟨later, earlier, rfl, hstarted, rfl⟩ :=
      exists_shown hbefore hversions hop hcalls List.mem_cons_self rfl
    exact ⟨later, earlier, rfl, hstarted, rfl⟩
  | updateConfig input =>
    by_cases hview : ∃ view, answer = .updated (.ok view)
    · obtain ⟨view, rfl⟩ := hview
      obtain ⟨s, rest, hcalls, rfl⟩ := hfin view rfl
      obtain ⟨later, earlier, rfl⟩ := exists_did hcalls List.mem_cons_self
      obtain ⟨m', hm', -⟩ := hbefore.did
      obtain rfl := hbefore.invoked_unique hop
        (List.mem_append_right _ (List.mem_cons_of_mem _ hm'))
      refine ⟨later, .did i (.unlock s) () :: earlier, rfl, List.mem_cons_of_mem _ hm', ?_⟩
      intro view' heq
      cases heq
      rw [Pool.Brackets.version_give rfl]
    · exact ⟨[], before, rfl, hop, fun view heq => absurd ⟨view, heq⟩ hview⟩
  | _ => exact ⟨[], before, rfl, hop, trivial⟩

theorem answers_serial_overlapping :
    ∃ later earlier, overlapped.log.drop 5 = later ++ earlier ∧
      .invoked 2 (.configView false) ∈ earlier ∧
      (Method.configView false).Shown (serviceLock.version quickWorld.service earlier)
        (.view (quickWorld.service.configView false)) := by
  have hlog : overlapped.log = overlapped.log.take 4 ++
      .returned 2 (.view (quickWorld.service.configView false)) :: overlapped.log.drop 5 := rfl
  exact answers_serial rfl run_overlapping hlog (List.mem_of_getElem? (i := 4) rfl)

end QuickVps.Alerts
