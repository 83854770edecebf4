import QuickVps.Alerts.Evaluations
import QuickVps.Metrics.Subscriptions

/-!
# From the collector to the alert history

`main` subscribes the alert service to the collector and starts its `Run`, which evaluates one
snapshot after the other and drops old events in between, while requests call the other methods.

* `Feed`, `Feed.step` — the collector, the loop of `Run` and the service with all calls of its
  methods.
* `stored`, `alarms` — the rows that evaluations have asked the store to save, and those of a
  serial run.
* `Standing` — the invariant: what `Run` has done with the snapshots it has received.
* `fed_in_order` — which samples are evaluated, and which alarms reach the history.
-/

namespace QuickVps.Alerts

open Go
open Metrics (Collector)

/-! ## Logs -/

/-- What a method evaluates. -/
def Method.sampled : Method → Option (Int × Float64)
  | evaluateSnapshot now cpuPercent => some (now, cpuPercent)
  | _ => none

/-- The samples of the evaluations that were started, the newest first. -/
def startedSamples : ServicesLog → List (Int × Float64)
  | [] => []
  | .invoked _ m :: log => m.sampled.toList ++ startedSamples log
  | _ :: log => startedSamples log

/-- The rows that evaluations have asked the store to save, the newest first. -/
def stored : ServicesLog → List Alarm
  | [] => []
  | .did i op r :: log =>
    if ((Pool.opOf i log).bind Method.sampled).isSome then saves [⟨op, r⟩] ++ stored log
    else stored log
  | _ :: log => stored log

/-- What is left of the arguments of the evaluator without the settings. -/
def Input.sampled (i : Input) : Int × Float64 := (i.now, i.cpu)

/-- The alarms of a serial run, the newest first. -/
def alarms (hostname : String) : List Input → List Alarm
  | [] => []
  | i :: past =>
    ((recordAfter past i).out.map fun t =>
      (⟨t.level, formatAlertMessage t.level hostname t.cpuPercent i.now, t.cpuPercent, i.now⟩ :
        Alarm)).reverse ++ alarms hostname past

section Logs

variable {s₀ : Service} {log : ServicesLog}

theorem startedSamples_settle (i : Nat) (p : M Answer) :
    startedSamples (Pool.settle i p log) = startedSamples log := by
  cases p <;> rfl

theorem stored_settle (i : Nat) (p : M Answer) : stored (Pool.settle i p log) = stored log := by
  cases p <;> rfl

theorem evaluations_settle (i : Nat) (p : M Answer) :
    evaluations s₀ (Pool.settle i p log) = evaluations s₀ log := by
  cases p <;> rfl

theorem stored_did {i : Nat} {now : Int} {cpuPercent : Float64}
    (hop : Pool.opOf i log = some (.evaluateSnapshot now cpuPercent)) (op : Op) (r : op.Ans) :
    stored (.did i op r :: log) = saves [⟨op, r⟩] ++ stored log := by
  simp [stored, hop, Method.sampled]

theorem stored_did_other {i : Nat} {m : Method} (hop : Pool.opOf i log = some m)
    (hm : m.sampled = none) (op : Op) (r : op.Ans) : stored (.did i op r :: log) = stored log := by
  simp [stored, hop, hm]

theorem evaluations_unlock {i : Nat} {now : Int} {cpuPercent : Float64}
    (hop : Pool.opOf i log = some (.evaluateSnapshot now cpuPercent)) (s : Service)
    (r : (Op.unlock s).Ans) :
    evaluations s₀ (.did i (.unlock s) r :: log) =
      (serviceLock.version s₀ log).sample now cpuPercent :: evaluations s₀ log := by
  simp [evaluations, hop]

theorem evaluations_call {i : Nat} {op : Op} {r : op.Ans} (hop : ∀ s, op ≠ .unlock s) :
    evaluations s₀ (.did i op r :: log) = evaluations s₀ log := by
  cases op with
  | unlock s => exact absurd rfl (hop s)
  | _ => rfl

theorem evaluations_did_other {i : Nat} {m : Method} (hop : Pool.opOf i log = some m)
    (hm : m.sampled = none) (op : Op) (r : op.Ans) :
    evaluations s₀ (.did i op r :: log) = evaluations s₀ log := by
  cases op with
  | unlock s =>
    cases m with
    | evaluateSnapshot now cpuPercent => cases hm
    | _ => simp [evaluations, hop]
  | _ => rfl

/-- The two logs have the same evaluations, with what they have saved. -/
structure SameEvaluations (s₀ : Service) (log log' : ServicesLog) : Prop where
  evaluations : evaluations s₀ log' = evaluations s₀ log
  stored : stored log' = stored log
  samples : startedSamples log' = startedSamples log

theorem same_settle (i : Nat) (p : M Answer) : SameEvaluations s₀ log (Pool.settle i p log) :=
  ⟨evaluations_settle i p, stored_settle i p, startedSamples_settle i p⟩

theorem same_invoke {m : Method} (hm : m.sampled = none) (i : Nat) (p : M Answer) :
    SameEvaluations s₀ log (Pool.settle i p (.invoked i m :: log)) where
  evaluations := evaluations_settle i p
  stored := stored_settle i p
  samples := by
    rw [startedSamples_settle, startedSamples, hm]
    rfl

theorem same_did {i : Nat} {m : Method} (hop : Pool.opOf i log = some m) (hm : m.sampled = none)
    (op : Op) (r : op.Ans) (p : M Answer) :
    SameEvaluations s₀ log (Pool.settle i p (.did i op r :: log)) where
  evaluations := (evaluations_settle i p).trans (evaluations_did_other hop hm op r)
  stored := (stored_settle i p).trans (stored_did_other hop hm op r)
  samples := startedSamples_settle i p

end Logs

/-! ## One evaluation -/

/-- Every evaluation that was started is over. -/
structure Settled (s₀ : Service) (log : ServicesLog) : Prop where
  samples : (evaluations s₀ log).map Input.sampled = startedSamples log
  rows : stored log = alarms s₀.hostname (evaluations s₀ log)

/-- Every evaluation that was started is over but for program `i`, which was started last: before it
has given the lock back, or when it has saved some of the rows of its triggers. -/
inductive Underway (s₀ : Service) (log : ServicesLog) (i : Nat) (now : Int)
    (cpuPercent : Float64) : Prop
  | before (hcalls : Pool.hist i log = [] ∨ ∃ s : Service, Pool.hist i log = [⟨.lock, s⟩])
      (hsamples : (now, cpuPercent) :: (evaluations s₀ log).map Input.sampled =
        startedSamples log)
      (hrows : stored log = alarms s₀.hostname (evaluations s₀ log))
  | after (s : Service) (rest : Calls) (past : List Input)
      (hcalls : Pool.hist i log = rest ++ evaluated s now cpuPercent)
      (hsamples : (evaluations s₀ log).map Input.sampled = startedSamples log)
      (hpast : evaluations s₀ log = s.sample now cpuPercent :: past)
      (halarms : alarms s₀.hostname (evaluations s₀ log) =
        ((s.evaluate now cpuPercent).1.map (Trigger.alarm s now)).reverse ++
          alarms s₀.hostname past)
      (hsaved : (saves rest).reverse <+: (s.evaluate now cpuPercent).1.map (Trigger.alarm s now))
      (hrows : stored log = saves rest ++ alarms s₀.hostname past)

section Evaluation

variable {s₀ s s' : Service} {log log' : ServicesLog} {i : Nat} {now : Int} {cpuPercent : Float64}
  {rest rest' : Calls}

theorem Settled.same (h : Settled s₀ log) (hsame : SameEvaluations s₀ log log') :
    Settled s₀ log' where
  samples := by rw [hsame.evaluations, hsame.samples, h.samples]
  rows := by rw [hsame.evaluations, hsame.stored, h.rows]

theorem Underway.same (h : Underway s₀ log i now cpuPercent) (hsame : SameEvaluations s₀ log log')
    (hhist : Pool.hist i log' = Pool.hist i log) : Underway s₀ log' i now cpuPercent := by
  cases h with
  | before hcalls hsamples hrows =>
    refine .before (by rwa [hhist]) ?_ ?_
    · rw [hsame.evaluations, hsame.samples, hsamples]
    · rw [hsame.evaluations, hsame.stored, hrows]
  | after s rest past hcalls hsamples hpast halarms hsaved hrows =>
    refine .after s rest past (hhist.trans hcalls) ?_ (hsame.evaluations.trans hpast) ?_ hsaved
      (hsame.stored.trans hrows)
    · rw [hsame.evaluations, hsame.samples, hsamples]
    · rw [hsame.evaluations, halarms]

theorem evaluated_inj
    (h : rest ++ evaluated s now cpuPercent = rest' ++ evaluated s' now cpuPercent) :
    rest = rest' ∧ s = s' := by
  obtain ⟨hrest, hlast⟩ := List.append_inj' h rfl
  have hlock := (List.cons.inj (List.cons.inj hlast).2).1
  exact ⟨hrest, eq_of_heq (Sigma.mk.inj hlock).2⟩

/-- The calls of an evaluation that has given the lock back are not those of one that has not. -/
theorem evaluated_ne {h : Calls} (hcalls : h = [] ∨ ∃ s : Service, h = [⟨.lock, s⟩]) :
    h ≠ rest ++ evaluated s' now cpuPercent := by
  intro heq
  have hlen := congrArg List.length heq
  rw [List.length_append] at hlen
  rcases hcalls with rfl | ⟨s, rfl⟩ <;> simp [evaluated] at hlen

/-- The host name never changes. -/
theorem hostname_version (hsec : serviceLock.Sections Method.section s₀ log) :
    (serviceLock.version s₀ log).hostname = s₀.hostname := by
  refine hsec.invariant (I := fun s => s.hostname = s₀.hostname) (fun m s s' hs hhost => ?_) rfl
  cases m with
  | evaluateSnapshot now cpuPercent =>
    cases hs
    exact hhost
  | cleanupOldEvents => obtain rfl | ⟨now, later, -, rfl⟩ := hs <;> exact hhost
  | updateConfig input => obtain rfl | ⟨-, secrets, row, rfl⟩ := hs <;> exact hhost
  | setSilence minutes =>
    obtain ⟨now, rfl⟩ := hs
    exact hhost
  | clearSilence =>
    cases hs
    exact hhost
  | _ => exact hs.elim

/-- What a call for a trigger saves is the next row. -/
theorem saves_next {t : Trigger} {done left : List Trigger} {op : Op}
    (htriggers : (s.evaluate now cpuPercent).1 = done ++ t :: left)
    (hsaved : (saves rest).reverse = done.map (Trigger.alarm s now))
    (hfor : op.ForTrigger s now t) (r : op.Ans) :
    (saves (⟨op, r⟩ :: rest)).reverse <+:
      (s.evaluate now cpuPercent).1.map (Trigger.alarm s now) := by
  rw [saves_cons, List.reverse_append, hsaved, reverse_saves, htriggers, List.map_append]
  refine List.prefix_append_right_inj _ |>.2 ?_
  rcases hfor with hsends | ⟨channels, rfl⟩
  · rw [hsends.saves]
    exact List.nil_prefix
  · exact List.prefix_append [t.alarm s now] _

/-- A call of the evaluation. -/
theorem underway_did (hnew : s₀.evaluator = newEvaluator)
    (hlog : Pool.Conforms Method.ok Method.fin log)
    (hsec : serviceLock.Sections Method.section s₀ log)
    (hinside : ∀ s, serviceLock.entered (Pool.hist i log) = some s →
      s = serviceLock.version s₀ log)
    (hop : Pool.opOf i log = some (.evaluateSnapshot now cpuPercent)) {op : Op}
    (hok : evaluateOk now cpuPercent (Pool.hist i log) op) (r : op.Ans)
    (h : Underway s₀ log i now cpuPercent) :
    Underway s₀ (.did i op r :: log) i now cpuPercent := by
  rcases hok with ⟨rfl, hnone⟩ | ⟨s, rfl, hlock⟩ | ⟨s, rest, hcalls', done, t, left, htriggers,
    hsaved', hfor⟩
  · -- It takes the lock.
    cases h with
    | before hcalls hsamples hrows =>
      refine .before (Or.inr ⟨r, ?_⟩) hsamples ?_
      · rw [Pool.hist_did_self, hnone]
      · rw [stored_did hop]
        exact hrows
    | after s rest past hcalls => exact absurd hcalls (evaluated_ne (Or.inl hnone))
  · -- It gives it back.
    cases h with
    | before hcalls hsamples hrows =>
      obtain rfl := hinside s (by rw [hlock]; rfl)
      have hout : ((serviceLock.version s₀ log).evaluate now cpuPercent).1 =
          (recordAfter (evaluations s₀ log)
            ((serviceLock.version s₀ log).sample now cpuPercent)).out := by
        rw [recordAfter, ← evaluator_version hnew hlog hsec]
        rfl
      refine .after _ [] (evaluations s₀ log) ?_ ?_ (evaluations_unlock hop _ r) ?_
        List.nil_prefix ?_
      · rw [Pool.hist_did_self, hlock]
        rfl
      · rw [evaluations_unlock hop, List.map_cons]
        exact hsamples
      · rw [evaluations_unlock hop, alarms, ← hout, ← hostname_version hsec]
        rfl
      · rw [stored_did hop]
        exact hrows
    | after s' rest past hcalls => exact absurd hcalls (evaluated_ne (Or.inr ⟨s, hlock⟩))
  · cases h with
    | before hcalls => exact absurd hcalls' (evaluated_ne hcalls)
    | after s' rest' past hcalls hsamples hpast halarms hsaved hrows =>
      obtain ⟨rfl, rfl⟩ := evaluated_inj (hcalls'.symm.trans hcalls)
      have hsame : evaluations s₀ (.did i op r :: log) = evaluations s₀ log :=
        evaluations_call fun s' heq => by
          subst heq
          exact ForTrigger.free hfor
      refine .after s (⟨op, r⟩ :: rest) past ?_ ?_ (hsame.trans hpast) ?_
        (saves_next htriggers hsaved' hfor r) ?_
      · rw [Pool.hist_did_self, hcalls']
        rfl
      · rw [hsame]
        exact hsamples
      · rw [hsame, halarms]
      · rw [stored_did hop, hrows, saves_cons _ rest, List.append_assoc]

/-- The evaluation returns when it has saved all its rows. -/
theorem settled_of_returned (h : Underway s₀ log i now cpuPercent)
    (hfin : evaluateFin now cpuPercent (Pool.hist i log)) : Settled s₀ log := by
  obtain ⟨s', -, rest', hcalls', hsaved', -⟩ := hfin
  cases h with
  | before hcalls => exact absurd hcalls' (evaluated_ne hcalls)
  | after s rest past hcalls hsamples hpast halarms hsaved hrows =>
    obtain ⟨rfl, rfl⟩ := evaluated_inj (hcalls.symm.trans hcalls')
    refine ⟨hsamples, ?_⟩
    rw [hrows, halarms, ← hsaved', List.reverse_reverse]

/-- The rows that were saved are the first ones of all alarms. -/
theorem Underway.rows_suffix (h : Underway s₀ log i now cpuPercent) :
    stored log <:+ alarms s₀.hostname (evaluations s₀ log) := by
  cases h with
  | before hcalls hsamples hrows => exact ⟨[], hrows⟩
  | after s rest past hcalls hsamples hpast halarms hsaved hrows =>
    rw [hrows, halarms]
    obtain ⟨left, hleft⟩ := hsaved
    refine ⟨left.reverse, ?_⟩
    rw [← hleft, List.reverse_append, List.reverse_reverse, List.append_assoc]

end Evaluation

/-! ## The loop of `Run` -/

/-- Where `Run` stands: not started yet, in its select, in the method that it has called as program
`i`, or returned. `k` is the index of its subscription. -/
inductive RunLoop where
  | starting
  | waiting (k : Nat)
  | calling (k i : Nat)
  | returned (k : Nat)
  deriving DecidableEq

/-- The subscription of `Run`. -/
def RunLoop.sub : RunLoop → Option Nat
  | starting => none
  | waiting k => some k
  | calling k _ => some k
  | returned k => some k

structure Feed where
  collector : Collector
  loop : RunLoop
  services : Services

def Feed.start (interval : Int) (w : World) : Feed where
  collector := Metrics.newCollector interval
  loop := .starting
  services := Pool.start w

/-- A step of the collector or another subscriber, of `Run`, of a request or of a method that was
called. -/
inductive FeedAction where
  | collector (a : Metrics.Action)
  | subscribe
  | take
  | cleanup
  | resume
  | stop
  | request (m : Method)
  | step (i : Nat) (c : Choice)

namespace Feed

variable (http : Http) (crypto : Crypto)

/-- A method is called. -/
def call (f : Feed) (m : Method) : Option Feed :=
  (Services.next http crypto f.services (.invoke m)).map fun v => { f with services := v }

/-- `Run` calls a method, and waits for it. -/
def await (f : Feed) (k : Nat) (m : Method) : Option Feed :=
  { f with loop := .calling k f.services.threads.length }.call http crypto m

/-- Nobody but `Run` takes from its subscription. -/
def stepCollector (f : Feed) (a : Metrics.Action) : Option Feed :=
  if f.loop.sub.map Metrics.Action.take = some a then none
  else (Metrics.step f.collector a).map fun c => { f with collector := c }

/-- `main` calls `Subscribe` and starts `Run`. -/
def subscribe (f : Feed) : Option Feed :=
  match f.loop with
  | .starting =>
    f.collector.subscribe.map fun c =>
      { f with collector := c, loop := .waiting f.collector.subs.length }
  | _ => none

/-- `Run` receives a snapshot and calls `EvaluateSnapshot`; `sample` says what it reads of it. -/
def take (sample : Nat → Int × Float64) (f : Feed) : Option Feed :=
  match f.loop with
  | .waiting k =>
    (f.collector.take k).bind fun r =>
      { f with collector := r.2 }.await http crypto k
        (.evaluateSnapshot (sample r.1).1 (sample r.1).2)
  | _ => none

/-- The branch of the ticker. -/
def cleanup (f : Feed) : Option Feed :=
  match f.loop with
  | .waiting k => f.await http crypto k .cleanupOldEvents
  | _ => none

/-- The method that `Run` has called has returned. -/
def resume (f : Feed) : Option Feed :=
  match f.loop with
  | .calling k i =>
    if (f.services.threads[i]?).any Pool.Thread.returned then some { f with loop := .waiting k }
    else none
  | _ => none

/-- The branch of `ctx.Done`. -/
def stop (f : Feed) : Option Feed :=
  match f.loop with
  | .waiting k => some { f with loop := .returned k }
  | _ => none

/-- A request calls a method, which is not one of those that `Run` calls. -/
def request (f : Feed) (m : Method) : Option Feed :=
  match m with
  | .evaluateSnapshot _ _ => none
  | .cleanupOldEvents => none
  | m => f.call http crypto m

def step (sample : Nat → Int × Float64) (f : Feed) : FeedAction → Option Feed
  | .collector a => f.stepCollector a
  | .subscribe => f.subscribe
  | .take => f.take http crypto sample
  | .cleanup => f.cleanup http crypto
  | .resume => f.resume
  | .stop => f.stop
  | .request m => f.request http crypto m
  | .step i c =>
    (Services.next http crypto f.services (.step i c)).map fun v => { f with services := v }

end Feed

/-! ## What a step can do -/

section Cases

variable {http : Http} {crypto : Crypto} {sample : Nat → Int × Float64} {f f' : Feed}

theorem stepCollector_cases {a : Metrics.Action} (h : f.stepCollector a = some f') :
    (∀ k, f.loop.sub = some k → a ≠ .take k) ∧
      ∃ c, Metrics.step f.collector a = some c ∧ f' = { f with collector := c } := by
  unfold Feed.stepCollector at h
  split_ifs at h with hmine
  obtain ⟨c, hc, rfl⟩ := Option.map_eq_some_iff.1 h
  refine ⟨fun k hk ha => hmine ?_, c, hc, rfl⟩
  rw [hk, ha]
  rfl

theorem Feed.subscribe_cases (h : f.subscribe = some f') :
    f.loop = .starting ∧ ∃ c, Metrics.step f.collector .subscribe = some c ∧
      c.subs = f.collector.subs ++ [Chan.empty] ∧
      f' = { f with collector := c, loop := .waiting f.collector.subs.length } := by
  unfold Feed.subscribe at h
  split at h
  · next hloop =>
    obtain ⟨c, hc, rfl⟩ := Option.map_eq_some_iff.1 h
    obtain ⟨-, rfl⟩ := Metrics.subscribe_cases hc
    exact ⟨hloop, _, hc, rfl, rfl⟩
  · cases h

theorem Feed.call_cases {m : Method} (h : f.call http crypto m = some f') :
    ∃ v, Services.next http crypto f.services (.invoke m) = some v ∧
      f' = { f with services := v } := by
  obtain ⟨v, hv, rfl⟩ := Option.map_eq_some_iff.1 h
  exact ⟨v, hv, rfl⟩

theorem Feed.take_cases (h : f.take http crypto sample = some f') :
    ∃ k snap q q' c v, f.loop = .waiting k ∧ f.collector.subs[k]? = some q ∧
      q.take? = some (snap, q') ∧ Metrics.step f.collector (.take k) = some c ∧
      c.subs = f.collector.subs.set k q' ∧
      Services.next http crypto f.services
        (.invoke (.evaluateSnapshot (sample snap).1 (sample snap).2)) = some v ∧
      f' = ⟨c, .calling k f.services.threads.length, v⟩ := by
  unfold Feed.take at h
  split at h
  · next k hloop =>
    obtain ⟨⟨snap, c⟩, hc, hcall⟩ := Option.bind_eq_some_iff.1 h
    have hstep : Metrics.step f.collector (.take k) = some c := by simp [Metrics.step, hc]
    obtain ⟨q, q', hk, hq, rfl⟩ := Metrics.take_cases hc
    obtain ⟨v, hv, rfl⟩ := Feed.call_cases hcall
    exact ⟨k, snap, q, q', _, v, hloop, hk, hq, hstep, rfl, hv, rfl⟩
  · cases h

theorem Feed.cleanup_cases (h : f.cleanup http crypto = some f') :
    ∃ k v, f.loop = .waiting k ∧
      Services.next http crypto f.services (.invoke .cleanupOldEvents) = some v ∧
      f' = { f with loop := .calling k f.services.threads.length, services := v } := by
  unfold Feed.cleanup at h
  split at h
  · next k hloop =>
    obtain ⟨v, hv, rfl⟩ := Feed.call_cases h
    exact ⟨k, v, hloop, hv, rfl⟩
  · cases h

theorem Feed.resume_cases (h : f.resume = some f') :
    ∃ k i t, f.loop = .calling k i ∧ f.services.threads[i]? = some t ∧ t.returned = true ∧
      f' = { f with loop := .waiting k } := by
  unfold Feed.resume at h
  split at h
  · next k i hloop =>
    split_ifs at h with hreturned
    cases h
    obtain ⟨t, ht, hover⟩ := (Option.any_eq_true _ _).1 hreturned
    exact ⟨k, i, t, hloop, ht, hover, rfl⟩
  · cases h

theorem Feed.stop_cases (h : f.stop = some f') :
    ∃ k, f.loop = .waiting k ∧ f' = { f with loop := .returned k } := by
  unfold Feed.stop at h
  split at h
  · next k hloop =>
    cases h
    exact ⟨k, hloop, rfl⟩
  · cases h

theorem Feed.request_cases {m : Method} (h : f.request http crypto m = some f') :
    m.sampled = none ∧ ∃ v, Services.next http crypto f.services (.invoke m) = some v ∧
      f' = { f with services := v } := by
  cases m with
  | evaluateSnapshot now cpuPercent => cases h
  | cleanupOldEvents => cases h
  | _ => exact ⟨rfl, Feed.call_cases h⟩

end Cases

/-! ## The invariant -/

/-- `Run` has done everything for the snapshots it has received, or it waits for the evaluation of
the last one. -/
inductive Standing (s₀ : Service) (loop : RunLoop) (v : Services) : Prop
  | settled (h : Settled s₀ v.log)
      (hloop : ∀ k i, loop = .calling k i → ∃ t, v.threads[i]? = some t ∧ t.op.sampled = none)
  | underway (k i : Nat) (now : Int) (cpuPercent : Float64)
      (t : Pool.Thread Method Op Op.Ans Answer) (hloop : loop = .calling k i)
      (ht : v.threads[i]? = some t) (hop : t.op = .evaluateSnapshot now cpuPercent)
      (h : Underway s₀ v.log i now cpuPercent)

/-- No evaluation goes on but the one that `Run` waits for. -/
def Alone (loop : RunLoop) (v : Services) : Prop :=
  ∀ i (t : Pool.Thread Method Op Op.Ans Answer), v.threads[i]? = some t → t.op.sampled ≠ none →
    t.returned = false → ∃ k, loop = .calling k i

structure Fed (http : Http) (crypto : Crypto) (sample : Nat → Int × Float64) (w : World)
    (f : Feed) : Prop where
  numbered : Metrics.Numbered f.collector
  reached : ∃ acts, Lts.run (Services.next http crypto) (Pool.start w) acts = some f.services
  starting : f.loop = .starting → startedSamples f.services.log = []
  received : ∀ k, f.loop.sub = some k → ∃ q, f.collector.subs[k]? = some q ∧
    startedSamples f.services.log = (q.received.map sample).reverse
  alone : Alone f.loop f.services
  standing : Standing w.service f.loop f.services

section Invariant

variable {http : Http} {crypto : Crypto} {sample : Nat → Int × Float64} {w : World} {f f' : Feed}
  {v v' : Services} {m : Method} {loop : RunLoop} {s₀ : Service}

theorem Standing.samples_suffix (h : Standing s₀ loop v) :
    (evaluations s₀ v.log).map Input.sampled <:+ startedSamples v.log := by
  cases h with
  | settled h hloop => exact ⟨[], h.samples⟩
  | underway k i now cpuPercent t hloop ht hop h =>
    cases h with
    | before hcalls hsamples hrows => exact ⟨[(now, cpuPercent)], hsamples⟩
    | after s rest past hcalls hsamples hpast halarms hsaved hrows => exact ⟨[], hsamples⟩

theorem Standing.rows_suffix (h : Standing s₀ loop v) :
    stored v.log <:+ alarms s₀.hostname (evaluations s₀ v.log) := by
  cases h with
  | settled h hloop => exact ⟨[], h.rows⟩
  | underway k i now cpuPercent t hloop ht hop h => exact h.rows_suffix

/-- While `Run` waits for no method, all its evaluations are over. -/
theorem Standing.settled_of_ne (h : Standing s₀ loop v) (hloop : ∀ k i, loop ≠ .calling k i) :
    Settled s₀ v.log := by
  cases h with
  | settled h => exact h
  | underway k i now cpuPercent t hcalling => exact absurd hcalling (hloop k i)

theorem invoke_cases (h : Services.next http crypto v (.invoke m) = some v') :
    v'.threads = v.threads ++ [⟨m, m.program crypto⟩] ∧
      v'.log = Pool.settle v.threads.length (m.program crypto)
        (.invoked v.threads.length m :: v.log) := by
  cases h
  exact ⟨rfl, rfl⟩

theorem reached_next {a : ServicesAct}
    (hv : ∃ acts, Lts.run (Services.next http crypto) (Pool.start w) acts = some v)
    (h : Services.next http crypto v a = some v') :
    ∃ acts, Lts.run (Services.next http crypto) (Pool.start w) acts = some v' := by
  obtain ⟨acts, hacts⟩ := hv
  exact ⟨acts ++ [a], Lts.run_concat hacts h⟩

/-- A method that evaluates nothing is called. -/
theorem standing_invoke (hm : m.sampled = none)
    (h : Services.next http crypto v (.invoke m) = some v') (hs : Standing s₀ loop v) :
    Standing s₀ loop v' := by
  obtain ⟨hthreads, hlog⟩ := invoke_cases h
  have hkept : ∀ {i t}, v.threads[i]? = some t → v'.threads[i]? = some t := fun {i t} ht => by
    rw [hthreads, List.getElem?_append_left (List.getElem?_eq_some_iff.1 ht).1, ht]
  have hsame : SameEvaluations s₀ v.log v'.log := hlog ▸ same_invoke hm _ _
  cases hs with
  | settled h hloop =>
    refine .settled (h.same hsame) fun k i hcalling => ?_
    obtain ⟨t, ht, hop⟩ := hloop k i hcalling
    exact ⟨t, hkept ht, hop⟩
  | underway k i now cpuPercent t hloop ht hop h =>
    refine .underway k i now cpuPercent t hloop (hkept ht) hop (h.same hsame ?_)
    rw [hlog, Pool.hist_settle, Pool.hist_invoked]

theorem alone_invoke (hm : m.sampled = none)
    (h : Services.next http crypto v (.invoke m) = some v') (ha : Alone loop v) :
    Alone loop v' := by
  intro i t ht hop hreturned
  rw [(invoke_cases h).1] at ht
  rcases Pool.lookup_append ht with ⟨ht, -⟩ | ⟨-, rfl⟩
  · exact ha i t ht hop hreturned
  · exact absurd hm hop

theorem samples_invoke (hm : m.sampled = none)
    (h : Services.next http crypto v (.invoke m) = some v') :
    startedSamples v'.log = startedSamples v.log := by
  rw [(invoke_cases h).2, startedSamples_settle, startedSamples, hm]
  rfl

/-- A program makes its next call. -/
theorem standing_step (hfree : w.locked = false) (hnew : w.service.evaluator = newEvaluator)
    (hv : ∃ acts, Lts.run (Services.next http crypto) (Pool.start w) acts = some v)
    (ha : Alone loop v) {i : Nat} {c : Choice}
    (h : Services.next http crypto v (.step i c) = some v') (hs : Standing w.service loop v) :
    Standing w.service loop v' ∧ Alone loop v' ∧
      startedSamples v'.log = startedSamples v.log := by
  obtain ⟨acts, hacts⟩ := hv
  obtain ⟨hgood, hserial⟩ := services_run hfree hacts
  obtain ⟨m, op, next, r, shared, hi, -, rfl⟩ := Pool.next_step h
  have hlt := (List.getElem?_eq_some_iff.1 hi).1
  have hopOf : Pool.opOf i v.log = some m := hgood.log.opOf_eq (hgood.invoked i _ hi)
  refine ⟨?_, fun j t ht hop hreturned => ?_, startedSamples_settle i _⟩
  · cases hs with
    | settled hdone hloop =>
      -- A running evaluation is one that `Run` waits for, so this is a call of something else.
      have hm : m.sampled = none := by
        by_contra hm
        obtain ⟨k, hk⟩ := ha i _ hi hm rfl
        obtain ⟨t, ht, hop⟩ := hloop k i hk
        rw [hi] at ht
        cases ht
        exact hm hop
      refine .settled (hdone.same (same_did hopOf hm op r _)) fun k j hcalling => ?_
      obtain ⟨t, ht, hop⟩ := hloop k j hcalling
      by_cases hj : i = j
      · subst hj
        exact ⟨_, List.getElem?_set_self hlt, hm⟩
      · exact ⟨t, by rw [List.getElem?_set_ne hj, ht], hop⟩
    | underway k j now cpuPercent t hloop ht hop hunder =>
      by_cases hj : i = j
      · subst hj
        rw [hi] at ht
        cases ht
        cases hop
        have hok := (Prog.follows_call.1 (hgood.follows i _ hi)).1
        have hdid := underway_did hnew hgood.log hserial.sections
          (fun s hs => (hserial.inside hs).1) hopOf hok r hunder
        exact .underway k i now cpuPercent _ hloop (List.getElem?_set_self hlt) rfl
          (hdid.same (same_settle i _) (Pool.hist_settle ..))
      · have hm : m.sampled = none := by
          by_contra hm
          obtain ⟨k', hk⟩ := ha i _ hi hm rfl
          rw [hloop] at hk
          cases hk
          exact hj rfl
        refine .underway k j now cpuPercent t hloop (by rw [List.getElem?_set_ne hj, ht]) hop
          (hunder.same (same_did hopOf hm op r _) ?_)
        rw [Pool.hist_settle, Pool.hist_did_of_ne hj]
  · by_cases hj : i = j
    · subst hj
      rw [List.getElem?_set_self hlt] at ht
      cases ht
      exact ha i _ hi hop rfl
    · rw [List.getElem?_set_ne hj] at ht
      exact ha j t ht hop hreturned

/-- `Run` calls an evaluation when all others are over. -/
theorem standing_evaluate (hgood : Pool.Good Method.ok Method.fin v) {now : Int}
    {cpuPercent : Float64}
    (h : Services.next http crypto v (.invoke (.evaluateSnapshot now cpuPercent)) = some v')
    (hs : Settled s₀ v.log) (k : Nat) : Standing s₀ (.calling k v.threads.length) v' := by
  obtain ⟨hthreads, hlog⟩ := invoke_cases h
  refine .underway k _ now cpuPercent _ rfl (by rw [hthreads, List.getElem?_concat_length]) rfl
    (.before (Or.inl ?_) ?_ ?_)
  · rw [hlog, Pool.hist_settle, Pool.hist_invoked]
    exact Pool.hist_eq_nil fun ev hev => (hgood.fresh ev hev).ne
  · rw [hlog, evaluations_settle, startedSamples_settle]
    exact congrArg _ hs.samples
  · rw [hlog, evaluations_settle, stored_settle]
    exact hs.rows

theorem Alone.of_ne (ha : Alone loop v) (hloop : ∀ k i, loop ≠ .calling k i) (loop' : RunLoop) :
    Alone loop' v := fun i t ht hop hreturned => by
  obtain ⟨k, hk⟩ := ha i t ht hop hreturned
  exact absurd hk (hloop k i)

theorem alone_evaluate (ha : Alone loop v) (hloop : ∀ k i, loop ≠ .calling k i)
    (h : Services.next http crypto v (.invoke m) = some v') (k : Nat) :
    Alone (.calling k v.threads.length) v' := by
  intro i t ht hop hreturned
  rw [(invoke_cases h).1] at ht
  rcases Pool.lookup_append ht with ⟨ht, -⟩ | ⟨rfl, -⟩
  · exact ha.of_ne hloop _ i t ht hop hreturned
  · exact ⟨k, rfl⟩

theorem fed_start (interval : Int) : Fed http crypto sample w (Feed.start interval w) where
  numbered := Metrics.numbered_newCollector interval
  reached := ⟨[], rfl⟩
  starting _ := rfl
  received k hk := by cases hk
  alone i t ht := by simp [Feed.start, Pool.start] at ht
  standing := .settled ⟨rfl, rfl⟩ fun k i h => by cases h

theorem fed_collector {a : Metrics.Action} (hf : Fed http crypto sample w f)
    (h : f.stepCollector a = some f') : Fed http crypto sample w f' := by
  obtain ⟨hmine, c, hc, rfl⟩ := stepCollector_cases h
  refine ⟨Metrics.numbered_step hf.numbered hc, hf.reached, hf.starting, fun k hk => ?_,
    hf.alone, hf.standing⟩
  obtain ⟨q, hq, hsamples⟩ := hf.received k hk
  obtain ⟨q', hq', hreceived, -⟩ := Metrics.sub_of_step hc hq (hmine k hk)
  exact ⟨q', hq', by rw [hreceived]; exact hsamples⟩

theorem fed_subscribe (hf : Fed http crypto sample w f) (h : f.subscribe = some f') :
    Fed http crypto sample w f' := by
  obtain ⟨hloop, c, hc, hsubs, rfl⟩ := Feed.subscribe_cases h
  have hne : ∀ k i, f.loop ≠ .calling k i := by simp [hloop]
  refine ⟨Metrics.numbered_step hf.numbered hc, hf.reached, by simp, fun k hk => ?_,
    hf.alone.of_ne hne _, .settled (hf.standing.settled_of_ne hne) (by simp)⟩
  cases hk
  refine ⟨Chan.empty, by rw [hsubs, List.getElem?_concat_length], ?_⟩
  exact hf.starting hloop

theorem fed_take (hfree : w.locked = false) (hf : Fed http crypto sample w f)
    (h : f.take http crypto sample = some f') : Fed http crypto sample w f' := by
  obtain ⟨k, snap, q, q', c, v, hloop, hk, hq, hc, hsubs, hv, rfl⟩ := Feed.take_cases h
  have hne : ∀ k i, f.loop ≠ .calling k i := by simp [hloop]
  obtain ⟨acts, hacts⟩ := hf.reached
  have hgood := (services_run hfree hacts).1
  refine ⟨Metrics.numbered_step hf.numbered hc, reached_next hf.reached hv, by simp,
    fun k' hk' => ?_, alone_evaluate hf.alone hne hv k,
    standing_evaluate hgood hv (hf.standing.settled_of_ne hne) k⟩
  cases hk'
  obtain ⟨q₀, hq₀, hsamples⟩ := hf.received k (by rw [hloop]; rfl)
  obtain rfl : q₀ = q := Option.some.inj (hq₀.symm.trans hk)
  refine ⟨q', ?_, ?_⟩
  · rw [hsubs, List.getElem?_set_self (List.getElem?_eq_some_iff.1 hk).1]
  · rw [(invoke_cases hv).2, startedSamples_settle, Chan.received_of_take? hq, List.map_append,
      List.reverse_append, ← hsamples]
    rfl

theorem fed_cleanup (hf : Fed http crypto sample w f) (h : f.cleanup http crypto = some f') :
    Fed http crypto sample w f' := by
  obtain ⟨k, v, hloop, hv, rfl⟩ := Feed.cleanup_cases h
  have hne : ∀ k i, f.loop ≠ .calling k i := by simp [hloop]
  refine ⟨hf.numbered, reached_next hf.reached hv, by simp, fun k' hk' => ?_,
    (alone_invoke rfl hv hf.alone).of_ne hne _,
    .settled ((standing_invoke rfl hv hf.standing).settled_of_ne hne) fun k' i hcalling => ?_⟩
  · rw [samples_invoke rfl hv]
    exact hf.received k' (by rw [hloop]; exact hk')
  · cases hcalling
    exact ⟨_, by rw [(invoke_cases hv).1, List.getElem?_concat_length], rfl⟩

/-- What `Run` has called is over. -/
theorem fed_resume (hfree : w.locked = false) (hf : Fed http crypto sample w f)
    (h : f.resume = some f') : Fed http crypto sample w f' := by
  obtain ⟨k, i, t, hloop, ht, hreturned, rfl⟩ := Feed.resume_cases h
  obtain ⟨acts, hacts⟩ := hf.reached
  have hgood := (services_run hfree hacts).1
  refine ⟨hf.numbered, hf.reached, by simp, fun k' hk' => ?_, fun j t' ht' hop' hrunning => ?_, ?_⟩
  · exact hf.received k' (by rw [hloop]; exact hk')
  · obtain ⟨k', hk'⟩ := hf.alone j t' ht' hop' hrunning
    rw [hloop] at hk'
    cases hk'
    rw [ht] at ht'
    cases ht'
    rw [hreturned] at hrunning
    cases hrunning
  · cases hf.standing with
    | settled hdone => exact .settled hdone (by simp)
    | underway k' i' now cpuPercent t' hloop' ht' hop hunder =>
      rw [hloop] at hloop'
      cases hloop'
      rw [ht] at ht'
      cases ht'
      obtain ⟨m, p⟩ := t
      cases hop
      cases p with
      | call op next => cases hreturned
      | ret out =>
        have hfin := Prog.follows_ret.1 (hgood.follows i _ ht)
        exact .settled (settled_of_returned hunder hfin.2) (by simp)

theorem fed_stop (hf : Fed http crypto sample w f) (h : f.stop = some f') :
    Fed http crypto sample w f' := by
  obtain ⟨k, hloop, rfl⟩ := Feed.stop_cases h
  have hne : ∀ k i, f.loop ≠ .calling k i := by simp [hloop]
  exact ⟨hf.numbered, hf.reached, by simp, fun k' hk' => hf.received k' (by rw [hloop]; exact hk'),
    hf.alone.of_ne hne _, .settled (hf.standing.settled_of_ne hne) (by simp)⟩

theorem fed_request (hf : Fed http crypto sample w f) (h : f.request http crypto m = some f') :
    Fed http crypto sample w f' := by
  obtain ⟨hm, v, hv, rfl⟩ := Feed.request_cases h
  have hsamples := samples_invoke hm hv
  exact ⟨hf.numbered, reached_next hf.reached hv, fun hloop => hsamples.trans (hf.starting hloop),
    fun k hk => by rw [hsamples]; exact hf.received k hk, alone_invoke hm hv hf.alone,
    standing_invoke hm hv hf.standing⟩

theorem fed_step (hfree : w.locked = false) (hnew : w.service.evaluator = newEvaluator)
    {a : FeedAction} (hf : Fed http crypto sample w f)
    (h : Feed.step http crypto sample f a = some f') : Fed http crypto sample w f' := by
  cases a with
  -- Only this one moves a program that was started before, the others add one or none.
  | step i c =>
    obtain ⟨v, hv, rfl⟩ := Option.map_eq_some_iff.1 h
    obtain ⟨hstanding, halone, hsamples⟩ :=
      standing_step hfree hnew hf.reached hf.alone hv hf.standing
    exact ⟨hf.numbered, reached_next hf.reached hv, fun hloop => hsamples.trans (hf.starting hloop),
      fun k hk => by rw [hsamples]; exact hf.received k hk, halone, hstanding⟩
  | collector a => exact fed_collector hf h
  | subscribe => exact fed_subscribe hf h
  | take => exact fed_take hfree hf h
  | cleanup => exact fed_cleanup hf h
  | resume => exact fed_resume hfree hf h
  | stop => exact fed_stop hf h
  | request m => exact fed_request hf h

theorem fed_run (hfree : w.locked = false) (hnew : w.service.evaluator = newEvaluator)
    {interval : Int} {as : List FeedAction}
    (h : Lts.run (Feed.step http crypto sample) (Feed.start interval w) as = some f) :
    Fed http crypto sample w f :=
  Lts.invariant (fun _ _ _ hf hstep => fed_step hfree hnew hf hstep) (fed_start interval) h

end Invariant

/-! ## What reaches the history -/

section Order

variable {http : Http} {crypto : Crypto} {sample : Nat → Int × Float64} {w : World} {f : Feed}

/-- The samples of the evaluations are those of the first snapshots that `Run` has received. -/
theorem Fed.samples (hf : Fed http crypto sample w f) {q : Metrics.Sub}
    (hsamples : startedSamples f.services.log = (q.received.map sample).reverse) :
    (evaluations w.service f.services.log).reverse.map Input.sampled =
      (q.received.take (evaluations w.service f.services.log).length).map sample := by
  have hprefix : (evaluations w.service f.services.log).reverse.map Input.sampled <+:
      q.received.map sample := by
    rw [List.map_reverse, ← List.reverse_suffix, List.reverse_reverse, ← hsamples]
    exact hf.standing.samples_suffix
  rw [List.prefix_iff_eq_take.1 hprefix, List.length_map, List.length_reverse, List.map_take]

/-- **The alert service is fed in order.** Whatever requests do meanwhile, the samples of the
snapshots are evaluated in the order of their collection and none of them twice. The evaluator is
that of these samples one after the other, the rows that the store was asked to save are the first
alarms of theirs, and whenever `Run` is back in its select, nothing that it has received is left. -/
theorem fed_in_order (hfree : w.locked = false) (hnew : w.service.evaluator = newEvaluator)
    {interval : Int} {as : List FeedAction}
    (h : Lts.run (Feed.step http crypto sample) (Feed.start interval w) as = some f) :
    (∃ ns : List Nat, ns.Sublist (List.range f.collector.collected) ∧
      (evaluations w.service f.services.log).reverse.map Input.sampled = ns.map sample) ∧
    f.services.shared.service.evaluator = (run (evaluations w.service f.services.log)).2 ∧
    stored f.services.log <:+ alarms w.service.hostname (evaluations w.service f.services.log) ∧
    ∀ k, f.loop = .waiting k →
      (∃ q, f.collector.subs[k]? = some q ∧
        (evaluations w.service f.services.log).reverse.map Input.sampled =
          q.received.map sample) ∧
      stored f.services.log =
        alarms w.service.hostname (evaluations w.service f.services.log) := by
  have hf := fed_run hfree hnew h
  obtain ⟨acts, hacts⟩ := hf.reached
  obtain ⟨hgood, hserial⟩ := services_run hfree hacts
  refine ⟨?_, ?_, hf.standing.rows_suffix, fun k hloop => ?_⟩
  · cases hsub : f.loop.sub with
    | none =>
      have hstarting : f.loop = .starting := by
        cases hloop : f.loop <;> simp [hloop, RunLoop.sub] at hsub ⊢
      refine ⟨[], List.nil_sublist _, ?_⟩
      have hnone := hf.standing.samples_suffix
      rw [hf.starting hstarting, List.suffix_nil] at hnone
      rw [List.map_reverse, hnone]
      rfl
    | some k =>
      obtain ⟨q, hq, hsamples⟩ := hf.received k hsub
      have hsent : q.sent.Sublist (List.range f.collector.collected) :=
        (hf.numbered.sent k q hq).trans (List.range_sublist.2 (hf.numbered.offeredTo_le k))
      exact ⟨_, ((List.take_sublist _ _).trans (List.take_sublist _ _)).trans hsent,
        hf.samples hsamples⟩
  · rw [hserial.current]
    exact evaluator_version hnew hgood.log hserial.sections
  · have hdone := hf.standing.settled_of_ne (by simp [hloop])
    obtain ⟨q, hq, hsamples⟩ := hf.received k (by rw [hloop]; rfl)
    refine ⟨⟨q, hq, ?_⟩, hdone.rows⟩
    rw [List.map_reverse, hdone.samples, hsamples, List.reverse_reverse]

end Order

/-- The snapshots are two seconds apart, and the load is critical in all of them. -/
def critical (snap : Nat) : Int × Float64 := (2000000000 * snap, .num 90)

/-- Two snapshots are evaluated, the second one with an alarm, and a request reads the settings. -/
def feedTwice : List FeedAction :=
  [.subscribe, .collector .begin, .collector .tick, .collector .lock, .collector .offer,
    .collector .offer, .take, .request (.configView false), .step 0 {}, .step 0 {}, .step 1 {},
    .resume, .collector .tick, .collector .lock, .collector .offer, .collector .offer, .take,
    .step 2 {}, .step 2 {}, .step 2 {}, .resume]

def fedTwice : Feed :=
  (Lts.run (Feed.step plainHttp plainCrypto critical) (Feed.start 1000000000 quickWorld)
    feedTwice).getD (Feed.start 1000000000 quickWorld)

theorem run_feedTwice :
    Lts.run (Feed.step plainHttp plainCrypto critical) (Feed.start 1000000000 quickWorld)
      feedTwice = some fedTwice := rfl

theorem fed_in_order_feedTwice :
    (∃ ns : List Nat, ns.Sublist (List.range fedTwice.collector.collected) ∧
      (evaluations quickWorld.service fedTwice.services.log).reverse.map Input.sampled =
        ns.map critical) ∧
    fedTwice.services.shared.service.evaluator =
      (run (evaluations quickWorld.service fedTwice.services.log)).2 ∧
    stored fedTwice.services.log <:+
      alarms quickWorld.service.hostname
        (evaluations quickWorld.service fedTwice.services.log) ∧
    ∀ k, fedTwice.loop = .waiting k →
      (∃ q, fedTwice.collector.subs[k]? = some q ∧
        (evaluations quickWorld.service fedTwice.services.log).reverse.map Input.sampled =
          q.received.map critical) ∧
      stored fedTwice.services.log =
        alarms quickWorld.service.hostname
          (evaluations quickWorld.service fedTwice.services.log) :=
  fed_in_order (w := quickWorld) rfl rfl run_feedTwice

/-- `Run` is back in its select, and the second snapshot has brought an alarm into the history. -/
example : fedTwice.loop = .waiting 0 ∧
    (stored fedTwice.services.log).map Alarm.level = [.critical] := ⟨rfl, rfl⟩

end QuickVps.Alerts
