import QuickVps.Alerts.MuteWindow
import QuickVps.Alerts.Secrecy
import QuickVps.Lib.Spaced

/-!
# No alarm storms

The cooldown bounds how many alarms of a level fit into a window of time, whatever runs at the same
time and however the samples come.

* `spaced_records` — two triggers of a level are a cooldown apart, in a run of samples;
* `exists_unlock` — each event that an evaluation saves belongs to one sample in the order of the
  lock;
* `no_storm` — the events of a level that the evaluations save in a window are few.
-/

namespace QuickVps.Alerts

open Go

variable {http : Http} {crypto : Crypto} {w : World} {acts : List ServicesAct} {v : Services}
  {s₀ : Service} {log : ServicesLog}

/-! ## Two triggers of a level -/

theorem Admissible.suffix {inputs past : List Input} (h : Admissible inputs)
    (hpast : past <:+ inputs) : Admissible past where
  sorted := h.sorted.sublist hpast.sublist
  valid := fun i hi => h.valid i (hpast.subset hi)
  fits := fun i hi => h.fits i (hpast.subset hi)

/-- A level is triggered only when its cooldown is over. -/
theorem canSend_of_emits {past : List Input} {i : Input} {level : Level}
    (h : (recordAfter past i).emits level = true) :
    (run past).2.canSend level i.now i.cfg.cooldownSec = true := by
  simp only [Record.emits, recordAfter, out_evaluate] at h
  split at h
  next due _ =>
    by_cases hquiet : i.silenced = true
    · simp [answer_silenced hquiet] at h
    · simp only [answer] at h
      split_ifs at h with hsend
      · simp only [List.any_cons, List.any_nil, Bool.or_false, decide_eq_true_eq] at h
        rw [Bool.and_eq_true] at hsend
        exact h ▸ hsend.1
      · simp at h
  next => simp at h

/-- The last trigger is not before any other one. -/
theorem le_lastTrigger {past : List Input} (h : Admissible past) {r : Record}
    (hr : r ∈ (run past).1) {level : Level} (hemits : r.emits level = true) :
    ∃ last, lastTrigger level (run past).1 = some last ∧ r.input.now ≤ last := by
  induction past with
  | nil => simp [run] at hr
  | cons i past ih =>
    rw [run_cons] at hr ⊢
    rw [lastTrigger_cons]
    split_ifs with hhead
    · refine ⟨i.now, rfl, ?_⟩
      rcases List.mem_cons.1 hr with rfl | hr
      · exact le_rfl
      · exact h.le_now r hr
    · rcases List.mem_cons.1 hr with rfl | hr
      · exact absurd hemits hhead
      · exact ih h.tail hr

/-- The record of a sample of the past. -/
theorem recordAfter_mem {past past' : List Input} {i : Input} (h : (i :: past') <:+ past) :
    recordAfter past' i ∈ (run past).1 := by
  induction past with
  | nil => simp at h
  | cons j past ih =>
    rw [run_cons]
    rcases List.suffix_cons_iff.1 h with heq | h
    · cases heq
      exact List.mem_cons_self
    · exact List.mem_cons_of_mem _ (ih h)

/-- **Two triggers of a level are a cooldown apart.** -/
theorem spaced_records {i i' : Input} {past past' : List Input} (h : Admissible (i :: past))
    (hpast : (i' :: past') <:+ past) {level : Level} {sec : Int} (hsec : sec ≤ i.cfg.cooldownSec)
    (hi : (recordAfter past i).emits level = true)
    (hi' : (recordAfter past' i').emits level = true) :
    i'.now + sec * 1000000000 ≤ i.now := by
  obtain ⟨last, hlast, hle⟩ := le_lastTrigger h.tail (recordAfter_mem hpast) hi'
  have hvalid := valid_of_validateConfig (h.valid i List.mem_cons_self)
  have hfits := h.fits i List.mem_cons_self
  have hmirrors := mirrors_run h.tail.valid
  have hcooled := (canSend_iff (hmirrors.sent level) h.le_now hvalid.cooldownSec_nonneg
    hfits.cooldownSec).1 (canSend_of_emits hi) last hlast
  have hle' : i'.now ≤ last := hle
  omega

/-! ## The events of a level -/

/-- The times of the events of a level that the evaluations of a log have saved. -/
def savedAt (level : Level) : ServicesLog → List Int
  | [] => []
  | .did i (.sql (.saveEvent level' _ _ _ createdAt)) _ :: log =>
    match Pool.opOf i log with
    | some (.evaluateSnapshot ..) =>
      if level' = level then createdAt :: savedAt level log else savedAt level log
    | _ => savedAt level log
  | _ :: log => savedAt level log

theorem savedAt_other {level : Level} {i : Nat} {op : Op} {r : op.Ans}
    (h : ¬ ∃ message percent channels createdAt,
      op = .sql (.saveEvent level message percent channels createdAt)) :
    savedAt level (.did i op r :: log) = savedAt level log := by
  cases op with
  | sql stmt =>
    cases stmt with
    | saveEvent level' message percent channels createdAt =>
      have hne : level' ≠ level := by
        intro heq
        subst heq
        exact h ⟨_, _, _, _, rfl⟩
      simp only [savedAt, if_neg hne]
      split <;> rfl
    | _ => rfl
  | _ => rfl

/-- An evaluation saves an event once, for its only trigger and at the time of its sample. -/
theorem saved_once {now : Int} {cpuPercent : Float64} {h : Calls} {level : Level}
    {message : String} {percent : Float64} {channels : List ChannelResult} {createdAt : Int}
    (hok : evaluateOk now cpuPercent h
      (.sql (.saveEvent level message percent channels createdAt))) :
    createdAt = now ∧ ∃ s rest, h = rest ++ evaluated s now cpuPercent ∧
      saves rest = [] ∧ ∃ t, (s.evaluate now cpuPercent).1 = [t] ∧ t.level = level := by
  obtain ⟨heq, -⟩ | ⟨s, heq, -⟩ | ⟨s, rest, hhist, done, t, left, hall, hrows, hfor⟩ := hok
  · cases heq
  · cases heq
  · have hlen : (s.evaluate now cpuPercent).1.length ≤ 1 := length_evaluate_le ..
    rw [hall, List.length_append, List.length_cons] at hlen
    obtain rfl : done = [] := List.eq_nil_of_length_eq_zero (by omega)
    obtain rfl : left = [] := List.eq_nil_of_length_eq_zero (by omega)
    obtain hsends | ⟨channels', heq⟩ := hfor
    · exact hsends.elim
    · cases heq
      exact ⟨rfl, s, rest, hhist, by simpa using hrows, t, hall, rfl⟩

theorem evaluations_suffix (since : ServicesLog) :
    evaluations s₀ log <:+ evaluations s₀ (since ++ log) := by
  induction since with
  | nil => exact List.suffix_rfl
  | cons ev since ih =>
    refine ih.trans ?_
    rw [List.cons_append]
    cases ev with
    | did i op r =>
      cases op with
      | unlock s =>
        simp only [evaluations]
        split
        · exact List.suffix_cons _ _
        · exact List.suffix_rfl
      | _ => exact List.suffix_rfl
    | _ => exact List.suffix_rfl

/-- An evaluation that has given the lock back is one of the samples, with the triggers that the
samples before it give. -/
theorem exists_unlock (hnew : s₀.evaluator = newEvaluator)
    (hlog : Pool.Conforms Method.ok Method.fin log)
    (hsec : serviceLock.Sections Method.section s₀ log) {i : Nat} {now : Int}
    {cpuPercent : Float64} (hop : .invoked i (.evaluateSnapshot now cpuPercent) ∈ log) {s : Service}
    {rest : Calls} (hhist : Pool.hist i log = rest ++ evaluated s now cpuPercent) :
    ∃ (ev : Pool.Event Method Op Op.Ans Answer) (before : ServicesLog),
      ev :: before <:+ log ∧ ev.thread = i ∧
      evaluations s₀ (ev :: before) = s.sample now cpuPercent :: evaluations s₀ before ∧
      (s.evaluate now cpuPercent).1 =
        (recordAfter (evaluations s₀ before) (s.sample now cpuPercent)).out := by
  have hunlock : (⟨.unlock (s.evaluate now cpuPercent).2, ()⟩ : Prog.Call Op Op.Ans) ∈
      rest ++ evaluated s now cpuPercent := by simp [evaluated]
  obtain ⟨later, before, rfl⟩ := exists_did hhist hunlock
  obtain ⟨m, hm, hok⟩ := hlog.did
  obtain rfl := hlog.invoked_unique hop (List.mem_append_right _ (List.mem_cons_of_mem _ hm))
  -- Before it the evaluation has only taken the lock.
  obtain ⟨heq, -⟩ | ⟨s', heq, hbefore⟩ | ⟨s', rest', -, done, t, left, -, -, hfor⟩ := hok
  · cases heq
  · have hs : s' = s := by
      have hsame : rest ++ evaluated s now cpuPercent =
          Pool.hist i later ++ ⟨.unlock (s.evaluate now cpuPercent).2, ()⟩ :: [⟨.lock, s'⟩] := by
        rw [← hhist, Pool.hist, List.filterMap_append, ← hbefore]
        simp [Pool.hist]
      have hlast := (List.append_inj' hsame rfl).2
      simp only [evaluated, List.cons.injEq, true_and, and_true] at hlast
      exact (eq_of_heq (Sigma.mk.inj hlast).2).symm
    subst hs
    have hsec' := hsec.append later
    obtain ⟨hentered, -⟩ := hsec'.1.2 _ rfl
    rw [hbefore] at hentered
    have hversion : s' = serviceLock.version s₀ before := Option.some.inj hentered
    have hconforms := (hlog.append later).2
    refine ⟨_, before, List.suffix_append _ _, rfl, ?_, ?_⟩
    · rw [evaluations, hconforms.opOf_eq hm, ← hversion]
    · rw [recordAfter, ← evaluator_version hnew hconforms hsec'.2, ← hversion]
      rfl
  · exact (ForTrigger.free hfor).elim

/-- An event that was saved belongs to a sample that triggers its level. -/
structure FromSample (s₀ : Service) (level : Level) (log : ServicesLog) (i : Nat)
    (createdAt : Int) : Prop where
  sample : ∃ (ev : Pool.Event Method Op Op.Ans Answer) (before : ServicesLog) (input : Input),
    ev :: before <:+ log ∧ ev.thread = i ∧ input.now = createdAt ∧
      evaluations s₀ (ev :: before) = input :: evaluations s₀ before ∧
      (recordAfter (evaluations s₀ before) input).emits level = true

theorem FromSample.append {level : Level} {i : Nat} {createdAt : Int} (since : ServicesLog)
    (h : FromSample s₀ level log i createdAt) : FromSample s₀ level (since ++ log) i createdAt := by
  obtain ⟨ev, before, input, hsuffix, hrest⟩ := h
  exact ⟨ev, before, input, hsuffix.trans (List.suffix_append _ _), hrest⟩

/-- The evaluation that has saved an event has not saved another one. -/
theorem fromSample_of_save (hnew : s₀.evaluator = newEvaluator) {i : Nat} {level : Level}
    {message : String} {percent : Float64} {channels : List ChannelResult} {createdAt : Int}
    {r : Except String Int}
    (hlog : Pool.Conforms Method.ok Method.fin
      (.did i (.sql (.saveEvent level message percent channels createdAt)) r :: log))
    (hsec : serviceLock.Sections Method.section s₀ log) {now : Int} {cpuPercent : Float64}
    (hop : Pool.opOf i log = some (.evaluateSnapshot now cpuPercent)) :
    FromSample s₀ level log i createdAt ∧ saves (Pool.hist i log) = [] := by
  obtain ⟨m, hm, hok⟩ := hlog.1
  obtain rfl := Option.some.inj (hop.symm.trans (hlog.2.opOf_eq hm))
  obtain ⟨rfl, s, rest, hhist, hrest, t, ht, rfl⟩ := saved_once hok
  obtain ⟨ev, before, hsuffix, hthread, hevals, hout⟩ := exists_unlock hnew hlog.2 hsec hm hhist
  refine ⟨⟨ev, before, _, hsuffix, hthread, rfl, hevals, ?_⟩, ?_⟩
  · rw [Record.emits, ← hout, ht]
    simp
  · rw [hhist, saves, List.filterMap_append, ← saves, hrest]
    rfl

theorem mem_savedAt (hnew : s₀.evaluator = newEvaluator)
    (hlog : Pool.Conforms Method.ok Method.fin log)
    (hsec : serviceLock.Sections Method.section s₀ log) {level : Level} {createdAt : Int}
    (h : createdAt ∈ savedAt level log) :
    ∃ i, FromSample s₀ level log i createdAt ∧ saves (Pool.hist i log) ≠ [] := by
  induction log with
  | nil => cases h
  | cons ev log ih =>
    cases ev with
    | invoked j m =>
      obtain ⟨i, hfrom, hsaved⟩ := ih hlog.2 hsec h
      exact ⟨i, hfrom.append [_], hsaved⟩
    | returned j answer =>
      obtain ⟨i, hfrom, hsaved⟩ := ih hlog.2 hsec h
      exact ⟨i, hfrom.append [_], hsaved⟩
    | did j op r =>
      have hpast (h : createdAt ∈ savedAt level log) :
          ∃ i, FromSample s₀ level (.did j op r :: log) i createdAt ∧
            saves (Pool.hist i (.did j op r :: log)) ≠ [] := by
        obtain ⟨i, hfrom, hsaved⟩ := ih hlog.2 hsec.2 h
        refine ⟨i, hfrom.append [_], ?_⟩
        by_cases hj : j = i
        · subst hj
          rw [Pool.hist_did_self, saves_cons]
          simp [hsaved]
        · rwa [Pool.hist_did_of_ne hj]
      by_cases hsave : ∃ message percent channels at_,
          op = .sql (.saveEvent level message percent channels at_)
      · obtain ⟨message, percent, channels, at_, rfl⟩ := hsave
        simp only [savedAt, if_true] at h
        split at h
        next now cpuPercent hop =>
          rcases List.mem_cons.1 h with rfl | h
          · refine ⟨j, (fromSample_of_save hnew hlog hsec.2 hop).1.append [_], ?_⟩
            rw [Pool.hist_did_self, saves_cons]
            simp [saves]
          · exact hpast h
        next => exact hpast h
      · rw [savedAt_other hsave] at h
        exact hpast h

/-- Two samples at different places of the order are a cooldown apart. -/
theorem FromSample.spaced {level : Level} {i i' : Nat} {createdAt createdAt' sec : Int}
    (hadm : Admissible (evaluations s₀ log))
    (hsec : ∀ input ∈ evaluations s₀ log, sec ≤ input.cfg.cooldownSec) (hne : i ≠ i')
    (h : FromSample s₀ level log i createdAt) (h' : FromSample s₀ level log i' createdAt') :
    sec * 1000000000 ≤ |createdAt - createdAt'| := by
  obtain ⟨ev, before, input, hsuffix, rfl, rfl, hevals, hemits⟩ := h
  obtain ⟨ev', before', input', hsuffix', rfl, rfl, hevals', hemits'⟩ := h'
  have key {ev ev' : Pool.Event Method Op Op.Ans Answer} {before before' : ServicesLog}
      {input input' : Input} (hsuffix : ev :: before <:+ log) (hne : ev.thread ≠ ev'.thread)
      (hevals : evaluations s₀ (ev :: before) = input :: evaluations s₀ before)
      (hevals' : evaluations s₀ (ev' :: before') = input' :: evaluations s₀ before')
      (hemits : (recordAfter (evaluations s₀ before) input).emits level = true)
      (hemits' : (recordAfter (evaluations s₀ before') input').emits level = true)
      (horder : ev' :: before' <:+ ev :: before) :
      input'.now + sec * 1000000000 ≤ input.now := by
    have hin : input :: evaluations s₀ before <:+ evaluations s₀ log := by
      obtain ⟨since, rfl⟩ := hsuffix
      rw [← hevals]
      exact evaluations_suffix since
    have hpast : input' :: evaluations s₀ before' <:+ evaluations s₀ before := by
      rcases List.suffix_cons_iff.1 horder with heq | hsuffix
      · cases heq
        exact absurd rfl hne
      · obtain ⟨since, rfl⟩ := hsuffix
        rw [← hevals']
        exact evaluations_suffix since
    exact spaced_records (hadm.suffix hin) hpast (hsec input (hin.subset List.mem_cons_self))
      hemits hemits'
  rcases List.suffix_or_suffix_of_suffix hsuffix hsuffix' with horder | horder
  · have hle := key hsuffix' (Ne.symm hne) hevals' hevals hemits' hemits horder
    rw [abs_sub_comm]
    exact le_trans (by omega) (le_abs_self _)
  · have hle := key hsuffix hne hevals hevals' hemits hemits' horder
    exact le_trans (by omega) (le_abs_self _)

/-- The events of a level that evaluations save are a cooldown apart. -/
theorem spaced_savedAt (hnew : s₀.evaluator = newEvaluator)
    (hlog : Pool.Conforms Method.ok Method.fin log)
    (hsec : serviceLock.Sections Method.section s₀ log) (hadm : Admissible (evaluations s₀ log))
    {sec : Int} (hcool : ∀ input ∈ evaluations s₀ log, sec ≤ input.cfg.cooldownSec)
    (level : Level) : Spaced (sec * 1000000000) (savedAt level log) := by
  induction log with
  | nil => exact .nil
  | cons ev log ih =>
    have hpast : evaluations s₀ log <:+ evaluations s₀ (ev :: log) := evaluations_suffix [ev]
    have hadm' := hadm.suffix hpast
    have hcool' : ∀ input ∈ evaluations s₀ log, sec ≤ input.cfg.cooldownSec :=
      fun input hinput => hcool input (hpast.subset hinput)
    cases ev with
    | invoked j m => exact ih hlog.2 hsec hadm' hcool'
    | returned j answer => exact ih hlog.2 hsec hadm' hcool'
    | did j op r =>
      have hih := ih hlog.2 hsec.2 hadm' hcool'
      by_cases hsave : ∃ message percent channels at_,
          op = .sql (.saveEvent level message percent channels at_)
      · obtain ⟨message, percent, channels, at_, rfl⟩ := hsave
        simp only [savedAt, if_true]
        split
        next now cpuPercent hop =>
          obtain ⟨hfrom, hfirst⟩ := fromSample_of_save hnew hlog hsec.2 hop
          refine List.pairwise_cons.2 ⟨fun at' hat' => ?_, hih⟩
          obtain ⟨i, hfrom', hsaved⟩ := mem_savedAt hnew hlog.2 hsec.2 hat'
          have hne : j ≠ i := by
            rintro rfl
            exact hsaved hfirst
          exact hfrom.spaced hadm' hcool' hne hfrom'
        next => exact hih
      · have hsame : savedAt level (.did j op r :: log) = savedAt level log := savedAt_other hsave
        rwa [hsame]

/-- **No storms.** However many methods run at the same time, the evaluations save at most one event
of a level in each cooldown of a window. -/
theorem no_storm (hfree : w.locked = false) (hnew : w.service.evaluator = newEvaluator)
    (h : Lts.run (Services.next http crypto) (Pool.start w) acts = some v)
    (hadm : Admissible (evaluations w.service v.log)) {sec : Int} (hpos : 0 < sec)
    (hcool : ∀ input ∈ evaluations w.service v.log, sec ≤ input.cfg.cooldownSec) (level : Level)
    {from_ to_ : Int} (hwindow : from_ ≤ to_) :
    (((savedAt level v.log).filter fun t => from_ ≤ t ∧ t ≤ to_).length : Int) ≤
      (to_ - from_) / (sec * 1000000000) + 1 := by
  obtain ⟨hgood, hserial⟩ := services_run hfree h
  have hspaced := spaced_savedAt hnew hgood.log hserial.sections hadm hcool level
  refine (hspaced.filter _).length_le (by omega) hwindow fun t ht => ?_
  simpa using (List.mem_filter.1 ht).2

theorem admissible_overlapping :
    Admissible (evaluations quickWorld.service overlapped.log) := by
  have hsamples : evaluations quickWorld.service overlapped.log =
      [⟨2000000000, .num 90, quickAlarm, false⟩, ⟨0, .num 90, quickAlarm, false⟩] := rfl
  rw [hsamples]
  refine ⟨by simp, ?_, ?_⟩
  · simp only [List.mem_cons, List.not_mem_nil, or_false, forall_eq_or_imp, forall_eq]
    decide
  · simp only [List.mem_cons, List.not_mem_nil, or_false, forall_eq_or_imp, forall_eq]
    constructor <;> constructor <;> decide

theorem no_storm_overlapping :
    (((savedAt .critical overlapped.log).filter
      fun t => (0 : Int) ≤ t ∧ t ≤ 3600000000000).length : Int) ≤
      (3600000000000 - 0) / (1800 * 1000000000) + 1 := by
  refine no_storm rfl rfl run_overlapping admissible_overlapping (by decide) ?_ .critical
    (by decide)
  have hsamples : evaluations quickWorld.service overlapped.log =
      [⟨2000000000, .num 90, quickAlarm, false⟩, ⟨0, .num 90, quickAlarm, false⟩] := rfl
  rw [hsamples]
  simp [quickAlarm, defaultConfig]

end QuickVps.Alerts
