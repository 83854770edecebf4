import QuickVps.Metrics.Collector

/-!
# Does the ticker follow the interval

`SetInterval` writes the field in one step and the channel in others, so the calls may reach the
channel in another order than the field. At rest (every call has returned and `Run` has emptied
the channel) the ticker should have the period that `Interval()` reports.

* `Converges` — the intended behaviour of a run.
* `ticker_diverges` — it fails: a call that is overtaken puts its old value in last.
* `converges_of_covered` — it holds in the runs where a stale value enters the channel, or keeps a
  fresh one out, only while another call with the field's value has still to send it.
* `diverges_of_uncovered` — the condition leaves nothing out: after a step that breaks it the
  ticker is wrong at every rest, until the field is written again.

The invariant is `Following`: what the ticker will get next is the field's value, or a call that
carries this value has still to return, or a call is about to send into the empty channel.
-/

namespace QuickVps.Metrics

/-! ## The intended behaviour -/

/-- Every call has returned, and `Run` has begun and consumed what was in the channel. -/
def AtRest (c : Collector) : Prop :=
  (∀ call ∈ c.calls, call.phase = .returned) ∧ c.intervalCh = none ∧ c.period ≠ none

instance (c : Collector) : Decidable (AtRest c) := inferInstanceAs (Decidable (_ ∧ _))

/-- At rest the ticker's period is the value of the last write to the field. -/
def Converges (c : Collector) : Prop := AtRest c → c.period = some c.interval

instance (c : Collector) : Decidable (Converges c) := inferInstanceAs (Decidable (_ → _))

/-- **The ticker can keep an old period.** Call 0 writes the field and is overtaken by call 1, which
writes and sends; `Run` receives, and only then does call 0 send. -/
theorem ticker_diverges :
    ¬ ∀ interval as c, Lts.run step (newCollector interval) as = some c → Converges c := by
  intro h
  have hc := h 3 [.begin, .setInterval 1, .setInterval 2, .send 1, .receive, .send 0, .receive]
    _ rfl
  exact absurd hc (by decide)

/-! ## When it holds -/

/-- Call `j` has written the field's present value and has not returned. -/
def Carries (c : Collector) (j : Nat) : Prop :=
  ∃ call, c.calls[j]? = some call ∧ call.phase ≠ .returned ∧ call.interval = c.interval

/-- The next send of call `i` puts a value other than the field's into the empty channel. -/
def StaleIn (c : Collector) (i : Nat) : Prop :=
  ∃ call, c.calls[i]? = some call ∧ c.intervalCh = none ∧ call.interval ≠ c.interval

/-- The next send of call `i`, with the field's value, fails as another value is in the channel. -/
def FreshOut (c : Collector) (i : Nat) : Prop :=
  ∃ call v, c.calls[i]? = some call ∧ c.intervalCh = some v ∧ v ≠ c.interval ∧
    call.interval = c.interval

/-- Where a send lets a stale value in, or a last send does not get the field's value in, another
call that carries the field's value has not returned yet. -/
def Covered (c : Collector) : Action → Prop
  | .send i => StaleIn c i → ∃ j, j ≠ i ∧ Carries c j
  | .resend i => StaleIn c i ∨ FreshOut c i → ∃ j, j ≠ i ∧ Carries c j
  | _ => True

/-! ## What a step does -/

theorem send_cases {c c' : Collector} {i : Nat} (h : c.send i = some c') :
    ∃ v, c.calls[i]? = some ⟨v, .send⟩ ∧
      ((c.intervalCh = none ∧
          c' = { c with intervalCh := some v, calls := c.calls.set i ⟨v, .returned⟩ }) ∨
        (∃ w, c.intervalCh = some w ∧ c' = { c with calls := c.calls.set i ⟨v, .drain⟩ })) := by
  unfold Collector.send at h
  split at h
  · next v hi =>
    refine ⟨v, hi, ?_⟩
    split at h
    · next hch => exact Or.inl ⟨hch, by simpa using h.symm⟩
    · next w hch => exact Or.inr ⟨w, hch, by simpa using h.symm⟩
  · cases h

theorem drain_cases {c c' : Collector} {i : Nat} (h : c.drain i = some c') :
    ∃ v, c.calls[i]? = some ⟨v, .drain⟩ ∧
      c' = { c with intervalCh := none, calls := c.calls.set i ⟨v, .resend⟩ } := by
  unfold Collector.drain at h
  split at h
  · next v hi => exact ⟨v, hi, by simpa using h.symm⟩
  · cases h

theorem resend_cases {c c' : Collector} {i : Nat} (h : c.resend i = some c') :
    ∃ v, c.calls[i]? = some ⟨v, .resend⟩ ∧
      ((c.intervalCh = none ∧
          c' = { c with intervalCh := some v, calls := c.calls.set i ⟨v, .returned⟩ }) ∨
        (∃ w, c.intervalCh = some w ∧ c' = { c with calls := c.calls.set i ⟨v, .returned⟩ })) := by
  unfold Collector.resend at h
  split at h
  · next v hi =>
    refine ⟨v, hi, ?_⟩
    split at h
    · next hch => exact Or.inl ⟨hch, by simpa using h.symm⟩
    · next w hch => exact Or.inr ⟨w, hch, by simpa using h.symm⟩
  · cases h

theorem setInterval_cases (c : Collector) (v : Int) :
    (c.setInterval v).2 = c ∨
    (v ≠ c.interval ∧
      (c.setInterval v).2 = { c with interval := v, calls := c.calls ++ [⟨v, .send⟩] }) := by
  unfold Collector.setInterval
  split_ifs with hneg heq
  · exact Or.inl rfl
  · exact Or.inl rfl
  · exact Or.inr ⟨Ne.symm heq, rfl⟩

/-- The steps of `Run` and of its subscribers leave field and calls alone, and move the ticker's
next period nowhere: it is created with the field's value, or takes what was in the channel. -/
theorem other_cases {c c' : Collector} {a : Action} (hset : ∀ v, a ≠ .setInterval v)
    (hsend : ∀ i, a ≠ .send i) (hdrain : ∀ i, a ≠ .drain i) (hresend : ∀ i, a ≠ .resend i)
    (h : step c a = some c') :
    c'.interval = c.interval ∧ c'.calls = c.calls ∧
      ((c'.intervalCh = c.intervalCh ∧ c'.period = c.period ∧
          (c'.loop = .starting → c.loop = .starting)) ∨
        (c.loop = .starting ∧ c'.intervalCh = c.intervalCh ∧ c'.period = some c.interval ∧
          c'.loop ≠ .starting) ∨
        (∃ v, c.intervalCh = some v ∧ c'.intervalCh = none ∧ c'.period = some v ∧
          c'.loop ≠ .starting)) := by
  cases a with
  | setInterval v => exact absurd rfl (hset v)
  | send i => exact absurd rfl (hsend i)
  | drain i => exact absurd rfl (hdrain i)
  | resend i => exact absurd rfl (hresend i)
  | begin =>
    simp only [step, Collector.begin] at h
    split at h
    · next hl => cases h; exact ⟨rfl, rfl, Or.inr (Or.inl ⟨hl, rfl, rfl, by simp⟩)⟩
    · cases h
  | receive =>
    simp only [step, Collector.receive] at h
    split at h
    · next v hl hch => cases h; exact ⟨rfl, rfl, Or.inr (Or.inr ⟨v, hch, rfl, rfl, by simp [hl]⟩)⟩
    · cases h
  | tick =>
    simp only [step, Collector.tick] at h
    split at h <;> cases h
    exact ⟨rfl, rfl, Or.inl ⟨rfl, rfl, by simp⟩⟩
  | lock =>
    simp only [step, Collector.lock] at h
    split at h <;> cases h
    exact ⟨rfl, rfl, Or.inl ⟨rfl, rfl, by simp⟩⟩
  | offer =>
    simp only [step, Collector.offer] at h
    split at h
    · split_ifs at h <;> cases h
      all_goals exact ⟨rfl, rfl, Or.inl ⟨rfl, rfl, by simp⟩⟩
    · cases h
  | stop =>
    simp only [step, Collector.stop] at h
    split at h <;> cases h
    exact ⟨rfl, rfl, Or.inl ⟨rfl, rfl, by simp⟩⟩
  | subscribe =>
    simp only [step, Collector.subscribe] at h
    split at h <;> cases h
    exact ⟨rfl, rfl, Or.inl ⟨rfl, rfl, id⟩⟩
  | take k =>
    simp only [step, Collector.take] at h
    split at h
    · simp only [Option.map_map, Option.map_eq_some_iff] at h
      obtain ⟨r, -, rfl⟩ := h
      exact ⟨rfl, rfl, Or.inl ⟨rfl, rfl, id⟩⟩
    · cases h

/-! ## The invariant -/

/-- The period the ticker has once the channel is emptied and no more calls send. -/
def Collector.next (c : Collector) : Int := c.intervalCh.getD (c.period.getD c.interval)

/-- A call is about to make its second send, into the empty channel. -/
def Resending (c : Collector) : Prop :=
  c.intervalCh = none ∧ ∃ (i : Nat) (v : Int), c.calls[i]? = some ⟨v, .resend⟩

/-- The ticker is right, or will be put right by a call that has not returned. -/
def Following (c : Collector) : Prop :=
  c.next = c.interval ∨ (∃ j, Carries c j) ∨ Resending c

theorem following_newCollector (interval : Int) : Following (newCollector interval) := Or.inl rfl

/-- At rest there is nobody left to put the ticker right. -/
theorem converges_of_following {c : Collector} (h : Following c) : Converges c := by
  rintro ⟨hret, hch, hper⟩
  have hnone : ∀ (j : Nat) (call : Call), c.calls[j]? = some call → call.phase = .returned :=
    fun j call hj => hret call (List.mem_of_getElem? hj)
  rcases h with hnext | ⟨j, call, hj, hphase, -⟩ | ⟨-, j, v, hj⟩
  · obtain ⟨p, hp⟩ := Option.ne_none_iff_exists'.1 hper
    simpa [Collector.next, hch, hp] using hnext
  · exact absurd (hnone j call hj) hphase
  · exact absurd (hnone j _ hj) (by simp)

/-- A call other than `i` carries the field's value before and after a step of call `i`. -/
theorem Carries.set {c c' : Collector} {i j : Nat} {call : Call} (hc : Carries c j) (hij : j ≠ i)
    (hcalls : c'.calls = c.calls.set i call) (hint : c'.interval = c.interval) : Carries c' j := by
  obtain ⟨call', hj, hphase, hv⟩ := hc
  exact ⟨call', by rw [hcalls, List.getElem?_set_ne hij.symm, hj], hphase, by rw [hv, hint]⟩

theorem getElem?_set_calls {c : Collector} {i : Nat} {call call' : Call}
    (hi : c.calls[i]? = some call) : (c.calls.set i call')[i]? = some call' :=
  List.getElem?_set_self (List.getElem?_eq_some_iff.1 hi).1

/-- A send of a call with the field's value makes it the ticker's next period; any other is
covered. -/
theorem following_sent {c : Collector} {i : Nat} {call : Call} (hi : c.calls[i]? = some call)
    (hch : c.intervalCh = none) (hcov : StaleIn c i → ∃ j, j ≠ i ∧ Carries c j) :
    Following { c with
      intervalCh := some call.interval, calls := c.calls.set i ⟨call.interval, .returned⟩ } := by
  by_cases hv : call.interval = c.interval
  · exact Or.inl hv
  · obtain ⟨j, hji, hcar⟩ := hcov ⟨call, hi, hch, hv⟩
    exact Or.inr (Or.inl ⟨j, hcar.set hji rfl rfl⟩)

theorem following_send {c c' : Collector} {i : Nat} (hf : Following c)
    (hcov : Covered c (.send i)) (h : c.send i = some c') : Following c' := by
  obtain ⟨v, hi, ⟨hch, rfl⟩ | ⟨w, hch, rfl⟩⟩ := send_cases h
  · exact following_sent hi hch hcov
  · rcases hf with hnext | ⟨j, hcar⟩ | ⟨hnone, -⟩
    · exact Or.inl hnext
    · by_cases hji : j = i
      · subst hji
        obtain ⟨call, hj, -, hv⟩ := hcar
        cases hi.symm.trans hj
        exact Or.inr (Or.inl ⟨j, ⟨v, .drain⟩, getElem?_set_calls hi, by simp, hv⟩)
      · exact Or.inr (Or.inl ⟨j, hcar.set hji rfl rfl⟩)
    · rw [hch] at hnone
      cases hnone

theorem following_resend {c c' : Collector} {i : Nat} (hf : Following c)
    (hcov : Covered c (.resend i)) (h : c.resend i = some c') : Following c' := by
  obtain ⟨v, hi, ⟨hch, rfl⟩ | ⟨w, hch, rfl⟩⟩ := resend_cases h
  · exact following_sent hi hch fun hstale => hcov (Or.inl hstale)
  · rcases hf with hnext | ⟨j, hcar⟩ | ⟨hnone, -⟩
    · exact Or.inl hnext
    · by_cases hji : j = i
      · subst hji
        obtain ⟨call, hj, -, hv⟩ := hcar
        cases hi.symm.trans hj
        -- The call gives up: either the channel holds the same value, or another call covers it.
        by_cases hw : w = c.interval
        · exact Or.inl (by simp [Collector.next, hch, hw])
        · obtain ⟨k, hki, hcar⟩ := hcov (Or.inr ⟨_, w, hi, hch, hw, hv⟩)
          exact Or.inr (Or.inl ⟨k, hcar.set hki rfl rfl⟩)
      · exact Or.inr (Or.inl ⟨j, hcar.set hji rfl rfl⟩)
    · rw [hch] at hnone
      cases hnone

theorem following_step {c c' : Collector} {a : Action} (hf : Following c) (hcov : Covered c a)
    (h : step c a = some c') : Following c' := by
  cases a with
  | setInterval v =>
    simp only [step, Option.some.injEq] at h
    subst h
    rcases setInterval_cases c v with hsame | ⟨-, hnew⟩
    · rwa [hsame]
    · rw [hnew]
      exact Or.inr (Or.inl ⟨c.calls.length, ⟨v, .send⟩, by simp, by simp, rfl⟩)
  | send i => exact following_send hf hcov h
  | drain i =>
    obtain ⟨v, hi, rfl⟩ := drain_cases h
    exact Or.inr (Or.inr ⟨rfl, i, v, getElem?_set_calls hi⟩)
  | resend i => exact following_resend hf hcov h
  | _ =>
    obtain ⟨hint, hcalls, hdial⟩ :=
      other_cases (by simp) (by simp) (by simp) (by simp) h
    rcases hf with hnext | ⟨j, call, hj, hphase, hv⟩ | ⟨hnone, j, v, hj⟩
    · left
      rcases hdial with ⟨hch, hper, -⟩ | ⟨-, hch, hper, -⟩ | ⟨v, hch, hch', hper, -⟩
      · simpa [Collector.next, hch, hper, hint] using hnext
      · cases hc : c.intervalCh with
        | none => simp [Collector.next, hch, hper, hint, hc]
        | some v => simpa [Collector.next, hch, hint, hc] using hnext
      · simpa [Collector.next, hch, hch', hper, hint] using hnext
    · exact Or.inr (Or.inl ⟨j, call, by rw [hcalls, hj], hphase, by rw [hint, hv]⟩)
    · rcases hdial with ⟨hch, -⟩ | ⟨-, hch, -⟩ | ⟨v, hch, -⟩
      · exact Or.inr (Or.inr ⟨by rw [hch, hnone], j, v, by rw [hcalls, hj]⟩)
      · exact Or.inr (Or.inr ⟨by rw [hch, hnone], j, v, by rw [hcalls, hj]⟩)
      · rw [hch] at hnone
        cases hnone

/-- **The ticker converges in covered runs.** -/
theorem converges_of_covered {interval : Int} {as : List Action} {c : Collector}
    (hcov : Lts.Along step Covered (newCollector interval) as)
    (h : Lts.run step (newCollector interval) as = some c) : Converges c :=
  converges_of_following (Lts.invariant_along (fun _ _ _ hf hc hs => following_step hf hc hs)
    (following_newCollector interval) hcov h)

/-- Call 0 writes the field first and gets its old value into the channel, which call 1 drains. -/
def overtaken : List Action :=
  [.begin, .setInterval 1, .setInterval 2, .send 0, .send 1, .drain 1, .resend 1, .receive]

theorem covered_overtaken : Lts.Along step Covered (newCollector 3) overtaken := by
  refine ⟨trivial, fun c hc => ?_⟩
  cases hc
  refine ⟨trivial, fun c hc => ?_⟩
  cases hc
  refine ⟨trivial, fun c hc => ?_⟩
  cases hc
  -- Call 0 sends 1 while call 1 carries 2.
  refine ⟨fun _ => ⟨1, by decide, ⟨2, .send⟩, rfl, by decide, rfl⟩, fun c hc => ?_⟩
  cases hc
  refine ⟨fun ⟨_, _, hch, _⟩ => (by cases hch), fun c hc => ?_⟩
  cases hc
  refine ⟨trivial, fun c hc => ?_⟩
  cases hc
  refine ⟨fun hlost => ?_, fun c hc => ⟨trivial, fun _ _ => trivial⟩⟩
  rcases hlost with ⟨call, hcall, -, hne⟩ | ⟨_, _, -, hch, -⟩
  · cases hcall
    exact absurd rfl hne
  · cases hch

theorem converges_of_covered_overtaken :
    ∃ c, Lts.run step (newCollector 3) overtaken = some c ∧ AtRest c ∧ Converges c :=
  ⟨_, rfl, by decide, converges_of_covered covered_overtaken rfl⟩

/-! ## Nothing is left out -/

/-- Nobody will put the ticker right: no call carries the field's value, and the ticker's next
period is another one, or a call is about to make it so. -/
structure Lost (c : Collector) : Prop where
  nobody : ∀ j, ¬ Carries c j
  astray : c.next ≠ c.interval ∨ Resending c

/-- `Run` has no ticker before it begins. -/
def Begun (c : Collector) : Prop := c.loop = .starting → c.period = none

theorem begun_step {c c' : Collector} {a : Action} (hb : Begun c) (h : step c a = some c') :
    Begun c' := by
  cases a with
  | setInterval v =>
    simp only [step, Option.some.injEq] at h
    subst h
    rcases setInterval_cases c v with hsame | ⟨-, hnew⟩
    · rwa [hsame]
    · rw [hnew]
      exact hb
  | send i => obtain ⟨v, -, ⟨-, rfl⟩ | ⟨w, -, rfl⟩⟩ := send_cases h <;> exact hb
  | drain i =>
    obtain ⟨v, -, rfl⟩ := drain_cases h
    exact hb
  | resend i => obtain ⟨v, -, ⟨-, rfl⟩ | ⟨w, -, rfl⟩⟩ := resend_cases h <;> exact hb
  | _ =>
    obtain ⟨-, -, ⟨-, hper, hl⟩ | ⟨-, -, -, hl⟩ | ⟨v, -, -, -, hl⟩⟩ :=
      other_cases (by simp) (by simp) (by simp) (by simp) h
    · exact fun hst => hper.trans (hb (hl hst))
    · exact fun hst => absurd hst hl
    · exact fun hst => absurd hst hl

/-- A step of call `i` that leaves it without the field's value makes no other call carry it. -/
theorem nobody_set {c c' : Collector} {i : Nat} {call : Call}
    (hn : ∀ j, j ≠ i → ¬ Carries c j) (hcalls : c'.calls = c.calls.set i call)
    (hint : c'.interval = c.interval)
    (hcall : call.phase ≠ .returned → call.interval ≠ c.interval) :
    ∀ j, ¬ Carries c' j := by
  rintro j ⟨call', hj, hphase, hv⟩
  rw [hcalls] at hj
  by_cases hji : j = i
  · subst hji
    by_cases hlt : j < c.calls.length
    · rw [List.getElem?_set_self hlt] at hj
      cases hj
      exact hcall hphase (hv.trans hint)
    · simp [hlt] at hj
  · rw [List.getElem?_set_ne (Ne.symm hji)] at hj
    exact hn j hji ⟨call', hj, hphase, hv.trans hint⟩

/-- What is lost stays lost until the field is written again. -/
theorem lost_step {c c' : Collector} {a : Action} (hb : Begun c) (hl : Lost c)
    (hsame : ∀ v, a = .setInterval v → (c.setInterval v).2 = c) (h : step c a = some c') :
    Lost c' := by
  have hstale : ∀ {i : Nat} {call : Call}, c.calls[i]? = some call → call.phase ≠ .returned →
      call.interval ≠ c.interval := fun {i call} hi hphase hv => hl.nobody i ⟨call, hi, hphase, hv⟩
  cases a with
  | setInterval v =>
    simp only [step, Option.some.injEq, hsame v rfl] at h
    rwa [← h]
  | send i =>
    obtain ⟨v, hi, ⟨hch, rfl⟩ | ⟨w, hch, rfl⟩⟩ := send_cases h
    · have hv := hstale hi (by simp)
      exact ⟨nobody_set (fun j _ => hl.nobody j) rfl rfl fun _ => hv, Or.inl hv⟩
    · have hv := hstale hi (by simp)
      refine ⟨nobody_set (fun j _ => hl.nobody j) rfl rfl fun _ => hv, ?_⟩
      rcases hl.astray with hnext | ⟨hnone, -⟩
      · exact Or.inl hnext
      · rw [hch] at hnone
        cases hnone
  | drain i =>
    obtain ⟨v, hi, rfl⟩ := drain_cases h
    have hv := hstale hi (by simp)
    exact ⟨nobody_set (fun j _ => hl.nobody j) rfl rfl fun _ => hv,
      Or.inr ⟨rfl, i, v, getElem?_set_calls hi⟩⟩
  | resend i =>
    obtain ⟨v, hi, ⟨hch, rfl⟩ | ⟨w, hch, rfl⟩⟩ := resend_cases h
    · have hv := hstale hi (by simp)
      exact ⟨nobody_set (fun j _ => hl.nobody j) rfl rfl fun _ => hv, Or.inl hv⟩
    · refine ⟨nobody_set (fun j _ => hl.nobody j) rfl rfl (by simp), ?_⟩
      rcases hl.astray with hnext | ⟨hnone, -⟩
      · exact Or.inl hnext
      · rw [hch] at hnone
        cases hnone
  | _ =>
    obtain ⟨hint, hcalls, hdial⟩ := other_cases (by simp) (by simp) (by simp) (by simp) h
    refine ⟨fun j ⟨call, hj, hphase, hv⟩ => hl.nobody j
      ⟨call, by rw [← hcalls, hj], hphase, by rw [← hint, hv]⟩, ?_⟩
    rcases hl.astray with hnext | ⟨hnone, j, v, hj⟩
    · rcases hdial with ⟨hch, hper, -⟩ | ⟨hst, hch, -⟩ | ⟨v, hch, hch', hper, -⟩
      · exact Or.inl (by simpa [Collector.next, hch, hper, hint] using hnext)
      · -- Before `Run` begins the next period is astray only through the channel.
        cases hc : c.intervalCh with
        | none => simp [Collector.next, hc, hb hst] at hnext
        | some v => exact Or.inl (by simpa [Collector.next, hch, hint, hc] using hnext)
      · exact Or.inl (by simpa [Collector.next, hch, hch', hper, hint] using hnext)
    · rcases hdial with ⟨hch, -⟩ | ⟨-, hch, -⟩ | ⟨v, hch, -⟩
      · exact Or.inr ⟨by rw [hch, hnone], j, v, by rw [hcalls, hj]⟩
      · exact Or.inr ⟨by rw [hch, hnone], j, v, by rw [hcalls, hj]⟩
      · rw [hch] at hnone
        cases hnone

/-- At rest, what is lost shows. -/
theorem not_converges_of_lost {c : Collector} (hl : Lost c) (hr : AtRest c) : ¬ Converges c := by
  intro hconv
  have hper := hconv hr
  rcases hl.astray with hnext | ⟨-, j, v, hj⟩
  · exact hnext (by simp [Collector.next, hr.2.1, hper])
  · exact absurd (hr.1 _ (List.mem_of_getElem? hj)) (by simp)

/-- After a step that is not covered nobody is left. -/
theorem lost_of_not_covered {c c' : Collector} {a : Action} (hcov : ¬ Covered c a)
    (h : step c a = some c') : Lost c' := by
  cases a with
  | send i =>
    simp only [Covered, Classical.not_imp, not_exists, not_and] at hcov
    obtain ⟨⟨call, hi, hch, hv⟩, hothers⟩ := hcov
    obtain ⟨v, hi', ⟨-, rfl⟩ | ⟨w, hch', -⟩⟩ := send_cases h
    · cases hi.symm.trans hi'
      exact ⟨nobody_set hothers rfl rfl fun _ => hv, Or.inl hv⟩
    · rw [hch] at hch'
      cases hch'
  | resend i =>
    simp only [Covered, Classical.not_imp, not_exists, not_and] at hcov
    obtain ⟨hstale | ⟨call, w, hi, hch, hw, -⟩, hothers⟩ := hcov
    · obtain ⟨call, hi, hch, hv⟩ := hstale
      obtain ⟨v, hi', ⟨-, rfl⟩ | ⟨w, hch', -⟩⟩ := resend_cases h
      · cases hi.symm.trans hi'
        exact ⟨nobody_set hothers rfl rfl fun _ => hv, Or.inl hv⟩
      · rw [hch] at hch'
        cases hch'
    · obtain ⟨v, hi', ⟨hch', -⟩ | ⟨w', hch', rfl⟩⟩ := resend_cases h
      · rw [hch] at hch'
        cases hch'
      · exact ⟨nobody_set hothers rfl rfl (by simp),
          Or.inl (by simpa [Collector.next, hch] using hw)⟩
  | _ => exact absurd trivial hcov

/-- **Nothing is left out.** After a step that is not covered the ticker is wrong at every rest,
until a call changes the field. -/
theorem diverges_of_uncovered {interval : Int} {before as : List Action} {c c₁ c' : Collector}
    {a : Action} (hreach : Lts.run step (newCollector interval) before = some c)
    (hcov : ¬ Covered c a) (h : step c a = some c₁) (hrun : Lts.run step c₁ as = some c')
    (hsame : Lts.Along step (fun c a => ∀ v, a = .setInterval v → (c.setInterval v).2 = c) c₁ as)
    (hrest : AtRest c') : ¬ Converges c' := by
  have hb : Begun c :=
    Lts.invariant (fun _ _ _ hd hs => begun_step hd hs) (fun _ => rfl) hreach
  have hstep : ∀ (d : Collector) (a : Action) (d' : Collector), Begun d ∧ Lost d →
      (∀ v, a = .setInterval v → (d.setInterval v).2 = d) → step d a = some d' →
      Begun d' ∧ Lost d' :=
    fun _ _ _ hd hs hd' => ⟨begun_step hd.1 hd', lost_step hd.1 hd.2 hs hd'⟩
  have hinv : Begun c' ∧ Lost c' :=
    Lts.invariant_along hstep ⟨begun_step hb h, lost_of_not_covered hcov h⟩ hsame hrun
  exact not_converges_of_lost hinv.2 hrest

end QuickVps.Metrics
