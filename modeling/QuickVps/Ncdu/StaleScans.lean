import QuickVps.Ncdu.Runner

/-!
# Stale scans and the shared result

A scan is *stale* once a later `Start` has superseded it or `Cancel` has stopped it. Its goroutine
is still alive and still ends with a write to the one shared result, and nothing in that write
asks whether the scan is stale.

* `StaleInert` — the intended behaviour of a run: stale scans leave the result alone, the status
  is running until the latest scan ends, and idle after a `Cancel`.
* `stale_exit_overwrites` — it fails: the exit of a superseded scan sets the status of its
  successor to idle.
* `staleInert_of_quiet` — it holds in the runs where a stale scan leaves only by the cancelled
  exit, and only while the status is idle already (no `Start` came after the `Cancel`).

The invariant of the induction is `Settled` with `LatestIsLast`: the stored `CancelFunc` belongs
to the last scan started.
-/

namespace QuickVps.Ncdu

/-! ## The intended behaviour -/

/-- Scan `i` has been superseded by a later started `Start`, or stopped by `Cancel`. -/
def Stale (s : State) (i : Nat) : Prop :=
  i + 1 < s.scans.length ∨ s.runner.cancel = none

/-- The status and path a state shows: those of the latest scan until it ends, and idle while
there is no scan that is not stopped. -/
structure Settled (s : State) : Prop where
  running : ∀ i sc, s.runner.cancel = some i → s.scans[i]? = some sc → sc.phase ≠ .ended →
    s.runner.result.status = .running ∧ s.runner.result.path = sc.path
  idle : s.runner.cancel = none → s.runner.result.status = .idle

/-- A write of a stale scan does not change the result. -/
def StaleUnmoved (s : State) (a : Action) : Prop :=
  ∀ i now, a = .write i now → Stale s i →
    ∀ s', step s a = some s' → s'.runner.result = s.runner.result

/-- Stale scans never touch the result on the run of `as`, and every state it visits is settled. -/
def StaleInert (as : List Action) : Prop :=
  Lts.Along step StaleUnmoved newRunner as ∧ Lts.Visits step Settled newRunner as

/-- A scan that ended by being killed: `cmd.Wait` fails. -/
def killed : ScanRun where
  parsed := .error "unexpected end of JSON input"
  waitErr := some "signal: killed"

/-- **A superseded scan overwrites the result.** Two scans of different paths, the first of which
is killed by the second `Start`: its exit reports the second one as idle. -/
theorem stale_exit_overwrites :
    ¬ ∀ as s, Lts.run step newRunner as = some s → StaleInert as := by
  intro h
  have hrun := h [.start "/a" 0, .start "/b" 1, .leave 0 killed, .write 0 2] _ rfl
  -- The state after the last step has a live second scan and status idle.
  have hv : Settled _ := (((hrun.2.2 _ rfl).2 _ rfl).2 _ rfl).2 _ rfl
  have hst := (hv.running 1 ⟨"/b", false, .scanning⟩ rfl rfl (by simp)).1
  exact absurd hst (by decide)

/-! ## When it holds -/

/-- A stale scan takes its last lock region only by the cancelled exit, and only while the status
is idle. -/
def QuietStale (s : State) (a : Action) : Prop :=
  ∀ i now, a = .write i now → Stale s i →
    (∃ path c, s.scans[i]? = some ⟨path, c, .exiting .cancelled⟩) ∧
      s.runner.result.status = .idle

theorem quietStale_of_ne_write {s : State} {a : Action} (h : ∀ i now, a ≠ .write i now) :
    QuietStale s a :=
  fun i now heq => absurd heq (h i now)

/-- The stored `CancelFunc` is that of the last scan started. -/
def LatestIsLast (s : State) : Prop :=
  ∀ i, s.runner.cancel = some i → i + 1 = s.scans.length

theorem latestIsLast_step {s s' : State} {a : Action} (hl : LatestIsLast s)
    (h : step s a = some s') : LatestIsLast s' := by
  intro i hi
  cases a with
  | start path now =>
    simp only [step, Option.some.injEq] at h
    subst h
    rcases start_cases s path now with ⟨-, hsame⟩ | ⟨-, -, hcancel, hscans⟩
    · rw [hsame] at hi ⊢
      exact hl i hi
    · rw [hcancel, Option.some.injEq] at hi
      simp [hscans, ← hi]
  | cancel =>
    simp only [step, Option.some.injEq] at h
    subst h
    simp [State.cancel] at hi
  | setCacheTTL ttl =>
    simp only [step, State.setCacheTTL] at h
    split_ifs at h
    cases h
    exact hl i hi
  | leave j o =>
    obtain ⟨path, c, -, rfl⟩ := leave_cases h
    simpa using hl i hi
  | write j now =>
    obtain ⟨path, c, e, -, rfl⟩ := write_cases h
    simpa using hl i hi

/-- A quiet write of a stale scan sets idle to idle. -/
theorem staleUnmoved_of_quiet {s : State} {a : Action} (hq : QuietStale s a) :
    StaleUnmoved s a := by
  rintro i now rfl hstale s' h
  obtain ⟨path, c, e, hi, rfl⟩ := write_cases h
  obtain ⟨⟨path', c', hi'⟩, hidle⟩ := hq i now rfl hstale
  have he : e = .cancelled := by
    rw [hi] at hi'
    cases hi'
    rfl
  subst he
  simp [Exit.write, ← hidle]

theorem settled_start {s : State} (hs : Settled s) (path : String) (now : Int) :
    Settled (s.start path now).2 := by
  rcases start_cases s path now with ⟨-, hsame⟩ | ⟨-, hres, hcancel, hscans⟩
  · rwa [hsame]
  · constructor
    · intro i sc hi hsc _
      rw [hcancel, Option.some.injEq] at hi
      subst hi
      rw [hscans, ← length_cancelScan s.scans s.runner.cancel, List.getElem?_concat_length] at hsc
      cases hsc
      simp [hres]
    · intro hnone
      rw [hcancel] at hnone
      cases hnone

/-- A goroutine on its way to its last lock region has not ended and keeps its path. -/
theorem settled_leave {s s' : State} (hs : Settled s) {j : Nat} {o : ScanRun}
    (h : s.leave j o = some s') : Settled s' := by
  obtain ⟨path, c, hj, rfl⟩ := leave_cases h
  refine ⟨fun i sc hi hsc hne => ?_, hs.idle⟩
  by_cases hij : j = i
  · subst hij
    have hlt : j < s.scans.length := (List.getElem?_eq_some_iff.1 hj).1
    rw [List.getElem?_set_self hlt] at hsc
    cases hsc
    exact hs.running j ⟨path, c, .scanning⟩ hi hj (by simp)
  · rw [List.getElem?_set_ne hij] at hsc
    exact hs.running i sc hi hsc hne

/-- The live scan may write what it likes; a stale one is quiet. -/
theorem settled_write {s s' : State} (hs : Settled s) (hl : LatestIsLast s) {j : Nat} {now : Int}
    (hq : QuietStale s (.write j now)) (h : s.write j now = some s') : Settled s' := by
  have hres := staleUnmoved_of_quiet hq j now rfl
  obtain ⟨path, c, e, hj, rfl⟩ := write_cases h
  have hlt : j < s.scans.length := (List.getElem?_eq_some_iff.1 hj).1
  by_cases hstale : Stale s j
  · have hsame : e.write path now s.runner.result = s.runner.result := hres hstale _ h
    rw [hsame]
    refine ⟨fun i sc hi hsc hne => ?_, hs.idle⟩
    have hij : j ≠ i := by
      rintro rfl
      rcases hstale with hlater | hnone
      · have := hl j hi
        omega
      · exact absurd hi (by simp [hnone])
    rw [List.getElem?_set_ne hij] at hsc
    exact hs.running i sc hi hsc hne
  · have hlive : s.runner.cancel ≠ none := fun hnone => hstale (Or.inr hnone)
    refine ⟨fun i sc hi hsc hne => ?_, fun hnone => absurd hnone hlive⟩
    -- `j` is the last scan, hence the one of the stored `CancelFunc`.
    have hij : j = i := by
      have := hl i hi
      have : ¬ j + 1 < s.scans.length := fun hlater => hstale (Or.inl hlater)
      omega
    subst hij
    rw [List.getElem?_set_self hlt] at hsc
    cases hsc
    exact absurd rfl hne

theorem settled_step {s s' : State} {a : Action} (hs : Settled s) (hl : LatestIsLast s)
    (hq : QuietStale s a) (h : step s a = some s') : Settled s' := by
  cases a with
  | start path now =>
    simp only [step, Option.some.injEq] at h
    subst h
    exact settled_start hs path now
  | cancel =>
    simp only [step, Option.some.injEq] at h
    subst h
    exact ⟨fun i sc hi => by simp [State.cancel] at hi, fun _ => rfl⟩
  | setCacheTTL ttl =>
    simp only [step, State.setCacheTTL] at h
    split_ifs at h
    cases h
    exact ⟨hs.running, hs.idle⟩
  | leave j o => exact settled_leave hs h
  | write j now => exact settled_write hs hl hq h

/-- Along a quiet run from a settled state, stale scans change nothing and every state is
settled. -/
theorem inert_along {s : State} (hs : Settled s) (hl : LatestIsLast s) (as : List Action)
    (hq : Lts.Along step QuietStale s as) :
    Lts.Along step StaleUnmoved s as ∧ Lts.Visits step Settled s as := by
  induction as generalizing s with
  | nil => exact ⟨trivial, hs⟩
  | cons a as ih =>
    have hnext : ∀ s', step s a = some s' →
        Lts.Along step StaleUnmoved s' as ∧ Lts.Visits step Settled s' as := fun s' h =>
      ih (settled_step hs hl hq.1 h) (latestIsLast_step hl h) (hq.2 s' h)
    exact ⟨⟨staleUnmoved_of_quiet hq.1, fun s' h => (hnext s' h).1⟩,
      ⟨hs, fun s' h => (hnext s' h).2⟩⟩

/-- **Stale scans are inert in quiet runs.** -/
theorem staleInert_of_quiet (as : List Action) (hq : Lts.Along step QuietStale newRunner as) :
    StaleInert as :=
  inert_along ⟨fun i sc hi => by simp [newRunner] at hi, fun _ => rfl⟩
    (fun i hi => by simp [newRunner] at hi) as hq

/-- A scan stopped by `Cancel` that leaves by the cancelled exit, before the next `Start`. -/
theorem staleInert_cancel_then_start :
    StaleInert [.start "/a" 0, .cancel, .leave 0 killed, .write 0 1, .start "/b" 2] := by
  refine staleInert_of_quiet _ ⟨quietStale_of_ne_write (by simp), fun s hs => ?_⟩
  cases hs
  refine ⟨quietStale_of_ne_write (by simp), fun s hs => ?_⟩
  cases hs
  refine ⟨quietStale_of_ne_write (by simp), fun s hs => ?_⟩
  cases hs
  refine ⟨?_, fun s hs => ?_⟩
  · rintro i now ⟨⟩ -
    exact ⟨⟨"/a", true, rfl⟩, rfl⟩
  cases hs
  exact ⟨quietStale_of_ne_write (by simp), fun s hs => trivial⟩

end QuickVps.Ncdu
