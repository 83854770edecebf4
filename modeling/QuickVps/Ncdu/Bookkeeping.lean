import QuickVps.Ncdu.StaleScans

/-!
# What the runner's result says

The fields of the one shared result are written by several hands: `Start` and a successful scan
replace it as a whole, the other exits and `Cancel` set one or two fields. Whatever the
interleaving, some things can be read off it.

* `Owned` — the stored `CancelFunc` is the one handle to a context that may be live; while the
  status is running it is there, and its scan has neither been cancelled nor ended.
* `FromScan` — a result that one successful scan has written as a whole.
* `bookkeeping` — in every state of every run: all contexts but the latest are cancelled, running
  means that the latest scan will still write, and done means `FromScan`.
-/

namespace QuickVps.Ncdu

open Go

/-! ## What is claimed of a state -/

/-- `r` is what goroutine `i` has written after scanning `r.path` with success: its commands
(`o`) left it with the tree `root`, and it took its last lock region at `now`. -/
def FromScan (as : List Action) (r : ScanResult) : Prop :=
  ∃ as₁ i o as₂ now as₃ s c root,
    as = as₁ ++ .leave i o :: as₂ ++ .write i now :: as₃ ∧
    Lts.run step newRunner as₁ = some s ∧ s.scans[i]? = some ⟨r.path, c, .scanning⟩ ∧
    o.exit c = .finished root ∧
    r = { path := r.path
          scannedAt := now
          totalSize := (root.map DirEntry.diskSize).getD 0
          root := root
          status := .done }

/-- What the runner's books say after the actions `as`. -/
structure Bookkeeping (as : List Action) (s : State) : Prop where
  superseded : ∀ i sc, s.scans[i]? = some sc → i + 1 < s.scans.length → sc.cancelled
  running : s.runner.result.status = .running →
    ∃ sc, s.scans.getLast? = some sc ∧ sc.path = s.runner.result.path ∧
      sc.cancelled = false ∧ sc.phase ≠ .ended
  done : s.runner.result.status = .done → FromScan as s.runner.result
  sizes : s.runner.result.status = .done → ∀ root, s.runner.result.root = some root →
    s.runner.result.totalSize = root.diskSize
  cached : ∀ path now, (s.start path now).1 = .cached →
    FromScan as s.runner.result ∧ s.runner.result.path = path ∧
      timeSub now s.runner.result.scannedAt ≤ s.runner.cacheTTL

/-! ## The one live context -/

/-- Whoever holds the stored `CancelFunc` can cancel the only context that may be live, and while
the status is running that context is live and its scan has not ended. -/
structure Owned (s : State) : Prop where
  latest : LatestIsLast s
  others : ∀ i sc, s.scans[i]? = some sc → s.runner.cancel ≠ some i → sc.cancelled
  running : s.runner.result.status = .running → ∃ i sc, s.runner.cancel = some i ∧
    s.scans[i]? = some sc ∧ sc.path = s.runner.result.path ∧ sc.cancelled = false ∧
    sc.phase ≠ .ended

/-- After the stored `CancelFunc` was called, no context is live. -/
theorem Owned.cancelScan {s : State} (ho : Owned s) {i : Nat} {sc : Scan}
    (h : (cancelScan s.scans s.runner.cancel)[i]? = some sc) : sc.cancelled := by
  cases hc : s.runner.cancel with
  | none =>
    rw [hc] at h
    exact ho.others i sc h (by simp [hc])
  | some j =>
    rw [hc] at h
    simp only [Ncdu.cancelScan, List.getElem?_modify] at h
    obtain ⟨sc₀, hsc₀, rfl⟩ := Option.map_eq_some_iff.1 h
    by_cases hij : j = i
    · simp [hij]
    · simpa [hij] using ho.others i sc₀ hsc₀ (by simpa [hc] using hij)

theorem owned_start {s : State} (ho : Owned s) (path : String) (now : Int) :
    Owned (s.start path now).2 := by
  rcases start_cases s path now with ⟨-, hsame⟩ | ⟨-, hres, hcancel, hscans⟩
  · rwa [hsame]
  · have hlen : (cancelScan s.scans s.runner.cancel).length = s.scans.length := by simp
    refine ⟨fun i hi => ?_, fun i sc hi hne => ?_, fun _ => ?_⟩
    · rw [hcancel, Option.some.injEq] at hi
      simp [hscans, ← hi]
    · rw [hcancel, ne_eq, Option.some.injEq] at hne
      have hlt : i < s.scans.length := by
        have := (List.getElem?_eq_some_iff.1 hi).1
        rw [hscans, List.length_append, hlen, List.length_singleton] at this
        omega
      rw [hscans, List.getElem?_append_left (by omega)] at hi
      exact ho.cancelScan hi
    · refine ⟨s.scans.length, ⟨path, false, .scanning⟩, hcancel, ?_, by simp [hres]⟩
      rw [hscans, ← hlen, List.getElem?_concat_length]

/-- `Cancel` leaves no live context and a status other than running. -/
theorem owned_cancel {s : State} (ho : Owned s) : Owned s.cancel where
  latest := fun i hi => by simp [State.cancel] at hi
  others := fun _ _ hi _ => ho.cancelScan hi
  running := fun hrun => by simp [State.cancel] at hrun

/-- A goroutine that moves on within its phases keeps its path and its context. -/
theorem owned_leave {s s' : State} (ho : Owned s) {j : Nat} {o : ScanRun}
    (h : s.leave j o = some s') : Owned s' := by
  obtain ⟨path, c, hj, rfl⟩ := leave_cases h
  have hlt : j < s.scans.length := (List.getElem?_eq_some_iff.1 hj).1
  refine ⟨fun i hi => by simpa using ho.latest i hi, fun i sc hi hne => ?_, fun hrun => ?_⟩
  · by_cases hij : j = i
    · subst hij
      rw [List.getElem?_set_self hlt] at hi
      cases hi
      have hc : c = true := ho.others j _ hj hne
      exact hc
    · rw [List.getElem?_set_ne hij] at hi
      exact ho.others i sc hi hne
  · obtain ⟨i, sc, hcancel, hi, hpath, hlive, hphase⟩ := ho.running hrun
    by_cases hij : j = i
    · subst hij
      rw [hj] at hi
      cases hi
      exact ⟨j, _, hcancel, List.getElem?_set_self hlt, hpath, hlive, by simp⟩
    · exact ⟨i, sc, hcancel, by rwa [List.getElem?_set_ne hij], hpath, hlive, hphase⟩

theorem status_write_ne_running (path : String) (now : Int) (r : ScanResult) (e : Exit) :
    (e.write path now r).status ≠ .running := by
  cases e <;> simp [Exit.write]

/-- Every last write, of whichever scan, ends the status running. -/
theorem owned_write {s s' : State} (ho : Owned s) {j : Nat} {now : Int}
    (h : s.write j now = some s') : Owned s' := by
  obtain ⟨path, c, e, hj, rfl⟩ := write_cases h
  have hlt : j < s.scans.length := (List.getElem?_eq_some_iff.1 hj).1
  refine ⟨fun i hi => by simpa using ho.latest i hi, fun i sc hi hne => ?_,
    fun hrun => absurd hrun (status_write_ne_running path now s.runner.result e)⟩
  by_cases hij : j = i
  · subst hij
    rw [List.getElem?_set_self hlt] at hi
    cases hi
    have hc : c = true := ho.others j _ hj hne
    exact hc
  · rw [List.getElem?_set_ne hij] at hi
    exact ho.others i sc hi hne

theorem owned_step {s s' : State} {a : Action} (ho : Owned s) (h : step s a = some s') :
    Owned s' := by
  cases a with
  | start path now =>
    simp only [step, Option.some.injEq] at h
    subst h
    exact owned_start ho path now
  | cancel =>
    simp only [step, Option.some.injEq] at h
    subst h
    exact owned_cancel ho
  | setCacheTTL ttl =>
    simp only [step, State.setCacheTTL] at h
    split_ifs at h
    cases h
    exact ⟨ho.latest, ho.others, ho.running⟩
  | leave j o => exact owned_leave ho h
  | write j now => exact owned_write ho h

/-! ## Where a finished result comes from -/

/-- A goroutine on its way to its last lock region has left its scan in some earlier step. -/
def LeftEarlier (as : List Action) (s : State) : Prop :=
  ∀ i path c e, s.scans[i]? = some ⟨path, c, .exiting e⟩ →
    ∃ as₁ o as₂ s₁ c₁, as = as₁ ++ .leave i o :: as₂ ∧
      Lts.run step newRunner as₁ = some s₁ ∧ s₁.scans[i]? = some ⟨path, c₁, .scanning⟩ ∧
      o.exit c₁ = e

theorem LeftEarlier.snoc {as : List Action} {s s' : State} (a : Action) (hl : LeftEarlier as s)
    (h : ∀ (i : Nat) (path : String) (c : Bool) (e : Exit),
      s'.scans[i]? = some ⟨path, c, .exiting e⟩ →
        ∃ c₀, s.scans[i]? = some ⟨path, c₀, .exiting e⟩) :
    LeftEarlier (as ++ [a]) s' := by
  intro i path c e hi
  obtain ⟨c₀, hi₀⟩ := h i path c e hi
  obtain ⟨as₁, o, as₂, s₁, c₁, rfl, hrun, hscan, hexit⟩ := hl i path c₀ e hi₀
  exact ⟨as₁, o, as₂ ++ [a], s₁, c₁, by simp, hrun, hscan, hexit⟩

/-- Cancelling a context changes no goroutine's path or phase. -/
theorem cancelScan_phase {scans : List Scan} {c : Option Nat} {i : Nat} {path : String}
    {b : Bool} {p : Phase} (h : (cancelScan scans c)[i]? = some ⟨path, b, p⟩) :
    ∃ b₀, scans[i]? = some ⟨path, b₀, p⟩ := by
  cases c with
  | none => exact ⟨b, h⟩
  | some j =>
    simp only [cancelScan, List.getElem?_modify] at h
    obtain ⟨sc, hsc, heq⟩ := Option.map_eq_some_iff.1 h
    refine ⟨sc.cancelled, hsc.trans ?_⟩
    split_ifs at heq
    all_goals cases heq; rfl

theorem leftEarlier_step {as : List Action} {s s' : State} {a : Action}
    (hrun : Lts.run step newRunner as = some s) (hl : LeftEarlier as s)
    (h : step s a = some s') : LeftEarlier (as ++ [a]) s' := by
  cases a with
  | start path now =>
    simp only [step, Option.some.injEq] at h
    subst h
    rcases start_cases s path now with ⟨-, hsame⟩ | ⟨-, -, -, hscans⟩
    · rw [hsame]
      exact hl.snoc _ fun i path c e hi => ⟨c, hi⟩
    · refine hl.snoc _ fun i path' c e hi => ?_
      rw [hscans, List.getElem?_append] at hi
      split_ifs at hi
      · exact cancelScan_phase hi
      · rw [List.getElem?_singleton] at hi
        split_ifs at hi
        cases hi
  | cancel =>
    simp only [step, Option.some.injEq] at h
    subst h
    exact hl.snoc _ fun i path c e hi => cancelScan_phase hi
  | setCacheTTL ttl =>
    simp only [step, State.setCacheTTL] at h
    split_ifs at h
    cases h
    exact hl.snoc _ fun i path c e hi => ⟨c, hi⟩
  | leave j o =>
    obtain ⟨path, c, hj, rfl⟩ := leave_cases h
    have hlt : j < s.scans.length := (List.getElem?_eq_some_iff.1 hj).1
    intro i path' c' e hi
    by_cases hij : j = i
    · subst hij
      rw [List.getElem?_set_self hlt] at hi
      cases hi
      exact ⟨as, o, [], s, c, rfl, hrun, hj, rfl⟩
    · rw [List.getElem?_set_ne hij] at hi
      obtain ⟨as₁, o₁, as₂, s₁, c₁, rfl, hrun₁, hscan, hexit⟩ := hl i path' c' e hi
      exact ⟨as₁, o₁, as₂ ++ [.leave j o], s₁, c₁, by simp, hrun₁, hscan, hexit⟩
  | write j now =>
    obtain ⟨path, c, e, hj, rfl⟩ := write_cases h
    have hlt : j < s.scans.length := (List.getElem?_eq_some_iff.1 hj).1
    refine hl.snoc _ fun i path' c' e' hi => ⟨c', ?_⟩
    by_cases hij : j = i
    · subst hij
      rw [List.getElem?_set_self hlt] at hi
      cases hi
    · rwa [List.getElem?_set_ne hij] at hi

theorem FromScan.snoc {as : List Action} {r : ScanResult} (a : Action) (h : FromScan as r) :
    FromScan (as ++ [a]) r := by
  obtain ⟨as₁, i, o, as₂, now, as₃, s, c, root, rfl, hrun, hscan, hexit, heq⟩ := h
  exact ⟨as₁, i, o, as₂, now, as₃ ++ [a], s, c, root, by simp, hrun, hscan, hexit, heq⟩

/-- Done is only ever written together with all the other fields. -/
theorem fromScan_step {as : List Action} {s s' : State} {a : Action} (hl : LeftEarlier as s)
    (hd : s.runner.result.status = .done → FromScan as s.runner.result)
    (h : step s a = some s') (hdone : s'.runner.result.status = .done) :
    FromScan (as ++ [a]) s'.runner.result := by
  cases a with
  | start path now =>
    simp only [step, Option.some.injEq] at h
    subst h
    rcases start_cases s path now with ⟨-, hsame⟩ | ⟨-, hres, -, -⟩
    · rw [hsame] at hdone ⊢
      exact (hd hdone).snoc _
    · rw [hres] at hdone
      cases hdone
  | cancel =>
    simp only [step, Option.some.injEq] at h
    subst h
    cases hdone
  | setCacheTTL ttl =>
    simp only [step, State.setCacheTTL] at h
    split_ifs at h
    cases h
    exact (hd hdone).snoc _
  | leave j o =>
    obtain ⟨path, c, -, rfl⟩ := leave_cases h
    exact (hd hdone).snoc _
  | write j now =>
    obtain ⟨path, c, e, hj, rfl⟩ := write_cases h
    cases e with
    | failed msg => cases hdone
    | cancelled => cases hdone
    | finished root =>
      obtain ⟨as₁, o, as₂, s₁, c₁, rfl, hrun, hscan, hexit⟩ := hl j path c _ hj
      exact ⟨as₁, j, o, as₂, now, [], s₁, c₁, root, by simp, hrun, hscan, hexit, rfl⟩

/-! ## The books of a run -/

/-- The invariant of a run: `Owned` alone for the state, the rest with the actions so far. -/
structure Books (as : List Action) (s : State) : Prop where
  owned : Owned s
  left : LeftEarlier as s
  done : s.runner.result.status = .done → FromScan as s.runner.result

theorem books_newRunner : Books [] newRunner where
  owned :=
    { latest := fun i hi => by simp [newRunner] at hi
      others := fun i sc hi => by simp [newRunner] at hi
      running := fun hrun => by simp [newRunner] at hrun }
  left := fun i path c e hi => by simp [newRunner] at hi
  done := fun h => by cases h

theorem books_of_run {as : List Action} {s : State} (h : Lts.run step newRunner as = some s) :
    Books as s :=
  Lts.invariant_history books_newRunner (fun _ _ _ _ hrun hb hs =>
    ⟨owned_step hb.owned hs, leftEarlier_step hrun hb.left hs, fromScan_step hb.left hb.done hs⟩) h

theorem totalSize_of_fromScan {as : List Action} {r : ScanResult} (h : FromScan as r)
    {root : DirEntry} (hroot : r.root = some root) : r.totalSize = root.diskSize := by
  obtain ⟨_, _, _, _, _, _, _, _, _, _, _, _, _, heq⟩ := h
  rw [heq] at hroot ⊢
  cases hroot
  rfl

/-- `Start` answers cached only under its first condition. -/
theorem start_cached {s : State} {path : String} {now : Int}
    (h : (s.start path now).1 = .cached) :
    s.runner.result.status = .done ∧ s.runner.result.path = path ∧
      timeSub now s.runner.result.scannedAt ≤ s.runner.cacheTTL := by
  unfold State.start at h
  split_ifs at h with hc
  exact hc

/-- **The runner keeps its books.** After every run, whatever the interleaving. -/
theorem bookkeeping {as : List Action} {s : State} (h : Lts.run step newRunner as = some s) :
    Bookkeeping as s := by
  have hb := books_of_run h
  refine ⟨fun i sc hi hlt => ?_, fun hrun => ?_, hb.done, fun hdone root hroot => ?_,
    fun path now hc => ?_⟩
  · refine hb.owned.others i sc hi fun hcancel => ?_
    have := hb.owned.latest i hcancel
    omega
  · obtain ⟨i, sc, hcancel, hi, hpath, hlive, hphase⟩ := hb.owned.running hrun
    refine ⟨sc, ?_, hpath, hlive, hphase⟩
    have hlast := hb.owned.latest i hcancel
    rw [List.getLast?_eq_getElem?, ← hlast]
    simpa using hi
  · exact totalSize_of_fromScan (hb.done hdone) hroot
  · obtain ⟨hdone, hpath, hfresh⟩ := start_cached hc
    exact ⟨hb.done hdone, hpath, hfresh⟩

/-- A scan of `/a` superseded by one of `/b`, which finishes. -/
theorem bookkeeping_two_scans : ∃ as s, Lts.run step newRunner as = some s ∧
    s.runner.result.status = .done ∧ Bookkeeping as s :=
  ⟨[.start "/a" 0, .start "/b" 1, .leave 0 killed,
      .leave 1 { parsed := .ok (some ⟨"/b", 1, 4096, true, []⟩) }, .write 0 2, .write 1 3],
    _, rfl, rfl, bookkeeping rfl⟩

end QuickVps.Ncdu
