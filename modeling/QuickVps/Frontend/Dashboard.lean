import Mathlib.Data.List.DropRight
import QuickVps.Frontend.Preferences
import QuickVps.Lib.Spaced
import QuickVps.Metrics.Rates

/-!
# What the dashboard shows

`onmessage` of `useWebSocket` puts a snapshot into the store unless the dashboard is frozen or the
last one was put there too short a time ago; the store keeps it, with sixty values of every series
that is drawn. The hook reads the settings from refs, which effects set after a render.

* `pushHistory`, `setSnapshot` — the store;
* `Dashboard`, `onmessage`, `render` — the hook, with what it has shown so far;
* `histories_exact` — each series is the last sixty values shown, after zeros;
* `throttled` — how far apart and how many the snapshots shown are.

What `onmessage` does about the disk scan is not repeated here.
-/

namespace QuickVps.Frontend

open Go Metrics

/-! ## The store -/

/-- What is read of a snapshot. A list that the server has left empty arrives as null, and every
rate that arrives is finite, as JSON has no other numbers. -/
structure Snapshot where
  network : Option (List NetMetrics)
  diskIO : Option (List DiskIOMetrics)
  cpu : Option ℚ
  memory : Option ℚ
  swap : Option ℚ

structure Histories where
  net : List ℚ × List ℚ
  diskIO : List ℚ × List ℚ
  cpu : List ℚ
  mem : List ℚ
  swap : List ℚ

structure Store where
  snapshot : Option Snapshot := none
  histories : Histories
  isFrozen : Bool
  updateIntervalMs : UpdateInterval

def historyLength : Nat := 60

def emptyHistory : List ℚ := List.replicate historyLength 0

def emptyHistories : Histories where
  net := (emptyHistory, emptyHistory)
  diskIO := (emptyHistory, emptyHistory)
  cpu := emptyHistory
  mem := emptyHistory
  swap := emptyHistory

def pushHistory (arr : List ℚ) (val : ℚ) : List ℚ :=
  let next := arr ++ [val]
  if historyLength < next.length then next.tail else next

/-- `reduce` with a sum that starts from 0. -/
def total {M : Type} (rate : M → Float64) (entries : Option (List M)) : ℚ :=
  (entries.getD []).foldl (fun s m => roundFloat64 (s + (rate m).value)) 0

def Histories.push (h : Histories) (snapshot : Snapshot) : Histories where
  net :=
    (pushHistory h.net.1 (total NetMetrics.recvBps snapshot.network),
      pushHistory h.net.2 (total NetMetrics.sentBps snapshot.network))
  diskIO :=
    (pushHistory h.diskIO.1 (total DiskIOMetrics.readBps snapshot.diskIO),
      pushHistory h.diskIO.2 (total DiskIOMetrics.writeBps snapshot.diskIO))
  cpu := pushHistory h.cpu (snapshot.cpu.getD 0)
  mem := pushHistory h.mem (snapshot.memory.getD 0)
  swap := pushHistory h.swap (snapshot.swap.getD 0)

def Store.setSnapshot (s : Store) (snapshot : Snapshot) : Store :=
  { s with snapshot := some snapshot, histories := s.histories.push snapshot }

def Store.setFrozen (s : Store) (frozen : Bool) : Store := { s with isFrozen := frozen }

def Store.setUpdateIntervalMs (s : Store) (ms : ℚ) : Store :=
  { s with updateIntervalMs := .atLeast ms }

/-! ## The hook -/

/-- A snapshot that was shown: when, with which interval, and after how many resets. -/
structure Shown where
  resets : Nat
  interval : UpdateInterval
  time : Int
  snapshot : Snapshot

/-- The store with the refs of the hook. `frozenSeen` is the value that the effect on `isFrozen` has
last run with, `resets` counts its runs that reset `lastUpdateRef`, and `shown` is what was shown so
far. -/
structure Dashboard where
  store : Store
  frozenRef : Bool
  intervalRef : UpdateInterval
  lastUpdateRef : Int := 0
  frozenSeen : Option Bool := none
  resets : Nat := 0
  shown : List Shown := []

/-- The refs of the first render. -/
def mountDashboard (isFrozen : Bool) (interval : UpdateInterval) : Dashboard where
  store := { histories := emptyHistories, isFrozen := isFrozen, updateIntervalMs := interval }
  frozenRef := isFrozen
  intervalRef := interval

namespace Dashboard

/-- `onmessage`, at a time that `Date.now` says. A text that cannot be parsed, and a message
without a snapshot, are `none`. -/
def onmessage (d : Dashboard) (now : Int) (snapshot : Option Snapshot) : Dashboard :=
  match snapshot with
  | none => d
  | some snapshot =>
    if d.frozenRef then d
    else if ((now - d.lastUpdateRef : Int) : ℚ) < d.intervalRef then d
    else
      { d with
        lastUpdateRef := now
        store := d.store.setSnapshot snapshot
        shown := d.shown ++ [⟨d.resets, d.intervalRef, now, snapshot⟩] }

/-- The effect on `isFrozen`, which runs only when this has changed. -/
def frozenEffect (d : Dashboard) : Dashboard :=
  if d.frozenSeen = some d.store.isFrozen then d
  else if d.store.isFrozen then { d with frozenRef := true, frozenSeen := some true }
  else
    { d with
      frozenRef := false
      lastUpdateRef := 0
      frozenSeen := some false
      resets := d.resets + 1 }

/-- The effects after a render. -/
def render (d : Dashboard) : Dashboard :=
  { d.frozenEffect with intervalRef := d.store.updateIntervalMs }

end Dashboard

inductive DashboardEvent where
  | message (now : Int) (snapshot : Option Snapshot)
  | setFrozen (frozen : Bool)
  | setUpdateIntervalMs (ms : ℚ)
  | render

def Dashboard.step (d : Dashboard) : DashboardEvent → Option Dashboard
  | .message now snapshot => some (d.onmessage now snapshot)
  | .setFrozen frozen => some { d with store := d.store.setFrozen frozen }
  | .setUpdateIntervalMs ms => some { d with store := d.store.setUpdateIntervalMs ms }
  | .render => some d.render

/-! ## The histories -/

inductive Series where
  | recv
  | sent
  | read
  | write
  | cpu
  | mem
  | swap

def Histories.get (h : Histories) : Series → List ℚ
  | .recv => h.net.1
  | .sent => h.net.2
  | .read => h.diskIO.1
  | .write => h.diskIO.2
  | .cpu => h.cpu
  | .mem => h.mem
  | .swap => h.swap

/-- The value of a series in a snapshot. -/
def Series.value (series : Series) (snapshot : Snapshot) : ℚ :=
  match series with
  | .recv => total NetMetrics.recvBps snapshot.network
  | .sent => total NetMetrics.sentBps snapshot.network
  | .read => total DiskIOMetrics.readBps snapshot.diskIO
  | .write => total DiskIOMetrics.writeBps snapshot.diskIO
  | .cpu => snapshot.cpu.getD 0
  | .mem => snapshot.memory.getD 0
  | .swap => snapshot.swap.getD 0

@[simp] theorem get_push (h : Histories) (snapshot : Snapshot) (series : Series) :
    (h.push snapshot).get series = pushHistory (h.get series) (series.value snapshot) := by
  cases series <;> rfl

@[simp] theorem get_emptyHistories (series : Series) :
    emptyHistories.get series = emptyHistory := by
  cases series <;> rfl

theorem pushHistory_rtake {values : List ℚ} (h : historyLength ≤ values.length) (val : ℚ) :
    pushHistory (values.rtake historyLength) val = (values ++ [val]).rtake historyLength := by
  have hlen : (values.rtake historyLength).length = historyLength := by
    rw [List.rtake, List.length_drop]
    omega
  have htail : (values.rtake historyLength).tail = values.rtake 59 := by
    rw [List.rtake, List.tail_drop, List.rtake]
    congr 1
    simp only [historyLength] at h ⊢
    omega
  have hne : values.rtake historyLength ≠ [] := by
    intro hnil
    rw [hnil] at hlen
    cases hlen
  show (if historyLength < (values.rtake historyLength ++ [val]).length then _ else _) = _
  rw [if_pos (by simp [hlen]), List.tail_append_of_ne_nil hne, htail]
  exact (List.rtake_concat_succ values 59 val).symm

/-- What the dashboard shows follows from what it was given. -/
structure Drawn (d : Dashboard) : Prop where
  snapshot : d.store.snapshot = d.shown.getLast?.map Shown.snapshot
  history : ∀ series : Series, d.store.histories.get series =
    (emptyHistory ++ d.shown.map fun x => series.value x.snapshot).rtake historyLength

theorem drawn_mount (isFrozen : Bool) (interval : UpdateInterval) :
    Drawn (mountDashboard isFrozen interval) where
  snapshot := rfl
  history series := by simp [mountDashboard, emptyHistory, List.rtake]

theorem drawn_onmessage {d : Dashboard} (hd : Drawn d) (now : Int) (snapshot : Option Snapshot) :
    Drawn (d.onmessage now snapshot) := by
  cases snapshot with
  | none => exact hd
  | some snapshot =>
    unfold Dashboard.onmessage
    split_ifs
    · exact hd
    · exact hd
    · refine ⟨by simp [Store.setSnapshot], fun series => ?_⟩
      have hlen : historyLength ≤
          (emptyHistory ++ d.shown.map fun x => series.value x.snapshot).length := by
        simp [emptyHistory]
      show (d.store.histories.push snapshot).get series = _
      rw [get_push, hd.history series, pushHistory_rtake hlen]
      simp

theorem Drawn.of_same {d d' : Dashboard} (hd : Drawn d)
    (hsnapshot : d'.store.snapshot = d.store.snapshot)
    (hhistories : d'.store.histories = d.store.histories) (hshown : d'.shown = d.shown) :
    Drawn d' where
  snapshot := by rw [hsnapshot, hshown, hd.snapshot]
  history series := by rw [hhistories, hshown, hd.history]

/-- A render changes refs only. -/
theorem render_same (d : Dashboard) :
    d.render.store = d.store ∧ d.render.shown = d.shown := by
  unfold Dashboard.render Dashboard.frozenEffect
  split_ifs <;> exact ⟨rfl, rfl⟩

theorem drawn_step {d d' : Dashboard} {e : DashboardEvent} (hd : Drawn d)
    (hs : d.step e = some d') : Drawn d' := by
  cases e with
  | message now snapshot =>
    cases hs
    exact drawn_onmessage hd now snapshot
  | setFrozen frozen =>
    cases hs
    exact hd.of_same rfl rfl rfl
  | setUpdateIntervalMs ms =>
    cases hs
    exact hd.of_same rfl rfl rfl
  | render =>
    cases hs
    obtain ⟨hstore, hshown⟩ := render_same d
    exact hd.of_same (by rw [hstore]) (by rw [hstore]) hshown

/-- **The histories are the last sixty values.** After every run the dashboard shows the last
snapshot that was let through, and each series is the last sixty of sixty zeros followed by its
values in all snapshots let through. -/
theorem histories_exact {isFrozen : Bool} {interval : UpdateInterval} {es : List DashboardEvent}
    {d : Dashboard} (h : Lts.run Dashboard.step (mountDashboard isFrozen interval) es = some d) :
    d.store.snapshot = d.shown.getLast?.map Shown.snapshot ∧
      ∀ series : Series, d.store.histories.get series =
        (List.replicate 60 (0 : ℚ) ++ d.shown.map fun x => series.value x.snapshot).rtake 60 := by
  have hd := Lts.invariant (fun _ _ _ => drawn_step) (drawn_mount isFrozen interval) h
  exact ⟨hd.snapshot, hd.history⟩

def eth0 (bps : ℚ) : Snapshot where
  network := some [⟨"eth0", .num bps, .num 0, 0, 0⟩]
  diskIO := none
  cpu := some 3
  memory := some 40
  swap := some 0

/-- The second message comes too early, the third one after a freeze, and then there is another. -/
def watch : List DashboardEvent :=
  [.render, .message 1000000 (some (eth0 5)), .message 1000249 (some (eth0 6)), .setFrozen true,
    .render, .setFrozen false, .render, .message 1000300 (some (eth0 7)), .setFrozen true]

def watched : Dashboard :=
  (Lts.run Dashboard.step (mountDashboard false ⟨250, le_rfl⟩) watch).getD
    (mountDashboard false ⟨250, le_rfl⟩)

theorem run_watch :
    Lts.run Dashboard.step (mountDashboard false ⟨250, le_rfl⟩) watch = some watched := rfl

theorem histories_exact_watch :
    watched.store.snapshot = watched.shown.getLast?.map Shown.snapshot ∧
      ∀ series : Series, watched.store.histories.get series =
        (List.replicate 60 (0 : ℚ) ++
          watched.shown.map fun x => series.value x.snapshot).rtake 60 :=
  histories_exact run_watch

/-! ## The throttle -/

/-- What was shown after the same resets is as far apart as the interval said, and `lastUpdateRef`
is the last time of these. -/
structure Paced (d : Dashboard) : Prop where
  apart : d.shown.Pairwise fun x y => x.resets = y.resets →
    (x.time : ℚ) + y.interval.1 ≤ y.time
  last : ∀ x ∈ d.shown, x.resets = d.resets → x.time ≤ d.lastUpdateRef
  bound : ∀ x ∈ d.shown, x.resets ≤ d.resets

theorem paced_onmessage {d : Dashboard} (hd : Paced d) (now : Int) (snapshot : Option Snapshot) :
    Paced (d.onmessage now snapshot) := by
  cases snapshot with
  | none => exact hd
  | some snapshot =>
    unfold Dashboard.onmessage
    split_ifs with hfrozen hearly
    · exact hd
    · exact hd
    · have hlate : (d.lastUpdateRef : ℚ) + d.intervalRef.1 ≤ now := by
        rw [not_lt] at hearly
        push_cast at hearly
        linarith
      have hnow : d.lastUpdateRef ≤ now := by
        have hpos : (250 : ℚ) ≤ d.intervalRef.1 := d.intervalRef.2
        have hcast : (d.lastUpdateRef : ℚ) ≤ now := by linarith
        exact_mod_cast hcast
      refine ⟨?_, fun x hx hresets => ?_, fun x hx => ?_⟩
      · refine List.pairwise_append.2 ⟨hd.apart, List.pairwise_singleton _ _, ?_⟩
        intro x hx y hy hresets
        rw [List.mem_singleton] at hy
        subst hy
        have hle : (x.time : ℚ) ≤ d.lastUpdateRef := by exact_mod_cast hd.last x hx hresets
        show (x.time : ℚ) + d.intervalRef.1 ≤ now
        linarith
      · rcases List.mem_append.1 hx with hx | hx
        · exact (hd.last x hx hresets).trans hnow
        · rw [List.mem_singleton] at hx
          subst hx
          exact le_rfl
      · rcases List.mem_append.1 hx with hx | hx
        · exact hd.bound x hx
        · rw [List.mem_singleton] at hx
          subst hx
          exact le_rfl

theorem paced_render {d : Dashboard} (hd : Paced d) : Paced d.render := by
  unfold Dashboard.render Dashboard.frozenEffect
  split_ifs
  · exact ⟨hd.apart, hd.last, hd.bound⟩
  · exact ⟨hd.apart, hd.last, hd.bound⟩
  · refine ⟨hd.apart, fun x hx hresets => ?_, fun x hx => Nat.le_succ_of_le (hd.bound x hx)⟩
    -- Nothing was shown yet after this reset.
    have hle := hd.bound x hx
    have hnew : x.resets = d.resets + 1 := hresets
    omega

theorem paced_step {d d' : Dashboard} {e : DashboardEvent} (hd : Paced d)
    (hs : d.step e = some d') : Paced d' := by
  cases e with
  | message now snapshot =>
    cases hs
    exact paced_onmessage hd now snapshot
  | setFrozen frozen =>
    cases hs
    exact ⟨hd.apart, hd.last, hd.bound⟩
  | setUpdateIntervalMs ms =>
    cases hs
    exact ⟨hd.apart, hd.last, hd.bound⟩
  | render =>
    cases hs
    exact paced_render hd

/-- A reset is due: the effect has still to see that the dashboard is not frozen. -/
def Dashboard.due (d : Dashboard) : Nat :=
  if d.frozenSeen ≠ some false ∧ d.store.isFrozen = false then 1 else 0

def DashboardEvent.thaws : DashboardEvent → Bool
  | .setFrozen false => true
  | _ => false

theorem due_step {d d' : Dashboard} {e : DashboardEvent} (hs : d.step e = some d') :
    d'.resets + d'.due ≤ d.resets + d.due + if e.thaws then 1 else 0 := by
  cases e with
  | message now snapshot =>
    have hsame : (d.onmessage now snapshot).resets = d.resets ∧
        (d.onmessage now snapshot).due = d.due := by
      cases snapshot with
      | none => exact ⟨rfl, rfl⟩
      | some snapshot =>
        unfold Dashboard.onmessage
        split_ifs <;> exact ⟨rfl, rfl⟩
    cases hs
    rw [hsame.1, hsame.2]
    exact Nat.le_add_right _ _
  | setFrozen frozen =>
    cases hs
    cases frozen with
    | true =>
      have hdue : ({ d with store := d.store.setFrozen true } : Dashboard).due = 0 := by
        simp [Dashboard.due, Store.setFrozen]
      rw [hdue]
      simp only [DashboardEvent.thaws]
      omega
    | false =>
      have hdue : ({ d with store := d.store.setFrozen false } : Dashboard).due ≤ 1 := by
        unfold Dashboard.due
        split_ifs <;> simp
      simp only [DashboardEvent.thaws, if_true]
      omega
  | setUpdateIntervalMs ms =>
    cases hs
    exact Nat.le_refl _
  | render =>
    cases hs
    unfold Dashboard.render Dashboard.frozenEffect Dashboard.due
    split_ifs <;> simp_all [DashboardEvent.thaws]

/-- Each end of a freeze brings at most one reset, and the first render another one. -/
theorem resets_le {isFrozen : Bool} {interval : UpdateInterval} {es : List DashboardEvent}
    {d : Dashboard} (h : Lts.run Dashboard.step (mountDashboard isFrozen interval) es = some d) :
    d.resets + d.due ≤ es.countP DashboardEvent.thaws + 1 := by
  refine Lts.invariant_history
    (I := fun es d => d.resets + d.due ≤ es.countP DashboardEvent.thaws + 1) ?_ ?_ h
  · cases isFrozen <;> simp [mountDashboard, Dashboard.due]
  · intro es d e d' _ hle hs
    have hstep := due_step hs
    rw [List.countP_append, List.countP_singleton]
    omega

/-- The ref is what the effect on `isFrozen` has last seen. -/
def Dashboard.RefSeen (d : Dashboard) : Prop :=
  ∀ seen, d.frozenSeen = some seen → d.frozenRef = seen

theorem refSeen_render (d : Dashboard) (hd : d.RefSeen) : d.render.RefSeen := by
  intro seen hseen
  unfold Dashboard.render Dashboard.frozenEffect at hseen ⊢
  split_ifs at hseen ⊢
  · exact hd seen hseen
  · exact Option.some.inj hseen
  · exact Option.some.inj hseen

theorem refSeen_step {d d' : Dashboard} {e : DashboardEvent} (hd : d.RefSeen)
    (hs : d.step e = some d') : d'.RefSeen := by
  cases e with
  | message now snapshot =>
    cases hs
    cases snapshot with
    | none => exact hd
    | some snapshot =>
      unfold Dashboard.onmessage
      split_ifs <;> exact hd
  | setFrozen frozen =>
    cases hs
    exact hd
  | setUpdateIntervalMs ms =>
    cases hs
    exact hd
  | render =>
    cases hs
    exact refSeen_render d hd

/-- **The effect sets the ref.** After a render that finds the dashboard frozen the ref says so. -/
theorem frozenRef_render {d : Dashboard} (hd : d.RefSeen) (hfrozen : d.store.isFrozen = true) :
    d.render.frozenRef = true := by
  unfold Dashboard.render Dashboard.frozenEffect
  rw [hfrozen]
  by_cases hseen : d.frozenSeen = some true
  · rw [if_pos hseen]
    exact hd true hseen
  · rw [if_neg hseen]
    rfl

/-- While the ref says so nothing is shown. -/
theorem frozen_step {d d' : Dashboard} {e : DashboardEvent} (hfrozen : d.frozenRef = true)
    (he : e ≠ .render) (hs : d.step e = some d') :
    d'.frozenRef = true ∧ d'.shown = d.shown ∧ d'.store.snapshot = d.store.snapshot ∧
      d'.store.histories = d.store.histories := by
  cases e with
  | message now snapshot =>
    have hsame : d.onmessage now snapshot = d := by
      cases snapshot with
      | none => rfl
      | some snapshot => exact if_pos hfrozen
    cases hs
    rw [hsame]
    exact ⟨hfrozen, rfl, rfl, rfl⟩
  | setFrozen frozen =>
    cases hs
    exact ⟨hfrozen, rfl, rfl, rfl⟩
  | setUpdateIntervalMs ms =>
    cases hs
    exact ⟨hfrozen, rfl, rfl, rfl⟩
  | render => exact absurd rfl he

theorem frozen_run {d d' : Dashboard} {es : List DashboardEvent} (hfrozen : d.frozenRef = true)
    (hes : ∀ e ∈ es, e ≠ .render) (h : Lts.run Dashboard.step d es = some d') :
    d'.shown = d.shown ∧ d'.store.snapshot = d.store.snapshot ∧
      d'.store.histories = d.store.histories := by
  refine (Lts.invariant_along (I := fun u : Dashboard => u.frozenRef = true ∧ u.shown = d.shown ∧
    u.store.snapshot = d.store.snapshot ∧ u.store.histories = d.store.histories) ?_
    ⟨hfrozen, rfl, rfl, rfl⟩ (Lts.along_of_forall hes d) h).2
  intro u e u' hu he hs
  obtain ⟨hfrozen, hshown, hsnapshot, hhistories⟩ := hu
  obtain ⟨hfrozen', hshown', hsnapshot', hhistories'⟩ := frozen_step hfrozen he hs
  exact ⟨hfrozen', hshown'.trans hshown, hsnapshot'.trans hsnapshot, hhistories'.trans hhistories⟩

/-- **The updates are throttled.** Of two snapshots shown without a reset between them the second
one comes at least the interval after the first, whatever the clock does, so at most one is shown in
250 milliseconds of a window; there are no more resets than ends of a freeze, and one more. From a
render that finds the dashboard frozen to the next one nothing that is shown changes. -/
theorem throttled {isFrozen : Bool} {interval : UpdateInterval} {es : List DashboardEvent}
    {d : Dashboard} (h : Lts.run Dashboard.step (mountDashboard isFrozen interval) es = some d) :
    (d.shown.Pairwise fun x y => x.resets = y.resets → (x.time : ℚ) + y.interval.1 ≤ y.time) ∧
      (∀ k (a b : Int), a ≤ b →
        ((d.shown.filter fun x => x.resets = k ∧ a ≤ x.time ∧ x.time ≤ b).length : Int) ≤
          (b - a) / 250 + 1) ∧
      (∀ x ∈ d.shown, x.resets ≤ d.resets) ∧ d.resets ≤ es.countP DashboardEvent.thaws + 1 ∧
      (d.store.isFrozen = true → ∀ es' d', (∀ e ∈ es', e ≠ .render) →
        Lts.run Dashboard.step d.render es' = some d' → d'.shown = d.shown ∧
          d'.store.snapshot = d.store.snapshot ∧ d'.store.histories = d.store.histories) := by
  have hd : Paced d := Lts.invariant (fun _ _ _ => paced_step)
    ⟨List.Pairwise.nil, by simp [mountDashboard], by simp [mountDashboard]⟩ h
  have hseen : d.RefSeen := Lts.invariant (fun _ _ _ => refSeen_step)
    (fun _ hseen => by cases hseen) h
  refine ⟨hd.apart, fun k a b hab => ?_, hd.bound, ?_, fun hfrozen es' d' hes hrun => ?_⟩
  · have hspaced : Spaced 250 ((d.shown.filter fun x =>
        x.resets = k ∧ a ≤ x.time ∧ x.time ≤ b).map Shown.time) := by
      refine List.pairwise_map.2 (List.Pairwise.imp_of_mem ?_ (hd.apart.filter _))
      intro x y hx hy hxy
      have hx := (List.mem_filter.1 hx).2
      have hy := (List.mem_filter.1 hy).2
      simp only [decide_eq_true_eq] at hx hy
      have hfar := hxy (hx.1.trans hy.1.symm)
      have hpos : (250 : ℚ) ≤ y.interval.1 := y.interval.2
      have hle : x.time + 250 ≤ y.time := by
        have hcast : (x.time : ℚ) + 250 ≤ y.time := by linarith
        exact_mod_cast hcast
      rw [abs_sub_comm]
      exact le_abs.2 (Or.inl (by omega))
    have hcount := hspaced.length_le (by decide) hab (fun t ht => by
      obtain ⟨x, hx, rfl⟩ := List.mem_map.1 ht
      have hx := (List.mem_filter.1 hx).2
      simp only [decide_eq_true_eq] at hx
      exact hx.2)
    rwa [List.length_map] at hcount
  · have hresets := resets_le h
    omega
  · obtain ⟨hstore, hshown⟩ := render_same d
    have hsame := frozen_run (frozenRef_render hseen hfrozen) hes hrun
    rwa [hstore, hshown] at hsame

theorem throttled_watch :
    (watched.shown.Pairwise fun x y =>
        x.resets = y.resets → (x.time : ℚ) + y.interval.1 ≤ y.time) ∧
      (∀ k (a b : Int), a ≤ b →
        ((watched.shown.filter fun x => x.resets = k ∧ a ≤ x.time ∧ x.time ≤ b).length : Int) ≤
          (b - a) / 250 + 1) ∧
      (∀ x ∈ watched.shown, x.resets ≤ watched.resets) ∧
      watched.resets ≤ watch.countP DashboardEvent.thaws + 1 ∧
      (watched.store.isFrozen = true → ∀ es' d', (∀ e ∈ es', e ≠ .render) →
        Lts.run Dashboard.step watched.render es' = some d' → d'.shown = watched.shown ∧
          d'.store.snapshot = watched.store.snapshot ∧
            d'.store.histories = watched.store.histories) :=
  throttled run_watch

end QuickVps.Frontend
