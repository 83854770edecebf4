import QuickVps.Metrics.Collector

/-!
# What the subscribers of the collector get

`Run` offers each snapshot to the subscribers one after another, and a subscriber whose four slots
are full does not get it.

* `LoopMove`, `loopMove_of_step` — what a step does to the loop and to the subscribers' channels.
* `Numbered` — every channel has been given an in-order part of the snapshots offered to it so far,
  and every step keeps this (`numbered_step`).
-/

namespace QuickVps.Metrics

/-! ## What a step does -/

/-- What the step `a` from `c` to `c'` does to the loop, to the number of snapshots and to the
subscribers. -/
inductive LoopMove (c c' : Collector) (a : Action) : Prop
  | quiet (hloop : c'.loop = c.loop) (hcollected : c'.collected = c.collected)
      (hsubs : c'.subs = c.subs)
  | begin (hloop : c.loop = .starting) (hloop' : c'.loop = .waiting)
      (hcollected : c'.collected = c.collected) (hsubs : c'.subs = c.subs)
  | tick (hloop : c.loop = .waiting) (hloop' : c'.loop = .collected c.collected)
      (hcollected : c'.collected = c.collected + 1) (hsubs : c'.subs = c.subs)
  | lock (snap : Nat) (hloop : c.loop = .collected snap) (hloop' : c'.loop = .offering snap 0)
      (hcollected : c'.collected = c.collected) (hsubs : c'.subs = c.subs)
  | offer (snap next : Nat) (ha : a = .offer) (hloop : c.loop = .offering snap next)
      (hlt : next < c.subs.length) (hloop' : c'.loop = .offering snap (next + 1))
      (hcollected : c'.collected = c.collected)
      (hsubs : c'.subs = c.subs.modify next fun q => q.offer snap)
  | offered (snap next : Nat) (hloop : c.loop = .offering snap next)
      (hle : c.subs.length ≤ next) (hloop' : c'.loop = .waiting)
      (hcollected : c'.collected = c.collected) (hsubs : c'.subs = c.subs)
  | stop (hloop : c.loop = .waiting) (hloop' : c'.loop = .stopped)
      (hcollected : c'.collected = c.collected) (hsubs : c'.subs = c.subs)
  | subscribe (hfree : ∀ snap next, c.loop ≠ .offering snap next) (hloop : c'.loop = c.loop)
      (hcollected : c'.collected = c.collected) (hsubs : c'.subs = c.subs ++ [Chan.empty])
  | take (k snap : Nat) (q q' : Sub) (ha : a = .take k) (hk : c.subs[k]? = some q)
      (hq : q.take? = some (snap, q')) (hloop : c'.loop = c.loop)
      (hcollected : c'.collected = c.collected) (hsubs : c'.subs = c.subs.set k q')

theorem subscribe_cases {c c' : Collector} (h : c.subscribe = some c') :
    (∀ snap next, c.loop ≠ .offering snap next) ∧
      c' = { c with subs := c.subs ++ [Chan.empty] } := by
  unfold Collector.subscribe at h
  split at h
  · cases h
  · next hfree =>
    cases h
    exact ⟨hfree, rfl⟩

theorem take_cases {c c' : Collector} {k snap : Nat} (h : c.take k = some (snap, c')) :
    ∃ q q', c.subs[k]? = some q ∧ q.take? = some (snap, q') ∧
      c' = { c with subs := c.subs.set k q' } := by
  unfold Collector.take at h
  split at h
  · next q hk =>
    obtain ⟨⟨x, q'⟩, hq, heq⟩ := Option.map_eq_some_iff.1 h
    cases heq
    exact ⟨q, q', hk, hq, rfl⟩
  · cases h

theorem loopMove_of_step {c c' : Collector} {a : Action} (h : step c a = some c') :
    LoopMove c c' a := by
  cases a with
  | setInterval v =>
    simp only [step, Option.some.injEq, Collector.setInterval] at h
    subst h
    split_ifs <;> exact .quiet rfl rfl rfl
  | send i =>
    simp only [step, Collector.send] at h
    split at h
    · split at h <;> cases h <;> exact .quiet rfl rfl rfl
    · cases h
  | drain i =>
    simp only [step, Collector.drain] at h
    split at h <;> cases h
    exact .quiet rfl rfl rfl
  | resend i =>
    simp only [step, Collector.resend] at h
    split at h
    · split at h <;> cases h <;> exact .quiet rfl rfl rfl
    · cases h
  | begin =>
    simp only [step, Collector.begin] at h
    split at h
    · next hl => cases h; exact .begin hl rfl rfl rfl
    · cases h
  | receive =>
    simp only [step, Collector.receive] at h
    split at h <;> cases h
    exact .quiet rfl rfl rfl
  | tick =>
    simp only [step, Collector.tick] at h
    split at h
    · next hl => cases h; exact .tick hl rfl rfl rfl
    · cases h
  | lock =>
    simp only [step, Collector.lock] at h
    split at h
    · next snap hl => cases h; exact .lock snap hl rfl rfl rfl
    · cases h
  | offer =>
    simp only [step, Collector.offer] at h
    split at h
    · next snap next hl =>
      split_ifs at h with hlt <;> cases h
      · exact .offer snap next rfl hl hlt rfl rfl rfl
      · exact .offered snap next hl (by omega) rfl rfl rfl
    · cases h
  | stop =>
    simp only [step, Collector.stop] at h
    split at h
    · next hl => cases h; exact .stop hl rfl rfl rfl
    · cases h
  | subscribe =>
    obtain ⟨hfree, rfl⟩ := subscribe_cases h
    exact .subscribe hfree rfl rfl rfl
  | take k =>
    simp only [step, Option.map_eq_some_iff] at h
    obtain ⟨⟨snap, c₁⟩, htake, rfl⟩ := h
    obtain ⟨q, q', hk, hq, rfl⟩ := take_cases htake
    exact .take k snap q q' rfl hk hq rfl rfl rfl

/-- Only a tick collects a snapshot. -/
theorem collected_of_step {c c' : Collector} {a : Action} (h : step c a = some c') :
    c'.collected = c.collected ∨
      c'.collected = c.collected + 1 ∧ c'.loop = .collected c.collected := by
  cases loopMove_of_step h with
  | tick hloop hloop' hcollected hsubs => exact Or.inr ⟨hcollected, hloop'⟩
  | quiet hloop hcollected hsubs => exact Or.inl hcollected
  | begin hloop hloop' hcollected hsubs => exact Or.inl hcollected
  | lock snap hloop hloop' hcollected hsubs => exact Or.inl hcollected
  | offer snap next ha hloop hlt hloop' hcollected hsubs => exact Or.inl hcollected
  | offered snap next hloop hle hloop' hcollected hsubs => exact Or.inl hcollected
  | stop hloop hloop' hcollected hsubs => exact Or.inl hcollected
  | subscribe hfree hloop hcollected hsubs => exact Or.inl hcollected
  | take k snap q q' ha hk hq hloop hcollected hsubs => exact Or.inl hcollected

/-- Only whoever takes from a channel empties it: any other step may put something in at most. -/
theorem sub_of_step {c c' : Collector} {a : Action} {k : Nat} {q : Sub} (h : step c a = some c')
    (hk : c.subs[k]? = some q) (ha : a ≠ .take k) :
    ∃ q', c'.subs[k]? = some q' ∧ q'.received = q.received ∧ q.buffer <+: q'.buffer := by
  have hsame : c'.subs = c.subs →
      ∃ q', c'.subs[k]? = some q' ∧ q'.received = q.received ∧ q.buffer <+: q'.buffer :=
    fun hsubs => ⟨q, by rw [hsubs, hk], rfl, List.prefix_refl _⟩
  cases loopMove_of_step h with
  | quiet hloop hcollected hsubs => exact hsame hsubs
  | begin hloop hloop' hcollected hsubs => exact hsame hsubs
  | tick hloop hloop' hcollected hsubs => exact hsame hsubs
  | lock snap hloop hloop' hcollected hsubs => exact hsame hsubs
  | offered snap next hloop hle hloop' hcollected hsubs => exact hsame hsubs
  | stop hloop hloop' hcollected hsubs => exact hsame hsubs
  | offer snap next ha hloop hlt hloop' hcollected hsubs =>
    by_cases hnext : next = k
    · exact ⟨q.offer snap, by simp [hsubs, hk, hnext],
        q.received_offer snap, q.buffer_prefix_offer snap⟩
    · exact ⟨q, by simp [hsubs, hk, hnext], rfl,
        List.prefix_refl _⟩
  | subscribe hfree hloop hcollected hsubs =>
    exact ⟨q, by rw [hsubs, List.getElem?_append_left (List.getElem?_eq_some_iff.1 hk).1, hk], rfl,
      List.prefix_refl _⟩
  | take j snap q₀ q' ha' hj hq hloop hcollected hsubs =>
    have hjk : j ≠ k := fun hjk => ha (hjk ▸ ha')
    exact ⟨q, by rw [hsubs, List.getElem?_set_ne hjk, hk], rfl, List.prefix_refl _⟩

/-! ## What has been offered -/

/-- How many snapshots have been offered to subscriber `k`, or were collected before it came. -/
def Collector.offeredTo (c : Collector) (k : Nat) : Nat :=
  match c.loop with
  | .collected snap => snap
  | .offering snap next => if next ≤ k then snap else snap + 1
  | _ => c.collected

/-- The snapshot that `Run` works on is the last one collected, and every channel was given an
in-order part of those offered to it. -/
structure Numbered (c : Collector) : Prop where
  collected : ∀ snap, c.loop = .collected snap → snap + 1 = c.collected
  offering : ∀ snap next, c.loop = .offering snap next → snap + 1 = c.collected
  sent : ∀ (k : Nat) (q : Sub), c.subs[k]? = some q → q.sent.Sublist (List.range (c.offeredTo k))

theorem numbered_newCollector (interval : Int) : Numbered (newCollector interval) where
  collected := by simp [newCollector]
  offering := by simp [newCollector]
  sent := by simp [newCollector]

theorem Numbered.offeredTo_le {c : Collector} (hc : Numbered c) (k : Nat) :
    c.offeredTo k ≤ c.collected := by
  unfold Collector.offeredTo
  split
  · next snap hl =>
    have := hc.collected snap hl
    omega
  · next snap next hl =>
    have := hc.offering snap next hl
    split_ifs <;> omega
  · exact Nat.le_refl _

/-- Where `Run` stays where it is, only the channels matter. -/
theorem Numbered.of_same {c c' : Collector} (hc : Numbered c) (hloop : c'.loop = c.loop)
    (hcollected : c'.collected = c.collected)
    (hsent : ∀ (k : Nat) (q : Sub), c'.subs[k]? = some q →
      q.sent.Sublist (List.range (c.offeredTo k))) : Numbered c' := by
  refine ⟨fun snap hl => ?_, fun snap next hl => ?_, fun k q hq => ?_⟩
  · rw [hcollected]
    exact hc.collected snap (hloop ▸ hl)
  · rw [hcollected]
    exact hc.offering snap next (hloop ▸ hl)
  · have hoffered : c'.offeredTo k = c.offeredTo k := by
      simp only [Collector.offeredTo, hloop, hcollected]
    rw [hoffered]
    exact hsent k q hq

theorem numbered_step {c c' : Collector} {a : Action} (hc : Numbered c) (h : step c a = some c') :
    Numbered c' := by
  cases loopMove_of_step h with
  | quiet hloop hcollected hsubs =>
    refine hc.of_same hloop hcollected fun k q hq => ?_
    rw [hsubs] at hq
    exact hc.sent k q hq
  | begin hloop hloop' hcollected hsubs =>
    refine ⟨by simp [hloop'], by simp [hloop'], fun k q hq => ?_⟩
    rw [hsubs] at hq
    simpa only [Collector.offeredTo, hloop, hloop', hcollected] using hc.sent k q hq
  | tick hloop hloop' hcollected hsubs =>
    refine ⟨fun snap hl => ?_, by simp [hloop'], fun k q hq => ?_⟩
    · rw [hloop'] at hl
      cases hl
      exact hcollected.symm
    · rw [hsubs] at hq
      simpa only [Collector.offeredTo, hloop, hloop'] using hc.sent k q hq
  | lock snap hloop hloop' hcollected hsubs =>
    refine ⟨by simp [hloop'], fun snap' next hl => ?_, fun k q hq => ?_⟩
    · rw [hloop'] at hl
      cases hl
      rw [hcollected]
      exact hc.collected snap hloop
    · rw [hsubs] at hq
      simpa only [Collector.offeredTo, hloop, hloop', Nat.zero_le, if_true] using hc.sent k q hq
  | offer snap next ha hloop hlt hloop' hcollected hsubs =>
    refine ⟨by simp [hloop'], fun snap' next' hl => ?_, fun k q hq => ?_⟩
    · rw [hloop'] at hl
      cases hl
      rw [hcollected]
      exact hc.offering snap next hloop
    · rw [hsubs, List.getElem?_modify] at hq
      obtain ⟨q₀, hq₀, rfl⟩ := Option.map_eq_some_iff.1 hq
      have hsent := hc.sent k q₀ hq₀
      simp only [Collector.offeredTo, hloop, hloop'] at hsent ⊢
      by_cases hk : next = k
      · -- The subscriber whose turn it is may get the snapshot.
        subst hk
        simp only [Nat.le_refl, if_true] at hsent ⊢
        rw [if_neg (by omega : ¬ next + 1 ≤ next), List.range_succ]
        exact Chan.sent_offer_sublist hsent snap
      · have hiff : next + 1 ≤ k ↔ next ≤ k := by omega
        simpa only [hk, if_false, hiff, id] using hsent
  | offered snap next hloop hle hloop' hcollected hsubs =>
    refine ⟨by simp [hloop'], by simp [hloop'], fun k q hq => ?_⟩
    rw [hsubs] at hq
    have hk : k < c.subs.length := (List.getElem?_eq_some_iff.1 hq).1
    have hsent := hc.sent k q hq
    simp only [Collector.offeredTo, hloop, hloop', hcollected] at hsent ⊢
    rwa [if_neg (by omega), hc.offering snap next hloop] at hsent
  | stop hloop hloop' hcollected hsubs =>
    refine ⟨by simp [hloop'], by simp [hloop'], fun k q hq => ?_⟩
    rw [hsubs] at hq
    simpa only [Collector.offeredTo, hloop, hloop', hcollected] using hc.sent k q hq
  | subscribe hfree hloop hcollected hsubs =>
    refine hc.of_same hloop hcollected fun k q hq => ?_
    rw [hsubs, List.getElem?_append] at hq
    split_ifs at hq
    · exact hc.sent k q hq
    · have hempty : q = Chan.empty := by
        rw [List.getElem?_singleton] at hq
        split_ifs at hq
        exact (Option.some.inj hq).symm
      simp [hempty]
  | take j snap q₀ q' ha hj hq hloop hcollected hsubs =>
    refine hc.of_same hloop hcollected fun k q hk => ?_
    obtain ⟨-, hsent, -⟩ := Chan.take?_cases hq
    by_cases hjk : j = k
    · subst hjk
      rw [hsubs, List.getElem?_set_self (List.getElem?_eq_some_iff.1 hj).1] at hk
      cases hk
      rw [hsent]
      exact hc.sent j q₀ hj
    · rw [hsubs, List.getElem?_set_ne hjk] at hk
      exact hc.sent k q hk

end QuickVps.Metrics
