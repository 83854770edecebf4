import QuickVps.Lib.Lts

/-!
# The hook that keeps a WebSocket open

`useWebSocket` connects when it is mounted and again some time after its socket was closed. The
cleanup of the effect closes the socket and clears the timer, but `onclose` stays attached, and the
close event of the socket comes only later.

* `Hook` — the refs of one component, with the sockets and timers that its handlers have made;
* `appStep` — the components of a page, each with its own refs;
* `Good` — what is asked of it: one socket while it is mounted, none made and no timer left after;
* `timer_left` — a run that leaves a timer, which connects again;
* `InTime` — a close event comes while the effect that made the socket is not cleaned up;
* `visits_good_iff` — exactly then nothing is left.

In strict mode React mounts a component twice, with the same refs, so the sockets and timers carry
the number of the mount that they are from.
-/

namespace QuickVps.Frontend

inductive ReadyState where
  | connecting
  | opened
  | closing
  | closed
  deriving DecidableEq, Repr

/-- `WebSocket.close`. -/
def ReadyState.close : ReadyState → ReadyState
  | .closed => .closed
  | _ => .closing

/-- A socket of the hook, with the mount whose effect or timer has made it. It is late if that mount
had been cleaned up by then. -/
structure Socket where
  mount : Nat
  state : ReadyState
  late : Bool
  deriving DecidableEq, Repr

structure Timer where
  mount : Nat
  pending : Bool
  deriving DecidableEq, Repr

/-- A component that uses the hook: how often it was mounted, whether it is, its refs, and all
sockets and timers so far. -/
structure Hook where
  mounts : Nat := 0
  mounted : Bool := false
  wsRef : Option Nat := none
  timerRef : Option Nat := none
  sockets : List Socket := []
  timers : List Timer := []
  deriving DecidableEq, Repr

namespace Hook

/-- The effect of this mount was not cleaned up. -/
def current (h : Hook) (mount : Nat) : Bool := h.mounted && mount + 1 == h.mounts

/-- `connect`, called by the effect or by a timer of a mount. -/
def connect (h : Hook) (mount : Nat) : Hook :=
  { h with
    wsRef := some h.sockets.length
    sockets := h.sockets ++ [⟨mount, .connecting, !h.current mount⟩] }

def close (h : Hook) (i : Nat) : Hook :=
  { h with sockets := h.sockets.modify i fun s => { s with state := s.state.close } }

def clearTimeout (h : Hook) (t : Nat) : Hook :=
  { h with timers := h.timers.modify t fun tm => { tm with pending := false } }

/-- The effect. -/
def mount (h : Hook) : Option Hook :=
  if h.mounted then none
  else some (connect { h with mounts := h.mounts + 1, mounted := true } h.mounts)

/-- The cleanup of the effect. -/
def unmount (h : Hook) : Option Hook :=
  if h.mounted then
    let closed := h.wsRef.elim h h.close
    let cleared := closed.timerRef.elim closed closed.clearTimeout
    some { cleared with mounted := false }
  else none

/-- A socket is open: `onopen`. -/
def onopen (h : Hook) (i : Nat) : Option Hook :=
  match h.sockets[i]? with
  | some ⟨mount, .connecting, late⟩ =>
    let opened := { h with sockets := h.sockets.set i ⟨mount, .opened, late⟩ }
    some { opened.timerRef.elim opened opened.clearTimeout with timerRef := none }
  | _ => none

/-- The error event of a socket that is not closed yet: `onerror`. -/
def onerror (h : Hook) (i : Nat) : Option Hook :=
  match h.sockets[i]? with
  | some s => if s.state = .closed then none else some (h.close i)
  | none => none

/-- The close event of a socket: `onclose`. -/
def onclose (h : Hook) (i : Nat) : Option Hook :=
  match h.sockets[i]? with
  | some s =>
    if s.state = .closed then none
    else some { h with
      sockets := h.sockets.set i { s with state := .closed }
      timerRef := some h.timers.length
      timers := h.timers ++ [⟨s.mount, true⟩] }
  | none => none

/-- A timer fires, and is no longer pending. -/
def fire (h : Hook) (t : Nat) : Option Hook :=
  match h.timers[t]? with
  | some ⟨mount, true⟩ => some ((h.clearTimeout t).connect mount)
  | _ => none

end Hook

inductive HookEvent where
  | mount
  | unmount
  | onopen (i : Nat)
  | onerror (i : Nat)
  | onclose (i : Nat)
  | fire (t : Nat)

def Hook.step (h : Hook) : HookEvent → Option Hook
  | .mount => h.mount
  | .unmount => h.unmount
  | .onopen i => h.onopen i
  | .onerror i => h.onerror i
  | .onclose i => h.onclose i
  | .fire t => h.fire t

inductive AppEvent where
  | component
  | hook (k : Nat) (e : HookEvent)

/-- A component with fresh refs is made, or an event comes to one. -/
def appStep (app : List Hook) : AppEvent → Option (List Hook)
  | .component => some (app ++ [{}])
  | .hook k e => app[k]?.bind fun h => (h.step e).map fun h' => app.set k h'

/-! ## What is asked of the hook -/

def Socket.Live (s : Socket) : Prop := s.state = .connecting ∨ s.state = .opened

/-- While the component is mounted at most one of its sockets is open or connecting. No socket is
made after the cleanup, and no timer is left by then once the close events have come. -/
structure Good (h : Hook) : Prop where
  one : h.mounted = true → ∀ (i j : Nat) (s s' : Socket), h.sockets[i]? = some s →
    h.sockets[j]? = some s' → s.Live → s'.Live → i = j
  late : ∀ (i : Nat) (s : Socket), h.sockets[i]? = some s → s.late = false
  timers : ∀ (t : Nat) (tm : Timer), h.timers[t]? = some tm → tm.pending = true →
    h.current tm.mount = false →
      ∃ (i : Nat) (s : Socket), h.sockets[i]? = some s ∧ s.mount = tm.mount ∧ s.state ≠ .closed

/-! ## A timer that is left -/

/-- Logging out with an open socket, whose close event comes after the cleanup. -/
def logout : List AppEvent :=
  [.component, .hook 0 .mount, .hook 0 (.onopen 0), .hook 0 .unmount, .hook 0 (.onclose 0)]

def loggedOut : Hook where
  mounts := 1
  wsRef := some 0
  timerRef := some 0
  sockets := [⟨0, .closed, false⟩]
  timers := [⟨0, true⟩]

/-- **A timer is left**, and when it fires there is a socket again. -/
theorem timer_left :
    Lts.run appStep [] logout = some [loggedOut] ∧ ¬ Good loggedOut ∧
      (loggedOut.step (.fire 0)).map (fun h => (h.mounted, h.sockets)) =
        some (false, [⟨0, .closed, false⟩, ⟨0, .connecting, true⟩]) := by
  refine ⟨by decide, fun hgood => ?_, by decide⟩
  obtain ⟨i, s, hi, -, hs⟩ := hgood.timers 0 ⟨0, true⟩ rfl rfl rfl
  rcases i with - | i
  · cases hi
    exact hs rfl
  · cases hi

/-! ## The exact condition -/

/-- A close event comes only to a socket of the mount that was not cleaned up. -/
def InTime (h : Hook) : HookEvent → Prop
  | .onclose i => ∀ s, h.sockets[i]? = some s → h.current s.mount = true
  | _ => True

/-- As long as every close event is in time: the sockets of earlier mounts are being closed, each
mount has one socket that is not closed, which is that of the ref and with which no timer is
pending, and a timer that is pending is that of the ref. -/
structure Kept (h : Hook) : Prop where
  bound : ∀ (i : Nat) (s : Socket), h.sockets[i]? = some s → s.mount < h.mounts
  late : ∀ (i : Nat) (s : Socket), h.sockets[i]? = some s → s.late = false
  earlier : ∀ (i : Nat) (s : Socket), h.sockets[i]? = some s → h.current s.mount = false →
    s.state = .closing ∨ s.state = .closed
  single : ∀ (i j : Nat) (s s' : Socket), h.sockets[i]? = some s → h.sockets[j]? = some s' →
    s.state ≠ .closed → s'.state ≠ .closed → s.mount = s'.mount → i = j
  ref : ∀ (i : Nat) (s : Socket), h.sockets[i]? = some s → s.state ≠ .closed →
    h.current s.mount = true →
      h.wsRef = some i ∧ ∀ (t : Nat) (tm : Timer), h.timers[t]? = some tm → tm.pending = false
  waiting : ∀ (t : Nat) (tm : Timer), h.timers[t]? = some tm → tm.pending = true →
    h.current tm.mount = true ∧ h.timerRef = some t

theorem kept_empty : Kept {} := by
  constructor <;> simp

theorem Kept.good {h : Hook} (hk : Kept h) : Good h := by
  have hlive {i : Nat} {s : Socket} (hi : h.sockets[i]? = some s) (hs : s.Live) :
      h.current s.mount = true ∧ s.state ≠ .closed := by
    constructor
    · by_contra hold
      rcases hk.earlier i s hi (by simpa using hold) with hstate | hstate <;>
        simp [Socket.Live, hstate] at hs
    · rintro hstate
      simp [Socket.Live, hstate] at hs
  constructor
  · intro _ i j s s' hi hj hs hs'
    have hmount := (hlive hi hs).1
    have hmount' := (hlive hj hs').1
    simp only [Hook.current, Bool.and_eq_true, beq_iff_eq] at hmount hmount'
    exact hk.single i j s s' hi hj (hlive hi hs).2 (hlive hj hs').2 (by omega)
  · exact hk.late
  · intro t tm ht hpending hold
    rw [(hk.waiting t tm ht hpending).1] at hold
    cases hold

/-! ### One event -/

theorem getElem?_concat_iff {α : Type*} {xs : List α} {x y : α} {i : Nat} :
    (xs ++ [x])[i]? = some y ↔ xs[i]? = some y ∨ i = xs.length ∧ y = x := by
  rcases Nat.lt_trichotomy i xs.length with hlt | rfl | hgt
  · rw [List.getElem?_append_left hlt]
    simp [Nat.ne_of_lt hlt]
  · simp [eq_comm]
  · have hlen : (xs ++ [x]).length ≤ i := by
      rw [List.length_append]
      exact hgt
    rw [List.getElem?_eq_none hlen, List.getElem?_eq_none (Nat.le_of_lt hgt)]
    simp [Nat.ne_of_gt hgt]

/-- A mount that is current connects while it has no socket and no timer is pending. -/
theorem Kept.connect {h : Hook} (hk : Kept h) {mount : Nat} (hcurrent : h.current mount = true)
    (hnone : ∀ (i : Nat) (s : Socket), h.sockets[i]? = some s → s.mount = mount →
      s.state = .closed)
    (hidle : ∀ (t : Nat) (tm : Timer), h.timers[t]? = some tm → tm.pending = false) :
    Kept (h.connect mount) := by
  have hcurrent' (m : Nat) : (h.connect mount).current m = h.current m := rfl
  constructor
  · intro i s hi
    rcases getElem?_concat_iff.1 hi with hi | ⟨-, rfl⟩
    · exact hk.bound i s hi
    · simp only [Hook.current, Bool.and_eq_true, beq_iff_eq] at hcurrent
      show mount < h.mounts
      omega
  · intro i s hi
    rcases getElem?_concat_iff.1 hi with hi | ⟨-, rfl⟩
    · exact hk.late i s hi
    · simp [hcurrent]
  · intro i s hi hold
    rcases getElem?_concat_iff.1 hi with hi | ⟨-, rfl⟩
    · exact hk.earlier i s hi hold
    · rw [hcurrent', hcurrent] at hold
      cases hold
  · intro i j s s' hi hj hs hs' hmount
    rcases getElem?_concat_iff.1 hi with hi | ⟨rfl, rfl⟩ <;>
      rcases getElem?_concat_iff.1 hj with hj | ⟨rfl, rfl⟩
    · exact hk.single i j s s' hi hj hs hs' hmount
    · exact absurd (hnone i s hi hmount) hs
    · exact absurd (hnone j s' hj hmount.symm) hs'
    · rfl
  · intro i s hi hs hcur
    rcases getElem?_concat_iff.1 hi with hi | ⟨rfl, rfl⟩
    · have hcur : h.current s.mount = true := hcur
      simp only [Hook.current, Bool.and_eq_true, beq_iff_eq] at hcur hcurrent
      exact absurd (hnone i s hi (by omega)) hs
    · exact ⟨rfl, hidle⟩
  · intro t tm ht hpending
    rw [hidle t tm ht] at hpending
    cases hpending

theorem Kept.mount {h h' : Hook} (hk : Kept h) (hstep : h.mount = some h') : Kept h' := by
  unfold Hook.mount at hstep
  split_ifs at hstep with hmounted
  cases hstep
  have hold (m : Nat) : h.current m = false := by
    simp [Hook.current, hmounted]
  have hnew (i : Nat) (s : Socket) (hi : h.sockets[i]? = some s) : s.mount ≠ h.mounts :=
    Nat.ne_of_lt (hk.bound i s hi)
  have hcurrent {i : Nat} {s : Socket} (hi : h.sockets[i]? = some s) :
      ({ h with mounts := h.mounts + 1, mounted := true } : Hook).current s.mount = false := by
    simpa [Hook.current] using hnew i s hi
  have hidle (t : Nat) (tm : Timer) (ht : h.timers[t]? = some tm) : tm.pending = false := by
    by_contra hpending
    have hcur := (hk.waiting t tm ht (by simpa using hpending)).1
    rw [hold] at hcur
    cases hcur
  have hbase : Kept { h with mounts := h.mounts + 1, mounted := true } := by
    refine ⟨fun i s hi => Nat.lt_succ_of_lt (hk.bound i s hi), hk.late,
      fun i s hi _ => hk.earlier i s hi (hold _), hk.single, fun i s hi _ hcur => ?_,
      fun t tm ht hpending => ?_⟩
    · rw [hcurrent hi] at hcur
      cases hcur
    · rw [hidle t tm ht] at hpending
      cases hpending
  refine hbase.connect (by simp [Hook.current]) (fun i s hi hmount => ?_) hidle
  exact absurd hmount (hnew i s hi)

theorem getElem?_modify_iff {α : Type*} {xs : List α} {f : α → α} {i j : Nat} {y : α} :
    (xs.modify i f)[j]? = some y ↔ ∃ x, xs[j]? = some x ∧ y = if i = j then f x else x := by
  rw [List.getElem?_modify, Option.map_eq_map, Option.map_eq_some_iff]
  simp only [eq_comm]

theorem ReadyState.close_cases (r : ReadyState) :
    r.close = .closing ∧ r ≠ .closed ∨ r.close = .closed ∧ r = .closed := by
  cases r <;> simp [ReadyState.close]

theorem Kept.close {h : Hook} (hk : Kept h) (i : Nat) : Kept (h.close i) := by
  -- A socket of the closed hook is one of before, and it is closed exactly if that was.
  have hbefore {j : Nat} {s : Socket} (hj : (h.close i).sockets[j]? = some s) :
      ∃ s₀, h.sockets[j]? = some s₀ ∧ s.mount = s₀.mount ∧ s.late = s₀.late ∧
        (s.state = .closed ↔ s₀.state = .closed) ∧
        (s.state = s₀.state ∨ s.state = .closing) := by
    obtain ⟨s₀, hj₀, rfl⟩ := getElem?_modify_iff.1 hj
    refine ⟨s₀, hj₀, ?_⟩
    split_ifs
    · rcases s₀.state.close_cases with ⟨hclose, hstate⟩ | ⟨hclose, hstate⟩
      · simp [hclose, hstate]
      · simp [hstate, ReadyState.close]
    · simp
  constructor
  · intro j s hj
    obtain ⟨s₀, hj₀, hmount, -⟩ := hbefore hj
    exact hmount ▸ hk.bound j s₀ hj₀
  · intro j s hj
    obtain ⟨s₀, hj₀, -, hlate, -⟩ := hbefore hj
    exact hlate ▸ hk.late j s₀ hj₀
  · intro j s hj hold
    obtain ⟨s₀, hj₀, hmount, -, -, hstate | hstate⟩ := hbefore hj
    · rw [hstate]
      exact hk.earlier j s₀ hj₀ (hmount ▸ hold)
    · exact .inl hstate
  · intro j k s s' hj hk' hs hs' hmount
    obtain ⟨s₀, hj₀, hmount₀, -, hclosed, -⟩ := hbefore hj
    obtain ⟨s₁, hk₁, hmount₁, -, hclosed', -⟩ := hbefore hk'
    exact hk.single j k s₀ s₁ hj₀ hk₁ (mt hclosed.2 hs) (mt hclosed'.2 hs')
      (hmount₀ ▸ hmount₁ ▸ hmount)
  · intro j s hj hs hcur
    obtain ⟨s₀, hj₀, hmount, -, hclosed, -⟩ := hbefore hj
    exact hk.ref j s₀ hj₀ (mt hclosed.2 hs) (hmount ▸ hcur)
  · exact hk.waiting

theorem Kept.clearTimeout {h : Hook} (hk : Kept h) (t : Nat) : Kept (h.clearTimeout t) := by
  have hbefore {u : Nat} {tm : Timer} (hu : (h.clearTimeout t).timers[u]? = some tm)
      (hpending : tm.pending = true) : h.timers[u]? = some tm := by
    obtain ⟨tm₀, hu₀, rfl⟩ := getElem?_modify_iff.1 hu
    split_ifs at hpending ⊢
    exact hu₀
  refine ⟨hk.bound, hk.late, hk.earlier, hk.single, fun i s hi hs hcur => ?_,
    fun u tm hu hpending => hk.waiting u tm (hbefore hu hpending) hpending⟩
  obtain ⟨href, hidle⟩ := hk.ref i s hi hs hcur
  refine ⟨href, fun u tm hu => ?_⟩
  by_contra hpending
  rw [Bool.not_eq_false] at hpending
  rw [hidle u tm (hbefore hu hpending)] at hpending
  cases hpending

/-- After the timer of the ref was cleared, no timer is pending. -/
theorem Kept.idle_clearTimeout {h : Hook} (hk : Kept h) {u : Nat} {tm : Timer}
    (hu : (h.timerRef.elim h h.clearTimeout).timers[u]? = some tm) : tm.pending = false := by
  by_contra hpending
  rw [Bool.not_eq_false] at hpending
  cases href : h.timerRef with
  | none =>
    rw [href] at hu
    have hwaiting := (hk.waiting u tm hu hpending).2
    rw [href] at hwaiting
    cases hwaiting
  | some t =>
    rw [href] at hu
    obtain ⟨tm₀, hu₀, rfl⟩ := getElem?_modify_iff.1 hu
    split_ifs at hpending with htu
    have hwaiting := (hk.waiting u tm₀ hu₀ hpending).2
    rw [href, Option.some.injEq] at hwaiting
    exact htu hwaiting

/-- After the socket of the ref was closed, all are closed or being closed. -/
theorem Kept.closing_close {h : Hook} (hk : Kept h) {i : Nat} {s : Socket}
    (hi : (h.wsRef.elim h h.close).sockets[i]? = some s) :
    s.state = .closing ∨ s.state = .closed := by
  have hother {s₀ : Socket} (hi₀ : h.sockets[i]? = some s₀) (hne : h.wsRef ≠ some i) :
      s₀.state = .closing ∨ s₀.state = .closed := by
    by_contra hstate
    have hcur : h.current s₀.mount = true := by
      by_contra hold
      exact hstate (hk.earlier i s₀ hi₀ (by simpa using hold))
    exact hne (hk.ref i s₀ hi₀ (fun hclosed => hstate (.inr hclosed)) hcur).1
  cases href : h.wsRef with
  | none =>
    rw [href] at hi
    exact hother hi (by simp [href])
  | some k =>
    rw [href] at hi
    obtain ⟨s₀, hi₀, rfl⟩ := getElem?_modify_iff.1 hi
    split_ifs with hki
    · rcases s₀.state.close_cases with ⟨hclose, -⟩ | ⟨hclose, -⟩
      · exact .inl hclose
      · exact .inr hclose
    · exact hother hi₀ (by simpa [href] using hki)

theorem Kept.unmount {h h' : Hook} (hk : Kept h) (hstep : h.unmount = some h') : Kept h' := by
  unfold Hook.unmount at hstep
  split_ifs at hstep with hmounted
  cases hstep
  have hclosed : Kept (h.wsRef.elim h h.close) := by
    cases h.wsRef with
    | none => exact hk
    | some i => exact hk.close i
  have hclosing (i : Nat) (s : Socket) (hi : (h.wsRef.elim h h.close).sockets[i]? = some s) :
      s.state = .closing ∨ s.state = .closed := hk.closing_close hi
  generalize h.wsRef.elim h h.close = closed at *
  have hcleared : Kept (closed.timerRef.elim closed closed.clearTimeout) := by
    cases closed.timerRef with
    | none => exact hclosed
    | some t => exact hclosed.clearTimeout t
  have hsockets : (closed.timerRef.elim closed closed.clearTimeout).sockets = closed.sockets := by
    cases closed.timerRef <;> rfl
  refine ⟨hcleared.bound, hcleared.late, fun i s hi _ => hclosing i s (hsockets ▸ hi),
    hcleared.single, fun i s _ _ hcur => ?_, fun t tm ht hpending => ?_⟩
  · simp [Hook.current] at hcur
  · rw [hclosed.idle_clearTimeout ht] at hpending
    cases hpending

theorem Kept.onerror {h h' : Hook} (hk : Kept h) {i : Nat} (hstep : h.onerror i = some h') :
    Kept h' := by
  unfold Hook.onerror at hstep
  split at hstep
  · split_ifs at hstep
    cases hstep
    exact hk.close i
  · cases hstep

/-- A socket of the current mount that is not closed changes its state. -/
theorem Kept.setState {h : Hook} (hk : Kept h) {i : Nat} {s : Socket} (hi : h.sockets[i]? = some s)
    (hstate : s.state ≠ .closed) (hcur : h.current s.mount = true) (r : ReadyState) :
    Kept { h with sockets := h.sockets.set i { s with state := r } } := by
  have hbefore {j : Nat} {s' : Socket}
      (hj : (h.sockets.set i { s with state := r })[j]? = some s') :
      i = j ∧ s' = { s with state := r } ∨ i ≠ j ∧ h.sockets[j]? = some s' := by
    rw [List.getElem?_set] at hj
    split_ifs at hj with hij
    · exact .inl ⟨hij, (Option.some.inj hj).symm⟩
    · exact .inr ⟨hij, hj⟩
  constructor
  · intro j s' hj
    rcases hbefore hj with ⟨-, rfl⟩ | ⟨-, hj⟩
    · exact hk.bound i s hi
    · exact hk.bound j s' hj
  · intro j s' hj
    rcases hbefore hj with ⟨-, rfl⟩ | ⟨-, hj⟩
    · exact hk.late i s hi
    · exact hk.late j s' hj
  · intro j s' hj hold
    rcases hbefore hj with ⟨-, rfl⟩ | ⟨-, hj⟩
    · exact absurd (hcur.symm.trans hold) (by simp)
    · exact hk.earlier j s' hj hold
  · intro j k s' s'' hj hk' hs hs' hmount
    rcases hbefore hj with ⟨rfl, rfl⟩ | ⟨-, hj⟩ <;> rcases hbefore hk' with ⟨rfl, rfl⟩ | ⟨-, hk'⟩
    · rfl
    · exact hk.single i k s s'' hi hk' hstate hs' hmount
    · exact hk.single j i s' s hj hi hs hstate hmount
    · exact hk.single j k s' s'' hj hk' hs hs' hmount
  · intro j s' hj hs hcur'
    rcases hbefore hj with ⟨rfl, rfl⟩ | ⟨-, hj⟩
    · exact hk.ref i s hi hstate hcur
    · exact hk.ref j s' hj hs hcur'
  · exact hk.waiting

theorem Kept.onopen {h h' : Hook} (hk : Kept h) {i : Nat} (hstep : h.onopen i = some h') :
    Kept h' := by
  unfold Hook.onopen at hstep
  split at hstep
  next mount late hi =>
    cases hstep
    have hcur : h.current mount = true := by
      by_contra hold
      rcases hk.earlier i _ hi (by simpa using hold) with hstate | hstate <;> cases hstate
    have hopened := hk.setState hi (by simp) hcur .opened
    generalize ({ h with sockets := h.sockets.set i ⟨mount, .opened, late⟩ } : Hook) = opened at *
    have hcleared : Kept (opened.timerRef.elim opened opened.clearTimeout) := by
      cases opened.timerRef with
      | none => exact hopened
      | some t => exact hopened.clearTimeout t
    refine ⟨hcleared.bound, hcleared.late, hcleared.earlier, hcleared.single, hcleared.ref,
      fun t tm ht hpending => ?_⟩
    rw [hopened.idle_clearTimeout ht] at hpending
    cases hpending
  next => cases hstep

/-- A mount that is current has a timer set while it has no socket and no timer is pending. -/
theorem Kept.setTimeout {h : Hook} (hk : Kept h) {mount : Nat} (hcurrent : h.current mount = true)
    (hnone : ∀ (i : Nat) (s : Socket), h.sockets[i]? = some s → s.mount = mount →
      s.state = .closed)
    (hidle : ∀ (t : Nat) (tm : Timer), h.timers[t]? = some tm → tm.pending = false) :
    Kept { h with timerRef := some h.timers.length, timers := h.timers ++ [⟨mount, true⟩] } := by
  refine ⟨hk.bound, hk.late, hk.earlier, hk.single, fun i s hi hs hcur => ?_,
    fun t tm ht hpending => ?_⟩
  · have hcur : h.current s.mount = true := hcur
    simp only [Hook.current, Bool.and_eq_true, beq_iff_eq] at hcur hcurrent
    exact absurd (hnone i s hi (by omega)) hs
  · rcases getElem?_concat_iff.1 ht with ht | ⟨rfl, rfl⟩
    · rw [hidle t tm ht] at hpending
      cases hpending
    · exact ⟨hcurrent, rfl⟩

/-- A close event that is in time leaves one timer, of a mount without a socket. -/
theorem Kept.onclose {h h' : Hook} (hk : Kept h) {i : Nat} (hg : InTime h (.onclose i))
    (hstep : h.onclose i = some h') : Kept h' := by
  unfold Hook.onclose at hstep
  split at hstep
  next s hi =>
    split_ifs at hstep with hstate
    cases hstep
    have hcur := hg s hi
    obtain ⟨href, hidle⟩ := hk.ref i s hi hstate hcur
    refine (hk.setState hi hstate hcur .closed).setTimeout hcur (fun j s' hj hmount => ?_) hidle
    rw [List.getElem?_set] at hj
    split_ifs at hj with hij hlt
    · cases hj
      rfl
    · by_contra hs'
      exact hij (hk.single i j s s' hi hj hstate hs' hmount.symm)
  next => cases hstep

theorem Kept.fire {h h' : Hook} (hk : Kept h) {t : Nat} (hstep : h.fire t = some h') :
    Kept h' := by
  unfold Hook.fire at hstep
  split at hstep
  next mount ht =>
    cases hstep
    obtain ⟨hcur, href⟩ := hk.waiting t _ ht rfl
    have hidle (u : Nat) (tm : Timer) (hu : (h.clearTimeout t).timers[u]? = some tm) :
        tm.pending = false := by
      have hu' : (h.timerRef.elim h h.clearTimeout).timers[u]? = some tm := by
        rw [href]
        exact hu
      exact hk.idle_clearTimeout hu'
    refine (hk.clearTimeout t).connect hcur (fun i s hi hmount => ?_) hidle
    by_contra hs
    have hcur' : h.current s.mount = true := hmount ▸ hcur
    have hpending := (hk.ref i s hi hs hcur').2 t _ ht
    cases hpending
  next => cases hstep

theorem kept_step {h h' : Hook} {e : HookEvent} (hk : Kept h) (hg : InTime h e)
    (hstep : h.step e = some h') : Kept h' := by
  cases e with
  | mount => exact hk.mount hstep
  | unmount => exact hk.unmount hstep
  | onopen i => exact hk.onopen hstep
  | onerror i => exact hk.onerror hstep
  | onclose i => exact hk.onclose hg hstep
  | fire t => exact hk.fire hstep

/-- A close event that is not in time leaves a timer. -/
theorem inTime_of_good {h h' : Hook} {e : HookEvent} (hk : Kept h) (hstep : h.step e = some h')
    (hgood : Good h') : InTime h e := by
  cases e with
  | onclose i =>
    intro s hi
    by_contra hold
    simp only [Hook.step, Hook.onclose, hi] at hstep
    split_ifs at hstep with hstate
    cases hstep
    obtain ⟨j, s', hj, hmount, hs'⟩ := hgood.timers h.timers.length ⟨s.mount, true⟩
      List.getElem?_concat_length rfl (show h.current s.mount = false by simpa using hold)
    rw [List.getElem?_set] at hj
    split_ifs at hj with hij hlt
    · cases hj
      exact hs' rfl
    · exact hij (hk.single i j s s' hi hj hstate hs' hmount.symm)
  | _ => trivial

/-! ### All components -/

/-- Every close event comes in time for its component. -/
def AllInTime (app : List Hook) : AppEvent → Prop
  | .component => True
  | .hook k e => ∀ h, app[k]? = some h → InTime h e

theorem appStep_hook {app app' : List Hook} {k : Nat} {e : HookEvent}
    (hstep : appStep app (.hook k e) = some app') :
    ∃ h h', app[k]? = some h ∧ h.step e = some h' ∧ app' = app.set k h' := by
  unfold appStep at hstep
  obtain ⟨h, hk, hstep⟩ := Option.bind_eq_some_iff.1 hstep
  obtain ⟨h', hh', rfl⟩ := Option.map_eq_some_iff.1 hstep
  exact ⟨h, h', hk, hh', rfl⟩

/-- An event in time keeps every component. -/
theorem kept_appStep {app app' : List Hook} {ev : AppEvent} (happ : ∀ h ∈ app, Kept h)
    (hg : AllInTime app ev) (hstep : appStep app ev = some app') : ∀ h ∈ app', Kept h := by
  cases ev with
  | component =>
    cases hstep
    intro h hh
    rcases List.mem_append.1 hh with hh | hh
    · exact happ h hh
    · rw [List.mem_singleton.1 hh]
      exact kept_empty
  | hook k e =>
    obtain ⟨h, h', hget, hh', rfl⟩ := appStep_hook hstep
    have hkept := kept_step (happ h (List.mem_of_getElem? hget)) (hg h hget) hh'
    intro h'' hmem
    rcases List.mem_or_eq_of_mem_set hmem with hmem | rfl
    · exact happ h'' hmem
    · exact hkept

theorem allInTime_of_good {app app' : List Hook} {ev : AppEvent} (happ : ∀ h ∈ app, Kept h)
    (hstep : appStep app ev = some app') (hgood : ∀ h ∈ app', Good h) : AllInTime app ev := by
  cases ev with
  | component => trivial
  | hook k e =>
    obtain ⟨h, h', hget, hh', rfl⟩ := appStep_hook hstep
    have hlt : k < app.length := (List.getElem?_eq_some_iff.1 hget).1
    intro h'' hget'
    cases hget.symm.trans hget'
    exact inTime_of_good (happ h (List.mem_of_getElem? hget)) hh' (hgood h' (List.mem_set hlt h'))

/-- **One socket while mounted, none after.** In a run of any number of components, mounted and
unmounted any number of times, this holds at every moment exactly if no close event comes to a
socket whose effect was cleaned up. -/
theorem visits_good_iff {events : List AppEvent} {app : List Hook}
    (hrun : Lts.run appStep [] events = some app) :
    Lts.Visits appStep (fun app => ∀ h ∈ app, Good h) [] events ↔
      Lts.Along appStep AllInTime [] events :=
  Lts.visits_iff_along_within (I := fun app => ∀ h ∈ app, Kept h)
    (fun _ _ _ happ _ hstep hgood => kept_appStep happ (allInTime_of_good happ hstep hgood) hstep)
    (fun _ _ _ happ _ hstep => ⟨allInTime_of_good happ hstep,
      fun hg h hh => (kept_appStep happ hg hstep h hh).good⟩)
    (fun _ hh => by cases hh) (fun _ hh => by cases hh) hrun

theorem visits_good_iff_logout :
    Lts.Visits appStep (fun app => ∀ h ∈ app, Good h) [] logout ↔
      Lts.Along appStep AllInTime [] logout :=
  have henabled : (Lts.run appStep [] logout).isSome := by decide
  visits_good_iff (Option.some_get henabled).symm

end QuickVps.Frontend
