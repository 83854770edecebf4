import Mathlib.Algebra.Order.BigOperators.Group.List
import Mathlib.Data.List.Nodup
import QuickVps.Alerts.Service
import QuickVps.Lib.Lts
import QuickVps.Lib.Paging

/-!
# Reading the history page by page

A client reads the events from the newest on: each request takes the last id of the page before as
its `before_id`, and an empty page ends the walk. Events are saved and cleaned up meanwhile.

* `Walk`, `Walk.step` — the pages so far, and the table when the first of them was read;
* `Walk.Kept` — what was read are events of that table, in descending order (`kept_step`);
* `Walk.Passed` — the walk is past an event; what is in the table until then is read
  (`read_or_ahead_step`).

**Main result.** `walk_complete`: the walk ends after at most one page more than there were events,
and has then read every event once that was not deleted before the walk passed it.
-/

namespace QuickVps.Alerts

open Go

variable {http : Http} {cs cs' : List Choice} {w w' : World}

/-! ## The calls -/

/-- The page of a request is one of the rows of the table, with a limit from 1 to 500. -/
theorem listHistory_run {limit beforeID : Int} (hlimit : 0 < limit)
    {answer : Except String (List Event)}
    (h : (listHistory limit beforeID).run (exec http) cs w = some (answer, cs', w')) :
    w' = w ∧ ((∃ err, answer = .error err) ∨
      ∃ n, 0 < n ∧ n ≤ 500 ∧ answer = .ok (w.events.page n beforeID)) := by
  obtain ⟨listed, ds, t, hstmt, hrest⟩ := Prog.run_bind h
  obtain ⟨c, -, hexec⟩ := Prog.run_op hstmt
  cases hfault : c.fault with
  | some err =>
    simp only [exec, hfault] at hexec
    cases hexec
    obtain ⟨rfl, -, rfl⟩ := Prog.run_ret hrest
    exact ⟨rfl, .inl ⟨_, rfl⟩⟩
  | none =>
    simp only [exec, hfault] at hexec
    cases hexec
    obtain ⟨rfl, -, rfl⟩ := Prog.run_ret hrest
    refine ⟨rfl, .inr ⟨_, ?_, ?_, rfl⟩⟩ <;> split_ifs <;> omega

theorem saveEvent_events {level : Level} {message : String} {cpuPercent : Float64}
    {channels : List ChannelResult} {createdAt : Int} {answer : Except String Int}
    (h : (saveEvent level message cpuPercent channels createdAt).run (exec http) cs w =
      some (answer, cs', w')) :
    w'.events = w.events ∨
      w'.events = w.events.insert level message cpuPercent channels createdAt := by
  obtain ⟨saved, ds, t, hstmt, hrest⟩ := Prog.run_bind h
  obtain rfl : w' = t := by
    cases saved <;> exact (Prog.run_ret hrest).2.2
  obtain ⟨c, -, hexec⟩ := Prog.run_op hstmt
  cases hfault : c.fault with
  | some err =>
    simp only [exec, hfault] at hexec
    cases hexec
    exact .inl rfl
  | none =>
    simp only [exec, hfault, Stmt.exec] at hexec
    split_ifs at hexec <;> cases hexec
    · exact .inl rfl
    · exact .inr rfl

theorem cleanupEvents_events {retentionDays : Int} {answer : Except String Unit}
    (h : (cleanupEvents retentionDays).run (exec http) cs w = some (answer, cs', w')) :
    w'.events = w.events ∨ ∃ deadline, w'.events = w.events.cleanup deadline := by
  obtain ⟨now, ds, t, hnow, hrest⟩ := Prog.run_bind h
  obtain ⟨_, -, hexec⟩ := Prog.run_op hnow
  cases hexec
  obtain ⟨cleaned, ds', t', hstmt, hrest⟩ := Prog.run_bind hrest
  obtain rfl : w' = t' := by
    cases cleaned <;> exact (Prog.run_ret hrest).2.2
  obtain ⟨c, -, hexec⟩ := Prog.run_op hstmt
  cases hfault : c.fault with
  | some err =>
    simp only [exec, hfault] at hexec
    cases hexec
    exact .inl rfl
  | none =>
    simp only [exec, hfault] at hexec
    cases hexec
    exact .inr ⟨_, rfl⟩

/-! ## The walk -/

/-- The pages that were read, and the table from which the first one came. -/
structure Walk where
  world : World
  first : Option Events
  pages : List (List Event)

/-- A request for a page, which may fail, and the writes in between. -/
inductive WalkStep where
  | page (limit : Int) (hlimit : 0 < limit) (choices : List Choice)
  | saveEvent (level : Level) (message : String) (cpuPercent : Float64)
    (channels : List ChannelResult) (createdAt : Int) (choices : List Choice)
  | cleanupEvents (retentionDays : Int) (choices : List Choice)

namespace Walk

def start (w : World) : Walk := ⟨w, none, []⟩

/-- All events that were read, in the order of the pages. -/
def read (s : Walk) : List Event := s.pages.flatten

/-- The cursor of the next request: none at first, then the last id of the page before. -/
def beforeID (s : Walk) : Int := (s.pages.getLast?.map (Table.cursor Event.id)).getD 0

/-- An empty page was read. -/
def done (s : Walk) : Bool := s.pages.getLast? = some []

/-- The walk is past an event: it has read down to it, or to the end. -/
def Passed (s : Walk) (e : Event) : Prop := s.done = true ∨ Table.Passed Event.id s.read e

def listed (s : Walk) : Except String (List Event) → Walk
  | .error _ => s
  | .ok page =>
    { s with first := some (s.first.getD s.world.events), pages := s.pages ++ [page] }

def step (http : Http) (s : Walk) : WalkStep → Option Walk
  | .page limit _ choices =>
    if s.done then none
    else ((listHistory limit s.beforeID).run (exec http) choices s.world).map fun r => s.listed r.1
  | .saveEvent level message cpuPercent channels createdAt choices =>
    ((Alerts.saveEvent level message cpuPercent channels createdAt).run (exec http) choices
      s.world).map fun r => { s with world := r.2.2 }
  | .cleanupEvents retentionDays choices =>
    ((Alerts.cleanupEvents retentionDays).run (exec http) choices s.world).map fun r =>
      { s with world := r.2.2 }

/-- **Inversion.** A step reads a page of the table, or it changes the table at most by an insertion
or a deletion and leaves the pages as they are. -/
theorem step_cases {s s' : Walk} {a : WalkStep} (h : s.step http a = some s') :
    (∃ n, 0 < n ∧ s.done = false ∧ s' = s.listed (.ok (s.world.events.page n s.beforeID))) ∨
      s'.first = s.first ∧ s'.pages = s.pages ∧
        ∀ t, Table.Descends t s.world.events → Table.Descends t s'.world.events := by
  cases a with
  | page limit hlimit choices =>
    unfold step at h
    dsimp only at h
    split_ifs at h with hdone
    obtain ⟨⟨answer, rest, w⟩, hrun, rfl⟩ := Option.map_eq_some_iff.1 h
    obtain ⟨-, ⟨err, rfl⟩ | ⟨n, hn, -, rfl⟩⟩ := listHistory_run hlimit hrun
    · exact .inr ⟨rfl, rfl, fun _ => id⟩
    · exact .inl ⟨n, hn, Bool.eq_false_of_not_eq_true hdone, rfl⟩
  | saveEvent level message cpuPercent channels createdAt choices =>
    obtain ⟨⟨answer, rest, w⟩, hrun, rfl⟩ := Option.map_eq_some_iff.1 h
    refine .inr ⟨rfl, rfl, fun t ht => ?_⟩
    rcases saveEvent_events hrun with hevents | hevents
    · exact hevents ▸ ht
    · exact hevents ▸ ht.insert
  | cleanupEvents retentionDays choices =>
    obtain ⟨⟨answer, rest, w⟩, hrun, rfl⟩ := Option.map_eq_some_iff.1 h
    refine .inr ⟨rfl, rfl, fun t ht => ?_⟩
    rcases cleanupEvents_events hrun with hevents | ⟨deadline, hevents⟩
    · exact hevents ▸ ht
    · exact hevents ▸ ht.filter

/-! ## The invariant -/

/-- What was read are events of the first table, from the newest on, and a page that is followed by
another was not empty. -/
structure Kept (s : Walk) : Prop where
  unread : s.first = none → s.pages = []
  started : s.pages = [] → s.first = none
  descends : ∀ t, s.first = some t → Table.Descends t s.world.events
  paged : ∀ t, s.first = some t → Table.Paged t s.read
  full : s.done = false → ∀ page ∈ s.pages, page ≠ []
  lengths : s.pages.length ≤ s.read.length + 1

theorem kept_start (w : World) : (start w).Kept where
  unread _ := rfl
  started _ := rfl
  descends _ h := by cases h
  paged _ h := by cases h
  full _ := by simp [start]
  lengths := by simp [start]

/-- Where every page has events, the cursor is the last id that was read. -/
theorem beforeID_eq {s : Walk} (hfull : ∀ page ∈ s.pages, page ≠ []) :
    s.beforeID = Table.cursor Event.id s.read := by
  unfold beforeID read
  rcases List.eq_nil_or_concat s.pages with hnil | ⟨pages, page, hpages⟩
  · rw [hnil]
    rfl
  · rw [hpages, List.concat_eq_append] at hfull ⊢
    rw [List.getLast?_concat, List.flatten_append, List.flatten_singleton,
      Table.cursor_append (hfull page (by simp))]
    rfl

theorem listed_read {s : Walk} {page : List Event} :
    (s.listed (.ok page)).read = s.read ++ page := by
  simp [read, listed]

theorem listed_done {s : Walk} {page : List Event} :
    (s.listed (.ok page)).done = true ↔ page = [] := by
  simp [done, listed]

/-- No page was read before the first. -/
theorem Kept.read_eq_nil {s : Walk} (h : s.Kept) (hfirst : s.first = none) : s.read = [] := by
  rw [read, h.unread hfirst, List.flatten_nil]

/-- Before the walk is done, only before the first page nothing was read. -/
theorem Kept.first_eq_none {s : Walk} (h : s.Kept) (hdone : s.done = false)
    (hread : s.read = []) : s.first = none := by
  refine h.started (List.eq_nil_iff_forall_not_mem.2 fun page hpage => ?_)
  exact h.full hdone page hpage (List.flatten_eq_nil_iff.1 hread page hpage)

theorem Kept.length_le {s : Walk} (h : s.Kept) (hdone : s.done = false) :
    s.pages.length ≤ s.read.length := by
  have hlengths : ∀ n ∈ s.pages.map List.length, 1 ≤ n := by
    intro n hn
    obtain ⟨page, hpage, rfl⟩ := List.mem_map.1 hn
    exact List.length_pos_iff.2 (h.full hdone page hpage)
  have hsum := List.length_le_sum_of_one_le _ hlengths
  rwa [List.length_map, ← List.length_flatten] at hsum

theorem kept_listed {s : Walk} (h : s.Kept) (hdone : s.done = false) (n : Nat) :
    (s.listed (.ok (s.world.events.page n s.beforeID))).Kept := by
  have hpage : s.world.events.page n s.beforeID =
      Table.page s.world.events n (Table.cursor Event.id s.read) := by
    rw [beforeID_eq (h.full hdone)]
    rfl
  -- the first table is the one that the walk started on, or the present one
  have hfirst : Table.Descends (s.first.getD s.world.events) s.world.events ∧
      Table.Paged (s.first.getD s.world.events) s.read ∧
        (s.read = [] → s.world.events = s.first.getD s.world.events) := by
    cases hs : s.first with
    | none =>
      rw [h.read_eq_nil hs]
      exact ⟨.refl _, Table.paged_nil, fun _ => rfl⟩
    | some t =>
      refine ⟨h.descends t hs, h.paged t hs, fun hnil => ?_⟩
      rw [h.first_eq_none hdone hnil] at hs
      cases hs
  refine ⟨nofun, fun hnil => ?_, fun t ht => ?_, fun t ht => ?_, fun hd page hmem => ?_, ?_⟩
  · exact absurd hnil (List.append_ne_nil_of_right_ne_nil _ (List.cons_ne_nil _ _))
  · cases ht
    exact hfirst.1
  · cases ht
    rw [listed_read, hpage]
    exact hfirst.2.1.next hfirst.1 hfirst.2.2
  · rcases List.mem_append.1 hmem with hold | hnew
    · exact h.full hdone page hold
    · rw [List.mem_singleton.1 hnew]
      exact fun hnil => Bool.false_ne_true (hd.symm.trans (listed_done.2 hnil))
  · rw [listed_read, List.length_append]
    have hle := h.length_le hdone
    show (s.pages ++ [_]).length ≤ _
    rw [List.length_append, List.length_singleton]
    omega

theorem kept_step (s : Walk) (a : WalkStep) (s' : Walk) (h : s.Kept)
    (hstep : s.step http a = some s') : s'.Kept := by
  rcases step_cases hstep with ⟨n, -, hdone, rfl⟩ | ⟨hfirst, hpages, hdescends⟩
  · exact kept_listed h hdone n
  · have hread : s'.read = s.read := by rw [read, hpages, read]
    have hdone : s'.done = s.done := by rw [done, hpages, done]
    refine ⟨?_, ?_, fun t ht => ?_, fun t ht => ?_, fun hd => ?_, ?_⟩
    · rw [hfirst, hpages]
      exact h.unread
    · rw [hfirst, hpages]
      exact h.started
    · exact hdescends t (h.descends t (hfirst ▸ ht))
    · rw [hread]
      exact h.paged t (hfirst ▸ ht)
    · rw [hpages]
      exact h.full (hdone ▸ hd)
    · rw [hpages, hread]
      exact h.lengths

/-! ## What is read -/

/-- An event of the first table that is still there, as far as the walk is not past it. -/
def Present (e : Event) (s : Walk) : Prop :=
  s.first ≠ none → ¬ s.Passed e → e ∈ s.world.events.rows

/-- An event of the first table was read, or the walk is not past it. -/
def ReadOrAhead (e : Event) (s : Walk) : Prop :=
  ∀ t, s.first = some t → e ∈ t.rows → e ∈ s.read ∨ ¬ s.Passed e

/-- **Step.** -/
theorem readOrAhead_step (e : Event) (s : Walk) (a : WalkStep) (s' : Walk)
    (h : s.Kept ∧ ReadOrAhead e s) (hpresent : Present e s) (hstep : s.step http a = some s') :
    s'.Kept ∧ ReadOrAhead e s' := by
  refine ⟨kept_step s a s' h.1 hstep, fun t ht he => ?_⟩
  rcases step_cases hstep with ⟨n, hn, hdone, rfl⟩ | ⟨hfirst, hpages, -⟩
  · -- the event is in the table of this page, unless it was read before
    have hrow : e ∈ s.read ∨ ¬ s.Passed e ∧ e ∈ s.world.events.rows := by
      cases hs : s.first with
      | none =>
        have hnot : ¬ s.Passed e := by
          rintro (hd | hp)
          · exact Bool.false_ne_true (hdone.symm.trans hd)
          · exact hp.1 (h.1.read_eq_nil hs)
        refine .inr ⟨hnot, ?_⟩
        have heq : some (s.first.getD s.world.events) = some t := ht
        rw [hs] at heq
        cases heq
        exact he
      | some t' =>
        have heq : some (s.first.getD s.world.events) = some t := ht
        rw [hs] at heq
        cases heq
        exact (h.2 _ hs he).imp_right fun hnot =>
          ⟨hnot, hpresent (by rw [hs]; exact Option.some_ne_none _) hnot⟩
    rw [listed_read]
    rcases hrow with hread | ⟨hnot, hrow⟩
    · exact .inl (List.mem_append_left _ hread)
    · have hnotpassed : ¬ Table.Passed Event.id s.read e := fun hp => hnot (.inr hp)
      have hpage : s.world.events.page n s.beforeID =
          Table.page s.world.events n (Table.cursor Event.id s.read) := by
        rw [beforeID_eq (h.1.full hdone)]
        rfl
      rw [hpage]
      refine (Table.mem_of_page hn hrow hnotpassed).imp (List.mem_append_right _) ?_
      rintro ⟨hne, hahead⟩ (hd | hp)
      · exact hne (listed_done.1 hd)
      · rw [listed_read] at hp
        exact hahead hp
  · have hread : s'.read = s.read := by rw [read, hpages, read]
    have hdone : s'.done = s.done := by rw [done, hpages, done]
    rw [Passed, hread, hdone]
    exact h.2 t (hfirst ▸ ht) he

/-- A page can be read as long as the walk is not done. -/
theorem page_enabled {s : Walk} (hdone : s.done = false) {limit : Int} (hlimit : 0 < limit) :
    ∃ s', s.step http (.page limit hlimit [{}]) = some s' ∧
      s'.pages.length = s.pages.length + 1 := by
  have hrun : ∃ n, (listHistory limit s.beforeID).run (exec http) [{}] s.world =
      some (.ok (s.world.events.page n s.beforeID), [], s.world) := ⟨_, rfl⟩
  obtain ⟨n, hrun⟩ := hrun
  refine ⟨s.listed (.ok (s.world.events.page n s.beforeID)), ?_, ?_⟩
  · unfold step
    dsimp only
    rw [hdone, if_neg Bool.false_ne_true, hrun]
    rfl
  · simp [listed]

/-- **Main result.** From any content of the table, with any limits and any writes between the
pages: the walk has at most one page more than there were events when it started, it can go on as
long as it has not met an empty page, the ids that were read descend, all events that were read were
there at the first page, and at the end every one of those has been read once that was in the table
until the walk passed it. -/
theorem walk_complete {w : World} {steps : List WalkStep} {s : Walk} {t : Events}
    (hrun : Lts.run (step http) (start w) steps = some s) (hfirst : s.first = some t) :
    s.pages.length ≤ t.rows.length + 1 ∧
      (s.done = false → ∀ limit (hlimit : 0 < limit),
        ∃ s', s.step http (.page limit hlimit [{}]) = some s' ∧
          s'.pages.length = s.pages.length + 1) ∧
      (s.read.map Event.id).Pairwise (· > ·) ∧
      (∀ e ∈ s.read, e ∈ t.rows) ∧
      (s.done = true → ∀ e ∈ t.rows, Lts.Visits (step http) (Present e) (start w) steps →
        s.read.count e = 1) := by
  have hkept := Lts.invariant kept_step (kept_start w) hrun
  have hpaged := hkept.paged t hfirst
  refine ⟨?_, fun hdone limit hlimit => page_enabled hdone hlimit, ?_, hpaged.mem, ?_⟩
  · have hle := hpaged.length_le
    have hpages := hkept.lengths
    omega
  · exact List.pairwise_map.2 hpaged.desc
  · intro hdone e he hvisits
    have hstart : ReadOrAhead e (start w) := fun t ht => by cases ht
    have hread := Lts.invariant_visits (readOrAhead_step e) ⟨kept_start w, hstart⟩ hvisits hrun
    have hmem : e ∈ s.read := (hread.2 t hfirst he).resolve_right fun hnot => hnot (.inl hdone)
    exact List.count_eq_one_of_mem hpaged.nodup hmem

/-- Three events, and one more while they are read in pages of two. -/
def threeEvents : List WalkStep :=
  let save := WalkStep.saveEvent .test "test" (.num 0) [] 0 [{}]
  let page := WalkStep.page 2 (by decide) [{}]
  [save, save, save, page, save, page, page]

theorem walk_complete_threeEvents :
    ∃ s t, Lts.run (step plainHttp) (start (World.fresh defaultConfig ⟨"", "", ""⟩)) threeEvents =
        some s ∧ s.first = some t ∧ s.done = true ∧ s.read.map Event.id = [3, 2, 1] ∧
      s.pages.length ≤ t.rows.length + 1 :=
  ⟨_, _, rfl, rfl, rfl, rfl, (walk_complete
    (rfl : Lts.run (step plainHttp) (start (World.fresh defaultConfig ⟨"", "", ""⟩)) threeEvents =
      some _) rfl).1⟩

end Walk

end QuickVps.Alerts
