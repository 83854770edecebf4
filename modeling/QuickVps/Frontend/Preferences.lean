import QuickVps.Go.Rounding
import QuickVps.Js.Numbers
import QuickVps.Lib.Lts

/-!
# The preferences of a browser

The store of a tab takes its preferences from the local storage when it is made, and every setter
writes to both. The storage is shared by the tabs of a browser, which do not hear of each other.

* `load`, `Preferences.set`, `save` — the initial state of a store, and the setters;
* `Browser` — a storage with any number of tabs;
* `load_save` — a setting that is saved is loaded again;
* `preferences_kept` — a new tab has the settings of all tabs, a tab those before it was opened and
  its own.
-/

namespace QuickVps.Frontend

/-- The items of the local storage. -/
abbrev LocalStorage := String → Option String

/-- The milliseconds between two updates. -/
abbrev UpdateInterval := { ms : ℚ // 250 ≤ ms }

def UpdateInterval.atLeast (ms : ℚ) : UpdateInterval := ⟨max 250 ms, le_max_left _ _⟩

/-- The seconds for which the result of a disk scan is kept. -/
abbrev CacheTtl := { sec : ℚ // 1 ≤ sec }

@[ext]
structure Preferences where
  theme : String
  language : String
  defaultScanPath : String
  fontSize : ℚ
  isFrozen : Bool
  updateIntervalMs : UpdateInterval
  ncduCacheTtlSec : CacheTtl

inductive Setting where
  | theme (theme : String)
  | language (language : String)
  | defaultScanPath (path : String)
  | fontSize (size : ℚ)
  | frozen (frozen : Bool)
  | updateIntervalMs (ms : ℚ)
  | ncduCacheTtlSec (sec : ℚ)

/-- What a setter does to the store of its tab. -/
def Preferences.set (p : Preferences) : Setting → Preferences
  | .theme theme => { p with theme := theme }
  | .language language => { p with language := language }
  | .defaultScanPath path => { p with defaultScanPath := path }
  | .fontSize size => { p with fontSize := size }
  | .frozen frozen => { p with isFrozen := frozen }
  | .updateIntervalMs ms => { p with updateIntervalMs := .atLeast ms }
  | .ncduCacheTtlSec sec => { p with ncduCacheTtlSec := ⟨max 1 sec, le_max_left _ _⟩ }

section Storage

variable (js : Js.Numbers)

/-- What a setter does to the storage. -/
def save (ls : LocalStorage) : Setting → LocalStorage
  | .theme theme => Function.update ls "theme" (some theme)
  | .language language => Function.update ls "language" (some language)
  | .defaultScanPath path => Function.update ls "defaultScanPath" (some path)
  | .fontSize size => Function.update ls "fontSize" (some (js.string size))
  | .frozen frozen => Function.update ls "isFrozen" (some (if frozen then "true" else "false"))
  | .updateIntervalMs ms => Function.update ls "updateIntervalMs" (some (js.string (max 250 ms)))
  | .ncduCacheTtlSec sec =>
    Function.update (Function.update ls "ncduCacheTtlSec" (some (js.string (max 1 sec))))
      "ncduCacheTtlMs" none

/-- `Number` of an item. That of a missing one is 0, and nothing stands for one that is not finite,
which no setter writes. -/
def numberItem (ls : LocalStorage) (key : String) : Option ℚ :=
  match ls key with
  | none => some 0
  | some text => js.number text

/-- `x || fallback`. -/
def orElse (fallback : ℚ) : Option ℚ → ℚ
  | some x => if x = 0 then fallback else x
  | none => fallback

/-- An earlier version has written milliseconds. -/
def loadCacheTtl (ls : LocalStorage) : CacheTtl :=
  match (numberItem js ls "ncduCacheTtlSec").filter fun sec => 0 < sec with
  | some sec => ⟨max 1 (Js.round sec), le_max_left _ _⟩
  | none =>
    match (numberItem js ls "ncduCacheTtlMs").filter fun ms => 0 < ms with
    | some ms => ⟨max 1 (Js.round (Go.roundFloat64 (ms / 1000))), le_max_left _ _⟩
    | none => ⟨600, by norm_num⟩

/-- The preferences of a new store. -/
def load (ls : LocalStorage) : Preferences where
  theme := (ls "theme").getD "dark"
  language := (ls "language").getD "en"
  defaultScanPath := (ls "defaultScanPath").getD "/"
  fontSize := orElse 14 (numberItem js ls "fontSize")
  isFrozen := ls "isFrozen" = some "true"
  updateIntervalMs := .atLeast (orElse 2000 (numberItem js ls "updateIntervalMs"))
  ncduCacheTtlSec := loadCacheTtl js ls

end Storage

/-! ## A saved setting -/

/-- The numbers that are loaded again as they were set: the size of a font that is not 0, and a
whole number of seconds, or less than one. -/
def Setting.Kept : Setting → Prop
  | .fontSize size => Js.IsDouble size ∧ size ≠ 0
  | .updateIntervalMs ms => Js.IsDouble ms
  | .ncduCacheTtlSec sec => Js.IsDouble sec ∧ (sec ≤ 1 ∨ sec.den = 1)
  | _ => True

section Saved

variable {js : Js.Numbers}

theorem numberItem_of_eq {ls : LocalStorage} {key : String} {x : ℚ} (hx : Js.IsDouble x)
    (h : ls key = some (js.string x)) : numberItem js ls key = some x := by
  unfold numberItem
  rw [h]
  exact js.number_string x hx

theorem isDouble_max {n : Int} (hn : n.natAbs < 2 ^ 53) {x : ℚ} (hx : Js.IsDouble x) :
    Js.IsDouble (max n x) := by
  rcases max_choice (n : ℚ) x with hmax | hmax
  · rw [hmax]
    exact Js.isDouble_int hn
  · rw [hmax]
    exact hx

theorem round_max {sec : ℚ} (h : sec ≤ 1 ∨ sec.den = 1) :
    ((Js.round (max 1 sec) : Int) : ℚ) = max 1 sec := by
  have hwhole : ∃ n : Int, max 1 sec = n := by
    rcases max_choice 1 sec with hmax | hmax
    · exact ⟨1, by rw [hmax, Int.cast_one]⟩
    · rcases h with hle | hden
      · exact ⟨1, by rw [max_eq_left hle, Int.cast_one]⟩
      · exact ⟨sec.num, by rw [hmax, Rat.coe_int_num_of_den_eq_one hden]⟩
  obtain ⟨n, hn⟩ := hwhole
  rw [hn, Js.round_int]

/-- The milliseconds of an earlier version are forgotten. -/
theorem loadCacheTtl_save {ls : LocalStorage} {sec : ℚ} (hsec : Js.IsDouble sec)
    (hkept : sec ≤ 1 ∨ sec.den = 1) :
    loadCacheTtl js (save js ls (.ncduCacheTtlSec sec)) = ⟨max 1 sec, le_max_left _ _⟩ := by
  have hdouble : Js.IsDouble (max 1 sec) := by
    have hmax : Js.IsDouble (max ((1 : Int) : ℚ) sec) := isDouble_max (by decide) hsec
    rwa [Int.cast_one] at hmax
  have hnumber : numberItem js (save js ls (.ncduCacheTtlSec sec)) "ncduCacheTtlSec" =
      some (max 1 sec) := by
    refine numberItem_of_eq hdouble ?_
    simp [save, Function.update]
  unfold loadCacheTtl
  rw [hnumber, Option.filter_some, if_pos (by simp)]
  simp only [round_max hkept]
  exact Subtype.ext (max_eq_right (le_max_left 1 sec))

/-- **A setting that is saved is loaded again**, and nothing else changes. -/
theorem load_save (ls : LocalStorage) {setting : Setting} (h : setting.Kept) :
    load js (save js ls setting) = (load js ls).set setting := by
  cases setting with
  | theme _ | language _ | defaultScanPath _ =>
    ext1 <;> simp [load, save, Preferences.set, Function.update, numberItem, loadCacheTtl]
  | fontSize size =>
    have hnumber : numberItem js (save js ls (.fontSize size)) "fontSize" = some size :=
      numberItem_of_eq h.1 (by simp [save])
    ext1
    case fontSize =>
      show orElse 14 (numberItem js (save js ls (.fontSize size)) "fontSize") = size
      rw [hnumber]
      exact if_neg h.2
    all_goals simp [load, save, Preferences.set, Function.update, numberItem, loadCacheTtl]
  | frozen frozen =>
    ext1
    case isFrozen => cases frozen <;> simp [load, save, Preferences.set]
    all_goals simp [load, save, Preferences.set, Function.update, numberItem, loadCacheTtl]
  | updateIntervalMs ms =>
    have hdouble : Js.IsDouble (max 250 ms) := by
      have hmax : Js.IsDouble (max ((250 : Int) : ℚ) ms) := isDouble_max (by decide) h
      exact_mod_cast hmax
    have hnumber : numberItem js (save js ls (.updateIntervalMs ms)) "updateIntervalMs" =
        some (max 250 ms) :=
      numberItem_of_eq hdouble (by simp [save])
    have hne : max 250 ms ≠ 0 := (lt_of_lt_of_le (by norm_num) (le_max_left 250 ms)).ne'
    ext1
    case updateIntervalMs =>
      refine Subtype.ext ?_
      show max 250 (orElse 2000 (numberItem js (save js ls (.updateIntervalMs ms))
        "updateIntervalMs")) = max 250 ms
      rw [hnumber]
      show max 250 (if max 250 ms = 0 then 2000 else max 250 ms) = max 250 ms
      rw [if_neg hne, max_eq_right (le_max_left 250 ms)]
    all_goals simp [load, save, Preferences.set, Function.update, numberItem, loadCacheTtl]
  | ncduCacheTtlSec sec =>
    ext1
    case ncduCacheTtlSec => exact loadCacheTtl_save h.1 h.2
    all_goals simp [load, save, Preferences.set, Function.update, numberItem]

end Saved

/-! ## The tabs -/

/-- The storage, with the preferences of the tabs in the order in which these were opened. -/
structure Browser where
  storage : LocalStorage
  tabs : List Preferences := []

inductive BrowserAction where
  | openTab
  | set (i : Nat) (setting : Setting)

def Browser.step (js : Js.Numbers) (b : Browser) : BrowserAction → Option Browser
  | .openTab => some { b with tabs := b.tabs ++ [load js b.storage] }
  | .set i setting =>
    match b.tabs[i]? with
    | none => none
    | some p => some { storage := save js b.storage setting, tabs := b.tabs.set i (p.set setting) }

namespace BrowserAction

def opens : BrowserAction → Bool
  | openTab => true
  | set _ _ => false

def setting? : BrowserAction → Option Setting
  | openTab => none
  | set _ setting => some setting

/-- The setting, if it is made in this tab. -/
def settingOf? (i : Nat) : BrowserAction → Option Setting
  | openTab => none
  | set j setting => if j = i then some setting else none

end BrowserAction

section Tabs

variable {js : Js.Numbers}

theorem step_set_some {b b' : Browser} {i : Nat} {setting : Setting}
    (h : b.step js (.set i setting) = some b') :
    ∃ p, b.tabs[i]? = some p ∧ b'.storage = save js b.storage setting ∧
      b'.tabs = b.tabs.set i (p.set setting) := by
  simp only [Browser.step] at h
  split at h
  · cases h
  · rename_i p hp
    cases h
    exact ⟨p, hp, rfl, rfl⟩

theorem load_run {b b' : Browser} {es : List BrowserAction}
    (hkept : ∀ setting ∈ es.filterMap BrowserAction.setting?, setting.Kept)
    (h : Lts.run (Browser.step js) b es = some b') :
    load js b'.storage =
      (es.filterMap BrowserAction.setting?).foldl Preferences.set (load js b.storage) := by
  induction es generalizing b with
  | nil =>
    cases h
    rfl
  | cons e es ih =>
    obtain ⟨c, hc, hrun⟩ := Lts.run_cons_some h
    cases e with
    | openTab =>
      cases hc
      rw [ih hkept hrun]
      rfl
    | set i setting =>
      obtain ⟨p, -, hstorage, -⟩ := step_set_some hc
      have hfirst := hkept setting List.mem_cons_self
      rw [ih (fun x hx => hkept x (List.mem_cons_of_mem _ hx)) hrun, hstorage, load_save _ hfirst]
      rfl

theorem tabs_length {b b' : Browser} {es : List BrowserAction}
    (h : Lts.run (Browser.step js) b es = some b') :
    b'.tabs.length = b.tabs.length + es.countP BrowserAction.opens := by
  induction es generalizing b with
  | nil =>
    cases h
    rfl
  | cons e es ih =>
    obtain ⟨c, hc, hrun⟩ := Lts.run_cons_some h
    rw [ih hrun]
    cases e with
    | openTab =>
      cases hc
      rw [List.countP_cons_of_pos rfl, List.length_append, List.length_singleton]
      omega
    | set i setting =>
      obtain ⟨p, -, -, htabs⟩ := step_set_some hc
      rw [htabs, List.length_set, List.countP_cons_of_neg (by simp [BrowserAction.opens])]

/-- A tab follows its own settings. -/
theorem tab_run {b b' : Browser} {es : List BrowserAction} {i : Nat} {p : Preferences}
    (hp : b.tabs[i]? = some p) (h : Lts.run (Browser.step js) b es = some b') :
    b'.tabs[i]? =
      some ((es.filterMap (BrowserAction.settingOf? i)).foldl Preferences.set p) := by
  induction es generalizing b p with
  | nil =>
    cases h
    exact hp
  | cons e es ih =>
    obtain ⟨c, hc, hrun⟩ := Lts.run_cons_some h
    have hlt : i < b.tabs.length := (List.getElem?_eq_some_iff.1 hp).1
    cases e with
    | openTab =>
      cases hc
      exact ih (by rw [List.getElem?_append_left hlt, hp]) hrun
    | set j setting =>
      obtain ⟨q, hq, -, htabs⟩ := step_set_some hc
      by_cases hji : j = i
      · subst hji
        rw [hp] at hq
        cases hq
        have hown : BrowserAction.settingOf? j (.set j setting) = some setting := if_pos rfl
        rw [List.filterMap_cons_some hown, List.foldl_cons]
        exact ih (by rw [htabs, List.getElem?_set_self hlt]) hrun
      · have hother : BrowserAction.settingOf? i (.set j setting) = none := if_neg hji
        rw [List.filterMap_cons_none hother]
        exact ih (by rw [htabs, List.getElem?_set_ne hji, hp]) hrun

/-- **The preferences are kept.** After every run the storage gives a new tab the settings that were
made in all tabs, in their order, over what it held at first. A tab has those made before it was
opened, in whatever tab, and after that its own. -/
theorem preferences_kept {ls : LocalStorage} {es : List BrowserAction} {b : Browser}
    (hkept : ∀ setting ∈ es.filterMap BrowserAction.setting?, setting.Kept)
    (h : Lts.run (Browser.step js) { storage := ls } es = some b) :
    load js b.storage = (es.filterMap BrowserAction.setting?).foldl Preferences.set (load js ls) ∧
      ∀ before after, es = before ++ .openTab :: after →
        b.tabs[before.countP BrowserAction.opens]? =
          some ((after.filterMap (BrowserAction.settingOf?
            (before.countP BrowserAction.opens))).foldl Preferences.set
              ((before.filterMap BrowserAction.setting?).foldl Preferences.set (load js ls))) := by
  refine ⟨load_run hkept h, fun before after hes => ?_⟩
  subst hes
  obtain ⟨c, d, hbefore, hopen, hafter⟩ := Lts.run_middle_some h
  have hload := load_run (fun setting hsetting => hkept setting (by
    rw [List.filterMap_append]
    exact List.mem_append_left _ hsetting)) hbefore
  have hlen := tabs_length hbefore
  rw [List.length_nil, Nat.zero_add] at hlen
  cases hopen
  refine tab_run ?_ hafter
  show (c.tabs ++ [load js c.storage])[before.countP BrowserAction.opens]? = _
  rw [← hlen, List.getElem?_concat_length, hload]

end Tabs

def newBrowser : Browser where
  storage := fun _ => none

/-- The second tab has the theme of the first one, but not its font size. -/
def twoTabs : List BrowserAction :=
  [.openTab, .set 0 (.theme "light"), .openTab, .set 1 (.updateIntervalMs 100),
    .set 0 (.fontSize 16)]

def usedBrowser : Browser :=
  (Lts.run (Browser.step Js.exactNumbers) newBrowser twoTabs).getD newBrowser

theorem run_twoTabs :
    Lts.run (Browser.step Js.exactNumbers) newBrowser twoTabs = some usedBrowser := rfl

theorem preferences_kept_twoTabs :
    load Js.exactNumbers usedBrowser.storage =
        (twoTabs.filterMap BrowserAction.setting?).foldl Preferences.set
          (load Js.exactNumbers fun _ => none) ∧
      ∀ before after, twoTabs = before ++ .openTab :: after →
        usedBrowser.tabs[before.countP BrowserAction.opens]? =
          some ((after.filterMap (BrowserAction.settingOf?
            (before.countP BrowserAction.opens))).foldl Preferences.set
              ((before.filterMap BrowserAction.setting?).foldl Preferences.set
                (load Js.exactNumbers fun _ => none))) := by
  refine preferences_kept ?_ run_twoTabs
  intro setting hsetting
  have hcases : setting = .theme "light" ∨ setting = .updateIntervalMs 100 ∨
      setting = .fontSize 16 := by
    simpa [twoTabs, BrowserAction.setting?, eq_comm] using hsetting
  rcases hcases with rfl | rfl | rfl
  · trivial
  · exact Js.isDouble_int (n := 100) (by decide)
  · exact ⟨Js.isDouble_int (n := 16) (by decide), by norm_num⟩

end QuickVps.Frontend
