import QuickVps.Frontend.AlertForm
import QuickVps.Js.NumberText
import QuickVps.Lib.Decode

/-!
# Typed retry delays

The input for the retry delays is split at its commas, and every part is converted to a number. A
blank part is converted to 0, so it becomes a delay. The inputs for e-mail addresses and chats leave
blank parts out.

* `typedDelays` — the delays of the parts that are not blank,
* `adds_blank_delays` — a doubled comma adds the delay 0,
* `normalizeRetryDelays_eq_iff` — exactly the texts without blank parts are read as they should be.
-/

namespace QuickVps.Frontend

/-- The delay that a text stands for, if it is a number that is not negative. -/
def delayOf (text : String) : Option Int :=
  ((Js.toNumber text).filter fun n => 0 ≤ n).map Js.round

/-- The delays of the parts that are not blank, or the default. -/
def typedDelays (raw : String) : List Int :=
  let delays := (parseCommaList raw).filterMap delayOf
  if delays = [] then [1, 5, 15] else delays

/-- A blank text is converted to 0. -/
theorem delayOf_empty : delayOf "" = some 0 := by
  have hround : Js.round 0 = 0 := by simpa using Js.round_int 0
  rw [delayOf, Js.toNumber_empty, Option.filter_some, if_pos (by decide), Option.map_some, hround]

section Read

variable {js : Js.Numbers}

/-- Every part is read, whether blank or not. -/
theorem normalizeRetryDelays_eq (hjs : js.number = Js.toNumber) (raw : String) :
    normalizeRetryDelays js raw =
      let delays := ((Js.split raw ',').map Js.trim).filterMap delayOf
      if delays = [] then [1, 5, 15] else delays := by
  have hdelays : (((Js.split raw ',').filterMap fun item => js.number (Js.trim item)).filter
      fun n => 0 ≤ n).map Js.round = ((Js.split raw ',').map Js.trim).filterMap delayOf := by
    rw [hjs, List.filterMap_map, ← List.filterMap_eq_filter, List.filterMap_filterMap,
      List.map_filterMap]
    refine List.filterMap_congr fun item _ => ?_
    rw [Function.comp_apply, delayOf, ← Option.bind_guard]
  unfold normalizeRetryDelays
  rw [hdelays]

/-- The list of the parts is read as it should be exactly if no part is blank. -/
theorem filterMap_delayOf_iff (texts : List String) :
    texts.filterMap delayOf = (texts.filter fun text => text ≠ "").filterMap delayOf ↔
      ∀ text ∈ texts, text ≠ "" := by
  have hwant : (texts.filter fun text => text ≠ "").filterMap delayOf =
      texts.filterMap fun text => if text ≠ "" then delayOf text else none := by
    rw [← List.filterMap_eq_filter, List.filterMap_filterMap]
    refine List.filterMap_congr fun text _ => ?_
    by_cases htext : text = "" <;> simp [htext]
  have hread : ∀ text ∈ texts, (if text ≠ "" then delayOf text else none).isSome →
      (delayOf text).isSome := by
    intro text _ hsome
    split at hsome
    next => exact hsome
    next => cases hsome
  rw [hwant, Decode.filterMap_eq_iff hread]
  refine forall_congr' fun text => forall_congr' fun _ => ?_
  by_cases htext : text = ""
  · simp [htext, delayOf_empty]
  · simp [htext]

/-- With the default, too: a list with a blank part is not it, as its delays are 0 if the other
parts have none. -/
theorem withDefault_iff (texts : List String) :
    ((let delays := texts.filterMap delayOf
      if delays = [] then [1, 5, 15] else delays) =
      let delays := (texts.filter fun text => text ≠ "").filterMap delayOf
      if delays = [] then [1, 5, 15] else delays) ↔ ∀ text ∈ texts, text ≠ "" := by
  rw [← filterMap_delayOf_iff]
  refine ⟨fun heq => ?_, fun heq => by rw [heq]⟩
  simp only at heq
  by_cases hgot : texts.filterMap delayOf = []
  · -- Nothing is read of all parts, and so of some.
    rw [hgot]
    refine (List.filterMap_eq_nil_iff.2 fun text htext => ?_).symm
    exact List.filterMap_eq_nil_iff.1 hgot text (List.mem_of_mem_filter htext)
  · rw [if_neg hgot] at heq
    by_cases hwant : (texts.filter fun text => text ≠ "").filterMap delayOf = []
    · -- Only blank parts are read, so 1 is not.
      rw [if_pos hwant] at heq
      have hone : (1 : Int) ∈ texts.filterMap delayOf := heq ▸ List.mem_cons_self
      obtain ⟨text, htext, hdelay⟩ := List.mem_filterMap.1 hone
      by_cases hblank : text = ""
      · rw [hblank, delayOf_empty] at hdelay
        cases hdelay
      · have hmem : text ∈ texts.filter fun text => text ≠ "" :=
          List.mem_filter.2 ⟨htext, decide_eq_true hblank⟩
        rw [List.filterMap_eq_nil_iff.1 hwant text hmem] at hdelay
        cases hdelay
    · rwa [if_neg hwant] at heq

end Read

/-! ## The gap -/

/-- **A doubled comma adds a delay.** -/
theorem adds_blank_delays :
    ¬ ∀ raw : String, normalizeRetryDelays Js.decimalNumbers raw = typedDelays raw := by
  intro hall
  have hdoubled := hall "1,,5"
  rw [normalizeRetryDelays_eq rfl] at hdoubled
  have hblank : ∀ text ∈ (Js.split "1,,5" ',').map Js.trim, text ≠ "" :=
    (withDefault_iff ((Js.split "1,,5" ',').map Js.trim)).1 hdoubled
  exact hblank "" (by decide) rfl

/-! ## The exact condition -/

/-- **The typed delays are kept, and nothing else is, exactly when no part is blank.** -/
theorem normalizeRetryDelays_eq_iff (js : Js.Numbers) (hjs : js.number = Js.toNumber)
    (raw : String) :
    normalizeRetryDelays js raw = typedDelays raw ↔
      ∀ part ∈ Js.split raw ',', Js.trim part ≠ "" := by
  rw [normalizeRetryDelays_eq hjs]
  refine (withDefault_iff ((Js.split raw ',').map Js.trim)).trans ?_
  rw [List.forall_mem_map]

theorem normalizeRetryDelays_decimal :
    normalizeRetryDelays Js.decimalNumbers "1,,5" = typedDelays "1,,5" ↔
      ∀ part ∈ Js.split "1,,5" ',', Js.trim part ≠ "" :=
  normalizeRetryDelays_eq_iff Js.decimalNumbers rfl "1,,5"

end QuickVps.Frontend
