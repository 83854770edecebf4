import QuickVps.Go.Strings

/-!
# JavaScript strings

`trim`, `join` and `split` of JavaScript strings. What `trim` counts as space differs from Go in two
characters: U+0085 is a space only there, and U+FEFF only here.

* `trim`, `join`, `split` — the functions;
* `split_join` — items without the separator are split as they were joined.
-/

namespace Js

/-- White space or a line terminator. -/
def isSpace (c : Char) : Bool :=
  let n := c.toNat
  (9 ≤ n && n ≤ 13) || n = 0x20 || n = 0xA0 || n = 0x1680 || (0x2000 ≤ n && n ≤ 0x200A) ||
    n = 0x2028 || n = 0x2029 || n = 0x202F || n = 0x205F || n = 0x3000 || n = 0xFEFF

def trimSpace (s : List Char) : List Char := (s.dropWhile isSpace).rdropWhile isSpace

/-- `String.prototype.trim`. -/
def trim (s : String) : String := String.ofList (trimSpace s.toList)

/-- `Array.prototype.join`. -/
def join (xs : List String) (sep : String) : String :=
  String.ofList (sep.toList.intercalate (xs.map String.toList))

/-- `String.prototype.split` at one character. -/
def split (s : String) (sep : Char) : List String := (s.toList.splitOn sep).map String.ofList

/-! ## Trimming -/

theorem toList_trim (s : String) : (trim s).toList = s.toList.strip isSpace :=
  String.toList_ofList

/-- A text that both trims together leave as it is, is left as it is by the first. -/
theorem trim_eq_of_goTrim {s : String} (h : Go.trim (trim s) = s) : trim s = s := by
  have hle : s.toList.length ≤ (trim s).toList.length := by
    conv_lhs => rw [← h, Go.toList_trim]
    exact (List.strip_infix Go.isSpace _).length_le
  have hinner : (trim s).toList <:+: s.toList := by
    rw [toList_trim]
    exact List.strip_infix isSpace _
  exact String.toList_injective (hinner.eq_of_length_le hle)

theorem trim_space (s : String) : trim (" " ++ s) = trim s := by
  have hlist : (" " ++ s).toList = ' ' :: s.toList := by simp
  rw [trim, trim, hlist]
  exact congrArg String.ofList (List.strip_cons_of_pos isSpace (by decide) s.toList)

/-! ## Items -/

theorem not_mem_of_mem_splitOn {s item : List Char} {sep : Char} (h : item ∈ s.splitOn sep) :
    sep ∉ item := by
  induction s generalizing item with
  | nil =>
    rw [List.splitOn_nil, List.mem_singleton] at h
    simp [h]
  | cons c s ih =>
    rw [List.splitOn_cons_eq_if_modifyHead] at h
    split_ifs at h with hc
    · rcases List.mem_cons.1 h with rfl | h
      · exact List.not_mem_nil
      · exact ih h
    · cases hsplit : s.splitOn sep with
      | nil => exact absurd hsplit (List.splitOn_ne_nil sep s)
      | cons first rest =>
        rw [hsplit] at h ih
        rcases List.mem_cons.1 h with rfl | h
        · rw [List.mem_cons, not_or]
          exact ⟨fun heq => hc (by simp [heq]), ih List.mem_cons_self⟩
        · exact ih (List.mem_cons_of_mem _ h)

theorem not_mem_of_mem_split {s item : String} {sep : Char} (h : item ∈ split s sep) :
    sep ∉ item.toList := by
  obtain ⟨cs, hcs, rfl⟩ := List.mem_map.1 h
  rw [String.toList_ofList]
  exact not_mem_of_mem_splitOn hcs

theorem toList_join_cons_cons (x y : String) (ys : List String) (sep : String) :
    (join (x :: y :: ys) sep).toList = x.toList ++ (sep.toList ++ (join (y :: ys) sep).toList) := by
  simp [join]

/-- Items joined with commas and spaces, split at the commas: all but the first begin with a
space. -/
theorem split_join {x : String} {xs : List String} (h : ∀ y ∈ x :: xs, ',' ∉ y.toList) :
    split (join (x :: xs) ", ") ',' = x :: xs.map (" " ++ ·) := by
  induction xs generalizing x with
  | nil =>
    have hx : ',' ∉ x.toList := h x List.mem_cons_self
    simp [split, join, List.splitOn_eq_singleton hx]
  | cons y ys ih =>
    have hx : ',' ∉ x.toList := h x List.mem_cons_self
    have hspace : (join ((" " ++ y) :: ys) ", ").toList = ' ' :: (join (y :: ys) ", ").toList := by
      cases ys with
      | nil => simp [join]
      | cons z zs => simp [toList_join_cons_cons]
    have hlist : (join (x :: y :: ys) ", ").toList =
        x.toList ++ ',' :: (join ((" " ++ y) :: ys) ", ").toList := by
      rw [toList_join_cons_cons, hspace]
      simp
    have hrest := ih (x := " " ++ y) (fun z hz => by
      rcases List.mem_cons.1 hz with rfl | hz
      · simpa using h y (by simp)
      · exact h z (by simp [hz]))
    rw [split, hlist, List.splitOn_append_cons_self_of_not_mem hx, List.map_cons,
      String.ofList_toList, List.map_cons, ← hrest, split]

/-- Items without a comma, joined with commas and split at them. -/
theorem split_join_comma {xs : List String} (hne : xs ≠ []) (h : ∀ x ∈ xs, ',' ∉ x.toList) :
    split (join xs ",") ',' = xs := by
  have hlist : (join xs ",").toList = [','].intercalate (xs.map String.toList) := by
    simp [join]
  have hitems : ∀ cs ∈ xs.map String.toList, ',' ∉ cs := by
    intro cs hcs
    obtain ⟨x, hx, rfl⟩ := List.mem_map.1 hcs
    exact h x hx
  rw [split, hlist, List.splitOn_intercalate ',' hitems (by simpa using hne), List.map_map]
  simp

end Js
