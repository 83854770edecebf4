import QuickVps.Go.Json
import QuickVps.Go.Strings

/-!
# JSON texts

The text of a JSON value: what `json.Marshal` writes and `json.Unmarshal` reads.

* `JsonText` — the two directions, and `JsonText.RoundTrips`, what is relied on: null and slices of
  texts and of integers are read back.
* `plainJsonText` — one that escapes only quotes and backslashes, for runs of the model.
-/

namespace Go

/-- `marshal` fails for a value that has no text, and `unmarshal` for a text that is no value. -/
structure JsonText where
  marshal : Json → Option String
  unmarshal : String → Option Json

namespace JsonText

def strings (xs : List String) : Json := .arr (xs.map .str)

def ints (xs : List Int) : Json := .arr (xs.map .int)

/-- Null, and slices of texts and of `int64`s, are read as they were written. -/
structure RoundTrips (json : JsonText) : Prop where
  null : (json.marshal .null).bind json.unmarshal = some .null
  strings (xs : List String) :
    (json.marshal (strings xs)).bind json.unmarshal = some (strings xs)
  ints (xs : List Int) (hxs : ∀ x ∈ xs, minInt64 ≤ x ∧ x ≤ maxInt64) :
    (json.marshal (ints xs)).bind json.unmarshal = some (ints xs)
  /-- The empty text is no value. -/
  empty : json.unmarshal "" = none

end JsonText

/-! ## Plain texts -/

namespace PlainJson

def quoteChar (c : Char) : List Char := if c = '"' ∨ c = '\\' then ['\\', c] else [c]

/-- The characters of a text up to the closing quote, and what is after it. -/
def unquote : List Char → Option (List Char × List Char)
  | [] => none
  | '"' :: rest => some ([], rest)
  | '\\' :: c :: rest => (unquote rest).map fun r => (c :: r.1, r.2)
  | c :: rest => (unquote rest).map fun r => (c :: r.1, r.2)

def item : Json → Option (List Char)
  | .str s => some ('"' :: s.toList.flatMap quoteChar ++ ['"'])
  | .int n => some (itoa n)
  | _ => none

def isNumeral (c : Char) : Bool := c.isDigit || c = '-'

def readItem : List Char → Option (Json × List Char)
  | '"' :: rest => (unquote rest).map fun r => (.str (String.ofList r.1), r.2)
  | cs => (atoi (cs.takeWhile isNumeral)).map fun n => (.int n, cs.dropWhile isNumeral)

/-- The texts with commas between them and a bracket at the end. -/
def close : List (List Char) → List Char
  | [] => [']']
  | [x] => x ++ [']']
  | x :: y :: xs => x ++ ',' :: close (y :: xs)

def readItems : Nat → List Char → Option (List Json)
  | 0, _ => none
  | fuel + 1, cs =>
    match readItem cs with
    | some (v, [']']) => some [v]
    | some (v, ',' :: rest) => (readItems fuel rest).map fun vs => v :: vs
    | _ => none

def marshal : Json → Option String
  | .null => some "null"
  | .arr items => (items.mapM item).map fun xs => String.ofList ('[' :: close xs)
  | _ => none

def unmarshal (s : String) : Option Json :=
  match s.toList with
  | ['n', 'u', 'l', 'l'] => some .null
  | ['[', ']'] => some (.arr [])
  | '[' :: rest => (readItems rest.length rest).map .arr
  | _ => none

end PlainJson

/-- Texts with no other escapes than those of quotes and backslashes, for runs of the model. -/
def plainJsonText : JsonText := ⟨PlainJson.marshal, PlainJson.unmarshal⟩

namespace PlainJson

theorem unquote_quote (s rest : List Char) :
    unquote (s.flatMap quoteChar ++ '"' :: rest) = some (s, rest) := by
  induction s with
  | nil => rfl
  | cons c s ih =>
    rw [List.flatMap_cons, List.append_assoc]
    by_cases hc : c = '"' ∨ c = '\\'
    · rw [quoteChar, if_pos hc]
      show (unquote (s.flatMap quoteChar ++ '"' :: rest)).map _ = _
      rw [ih]
      rfl
    · rw [quoteChar, if_neg hc]
      obtain ⟨hquote, hslash⟩ := not_or.1 hc
      rw [List.singleton_append, unquote, ih]
      · rfl
      · exact fun h => hquote h
      · exact fun _ _ h => absurd h hslash

theorem atoi_itoa {n : Int} (hmin : minInt64 ≤ n) (hmax : n ≤ maxInt64) :
    atoi (itoa n) = some n := by
  rcases n with n | n
  · rw [Int.ofNat_eq_natCast, itoa_natCast]
    exact atoi_toDigits hmax
  · have hall : (Nat.toDigits 10 (n + 1)).all Char.isDigit = true :=
      List.all_eq_true.2 fun c hc => isDigit_of_mem_toDigits hc
    have hvalue : -((n + 1 : Nat) : Int) = Int.negSucc n := rfl
    rw [itoa, if_pos (Int.negSucc_lt_zero n), Int.natAbs_negSucc, atoi, parseDigits,
      if_neg (by simp [Nat.toDigits_ne_nil, hall])]
    simp only [Nat.ofDigitChars_ten_toDigits, if_true, hvalue]
    exact if_pos ⟨hmin, hmax⟩

theorem itoa_ne_nil (n : Int) : itoa n ≠ [] := by
  unfold itoa
  split_ifs
  · simp
  · exact Nat.toDigits_ne_nil

theorem isNumeral_of_mem_itoa {n : Int} {c : Char} (h : c ∈ itoa n) : isNumeral c = true := by
  unfold itoa at h
  unfold isNumeral
  split_ifs at h
  · rcases List.mem_cons.1 h with rfl | h
    · rfl
    · rw [isDigit_of_mem_toDigits h, Bool.true_or]
  · rw [isDigit_of_mem_toDigits h, Bool.true_or]

/-- An item that is followed by a comma or a bracket is read back. -/
def Readable (v : Json) (x : List Char) : Prop :=
  ∀ rest, readItem (x ++ ',' :: rest) = some (v, ',' :: rest) ∧
    readItem (x ++ [']']) = some (v, [']'])

theorem readable_str (s : String) :
    Readable (.str s) ('"' :: s.toList.flatMap quoteChar ++ ['"']) := by
  have read (rest : List Char) :
      readItem ('"' :: s.toList.flatMap quoteChar ++ ['"'] ++ rest) = some (.str s, rest) := by
    rw [List.append_assoc, List.singleton_append, List.cons_append, readItem, unquote_quote]
    simp
  exact fun rest => ⟨read _, read _⟩

theorem readable_int {n : Int} (hmin : minInt64 ≤ n) (hmax : n ≤ maxInt64) :
    Readable (.int n) (itoa n) := by
  have hall : ∀ c ∈ itoa n, isNumeral c = true := fun c hc => isNumeral_of_mem_itoa hc
  have read (c : Char) (rest : List Char) (hc : isNumeral c = false) :
      readItem (itoa n ++ c :: rest) = some (.int n, c :: rest) := by
    have htake : (itoa n ++ c :: rest).takeWhile isNumeral = itoa n := by
      rw [List.takeWhile_append_of_pos hall, List.takeWhile_cons_of_neg (by simp [hc]),
        List.append_nil]
    have hdrop : (itoa n ++ c :: rest).dropWhile isNumeral = c :: rest := by
      rw [List.dropWhile_append_of_pos hall, List.dropWhile_cons_of_neg (by simp [hc])]
    unfold readItem
    split
    next heq =>
      -- A numeral does not begin with a quote.
      rw [heq, List.takeWhile_cons_of_neg (by decide)] at htake
      exact absurd htake.symm (itoa_ne_nil n)
    next =>
      rw [htake, hdrop, atoi_itoa hmin hmax]
      rfl
  exact fun rest => ⟨read ',' rest rfl, read ']' [] rfl⟩

/-! ### Slices -/

section Slice

variable {α : Type*} {f : α → Json} {g : α → List Char}

theorem readItems_close {x : α} {xs : List α} (h : ∀ y ∈ x :: xs, Readable (f y) (g y))
    {fuel : Nat} (hfuel : xs.length < fuel) :
    readItems fuel (close ((x :: xs).map g)) = some ((x :: xs).map f) := by
  obtain ⟨fuel, rfl⟩ := Nat.exists_eq_add_of_lt (Nat.zero_lt_of_lt hfuel)
  rw [Nat.zero_add] at hfuel ⊢
  induction xs generalizing x fuel with
  | nil =>
    rw [List.map_singleton, close, readItems, ((h x List.mem_cons_self) []).2]
    rfl
  | cons y ys ih =>
    obtain ⟨fuel, rfl⟩ := Nat.exists_eq_add_of_lt (Nat.zero_lt_of_lt (Nat.lt_of_succ_lt_succ hfuel))
    rw [List.map_cons, List.map_cons, close, readItems, ((h x List.mem_cons_self) _).1]
    simp only [Nat.zero_add, List.length_cons] at hfuel ⊢
    rw [← List.map_cons, ih (fun z hz => h z (List.mem_cons_of_mem x hz)) fuel (by omega)]
    rfl

theorem length_lt_close (x : α) (xs : List α) :
    xs.length < (close ((x :: xs).map g)).length := by
  induction xs generalizing x with
  | nil => simp [close]
  | cons y ys ih =>
    have hrest := ih y
    rw [List.map_cons, List.map_cons, close, List.length_append, List.length_cons,
      List.length_cons, ← List.map_cons]
    omega

/-- A slice of readable items is read back. -/
theorem unmarshal_marshal (hitem : ∀ x, item (f x) = some (g x)) (xs : List α)
    (h : ∀ x ∈ xs, Readable (f x) (g x)) :
    (marshal (.arr (xs.map f))).bind unmarshal = some (.arr (xs.map f)) := by
  have hitems : (xs.map f).mapM item = some (xs.map g) := by
    clear h
    induction xs with
    | nil => rfl
    | cons x xs ih => simp [hitem, ih]
  rw [marshal, hitems]
  show unmarshal (String.ofList ('[' :: close (xs.map g))) = _
  rw [unmarshal, String.toList_ofList]
  cases xs with
  | nil => rfl
  | cons x xs =>
    have hread := readItems_close h (length_lt_close (g := g) x xs)
    split
    next heq => simp at heq
    next heq =>
      rw [(List.cons.inj heq).2] at hread
      cases hread
    next rest heq =>
      obtain rfl := (List.cons.inj heq).2
      rw [hread]
      rfl
    next hno => exact absurd rfl (hno _)

end Slice

end PlainJson

theorem roundTrips_plainJsonText : plainJsonText.RoundTrips where
  null := rfl
  strings xs :=
    PlainJson.unmarshal_marshal (fun _ => rfl) xs fun s _ => PlainJson.readable_str s
  ints xs hxs :=
    PlainJson.unmarshal_marshal (fun _ => rfl) xs fun x hx =>
      PlainJson.readable_int (hxs x hx).1 (hxs x hx).2
  empty := rfl

end Go
