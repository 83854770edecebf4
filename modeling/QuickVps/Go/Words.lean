import QuickVps.Go.Strings
import Mathlib.Data.List.Induction

/-!
# The words of a line

What the parsers of command output are made of: `strings.Fields`, the case of letters, and the
number that `strconv.Atoi` returns beside an error that the caller drops.

* `fields_intercalate`, `fields_columns` — words that are printed with blanks between them, one or
  more, are read back;
* `toUpperText_toUpperText`, `toUpperText_toLowerText` — the case of an upper-case text is kept,
  and lower case is forgotten by upper case;
* `atoiValue_toDigits` — a printed number is read back.
-/

namespace Go

/-! ## Words -/

/-- `strings.Fields`. -/
def fields (s : List Char) : List (List Char) :=
  (s.splitOnP isSpace).filter fun word => word ≠ []

/-- A text that is one field. -/
def IsWord (s : List Char) : Prop := s ≠ [] ∧ ∀ c ∈ s, isSpace c = false

instance (s : List Char) : Decidable (IsWord s) :=
  decidable_of_iff (s ≠ [] ∧ s.all (fun c => !isSpace c) = true) (by simp [IsWord])

theorem IsWord.append {a b : List Char} (ha : IsWord a) (hb : ∀ c ∈ b, isSpace c = false) :
    IsWord (a ++ b) := by
  refine ⟨List.append_ne_nil_of_left_ne_nil ha.1 b, fun c hc => ?_⟩
  rcases List.mem_append.1 hc with hc | hc
  · exact ha.2 c hc
  · exact hb c hc

theorem IsWord.concat {a : List Char} (ha : IsWord a) {c : Char} (hc : isSpace c = false) :
    IsWord (a ++ [c]) :=
  ha.append fun d hd => by rwa [List.mem_singleton.1 hd]

/-- Two words with a character between them that is no space are one word. -/
theorem IsWord.append_cons {a b : List Char} (ha : IsWord a) {c : Char}
    (hc : isSpace c = false) (hb : IsWord b) : IsWord (a ++ c :: b) := by
  refine ha.append fun d hd => ?_
  rcases List.mem_cons.1 hd with rfl | hd
  · exact hc
  · exact hb.2 d hd

theorem isWord_toDigits (n : Nat) : IsWord (Nat.toDigits 10 n) :=
  ⟨Nat.toDigits_ne_nil, fun _ hc => isSpace_of_isDigit (isDigit_of_mem_toDigits hc)⟩

/-- A space separates what is before it from what is after it. -/
theorem fields_append_cons {c : Char} (hc : isSpace c = true) (a b : List Char) :
    fields (a ++ c :: b) = fields a ++ fields b := by
  rw [fields, List.splitOnP_append_cons a b hc, List.filter_append]
  rfl

theorem fields_space {c : Char} (hc : isSpace c = true) (s : List Char) :
    fields (c :: s) = fields s :=
  fields_append_cons hc [] s

theorem fields_spaces {gap : List Char} (hgap : ∀ c ∈ gap, isSpace c = true) (s : List Char) :
    fields (gap ++ s) = fields s := by
  induction gap with
  | nil => rfl
  | cons c gap ih =>
    rw [List.cons_append, fields_space (hgap c List.mem_cons_self)]
    exact ih fun d hd => hgap d (List.mem_cons_of_mem _ hd)

theorem fields_of_isSpace {s : List Char} (hs : ∀ c ∈ s, isSpace c = true) : fields s = [] := by
  have h := fields_spaces hs []
  rw [List.append_nil] at h
  exact h

/-- Spaces at the end separate no more words. -/
theorem fields_append_spaces {gap : List Char} (hgap : ∀ c ∈ gap, isSpace c = true)
    (s : List Char) : fields (s ++ gap) = fields s := by
  cases gap with
  | nil => rw [List.append_nil]
  | cons c gap =>
    have hrest : fields gap = [] :=
      fields_of_isSpace fun d hd => hgap d (List.mem_cons_of_mem _ hd)
    rw [fields_append_cons (hgap c List.mem_cons_self), hrest, List.append_nil]

/-- Trimming takes spaces off both ends. -/
theorem exists_trimSpace (s : List Char) : ∃ front back : List Char,
    (∀ c ∈ front, isSpace c = true) ∧ (∀ c ∈ back, isSpace c = true) ∧
      s = front ++ trimSpace s ++ back := by
  refine ⟨s.takeWhile isSpace, (s.dropWhile isSpace).rtakeWhile isSpace, fun c hc => ?_,
    fun c hc => ?_, ?_⟩
  · exact List.mem_takeWhile_imp hc
  · exact List.mem_rtakeWhile_imp hc
  · rw [trimSpace, List.append_assoc, List.rdropWhile_append_rtakeWhile,
      List.takeWhile_append_dropWhile]

theorem fields_trimSpace (s : List Char) : fields (trimSpace s) = fields s := by
  obtain ⟨front, back, hfront, hback, hs⟩ := exists_trimSpace s
  conv_rhs => rw [hs]
  rw [fields_append_spaces hback, fields_spaces hfront]

/-- A filter that keeps spaces works on each word, and may take it away. -/
theorem fields_filter {p : Char → Bool} (hp : ∀ c, isSpace c = true → p c = true)
    (s : List Char) :
    fields (s.filter p) = ((fields s).map (List.filter p)).filter fun word => word ≠ [] := by
  have hsplit : (s.filter p).splitOnP isSpace = (s.splitOnP isSpace).map (List.filter p) := by
    induction s with
    | nil => rfl
    | cons c s ih =>
      rw [List.splitOnP_cons_eq_if_modifyHead]
      cases hc : isSpace c with
      | true =>
        rw [List.filter_cons_of_pos (hp c hc), List.splitOnP_cons_eq_if_modifyHead, hc, ih]
        rfl
      | false =>
        obtain ⟨word, words, hwords⟩ :=
          List.exists_cons_of_ne_nil (List.splitOnP_ne_nil isSpace s)
        rw [hwords] at ih ⊢
        cases hkeep : p c with
        | true =>
          rw [List.filter_cons_of_pos hkeep, List.splitOnP_cons_eq_if_modifyHead, hc, ih]
          simp [hkeep]
        | false =>
          rw [List.filter_cons_of_neg (by simp [hkeep]), ih]
          simp [hkeep]
  -- A word that is taken away was empty already, or is now.
  rw [fields, fields, hsplit]
  generalize s.splitOnP isSpace = words
  induction words with
  | nil => rfl
  | cons word words ih =>
    by_cases hword : word = []
    · simpa [hword] using ih
    · rw [List.map_cons, List.filter_cons_of_pos (p := fun word => decide (word ≠ []))
        (a := word) (by simpa using hword), List.map_cons]
      by_cases hkept : word.filter p = []
      · simpa [hkept] using ih
      · simpa [hkept] using ih

theorem trimSpace_of_isSpace {s : List Char} (hs : ∀ c ∈ s, isSpace c = true) :
    trimSpace s = [] := by
  rw [trimSpace, List.dropWhile_eq_nil_iff.2 hs]
  rfl

theorem fields_word {word : List Char} (hword : IsWord word) : fields word = [word] := by
  rw [fields, List.splitOnP_eq_singleton hword.2,
    List.filter_cons_of_pos (by simpa using hword.1), List.filter_nil]

theorem fields_cons {word : List Char} (hword : IsWord word) (rest : List Char) :
    fields (word ++ ' ' :: rest) = word :: fields rest := by
  rw [fields_append_cons (by decide), fields_word hword]
  rfl

theorem intercalate_cons_cons (word next : List Char) (rest : List (List Char)) :
    [' '].intercalate (word :: next :: rest) =
      word ++ ' ' :: [' '].intercalate (next :: rest) := by
  simp [List.intercalate]

theorem fields_intercalate {words : List (List Char)} (hwords : ∀ word ∈ words, IsWord word) :
    fields ([' '].intercalate words) = words := by
  induction words with
  | nil => rfl
  | cons word rest ih =>
    have hword : IsWord word := hwords word List.mem_cons_self
    have hrest : ∀ w ∈ rest, IsWord w := fun w hw => hwords w (List.mem_cons_of_mem _ hw)
    cases rest with
    | nil => simpa using fields_word hword
    | cons next rest =>
      rw [intercalate_cons_cons, fields_cons hword, ih hrest]

theorem not_mem_intercalate {c : Char} (hc : c ≠ ' ') {words : List (List Char)}
    (hwords : ∀ word ∈ words, c ∉ word) : c ∉ [' '].intercalate words := by
  induction words with
  | nil => exact List.not_mem_nil
  | cons word rest ih =>
    have hword : c ∉ word := hwords word List.mem_cons_self
    have hrest := ih fun w hw => hwords w (List.mem_cons_of_mem _ hw)
    cases rest with
    | nil => simpa using hword
    | cons next rest =>
      rw [intercalate_cons_cons, List.mem_append, List.mem_cons]
      rintro (h | h | h)
      · exact hword h
      · exact hc h
      · exact hrest h

theorem intercalate_ne_nil {word : List Char} (hword : IsWord word) (rest : List (List Char)) :
    [' '].intercalate (word :: rest) ≠ [] := by
  cases rest with
  | nil => simpa using hword.1
  | cons next rest => simp

/-- Words with blanks between them begin and end with no blank. -/
theorem trimSpace_intercalate {words : List (List Char)} (hwords : ∀ word ∈ words, IsWord word) :
    trimSpace ([' '].intercalate words) = [' '].intercalate words := by
  refine trimSpace_eq (fun hs => ?_) fun hs => ?_
  · cases words with
    | nil => exact absurd rfl hs
    | cons word rest =>
      have hword : IsWord word := hwords word List.mem_cons_self
      have hhead : ([' '].intercalate (word :: rest)).head hs = word.head hword.1 := by
        cases rest with
        | nil => simp
        | cons next rest => simp [List.head_append_of_ne_nil hword.1]
      rw [hhead]
      exact hword.2 _ (List.head_mem _)
  · induction words with
    | nil => exact absurd rfl hs
    | cons word rest ih =>
      cases rest with
      | nil =>
        have hword : IsWord word := hwords word List.mem_cons_self
        simpa using hword.2 _ (List.getLast_mem hword.1)
      | cons next rest =>
        have hrest : ∀ w ∈ next :: rest, IsWord w :=
          fun w hw => hwords w (List.mem_cons_of_mem _ hw)
        have hne := intercalate_ne_nil (hrest next List.mem_cons_self) rest
        have hlast := ih hrest hne
        simpa [List.getLast_cons hne] using hlast

/-- A text up to its first space, and from there. -/
theorem exists_word_append (s : List Char) : ∃ word rest : List Char,
    s = word ++ rest ∧ (∀ c ∈ word, isSpace c = false) ∧
      (rest = [] ∨ ∃ c tail, rest = c :: tail ∧ isSpace c = true) := by
  induction s with
  | nil => exact ⟨[], [], rfl, fun c hc => absurd hc List.not_mem_nil, .inl rfl⟩
  | cons c s ih =>
    cases hc : isSpace c with
    | true => exact ⟨[], c :: s, rfl, fun d hd => absurd hd List.not_mem_nil, .inr ⟨c, s, rfl, hc⟩⟩
    | false =>
      obtain ⟨word, rest, rfl, hword, hrest⟩ := ih
      refine ⟨c :: word, rest, rfl, fun d hd => ?_, hrest⟩
      rcases List.mem_cons.1 hd with rfl | hd
      · exact hc
      · exact hword d hd

/-- A trimmed text begins with its first field. -/
theorem prefix_of_fields {s word : List Char} {rest : List (List Char)}
    (h : fields s = word :: rest) : word <+: trimSpace s := by
  rw [← fields_trimSpace] at h
  have hhead := ((List.strip_eq_self_iff isSpace).1 (List.strip_strip isSpace s)).1
  change ∀ hs : trimSpace s ≠ [], isSpace ((trimSpace s).head hs) = false at hhead
  generalize trimSpace s = t at h hhead
  obtain ⟨front, back, rfl, hfront, hback⟩ := exists_word_append t
  cases front with
  | nil =>
    rcases hback with rfl | ⟨c, tail, rfl, hc⟩
    · cases h
    · rw [List.nil_append] at hhead
      exact absurd (hhead (List.cons_ne_nil _ _)) (by simp [hc])
  | cons d front =>
    have hword : fields (d :: front) = [d :: front] :=
      fields_word ⟨List.cons_ne_nil _ _, hfront⟩
    rcases hback with rfl | ⟨c, tail, rfl, hc⟩
    · rw [List.append_nil, hword] at h
      cases h
      exact List.prefix_append _ _
    · rw [fields_append_cons hc, hword] at h
      cases h
      exact List.prefix_append _ _

/-- What follows the first field of a suffix are fields of the whole text. -/
theorem tail_fields_suffix {s t : List Char} (h : t <:+ s) : (fields t).tail <:+ fields s := by
  obtain ⟨front, rfl⟩ := h
  obtain ⟨word, rest, rfl, hword, hrest⟩ := exists_word_append t
  have hfields : fields word = [] ∨ fields word = [word] := by
    cases word with
    | nil => exact .inl rfl
    | cons c word => exact .inr (fields_word ⟨List.cons_ne_nil _ _, hword⟩)
  rcases hrest with rfl | ⟨c, tail, rfl, hc⟩
  · rw [List.append_nil]
    rcases hfields with hnone | hone
    · rw [hnone]
      exact List.nil_suffix
    · rw [hone]
      exact List.nil_suffix
  · rw [← List.append_assoc, fields_append_cons hc, fields_append_cons hc]
    have hsuffix : fields tail <:+ fields (front ++ word) ++ fields tail := List.suffix_append _ _
    rcases hfields with hnone | hone
    · rw [hnone]
      exact (List.tail_suffix _).trans hsuffix
    · rw [hone]
      exact hsuffix

/-! ## Columns -/

/-- Words with one or more blanks between them, as programs align their columns. -/
def columns (word : List Char) (rest : List (Nat × List Char)) : List Char :=
  word ++ rest.flatMap fun (gap, next) => ' ' :: (List.replicate gap ' ' ++ next)

theorem columns_cons (word : List Char) (gap : Nat) (next : List Char)
    (rest : List (Nat × List Char)) :
    columns word ((gap, next) :: rest) =
      word ++ ' ' :: (List.replicate gap ' ' ++ columns next rest) := by
  simp [columns]

theorem isSpace_of_mem_replicate {gap : Nat} : ∀ c ∈ List.replicate gap ' ', isSpace c = true := by
  intro c hc
  rw [List.eq_of_mem_replicate hc]
  rfl

theorem fields_columns {word : List Char} {rest : List (Nat × List Char)} (hword : IsWord word)
    (hrest : ∀ next ∈ rest, IsWord next.2) :
    fields (columns word rest) = word :: rest.map Prod.snd := by
  induction rest generalizing word with
  | nil => simpa [columns] using fields_word hword
  | cons next rest ih =>
    have hnext : IsWord next.2 := hrest next List.mem_cons_self
    rw [columns_cons, fields_cons hword, fields_spaces isSpace_of_mem_replicate,
      ih hnext fun w hw => hrest w (List.mem_cons_of_mem _ hw)]
    rfl

theorem not_mem_columns {c : Char} (hc : c ≠ ' ') {word : List Char}
    {rest : List (Nat × List Char)} (hword : c ∉ word) (hrest : ∀ next ∈ rest, c ∉ next.2) :
    c ∉ columns word rest := by
  simp only [columns, List.mem_append, List.mem_flatMap, List.mem_cons, List.mem_replicate,
    not_or, not_exists, not_and]
  exact ⟨hword, fun next hnext => ⟨hc, fun _ => hc, hrest next hnext⟩⟩

theorem not_newline_of_isWord {word : List Char} (h : IsWord word) : '\n' ∉ word :=
  fun hmem => absurd (h.2 _ hmem) (by decide)

/-- A text between two words is not trimmed. -/
theorem trimSpace_of_ends {word last s : List Char} (hword : IsWord word) (hlast : IsWord last)
    (hfront : word <+: s) (hback : last <:+ s) : trimSpace s = s := by
  refine trimSpace_eq (fun hs => ?_) fun hs => ?_
  · rw [← hfront.head hword.1]
    exact hword.2 _ (List.head_mem _)
  · rw [← hback.getLast hlast.1]
    exact hlast.2 _ (List.getLast_mem _)

theorem exists_columns_last {word : List Char} {rest : List (Nat × List Char)}
    (hword : IsWord word) (hrest : ∀ next ∈ rest, IsWord next.2) :
    ∃ last, IsWord last ∧ last <:+ columns word rest := by
  induction rest generalizing word with
  | nil => exact ⟨word, hword, by simp [columns]⟩
  | cons next rest ih =>
    obtain ⟨last, hlast, hsuffix⟩ := ih (hrest next List.mem_cons_self)
      fun w hw => hrest w (List.mem_cons_of_mem _ hw)
    refine ⟨last, hlast, hsuffix.trans ?_⟩
    rw [columns_cons]
    exact ((List.suffix_append _ _).trans (List.suffix_cons _ _)).trans (List.suffix_append _ _)

theorem trimSpace_columns {word : List Char} {rest : List (Nat × List Char)} (hword : IsWord word)
    (hrest : ∀ next ∈ rest, IsWord next.2) : trimSpace (columns word rest) = columns word rest := by
  obtain ⟨last, hlast, hsuffix⟩ := exists_columns_last hword hrest
  exact trimSpace_of_ends hword hlast (List.prefix_append _ _) hsuffix

/-- A beginning between no spaces is not trimmed. -/
theorem prefix_trimSpace {a : List Char} (hne : a ≠ []) (hhead : isSpace (a.head hne) = false)
    (hlast : isSpace (a.getLast hne) = false) (b : List Char) : a <+: trimSpace (a ++ b) := by
  have hdrop : (a ++ b).dropWhile isSpace = a ++ b :=
    List.dropWhile_eq_self_of_head _ fun hs => by rwa [List.head_append_of_ne_nil hne]
  rw [trimSpace, hdrop]
  induction b using List.reverseRecOn with
  | nil =>
    have hself : (a ++ []).rdropWhile isSpace = a := by
      rw [List.append_nil, List.rdropWhile_eq_self_iff]
      exact fun _ => by simpa using hlast
    exact ⟨[], (List.append_nil a).trans hself.symm⟩
  | append_singleton b c ih =>
    have hshort : (a ++ b).dropWhile isSpace = a ++ b :=
      List.dropWhile_eq_self_of_head _ fun hs => by rwa [List.head_append_of_ne_nil hne]
    rw [← List.append_assoc]
    by_cases hc : isSpace c = true
    · rw [List.rdropWhile_concat_pos _ _ _ hc]
      exact ih hshort
    · rw [List.rdropWhile_concat_neg _ _ _ hc, List.append_assoc]
      exact List.prefix_append _ _

/-- A text without `c` begins what is cut at `c` exactly if it begins what is before it. -/
theorem prefix_append_cons_iff {c : Char} {start : List Char} (hc : c ∉ start) (a b : List Char) :
    start <+: a ++ c :: b ↔ start <+: a := by
  refine ⟨fun h => ?_, fun h => h.trans (List.prefix_append _ _)⟩
  rcases List.prefix_or_prefix_of_prefix h (List.prefix_append a (c :: b)) with hstart | ha
  · exact hstart
  · obtain ⟨t, rfl⟩ := ha
    cases t with
    | nil => simp
    | cons d t =>
      have htail : d :: t <+: c :: b := (List.prefix_append_right_inj a).1 h
      obtain ⟨rfl, -⟩ := List.cons_prefix_cons.1 htail
      simp at hc

/-! ## Cutting -/

/-- `strings.Index`. -/
def index (sub : List Char) : List Char → Option Nat
  | [] => if sub = [] then some 0 else none
  | c :: s => if sub.isPrefixOf (c :: s) then some 0 else (index sub s).map (· + 1)

/-- `strings.Contains`. -/
def containsText (s sub : List Char) : Bool := (index sub s).isSome

/-- `strings.SplitN` into two parts at most, at a separator of one character. -/
def splitN2 (sep : Char) : List Char → List (List Char)
  | [] => [[]]
  | c :: s => if c = sep then [[], s] else (splitN2 sep s).modifyHead (c :: ·)

theorem containsText_iff (s sub : List Char) : containsText s sub = true ↔ sub <:+: s := by
  induction s with
  | nil => simp [containsText, index, List.infix_nil]
  | cons c s ih =>
    rw [List.infix_cons_iff, ← ih]
    by_cases h : sub <+: c :: s <;> simp [containsText, index, h]

/-- A pattern is found where its first character is found first. -/
theorem index_append {c : Char} {a : List Char} (ha : c ∉ a) (sub b : List Char) :
    index (c :: sub) (a ++ (c :: sub ++ b)) = some a.length := by
  induction a with
  | nil => simp [index]
  | cons d a ih =>
    obtain ⟨hd, ha⟩ := not_or.1 (mt List.mem_cons.2 ha)
    have hrest := ih ha
    rw [List.cons_append] at hrest
    simp [index, hd, hrest]

theorem splitN2_ne_nil (sep : Char) (s : List Char) : splitN2 sep s ≠ [] := by
  induction s with
  | nil => exact List.cons_ne_nil _ _
  | cons c s ih =>
    rw [splitN2]
    split
    · exact List.cons_ne_nil _ _
    · rwa [Ne, List.modifyHead_eq_nil_iff]

theorem splitN2_append_cons {sep : Char} {a : List Char} (ha : sep ∉ a) (b : List Char) :
    splitN2 sep (a ++ sep :: b) = [a, b] := by
  induction a with
  | nil => simp [splitN2]
  | cons c a ih =>
    obtain ⟨hc, ha⟩ := not_or.1 (mt List.mem_cons.2 ha)
    rw [List.cons_append, splitN2, if_neg (Ne.symm hc), ih ha]
    rfl

/-- The first part is what is before the first separator. -/
theorem headD_splitN2 (sep : Char) (s : List Char) :
    (splitN2 sep s).headD [] = s.takeWhile fun c => c ≠ sep := by
  induction s with
  | nil => rfl
  | cons c s ih =>
    by_cases hc : c = sep
    · simp [splitN2, hc]
    · rw [splitN2, if_neg hc, List.takeWhile_cons_of_pos (by simpa using hc), ← ih]
      cases hs : splitN2 sep s with
      | nil => exact absurd hs (splitN2_ne_nil sep s)
      | cons part parts => rfl

theorem takeWhile_append_cons (sep : Char) (a b : List Char) :
    ((a ++ sep :: b).takeWhile fun c => c ≠ sep) = a.takeWhile fun c => c ≠ sep := by
  induction a with
  | nil => simp
  | cons c a ih =>
    by_cases hc : c = sep
    · simp [hc]
    · rw [List.cons_append, List.takeWhile_cons_of_pos (by simpa using hc),
        List.takeWhile_cons_of_pos (by simpa using hc), ih]

theorem takeWhile_eq_self_iff_not_mem {sep : Char} {s : List Char} :
    (s.takeWhile fun c => c ≠ sep) = s ↔ sep ∉ s := by
  rw [List.takeWhile_eq_self_iff]
  constructor
  · intro h hmem
    exact absurd (h sep hmem) (by simp)
  · intro h c hc
    refine decide_eq_true fun heq => h ?_
    rwa [← heq]

/-! ## The case of letters -/

/-- `unicode.ToUpper`, as far as its results are ASCII: outside ASCII only the dotless i and the
long s have an ASCII upper case. -/
def toUpperChar (c : Char) : Char :=
  if c.toNat = 0x131 then 'I' else if c.toNat = 0x17F then 'S' else c.toUpper

/-- `strings.ToUpper`, for comparisons with ASCII texts. -/
def toUpperText (s : List Char) : List Char := s.map toUpperChar

/-- `strings.ToLower`, for comparisons with ASCII texts. -/
def toLowerText (s : List Char) : List Char := s.map toLowerChar

/-- `strings.EqualFold` with an ASCII text that has neither a k nor an s. -/
def equalFold (s t : List Char) : Bool := toLowerText s = toLowerText t

theorem toUpper_of_le {c : Char} (hc : 128 ≤ c.toNat) : c.toUpper = c := by
  unfold Char.toUpper
  refine dif_neg fun h => ?_
  have hz : c.toNat ≤ 122 := h.2
  omega

theorem toUpperChar_toUpperChar (c : Char) : toUpperChar (toUpperChar c) = toUpperChar c := by
  by_cases hc : c.toNat < 128
  · have hascii : ∀ n < 128,
        toUpperChar (toUpperChar (Char.ofNat n)) = toUpperChar (Char.ofNat n) := by decide
    have hc' := hascii c.toNat hc
    rwa [Char.ofNat_toNat] at hc'
  · by_cases hi : c.toNat = 0x131
    · simp [toUpperChar, hi]
    · by_cases hs : c.toNat = 0x17F
      · simp [toUpperChar, hs]
      · have hsame : toUpperChar c = c := by
          rw [toUpperChar, if_neg hi, if_neg hs, toUpper_of_le (Nat.le_of_not_lt hc)]
        rw [hsame, hsame]

theorem toUpperText_toUpperText (s : List Char) : toUpperText (toUpperText s) = toUpperText s := by
  simp [toUpperText, toUpperChar_toUpperChar]

theorem toUpperText_toLowerText {s : List Char} (hs : ∀ c ∈ s, c.toNat < 128) :
    toUpperText (toLowerText s) = toUpperText s := by
  have hascii : ∀ n < 128,
      toUpperChar (toLowerChar (Char.ofNat n)) = toUpperChar (Char.ofNat n) := by decide
  rw [toUpperText, toLowerText, List.map_map]
  refine List.map_congr_left fun c hc => ?_
  have hc' := hascii c.toNat (hs c hc)
  rwa [Char.ofNat_toNat] at hc'

/-! ## Numbers -/

/-- `strconv.ParseUint` on the rest of the digits, after those that give `n`: nothing for a text
that is no number, the largest number when the digits exceed it. -/
def parseUint : List Char → Nat → Option Nat
  | [], n => some n
  | c :: rest, n =>
    if !c.isDigit then none
    else if 10 * n + (c.toNat - '0'.toNat) > 18446744073709551615 then some 18446744073709551615
    else parseUint rest (10 * n + (c.toNat - '0'.toNat))

/-- The digits of `atoiValue`, cut to the range of `int64`. -/
def digitsValue (negative : Bool) (digits : List Char) : Int :=
  if digits = [] then 0
  else
    match parseUint digits 0 with
    | none => 0
    | some n => if negative then max minInt64 (-n) else min maxInt64 n

/-- What `strconv.Atoi` returns, whether with an error or not. -/
def atoiValue (s : List Char) : Int :=
  match s with
  | '-' :: digits => digitsValue true digits
  | '+' :: digits => digitsValue false digits
  | digits => digitsValue false digits

theorem le_ofDigitChars (s : List Char) (n : Nat) : n ≤ Nat.ofDigitChars 10 s n := by
  rw [Nat.ofDigitChars_eq_ofDigitChars_zero]
  have hpow : 1 ≤ 10 ^ s.length := Nat.one_le_pow _ _ (by decide)
  calc n = 1 * n := (Nat.one_mul n).symm
    _ ≤ 10 ^ s.length * n := Nat.mul_le_mul_right n hpow
    _ ≤ _ := Nat.le_add_right _ _

theorem parseUint_eq {s : List Char} {n : Nat} (hdigits : ∀ c ∈ s, c.isDigit = true)
    (h : Nat.ofDigitChars 10 s n ≤ 18446744073709551615) :
    parseUint s n = some (Nat.ofDigitChars 10 s n) := by
  induction s generalizing n with
  | nil => simp [parseUint]
  | cons c s ih =>
    have hc : c.isDigit = true := hdigits c List.mem_cons_self
    rw [Nat.ofDigitChars_cons] at h ⊢
    have hle := le_ofDigitChars s (10 * n + (c.toNat - '0'.toNat))
    rw [parseUint, if_neg (by simp [hc]), if_neg (by omega)]
    exact ih (fun d hd => hdigits d (List.mem_cons_of_mem _ hd)) h

theorem atoiValue_toDigits {n : Nat} (h : (n : Int) ≤ maxInt64) :
    atoiValue (Nat.toDigits 10 n) = n := by
  have hvalue : digitsValue false (Nat.toDigits 10 n) = n := by
    have hlarge : Nat.ofDigitChars 10 (Nat.toDigits 10 n) 0 ≤ 18446744073709551615 := by
      rw [Nat.ofDigitChars_ten_toDigits]
      simp only [maxInt64] at h
      omega
    rw [digitsValue, if_neg Nat.toDigits_ne_nil,
      parseUint_eq (fun c hc => isDigit_of_mem_toDigits hc) hlarge,
      Nat.ofDigitChars_ten_toDigits]
    exact min_eq_right h
  -- Digits begin with no sign.
  unfold atoiValue
  split
  next heq => exact absurd (heq ▸ List.mem_cons_self) (not_mem_toDigits (by decide))
  next heq => exact absurd (heq ▸ List.mem_cons_self) (not_mem_toDigits (by decide))
  next => exact hvalue

end Go
