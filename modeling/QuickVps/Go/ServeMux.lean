import Mathlib.Data.List.Basic

/-!
# Paths and `http.ServeMux`

How a request path is decoded and how a `ServeMux` chooses a handler for it, for patterns without
a method, a host or a wildcard. A path is a list of bytes, each written as the character of that
number.

* `unescape` — percent-decoding;
* `cleanPath` — the canonical form of a path;
* `findHandler` — the pattern a request is dispatched to, or a redirect;
* `ServeMux` — what the server relies on of a mux, and `serveMux`, this one.

**Main result (`matches_of_findHandler`).** A handler runs only if the decoded path is its pattern,
or begins with it where the pattern ends in a slash.
-/

namespace Go

/-! ## Decoding -/

def unhex (c : Char) : Option Nat :=
  let n := c.toNat
  if 0x30 ≤ n ∧ n ≤ 0x39 then some (n - 0x30)
  else if 0x41 ≤ n ∧ n ≤ 0x46 then some (n - 0x37)
  else if 0x61 ≤ n ∧ n ≤ 0x66 then some (n - 0x57)
  else none

/-- The byte of an escape. -/
def unescapeByte (high low : Char) : Option Char :=
  match unhex high, unhex low with
  | some h, some l => some (Char.ofNat (16 * h + l))
  | _, _ => none

/-- `url.PathUnescape`. -/
def unescape : List Char → Option (List Char)
  | [] => some []
  | '%' :: high :: low :: s =>
    match unescapeByte high low with
    | some b => (unescape s).map (b :: ·)
    | none => none
  | c :: s => if c = '%' then none else (unescape s).map (c :: ·)

/-- A segment that cannot be decoded is left as it is. -/
def unescapeSegment (s : List Char) : List Char := (unescape s).getD s

/-- `path.Clean` on the segments of a rooted path, the last one first. -/
def cleanSegments : List (List Char) → List (List Char) → List (List Char)
  | done, [] => done
  | done, s :: rest =>
    if s = [] ∨ s = ['.'] then cleanSegments done rest
    else if s = ['.', '.'] then cleanSegments done.tail rest
    else cleanSegments (s :: done) rest

def cleanPath (path : List Char) : List Char :=
  if path = [] then ['/']
  else
    let path := if path.head? = some '/' then path else '/' :: path
    let clean := '/' :: List.intercalate ['/'] (cleanSegments [] (path.splitOn '/')).reverse
    if path.getLast? = some '/' ∧ clean ≠ ['/'] then clean ++ ['/'] else clean

/-! ## Patterns -/

/-- A pattern that ends in a slash stands for the paths below it. -/
def isSubtree (pattern : List Char) : Bool := pattern.getLast? = some '/'

/-- The segments that a path has to have literally. -/
def literals (pattern : List Char) : List (List Char) :=
  let segments := pattern.tail.splitOn '/'
  if isSubtree pattern then segments.dropLast else segments

/-- The decoded segments of an escaped path. -/
def pathSegments (path : List Char) : List (List Char) :=
  (path.tail.splitOn '/').map unescapeSegment

def matchesSegments (pattern : List Char) (segments : List (List Char)) : Bool :=
  if isSubtree pattern then
    (literals pattern).isPrefixOf segments && (literals pattern).length < segments.length
  else literals pattern = segments

/-- The pattern with the most literal segments. -/
def mostSpecific : List (List Char) → Option (List Char)
  | [] => none
  | p :: rest =>
    match mostSpecific rest with
    | none => some p
    | some q => if (literals q).length ≤ (literals p).length then some p else some q

/-- The pattern of the routing tree for an escaped path. -/
def lookup (patterns : List (List Char)) (path : List Char) : Option (List Char) :=
  if path.head? = some '/' then
    mostSpecific (patterns.filter fun p => matchesSegments p (pathSegments path))
  else none

/-- A path that matches the pattern with nothing below it. -/
def exactMatch (pattern path : List Char) : Bool :=
  if isSubtree pattern then
    path.getLast? = some '/' && (literals pattern).length + 1 = path.count '/'
  else true

/-! ## Dispatch -/

inductive Dispatch where
  | handler (pattern : List Char)
  | redirect (path : List Char)
  | notFound
  deriving DecidableEq

/-- The path with a slash, when only that is registered. -/
def slashRedirect (patterns : List (List Char)) (path : List Char) : Bool :=
  !((lookup patterns path).any fun p => exactMatch p path) &&
    path.getLast? ≠ some '/' && path ≠ [] &&
    (lookup patterns (path ++ ['/'])).any fun p => exactMatch p (path ++ ['/'])

/-- The path of a `CONNECT` request is not cleaned. -/
def findHandler (patterns : List (List Char)) (method : String) (escapedPath : List Char) :
    Dispatch :=
  let path := if method = "CONNECT" then escapedPath else cleanPath escapedPath
  if slashRedirect patterns path then .redirect (path ++ ['/'])
  else if path ≠ escapedPath then .redirect path
  else
    match lookup patterns path with
    | some p => .handler p
    | none => .notFound

/-- The decoded path is the pattern, or is below it. -/
def Matches (pattern path : List Char) : Prop :=
  path = pattern ∨ isSubtree pattern = true ∧ pattern <+: path

instance (pattern path : List Char) : Decidable (Matches pattern path) :=
  inferInstanceAs (Decidable (_ ∨ _))

/-- A mux with these patterns: it runs a handler only where its pattern matches the decoded path. -/
structure ServeMux (patterns : List (List Char)) where
  dispatch : String → List Char → Dispatch
  handles : ∀ {method : String} {escapedPath pattern path : List Char},
    dispatch method escapedPath = .handler pattern → unescape escapedPath = some path →
      pattern ∈ patterns ∧ Matches pattern path

/-! ## Decoded segments -/

theorem unescape_cons_of_ne {c : Char} (h : c ≠ '%') (s : List Char) :
    unescape (c :: s) = (unescape s).map (c :: ·) := by
  rw [unescape, if_neg h]
  rintro _ _ _ rfl
  exact absurd rfl h

theorem unescapeByte_slash_left (low : Char) : unescapeByte '/' low = none := by
  rw [unescapeByte, show unhex '/' = none by decide]

theorem unescapeByte_slash_right (high : Char) : unescapeByte high '/' = none := by
  rw [unescapeByte, show unhex '/' = none by decide]
  cases unhex high <;> rfl

/-- A slash is never part of an escape, so it cuts an escaped text in two. -/
theorem unescape_append {a b d : List Char} (h : unescape (a ++ '/' :: b) = some d) :
    ∃ x y, unescape a = some x ∧ unescape b = some y ∧ d = x ++ '/' :: y := by
  induction a using unescape.induct generalizing d with
  | case1 =>
    rw [List.nil_append, unescape_cons_of_ne (by decide)] at h
    obtain ⟨y, hy, rfl⟩ := Option.map_eq_some_iff.1 h
    exact ⟨[], y, rfl, hy, rfl⟩
  | case2 high low s c hc ih =>
    simp only [List.cons_append, unescape, hc] at h
    obtain ⟨d', hd', rfl⟩ := Option.map_eq_some_iff.1 h
    obtain ⟨x, y, hx, hy, rfl⟩ := ih hd'
    exact ⟨c :: x, y, by simp [unescape, hc, hx], hy, rfl⟩
  | case3 high low s hc =>
    simp only [List.cons_append, unescape, hc] at h
    cases h
  | case4 s hs =>
    -- Fewer than two characters follow the percent sign.
    match s, hs with
    | [], _ =>
      cases b with
      | nil => cases h
      | cons low b =>
        rw [List.cons_append, List.nil_append, unescape, unescapeByte_slash_left] at h
        cases h
    | [high], _ =>
      rw [List.cons_append, List.cons_append, List.nil_append, unescape,
        unescapeByte_slash_right] at h
      cases h
    | high :: low :: s, hs => exact (hs high low s rfl rfl).elim
  | case5 c s hs hc ih =>
    rw [List.cons_append, unescape_cons_of_ne hc] at h
    obtain ⟨d', hd', rfl⟩ := Option.map_eq_some_iff.1 h
    obtain ⟨x, y, hx, hy, rfl⟩ := ih hd'
    exact ⟨c :: x, y, by rw [unescape_cons_of_ne hc, hx]; rfl, hy, rfl⟩

/-- A decoded path is made of the decoded segments. -/
theorem unescape_intercalate {segments : List (List Char)} {d : List Char}
    (h : unescape (['/'].intercalate segments) = some d) :
    d = ['/'].intercalate (segments.map unescapeSegment) := by
  induction segments generalizing d with
  | nil =>
    cases h
    rfl
  | cons s rest ih =>
    by_cases hrest : rest = []
    · subst hrest
      rw [List.intercalate_singleton] at h
      simp [unescapeSegment, h]
    · have hmap : rest.map unescapeSegment ≠ [] := by simpa using hrest
      rw [List.intercalate_cons_of_ne_nil hrest, List.append_assoc] at h
      obtain ⟨x, y, hx, hy, rfl⟩ := unescape_append h
      rw [List.map_cons, List.intercalate_cons_of_ne_nil hmap, ← ih hy, List.append_assoc,
        unescapeSegment, hx]
      rfl

theorem decoded_eq {rest d : List Char} (h : unescape ('/' :: rest) = some d) :
    d = '/' :: ['/'].intercalate (pathSegments ('/' :: rest)) := by
  have hjoin : ['/'].intercalate (rest.splitOn '/') = rest := List.intercalate_splitOn '/'
  rw [unescape_cons_of_ne (by decide)] at h
  obtain ⟨d', hd', rfl⟩ := Option.map_eq_some_iff.1 h
  rw [← hjoin] at hd'
  rw [unescape_intercalate hd']
  rfl

/-! ## What a match says about the decoded path -/

theorem eq_cons_of_head {p : List Char} (h : p.head? = some '/') : p = '/' :: p.tail :=
  (List.cons_head?_tail h).symm

/-- A rooted pattern is a slash and its literal segments, with a slash after them for a subtree. -/
theorem pattern_eq {p : List Char} (h : p.head? = some '/') :
    p = '/' :: ['/'].intercalate (literals p ++ if isSubtree p then [[]] else []) := by
  have hsplit : literals p ++ (if isSubtree p then [[]] else []) = p.tail.splitOn '/' := by
    unfold literals
    by_cases hsub : isSubtree p = true
    · have hlast : p.getLast? = some '/' := of_decide_eq_true hsub
      rw [if_pos hsub, if_pos hsub]
      rcases List.eq_nil_or_concat p.tail with htail | ⟨u, c, htail⟩
      · rw [htail]
        rfl
      · rw [List.concat_eq_append] at htail
        rw [eq_cons_of_head h, htail, List.getLast?_cons, List.getLast?_concat] at hlast
        obtain rfl : c = '/' := by simpa using hlast
        rw [htail, List.splitOn_append_cons_self]
        simp
    · rw [if_neg hsub, if_neg hsub, List.append_nil]
  rw [hsplit, List.intercalate_splitOn]
  exact eq_cons_of_head h

theorem prefix_intercalate (a b : List (List Char)) (hb : b ≠ []) :
    ['/'].intercalate (a ++ [[]]) <+: ['/'].intercalate (a ++ b) := by
  induction a with
  | nil => exact List.nil_prefix
  | cons s a ih =>
    rw [List.cons_append, List.cons_append, List.intercalate_cons_of_ne_nil (by simp),
      List.intercalate_cons_of_ne_nil (by simp [hb])]
    exact (List.prefix_append_right_inj _).2 ih

theorem matches_of_matchesSegments {p path d : List Char} (hp : p.head? = some '/')
    (hpath : path.head? = some '/') (hd : unescape path = some d)
    (h : matchesSegments p (pathSegments path) = true) : Matches p d := by
  rw [eq_cons_of_head hpath] at hd h
  rw [decoded_eq hd]
  unfold matchesSegments at h
  split_ifs at h with hsub
  · rw [Bool.and_eq_true, List.isPrefixOf_iff_prefix, decide_eq_true_eq] at h
    obtain ⟨⟨below, hbelow⟩, hlen⟩ := h
    refine .inr ⟨hsub, ?_⟩
    have hne : below ≠ [] := by
      rintro rfl
      rw [List.append_nil] at hbelow
      rw [hbelow] at hlen
      exact absurd hlen (Nat.lt_irrefl _)
    rw [pattern_eq hp, if_pos hsub, ← hbelow]
    exact (List.prefix_cons_inj _).2 (prefix_intercalate _ _ hne)
  · have hp' := pattern_eq hp
    rw [if_neg hsub, List.append_nil, of_decide_eq_true h] at hp'
    exact .inl hp'.symm

theorem mem_of_mostSpecific {ps : List (List Char)} {p : List Char}
    (h : mostSpecific ps = some p) : p ∈ ps := by
  induction ps with
  | nil => cases h
  | cons q ps ih =>
    rw [mostSpecific] at h
    split at h
    · cases h
      exact List.mem_cons_self
    next q' hq' =>
      split_ifs at h
      · cases h
        exact List.mem_cons_self
      · cases h
        exact List.mem_cons_of_mem _ (ih hq')

theorem matches_of_lookup {patterns : List (List Char)} {p path d : List Char}
    (hrooted : ∀ q ∈ patterns, q.head? = some '/') (hd : unescape path = some d)
    (h : lookup patterns path = some p) : p ∈ patterns ∧ Matches p d := by
  unfold lookup at h
  split_ifs at h with hpath
  obtain ⟨hmem, hseg⟩ := List.mem_filter.1 (mem_of_mostSpecific h)
  exact ⟨hmem, matches_of_matchesSegments (hrooted p hmem) hpath hd hseg⟩

/-- **A handler runs only where its pattern matches the decoded path.** -/
theorem matches_of_findHandler {patterns : List (List Char)} {method : String}
    {p escapedPath path : List Char} (hrooted : ∀ q ∈ patterns, q.head? = some '/')
    (hpath : unescape escapedPath = some path)
    (h : findHandler patterns method escapedPath = .handler p) :
    p ∈ patterns ∧ Matches p path := by
  unfold findHandler at h
  generalize (if method = "CONNECT" then escapedPath else cleanPath escapedPath) = clean at h
  simp only at h
  split_ifs at h with hslash hne
  obtain rfl : clean = escapedPath := not_not.1 hne
  cases hlookup : lookup patterns clean with
  | none =>
    rw [hlookup] at h
    cases h
  | some q =>
    rw [hlookup] at h
    cases h
    exact matches_of_lookup hrooted hpath hlookup

/-- `http.NewServeMux` with rooted patterns. -/
def serveMux (patterns : List (List Char)) (hrooted : ∀ q ∈ patterns, q.head? = some '/') :
    ServeMux patterns where
  dispatch := findHandler patterns
  handles h hpath := matches_of_findHandler hrooted hpath h

end Go
