import QuickVps.Firewall.Audit
import QuickVps.Lib.Decode

/-!
# The listing of `ufw`

`ufw status numbered` prints a heading and a line for each rule: its number in brackets, the
target, the action, the direction and the source. For IPv6 the words "(v6)" follow the target and
the source. The audit takes the fields by their position, and wants a protocol in every target.

* `UfwRule`, `ufwText` — the rules and their listing,
* `UfwRule.Reads` — what the audit makes of a rule, `parse_ufwText` — of the listing,
* `misreads_v6` — the action of a rule for IPv6 is read as "(v6)",
* `decodes_ufw_iff` — exactly which listings are read back.
-/

namespace QuickVps.Firewall

open Go

/-! ## The listing -/

inductive UfwAction where
  | allow
  | deny
  | reject
  | limit

def UfwAction.text : UfwAction → List Char
  | .allow => "ALLOW".toList
  | .deny => "DENY".toList
  | .reject => "REJECT".toList
  | .limit => "LIMIT".toList

inductive UfwDirection where
  | inbound
  | outbound

def UfwDirection.text : UfwDirection → List Char
  | .inbound => "IN".toList
  | .outbound => "OUT".toList

/-- The name of a protocol, in lower case. -/
structure UfwProtocol where
  text : List Char
  isWord : IsWord text
  slashless : '/' ∉ text
  plain : '[' ∉ text
  lower : toLowerText text = text

/-- A rule, with the blanks that align the columns of its line. -/
structure UfwRule where
  port : { n : Nat // 0 < n ∧ n < 65536 }
  protocol : Option UfwProtocol
  v6 : Bool
  action : UfwAction
  direction : UfwDirection
  source : { s : List Char // '\n' ∉ s }
  gaps : Nat × Nat

def UfwRule.target (r : UfwRule) : List Char :=
  match r.protocol with
  | none => Nat.toDigits 10 r.port.1
  | some p => Nat.toDigits 10 r.port.1 ++ '/' :: p.text

/-- The words before the target: the number of the rule, padded to two characters. -/
def ufwMark (n : Nat) : List Char :=
  if n < 10 then "[ ".toList ++ (Nat.toDigits 10 n ++ [']'])
  else '[' :: (Nat.toDigits 10 n ++ [']'])

/-- The mark of a target and a source for IPv6. -/
def UfwRule.v6Text (r : UfwRule) : List Char := if r.v6 then " (v6)".toList else []

def UfwRule.line (n : Nat) (r : UfwRule) : List Char :=
  ufwMark n ++ ' ' :: (r.target ++ (r.v6Text ++ ' ' :: (List.replicate r.gaps.1 ' ' ++
    (r.action.text ++ ' ' :: (r.direction.text ++ ' ' :: (List.replicate r.gaps.2 ' ' ++
      (r.source.1 ++ r.v6Text)))))))

def ufwHeader : List (List Char) :=
  ["Status: active".toList,
    [],
    "     To                         Action      From".toList,
    "     --                         ------      ----".toList]

/-- The rules are numbered from 1, and every line is ended. -/
def ufwText (rules : List UfwRule) : List Char :=
  ['\n'].intercalate (ufwHeader ++ (rules.zipIdx 1).map (fun (r, n) => r.line n) ++ [[]])

/-! ## What is read -/

theorem UfwAction.isWord_text (a : UfwAction) : IsWord a.text := by cases a <;> decide

theorem UfwDirection.isWord_text (d : UfwDirection) : IsWord d.text := by cases d <;> decide

theorem UfwRule.isWord_target (r : UfwRule) : IsWord r.target := by
  unfold UfwRule.target
  cases r.protocol with
  | none => exact isWord_toDigits _
  | some p => exact (isWord_toDigits _).append_cons rfl p.isWord

theorem isWord_number (n : Nat) : IsWord (Nat.toDigits 10 n ++ [']']) :=
  (isWord_toDigits n).concat rfl

/-- The fields of a line, of which those of the source are left open. -/
theorem UfwRule.fields_line (r : UfwRule) (n : Nat) : ∃ source, fields (r.line n) =
    fields (ufwMark n) ++ r.target :: (fields r.v6Text ++ r.action.text :: r.direction.text ::
      source) := by
  have hspace : isSpace ' ' = true := rfl
  have htarget : fields (r.target ++ r.v6Text) = r.target :: fields r.v6Text := by
    unfold UfwRule.v6Text
    cases r.v6 with
    | true => exact fields_cons r.isWord_target "(v6)".toList
    | false => exact (congrArg fields (List.append_nil _)).trans (fields_word r.isWord_target)
  have hline : r.line n = ufwMark n ++ ' ' :: ((r.target ++ r.v6Text) ++ ' ' ::
      (List.replicate r.gaps.1 ' ' ++ (r.action.text ++ ' ' :: (r.direction.text ++ ' ' ::
        (List.replicate r.gaps.2 ' ' ++ (r.source.1 ++ r.v6Text)))))) := by
    simp [UfwRule.line]
  rw [hline, fields_append_cons hspace, fields_append_cons hspace, htarget,
    fields_spaces isSpace_of_mem_replicate, fields_cons r.action.isWord_text,
    fields_cons r.direction.isWord_text]
  exact ⟨_, rfl⟩

/-- The fields that are left when the opening brackets are removed. -/
def unbracket (words : List (List Char)) : List (List Char) :=
  (words.map (List.filter fun c => c ≠ '[')).filter fun word => word ≠ []

theorem fields_unbracket (s : List Char) :
    fields (s.filter fun c => c ≠ '[') = unbracket (fields s) := by
  refine fields_filter (fun c hc => decide_eq_true ?_) s
  rintro rfl
  cases hc

theorem unbracket_append (words words' : List (List Char)) :
    unbracket (words ++ words') = unbracket words ++ unbracket words' := by
  rw [unbracket, List.map_append, List.filter_append]
  rfl

theorem unbracket_cons {word : List Char} (hne : word ≠ []) (hplain : '[' ∉ word)
    (words : List (List Char)) : unbracket (word :: words) = word :: unbracket words := by
  have hkept : (word.filter fun c => c ≠ '[') = word :=
    List.filter_eq_self.2 fun c hc => decide_eq_true fun heq => hplain (heq ▸ hc)
  rw [unbracket, List.map_cons, hkept, List.filter_cons_of_pos (by simpa using hne)]
  rfl

theorem unbracket_bracket (word : List Char) (words : List (List Char)) :
    unbracket (('[' :: word) :: words) = unbracket (word :: words) := by
  have hfront : (('[' :: word).filter fun c => c ≠ '[') = word.filter fun c => c ≠ '[' :=
    List.filter_cons_of_neg (by simp)
  rw [unbracket, List.map_cons, hfront]
  rfl

/-- Without its bracket the number of a rule is one field. -/
theorem unbracket_ufwMark (n : Nat) :
    unbracket (fields (ufwMark n)) = [Nat.toDigits 10 n ++ [']']] := by
  have hnumber := isWord_number n
  have hplain : '[' ∉ Nat.toDigits 10 n ++ [']'] :=
    List.not_mem_append (not_mem_toDigits (by decide)) (by decide)
  unfold ufwMark
  have hbracket : IsWord ['['] := by decide
  by_cases hn : n < 10
  · rw [if_pos hn]
    have hfields : fields ("[ ".toList ++ (Nat.toDigits 10 n ++ [']'])) =
        ['['] :: [Nat.toDigits 10 n ++ [']']] := by
      rw [← fields_word hnumber]
      exact fields_cons hbracket _
    rw [hfields]
    exact unbracket_cons hnumber.1 hplain []
  · have hword : IsWord ('[' :: (Nat.toDigits 10 n ++ [']'])) := hbracket.append hnumber.2
    rw [if_neg hn, fields_word hword, unbracket_bracket]
    exact unbracket_cons hnumber.1 hplain []

theorem UfwRule.plain_target (r : UfwRule) : '[' ∉ r.target := by
  have hdigits : '[' ∉ Nat.toDigits 10 r.port.1 := not_mem_toDigits (by decide)
  unfold UfwRule.target
  cases r.protocol with
  | none => exact hdigits
  | some p => simp [hdigits, p.plain]

theorem UfwRule.fields_v6Text (r : UfwRule) :
    fields r.v6Text = if r.v6 then ["(v6)".toList] else [] := by
  unfold UfwRule.v6Text
  cases r.v6 <;> decide

/-- The fields that the audit sees. -/
theorem UfwRule.unbracket_line (r : UfwRule) (n : Nat) :
    ∃ source, unbracket (fields (r.line n)) = (Nat.toDigits 10 n ++ [']']) :: r.target ::
      ((if r.v6 then ["(v6)".toList] else []) ++
        r.action.text :: r.direction.text :: source) := by
  obtain ⟨source, hsource⟩ := r.fields_line n
  have hv6 : unbracket (fields r.v6Text) = if r.v6 then ["(v6)".toList] else [] := by
    rw [r.fields_v6Text]
    cases r.v6 <;> decide
  have haction : '[' ∉ r.action.text := by cases r.action <;> decide
  have hdirection : '[' ∉ r.direction.text := by cases r.direction <;> decide
  rw [hsource, unbracket_append, unbracket_ufwMark,
    unbracket_cons r.isWord_target.1 r.plain_target, unbracket_append, hv6,
    unbracket_cons r.action.isWord_text.1 haction,
    unbracket_cons r.direction.isWord_text.1 hdirection]
  exact ⟨_, rfl⟩

/-- What the audit makes of a rule. For IPv6 the fields are one place off. -/
structure UfwRule.Reads (r : UfwRule) (rule : Rule) : Prop where
  action : rule.action = toLowerText (if r.v6 then "(v6)".toList else r.action.text)
  direction : rule.direction = toLowerText (if r.v6 then r.action.text else r.direction.text)
  target : (rule.port, rule.protocol) = parsePortProto r.target

theorem parseUFWLine_line (r : UfwRule) (n : Nat) :
    ∃ rule, parseUFWLine (r.line n) = some rule ∧ r.Reads rule := by
  -- The line begins with a bracket, so it is none of the heading's.
  obtain ⟨tail, htail⟩ : ∃ tail, trimSpace (r.line n) = '[' :: tail := by
    obtain ⟨rest, hrest⟩ : ∃ rest, r.line n = ['['] ++ rest := by
      unfold UfwRule.line ufwMark
      split <;> exact ⟨_, rfl⟩
    obtain ⟨tail, htail⟩ : ['['] <+: trimSpace (['['] ++ rest) :=
      prefix_trimSpace (List.cons_ne_nil _ _) rfl rfl rest
    exact ⟨tail, by rw [hrest, ← htail]; rfl⟩
  obtain ⟨source, hsource⟩ := r.unbracket_line n
  have hfields : fields ((trimSpace (r.line n)).filter fun c => c ≠ '[') =
      (Nat.toDigits 10 n ++ [']']) :: r.target ::
        ((if r.v6 then ["(v6)".toList] else []) ++
          r.action.text :: r.direction.text :: source) := by
    rw [fields_unbracket, fields_trimSpace, hsource]
  have hskip : ¬ (trimSpace (r.line n) = [] ∨ "Status:".toList.isPrefixOf (trimSpace (r.line n)) ∨
      "To".toList.isPrefixOf (trimSpace (r.line n)) ∨
      "--".toList.isPrefixOf (trimSpace (r.line n))) := by
    simp [htail]
  unfold parseUFWLine
  simp only [if_neg hskip]
  rw [hfields]
  cases hv6 : r.v6 with
  | true => exact ⟨_, rfl, by rw [hv6]; rfl, by rw [hv6]; rfl, rfl⟩
  | false => exact ⟨_, rfl, by rw [hv6]; rfl, by rw [hv6]; rfl, rfl⟩

theorem parsePortProto_target (r : UfwRule) :
    parsePortProto r.target =
      match r.protocol with
      | none => (0, [])
      | some p => ((r.port.1 : Int), p.text) := by
  have htrim : trimSpace r.target = r.target := List.strip_eq_of_forall _ r.isWord_target.2
  have hdigits : '/' ∉ Nat.toDigits 10 r.port.1 := not_mem_toDigits (by decide)
  unfold parsePortProto
  rw [htrim]
  unfold UfwRule.target
  cases r.protocol with
  | none =>
    have hsplit : (Nat.toDigits 10 r.port.1).splitOn '/' = [Nat.toDigits 10 r.port.1] := by
      have hpieces : ∀ piece ∈ [Nat.toDigits 10 r.port.1], '/' ∉ piece := by simpa using hdigits
      simpa using List.splitOn_intercalate '/' hpieces (List.cons_ne_nil _ _)
    simp only [hsplit]
  | some p =>
    have hsplit : (Nat.toDigits 10 r.port.1 ++ '/' :: p.text).splitOn '/' =
        [Nat.toDigits 10 r.port.1, p.text] := by
      have hpieces : ∀ piece ∈ [Nat.toDigits 10 r.port.1, p.text], '/' ∉ piece := by
        simpa using ⟨hdigits, p.slashless⟩
      simpa [List.intercalate] using
        List.splitOn_intercalate '/' hpieces (List.cons_ne_nil _ _)
    have hport := r.port.2.2
    have hvalue : atoiValue (Nat.toDigits 10 r.port.1) = r.port.1 :=
      atoiValue_toDigits (by unfold maxInt64; omega)
    simp only [hsplit, hvalue, p.lower]

/-! ## The text is read rule by rule -/

theorem UfwRule.not_newline (r : UfwRule) (n : Nat) : '\n' ∉ r.line n := by
  have hnumber : '\n' ∉ Nat.toDigits 10 n := not_mem_toDigits (by decide)
  have hmark : '\n' ∉ ufwMark n := by
    unfold ufwMark
    split <;> simp [hnumber]
  have htarget := not_newline_of_isWord r.isWord_target
  have haction := not_newline_of_isWord r.action.isWord_text
  have hdirection := not_newline_of_isWord r.direction.isWord_text
  have hgap : ∀ gap, '\n' ∉ List.replicate gap ' ' := fun gap h =>
    absurd (List.eq_of_mem_replicate h) (by decide)
  have hv6 : '\n' ∉ r.v6Text := by
    unfold UfwRule.v6Text
    cases r.v6 <;> decide
  simp [UfwRule.line, hmark, htarget, haction, hdirection, hgap, hv6, r.source.2]

theorem forall₂_reads (rules : List UfwRule) (n : Nat) : List.Forall₂ UfwRule.Reads rules
    (((rules.zipIdx n).map fun (r, n) => r.line n).filterMap parseUFWLine) := by
  induction rules generalizing n with
  | nil => exact List.Forall₂.nil
  | cons r rules ih =>
    obtain ⟨rule, hrule, hreads⟩ := parseUFWLine_line r n
    rw [List.zipIdx_cons, List.map_cons, List.filterMap_cons_some hrule]
    exact List.Forall₂.cons hreads (ih (n + 1))

theorem parse_ufwText (rules : List UfwRule) :
    List.Forall₂ UfwRule.Reads rules (parseUFWRules (ufwText rules)) := by
  have hlines : ∀ line ∈ ufwHeader ++ (rules.zipIdx 1).map fun (r, n) => r.line n,
      '\n' ∉ line := by
    intro line hline
    rcases List.mem_append.1 hline with hline | hline
    · have hheader : ∀ line ∈ ufwHeader, '\n' ∉ line := by decide
      exact hheader line hline
    · obtain ⟨⟨r, n⟩, -, rfl⟩ := List.mem_map.1 hline
      exact r.not_newline n
  have hheader : ufwHeader.filterMap parseUFWLine = [] := by decide
  have hnil : parseUFWLine [] = none := by decide
  rw [parseUFWRules, ufwText, Decode.filterMap_ended hnil hlines, List.filterMap_append, hheader,
    List.nil_append]
  exact forall₂_reads rules 1

/-! ## What should be read -/

/-- The audit's rule is the listed one. Without a protocol it is for all of them. -/
structure UfwRule.Decodes (r : UfwRule) (rule : Rule) : Prop where
  action : rule.action = toLowerText r.action.text
  direction : rule.direction = toLowerText r.direction.text
  port : rule.port = r.port.1
  protocol : rule.protocol = (r.protocol.map UfwProtocol.text).getD []

theorem UfwRule.decodes_iff {r : UfwRule} {rule : Rule} (h : r.Reads rule) :
    r.Decodes rule ↔ r.v6 = false ∧ r.protocol ≠ none := by
  have htarget := h.target
  rw [parsePortProto_target] at htarget
  constructor
  · intro hdecodes
    refine ⟨?_, fun hnone => ?_⟩
    · cases hv6 : r.v6 with
      | false => rfl
      | true =>
        have haction := h.action.symm.trans hdecodes.action
        rw [hv6] at haction
        revert haction
        cases r.action <;> decide
    · rw [hnone] at htarget
      have hport : (0 : Int) = r.port.1 := (congrArg Prod.fst htarget).symm.trans hdecodes.port
      have hpos := r.port.2.1
      omega
  · rintro ⟨hv6, hprotocol⟩
    obtain ⟨p, hp⟩ := Option.ne_none_iff_exists'.1 hprotocol
    rw [hp] at htarget
    refine ⟨?_, ?_, congrArg Prod.fst htarget, ?_⟩
    · rw [h.action, hv6]
      rfl
    · rw [h.direction, hv6]
      rfl
    · rw [hp]
      exact congrArg Prod.snd htarget

/-! ## The gap -/

def ufwUdp : UfwProtocol := ⟨"udp".toList, by decide, by decide, by decide, by decide⟩

/-- A rule for multicast DNS over IPv6. -/
def dnsV6 : UfwRule where
  port := ⟨5353, by decide⟩
  protocol := some ufwUdp
  v6 := true
  action := .allow
  direction := .inbound
  source := ⟨"Anywhere".toList, by decide⟩
  gaps := (0, 0)

/-- **The action of a rule for IPv6 is read as "(v6)"**, so that it allows nothing. -/
theorem misreads_v6 :
    ¬ ∀ rules : List UfwRule,
      List.Forall₂ UfwRule.Decodes rules (parseUFWRules (ufwText rules)) := by
  intro hall
  have hreads := parse_ufwText [dnsV6]
  have hdecodes := hall [dnsV6]
  cases hparse : parseUFWRules (ufwText [dnsV6]) with
  | nil =>
    rw [hparse] at hdecodes
    cases hdecodes
  | cons rule rest =>
    rw [hparse] at hreads hdecodes
    obtain ⟨hread, -⟩ := List.forall₂_cons.1 hreads
    obtain ⟨hdecode, -⟩ := List.forall₂_cons.1 hdecodes
    exact absurd ((UfwRule.decodes_iff hread).1 hdecode).1 (by decide)

/-! ## The exact condition -/

theorem forall₂_decodes_iff {rules : List UfwRule} {found : List Rule}
    (h : List.Forall₂ UfwRule.Reads rules found) :
    List.Forall₂ UfwRule.Decodes rules found ↔
      ∀ r ∈ rules, r.v6 = false ∧ r.protocol ≠ none := by
  induction h with
  | nil => simp
  | cons hread _ ih => rw [List.forall₂_cons, ih, UfwRule.decodes_iff hread, List.forall_mem_cons]

/-- **The rules are read back exactly when all are for IPv4 and name a protocol.** -/
theorem decodes_ufw_iff (rules : List UfwRule) :
    List.Forall₂ UfwRule.Decodes rules (parseUFWRules (ufwText rules)) ↔
      ∀ r ∈ rules, r.v6 = false ∧ r.protocol ≠ none :=
  forall₂_decodes_iff (parse_ufwText rules)

end QuickVps.Firewall
