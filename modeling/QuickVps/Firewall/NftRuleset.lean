import QuickVps.Firewall.Audit
import QuickVps.Lib.Decode
import Mathlib.Data.List.Infix

/-!
# The ruleset of `nft`

`nft list ruleset` prints tables of chains. A chain that is hooked to `input` sees the packets that
come in, others see other packets or are only jumped to. The audit looks for rules line by line and
takes the rules of all chains for rules on what comes in.

* `Table`, `rulesetText` — what is printed, `inbound` — the rules of the chains hooked to `input`,
* `fields_of_matchNFT` — what a match says of the words of the line,
* `parse_rulesetText` — the audit reads the rules of all chains,
* `reads_forward` — a rule of another chain is read,
* `reads_inbound_iff` — exactly for which rulesets the rules read are the inbound ones.
-/

namespace QuickVps.Firewall

open Go

/-! ## The ruleset -/

inductive NftProtocol where
  | tcp
  | udp

def NftProtocol.text : NftProtocol → List Char
  | .tcp => "tcp".toList
  | .udp => "udp".toList

inductive Verdict where
  | accept
  | drop
  deriving DecidableEq

def Verdict.text : Verdict → List Char
  | .accept => "accept".toList
  | .drop => "drop".toList

structure NftRule where
  protocol : NftProtocol
  port : { n : Nat // n < 65536 }
  verdict : Verdict

inductive Hook where
  | input
  | forward
  | output
  deriving DecidableEq

def Hook.text : Hook → List Char
  | .input => "input".toList
  | .forward => "forward".toList
  | .output => "output".toList

/-- A text without white space. -/
abbrev NftWord := { s : List Char // IsWord s }

/-- The line of a chain that is hooked. -/
structure BaseChain where
  kind : NftWord
  hook : Hook
  priority : NftWord
  policy : Verdict

structure Chain where
  name : NftWord
  base : Option BaseChain
  rules : List NftRule

structure Table where
  family : NftWord
  name : NftWord
  chains : List Chain

def NftRule.body (r : NftRule) : List Char :=
  r.protocol.text ++ ' ' :: ("dport".toList ++ ' ' :: (Nat.toDigits 10 r.port.1 ++ ' ' ::
    r.verdict.text))

def NftRule.line (r : NftRule) : List Char := '\t' :: '\t' :: r.body

def BaseChain.line (b : BaseChain) : List Char :=
  "\t\ttype ".toList ++ (b.kind.1 ++ ' ' :: ("hook".toList ++ ' ' :: (b.hook.text ++ ' ' ::
    ("priority".toList ++ ' ' :: ((b.priority.1 ++ [';']) ++ ' ' :: ("policy".toList ++ ' ' ::
      (b.policy.text ++ [';'])))))))

def Chain.lines (c : Chain) : List (List Char) :=
  ("\tchain ".toList ++ (c.name.1 ++ " \x7b".toList)) ::
    (c.base.toList.map BaseChain.line ++ c.rules.map NftRule.line ++ ["\t\x7d".toList])

/-- Chains with an empty line between them. -/
def chainLines : List Chain → List (List Char)
  | [] => []
  | [c] => c.lines
  | c :: chains => c.lines ++ [] :: chainLines chains

def Table.lines (t : Table) : List (List Char) :=
  ("table ".toList ++ (t.family.1 ++ ' ' :: (t.name.1 ++ " \x7b".toList))) ::
    (chainLines t.chains ++ ["\x7d".toList])

/-- Every line is ended, so the text splits into the lines and an empty rest. -/
def rulesetText (tables : List Table) : List Char :=
  ['\n'].intercalate (tables.flatMap Table.lines ++ [[]])

def Chain.Inbound (c : Chain) : Prop := c.base.map BaseChain.hook = some .input

instance (c : Chain) : Decidable c.Inbound := inferInstanceAs (Decidable (_ = _))

def chainsOf (tables : List Table) : List Chain := tables.flatMap Table.chains

/-- The rules of the chains hooked to `input`. -/
def inbound (tables : List Table) : List NftRule :=
  (chainsOf tables).flatMap fun c => if c.Inbound then c.rules else []

/-! ## Matches -/

theorem matchWord_eq_some {words : List (List Char)} {s word rest : List Char}
    (h : matchWord words s = some (word, rest)) :
    s = word ++ rest ∧ word.map Char.toLower ∈ words := by
  obtain ⟨found, hfound, hcut⟩ := Option.map_eq_some_iff.1 h
  have hlower := List.find?_some hfound
  cases hcut
  refine ⟨(List.take_append_drop _ _).symm, ?_⟩
  have heq : (s.take found.length).map Char.toLower = found := of_decide_eq_true hlower
  rw [heq]
  exact List.mem_of_find?_eq_some hfound

theorem matchRun_eq_some {p : Char → Bool} {s run rest : List Char}
    (h : matchRun p s = some (run, rest)) :
    s = run ++ rest ∧ run ≠ [] ∧ ∀ c ∈ run, p c = true := by
  unfold matchRun at h
  split at h
  next => cases h
  next hne =>
    cases h
    exact ⟨List.takeWhile_append_dropWhile.symm, hne, fun c hc => List.mem_takeWhile_imp hc⟩

theorem matchRun_append {p : Char → Bool} {run : List Char} {c : Char} (hne : run ≠ [])
    (hrun : ∀ c ∈ run, p c = true) (hc : p c = false) (rest : List Char) :
    matchRun p (run ++ c :: rest) = some (run, c :: rest) := by
  have htake : (run ++ c :: rest).takeWhile p = run := by
    rw [List.takeWhile_append_of_pos hrun, List.takeWhile_cons_of_neg (by simp [hc]),
      List.append_nil]
  have hdrop : (run ++ c :: rest).dropWhile p = c :: rest := by
    rw [List.dropWhile_append_of_pos hrun, List.dropWhile_cons_of_neg (by simp [hc])]
  rw [matchRun, htake, hdrop, if_neg hne]

theorem isSpace_of_isRegexpSpace {c : Char} (h : isRegexpSpace c = true) : isSpace c = true := by
  simp only [isRegexpSpace, Bool.or_eq_true, decide_eq_true_iff] at h
  rcases h with (((rfl | rfl) | rfl) | rfl) | rfl <;> rfl

/-- Lower case makes no space out of a letter, and none into one. -/
theorem isSpace_toLower {c : Char} (h : isSpace c = true) : c.toLower = c := by
  unfold Char.toLower
  refine dif_neg fun hupper => ?_
  have hlow : 65 ≤ c.toNat := hupper.1
  have hhigh : c.toNat ≤ 90 := hupper.2
  simp [isSpace] at h
  omega

/-- A text that is a word in lower case is a word. -/
theorem isWord_of_map_toLower {s : List Char} (h : IsWord (s.map Char.toLower)) : IsWord s := by
  refine ⟨fun hnil => h.1 (by rw [hnil]; rfl), fun c hc => ?_⟩
  cases hspace : isSpace c with
  | false => rfl
  | true =>
    have hlower := h.2 _ (List.mem_map_of_mem hc)
    rw [isSpace_toLower hspace, hspace] at hlower
    cases hlower

/-- Spaces of a match separate the fields on both sides. -/
theorem fields_match_append {word gap : List Char} (hword : IsWord word) (hne : gap ≠ [])
    (hgap : ∀ c ∈ gap, isRegexpSpace c = true) (rest : List Char) :
    fields (word ++ (gap ++ rest)) = word :: fields rest := by
  cases gap with
  | nil => exact absurd rfl hne
  | cons c gap =>
    have hc := isSpace_of_isRegexpSpace (hgap c List.mem_cons_self)
    have hrest : ∀ d ∈ gap, isSpace d = true := fun d hd =>
      isSpace_of_isRegexpSpace (hgap d (List.mem_cons_of_mem _ hd))
    rw [List.cons_append, fields_append_cons hc, fields_spaces hrest, fields_word hword]
    rfl

/-- The words of a match: after the first, `dport`, a number and a verdict. -/
structure MatchWords (dport port action : List Char) : Prop where
  dport : dport.map Char.toLower = "dport".toList
  port : ∀ c ∈ port, c.isDigit = true
  action : ∃ verdict ∈ ["accept".toList, "drop".toList], verdict <+: action.map Char.toLower

theorem fields_of_matchNFT {s : List Char} {m : List Char × List Char × List Char}
    (h : matchNFT s = some m) : ∃ first dport port action rest,
      fields s = first :: dport :: port :: action :: rest ∧ MatchWords dport port action := by
  unfold matchNFT at h
  simp only [Option.bind_eq_bind, Option.bind_eq_some_iff, Prod.exists] at h
  obtain ⟨proto, s₁, m₁, gap₁, s₂, m₂, dport, s₃, m₃, gap₂, s₄, m₄, port, s₅, m₅, gap₃, s₆, m₆,
    action, s₇, m₇, -⟩ := h
  obtain ⟨rfl, hproto⟩ := matchWord_eq_some m₁
  obtain ⟨rfl, hne₁, hgap₁⟩ := matchRun_eq_some m₂
  obtain ⟨rfl, hdport⟩ := matchWord_eq_some m₃
  obtain ⟨rfl, hne₂, hgap₂⟩ := matchRun_eq_some m₄
  obtain ⟨rfl, hportne, hport⟩ := matchRun_eq_some m₅
  obtain ⟨rfl, hne₃, hgap₃⟩ := matchRun_eq_some m₆
  obtain ⟨rfl, haction⟩ := matchWord_eq_some m₇
  have hprotos : ∀ word ∈ ["tcp".toList, "udp".toList], IsWord word := by simp [IsWord, isSpace]
  have hdports : ∀ word ∈ ["dport".toList], IsWord word := by simp [IsWord, isSpace]
  have hactions : ∀ word ∈ ["accept".toList, "drop".toList], IsWord word := by
    simp [IsWord, isSpace]
  have hprotoWord : IsWord proto := isWord_of_map_toLower (hprotos _ hproto)
  have hdportWord : IsWord dport := isWord_of_map_toLower (hdports _ hdport)
  have hactionWord : IsWord action := isWord_of_map_toLower (hactions _ haction)
  have hportWord : IsWord port := ⟨hportne, fun c hc => isSpace_of_isDigit (hport c hc)⟩
  -- The verdict may go on to the end of its word.
  obtain ⟨more, tail, rfl, hmore, htail⟩ := exists_word_append s₇
  have hfull : IsWord (action ++ more) := hactionWord.append hmore
  obtain ⟨rest, hrest⟩ : ∃ rest, fields (action ++ (more ++ tail)) = (action ++ more) :: rest := by
    rw [← List.append_assoc]
    rcases htail with rfl | ⟨c, tail, rfl, hc⟩
    · exact ⟨[], by rw [List.append_nil, fields_word hfull]⟩
    · exact ⟨_, by rw [fields_append_cons hc, fields_word hfull]; rfl⟩
  refine ⟨proto, dport, port, action ++ more, rest, ?_, List.mem_singleton.1 hdport, hport,
    action.map Char.toLower, haction, ?_⟩
  · rw [fields_match_append hprotoWord hne₁ hgap₁, fields_match_append hdportWord hne₂ hgap₂,
      fields_match_append hportWord hne₃ hgap₃, hrest]
  · rw [List.map_append]
    exact List.prefix_append _ _

/-- A line without the words of a match is no rule. -/
theorem parseNFTLine_eq_none {line : List Char}
    (h : ∀ dport port action rest, dport :: port :: action :: rest <:+ fields line →
      ¬ MatchWords dport port action) : parseNFTLine line = none := by
  have hnone : line.tails.findSome? matchNFT = none := by
    refine List.findSome?_eq_none_iff.2 fun t ht => ?_
    cases hm : matchNFT t with
    | none => rfl
    | some m =>
      obtain ⟨first, dport, port, action, rest, hfields, hwords⟩ := fields_of_matchNFT hm
      have hsuffix := tail_fields_suffix ((List.mem_tails _ _).1 ht)
      rw [hfields] at hsuffix
      exact absurd hwords (h dport port action rest hsuffix)
  rw [parseNFTLine, hnone]
  rfl

/-! ## Lines -/

theorem NftProtocol.isWord_text (p : NftProtocol) : IsWord p.text := by cases p <;> decide

theorem Verdict.isWord_text (v : Verdict) : IsWord v.text := by cases v <;> decide

theorem Hook.isWord_text (k : Hook) : IsWord k.text := by cases k <;> decide

/-- One blank before a text that does not begin with a space. -/
theorem matchRun_blank {c : Char} (hc : isRegexpSpace c = false) (rest : List Char) :
    matchRun isRegexpSpace (' ' :: c :: rest) = some ([' '], c :: rest) := by
  have hblank : ∀ d ∈ [' '], isRegexpSpace d = true := by simp [isRegexpSpace]
  exact matchRun_append (List.cons_ne_nil _ _) hblank hc rest

theorem matchNFT_body (r : NftRule) :
    matchNFT r.body = some (r.protocol.text, Nat.toDigits 10 r.port.1, r.verdict.text) := by
  let digits := Nat.toDigits 10 r.port.1
  let back := digits ++ ' ' :: r.verdict.text
  have hproto : matchWord ["tcp".toList, "udp".toList] r.body =
      some (r.protocol.text, ' ' :: ("dport".toList ++ ' ' :: back)) := by
    unfold NftRule.body
    cases r.protocol <;> rfl
  have hgap₁ : matchRun isRegexpSpace (' ' :: ("dport".toList ++ ' ' :: back)) =
      some ([' '], "dport".toList ++ ' ' :: back) := matchRun_blank rfl _
  have hdport : matchWord ["dport".toList] ("dport".toList ++ ' ' :: back) =
      some ("dport".toList, ' ' :: back) := rfl
  have hgap₂ : matchRun isRegexpSpace (' ' :: back) = some ([' '], back) := by
    obtain ⟨d, rest, hdigits⟩ := List.exists_cons_of_ne_nil (isWord_toDigits r.port.1).1
    have hd : d.isDigit = true := isDigit_of_mem_toDigits (hdigits ▸ List.mem_cons_self)
    have hspace : isRegexpSpace d = false := by
      cases h : isRegexpSpace d with
      | false => rfl
      | true => exact absurd (isSpace_of_isRegexpSpace h) (by simp [isSpace_of_isDigit hd])
    simp only [back, digits, hdigits]
    exact matchRun_blank hspace _
  have hport : matchRun Char.isDigit back = some (digits, ' ' :: r.verdict.text) :=
    matchRun_append (isWord_toDigits _).1 (fun c hc => isDigit_of_mem_toDigits hc) rfl _
  have hgap₃ : matchRun isRegexpSpace (' ' :: r.verdict.text) = some ([' '], r.verdict.text) := by
    cases r.verdict <;> exact matchRun_blank rfl _
  have haction : matchWord ["accept".toList, "drop".toList] r.verdict.text =
      some (r.verdict.text, []) := by
    cases r.verdict <;> rfl
  unfold matchNFT
  simp only [hproto, hgap₁, hdport, hgap₂, hport, hgap₃, haction, Option.bind_eq_bind,
    Option.bind_some]
  rfl

/-- What the audit makes of the line of a rule. -/
def NftRule.decoded (r : NftRule) : Rule where
  backend := .nftables
  action := r.verdict.text
  direction := "in".toList
  protocol := r.protocol.text
  port := r.port.1
  source := "any".toList
  raw := trimSpace r.line

theorem parseNFTLine_rule (r : NftRule) : parseNFTLine r.line = some r.decoded := by
  -- The tabs match nothing.
  have htab : ∀ rest, matchNFT ('\t' :: rest) = none := by
    intro rest
    have hword : matchWord ["tcp".toList, "udp".toList] ('\t' :: rest) = none := by
      simp [matchWord]
    unfold matchNFT
    rw [hword]
    rfl
  have hfound : r.line.tails.findSome? matchNFT =
      some (r.protocol.text, Nat.toDigits 10 r.port.1, r.verdict.text) := by
    obtain ⟨rest, hrest⟩ : ∃ rest, r.body.tails = r.body :: rest := by
      cases r.body with
      | nil => exact ⟨[], rfl⟩
      | cons c s => exact ⟨s.tails, rfl⟩
    rw [NftRule.line, List.tails, List.tails, List.findSome?_cons, htab, List.findSome?_cons, htab,
      hrest, List.findSome?_cons, matchNFT_body]
  have hport := r.port.2
  have hvalue : atoiValue (Nat.toDigits 10 r.port.1) = r.port.1 :=
    atoiValue_toDigits (by unfold maxInt64; omega)
  have hproto : toLowerText r.protocol.text = r.protocol.text := by cases r.protocol <;> rfl
  have haction : toLowerText r.verdict.text = r.verdict.text := by cases r.verdict <;> rfl
  rw [parseNFTLine, hfound]
  simp only [Option.map_some, hproto, haction, hvalue, NftRule.decoded]

theorem parseNFTLine_base (b : BaseChain) : parseNFTLine b.line = none := by
  have hpriority : IsWord (b.priority.1 ++ [';']) := b.priority.2.concat rfl
  have hpolicy : IsWord (b.policy.text ++ [';']) := b.policy.isWord_text.concat rfl
  have hfields : fields b.line = ["type".toList, b.kind.1, "hook".toList, b.hook.text,
      "priority".toList, b.priority.1 ++ [';'], "policy".toList, b.policy.text ++ [';']] := by
    have hstart : fields b.line = "type".toList :: fields (b.kind.1 ++ ' ' :: ("hook".toList ++
        ' ' :: (b.hook.text ++ ' ' :: ("priority".toList ++ ' ' :: ((b.priority.1 ++ [';']) ++
          ' ' :: ("policy".toList ++ ' ' :: (b.policy.text ++ [';']))))))) := rfl
    rw [hstart, fields_cons b.kind.2, fields_cons (by decide), fields_cons b.hook.isWord_text,
      fields_cons (by decide), fields_cons hpriority, fields_cons (by decide),
      fields_word hpolicy]
  refine parseNFTLine_eq_none fun dport port action rest hsuffix hwords => ?_
  rw [hfields] at hsuffix
  have hdport := hwords.dport
  have hport := hwords.port
  simp only [List.suffix_cons_iff, List.suffix_nil, List.cons.injEq, reduceCtorEq, and_false,
    or_false] at hsuffix
  -- The word that would be `dport` is another, or no number follows it.
  rcases hsuffix with ⟨rfl, -⟩ | ⟨-, rfl, -⟩ | ⟨rfl, -⟩ | ⟨rfl, -⟩ | ⟨rfl, -⟩ | ⟨-, rfl, -⟩
  · exact absurd hdport (by decide)
  · exact absurd (hport 'h' (by decide)) (by decide)
  · exact absurd hdport (by decide)
  · revert hdport
    cases b.hook <;> decide
  · exact absurd hdport (by decide)
  · exact absurd (hport 'p' (by decide)) (by decide)

theorem parseNFTLine_chain (name : NftWord) :
    parseNFTLine ("\tchain ".toList ++ (name.1 ++ " \x7b".toList)) = none := by
  have hbrace : IsWord ['{'] := by decide
  have hfields : fields ("\tchain ".toList ++ (name.1 ++ " \x7b".toList)) =
      ["chain".toList, name.1, ['{']] := by
    have hstart : fields ("\tchain ".toList ++ (name.1 ++ ' ' :: ['{'])) =
        "chain".toList :: fields (name.1 ++ ' ' :: ['{']) := rfl
    refine hstart.trans ?_
    rw [fields_cons name.2, fields_word hbrace]
  refine parseNFTLine_eq_none fun dport port action rest hsuffix hwords => ?_
  rw [hfields] at hsuffix
  have hdport := hwords.dport
  simp only [List.suffix_cons_iff, List.suffix_nil, List.cons.injEq, reduceCtorEq, and_false,
    or_false] at hsuffix
  obtain ⟨rfl, -⟩ := hsuffix
  exact absurd hdport (by decide)

theorem parseNFTLine_table (family name : NftWord) :
    parseNFTLine ("table ".toList ++ (family.1 ++ ' ' :: (name.1 ++ " \x7b".toList))) = none := by
  have hbrace : IsWord ['{'] := by decide
  have hfields : fields ("table ".toList ++ (family.1 ++ ' ' :: (name.1 ++ " \x7b".toList))) =
      ["table".toList, family.1, name.1, ['{']] := by
    have hstart : fields ("table ".toList ++ (family.1 ++ ' ' :: (name.1 ++ ' ' :: ['{']))) =
        "table".toList :: fields (family.1 ++ ' ' :: (name.1 ++ ' ' :: ['{'])) := rfl
    refine hstart.trans ?_
    rw [fields_cons family.2, fields_cons name.2, fields_word hbrace]
  refine parseNFTLine_eq_none fun dport port action rest hsuffix hwords => ?_
  rw [hfields] at hsuffix
  have hdport := hwords.dport
  obtain ⟨verdict, hverdict, hverb⟩ := hwords.action
  simp only [List.suffix_cons_iff, List.suffix_nil, List.cons.injEq, reduceCtorEq, and_false,
    or_false] at hsuffix
  rcases hsuffix with ⟨rfl, -⟩ | ⟨-, -, rfl, -⟩
  · exact absurd hdport (by decide)
  · -- A brace is no verdict.
    rcases (by simpa using hverdict : verdict = "accept".toList ∨ verdict = "drop".toList)
      with rfl | rfl
    · exact absurd hverb (by decide)
    · exact absurd hverb (by decide)

/-! ## The text -/

/-- The rules of all chains, whatever hook they have. -/
def allRules (tables : List Table) : List NftRule := (chainsOf tables).flatMap Chain.rules

theorem filterMap_chain (c : Chain) :
    c.lines.filterMap parseNFTLine = c.rules.map NftRule.decoded := by
  have hbase : (c.base.toList.map BaseChain.line).filterMap parseNFTLine = [] := by
    cases c.base with
    | none => rfl
    | some b => exact List.filterMap_cons_none (parseNFTLine_base b)
  have hrules : (c.rules.map NftRule.line).filterMap parseNFTLine =
      c.rules.map NftRule.decoded := by
    rw [List.filterMap_map, ← List.filterMap_eq_map]
    exact List.filterMap_congr fun r _ => parseNFTLine_rule r
  have hend : parseNFTLine "\t\x7d".toList = none := by decide
  rw [Chain.lines, List.filterMap_cons_none (parseNFTLine_chain c.name), List.filterMap_append,
    List.filterMap_append, hbase, hrules, List.filterMap_cons_none hend, List.filterMap_nil,
    List.nil_append, List.append_nil]

theorem filterMap_chains (chains : List Chain) :
    (chainLines chains).filterMap parseNFTLine =
      (chains.flatMap Chain.rules).map NftRule.decoded := by
  have hblank : parseNFTLine [] = none := by decide
  induction chains with
  | nil => rfl
  | cons c chains ih =>
    cases chains with
    | nil => simpa [chainLines] using filterMap_chain c
    | cons next chains =>
      have hlines : chainLines (c :: next :: chains) =
          c.lines ++ [] :: chainLines (next :: chains) := rfl
      rw [hlines, List.filterMap_append, List.filterMap_cons_none hblank, filterMap_chain, ih,
        ← List.map_append]
      rfl

theorem filterMap_table (t : Table) :
    t.lines.filterMap parseNFTLine = (t.chains.flatMap Chain.rules).map NftRule.decoded := by
  have hend : parseNFTLine "\x7d".toList = none := by decide
  rw [Table.lines, List.filterMap_cons_none (parseNFTLine_table t.family t.name),
    List.filterMap_append, filterMap_chains, List.filterMap_cons_none hend, List.filterMap_nil,
    List.append_nil]

theorem NftRule.not_newline (r : NftRule) : '\n' ∉ r.line := by
  have hport : '\n' ∉ Nat.toDigits 10 r.port.1 := not_mem_toDigits (by decide)
  have hproto := not_newline_of_isWord r.protocol.isWord_text
  have hverdict := not_newline_of_isWord r.verdict.isWord_text
  simp [NftRule.line, NftRule.body, hport, hproto, hverdict]

theorem BaseChain.not_newline (b : BaseChain) : '\n' ∉ b.line := by
  have hhook := not_newline_of_isWord b.hook.isWord_text
  have hpolicy := not_newline_of_isWord b.policy.isWord_text
  have hkind := not_newline_of_isWord b.kind.2
  have hpriority := not_newline_of_isWord b.priority.2
  have hblank : ∀ {front back : List Char}, '\n' ∉ front → '\n' ∉ back →
      '\n' ∉ front ++ ' ' :: back := fun hfront hback =>
    List.not_mem_append hfront (List.not_mem_cons_of_ne_of_not_mem (by decide) hback)
  refine List.not_mem_append (by decide) (hblank hkind (hblank (by decide) (hblank hhook ?_)))
  refine hblank (by decide) (hblank (List.not_mem_append hpriority (by decide)) ?_)
  exact hblank (by decide) (List.not_mem_append hpolicy (by decide))

theorem not_newline_chain (c : Chain) : ∀ line ∈ c.lines, '\n' ∉ line := by
  intro line hline
  simp only [Chain.lines, List.mem_cons, List.mem_append, List.mem_map, List.not_mem_nil,
    or_false] at hline
  rcases hline with rfl | (⟨b, -, rfl⟩ | ⟨r, -, rfl⟩) | rfl
  · simp [not_newline_of_isWord c.name.2]
  · exact b.not_newline
  · exact r.not_newline
  · decide

theorem not_newline_chains (chains : List Chain) : ∀ line ∈ chainLines chains, '\n' ∉ line := by
  induction chains with
  | nil => exact fun line hline => absurd hline List.not_mem_nil
  | cons c chains ih =>
    cases chains with
    | nil => exact not_newline_chain c
    | cons next chains =>
      intro line hline
      rcases List.mem_append.1 hline with hline | hline
      · exact not_newline_chain c line hline
      · rcases List.mem_cons.1 hline with rfl | hline
        · exact List.not_mem_nil
        · exact ih line hline

theorem not_newline_ruleset (tables : List Table) :
    ∀ line ∈ tables.flatMap Table.lines, '\n' ∉ line := by
  intro line hline
  obtain ⟨t, -, ht⟩ := List.mem_flatMap.1 hline
  simp only [Table.lines, List.mem_cons, List.mem_append, List.not_mem_nil, or_false] at ht
  rcases ht with rfl | ht | rfl
  · simp [not_newline_of_isWord t.family.2, not_newline_of_isWord t.name.2]
  · exact not_newline_chains t.chains line ht
  · decide

theorem parse_rulesetText (tables : List Table) :
    parseNFTRules (rulesetText tables) = (allRules tables).map NftRule.decoded := by
  have hblank : parseNFTLine [] = none := by decide
  rw [parseNFTRules, rulesetText, Decode.filterMap_ended hblank (not_newline_ruleset tables),
    allRules, chainsOf]
  induction tables with
  | nil => rfl
  | cons t tables ih =>
    rw [List.flatMap_cons, List.flatMap_cons, List.flatMap_append, List.filterMap_append,
      List.map_append, filterMap_table, ih]

/-! ## The gap -/

/-- A rule by its protocol, port and action. -/
def Rule.key (r : Rule) : List Char × Int × List Char := (r.protocol, r.port, r.action)

def NftRule.key (r : NftRule) : List Char × Int × List Char :=
  (r.protocol.text, r.port.1, r.verdict.text)

/-- A router that forwards SSH and has no rule for what comes in. -/
def router : Table where
  family := ⟨"inet".toList, by decide⟩
  name := ⟨"filter".toList, by decide⟩
  chains := [{
    name := ⟨"forward".toList, by decide⟩
    base := some ⟨⟨"filter".toList, by decide⟩, .forward, ⟨"0".toList, by decide⟩, .drop⟩
    rules := [⟨.tcp, ⟨22, by decide⟩, .accept⟩] }]

/-- **A rule for forwarded packets is read** as one for what comes in. -/
theorem reads_forward :
    ¬ ∀ tables : List Table,
      (parseNFTRules (rulesetText tables)).map Rule.key = (inbound tables).map NftRule.key := by
  intro hall
  have hrouter := hall [router]
  rw [parse_rulesetText] at hrouter
  exact absurd hrouter (by decide)

/-! ## The exact condition -/

/-- **The rules read are the inbound ones exactly when every rule is in a chain hooked to
`input`.** -/
theorem reads_inbound_iff (tables : List Table) :
    (parseNFTRules (rulesetText tables)).map Rule.key = (inbound tables).map NftRule.key ↔
      ∀ t ∈ tables, ∀ c ∈ t.chains, c.rules ≠ [] → c.Inbound := by
  -- Every rule, with its chain.
  let placed : List (Chain × NftRule) :=
    (chainsOf tables).flatMap fun c => c.rules.map fun r => (c, r)
  let want : Chain × NftRule → Option (List Char × Int × List Char) :=
    fun i => if i.1.Inbound then some i.2.key else none
  have hgot : (parseNFTRules (rulesetText tables)).map Rule.key =
      placed.filterMap fun i => some i.2.key := by
    rw [parse_rulesetText, allRules, List.map_map, List.map_flatMap, List.filterMap_flatMap]
    refine List.flatMap_congr fun c _ => ?_
    rw [List.filterMap_map, ← List.filterMap_eq_map]
    rfl
  have hwant : (inbound tables).map NftRule.key = placed.filterMap want := by
    rw [inbound, List.map_flatMap, List.filterMap_flatMap]
    refine List.flatMap_congr fun c _ => ?_
    rw [List.filterMap_map]
    by_cases hc : c.Inbound
    · rw [if_pos hc, ← List.filterMap_eq_map]
      exact List.filterMap_congr fun r _ => (if_pos hc).symm
    · rw [if_neg hc, List.map_nil]
      exact (List.filterMap_eq_nil_iff.2 fun r _ => if_neg hc).symm
  rw [hgot, hwant, Decode.filterMap_eq_iff fun i _ _ => rfl]
  constructor
  · intro hall t ht c hc hrules
    obtain ⟨r, hr⟩ := List.exists_mem_of_ne_nil _ hrules
    have hplaced : (c, r) ∈ placed :=
      List.mem_flatMap.2 ⟨c, List.mem_flatMap.2 ⟨t, ht, hc⟩, List.mem_map_of_mem hr⟩
    have hread := hall (c, r) hplaced
    by_contra hother
    rw [show want (c, r) = none from if_neg hother] at hread
    cases hread
  · intro hall i hi
    obtain ⟨c, hc, hi⟩ := List.mem_flatMap.1 hi
    obtain ⟨t, ht, hc⟩ := List.mem_flatMap.1 hc
    obtain ⟨r, hr, rfl⟩ := List.mem_map.1 hi
    exact (if_pos (hall t ht c hc (List.ne_nil_of_mem hr))).symm

end QuickVps.Firewall
