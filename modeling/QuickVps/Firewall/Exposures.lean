import QuickVps.Firewall.Audit
import QuickVps.Lib.FirstMatch

/-!
# Exposures and `iptables`

What `iptables -S` prints for the chain INPUT is a default policy and an ordered list of rules,
with lines of other chains between them. A packet goes the way of the first rule that matches its
protocol and port, or of the policy. The audit reads no policy and no order: a listener counts as
allowed as soon as some rule accepts it.

* `Listing`, `Listing.text` — what is printed; `Listing.accepts` — what `iptables` does with it;
* `parseIPTablesLine_text` — the rules are read back;
* `mem_allowedKeys_iff` — which listeners the audit takes for allowed;
* `agrees_iff_plain` — the audit says what `iptables` does for exactly the `Plain` listeners;
* `exposed_reported_low` — an open port that is reported as low risk.
-/

namespace QuickVps.Firewall

open Go
open Ports (Listener)

/-! ## The listing -/

/-- Where `-j` sends a packet. -/
inductive Target where
  | accept
  | drop
  | reject
  deriving DecidableEq

def Target.text : Target → List Char
  | .accept => "ACCEPT".toList
  | .drop => "DROP".toList
  | .reject => "REJECT".toList

/-- The name of a protocol, a word that is no flag. -/
structure ProtocolName where
  text : List Char
  isWord : IsWord text
  ascii : ∀ c ∈ text, c.toNat < 128
  not_flag : text.head? ≠ some '-'

/-- `named` is whether the protocol's module is asked for with `-m`. -/
structure InputRule where
  protocol : ProtocolName
  named : Bool
  port : { n : Nat // n < 65536 }
  target : Target

/-- The words before the port. -/
def InputRule.front (r : InputRule) : List (List Char) :=
  ["-A".toList, "INPUT".toList, "-p".toList, r.protocol.text] ++
    if r.named then ["-m".toList, r.protocol.text] else []

def InputRule.words (r : InputRule) : List (List Char) :=
  r.front ++ ["--dport".toList, Nat.toDigits 10 r.port.1, "-j".toList, r.target.text]

def InputRule.text (r : InputRule) : List Char := [' '].intercalate r.words

/-- A line that neither sets the policy of INPUT nor adds a rule to it. -/
structure OtherLine where
  text : List Char
  not_newline : '\n' ∉ text
  not_rule : ¬ ["-A".toList, "INPUT".toList] <+: fields text
  not_policy : ¬ ["-P".toList, "INPUT".toList] <+: fields text

inductive Entry where
  | rule (r : InputRule)
  | other (line : OtherLine)

def Entry.text : Entry → List Char
  | .rule r => r.text
  | .other line => line.text

def Entry.rule? : Entry → Option InputRule
  | .rule r => some r
  | .other _ => none

/-- The policy is ACCEPT or DROP. -/
structure Listing where
  policyAccepts : Bool
  entries : List Entry

def Listing.policyLine (s : Listing) : List Char :=
  if s.policyAccepts then "-P INPUT ACCEPT".toList else "-P INPUT DROP".toList

/-- Every line is ended, so the text splits into the lines and an empty rest. -/
def Listing.lines (s : Listing) : List (List Char) :=
  s.policyLine :: (s.entries.map Entry.text ++ [[]])

def Listing.text (s : Listing) : List Char := ['\n'].intercalate s.lines

def Listing.rules (s : Listing) : List InputRule := s.entries.filterMap Entry.rule?

/-! ## What `iptables` does -/

/-- A rule is for one protocol, in any case, and one port. -/
def InputRule.applies (l : Listener) (r : InputRule) : Bool :=
  toUpperText r.protocol.text = toUpperText l.protocol ∧ (r.port.1 : Int) = l.port

def InputRule.accepts (r : InputRule) : Bool := r.target = .accept

/-- The first rule that matches decides, then the policy. -/
def Listing.accepts (s : Listing) (l : Listener) : Bool :=
  FirstMatch.decision (InputRule.applies l) InputRule.accepts s.policyAccepts s.rules

/-! ## The listing is read back -/

theorem Target.isWord_text (t : Target) : IsWord t.text := by cases t <;> decide

theorem mem_front {r : InputRule} {word : List Char} (h : word ∈ r.front) :
    word ∈ ["-A".toList, "INPUT".toList, "-p".toList, "-m".toList] ∨ word = r.protocol.text := by
  unfold InputRule.front at h
  cases hnamed : r.named <;> simp [hnamed] at h ⊢ <;> tauto

theorem isWord_of_mem_words (r : InputRule) : ∀ word ∈ r.words, IsWord word := by
  have hfront : ∀ word ∈ ["-A".toList, "INPUT".toList, "-p".toList, "-m".toList],
      IsWord word := by simp [IsWord, isSpace]
  intro word hword
  rcases List.mem_append.1 hword with h | h
  · rcases mem_front h with h | rfl
    · exact hfront word h
    · exact r.protocol.isWord
  · rcases (by simpa using h : word = "--dport".toList ∨ word = Nat.toDigits 10 r.port.1 ∨
      word = "-j".toList ∨ word = r.target.text) with rfl | rfl | rfl | rfl
    · decide
    · exact isWord_toDigits _
    · decide
    · exact r.target.isWord_text

theorem newline_notMem_lines (s : Listing) : ∀ line ∈ s.lines, '\n' ∉ line := by
  intro line hline
  rw [Listing.lines, List.mem_cons, List.mem_append] at hline
  rcases hline with rfl | hline | hline
  · unfold Listing.policyLine
    cases s.policyAccepts <;> decide
  · obtain ⟨entry, -, rfl⟩ := List.mem_map.1 hline
    cases entry with
    | rule r =>
      refine not_mem_intercalate (by decide) fun word hword hnewline => ?_
      exact absurd ((isWord_of_mem_words r word hword).2 _ hnewline) (by decide)
    | other line => exact line.not_newline
  · rw [List.mem_singleton.1 hline]
    exact List.not_mem_nil

theorem mem_rules {s : Listing} {r : InputRule} : r ∈ s.rules ↔ .rule r ∈ s.entries := by
  rw [Listing.rules, List.mem_filterMap]
  constructor
  · rintro ⟨entry, hentry, hrule⟩
    cases entry with
    | rule r' =>
      cases hrule
      exact hentry
    | other line => cases hrule
  · exact fun h => ⟨_, h, rfl⟩

theorem text_mem_lines {s : Listing} {entry : Entry} (h : entry ∈ s.entries) :
    entry.text ∈ s.lines :=
  List.mem_cons_of_mem _ (List.mem_append_left _ (List.mem_map_of_mem h))

theorem splitOn_text (s : Listing) : s.text.splitOn '\n' = s.lines :=
  List.splitOn_intercalate '\n' (newline_notMem_lines s) (by simp [Listing.lines])

theorem tokenAfter_of_ne {flag part : List Char} (h : part ≠ flag) (rest : List (List Char)) :
    tokenAfter flag (part :: rest) = tokenAfter flag rest := by
  cases rest with
  | nil => rfl
  | cons next rest => rw [tokenAfter, if_neg h]

/-- The word after the first occurrence of the flag. -/
theorem tokenAfter_append {flag : List Char} {before : List (List Char)} (h : flag ∉ before)
    (next : List Char) (rest : List (List Char)) :
    tokenAfter flag (before ++ flag :: next :: rest) = next := by
  induction before with
  | nil => rw [List.nil_append, tokenAfter, if_pos rfl]
  | cons part before ih =>
    obtain ⟨hpart, hbefore⟩ := not_or.1 (List.mem_cons.not.1 h)
    rw [List.cons_append, tokenAfter_of_ne (Ne.symm hpart), ih hbefore]

/-- Neither a protocol nor a number is taken for a flag. -/
theorem ProtocolName.ne_flag (p : ProtocolName) (flag : List Char) : '-' :: flag ≠ p.text :=
  fun h => p.not_flag (by rw [← h]; rfl)

theorem toDigits_ne_flag (n : Nat) (flag : List Char) : '-' :: flag ≠ Nat.toDigits 10 n :=
  fun h => not_mem_toDigits (n := n) (c := '-') (by decide) (h ▸ List.mem_cons_self)

theorem InputRule.trimSpace_text (r : InputRule) : trimSpace r.text = r.text :=
  trimSpace_intercalate (isWord_of_mem_words r)

/-- A flag of a rule is read back when no word before it is the flag. -/
theorem parseTokenAfter_text (r : InputRule) {flag next : List Char}
    {before rest : List (List Char)} (hwords : r.words = before ++ flag :: next :: rest)
    (hbefore : flag ∉ before) : parseTokenAfter r.text flag = next := by
  rw [parseTokenAfter, InputRule.text, fields_intercalate (isWord_of_mem_words r), hwords,
    tokenAfter_append hbefore]

theorem parseTokenAfter_protocol (r : InputRule) :
    parseTokenAfter r.text "-p".toList = r.protocol.text := by
  have hwords : r.words = ["-A".toList, "INPUT".toList] ++ "-p".toList :: r.protocol.text ::
      _ := rfl
  exact parseTokenAfter_text r hwords (by decide)

theorem parseTokenAfter_port (r : InputRule) :
    parseTokenAfter r.text "--dport".toList = Nat.toDigits 10 r.port.1 := by
  refine parseTokenAfter_text r rfl fun h => ?_
  rcases mem_front h with h | h
  · exact absurd h (by decide)
  · exact r.protocol.ne_flag _ h

theorem parseTokenAfter_target (r : InputRule) :
    parseTokenAfter r.text "-j".toList = r.target.text := by
  have hwords : r.words = (r.front ++ ["--dport".toList, Nat.toDigits 10 r.port.1]) ++
      ["-j".toList, r.target.text] := by simp [InputRule.words]
  refine parseTokenAfter_text r hwords fun h => ?_
  rcases List.mem_append.1 h with h | h
  · rcases mem_front h with h | h
    · exact absurd h (by decide)
    · exact r.protocol.ne_flag _ h
  · rcases (by simpa using h : "-j".toList = "--dport".toList ∨
      "-j".toList = Nat.toDigits 10 r.port.1) with h | h
    · exact absurd h (by decide)
    · exact toDigits_ne_flag _ _ h

/-- **A rule is read back**, unless it is for port 0. -/
theorem parseIPTablesLine_text (r : InputRule) :
    parseIPTablesLine r.text =
      if r.port.1 = 0 then none
      else some
        { backend := .iptables
          action := toLowerText r.target.text
          direction := "in".toList
          protocol := toLowerText r.protocol.text
          port := r.port.1
          source := "any".toList
          raw := r.text } := by
  have hne : r.text ≠ [] := intercalate_ne_nil (by decide) _
  have hstart : "-A INPUT".toList.isPrefixOf r.text = true := rfl
  have hport : atoiValue (Nat.toDigits 10 r.port.1) = r.port.1 := by
    have hlt := r.port.2
    exact atoiValue_toDigits (by unfold maxInt64; omega)
  simp only [parseIPTablesLine, r.trimSpace_text, parseTokenAfter_port, parseTokenAfter_target,
    parseTokenAfter_protocol, hport]
  rw [if_neg (not_or.2 ⟨hne, not_not.2 hstart⟩)]
  by_cases hzero : r.port.1 = 0
  · rw [if_pos hzero, if_pos (by omega)]
  · rw [if_neg hzero, if_neg (by omega)]

/-! ## What the audit makes of it -/

/-- A line that the audit takes for a rule that accepts the listener. -/
def allowsListener (l : Listener) (line : List Char) : Bool :=
  (parseIPTablesLine line).any fun rule => rule.allows ∧
    exposureKey (toUpperText rule.protocol) rule.port = exposureKey (toUpperText l.protocol) l.port

theorem exposureKey_inj {proto proto' : List Char} {m n : Int} (hm : 0 ≤ m) (hn : 0 ≤ n) :
    exposureKey proto m = exposureKey proto' n ↔
      toUpperText proto = toUpperText proto' ∧ m = n := by
  constructor
  · intro h
    obtain ⟨hproto, hport⟩ := append_cons_inj (not_mem_itoa hm (by decide))
      (not_mem_itoa hn (by decide)) h
    exact ⟨hproto, itoa_inj hm hn hport⟩
  · rintro ⟨hproto, rfl⟩
    rw [exposureKey, exposureKey, hproto]

theorem allows_target (r : Rule) (t : Target) (h : r.action = toLowerText t.text) :
    r.allows = decide (t = .accept) := by
  rw [Rule.allows, h]
  cases t <;> decide

/-- Of the chain INPUT, the audit takes for such lines the rules that match and accept. -/
theorem allowsListener_text (r : InputRule) {l : Listener} (hl : 0 < l.port) :
    allowsListener l r.text = (r.applies l && r.accepts) := by
  rw [allowsListener, parseIPTablesLine_text]
  by_cases hzero : r.port.1 = 0
  · have hport : (r.port.1 : Int) ≠ l.port := by omega
    simp [hzero, InputRule.applies, hl.ne]
  · rw [if_neg hzero, Option.any_some, allows_target _ r.target rfl]
    simp only [exposureKey_inj (Int.natCast_nonneg _) hl.le, toUpperText_toUpperText,
      toUpperText_toLowerText r.protocol.ascii, InputRule.applies, InputRule.accepts]
    rw [Bool.and_comm]
    simp

theorem mem_allowedKeys {l : Listener} {raw : List Char} :
    exposureKey (toUpperText l.protocol) l.port ∈ allowedKeys (parseIPTablesRules raw) ↔
      ∃ line ∈ raw.splitOn '\n', allowsListener l line = true := by
  simp only [allowedKeys, parseIPTablesRules, allowsListener, List.mem_map, List.mem_filter,
    List.mem_filterMap, Option.any_eq_true, decide_eq_true_eq]
  constructor
  · rintro ⟨rule, ⟨⟨line, hline, hparse⟩, hallows⟩, hkey⟩
    exact ⟨line, hline, rule, hparse, hallows, hkey⟩
  · rintro ⟨line, hline, rule, hparse, hallows, hkey⟩
    exact ⟨rule, ⟨⟨line, hline, hparse⟩, hallows⟩, hkey⟩

/-- The word that follows the first such flag, the empty text where none does. -/
def wordAfter (flag : List Char) (words : List (List Char)) : List Char :=
  (words.dropWhile fun word => word ≠ flag)[1]?.getD []

theorem tokenAfter_eq (flag : List Char) (words : List (List Char)) :
    tokenAfter flag words = wordAfter flag words := by
  induction words with
  | nil => rfl
  | cons part words ih =>
    by_cases hpart : part = flag
    · subst hpart
      cases words <;> simp [tokenAfter, wordAfter]
    · rw [tokenAfter_of_ne hpart, ih, wordAfter, wordAfter, List.dropWhile_cons_of_pos (by simpa)]

/-- A line with the words of a rule that accepts the listener, for a chain whose name begins with
INPUT. -/
structure Resembles (l : Listener) (line : List Char) : Prop where
  chain : "-A INPUT".toList <+: trimSpace line
  protocol : toUpperText (toLowerText (wordAfter "-p".toList (fields line))) =
    toUpperText l.protocol
  port : atoiValue (wordAfter "--dport".toList (fields line)) = l.port
  target : equalFold (toLowerText (wordAfter "-j".toList (fields line))) "allow".toList = true ∨
    equalFold (toLowerText (wordAfter "-j".toList (fields line))) "accept".toList = true

theorem allowsListener_iff {l : Listener} (hl : 0 < l.port) (line : List Char) :
    allowsListener l line = true ↔ Resembles l line := by
  have hword (flag : List Char) :
      parseTokenAfter (trimSpace line) flag = wordAfter flag (fields line) := by
    rw [parseTokenAfter, fields_trimSpace, tokenAfter_eq]
  simp only [allowsListener, parseIPTablesLine, hword]
  by_cases hchain : "-A INPUT".toList <+: trimSpace line
  · have hne : trimSpace line ≠ [] := by
      intro hnil
      rw [hnil] at hchain
      exact absurd hchain (by decide)
    have hstart : "-A INPUT".toList.isPrefixOf (trimSpace line) = true :=
      List.isPrefixOf_iff_prefix.2 hchain
    rw [if_neg (not_or.2 ⟨hne, not_not.2 hstart⟩)]
    by_cases hport : atoiValue (wordAfter "--dport".toList (fields line)) ≤ 0
    · rw [if_pos hport]
      refine iff_of_false (by simp) fun h => ?_
      have hvalue := h.port
      omega
    · rw [if_neg hport, Option.any_some, decide_eq_true_eq,
        exposureKey_inj (not_le.1 hport).le hl.le, toUpperText_toUpperText,
        toUpperText_toUpperText, Rule.allows, Bool.or_eq_true]
      exact ⟨fun h => ⟨hchain, h.2.1, h.2.2, h.1⟩, fun h => ⟨h.target, h.protocol, h.port⟩⟩
  · have hstart : ¬ "-A INPUT".toList.isPrefixOf (trimSpace line) = true :=
      fun h => hchain (List.isPrefixOf_iff_prefix.1 h)
    rw [if_pos (.inr hstart)]
    exact iff_of_false (by simp) fun h => hchain h.chain

/-- A line of another chain that the audit takes for a rule that accepts the listener. -/
def Listing.Misread (s : Listing) (l : Listener) : Prop :=
  ∃ line : OtherLine, .other line ∈ s.entries ∧ Resembles l line.text

/-- **What the audit takes for allowed**: neither the order nor the policy is looked at. -/
theorem mem_allowedKeys_iff (s : Listing) {l : Listener} (hl : 0 < l.port) :
    exposureKey (toUpperText l.protocol) l.port ∈ allowedKeys (parseIPTablesRules s.text) ↔
      s.Misread l ∨ FirstMatch.Accepted (InputRule.applies l) InputRule.accepts s.rules := by
  have hpolicy : allowsListener l s.policyLine = false := by
    unfold Listing.policyLine
    cases s.policyAccepts <;> rfl
  rw [mem_allowedKeys, splitOn_text]
  constructor
  · rintro ⟨line, hline, hallows⟩
    rw [Listing.lines, List.mem_cons, List.mem_append, List.mem_map] at hline
    rcases hline with rfl | ⟨entry, hentry, rfl⟩ | hline
    · rw [hpolicy] at hallows
      cases hallows
    · cases entry with
      | rule r =>
        rw [Entry.text, allowsListener_text r hl, Bool.and_eq_true] at hallows
        exact .inr ⟨r, mem_rules.2 hentry, hallows⟩
      | other line => exact .inl ⟨line, hentry, (allowsListener_iff hl _).1 hallows⟩
    · rw [List.mem_singleton.1 hline] at hallows
      cases hallows
  · rintro (⟨line, hentry, hwords⟩ | ⟨r, hr, hmatch⟩)
    · exact ⟨line.text, text_mem_lines hentry, (allowsListener_iff hl _).2 hwords⟩
    · refine ⟨r.text, text_mem_lines (mem_rules.1 hr), ?_⟩
      rw [allowsListener_text r hl, Bool.and_eq_true]
      exact hmatch

/-! ## What the audit says -/

/-- The listener is reported as what `iptables` does with its packets: allowed, with the risk of its
port, or not. -/
structure Exposure.Agrees (policy : RiskPolicy) (l : Listener) (accepted : Bool) (e : Exposure) :
    Prop where
  port : e.port = l.port
  protocol : e.protocol = toUpperText l.protocol
  allowed : e.reason ≠ "listener exists but no matching allow rule found" ↔ accepted = true
  high : accepted = true → l.port ∈ policy.highRiskPorts → e.risk = "high"
  medium : accepted = true → l.port ∉ policy.highRiskPorts → l.port ∈ policy.mediumRiskPorts →
    e.risk = "medium"
  low : accepted = false → e.risk = "low"

theorem reason_exposure (policy : RiskPolicy) (l : Listener) (b : Bool) :
    (exposure policy l b).reason ≠ "listener exists but no matching allow rule found" ↔
      b = true := by
  simp only [exposure, exposureRisk]
  cases b with
  | false => simp
  | true =>
    rw [if_neg (by decide)]
    split_ifs <;> simp

/-- An exposure agrees with one decision, the one it is made for. -/
theorem agrees_exposure_iff (policy : RiskPolicy) (l : Listener) (accepted b : Bool) :
    (exposure policy l b).Agrees policy l accepted ↔ b = accepted := by
  constructor
  · intro h
    exact Bool.eq_iff_iff.2 ((reason_exposure policy l b).symm.trans h.allowed)
  · rintro rfl
    refine ⟨rfl, rfl, reason_exposure policy l b, ?_, ?_, ?_⟩
    · rintro rfl hhigh
      simp [exposure, exposureRisk, hhigh]
    · rintro rfl hhigh hmedium
      simp [exposure, exposureRisk, hhigh, hmedium]
    · rintro rfl
      rfl

theorem listExposures_of_listing {host : Host} {s : Listing} {listeners : List Listener}
    (hbackend : detectBackend host = some .iptables)
    (hrun : host.runCommand "iptables" ["-S"] = .ok s.text)
    (hlisteners : Ports.listListeners toUpperText host.os = .ok listeners) :
    listExposures host = .ok (listeners.map fun l =>
      exposure (loadRiskPolicyFromEnv host) l ((allowedKeys (parseIPTablesRules s.text)).contains
        (exposureKey (toUpperText l.protocol) l.port))) := by
  have hrules : listRules host = .ok (parseIPTablesRules s.text) := by
    rw [listRules, hbackend]
    simp only [hrun]
    rfl
  rw [listExposures, hlisteners, hrules]
  rfl

/-! ## An open port of low risk -/

def redis : Listener := ⟨"TCP".toList, "*".toList, 6379, 100, "redis-server".toList⟩

/-- A host on which a database listens on every address. -/
def redisOs : Ports.Os where
  lsof args :=
    if args = Ports.listenArgs then .ok "p100\ncredis-server\nPTCP\nn*:6379\n".toList
    else .failed []
  findProcess _ := none
  signal _ := none

def redisHost (s : Listing) : Host where
  os := redisOs
  lookPath program := program = "iptables"
  runCommand _ _ := .ok s.text
  getenv _ := []

theorem listListeners_redisOs : Ports.listListeners toUpperText redisOs = .ok [redis] := by
  have hlisten : Ports.runLsof toUpperText redisOs Ports.listenArgs = .ok [redis] := by
    decide +kernel
  have hdatagrams : Ports.runLsof toUpperText redisOs Ports.udpArgs = .ok [] := rfl
  rw [Ports.listListeners, hlisten, hdatagrams]
  exact congrArg Except.ok (List.mergeSort_singleton redis)

/-- The packet filter of a host on which nobody has set one up. -/
def unset : Listing := ⟨true, []⟩

/-- **An open port of a database is reported as low risk.** -/
theorem exposed_reported_low :
    ¬ ∀ (host : Host) (s : Listing) (listeners : List Listener),
      detectBackend host = some .iptables →
      host.runCommand "iptables" ["-S"] = .ok s.text →
      Ports.listListeners toUpperText host.os = .ok listeners →
      ∃ exposures, listExposures host = .ok exposures ∧
        List.Forall₂ (fun l e => e.Agrees (loadRiskPolicyFromEnv host) l (s.accepts l))
          listeners exposures := by
  intro hall
  have hlisteners : Ports.listListeners toUpperText (redisHost unset).os = .ok [redis] :=
    listListeners_redisOs
  obtain ⟨exposures, hlist, hagree⟩ := hall (redisHost unset) unset [redis] rfl rfl hlisteners
  rw [listExposures_of_listing rfl rfl hlisteners] at hlist
  cases hlist
  rw [List.map_cons, List.forall₂_cons, agrees_exposure_iff] at hagree
  exact absurd hagree.1 (by decide)

/-! ## When the audit is right -/

/-- The order of the rules and the policy make no difference for the listener. -/
structure Listing.Plain (s : Listing) (l : Listener) : Prop where
  /-- No rule that accepts comes after a first rule that does not. -/
  not_shadowed : ¬ FirstMatch.Shadowed (InputRule.applies l) InputRule.accepts s.rules
  misread : s.Misread l → s.accepts l = true
  /-- Where no rule matches, the policy is DROP, but for a misread line that happens to agree. -/
  policy : FirstMatch.Undecided (InputRule.applies l) s.rules → s.policyAccepts = true → s.Misread l

theorem plain_iff (s : Listing) {l : Listener} (hl : 0 < l.port) :
    (allowedKeys (parseIPTablesRules s.text)).contains
      (exposureKey (toUpperText l.protocol) l.port) = s.accepts l ↔ s.Plain l := by
  rw [Bool.eq_iff_iff, List.contains_iff_mem, mem_allowedKeys_iff s hl, Listing.accepts,
    FirstMatch.accepted_iff_decision_iff]
  exact ⟨fun h => ⟨h.1, h.2.1, h.2.2⟩, fun h => ⟨h.not_shadowed, h.misread, h.policy⟩⟩

/-- **When the audit agrees with `iptables`**: for exactly the listeners for which neither the order
of the rules nor the policy makes a difference. -/
theorem agrees_iff_plain {host : Host} {s : Listing} {listeners : List Listener}
    (hbackend : detectBackend host = some .iptables)
    (hrun : host.runCommand "iptables" ["-S"] = .ok s.text)
    (hlisteners : Ports.listListeners toUpperText host.os = .ok listeners) :
    ∃ exposures, listExposures host = .ok exposures ∧
      List.Forall₂ (fun l e => e.Agrees (loadRiskPolicyFromEnv host) l (s.accepts l) ↔ s.Plain l)
        listeners exposures := by
  refine ⟨_, listExposures_of_listing hbackend hrun hlisteners, ?_⟩
  rw [List.forall₂_map_right_iff, List.forall₂_same]
  intro l hl
  have hport : 0 < l.port := (Ports.positive_of_mem_listListeners toUpperText hlisteners hl).1
  rw [agrees_exposure_iff, plain_iff s hport]

def tcp : ProtocolName where
  text := "tcp".toList
  isWord := by decide
  ascii := by simp
  not_flag := by decide

/-- A rule for the port of the database. -/
def redisRule (t : Target) : InputRule := ⟨tcp, true, ⟨6379, by decide⟩, t⟩

/-- The port of the database is closed, whatever the second rule says. -/
def closed : Listing := ⟨false, [.rule (redisRule .drop), .rule (redisRule .accept)]⟩

theorem agrees_iff_plain_closed :
    ∃ exposures, listExposures (redisHost closed) = .ok exposures ∧
      List.Forall₂
        (fun l e => e.Agrees (loadRiskPolicyFromEnv (redisHost closed)) l (closed.accepts l) ↔
          closed.Plain l)
        [redis] exposures :=
  agrees_iff_plain rfl rfl listListeners_redisOs

end QuickVps.Firewall
