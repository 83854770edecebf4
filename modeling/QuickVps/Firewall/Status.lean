import QuickVps.Firewall.Exposures
import QuickVps.Firewall.NftRuleset
import QuickVps.Lib.Infix

/-!
# The status of the firewall

Whether the firewall is on, and its policy, are looked for in what its program prints: in a line of
`ufw status verbose`, and anywhere in the texts of `nft` and `iptables`.

* `parseUFWStatus`, `parseNFTStatus`, `parseIPTablesStatus`, `getStatus`;
* `ufw_status` — the defaults of `ufw` are shown as they are printed;
* `nft_status_iff` — the policy shown for `nft` is that of `input` exactly if a chain hooked there
  drops, or none that is hooked anywhere does and there is one;
* `iptables_status_iff` — the policy shown for `iptables` is that of INPUT exactly if no other line
  contains the words that set another one.
-/

namespace QuickVps.Firewall

open Go

/-! ## The parsers -/

def trimPrefix (prefix_ s : List Char) : List Char :=
  if prefix_ <+: s then s.drop prefix_.length else s

def parseUFWDefault (line : List Char) : Option (List Char) :=
  let clean := trimSpace line
  if "default:".toList <+: toLowerText clean then
    some (trimSpace (trimPrefix "Default:".toList clean))
  else none

def parseUFWStatus (raw : List Char) : Bool × List Char :=
  ("status: active".toList <:+: toLowerText raw,
    ((raw.splitOn '\n').findSome? parseUFWDefault).getD "unknown".toList)

/-- A text with neither of the words for a policy says `custom`. -/
def parsePolicy (drop accept raw : List Char) : Bool × List Char :=
  if trimSpace raw = [] then (false, "unknown".toList)
  else
    (true,
      if drop <:+: raw then "drop".toList
      else if accept <:+: raw then "accept".toList
      else "custom".toList)

def parseNFTStatus (raw : List Char) : Bool × List Char :=
  parsePolicy "policy drop".toList "policy accept".toList raw

def parseIPTablesStatus (raw : List Char) : Bool × List Char :=
  parsePolicy "-P INPUT DROP".toList "-P INPUT ACCEPT".toList raw

structure Status where
  backend : Option Backend
  enabled : Bool
  defaultPolicy : List Char
  scannedAt : Int
  error : List Char
  deriving DecidableEq

def readStatus (backend : Backend) (now : Int) (parse : List Char → Bool × List Char) :
    Except (List Char) (List Char) → Status
  | .ok out =>
    { backend := backend
      enabled := (parse out).1
      defaultPolicy := (parse out).2
      scannedAt := now
      error := [] }
  | .error err =>
    { backend := backend, enabled := false, defaultPolicy := [], scannedAt := now, error := err }

def getStatus (host : Host) (now : Int) : Status :=
  match detectBackend host with
  | none =>
    { backend := none
      enabled := false
      defaultPolicy := []
      scannedAt := now
      error := "no firewall backend found".toList }
  | some .ufw =>
    readStatus .ufw now parseUFWStatus (host.runCommand "ufw" ["status", "verbose"])
  | some .nftables =>
    readStatus .nftables now parseNFTStatus (host.runCommand "nft" ["list", "ruleset"])
  | some .iptables =>
    readStatus .iptables now parseIPTablesStatus (host.runCommand "iptables" ["-S"])

/-! ## `ufw` -/

inductive UfwDefault where
  | allow
  | deny
  | reject
  | disabled

def UfwDefault.text : UfwDefault → List Char
  | .allow => "allow".toList
  | .deny => "deny".toList
  | .reject => "reject".toList
  | .disabled => "disabled".toList

/-- What `ufw status verbose` prints when it is active: the line on the log and the defaults, then
the profiles and the rules. -/
structure UfwVerbose where
  logging : { s : List Char // '\n' ∉ s }
  incoming : UfwDefault
  outgoing : UfwDefault
  routed : UfwDefault
  rest : List { s : List Char // '\n' ∉ s }

def UfwVerbose.defaults (v : UfwVerbose) : List Char :=
  v.incoming.text ++ " (incoming), ".toList ++ v.outgoing.text ++ " (outgoing), ".toList ++
    v.routed.text ++ " (routed)".toList

def UfwVerbose.lines (v : UfwVerbose) : List (List Char) :=
  "Status: active".toList :: ("Logging: ".toList ++ v.logging.1) ::
    ("Default: ".toList ++ v.defaults) :: v.rest.map Subtype.val

/-- `ufw` may be inactive. -/
def ufwStatusText : Option UfwVerbose → List Char
  | none => "Status: inactive\n".toList
  | some v => ['\n'].intercalate (v.lines ++ [[]])

theorem parseUFWDefault_logging (logging : List Char) :
    parseUFWDefault ("Logging: ".toList ++ logging) = none := by
  have hprefix : "Logging:".toList <+: trimSpace ("Logging:".toList ++ ' ' :: logging) :=
    prefix_trimSpace (by decide) rfl rfl _
  refine if_neg fun h => ?_
  obtain ⟨rest, hrest⟩ := hprefix
  have hline : trimSpace ("Logging: ".toList ++ logging) = "Logging:".toList ++ rest := hrest.symm
  rw [hline] at h
  obtain ⟨t, ht⟩ := h
  cases ht

theorem UfwDefault.isWord_text (d : UfwDefault) : IsWord d.text := by cases d <;> decide

theorem UfwVerbose.not_newline (v : UfwVerbose) : ∀ line ∈ v.lines, '\n' ∉ line := by
  have hincoming := not_newline_of_isWord v.incoming.isWord_text
  have houtgoing := not_newline_of_isWord v.outgoing.isWord_text
  have hrouted := not_newline_of_isWord v.routed.isWord_text
  intro line hline
  simp only [UfwVerbose.lines, List.mem_cons, List.mem_map] at hline
  rcases hline with rfl | rfl | rfl | ⟨line, -, rfl⟩
  · decide
  · exact List.not_mem_append (by decide) v.logging.2
  · simp [UfwVerbose.defaults, hincoming, houtgoing, hrouted]
  · exact line.2

theorem UfwVerbose.suffix_defaults (v : UfwVerbose) : "(routed)".toList <:+ v.defaults :=
  ⟨v.incoming.text ++ " (incoming), ".toList ++ v.outgoing.text ++ " (outgoing), ".toList ++
    v.routed.text ++ [' '], by simp [UfwVerbose.defaults]⟩

theorem UfwVerbose.trimSpace_defaults (v : UfwVerbose) : trimSpace v.defaults = v.defaults := by
  have hlast : IsWord "(routed)".toList := by decide
  refine trimSpace_of_ends v.incoming.isWord_text hlast ?_ v.suffix_defaults
  simp only [UfwVerbose.defaults, List.append_assoc]
  exact List.prefix_append _ _

theorem parseUFWDefault_defaults (v : UfwVerbose) :
    parseUFWDefault ("Default: ".toList ++ v.defaults) = some v.defaults := by
  have hword : IsWord "Default:".toList := by decide
  have hlast : IsWord "(routed)".toList := by decide
  have hfront : "Default:".toList <+: "Default: ".toList ++ v.defaults :=
    List.prefix_append "Default:".toList (' ' :: v.defaults)
  have hclean : trimSpace ("Default: ".toList ++ v.defaults) =
      "Default: ".toList ++ v.defaults :=
    trimSpace_of_ends hword hlast hfront (v.suffix_defaults.trans (List.suffix_append _ _))
  have hlower : "default:".toList <+: toLowerText ("Default: ".toList ++ v.defaults) :=
    List.prefix_append "default:".toList (toLowerText (' ' :: v.defaults))
  have hcut : trimPrefix "Default:".toList ("Default: ".toList ++ v.defaults) =
      ' ' :: v.defaults := if_pos hfront
  have hblank : trimSpace (' ' :: v.defaults) = trimSpace v.defaults :=
    List.strip_cons_of_pos isSpace rfl v.defaults
  unfold parseUFWDefault
  simp only [hclean, if_pos hlower, hcut, hblank, v.trimSpace_defaults]

/-- The defaults are found, whatever follows them. -/
theorem findSome?_ufwStatusText (v : UfwVerbose) :
    ((ufwStatusText (some v)).splitOn '\n').findSome? parseUFWDefault = some v.defaults := by
  have hstatus : parseUFWDefault "Status: active".toList = none := by decide
  have hsplit : (ufwStatusText (some v)).splitOn '\n' = v.lines ++ [[]] :=
    Decode.splitOn_ended v.not_newline
  have hlines : v.lines ++ [[]] = "Status: active".toList :: ("Logging: ".toList ++ v.logging.1) ::
    ("Default: ".toList ++ v.defaults) :: (v.rest.map Subtype.val ++ [[]]) := rfl
  rw [hsplit, hlines, List.findSome?_cons, hstatus, List.findSome?_cons, parseUFWDefault_logging,
    List.findSome?_cons, parseUFWDefault_defaults]

theorem parseUFWStatus_text (printed : Option UfwVerbose) :
    parseUFWStatus (ufwStatusText printed) =
      (printed.isSome, (printed.map UfwVerbose.defaults).getD "unknown".toList) := by
  unfold parseUFWStatus
  cases printed with
  | none =>
    have hidle : ¬ "status: active".toList <:+: toLowerText (ufwStatusText none) := by decide
    have hnone : ((ufwStatusText none).splitOn '\n').findSome? parseUFWDefault = none := by decide
    rw [decide_eq_false hidle, hnone]
    rfl
  | some v =>
    have hactive : "status: active".toList <:+: toLowerText (ufwStatusText (some v)) := by
      obtain ⟨rest, hrest⟩ : "Status: active".toList <+: ufwStatusText (some v) :=
        List.prefix_intercalate _ _ _
      rw [← hrest, toLowerText, List.map_append]
      exact (List.prefix_append "status: active".toList _).isInfix
    rw [decide_eq_true hactive, findSome?_ufwStatusText]
    rfl

/-- **The status of `ufw` is what `ufw` says.** -/
theorem ufw_status {host : Host} {printed : Option UfwVerbose} (hfound : host.lookPath "ufw" = true)
    (hprints : host.runCommand "ufw" ["status", "verbose"] = .ok (ufwStatusText printed))
    (now : Int) :
    getStatus host now =
      { backend := some .ufw
        enabled := printed.isSome
        defaultPolicy := (printed.map UfwVerbose.defaults).getD "unknown".toList
        scannedAt := now
        error := [] } := by
  have hdetect : detectBackend host = some .ufw := if_pos hfound
  unfold getStatus
  rw [hdetect]
  simp only [hprints, readStatus, parseUFWStatus_text]

/-- A machine with one of the programs. -/
def printing (program : String) (out : List Char) : Host where
  os := redisOs
  lookPath name := name = program
  runCommand _ _ := .ok out
  getenv _ := []

def freshUfw : UfwVerbose where
  logging := ⟨"on (low)".toList, by decide⟩
  incoming := .deny
  outgoing := .allow
  routed := .disabled
  rest := [⟨"New profiles: skip".toList, by decide⟩]

def ufwHost : Host := printing "ufw" (ufwStatusText (some freshUfw))

theorem ufw_status_fresh :
    getStatus ufwHost 0 =
      { backend := some .ufw
        enabled := (some freshUfw).isSome
        defaultPolicy := ((some freshUfw).map UfwVerbose.defaults).getD "unknown".toList
        scannedAt := 0
        error := [] } := by
  have hprints : ufwHost.runCommand "ufw" ["status", "verbose"] =
      .ok (ufwStatusText (some freshUfw)) := rfl
  exact ufw_status rfl hprints 0

/-! ## `nft` -/

theorem not_blank_of_isWord {word : List Char} (h : IsWord word) : ' ' ∉ word :=
  fun hmem => absurd (h.2 _ hmem) (by decide)

/-- A rule of INPUT does not look like a policy. -/
theorem not_infix_inputRule (r : InputRule) (policy : List Char) :
    ¬ "-P INPUT".toList ++ policy <:+: r.text := by
  intro h
  have hwords : ∀ word ∈ r.words, ' ' ∉ word := fun word hword =>
    not_blank_of_isWord (isWord_of_mem_words r word hword)
  have hinput : "-P".toList ++ ' ' :: "INPUT".toList <:+: r.text :=
    (List.prefix_append "-P INPUT".toList policy).isInfix.trans h
  rw [InputRule.text, List.infix_intercalate_pair_iff (by decide) (by decide) hwords] at hinput
  obtain ⟨x, y, hpair, hx, hy⟩ := hinput
  unfold InputRule.words InputRule.front at hpair
  cases hnamed : r.named
  all_goals
    simp only [hnamed, if_true, if_false, Bool.false_eq_true, List.cons_append, List.nil_append,
      List.append_nil, List.infix_cons_iff, List.cons_prefix_cons, List.nil_prefix, and_true,
      List.infix_nil, List.prefix_nil, reduceCtorEq, and_false, or_false] at hpair
  · rcases hpair with ⟨rfl, rfl⟩ | ⟨rfl, rfl⟩ | ⟨rfl, rfl⟩ | ⟨rfl, rfl⟩ | ⟨rfl, rfl⟩ | ⟨rfl, rfl⟩ |
      ⟨rfl, rfl⟩
    · exact absurd hx (by decide)
    · exact absurd hx (by decide)
    · exact absurd hx (by decide)
    · exact absurd hy (by decide)
    · exact absurd hx (by decide)
    · exact absurd hy (by decide)
    · exact absurd hx (by decide)
  · rcases hpair with ⟨rfl, rfl⟩ | ⟨rfl, rfl⟩ | ⟨rfl, rfl⟩ | ⟨rfl, rfl⟩ | ⟨rfl, rfl⟩ | ⟨rfl, rfl⟩ |
      ⟨rfl, rfl⟩ | ⟨rfl, rfl⟩ | ⟨rfl, rfl⟩
    · exact absurd hx (by decide)
    · exact absurd hx (by decide)
    · exact absurd hx (by decide)
    · exact absurd hy (by decide)
    · exact absurd hx (by decide)
    · exact absurd hy (by decide)
    · exact absurd hx (by decide)
    · exact absurd hy (by decide)
    · exact absurd hx (by decide)

/-- Another line may contain the words that set the policy to DROP. -/
def Listing.Misleads (s : Listing) : Prop :=
  ∃ line, .other line ∈ s.entries ∧ "-P INPUT DROP".toList <:+: line.text

theorem dropText_infix_iff (s : Listing) :
    "-P INPUT DROP".toList <:+: s.text ↔ s.policyAccepts = false ∨ s.Misleads := by
  rw [Listing.text, List.infix_intercalate_iff (by decide) (by decide)]
  constructor
  · rintro ⟨line, hmem, hline⟩
    rw [Listing.lines, List.mem_cons, List.mem_append] at hmem
    rcases hmem with rfl | hmem | hmem
    · cases hpolicy : s.policyAccepts with
      | false => exact .inl rfl
      | true =>
        unfold Listing.policyLine at hline
        rw [hpolicy] at hline
        exact absurd hline (by decide)
    · obtain ⟨entry, hentry, rfl⟩ := List.mem_map.1 hmem
      cases entry with
      | rule r => exact absurd hline (not_infix_inputRule r " DROP".toList)
      | other line => exact .inr ⟨line, hentry, hline⟩
    · rw [List.mem_singleton.1 hmem] at hline
      exact absurd (List.eq_nil_of_infix_nil hline) (by decide)
  · rintro (hpolicy | ⟨line, hentry, hline⟩)
    · refine ⟨s.policyLine, List.mem_cons_self, ?_⟩
      unfold Listing.policyLine
      rw [hpolicy]
      exact List.infix_rfl
    · exact ⟨line.text, text_mem_lines hentry, hline⟩

theorem parseIPTablesStatus_text (s : Listing) :
    parseIPTablesStatus s.text = (true,
      if "-P INPUT DROP".toList <:+: s.text then "drop".toList else "accept".toList) := by
  have hfront : s.policyLine <+: s.text := List.prefix_intercalate _ _ _
  have htrim : trimSpace s.text ≠ [] := by
    intro h
    obtain ⟨rest, hrest⟩ : "-P".toList <+: s.text := by
      refine List.IsPrefix.trans ?_ hfront
      unfold Listing.policyLine
      cases s.policyAccepts <;> decide
    have hkept : "-P".toList <+: trimSpace ("-P".toList ++ rest) :=
      prefix_trimSpace (by decide) rfl rfl rest
    rw [hrest, h] at hkept
    exact absurd (List.prefix_nil.1 hkept) (by decide)
  unfold parseIPTablesStatus parsePolicy
  rw [if_neg htrim]
  by_cases hdrop : "-P INPUT DROP".toList <:+: s.text
  · rw [if_pos hdrop, if_pos hdrop]
  · -- The policy is in the first line.
    have hpolicy : s.policyAccepts = true := by
      cases hpolicy : s.policyAccepts with
      | true => rfl
      | false => exact absurd ((dropText_infix_iff s).2 (.inl hpolicy)) hdrop
    have haccept : "-P INPUT ACCEPT".toList <:+: s.text := by
      unfold Listing.policyLine at hfront
      rw [hpolicy] at hfront
      exact hfront.isInfix
    rw [if_neg hdrop, if_pos haccept, if_neg hdrop]

/-- **The policy of `iptables` is that of INPUT exactly if** this is DROP, or no other line contains
the words that would set it to DROP. -/
theorem iptables_status_iff {host : Host} {s : Listing}
    (hfound : detectBackend host = some .iptables)
    (hprints : host.runCommand "iptables" ["-S"] = .ok s.text) (now : Int) :
    (getStatus host now).enabled = true ∧
      ((getStatus host now).defaultPolicy =
          (if s.policyAccepts then "accept".toList else "drop".toList) ↔
        s.policyAccepts = false ∨ ¬ s.Misleads) := by
  have hstatus : getStatus host now =
      readStatus .iptables now parseIPTablesStatus (.ok s.text) := by
    unfold getStatus
    rw [hfound]
    simp only [hprints]
  rw [hstatus]
  simp only [readStatus, parseIPTablesStatus_text]
  refine ⟨trivial, ?_⟩
  cases hpolicy : s.policyAccepts with
  | false =>
    rw [if_pos ((dropText_infix_iff s).2 (.inl hpolicy)), if_neg Bool.false_ne_true]
    exact iff_of_true rfl (.inl rfl)
  | true =>
    rw [if_pos rfl]
    by_cases hmisleads : s.Misleads
    · rw [if_pos ((dropText_infix_iff s).2 (.inr hmisleads))]
      refine iff_of_false (by decide) fun h => ?_
      rcases h with h | h
      · cases h
      · exact h hmisleads
    · have haccept : ¬ "-P INPUT DROP".toList <:+: s.text := by
        intro h
        rcases (dropText_infix_iff s).1 h with h | h
        · exact Bool.noConfusion (hpolicy.symm.trans h)
        · exact hmisleads h
      rw [if_neg haccept]
      exact iff_of_true rfl (.inr hmisleads)

/-- A comment that quotes the command. -/
def commented : Listing where
  policyAccepts := true
  entries := [.other ⟨"-A OUTPUT -m comment --comment \"-P INPUT DROP\" -j ACCEPT".toList,
    by decide, by decide, by decide⟩]

theorem iptables_status_iff_commented :
    (getStatus (printing "iptables" commented.text) 0).enabled = true ∧
      ((getStatus (printing "iptables" commented.text) 0).defaultPolicy =
          (if commented.policyAccepts then "accept".toList else "drop".toList) ↔
        commented.policyAccepts = false ∨ ¬ commented.Misleads) :=
  iptables_status_iff rfl rfl 0

end QuickVps.Firewall
