import QuickVps.Ports.Scanner

/-!
# Safe signals

Signal 0 goes to a process group, and so does a negative number. Whatever `lsof` prints, the
scanner returns positive processes and ports, and it never returns a listener twice, so that
`KillByPort` signals single processes, and each of them once.

* `distinct_of_parse` — no two listeners of one run agree on protocol, address, port and process,
* `signalAll_sublist` — the signal loop keeps to the list that it is given,
* `signals_safely` — what `lsof` can make `KillByPort` do.
-/

namespace QuickVps.Ports

variable (toUpper : List Char → List Char)

/-- What a client can tell two listeners apart by. -/
def Listener.endpoint (l : Listener) : List Char × List Char × Int × Int :=
  (l.protocol, l.address, l.port, l.pid)

theorem key_eq_of_endpoint {l l' : Listener} (h : l.endpoint = l'.endpoint) : l.key = l'.key := by
  cases l
  cases l'
  cases h
  rfl

theorem distinct_of_parse (output : List Char) :
    (parseLsofOutput toUpper output).Pairwise fun l l' => l.endpoint ≠ l'.endpoint := by
  obtain ⟨found, -, hparse⟩ := parse_eq_eraseDupsBy toUpper output
  rw [hparse]
  exact (Firsts.pairwise_eraseDupsBy _ found).imp fun hkey hsame => hkey (key_eq_of_endpoint hsame)

theorem signalAll_sublist (os : Os) (pids : List Int) : (signalAll os pids).1.Sublist pids := by
  induction pids with
  | nil => exact List.Sublist.slnil
  | cons pid pids ih =>
    simp only [signalAll]
    cases os.findProcess pid with
    | some err => exact ih.cons pid
    | none =>
      cases os.signal pid with
      | some err => exact ih.cons_cons pid
      | none => exact ih.cons_cons pid

/-- Signals go to processes of the listeners, and to each of them once. -/
theorem signaled_killByPort (os : Os) (port : Int) :
    (killByPort toUpper os port).signaled.Nodup ∧
      ∀ pid ∈ (killByPort toUpper os port).signaled,
        ∃ listeners, listListeners toUpper os = .ok listeners ∧ ∃ l ∈ listeners, l.pid = pid := by
  unfold killByPort
  cases hlist : listListeners toUpper os with
  | error text => simp
  | ok listeners =>
    simp only
    generalize hpids :
      ((listeners.filter fun l => l.port = port).map Listener.pid).dedup = pids
    by_cases hnil : pids = []
    · simp [hnil]
    · rw [if_neg hnil]
      have hsub := signalAll_sublist os (pids.mergeSort (· ≤ ·))
      have hnodup : (pids.mergeSort (· ≤ ·)).Nodup :=
        List.nodup_mergeSort.2 (hpids ▸ List.nodup_dedup _)
      refine ⟨hsub.nodup hnodup, fun pid hpid => ⟨listeners, rfl, ?_⟩⟩
      have hmem : pid ∈ pids := List.mem_mergeSort.1 (hsub.subset hpid)
      rw [← hpids, List.mem_dedup] at hmem
      obtain ⟨l, hl, rfl⟩ := List.mem_map.1 hmem
      exact ⟨l, List.mem_of_mem_filter hl, rfl⟩

/-- **Listeners are safe to signal**, and `KillByPort` signals no group and no process twice. -/
theorem signals_safely :
    (∀ output : List Char,
      (∀ l ∈ parseLsofOutput toUpper output, 0 < l.pid ∧ 0 < l.port) ∧
      (parseLsofOutput toUpper output).Pairwise fun l l' => l.endpoint ≠ l'.endpoint) ∧
    ∀ (os : Os) (port : Int),
      (∀ pid ∈ (killByPort toUpper os port).signaled, 0 < pid) ∧
      (killByPort toUpper os port).signaled.Nodup := by
  refine ⟨fun output => ⟨fun l hl => ?_, distinct_of_parse toUpper output⟩, fun os port => ?_⟩
  · exact (positive_of_mem_parse toUpper hl).symm
  · obtain ⟨honce, hfrom⟩ := signaled_killByPort toUpper os port
    refine ⟨fun pid hpid => ?_, honce⟩
    obtain ⟨listeners, hlist, l, hl, rfl⟩ := hfrom pid hpid
    exact (positive_of_mem_listListeners toUpper hlist hl).2

end QuickVps.Ports
