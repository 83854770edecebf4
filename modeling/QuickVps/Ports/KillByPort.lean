import QuickVps.Ports.Lsof

/-!
# Killing by port

`KillByPort` should signal the owners of the sockets on a port and nobody else. The scanner takes
the port of a connected socket from the remote end, so a process that merely talks to the port is
signalled, and the owner of a connected socket on the port may be passed over.

* `KillsOwners` — what `KillByPort` owes to a report,
* `kills_remote` — the client of a name server is killed for port 53,
* `Undisturbed` — every connected socket that has the port at either end is covered by others,
* `killsOwners_iff` — exactly then the owners are killed.
-/

namespace QuickVps.Ports

/-- Some process of the report with this number owns a socket with `P`. -/
def HasSocket (report : List Process) (pid : Int) (P : Socket → Prop) : Prop :=
  ∃ p ∈ report, (p.pid.1 : Int) = pid ∧ ∃ s ∈ p.sockets, P s

def Owner (report : List Process) (port : Port) (pid : Int) : Prop :=
  HasSocket report pid fun s => s.localPort = some port

/-- The host runs `lsof` with these two reports, the sockets that it was asked for, and finds
every process, as it does on Unix. -/
structure Os.Reports (os : Os) (tcp udp : List Process) : Prop where
  listen : os.lsof listenArgs = exitOf tcp
  datagrams : os.lsof udpArgs = exitOf udp
  tcp_listens : ∀ p ∈ tcp, ∀ s ∈ p.sockets, s.protocol = .tcp ∧ s.remote = none
  udp_only : ∀ p ∈ udp, ∀ s ∈ p.sockets, s.protocol = .udp
  finds : ∀ pid, os.findProcess pid = none

structure KillsOwners (kill : Kill) (report : List Process) (port : Port) : Prop where
  signaled : ∀ pid, pid ∈ kill.signaled ↔ Owner report port pid
  once : kill.signaled.Nodup
  notFound : kill.err = some .noProcessOnPort ↔ ∀ pid, ¬ Owner report port pid

/-! ## What is signalled -/

section Signal

variable (toUpper : List Char → List Char) {os : Os} {tcp udp : List Process} {port : Port}

/-- Some process of the report with this number has a name that ends in the port. -/
def Named (report : List Process) (port : Port) (pid : Int) : Prop :=
  HasSocket report pid fun s => s.lastPort = some port

theorem runLsof_exitOf {args : List String} {report : List Process}
    (h : os.lsof args = exitOf report) :
    ∃ listeners, runLsof toUpper os args = .ok listeners ∧ ∀ (port : Port) pid,
      (∃ l ∈ listeners, l.port = port.1 ∧ l.pid = pid) ↔ Named report port pid := by
  unfold runLsof exitOf at *
  rw [h]
  by_cases hreport : report = []
  · refine ⟨[], ?_, fun port pid => ?_⟩
    · simp [hreport]
    · simp [Named, HasSocket, hreport]
  · rw [if_neg hreport]
    refine ⟨_, rfl, fun port pid => ?_⟩
    rw [mem_parse_outputOf]
    unfold Named HasSocket
    refine exists_congr fun p => and_congr_right fun _ => and_congr_right fun _ =>
      exists_congr fun s => and_congr_right fun _ => ⟨?_, fun hs => ⟨port, hs, rfl⟩⟩
    rintro ⟨q, hq, hport⟩
    rw [hq, Subtype.ext (Int.ofNat_inj.1 hport)]

theorem listListeners_of_reports (h : os.Reports tcp udp) :
    ∃ listeners, listListeners toUpper os = .ok listeners ∧ ∀ (port : Port) pid,
      (∃ l ∈ listeners, l.port = port.1 ∧ l.pid = pid) ↔ Named (tcp ++ udp) port pid := by
  obtain ⟨listen, hlisten, hnamed⟩ := runLsof_exitOf toUpper h.listen
  obtain ⟨datagrams, hdatagrams, hnamed'⟩ := runLsof_exitOf toUpper h.datagrams
  refine ⟨(listen ++ datagrams).mergeSort Listener.le, ?_, fun port pid => ?_⟩
  · rw [listListeners, hlisten, hdatagrams]
    rfl
  · have hnames : Named (tcp ++ udp) port pid ↔ Named tcp port pid ∨ Named udp port pid := by
      simp [Named, HasSocket, or_and_right, exists_or]
    rw [hnames, ← hnamed, ← hnamed']
    simp [List.mem_mergeSort, or_and_right, exists_or]

theorem signalAll_signaled (hfinds : ∀ pid, os.findProcess pid = none) (pids : List Int) :
    (signalAll os pids).1 = pids := by
  induction pids with
  | nil => rfl
  | cons pid pids ih =>
    simp only [signalAll, hfinds]
    cases os.signal pid <;> simp [ih]

/-- **`KillByPort` signals the processes named with the port**, each of them once. -/
theorem killByPort_spec (h : os.Reports tcp udp) (port : Port) :
    (∀ pid, pid ∈ (killByPort toUpper os port.1).signaled ↔ Named (tcp ++ udp) port pid) ∧
      (killByPort toUpper os port.1).signaled.Nodup ∧
      ((killByPort toUpper os port.1).err = some .noProcessOnPort ↔
        ∀ pid, ¬ Named (tcp ++ udp) port pid) := by
  obtain ⟨listeners, hlist, hnamed⟩ := listListeners_of_reports toUpper h
  have hpids : ∀ pid : Int,
      pid ∈ ((listeners.filter fun l => l.port = (port.1 : Int)).map Listener.pid).dedup ↔
        Named (tcp ++ udp) port pid := by
    intro pid
    rw [← hnamed]
    simp [and_assoc]
  simp only [killByPort, hlist]
  generalize hdef :
    ((listeners.filter fun l => l.port = (port.1 : Int)).map Listener.pid).dedup = pids at hpids ⊢
  by_cases hnil : pids = []
  · rw [if_pos hnil]
    subst hnil
    simp only [List.not_mem_nil, false_iff] at hpids
    exact ⟨fun pid => by simpa using hpids pid, List.nodup_nil, by simpa using hpids⟩
  · rw [if_neg hnil]
    have hall : (signalAll os (pids.mergeSort (· ≤ ·))).1 = pids.mergeSort (· ≤ ·) :=
      signalAll_signaled h.finds _
    refine ⟨fun pid => ?_, ?_, ?_⟩
    · simp only [hall, List.mem_mergeSort, hpids]
    · simp only [hall, List.nodup_mergeSort]
      exact hdef ▸ List.nodup_dedup _
    · obtain ⟨pid, hpid⟩ := List.exists_mem_of_ne_nil _ hnil
      refine ⟨fun herr => absurd herr ?_, fun hnone => absurd ((hpids pid).1 hpid) (hnone pid)⟩
      simp only
      split_ifs <;> simp

end Signal

/-! ## The gap -/

/-- A socket of a resolver, connected from port 40000 to port 53 of a name server. -/
def query : Socket where
  fd := ⟨"7".toList, by decide⟩
  protocol := .udp
  here := ⟨.v4 10 0 0 1, some ⟨40000, by decide⟩⟩
  remote := some ⟨.v4 10 0 0 2, some ⟨53, by decide⟩⟩

def resolver : Process := ⟨⟨100, by decide⟩, ⟨"curl".toList, by decide⟩, [query]⟩

/-- A host whose only socket is the resolver's. -/
def queryOs : Os where
  lsof args := if args = udpArgs then exitOf [resolver] else exitOf []
  findProcess _ := none
  signal _ := none

theorem queryOs_reports : queryOs.Reports [] [resolver] where
  listen := rfl
  datagrams := rfl
  tcp_listens := by simp
  udp_only := by
    intro p hp s hs
    obtain rfl := List.mem_singleton.1 hp
    obtain rfl := List.mem_singleton.1 hs
    rfl
  finds := fun _ => rfl

/-- **The client of a name server is killed** when port 53 is to be freed. -/
theorem kills_remote :
    ¬ ∀ (toUpper : List Char → List Char) (os : Os) (tcp udp : List Process) (port : Port),
      os.Reports tcp udp → KillsOwners (killByPort toUpper os port.1) (tcp ++ udp) port := by
  intro hall
  have hkills := hall id queryOs [] [resolver] ⟨53, by decide⟩ queryOs_reports
  have hnamed : Named [resolver] ⟨53, by decide⟩ 100 :=
    ⟨resolver, List.mem_singleton_self _, rfl, query, List.mem_singleton_self _, rfl⟩
  have hsignaled := ((killByPort_spec id queryOs_reports _).1 100).2 hnamed
  obtain ⟨p, hp, -, s, hs, hlocal⟩ := (hkills.signaled 100).1 hsignaled
  obtain rfl := List.mem_singleton.1 hp
  obtain rfl := List.mem_singleton.1 hs
  exact absurd hlocal (by decide)

/-! ## The exact condition -/

/-- Every process that is connected to the port also owns it, and every owner of a connected
socket on the port has a socket there that is not connected, or one that is connected to it. -/
structure Undisturbed (report : List Process) (port : Port) : Prop where
  remote : ∀ pid,
    HasSocket report pid (fun s => ∃ there, s.remote = some there ∧ there.port = some port) →
    HasSocket report pid fun s => s.localPort = some port
  owner : ∀ pid,
    HasSocket report pid (fun s => s.localPort = some port ∧ s.remote ≠ none) →
    HasSocket report pid fun s => s.remote = none ∧ s.localPort = some port ∨
      ∃ there, s.remote = some there ∧ there.port = some port

theorem HasSocket.imp {report : List Process} {pid : Int} {P Q : Socket → Prop}
    (h : HasSocket report pid P) (hPQ : ∀ s, P s → Q s) : HasSocket report pid Q := by
  obtain ⟨p, hp, hpid, s, hs, hP⟩ := h
  exact ⟨p, hp, hpid, s, hs, hPQ s hP⟩

theorem lastPort_eq_some_iff (s : Socket) (port : Port) :
    s.lastPort = some port ↔ s.remote = none ∧ s.localPort = some port ∨
      ∃ there, s.remote = some there ∧ there.port = some port := by
  unfold Socket.lastPort Socket.localPort
  cases s.remote <;> simp

theorem named_iff_owner {report : List Process} {port : Port} :
    (∀ pid, Named report port pid ↔ Owner report port pid) ↔ Undisturbed report port := by
  constructor
  · intro h
    refine ⟨fun pid hs => (h pid).1 ?_, fun pid hs => ?_⟩
    · exact hs.imp fun s hs => (lastPort_eq_some_iff s port).2 (.inr hs)
    · exact ((h pid).2 (hs.imp fun s hs => hs.1)).imp fun s => (lastPort_eq_some_iff s port).1
  · intro h pid
    constructor
    · rintro ⟨p, hp, hpid, s, hs, hlast⟩
      rcases (lastPort_eq_some_iff s port).1 hlast with ⟨-, hlocal⟩ | hremote
      · exact ⟨p, hp, hpid, s, hs, hlocal⟩
      · exact h.remote pid ⟨p, hp, hpid, s, hs, hremote⟩
    · rintro ⟨p, hp, hpid, s, hs, hlocal⟩
      by_cases hremote : s.remote = none
      · exact ⟨p, hp, hpid, s, hs, (lastPort_eq_some_iff s port).2 (.inl ⟨hremote, hlocal⟩)⟩
      · exact (h.owner pid ⟨p, hp, hpid, s, hs, hlocal, hremote⟩).imp fun s =>
          (lastPort_eq_some_iff s port).2

/-- **`KillByPort` kills the owners exactly when connected sockets do not disturb it.** -/
theorem killsOwners_iff (toUpper : List Char → List Char) (os : Os) (tcp udp : List Process)
    (port : Port) (h : os.Reports tcp udp) :
    KillsOwners (killByPort toUpper os port.1) (tcp ++ udp) port ↔
      Undisturbed (tcp ++ udp) port := by
  obtain ⟨hsignaled, honce, hnotFound⟩ := killByPort_spec toUpper h port
  rw [← named_iff_owner]
  constructor
  · intro hkills pid
    rw [← hsignaled, hkills.signaled]
  · intro hnamed
    exact ⟨fun pid => (hsignaled pid).trans (hnamed pid), honce,
      hnotFound.trans (forall_congr' fun pid => not_congr (hnamed pid))⟩

theorem killsOwners_iff_query :
    KillsOwners (killByPort id queryOs 40000) [resolver] ⟨40000, by decide⟩ ↔
      Undisturbed [resolver] ⟨40000, by decide⟩ :=
  killsOwners_iff id queryOs [] [resolver] ⟨40000, by decide⟩ queryOs_reports

end QuickVps.Ports
