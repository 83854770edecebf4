import QuickVps.Lib.Decode
import QuickVps.Ports.Scanner

/-!
# What `lsof` reports

A report is a list of processes with the internet sockets they own. With the fields `pcPn` and
numeric hosts and ports, `lsof` writes it as one line a field: a process line, its command, and
for each socket the descriptor, the protocol and the name. A name is the local end, followed by
the remote end when the socket is connected.

* `nameOf` — the name of a socket, `splitAddressPort_nameOf` — the port the scanner reads off it,
* `outputOf` — the output of a report, `mem_parse_outputOf` — the listeners read off it.
-/

namespace QuickVps.Ports

open Go

/-- A text that fits on a line of the output. -/
abbrev Line := { text : List Char // '\n' ∉ text }

abbrev Port := { n : Nat // 0 < n ∧ n < 65536 }

abbrev Pid := { n : Nat // 0 < n ∧ n < 2147483648 }

inductive Protocol where
  | tcp
  | udp
  deriving DecidableEq

def Protocol.text : Protocol → List Char
  | .tcp => "TCP".toList
  | .udp => "UDP".toList

inductive Address where
  | any
  | v4 (a b c d : Fin 256)
  | v6 (text : Line)

def Address.text : Address → List Char
  | .any => "*".toList
  | .v4 a b c d =>
    Nat.toDigits 10 a ++ '.' :: (Nat.toDigits 10 b ++ '.' ::
      (Nat.toDigits 10 c ++ '.' :: Nat.toDigits 10 d))
  | .v6 text => '[' :: (text.1 ++ [']'])

/-- A port, with a star for the port of a socket that has none. -/
def portText : Option Port → List Char
  | none => ['*']
  | some port => Nat.toDigits 10 port.1

structure Endpoint where
  address : Address
  port : Option Port

def Endpoint.text (e : Endpoint) : List Char := e.address.text ++ ':' :: portText e.port

structure Socket where
  fd : Line
  protocol : Protocol
  here : Endpoint
  remote : Option Endpoint

def Socket.localPort (s : Socket) : Option Port := s.here.port

def nameOf (s : Socket) : List Char :=
  match s.remote with
  | none => s.here.text
  | some there => s.here.text ++ '-' :: '>' :: there.text

structure Process where
  pid : Pid
  command : Line
  sockets : List Socket

def Socket.lines (s : Socket) : List (List Char) :=
  ['f' :: s.fd.1, 'P' :: s.protocol.text, 'n' :: nameOf s]

def Process.lines (p : Process) : List (List Char) :=
  ('p' :: Nat.toDigits 10 p.pid.1) :: ('c' :: p.command.1) :: p.sockets.flatMap Socket.lines

/-- Every line is ended, so the output splits into the lines and an empty rest. -/
def outputOf (report : List Process) : List Char :=
  List.intercalate ['\n'] (report.flatMap Process.lines ++ [[]])

/-- With nothing to report `lsof` fails and is silent. -/
def exitOf (report : List Process) : Exit :=
  if report = [] then .failed [] else .ok (outputOf report)

/-- The port at the end of the name of a socket. -/
def Socket.lastPort (s : Socket) : Option Port :=
  match s.remote with
  | none => s.here.port
  | some there => there.port

/-! ## Names -/

theorem colon_notMem_portText (port : Option Port) : ':' ∉ portText port := by
  cases port with
  | none => decide
  | some port => exact not_mem_toDigits (by decide)

/-- A port is written with a last character, a digit or the star. -/
theorem exists_portText (port : Option Port) :
    ∃ front c, portText port = front ++ [c] ∧ (c.isDigit = true ∨ c = '*') := by
  cases port with
  | none => exact ⟨[], '*', rfl, .inr rfl⟩
  | some port =>
    have hne : Nat.toDigits 10 port.1 ≠ [] := Nat.toDigits_ne_nil
    exact ⟨_, _, (List.dropLast_append_getLast hne).symm,
      .inl (isDigit_of_mem_toDigits (List.getLast_mem hne))⟩

theorem Address.text_ne_nil (a : Address) : a.text ≠ [] := by
  cases a <;> simp [Address.text, Nat.toDigits_ne_nil]

theorem Address.isSpace_head (a : Address) : isSpace (a.text.head a.text_ne_nil) = false := by
  cases a with
  | any => rfl
  | v4 a b c d =>
    refine isSpace_of_isDigit (isDigit_of_mem_toDigits (n := a) ?_)
    simp only [Address.text]
    rw [List.head_append_of_ne_nil Nat.toDigits_ne_nil]
    exact List.head_mem _
  | v6 text => rfl

/-- Every name is some text that starts with a local address, a colon and the last port. -/
theorem exists_nameOf (s : Socket) :
    ∃ rest, nameOf s = (s.here.address.text ++ rest) ++ ':' :: portText s.lastPort := by
  unfold nameOf Socket.lastPort
  cases s.remote with
  | none => exact ⟨[], by simp [Endpoint.text]⟩
  | some there =>
    exact ⟨':' :: (portText s.here.port ++ '-' :: '>' :: there.address.text),
      by simp [Endpoint.text]⟩

theorem atoi_portText (port : Option Port) :
    atoi (portText port) = port.map fun p => (p.1 : Int) := by
  cases port with
  | none => decide
  | some port =>
    have hlt := port.2.2
    exact atoi_toDigits (by unfold maxInt64; omega)

/-- A name that starts with no space is not trimmed, as it ends with its port, and it is cut at the
last colon. -/
theorem splitAddressPort_append {address : List Char} (hne : address ≠ [])
    (hhead : isSpace (address.head hne) = false) (port : Option Port) :
    splitAddressPort (address ++ ':' :: portText port) =
      port.map fun port => (address, (port.1 : Int)) := by
  obtain ⟨front, c, hport, hc⟩ := exists_portText port
  have hspace : isSpace c = false := by
    rcases hc with hdigit | rfl
    · exact isSpace_of_isDigit hdigit
    · rfl
  generalize hname : address ++ ':' :: portText port = name
  have hlast : name = (address ++ ':' :: front) ++ [c] := by
    rw [← hname, hport, List.append_assoc, List.cons_append]
  have htrim : trimSpace name = name := by
    refine trimSpace_eq (fun hs => ?_) fun hs => ?_
    · have hfirst : name.head hs = address.head hne := by
        subst hname
        exact List.head_append_of_ne_nil hne
      rw [hfirst]
      exact hhead
    · simpa [hlast] using hspace
  have hsuffix : trimSuffix name " (LISTEN)".toList = name := by
    refine trimSuffix_eq fun ⟨before, hbefore⟩ => ?_
    have hsplit : before ++ " (LISTEN".toList ++ [')'] = (address ++ ':' :: front) ++ [c] := by
      rw [← hlast, ← hbefore, List.append_assoc]
      rfl
    have hparen : [')'] = [c] := List.append_inj_right' hsplit rfl
    obtain rfl : ')' = c := (List.cons.inj hparen).1
    rcases hc with hdigit | hstar <;> contradiction
  have hcut : lastIndex ':' name = some address.length := by
    rw [← hname]
    exact lastIndex_append_cons _ (colon_notMem_portText _)
  have haddress : 0 < address.length := List.length_pos_iff.2 hne
  have hlen : name.length = address.length + ((portText port).length + 1) := by
    rw [← hname, List.length_append, List.length_cons]
  have hpos : 0 < (portText port).length := by simp [hport]
  simp only [splitAddressPort, htrim, hsuffix, hcut]
  rw [if_neg (by omega)]
  have hdrop : name.drop (address.length + 1) = portText port := by
    rw [← hname, ← List.drop_drop, List.drop_left]
    rfl
  have htake : name.take address.length = address := by rw [← hname, List.take_left]
  rw [hdrop, htake, atoi_portText, Option.map_map]
  rfl

/-- **The scanner reads the last port of a name.** -/
theorem splitAddressPort_nameOf (s : Socket) :
    ∃ address, splitAddressPort (nameOf s) =
      s.lastPort.map fun port => (address, (port.1 : Int)) := by
  obtain ⟨rest, hname⟩ := exists_nameOf s
  have hne : s.here.address.text ++ rest ≠ [] :=
    List.append_ne_nil_of_left_ne_nil s.here.address.text_ne_nil _
  refine ⟨_, hname ▸ splitAddressPort_append hne ?_ _⟩
  rw [List.head_append_of_ne_nil s.here.address.text_ne_nil]
  exact s.here.address.isSpace_head

/-! ## The output splits into its lines -/

theorem newline_notMem_address (a : Address) : '\n' ∉ a.text := by
  cases a with
  | any => decide
  | v4 a b c d =>
    have hdigits : ∀ n, '\n' ∉ Nat.toDigits 10 n := fun n => not_mem_toDigits (by decide)
    simp [Address.text, hdigits]
  | v6 text => simp [Address.text, text.2]

theorem newline_notMem_endpoint (e : Endpoint) : '\n' ∉ e.text := by
  have hport : '\n' ∉ portText e.port := by
    cases e.port with
    | none => decide
    | some port => exact not_mem_toDigits (by decide)
  simp [Endpoint.text, newline_notMem_address, hport]

theorem newline_notMem_nameOf (s : Socket) : '\n' ∉ nameOf s := by
  unfold nameOf
  cases s.remote with
  | none => exact newline_notMem_endpoint _
  | some there => simp [newline_notMem_endpoint]

theorem newline_notMem_lines (p : Process) : ∀ line ∈ p.lines, '\n' ∉ line := by
  have hsocket : ∀ s : Socket, ∀ line ∈ s.lines, '\n' ∉ line := by
    intro s line hline
    rcases (by simpa [Socket.lines] using hline :
      line = 'f' :: s.fd.1 ∨ line = 'P' :: s.protocol.text ∨ line = 'n' :: nameOf s)
      with rfl | rfl | rfl
    · simpa using s.fd.2
    · cases s.protocol <;> decide
    · simpa using newline_notMem_nameOf s
  intro line hline
  rcases List.mem_cons.1 hline with rfl | hline
  · simpa using not_mem_toDigits (n := p.pid.1) (c := '\n') (by decide)
  · rcases List.mem_cons.1 hline with rfl | hline
    · simpa using p.command.2
    · obtain ⟨s, -, hs⟩ := List.mem_flatMap.1 hline
      exact hsocket s line hs

theorem splitOn_outputOf (report : List Process) :
    (outputOf report).splitOn '\n' = report.flatMap Process.lines ++ [[]] := by
  refine Decode.splitOn_ended fun line hline => ?_
  obtain ⟨p, -, hp⟩ := List.mem_flatMap.1 hline
  exact newline_notMem_lines p line hp

/-! ## What the loop has found -/

def Cursor.Found (st : Cursor) (port pid : Int) : Prop :=
  ∃ l ∈ st.listeners, l.port = port ∧ l.pid = pid

/-- Every key is the key of a listener, and ports and processes are positive. -/
structure Cursor.Keyed (st : Cursor) : Prop where
  seen : ∀ key ∈ st.seen, ∃ l ∈ st.listeners, l.key = key
  positive : ∀ l ∈ st.listeners, 0 < l.port ∧ 0 < l.pid

theorem keyed_start : Cursor.start.Keyed := by
  constructor <;> simp [Cursor.start]

/-- Listeners with one key are on one port and of one process. -/
theorem dedupe_inj {proto proto' address address' : List Char} {port port' pid pid' : Int}
    (hport : 0 < port) (hpid : 0 < pid) (hport' : 0 < port') (hpid' : 0 < pid')
    (h : dedupe proto address port pid = dedupe proto' address' port' pid') :
    port = port' ∧ pid = pid' := by
  have hcolon : ∀ n : Int, 0 < n → ':' ∉ itoa n := fun n hn => not_mem_itoa hn.le (by decide)
  have happ : ∀ (proto address : List Char) (port pid : Int), dedupe proto address port pid =
      (proto ++ ':' :: address ++ ':' :: itoa port) ++ ':' :: itoa pid := by
    intro proto address port pid
    simp [dedupe]
  rw [happ, happ] at h
  obtain ⟨hfront, hpids⟩ := append_cons_inj (hcolon _ hpid) (hcolon _ hpid') h
  obtain ⟨-, hports⟩ := append_cons_inj (hcolon _ hport) (hcolon _ hport') hfront
  exact ⟨itoa_inj hport.le hport'.le hports, itoa_inj hpid.le hpid'.le hpids⟩

/-- From `st` to `st'` the loop stays with its process and finds `more`. -/
structure Reads (st st' : Cursor) (more : Int → Int → Prop) : Prop where
  keyed : st'.Keyed
  pid : st'.currentPID = st.currentPID
  found : ∀ port pid, st'.Found port pid ↔ st.Found port pid ∨ more port pid

theorem Reads.nothing {st st' : Cursor} (h : st.Keyed) (hseen : st'.seen = st.seen)
    (hlisteners : st'.listeners = st.listeners) (hpid : st'.currentPID = st.currentPID) :
    Reads st st' fun _ _ => False where
  keyed := ⟨by rw [hseen, hlisteners]; exact h.seen, by rw [hlisteners]; exact h.positive⟩
  pid := hpid
  found := fun port pid => by rw [Cursor.Found, hlisteners, or_false, Cursor.Found]

theorem Reads.trans {st st' st'' : Cursor} {more more' : Int → Int → Prop}
    (h : Reads st st' more) (h' : Reads st' st'' more') :
    Reads st st'' fun port pid => more port pid ∨ more' port pid where
  keyed := h'.keyed
  pid := h'.pid.trans h.pid
  found := fun port pid => by rw [h'.found, h.found, or_assoc]

theorem Reads.congr {st st' : Cursor} {more more' : Int → Int → Prop}
    (h : Reads st st' more) (hmore : ∀ port pid, more port pid ↔ more' port pid) :
    Reads st st' more' :=
  ⟨h.keyed, h.pid, fun port pid => by rw [h.found, hmore]⟩

/-- A name line finds its port for the current process. -/
theorem reads_name {st : Cursor} (h : st.Keyed) (value : List Char) :
    Reads st (st.name value) fun port pid =>
      st.currentPID = pid ∧ 0 < pid ∧ 0 < port ∧
        ∃ address, splitAddressPort value = some (address, port) := by
  unfold Cursor.name
  split
  next hsplit =>
    exact (Reads.nothing h rfl rfl rfl).congr fun port pid => by simp [hsplit]
  next address port hsplit =>
    by_cases hbad : st.currentPID ≤ 0 ∨ port ≤ 0
    · rw [if_pos hbad]
      refine (Reads.nothing h rfl rfl rfl).congr fun port' pid => ?_
      simp only [hsplit, Option.some.injEq, Prod.mk.injEq, false_iff]
      rintro ⟨rfl, hpid, hport, -, -, rfl⟩
      omega
    rw [if_neg hbad]
    simp only
    have hpos : 0 < port ∧ 0 < st.currentPID := by omega
    generalize (if st.currentProto = [] then "TCP".toList else st.currentProto) = proto
    by_cases hseen : dedupe proto address port st.currentPID ∈ st.seen
    · -- A duplicate: its key is the key of a listener on the same port of the same process.
      rw [if_pos hseen]
      obtain ⟨l, hl, hkey⟩ := h.seen _ hseen
      obtain ⟨hport, hpid⟩ := dedupe_inj (h.positive l hl).1 (h.positive l hl).2 hpos.1 hpos.2 hkey
      refine ⟨h, rfl, fun port' pid => (or_iff_left_of_imp ?_).symm⟩
      rintro ⟨rfl, -, -, address', haddr⟩
      obtain ⟨-, rfl⟩ : address = address' ∧ port = port' := by simpa [hsplit] using haddr
      exact ⟨l, hl, hport, hpid⟩
    · rw [if_neg hseen]
      refine ⟨⟨?_, ?_⟩, rfl, fun port' pid => ?_⟩
      · rintro key hkey
        rcases List.mem_cons.1 hkey with rfl | hkey
        · exact ⟨_, List.mem_append_right _ List.mem_cons_self, rfl⟩
        · obtain ⟨l, hl, rfl⟩ := h.seen key hkey
          exact ⟨l, List.mem_append_left _ hl, rfl⟩
      · simp only [List.mem_append, List.mem_singleton]
        rintro l (hl | rfl)
        · exact h.positive l hl
        · exact hpos
      · simp only [Cursor.Found, List.mem_append, List.mem_singleton, or_and_right, exists_or,
          exists_eq_left, hsplit, Option.some.injEq, Prod.mk.injEq]
        refine or_congr_right ⟨?_, ?_⟩
        · rintro ⟨rfl, rfl⟩
          exact ⟨rfl, hpos.2, hpos.1, address, rfl, rfl⟩
        · rintro ⟨rfl, -, -, -, -, rfl⟩
          exact ⟨rfl, rfl⟩

section Fold

variable (toUpper : List Char → List Char)

/-- Descriptors, commands and protocols find nothing. -/
theorem reads_other {st : Cursor} (h : st.Keyed) {key : Char} (value : List Char)
    (hkey : key = 'f' ∨ key = 'c' ∨ key = 'P') :
    Reads st (st.line toUpper (key :: value)) fun _ _ => False := by
  cases value with
  | nil => exact Reads.nothing h rfl rfl rfl
  | cons c value => rcases hkey with rfl | rfl | rfl <;> exact Reads.nothing h rfl rfl rfl

theorem line_name (st : Cursor) (s : Socket) :
    st.line toUpper ('n' :: nameOf s) = st.name (nameOf s) := by
  obtain ⟨rest, happ⟩ := exists_nameOf s
  cases hname : nameOf s with
  | nil => simp [happ] at hname
  | cons x rest => rfl

theorem reads_socket {st : Cursor} (h : st.Keyed) (s : Socket) :
    Reads st (s.lines.foldl (Cursor.line toUpper) st) fun port pid =>
      st.currentPID = pid ∧ 0 < pid ∧ ∃ p, s.lastPort = some p ∧ (p.1 : Int) = port := by
  have hfd := reads_other toUpper h s.fd.1 (.inl rfl)
  have hproto := reads_other toUpper hfd.keyed s.protocol.text (.inr (.inr rfl))
  have hname := reads_name hproto.keyed (nameOf s)
  rw [← line_name toUpper] at hname
  refine ((hfd.trans hproto).trans hname).congr fun port pid => ?_
  obtain ⟨address, hsplit⟩ := splitAddressPort_nameOf s
  rw [hproto.pid, hfd.pid, hsplit]
  simp only [or_self, false_or, Option.map_eq_some_iff, Prod.mk.injEq]
  refine and_congr_right fun _ => and_congr_right fun _ => ⟨?_, ?_⟩
  · rintro ⟨-, -, p, hp, -, hport⟩
    exact ⟨p, hp, hport⟩
  · rintro ⟨p, hp, rfl⟩
    exact ⟨by exact_mod_cast p.2.1, address, p, hp, rfl, rfl⟩

theorem reads_sockets {st : Cursor} (h : st.Keyed) (sockets : List Socket) :
    Reads st ((sockets.flatMap Socket.lines).foldl (Cursor.line toUpper) st) fun port pid =>
      st.currentPID = pid ∧ 0 < pid ∧
        ∃ s ∈ sockets, ∃ p, s.lastPort = some p ∧ (p.1 : Int) = port := by
  induction sockets generalizing st with
  | nil => exact (Reads.nothing h rfl rfl rfl).congr fun port pid => by simp
  | cons s sockets ih =>
    have hs := reads_socket toUpper h s
    rw [List.flatMap_cons, List.foldl_append]
    refine (hs.trans (ih hs.keyed)).congr fun port pid => ?_
    rw [hs.pid, List.exists_mem_cons_iff, ← and_or_left, ← and_or_left]

/-- A process line and what follows it find the ports of the process. -/
theorem found_process {st : Cursor} (h : st.Keyed) (p : Process) :
    (p.lines.foldl (Cursor.line toUpper) st).Keyed ∧
      ∀ port pid, (p.lines.foldl (Cursor.line toUpper) st).Found port pid ↔
        st.Found port pid ∨ ((p.pid.1 : Int) = pid ∧
          ∃ s ∈ p.sockets, ∃ q, s.lastPort = some q ∧ (q.1 : Int) = port) := by
  have hpid : atoi (Nat.toDigits 10 p.pid.1) = some (p.pid.1 : Int) :=
    atoi_toDigits (by have := p.pid.2.2; unfold maxInt64; omega)
  have hline : st.line toUpper ('p' :: Nat.toDigits 10 p.pid.1) =
      { st with currentPID := p.pid.1 } := by
    cases hdigits : Nat.toDigits 10 p.pid.1 with
    | nil => exact absurd hdigits Nat.toDigits_ne_nil
    | cons c rest =>
      show { st with currentPID := (atoi (c :: rest)).getD 0 } = _
      rw [← hdigits, hpid, Option.getD_some]
  have hkeyed : ({ st with currentPID := p.pid.1 } : Cursor).Keyed := ⟨h.seen, h.positive⟩
  have hcommand := reads_other toUpper hkeyed p.command.1 (.inr (.inl rfl))
  have hreads := hcommand.trans (reads_sockets toUpper hcommand.keyed p.sockets)
  rw [Process.lines, List.foldl_cons, List.foldl_cons, hline]
  refine ⟨hreads.keyed, fun port pid => ?_⟩
  rw [hreads.found, hcommand.pid]
  simp only [false_or]
  refine or_congr Iff.rfl ⟨fun ⟨hp, _, hs⟩ => ⟨hp, hs⟩, fun ⟨hp, hs⟩ => ⟨hp, ?_, hs⟩⟩
  have := p.pid.2.1
  omega

theorem found_report {st : Cursor} (h : st.Keyed) (report : List Process) (port pid : Int) :
    ((report.flatMap Process.lines).foldl (Cursor.line toUpper) st).Found port pid ↔
      st.Found port pid ∨ ∃ p ∈ report, (p.pid.1 : Int) = pid ∧
        ∃ s ∈ p.sockets, ∃ q, s.lastPort = some q ∧ (q.1 : Int) = port := by
  induction report generalizing st with
  | nil => simp
  | cons p report ih =>
    obtain ⟨hkeyed, hfound⟩ := found_process toUpper h p
    rw [List.flatMap_cons, List.foldl_append, ih hkeyed, hfound, List.exists_mem_cons_iff,
      or_assoc]

/-- **The listeners of a report** are on the last ports of the names of its sockets. -/
theorem mem_parse_outputOf (report : List Process) (port pid : Int) :
    (∃ l ∈ parseLsofOutput toUpper (outputOf report), l.port = port ∧ l.pid = pid) ↔
      ∃ p ∈ report, (p.pid.1 : Int) = pid ∧
        ∃ s ∈ p.sockets, ∃ q, s.lastPort = some q ∧ (q.1 : Int) = port := by
  have hfound := found_report toUpper keyed_start report port pid
  rw [parseLsofOutput, splitOn_outputOf, List.foldl_append]
  simpa [Cursor.Found, Cursor.start, Cursor.line] using hfound

end Fold

end QuickVps.Ports
