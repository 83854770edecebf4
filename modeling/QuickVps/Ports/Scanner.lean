import QuickVps.Go.Strings
import QuickVps.Lib.Firsts
import Mathlib.Data.List.Dedup
import Mathlib.Data.List.Sort

/-!
# Port scanner

`lsof` is run twice and read line by line: a line starts with the letter of its field, and every
name line turns the fields before it into a listener. `KillByPort` sends `SIGTERM` to the processes
of the listeners on one port. What the operating system does is the structure `Os`; `ToUpper` of
`strings` is a parameter, as only the protocol's spelling goes through it.
-/

namespace QuickVps.Ports

open Go

structure Listener where
  protocol : List Char
  address : List Char
  port : Int
  pid : Int
  process : List Char
  deriving DecidableEq

def splitAddressPort (raw : List Char) : Option (List Char × Int) :=
  let cleaned := trimSuffix (trimSpace raw) " (LISTEN)".toList
  match lastIndex ':' cleaned with
  | none => none
  | some idx =>
    if idx = 0 ∨ idx ≥ cleaned.length - 1 then none
    else (atoi (cleaned.drop (idx + 1))).map fun port => (cleaned.take idx, port)

/-- The variables of the loop of `parseLsofOutput`. -/
structure Cursor where
  currentPID : Int
  currentProcess : List Char
  currentProto : List Char
  seen : List (List Char)
  listeners : List Listener

def Cursor.start : Cursor := ⟨0, [], [], [], []⟩

def dedupe (proto address : List Char) (port pid : Int) : List Char :=
  proto ++ ':' :: (address ++ ':' :: (itoa port ++ ':' :: itoa pid))

/-- The key of the listener in the set `seen`. -/
def Listener.key (l : Listener) : List Char := dedupe l.protocol l.address l.port l.pid

section Parse

variable (toUpper : List Char → List Char)

/-- The case of a name line. -/
def Cursor.name (st : Cursor) (value : List Char) : Cursor :=
  match splitAddressPort value with
  | none => st
  | some (address, port) =>
    if st.currentPID ≤ 0 ∨ port ≤ 0 then st
    else
      let proto := if st.currentProto = [] then "TCP".toList else st.currentProto
      let key := dedupe proto address port st.currentPID
      if key ∈ st.seen then st
      else { st with
        seen := key :: st.seen
        listeners :=
          st.listeners ++ [⟨proto, address, port, st.currentPID, st.currentProcess⟩] }

/-- One turn of the loop. A field without a value is skipped. -/
def Cursor.line (st : Cursor) : List Char → Cursor
  | [] => st
  | [_] => st
  | key :: value =>
    match key with
    | 'p' => { st with currentPID := (atoi value).getD 0 }
    | 'c' => { st with currentProcess := value }
    | 'P' => { st with currentProto := toUpper value }
    | 'n' => st.name value
    | _ => st

def parseLsofOutput (output : List Char) : List Listener :=
  ((output.splitOn '\n').foldl (Cursor.line toUpper) Cursor.start).listeners

/-- How a run of `lsof` ends: with its output, not at all, with a failure code and what it wrote to
its standard error, or with another error of `exec`. -/
inductive Exit where
  | ok (out : List Char)
  | notFound
  | failed (stderr : List Char)
  | other (err : List Char)

structure Os where
  lsof : List String → Exit
  findProcess : Int → Option (List Char)
  signal : Int → Option (List Char)

inductive KillError where
  | noProcessOnPort
  | lsof (text : List Char)
  | failed (text : List Char)
  deriving DecidableEq

def KillError.text : KillError → List Char
  | .noProcessOnPort => "no process found on port".toList
  | .lsof text => text
  | .failed text => "failed to kill some processes: ".toList ++ text

def runLsof (os : Os) (args : List String) : Except (List Char) (List Listener) :=
  match os.lsof args with
  | .ok out => .ok (parseLsofOutput toUpper out)
  | .notFound => .error "lsof command not found".toList
  | .failed stderr =>
    if stderr = [] then .ok [] else .error ("lsof failed: ".toList ++ trimSpace stderr)
  | .other err => .error err

def listenArgs : List String := ["-nP", "-iTCP", "-sTCP:LISTEN", "-FpcPn"]

def udpArgs : List String := ["-nP", "-iUDP", "-FpcPn"]

/-- The order of `ListListeners`; listeners that it does not tell apart may come in any order. -/
def Listener.le (a b : Listener) : Bool :=
  if a.port ≠ b.port then a.port < b.port
  else if a.protocol ≠ b.protocol then a.protocol < b.protocol
  else a.pid ≤ b.pid

def listListeners (os : Os) : Except (List Char) (List Listener) := do
  let tcp ← runLsof toUpper os listenArgs
  let udp ← runLsof toUpper os udpArgs
  return (tcp ++ udp).mergeSort Listener.le

/-- What `KillByPort` did and returned; `signaled` lists its calls of `Signal`. -/
structure Kill where
  signaled : List Int
  killed : List Int
  err : Option KillError

def pidError (pid : Int) (err : List Char) : List Char :=
  "pid ".toList ++ itoa pid ++ ": ".toList ++ err

/-- The signal loop, with the texts of its failures. -/
def signalAll (os : Os) : List Int → List Int × List Int × List (List Char)
  | [] => ([], [], [])
  | pid :: rest =>
    let (signaled, killed, failed) := signalAll os rest
    match os.findProcess pid with
    | some err => (signaled, killed, pidError pid err :: failed)
    | none =>
      match os.signal pid with
      | some err => (pid :: signaled, killed, pidError pid err :: failed)
      | none => (pid :: signaled, pid :: killed, failed)

def killByPort (os : Os) (port : Int) : Kill :=
  match listListeners toUpper os with
  | .error text => ⟨[], [], some (.lsof text)⟩
  | .ok listeners =>
    let pids := ((listeners.filter fun l => l.port = port).map Listener.pid).dedup
    if pids = [] then ⟨[], [], some .noProcessOnPort⟩
    else
      let (signaled, killed, failed) := signalAll os (pids.mergeSort (· ≤ ·))
      let err := if failed = [] then none
        else some (.failed (List.intercalate "; ".toList failed))
      ⟨signaled, killed, err⟩

/-! ## The loop -/

/-- A port that can be connected to, of a process that can be signalled. -/
def Listener.Positive (l : Listener) : Prop := 0 < l.port ∧ 0 < l.pid

/-- A listener is added if its key is new. -/
def Cursor.add (st : Cursor) (l : Listener) : Cursor :=
  if l.key ∈ st.seen then st
  else { st with seen := l.key :: st.seen, listeners := st.listeners ++ [l] }

/-- A name line changes nothing, or adds a listener. -/
theorem name_cases (st : Cursor) (value : List Char) :
    st.name value = st ∨ ∃ l : Listener, l.Positive ∧ st.name value = st.add l := by
  unfold Cursor.name
  cases splitAddressPort value with
  | none => exact .inl rfl
  | some found =>
    obtain ⟨address, port⟩ := found
    simp only
    by_cases hpos : st.currentPID ≤ 0 ∨ port ≤ 0
    · rw [if_pos hpos]
      exact .inl rfl
    · obtain ⟨hpid, hport⟩ := not_or.1 hpos
      rw [if_neg hpos]
      generalize (if st.currentProto = [] then "TCP".toList else st.currentProto) = proto
      exact .inr ⟨⟨proto, address, port, st.currentPID, st.currentProcess⟩,
        ⟨not_le.1 hport, not_le.1 hpid⟩, rfl⟩

/-- A line leaves the listeners as they are, or is a name line. -/
theorem line_cases (st : Cursor) (line : List Char) :
    ((st.line toUpper line).seen = st.seen ∧ (st.line toUpper line).listeners = st.listeners) ∨
      ∃ value, st.line toUpper line = st.name value := by
  unfold Cursor.line
  split
  · exact .inl ⟨rfl, rfl⟩
  · exact .inl ⟨rfl, rfl⟩
  · split
    · exact .inl ⟨rfl, rfl⟩
    · exact .inl ⟨rfl, rfl⟩
    · exact .inl ⟨rfl, rfl⟩
    · exact .inr ⟨_, rfl⟩
    · exact .inl ⟨rfl, rfl⟩

/-- The loop has seen the listeners `found` and keeps the first of those that share a key. -/
structure Cursor.Keeps (st : Cursor) (found : List Listener) : Prop where
  listeners : st.listeners = found.eraseDupsBy (Firsts.same Listener.key)
  seen : ∀ key, key ∈ st.seen ↔ ∃ l ∈ found, l.key = key

theorem keeps_start : Cursor.start.Keeps [] where
  listeners := rfl
  seen := by simp [Cursor.start]

/-- A listener is kept exactly if its key has not been seen. -/
theorem Cursor.Keeps.add {st : Cursor} {found : List Listener} (h : st.Keeps found)
    (l : Listener) : (st.add l).Keeps (found ++ [l]) := by
  unfold Cursor.add
  have hany : found.any (Firsts.same Listener.key l) = true ↔ l.key ∈ st.seen := by
    rw [h.seen, List.any_eq_true]
    refine exists_congr fun l' => and_congr_right fun _ => ?_
    simp [Firsts.same, eq_comm]
  by_cases hseen : l.key ∈ st.seen
  · rw [if_pos hseen]
    refine ⟨?_, fun key => ?_⟩
    · rw [Firsts.eraseDupsBy_concat, if_pos (hany.2 hseen), List.append_nil]
      exact h.listeners
    · obtain ⟨l', hl', hkey⟩ := (h.seen _).1 hseen
      rw [h.seen]
      constructor
      · rintro ⟨m, hm, rfl⟩
        exact ⟨m, List.mem_append_left _ hm, rfl⟩
      · rintro ⟨m, hm, rfl⟩
        rcases List.mem_append.1 hm with hm | hm
        · exact ⟨m, hm, rfl⟩
        · rw [List.mem_singleton.1 hm]
          exact ⟨l', hl', hkey⟩
  · rw [if_neg hseen]
    refine ⟨?_, fun key => ?_⟩
    · rw [Firsts.eraseDupsBy_concat, if_neg (mt hany.1 hseen), ← h.listeners]
    · rw [List.mem_cons, h.seen]
      constructor
      · rintro (rfl | ⟨m, hm, rfl⟩)
        · exact ⟨l, List.mem_append_right _ List.mem_cons_self, rfl⟩
        · exact ⟨m, List.mem_append_left _ hm, rfl⟩
      · rintro ⟨m, hm, rfl⟩
        rcases List.mem_append.1 hm with hm | hm
        · exact .inr ⟨m, hm, rfl⟩
        · rw [List.mem_singleton.1 hm]
          exact .inl rfl

theorem keeps_line {st : Cursor} {found : List Listener} (h : st.Keeps found)
    (line : List Char) : ∃ more : List Listener, (∀ l ∈ more, l.Positive) ∧
      (st.line toUpper line).Keeps (found ++ more) := by
  rcases line_cases toUpper st line with ⟨hseen, hlisteners⟩ | ⟨value, hname⟩
  · refine ⟨[], fun l hl => absurd hl List.not_mem_nil, ?_, ?_⟩
    · rw [hlisteners, List.append_nil, h.listeners]
    · rw [hseen, List.append_nil]
      exact h.seen
  · rw [hname]
    rcases name_cases st value with hsame | ⟨l, hpos, hadd⟩
    · refine ⟨[], fun l hl => absurd hl List.not_mem_nil, ?_⟩
      rw [hsame, List.append_nil]
      exact h
    · refine ⟨[l], fun l' hl' => ?_, ?_⟩
      · rw [List.mem_singleton.1 hl']
        exact hpos
      · rw [hadd]
        exact h.add l

theorem keeps_lines {st : Cursor} {found : List Listener} (h : st.Keeps found)
    (lines : List (List Char)) : ∃ more : List Listener, (∀ l ∈ more, l.Positive) ∧
      (lines.foldl (Cursor.line toUpper) st).Keeps (found ++ more) := by
  induction lines generalizing st found with
  | nil => exact ⟨[], fun l hl => absurd hl List.not_mem_nil, by rwa [List.append_nil]⟩
  | cons line lines ih =>
    obtain ⟨more, hmore, hline⟩ := keeps_line toUpper h line
    obtain ⟨rest, hrest, hlines⟩ := ih hline
    refine ⟨more ++ rest, fun l hl => ?_, ?_⟩
    · rcases List.mem_append.1 hl with hl | hl
      · exact hmore l hl
      · exact hrest l hl
    · rwa [← List.append_assoc]

/-- **Whatever `lsof` prints**, the scanner returns the first of each key among listeners with
positive ports and processes. -/
theorem parse_eq_eraseDupsBy (output : List Char) : ∃ found : List Listener,
    (∀ l ∈ found, l.Positive) ∧
      parseLsofOutput toUpper output = found.eraseDupsBy (Firsts.same Listener.key) := by
  obtain ⟨found, hfound, hkeeps⟩ := keeps_lines toUpper keeps_start (output.splitOn '\n')
  exact ⟨found, hfound, hkeeps.listeners⟩

theorem positive_of_mem_parse {output : List Char} {l : Listener}
    (hl : l ∈ parseLsofOutput toUpper output) : l.Positive := by
  obtain ⟨found, hfound, hparse⟩ := parse_eq_eraseDupsBy toUpper output
  rw [hparse] at hl
  exact hfound l ((Firsts.eraseDupsBy_sublist _ _).subset hl)

theorem positive_of_mem_runLsof {os : Os} {args : List String} {listeners : List Listener}
    (h : runLsof toUpper os args = .ok listeners) {l : Listener} (hl : l ∈ listeners) :
    l.Positive := by
  unfold runLsof at h
  split at h
  · cases h
    exact positive_of_mem_parse toUpper hl
  · cases h
  · split_ifs at h
    cases h
    cases hl
  · cases h

theorem positive_of_mem_listListeners {os : Os} {listeners : List Listener}
    (h : listListeners toUpper os = .ok listeners) {l : Listener} (hl : l ∈ listeners) :
    l.Positive := by
  unfold listListeners at h
  cases htcp : runLsof toUpper os listenArgs with
  | error err =>
    rw [htcp] at h
    cases h
  | ok tcp =>
    cases hudp : runLsof toUpper os udpArgs with
    | error err =>
      rw [htcp, hudp] at h
      cases h
    | ok udp =>
      rw [htcp, hudp] at h
      cases h
      rcases List.mem_append.1 (List.mem_mergeSort.1 hl) with hl | hl
      · exact positive_of_mem_runLsof toUpper htcp hl
      · exact positive_of_mem_runLsof toUpper hudp hl

end Parse

end QuickVps.Ports
