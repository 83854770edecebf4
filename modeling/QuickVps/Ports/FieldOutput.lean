import QuickVps.Go.Words
import QuickVps.Ports.Lsof
import QuickVps.Ports.Signals

/-!
# Reading field output

With `-FpcPn` the process and its command are printed once, before the files of the process, so the
scanner has to carry them from line to line. Here any text may stand for a command, a protocol and
an address; names with an arrow are not singled out, the arrow then belongs to the address.

* `sightings` — the listeners that the output shows, one for each file with a numeric port,
* `parse_fieldOutput` — the scanner returns the first of those that share a key,
* `merges_protocols` — a colon in a protocol hides a listener behind another,
* `parse_fieldOutput_eq` — without such colons every endpoint is returned once.
-/

namespace QuickVps.Ports

open Go

/-- The lines of one open file: a descriptor, a protocol and a name. -/
structure FileSet where
  descriptor : Line
  protocol : Line
  protocol_ne_nil : protocol.1 ≠ []
  address : List Char
  isWord_address : IsWord address
  port : Option Port

def FileSet.name (f : FileSet) : List Char := f.address ++ ':' :: portText f.port

/-- The lines of one process: its number, its command and its files. -/
structure ProcessSet where
  pid : Nat
  pid_pos : 0 < pid
  pid_le : (pid : Int) ≤ maxInt64
  command : Line
  command_ne_nil : command.1 ≠ []
  files : List FileSet

def FileSet.lines (f : FileSet) : List (List Char) :=
  ['f' :: f.descriptor.1, 'P' :: f.protocol.1, 'n' :: f.name]

def ProcessSet.lines (p : ProcessSet) : List (List Char) :=
  ('p' :: Nat.toDigits 10 p.pid) :: ('c' :: p.command.1) :: p.files.flatMap FileSet.lines

/-- Every line is ended, so the output splits into the lines and an empty rest. -/
def fieldOutput (sets : List ProcessSet) : List Char :=
  List.intercalate ['\n'] (sets.flatMap ProcessSet.lines ++ [[]])

section Decode

variable (upper : Char → Char)

/-- The listener that a file of a process stands for, unless its port is a star. -/
def ProcessSet.sighting (p : ProcessSet) (f : FileSet) : Option Listener :=
  f.port.map fun port => ⟨f.protocol.1.map upper, f.address, port.1, p.pid, p.command.1⟩

def sightings (sets : List ProcessSet) : List Listener :=
  sets.flatMap fun p => p.files.filterMap (p.sighting upper)

/-! ## Names -/

theorem splitAddressPort_name (f : FileSet) :
    splitAddressPort f.name = f.port.map fun port => (f.address, (port.1 : Int)) :=
  splitAddressPort_append f.isWord_address.1 (f.isWord_address.2 _ (List.head_mem _)) f.port

/-! ## The loop -/

/-- The loop is among the files of `p`. -/
structure Cursor.Within (st : Cursor) (p : ProcessSet) : Prop where
  pid : st.currentPID = p.pid
  process : st.currentProcess = p.command.1

/-- Of the lines of a file the descriptor is skipped, and the protocol kept for the name. -/
theorem foldl_fileLines (st : Cursor) (f : FileSet) :
    f.lines.foldl (Cursor.line (List.map upper)) st =
      Cursor.name { st with currentProto := f.protocol.1.map upper } f.name := by
  have hdescriptor : st.line (List.map upper) ('f' :: f.descriptor.1) = st := by
    cases f.descriptor.1 <;> rfl
  have hprotocol : st.line (List.map upper) ('P' :: f.protocol.1) =
      { st with currentProto := f.protocol.1.map upper } := by
    cases hp : f.protocol.1 with
    | nil => exact absurd hp f.protocol_ne_nil
    | cons c rest => rfl
  have hname : ∀ st : Cursor, st.line (List.map upper) ('n' :: f.name) = st.name f.name := by
    intro st
    cases hn : f.name with
    | nil => simp [FileSet.name] at hn
    | cons c rest => rfl
  rw [FileSet.lines, List.foldl_cons, List.foldl_cons, List.foldl_cons, List.foldl_nil,
    hdescriptor, hprotocol, hname]

/-- The lines of a file add its listener, if it has one. -/
theorem within_file {st : Cursor} {p : ProcessSet} {found : List Listener} (hin : st.Within p)
    (h : st.Keeps found) (f : FileSet) :
    (f.lines.foldl (Cursor.line (List.map upper)) st).Within p ∧
      (f.lines.foldl (Cursor.line (List.map upper)) st).Keeps
        (found ++ (p.sighting upper f).toList) := by
  let st' : Cursor := { st with currentProto := f.protocol.1.map upper }
  have hkeeps : st'.Keeps found := ⟨h.listeners, h.seen⟩
  rw [foldl_fileLines]
  unfold Cursor.name ProcessSet.sighting
  rw [splitAddressPort_name]
  cases f.port with
  | none => exact ⟨⟨hin.pid, hin.process⟩, by simpa using hkeeps⟩
  | some port =>
    have hproto : f.protocol.1.map upper ≠ [] := by simpa using f.protocol_ne_nil
    have hpid := p.pid_pos
    have hport := port.2.1
    have hpos : ¬ (st.currentPID ≤ 0 ∨ (port.1 : Int) ≤ 0) := by
      rw [hin.pid]
      omega
    simp only [Option.map_some, Option.toList_some, if_neg hpos, if_neg hproto]
    have hadd := hkeeps.add
      ⟨f.protocol.1.map upper, f.address, port.1, st.currentPID, st.currentProcess⟩
    rw [← hin.pid, ← hin.process]
    refine ⟨?_, hadd⟩
    split <;> exact ⟨hin.pid, hin.process⟩

theorem within_files {st : Cursor} {p : ProcessSet} {found : List Listener} (hin : st.Within p)
    (h : st.Keeps found) (files : List FileSet) :
    ((files.flatMap FileSet.lines).foldl (Cursor.line (List.map upper)) st).Keeps
      (found ++ files.filterMap (p.sighting upper)) := by
  induction files generalizing st found with
  | nil => simpa using h
  | cons f files ih =>
    obtain ⟨hin, h⟩ := within_file upper hin h f
    rw [List.flatMap_cons, List.foldl_append]
    have hrest := ih hin h
    cases hf : p.sighting upper f with
    | none => simpa [hf] using hrest
    | some l => simpa [hf, List.append_assoc] using hrest

/-- The lines of a process. Its number and its command replace those of the process before. -/
theorem keeps_process {st : Cursor} {found : List Listener} (h : st.Keeps found)
    (p : ProcessSet) :
    (p.lines.foldl (Cursor.line (List.map upper)) st).Keeps
      (found ++ p.files.filterMap (p.sighting upper)) := by
  have hpid : st.line (List.map upper) ('p' :: Nat.toDigits 10 p.pid) =
      { st with currentPID := p.pid } := by
    cases hd : Nat.toDigits 10 p.pid with
    | nil => exact absurd hd Nat.toDigits_ne_nil
    | cons d digits => simp [Cursor.line, ← hd, atoi_toDigits p.pid_le]
  have hcommand : ∀ st : Cursor, st.line (List.map upper) ('c' :: p.command.1) =
      { st with currentProcess := p.command.1 } := by
    intro st
    cases hc : p.command.1 with
    | nil => exact absurd hc p.command_ne_nil
    | cons c rest => rfl
  rw [ProcessSet.lines, List.foldl_cons, List.foldl_cons, hpid, hcommand]
  have hin : Cursor.Within ⟨p.pid, p.command.1, st.currentProto, st.seen, st.listeners⟩ p :=
    ⟨rfl, rfl⟩
  exact within_files upper hin ⟨h.listeners, h.seen⟩ p.files

theorem keeps_sets {st : Cursor} {found : List Listener} (h : st.Keeps found)
    (sets : List ProcessSet) :
    ((sets.flatMap ProcessSet.lines).foldl (Cursor.line (List.map upper)) st).Keeps
      (found ++ sightings upper sets) := by
  induction sets generalizing st found with
  | nil => simpa [sightings] using h
  | cons p sets ih =>
    rw [List.flatMap_cons, List.foldl_append]
    have hrest := ih (keeps_process upper h p)
    simpa [sightings, List.append_assoc] using hrest

/-! ## The output -/

theorem newline_notMem_name (f : FileSet) : '\n' ∉ f.name := by
  have haddress : '\n' ∉ f.address := fun h => absurd (f.isWord_address.2 _ h) (by decide)
  have hport : '\n' ∉ portText f.port := by
    cases f.port with
    | none => decide
    | some port => exact not_mem_toDigits (by decide)
  simp [FileSet.name, haddress, hport]

theorem newline_notMem_processSet (p : ProcessSet) : ∀ line ∈ p.lines, '\n' ∉ line := by
  intro line hline
  rcases List.mem_cons.1 hline with rfl | hline
  · simpa using not_mem_toDigits (n := p.pid) (c := '\n') (by decide)
  rcases List.mem_cons.1 hline with rfl | hline
  · simpa using p.command.2
  · obtain ⟨f, -, hf⟩ := List.mem_flatMap.1 hline
    rcases (by simpa [FileSet.lines] using hf :
      line = 'f' :: f.descriptor.1 ∨ line = 'P' :: f.protocol.1 ∨ line = 'n' :: f.name)
      with rfl | rfl | rfl
    · simpa using f.descriptor.2
    · simpa using f.protocol.2
    · simpa using newline_notMem_name f

theorem splitOn_fieldOutput (sets : List ProcessSet) :
    (fieldOutput sets).splitOn '\n' = sets.flatMap ProcessSet.lines ++ [[]] := by
  refine Decode.splitOn_ended fun line hline => ?_
  obtain ⟨p, -, hp⟩ := List.mem_flatMap.1 hline
  exact newline_notMem_processSet p line hp

/-- The scanner returns the first listener of those that share a key. -/
theorem parse_fieldOutput (sets : List ProcessSet) :
    parseLsofOutput (List.map upper) (fieldOutput sets) =
      (sightings upper sets).eraseDupsBy (Firsts.same Listener.key) := by
  rw [parseLsofOutput, splitOn_fieldOutput, List.foldl_append]
  exact (keeps_sets upper keeps_start sets).listeners

/-! ## Keys and endpoints -/

theorem mem_sightings {sets : List ProcessSet} {l : Listener} (hl : l ∈ sightings upper sets) :
    l.Positive ∧ ∃ p ∈ sets, ∃ f ∈ p.files, l.protocol = f.protocol.1.map upper := by
  obtain ⟨p, hp, hl⟩ := List.mem_flatMap.1 hl
  obtain ⟨f, hf, hl⟩ := List.mem_filterMap.1 hl
  obtain ⟨port, -, rfl⟩ := Option.map_eq_some_iff.1 hl
  have hpid := p.pid_pos
  have hport := port.2.1
  exact ⟨⟨by simpa using hport, by simpa using hpid⟩, p, hp, f, hf, rfl⟩

/-- With protocols free of colons, the key tells endpoints apart. -/
theorem endpoint_eq_of_key {l l' : Listener} (hl : l.Positive) (hl' : l'.Positive)
    (hcolon : ':' ∉ l.protocol) (hcolon' : ':' ∉ l'.protocol) (h : l.key = l'.key) :
    l.endpoint = l'.endpoint := by
  obtain ⟨hport, hpid⟩ := dedupe_inj hl.1 hl.2 hl'.1 hl'.2 h
  have hcut : l.protocol ++ ':' :: (l.address ++ ':' :: (itoa l.port ++ ':' :: itoa l.pid)) =
      l'.protocol ++ ':' :: (l'.address ++ ':' :: (itoa l.port ++ ':' :: itoa l.pid)) := by
    have hkey := h
    simp only [Listener.key, dedupe, ← hport, ← hpid] at hkey
    exact hkey
  obtain ⟨hproto, hrest⟩ := append_cons_inj_left hcolon hcolon' hcut
  have haddress : l.address = l'.address := List.append_cancel_right hrest
  rw [Listener.endpoint, Listener.endpoint, hproto, haddress, hport, hpid]

end Decode

/-! ## Protocols with a colon -/

/-- A socket of process 7 on port 80, with a protocol and an address to choose. -/
def oddFile (protocol : Line) (hne : protocol.1 ≠ []) (address : List Char)
    (hword : IsWord address) : FileSet where
  descriptor := ⟨"3".toList, by decide⟩
  protocol := protocol
  protocol_ne_nil := hne
  address := address
  isWord_address := hword
  port := some ⟨80, by decide⟩

/-- Two sockets that differ, with one key `A:B:C:80:7`. -/
def oddSet : ProcessSet where
  pid := 7
  pid_pos := by decide
  pid_le := by decide
  command := ⟨"app".toList, by decide⟩
  command_ne_nil := by decide
  files := [oddFile ⟨"A:B".toList, by decide⟩ (by decide) "C".toList (by decide),
    oddFile ⟨"A".toList, by decide⟩ (by decide) "B:C".toList (by decide)]

/-- **A colon in a protocol hides a listener**, which has the key of another. -/
theorem merges_protocols :
    ¬ ∀ sets : List ProcessSet, parseLsofOutput toUpperText (fieldOutput sets) =
      (sightings toUpperChar sets).eraseDupsBy (Firsts.same Listener.endpoint) := by
  intro hall
  have hodd := congrArg List.length (hall [oddSet])
  have hparse := congrArg List.length (parse_fieldOutput toUpperChar [oddSet])
  have hone : ((sightings toUpperChar [oddSet]).eraseDupsBy
      (Firsts.same Listener.key)).length = 1 := by decide
  have htwo : ((sightings toUpperChar [oddSet]).eraseDupsBy
      (Firsts.same Listener.endpoint)).length = 2 := by decide
  have hsame : toUpperText = List.map toUpperChar := rfl
  rw [hsame] at hodd
  omega

/-- **The scanner decodes field output exactly** when the protocols have no colon: it returns the
first listener of each endpoint, with the command of its process. -/
theorem parse_fieldOutput_eq (upper : Char → Char) (sets : List ProcessSet)
    (hcolon : ∀ p ∈ sets, ∀ f ∈ p.files, ':' ∉ f.protocol.1.map upper) :
    parseLsofOutput (List.map upper) (fieldOutput sets) =
      (sightings upper sets).eraseDupsBy (Firsts.same Listener.endpoint) := by
  rw [parse_fieldOutput]
  refine Firsts.eraseDupsBy_congr fun l hl l' hl' => ⟨fun hkey => ?_, key_eq_of_endpoint⟩
  obtain ⟨hpos, p, hp, f, hf, hproto⟩ := mem_sightings upper hl
  obtain ⟨hpos', p', hp', f', hf', hproto'⟩ := mem_sightings upper hl'
  exact endpoint_eq_of_key hpos hpos' (hproto ▸ hcolon p hp f hf) (hproto' ▸ hcolon p' hp' f' hf')
    hkey

/-- A web server on port 80 over two protocols. -/
def webSet : ProcessSet where
  pid := 7
  pid_pos := by decide
  pid_le := by decide
  command := ⟨"app".toList, by decide⟩
  command_ne_nil := by decide
  files := [oddFile ⟨"tcp".toList, by decide⟩ (by decide) "[::1]".toList (by decide),
    oddFile ⟨"UDP".toList, by decide⟩ (by decide) "[::1]".toList (by decide)]

theorem parse_fieldOutput_web :
    parseLsofOutput (List.map toUpperChar) (fieldOutput [webSet]) =
      (sightings toUpperChar [webSet]).eraseDupsBy (Firsts.same Listener.endpoint) :=
  parse_fieldOutput_eq toUpperChar [webSet] (by decide)

end QuickVps.Ports
