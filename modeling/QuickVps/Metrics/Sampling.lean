import QuickVps.Go.Time
import QuickVps.Lib.Firsts
import QuickVps.Metrics.Rates

/-!
# The snapshots of a run

At each tick `Collector.collect` reads the machine, compares its counters with those of the tick
before, and keeps the new ones. The machine at one tick is the structure `Machine`, in which `none`
is an error of the library that reads it.

* `collectCPU`, `collectMemory`, `collectDisks`, `collectDiskIO`, `collectNet` — what is read;
* `collect`, `snapshots` — one tick, and the snapshots of a run;
* `disks_once` — each device is listed once, with its first mount point;
* `growth_shown` — over any run the rates, each times the time since the tick before, add up to
  what the counters grew by.
-/

namespace QuickVps.Metrics

open Go

/-! ## The machine -/

structure CPUInfo where
  modelName : String
  mhz : Float64

structure VirtualMemory where
  total : UInt64
  used : UInt64
  free : UInt64
  cached : UInt64
  buffers : UInt64
  usedPercent : Float64

structure SwapMemory where
  total : UInt64
  used : UInt64
  free : UInt64
  usedPercent : Float64

structure Partition where
  device : String
  mountpoint : String
  fstype : String

structure Usage where
  total : UInt64
  used : UInt64
  free : UInt64
  usedPercent : Float64

/-- What the library answers at one tick. The counters of the disks come as a map, those of the
interfaces as a list. -/
structure Machine where
  percent : Option (List Float64) := none
  perCore : Option (List Float64) := none
  infos : Option (List CPUInfo) := none
  virtualMemory : Option VirtualMemory := none
  swapMemory : Option SwapMemory := none
  partitions : Option (List Partition) := none
  usage : String → Option Usage := fun _ => none
  diskCounters : Option (Counters DiskIOCounter) := none
  netCounters : Option (List (String × NetCounter)) := none

/-! ## What is read -/

structure CPUMetrics where
  totalPercent : Float64
  freqMHz : Float64
  perCore : List Float64
  coreCount : Nat
  modelName : String

def collectCPU (machine : Machine) : CPUMetrics where
  totalPercent := (machine.percent.bind List.head?).getD (.num 0)
  freqMHz := ((machine.infos.bind List.head?).map CPUInfo.mhz).getD (.num 0)
  perCore := machine.perCore.getD []
  coreCount := (machine.perCore.getD []).length
  modelName := ((machine.infos.bind List.head?).map CPUInfo.modelName).getD ""

structure MemMetrics where
  totalBytes : UInt64 := 0
  usedBytes : UInt64 := 0
  freeBytes : UInt64 := 0
  cached : UInt64 := 0
  buffers : UInt64 := 0
  percent : Float64 := .num 0

structure SwapMetrics where
  totalBytes : UInt64 := 0
  usedBytes : UInt64 := 0
  freeBytes : UInt64 := 0
  percent : Float64 := .num 0

def collectMemory (machine : Machine) : MemMetrics × SwapMetrics :=
  (machine.virtualMemory.elim {} fun vm =>
      ⟨vm.total, vm.used, vm.free, vm.cached, vm.buffers, vm.usedPercent⟩,
    machine.swapMemory.elim {} fun sm => ⟨sm.total, sm.used, sm.free, sm.usedPercent⟩)

structure DiskMetrics where
  mountpoint : String
  device : String
  fstype : String
  totalBytes : UInt64
  usedBytes : UInt64
  freeBytes : UInt64
  percent : Float64

def diskMetrics (p : Partition) (usage : Usage) : DiskMetrics where
  mountpoint := p.mountpoint
  device := p.device
  fstype := p.fstype
  totalBytes := usage.total
  usedBytes := usage.used
  freeBytes := usage.free
  percent := usage.usedPercent

/-- The loop over the partitions. A device counts as seen before its usage is read. -/
def collectPartitions (usage : String → Option Usage) :
    List String → List Partition → List DiskMetrics
  | _, [] => []
  | seen, p :: ps =>
    if p.device ∈ seen then collectPartitions usage seen ps
    else
      match usage p.mountpoint with
      | none => collectPartitions usage (p.device :: seen) ps
      | some u => diskMetrics p u :: collectPartitions usage (p.device :: seen) ps

def collectDisks (machine : Machine) : List DiskMetrics :=
  collectPartitions machine.usage [] (machine.partitions.getD [])

def collectDiskIO (machine : Machine) : Counters DiskIOCounter := machine.diskCounters.getD ∅

/-- The last counter of a name counts. -/
def collectNet (machine : Machine) : Counters NetCounter :=
  (machine.netCounters.getD []).foldl (fun result c => result.insert c.1 c.2) ∅

/-! ## One tick -/

/-- `d.Seconds()`. -/
def durationSeconds (d : Int) : ℚ :=
  let secs := roundFloat64 (d.natAbs / 1000000000 : ℕ)
  let rest := roundFloat64 ((d.natAbs % 1000000000 : ℕ) / 1000000000)
  d.sign * roundFloat64 (secs + rest)

structure Snapshot where
  timestamp : Int
  cpu : CPUMetrics
  memory : MemMetrics
  swap : SwapMetrics
  disks : List DiskMetrics
  diskIO : List DiskIOMetrics
  network : List NetMetrics

/-- The counters and the time of the tick before. -/
structure Sampler where
  prevDiskIO : Counters DiskIOCounter
  prevNet : Counters NetCounter
  prevTime : Int

/-- What `NewCollector` starts with. -/
def newSampler (machine : Machine) (now : Int) : Sampler where
  prevDiskIO := collectDiskIO machine
  prevNet := collectNet machine
  prevTime := now

def collect (c : Sampler) (now : Int) (machine : Machine) : Snapshot × Sampler :=
  let elapsed := durationSeconds (timeSub now c.prevTime)
  let currDiskIO := collectDiskIO machine
  let currNet := collectNet machine
  ({ timestamp := now
     cpu := collectCPU machine
     memory := (collectMemory machine).1
     swap := (collectMemory machine).2
     disks := collectDisks machine
     diskIO := calcDiskIO c.prevDiskIO currDiskIO elapsed
     network := calcNet c.prevNet currNet elapsed },
    { prevDiskIO := currDiskIO
      prevNet := currNet
      prevTime := now })

/-- A tick, with the machine that it finds. -/
structure Tick where
  now : Int
  machine : Machine

def snapshots : Sampler → List Tick → List Snapshot
  | _, [] => []
  | c, tick :: ticks =>
    (collect c tick.now tick.machine).1 ::
      snapshots (collect c tick.now tick.machine).2 ticks

/-! ## Disks -/

theorem collectPartitions_concat (usage : String → Option Usage) (seen : List String)
    (ps : List Partition) (p : Partition) :
    collectPartitions usage seen (ps ++ [p]) =
      collectPartitions usage seen ps ++
        if p.device ∈ seen ∨ p.device ∈ ps.map Partition.device then []
        else ((usage p.mountpoint).map (diskMetrics p)).toList := by
  induction ps generalizing seen with
  | nil =>
    by_cases hseen : p.device ∈ seen
    · simp [collectPartitions, hseen]
    · cases husage : usage p.mountpoint <;> simp [collectPartitions, hseen, husage]
  | cons q ps ih =>
    by_cases hseen : q.device ∈ seen
    · -- A device that was seen cannot make `p` new.
      have hnew : (p.device ∈ seen ∨ p.device ∈ (q :: ps).map Partition.device) ↔
          (p.device ∈ seen ∨ p.device ∈ ps.map Partition.device) := by
        by_cases hp : p.device = q.device
        · simp [hp, hseen]
        · simp [hp]
      simp only [List.cons_append, collectPartitions, hseen, ih, hnew, if_true]
    · have hnew : (p.device ∈ q.device :: seen ∨ p.device ∈ ps.map Partition.device) ↔
          (p.device ∈ seen ∨ p.device ∈ (q :: ps).map Partition.device) := by
        simp [or_assoc, or_left_comm]
      cases husage : usage q.mountpoint <;>
        simp only [List.cons_append, collectPartitions, hseen, husage, ih, hnew, if_false]

/-- The loop over the partitions takes the first of each device. -/
theorem collectPartitions_eq (usage : String → Option Usage) (ps : List Partition) :
    collectPartitions usage [] ps =
      (ps.eraseDupsBy (Firsts.same Partition.device)).filterMap fun p =>
        (usage p.mountpoint).map (diskMetrics p) := by
  induction ps using List.reverseRecOn with
  | nil => rfl
  | append_singleton ps p ih =>
    have hany : ps.any (Firsts.same Partition.device p) = true ↔
        p.device ∈ ps.map Partition.device := by
      simp only [List.any_eq_true, List.mem_map, Firsts.same, decide_eq_true_eq]
      exact exists_congr fun q => and_congr_right fun _ => eq_comm
    rw [collectPartitions_concat, ih, Firsts.eraseDupsBy_concat, List.filterMap_append]
    by_cases hold : p.device ∈ ps.map Partition.device
    · rw [if_pos (Or.inr hold), if_pos (hany.2 hold), List.filterMap_nil]
    · rw [if_neg (by simpa using hold), if_neg (fun h => hold (hany.1 h))]
      cases husage : usage p.mountpoint <;> simp [husage]

theorem map_filterMap_sublist {α β κ : Type} {o : α → Option β} {f : β → κ} {g : α → κ}
    (h : ∀ a b, o a = some b → f b = g a) (xs : List α) :
    ((xs.filterMap o).map f).Sublist (xs.map g) := by
  induction xs with
  | nil => exact List.Sublist.slnil
  | cons x xs ih =>
    rw [List.filterMap_cons, List.map_cons]
    cases hx : o x with
    | none => exact ih.cons (g x)
    | some b =>
      rw [← h x b hx]
      exact ih.cons_cons (f b)

/-- **Each device is listed once**, in the order of the partitions. It is listed with its first
mount point, and is not listed at all when the usage of that one cannot be read. -/
theorem disks_once (c : Sampler) (now : Int) (machine : Machine) :
    ((collect c now machine).1.disks.map DiskMetrics.device).Nodup ∧
      ((collect c now machine).1.disks.map fun m => (m.device, m.mountpoint)).Sublist
        ((machine.partitions.getD []).map fun p => (p.device, p.mountpoint)) ∧
      ∀ m, m ∈ (collect c now machine).1.disks ↔
        ∃ before p after u, machine.partitions = some (before ++ p :: after) ∧
          p.device ∉ before.map Partition.device ∧ machine.usage p.mountpoint = some u ∧
            m = diskMetrics p u := by
  have hdisks : (collect c now machine).1.disks =
      ((machine.partitions.getD []).eraseDupsBy (Firsts.same Partition.device)).filterMap fun p =>
        (machine.usage p.mountpoint).map (diskMetrics p) :=
    collectPartitions_eq machine.usage _
  have hsublist {κ : Type} {f : DiskMetrics → κ} {g : Partition → κ}
      (hfg : ∀ p u, f (diskMetrics p u) = g p) : ((collect c now machine).1.disks.map f).Sublist
        (((machine.partitions.getD []).eraseDupsBy (Firsts.same Partition.device)).map g) := by
    rw [hdisks]
    refine map_filterMap_sublist (fun p m hm => ?_) _
    obtain ⟨u, -, rfl⟩ := Option.map_eq_some_iff.1 hm
    exact hfg p u
  refine ⟨?_, ?_, fun m => ?_⟩
  · refine List.Sublist.nodup (hsublist fun _ _ => rfl) ?_
    exact List.pairwise_map.2 (Firsts.pairwise_eraseDupsBy Partition.device _)
  · refine (hsublist fun _ _ => rfl).trans (List.Sublist.map _ ?_)
    exact Firsts.eraseDupsBy_sublist Partition.device _
  · rw [hdisks, List.mem_filterMap]
    constructor
    · intro h
      obtain ⟨p, hp, hm⟩ := h
      obtain ⟨u, husage, rfl⟩ := Option.map_eq_some_iff.1 hm
      obtain ⟨before, after, heq, hnew⟩ := (Firsts.mem_eraseDupsBy_iff Partition.device).1 hp
      refine ⟨before, p, after, u, ?_, hnew, husage, rfl⟩
      cases hparts : machine.partitions with
      | none => simp [hparts] at heq
      | some ps => simpa [hparts] using heq
    · intro h
      obtain ⟨before, p, after, u, hparts, hnew, husage, rfl⟩ := h
      refine ⟨p, (Firsts.mem_eraseDupsBy_iff Partition.device).2 ⟨before, after, ?_, hnew⟩, ?_⟩
      · rw [hparts]
        rfl
      · rw [husage]
        rfl

/-! ## Elapsed times -/

/-- Of the three roundings that of the whole seconds is exact. -/
theorem durationSeconds_error {d : Int} (hpos : 0 < d) (hle : d ≤ maxInt64) :
    |durationSeconds d - d / 1000000000| ≤ (d / 1000000000 : ℚ) / 2 ^ 51 := by
  obtain ⟨n, rfl⟩ := Int.eq_ofNat_of_zero_le hpos.le
  set secs : ℚ := ((n / 1000000000 : ℕ) : ℚ) with hsecs
  set rest : ℚ := ((n % 1000000000 : ℕ) : ℚ) / 1000000000 with hrest
  have hsecs_nonneg : 0 ≤ secs := Nat.cast_nonneg _
  have hrest_nonneg : 0 ≤ rest := by positivity
  have hvalue : durationSeconds n = roundFloat64 (secs + roundFloat64 rest) := by
    have hexact : roundFloat64 secs = secs := by
      refine roundFloat64_natCast ?_
      simp only [maxInt64] at hle
      omega
    simp only [durationSeconds, Int.sign_eq_one_of_pos hpos, Int.natAbs_natCast, ← hsecs, ← hrest,
      hexact, Int.cast_one, one_mul]
  have hsplit : ((n : Int) : ℚ) / 1000000000 = secs + rest := by
    have hdiv : (n : ℚ) = 1000000000 * (n / 1000000000 : ℕ) + (n % 1000000000 : ℕ) := by
      exact_mod_cast (Nat.div_add_mod n 1000000000).symm
    rw [Int.cast_natCast, hsecs, hrest]
    linarith
  have hfraction := abs_le.1 (roundFloat64_error hrest_nonneg)
  have hsum := abs_le.1 (roundFloat64_error (add_nonneg hsecs_nonneg
    (roundFloat64_nonneg hrest_nonneg)))
  rw [hvalue, hsplit, abs_le]
  constructor <;> linarith

/-- The elapsed time between two ticks, as a `float64`. -/
theorem durationSeconds_timeSub {t u : Int} (hlt : t < u) (hle : u - t ≤ maxInt64) :
    |durationSeconds (timeSub u t) - (u - t : Int) / 1000000000| ≤
      ((u - t : Int) / 1000000000 : ℚ) / 2 ^ 51 := by
  have hsub : timeSub u t = u - t := by
    simp only [timeSub, minInt64, maxInt64] at hle ⊢
    omega
  rw [hsub]
  exact durationSeconds_error (sub_pos.2 hlt) hle

/-- A nanosecond is long enough for every counter, and no duration is too long for a `float64`. -/
theorem durationSeconds_bounds {t u : Int} (hlt : t < u) (hle : u - t ≤ maxInt64) :
    1 / 2 ^ 31 < durationSeconds (timeSub u t) ∧ durationSeconds (timeSub u t) < 2 ^ 64 := by
  have htime := abs_le.1 (durationSeconds_timeSub hlt hle)
  have hone : (1 : ℚ) ≤ (u - t : Int) := by exact_mod_cast sub_pos.2 hlt
  have hmax : ((u - t : Int) : ℚ) ≤ 9223372036854775807 := by exact_mod_cast hle
  constructor <;> linarith

theorem inRange_of_lt {n : ℕ} (hn : n < 2 ^ 64) {elapsed : ℚ} (h : 1 / 2 ^ 31 < elapsed) :
    InRange n elapsed := by
  have hpos : 0 < elapsed := h.trans' (by norm_num)
  have hfloat : roundFloat64 n ≤ 2 ^ 64 := by
    refine (roundFloat64_mono (Nat.cast_nonneg n) ?_).trans_eq
      (show roundFloat64 (2 ^ 64) = 2 ^ 64 by decide +kernel)
    exact_mod_cast hn.le
  calc roundFloat64 n / elapsed
      ≤ 2 ^ 64 / (1 / 2 ^ 31) := by gcongr
    _ < overflow := by decide +kernel

/-- What a rate adds up to over the true time in which it was measured. -/
theorem perSecond_growth {n : ℕ} (hn : n < 2 ^ 64) {t u : Int} (hlt : t < u)
    (hle : u - t ≤ maxInt64) :
    ∃ r, perSecond n (durationSeconds (timeSub u t)) = .num r ∧
      |r * ((u - t : Int) / 1000000000) - n| ≤ n / 2 ^ 49 := by
  have hbounds := durationSeconds_bounds hlt hle
  have htime := abs_le.1 (durationSeconds_timeSub hlt hle)
  set elapsed := durationSeconds (timeSub u t) with helapsed
  set span : ℚ := ((u - t : Int) : ℚ) / 1000000000 with hspan
  have hpos : 0 < elapsed := hbounds.1.trans' (by norm_num)
  have hfinite : elapsed < 2 ^ (1024 : Int) := hbounds.2.trans (by decide +kernel)
  obtain ⟨r, hr, hnonneg, hamount⟩ :=
    perSecond_error hpos hfinite (inRange_of_lt hn hbounds.1)
  refine ⟨r, hr, ?_⟩
  have hamount := abs_le.1 hamount
  -- the elapsed time and the true one differ by little of what was measured
  have hdrift : |r * (span - elapsed)| ≤ 3 * (n / 2 ^ 51) := by
    have hclose : |span - elapsed| ≤ 2 * elapsed / 2 ^ 51 := by
      rw [abs_le]
      constructor <;> linarith
    calc |r * (span - elapsed)|
        = r * |span - elapsed| := by rw [abs_mul, abs_of_nonneg hnonneg]
      _ ≤ r * (2 * elapsed / 2 ^ 51) := by gcongr
      _ = r * elapsed * 2 / 2 ^ 51 := by ring
      _ ≤ 3 * (n / 2 ^ 51) := by linarith
  have hdrift := abs_le.1 hdrift
  have hsplit : r * span = r * elapsed + r * (span - elapsed) := by ring
  rw [hsplit, abs_le]
  constructor <;> linarith

/-! ## What the rates of a run add up to -/

/-- Counters with the place where they are read, kept and shown. -/
structure Meter (C M : Type) extends Kind C M where
  read : Machine → Counters C
  prev : Sampler → Counters C
  shown : Snapshot → List M
  prev_newSampler : ∀ machine now, prev (newSampler machine now) = read machine
  shown_collect : ∀ c now machine, shown (collect c now machine).1 =
    calcRates metrics (prev c) (read machine) (durationSeconds (timeSub now c.prevTime))

def diskMeter : Meter DiskIOCounter DiskIOMetrics where
  toKind := disk
  read := collectDiskIO
  prev := Sampler.prevDiskIO
  shown := Snapshot.diskIO
  prev_newSampler _ _ := rfl
  shown_collect _ _ _ := rfl

def netMeter : Meter NetCounter NetMetrics where
  toKind := net
  read := collectNet
  prev := Sampler.prevNet
  shown := Snapshot.network
  prev_newSampler _ _ := rfl
  shown_collect _ _ _ := rfl

/-- One of the counters of a name, where a sample has the name. -/
def Kind.count {C M : Type} (k : Kind C M) (name : String) (i : Nat) (sample : Counters C) :
    Option UInt64 :=
  (sample.lookup name).bind fun c => (k.counts c)[i]?

/-- The rate of this counter in a report, 0 where the name is missing. -/
def Kind.rate {C M : Type} (k : Kind C M) (name : String) (i : Nat) (out : List M) : Float64 :=
  ((out.find? fun m => k.name m = name).bind fun m => (k.rates m)[i]?).getD (.num 0)

/-- By how much a counter grew, modulo 2^64, where both samples have it. -/
def grown : Option UInt64 → Option UInt64 → ℕ
  | some p, some c => (c - p).toNat
  | _, _ => 0

/-- What it grew by from each sample to the next. -/
def growth : Option UInt64 → List (Option UInt64) → ℕ
  | _, [] => 0
  | p, c :: cs => grown p c + growth c cs

/-- The rates of the snapshots, each times the seconds since the one before. -/
def Meter.total {C M : Type} (m : Meter C M) (name : String) (i : Nat) : Int → List Snapshot → ℚ
  | _, [] => 0
  | t, snap :: snaps =>
    (m.rate name i (m.shown snap)).value * ((snap.timestamp - t : Int) / 1000000000) +
      m.total name i snap.timestamp snaps

/-- The ticks come one after another, less than 292 years apart. -/
def Ticking (t : Int) (ticks : List Tick) : Prop :=
  (t :: ticks.map Tick.now).IsChain fun t u => t < u ∧ u - t ≤ maxInt64

section Growth

variable {C M : Type}

theorem rate_calcRates (k : Kind C M) {prev curr : Counters C} {elapsed : ℚ} (hpos : 0 < elapsed)
    (name : String) (i : Nat) :
    k.rate name i (calcRates k.metrics prev curr elapsed) =
      perSecond (grown (k.count name i prev) (k.count name i curr)) elapsed := by
  have hzero := perSecond_zero elapsed
  cases hfind : (calcRates k.metrics prev curr elapsed).find? fun m => k.name m = name with
  | none =>
    -- one of the samples does not have the name
    have hgrown : grown (k.count name i prev) (k.count name i curr) = 0 := by
      cases hp : prev.lookup name with
      | none => simp [Kind.count, hp, grown]
      | some p =>
        cases hc : curr.lookup name with
        | none => cases hcount : k.count name i prev <;> simp [Kind.count, hc, grown]
        | some c =>
          have hmem := (mem_calcRates_iff (k := k) hpos).2 ⟨name, p, c, hp, hc, rfl⟩
          have hnot := List.find?_eq_none.1 hfind _ hmem
          simp [k.name_metrics] at hnot
    simp [Kind.rate, hfind, hgrown, hzero]
  | some m =>
    obtain ⟨name', p, c, hp, hc, rfl⟩ :=
      (mem_calcRates_iff hpos).1 (List.mem_of_find?_eq_some hfind)
    obtain rfl : name' = name := by
      simpa [k.name_metrics] using List.find?_some hfind
    simp only [Kind.rate, hfind, Kind.count, hp, hc, Option.bind_some, k.rates_metrics,
      List.getElem?_map, List.zip, List.getElem?_zipWith]
    cases (k.counts p)[i]? with
    | none => simp [grown, hzero]
    | some x => cases (k.counts c)[i]? <;> simp [grown, hzero]

theorem grown_lt (p c : Option UInt64) : grown p c < 2 ^ 64 := by
  cases p with
  | none => exact Nat.two_pow_pos 64
  | some p =>
    cases c with
    | none => exact Nat.two_pow_pos 64
    | some c => exact (c - p).toNat_lt

/-- **One tick.** -/
theorem rate_collect (m : Meter C M) (c : Sampler) {now : Int} (hlt : c.prevTime < now)
    (hle : now - c.prevTime ≤ maxInt64) (machine : Machine) (name : String) (i : Nat) :
    ∃ r, m.rate name i (m.shown (collect c now machine).1) = .num r ∧
      |r * ((now - c.prevTime : Int) / 1000000000) -
        grown (m.count name i (m.prev c)) (m.count name i (m.read machine))| ≤
        grown (m.count name i (m.prev c)) (m.count name i (m.read machine)) / 2 ^ 49 := by
  have hpos : 0 < durationSeconds (timeSub now c.prevTime) :=
    (durationSeconds_bounds hlt hle).1.trans' (by norm_num)
  rw [m.shown_collect, rate_calcRates m.toKind hpos]
  exact perSecond_growth (grown_lt _ _) hlt hle

/-- **Every tick of a run.** -/
theorem total_snapshots (m : Meter C M) (name : String) (i : Nat) (c : Sampler)
    {ticks : List Tick} (h : Ticking c.prevTime ticks) :
    (∀ snap ∈ snapshots c ticks, ∃ r, m.rate name i (m.shown snap) = .num r) ∧
      |m.total name i c.prevTime (snapshots c ticks) -
        growth (m.count name i (m.prev c)) (ticks.map fun t => m.count name i (m.read t.machine))| ≤
        growth (m.count name i (m.prev c)) (ticks.map fun t => m.count name i (m.read t.machine)) /
          2 ^ 49 := by
  induction ticks generalizing c with
  | nil => simp [snapshots, Meter.total, growth]
  | cons tick ticks ih =>
    obtain ⟨⟨hlt, hle⟩, hrest⟩ := List.isChain_cons_cons.1 h
    obtain ⟨r, hr, hone⟩ := rate_collect m c hlt hle tick.machine name i
    obtain ⟨hfinite, hmore⟩ := ih (collect c tick.now tick.machine).2 hrest
    have hprev : m.prev (collect c tick.now tick.machine).2 = m.read tick.machine :=
      m.prev_newSampler _ tick.now
    refine ⟨List.forall_mem_cons.2 ⟨⟨r, hr⟩, hfinite⟩, ?_⟩
    have hone := abs_le.1 hone
    have hmore := abs_le.1 hmore
    rw [hprev] at hmore
    have htime : (collect c tick.now tick.machine).2.prevTime = tick.now := rfl
    have hstamp : (collect c tick.now tick.machine).1.timestamp = tick.now := rfl
    rw [htime] at hmore
    simp only [snapshots, Meter.total, growth, List.map_cons, hstamp, hr, Float64.value]
    rw [Nat.cast_add, add_div, abs_le]
    constructor <;> linarith

/-- A counter that every sample has and that never falls grows by the difference of its ends. -/
theorem growth_of_rising {x : UInt64} {xs : List UInt64} (h : (x :: xs).IsChain (· ≤ ·)) :
    growth (some x) (xs.map some) + x.toNat = (xs.getLastD x).toNat := by
  induction xs generalizing x with
  | nil => simp [growth]
  | cons y ys ih =>
    obtain ⟨hxy, hrest⟩ := List.isChain_cons_cons.1 h
    have hgrown : grown (some x) (some y) = y.toNat - x.toNat := UInt64.toNat_sub_of_le y x hxy
    have hle : x.toNat ≤ y.toNat := UInt64.le_iff_toNat_le.1 hxy
    have hmore := ih hrest
    rw [List.map_cons, growth, List.getLastD_cons, hgrown]
    omega

end Growth

/-- **The rates account for the whole growth.** Over any ticks, the rates shown for a counter are
finite; each times the seconds since the tick before, they add up to what the counter grew by
between samples that both have it, with a relative error of at most 2^-49. When every sample has the
counter and it never falls, that is the difference of its last value and its first. -/
theorem growth_shown {C M : Type} (m : Meter C M) (start : Machine) {now : Int} {ticks : List Tick}
    (h : Ticking now ticks) (name : String) (i : Nat) :
    let snaps := snapshots (newSampler start now) ticks
    let total := m.total name i now snaps
    let samples := ticks.map fun t => m.count name i (m.read t.machine)
    let grew := growth (m.count name i (m.read start)) samples
    (∀ snap ∈ snaps, ∃ r, m.rate name i (m.shown snap) = .num r) ∧
      |total - grew| ≤ grew / 2 ^ 49 ∧
      ∀ x xs, m.count name i (m.read start) = some x → samples = xs.map some →
        (x :: xs).IsChain (· ≤ ·) →
          |total - ((xs.getLastD x).toNat - x.toNat)| ≤
            ((xs.getLastD x).toNat - x.toNat : ℚ) / 2 ^ 49 := by
  intro snaps total samples grew
  obtain ⟨hfinite, hsum⟩ := total_snapshots m name i (newSampler start now) h
  have hall : |total - grew| ≤ grew / 2 ^ 49 := by
    rw [m.prev_newSampler] at hsum
    exact hsum
  refine ⟨hfinite, hall, fun x xs hx hxs hrising => ?_⟩
  have hgrew : (grew : ℚ) = (xs.getLastD x).toNat - x.toNat := by
    have hends : grew + x.toNat = (xs.getLastD x).toNat := by
      show growth (m.count name i (m.read start)) samples + x.toNat = _
      rw [hx, hxs]
      exact growth_of_rising hrising
    rw [← hends, Nat.cast_add, add_sub_cancel_right]
  rw [← hgrew]
  exact hall

/-- Two ticks, the second one later than the interval. -/
def twoTicks : List Tick :=
  [⟨2000000000, { netCounters := some [("eth0", ⟨3000, 0⟩)] }⟩,
    ⟨5000000001, { netCounters := some [("lo", ⟨7, 7⟩), ("eth0", ⟨4500, 0⟩)] }⟩]

theorem growth_shown_twoTicks :
    Ticking 0 twoTicks ∧
      |netMeter.total "eth0" 0 0
          (snapshots (newSampler { netCounters := some [("eth0", ⟨1000, 0⟩)] } 0) twoTicks) -
        ((4500 : UInt64).toNat - (1000 : UInt64).toNat)| ≤
        ((4500 : UInt64).toNat - (1000 : UInt64).toNat : ℚ) / 2 ^ 49 := by
  have hticking : Ticking 0 twoTicks := by
    simp [Ticking, twoTicks, maxInt64]
  exact ⟨hticking, (growth_shown netMeter { netCounters := some [("eth0", ⟨1000, 0⟩)] } hticking
    "eth0" 0).2.2 1000 [3000, 4500] rfl rfl (by decide)⟩

end QuickVps.Metrics
