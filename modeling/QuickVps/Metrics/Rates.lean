import Mathlib.Data.List.AList
import QuickVps.Go.Rounding

/-!
# Rates of disks and interfaces

Each tick compares the counters of two samples. Counters are `uint64`s and so are their differences;
a rate is the difference as a `float64`, divided by the elapsed time.

* `perSecond` — the quotient; `perSecond_error`: times the elapsed time it is the amount, with a
  relative error of at most 2^-51, unless it is out of range and infinite;
* `calcRates`, `calcDiskIO`, `calcNet` — the two functions, and what they share;
* `RateTrue`, `Reported` — a rate that comes from a true increase, and a report of such;
* `Risen`, `WrapHidden` — what two samples of a counter can be like for that.

**Main result.** `reported_of_risen`: every device of both samples has exactly one entry, and the
rates are true if no counter went backwards and no rate is out of range; if one did, or is, they are
not, but for wraps that the rounding hides. `reset_wraps`: a counter that starts again shows as 2^63
bytes a second.
-/

namespace QuickVps.Metrics

open Go

/-! ## Quotients -/

/-- `float64(n) / elapsed`, both the conversion and the division rounded. -/
def perSecond (n : ℕ) (elapsed : ℚ) : Float64 := nearestFloat64 (roundFloat64 n / elapsed)

/-- The quotient is not rounded to infinity. -/
def InRange (n : ℕ) (elapsed : ℚ) : Prop := roundFloat64 n / elapsed < overflow

theorem perSecond_zero (elapsed : ℚ) : perSecond 0 elapsed = .num 0 := by
  rw [perSecond, Nat.cast_zero, roundFloat64_zero, zero_div]
  decide +kernel

theorem perSecond_eq_posInf {n : ℕ} {elapsed : ℚ} (h : ¬ InRange n elapsed) :
    perSecond n elapsed = .posInf :=
  nearestFloat64_of_le (not_lt.1 h)

/-- What is left of an amount below the normal range is exact: there the time is so long that the
amount is below 4. -/
theorem roundFloat64_of_small {n : ℕ} {elapsed : ℚ} (hpos : 0 < elapsed)
    (hfinite : elapsed < 2 ^ (1024 : Int)) (h : roundFloat64 n / elapsed < 2 ^ (-1022 : Int)) :
    roundFloat64 n = n := by
  refine roundFloat64_natCast (lt_of_not_ge fun hle => ?_)
  have hfour : roundFloat64 n < 4 := by
    calc roundFloat64 n < 2 ^ (-1022 : Int) * elapsed := (div_lt_iff₀ hpos).1 h
      _ ≤ 2 ^ (-1022 : Int) * 2 ^ (1024 : Int) := by gcongr
      _ = 4 := by decide +kernel
  have hmono : roundFloat64 (4 : ℕ) ≤ roundFloat64 n :=
    roundFloat64_mono (Nat.cast_nonneg _) (by exact_mod_cast hle.trans' (by norm_num))
  rw [roundFloat64_natCast (by norm_num)] at hmono
  exact absurd hfour (not_lt.2 hmono)

/-- **Up to the two roundings, the rate times the elapsed time is the amount.** -/
theorem perSecond_error {n : ℕ} {elapsed : ℚ} (hpos : 0 < elapsed)
    (hfinite : elapsed < 2 ^ (1024 : Int)) (h : InRange n elapsed) :
    ∃ r, perSecond n elapsed = .num r ∧ 0 ≤ r ∧ |r * elapsed - n| ≤ n / 2 ^ 51 := by
  rcases n.eq_zero_or_pos with rfl | hn
  · exact ⟨0, perSecond_zero elapsed, le_rfl, by simp⟩
  have hfloat : 0 ≤ roundFloat64 n := roundFloat64_nonneg (Nat.cast_nonneg n)
  obtain ⟨r, hr, hnonneg, hdivide⟩ := nearestFloat64_of_lt (div_nonneg hfloat hpos.le) h
  refine ⟨r, hr, hnonneg, ?_⟩
  have hfactor : |r * elapsed - roundFloat64 n| = |r - roundFloat64 n / elapsed| * elapsed := by
    rw [← abs_of_pos hpos, ← abs_mul, abs_of_pos hpos, sub_mul, div_mul_cancel₀ _ hpos.ne']
  by_cases hsmall : roundFloat64 n / elapsed < 2 ^ (-1022 : Int)
  · -- only the division is rounded
    rw [if_pos hsmall] at hdivide
    rw [roundFloat64_of_small hpos hfinite hsmall] at hfactor hdivide
    have hone : (1 : ℚ) ≤ n := by exact_mod_cast hn
    calc |r * elapsed - n|
        = |r - n / elapsed| * elapsed := hfactor
      _ ≤ 2 ^ (-1075 : Int) * 2 ^ (1024 : Int) := by gcongr
      _ = 1 / 2 ^ 51 := by decide +kernel
      _ ≤ n / 2 ^ 51 := by gcongr
  · rw [if_neg hsmall] at hdivide
    have hconvert := abs_le.1 (roundFloat64_error (Nat.cast_nonneg n))
    have hproduct : |r * elapsed - roundFloat64 n| ≤ roundFloat64 n / 2 ^ 53 := by
      calc |r * elapsed - roundFloat64 n|
          = |r - roundFloat64 n / elapsed| * elapsed := hfactor
        _ ≤ roundFloat64 n / elapsed / 2 ^ 53 * elapsed := by gcongr
        _ = roundFloat64 n / 2 ^ 53 := by
          rw [div_right_comm, div_mul_cancel₀ _ hpos.ne']
    have hproduct := abs_le.1 hproduct
    rw [abs_le]
    constructor <;> linarith

/-! ## The two functions -/

/-- A map, in the order of one iteration. -/
abbrev Counters (C : Type) := AList fun _ : String => C

/-- One entry for each device of both samples. -/
def calcRates {C M : Type} (metrics : String → C → C → ℚ → M) (prev curr : Counters C)
    (elapsed : ℚ) : List M :=
  if elapsed ≤ 0 then []
  else curr.entries.filterMap fun e => (prev.lookup e.1).map fun p => metrics e.1 p e.2 elapsed

structure DiskIOCounter where
  readBytes : UInt64
  writeBytes : UInt64
  readCount : UInt64
  writeCount : UInt64

structure DiskIOMetrics where
  device : String
  readBps : Float64
  writeBps : Float64
  readOps : Float64
  writeOps : Float64

def diskIOMetrics (name : String) (p c : DiskIOCounter) (elapsed : ℚ) : DiskIOMetrics where
  device := name
  readBps := perSecond (c.readBytes - p.readBytes).toNat elapsed
  writeBps := perSecond (c.writeBytes - p.writeBytes).toNat elapsed
  readOps := perSecond (c.readCount - p.readCount).toNat elapsed
  writeOps := perSecond (c.writeCount - p.writeCount).toNat elapsed

def calcDiskIO (prev curr : Counters DiskIOCounter) (elapsed : ℚ) : List DiskIOMetrics :=
  calcRates diskIOMetrics prev curr elapsed

structure NetCounter where
  bytesRecv : UInt64
  bytesSent : UInt64

structure NetMetrics where
  interface : String
  recvBps : Float64
  sentBps : Float64
  totalRecv : UInt64
  totalSent : UInt64

def netMetrics (name : String) (p c : NetCounter) (elapsed : ℚ) : NetMetrics where
  interface := name
  recvBps := perSecond (c.bytesRecv - p.bytesRecv).toNat elapsed
  sentBps := perSecond (c.bytesSent - p.bytesSent).toNat elapsed
  totalRecv := c.bytesRecv
  totalSent := c.bytesSent

def calcNet (prev curr : Counters NetCounter) (elapsed : ℚ) : List NetMetrics :=
  calcRates netMetrics prev curr elapsed

/-! ## What a report says -/

/-- Of one counter: the rate times the elapsed time is its increase, or, where it went backwards, no
more than its present value, both up to the rounding. -/
structure RateTrue (p c : UInt64) (elapsed : ℚ) (rate : Float64) : Prop where
  increased : p ≤ c → ∃ r, rate = .num r ∧
    |r * elapsed - (c.toNat - p.toNat)| ≤ (c.toNat - p.toNat) / 2 ^ 51
  decreased : c < p → ∃ r, rate = .num r ∧ r * elapsed ≤ c.toNat + c.toNat / 2 ^ 51

/-- The counter did not go backwards, and its increase over the elapsed time is in the range. -/
structure Risen (elapsed : ℚ) (p c : UInt64) : Prop where
  le : p ≤ c
  inRange : InRange (c.toNat - p.toNat) elapsed

/-- The counter went backwards, from so close to 2^64 that its wrapped difference exceeds its
present value by no more than the rounding. -/
structure WrapHidden (p c : UInt64) : Prop where
  lt : c < p
  close : (2 ^ 64 - p.toNat) * 2 ^ 49 ≤ c.toNat

theorem rateTrue_of_risen {p c : UInt64} {elapsed : ℚ} (hpos : 0 < elapsed)
    (hfinite : elapsed < 2 ^ (1024 : Int)) (h : Risen elapsed p c) :
    RateTrue p c elapsed (perSecond (c - p).toNat elapsed) := by
  have hle : p.toNat ≤ c.toNat := UInt64.le_iff_toNat_le.1 h.le
  obtain ⟨r, hr, -, herror⟩ := perSecond_error hpos hfinite h.inRange
  rw [UInt64.toNat_sub_of_le c p h.le, hr]
  rw [Nat.cast_sub hle] at herror
  exact ⟨fun _ => ⟨r, rfl, herror⟩, fun hlt => absurd h.le (UInt64.not_le.2 hlt)⟩

/-- A difference that wraps is the present value and what was missing to 2^64. -/
theorem toNat_sub_of_lt {p c : UInt64} (h : c < p) :
    (c - p).toNat = c.toNat + (2 ^ 64 - p.toNat) := by
  have hlt : c.toNat < p.toNat := UInt64.lt_iff_toNat_lt.1 h
  have hp := p.toNat_lt
  have hsub := UInt64.toNat_sub c p
  omega

theorem risen_of_rateTrue {p c : UInt64} {elapsed : ℚ} (hpos : 0 < elapsed)
    (hfinite : elapsed < 2 ^ (1024 : Int))
    (h : RateTrue p c elapsed (perSecond (c - p).toNat elapsed)) :
    Risen elapsed p c ∨ WrapHidden p c := by
  by_cases hlt : c < p
  · obtain ⟨r, hr, hle⟩ := h.decreased hlt
    have hrange : InRange (c - p).toNat elapsed := by
      by_contra hout
      rw [perSecond_eq_posInf hout] at hr
      cases hr
    obtain ⟨r', hr', -, herror⟩ := perSecond_error hpos hfinite hrange
    rw [hr] at hr'
    cases hr'
    refine .inr ⟨hlt, ?_⟩
    rw [toNat_sub_of_lt hlt] at herror
    generalize 2 ^ 64 - p.toNat = missing at herror ⊢
    have hlow := (abs_le.1 herror).1
    push_cast at hlow
    have hclose : (missing : ℚ) * 2 ^ 49 ≤ c.toNat := by linarith
    exact_mod_cast hclose
  · have hle : p ≤ c := UInt64.not_lt.1 hlt
    refine .inl ⟨hle, ?_⟩
    by_contra hout
    obtain ⟨r, hr, -⟩ := h.increased hle
    rw [UInt64.toNat_sub_of_le c p hle, perSecond_eq_posInf hout] at hr
    cases hr

/-- The counters of a device, and its entry in a report. -/
structure Kind (C M : Type) where
  counts : C → List UInt64
  metrics : String → C → C → ℚ → M
  name : M → String
  rates : M → List Float64
  name_metrics : ∀ n p c elapsed, name (metrics n p c elapsed) = n
  rates_metrics : ∀ n p c elapsed, rates (metrics n p c elapsed) =
    ((counts p).zip (counts c)).map fun x => perSecond (x.2 - x.1).toNat elapsed

variable {C M : Type} {k : Kind C M} {prev curr : Counters C} {elapsed : ℚ}

/-- Every device of both samples is reported once, and no other, with true rates. -/
structure Reported (k : Kind C M) (prev curr : Counters C) (elapsed : ℚ) (out : List M) : Prop where
  once : ∀ name, (out.map k.name).count name = if name ∈ prev ∧ name ∈ curr then 1 else 0
  rates : ∀ m ∈ out, ∀ p c, prev.lookup (k.name m) = some p → curr.lookup (k.name m) = some c →
    List.Forall₂ (fun x => RateTrue x.1 x.2 elapsed) ((k.counts p).zip (k.counts c)) (k.rates m)

theorem mem_calcRates_iff (hpos : 0 < elapsed) {m : M} :
    m ∈ calcRates k.metrics prev curr elapsed ↔
      ∃ name p c, prev.lookup name = some p ∧ curr.lookup name = some c ∧
        m = k.metrics name p c elapsed := by
  unfold calcRates
  rw [if_neg (not_le.2 hpos)]
  simp only [List.mem_filterMap, Option.map_eq_some_iff]
  constructor
  · rintro ⟨⟨name, c⟩, hmem, p, hp, rfl⟩
    exact ⟨name, p, c, hp, AList.mem_lookup_iff.2 hmem, rfl⟩
  · rintro ⟨name, p, c, hp, hc, rfl⟩
    exact ⟨⟨name, c⟩, AList.mem_lookup_iff.1 hc, p, hp, rfl⟩

/-- The names of the entries are the names of the present sample that the one before has, too. -/
theorem names_calcRates (hpos : 0 < elapsed) :
    (calcRates k.metrics prev curr elapsed).map k.name =
      curr.keys.filter fun name => (prev.lookup name).isSome := by
  unfold calcRates AList.keys List.keys
  rw [if_neg (not_le.2 hpos), List.filter_map, List.map_filterMap]
  induction curr.entries with
  | nil => rfl
  | cons e es ih =>
    rw [List.filterMap_cons, ih]
    cases hlookup : prev.lookup e.1 with
    | none => simp [hlookup]
    | some p => simp [hlookup, k.name_metrics]

theorem count_calcRates (hpos : 0 < elapsed) (name : String) :
    ((calcRates k.metrics prev curr elapsed).map k.name).count name =
      if name ∈ prev ∧ name ∈ curr then 1 else 0 := by
  rw [names_calcRates hpos, (curr.keys_nodup.filter _).count]
  refine if_congr ?_ rfl rfl
  rw [List.mem_filter, AList.lookup_isSome, ← AList.mem_keys, and_comm]

/-- The two values of every counter that a device of both samples has. -/
def Each (k : Kind C M) (prev curr : Counters C) (P : UInt64 → UInt64 → Prop) : Prop :=
  ∀ name p c, prev.lookup name = some p → curr.lookup name = some c →
    ∀ x ∈ (k.counts p).zip (k.counts c), P x.1 x.2

theorem rates_metrics_iff (name : String) (p c : C) :
    List.Forall₂ (fun x => RateTrue x.1 x.2 elapsed) ((k.counts p).zip (k.counts c))
        (k.rates (k.metrics name p c elapsed)) ↔
      ∀ x ∈ (k.counts p).zip (k.counts c),
        RateTrue x.1 x.2 elapsed (perSecond (x.2 - x.1).toNat elapsed) := by
  rw [k.rates_metrics, List.forall₂_map_right_iff, List.forall₂_same]

/-- **Both functions.** A report is true if no counter went backwards and every rate is in the
range. -/
theorem reported_calcRates (hpos : 0 < elapsed) (hfinite : elapsed < 2 ^ (1024 : Int))
    (h : Each k prev curr (Risen elapsed)) :
    Reported k prev curr elapsed (calcRates k.metrics prev curr elapsed) := by
  refine ⟨count_calcRates hpos, fun m hm p c hp hc => ?_⟩
  obtain ⟨name, p', c', hp', hc', rfl⟩ := (mem_calcRates_iff hpos).1 hm
  rw [k.name_metrics, hp'] at hp
  rw [k.name_metrics, hc'] at hc
  cases hp
  cases hc
  exact (rates_metrics_iff name p c).2 fun x hx =>
    rateTrue_of_risen hpos hfinite (h name p c hp' hc' x hx)

/-- **And only then**, but for what the rounding hides. -/
theorem each_of_reported (hpos : 0 < elapsed) (hfinite : elapsed < 2 ^ (1024 : Int))
    (h : Reported k prev curr elapsed (calcRates k.metrics prev curr elapsed)) :
    Each k prev curr fun p c => Risen elapsed p c ∨ WrapHidden p c := by
  intro name p c hp hc x hx
  have hm : k.metrics name p c elapsed ∈ calcRates k.metrics prev curr elapsed :=
    (mem_calcRates_iff hpos).2 ⟨name, p, c, hp, hc, rfl⟩
  have htrue := h.rates _ hm p c (by rw [k.name_metrics, hp]) (by rw [k.name_metrics, hc])
  exact risen_of_rateTrue hpos hfinite ((rates_metrics_iff name p c).1 htrue x hx)

/-! ### Disks and interfaces -/

def disk : Kind DiskIOCounter DiskIOMetrics where
  counts c := [c.readBytes, c.writeBytes, c.readCount, c.writeCount]
  metrics := diskIOMetrics
  name := DiskIOMetrics.device
  rates m := [m.readBps, m.writeBps, m.readOps, m.writeOps]
  name_metrics _ _ _ _ := rfl
  rates_metrics _ _ _ _ := rfl

def net : Kind NetCounter NetMetrics where
  counts c := [c.bytesRecv, c.bytesSent]
  metrics := netMetrics
  name := NetMetrics.interface
  rates m := [m.recvBps, m.sentBps]
  name_metrics _ _ _ _ := rfl
  rates_metrics _ _ _ _ := rfl

/-- **Main result.** For all samples and every positive elapsed time: the disks, and the interfaces,
of both samples are reported once with true rates if none of their counters went backwards and no
rate is out of range. Otherwise they are not, unless the rounding hides every wrap. -/
theorem reported_of_risen {elapsed : ℚ} (hpos : 0 < elapsed)
    (hfinite : elapsed < 2 ^ (1024 : Int)) (prevDisk currDisk : Counters DiskIOCounter)
    (prevNet currNet : Counters NetCounter) :
    let diskIO := calcDiskIO prevDisk currDisk elapsed
    let network := calcNet prevNet currNet elapsed
    (Each disk prevDisk currDisk (Risen elapsed) → Reported disk prevDisk currDisk elapsed diskIO) ∧
      (Reported disk prevDisk currDisk elapsed diskIO →
        Each disk prevDisk currDisk fun p c => Risen elapsed p c ∨ WrapHidden p c) ∧
      (Each net prevNet currNet (Risen elapsed) → Reported net prevNet currNet elapsed network) ∧
      (Reported net prevNet currNet elapsed network →
        Each net prevNet currNet fun p c => Risen elapsed p c ∨ WrapHidden p c) :=
  ⟨reported_calcRates hpos hfinite, each_of_reported hpos hfinite, reported_calcRates hpos hfinite,
    each_of_reported hpos hfinite⟩

/-- One interface that received so many bytes. -/
def received (bytes : UInt64) : Counters NetCounter := AList.singleton "eth0" ⟨bytes, 0⟩

theorem each_received {P : UInt64 → UInt64 → Prop} {p c : UInt64} (h : P p c) (hzero : P 0 0) :
    Each net (received p) (received c) P := by
  intro name p' c' hp hc
  by_cases hname : name = "eth0"
  · subst hname
    cases hp
    cases hc
    simp [net, h, hzero]
  · have hmem : name ∈ (received p).keys :=
      AList.mem_keys.1 (AList.lookup_isSome.1 (by rw [hp]; rfl))
    exact absurd (List.mem_singleton.1 hmem) hname

theorem reported_of_risen_received :
    (0 : ℚ) < 2 ∧ (2 : ℚ) < 2 ^ (1024 : Int) ∧
      Reported net (received 1000) (received 3000) 2
        (calcNet (received 1000) (received 3000) 2) := by
  have hpos : (0 : ℚ) < 2 := by norm_num
  have hfinite : (2 : ℚ) < 2 ^ (1024 : Int) := by decide +kernel
  have hrisen : Each net (received 1000) (received 3000) (Risen 2) :=
    each_received ⟨by decide, by unfold InRange; decide +kernel⟩
      ⟨by decide, by unfold InRange; decide +kernel⟩
  exact ⟨hpos, hfinite,
    (reported_of_risen hpos hfinite ∅ ∅ (received 1000) (received 3000)).2.2.1 hrisen⟩

/-- **A counter that starts again** shows as 2^63 bytes a second. -/
theorem reset_wraps :
    (calcNet (received 1) (received 0) 2).map NetMetrics.recvBps = [.num 9223372036854775808] ∧
      ¬ Reported net (received 1) (received 0) 2 (calcNet (received 1) (received 0) 2) := by
  refine ⟨by decide +kernel, fun h => ?_⟩
  have heach := each_of_reported (by norm_num) (by decide +kernel) h "eth0" ⟨1, 0⟩ ⟨0, 0⟩ rfl rfl
    (1, 0) List.mem_cons_self
  obtain hrisen | hhidden := heach
  · exact absurd hrisen.le (by decide)
  · exact absurd hhidden.close (by decide)

end QuickVps.Metrics
