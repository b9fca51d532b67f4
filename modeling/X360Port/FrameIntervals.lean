import Mathlib.Data.Rat.Floor
import X360Port.Library.Ranks
import X360Port.Library.WordArithmetic

/-!
# Frame intervals

A histogram counts the intervals between frames in buckets of 100
microseconds, the last of which has no upper end. `quantile_since` relates the
quantiles of a difference of two snapshots to the list of intervals recorded
in between: a quantile is the edge of the bucket that holds the interval of
nearest rank in the sorted list. Counters are natural numbers and the product
with the fraction is exact.
-/

namespace X360Port

open Library

def kBucketMicroseconds : UInt32 := 100

/-- The last bucket holds every interval of 100 ms or more. -/
def kBucketCount : Nat := 1001

/-- A quantile as the upper edge of its bucket; an open-ended one is a lower bound. -/
structure FrameIntervalQuantile where
  microseconds : UInt32 := 0
  openEnded : Bool := false
  deriving DecidableEq, Repr

structure FrameIntervalHistogram where
  buckets : Vector Nat kBucketCount
  deriving DecidableEq, Repr

namespace FrameIntervalHistogram

def empty : FrameIntervalHistogram := ⟨Vector.replicate kBucketCount 0⟩

/-- The bucket that an interval is counted in. -/
def bucketOf (microseconds : Nat) : Nat :=
  let bucket := microseconds / kBucketMicroseconds.toNat
  if bucket ≥ kBucketCount then kBucketCount - 1 else bucket

def record (h : FrameIntervalHistogram) (microseconds : Nat) : FrameIntervalHistogram where
  buckets := Vector.ofFn fun bucket =>
    h.buckets[bucket] + if bucketOf microseconds = bucket then 1 else 0

def count (h : FrameIntervalHistogram) : Nat := h.buckets.toList.foldl (· + ·) 0

/-- What `Quantile` returns when the rank is in the bucket. -/
def bucketQuantile (bucket : Nat) : FrameIntervalQuantile :=
  let last := decide (bucket + 1 = kBucketCount)
  let edge := UInt32.ofNat (if last then bucket else bucket + 1)
  ⟨edge * kBucketMicroseconds, last⟩

/-- The loop over the buckets, from one on. -/
def scan (rank : Nat) : List Nat → Nat → Nat → Option FrameIntervalQuantile
  | [], _, _ => none
  | counter :: counters, bucket, seen =>
    let seen := seen + counter
    if seen ≥ rank then some (bucketQuantile bucket) else scan rank counters (bucket + 1) seen

def quantile (h : FrameIntervalHistogram) (fraction : ℚ) : Option FrameIntervalQuantile :=
  let count := h.count
  if count = 0 ∨ ¬ fraction > 0 ∨ fraction > 1 then none
  else
    -- the rank of the quantile interval, counting from one
    let rank := ⌈fraction * count⌉₊
    scan rank h.buckets.toList 0 0

def since (h earlier : FrameIntervalHistogram) : FrameIntervalHistogram where
  buckets := Vector.ofFn fun bucket => h.buckets[bucket] - earlier.buckets[bucket]

/-- The running count after a sequence of intervals. -/
def recorded (intervals : List Nat) : FrameIntervalHistogram := intervals.foldl record empty

/-! ## Counting -/

/-- Each bucket counts its intervals. -/
def Counts (h : FrameIntervalHistogram) (intervals : List Nat) : Prop :=
  ∀ bucket : Fin kBucketCount,
    h.buckets[bucket] = intervals.countP fun interval => bucketOf interval = bucket

theorem bucketOf_lt (interval : Nat) : bucketOf interval < kBucketCount := by
  unfold bucketOf kBucketCount
  dsimp only
  split
  · decide
  · omega

theorem bucketOf_mono : Monotone bucketOf := by
  intro a b hab
  have hdiv : a / kBucketMicroseconds.toNat ≤ b / kBucketMicroseconds.toNat :=
    Nat.div_le_div_right hab
  unfold bucketOf
  dsimp only
  split <;> split <;> omega

theorem counts_empty : empty.Counts [] := by
  intro bucket
  exact Vector.getElem_replicate bucket.isLt

/-- One more interval. -/
theorem Counts.record {h : FrameIntervalHistogram} {intervals : List Nat} (hc : h.Counts intervals)
    (microseconds : Nat) : (h.record microseconds).Counts (intervals ++ [microseconds]) := by
  intro bucket
  unfold FrameIntervalHistogram.record
  dsimp only
  rw [Fin.getElem_fin, Vector.getElem_ofFn, hc, List.countP_append, List.countP_singleton]
  simp only [decide_eq_true_eq]

theorem counts_foldl {h : FrameIntervalHistogram} {before : List Nat} (hc : h.Counts before)
    (intervals : List Nat) : (intervals.foldl record h).Counts (before ++ intervals) := by
  induction intervals generalizing h before with
  | nil => rwa [List.append_nil]
  | cons interval intervals ih =>
    rw [List.foldl_cons, List.append_cons]
    exact ih (hc.record interval)

theorem counts_recorded (intervals : List Nat) : (recorded intervals).Counts intervals :=
  counts_foldl counts_empty intervals

/-- The difference counts the intervals recorded in between. -/
theorem Counts.since {later earlier : FrameIntervalHistogram} {before window : List Nat}
    (hl : later.Counts (before ++ window)) (he : earlier.Counts before) :
    (later.since earlier).Counts window := by
  intro bucket
  unfold FrameIntervalHistogram.since
  dsimp only
  rw [Fin.getElem_fin, Vector.getElem_ofFn, hl, he, List.countP_append, Nat.add_sub_cancel_left]

section

variable {h : FrameIntervalHistogram} {intervals : List Nat}

theorem Counts.countedBy (hc : h.Counts intervals) :
    CountedBy bucketOf intervals h.buckets.toList := by
  intro i hi
  have hi' : i < kBucketCount := by rwa [Vector.length_toList] at hi
  rw [Vector.getElem_toList]
  exact hc ⟨i, hi'⟩

theorem Counts.count_eq (hc : h.Counts intervals) : h.count = intervals.length := by
  unfold count
  rw [← List.sum_eq_foldl]
  apply hc.countedBy.sum
  intro interval
  rw [Vector.length_toList]
  exact bucketOf_lt interval

end

/-! ## Quantiles -/

/-- The scan stops in the first bucket that reaches the rank. -/
theorem scan_eq {rank : Nat} (counters : List Nat) (start seen target : Nat)
    (htarget : target < counters.length) (hbefore : seen + (counters.take target).sum < rank)
    (hat : rank ≤ seen + (counters.take (target + 1)).sum) :
    scan rank counters start seen = some (bucketQuantile (start + target)) := by
  induction counters generalizing start seen target with
  | nil => exact absurd htarget (Nat.not_lt_zero _)
  | cons counter counters ih =>
    rw [List.take_succ_cons, List.sum_cons] at hat
    unfold scan
    dsimp only
    cases target with
    | zero =>
      rw [List.take_zero, List.sum_nil] at hat
      rw [if_pos (by omega), Nat.add_zero]
    | succ target =>
      rw [List.take_succ_cons, List.sum_cons] at hbefore
      rw [List.length_cons] at htarget
      rw [if_neg (by omega), ih (start + 1) (seen + counter) target (by omega) (by omega)
        (by omega), Nat.add_right_comm, Nat.add_assoc]

/-- The interval of nearest rank: the `⌈fraction * n⌉`-th smallest of `n`. -/
def nearestRank (fraction : ℚ) (intervals : List Nat) : Option Nat :=
  smallest intervals ⌈fraction * intervals.length⌉₊

/-- The upper edge of the interval's 100 microseconds, or the lower one of the open end. -/
def upperEdge (interval : Nat) : FrameIntervalQuantile :=
  if interval < 100000 then ⟨UInt32.ofNat ((interval / 100 + 1) * 100), false⟩
  else ⟨100000, true⟩

/-- An interval below the open end is in the bucket of its 100 microseconds. -/
theorem bucketOf_of_lt {interval : Nat} (h : interval < 100000) :
    bucketOf interval = interval / 100 := by
  have hwidth : kBucketMicroseconds.toNat = 100 := rfl
  unfold bucketOf kBucketCount
  rw [hwidth]
  exact if_neg (by omega)

theorem bucketOf_of_ge {interval : Nat} (h : 100000 ≤ interval) : bucketOf interval = 1000 := by
  have hwidth : kBucketMicroseconds.toNat = 100 := rfl
  unfold bucketOf kBucketCount
  rw [hwidth]
  dsimp only
  split <;> omega

theorem bucketQuantile_bucketOf (interval : Nat) :
    bucketQuantile (bucketOf interval) = upperEdge interval := by
  unfold upperEdge
  by_cases hshort : interval < 100000
  · have hlast : ¬ interval / 100 + 1 = kBucketCount := by
      unfold kBucketCount
      omega
    rw [if_pos hshort, bucketOf_of_lt hshort, bucketQuantile, decide_eq_false hlast,
      if_neg Bool.false_ne_true, UInt32.ofNat_mul]
    rfl
  · rw [if_neg hshort, bucketOf_of_ge (by omega)]
    decide

/-- The edge of an interval below the open end is above it. -/
theorem toNat_upperEdge {interval : Nat} (h : interval < 100000) :
    (upperEdge interval).microseconds.toNat = (interval / 100 + 1) * 100 := by
  rw [upperEdge, if_pos h]
  exact Word.toNat_ofNat (by omega)

theorem upperEdge_openEnded (interval : Nat) :
    (upperEdge interval).openEnded = true ↔ 100000 ≤ interval := by
  unfold upperEdge
  split
  · exact iff_of_false Bool.false_ne_true (by omega)
  · exact iff_of_true rfl (by omega)

theorem upperEdge_of_ge {interval : Nat} (h : 100000 ≤ interval) :
    upperEdge interval = ⟨100000, true⟩ := if_neg (by omega)

theorem upperEdge_mono {a b : Nat} (hab : a ≤ b) :
    (upperEdge a).microseconds ≤ (upperEdge b).microseconds ∧
      ((upperEdge a).openEnded → (upperEdge b).openEnded) := by
  rw [upperEdge_openEnded, upperEdge_openEnded, UInt32.le_iff_toNat_le]
  refine ⟨?_, fun ha => ha.trans hab⟩
  have hopen : (100000 : UInt32).toNat = 100000 := rfl
  rcases Nat.lt_or_ge b 100000 with hb | hb
  · rw [toNat_upperEdge hb, toNat_upperEdge (by omega)]
    omega
  · rcases Nat.lt_or_ge a 100000 with ha | ha
    · rw [toNat_upperEdge ha, upperEdge_of_ge hb, hopen]
      omega
    · rw [upperEdge_of_ge ha, upperEdge_of_ge hb]

section

variable {h : FrameIntervalHistogram} {intervals : List Nat} {fraction : ℚ}

/-- The rank of a fraction in `(0, 1]` is one of the intervals'. -/
theorem rank_bounds (hpos : 0 < fraction) (hle : fraction ≤ 1) (hne : intervals ≠ []) :
    0 < ⌈fraction * intervals.length⌉₊ ∧ ⌈fraction * intervals.length⌉₊ ≤ intervals.length := by
  have hlength : (0 : ℚ) < intervals.length := by
    exact_mod_cast List.length_pos_of_ne_nil hne
  constructor
  · exact Nat.ceil_pos.2 (mul_pos hpos hlength)
  · exact Nat.ceil_le.2 (mul_le_of_le_one_left hlength.le hle)

theorem nearestRank_nil (fraction : ℚ) : nearestRank fraction [] = none := by
  unfold nearestRank
  rw [List.length_nil, Nat.cast_zero, mul_zero, Nat.ceil_zero]
  rfl

theorem exists_nearestRank (hpos : 0 < fraction) (hle : fraction ≤ 1) (hne : intervals ≠ []) :
    ∃ interval, nearestRank fraction intervals = some interval := by
  obtain ⟨hrank, hrankle⟩ := rank_bounds hpos hle hne
  exact exists_smallest hrank hrankle

/-- The quantile of what a histogram counts. -/
theorem Counts.quantile_eq (hc : h.Counts intervals) (hpos : 0 < fraction) (hle : fraction ≤ 1) :
    h.quantile fraction = (nearestRank fraction intervals).map upperEdge := by
  unfold quantile
  rw [hc.count_eq]
  dsimp only
  by_cases hempty : intervals = []
  · subst hempty
    rw [if_pos (.inl rfl), nearestRank_nil, Option.map_none]
  obtain ⟨interval, hinterval⟩ := exists_nearestRank hpos hle hempty
  have hlength : intervals.length ≠ 0 := fun hz => hempty (List.length_eq_zero_iff.1 hz)
  have hguard : ¬ (intervals.length = 0 ∨ ¬ fraction > 0 ∨ fraction > 1) := by
    rintro (hz | hz | hz)
    · exact hlength hz
    · exact hz hpos
    · exact absurd hz (not_lt_of_ge hle)
  have hbucket : bucketOf interval < h.buckets.toList.length := by
    rw [Vector.length_toList]
    exact bucketOf_lt interval
  obtain ⟨hbefore, hat⟩ := hc.countedBy.class_of_smallest bucketOf_mono hinterval hbucket
  rw [if_neg hguard, hinterval, Option.map_some, ← bucketQuantile_bucketOf]
  rw [scan_eq _ 0 0 _ hbucket (by omega) (by omega), Nat.zero_add]

end

/-- The quantiles of a histogram are those of a list of intervals. -/
structure RanksIntervals (h : FrameIntervalHistogram) (intervals : List Nat) : Prop where
  ranked : ∀ fraction : ℚ, 0 < fraction → fraction ≤ 1 → intervals ≠ [] → ∃ interval,
    nearestRank fraction intervals = some interval ∧
      h.quantile fraction = some (upperEdge interval)
  none_iff : ∀ fraction : ℚ, 0 < fraction → fraction ≤ 1 →
    (h.quantile fraction = none ↔ intervals = [])
  monotone : ∀ fraction fraction' : ℚ, 0 < fraction → fraction ≤ fraction' → fraction' ≤ 1 →
    ∀ a b, h.quantile fraction = some a → h.quantile fraction' = some b →
      a.microseconds ≤ b.microseconds ∧ (a.openEnded → b.openEnded)
  /-- The intervals up to the rank are below a quantile that is not open-ended. -/
  above : ∀ fraction : ℚ, 0 < fraction → fraction ≤ 1 → ∀ a, h.quantile fraction = some a →
    ¬ a.openEnded → ∀ x ∈ (sorted intervals).take ⌈fraction * intervals.length⌉₊,
      x < a.microseconds.toNat

theorem Counts.ranksIntervals {h : FrameIntervalHistogram} {intervals : List Nat}
    (hc : h.Counts intervals) : RanksIntervals h intervals where
  ranked fraction hpos hle hne := by
    obtain ⟨interval, hinterval⟩ := exists_nearestRank hpos hle hne
    refine ⟨interval, hinterval, ?_⟩
    rw [hc.quantile_eq hpos hle, hinterval, Option.map_some]
  none_iff fraction hpos hle := by
    rw [hc.quantile_eq hpos hle, Option.map_eq_none_iff]
    constructor
    · intro hnone
      by_contra hne
      obtain ⟨interval, hinterval⟩ := exists_nearestRank hpos hle hne
      rw [hinterval] at hnone
      exact Option.some_ne_none _ hnone
    · rintro rfl
      exact nearestRank_nil fraction
  monotone fraction fraction' hpos hff hle a b ha hb := by
    rw [hc.quantile_eq hpos (hff.trans hle), Option.map_eq_some_iff] at ha
    rw [hc.quantile_eq (hpos.trans_le hff) hle, Option.map_eq_some_iff] at hb
    obtain ⟨x, hx, rfl⟩ := ha
    obtain ⟨y, hy, rfl⟩ := hb
    refine upperEdge_mono (smallest_mono (Nat.ceil_mono ?_) hx hy)
    exact mul_le_mul_of_nonneg_right hff (Nat.cast_nonneg _)
  above fraction hpos hle a ha hclosed x hx := by
    rw [hc.quantile_eq hpos hle, Option.map_eq_some_iff] at ha
    obtain ⟨interval, hinterval, rfl⟩ := ha
    rw [upperEdge_openEnded] at hclosed
    have hxle := le_of_mem_take_sorted hinterval hx
    rw [toNat_upperEdge (by omega)]
    omega

/-- Between two moments of a sequence of intervals, the difference of the snapshots has the
quantiles of the intervals recorded in between. -/
theorem quantile_since (intervals : List Nat) {i j : Nat} (hij : i ≤ j) :
    RanksIntervals ((recorded (intervals.take j)).since (recorded (intervals.take i)))
      ((intervals.take j).drop i) := by
  have hsplit : intervals.take j = intervals.take i ++ (intervals.take j).drop i := by
    have htake : (intervals.take j).take i = intervals.take i := by
      rw [List.take_take, Nat.min_eq_left hij]
    rw [← htake, List.take_append_drop]
  have hlater : (recorded (intervals.take j)).Counts
      (intervals.take i ++ (intervals.take j).drop i) := by
    rw [← hsplit]
    exact counts_recorded _
  exact (hlater.since (counts_recorded _)).ranksIntervals

/-- The window after the first of three intervals. -/
theorem quantile_since_window :
    RanksIntervals ((recorded [8300, 8300, 33300]).since (recorded [8300])) [8300, 33300] := by
  have hwindow := quantile_since [8300, 8300, 33300] (by decide : 1 ≤ 3)
  simp only [List.take_succ_cons, List.take_zero, List.drop_succ_cons, List.drop_zero] at hwindow
  exact hwindow

end FrameIntervalHistogram

end X360Port
