-- SUMMARY: Anomalous points and statistics of a metric in exact arithmetic: which series can have such points, and what bounds the statistics.
import NeuroPipeline.Central.TimeSeriesEngine
import NeuroPipeline.Lib.Dispersion
import Mathlib.Data.List.GetD

/-!
# Anomalous points

Model of `detect_anomaly_points` and `compute_statistics` of timeseries_engine.py on the rows
that are read, with the numbers of an ordered field for the floats and any function for `sqrt`.
-/

namespace TimeSeriesEngine

open Dispersion

structure ExactAnomaly (K : Type) where
  timestamp : ℚ
  value : K
  expected : K
  deviation : K
  deriving DecidableEq

structure ExactStatistics (K : Type) where
  count : Nat
  mean : K
  std : K
  min : K
  max : K
  median : K
  deriving DecidableEq

section

variable {K : Type} [Field K] [LinearOrder K] (sqrt : K → K)

def exactMean (values : List K) : K := values.sum / values.length

def exactVariance (values : List K) : K :=
  (values.map fun v => (v - exactMean values) ^ 2).sum / values.length

/-- `detect_anomaly_points` behind its first check. -/
def pointsBeyond (rows : List (ℚ × K)) (zThreshold : K) : List (ExactAnomaly K) :=
  let values := rows.map Prod.snd
  let mean := exactMean values
  let std := sqrt (exactVariance values)
  if std = 0 then []
  else rows.filterMap fun row =>
    let z := |row.2 - mean| / std
    if zThreshold ≤ z then some ⟨row.1, row.2, mean, z⟩ else none

def exactAnomalyPoints (rows : List (ℚ × K)) (zThreshold : K) : List (ExactAnomaly K) :=
  if rows.length < 10 then [] else pointsBeyond sqrt rows zThreshold

/-- Of the values in their order. -/
def exactMedian (sorted : List K) : K :=
  let n := sorted.length
  if n % 2 = 1 then sorted.getD (n / 2) 0
  else (sorted.getD (n / 2 - 1) 0 + sorted.getD (n / 2) 0) / (2 : Nat)

def exactStatistics (values : List K) : Option (ExactStatistics K) :=
  match values with
  | [] => none
  | first :: rest =>
    let values := first :: rest
    some
      { count := values.length
        mean := exactMean values
        std := sqrt (exactVariance values)
        min := rest.foldl min first
        max := rest.foldl max first
        median := exactMedian (values.mergeSort fun a b => decide (a ≤ b)) }

end

/-! ## Sums over the values -/

variable {K : Type} [Field K]

theorem sum_map_get {α : Type} (values : List α) (f : α → K) :
    (values.map f).sum = ∑ i, f (values.get i) := by
  conv_lhs => rw [← List.ofFn_get values]
  rw [List.map_ofFn, List.sum_ofFn]
  rfl

theorem exactMean_eq (values : List K) : exactMean values = LeastSquares.mean values.get := by
  have hsum := sum_map_get values id
  rw [List.map_id] at hsum
  rw [exactMean, hsum, LeastSquares.mean, Fintype.card_fin]
  rfl

theorem exactVariance_eq (values : List K) :
    exactVariance values = spread values.get / values.length := by
  rw [exactVariance, sum_map_get, exactMean_eq]
  rfl

theorem exactMean_perm {values values' : List K} (h : values.Perm values') :
    exactMean values = exactMean values' := by
  rw [exactMean, exactMean, h.sum_eq, h.length_eq]

theorem exactVariance_perm {values values' : List K} (h : values.Perm values') :
    exactVariance values = exactVariance values' := by
  rw [exactVariance, exactVariance, exactMean_perm h, (h.map _).sum_eq, h.length_eq]

/-! ## Deviations -/

variable [LinearOrder K] {sqrt : K → K} {values : List K} {rows : List (ℚ × K)} {t : K}

/-- What is asked of `math.sqrt`. -/
def RootOf (sqrt : K → K) (v : K) : Prop := 0 ≤ sqrt v ∧ sqrt v ^ 2 = v

theorem mem_pointsBeyond {p : ExactAnomaly K} (h : p ∈ pointsBeyond sqrt rows t) :
    sqrt (exactVariance (rows.map Prod.snd)) ≠ 0 ∧ t ≤ p.deviation ∧
      ∃ i : Fin (rows.map Prod.snd).length, p.value = (rows.map Prod.snd).get i ∧
        p.deviation = |(rows.map Prod.snd).get i - exactMean (rows.map Prod.snd)| /
          sqrt (exactVariance (rows.map Prod.snd)) := by
  rw [pointsBeyond] at h
  dsimp only at h
  split at h
  · cases h
  · next hstd =>
      obtain ⟨row, hrow, hpoint⟩ := List.mem_filterMap.mp h
      obtain ⟨hz, hp⟩ := Option.ite_none_right_eq_some.mp hpoint
      obtain rfl := Option.some_inj.mp hp
      obtain ⟨i, hi⟩ := List.mem_iff_get.mp (List.mem_map_of_mem hrow : row.2 ∈ rows.map Prod.snd)
      exact ⟨hstd, hz, i, hi.symm, by rw [hi]⟩

variable [IsStrictOrderedRing K]

theorem cast_length_pos (i : Fin values.length) : (0 : K) < values.length := by
  exact_mod_cast Nat.zero_lt_of_lt i.isLt

theorem spread_eq (hroot : RootOf sqrt (exactVariance values)) (i : Fin values.length) :
    spread values.get = values.length * sqrt (exactVariance values) ^ 2 := by
  rw [hroot.2, exactVariance_eq, mul_div_cancel₀ _ (cast_length_pos i).ne']

theorem spread_pos (hroot : RootOf sqrt (exactVariance values))
    (hstd : sqrt (exactVariance values) ≠ 0) (i : Fin values.length) : 0 < spread values.get := by
  rw [spread_eq hroot i]
  exact mul_pos (cast_length_pos i) (pow_pos (lt_of_le_of_ne hroot.1 (Ne.symm hstd)) 2)

/-- The square of a deviation in terms of the squares of all. -/
theorem sq_deviation_mul_spread (hroot : RootOf sqrt (exactVariance values))
    (hstd : sqrt (exactVariance values) ≠ 0) (i : Fin values.length) :
    (|values.get i - exactMean values| / sqrt (exactVariance values)) ^ 2 * spread values.get =
      values.length * (values.get i - LeastSquares.mean values.get) ^ 2 := by
  rw [div_pow, sq_abs, spread_eq hroot i, exactMean_eq]
  field_simp

theorem nontrivial_of_spread_pos {n : Nat} {x : Fin n → K} (h : 0 < spread x) (i : Fin n) :
    Nontrivial (Fin n) := by
  refine Fin.nontrivial_iff_two_le.mpr ?_
  by_contra hn
  obtain rfl : n = 1 := by
    have hpos := Nat.zero_lt_of_lt i.isLt
    omega
  refine h.ne' (spread_eq_zero_iff.mpr fun j => ?_)
  have hj : j = 0 := Subsingleton.elim j 0
  simp [hj, LeastSquares.mean]

/-- The deviation of a point cannot be larger than the number of the others allows. -/
theorem sq_deviation_le (hroot : RootOf sqrt (exactVariance (rows.map Prod.snd)))
    {p : ExactAnomaly K} (h : p ∈ pointsBeyond sqrt rows t) :
    p.deviation ^ 2 ≤ rows.length - 1 := by
  obtain ⟨hstd, -, i, -, hdeviation⟩ := mem_pointsBeyond h
  have hspread := spread_pos hroot hstd i
  have hnontrivial := nontrivial_of_spread_pos hspread i
  have hle := card_mul_sq_deviation_le (rows.map Prod.snd).get i
  have hlength : ((rows.map Prod.snd).length : K) = rows.length := by rw [List.length_map]
  rw [Fintype.card_fin, ← sq_deviation_mul_spread hroot hstd i, ← hdeviation, hlength] at hle
  exact le_of_mul_le_mul_right hle hspread

/-- A point as far as the number of the others allows is the only value that differs. -/
theorem others_equal (hroot : RootOf sqrt (exactVariance (rows.map Prod.snd)))
    {p : ExactAnomaly K} (h : p ∈ pointsBeyond sqrt rows t)
    (hfar : (rows.length - 1 : K) ≤ p.deviation ^ 2) :
    ∃ i : Fin (rows.map Prod.snd).length, p.value = (rows.map Prod.snd).get i ∧
      ∀ j k, j ≠ i → k ≠ i → (rows.map Prod.snd).get j = (rows.map Prod.snd).get k := by
  obtain ⟨hstd, -, i, hvalue, hdeviation⟩ := mem_pointsBeyond h
  have hspread := spread_pos hroot hstd i
  have hnontrivial := nontrivial_of_spread_pos hspread i
  have hlength : ((rows.map Prod.snd).length : K) = rows.length := by rw [List.length_map]
  refine ⟨i, hvalue, fun j k hj hk => eq_of_card_mul_sq_deviation ?_ hj hk⟩
  rw [Fintype.card_fin, ← sq_deviation_mul_spread hroot hstd i, ← hdeviation, hlength]
  exact mul_le_mul_of_nonneg_right hfar hspread.le

/-- As many points as are reported, times the square of the threshold, are at most all rows. -/
theorem length_pointsBeyond_mul_le (hroot : RootOf sqrt (exactVariance (rows.map Prod.snd)))
    (ht : 0 ≤ t) : ((pointsBeyond sqrt rows t).length : K) * t ^ 2 ≤ rows.length := by
  rw [pointsBeyond]
  dsimp only
  split
  · simp
  · next hstd =>
      have hpos := lt_of_le_of_ne hroot.1 (Ne.symm hstd)
      have hvariance : 0 < exactVariance (rows.map Prod.snd) := hroot.2 ▸ pow_pos hpos 2
      have hsum : (rows.map fun row => (row.2 - exactMean (rows.map Prod.snd)) ^ 2).sum =
          exactVariance (rows.map Prod.snd) * rows.length := by
        by_cases hrows : rows = []
        · simp [hrows]
        · have hn : (rows.length : K) ≠ 0 := by simpa using hrows
          rw [exactVariance, List.length_map, List.map_map, div_mul_cancel₀ _ hn]
          rfl
      have hcount := countP_mul_le_sum rows
        (fun row => sq_nonneg (row.2 - exactMean (rows.map Prod.snd)))
        (t ^ 2 * exactVariance (rows.map Prod.snd))
      have hbeyond : ∀ row : ℚ × K,
          t ≤ |row.2 - exactMean (rows.map Prod.snd)| / sqrt (exactVariance (rows.map Prod.snd)) ↔
            t ^ 2 * exactVariance (rows.map Prod.snd) ≤
              (row.2 - exactMean (rows.map Prod.snd)) ^ 2 := by
        intro row
        rw [le_div_iff₀ hpos, ← sq_le_sq₀ (mul_nonneg ht hpos.le) (abs_nonneg _), mul_pow, hroot.2,
          sq_abs]
      rw [hsum] at hcount
      rw [List.length_filterMap_eq_countP]
      have hsame : rows.countP (fun row => (if t ≤ |row.2 - exactMean (rows.map Prod.snd)| /
            sqrt (exactVariance (rows.map Prod.snd)) then
          some (⟨row.1, row.2, exactMean (rows.map Prod.snd),
            |row.2 - exactMean (rows.map Prod.snd)| /
              sqrt (exactVariance (rows.map Prod.snd))⟩ : ExactAnomaly K) else none).isSome) =
          rows.countP fun row => t ^ 2 * exactVariance (rows.map Prod.snd) ≤
            (row.2 - exactMean (rows.map Prod.snd)) ^ 2 := by
        refine List.countP_congr fun row _ => ?_
        rw [Option.isSome_ite, hbeyond, decide_eq_true_iff]
      rw [hsame]
      refine le_of_mul_le_mul_right ?_ hvariance
      linarith

/-- Below ten rows no point reaches a threshold of three. -/
theorem pointsBeyond_eq_nil (hroot : RootOf sqrt (exactVariance (rows.map Prod.snd)))
    (ht : 3 ≤ t) (hrows : rows.length < 10) : pointsBeyond sqrt rows t = [] := by
  refine List.eq_nil_iff_forall_not_mem.mpr fun p hp => ?_
  have hdeviation : 3 ≤ p.deviation := ht.trans (mem_pointsBeyond hp).2.1
  have hle := sq_deviation_le hroot hp
  have hlength : (rows.length : K) ≤ 9 := by
    exact_mod_cast Nat.le_of_lt_succ hrows
  nlinarith

/-- The check for ten rows takes no point away at the default threshold, and what is reported
stays few and bounded. With ten rows a point is the only value that differs. -/
theorem exactAnomalyPoints_bounded (hroot : RootOf sqrt (exactVariance (rows.map Prod.snd)))
    (ht : 3 ≤ t) :
    exactAnomalyPoints sqrt rows t = pointsBeyond sqrt rows t ∧
      ((exactAnomalyPoints sqrt rows t).length : K) * t ^ 2 ≤ rows.length ∧
      ∀ p ∈ exactAnomalyPoints sqrt rows t, t ≤ p.deviation ∧ p.deviation ^ 2 ≤ rows.length - 1 ∧
        (rows.length = 10 → p.deviation = 3 ∧
          ∃ i : Fin (rows.map Prod.snd).length, p.value = (rows.map Prod.snd).get i ∧
            ∀ j k, j ≠ i → k ≠ i →
              (rows.map Prod.snd).get j = (rows.map Prod.snd).get k) := by
  have hsame : exactAnomalyPoints sqrt rows t = pointsBeyond sqrt rows t := by
    rw [exactAnomalyPoints]
    split
    · next hrows => exact (pointsBeyond_eq_nil hroot ht hrows).symm
    · rfl
  have hnonneg : 0 ≤ t := le_trans (by norm_num) ht
  rw [hsame]
  refine ⟨rfl, length_pointsBeyond_mul_le hroot hnonneg, fun p hp => ?_⟩
  have hdeviation := (mem_pointsBeyond hp).2.1
  have hle := sq_deviation_le hroot hp
  refine ⟨hdeviation, hle, fun hten => ?_⟩
  have hlength : (rows.length : K) = 10 := by rw [hten]; norm_num
  rw [hlength] at hle
  have hthree : p.deviation = 3 := by nlinarith
  refine ⟨hthree, others_equal hroot hp ?_⟩
  rw [hlength, hthree]
  norm_num

def outlierRows : List (ℚ × ℚ) := List.replicate 9 (0, 0) ++ [(9, 10)]

theorem exactAnomalyPoints_bounded_outlier :
    exactAnomalyPoints (fun _ => 3) outlierRows 3 = [⟨9, 10, 1, 3⟩] ∧
      exactAnomalyPoints (fun _ => 3) outlierRows 3 = pointsBeyond (fun _ => 3) outlierRows 3 ∧
      ((exactAnomalyPoints (fun _ => 3) outlierRows 3).length : ℚ) * 3 ^ 2 ≤ 10 := by
  have hroot : RootOf (fun _ => 3) (exactVariance (outlierRows.map Prod.snd)) :=
    ⟨by norm_num, by decide +kernel⟩
  obtain ⟨hsame, hfew, -⟩ := exactAnomalyPoints_bounded hroot le_rfl
  exact ⟨by decide +kernel, hsame, hfew⟩

/-! ## Statistics -/

theorem isMedian_exactMedian {sorted : List K} (h : sorted.Pairwise (· ≤ ·)) :
    IsMedian sorted.get (exactMedian sorted) := by
  have hmono : ∀ i j : Fin sorted.length, i ≤ j → sorted.get i ≤ sorted.get j := by
    intro i j hij
    rcases hij.lt_or_eq with hlt | rfl
    · exact List.pairwise_iff_get.mp h i j hlt
    · exact le_rfl
  have hvalue : ∀ (k : Nat) (hk : k < sorted.length), sorted.getD k 0 = sorted.get ⟨k, hk⟩ :=
    fun k hk => List.getD_eq_getElem _ _ hk
  intro i hi
  have hi' : i.val ≤ sorted.length - (i.val + 1) := by simpa [Fin.le_def, Fin.val_rev] using hi
  have hlt := i.isLt
  simp only [exactMedian]
  split
  · next hodd =>
      rw [hvalue _ (by omega)]
      exact ⟨hmono _ _ (Fin.le_def.mpr (by dsimp only; omega)),
        hmono _ _ (Fin.le_def.mpr (by rw [Fin.val_rev]; dsimp only; omega))⟩
  · next heven =>
      have hlower : sorted.get i ≤ sorted.getD (sorted.length / 2 - 1) 0 := by
        rw [hvalue _ (by omega)]
        exact hmono _ _ (Fin.le_def.mpr (by dsimp only; omega))
      have hmiddle : sorted.getD (sorted.length / 2 - 1) 0 ≤ sorted.getD (sorted.length / 2) 0 := by
        rw [hvalue _ (by omega), hvalue _ (by omega)]
        exact hmono _ _ (Fin.le_def.mpr (by dsimp only; omega))
      have hupper : sorted.getD (sorted.length / 2) 0 ≤ sorted.get i.rev := by
        rw [hvalue _ (by omega)]
        exact hmono _ _ (Fin.le_def.mpr (by rw [Fin.val_rev]; dsimp only; omega))
      push_cast
      constructor <;> linarith

theorem le_exactMean {values : List K} {a : K} (hne : values ≠ [])
    (h : ∀ v ∈ values, a ≤ v) : a ≤ exactMean values := by
  have hpos : (0 : K) < values.length := by
    exact_mod_cast List.length_pos_of_ne_nil hne
  have hsum := List.card_nsmul_le_sum values a h
  rw [nsmul_eq_mul] at hsum
  rw [exactMean, le_div_iff₀ hpos]
  linarith

theorem exactMean_le {values : List K} {b : K} (hne : values ≠ [])
    (h : ∀ v ∈ values, v ≤ b) : exactMean values ≤ b := by
  have hpos : (0 : K) < values.length := by
    exact_mod_cast List.length_pos_of_ne_nil hne
  have hsum := List.sum_le_card_nsmul values b h
  rw [nsmul_eq_mul] at hsum
  rw [exactMean, div_le_iff₀ hpos]
  linarith

theorem sqrt_exactVariance_le (hroot : RootOf sqrt (exactVariance values)) (hne : values ≠ [])
    {a b : K} (ha : ∀ v ∈ values, a ≤ v) (hb : ∀ v ∈ values, v ≤ b) :
    sqrt (exactVariance values) ≤ (b - a) / 2 := by
  let i : Fin values.length := ⟨0, List.length_pos_of_ne_nil hne⟩
  have hnonempty : Nonempty (Fin values.length) := ⟨i⟩
  have hle := spread_le (x := values.get) (fun j => ha _ (values.get_mem j))
    fun j => hb _ (values.get_mem j)
  rw [spread_eq hroot i, Fintype.card_fin] at hle
  have hsq := le_of_mul_le_mul_left hle (cast_length_pos i)
  have hab := (ha _ (values.get_mem i)).trans (hb _ (values.get_mem i))
  exact (sq_le_sq₀ hroot.1 (by linarith)).mp hsq

theorem abs_exactMean_sub_le (hroot : RootOf sqrt (exactVariance values)) (hne : values ≠ [])
    {m : K} (h : IsMedian values.get m) :
    |exactMean values - m| ≤ sqrt (exactVariance values) := by
  let i : Fin values.length := ⟨0, List.length_pos_of_ne_nil hne⟩
  have hnonempty : Nonempty (Fin values.length) := ⟨i⟩
  have hle := card_mul_sq_mean_sub_median_le h
  rw [spread_eq hroot i, ← exactMean_eq] at hle
  have hsq := le_of_mul_le_mul_left hle (cast_length_pos i)
  rw [← sq_abs] at hsq
  exact (sq_le_sq₀ (abs_nonneg _) hroot.1).mp hsq

/-- The statistics of any values bound each other: the mean and the median are between the
extremes, half their distance bounds the deviation, and the deviation the distance of the two. -/
theorem exactStatistics_ordered {s : ExactStatistics K} (h : exactStatistics sqrt values = some s)
    (hroot : RootOf sqrt (exactVariance values)) :
    s.count = values.length ∧ s.min ∈ values ∧ s.max ∈ values ∧
      (∀ v ∈ values, s.min ≤ v ∧ v ≤ s.max) ∧ s.min ≤ s.mean ∧ s.mean ≤ s.max ∧
      s.min ≤ s.median ∧ s.median ≤ s.max ∧ s.std ≤ (s.max - s.min) / 2 ∧
      |s.mean - s.median| ≤ s.std := by
  match values, h with
  | first :: rest, h =>
      obtain rfl := Option.some_inj.mp h
      have hne : first :: rest ≠ [] := List.cons_ne_nil first rest
      obtain ⟨hmin, hle⟩ := List.min?_eq_some_iff.mp
        (List.min?_cons' : (first :: rest).min? = some (rest.foldl min first))
      obtain ⟨hmax, hge⟩ := List.max?_eq_some_iff.mp
        (List.max?_cons' : (first :: rest).max? = some (rest.foldl max first))
      have hperm := List.mergeSort_perm (first :: rest) fun a b => decide (a ≤ b)
      have hsorted := @List.pairwise_mergeSort K (fun a b => decide (a ≤ b))
        (by simpa using fun a b c => le_trans) (by simpa using le_total) (first :: rest)
      simp only [decide_eq_true_eq] at hsorted
      have hmedian := isMedian_exactMedian hsorted
      have hroot' := hroot
      rw [← exactVariance_perm hperm] at hroot'
      have hnil : (first :: rest).mergeSort (fun a b => decide (a ≤ b)) ≠ [] := by
        rw [ne_eq, ← List.length_eq_zero_iff, hperm.length_eq, List.length_eq_zero_iff]
        exact hne
      have hmean := abs_exactMean_sub_le hroot' hnil hmedian
      rw [exactMean_perm hperm, exactVariance_perm hperm] at hmean
      obtain ⟨hlower, hupper⟩ := hmedian ⟨0, List.length_pos_of_ne_nil hnil⟩
        (Fin.le_def.mpr (Nat.zero_le _))
      have hmem := fun j => hperm.mem_iff.mp (List.get_mem _ j)
      exact ⟨rfl, hmin, hmax, fun v hv => ⟨hle v hv, hge v hv⟩, le_exactMean hne hle,
        exactMean_le hne hge, (hle _ (hmem _)).trans hlower, hupper.trans (hge _ (hmem _)),
        sqrt_exactVariance_le hroot hne hle hge, hmean⟩

theorem exactStatistics_ordered_skewed :
    ∃ s : ExactStatistics ℚ, exactStatistics (fun _ => 2) [0, 5, 0, 0, 0] = some s ∧
      (s.min, s.mean, s.max, s.std) = (0, 1, 5, 2) ∧ s.std ≤ (s.max - s.min) / 2 ∧
      |s.mean - s.median| ≤ s.std := by
  have hroot : RootOf (fun _ => 2) (exactVariance [(0 : ℚ), 5, 0, 0, 0]) :=
    ⟨by norm_num, by decide +kernel⟩
  obtain ⟨-, -, -, -, -, -, -, -, hstd, hmedian⟩ := exactStatistics_ordered rfl hroot
  exact ⟨_, rfl, by decide +kernel, hstd, hmedian⟩

end TimeSeriesEngine
