import Lox.Number.Shortest
import Lox.Proofs.Number.Rounding

set_option autoImplicit false

/-!
# Shortest decimals

The interval of a magnitude holds exactly the decimals that are rounded to it. The search stops at
the coarsest decimal grid with a point in the interval. So the shortest decimal is rounded to its
magnitude, no decimal on a coarser grid is, and none with fewer digits is.
-/

namespace Lox.Number

namespace Interval

variable {i : Interval}

/-! ## The coarsest grid -/

theorem contains_between {a b c : Nat} (first : i.contains a = true) (last : i.contains c = true)
    (le : a ≤ b) (le' : b ≤ c) : i.contains b = true := by
  unfold contains at first last ⊢
  split at first
  · simp only [*, ↓reduceIte, Bool.and_eq_true, decide_eq_true_eq] at *
    omega
  · simp only [*, Bool.false_eq_true, ↓reduceIte, Bool.and_eq_true, decide_eq_true_eq] at *
    omega

theorem contains_of_onGrid? {step digits : Nat} (found : i.onGrid? step = some digits) :
    i.contains (digits * step) = true := by
  unfold onGrid? at found
  dsimp only at found
  split at found
  · rename_i below above
    obtain rfl := Option.some.inj found
    split
    · exact below
    · exact above
  · obtain rfl := Option.some.inj found
    assumption
  · obtain rfl := Option.some.inj found
    assumption
  · cases found

/-- A grid has a point in the interval only if one next to the value is in it. -/
theorem not_contains_of_onGrid?_eq_none {step : Nat} (inside : i.contains i.value = true)
    (positive : 0 < step) (none : i.onGrid? step = none) (digits : Nat) :
    ¬i.contains (digits * step) = true := by
  intro contained
  have below_le : i.value / step * step ≤ i.value := Nat.div_mul_le_self _ _
  have lt_above : i.value < (i.value / step + 1) * step :=
    Nat.lt_mul_of_div_lt (Nat.lt_succ_self _) positive
  unfold onGrid? at none
  dsimp only at none
  split at none
  · cases none
  · cases none
  · cases none
  · rename_i noBelow noAbove
    rcases Nat.lt_or_ge (i.value / step) digits with above | below
    · have le : (i.value / step + 1) * step ≤ digits * step := Nat.mul_le_mul_right _ above
      rw [contains_between inside contained lt_above.le le] at noAbove
      cases noAbove
    · have le : digits * step ≤ i.value / step * step := Nat.mul_le_mul_right _ below
      rw [contains_between contained inside le below_le] at noBelow
      cases noBelow

/-- The search finds a point on the coarsest grid that has one. -/
theorem search_coarsest (inside : i.contains i.value = true) (place : Nat) :
    i.contains ((i.search place).1 * 10 ^ (i.search place).2) = true ∧
      ∀ coarser, (i.search place).2 < coarser → coarser ≤ place →
        ∀ digits, ¬i.contains (digits * 10 ^ coarser) = true := by
  induction place with
  | zero =>
    refine ⟨?_, fun coarser less le => by omega⟩
    rw [search, Nat.pow_zero, Nat.mul_one]
    exact inside
  | succ place inductionHypothesis =>
    rw [search]
    split
    · rename_i digits found
      exact ⟨contains_of_onGrid? found, fun coarser less le => absurd less (Nat.not_lt_of_le le)⟩
    · rename_i none
      refine ⟨inductionHypothesis.1, fun coarser less le => ?_⟩
      rcases Nat.lt_or_eq_of_le le with earlier | rfl
      · exact inductionHypothesis.2 coarser less (Nat.le_of_lt_succ earlier)
      · exact not_contains_of_onGrid?_eq_none inside (Nat.pow_pos (by decide)) none

theorem high_lt_pow_topPlace (i : Interval) : i.high < 10 ^ i.topPlace :=
  calc
    i.high < 2 ^ (Nat.log2 i.high + 1) := Nat.lt_log2_self
    _ ≤ 2 ^ (13 * (Nat.log2 i.high / 13 + 1)) := Nat.pow_le_pow_right (by decide) (by omega)
    _ = (2 ^ 13) ^ (Nat.log2 i.high / 13 + 1) := Nat.pow_mul 2 13 _
    _ ≤ (10 ^ 4) ^ (Nat.log2 i.high / 13 + 1) := Nat.pow_le_pow_left (by decide) _
    _ = 10 ^ i.topPlace := (Nat.pow_mul 10 4 _).symm

theorem low_le_of_contains {point : Nat} (contained : i.contains point = true) :
    i.low ≤ point ∧ point ≤ i.high := by
  unfold contains at contained
  split at contained <;> simp only [Bool.and_eq_true, decide_eq_true_eq] at contained <;> omega

/-- Grids from the top place on have no point in an interval above zero. -/
theorem not_contains_of_topPlace_le {place digits : Nat} (positive : 0 < i.low)
    (le : i.topPlace ≤ place) :
    ¬i.contains (digits * 10 ^ place) = true := by
  intro contained
  obtain ⟨low, high⟩ := low_le_of_contains contained
  have top : i.high < 10 ^ place :=
    i.high_lt_pow_topPlace.trans_le (Nat.pow_le_pow_right (by decide) le)
  have nonzero : 0 < digits := Nat.pos_of_ne_zero fun zero => by simp [zero] at low; omega
  have := Nat.le_mul_of_pos_left (10 ^ place) nonzero
  omega

end Interval

open Magnitude

/-! ## The interval of a magnitude -/

theorem narrowBelow_iff {x : Magnitude} :
    x.narrowBelow = true ↔ x.mantissa = 2 ^ 52 ∧ 0 < x.exponent := by
  rw [narrowBelow, Bool.and_eq_true, beq_iff_eq, decide_eq_true_eq, Nat.pow_eq]

/-- The distance to the pattern below, in units of half the distance to the one above. -/
theorem two_mul_pow_exponent (other : Nat) : 2 * 2 ^ (ofBits other).exponent =
    (if (ofBits (other + 1)).narrowBelow then 1 else 2) * 2 ^ (ofBits (other + 1)).exponent := by
  rcases Nat.lt_or_ge other (2 ^ 52) with subnormal | normal
  · have zero : (ofBits (other + 1)).exponent = 0 := by
      rcases Nat.lt_or_ge (other + 1) (2 ^ 52) with less | reached
      · rw [ofBits_of_lt less]
      · rw [ofBits_of_le reached]
        dsimp only
        omega
    rw [if_neg fun narrow => (narrowBelow_iff.mp narrow).2.ne' zero, zero, ofBits_of_lt subnormal]
  · have next : 2 ^ 52 ≤ other + 1 := by omega
    have narrow : (ofBits (other + 1)).narrowBelow = true ↔ (other + 1) % 2 ^ 52 = 0 := by
      rw [narrowBelow_iff, ofBits_of_le next]
      dsimp only
      omega
    rw [ofBits_of_le normal]
    split
    · rename_i isNarrow
      have multiple := narrow.mp isNarrow
      rw [ofBits_of_le next, one_mul, ← Nat.pow_succ']
      congr 1
      dsimp only
      omega
    · rename_i regular
      have remainder := mt narrow.mpr regular
      rw [ofBits_of_le next]
      congr 2
      dsimp only
      omega

theorem four_mul_le (x : Magnitude) (nonzero : x.mantissa ≠ 0) :
    (if x.narrowBelow then 1 else 2) < 4 * x.mantissa := by
  split <;> omega

section

variable {bits : Nat}

theorem mantissa_ne_zero (nonzero : bits ≠ 0) : (ofBits bits).mantissa ≠ 0 := by
  intro zero
  rcases (canonical_ofBits bits).normal with normal | subnormal
  · omega
  · have written := toBits_ofBits bits
    rw [toBits_eq, zero, subnormal] at written
    omega

/-- The ends of the interval are the midpoints to the neighbours, in units of `2 ^ -1076`. -/
theorem midpoints (other : Nat) :
    2 * ((ofBits other).units + (ofBits (other + 1)).units) =
        (4 * (ofBits (other + 1)).mantissa - if (ofBits (other + 1)).narrowBelow then 1 else 2) *
          2 ^ (ofBits (other + 1)).exponent ∧
      2 * ((ofBits bits).units + (ofBits (bits + 1)).units) =
        (4 * (ofBits bits).mantissa + 2) * 2 ^ (ofBits bits).exponent := by
  constructor
  · have step := units_succ other
    have distance := two_mul_pow_exponent other
    have exact := units_eq (ofBits (other + 1))
    rw [Nat.sub_mul, ← distance, Nat.mul_assoc, ← exact]
    omega
  · rw [units_succ, units_eq]
    ring

/-- A quarter of a step, in units of `10 ^ -scale` and in units of `2 ^ -1076`. -/
theorem quarter_eq (exponent : Nat) :
    2 ^ (exponent - 1076) * 5 ^ (1076 - exponent) * 2 ^ 1076 =
      2 ^ exponent * 10 ^ (1076 - exponent) := by
  have sum : exponent - 1076 + 1076 = exponent + (1076 - exponent) := by omega
  rw [Nat.mul_right_comm, ← Nat.pow_add, sum, Nat.pow_add, Nat.mul_assoc, ← Nat.mul_pow]

theorem below_iff_of_closed {a b : Nat} {closed : Bool} (even : closed = true ↔ Even bits) :
    Below bits a b ↔ if closed then a ≤ b else a < b := by
  rw [Below, Nat.cast_lt, Nat.cast_inj, ← even]
  cases closed
  · simp
  · simp [Nat.le_iff_lt_or_eq]

theorem Interval.contains_iff_below {i : Interval} {point : Nat}
    (even : i.closed = true ↔ Even bits) :
    i.contains point = true ↔ Below bits i.low point ∧ Below bits point i.high := by
  rw [below_iff_of_closed even, below_iff_of_closed even, contains]
  split <;> simp

/-- The interval of a magnitude holds the decimals that are rounded to it. -/
theorem contains_iff_nearest {point : Nat} (nonzero : bits ≠ 0) (finite : bits < infinityBits) :
    (Interval.ofMagnitude (ofBits bits)).contains point = true ↔
      Nearest (point / 10 ^ (Interval.ofMagnitude (ofBits bits)).scale) bits := by
  obtain ⟨other, rfl⟩ : ∃ other, bits = other + 1 := Nat.exists_eq_succ_of_ne_zero nonzero
  have closed : (Interval.ofMagnitude (ofBits (other + 1))).closed = true ↔ Even (other + 1) := by
    rw [← toBits_ofBits (other + 1), even_toBits, toBits_ofBits, Nat.even_iff]
    exact beq_iff_eq
  obtain ⟨lower, upper⟩ := @midpoints (other + 1) other
  generalize exponent_eq : (ofBits (other + 1)).exponent = exponent at lower upper
  -- both sides are compared in units of `2 ^ -1074`
  generalize unit_eq : (2 ^ 1075 / 10 ^ (1076 - exponent) : ℚ) = unit
  have positive : 0 < unit := unit_eq ▸ by positivity
  have quarter : (2 ^ (exponent - 1076) * 5 ^ (1076 - exponent) : ℚ) * unit = 2 ^ exponent / 2 := by
    have exact : (2 ^ (exponent - 1076) * 5 ^ (1076 - exponent) * 2 ^ 1076 : ℚ) =
        2 ^ exponent * 10 ^ (1076 - exponent) := mod_cast quarter_eq exponent
    rw [← unit_eq, mul_div_assoc', div_eq_div_iff (by positivity) two_ne_zero, mul_assoc,
      ← pow_succ, exact]
  have ends {count units : Nat} (midpoint : 2 * units = count * 2 ^ exponent) :
      ((count * (2 ^ (exponent - 1076) * 5 ^ (1076 - exponent)) : Nat) : ℚ) * unit = units := by
    have cast : (2 * units : ℚ) = count * 2 ^ exponent := mod_cast midpoint
    push_cast
    rw [mul_assoc, quarter]
    linarith
  have value : (point / 10 ^ (1076 - exponent) : ℚ) = point * unit / 2 / 2 ^ 1074 := by
    rw [← unit_eq, div_div, ← pow_succ', mul_div_assoc', div_right_comm,
      mul_div_cancel_right₀ _ (by positivity)]
  rw [Interval.contains_iff_below closed]
  simp only [Interval.ofMagnitude, exponent_eq, Nat.pow_eq]
  rw [nearest_iff_neighbours finite, value, betweenNeighbours_iff_units,
    mul_div_cancel₀ _ two_ne_zero, ← below_mul_iff positive, ← below_mul_iff positive (a := point),
    ends lower, ends upper]
  push_cast
  refine and_congr_left fun _ => ⟨?_, fun below => below other rfl⟩
  rintro below _ rfl
  exact below

/-! ## The shortest decimal -/

def Decimal.value (d : Decimal) : ℚ :=
  d.digits * 10 ^ d.exponent

def Decimal.length (d : Decimal) : Nat :=
  (Nat.toDigits 10 d.digits).length

theorem shortest_zero : (ofBits 0).shortest = ⟨0, 0⟩ := if_pos rfl

theorem shortest_of_ne_zero (nonzero : bits ≠ 0) :
    (ofBits bits).shortest = (Interval.ofMagnitude (ofBits bits)).shortest :=
  if_neg (mantissa_ne_zero nonzero)

theorem low_lt_value (nonzero : bits ≠ 0) : 0 < (Interval.ofMagnitude (ofBits bits)).low ∧
    (Interval.ofMagnitude (ofBits bits)).contains (Interval.ofMagnitude (ofBits bits)).value =
      true := by
  have less := four_mul_le _ (mantissa_ne_zero nonzero)
  have quarter : 0 < Nat.pow 2 ((ofBits bits).exponent - 1076) * Nat.pow 5
      (1076 - (ofBits bits).exponent) :=
    Nat.mul_pos (Nat.pow_pos (by decide)) (Nat.pow_pos (by decide))
  have low : (Interval.ofMagnitude (ofBits bits)).low <
      (Interval.ofMagnitude (ofBits bits)).value :=
    Nat.mul_lt_mul_of_pos_right (Nat.sub_lt (by omega) (by split <;> decide)) quarter
  have high : (Interval.ofMagnitude (ofBits bits)).value <
      (Interval.ofMagnitude (ofBits bits)).high :=
    Nat.mul_lt_mul_of_pos_right (by omega) quarter
  refine ⟨Nat.mul_pos (Nat.sub_pos_of_lt less) quarter, ?_⟩
  rw [Interval.contains]
  split <;> simp [low, high, low.le, high.le]

theorem Interval.value_shortest (i : Interval) : i.shortest.value =
    ((i.search i.topPlace).1 * 10 ^ (i.search i.topPlace).2 : Nat) / 10 ^ i.scale := by
  rw [Decimal.value, shortest, zpow_sub₀ (by norm_num), zpow_natCast, zpow_natCast, mul_div_assoc']
  push_cast
  rfl

/-- The shortest decimal is rounded to its magnitude. -/
theorem nearest_shortest (finite : bits < infinityBits) :
    Nearest (ofBits bits).shortest.value bits := by
  rcases Nat.eq_zero_or_pos bits with rfl | positive
  · have zero : (ofBits 0).shortest.value = valueOfBits 0 := by
      rw [shortest_zero]
      simp [Decimal.value, valueOfBits, units_eq, ofBits_of_lt]
    exact ⟨Nat.zero_le _, fun other _ => by simp [zero], fun _ _ _ _ => .zero⟩
  · rw [shortest_of_ne_zero positive.ne', Interval.value_shortest,
      ← contains_iff_nearest positive.ne' finite]
    exact (Interval.search_coarsest (low_lt_value positive.ne').2 _).1

/-- No decimal on a coarser grid is rounded to the magnitude. -/
theorem exponent_le_of_nearest (nonzero : bits ≠ 0) (finite : bits < infinityBits) {digits : Nat}
    {exponent : Int} (nearest : Nearest (digits * 10 ^ exponent) bits) :
    exponent ≤ (ofBits bits).shortest.exponent := by
  rw [shortest_of_ne_zero nonzero]
  obtain ⟨positive, inside⟩ := low_lt_value nonzero
  have contained {point : Nat} := @contains_iff_nearest bits point nonzero finite
  generalize Interval.ofMagnitude (ofBits bits) = i at positive inside contained
  by_contra coarser
  have coarser : ((i.search i.topPlace).2 : Int) - i.scale < exponent := lt_of_not_ge coarser
  obtain ⟨place, place_eq⟩ : ∃ place : Nat, (place : Int) = exponent + i.scale :=
    ⟨(exponent + i.scale).toNat, Int.toNat_of_nonneg (by omega)⟩
  have value : (digits * 10 ^ exponent : ℚ) = (digits * 10 ^ place : Nat) / 10 ^ i.scale := by
    rw [eq_sub_of_add_eq place_eq.symm, zpow_sub₀ (by norm_num), zpow_natCast, zpow_natCast,
      mul_div_assoc']
    push_cast
    rfl
  have found := contained.mpr (value ▸ nearest)
  rcases Nat.le_total place i.topPlace with le | le
  · exact (Interval.search_coarsest inside _).2 place (by omega) le digits found
  · exact Interval.not_contains_of_topPlace_le positive le found

/-- Digits end where the next coarser grid would do. -/
theorem not_dvd_digits_shortest (nonzero : bits ≠ 0) (finite : bits < infinityBits) :
    ¬10 ∣ (ofBits bits).shortest.digits := by
  rintro ⟨fewer, digits_eq⟩
  have nearest := nearest_shortest finite
  rw [Decimal.value, digits_eq, Nat.cast_mul, mul_right_comm, Nat.cast_ofNat, mul_comm,
    ← zpow_one_add₀ (by norm_num)]
    at nearest
  have le := exponent_le_of_nearest nonzero finite nearest
  omega

theorem Decimal.value_lt (d : Decimal) : d.value < 10 ^ (d.length + d.exponent) := by
  have less : d.digits < 10 ^ d.length :=
    (Nat.length_toDigits_le_iff (by decide) Nat.length_toDigits_pos).mp le_rfl
  rw [value, zpow_add₀ (by norm_num), zpow_natCast]
  exact mul_lt_mul_of_pos_right (mod_cast less) (by positivity)

theorem Decimal.le_value (d : Decimal) (nonzero : d.digits ≠ 0) :
    10 ^ (d.length - 1 + d.exponent) ≤ d.value := by
  obtain ⟨more, more_eq⟩ : ∃ more, d.length = more + 1 :=
    Nat.exists_eq_succ_of_ne_zero Nat.length_toDigits_pos.ne'
  have le : 10 ^ more ≤ d.digits := by
    rcases Nat.eq_zero_or_pos more with rfl | positive
    · exact Nat.pos_of_ne_zero nonzero
    · by_contra less
      have shorter := (Nat.length_toDigits_le_iff (by decide) positive).mpr (Nat.lt_of_not_le less)
      unfold length at more_eq
      omega
  rw [value, more_eq, Nat.cast_succ, add_sub_cancel_right, zpow_add₀ (by norm_num), zpow_natCast]
  exact mul_le_mul_of_nonneg_right (mod_cast le) (by positivity)

/-- No decimal with fewer digits is rounded to the magnitude. -/
theorem length_shortest_le (finite : bits < infinityBits) {d : Decimal}
    (nearest : Nearest d.value bits) :
    (ofBits bits).shortest.length ≤ d.length := by
  rcases Nat.eq_zero_or_pos bits with rfl | positive
  · rw [shortest_zero]
    exact Nat.length_toDigits_pos
  by_contra fewer
  have coarsest := exponent_le_of_nearest positive.ne' finite nearest
  -- a power of ten lies between the two decimals, and it is on a coarser grid
  have nonzero : (ofBits bits).shortest.digits ≠ 0 := fun zero =>
    not_dvd_digits_shortest positive.ne' finite (zero ▸ Nat.dvd_zero _)
  have low : d.value ≤ 10 ^ ((ofBits bits).shortest.length - 1 + (ofBits bits).shortest.exponent) :=
    d.value_lt.le.trans (zpow_le_zpow_right₀ (by norm_num) (by omega))
  have power := nearest.between (nearest_shortest finite) low (Decimal.le_value _ nonzero)
  rw [← one_mul (10 ^ _), ← Nat.cast_one] at power
  have le := exponent_le_of_nearest positive.ne' finite power
  have some := Nat.length_toDigits_pos (b := 10) (n := d.digits)
  unfold Decimal.length at *
  omega

end

end Lox.Number
