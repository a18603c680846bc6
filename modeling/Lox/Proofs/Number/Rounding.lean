import Lox.Number.Magnitude
import Mathlib

set_option autoImplicit false

/-!
# Rounding

Which number a decimal stands for is said here over the rationals: the pattern whose number is
nearest, and of two equally near ones the even pattern. The pattern of infinity takes part as `2 ^
1024`, the number that would come next, so that overflow is no case of its own. There is one such
pattern for each rational, and `nearestBits` finds it.
-/

namespace Lox.Number

namespace Magnitude

/-! ## Patterns in order -/

/-- The magnitudes that patterns have: below `2 ^ 52` there is one exponent only. -/
structure Canonical (x : Magnitude) : Prop where
  mantissa_lt : x.mantissa < 2 ^ 53
  normal : 2 ^ 52 ≤ x.mantissa ∨ x.exponent = 0

theorem toBits_eq (x : Magnitude) : x.toBits = x.exponent * 2 ^ 52 + x.mantissa := rfl

theorem units_eq (x : Magnitude) : x.units = x.mantissa * 2 ^ x.exponent := rfl

theorem ofBits_of_lt {bits : Nat} (subnormal : bits < 2 ^ 52) : ofBits bits = ⟨bits, 0⟩ :=
  if_pos subnormal

theorem ofBits_of_le {bits : Nat} (normal : 2 ^ 52 ≤ bits) :
    ofBits bits = ⟨2 ^ 52 + bits % 2 ^ 52, bits / 2 ^ 52 - 1⟩ :=
  if_neg (Nat.not_lt_of_le normal)

theorem canonical_ofBits (bits : Nat) : (ofBits bits).Canonical := by
  rcases Nat.lt_or_ge bits (2 ^ 52) with subnormal | normal
  · rw [ofBits_of_lt subnormal]
    exact ⟨by dsimp only; omega, .inr rfl⟩
  · rw [ofBits_of_le normal]
    exact ⟨by dsimp only; omega, .inl (Nat.le_add_right _ _)⟩

/-- A mantissa that is rounded up to `2 ^ 53` has the pattern of the next exponent. -/
theorem units_ofBits_toBits {mantissa exponent : Nat} (small : mantissa ≤ 2 ^ 53)
    (normal : 2 ^ 52 ≤ mantissa ∨ exponent = 0) :
    (ofBits (toBits ⟨mantissa, exponent⟩)).units = mantissa * 2 ^ exponent := by
  rw [toBits_eq]
  dsimp only
  by_cases subnormal : mantissa < 2 ^ 52
  · obtain rfl : exponent = 0 := by omega
    rw [Nat.zero_mul, Nat.zero_add, ofBits_of_lt subnormal, units_eq]
  rw [ofBits_of_le (by omega), units_eq]
  dsimp only
  rcases Nat.eq_or_lt_of_le small with rfl | small
  · have remainder : (exponent * 2 ^ 52 + 2 ^ 53) % 2 ^ 52 = 0 := by omega
    have quotient : (exponent * 2 ^ 52 + 2 ^ 53) / 2 ^ 52 - 1 = exponent + 1 := by omega
    have carry : 52 + (exponent + 1) = 53 + exponent := by omega
    rw [remainder, quotient, Nat.add_zero, ← Nat.pow_add, ← Nat.pow_add, carry]
  · have remainder : (exponent * 2 ^ 52 + mantissa) % 2 ^ 52 = mantissa - 2 ^ 52 := by omega
    have quotient : (exponent * 2 ^ 52 + mantissa) / 2 ^ 52 - 1 = exponent := by omega
    rw [remainder, quotient, Nat.add_sub_cancel' (Nat.le_of_not_lt subnormal)]

theorem units_succ (bits : Nat) :
    (ofBits (bits + 1)).units = (ofBits bits).units + 2 ^ (ofBits bits).exponent := by
  have canonical := canonical_ofBits bits
  have next : bits + 1 = toBits ⟨(ofBits bits).mantissa + 1, (ofBits bits).exponent⟩ := by
    have written := toBits_ofBits bits
    rw [toBits_eq] at written ⊢
    dsimp only
    omega
  have normal : 2 ^ 52 ≤ (ofBits bits).mantissa + 1 ∨ (ofBits bits).exponent = 0 :=
    canonical.normal.imp_left (by omega)
  rw [next, units_ofBits_toBits canonical.mantissa_lt normal, units_eq, Nat.succ_mul]

theorem units_strictMono : StrictMono fun bits => (ofBits bits).units := by
  refine strictMono_nat_of_lt_succ fun bits => ?_
  rw [units_succ]
  exact Nat.lt_add_of_pos_right (by positivity)

theorem even_toBits (x : Magnitude) : Even x.toBits ↔ Even x.mantissa := by
  have even : Even (x.exponent * 2 ^ 52) := Nat.even_mul.mpr (.inr (by decide))
  rw [toBits_eq, Nat.even_add, iff_true_left even]

end Magnitude

open Magnitude

def valueOfBits (bits : Nat) : ℚ :=
  (ofBits bits).units / 2 ^ 1074

theorem valueOfBits_strictMono : StrictMono valueOfBits := fun _ _ less =>
  div_lt_div_of_pos_right (Nat.cast_lt.mpr (units_strictMono less)) (by positivity)

/-! ## Nearest patterns -/

/-- The pattern that a nonnegative rational is rounded to. -/
structure Nearest (q : ℚ) (bits : Nat) : Prop where
  bounded : bits ≤ infinityBits
  closest : ∀ other ≤ infinityBits, |q - valueOfBits bits| ≤ |q - valueOfBits other|
  even : ∀ other ≤ infinityBits, other ≠ bits →
    |q - valueOfBits bits| = |q - valueOfBits other| → Even bits

def Below (bits : Nat) (a b : ℚ) : Prop :=
  a < b ∨ a = b ∧ Even bits

section

variable {bits : Nat} {a b c q : ℚ}

theorem Below.le (below : Below bits a b) : a ≤ b :=
  below.elim le_of_lt fun same => le_of_eq same.1

theorem Below.trans_le (below : Below bits a b) (le : b ≤ c) : Below bits a c := by
  rcases below with less | ⟨rfl, even⟩
  · exact .inl (less.trans_le le)
  · exact le.lt_or_eq.imp_right fun same => ⟨same, even⟩

theorem Below.le_trans (le : a ≤ b) (below : Below bits b c) : Below bits a c := by
  rcases below with less | ⟨rfl, even⟩
  · exact .inl (le.trans_lt less)
  · exact le.lt_or_eq.imp_right fun same => ⟨same, even⟩

theorem below_iff_le_and : Below bits a b ↔ a ≤ b ∧ (a = b → Even bits) := by
  rw [Below, le_iff_lt_or_eq]
  constructor
  · rintro (less | ⟨same, even⟩)
    · exact ⟨.inl less, fun same => absurd same less.ne⟩
    · exact ⟨.inr same, fun _ => even⟩
  · rintro ⟨less | same, even⟩
    · exact .inl less
    · exact .inr ⟨same, even same⟩

theorem below_mul_iff (positive : 0 < c) : Below bits (a * c) (b * c) ↔ Below bits a b := by
  rw [Below, Below, mul_lt_mul_iff_left₀ positive, mul_left_inj' positive.ne']

/-- The midpoint of two numbers says which one is closer. -/
theorem abs_sub_le_iff_of_lt (less : a < b) : |q - b| ≤ |q - a| ↔ a + b ≤ 2 * q := by
  rw [← sq_le_sq]
  constructor
  · intro closer
    nlinarith
  · intro behind
    nlinarith

theorem abs_sub_eq_iff_of_lt (less : a < b) : |q - a| = |q - b| ↔ 2 * q = a + b := by
  rw [abs_eq_abs]
  constructor
  · rintro (same | same) <;> linarith
  · intro middle
    exact .inr (by linarith)

end

/-- Nearest, by the midpoints to the other patterns. -/
theorem nearest_iff {q : ℚ} {bits : Nat} : Nearest q bits ↔ bits ≤ infinityBits ∧
    (∀ other < bits, Below bits (valueOfBits other + valueOfBits bits) (2 * q)) ∧
    ∀ other, bits < other → other ≤ infinityBits →
      Below bits (2 * q) (valueOfBits bits + valueOfBits other) := by
  simp only [below_iff_le_and]
  constructor
  · rintro ⟨bounded, closest, even⟩
    refine ⟨bounded, fun other less => ?_, fun other less otherBounded => ?_⟩
    · have order := valueOfBits_strictMono less
      have otherBounded := less.le.trans bounded
      refine ⟨(abs_sub_le_iff_of_lt order).mp (closest other otherBounded), fun same => ?_⟩
      exact even other otherBounded less.ne ((abs_sub_eq_iff_of_lt order).mpr same.symm).symm
    · have order := valueOfBits_strictMono less
      constructor
      · by_contra! beyond
        have closer := closest other otherBounded
        have equal := le_antisymm closer ((abs_sub_le_iff_of_lt order).mpr beyond.le)
        exact beyond.ne' ((abs_sub_eq_iff_of_lt order).mp equal)
      · intro same
        exact even other otherBounded less.ne' ((abs_sub_eq_iff_of_lt order).mpr same)
  · rintro ⟨bounded, below, above⟩
    refine ⟨bounded, fun other otherBounded => ?_, fun other otherBounded distinct equal => ?_⟩
    · rcases Nat.lt_trichotomy other bits with less | rfl | less
      · exact (abs_sub_le_iff_of_lt (valueOfBits_strictMono less)).mpr (below other less).1
      · exact le_rfl
      · have order := valueOfBits_strictMono less
        rcases (above other less otherBounded).1.lt_or_eq with inside | middle
        · by_contra! closer
          exact absurd ((abs_sub_le_iff_of_lt order).mp closer.le) inside.not_ge
        · exact ((abs_sub_eq_iff_of_lt order).mpr middle).le
    · rcases Nat.lt_or_gt_of_ne distinct with less | less
      · exact (below other less).2
          ((abs_sub_eq_iff_of_lt (valueOfBits_strictMono less)).mp equal.symm).symm
      · exact (above other less otherBounded).2
          ((abs_sub_eq_iff_of_lt (valueOfBits_strictMono less)).mp equal)

namespace Nearest

variable {q r s : ℚ} {bits other : Nat}

theorem eq_of_le (nearest : Nearest q bits) (others : Nearest q other) (le : bits ≤ other) :
    bits = other := by
  by_contra distinct
  have less : bits < other := lt_of_le_of_ne le distinct
  obtain ⟨-, -, above⟩ := nearest_iff.mp nearest
  obtain ⟨bounded, below, -⟩ := nearest_iff.mp others
  have fromAbove := below_iff_le_and.mp (above other less bounded)
  have fromBelow := below_iff_le_and.mp (below bits less)
  have middle := le_antisymm fromAbove.1 fromBelow.1
  -- both are even, and the one between them is closer
  obtain ⟨k, rfl⟩ := fromAbove.2 middle
  obtain ⟨l, rfl⟩ := fromBelow.2 middle.symm
  have between : k + k + 1 < l + l := by omega
  have order := valueOfBits_strictMono between
  have closer := (above (k + k + 1) (Nat.lt_succ_self _) (between.le.trans bounded)).le
  linarith

/-- No rational is rounded to two patterns. -/
theorem unique (nearest : Nearest q bits) (others : Nearest q other) : bits = other := by
  rcases Nat.le_total bits other with le | le
  · exact nearest.eq_of_le others le
  · exact (others.eq_of_le nearest le).symm

/-- What lies between two rationals that are rounded to a pattern is rounded to it too. -/
theorem between (nearest : Nearest q bits) (further : Nearest s bits) (low : q ≤ r) (high : r ≤ s) :
    Nearest r bits := by
  obtain ⟨bounded, below, -⟩ := nearest_iff.mp nearest
  obtain ⟨-, -, above⟩ := nearest_iff.mp further
  refine nearest_iff.mpr ⟨bounded, fun other less => ?_, fun other less otherBounded => ?_⟩
  · exact (below other less).trans_le (by linarith)
  · exact (above other less otherBounded).le_trans (by linarith)

end Nearest

/-! ## Neighbours -/

/-- The midpoints to the two neighbours bound the rationals that are rounded to a pattern. -/
structure BetweenNeighbours (q : ℚ) (bits : Nat) : Prop where
  below : ∀ other, other + 1 = bits → Below bits (valueOfBits other + valueOfBits bits) (2 * q)
  above : Below bits (2 * q) (valueOfBits bits + valueOfBits (bits + 1))

theorem nearest_of_neighbours {q : ℚ} {bits : Nat} (bounded : bits ≤ infinityBits)
    (between : BetweenNeighbours q bits) : Nearest q bits := by
  refine nearest_iff.mpr ⟨bounded, fun other less => ?_, fun other less _ => ?_⟩
  · have order := valueOfBits_strictMono.monotone (Nat.le_sub_one_of_lt less)
    exact (between.below (bits - 1) (by omega)).le_trans (by linarith)
  · have order := valueOfBits_strictMono.monotone (Nat.succ_le_of_lt less)
    exact between.above.trans_le (by linarith)

theorem nearest_iff_neighbours {q : ℚ} {bits : Nat} (finite : bits < infinityBits) :
    Nearest q bits ↔ BetweenNeighbours q bits := by
  refine ⟨fun nearest => ?_, nearest_of_neighbours finite.le⟩
  obtain ⟨-, below, above⟩ := nearest_iff.mp nearest
  exact ⟨fun other next => below other (by omega), above (bits + 1) (Nat.lt_succ_self _) finite⟩

/-- What is rounded to a pattern behind that of infinity overflows. -/
theorem nearest_infinityBits {q : ℚ} {bits : Nat} (overflow : infinityBits ≤ bits)
    (between : BetweenNeighbours q bits) : Nearest q infinityBits := by
  refine nearest_iff.mpr ⟨le_rfl, fun other less => ?_,
    fun other less bounded => absurd bounded less.not_ge⟩
  have even : Even infinityBits := Nat.even_mul.mpr (.inr (by decide))
  have midpoint := (between.below (bits - 1) (by omega)).le
  have lower := valueOfBits_strictMono.monotone (show other ≤ bits - 1 by omega)
  have upper := valueOfBits_strictMono.monotone overflow
  exact below_iff_le_and.mpr ⟨by linarith, fun _ => even⟩

/-- The midpoints to the neighbours, in units of `2 ^ -1074`. -/
theorem betweenNeighbours_iff_units {u : ℚ} {bits : Nat} : BetweenNeighbours (u / 2 ^ 1074) bits ↔
    (∀ other, other + 1 = bits →
      Below bits ((ofBits other).units + (ofBits bits).units) (2 * u)) ∧
    Below bits (2 * u) ((ofBits bits).units + (ofBits (bits + 1)).units) := by
  have positive : (0 : ℚ) < (2 ^ 1074)⁻¹ := by positivity
  have scale (a b : ℚ) : a / 2 ^ 1074 + b / 2 ^ 1074 = (a + b) * (2 ^ 1074)⁻¹ := by
    rw [← add_div, div_eq_mul_inv]
  have twice : 2 * (u / 2 ^ 1074) = 2 * u * (2 ^ 1074)⁻¹ := by rw [← mul_div_assoc, div_eq_mul_inv]
  constructor
  · rintro ⟨below, above⟩
    simp only [valueOfBits, scale, twice, below_mul_iff positive] at below above
    exact ⟨below, above⟩
  · rintro ⟨below, above⟩
    constructor
    · simpa only [valueOfBits, scale, twice, below_mul_iff positive] using below
    · simpa only [valueOfBits, scale, twice, below_mul_iff positive] using above

/-! ## Rounding a quotient -/

theorem roundHalfEven_cases (numerator denominator : Nat) :
    roundHalfEven numerator denominator = numerator / denominator ∧
        (2 * (numerator % denominator) < denominator ∨
          2 * (numerator % denominator) = denominator ∧ Even (numerator / denominator)) ∨
      roundHalfEven numerator denominator = numerator / denominator + 1 ∧
        (denominator < 2 * (numerator % denominator) ∨
          denominator = 2 * (numerator % denominator) ∧ Even (numerator / denominator + 1)) := by
  unfold roundHalfEven
  simp only [Bool.or_eq_true, decide_eq_true_eq, Bool.and_eq_true, beq_iff_eq, Nat.even_iff]
  split
  · right
    refine ⟨rfl, ?_⟩
    omega
  · left
    refine ⟨rfl, ?_⟩
    omega

theorem div_le_roundHalfEven (numerator denominator : Nat) :
    numerator / denominator ≤ roundHalfEven numerator denominator ∧
      roundHalfEven numerator denominator ≤ numerator / denominator + 1 := by
  rcases roundHalfEven_cases numerator denominator with ⟨rounded, -⟩ | ⟨rounded, -⟩ <;> omega

/-- A quotient is rounded to a whole number at most a half away, and to an even one if it is a half
away. -/
theorem roundHalfEven_bounds (numerator : Nat) {denominator : Nat} (positive : 0 < denominator) :
    Below (roundHalfEven numerator denominator)
        (2 * roundHalfEven numerator denominator - 1) (2 * (numerator / denominator : ℚ)) ∧
      Below (roundHalfEven numerator denominator)
        (2 * (numerator / denominator : ℚ)) (2 * roundHalfEven numerator denominator + 1) := by
  have divided := Nat.div_add_mod numerator denominator
  have small := Nat.mod_lt numerator positive
  have cases := roundHalfEven_cases numerator denominator
  generalize numerator / denominator = quotient at divided cases
  generalize numerator % denominator = remainder at divided small cases
  have cast : (0 : ℚ) < denominator := Nat.cast_pos.mpr positive
  have value : (numerator / denominator : ℚ) = quotient + remainder / denominator := by
    rw [← divided]
    push_cast
    field_simp
  have fraction : (remainder / denominator : ℚ) < 1 := by
    rw [div_lt_one cast]
    exact_mod_cast small
  have nonneg : (0 : ℚ) ≤ remainder / denominator := by positivity
  rw [value]
  rcases cases with ⟨rounded, half⟩ | ⟨rounded, half⟩
  · have down : Below quotient (2 * (remainder / denominator)) 1 := by
      rw [Below, ← mul_div_assoc, div_lt_one cast, div_eq_one_iff_eq cast.ne']
      exact_mod_cast half
    rw [rounded]
    exact ⟨.inl (by linarith), down.imp (fun _ => by linarith) (And.imp_left fun _ => by linarith)⟩
  · have up : Below (quotient + 1) 1 (2 * (remainder / denominator)) := by
      rw [Below, ← mul_div_assoc, one_lt_div cast, eq_comm, div_eq_one_iff_eq cast.ne', eq_comm]
      exact_mod_cast half
    rw [rounded]
    push_cast
    exact ⟨up.imp (fun _ => by linarith) (And.imp_left fun _ => by linarith), .inl (by linarith)⟩

/-- The exponent is the one under which the whole part of a quotient has the digits of a
mantissa. -/
theorem log2_bounds (scaled : Nat) {denominator : Nat} (positive : 0 < denominator) :
    scaled < 2 ^ 53 * (denominator * 2 ^ (Nat.log2 (scaled / denominator) - 52)) ∧
      (2 ^ 52 * (denominator * 2 ^ (Nat.log2 (scaled / denominator) - 52)) ≤ scaled ∨
        Nat.log2 (scaled / denominator) - 52 = 0) := by
  generalize chosen : Nat.log2 (scaled / denominator) - 52 = exponent
  constructor
  · have less : scaled / denominator < 2 ^ (53 + exponent) :=
      Nat.lt_log2_self.trans_le (Nat.pow_le_pow_right (by decide) (by omega))
    rw [Nat.div_lt_iff_lt_mul positive, Nat.pow_add] at less
    rwa [Nat.mul_comm denominator, ← Nat.mul_assoc]
  · refine Nat.eq_zero_or_pos exponent |>.symm.imp_left fun normal => ?_
    have whole : scaled / denominator ≠ 0 := by
      intro zero
      simp [zero] at chosen
      omega
    have le := Nat.log2_self_le whole
    rw [show Nat.log2 (scaled / denominator) = 52 + exponent by omega,
      Nat.le_div_iff_mul_le positive, Nat.pow_add] at le
    rwa [Nat.mul_comm denominator, ← Nat.mul_assoc]

theorem le_exponent_ofBits_toBits {mantissa exponent : Nat}
    (normal : 2 ^ 52 ≤ mantissa ∨ exponent = 0) :
    exponent ≤ (ofBits (toBits ⟨mantissa, exponent⟩)).exponent := by
  rcases normal with normal | rfl
  · rw [toBits_eq]
    dsimp only
    rw [ofBits_of_le (by omega)]
    dsimp only
    omega
  · exact Nat.zero_le _

/-- A number of units that is rounded under the exponent of its whole part is rounded to the nearest
pattern. In front of `2 ^ 52` the pattern below is closer than a unit, but there the number is not
below `2 ^ 52`. -/
theorem betweenNeighbours_toBits {r : ℚ} {mantissa exponent : Nat}
    (lower : Below mantissa (2 * mantissa - 1) (2 * r))
    (upper : Below mantissa (2 * r) (2 * mantissa + 1)) (small : mantissa ≤ 2 ^ 53)
    (normal : 2 ^ 52 ≤ mantissa ∧ 2 ^ 52 ≤ r ∨ exponent = 0) :
    BetweenNeighbours (r * 2 ^ exponent / 2 ^ 1074) (toBits ⟨mantissa, exponent⟩) := by
  have unit : (0 : ℚ) < 2 ^ exponent := by positivity
  have scaled {a b : ℚ} (below : Below mantissa a b) :
      Below (toBits ⟨mantissa, exponent⟩) (a * 2 ^ exponent) (b * 2 ^ exponent) :=
    (below_mul_iff unit).mpr
      (below.imp_right (And.imp_right (even_toBits ⟨mantissa, exponent⟩).mpr))
  have canonical : 2 ^ 52 ≤ mantissa ∨ exponent = 0 := normal.imp_left And.left
  have units := units_ofBits_toBits small canonical
  refine betweenNeighbours_iff_units.mpr ⟨fun other next => ?_, ?_⟩
  · by_cases regular : 2 ^ 52 < mantissa ∨ exponent = 0
    · have exact : toBits ⟨mantissa, exponent⟩ = exponent * 2 ^ 52 + mantissa := rfl
      have positive : 1 ≤ mantissa := by
        rcases regular with regular | rfl <;> omega
      have previous : other = toBits ⟨mantissa - 1, exponent⟩ := by
        rw [toBits_eq]
        dsimp only
        omega
      rw [previous, units_ofBits_toBits (by omega) (regular.imp_left (by omega)), units]
      push_cast [positive]
      convert scaled lower using 1 <;> ring
    · have least : (2 ^ 52 : ℚ) ≤ r := (normal.resolve_right (by tauto)).2
      have exact : mantissa = 2 ^ 52 := by omega
      have less : (ofBits other).units < (ofBits (toBits ⟨mantissa, exponent⟩)).units :=
        units_strictMono (by omega)
      have reached := mul_le_mul_of_nonneg_right least unit.le
      rw [units, exact] at less
      left
      rw [units, exact]
      have castLess : ((ofBits other).units : ℚ) < (2 ^ 52 * 2 ^ exponent : Nat) :=
        Nat.cast_lt.mpr less
      push_cast at castLess ⊢
      linarith
  · have step : (2 : ℚ) ^ exponent ≤ 2 ^ (ofBits (toBits ⟨mantissa, exponent⟩)).exponent :=
      pow_le_pow_right₀ (by norm_num) (le_exponent_ofBits_toBits canonical)
    rw [units_succ, units]
    push_cast
    refine Below.trans_le (b := (2 * mantissa + 1) * 2 ^ exponent) ?_ (by linarith)
    convert scaled upper using 1
    ring

theorem nearest_of_exponent {scaled denominator exponent : Nat} (positive : 0 < denominator)
    (small : scaled < 2 ^ 53 * (denominator * 2 ^ exponent))
    (normal : 2 ^ 52 * (denominator * 2 ^ exponent) ≤ scaled ∨ exponent = 0) :
    Nearest (scaled / denominator / 2 ^ 1074)
      (min infinityBits
        (toBits ⟨roundHalfEven scaled (denominator * 2 ^ exponent), exponent⟩)) := by
  have divisor : 0 < denominator * 2 ^ exponent := by positivity
  obtain ⟨lower, upper⟩ := roundHalfEven_bounds scaled divisor
  obtain ⟨floor, ceiling⟩ := div_le_roundHalfEven scaled (denominator * 2 ^ exponent)
  have quotient_lt := (Nat.div_lt_iff_lt_mul divisor).mpr small
  have canonical : 2 ^ 52 ≤ roundHalfEven scaled (denominator * 2 ^ exponent) ∧
      2 ^ 52 ≤ (scaled / (denominator * 2 ^ exponent : Nat) : ℚ) ∨ exponent = 0 := by
    refine normal.imp_left fun normal => ⟨?_, ?_⟩
    · exact ((Nat.le_div_iff_mul_le divisor).mpr normal).trans floor
    · rw [le_div_iff₀ (Nat.cast_pos.mpr divisor)]
      exact_mod_cast normal
  have between := betweenNeighbours_toBits lower upper (ceiling.trans quotient_lt) canonical
  have value : (scaled / (denominator * 2 ^ exponent : Nat) * 2 ^ exponent : ℚ) =
      scaled / denominator := by
    push_cast
    field_simp
  rw [value] at between
  rcases Nat.le_total infinityBits (toBits _) with overflow | finite
  · rw [Nat.min_eq_left overflow]
    exact nearest_infinityBits overflow between
  · rw [Nat.min_eq_right finite]
    exact nearest_of_neighbours finite between

/-- Decimals are read with correct rounding. -/
theorem nearest_nearestBits (numerator : Nat) {denominator : Nat} (positive : 0 < denominator) :
    Nearest (numerator / denominator) (nearestBits numerator denominator) := by
  obtain ⟨small, normal⟩ := log2_bounds (numerator * 2 ^ 1074) positive
  have nearest := nearest_of_exponent positive small normal
  have value : ((numerator * 2 ^ 1074 : Nat) / denominator / 2 ^ 1074 : ℚ) =
      numerator / denominator := by
    rw [Nat.cast_mul, Nat.cast_pow, Nat.cast_two, div_right_comm,
      mul_div_cancel_right₀ _ (by positivity)]
  rwa [value] at nearest

end Lox.Number
