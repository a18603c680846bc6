set_option autoImplicit false

/-!
# Magnitudes

Magnitudes of binary64 numbers, in exact arithmetic. A finite magnitude is a whole number of units
of `2 ^ -1074`, namely `mantissa * 2 ^ exponent`, and its bit pattern without the sign is `exponent
* 2 ^ 52 + mantissa` in every case: below `2 ^ 52` for a subnormal, and with the hidden bit carried
into the exponent field otherwise. So patterns are ordered as the magnitudes are, and a mantissa
that is rounded up to `2 ^ 53` needs no correction.
-/

namespace Lox.Number

structure Magnitude where
  mantissa : Nat
  exponent : Nat
  deriving DecidableEq, Repr

/-- The pattern of infinity; every larger one below `2 ^ 63` stands for no number. -/
def infinityBits : Nat := 2047 * Nat.pow 2 52

namespace Magnitude

/-- The magnitude with a given pattern below that of infinity. -/
def ofBits (bits : Nat) : Magnitude :=
  let hidden := Nat.pow 2 52
  if bits < hidden then ⟨bits, 0⟩ else ⟨hidden + bits % hidden, bits / hidden - 1⟩

def toBits (x : Magnitude) : Nat :=
  x.exponent * Nat.pow 2 52 + x.mantissa

/-- The magnitude as a number of units of `2 ^ -1074`. -/
def units (x : Magnitude) : Nat :=
  x.mantissa * Nat.pow 2 x.exponent

/-- Whether the next smaller magnitude lies at half the distance of the next larger one. -/
def narrowBelow (x : Magnitude) : Bool :=
  x.mantissa == Nat.pow 2 52 && 0 < x.exponent

theorem toBits_ofBits (bits : Nat) : (ofBits bits).toBits = bits := by
  simp only [ofBits, toBits, Nat.pow_eq]
  split
  · simp
  · have := Nat.div_add_mod bits (2 ^ 52)
    have : 1 ≤ bits / 2 ^ 52 := by omega
    simp only []
    omega

end Magnitude

/-- A quotient rounded to the nearest whole number, halves to the even one. -/
def roundHalfEven (numerator denominator : Nat) : Nat :=
  let quotient := numerator / denominator
  let twice := 2 * (numerator % denominator)
  if denominator < twice || (twice == denominator && quotient % 2 == 1) then quotient + 1
  else quotient

/-- The pattern of the magnitude nearest to a quotient, halves to the even mantissa. A quotient of
at least half a step above the largest magnitude gives infinity. -/
def nearestBits (numerator denominator : Nat) : Nat :=
  let scaled := numerator * Nat.pow 2 1074
  let exponent := Nat.log2 (scaled / denominator) - 52
  let mantissa := roundHalfEven scaled (denominator * Nat.pow 2 exponent)
  min infinityBits (Magnitude.toBits ⟨mantissa, exponent⟩)

end Lox.Number
