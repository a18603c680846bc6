import Lox.Number.Magnitude

set_option autoImplicit false

/-!
# Shortest decimals

The shortest decimal that identifies a magnitude: of all decimals that round to it, those with the
fewest digits, and of these the nearest; between two equally near ones, the larger.

The reals that round to a magnitude form an interval. Its ends and the value are whole numbers of a
power of ten, so the search is in natural numbers: it goes from coarse decimal grids to finer ones
and stops at the first grid with a point in the interval. On the finest grid the value itself is a
point.
-/

namespace Lox.Number

structure Decimal where
  digits : Nat
  exponent : Int
  deriving DecidableEq, Repr

/-- The reals that round to `value`, in units of `10 ^ -scale`. -/
structure Interval where
  scale : Nat
  low : Nat
  value : Nat
  high : Nat
  /-- Whether the ends belong to the interval. -/
  closed : Bool
  deriving DecidableEq, Repr

namespace Interval

/-- Halfway to the neighbour on either side. The halfway points round to the even mantissa. -/
def ofMagnitude (x : Magnitude) : Interval :=
  let quarter := Nat.pow 2 (x.exponent - 1076) * Nat.pow 5 (1076 - x.exponent)
  { scale := 1076 - x.exponent
    low := (4 * x.mantissa - if x.narrowBelow then 1 else 2) * quarter
    value := 4 * x.mantissa * quarter
    high := (4 * x.mantissa + 2) * quarter
    closed := x.mantissa % 2 == 0 }

def contains (i : Interval) (point : Nat) : Bool :=
  if i.closed then i.low ≤ point && point ≤ i.high else i.low < point && point < i.high

/-- The nearest multiple of `step` in the interval, as a number of steps. Only the two multiples
around the value can be nearest. -/
def onGrid? (i : Interval) (step : Nat) : Option Nat :=
  let below := i.value / step
  match i.contains (below * step), i.contains ((below + 1) * step) with
  | true, true => some (if 2 * i.value < (2 * below + 1) * step then below else below + 1)
  | true, false => some below
  | false, true => some (below + 1)
  | false, false => none

/-- Digits and place of the first grid from `10 ^ place` downwards with a point in the interval. -/
def search (i : Interval) : Nat → Nat × Nat
  | 0 => (i.value, 0)
  | place + 1 =>
    match i.onGrid? (Nat.pow 10 (place + 1)) with
    | some digits => (digits, place + 1)
    | none => i.search place

/-- A place whose power of ten exceeds the interval, since `2 ^ 13 < 10 ^ 4`. -/
def topPlace (i : Interval) : Nat :=
  4 * (Nat.log2 i.high / 13 + 1)

def shortest (i : Interval) : Decimal :=
  let (digits, place) := i.search i.topPlace
  ⟨digits, place - i.scale⟩

end Interval

/-- The shortest decimal that rounds to a magnitude. -/
def Magnitude.shortest (x : Magnitude) : Decimal :=
  if x.mantissa = 0 then ⟨0, 0⟩ else (Interval.ofMagnitude x).shortest

end Lox.Number
