import Lox.Number.Shortest

set_option autoImplicit false

/-!
# Texts of numbers

The decimal text of numbers, written and read. A number is written with the digits of the shortest
decimal that identifies it. With the place of its first digit strictly between `10 ^ -5` and `10 ^
15` the text is positional; otherwise it is a mantissa, the letter `E`, a sign, and an exponent of
at least two digits.
-/

namespace Lox.Number

def Decimal.leading (d : Decimal) : Int :=
  (Nat.toDigits 10 d.digits).length - 1 + d.exponent

/-- Digits with a point behind the first `whole` of them, unless none are left. -/
def pointed (digits : List Char) (whole : Nat) : List Char :=
  match digits.drop whole with
  | [] => digits
  | fraction => digits.take whole ++ '.' :: fraction

def Decimal.positional (d : Decimal) : List Char :=
  let digits := Nat.toDigits 10 d.digits
  if 0 ≤ d.exponent then
    digits ++ List.replicate d.exponent.toNat '0'
  else if 0 ≤ d.leading then
    pointed digits (d.leading.toNat + 1)
  else
    '0' :: '.' :: List.replicate (-d.leading - 1).toNat '0' ++ digits

def exponentDigits (n : Nat) : List Char :=
  if n < 10 then '0' :: Nat.toDigits 10 n else Nat.toDigits 10 n

def Decimal.scientific (d : Decimal) : List Char :=
  let sign := if d.leading < 0 then '-' else '+'
  pointed (Nat.toDigits 10 d.digits) 1 ++ 'E' :: sign :: exponentDigits d.leading.natAbs

def Decimal.text (d : Decimal) : List Char :=
  if -5 < d.leading ∧ d.leading < 15 then d.positional else d.scientific

def textOfBits (bits : Nat) : String :=
  let signBit := Nat.pow 2 63
  let magnitude := bits % signBit
  let sign := if bits < signBit then "" else "-"
  if infinityBits < magnitude then "NaN"
  else if magnitude = infinityBits then sign ++ "inf"
  else sign ++ String.ofList (Magnitude.ofBits magnitude).shortest.text

def text (x : Float) : String :=
  textOfBits x.toBits.toNat

/-- The number that digits with a point before the last `places` of them stand for. -/
def ofDigits (digits places : Nat) : Float :=
  Float.ofBits (UInt64.ofNat (nearestBits digits (Nat.pow 10 places)))

def digitsValue (digits : List Char) : Nat :=
  digits.foldl (fun value c => 10 * value + (c.toNat - '0'.toNat)) 0

/-- Whether a text is a literal: decimal digits, one at least, and at most one point among them. -/
def isLiteral (text : List Char) : Bool :=
  let digits := text.takeWhile (· != '.') ++ (text.dropWhile (· != '.')).drop 1
  !digits.isEmpty && digits.all Char.isDigit

def ofLiteral (literal : List Char) : Float :=
  let whole := literal.takeWhile (· != '.')
  let fraction := (literal.dropWhile (· != '.')).drop 1
  ofDigits (digitsValue (whole ++ fraction)) fraction.length

end Lox.Number
