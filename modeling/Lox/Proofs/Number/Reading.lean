import Lox.Number.Text
import Lox.Proofs.Number.Shortest
import Lox.Proofs.Token.LongestMatch

set_option autoImplicit false

/-!
# Reading texts of numbers

The exact rational that a text stands for. The text of a decimal stands for that decimal, and it has
an exponent if the first digit is not between the places `10 ^ -5` and `10 ^ 15`.
-/

namespace Lox.Number

/-- The exact number with a given literal. -/
def literalValue (literal : List Char) : ℚ :=
  let whole := literal.takeWhile (· != '.')
  let fraction := (literal.dropWhile (· != '.')).drop 1
  digitsValue (whole ++ fraction) / 10 ^ fraction.length

def exponentValue? : List Char → Option Int
  | [] => some 0
  | 'E' :: sign :: digits =>
    if digits = [] ∨ ¬digits.all Char.isDigit then none
    else if sign = '+' then some (digitsValue digits)
    else if sign = '-' then some (-digitsValue digits)
    else none
  | _ => none

/-- The exact number that a text without a sign stands for. -/
def unsignedValue? (text : List Char) : Option ℚ :=
  let mantissa := text.takeWhile (· != 'E')
  if isLiteral mantissa then
    (exponentValue? (text.dropWhile (· != 'E'))).map fun exponent =>
      literalValue mantissa * 10 ^ exponent
  else none

def exactValue? : List Char → Option (Bool × ℚ)
  | [] => none
  | c :: text =>
    if c = '-' then (unsignedValue? text).map (true, ·)
    else (unsignedValue? (c :: text)).map (false, ·)

/-- An exponent with a sign and two digits at least stands at the end. -/
def HasExponent (text : List Char) : Prop :=
  ∃ mantissa sign digits, text = mantissa ++ 'E' :: sign :: digits ∧ (sign = '+' ∨ sign = '-') ∧
    2 ≤ digits.length ∧ ∀ c ∈ digits, c.isDigit = true

/-- Literals are read with correct rounding. -/
theorem ofLiteral_eq {literal : List Char} {bits : Nat}
    (nearest : Nearest (literalValue literal) bits) :
    ofLiteral literal = Float.ofBits (UInt64.ofNat bits) := by
  have rounded := nearest_nearestBits (digitsValue (literal.takeWhile (· != '.') ++
    (literal.dropWhile (· != '.')).drop 1))
    (Nat.pow_pos (n := ((literal.dropWhile (· != '.')).drop 1).length)
      (show 0 < 10 by decide))
  rw [Nat.cast_pow, Nat.cast_ofNat] at rounded
  rw [nearest.unique rounded]
  rfl

/-! ## Values of digits -/

theorem digitsValue_append (digits more : List Char) :
    digitsValue (digits ++ more) =
      more.foldl (fun value c => 10 * value + (c.toNat - '0'.toNat)) (digitsValue digits) :=
  List.foldl_append

theorem digitsValue_toDigits (n : Nat) : digitsValue (Nat.toDigits 10 n) = n := by
  rw [digitsValue, ← Nat.ofDigitChars_eq_foldl, Nat.ofDigitChars_ten_toDigits]

theorem digitsValue_append_zeros (digits : List Char) (count : Nat) :
    digitsValue (digits ++ List.replicate count '0') = digitsValue digits * 10 ^ count := by
  induction count with
  | zero => simp
  | succ count inductionHypothesis =>
    rw [List.replicate_succ', ← List.append_assoc, digitsValue_append, inductionHypothesis,
      List.foldl_cons, List.foldl_nil, Nat.sub_self, Nat.add_zero, Nat.pow_succ]
    ring

theorem digitsValue_zeros_append (count : Nat) (digits : List Char) :
    digitsValue (List.replicate count '0' ++ digits) = digitsValue digits := by
  have zeros : digitsValue (List.replicate count '0') = 0 :=
    (digitsValue_append_zeros [] count).trans (Nat.zero_mul _)
  rw [digitsValue_append, zeros]
  rfl

theorem isDigit_toDigits (n : Nat) : ∀ c ∈ Nat.toDigits 10 n, c.isDigit = true :=
  fun _ => Nat.isDigit_of_mem_toDigits (by decide) (by decide)

/-- The last digit is a zero for multiples of ten only. -/
theorem getLast?_toDigits {n : Nat} (last : (Nat.toDigits 10 n).getLast? = some '0') : 10 ∣ n := by
  have zero : ∀ k < 10, k.digitChar = '0' → k = 0 := by decide
  rw [Nat.toDigits_eq_if (by decide)] at last
  split at last
  · rename_i small
    rw [zero n small (Option.some.inj last)]
    exact Nat.dvd_zero 10
  · rw [List.getLast?_concat] at last
    exact Nat.dvd_of_mod_eq_zero (zero _ (Nat.mod_lt _ (by decide)) (Option.some.inj last))

/-! ## Literals -/

structure Parts where
  whole : List Char
  fraction : List Char
  nonempty : whole ≠ []
  digits : ∀ c ∈ whole ++ fraction, c.isDigit = true

namespace Parts

def text (p : Parts) : List Char :=
  if p.fraction = [] then p.whole else p.whole ++ '.' :: p.fraction

def value (p : Parts) : ℚ :=
  digitsValue (p.whole ++ p.fraction) / 10 ^ p.fraction.length

theorem spells (p : Parts) : Segment.Class.number.Spells p.text := by
  obtain ⟨whole, fraction, nonempty, digits⟩ := p
  obtain ⟨c, more, rfl⟩ := List.exists_cons_of_ne_nil nonempty
  simp only [List.cons_append, List.forall_mem_cons, List.forall_mem_append] at digits
  cases fraction with
  | nil => exact .whole digits.1 digits.2.1
  | cons d places =>
    obtain ⟨place, morePlaces⟩ := List.forall_mem_cons.mp digits.2.2
    exact .fraction digits.1 digits.2.1 place morePlaces

theorem literalValue_text (p : Parts) : literalValue p.text = p.value := by
  have noPoint := Segment.ne_point_of_isDigit (List.forall_mem_append.mp p.digits).1
  unfold text literalValue value
  split
  · rename_i none
    rw [List.takeWhile_eq_self_iff.mpr noPoint, List.dropWhile_eq_nil_iff.mpr noPoint, none]
    rfl
  · rw [List.takeWhile_append_of_pos noPoint, List.dropWhile_append_of_pos noPoint]
    simp

theorem ne_exponent (p : Parts) : ∀ c ∈ p.text, (c != 'E') = true := by
  have letter {c : Char} (digit : c.isDigit = true) : (c != 'E') = true := by
    refine bne_iff_ne.mpr ?_
    rintro rfl
    exact absurd digit (by decide)
  obtain ⟨whole, fraction⟩ := List.forall_mem_append.mp p.digits
  unfold text
  split
  · exact fun c member => letter (whole c member)
  · simp only [List.forall_mem_append, List.forall_mem_cons]
    exact ⟨fun c member => letter (whole c member), by decide,
      fun c member => letter (fraction c member)⟩

/-- A literal ends in a point and a zero only if the zero is all that is behind the point. -/
theorem not_pointZero_suffix (p : Parts) (last : p.fraction.getLast? ≠ some '0') :
    ¬['.', '0'] <:+ p.text := by
  rintro ⟨front, same⟩
  unfold text at same
  split at same
  · have point : '.' ∈ p.whole := same ▸ by simp
    exact absurd (p.digits _ (List.mem_append_left _ point)) (by decide)
  · rename_i nonempty
    have ends := congrArg List.getLast? same
    rw [List.getLast?_append, List.getLast?_append, List.getLast?_cons_of_ne_nil nonempty] at ends
    rw [List.getLast?_eq_some_getLast nonempty] at ends last
    exact last ends.symm

/-- Digits with a point behind the first ones of them. -/
theorem exists_pointed (n : Nat) {count : Nat} (positive : 0 < count) : ∃ p : Parts,
    p.text = pointed (Nat.toDigits 10 n) count ∧
      p.value = n / 10 ^ ((Nat.toDigits 10 n).length - count) ∧
      (p.fraction.getLast? = some '0' → 10 ∣ n) := by
  have cut := List.take_append_drop count (Nat.toDigits 10 n)
  refine ⟨⟨(Nat.toDigits 10 n).take count, (Nat.toDigits 10 n).drop count, ?_, ?_⟩, ?_, ?_, ?_⟩
  · exact fun none => (List.take_eq_nil_iff.mp none).elim positive.ne' Nat.toDigits_ne_nil
  · rw [cut]
    exact isDigit_toDigits n
  · unfold text pointed
    dsimp only
    split
    · rename_i none
      rw [none, List.append_nil] at cut
      rw [none]
      exact cut
    · rename_i some
      split
      · exact absurd ‹_› some
      · rfl
  · rw [value]
    dsimp only
    rw [cut, digitsValue_toDigits, List.length_drop]
  · intro last
    refine getLast?_toDigits ?_
    rw [← cut, List.getLast?_append, last]
    rfl

theorem unsignedValue?_text (p : Parts) : unsignedValue? p.text = some p.value := by
  unfold unsignedValue?
  rw [List.takeWhile_eq_self_iff.mpr p.ne_exponent, List.dropWhile_eq_nil_iff.mpr p.ne_exponent]
  simp [p.spells.isLiteral, exponentValue?, p.literalValue_text]

theorem unsignedValue?_exponent (p : Parts) (tail : List Char) :
    unsignedValue? (p.text ++ 'E' :: tail) =
      (exponentValue? ('E' :: tail)).map fun exponent => p.value * 10 ^ exponent := by
  unfold unsignedValue?
  rw [List.takeWhile_append_of_pos p.ne_exponent, List.dropWhile_append_of_pos p.ne_exponent]
  simp [p.spells.isLiteral, p.literalValue_text]

end Parts

/-! ## Texts of decimals -/

theorem exponentDigits_spec (n : Nat) :
    digitsValue (exponentDigits n) = n ∧ 2 ≤ (exponentDigits n).length ∧
    ∀ c ∈ exponentDigits n, c.isDigit = true := by
  unfold exponentDigits
  split
  · refine ⟨(digitsValue_zeros_append 1 _).trans (digitsValue_toDigits n), ?_, ?_⟩
    · exact Nat.succ_le_succ Nat.length_toDigits_pos
    · exact List.forall_mem_cons.mpr ⟨by decide, isDigit_toDigits n⟩
  · rename_i large
    refine ⟨digitsValue_toDigits n, ?_, isDigit_toDigits n⟩
    by_contra short
    exact large
      ((Nat.length_toDigits_le_iff (by decide) one_pos).mp
      (Nat.le_of_lt_succ (Nat.lt_of_not_le short)))

namespace Decimal

theorem leading_eq (d : Decimal) : d.leading = d.length - 1 + d.exponent := rfl

inductive Written (d : Decimal) : List Char → Prop
  | plain (p : Parts) (between : -5 < d.leading ∧ d.leading < 15) (value : p.value = d.value)
      (last : p.fraction.getLast? = some '0' → 10 ∣ d.digits ∧ d.exponent < 0) : Written d p.text
  | scientific (p : Parts) (outside : ¬(-5 < d.leading ∧ d.leading < 15))
      (value : p.value * 10 ^ d.leading = d.value) (last : p.fraction.getLast? = some '0' →
        10 ∣ d.digits) :
      Written d (p.text ++ 'E' :: (if d.leading < 0 then '-' else '+') ::
        exponentDigits d.leading.natAbs)

theorem exists_positional (d : Decimal) : ∃ p : Parts, p.text = d.positional ∧ p.value = d.value ∧
    (p.fraction.getLast? = some '0' → 10 ∣ d.digits ∧ d.exponent < 0) := by
  have digits := isDigit_toDigits d.digits
  have zeros (count : Nat) : ∀ c ∈ List.replicate count '0', c.isDigit = true := by
    intro c member
    rw [List.eq_of_mem_replicate member]
    decide
  unfold positional
  split
  · rename_i whole
    refine ⟨⟨Nat.toDigits 10 d.digits ++ List.replicate d.exponent.toNat '0', [], ?_, ?_⟩,
      rfl, ?_, nofun⟩
    · simp
    · rw [List.append_nil]
      exact List.forall_mem_append.mpr ⟨digits, zeros _⟩
    · obtain ⟨count, count_eq⟩ := Int.eq_ofNat_of_zero_le whole
      rw [Parts.value, value, count_eq]
      simp [digitsValue_append_zeros, digitsValue_toDigits]
  · rename_i fractional
    have length : d.length = (Nat.toDigits 10 d.digits).length := rfl
    have leading := d.leading_eq
    have scale : (d.digits * 10 ^ d.exponent : ℚ) = d.digits / 10 ^ (-d.exponent).toNat := by
      rw [div_eq_mul_inv, ← zpow_natCast, Int.toNat_of_nonneg (by omega), zpow_neg, inv_inv]
    split
    · rename_i inside
      obtain ⟨p, text, value, last⟩ := Parts.exists_pointed d.digits (Nat.succ_pos d.leading.toNat)
      refine ⟨p, text, ?_, fun zero => ⟨last zero, by omega⟩⟩
      rw [value, Decimal.value, scale]
      congr 2
      omega
    · rename_i below
      refine ⟨⟨['0'], List.replicate (-d.leading - 1).toNat '0' ++ Nat.toDigits 10 d.digits,
        by simp, ?_⟩, ?_, ?_, ?_⟩
      · exact List.forall_mem_append.mpr ⟨zeros 1, List.forall_mem_append.mpr ⟨zeros _, digits⟩⟩
      · simp [Parts.text]
      · rw [Parts.value, value, scale]
        dsimp only
        rw [← List.append_assoc, show ['0'] ++ List.replicate (-d.leading - 1).toNat '0' =
          List.replicate ((-d.leading - 1).toNat + 1) '0' from rfl, digitsValue_zeros_append,
          digitsValue_toDigits,
          List.length_append, List.length_replicate]
        congr 2
        omega
      · intro last
        rw [List.getLast?_append_of_ne_nil _ Nat.toDigits_ne_nil] at last
        exact ⟨getLast?_toDigits last, by omega⟩

/-- Every decimal is written so. -/
theorem written_text (d : Decimal) : d.Written d.text := by
  unfold text
  split
  · rename_i between
    obtain ⟨p, text, value, last⟩ := d.exists_positional
    rw [← text]
    exact .plain p between value last
  · rename_i outside
    obtain ⟨p, text, value, last⟩ := Parts.exists_pointed d.digits one_pos
    unfold scientific
    rw [← text]
    refine .scientific p outside ?_ last
    obtain ⟨more, more_eq⟩ : ∃ more, (Nat.toDigits 10 d.digits).length = more + 1 :=
      Nat.exists_eq_succ_of_ne_zero Nat.length_toDigits_pos.ne'
    rw [value, Decimal.value, leading, more_eq, Nat.cast_succ, add_sub_cancel_right,
      Nat.add_sub_cancel, zpow_add₀ (by norm_num), zpow_natCast, ← mul_assoc,
      div_mul_cancel₀ _ (by positivity)]

/-- The text of a decimal stands for it. -/
theorem unsignedValue?_text (d : Decimal) : unsignedValue? d.text = some d.value := by
  have written := d.written_text
  generalize d.text = text at written
  cases written with
  | plain p _ value => rw [p.unsignedValue?_text, value]
  | scientific p _ value =>
    obtain ⟨digits, length, all⟩ := exponentDigits_spec d.leading.natAbs
    have run : ¬(exponentDigits d.leading.natAbs = [] ∨
        ¬(exponentDigits d.leading.natAbs).all Char.isDigit) := by
      rintro (none | other)
      · rw [none] at length
        exact absurd length (by decide)
      · exact other (List.all_eq_true.mpr all)
    have exponent : exponentValue? ('E' :: (if d.leading < 0 then '-' else '+') ::
        exponentDigits d.leading.natAbs) = some d.leading := by
      rw [exponentValue?, if_neg run, digits]
      split
      · rw [if_neg (by decide), if_pos rfl]
        congr 1
        omega
      · rw [if_pos rfl]
        congr 1
        omega
    rw [p.unsignedValue?_exponent, exponent, Option.map_some, value]

theorem hasExponent_text_iff (d : Decimal) :
    (HasExponent d.text ↔ d.leading ≤ -5 ∨ 15 ≤ d.leading) ∧
      ('E' ∈ d.text → HasExponent d.text) := by
  have written := d.written_text
  generalize d.text = text at written
  cases written with
  | plain p between =>
    have noExponent : 'E' ∉ p.text := fun member => absurd (p.ne_exponent 'E' member) (by decide)
    refine ⟨⟨?_, by omega⟩, fun member => absurd member noExponent⟩
    rintro ⟨mantissa, sign, digits, text, -⟩
    exact absurd (text ▸ by simp) noExponent
  | scientific p outside =>
    obtain ⟨-, length, all⟩ := exponentDigits_spec d.leading.natAbs
    have exponent : HasExponent (p.text ++ 'E' :: (if d.leading < 0 then '-' else '+') ::
        exponentDigits d.leading.natAbs) :=
      ⟨p.text, _, _, rfl, by split <;> simp, length, all⟩
    exact ⟨⟨fun _ => by omega, fun _ => exponent⟩, fun _ => exponent⟩

/-- A text without an exponent is a literal. -/
theorem spells_text {d : Decimal} (plain : 'E' ∉ d.text) :
    Segment.Class.number.Spells d.text ∧ literalValue d.text = d.value := by
  have written := d.written_text
  generalize d.text = text at written plain
  cases written with
  | plain p _ value => exact ⟨p.spells, p.literalValue_text.trans value⟩
  | scientific p => simp at plain

/-- No text ends in a point and a zero, and no mantissa does. -/
theorem not_pointZero_suffix_text {d : Decimal} (short : 10 ∣ d.digits → d = ⟨0, 0⟩) :
    ¬['.', '0'] <:+ d.text ∧ ¬['.', '0'] <:+ d.text.takeWhile (· != 'E') := by
  have written := d.written_text
  generalize d.text = text at written
  cases written with
  | plain p _ _ last =>
    have tidy := p.not_pointZero_suffix fun zero => by
      obtain ⟨multiple, negative⟩ := last zero
      rw [short multiple] at negative
      exact absurd negative (by decide)
    rw [List.takeWhile_eq_self_iff.mpr p.ne_exponent]
    exact ⟨tidy, tidy⟩
  | scientific p outside _ last =>
    have tidy := p.not_pointZero_suffix fun zero => by
      rw [short (last zero)] at outside
      exact outside (by decide)
    rw [List.takeWhile_append_of_pos p.ne_exponent]
    refine ⟨fun suffix => ?_, by simpa using tidy⟩
    -- both ends are as long as the exponent allows, so the point would be one of its digits
    obtain ⟨-, length, all⟩ := exponentDigits_spec d.leading.natAbs
    have ending : exponentDigits d.leading.natAbs <:+ p.text ++ 'E' ::
        (if d.leading < 0 then '-' else '+') :: exponentDigits d.leading.natAbs :=
      ⟨p.text ++ ['E', if d.leading < 0 then '-' else '+'], by simp⟩
    have inside := List.suffix_of_suffix_length_le suffix ending length
    exact absurd (all '.' (inside.subset List.mem_cons_self)) (by decide)

/-- The place of the first digit is the exponent of the value. -/
theorem log_value {d : Decimal} (short : d.digits = 0 → d = ⟨0, 0⟩) :
    Int.log 10 d.value = d.leading := by
  by_cases zero : d.digits = 0
  · rw [short zero]
    simp [value]
    decide
  · have low := d.le_value zero
    have positive : 0 < d.value := lt_of_lt_of_le (by positivity) low
    have atLeast := (Int.zpow_le_iff_le_log (b := 10) (by decide) positive).mp low
    have atMost := (Int.lt_zpow_iff_log_lt (b := 10) (by decide) positive).mp d.value_lt
    rw [leading_eq]
    omega

end Decimal

end Lox.Number
