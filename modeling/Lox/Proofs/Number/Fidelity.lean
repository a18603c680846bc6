import Lox.Proofs.Number.Reading
import Lox.Proofs.Token.Scanning

set_option autoImplicit false

/-!
# Texts identify numbers

The text of a number, read exactly, is rounded to that number again, so that no two numbers have one
text. A text without sign and exponent is the literal of its number too.
-/

namespace Lox

/-- A text that is a number as a whole is one token. -/
theorem Token.tokenize_of_spells {text : String}
    (spells : Segment.Class.number.Spells text.toList) :
    ∃ span finish, Token.tokenize text =
      .ok [⟨.number (Number.ofLiteral text.toList), text, span⟩, Token.endAt finish] := by
  have longest : Segment.Class.number.Longest text.toList (text.toList ++ []) :=
    ⟨⟨spells, List.prefix_append _ _, nofun⟩,
      fun other found => by simpa using found.front.length_le⟩
  have lexes := Lexes.token (p := {}) (.number longest) .number .finish
  rw [List.append_nil, String.ofList_toList] at lexes
  exact ⟨_, _, tokenize_eq_ok_iff_scan.mpr (scan_eq_iff.mpr lexes)⟩

namespace Number

/-! ## Patterns of numbers -/

/-- Patterns other than those that stand for no number are kept. -/
theorem toBits_float_ofBits {bits : UInt64} (number : bits.toNat % 2 ^ 63 ≤ infinityBits) :
    (Float.ofBits bits).toBits = bits := by
  have valid : Float.Model.Format.binary64.Valid bits.toBitVec := by
    refine ⟨fun exponent mantissa => absurd ?_ mantissa⟩
    have exponentNat := congrArg BitVec.toNat exponent
    apply BitVec.eq_of_toNat_eq
    simp only [Float.Model.UnpackedFloat.unpackExponent, Float.Model.UnpackedFloat.unpackMantissa,
      BitVec.toNat_cast, BitVec.extractLsb_toNat, Nat.shiftRight_eq_div_pow,
      UInt64.toNat_toBitVec] at exponentNat ⊢
    change bits.toNat / 2 ^ 52 % 2 ^ 11 = 2047 at exponentNat
    change bits.toNat / 2 ^ 0 % 2 ^ 52 = 0
    change bits.toNat % 2 ^ 63 ≤ 2047 * 2 ^ 52 at number
    omega
  exact congrArg Float.toBits (Float.ofBits_toBits ⟨⟨bits, valid⟩⟩)

section

variable {bits : Nat}

theorem textOfBits_of_finite (finite : bits % 2 ^ 63 < infinityBits) : (textOfBits bits).toList =
    (if bits < 2 ^ 63 then [] else ['-']) ++ (Magnitude.ofBits (bits % 2 ^ 63)).shortest.text := by
  simp only [textOfBits, Nat.pow_eq]
  rw [if_neg finite.not_gt, if_neg finite.ne, String.toList_append, String.toList_ofList]
  split <;> rfl

theorem textOfBits_of_infinite (infinite : bits % 2 ^ 63 = infinityBits) :
    textOfBits bits = if bits < 2 ^ 63 then "inf" else "-inf" := by
  simp only [textOfBits, Nat.pow_eq]
  rw [if_neg infinite.le.not_gt, if_pos infinite]
  split <;> rfl

end

theorem exactValue?_of_unsigned {text : List Char} {q : ℚ} (read : unsignedValue? text = some q) :
    exactValue? text = some (false, q) := by
  cases text with
  | nil => cases read
  | cons c rest =>
    have unsigned : c ≠ '-' := by
      rintro rfl
      simp [unsignedValue?, isLiteral] at read
    rw [exactValue?, if_neg unsigned, read]
    rfl

/-! ## Texts behind a sign -/

theorem hasExponent_minus {text : List Char} : HasExponent ('-' :: text) ↔ HasExponent text := by
  constructor
  · rintro ⟨mantissa, sign, digits, shape, rest⟩
    cases mantissa with
    | nil => cases shape
    | cons c mantissa => exact ⟨mantissa, sign, digits, (List.cons.inj shape).2, rest⟩
  · rintro ⟨mantissa, sign, digits, rfl, rest⟩
    exact ⟨'-' :: mantissa, sign, digits, rfl, rest⟩

theorem pointZero_suffix_minus {text : List Char} :
    ['.', '0'] <:+ '-' :: text ↔ ['.', '0'] <:+ text := by
  rw [List.suffix_cons_iff, or_iff_right (by simp)]

/-! ## Faithful texts -/

structure Faithful (bits : UInt64) (text : String) (d : Decimal) : Prop where
  read : exactValue? text.toList = some (decide (2 ^ 63 ≤ bits.toNat), d.value)
  rounded : Nearest d.value (bits.toNat % 2 ^ 63)
  shortest : ∀ other : Decimal, Nearest other.value (bits.toNat % 2 ^ 63) → d.length ≤ other.length
  tidy : ¬['.', '0'] <:+ text.toList ∧ ¬['.', '0'] <:+ text.toList.takeWhile (· != 'E')
  exponent : HasExponent text.toList ↔ Int.log 10 d.value ≤ -5 ∨ 15 ≤ Int.log 10 d.value
  form : 'E' ∈ text.toList → HasExponent text.toList
  literal : bits.toNat < 2 ^ 63 → 'E' ∉ text.toList → ∃ x span finish,
    Token.tokenize text = .ok [⟨.number x, text, span⟩, Token.endAt finish] ∧ x.toBits = bits

/-- A decimal of which no digit can be left out. -/
theorem shortest_trimmed {bits : Nat} (finite : bits < infinityBits)
    (multiple : 10 ∣ (Magnitude.ofBits bits).shortest.digits) :
    (Magnitude.ofBits bits).shortest = ⟨0, 0⟩ := by
  rcases Nat.eq_zero_or_pos bits with rfl | positive
  · exact shortest_zero
  · exact absurd multiple (not_dvd_digits_shortest positive.ne' finite)

theorem text_of_finite {bits : UInt64} (finite : bits.toNat % 2 ^ 63 < infinityBits) :
    (text (.ofBits bits)).toList = (if bits.toNat < 2 ^ 63 then [] else ['-']) ++
      (Magnitude.ofBits (bits.toNat % 2 ^ 63)).shortest.text := by
  rw [text, toBits_float_ofBits finite.le, textOfBits_of_finite finite]

theorem faithful_text {bits : UInt64} (finite : bits.toNat % 2 ^ 63 < infinityBits) :
    Faithful bits (text (.ofBits bits)) (Magnitude.ofBits (bits.toNat % 2 ^ 63)).shortest := by
  have written := text_of_finite finite
  have rounded := nearest_shortest finite
  have fewest := fun d => length_shortest_le finite (d := d)
  have trimmed := shortest_trimmed finite
  generalize (Magnitude.ofBits (bits.toNat % 2 ^ 63)).shortest = d at written rounded fewest trimmed
  have read := d.unsignedValue?_text
  have log := d.log_value fun zero => trimmed (zero ▸ Nat.dvd_zero 10)
  have tidy := d.not_pointZero_suffix_text trimmed
  obtain ⟨exponent, form⟩ := d.hasExponent_text_iff
  rcases Nat.lt_or_ge bits.toNat (2 ^ 63) with positive | negative
  · rw [if_pos positive, List.nil_append] at written
    refine ⟨?_, rounded, fewest, by rwa [written], by rwa [written, log], by rwa [written],
      fun _ plain => ?_⟩
    · rw [written, exactValue?_of_unsigned read, decide_eq_false positive.not_ge]
    · rw [written] at plain
      obtain ⟨spells, value⟩ := d.spells_text plain
      rw [← written] at spells value
      obtain ⟨span, finish, scanned⟩ := Token.tokenize_of_spells spells
      refine ⟨_, span, finish, scanned, ?_⟩
      rw [ofLiteral_eq (value ▸ rounded), Nat.mod_eq_of_lt positive, UInt64.ofNat_toNat,
        toBits_float_ofBits finite.le]
  · rw [if_neg negative.not_gt, List.singleton_append] at written
    refine ⟨?_, rounded, fewest, ?_, ?_, ?_, fun positive => absurd positive negative.not_gt⟩
    · rw [written, exactValue?, if_pos rfl, read, decide_eq_true negative]
      rfl
    · rw [written, List.takeWhile_cons_of_pos (by decide), pointZero_suffix_minus,
        pointZero_suffix_minus]
      exact tidy
    · rw [written, hasExponent_minus, log]
      exact exponent
    · rw [written, hasExponent_minus]
      simpa using form

/-- No finite number has the text of an infinity. -/
theorem exactValue?_of_infinite {bits : UInt64} (infinite : bits.toNat % 2 ^ 63 = infinityBits) :
    text (.ofBits bits) = (if bits.toNat < 2 ^ 63 then "inf" else "-inf") ∧
      exactValue? (text (.ofBits bits)).toList = none := by
  rw [text, toBits_float_ofBits infinite.le, textOfBits_of_infinite infinite]
  refine ⟨rfl, ?_⟩
  split <;> decide

/-- Texts of numbers are faithful: no two numbers have one text, and the text of a finite number
tells its decimal. -/
theorem text_faithful :
    (∀ a b : UInt64, a.toNat % 2 ^ 63 ≤ infinityBits → b.toNat % 2 ^ 63 ≤ infinityBits →
      text (.ofBits a) = text (.ofBits b) → a = b) ∧
    ∀ bits : UInt64, bits.toNat % 2 ^ 63 < infinityBits →
      ∃ d : Decimal, Faithful bits (text (.ofBits bits)) d := by
  refine ⟨fun a b number number' same => ?_, fun bits finite => ⟨_, faithful_text finite⟩⟩
  have bound := a.toNat_lt
  have bound' := b.toNat_lt
  have equal (signs : 2 ^ 63 ≤ a.toNat ↔ 2 ^ 63 ≤ b.toNat)
    (magnitudes : a.toNat % 2 ^ 63 = b.toNat % 2 ^ 63) :
      a = b := UInt64.toNat_inj.mp (by omega)
  rcases number.lt_or_eq with finite | infinite <;> rcases number'.lt_or_eq with finite' | infinite'
  · have one := faithful_text finite
    have other := faithful_text finite'
    have read := one.read
    rw [same, other.read] at read
    obtain ⟨signs, values⟩ := Prod.mk.inj (Option.some.inj read)
    have magnitudes := (values ▸ one.rounded).unique other.rounded
    exact equal (decide_eq_decide.mp signs).symm magnitudes
  · have read := (faithful_text finite).read
    rw [same, (exactValue?_of_infinite infinite').2] at read
    cases read
  · have read := (faithful_text finite').read
    rw [← same, (exactValue?_of_infinite infinite).2] at read
    cases read
  · rw [(exactValue?_of_infinite infinite).1, (exactValue?_of_infinite infinite').1] at same
    refine equal ?_ (infinite.trans infinite'.symm)
    split at same <;> split at same
    · omega
    · exact absurd same (by decide)
    · exact absurd same (by decide)
    · omega

/-- At `10 ^ 15` the exponent form starts; the largest number in front of it is a literal of 16
digits. -/
theorem text_faithful_at_threshold :
    (0x430C6BF526340000 : UInt64).toNat % 2 ^ 63 < infinityBits ∧
      text (.ofBits 0x430C6BF526340000) = "1E+15" ∧
      (∃ d : Decimal, Faithful 0x430C6BF526340000 (text (.ofBits 0x430C6BF526340000)) d) ∧
      text (.ofBits 0x430C6BF52633FFFF) = "999999999999999.9" ∧
      ∃ d : Decimal, Faithful 0x430C6BF52633FFFF (text (.ofBits 0x430C6BF52633FFFF)) d :=
  ⟨by decide, by decide +kernel, text_faithful.2 _ (by decide), by decide +kernel,
    text_faithful.2 _ (by decide)⟩

end Number

end Lox
