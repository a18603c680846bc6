set_option autoImplicit false

/-!
# Ranges of characters

Sets of characters given by ranges of code points, in increasing order and without overlap.
-/

namespace Lox.Text

/-- Pairs of a first and a last code point. -/
abbrev Ranges := List (Nat × Nat)

namespace Ranges

/-- Whether a code point lies in one of the ranges. The search ends at the first range behind it. -/
def contains : Ranges → Nat → Bool
  | [], _ => false
  | (low, high) :: rest, code => low ≤ code && (code ≤ high || contains rest code)

/-- Each range is nonempty and ends before the next one starts. -/
def Increasing : Ranges → Prop
  | [] => True
  | [(low, high)] => low ≤ high
  | (low, high) :: (low', high') :: rest =>
    low ≤ high ∧ high < low' ∧ Increasing ((low', high') :: rest)

theorem Increasing.tail {range : Nat × Nat} {rest : Ranges}
    (increasing : Increasing (range :: rest)) : Increasing rest := by
  cases rest with
  | nil => trivial
  | cons next rest => exact increasing.2.2

theorem Increasing.low_le_of_mem {range : Nat × Nat} {rest : Ranges}
    (increasing : Increasing (range :: rest)) :
    ∀ other ∈ rest, range.1 ≤ other.1 := by
  induction rest generalizing range with
  | nil => simp
  | cons next rest inductionHypothesis =>
    have ordered : range.1 ≤ range.2 ∧ range.2 < next.1 := ⟨increasing.1, increasing.2.1⟩
    intro other member
    rcases List.mem_cons.mp member with rfl | member
    · omega
    · have := inductionHypothesis increasing.tail other member
      omega

/-- On increasing ranges the search that stops early finds the same as a full one. -/
theorem contains_iff {ranges : Ranges} (increasing : Increasing ranges) (code : Nat) :
    ranges.contains code = true ↔ ∃ range ∈ ranges, range.1 ≤ code ∧ code ≤ range.2 := by
  induction ranges with
  | nil => simp [contains]
  | cons range rest inductionHypothesis =>
    have later := increasing.low_le_of_mem
    simp only [contains, Bool.and_eq_true, Bool.or_eq_true, decide_eq_true_eq,
      inductionHypothesis increasing.tail, List.mem_cons, exists_eq_or_imp]
    constructor
    · rintro ⟨low, high | found⟩
      · exact .inl ⟨low, high⟩
      · exact .inr found
    · rintro (⟨low, high⟩ | ⟨other, member, low, high⟩)
      · exact ⟨low, .inl high⟩
      · exact ⟨Nat.le_trans (later other member) low, .inr ⟨other, member, low, high⟩⟩

end Ranges

end Lox.Text
