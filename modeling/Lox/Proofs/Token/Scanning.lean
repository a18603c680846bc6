import Lox.Proofs.Token.Places

set_option autoImplicit false

/-!
# Scanning with and without faults

A source is scanned in two ways: up to its end, with every fault in its place, or up to its first
fault. Each item but the last takes a character at least, so there are not many of them. The last
one is the end mark, and there is no other. Where no item is a fault both ways give the same tokens,
and otherwise the second one gives the first of the faults. That a number is no literal is never
among them, since a number is cut off where it would no longer be one.
-/

namespace Lox.Token

variable {p : Position} {text : List Char} {items : List (Except ScanError Token)}

theorem Lexes.length_le (lexes : Lexes p text items) : items.length ≤ text.length + 1 := by
  induction lexes with
  | finish => exact Nat.le_refl 1
  | trivia _ _ _ inductionHypothesis =>
    rw [List.length_append]
    omega
  | token begins _ _ inductionHypothesis | unexpected begins _ inductionHypothesis =>
    have taken := List.length_pos_iff.mpr begins.ne_nil
    rw [List.length_cons, List.length_append]
    omega
  | unclosedString begins | unclosedComment begins =>
    have taken := List.length_pos_iff.mpr begins.ne_nil
    exact Nat.succ_le_succ taken

/-- The end mark comes last, and only there. -/
theorem Lexes.ends (lexes : Lexes p text items) :
    ∃ front, items = front ++ [.ok (endAt (p.after text))] ∧
    ∀ t, .ok t ∈ front → t.kind ≠ .endOfInput := by
  induction lexes with
  | finish => exact ⟨[], rfl, nofun⟩
  | trivia _ _ _ inductionHypothesis =>
    rw [Position.after_append]
    exact inductionHypothesis
  | token _ means _ inductionHypothesis =>
    obtain ⟨front, rfl, proper⟩ := inductionHypothesis
    rw [Position.after_append]
    refine ⟨_ :: front, rfl, fun t member => ?_⟩
    rcases List.mem_cons.mp member with same | member
    · cases Except.ok.inj same
      exact means.ne_endOfInput
    · exact proper t member
  | unexpected _ _ inductionHypothesis =>
    obtain ⟨front, rfl, proper⟩ := inductionHypothesis
    refine ⟨_ :: front, rfl, fun t member => ?_⟩
    rcases List.mem_cons.mp member with same | member
    · cases same
    · exact proper t member
  | unclosedString | unclosedComment =>
    refine ⟨[_], rfl, fun t member => ?_⟩
    cases List.mem_singleton.mp member

/-- Numbers are cut off so that they are literals. -/
theorem Lexes.cause_ne_invalidNumber (lexes : Lexes p text items) {e : ScanError}
    (member : .error e ∈ items) (literal : String) : e.cause ≠ .invalidNumber literal := by
  induction lexes with
  | finish => cases List.mem_singleton.mp member
  | trivia _ _ _ inductionHypothesis => exact inductionHypothesis member
  | token _ _ _ inductionHypothesis =>
    rcases List.mem_cons.mp member with same | member
    · cases same
    · exact inductionHypothesis member
  | unexpected _ _ inductionHypothesis =>
    rcases List.mem_cons.mp member with same | member
    · cases same
      nofun
    · exact inductionHypothesis member
  | unclosedString | unclosedComment =>
    rcases List.mem_cons.mp member with same | member
    · cases same
      nofun
    · cases List.mem_singleton.mp member

variable {source : String} {tokens : List Token} {e : ScanError}

theorem tokenize_eq_ok_iff_scan : tokenize source = .ok tokens ↔ scan source = tokens.map .ok := by
  refine ⟨itemsFrom_of_tokensFrom, fun items => ?_⟩
  cases scanned : tokenize source with
  | ok others =>
    have same : others.map Except.ok = tokens.map Except.ok :=
      (itemsFrom_of_tokensFrom scanned).symm.trans items
    rw [List.map_injective_iff.mpr (fun _ _ => Except.ok.inj) same]
  | error e =>
    have member : .error e ∈ scan source := mem_itemsFrom_of_tokensFrom scanned
    rw [items] at member
    obtain ⟨t, -, same⟩ := List.mem_map.mp member
    cases same

theorem find?_fault (tokens : List Token) (e : ScanError) (behind : List (Except ScanError Token)) :
    (tokens.map Except.ok ++ Except.error e :: behind).find? (!·.isOk) = some (Except.error e) := by
  induction tokens with
  | nil => rfl
  | cons t tokens inductionHypothesis => exact inductionHypothesis

theorem tokenize_eq_error_iff_scan : tokenize source = .error e ↔
    ∃ (tokens : List Token) (behind : _), scan source = tokens.map .ok ++ .error e :: behind := by
  refine ⟨itemsFrom_of_tokensFrom_eq_error, fun ⟨tokens, behind, items⟩ => ?_⟩
  cases scanned : tokenize source with
  | ok others =>
    have member : .error e ∈ scan source := by
      rw [items]
      exact List.mem_append_right _ List.mem_cons_self
    rw [tokenize_eq_ok_iff_scan.mp scanned] at member
    obtain ⟨t, -, same⟩ := List.mem_map.mp member
    cases same
  | error e' =>
    -- both are the first fault among the items
    obtain ⟨tokens', behind', items'⟩ := itemsFrom_of_tokensFrom_eq_error scanned
    have here := find?_fault tokens e behind
    have there := find?_fault tokens' e' behind'
    rw [← items] at here
    rw [← items'] at there
    cases here.symm.trans there
    rfl

/-- Scanning a source comes to an end after not more items than there are characters, and the end
mark, which is the last item and the only one of its kind. The tokens without faults are these items
if none of them is a fault, and otherwise the first fault is reported instead. No number is found
not to be one. -/
theorem scan_and_tokenize_agree (source : String) :
    (scan source).length ≤ source.length + 1 ∧
    (∃ front, scan source = front ++ [.ok (endAt (({} : Position).after source.toList))] ∧
      ∀ t, .ok t ∈ front → t.kind ≠ .endOfInput) ∧
    (∀ tokens, tokenize source = .ok tokens ↔ scan source = tokens.map .ok) ∧
    ((∃ tokens, tokenize source = .ok tokens) ↔ ∀ e, .error e ∉ scan source) ∧
    (∀ e, tokenize source = .error e ↔
      ∃ (tokens : List Token) (behind : _), scan source = tokens.map .ok ++ .error e :: behind) ∧
    ∀ e, .error e ∈ scan source → ∀ literal, e.cause ≠ .invalidNumber literal := by
  have lexes : Lexes {} source.toList (scan source) := scan_eq_iff.mp rfl
  have length := lexes.length_le
  rw [String.length_toList] at length
  refine ⟨length, lexes.ends, fun _ => tokenize_eq_ok_iff_scan, ?_,
    fun _ => tokenize_eq_error_iff_scan,
    fun _ member => lexes.cause_ne_invalidNumber member⟩
  cases scanned : tokenize source with
  | ok tokens =>
    rw [tokenize_eq_ok_iff_scan.mp scanned]
    simp
  | error e =>
    have member : .error e ∈ scan source := mem_itemsFrom_of_tokensFrom scanned
    exact ⟨nofun, fun none => absurd member (none e)⟩

end Lox.Token
