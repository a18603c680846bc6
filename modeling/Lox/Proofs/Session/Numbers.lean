import Lox.Proofs.Grammar.Counting
import Lox.Proofs.Grammar.Numbering
import Lox.Proofs.Session.Moments

set_option autoImplicit false

/-!
# Numbers of expressions in a session

No number is handed out twice in a session, whatever becomes of the texts that are run in it. What
is on record about the expressions of a text is not changed by the texts behind it. As long as the
numbers fit into words of 32 bits, they can be told apart by their words too.
-/

namespace Lox

/-- The program that a text stands for, if it can be read. It may still be refused for its
scopes. -/
def Program.read? (source : String) (firstId : ExprId) : Option Program :=
  match Token.tokenize source with
  | .ok tokens => (Program.parse tokens firstId).result.toOption
  | .error _ => none

theorem Program.parse_of_read? {source : String} {firstId : ExprId} {program : Program}
    (read : Program.read? source firstId = some program) :
    ∃ tokens, Token.tokenize source = .ok tokens ∧
      (Program.parse tokens firstId).result = .ok program := by
  unfold Program.read? at read
  cases scanned : Token.tokenize source with
  | error fault =>
    rw [scanned] at read
    cases read
  | ok tokens =>
    rw [scanned] at read
    exact ⟨tokens, rfl, eq_ok_of_toOption read⟩

theorem Session.nextId_run (fuel : Nat) (source : String) (s : Session) :
    (s.run fuel source).2.nextId = (Program.check source s.nextId).2 := by
  rcases checked : Program.check source s.nextId with ⟨diagnostics | ⟨program, depths⟩, nextId⟩
  · rw [run_of_refused checked]
  · rw [run_of_check checked]
    split <;> rfl

namespace History

/-- The numbers that are handed out while some texts are run, run by run. -/
def numbers : List (Nat × String) → History → List ExprId
  | [], _ => []
  | (fuel, source) :: rest, h =>
    let next := h.run fuel source
    List.range' h.session.nextId (next.session.nextId - h.session.nextId) ++ numbers rest next

theorem nextId_le_run (fuel : Nat) (source : String) (h : History) :
    h.session.nextId ≤ (h.run fuel source).session.nextId := by
  rw [run, Session.nextId_run]
  exact Program.le_nextId_check source h.session.nextId

theorem nextId_le_runAll (runs : List (Nat × String)) (h : History) :
    h.session.nextId ≤ (h.runAll runs).session.nextId := by
  induction runs generalizing h with
  | nil => exact le_rfl
  | cons run rest inductionHypothesis =>
    exact (nextId_le_run run.1 run.2 h).trans (inductionHypothesis (h.run run.1 run.2))

/-- The numbers that are handed out follow each other without a gap. -/
theorem numbers_eq (runs : List (Nat × String)) (h : History) :
    numbers runs h =
      List.range' h.session.nextId ((h.runAll runs).session.nextId - h.session.nextId) := by
  induction runs generalizing h with
  | nil => simp [numbers, runAll]
  | cons run rest inductionHypothesis =>
    have first := nextId_le_run run.1 run.2 h
    have behind := nextId_le_runAll rest (h.run run.1 run.2)
    have all : (h.runAll (run :: rest)) = (h.run run.1 run.2).runAll rest := rfl
    obtain ⟨count, here⟩ := Nat.exists_eq_add_of_le first
    obtain ⟨further, there⟩ := Nat.exists_eq_add_of_le behind
    rw [numbers, inductionHypothesis, all, there, here, Nat.add_sub_cancel_left,
      Nat.add_sub_cancel_left, Nat.add_assoc, Nat.add_sub_cancel_left, ← List.range'_append_1]

theorem nextId_of_check {runs : List (Nat × String)} {h : History} {source : String}
    {nextId : ExprId} {outcome : Except (List Diagnostic) (Program × Depths)}
    (checked : Program.check source (h.runAll runs).session.nextId = (outcome, nextId))
    (fuel : Nat) :
    (h.runAll (runs ++ [(fuel, source)])).session.nextId = nextId := by
  have last : h.runAll (runs ++ [(fuel, source)]) = (h.runAll runs).run fuel source :=
    List.foldl_append
  rw [last, run, Session.nextId_run, checked]

/-- While numbers fit into words of 32 bits, no two of those that are handed out have the same
word. -/
theorem words_nodup {runs : List (Nat × String)} {h : History}
    (inRange : (h.runAll runs).session.nextId ≤ UInt32.size) :
    ((h.numbers runs).map UInt32.ofNat).Nodup := by
  have bounded : ∀ id ∈ h.numbers runs, id < UInt32.size := by
    intro id member
    rw [numbers_eq, List.mem_range'_1] at member
    rw [Nat.add_sub_cancel' (nextId_le_runAll runs h)] at member
    exact member.2.trans_le inRange
  have distinct : (h.numbers runs).Nodup := by
    rw [numbers_eq]
    exact List.nodup_range'
  refine distinct.map_on fun id member other member' same => ?_
  have values := congrArg UInt32.toNat same
  rwa [UInt32.toNat_ofNat_of_lt' (bounded id member),
    UInt32.toNat_ofNat_of_lt' (bounded other member')]
    at values

end History

end Lox
