import Lox.Proofs.Grammar.Recasting
import Lox.Proofs.Syntax.Numbering

set_option autoImplicit false

/-!
# Reading with other numbers

Two readers that are given the same tokens and different first numbers find the same faults, and
programs that differ in their numbers only. The numbers that both have still to hand out stay as far
apart as they were.
-/

namespace Lox

/-- The same tokens, with numbers that start further on. -/
def Recast.numbered (shift : Nat) : Recast where
  token := id
  span := id
  shift := shift
  kind _ := rfl
  place _ := rfl

/-- Numbers from `firstId` on are those from zero on, moved. -/
theorem Program.parse_eq_recast (tokens : List Token) (firstId : ExprId) :
    Program.parse tokens firstId = (Program.parse tokens 0).recast (.numbered firstId) := by
  have moved := Program.parse_recast (.numbered firstId) tokens 0 (.inr rfl)
  rwa [show (Recast.numbered firstId).token = id from rfl, List.map_id, Nat.zero_add] at moved

structure Parsed.Similar (id : ExprId → ExprId → Prop) (parsed parsed' : Parsed) : Prop where
  numbers : ∀ k, id (parsed.nextId + k) (parsed'.nextId + k)
  error : ∀ {errors}, parsed.result = .error errors → parsed'.result = .error errors
  ok : ∀ {program}, parsed.result = .ok program → ∃ program', parsed'.result = .ok program' ∧
    Stmt.AllSimilar (.numbering id) [] program program'

theorem Program.parse_similar {id : ExprId → ExprId → Prop} (tokens : List Token)
    {firstId firstId' : ExprId} (numbers : ∀ k, id (firstId + k) (firstId' + k)) :
    (Program.parse tokens firstId).Similar id (Program.parse tokens firstId') := by
  have both (i : ExprId) : id (i + firstId) (i + firstId') := by
    rw [Nat.add_comm i, Nat.add_comm i]
    exact numbers i
  rw [parse_eq_recast tokens firstId, parse_eq_recast tokens firstId']
  obtain ⟨result, nextId⟩ := Program.parse tokens 0
  refine ⟨fun k => ?_, fun {errors} found => ?_, fun {program} found => ?_⟩
  · have later := both (nextId + k)
    rwa [Nat.add_right_comm, Nat.add_right_comm nextId k] at later
  · cases result with
    | ok program => cases found
    | error errors => exact found
  · cases result with
    | ok program =>
      cases found
      exact ⟨_, rfl, Stmt.allSimilar_relabel both program⟩
    | error errors => cases found

end Lox
