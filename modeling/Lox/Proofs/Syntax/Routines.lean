import Lox.Proofs.Syntax.Uses

set_option autoImplicit false

/-!
# Routines and loops

The functions and methods that a statement declares, and whether there is a loop in a statement. The
body of a routine is smaller than the statement that the routine stands in, and there is no loop in
it unless there is one in that statement.
-/

namespace Lox.Stmt

mutual

/-- The functions and methods that stand in a statement, but not inside of each other. -/
def routines : Stmt → List (Routine (List Stmt))
  | .block body => routinesAll body
  | .if _ yes none => yes.routines
  | .if _ yes (some no) => yes.routines ++ no.routines
  | .while _ body => body.routines
  | .fun routine => [routine]
  | .class _ _ methods => methods
  | .expr _ | .print _ | .var .. | .return .. => []

def routinesAll : List Stmt → List (Routine (List Stmt))
  | [] => []
  | s :: rest => s.routines ++ routinesAll rest

end

mutual

/-- Whether there is a loop in a statement, also in the body of a routine. -/
def loops : Stmt → Bool
  | .block body => loopsAny body
  | .if _ yes none => yes.loops
  | .if _ yes (some no) => yes.loops || no.loops
  | .while .. => true
  | .fun routine => loopsRoutine routine
  | .class _ _ methods => loopsMethods methods
  | .expr _ | .print _ | .var .. | .return .. => false

def loopsAny : List Stmt → Bool
  | [] => false
  | s :: rest => s.loops || loopsAny rest

def loopsRoutine : Routine (List Stmt) → Bool
  | ⟨_, _, body⟩ => loopsAny body

def loopsMethods : List (Routine (List Stmt)) → Bool
  | [] => false
  | method :: rest => loopsRoutine method || loopsMethods rest

end

theorem loopsRoutine_eq (routine : Routine (List Stmt)) :
    loopsRoutine routine = loopsAny routine.body := by
  cases routine
  rw [loopsRoutine]

theorem loopsMethods_eq_false_iff (methods : List (Routine (List Stmt))) :
    loopsMethods methods = false ↔ ∀ method ∈ methods, loopsAny method.body = false := by
  induction methods with
  | nil => simp [loopsMethods]
  | cons method rest inductionHypothesis =>
    rw [loopsMethods, Bool.or_eq_false_iff, inductionHypothesis, loopsRoutine_eq,
      List.forall_mem_cons]

/-- A routine with a body of at most the given size, in which there is no loop. -/
def Loopless (size : Nat) (routine : Routine (List Stmt)) : Prop :=
  loopsAny routine.body = false ∧ sizeOf routine.body ≤ size

theorem Loopless.mono {size size' : Nat} (le : size ≤ size') {routine : Routine (List Stmt)}
    (loopless : Loopless size routine) : Loopless size' routine :=
  ⟨loopless.1, loopless.2.trans le⟩

theorem sizeOf_body_lt (routine : Routine (List Stmt)) : sizeOf routine.body < sizeOf routine := by
  cases routine
  simp only [Routine.mk.sizeOf_spec]
  omega

mutual

theorem loopless_of_mem_routines {routine : Routine (List Stmt)} : ∀ s : Stmt, s.loops = false →
    routine ∈ s.routines → Loopless (sizeOf s) routine
  | .block body, loopless, member => by
    rw [loops] at loopless
    rw [routines] at member
    refine (loopless_of_mem_routinesAll body loopless member).mono ?_
    simp only [Stmt.block.sizeOf_spec]
    omega
  | .if condition yes none, loopless, member => by
    rw [loops] at loopless
    rw [routines] at member
    refine (loopless_of_mem_routines yes loopless member).mono ?_
    simp only [Stmt.if.sizeOf_spec]
    omega
  | .if condition yes (some no), loopless, member => by
    rw [loops, Bool.or_eq_false_iff] at loopless
    rw [routines, List.mem_append] at member
    rcases member with member | member
    · refine (loopless_of_mem_routines yes loopless.1 member).mono ?_
      simp only [Stmt.if.sizeOf_spec]
      omega
    · refine (loopless_of_mem_routines no loopless.2 member).mono ?_
      simp only [Stmt.if.sizeOf_spec, Option.some.sizeOf_spec]
      omega
  | .fun declared, loopless, member => by
    rw [loops, loopsRoutine_eq] at loopless
    rw [routines, List.mem_singleton] at member
    cases member
    have smaller := sizeOf_body_lt routine
    refine ⟨loopless, ?_⟩
    simp only [Stmt.fun.sizeOf_spec]
    omega
  | .class name superclass methods, loopless, member => by
    rw [loops, loopsMethods_eq_false_iff] at loopless
    rw [routines] at member
    have smaller := sizeOf_body_lt routine
    have inside := List.sizeOf_lt_of_mem member
    refine ⟨loopless routine member, ?_⟩
    simp only [Stmt.class.sizeOf_spec]
    omega

theorem loopless_of_mem_routinesAll {routine : Routine (List Stmt)} : ∀ body : List Stmt,
    loopsAny body = false → routine ∈ routinesAll body → Loopless (sizeOf body) routine
  | s :: rest, loopless, member => by
    rw [loopsAny, Bool.or_eq_false_iff] at loopless
    rw [routinesAll, List.mem_append] at member
    rcases member with member | member
    · refine (loopless_of_mem_routines s loopless.1 member).mono ?_
      simp only [List.cons.sizeOf_spec]
      omega
    · refine (loopless_of_mem_routinesAll rest loopless.2 member).mono ?_
      simp only [List.cons.sizeOf_spec]
      omega

end

/-- Routines without loops, up to a size, have none but such routines in their bodies. -/
theorem Loopless.inner {size : Nat} {routine inner : Routine (List Stmt)}
    (loopless : Loopless size routine) (member : inner ∈ routinesAll routine.body) :
    Loopless size inner :=
  (loopless_of_mem_routinesAll routine.body loopless.1 member).mono loopless.2

end Lox.Stmt
