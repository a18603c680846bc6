import Lox.Proofs.Evaluation.Termination
import Lox.Proofs.Session.Joining

set_option autoImplicit false

/-!
# Sessions without loops

A session in which no text has a loop comes to the end of each of them, with or without a fault.
What one text can call, through whatever is left from the texts before it, has no loop either, and
only so many calls are executed at a time.
-/

namespace Lox

/-! ## Texts without loops -/

namespace Stmt

variable {c : Correspondence}

mutual

theorem Similar.loops_eq :
    ∀ {marks : List Bool} {s s' : Stmt}, Similar c marks s s' → s'.loops = s.loops
  | _, _, _, .expr _ | _, _, _, .print _ | _, _, _, .var _ _ | _, _, _, .return _
  | _, _, _, .while _ _ => by simp only [loops]
  | _, _, _, .block _ body => by rw [loops, loops, body.loopsAny_eq]
  | _, _, _, .if _ yes => by rw [loops, loops, yes.loops_eq]
  | _, _, _, .ifElse _ yes no => by rw [loops, loops, yes.loops_eq, no.loops_eq]
  | _, _, _, .fun _ routine => by rw [loops, loops, routine.loopsRoutine_eq]
  | _, _, _, .class _ methods
  | _, _, _, .subclass _ _ _ methods => by rw [loops, loops, methods.loopsMethods_eq]

theorem AllSimilar.loopsAny_eq : ∀ {marks : List Bool} {body body' : List Stmt},
    AllSimilar c marks body body' → loopsAny body' = loopsAny body
  | _, _, _, .nil => rfl
  | _, _, _, .cons first rest => by rw [loopsAny, loopsAny, first.loops_eq, rest.loopsAny_eq]

theorem RoutineSimilar.loopsRoutine_eq :
    ∀ {marks : List Bool} {routine routine' : Routine (List Stmt)},
    RoutineSimilar c marks routine routine' → loopsRoutine routine' = loopsRoutine routine
  | _, _, _, .mk _ _ body => by rw [loopsRoutine, loopsRoutine, body.loopsAny_eq]

theorem MethodsSimilar.loopsMethods_eq : ∀ {marks : List Bool}
    {methods methods' : List (Routine (List Stmt))},
    MethodsSimilar c marks methods methods' → loopsMethods methods' = loopsMethods methods
  | _, _, _, .nil => rfl
  | _, _, _, .cons first rest => by
    rw [loopsMethods, loopsMethods, first.loopsRoutine_eq, rest.loopsMethods_eq]

end

end Stmt

namespace Program

/-- The text is accepted, and its program has no loop in it. -/
def LoopFree (source : String) : Prop :=
  ∃ program depths nextId,
    check source 0 = (.ok (program, depths), nextId) ∧ Stmt.loopsAny program = false

theorem loopFree_iff {source : String} : LoopFree source ↔
    (check source 0).1.toOption.any (fun accepted => !Stmt.loopsAny accepted.1) = true := by
  unfold LoopFree
  cases check source 0 with
  | mk outcome nextId =>
    cases outcome with
    | error diagnostics => simp [Except.toOption]
    | ok found =>
      obtain ⟨program, depths⟩ := found
      simp [Except.toOption]

instance (source : String) : Decidable (LoopFree source) :=
  decidable_of_iff _ loopFree_iff.symm

/-- It does not matter for this from which number on expressions are numbered. -/
theorem LoopFree.check {source : String} (loopFree : LoopFree source) (firstId : ExprId) :
    ∃ program depths nextId,
      check source firstId = (.ok (program, depths), nextId) ∧ Stmt.loopsAny program = false := by
  obtain ⟨program, depths, nextId, checked, none⟩ := loopFree
  have shifted (k : Nat) : Shifted 0 firstId (0 + k) (firstId + k) := .inr ⟨k, rfl, rfl⟩
  have similar := check_similar (lawful_shifted (Nat.zero_le firstId)) source shifted
  rw [checked] at similar
  generalize Program.check source firstId = result at similar
  cases similar with
  | ok _ programs => exact ⟨_, _, _, rfl, programs.loopsAny_eq.trans none⟩

end Program

/-! ## Runs without loops -/

def Report.Finished (report : Report) : Prop :=
  report.outcome = .ok ∨ report.outcome = .runtimeError

namespace Session

variable {s : Session} {size fuel : Nat}

def Loopless (size : Nat) (s : Session) : Prop :=
  s.machine.store.MadeFrom (.loopless size)

theorem loopless_start (clock : Clock) (output : Output) (size : Nat) :
    (start clock output).Loopless size :=
  Machine.madeFrom_start clock output

/-- A bound on the recursion that programs up to a size do not reach. -/
def sufficient (size : Nat) : Nat :=
  callLimit * (size + 3) + size + 1

/-- A text without loops comes to its end, and leaves functions without loops. -/
theorem Loopless.run (loopless : s.Loopless size) {source : String} {program : Program}
    {depths : Depths} {nextId : ExprId}
    (checked : Program.check source s.nextId = (.ok (program, depths), nextId))
    (loopFree : Stmt.loopsAny program = false) (small : sizeOf program ≤ size)
    (enough : sufficient size ≤ fuel) :
    (s.run fuel source).1.Finished ∧ (s.run fuel source).2.Loopless size ∧
      (s.run fuel source).2.nextId = nextId := by
  have routines (routine : Routine (List Stmt)) (member : routine ∈ Stmt.routinesAll program) :
      Stmt.Loopless size routine :=
    (Stmt.loopless_of_mem_routinesAll program loopFree member).mono small
  have activity : (s.activity fuel program depths).Loopless size := ⟨⟨loopless, routines⟩, loopFree⟩
  have affordable : (s.activity fuel program depths).cost callLimit size < fuel := by
    have remaining := Nat.mul_le_mul_right (size + 3) (Nat.sub_le callLimit s.machine.callDepth)
    unfold sufficient at enough
    change (callLimit - s.machine.callDepth) * (size + 3) + sizeOf program < fuel
    omega
  have finishes := activity.not_exhausted affordable
  have left : Meets (Eval.stmts callLimit fuel program)
      { s.machine with depths := s.machine.depths.merge depths } _ _ :=
    (Task.stmts program).faithful (Origin.loopless_covers callLimit size) fuel trivial
      routines loopless
  rw [run_of_check checked]
  cases outcome : Eval.stmts callLimit fuel program
      { s.machine with depths := s.machine.depths.merge depths } with
  | ok flow m => exact ⟨.inl rfl, (left.ok_of_eq outcome).1, rfl⟩
  | error e m =>
    have kept : m.store.MadeFrom (.loopless size) := left.error_of_eq outcome
    refine ⟨.inr ?_, kept, rfl⟩
    cases e with
    | fault error => rfl
    | outOfFuel => exact absurd ⟨m, outcome⟩ finishes

/-- Texts without loops, one after another. The bound has to do for the largest of their
programs. -/
theorem transcript_finished (sources : List String)
    (loopFree : ∀ source ∈ sources, Program.LoopFree source) (firstId : ExprId) :
    ∃ least, ∀ size ≥ least, ∀ s : Session, s.nextId = firstId → s.Loopless size →
      ∀ fuel ≥ sufficient size,
        ∀ seen ∈ s.transcript (sources.map fun source => (fuel, source)), seen.1.Finished := by
  induction sources generalizing firstId with
  | nil => exact ⟨0, fun _ _ _ _ _ _ _ _ member => by cases member⟩
  | cons source rest inductionHypothesis =>
    obtain ⟨here, others⟩ := List.forall_mem_cons.mp loopFree
    obtain ⟨program, depths, nextId, checked, none⟩ := here.check firstId
    obtain ⟨least, later⟩ := inductionHypothesis others nextId
    refine ⟨max (sizeOf program) least, fun size large s number loopless fuel enough => ?_⟩
    obtain ⟨smaller, larger⟩ := max_le_iff.mp large
    rw [← number] at checked
    obtain ⟨finished, left, next⟩ := loopless.run checked none smaller enough
    exact List.forall_mem_cons.mpr ⟨finished, later size larger _ next left fuel enough⟩

/-- Texts without loops come to an end, whatever they call: there is a bound on the recursion of the
evaluator, beyond which every run in a new session ends without a fault or with a runtime error. -/
theorem loop_free_finishes (clock : Clock) (output : Output) (sources : List String)
    (loopFree : ∀ source ∈ sources, Program.LoopFree source) :
    ∃ bound, ∀ fuel ≥ bound,
      ∀ seen ∈ (start clock output).transcript (sources.map fun source => (fuel, source)),
        seen.1.outcome = .ok ∨ seen.1.outcome = .runtimeError := by
  obtain ⟨size, finished⟩ := transcript_finished sources loopFree 0
  exact ⟨sufficient size, fun fuel enough =>
    finished size le_rfl _ rfl (loopless_start clock output size) fuel enough⟩

/-- Recursion without an end, through a method of the superclass and a closure that is kept by an
initializer, called in a later text. -/
theorem loop_free_finishes_endless_recursion :
    let first :=
      "class A \x7b init(f) \x7b this.f = f; \x7d go() \x7b return this.f(); \x7d \x7d " ++
      "class B < A \x7b init() \x7b fun f() \x7b return this.go(); \x7d super.init(f); \x7d " ++
      "go() \x7b var m = super.go; return m(); \x7d \x7d"
    let second := "B().go();"
    Program.LoopFree first ∧ Program.LoopFree second ∧
      ∃ bound, ∀ fuel ≥ bound,
        ∀ seen ∈ (start ⟨fun _ => 0, 0⟩ {}).transcript [(fuel, first), (fuel, second)],
          seen.1.outcome = .ok ∨ seen.1.outcome = .runtimeError := by
  intro first second
  have loopFree : Program.LoopFree first ∧ Program.LoopFree second := by decide +kernel
  refine ⟨loopFree.1, loopFree.2, loop_free_finishes _ _ [first, second] ?_⟩
  exact List.forall_mem_cons.mpr ⟨loopFree.1, List.forall_mem_singleton.mpr loopFree.2⟩

end Session

end Lox
