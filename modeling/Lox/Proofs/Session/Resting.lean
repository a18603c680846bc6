import Lox.Proofs.Evaluation.Relabeling
import Lox.Proofs.Grammar.Relabeling
import Lox.Proofs.Session.Runs

set_option autoImplicit false

/-!
# Sessions between runs

Between runs, a session stands at the top level with no call under way, and all labels in it are
labels of texts: its numbers were handed out, and its spans start before they end. So replacing
other labels does not change it.
-/

namespace Lox

/-! ## Labels of texts -/

/-- What is replaced are spans that no token has, or numbers from a bound on. -/
inductive Relabeling.Spares (bound : ExprId) : Relabeling → Prop where
  | spans {f : Span → Span} : (∀ span, span.IsProper → f span = span) → Spares bound (.spans f)
  | numbers {f : ExprId → ExprId} : (∀ i < bound, f i = i) → (∀ i, bound ≤ i → bound ≤ f i) →
    Spares bound (.numbers f)

theorem Relabeling.Spares.mono {bound bound' : ExprId} {r : Relabeling} (spares : r.Spares bound')
    (le : bound ≤ bound') : r.Spares bound := by
  cases spares with
  | spans same => exact .spans same
  | numbers same later =>
    refine .numbers (fun i small => same i (small.trans_le le)) fun i large => ?_
    by_cases small : i < bound'
    · rwa [same i small]
    · exact le.trans (later i (not_lt.mp small))

/-- A table with no entries from the bound on does not tell the labels apart. -/
theorem Relabeling.Spares.entries {bound : ExprId} {r : Relabeling} (spares : r.Spares bound)
    {depths : Depths} (none : ∀ i, bound ≤ i → depths[i]? = none) (i : ExprId) :
    depths[r.id i]? = depths[i]? := by
  cases spares with
  | spans => rfl
  | @numbers f same later =>
    by_cases small : i < bound
    · exact congrArg (depths[·]?) (same i small)
    · rw [none i (not_lt.mp small)]
      exact none _ (later i (not_lt.mp small))

namespace Program

variable {source : String} {firstId nextId : ExprId} {program : Program} {depths : Depths}

theorem relabel_of_check {r : Relabeling}
    (checked : check source firstId = (.ok (program, depths), nextId)) (spares : r.Spares nextId) :
    program.relabel r = program := by
  cases spares with
  | @spans f same =>
    obtain ⟨tokens, scanned, parsed, -⟩ := check_eq_ok_iff.mp checked
    exact relabel_of_parse parsed fun t member _ =>
      same _ (Token.isProper_of_tokenize scanned t member)
  | numbers same _ =>
    obtain ⟨numbered, -⟩ := check_ok checked
    exact Stmt.relabelAll_eq_self (fun _ => rfl) program fun i member =>
      same i (numbered.bounds i member).2

theorem depths_of_check (checked : check source firstId = (.ok (program, depths), nextId))
    (i : ExprId) (outside : i < firstId ∨ nextId ≤ i) : depths[i]? = none := by
  obtain ⟨numbered, -, accepted⟩ := check_ok checked
  refine resolve_keys accepted i fun member => ?_
  obtain ⟨first, last⟩ := numbered.bounds i member
  rcases outside with small | large
  · exact absurd first (not_le.mpr small)
  · exact absurd last (not_lt.mpr large)

end Program

/-! ## Sessions -/

namespace Session

structure Resting (s : Session) : Prop where
  top : s.machine.env = s.machine.globals
  idle : s.machine.callDepth = 0
  entries : ∀ i, s.nextId ≤ i → s.machine.depths[i]? = none
  labels : ∀ r : Relabeling, r.Spares s.nextId → s.machine.store.relabel r = s.machine.store

variable {s : Session}

/-- There are no labels in a session before its first run. -/
theorem relabel_start (clock : Clock) (output : Output) (r : Relabeling) :
    (start clock output).machine.store.relabel r = (start clock output).machine.store := by
  change Store.mk (Array.map _ #[_]) (Array.map _ #[]) _ = _
  rw [Array.map_singleton, Array.map_empty]
  rfl

theorem resting_start (clock : Clock) (output : Output) : (start clock output).Resting where
  top := rfl
  idle := rfl
  entries _ _ := rfl
  labels r _ := relabel_start clock output r

theorem Resting.number (resting : s.Resting) {nextId : ExprId} (later : s.nextId ≤ nextId) :
    ({ s with nextId := nextId } : Session).Resting where
  top := resting.top
  idle := resting.idle
  entries i unused := resting.entries i (later.trans unused)
  labels r spares := resting.labels r (spares.mono later)

section Execution

variable {source : String} {program : Program} {depths : Depths} {nextId : ExprId}

/-- The depths behind an accepted text. -/
theorem Resting.entries_merge (resting : s.Resting)
    (checked : Program.check source s.nextId = (.ok (program, depths), nextId)) (i : ExprId)
    (unused : nextId ≤ i) : (s.machine.depths.merge depths)[i]? = none := by
  have le := (Program.check_ok checked).1.le
  rw [Depths.getElem?_merge, Program.depths_of_check checked i (.inr unused),
    resting.entries i (le.trans unused)]
  rfl

/-- The execution of an accepted text, with labels replaced that do not stand in it. -/
def Resting.rerun (resting : s.Resting)
    (checked : Program.check source s.nextId = (.ok (program, depths), nextId)) {r : Relabeling}
    (spares : r.Spares nextId) : Rerun where
  labels := r
  before := s.machine.depths.merge depths
  after := s.machine.depths.merge depths
  entries := spares.entries (resting.entries_merge checked)
  longer := False

/-- Labels that do not stand in an accepted text do not matter for its execution. -/
theorem Resting.repeats (resting : s.Resting)
    (checked : Program.check source s.nextId = (.ok (program, depths), nextId)) {c : Rerun}
    (spares : c.labels.Spares nextId) (table : c.before = s.machine.depths.merge depths)
    (fuel : Nat) :
    c.Repeats (Flow.relabel c.labels) { s.machine with depths := s.machine.depths.merge depths }
      (Eval.stmts callLimit fuel program
        { s.machine with depths := s.machine.depths.merge depths })
      (Eval.stmts callLimit fuel program { s.machine with depths := c.after }) := by
  have repeated := (c.carries callLimit (le_refl fuel) (.inr rfl)).stmts program
    { s.machine with depths := s.machine.depths.merge depths } table.symm
  have store := resting.labels _ (spares.mono (Program.check_ok checked).1.le)
  have unchanged : Stmt.relabelAll c.labels program = program :=
    Program.relabel_of_check checked spares
  rwa [Machine.again, store, unchanged] at repeated

/-- An accepted text leaves a session that rests, however its execution ends. -/
theorem Resting.rest (resting : s.Resting)
    (checked : Program.check source s.nextId = (.ok (program, depths), nextId)) (fuel : Nat) :
    Meets (Eval.stmts callLimit fuel program)
      { s.machine with depths := s.machine.depths.merge depths }
      (fun _ m => (({ s with nextId := nextId } : Session).rest m).Resting)
      fun _ m => (({ s with nextId := nextId } : Session).rest m).Resting := by
  have behind {m : Machine} (table : m.depths = s.machine.depths.merge depths)
      (labels : ∀ (r : Relabeling) (spares : r.Spares nextId),
        m = m.again (resting.rerun checked spares)) :
      (({ s with nextId := nextId } : Session).rest m).Resting :=
    { top := rfl
      idle := rfl
      entries := fun i unused => by
        rw [Session.rest, table]
        exact resting.entries_merge checked i unused
      labels := fun r spares => (congrArg Machine.store (labels r spares)).symm }
  rw [meets_iff]
  refine ⟨fun flow m result => behind ?_ fun r spares => ?_, fun e m failure => behind ?_
    fun r spares => ?_⟩
  · exact ((Eval.stmts_keeps ..).ok_of_eq result).depths
  · have repeated := resting.repeats checked (c := resting.rerun checked spares) spares rfl fuel
    rw [Resting.rerun, result, Rerun.Repeats.ok_iff] at repeated
    injection repeated.2
  · exact ((Eval.stmts_keeps ..).error_of_eq failure).depths
  · have repeated := resting.repeats checked (c := resting.rerun checked spares) spares rfl fuel
    rw [Resting.rerun, failure, Rerun.Repeats.error_iff not_false] at repeated
    injection repeated.2

end Execution

theorem Resting.run (resting : s.Resting) (fuel : Nat) (source : String) :
    (s.run fuel source).2.Resting := by
  have later := Program.le_nextId_check source s.nextId
  rcases checked : Program.check source s.nextId with ⟨diagnostics | ⟨program, depths⟩, nextId⟩
  · rw [checked] at later
    rw [run_of_refused checked]
    exact resting.number later
  · rw [run_of_check checked]
    have left := resting.rest checked fuel
    cases outcome : Eval.stmts callLimit fuel program
        { s.machine with depths := s.machine.depths.merge depths } with
    | ok flow m => exact left.ok_of_eq outcome
    | error e m => exact left.error_of_eq outcome

/-- The states that a session can get into. -/
inductive Reachable : Session → Prop where
  | start (clock : Clock) (output : Output) : Reachable (start clock output)
  | run {s : Session} (fuel : Nat) (source : String) : Reachable s → Reachable (s.run fuel source).2
  | write {s : Session} (text : String) : Reachable s → Reachable (s.write text)
  | takeOutput {s : Session} : Reachable s → Reachable s.takeOutput.2

theorem Reachable.resting (reachable : s.Reachable) : s.Resting := by
  induction reachable with
  | start clock output => exact resting_start clock output
  | run fuel source _ resting => exact resting.run fuel source
  | write text _ resting | takeOutput _ resting =>
    exact ⟨resting.top, resting.idle, resting.entries, resting.labels⟩

end Session

end Lox
