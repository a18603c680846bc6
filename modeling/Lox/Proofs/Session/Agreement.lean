import Lox.Proofs.Session.Numbers

set_option autoImplicit false

/-!
# Variables in sessions

Main statements: in every run of every session, each use of a name finds its binding at the depth
that was recorded for it, but for an assignment to a local variable inside its own initializer. Such
an assignment fails as soon as its value is known, and nothing else ends a run with a binding that
is not where it should be. All of that is said of sessions whose expressions are numbered within 32
bits, so that no two of them share a word.
-/

namespace Lox

open Session (IsOwn)

/-- Why the execution that is reported on failed, if it did. -/
def Report.causes (report : Report) : List RuntimeError.Cause :=
  report.diagnostics.filterMap fun
    | .runtime error => some error.cause
    | _ => none

theorem Report.mem_causes {report : Report} {cause : RuntimeError.Cause} :
    cause ∈ report.causes ↔ ∃ error, .runtime error ∈ report.diagnostics ∧ error.cause = cause := by
  rw [causes, List.mem_filterMap]
  constructor
  · rintro ⟨diagnostic, member, found⟩
    cases diagnostic with
    | runtime error => exact ⟨error, member, Option.some.inj found⟩
    | scan error | parse error | scope error => cases found
  · rintro ⟨error, member, rfl⟩
    exact ⟨_, member, rfl⟩

namespace Session

variable {s : Session} {fuel : Nat} {source : String} {error : RuntimeError}

theorem execute_reports_iff {program : Program} {depths : Depths} :
    .runtime error ∈ (s.execute fuel program depths).1.diagnostics ↔
      (s.activity fuel program depths).Fails callLimit (.fault error) := by
  rw [execute_eq]
  change _ ↔ ∃ m, Eval.stmts callLimit fuel program
    { s.machine with depths := s.machine.depths.merge depths } = .error (.fault error) m
  cases Eval.stmts callLimit fuel program
      { s.machine with depths := s.machine.depths.merge depths } with
  | ok flow m => simp
  | error e m =>
    cases e with
    | fault other => simp [Interruption.report, eq_comm]
    | outOfFuel => simp [Interruption.report]

/-- The fault of execution that a run reports is the one that its activity ends in. -/
theorem run_reports_iff :
    .runtime error ∈ (s.run fuel source).1.diagnostics ↔
      ∃ program depths nextId,
        Program.check source s.nextId = (.ok (program, depths), nextId) ∧
        (s.activity fuel program depths).Fails callLimit (.fault error) := by
  rw [run_eq]
  cases checked : Program.check source s.nextId with
  | mk outcome nextId =>
    cases outcome with
    | error diagnostics =>
      refine ⟨fun reported => ?_, by simp⟩
      cases (Program.ofOnePhase_of_check checked).isStatic _ reported
    | ok found =>
      obtain ⟨program, depths⟩ := found
      refine execute_reports_iff.trans ⟨fun fails => ⟨program, depths, nextId, rfl, fails⟩, ?_⟩
      rintro ⟨_, _, _, same, fails⟩
      cases same
      exact fails

end Session

namespace History

variable {clock : Clock} {output : Output} {runs : List (Nat × String)}
variable {fuel : Nat} {source : String} {program : Program} {depths : Depths} {nextId : ExprId}

/-- Every activity in the course of a run agrees with the record. -/
theorem agrees_of_reaches
    (checked : Program.check source ((start clock output).runAll runs).session.nextId =
      (.ok (program, depths), nextId)) {a : Activity}
    (reaches : (((start clock output).runAll runs).session.activity fuel program depths).Reaches
      callLimit a) :
    a.Agrees callLimit (IsOwn (program :: ((start clock output).runAll runs).programs)) :=
  (reaches.fits ((fits_runAll clock output runs).activity checked fuel)).agrees

/-- What a missing binding that a run reports comes from. -/
theorem early_of_mismatch
    (checked : Program.check source ((start clock output).runAll runs).session.nextId =
      (.ok (program, depths), nextId)) {error : RuntimeError} {name : String} {distance : Nat}
    (failed : (((start clock output).runAll runs).session.activity fuel program depths).Fails
      callLimit (.fault error)) (mismatch : error.cause = .scopeMismatch name distance) :
    ∃ a, (((start clock output).runAll runs).session.activity fuel program depths).Reaches
        callLimit a ∧
      a.AssignsEarly callLimit (IsOwn (program :: ((start clock output).runAll runs).programs))
        (.fault error) := by
  have lookup : Interruption.IsLookupFault (.fault error) := by
    simp [Interruption.IsLookupFault, mismatch, RuntimeError.Cause.IsLookup]
  obtain ⟨a, reaches, early | ⟨u, m, span, _, _, _, other⟩⟩ :=
    (agrees_of_reaches checked .refl).explained failed lookup
  · exact ⟨a, reaches, early⟩
  · cases other
    cases mismatch

/-- What an undefined variable that a run reports comes from. -/
theorem misses_of_undefined
    (checked : Program.check source ((start clock output).runAll runs).session.nextId =
      (.ok (program, depths), nextId)) {error : RuntimeError} {name : String}
    (failed : (((start clock output).runAll runs).session.activity fuel program depths).Fails
      callLimit (.fault error)) (undefined : error.cause = .undefinedVariable name) :
    ∃ a, (((start clock output).runAll runs).session.activity fuel program depths).Reaches
      callLimit a ∧ a.Misses callLimit (.fault error) := by
  have lookup : Interruption.IsLookupFault (.fault error) := by
    simp [Interruption.IsLookupFault, undefined, RuntimeError.Cause.IsLookup]
  obtain ⟨a, reaches, early | misses⟩ := (agrees_of_reaches checked .refl).explained failed lookup
  · cases early
    cases undefined
  · exact ⟨a, reaches, misses⟩

/-- In every run of every session, at every moment at which a name is used, its binding is where the
record says, with the one exception of assignments to a local variable inside its own initializer. A
missing binding is reported for such an assignment only, and an undefined variable only for a use
without a depth on record, of a name that is no global variable. This is so as long as the
expressions of the session are numbered within 32 bits, where their words are all different. -/
theorem lookups_agree (clock : Clock) (output : Output) (runs : List (Nat × String)) (fuel : Nat)
    (source : String) {program : Program} {depths : Depths} {nextId : ExprId}
    (checked : Program.check source ((start clock output).runAll runs).session.nextId =
      (.ok (program, depths), nextId)) (inRange : nextId ≤ UInt32.size) :
    let h := (start clock output).runAll runs
    let own := IsOwn (program :: h.programs)
    let first := h.session.activity fuel program depths
    (((start clock output).numbers (runs ++ [(fuel, source)])).map UInt32.ofNat).Nodup ∧
      (∀ a, first.Reaches callLimit a → a.Agrees callLimit own) ∧
      ∀ error, .runtime error ∈ (h.session.run fuel source).1.diagnostics →
        (∀ name distance, error.cause = .scopeMismatch name distance →
          ∃ a, first.Reaches callLimit a ∧ a.AssignsEarly callLimit own (.fault error)) ∧
        ∀ name, error.cause = .undefinedVariable name →
          ∃ a, first.Reaches callLimit a ∧ a.Misses callLimit (.fault error) := by
  intro h own first
  rw [← nextId_of_check checked fuel] at inRange
  refine ⟨words_nodup inRange, fun a reaches => agrees_of_reaches checked reaches,
    fun error reported => ?_⟩
  obtain ⟨_, _, _, again, failed⟩ := Session.run_reports_iff.mp reported
  cases checked.symm.trans again
  exact ⟨fun _ _ => early_of_mismatch checked failed, fun _ => misses_of_undefined checked failed⟩

/-- The hypothesis is met in a session that has kept a closure with a `super` in it. The run calls
it for the value of an assignment that comes too early. -/
theorem lookups_agree_kept_closure :
    let h := (start ⟨fun _ => 0, 0⟩ {}).runAll
      [(60, "class A \x7b m() \x7b return this; \x7d \x7d"),
        (60, "class B < A \x7b m() \x7b fun f() \x7b return super.m(); \x7d return f; \x7d \x7d"),
        (60, "var g = B().m();")]
    let source := "g(); \x7b var a = (a = g()); \x7d"
    ∃ program depths nextId error,
      Program.check source h.session.nextId = (.ok (program, depths), nextId) ∧
      nextId ≤ UInt32.size ∧
      .runtime error ∈ (h.session.run 60 source).1.diagnostics ∧
      error.cause = .scopeMismatch "a" 0 ∧
      (∀ a, (h.session.activity 60 program depths).Reaches callLimit a →
        a.Agrees callLimit (IsOwn (program :: h.programs))) ∧
      ∃ a, (h.session.activity 60 program depths).Reaches callLimit a ∧
        a.AssignsEarly callLimit (IsOwn (program :: h.programs)) (.fault error) := by
  intro h source
  have mismatch : .scopeMismatch "a" 0 ∈ (h.session.run 60 source).1.causes := by
    decide +kernel
  obtain ⟨error, reported, cause⟩ := Report.mem_causes.mp mismatch
  obtain ⟨program, depths, nextId, checked, _⟩ := Session.run_reports_iff.mp reported
  have inRange : (Program.check source h.session.nextId).2 ≤ UInt32.size := by decide +kernel
  rw [checked] at inRange
  obtain ⟨_, agree, sources⟩ := lookups_agree ⟨fun _ => 0, 0⟩ {} _ 60 source checked inRange
  exact ⟨program, depths, nextId, error, checked, inRange, reported, cause, agree,
    (sources error reported).1 "a" 0 cause⟩

/-- A run ends with a binding that is not where it should be just when, in its course, a local
variable is assigned to inside its own initializer, as long as expressions are numbered within 32
bits. -/
theorem reports_mismatch_iff (clock : Clock) (output : Output) (runs : List (Nat × String))
    (fuel : Nat) (source : String)
    (inRange : ((start clock output).runAll (runs ++ [(fuel, source)])).session.nextId ≤
      UInt32.size) :
    let h := (start clock output).runAll runs
    (((start clock output).numbers (runs ++ [(fuel, source)])).map UInt32.ofNat).Nodup ∧
      ((∃ name distance, .scopeMismatch name distance ∈ (h.session.run fuel source).1.causes) ↔
        ∃ program depths nextId a e,
          Program.check source h.session.nextId = (.ok (program, depths), nextId) ∧
          (h.session.activity fuel program depths).Reaches callLimit a ∧
          a.AssignsEarly callLimit (IsOwn (program :: h.programs)) e) := by
  intro h
  refine ⟨words_nodup inRange, ?_⟩
  constructor
  · rintro ⟨name, distance, member⟩
    obtain ⟨error, reported, mismatch⟩ := Report.mem_causes.mp member
    obtain ⟨program, depths, nextId, checked, failed⟩ := Session.run_reports_iff.mp reported
    obtain ⟨a, reaches, early⟩ := early_of_mismatch checked failed mismatch
    exact ⟨program, depths, nextId, a, _, checked, reaches, early⟩
  · rintro ⟨program, depths, nextId, a, e, checked, reaches, early⟩
    have failed := reaches.fails ((agrees_of_reaches checked reaches).fails early)
    cases early with
    | @intro _ _ _ id name value v own computed =>
      have reported := Session.run_reports_iff.mpr ⟨program, depths, nextId, checked, failed⟩
      exact ⟨name.text, 0, Report.mem_causes.mpr ⟨_, reported, rfl⟩⟩

/-- The smallest such run: the text is accepted, and its assignment finds no binding. -/
theorem reports_mismatch_iff_own_assignment :
    let source := "\x7b var a = (a = 1); \x7d"
    let h := start ⟨fun _ => 0, 0⟩ {}
    (h.runAll [(20, source)]).session.nextId ≤ UInt32.size ∧
      ∃ program depths nextId a e,
        Program.check source h.session.nextId = (.ok (program, depths), nextId) ∧
        (h.session.activity 20 program depths).Reaches callLimit a ∧
        a.AssignsEarly callLimit (IsOwn [program]) e := by
  intro source h
  have inRange : (h.runAll [(20, source)]).session.nextId ≤ UInt32.size := by decide +kernel
  have mismatch : .scopeMismatch "a" 0 ∈ (h.session.run 20 source).1.causes := by decide +kernel
  obtain ⟨_, reports⟩ := reports_mismatch_iff ⟨fun _ => 0, 0⟩ {} [] 20 source inRange
  exact ⟨inRange, reports.mp ⟨"a", 0, mismatch⟩⟩

/-- So a text that is accepted can fail because resolving and execution disagree. -/
theorem causes_run_own_assignment :
    ((Session.start ⟨fun _ => 0, 0⟩ {}).run 20 "\x7b var a = (a = 1); \x7d").1.causes =
      [.scopeMismatch "a" 0] := by
  decide +kernel

end History

end Lox
