import Lox.Proofs.Evaluation.Agreement
import Lox.Proofs.Grammar.Programs
import Lox.Session.Basic

set_option autoImplicit false

/-!
# Sessions that fit

What one run can do to a session: hand out numbers, if its text is faulty, and otherwise execute a
program too. From the start and behind every run, the session fits what was recorded about the
programs that it has executed, however their execution ended.
-/

namespace Lox

open Scope (Names Rules Resolution)

/-- The phases before execution: the program of a text with its depths, or the faults of the first
phase that fails, and the first expression number that was not handed out. -/
def Program.check (source : String) (firstId : ExprId) :
    Except (List Diagnostic) (Program × Depths) × ExprId :=
  match Token.tokenize source with
  | .error error => (.error [.scan error], firstId)
  | .ok tokens =>
    let parsed := Program.parse tokens firstId
    match parsed.result with
    | .error errors => (.error (errors.map .parse), parsed.nextId)
    | .ok program =>
      match program.resolve with
      | .error errors => (.error (errors.map .scope), parsed.nextId)
      | .ok depths => (.ok (program, depths), parsed.nextId)

theorem Program.le_nextId_check (source : String) (firstId : ExprId) :
    firstId ≤ (Program.check source firstId).2 := by
  unfold Program.check
  cases scanned : Token.tokenize source with
  | error fault => exact le_rfl
  | ok tokens =>
    have le := Program.le_nextId_parse tokens firstId
    dsimp only
    split
    · exact le
    · split
      · exact le
      · exact le

/-- What a text passes if it is accepted. -/
theorem Program.check_eq_ok_iff {source : String} {firstId nextId : ExprId} {program : Program}
    {depths : Depths} : Program.check source firstId = (.ok (program, depths), nextId) ↔
      ∃ tokens, Token.tokenize source = .ok tokens ∧
        Program.parse tokens firstId = ⟨.ok program, nextId⟩ ∧ program.resolve = .ok depths := by
  constructor
  · intro checked
    unfold Program.check at checked
    split at checked
    · cases checked
    · rename_i tokens scanned
      dsimp only at checked
      split at checked
      · cases checked
      · rename_i read parsed
        split at checked
        · cases checked
        · cases checked
          exact ⟨tokens, scanned, congrArg (Parsed.mk · _) parsed, ‹_›⟩
  · rintro ⟨tokens, scanned, parsed, accepted⟩
    rw [Program.check, scanned]
    dsimp only
    rw [parsed]
    dsimp only
    rw [accepted]

/-- A program that passes has numbers of its own, and is accepted with the depths that are found. -/
theorem Program.check_ok {source : String} {firstId nextId : ExprId} {program : Program}
    {depths : Depths}
    (checked : Program.check source firstId = (.ok (program, depths), nextId)) :
    Numbered firstId nextId program.ids ∧ program.Obeys .plain ∧ program.resolve = .ok depths := by
  obtain ⟨tokens, scanned, parsed, accepted⟩ := Program.check_eq_ok_iff.mp checked
  have result : (Program.parse tokens firstId).result = .ok program := by rw [parsed]
  obtain ⟨numbered, plain⟩ := Program.parse_ok (Token.tokenize_isPlain scanned) result
  rw [parsed] at numbered
  exact ⟨numbered, plain, accepted⟩

/-- The faults that a phase before execution ends with: one of the tokens, or some of the grammar,
or some of the scopes. -/
inductive Diagnostic.OfOnePhase : List Diagnostic → Prop where
  | scan (error : ScanError) : OfOnePhase [.scan error]
  | parse {errors : List ParseError} : errors ≠ [] → OfOnePhase (errors.map .parse)
  | scope {errors : List ScopeError} : errors ≠ [] → OfOnePhase (errors.map .scope)

theorem Diagnostic.OfOnePhase.isStatic {diagnostics : List Diagnostic}
    (phase : OfOnePhase diagnostics) : ∀ d ∈ diagnostics, d.isStatic = true := by
  cases phase <;> simp [Diagnostic.isStatic]

theorem Program.resolve_error_ne_nil {program : Program} {errors : List ScopeError}
    (refused : program.resolve = .error errors) : errors ≠ [] := by
  obtain ⟨faulty, rfl⟩ := Program.resolve_error_iff.mp refused
  exact mt Array.toList_eq_nil_iff.mp faulty

/-- A text is refused with the faults of the first phase that fails. -/
theorem Program.ofOnePhase_of_check {source : String} {firstId nextId : ExprId}
    {diagnostics : List Diagnostic}
    (checked : Program.check source firstId = (.error diagnostics, nextId)) :
    Diagnostic.OfOnePhase diagnostics := by
  unfold Program.check at checked
  split at checked
  · cases checked
    exact .scan _
  · dsimp only at checked
    split at checked
    · rename_i parsed
      cases checked
      exact .parse (Program.parse_error_ne_nil parsed)
    · split at checked
      · rename_i refused
        cases checked
        exact .scope (Program.resolve_error_ne_nil refused)
      · cases checked

def Interruption.report : Interruption → Report
  | .fault error => ⟨.runtimeError, [.runtime error]⟩
  | .outOfFuel => ⟨.unfinished, []⟩

namespace Session

theorem run_eq (fuel : Nat) (source : String) (s : Session) :
    s.run fuel source =
      match Program.check source s.nextId with
      | (.error diagnostics, nextId) => (⟨.staticError, diagnostics⟩, { s with nextId := nextId })
      | (.ok (program, depths), nextId) =>
        { s with nextId := nextId }.execute fuel program depths := by
  unfold run Program.check
  cases Token.tokenize source with
  | error fault => rfl
  | ok tokens =>
    dsimp only
    cases (Program.parse tokens s.nextId).result with
    | error faults => rfl
    | ok program =>
      dsimp only
      cases program.resolve <;> rfl

def rest (s : Session) (m : Machine) : Session :=
  { s with machine := { m with env := m.globals, callDepth := 0 } }

theorem execute_eq (fuel : Nat) (program : Program) (depths : Depths) (s : Session) :
    s.execute fuel program depths =
      match Eval.stmts callLimit fuel program
        { s.machine with depths := s.machine.depths.merge depths } with
      | .ok _ m => (⟨.ok, []⟩, s.rest m)
      | .error e m => (e.report, s.rest m) := by
  unfold execute Machine.run
  cases Eval.stmts callLimit fuel program
      { s.machine with depths := s.machine.depths.merge depths } with
  | ok flow m => rfl
  | error e m => cases e <;> rfl

theorem run_of_refused {s : Session} {source : String} {diagnostics : List Diagnostic}
    {nextId : ExprId}
    (refused : Program.check source s.nextId = (.error diagnostics, nextId)) (fuel : Nat) :
    s.run fuel source = (⟨.staticError, diagnostics⟩, { s with nextId := nextId }) := by
  rw [run_eq, refused]

theorem run_of_check {s : Session} {source : String} {program : Program} {depths : Depths}
    {nextId : ExprId} (checked : Program.check source s.nextId = (.ok (program, depths), nextId))
    (fuel : Nat) : s.run fuel source =
      match Eval.stmts callLimit fuel program
        { s.machine with depths := s.machine.depths.merge depths } with
      | .ok _ m => (⟨.ok, []⟩, ({ s with nextId := nextId } : Session).rest m)
      | .error e m => (e.report, ({ s with nextId := nextId } : Session).rest m) := by
  rw [run_eq, checked]
  exact execute_eq ..

def activity (s : Session) (fuel : Nat) (program : Program) (depths : Depths) : Activity :=
  ⟨fuel, .stmts program, { s.machine with depths := s.machine.depths.merge depths }⟩

/-- An assignment to a local variable inside its own initializer, in one of the programs. -/
def IsOwn (programs : List Program) (id : ExprId) : Prop :=
  ∃ program ∈ programs, id ∈ program.ownAssignments

/-- What is on record about the programs that were executed. -/
def record (s : Session) (programs : List Program) : Resolution :=
  ⟨s.machine.depths, IsOwn programs, s.nextId⟩

structure Fits (programs : List Program) (s : Session) : Prop where
  machine : s.machine.Fits (s.record programs)
  top : s.machine.env = s.machine.globals
  inside : s.machine.Inside []
  entries : ∀ id, s.nextId ≤ id → s.machine.depths[id]? = none
  own : ∀ id, IsOwn programs id → id < s.nextId

theorem fits_start (clock : Clock) (output : Output) : (start clock output).Fits [] where
  machine := by
    refine ⟨rfl, fun id => ?_, fun id name value found => ?_,
      fun id name value found => by cases found⟩
    · cases id with
      | zero => exact .single "clock" (.native .clock)
      | succ id => exact .of_unreserved fun _ _ => rfl
    · cases Machine.eq_native_of_start found
      trivial
  top := rfl
  inside := by
    refine ⟨.global Nat.one_pos, Nat.one_pos, by simp, fun name reserved => ?_⟩
    rcases reserved with rfl | rfl <;> rfl
  entries _ _ := rfl
  own := by rintro id ⟨program, member, _⟩; cases member

variable {s : Session} {programs : List Program}

theorem Fits.number (fits : s.Fits programs) {nextId : ExprId} (later : s.nextId ≤ nextId) :
    ({ s with nextId := nextId } : Session).Fits programs where
  machine := by
    have grows : (s.record programs).Grows
        (({ s with nextId := nextId } : Session).record programs) :=
      ⟨later, fun _ _ => rfl, fun _ _ => Iff.rfl⟩
    exact ⟨rfl, fits.machine.store.mono grows.implies⟩
  top := fits.top
  inside := fits.inside
  entries id unused := fits.entries id (later.trans unused)
  own id known := (fits.own id known).trans_le later

/-- The record of a program adds to what was on record. -/
theorem record_grows (programs : List Program) {source : String} {program : Program}
    {depths : Depths}
    {nextId : ExprId} (checked : Program.check source s.nextId = (.ok (program, depths), nextId)) :
    (s.record programs).Grows
      ⟨s.machine.depths.merge depths, IsOwn (program :: programs), nextId⟩ := by
  obtain ⟨numbered, plain, accepted⟩ := Program.check_ok checked
  have new : ∀ id ∈ program.ids, s.nextId ≤ id ∧ id < nextId := numbered.bounds
  have ownNew := program.ownAssignments_subset
  refine ⟨numbered.le, fun id old => ?_, fun id old => ?_⟩
  · have absent : depths[id]? = none := Program.resolve_keys accepted id fun member =>
      absurd (new id member).1 (not_le.mpr old)
    simp [Depths.getElem?_merge, absent, record]
  · simp only [IsOwn, List.mem_cons, exists_eq_or_imp, record]
    exact or_iff_right fun member => absurd (new id (ownNew member)).1 (not_le.mpr old)

/-- A program that passed the check fits where it is executed. -/
theorem Fits.activity (fits : s.Fits programs) {source : String} {program : Program}
    {depths : Depths} {nextId : ExprId}
    (checked : Program.check source s.nextId = (.ok (program, depths), nextId)) (fuel : Nat) :
    (s.activity fuel program depths).Fits
      ⟨s.machine.depths.merge depths, IsOwn (program :: programs), nextId⟩ := by
  obtain ⟨numbered, plain, accepted⟩ := Program.check_ok checked
  have new : ∀ id ∈ program.ids, s.nextId ≤ id ∧ id < nextId := numbered.bounds
  refine ⟨[], ⟨rfl, fits.machine.store.mono (record_grows programs checked).implies⟩,
    ⟨fits.inside.chain, fits.inside.allocated, by simp, fits.inside.plain⟩, ?_⟩
  refine Program.resolve_obeys accepted plain numbered.nodup (fun id member => (new id member).2)
    (fun id member => ?_) fun id member => ?_
  · simp [Depths.getElem?_merge, fits.entries id (new id member).1]
  · simp only [IsOwn, List.mem_cons, exists_eq_or_imp]
    exact or_iff_left fun known => absurd (fits.own id known) (not_lt.mpr (new id member).1)

/-- Executing a program leaves a session that fits. -/
theorem Fits.rest (fits : s.Fits programs) {source : String} {program : Program} {depths : Depths}
    {nextId : ExprId} {opened : Option FrameId} {m : Machine}
    (checked : Program.check source s.nextId = (.ok (program, depths), nextId))
    (continues : Machine.Continues
      ⟨s.machine.depths.merge depths, IsOwn (program :: programs), nextId⟩ opened
      { s.machine with depths := s.machine.depths.merge depths } m) :
    (({ s with nextId := nextId } : Session).rest m).Fits (program :: programs) := by
  obtain ⟨numbered, _, accepted⟩ := Program.check_ok checked
  have table : m.depths = s.machine.depths.merge depths := continues.fits.table
  have globals : m.globals = s.machine.env := continues.globals.trans fits.top.symm
  refine ⟨⟨rfl, ?_⟩, rfl, ⟨?_, ?_, by simp, fun name reserved => ?_⟩, fun id unused => ?_, ?_⟩
  · have store := continues.fits.store
    rw [← table] at store
    exact store
  · rw [Session.rest, globals]
    exact fits.inside.chain.evolve continues.evolves
  · rw [Session.rest, globals]
    exact fits.inside.allocated.trans_le continues.evolves.size
  · rw [Session.rest, globals, continues.evolves.reserved _ fits.inside.allocated name reserved]
    exact fits.inside.plain name reserved
  · have absent : depths[id]? = none := Program.resolve_keys accepted id fun member =>
      absurd (numbered.bounds id member).2 (not_lt.mpr unused)
    have old := fits.entries id (numbered.le.trans unused)
    simp [Session.rest, table, Depths.getElem?_merge, absent, old]
  · rintro id ⟨owner, member, own⟩
    rcases List.mem_cons.mp member with rfl | member
    · exact (numbered.bounds id (owner.ownAssignments_subset own)).2
    · exact (fits.own id ⟨owner, member, own⟩).trans_le numbered.le

/-- One run leaves a session that fits, whether or not the text is faulty and however its execution
ends. -/
theorem Fits.run (fits : s.Fits programs) (fuel : Nat) (source : String) :
    (s.run fuel source).2.Fits
      (match (Program.check source s.nextId).1 with
        | .ok (program, _) => program :: programs
        | .error _ => programs) := by
  have later := Program.le_nextId_check source s.nextId
  rcases checked : Program.check source s.nextId with ⟨diagnostics | ⟨program, depths⟩, nextId⟩
  · rw [checked] at later
    rw [run_of_refused checked]
    exact fits.number later
  · rw [run_of_check checked]
    obtain ⟨scopes, fitsMachine, fitsTask⟩ := fits.activity checked fuel
    have executed := sound callLimit _ fuel (.stmts program) fitsMachine fitsTask
    cases outcome : Eval.stmts callLimit fuel program
        { s.machine with depths := s.machine.depths.merge depths } with
    | ok flow m => exact fits.rest checked (executed.ok_of_eq outcome).1
    | error e m => exact fits.rest checked (executed.error_of_eq outcome).1

end Session

/-- A session together with the programs that it has executed, the latest first. -/
structure History where
  session : Session
  programs : List Program

namespace History

def start (clock : Clock) (output : Output) : History :=
  ⟨Session.start clock output, []⟩

def run (fuel : Nat) (source : String) (h : History) : History where
  session := (h.session.run fuel source).2
  programs :=
    match (Program.check source h.session.nextId).1 with
    | .ok (program, _) => program :: h.programs
    | .error _ => h.programs

def runAll (runs : List (Nat × String)) (h : History) : History :=
  runs.foldl (fun h (fuel, source) => h.run fuel source) h

/-- Between the runs of a session, it fits. -/
theorem fits_runAll (clock : Clock) (output : Output) (runs : List (Nat × String)) :
    ((start clock output).runAll runs).session.Fits
      ((start clock output).runAll runs).programs := by
  suffices general : ∀ h : History, h.session.Fits h.programs →
      (h.runAll runs).session.Fits (h.runAll runs).programs from
    general _ (Session.fits_start clock output)
  induction runs with
  | nil => exact fun h fits => fits
  | cons run rest inductionHypothesis =>
    exact fun h fits => inductionHypothesis (h.run run.1 run.2) (fits.run run.1 run.2)

end History

end Lox
