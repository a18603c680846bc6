import Lox.Proofs.Evaluation.Origins
import Lox.Proofs.Evaluation.Persistence
import Lox.Proofs.Session.Runs

set_option autoImplicit false

/-!
# The moments of a session

The activities that take place while texts are run one after another in a session. Each of them fits
what is on record by then, and the record only grows. The store that it ends with is earlier than
the one that the session ends with. Every class that it comes across was declared by one of them.
-/

namespace Lox

open Scope (Resolution)

namespace History

variable {h h' h'' : History} {runs : List (Nat × String)} {a b : Activity}

def record (h : History) : Resolution :=
  h.session.record h.programs

def store (h : History) : Store :=
  h.session.machine.store

/-- The activity takes place while the texts are run one after another. -/
inductive Occurs : History → List (Nat × String) → Activity → Prop where
  | now {h : History} {fuel : Nat} {source : String} {rest : List (Nat × String)}
      {program : Program}
      {depths : Depths} {nextId : ExprId} {a : Activity}
      (checked : Program.check source h.session.nextId = (.ok (program, depths), nextId))
      (reaches : (h.session.activity fuel program depths).Reaches callLimit a) :
    Occurs h ((fuel, source) :: rest) a
  | later {h : History} {fuel : Nat} {source : String} {rest : List (Nat × String)} {a : Activity} :
    Occurs (h.run fuel source) rest a → Occurs h ((fuel, source) :: rest) a

theorem Occurs.starts (occurs : h.Occurs runs a) (starts : a.Starts callLimit b) :
    h.Occurs runs b := by
  induction occurs with
  | now checked reaches => exact .now checked (reaches.tail starts)
  | later _ inductionHypothesis => exact .later (inductionHypothesis starts)

/-! ## From one run to the next -/

structure Precedes (h h' : History) : Prop where
  record : h.record.Grows h'.record
  store : h.store.Precedes h'.store

theorem Precedes.refl (h : History) : h.Precedes h :=
  ⟨⟨le_rfl, fun _ _ => rfl, fun _ _ => Iff.rfl⟩, .refl _⟩

theorem Precedes.trans (first : h.Precedes h') (second : h'.Precedes h'') : h.Precedes h'' where
  record := by
    refine ⟨first.record.bound.trans second.record.bound, fun id old => ?_, fun id old => ?_⟩
    · have between := old.trans_le first.record.bound
      exact (second.record.table id between).trans (first.record.table id old)
    · have between := old.trans_le first.record.bound
      exact (second.record.own id between).trans (first.record.own id old)
  store := first.store.trans second.store

section Run

variable {fuel : Nat} {source : String} {program : Program} {depths : Depths} {nextId : ExprId}
variable (fits : h.session.Fits h.programs)
variable (checked : Program.check source h.session.nextId = (.ok (program, depths), nextId))

include checked in
theorem session_run_of_check (fuel : Nat) : (h.run fuel source).session =
    ({ h.session with nextId := nextId } : Session).rest
      (endState (Eval.stmts callLimit fuel program
        { h.session.machine with depths := h.session.machine.depths.merge depths })) := by
  rw [run, Session.run_of_check checked]
  cases Eval.stmts callLimit fuel program
      { h.session.machine with depths := h.session.machine.depths.merge depths } <;> rfl

include checked in
/-- The store that a run leaves is the one that its program ends with. -/
theorem store_run_of_check (fuel : Nat) :
    (h.run fuel source).store = (h.session.activity fuel program depths).endStore callLimit := by
  rw [store, session_run_of_check checked]
  rfl

include fits checked in
theorem record_run_of_check (fuel : Nat) : (h.run fuel source).record =
    ⟨h.session.machine.depths.merge depths, Session.IsOwn (program :: h.programs), nextId⟩ := by
  obtain ⟨scopes, fitsMachine, fitsTask⟩ := fits.activity checked fuel
  have ends := (sound callLimit _ fuel (.stmts program) fitsMachine fitsTask).mono
    (fun _ _ _ done => done.1.fits.table) fun _ _ _ stopped => stopped.1.fits.table
  have table := meets_endState.mp ends
  have programs : (h.run fuel source).programs = program :: h.programs := by simp [run, checked]
  rw [record, programs, session_run_of_check checked]
  exact congrArg (Resolution.mk · _ _) table

include fits in
theorem precedes_run (fuel : Nat) (source : String) : h.Precedes (h.run fuel source) := by
  rcases checked :
    Program.check source h.session.nextId with ⟨diagnostics | ⟨program, depths⟩, nextId⟩
  · have later := Program.le_nextId_check source h.session.nextId
    rw [checked] at later
    have programs : (h.run fuel source).programs = h.programs := by simp [run, checked]
    have session : (h.run fuel source).session = { h.session with nextId := nextId } := by
      rw [run, Session.run_of_refused checked]
    refine ⟨?_, ?_⟩
    · rw [record, record, programs, session]
      exact ⟨later, fun _ _ => rfl, fun _ _ => Iff.rfl⟩
    · rw [store, store, session]
      exact .refl _
  · refine ⟨?_, ?_⟩
    · rw [record_run_of_check fits checked]
      exact Session.record_grows h.programs checked
    · rw [store_run_of_check checked]
      exact (fits.activity checked fuel).precedes_endStore callLimit

end Run

theorem precedes_runAll (fits : h.session.Fits h.programs) (runs : List (Nat × String)) :
    h.Precedes (h.runAll runs) := by
  induction runs generalizing h with
  | nil => exact .refl h
  | cons run rest inductionHypothesis =>
    exact (precedes_run fits run.1 run.2).trans (inductionHypothesis (fits.run run.1 run.2))

/-- An activity of a session fits what is on record at the end of the session, or was by then, and
ends before the session does. -/
theorem Occurs.fits (occurs : h.Occurs runs a) (fits : h.session.Fits h.programs) :
    ∃ r, a.Fits r ∧ r.Grows (h.runAll runs).record ∧
      (a.endStore callLimit).Precedes (h.runAll runs).store := by
  induction occurs with
  | @now h fuel source rest program depths nextId a checked reaches =>
    have root := fits.activity checked fuel
    have later := precedes_runAll (h := h.run fuel source) (fits.run fuel source) rest
    refine ⟨_, reaches.fits root, ?_, ?_⟩
    · rw [← record_run_of_check fits checked fuel]
      exact later.record
    · have ends := reaches.endStore_precedes root
      rw [← store_run_of_check checked] at ends
      exact ends.trans later.store
  | @later h fuel source rest a _ inductionHypothesis =>
    exact inductionHypothesis (fits.run fuel source)

/-! ## Where classes come from -/

/-- Every class is declared by an activity that takes place while the texts are run. -/
def declarations (h : History) (runs : List (Nat × String)) : Origin where
  routine _ := True
  declared cls := ∃ a, h.Occurs runs a ∧ a.Declares cls

theorem declarations_covers (h : History) (runs : List (Nat × String)) :
    (h.declarations runs).Covers callLimit (h.Occurs runs) where
  inner _ _ _ _ := trivial
  starts := Occurs.starts
  declares {a _} occurs declares := ⟨a, occurs, declares⟩

theorem Occurs.madeFrom {origin : Origin} {occurs : Activity → Prop}
    (covers : origin.Covers callLimit occurs) (routines : ∀ routine, origin.routine routine)
    (all : ∀ a, h.Occurs runs a → occurs a) (made : h.store.MadeFrom origin)
    (here : h.Occurs runs a) :
    a.MadeFrom origin := by
  induction here with
  | @now h fuel source rest program depths nextId a checked reaches =>
    have root : (h.session.activity fuel program depths).MadeFrom origin :=
      ⟨made, fun routine _ => routines routine⟩
    have member {b : Activity}
      (reaches : (h.session.activity fuel program depths).Reaches callLimit b) :
        occurs b := all b (.now checked reaches)
    induction reaches with
    | refl => exact root
    | tail earlier starts inductionHypothesis =>
      exact starts.madeFrom covers (member earlier) inductionHypothesis
  | @later h fuel source rest a _ inductionHypothesis =>
    refine inductionHypothesis (fun b occurs => all b (.later occurs)) ?_
    rcases checked :
      Program.check source h.session.nextId with ⟨diagnostics | ⟨program, depths⟩, nextId⟩
    · rw [store, run, Session.run_of_refused checked]
      exact made
    · rw [store_run_of_check checked]
      have root := all _ (.now checked .refl)
      have ends :=
        (Task.stmts program).faithful covers fuel root (fun routine _ => routines routine) made
      exact meets_endState.mp (ends.imp fun _ _ _ done => done.1)

end History

end Lox
