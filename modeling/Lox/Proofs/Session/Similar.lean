import Lox.Proofs.Evaluation.Simulation
import Lox.Proofs.Grammar.Numbering
import Lox.Proofs.Scope.Similar
import Lox.Proofs.Session.Runs

set_option autoImplicit false

/-!
# Similar sessions

Two sessions that differ in the numbers of the expressions of their programs only. Whatever they
run, it is reported on and written in the same way, and they stay similar.
-/

namespace Lox

open Scope (Names Rules Resolution)

variable {id : ExprId → ExprId → Prop}

/-! ## One text in two sessions -/

/-- What the phases before execution make of a text: the same faults, or programs that differ in
their numbers only, with the same depths. -/
inductive Program.ChecksSimilar (id : ExprId → ExprId → Prop) :
    Except (List Diagnostic) (Program × Depths) × ExprId →
      Except (List Diagnostic) (Program × Depths) × ExprId → Prop where
  | error {diagnostics : List Diagnostic} {nextId nextId' : ExprId} :
    (∀ k, id (nextId + k) (nextId' + k)) →
      ChecksSimilar id (.error diagnostics, nextId) (.error diagnostics, nextId')
  | ok {program program' : Program} {depths depths' : Depths} {nextId nextId' : ExprId} :
    (∀ k, id (nextId + k) (nextId' + k)) → Stmt.AllSimilar (.numbering id) [] program program' →
      (∀ i i', id i i' → depths'[i']? = depths[i]?) →
      ChecksSimilar id (.ok (program, depths), nextId) (.ok (program', depths'), nextId')

theorem ScopeError.Similar.eq {error error' : ScopeError}
    (similar : error.Similar (.numbering id) error') : error = error' := by
  cases similar with
  | same => rfl
  | name same =>
    cases same
    rfl

theorem Program.check_similar (lawful : (Correspondence.numbering id).Lawful) (source : String)
    {firstId firstId' : ExprId} (numbers : ∀ k, id (firstId + k) (firstId' + k)) :
    ChecksSimilar id (Program.check source firstId) (Program.check source firstId') := by
  unfold Program.check
  cases scanned : Token.tokenize source with
  | error fault => exact .error numbers
  | ok tokens =>
    have parsed := Program.parse_similar tokens numbers
    dsimp only
    cases read : (Program.parse tokens firstId).result with
    | error errors =>
      rw [parsed.error read]
      exact .error parsed.numbers
    | ok program =>
      obtain ⟨program', read', programs⟩ := parsed.ok read
      rw [read']
      dsimp only
      have plain : program.Obeys .plain :=
        (Program.parse_ok (Token.tokenize_isPlain scanned) read).2
      have follows : (Correspondence.numbering id).Follows .plain := fun _ _ _ _ same => same
      cases resolved : program.resolve with
      | error errors =>
        obtain ⟨errors', refused, same⟩ :=
          resolve_error_of_similar lawful follows plain programs resolved
        have same : errors = errors' := List.forall₂_eq_eq_eq ▸ same.imp fun _ _ error => error.eq
        rw [refused, ← same]
        exact .error parsed.numbers
      | ok depths =>
        obtain ⟨depths', accepted, entries⟩ :=
          resolve_ok_of_similar lawful follows plain programs resolved
        rw [accepted]
        exact .ok parsed.numbers programs fun _ _ => entries

theorem Interruption.Similar.eq {e e' : Interruption} (similar : e.Similar (.numbering id) e') :
    e = e' := by
  cases similar with
  | same => rfl
  | mismatch same =>
    cases same
    rfl

namespace Session

structure Similar (id : ExprId → ExprId → Prop) (s s' : Session) : Prop where
  numbers : ∀ k, id (s.nextId + k) (s'.nextId + k)
  machine : ∃ world, s.machine.Similar (.numbering id) world [] s'.machine

variable {s s' : Session}

/-- Programs that differ in their numbers only are executed alike. -/
theorem Similar.execute (lawful : (Correspondence.numbering id).Lawful) (similar : s.Similar id s')
    {program program' : Program} {depths depths' : Depths}
    (programs : Stmt.AllSimilar (.numbering id) [] program program')
    (entries : ∀ i i', id i i' → depths'[i']? = depths[i]?) (fuel : Nat) :
    (s'.execute fuel program' depths').1 = (s.execute fuel program depths).1 ∧
      (s.execute fuel program depths).2.Similar id (s'.execute fuel program' depths').2 := by
  obtain ⟨world, machines⟩ := similar.machine
  have records : (Correspondence.numbering id).Records (s.machine.depths.merge depths)
      (s'.machine.depths.merge depths') := by
    refine ⟨fun {i i'} same => ?_, fun name => name⟩
    rw [Depths.getElem?_merge, Depths.getElem?_merge, entries i i' same, machines.depths.entry same]
  obtain ⟨ends, next, left⟩ := Machine.Similar.run lawful programs
    { machines with depths := records } callLimit fuel
  unfold Session.execute
  generalize s.machine.run callLimit fuel program depths = result,
    s'.machine.run callLimit fuel program' depths' = result' at ends left
  obtain ⟨ending, m⟩ := result
  obtain ⟨ending', m'⟩ := result'
  cases ends with
  | ok => exact ⟨rfl, similar.numbers, next, left⟩
  | @error e _ faults =>
    cases faults.eq
    cases e with
    | fault error | outOfFuel => exact ⟨rfl, similar.numbers, next, left⟩

/-- A text is reported on alike. -/
theorem Similar.run (lawful : (Correspondence.numbering id).Lawful) (similar : s.Similar id s')
    (fuel : Nat) (source : String) :
    (s'.run fuel source).1 = (s.run fuel source).1 ∧
      (s.run fuel source).2.Similar id (s'.run fuel source).2 := by
  have checks := Program.check_similar lawful source similar.numbers
  rw [run_eq, run_eq]
  generalize Program.check source s.nextId = result, Program.check source s'.nextId =
    result' at checks
  cases checks with
  | error numbers => exact ⟨rfl, numbers, similar.machine⟩
  | @ok _ _ _ _ nextId nextId' numbers programs entries =>
    have numbered : Similar id { s with nextId := nextId } { s' with nextId := nextId' } :=
      ⟨numbers, similar.machine⟩
    exact numbered.execute lawful programs entries fuel

/-- What is seen of a session that runs some texts, each with its bound on the recursion: behind
each of them, the report on it and all that was written up to then. -/
def transcript : List (Nat × String) → Session → List (Report × Output)
  | [], _ => []
  | (fuel, source) :: rest, s =>
    let result := s.run fuel source
    (result.1, result.2.machine.output) :: result.2.transcript rest

theorem Similar.transcript (lawful : (Correspondence.numbering id).Lawful)
    (similar : s.Similar id s')
    (runs : List (Nat × String)) : s'.transcript runs = s.transcript runs := by
  induction runs generalizing s s' with
  | nil => rfl
  | cons run rest inductionHypothesis =>
    obtain ⟨fuel, source⟩ := run
    obtain ⟨reports, later⟩ := similar.run lawful fuel source
    obtain ⟨world, machines⟩ := later.machine
    simp only [Session.transcript, reports, machines.output, inductionHypothesis later]

end Session

end Lox
