import Lox.Proofs.Evaluation.Simulation
import Lox.Proofs.Scope.Renaming
import Lox.Proofs.Session.Runs

set_option autoImplicit false

/-!
# Renaming does not change what a program does

A local variable may be called by any name that its program does not use. The program with the new
name is accepted with the same depths, prints the same and ends in the same way, whatever it does
with the variable: closures keep it, and declarations further in hide it, under either name.
-/

namespace Lox

/-- The interruption without the name in a report of a missing binding. -/
def Interruption.unnamed : Interruption → Interruption
  | .fault ⟨.scopeMismatch _ distance, span⟩ => .fault ⟨.scopeMismatch "" distance, span⟩
  | interruption => interruption

theorem Interruption.Similar.unnamed {c : Correspondence} {e e' : Interruption}
    (similar : e.Similar c e') : e'.unnamed = e.unnamed := by
  cases similar <;> rfl

theorem EndsSimilar.unnamed {c : Correspondence} {ending ending' : Except Interruption Unit}
    (similar : EndsSimilar c ending ending') :
    ending'.mapError Interruption.unnamed = ending.mapError Interruption.unnamed := by
  cases similar with
  | ok => rfl
  | error faults => exact congrArg Except.error faults.unnamed

/-- A machine before its first program is similar to itself, whatever it will take the names of
local variables for. -/
theorem Machine.similar_start {c : Correspondence} (lawful : c.Lawful) (clock : Clock)
    (output : Output) {depths depths' : Depths} (records : c.Records depths depths') :
    Machine.Similar c [false] [] { start clock output with depths := depths }
      { start clock output with depths := depths' } where
  store := by
    refine ⟨rfl, rfl, rfl, rfl, ?_, fun _ _ => .none⟩
    intro id mark a a' known name
    cases id with
    | succ id => cases known
    | zero =>
      cases known
      rw [← lawful.top name]
      exact optionRel_insert .none "clock" (.native .clock)
  top := ⟨rfl, .global rfl⟩
  inside := ⟨rfl, .global rfl⟩
  depths := records
  output := rfl
  callDepth := rfl
  clock := rfl

namespace Program

/-- A local variable can be renamed to any name that its program does not use for a variable, but
for `this` and `super`. -/
theorem run_rename {source : String} {firstId nextId : ExprId} {program : Program} {depths : Depths}
    (checked : Program.check source firstId = (.ok (program, depths), nextId)) (declaration : Ident)
    (name : String) (legal : ¬IsReserved name) (fresh : name ∉ program.variableNames) :
    (program.rename ⟨declaration, name⟩ depths).resolve = .ok depths ∧
      ∀ (clock : Clock) (output : Output) (limit fuel : Nat),
        let before := (Machine.start clock output).run limit fuel program depths
        let after := (Machine.start clock output).run limit fuel
          (program.rename ⟨declaration, name⟩ depths) depths
        after.2.output = before.2.output ∧
          after.1.mapError Interruption.unnamed = before.1.mapError Interruption.unnamed := by
  obtain ⟨numbered, plain, accepted⟩ := Program.check_ok checked
  have obeys : program.Obeys
      (Scope.Resolution.rules ⟨depths, (· ∈ program.ownAssignments), nextId⟩) :=
    resolve_obeys accepted plain numbered.nodup (fun id member => (numbered.bounds id member).2)
      (fun _ _ => rfl) fun _ _ => Iff.rfl
  refine ⟨resolve_rename accepted obeys rfl legal fresh, fun clock output limit fuel => ?_⟩
  have lawful := Renaming.lawful_correspondence (r := ⟨declaration, name⟩) legal depths
  have records : (Renaming.correspondence ⟨declaration, name⟩ depths).Records
      (Depths.merge ∅ depths) (Depths.merge ∅ depths) := by
    refine ⟨by rintro i _ rfl; rfl, fun {marks i a a'} name => ?_⟩
    have entry : (Depths.merge ∅ depths)[i]? = depths[i]? := by simp [Depths.getElem?_merge]
    rw [entry]
    exact name
  obtain ⟨ends, next, machines⟩ := (Machine.similar_start lawful clock output records).run lawful
    (similar_rename obeys fresh) limit fuel
  exact ⟨machines.output, ends.unnamed⟩

/-- A variable that a function keeps and that another one of its name hides. The new name is that of
a built-in function, which the program does not use. -/
theorem run_rename_kept_variable :
    let source := "\x7b var a = \"x\"; fun get() \x7b return a; \x7d" ++
      " \x7b print a; var a = \"y\"; print a; \x7d a = get() + a; print get(); \x7d"
    ∃ program depths nextId renamed,
      Program.check source 0 = (.ok (program, depths), nextId) ∧
      renamed = program.rename ⟨⟨"a", 6, 7, 1, 6⟩, "clock"⟩ depths ∧
      program.variableNames = ["a", "get", "a", "a", "a", "a", "a", "get", "a", "get"] ∧
      renamed.variableNames =
        ["clock", "get", "clock", "clock", "a", "a", "clock", "get", "clock", "get"] ∧
      renamed.resolve = .ok depths ∧
      ((Machine.start ⟨fun _ => 0, 0⟩ {}).run callLimit 20 renamed depths).2.output.text =
        "x\ny\nxx\n" := by
  intro source
  have found : (Program.check source 0).1.toOption.any (fun (program, depths) =>
      program.variableNames = ["a", "get", "a", "a", "a", "a", "a", "get", "a", "get"] ∧
      (program.rename ⟨⟨"a", 6, 7, 1, 6⟩, "clock"⟩ depths).variableNames =
        ["clock", "get", "clock", "clock", "a", "a", "clock", "get", "clock", "get"] ∧
      ((Machine.start ⟨fun _ => 0, 0⟩ {}).run callLimit 20 program depths).2.output.text =
        "x\ny\nxx\n") = true := by
    decide +kernel
  cases checked : Program.check source 0 with
  | mk outcome nextId =>
    rw [checked] at found
    cases outcome with
    | error diagnostics => cases found
    | ok passed =>
      obtain ⟨program, depths⟩ := passed
      obtain ⟨before, after, printed⟩ := of_decide_eq_true found
      obtain ⟨accepted, same⟩ := run_rename checked ⟨"a", 6, 7, 1, 6⟩ "clock" (by decide)
        (by rw [before]; decide)
      refine ⟨program, depths, nextId, _, rfl, rfl, before, after, accepted, ?_⟩
      rw [(same ⟨fun _ => 0, 0⟩ {} callLimit 20).1]
      exact printed

end Program

end Lox
