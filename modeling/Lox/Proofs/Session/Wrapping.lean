import Lox.Proofs.Evaluation.PaddedRuns
import Lox.Proofs.Scope.Wrapping
import Lox.Proofs.Session.Numbers
import Lox.Proofs.Session.Respanning

set_option autoImplicit false

/-!
# Blocks around statements

A statement that is no declaration may stand in a block of its own. The program is refused for the
same faults, or accepted with one more scope to pass for the names that the statement takes from
outside. It prints the same and ends in the same way, also if closures keep the frame of the block.
So it does not matter that a for statement is read without the blocks that its missing clauses would
need.
-/

namespace Lox.Program

/-- Two programs print the same from the start, and end in the same way or not at all. An end of the
first one that is reached with some bound on the recursion is reached by the second one with three
times as much, and an end of the second one is reached by the first one with the same bound. What
either has printed when it is cut off, the other one prints too. -/
def RunsLike (program : Program) (depths : Depths) (program' : Program) (depths' : Depths) : Prop :=
  ∀ (clock : Clock) (output : Output) (limit fuel fuel' : Nat),
    let run := (Machine.start clock output).run limit fuel program depths
    let run' := (Machine.start clock output).run limit fuel' program' depths'
    (3 * fuel ≤ fuel' → Confirms run' run) ∧ (fuel' ≤ fuel → Confirms run run')

/-- Two programs are refused for the same faults, or are accepted and run like each other. -/
structure BehavesLike (program program' : Program) : Prop where
  refused : ∀ errors, program'.resolve = .error errors ↔ program.resolve = .error errors
  accepted : ∀ depths, program.resolve = .ok depths →
    ∃ depths', program'.resolve = .ok depths' ∧ RunsLike program depths program' depths'

section Padded

variable {program program' : Program} {depths depths' : Depths} {first last : Nat}

/-- The depths on record for two programs that were accepted, one of them padded, go with the
scopes. -/
theorem allPadded_shifts (padded : Stmt.AllPadded Stmt.anyUse [] program program')
    (plain : program.Obeys .plain) (numbered : Numbered first last program.ids)
    (accepted : program.resolve = .ok depths) (accepted' : program'.resolve = .ok depths') :
    Stmt.AllPadded (Scope.Shifts depths depths') [] program program' := by
  have numbered' : Numbered first last program'.ids := by
    have ids : program'.ids = program.ids := padded.ids
    rwa [ids]
  have plain' : program'.Obeys .plain := padded.plain plain
  let r : Scope.Resolution := ⟨depths, (· ∈ program.ownAssignments), last⟩
  let r' : Scope.Resolution := ⟨depths', (· ∈ program'.ownAssignments), last⟩
  have obeys : program.Obeys r.rules :=
    resolve_obeys accepted plain numbered.nodup (fun id member => (numbered.bounds id member).2)
      (fun _ _ => rfl) fun _ _ => Iff.rfl
  have obeys' : program'.Obeys r'.rules :=
    resolve_obeys accepted' plain' numbered'.nodup (fun id member => (numbered'.bounds id member).2)
      (fun _ _ => rfl) fun _ _ => Iff.rfl
  exact padded.shifts .nil Layout.regular_nil obeys obeys'

theorem runsLike_of_shifts
    (padded : Stmt.AllPadded (Scope.Shifts depths depths') [] program program') :
    RunsLike program depths program' depths' := by
  intro clock output limit fuel fuel'
  have states := Machine.padded_start ⟨depths, depths'⟩ clock output
  simp only [Machine.run_eq_ending]
  have start : ∀ depths : Depths, { Machine.start clock output with
      depths := (Machine.start clock output).depths.merge depths } =
      { Machine.start clock output with depths := depths } := by
    intro depths
    have merged : (Machine.start clock output).depths.merge depths = depths :=
      Depths.empty_merge depths
    rw [merged]
  rw [start, start]
  constructor
  · intro enough
    have runs : Sustains ⟨depths, depths'⟩ .plain limit fuel fuel' := sustains _ limit enough
    exact (runs.stmts padded List.prefix_rfl states).confirms
  · intro enough
    have runs : Sustains ⟨depths, depths'⟩ .padded limit fuel fuel' := sustains _ limit enough
    exact (runs.stmts padded List.prefix_rfl states).confirmed

theorem behavesLike_of_padded (padded : Stmt.AllPadded Stmt.anyUse [] program program')
    (plain : program.Obeys .plain) (numbered : Numbered first last program.ids) :
    BehavesLike program program' := by
  have refused := resolve_error_iff_padded padded plain
  refine ⟨refused, fun depths accepted => ?_⟩
  cases accepted' : program'.resolve with
  | error errors => cases accepted.symm.trans ((refused errors).mp accepted')
  | ok depths' =>
    exact ⟨depths', rfl,
      runsLike_of_shifts (allPadded_shifts padded plain numbered accepted accepted')⟩

end Padded

/-- In a program that can be read, every statement that is no declaration may stand in a block of
its own, wherever it occurs. Then names that it takes from outside are found one scope further out,
and the depths of all other uses are the same. And every for statement may have both of its
blocks. -/
theorem fill_block_behavesLike {source : String} {firstId : ExprId} {program : Program}
    (read : Program.read? source firstId = some program) :
    (∀ (c : Context) (s : Stmt), program = c.fill s → s.declared? = none →
      BehavesLike program (c.fill (.block [s])) ∧
        ∀ depths depths', program.resolve = .ok depths →
          (c.fill (.block [s])).resolve = .ok depths' →
          ∀ id, (s.UsesOutside id → depths'[id]? = depths[id]?.map (· + 1)) ∧
            (¬s.UsesOutside id → depths'[id]? = depths[id]?)) ∧
      ∀ (c : Context) (initial : Option Stmt) (condition : Expr) (increment : Option Expr)
      (body : Stmt),
        program = c.fill (Grammar.forLoop initial condition increment body) →
          BehavesLike program (c.fill (Grammar.fullForLoop initial condition increment body)) := by
  obtain ⟨tokens, scanned, parsed⟩ := parse_of_read? read
  obtain ⟨numbered, plain⟩ := parse_ok (Token.tokenize_isPlain scanned) parsed
  constructor
  · rintro c s rfl undeclared
    have padded := c.padded (fun plain _ => Stmt.padded_block plain undeclared) plain
    have distinct' : (c.fill (.block [s])).ids.Nodup := by
      have ids : (c.fill (.block [s])).ids = (c.fill s).ids := padded.ids
      rw [ids]
      exact numbered.nodup
    have undeclared : s.declaredNames = [] := by
      obtain ⟨_, here⟩ := Stmt.exists_obeys_of_mem plain
        (List.mem_append_right c.before List.mem_cons_self)
      obtain ⟨_, inside⟩ := c.inner.exists_obeys here
      exact Stmt.declaredNames_eq_nil s inside undeclared
    refine ⟨behavesLike_of_padded padded plain numbered,
      fun depths depths' accepted accepted' => ?_⟩
    exact c.getElem?_depths_block undeclared accepted accepted' numbered.nodup distinct'
  · rintro c initial condition increment body rfl
    exact behavesLike_of_padded (c.padded (fun plain _ => Stmt.padded_forLoop plain) plain)
      plain numbered

/-- The third statement of a program that is one block, and the program around it. -/
def third? : Program → Option (Context × Stmt)
  | [.block (first :: second :: s :: rest)] => some (⟨[], .block [first, second] .hole rest, []⟩, s)
  | _ => none

theorem fill_of_third? {program : Program} {c : Context} {s : Stmt}
    (found : program.third? = some (c, s)) :
    program = c.fill s := by
  unfold third? at found
  split at found
  · cases found
    rfl
  · cases found

/-- A function that is made in a block around a condition, and called behind it. Its frame and its
uses of `a` lie one scope further in, and it still writes to the variable. -/
theorem fill_block_behavesLike_kept_frame :
    let source := "\x7b var a = \"x\"; var get; if (true) \x7b" ++
      " fun f() \x7b a = a + \"y\"; return a; \x7d get = f; \x7d get(); print get(); \x7d"
    ∃ (program : Program) (c : Context) (s : Stmt) (depths' : Depths),
      Program.read? source 0 = some program ∧ program = c.fill s ∧ s.declared? = none ∧
      (c.fill (.block [s])).resolve = .ok depths' ∧ depths'[3]? = some 3 ∧ depths'[9]? = some 0 ∧
      ((Machine.start ⟨fun _ => 0, 0⟩ {}).run callLimit 48 (c.fill (.block [s]))
        depths').2.output.text =
        "xyy\n" := by
  intro source
  have found : (Program.read? source 0).any (fun program => program.third?.any fun around =>
      around.2.declared?.isNone && decide (around.2.UsesOutside 3) && decide
        (¬around.2.UsesOutside 9) &&
        program.resolve.toOption.any fun depths =>
          let run := (Machine.start ⟨fun _ => 0, 0⟩ {}).run callLimit 16 program depths
          depths[3]? == some 2 && depths[9]? == some 0 && run.1.isOk &&
            run.2.output.text == "xyy\n") =
      true := by
    decide +kernel
  cases read : Program.read? source 0 with
  | none => simp [read] at found
  | some program =>
    cases third : program.third? with
    | none => simp [read, third] at found
    | some around =>
      obtain ⟨c, s⟩ := around
      cases accepted : program.resolve with
      | error errors => simp [read, third, accepted, Except.toOption] at found
      | ok depths =>
        simp only [read, third, accepted, Except.toOption, Option.any_some, Bool.and_eq_true,
          decide_eq_true_eq, beq_iff_eq, Option.isNone_iff_eq_none] at found
        obtain ⟨⟨⟨undeclared, outside⟩, inside⟩, ⟨⟨depth, unmoved⟩, finished⟩, printed⟩ := found
        have split := fill_of_third? third
        obtain ⟨wrapped, -⟩ := fill_block_behavesLike read
        obtain ⟨behaves, depthsOf⟩ := wrapped c s split undeclared
        obtain ⟨depths', accepted', runs⟩ := behaves.accepted depths accepted
        have shifted := depthsOf depths depths' accepted accepted'
        have confirmed := (runs ⟨fun _ => 0, 0⟩ {} callLimit 16 48).1 (by decide)
        refine ⟨program, c, s, depths', rfl, split, undeclared, accepted', ?_, ?_, ?_⟩
        · rw [(shifted 3).1 outside, depth]
          rfl
        · rw [(shifted 9).2 inside, unmoved]
        · rw [confirmed.output, printed]
          intro cutOff
          rw [cutOff] at finished
          cases finished

end Lox.Program
