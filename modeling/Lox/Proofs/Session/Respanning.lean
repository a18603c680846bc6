import Lox.Proofs.Scope.Joining
import Lox.Proofs.Session.Resting

set_option autoImplicit false

/-!
# Runs at other places

No phase behind the scanner looks at a span. The parser copies spans into programs and faults, the
resolver copies them into its faults, and so does the machine. So tokens with other spans are run as
the tokens are, with the other spans in all that is reported and kept.
-/

namespace Lox

def Diagnostic.respan (f : Span → Span) : Diagnostic → Diagnostic
  | .scan error => .scan error
  | .parse error => .parse (error.recast (.respan f))
  | .scope error => .scope (error.respan f)
  | .runtime error => .runtime (error.relabel (.spans f))

def Report.respan (f : Span → Span) (report : Report) : Report :=
  ⟨report.outcome, report.diagnostics.map (Diagnostic.respan f)⟩

theorem Report.outcome_respan (f : Span → Span) (report : Report) :
    (report.respan f).outcome = report.outcome := rfl

theorem Interruption.report_relabel (f : Span → Span) (e : Interruption) :
    (e.relabel (.spans f)).report = e.report.respan f := by
  cases e <;> rfl

theorem Depths.empty_merge (later : Depths) : Depths.merge ∅ later = later := by
  refine Std.ExtTreeMap.ext_getElem? fun {id} => ?_
  rw [getElem?_merge, Std.ExtTreeMap.getElem?_empty, Option.or_none]

namespace Program

/-- Where a program stands matters for the places of its faults only. -/
theorem resolve_relabel (f : Span → Span) (program : Program) :
    (program.relabel (.spans f)).resolve =
      program.resolve.mapError (List.map (ScopeError.respan f)) := by
  have moved := Stmt.resolveAll_under ∅ f program {}
  have nothing : ({} : Scope.State).under ∅ f = {} := by
    rw [Scope.State.under, Depths.empty_merge, Array.map_empty]
  rw [nothing] at moved
  unfold resolve relabel
  dsimp only
  rw [moved, Scope.State.under, Depths.empty_merge]
  dsimp only
  rw [Array.toList_map]
  by_cases clean : (Stmt.resolveAll program {}).errors = #[]
  · rw [if_pos (by simpa using clean), if_pos (by simpa using clean)]
    rfl
  · rw [if_neg (by simpa using clean), if_neg (by simpa using clean)]
    rfl

theorem parse_respan_tokens (f : Span → Span) {tokens : List Token} (firstId : ExprId)
    (finished : ∃ t ∈ tokens, t.isEnd = true) :
    parse (tokens.map (Token.respan f)) firstId = (parse tokens firstId).recast (.respan f) :=
  parse_recast (.respan f) tokens firstId (.inl finished)

end Program

namespace Session

def respan (f : Span → Span) (s : Session) : Session :=
  { s with machine := s.machine.respan f }

theorem output_respan (f : Span → Span) (s : Session) :
    (s.respan f).machine.output = s.machine.output := rfl

theorem respan_start (f : Span → Span) (clock : Clock) (output : Output) :
    (start clock output).respan f = start clock output := by
  rw [respan, Machine.respan, relabel_start]

/-- Executing a program at another place, in a session that has run programs at other places. -/
theorem execute_respan (f : Span → Span) (fuel : Nat) (program : Program) (depths : Depths)
    (s : Session) :
    (s.respan f).execute fuel (program.relabel (.spans f)) depths =
      (s.execute fuel program depths).map (Report.respan f) (respan f) := by
  have moved : Eval.stmts callLimit fuel (program.relabel (.spans f))
      { (s.respan f).machine with depths := s.machine.depths.merge depths } =
      Eval.respanOutcome f (Eval.stmts callLimit fuel program
        { s.machine with depths := s.machine.depths.merge depths }) :=
    Eval.stmts_respan f callLimit fuel program
      { s.machine with depths := s.machine.depths.merge depths }
  have depthsEq : (s.respan f).machine.depths = s.machine.depths := rfl
  rw [execute_eq, execute_eq, depthsEq, moved]
  cases Eval.stmts callLimit fuel program
      { s.machine with depths := s.machine.depths.merge depths } with
  | ok flow m => rfl
  | error e m => exact Prod.ext (e.report_relabel f) rfl

/-! ## The phases behind the scanner -/

def runTokens (fuel : Nat) (tokens : List Token) (s : Session) : Report × Session :=
  let parsed := Program.parse tokens s.nextId
  let s := { s with nextId := parsed.nextId }
  match parsed.result with
  | .error errors => (⟨.staticError, errors.map .parse⟩, s)
  | .ok program =>
    match program.resolve with
    | .error errors => (⟨.staticError, errors.map .scope⟩, s)
    | .ok depths => s.execute fuel program depths

theorem run_eq_runTokens {source : String} {tokens : List Token}
    (scanned : Token.tokenize source = .ok tokens) (fuel : Nat) (s : Session) :
    s.run fuel source = s.runTokens fuel tokens := by
  rw [run, scanned]
  rfl

/-- Tokens at other places are run as the tokens are. -/
theorem runTokens_respan (f : Span → Span) {tokens : List Token}
    (finished : ∃ t ∈ tokens, t.isEnd = true) (fuel : Nat) (s : Session) :
    (s.respan f).runTokens fuel (tokens.map (Token.respan f)) =
      (s.runTokens fuel tokens).map (Report.respan f) (respan f) := by
  unfold runTokens
  have parsed : Program.parse (tokens.map (Token.respan f)) (s.respan f).nextId =
      (Program.parse tokens s.nextId).recast (.respan f) :=
    Program.parse_respan_tokens f s.nextId finished
  rw [parsed]
  cases result : (Program.parse tokens s.nextId).result with
  | error errors =>
    simp only [Parsed.recast, result, Prod.map, Report.respan, List.map_map]
    rfl
  | ok program =>
    simp only [Parsed.recast, result]
    have resolved : (program.relabel (Recast.respan f).labels).resolve = _ :=
      program.resolve_relabel f
    rw [resolved]
    cases program.resolve with
    | error errors =>
      simp only [Except.mapError, Prod.map, Report.respan, List.map_map]
      rfl
    | ok depths =>
      exact execute_respan f fuel program depths
        { s with nextId := (Program.parse tokens s.nextId).nextId }

end Session

end Lox
