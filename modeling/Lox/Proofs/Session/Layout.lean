import Lox.Proofs.Session.Respanning
import Lox.Proofs.Token.Lexing

set_option autoImplicit false

/-!
# Layout

How a text is laid out, with blanks, line feeds and comments between its tokens, shows in the spans
of its tokens only. Two layouts of one text are compared with a third one, whose tokens have their
indices as spans. Both texts are run as that one, with their own spans put in for the indices.
-/

namespace Lox

namespace Token

def indexed (tokens : List Token) : List Token :=
  tokens.mapIdx fun i t => ⟨t.kind, t.lexeme, ⟨i, 0, 0, 0⟩⟩

def spanAt (tokens : List Token) (index : Span) : Span :=
  match tokens[index.start]? with
  | some t => t.span
  | none => index

theorem indexed_eq_of_forms {tokens tokens' : List Token}
    (same : tokens.map form = tokens'.map form) :
    indexed tokens = indexed tokens' := by
  have ofForms (tokens : List Token) : indexed tokens =
      (tokens.map form).mapIdx fun i f => ⟨f.1, f.2, ⟨i, 0, 0, 0⟩⟩ := by
    refine List.ext_getElem? fun i => ?_
    rw [indexed, List.getElem?_mapIdx, List.getElem?_mapIdx, List.getElem?_map, Option.map_map]
    rfl
  rw [ofForms, ofForms, same]

theorem map_respan_indexed (tokens : List Token) :
    (indexed tokens).map (respan (spanAt tokens)) = tokens := by
  refine List.ext_getElem? fun i => ?_
  rw [List.getElem?_map, indexed, List.getElem?_mapIdx]
  cases found : tokens[i]? with
  | none => rfl
  | some t =>
    simp only [Option.map_some, respan, spanAt, found]

theorem exists_isEnd_indexed {tokens : List Token} (finished : ∃ t ∈ tokens, t.isEnd = true) :
    ∃ t ∈ indexed tokens, t.isEnd = true := by
  obtain ⟨t, member, isEnd⟩ := finished
  obtain ⟨i, small, rfl⟩ := List.mem_iff_getElem.mp member
  exact ⟨_, List.mem_mapIdx.mpr ⟨i, small, rfl⟩, isEnd⟩

end Token

namespace Diagnostic

/-- Faults of the same phase with the same cause, at tokens that look the same. -/
inductive Alike : Diagnostic → Diagnostic → Prop where
  | scan {e e' : ScanError} : e'.cause = e.cause → Alike (.scan e) (.scan e')
  | parse {e e' : ParseError} : e'.cause = e.cause → e'.location = e.location →
    Alike (.parse e) (.parse e')
  | scope {e e' : ScopeError} : e'.cause = e.cause → e'.lexeme = e.lexeme →
      Alike (.scope e) (.scope e')
  | runtime {e e' : RuntimeError} : e'.cause = e.cause → Alike (.runtime e) (.runtime e')

theorem alike_respan (f g : Span → Span) (d : Diagnostic) : (d.respan f).Alike (d.respan g) := by
  cases d with
  | scan e => exact .scan rfl
  | parse e => exact .parse rfl rfl
  | scope e => exact .scope rfl rfl
  | runtime e => exact .runtime rfl

/-- The texts of such faults differ in the line numbers only. -/
theorem Alike.text {d d' : Diagnostic} (alike : d.Alike d') :
    ∃ before after, d.text = before ++ toString d.line ++ after ∧
      d'.text = before ++ toString d'.line ++ after := by
  cases alike with
  | @scan e e' cause =>
    refine ⟨"[line ", "] Error: " ++ e.message, String.append_assoc .., ?_⟩
    rw [ScanError.message, ← cause]
    exact String.append_assoc ..
  | @parse e e' cause location =>
    refine ⟨"[line ", "] Error at " ++ e.location ++ ": " ++ e.message, ?_, ?_⟩
    · simp only [Diagnostic.text, ParseError.text, Diagnostic.line, String.append_assoc]
    · simp only [Diagnostic.text, ParseError.text, Diagnostic.line, String.append_assoc, location,
        ParseError.message, cause]
  | @scope e e' cause lexeme =>
    refine ⟨"[line ", "] Error at '" ++ e.lexeme ++ "': " ++ e.cause.message, ?_, ?_⟩
    · simp only [Diagnostic.text, ScopeError.text, Diagnostic.line, String.append_assoc]
    · simp only [Diagnostic.text, ScopeError.text, Diagnostic.line, String.append_assoc,
        lexeme, cause]
  | @runtime e e' cause =>
    refine ⟨e.message ++ "\n[line ", "]", rfl, ?_⟩
    rw [RuntimeError.message, ← cause]
    rfl

end Diagnostic

namespace Session

/-- Runs that end in the same way and print the same. Their faults agree pairwise in phase, cause
and message, and the texts of these differ in line numbers only. -/
structure RanAlike (ran ran' : Report × Session) : Prop where
  outcome : ran'.1.outcome = ran.1.outcome
  output : ran'.2.machine.output = ran.2.machine.output
  diagnostics : List.Forall₂ (fun d d' => d.Alike d' ∧ ∃ before after,
      d.text = before ++ toString d.line ++ after ∧ d'.text = before ++ toString d'.line ++ after)
    ran.1.diagnostics ran'.1.diagnostics

theorem ranAlike_respan (f g : Span → Span) (ran : Report × Session) :
    RanAlike (ran.map (Report.respan f) (respan f)) (ran.map (Report.respan g) (respan g)) where
  outcome := by rw [Prod.map_fst, Prod.map_fst, Report.outcome_respan, Report.outcome_respan]
  output := by rw [Prod.map_snd, Prod.map_snd, output_respan, output_respan]
  diagnostics := by
    rw [Prod.map_fst, Prod.map_fst, Report.respan, Report.respan, List.forall₂_map_left_iff,
      List.forall₂_map_right_iff, List.forall₂_same]
    exact fun d _ => ⟨d.alike_respan f g, (d.alike_respan f g).text⟩

/-- A text in a new session is run as its tokens are with their indices as spans. -/
theorem run_start_eq_indexed {source : String} {tokens : List Token}
    (scanned : Token.tokenize source = .ok tokens) (fuel : Nat) (clock : Clock) (output : Output) :
    (start clock output).run fuel source =
      ((start clock output).runTokens fuel (Token.indexed tokens)).map
        (Report.respan (Token.spanAt tokens)) (respan (Token.spanAt tokens)) := by
  have finished := Token.exists_isEnd_of_tokenize scanned
  have moved := runTokens_respan (Token.spanAt tokens) (Token.exists_isEnd_indexed finished) fuel
    (start clock output)
  rw [Token.map_respan_indexed] at moved
  rw [run_eq_runTokens scanned, ← moved, respan_start]

/-- Layout does not matter. Two texts whose tokens have the same lexemes, and so are of the same
kinds, do the same in a new session, whatever stands between their tokens. -/
theorem run_start_layout {source source' : String} {tokens tokens' : List Token}
    (scanned : Token.tokenize source = .ok tokens) (scanned' : Token.tokenize source' = .ok tokens')
    (same : tokens.map Token.lexeme = tokens'.map Token.lexeme) (fuel : Nat) (clock : Clock)
    (output : Output) :
    tokens.map Token.kind = tokens'.map Token.kind ∧
      RanAlike ((start clock output).run fuel source) ((start clock output).run fuel source') := by
  have forms := Token.forms_eq_of_lexemes scanned scanned' same
  constructor
  · have kinds := congrArg (List.map Prod.fst) forms
    rwa [List.map_map, List.map_map] at kinds
  · rw [run_start_eq_indexed scanned, run_start_eq_indexed scanned',
      Token.indexed_eq_of_forms forms]
    exact ranAlike_respan ..

/-- A method that fails, with a comment and line feeds inside it in the second layout. -/
theorem run_start_layout_two_lines :
    let source := "class A \x7b m() \x7b print this.b; \x7d \x7d print \"a\"; A().m();"
    let source' :=
      "class A\n\x7b m() \x7b print // c\n  this.b; \x7d \x7d print/**/\"a\";A()\n.m();"
    let ran := (start ⟨fun _ => 0, 0⟩ {}).run 60 source
    let ran' := (start ⟨fun _ => 0, 0⟩ {}).run 60 source'
    RanAlike ran ran' ∧ ran.1.outcome = .runtimeError ∧ ran'.2.machine.output.text = "a\n" ∧
      ran.1.diagnostics.map Diagnostic.line = [1] ∧
        ran'.1.diagnostics.map Diagnostic.line = [3] := by
  intro source source' ran ran'
  let lexemes :=
    ["class", "A", "\x7b", "m", "(", ")", "\x7b", "print", "this", ".", "b", ";", "\x7d", "\x7d",
      "print", "\"a\"", ";", "A", "(", ")", ".", "m", "(", ")", ";", ""]
  have read : (Token.tokenize source).toOption.map (List.map Token.lexeme) = some lexemes := by
    decide +kernel
  have read' : (Token.tokenize source').toOption.map (List.map Token.lexeme) = some lexemes := by
    decide +kernel
  obtain ⟨tokens, scanned, here⟩ := Token.exists_tokens_of_lexemes read
  obtain ⟨tokens', scanned', here'⟩ := Token.exists_tokens_of_lexemes read'
  have alike := (run_start_layout scanned scanned' (here.trans here'.symm) 60 ⟨fun _ => 0, 0⟩ {}).2
  exact ⟨alike, by decide +kernel, by decide +kernel, by decide +kernel, by decide +kernel⟩

end Session

end Lox
