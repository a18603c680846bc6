import Lox.Proofs.Scope.Anchors
import Lox.Proofs.Session.Respanning
import Lox.Proofs.Token.Lexing

set_option autoImplicit false

/-!
# Where faults stand

Every fault that a session reports stands at a token of a text that it has run. Faults of grammar
and of scoping stand at tokens of the text that is being run. A fault at run time can stand in an
earlier text, whose functions the session has kept.

A session has no spans but those of tokens that were run: replacing others leaves it as it is, and
then leaves as they are the faults that it runs into.
-/

namespace Lox

/-! ## Lines -/

/-- The places in a text are on its lines. -/
theorem Position.line_after_of_prefix {before text : List Char} (front : before <+: text) :
    1 ≤ (({} : Position).after before).line ∧
      (({} : Position).after before).line ≤ text.count '\n' + 1 := by
  have line := (Position.after_eq (p := {}) before).2
  have fewer := front.sublist.count_le '\n'
  dsimp only at line
  omega

namespace Token

def IsOf (source : String) (t : Token) : Prop :=
  ∃ tokens, tokenize source = .ok tokens ∧ t ∈ tokens

theorem IsOf.line {source : String} {t : Token} (isOf : t.IsOf source) :
    1 ≤ t.span.line ∧ t.span.line ≤ source.toList.count '\n' + 1 := by
  obtain ⟨tokens, scanned, member⟩ := isOf
  rcases arises_of_tokenize scanned member with ⟨_, before, piece, after, whole, _, _,
    _, span⟩ | rfl
  · rw [span, whole]
    exact Position.line_after_of_prefix (List.prefix_append before (piece ++ after))
  · exact Position.line_after_of_prefix List.prefix_rfl

theorem line_of_mem_scan {source : String} {e : ScanError} (member : .error e ∈ scan source) :
    1 ≤ e.line ∧ e.line ≤ source.toList.count '\n' + 1 := by
  obtain ⟨before, front, line⟩ := (scan_eq_iff.mp rfl).line_of_error member
  rw [line]
  exact Position.line_after_of_prefix front

def HasSpan (source : String) (span : Span) : Prop :=
  ∃ t : Token, t.IsOf source ∧ t.kind ≠ .endOfInput ∧ t.span = span

end Token

/-! ## Faults -/

/-- The fault stands in a text: where the scanner finds it, or at a token. -/
inductive Diagnostic.StandsIn (source : String) : Diagnostic → Prop where
  | scan {e : ScanError} : .error e ∈ Token.scan source → StandsIn source (.scan e)
  | parse {e : ParseError} {t : Token} : t.IsOf source → e.line = t.span.line →
      e.location = t.text →
    StandsIn source (.parse e)
  | scope {e : ScopeError} {t : Token} : t.IsOf source → e.line = t.span.line →
      e.lexeme = t.lexeme →
    StandsIn source (.scope e)
  | runtime {e : RuntimeError} : Token.HasSpan source e.span → StandsIn source (.runtime e)

theorem Diagnostic.StandsIn.line {source : String} {d : Diagnostic} (stands : d.StandsIn source) :
    1 ≤ d.line ∧ d.line ≤ source.toList.count '\n' + 1 := by
  cases stands with
  | scan member => exact Token.line_of_mem_scan member
  | @parse e t isOf line _ | @scope e t isOf line _ =>
    change 1 ≤ e.line ∧ e.line ≤ _
    rw [line]
    exact isOf.line
  | @runtime e found =>
    obtain ⟨t, isOf, _, span⟩ := found
    change 1 ≤ e.span.line ∧ e.span.line ≤ _
    rw [← span]
    exact isOf.line

namespace Program

variable {source : String} {tokens : List Token} {firstId nextId : ExprId} {program : Program}

theorem standsIn_of_parse {errors : List ParseError} (scanned : Token.tokenize source = .ok tokens)
    (refused : (parse tokens firstId).result = .error errors) :
    ∀ e ∈ errors, (Diagnostic.parse e).StandsIn source :=
  fun _ member => .parse
    ⟨tokens, scanned, token_mem_of_parse (Token.exists_isEnd_of_tokenize scanned) refused
      member⟩ rfl rfl

theorem standsIn_of_resolve {errors : List ScopeError}
    (scanned : Token.tokenize source = .ok tokens)
    (parsed : parse tokens firstId = ⟨.ok program, nextId⟩)
    (refused : program.resolve = .error errors) :
    ∀ e ∈ errors, (Diagnostic.scope e).StandsIn source := by
  intro e member
  obtain ⟨t, inside, span, word⟩ := isWordOf_of_resolve parsed refused member
  have lexeme : e.lexeme = t.lexeme := by
    rcases Token.arises_of_tokenize scanned inside with arises | rfl
    · rcases word with identifier | ⟨word, keyword, text⟩
      · exact (arises.of_identifier identifier).1.symm
      · rw [← text, (arises.kind_eq_keyword_iff word).mp keyword]
    · rcases word with identifier | ⟨word, keyword, -⟩
      · cases identifier
      · cases keyword
  exact .scope ⟨tokens, scanned, inside⟩ (congrArg Span.line span.symm) lexeme

/-- A text is refused with faults that stand in it. -/
theorem standsIn_of_check {diagnostics : List Diagnostic}
    (checked : check source firstId = (.error diagnostics, nextId)) :
    ∀ d ∈ diagnostics, d.StandsIn source := by
  unfold check at checked
  split at checked
  · rename_i e faulty
    cases checked
    exact List.forall_mem_singleton.mpr (.scan (Token.mem_itemsFrom_of_tokensFrom faulty))
  · rename_i tokens scanned
    dsimp only at checked
    split at checked
    · rename_i errors refused
      cases checked
      exact List.forall_mem_map.mpr (standsIn_of_parse scanned refused)
    · rename_i program parsed
      split at checked
      · rename_i errors refused
        cases checked
        have whole : parse tokens firstId = ⟨.ok program, _⟩ := congrArg (Parsed.mk · _) parsed
        exact List.forall_mem_map.mpr (standsIn_of_resolve scanned whole refused)
      · cases checked

/-- An accepted text has no spans but those of its tokens. -/
theorem relabel_of_hasSpan {depths : Depths}
    (checked : check source firstId = (.ok (program, depths), nextId)) {f : Span → Span}
    (same : ∀ span, Token.HasSpan source span → f span = span) :
    program.relabel (.spans f) = program := by
  obtain ⟨tokens, scanned, parsed, -⟩ := check_eq_ok_iff.mp checked
  refine relabel_of_parse parsed fun t member goesOn =>
    same _ ⟨t, ⟨tokens, scanned, member⟩, ?_, rfl⟩
  intro isEnd
  rw [Token.isEnd, isEnd] at goesOn
  cases goesOn

end Program

/-! ## Spans that a session keeps -/

namespace Session

/-- Replacing spans without a property leaves the session as it is. -/
def KeepsOnly (property : Span → Prop) (s : Session) : Prop :=
  ∀ f : Span → Span, (∀ span, property span → f span = span) → s.respan f = s

/-- A span that is not replaced although all spans without a property are. -/
theorem property_of_fixed {property : Span → Prop} {span : Span}
    (fixed : ∀ f : Span → Span, (∀ span, property span → f span = span) → f span = span) :
    property span := by
  classical
  by_contra lacks
  have moved :=
    fixed (fun span => if property span then span else { span with start := span.start + 1 })
    fun span holds => if_pos holds
  rw [if_neg lacks] at moved
  have starts : span.start + 1 = span.start := congrArg Span.start moved
  omega

variable {s : Session} {property : Span → Prop}

theorem KeepsOnly.mono {property' : Span → Prop} (keeps : s.KeepsOnly property)
    (implies : ∀ span, property span → property' span) : s.KeepsOnly property' :=
  fun f same => keeps f fun span holds => same span (implies span holds)

theorem KeepsOnly.number (keeps : s.KeepsOnly property) (nextId : ExprId) :
    ({ s with nextId := nextId } : Session).KeepsOnly property :=
  fun f same => congrArg (fun s : Session => { s with nextId := nextId }) (keeps f same)

theorem execute_reports {fuel : Nat} {program : Program} {depths : Depths} {d : Diagnostic}
    (reported : d ∈ (s.execute fuel program depths).1.diagnostics) : ∃ e, d = .runtime e := by
  rw [execute_eq] at reported
  cases outcome : Eval.stmts callLimit fuel program
      { s.machine with depths := s.machine.depths.merge depths } with
  | ok flow m =>
    rw [outcome] at reported
    cases reported
  | error e m =>
    rw [outcome] at reported
    cases e with
    | fault error => exact ⟨error, List.mem_singleton.mp reported⟩
    | outOfFuel => cases reported

/-- A program with such spans only, in a session with such spans only, leaves and reports such
only. -/
theorem KeepsOnly.execute (keeps : s.KeepsOnly property) (program : Program)
    (spans : ∀ f : Span → Span, (∀ span, property span → f span = span) →
      program.relabel (.spans f) = program) (fuel : Nat) (depths : Depths) :
    (s.execute fuel program depths).2.KeepsOnly property ∧
      ∀ d ∈ (s.execute fuel program depths).1.diagnostics, ∃ e, d = .runtime e ∧
        property e.span := by
  have fixed (f : Span → Span) (same : ∀ span, property span → f span = span) :
      (s.execute fuel program depths).1.respan f = (s.execute fuel program depths).1 ∧
        (s.execute fuel program depths).2.respan f = (s.execute fuel program depths).2 := by
    have again := execute_respan f fuel program depths s
    rw [keeps f same, spans f same] at again
    exact ⟨(congrArg Prod.fst again).symm, (congrArg Prod.snd again).symm⟩
  refine ⟨fun f same => (fixed f same).2, fun d member => ?_⟩
  obtain ⟨e, rfl⟩ := execute_reports member
  refine ⟨e, rfl, property_of_fixed fun f same => ?_⟩
  have reports : (s.execute fuel program depths).1.diagnostics.map (Diagnostic.respan f) =
      (s.execute fuel program depths).1.diagnostics.map id := by
    rw [List.map_id]
    exact congrArg Report.diagnostics (fixed f same).1
  have unchanged := List.map_inj_left.mp reports _ member
  injection unchanged with errors
  exact congrArg RuntimeError.span errors

/-- One run adds spans of tokens of its text. What it reports stands in its text, or is a fault at
run time with a span that was there. -/
theorem KeepsOnly.run (keeps : s.KeepsOnly property) (fuel : Nat) (source : String) :
    (s.run fuel source).2.KeepsOnly (fun span => property span ∨ Token.HasSpan source span) ∧
      ∀ d ∈ (s.run fuel source).1.diagnostics, d.StandsIn source ∨
        ∃ e, d = .runtime e ∧ property e.span := by
  have more : s.KeepsOnly fun span => property span ∨ Token.HasSpan source span :=
    keeps.mono fun _ => .inl
  rcases checked : Program.check source s.nextId with ⟨diagnostics | ⟨program, depths⟩, nextId⟩
  · rw [run_of_refused checked]
    exact ⟨more.number nextId, fun d member => .inl (Program.standsIn_of_check checked d member)⟩
  · rw [run_eq, checked]
    obtain ⟨left, reported⟩ := (more.number nextId).execute program
      (fun f same => Program.relabel_of_hasSpan checked fun span found => same span (.inr found))
      fuel depths
    refine ⟨left, fun d member => ?_⟩
    obtain ⟨e, rfl, old | new⟩ := reported d member
    · exact .inr ⟨e, rfl, old⟩
    · exact .inl (.runtime new)

end Session

namespace History

variable {h : History} {property : Span → Prop}

/-- Spans that a session keeps are spans of tokens that it has run. -/
theorem keepsOnly_runAll (keeps : h.session.KeepsOnly property) (runs : List (Nat × String)) :
    (h.runAll runs).session.KeepsOnly fun span =>
      property span ∨ ∃ source ∈ runs.map Prod.snd, Token.HasSpan source span := by
  induction runs generalizing h property with
  | nil => exact keeps.mono fun _ => .inl
  | cons run rest inductionHypothesis =>
    have behind : (h.run run.1 run.2).session.KeepsOnly fun span =>
        property span ∨ Token.HasSpan run.2 span := (keeps.run run.1 run.2).1
    refine (inductionHypothesis behind).mono ?_
    rintro span ((old | new) | ⟨source, member, found⟩)
    · exact .inl old
    · exact .inr ⟨run.2, List.mem_cons_self, new⟩
    · exact .inr ⟨source, List.mem_cons_of_mem _ member, found⟩

/-- Every fault that is reported while texts are run one after another stands in a text that was
run: the latest one, unless it is a fault at run time. Its line is a line of that text. -/
theorem diagnostics_stand_in_source (clock : Clock) (output : Output) (runs : List (Nat × String))
    (fuel : Nat) (source : String) :
    ∀ d ∈ (((start clock output).runAll runs).session.run fuel source).1.diagnostics,
      ∃ origin ∈ source :: runs.map Prod.snd, (d.isStatic = true → origin = source) ∧
        d.StandsIn origin ∧ 1 ≤ d.line ∧ d.line ≤ origin.toList.count '\n' + 1 := by
  intro d member
  have fresh : (start clock output).session.KeepsOnly fun _ => False :=
    fun f _ => Session.respan_start f clock output
  obtain ⟨-, reported⟩ := (keepsOnly_runAll fresh runs).run fuel source
  rcases reported d member with here | ⟨e, rfl, impossible | ⟨origin, earlier, found⟩⟩
  · exact ⟨source, List.mem_cons_self, fun _ => rfl, here, here.line⟩
  · exact absurd impossible not_false
  · have stands : (Diagnostic.runtime e).StandsIn origin := .runtime found
    exact ⟨origin, List.mem_cons_of_mem _ earlier, nofun, stands, stands.line⟩

/-- A function that the session has kept fails when a later text calls it, on a line that the later
text does not have. -/
theorem diagnostics_stand_in_source_kept_function :
    let kept := "fun f() \x7b\n  return\n    x; \x7d"
    let reported :=
      (((start ⟨fun _ => 0, 0⟩ {}).runAll [(60, kept)]).session.run 60 "f();").1.diagnostics
    reported.map Diagnostic.line = [3] ∧ ∀ d ∈ reported, d.StandsIn kept := by
  intro kept reported
  have lines : reported.map Diagnostic.line = [3] := by decide +kernel
  refine ⟨lines, fun d member => ?_⟩
  have third : d.line = 3 := by
    have inside := List.mem_map_of_mem (f := Diagnostic.line) member
    rw [lines] at inside
    exact List.mem_singleton.mp inside
  obtain ⟨origin, among, -, stands, -, bounded⟩ :=
    diagnostics_stand_in_source ⟨fun _ => 0, 0⟩ {} [(60, kept)] 60 "f();" d member
  rcases List.mem_cons.mp among with rfl | earlier
  · have short : "f();".toList.count '\n' + 1 = 1 := by decide +kernel
    omega
  · rwa [List.mem_singleton.mp earlier] at stands

end History

end Lox
