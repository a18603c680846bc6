import Lox.Proofs.Grammar.Completeness

set_option autoImplicit false

/-!
# Progress of readers

What a reader does is a sequence of steps: it passes a token that is no end mark, hands out a
number, or records a fault. The fault is at the next token, but for an assignment without a target,
which is reported at its equals sign behind the faults to the right of it. A reader that finds no
fault passes at least as many tokens as there have to be in what it reads, and a declaration passes
one also if a fault is found in it. All this holds whatever bounds the recursion. If there is
sixteen for each token that is left, and a few more for the levels of the grammar, the bound is
never reached.
-/

namespace Lox.Grammar

namespace State

/-- One step of a reader. No fault comes from the bound on the recursion where it is large
enough. -/
inductive Step (large : Prop) : State → State → Prop where
  | advance {s : State} {token : Token} {rest : List Token} :
    s.rest = token :: rest → Step large s s.behind
  | number {s : State} : Step large s { s with nextId := s.nextId + 1 }
  | record {s : State} {e : ParseError} :
    (large → e.cause ≠ .unfinished) → Step large s { s with errors := s.errors.push e }

abbrev Reaches (large : Prop) : State → State → Prop :=
  Relation.ReflTransGen (Step large)

variable {large : Prop} {s s' : State}

/-- What holds before some steps and is kept by each of them holds behind them. -/
theorem Reaches.keeps (reaches : Reaches large s s') (holds : State → Prop) (start : holds s)
    (step : ∀ {t t'}, Step large t t' → holds t → holds t') : holds s' := by
  induction reaches with
  | refl => exact start
  | tail _ last inductionHypothesis => exact step last inductionHypothesis

theorem Reaches.ends (reaches : Reaches large s s') (ends : s.Ends) : s'.Ends :=
  reaches.keeps Ends ends fun step ends => by cases step <;> exact ends

theorem Reaches.finish (reaches : Reaches large s s') : s'.finish = s.finish :=
  reaches.keeps (fun t => t.finish = s.finish) rfl fun step same => by cases step <;> exact same

/-- Tokens are only ever taken from the front. -/
theorem Reaches.suffix (reaches : Reaches large s s') : s'.rest <:+ s.rest := by
  refine reaches.keeps (fun t => t.rest <:+ s.rest) List.suffix_rfl ?_
  intro t t' step kept
  cases step with
  | advance => exact (List.tail_suffix _).trans kept
  | number | record => exact kept

/-- Under a bound that is large enough no fault that is recorded comes from it. -/
theorem Reaches.finished (reaches : Reaches True s s')
    (start : ∀ e ∈ s.errors, e.cause ≠ .unfinished) :
    ∀ e ∈ s'.errors, e.cause ≠ .unfinished := by
  refine reaches.keeps (fun t => ∀ e ∈ t.errors, e.cause ≠ .unfinished) start ?_
  intro t t' step known
  cases step with
  | advance | number => exact known
  | record genuine =>
    intro e member
    rcases Array.mem_push.mp member with member | rfl
    · exact known e member
    · exact genuine trivial

theorem Ends.length_behind (ends : s.Ends) (proper : s.next.kind ≠ .endOfInput) :
    s.behind.rest.length + 1 = s.rest.length := by
  rw [ends.rest_eq rfl proper, List.length_cons]

end State

open State (Reaches)

/-! ## Courses -/

/-- A fault, and how many tokens were left at the token that it is reported at, this one
included. -/
structure Report where
  fault : ParseError
  left : Nat

/-- How a reader goes from one state to another, and what it reports on the way. Tokens are passed,
numbers are handed out, and faults are reported at the next token. An assignment without a target is
reported at its equals sign behind what is reported in the expression to its right. -/
inductive Course (large : Prop) : State → State → List Report → Prop
  | refl {s : State} : Course large s s []
  | advance {s s' : State} {reports : List Report} {token : Token} {rest : List Token}
      (course : Course large s s' reports) (remaining : s'.rest = token :: rest) :
      Course large s s'.behind reports
  | number {s s' : State} {reports : List Report} (course : Course large s s' reports) :
      Course large s { s' with nextId := s'.nextId + 1 } reports
  | record {s s' : State} {reports : List Report} {e : ParseError}
      (course : Course large s s' reports)
      (here : e.token = s'.next) (other : e.cause ≠ .assignmentTarget)
      (genuine : large → e.cause ≠ .unfinished) :
      Course large s { s' with errors := s'.errors.push e } (reports ++ [⟨e, s'.rest.length⟩])
  | assignment {s t s' : State} {before inside : List Report} {equals : Token} {rest : List Token}
      {fuel : Nat} {value : Expr} (course : Course large s t before)
      (remaining : t.rest = equals :: rest)
      (read : expression fuel t.behind = .ok value s') (within : Course large t.behind s' inside) :
      Course large s { s' with errors := s'.errors.push ⟨.assignmentTarget, equals⟩ }
        (before ++ inside ++ [⟨⟨.assignmentTarget, equals⟩, t.rest.length⟩])

namespace Course

variable {large : Prop} {s s' s'' : State} {reports others : List Report}

theorem trans (first : Course large s s' reports) (second : Course large s' s'' others) :
    Course large s s'' (reports ++ others) := by
  induction second with
  | refl =>
    rw [List.append_nil]
    exact first
  | advance _ remaining inductionHypothesis => exact (inductionHypothesis first).advance remaining
  | number _ inductionHypothesis => exact (inductionHypothesis first).number
  | record _ here other genuine inductionHypothesis =>
    rw [← List.append_assoc]
    exact (inductionHypothesis first).record here other genuine
  | assignment _ remaining read within inductionHypothesis =>
    rw [← List.append_assoc, ← List.append_assoc]
    exact (inductionHypothesis first).assignment remaining read within

theorem reaches (course : Course large s s' reports) : Reaches large s s' := by
  induction course with
  | refl => exact .refl
  | advance _ remaining inductionHypothesis => exact inductionHypothesis.tail (.advance remaining)
  | number _ inductionHypothesis => exact inductionHypothesis.tail .number
  | record _ _ _ genuine inductionHypothesis => exact inductionHypothesis.tail (.record genuine)
  | assignment _ remaining _ _ inductionHypothesis inductionHypothesis' =>
    exact ((inductionHypothesis.tail (.advance remaining)).trans inductionHypothesis').tail
      (.record (by simp))

end Course

def State.Leads (large : Prop) (s s' : State) : Prop :=
  ∃ reports, Course large s s' reports

open State (Leads)

variable {α β : Type} {large : Prop} {s : State} {x y : Read α} {fuel need least : Nat}

theorem State.Leads.refl : Leads large s s :=
  ⟨[], .refl⟩

theorem State.Leads.trans {s' s'' : State} (first : Leads large s s')
    (second : Leads large s' s'') :
    Leads large s s'' := by
  obtain ⟨reports, course⟩ := first
  obtain ⟨others, further⟩ := second
  exact ⟨reports ++ others, course.trans further⟩

theorem State.Leads.reaches {s' : State} (leads : Leads large s s') : Reaches large s s' := by
  obtain ⟨reports, course⟩ := leads
  exact course.reaches

/-- A token that is no end mark can be passed. -/
theorem State.Ends.leads_behind (ends : s.Ends) (proper : s.next.kind ≠ .endOfInput) :
    Leads large s s.behind :=
  ⟨[], .advance .refl (ends.rest_eq rfl proper)⟩

structure Thrown (large : Prop) (s : State) (e : ParseError) : Prop where
  here : e.token = s.next
  other : e.cause ≠ .assignmentTarget
  genuine : large → e.cause ≠ .unfinished

theorem State.Leads.record {s' : State} {e : ParseError} (leads : Leads large s s')
    (thrown : Thrown large s' e) : Leads large s { s' with errors := s'.errors.push e } := by
  obtain ⟨reports, course⟩ := leads
  exact ⟨_, course.record thrown.here thrown.other thrown.genuine⟩

/-- A reader goes on a course, and passes so many tokens at least if it finds no fault. -/
def Moves (large : Prop) (least : Nat) (x : Read α) (s : State) : Prop :=
  Meets x s (fun _ s' => Leads large s s' ∧ s'.rest.length + least ≤ s.rest.length)
    fun e s' => Leads large s s' ∧ Thrown large s' e

/-- A reader moves everywhere. A bound on its recursion is large enough for it if there is sixteen
for each token, and so many more as it needs. -/
def Runs (fuel need least : Nat) (x : Read α) : Prop :=
  ∀ ⦃large : Prop⦄ ⦃s : State⦄, s.Ends → (large → 16 * s.rest.length + need ≤ fuel) →
    Moves large least x s

/-- What follows some steps starts where they end. -/
theorem Moves.behind {s' : State} {passed : Nat} (leads : Leads large s s')
    (fewer : s'.rest.length + passed ≤ s.rest.length) (moves : Moves large (least - passed) x s') :
    Meets x s' (fun _ t => Leads large s t ∧ t.rest.length + least ≤ s.rest.length)
      fun e t => Leads large s t ∧ Thrown large t e :=
  moves.mono (fun _ t _ done => ⟨leads.trans done.1, by have := done.2; omega⟩)
    fun _ _ _ stopped => ⟨leads.trans stopped.1, stopped.2⟩

/-- Passing a token that is no end mark leaves sixteen more for what follows. -/
theorem Moves.advance {f : Token → Read β} (ends : s.Ends) {kind : Token.Kind}
    (found : s.next.kind = kind) (proper : kind ≠ .endOfInput)
    (enough : large → 16 * s.rest.length + need ≤ fuel)
    (second : Runs fuel (need + 16) (least - 1) (f s.next)) :
    Moves large least (advance >>= f) s := by
  subst found
  have shorter := ends.length_behind proper
  refine meets_bind.mpr (meets_advance.mpr ?_)
  refine Moves.behind (ends.leads_behind proper) shorter.le (second ends fun holds => ?_)
  have := enough holds
  omega

namespace Runs

theorem weaken {need' least' : Nat} (runs : Runs fuel need' least' x) (needs : need' ≤ need)
    (passes : least ≤ least') : Runs fuel need least x := by
  intro large s ends enough
  refine (runs ends fun holds => by have := enough holds; omega).imp fun _ _ _ done => ?_
  exact ⟨done.1, by have := done.2; omega⟩

/-- One level of the recursion. -/
theorem succ (runs : Runs fuel (need - 1) least x) (positive : 0 < need) :
    Runs (fuel + 1) need least x :=
  fun _ _ ends enough => runs ends fun holds => by have := enough holds; omega

theorem exhausted (positive : 0 < need) : Runs 0 need least (exhausted : Read α) :=
  fun _ _ _ enough => ⟨.refl, rfl, by simp, fun holds => absurd (enough holds) (by omega)⟩

theorem pure {a : α} : Runs fuel need 0 (pure a) :=
  fun _ _ _ _ => ⟨.refl, le_rfl⟩

/-- What the first of two readers passes need not be passed by the second, and leaves it more for
its recursion. -/
theorem bind {need' passed : Nat} {f : α → Read β} (first : Runs fuel need' passed x)
    (needs : need' ≤ need) (second : ∀ a, Runs fuel (need + 16 * passed) (least - passed) (f a)) :
    Runs fuel need least (x >>= f) := by
  intro large s ends enough
  refine meets_bind.mpr ((first ends fun holds => ?_).imp fun a s' _ done => ?_)
  · have := enough holds
    omega
  · obtain ⟨leads, fewer⟩ := done
    refine Moves.behind leads fewer (second a (leads.reaches.ends ends) fun holds => ?_)
    have := enough holds
    omega

theorem map {f : α → β} (runs : Runs fuel need least x) : Runs fuel need least (f <$> x) :=
  fun _ _ ends enough => meets_map.mpr (runs ends enough)

theorem ite {condition : Prop} [Decidable condition] (yes : Runs fuel need least x)
    (no : Runs fuel need least y) : Runs fuel need least (if condition then x else y) :=
  fun _ _ ends enough => meets_ite.mpr ⟨fun _ => yes ends enough, fun _ => no ends enough⟩

/-! ## Primitive steps -/

theorem fail {what : ParseError.Expectation} : Runs fuel need least (fail what : Read α) :=
  fun _ _ _ _ => ⟨.refl, rfl, by simp, by simp⟩

theorem atEnd : Runs fuel 0 0 atEnd :=
  fun _ _ _ _ => ⟨.refl, le_rfl⟩

theorem nextIs {mark : Symbol} : Runs fuel 0 0 (nextIs mark) :=
  fun _ _ _ _ => ⟨.refl, le_rfl⟩

theorem freshId : Runs fuel 0 0 freshId :=
  fun _ _ _ _ => ⟨⟨[], .number .refl⟩, le_rfl⟩

/-- A fault that is reported at the next token and does not end the declaration. -/
theorem recordNext {cause : ParseError.Cause} {f : PUnit → Read α}
    (other : cause ≠ .assignmentTarget)
    (genuine : cause ≠ .unfinished) (second : Runs fuel need least (f ⟨⟩)) :
    Runs fuel need least (peek >>= fun token => record ⟨cause, token⟩ >>= f) := by
  intro large s ends enough
  refine meets_bind.mpr (meets_peek.mpr (meets_bind.mpr (meets_record.mpr ?_)))
  have fewer : s.rest.length + 0 ≤ s.rest.length := le_rfl
  exact Moves.behind (Leads.refl.record ⟨rfl, other, fun _ => genuine⟩) fewer (second ends enough)

theorem expect {mark : Symbol} {what : ParseError.Expectation} :
    Runs fuel 0 1 (expect mark what) := by
  intro large s ends _
  refine meets_expect.mpr ⟨fun found => ?_, fun _ => ⟨.refl, rfl, by simp, by simp⟩⟩
  have proper : s.next.kind ≠ .endOfInput := by simp [(ends.symbol found).1]
  exact ⟨ends.leads_behind proper, (ends.length_behind proper).le⟩

theorem expectIdent {what : ParseError.Expectation} : Runs fuel 0 1 (expectIdent what) := by
  intro large s ends _
  refine meets_expectIdent.mpr ⟨fun name found => ?_, fun _ => ⟨.refl, rfl, by simp, by simp⟩⟩
  have proper : s.next.kind ≠ .endOfInput := by simp [found]
  exact ⟨ends.leads_behind proper, (ends.length_behind proper).le⟩

/-- A symbol that comes next is passed. -/
theorem accept {mark : Symbol} {f : Bool → Read α}
    (yes : Runs fuel (need + 16) (least - 1) (f true))
    (no : Runs fuel need least (f false)) : Runs fuel need least (accept mark >>= f) := by
  intro large s ends enough
  refine meets_bind.mpr (meets_accept.mpr ⟨fun found => ?_, fun _ => no ends enough⟩)
  have proper : s.next.kind ≠ .endOfInput := by simp [(ends.symbol found).1]
  have shorter := ends.length_behind proper
  exact Moves.behind (ends.leads_behind proper) shorter.le
    (yes ends fun holds => by have := enough holds; omega)

/-- A keyword that comes next is passed. -/
theorem acceptKeyword {word : Keyword} {f : Bool → Read α}
    (yes : Runs fuel (need + 16) (least - 1) (f true)) (no : Runs fuel need least (f false)) :
    Runs fuel need least (acceptKeyword word >>= f) := by
  intro large s ends enough
  refine meets_bind.mpr (meets_acceptKeyword.mpr ⟨fun found => ?_, fun _ => no ends enough⟩)
  have proper : s.next.kind ≠ .endOfInput := by simp [(ends.keyword found).1]
  have shorter := ends.length_behind proper
  exact Moves.behind (ends.leads_behind proper) shorter.le
    (yes ends fun holds => by have := enough holds; omega)

end Runs

/-! ## Expressions -/

structure RunsExpressions (fuel : Nat) : Prop where
  expression : Runs fuel 15 1 (expression fuel)
  operators : ∀ level, Runs fuel (14 - 2 * level.rank) 1 (operators fuel level)
  operand : ∀ level, Runs fuel (13 - 2 * level.rank) 1 (operand fuel level)
  operatorsTail : ∀ level left, Runs fuel 1 0 (operatorsTail fuel level left)
  unary : Runs fuel 2 1 (unary fuel)
  callTail : ∀ callee, Runs fuel 1 0 (callTail fuel callee)
  arguments : ∀ count, Runs fuel 16 1 (arguments fuel count)
  primary : Runs fuel 1 1 (primary fuel)

namespace RunsExpressions

theorem zero : RunsExpressions 0 where
  expression := .exhausted (by omega)
  operators level := .exhausted (by have := level.rank_le; omega)
  operand level := .exhausted (by have := level.rank_le; omega)
  operatorsTail _ _ := .exhausted (by omega)
  unary := .exhausted (by omega)
  callTail _ := .exhausted (by omega)
  arguments _ := .exhausted (by omega)
  primary := .exhausted (by omega)

variable (runs : RunsExpressions fuel)
include runs

/-- The value of an assignment is read before its left side is reported. -/
theorem expression_succ : Runs (fuel + 1) 15 1 (Grammar.expression (fuel + 1)) := by
  unfold Grammar.expression
  refine .succ (.bind (runs.operators .or) (by decide) fun target => ?_) (by omega)
  intro large s ends enough
  refine meets_bind.mpr
    (meets_peek.mpr (meets_ite.mpr ⟨fun found => ?_, fun _ => Runs.pure ends enough⟩))
  have remaining := ends.rest_eq (ends.symbol found).1 (by simp)
  have passed : Leads large s s.behind := ⟨[], .advance .refl remaining⟩
  have shorter : s.behind.rest.length + 1 = s.rest.length := by rw [remaining, List.length_cons]
  refine meets_bind.mpr (meets_advance.mpr (meets_bind.mpr ?_))
  refine (runs.expression (s := s.behind) ends fun holds => by have := enough holds; omega).mono
    (fun value s' read done => ?_) fun _ _ _ stopped => ⟨passed.trans stopped.1, stopped.2⟩
  obtain ⟨⟨inside, within⟩, fewer⟩ := done
  have rest : s'.rest.length + 0 ≤ s.rest.length := by omega
  cases target with
  | ref | get => exact ⟨passed.trans ⟨_, within.number⟩, rest⟩
  | _ => exact ⟨⟨_, .assignment .refl remaining read within⟩, rest⟩

theorem operators_succ (level : Level) :
    Runs (fuel + 1) (14 - 2 * level.rank) 1 (Grammar.operators (fuel + 1) level) := by
  have := level.rank_le
  unfold Grammar.operators
  refine .succ (.bind (runs.operand level) (by omega) fun left => ?_) (by omega)
  exact (runs.operatorsTail level left).weaken (by omega) le_rfl

theorem operand_succ (level : Level) :
    Runs (fuel + 1) (13 - 2 * level.rank) 1 (Grammar.operand (fuel + 1) level) := by
  have := level.rank_le
  unfold Grammar.operand
  refine .succ ?_ (by omega)
  cases below : level.tighter? with
  | some tighter =>
    have := Level.rank_of_tighter below
    exact (runs.operators tighter).weaken (by omega) le_rfl
  | none =>
    have := Level.rank_of_tightest below
    exact runs.unary.weaken (by omega) le_rfl

theorem operatorsTail_succ (level : Level) (left : Expr) :
    Runs (fuel + 1) 1 0 (Grammar.operatorsTail (fuel + 1) level left) := by
  unfold Grammar.operatorsTail
  refine .succ ?_ (by omega)
  intro large s ends enough
  refine meets_bind.mpr (meets_peek.mpr ?_)
  cases found : level.operator? s.next.kind with
  | none => exact Runs.pure ends enough
  | some op =>
    have proper : s.next.kind ≠ .endOfInput := by
      intro finish
      rw [finish] at found
      cases level <;> cases found
    refine Moves.advance ends rfl proper enough
      (.bind (runs.operand level) (by omega) fun right => ?_)
    exact .bind .freshId (Nat.zero_le _) fun _ => (runs.operatorsTail level _).weaken
      (by omega) le_rfl

theorem unary_succ : Runs (fuel + 1) 2 1 (Grammar.unary (fuel + 1)) := by
  unfold Grammar.unary
  refine .succ ?_ (by omega)
  intro large s ends enough
  refine meets_bind.mpr (meets_peek.mpr ?_)
  cases found : unaryOperator? s.next.kind with
  | some op =>
    have proper : s.next.kind ≠ .endOfInput := by
      intro finish
      rw [finish] at found
      cases found
    refine Moves.advance ends rfl proper enough (.bind (runs.unary) (by omega) fun inner => ?_)
    exact .bind .freshId (Nat.zero_le _) fun _ => .pure
  | none =>
    refine Runs.bind runs.primary le_rfl (fun callee => ?_) ends enough
    exact (runs.callTail callee).weaken (by omega) le_rfl

theorem callTail_succ (callee : Expr) :
    Runs (fuel + 1) 1 0 (Grammar.callTail (fuel + 1) callee) := by
  unfold Grammar.callTail
  refine .succ (.accept ?_ (.accept ?_ .pure)) (by omega)
  · have closed : ∀ args, Runs fuel 0 0 (do
        let closing ← expect .rightParen .argumentsEnd
        let id ← freshId
        Grammar.callTail fuel (.call id closing.span callee args)) := by
      refine fun args => .bind .expect le_rfl fun closing => .bind .freshId (by omega) fun id => ?_
      exact (runs.callTail _).weaken (by omega) le_rfl
    refine .bind .nextIs (by omega) fun _ => .ite (.bind .pure le_rfl fun _ => ?_)
      (.bind (runs.arguments 0) (by omega) fun args => ?_)
    · exact (closed _).weaken (by omega) le_rfl
    · exact (closed _).weaken (by omega) le_rfl
  · refine .bind .expectIdent (by omega) fun name => .bind .freshId (by omega) fun id => ?_
    exact (runs.callTail _).weaken (by omega) le_rfl

theorem argument_succ (count : Nat) : Runs fuel 15 1 (do
    let first ← Grammar.expression fuel
    if ← Grammar.accept .comma then
      return first :: (← Grammar.arguments fuel (count + 1))
    else
      return [first]) := by
  refine .bind runs.expression le_rfl fun first => .accept ?_ .pure
  exact .bind (runs.arguments (count + 1)) (by omega) fun _ => .pure

theorem arguments_succ (count : Nat) :
    Runs (fuel + 1) 16 1 (Grammar.arguments (fuel + 1) count) := by
  unfold Grammar.arguments
  refine .succ (.ite ?_ (runs.argument_succ count)) (by omega)
  exact .recordNext (by simp) (by simp) (runs.argument_succ count)

theorem primary_succ : Runs (fuel + 1) 1 1 (Grammar.primary (fuel + 1)) := by
  unfold Grammar.primary
  refine .succ ?_ (by omega)
  intro large s ends enough
  refine meets_bind.mpr (meets_peek.mpr ?_)
  split
  · rename_i value _ found
    have proper : s.next.kind ≠ .endOfInput := by
      intro finish
      rw [finish] at found
      cases found
    exact Moves.advance ends rfl proper enough (.bind .freshId (by omega) fun _ => .pure)
  · rename_i name _ found
    exact Moves.advance ends found (by simp) enough (.bind .freshId (by omega) fun _ => .pure)
  · rename_i _ found
    exact Moves.advance ends found (by simp) enough (.bind .freshId (by omega) fun _ => .pure)
  · rename_i _ found
    exact Moves.advance ends found (by simp) enough (.bind .expect (by omega) fun _ =>
      .bind .expectIdent (by omega) fun _ => .bind .freshId (by omega) fun _ => .pure)
  · rename_i _ found
    exact Moves.advance ends found (by simp) enough (.bind runs.expression (by omega) fun _ =>
      .bind .expect (by omega) fun _ => .bind .freshId (by omega) fun _ => .pure)
  · exact Runs.fail ends enough

theorem succ : RunsExpressions (fuel + 1) where
  expression := runs.expression_succ
  operators := runs.operators_succ
  operand := runs.operand_succ
  operatorsTail := runs.operatorsTail_succ
  unary := runs.unary_succ
  callTail := runs.callTail_succ
  arguments := runs.arguments_succ
  primary := runs.primary_succ

end RunsExpressions

theorem runsExpressions (fuel : Nat) : RunsExpressions fuel := by
  induction fuel with
  | zero => exact .zero
  | succ fuel inductionHypothesis => exact inductionHypothesis.succ

/-! ## Statements -/

theorem parameter_runs (count : Nat)
    (inductionHypothesis : ∀ count, Runs fuel 1 1 (parameters fuel count)) : Runs fuel 0 1 (do
      let first ← expectIdent .parameterName
      if ← accept .comma then
        return first :: (← parameters fuel (count + 1))
      else
        return [first]) := by
  refine .bind .expectIdent le_rfl fun first => .accept ?_ .pure
  exact .bind (inductionHypothesis (count + 1)) (by omega) fun _ => .pure

theorem parameters_runs (fuel count : Nat) : Runs fuel 1 1 (parameters fuel count) := by
  induction fuel generalizing count with
  | zero => exact .exhausted (by omega)
  | succ fuel inductionHypothesis =>
    unfold parameters
    refine .succ (.ite ?_ (parameter_runs count inductionHypothesis)) (by omega)
    exact .recordNext (by simp) (by simp) (parameter_runs count inductionHypothesis)

theorem expressionUnless_runs (mark : Symbol) (fuel : Nat) :
    Runs fuel 15 0 (expressionUnless mark fuel) := by
  unfold expressionUnless
  refine .bind .nextIs (by omega) fun _ => .ite .pure ?_
  exact .bind (runsExpressions fuel).expression (by omega) fun _ => .pure

theorem varDeclaration_runs (fuel : Nat) : Runs fuel 0 1 (varDeclaration fuel) := by
  unfold varDeclaration
  have closed : ∀ name initial, Runs fuel 0 0 (do
      let _ ← expect .semicolon .variableEnd
      return Stmt.var name initial) :=
    fun name initial => .bind .expect le_rfl fun _ => .pure
  refine .bind .expectIdent le_rfl fun name => .accept ?_ ?_
  · refine .bind (runsExpressions fuel).expression.map (by omega) fun initial => ?_
    exact (closed name initial).weaken (by omega) le_rfl
  · refine .bind .pure le_rfl fun initial => ?_
    exact (closed name initial).weaken (by omega) le_rfl

theorem expressionStatement_runs (fuel : Nat) : Runs fuel 15 1 (expressionStatement fuel) := by
  unfold expressionStatement
  exact .bind (runsExpressions fuel).expression le_rfl fun _ => .bind .expect (by omega)
    fun _ => .pure

theorem forInitial_runs (fuel : Nat) : Runs fuel 15 1 (forInitial fuel) := by
  unfold forInitial
  refine .accept .pure (.acceptKeyword ?_ ?_)
  · exact .bind (varDeclaration_runs fuel) (by omega) fun _ => .pure
  · exact .bind (expressionStatement_runs fuel) le_rfl fun _ => .pure

/-- Skipping to the next likely statement passes a token. -/
theorem course_skipToStatement (token : Token) (rest : List Token)
    (remaining : s.rest = token :: rest) :
    Course large s { s with rest := skipToStatement token rest } [] := by
  have step : Course large s { s with rest := rest } [] := by
    have step : Course large s s.behind [] := .advance .refl remaining
    rwa [State.behind, remaining] at step
  induction rest generalizing s token with
  | nil => exact step
  | cons next rest inductionHypothesis =>
    unfold skipToStatement
    split
    · exact step
    · exact step.trans (inductionHypothesis next rfl (.advance .refl rfl))

theorem length_skipToStatement (token : Token) (rest : List Token) :
    (skipToStatement token rest).length ≤ rest.length := by
  induction rest generalizing token with
  | nil => exact le_rfl
  | cons next rest inductionHypothesis =>
    unfold skipToStatement
    split
    · exact le_rfl
    · exact (inductionHypothesis next).trans (Nat.le_succ _)

/-- A reader that passes a token also if it finds a fault. It fails only if there is nothing to
bound its recursion. -/
def Recovers (fuel need : Nat) (x : Read α) : Prop :=
  ∀ ⦃large : Prop⦄ ⦃s : State⦄, s.Ends → s.rest ≠ [] → (large → 16 * s.rest.length + need ≤ fuel) →
    Meets x s (fun _ s' => Leads large s s' ∧ s'.rest.length < s.rest.length)
      fun e s' => fuel = 0 ∧ s' = s ∧ e.cause = .unfinished ∧ e.token = s.next

structure RunsStatements (fuel : Nat) : Prop where
  recovers : Recovers fuel 17 (declaration fuel)
  classDeclaration : Runs fuel 1 1 (classDeclaration fuel)
  methods : Runs fuel 2 0 (methods fuel)
  routine : ∀ sort, Runs fuel 1 1 (routine fuel sort)
  block : Runs fuel 18 1 (block fuel)
  statement : Runs fuel 16 1 (statement fuel)

namespace RunsStatements

theorem zero : RunsStatements 0 where
  recovers _ _ _ _ _ := ⟨rfl, rfl, rfl, rfl⟩
  classDeclaration := .exhausted (by omega)
  methods := .exhausted (by omega)
  routine _ := .exhausted (by omega)
  block := .exhausted (by omega)
  statement := .exhausted (by omega)

variable (runs : RunsStatements fuel)
include runs

/-- What is thrown inside a declaration is recorded where it was thrown, before any token is
skipped. -/
theorem recovers_succ : Recovers (fuel + 1) 17 (Grammar.declaration (fuel + 1)) := by
  intro large s ends remaining enough
  unfold Grammar.declaration
  have body : Runs fuel 16 1 (do
      if ← acceptKeyword .class then
        Grammar.classDeclaration fuel
      else if ← acceptKeyword .fun then
        .fun <$> Grammar.routine fuel .function
      else if ← acceptKeyword .var then
        varDeclaration fuel
      else
        Grammar.statement fuel) := by
    refine .acceptKeyword ?_ (.acceptKeyword ?_ (.acceptKeyword ?_ runs.statement))
    · exact runs.classDeclaration.weaken (by omega) (by omega)
    · exact (runs.routine _).map.weaken (by omega) (by omega)
    · exact (varDeclaration_runs fuel).weaken (by omega) (by omega)
  have enoughBody : large → 16 * s.rest.length + 16 ≤ fuel := fun holds => by
    have := enough holds
    omega
  refine meets_tryCatch.mpr ((body.map ends enoughBody).mono (fun _ _ _ done => done)
    fun fault s' _ stopped => ?_)
  obtain ⟨leads, thrown⟩ := stopped
  refine meets_bind.mpr
    (meets_record.mpr (meets_bind.mpr (meets_synchronize.mpr (meets_pure.mpr ?_))))
  have recorded := leads.record thrown
  have shorter := leads.reaches.suffix.length_le
  have positive := List.length_pos_iff.mpr remaining
  split
  · rename_i none
    exact ⟨recorded, by rw [none]; exact positive⟩
  · rename_i token rest some
    refine ⟨recorded.trans ⟨[], course_skipToStatement token rest some⟩, ?_⟩
    calc (skipToStatement token rest).length ≤ rest.length := length_skipToStatement token rest
      _ < s'.rest.length := by rw [some]; exact Nat.lt_succ_self _
      _ ≤ s.rest.length := shorter

theorem classDeclaration_succ : Runs (fuel + 1) 1 1 (Grammar.classDeclaration (fuel + 1)) := by
  unfold Grammar.classDeclaration
  have body : ∀ name superclass, Runs fuel 0 0 (do
      let _ ← expect .leftBrace .classBody
      let methods ← Grammar.methods fuel
      let _ ← expect .rightBrace .classEnd
      return Stmt.class name superclass methods) := by
    intro name superclass
    exact .bind .expect le_rfl fun _ => .bind runs.methods (by omega) fun _ =>
      .bind .expect (by omega) fun _ => .pure
  refine .succ (.bind .expectIdent le_rfl fun name => .accept ?_ ?_) (by omega)
  · refine .bind .expectIdent (by omega) fun superclass => .bind .freshId (by omega) fun id => ?_
    exact .bind .pure le_rfl fun superclass => (body name superclass).weaken (by omega) le_rfl
  · exact .bind .pure le_rfl fun superclass => (body name superclass).weaken (by omega) le_rfl

theorem methods_succ : Runs (fuel + 1) 2 0 (Grammar.methods (fuel + 1)) := by
  unfold Grammar.methods
  refine .succ (.bind .nextIs (by omega) fun _ => .bind .atEnd (by omega) fun _ => .ite .pure ?_)
    (by omega)
  refine .bind (runs.routine .method) (by omega) fun first => ?_
  exact .bind runs.methods (by omega) fun _ => .pure

theorem routine_succ (sort : ParseError.RoutineSort) :
    Runs (fuel + 1) 1 1 (Grammar.routine (fuel + 1) sort) := by
  unfold Grammar.routine
  have body : ∀ name params, Runs fuel 0 0 (do
      let _ ← expect .rightParen .parametersEnd
      let _ ← expect .leftBrace (.routineBody sort)
      let body ← Grammar.block fuel
      return Routine.mk name params body) := by
    intro name params
    exact .bind .expect le_rfl fun _ => .bind .expect (by omega) fun _ =>
      .bind runs.block (by omega) fun _ => .pure
  refine .succ (.bind .expectIdent le_rfl fun name => .bind .expect (by omega) fun _ => ?_)
    (by omega)
  refine .bind .nextIs (by omega) fun _ => .ite (.bind .pure le_rfl fun params => ?_)
    (.bind (parameters_runs fuel 0) (by omega) fun params => ?_)
  · exact (body name params).weaken (by omega) le_rfl
  · exact (body name params).weaken (by omega) le_rfl

theorem block_succ : Runs (fuel + 1) 18 1 (Grammar.block (fuel + 1)) := by
  unfold Grammar.block
  intro large s ends enough
  refine meets_bind.mpr
    (meets_nextIs.mpr (meets_bind.mpr (meets_atEnd.mpr (meets_ite.mpr ⟨?_, ?_⟩))))
  · exact fun _ => Runs.bind .expect (by omega) (fun _ => .pure) ends enough
  · intro goesOn
    have remaining : s.rest ≠ [] := by
      intro none
      simp [none] at goesOn
    have enoughFirst : large → 16 * s.rest.length + 17 ≤ fuel := fun holds => by
      have := enough holds
      omega
    refine meets_bind.mpr ((runs.recovers ends remaining enoughFirst).mono
      (fun first s' _ done => ?_) fun e s' _ stopped => ?_)
    · obtain ⟨leads, shorter⟩ := done
      have fewer : s'.rest.length + 1 ≤ s.rest.length := shorter
      refine Moves.behind leads fewer
        (Runs.bind runs.block le_rfl (fun _ => .pure) ?_ fun holds => ?_)
      · exact leads.reaches.ends ends
      · have := enough holds
        omega
    · obtain ⟨rfl, rfl, cause, here⟩ := stopped
      exact ⟨.refl, here, by simp [cause], fun holds => absurd (enough holds) (by omega)⟩

theorem statement_succ : Runs (fuel + 1) 16 1 (Grammar.statement (fuel + 1)) := by
  unfold Grammar.statement
  refine .succ ?_ (by omega)
  intro large s ends enough
  refine meets_bind.mpr (meets_peek.mpr ?_)
  split
  · rename_i found
    refine Moves.advance ends found (by simp) enough (.bind .expect (by omega) fun _ =>
      .bind (forInitial_runs fuel) (by omega) fun _ => .bind (expressionUnless_runs _ fuel)
        (by omega) fun condition =>
      .bind .expect (by omega) fun _ => .bind (expressionUnless_runs _ fuel) (by omega) fun _ =>
      .bind .expect (by omega) fun _ => .bind runs.statement (by omega) fun _ => ?_)
    cases condition with
    | some condition => exact .bind .pure le_rfl fun _ => .pure
    | none => exact .bind .freshId (by omega) fun _ => .bind .pure le_rfl fun _ => .pure
  · rename_i found
    refine Moves.advance ends found (by simp) enough (.bind .expect (by omega) fun _ =>
      .bind (runsExpressions fuel).expression (by omega) fun _ => .bind .expect (by omega) fun _ =>
      .bind runs.statement (by omega) fun _ => .acceptKeyword ?_ ?_)
    · exact .bind runs.statement.map (by omega) fun _ => .pure
    · exact .bind .pure le_rfl fun _ => .pure
  · rename_i found
    exact Moves.advance ends found (by simp) enough
      (.bind (runsExpressions fuel).expression (by omega) fun _ =>
      .bind .expect (by omega) fun _ => .pure)
  · rename_i found
    exact Moves.advance ends found (by simp) enough
      (.bind (expressionUnless_runs _ fuel) (by omega) fun _ =>
      .bind .expect (by omega) fun _ => .pure)
  · rename_i found
    exact Moves.advance ends found (by simp) enough (.bind .expect (by omega) fun _ =>
      .bind (runsExpressions fuel).expression (by omega) fun _ => .bind .expect (by omega) fun _ =>
      .bind runs.statement (by omega) fun _ => .pure)
  · rename_i found
    exact Moves.advance ends found (by simp) enough (runs.block.map.weaken (by omega) (by omega))
  · exact expressionStatement_runs fuel ends enough

theorem succ : RunsStatements (fuel + 1) where
  recovers := runs.recovers_succ
  classDeclaration := runs.classDeclaration_succ
  methods := runs.methods_succ
  routine := runs.routine_succ
  block := runs.block_succ
  statement := runs.statement_succ

end RunsStatements

theorem runsStatements (fuel : Nat) : RunsStatements fuel := by
  induction fuel with
  | zero => exact .zero
  | succ fuel inductionHypothesis => exact inductionHypothesis.succ

/-- Declarations go forward. -/
theorem RunsStatements.declaration (runs : RunsStatements fuel) (ends : s.Ends)
    (remaining : s.rest ≠ []) (enough : large → 16 * s.rest.length + 17 ≤ fuel) :
    Meets (Grammar.declaration fuel) s (fun _ s' => Reaches large s s' ∧
      s'.rest.length < s.rest.length)
      fun _ s' => fuel = 0 ∧ s' = s :=
  (runs.recovers ends remaining enough).mono (fun _ _ _ done => ⟨done.1.reaches, done.2⟩)
    fun _ _ _ stopped => ⟨stopped.1, stopped.2.1⟩

end Lox.Grammar
