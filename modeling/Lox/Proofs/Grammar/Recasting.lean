import Lox.Grammar.Program
import Lox.Proofs.Syntax.Relabeling

set_option autoImplicit false

/-!
# Reading other tokens of the same kinds

A reader looks at the kinds of tokens only. It copies their spans into the program, keeps whole
tokens in its faults, and hands out numbers without looking at them. So on tokens of the same kinds,
with other spans and other lexemes, and from another first number, it finds the same faults at the
tokens that stand in the same places, or the same program with the other spans and numbers.
-/

namespace Lox

/-- Other tokens of the same kinds, and numbers that start further on. -/
structure Recast where
  token : Token → Token
  span : Span → Span
  shift : Nat
  kind : ∀ t, (token t).kind = t.kind
  place : ∀ t, (token t).span = span t.span

namespace Recast

def labels (c : Recast) : Relabeling := ⟨c.span, (· + c.shift)⟩

variable (c : Recast)

@[simp] theorem isEnd_token (t : Token) : (c.token t).isEnd = t.isEnd := by
  rw [Token.isEnd, Token.isEnd, c.kind]

@[simp] theorem isSymbol_token (t : Token) (mark : Symbol) :
    (c.token t).isSymbol mark = t.isSymbol mark := by
  rw [Token.isSymbol, Token.isSymbol, c.kind]

@[simp] theorem isKeyword_token (t : Token) (word : Keyword) :
    (c.token t).isKeyword word = t.isKeyword word := by
  rw [Token.isKeyword, Token.isKeyword, c.kind]

@[simp] theorem startsStatement_token (t : Token) :
    Grammar.startsStatement (c.token t) = Grammar.startsStatement t := by
  rw [Grammar.startsStatement, Grammar.startsStatement, c.kind]

end Recast

def ParseError.recast (c : Recast) (e : ParseError) : ParseError :=
  ⟨e.cause, c.token e.token⟩

namespace Grammar

def State.recast (c : Recast) (s : State) : State where
  rest := s.rest.map c.token
  finish := c.token s.finish
  nextId := s.nextId + c.shift
  errors := s.errors.map (ParseError.recast c)

theorem State.next_recast (c : Recast) (s : State) : (s.recast c).next = c.token s.next := by
  unfold State.next State.recast
  cases s.rest <;> rfl

variable {α β γ δ : Type}

/-- An outcome with its faults and its state recast, and its result under a function. -/
def recastResult (c : Recast) (f : α → β) :
    EStateM.Result ParseError State α → EStateM.Result ParseError State β
  | .ok a s => .ok (f a) (s.recast c)
  | .error e s => .error (e.recast c) (s.recast c)

/-- The second reader does on recast tokens what the first one does on the tokens. -/
def Carries (c : Recast) (f : α → β) (x : Read α) (x' : Read β) : Prop :=
  ∀ s, x' (s.recast c) = recastResult c f (x s)

namespace Carries

variable {c : Recast} {f : α → β} {g : γ → δ} {x : Read α} {x' : Read β}

theorem pure {a : α} {b : β} (here : b = f a) : Carries c f (pure a) (pure b) :=
  fun _ => congrArg (EStateM.Result.ok · _) here

theorem bind {y : α → Read γ} {y' : β → Read δ} (first : Carries c f x x')
    (second : ∀ a, Carries c g (y a) (y' (f a))) : Carries c g (x >>= y) (x' >>= y') := by
  intro s
  simp only [Bind.bind, EStateM.bind]
  rw [first s]
  cases x s with
  | ok a s' => exact second a s'
  | error e s' => rfl

theorem map {h : α → γ} {h' : β → δ} (first : Carries c f x x') (here : ∀ a, h' (f a) = g (h a)) :
    Carries c g (h <$> x) (h' <$> x') := by
  intro s
  simp only [Functor.map, EStateM.map]
  rw [first s]
  cases x s with
  | ok a s' => exact congrArg (EStateM.Result.ok · _) (here a)
  | error e s' => rfl

theorem ite {condition : Prop} [Decidable condition] {y : Read α} {y' : Read β}
    (yes : Carries c f x x') (no : Carries c f y y') :
    Carries c f (if condition then x else y) (if condition then x' else y') := by
  split
  · exact yes
  · exact no

theorem tryCatch {handler : ParseError → Read α} {handler' : ParseError → Read β}
    (tried : Carries c f x x') (handled : ∀ e, Carries c f (handler e) (handler' (e.recast c))) :
    Carries c f (tryCatch x handler) (tryCatch x' handler') := by
  intro s
  simp only [MonadExcept.tryCatch, tryCatchThe, MonadExceptOf.tryCatch, EStateM.tryCatch,
    EStateM.Backtrackable.restore, EStateM.dummyRestore]
  rw [tried s]
  cases x s with
  | ok a s' => rfl
  | error e s' => exact handled e s'

/-! ## Primitive steps -/

theorem peek : Carries c c.token peek peek :=
  fun s => congrArg (EStateM.Result.ok · _) (s.next_recast c)

theorem atEnd : Carries c id atEnd atEnd := by
  intro s
  show EStateM.Result.ok (s.rest.map c.token).isEmpty _ = .ok s.rest.isEmpty _
  rw [List.isEmpty_map]

theorem nextIs (mark : Symbol) : Carries c id (nextIs mark) (nextIs mark) := by
  intro s
  show EStateM.Result.ok ((s.recast c).next.isSymbol mark) _ = .ok (s.next.isSymbol mark) _
  rw [s.next_recast, c.isSymbol_token]

theorem advance : Carries c c.token advance advance := by
  intro s
  show EStateM.Result.ok (s.recast c).next { s.recast c with rest := (s.rest.map c.token).tail } = _
  rw [s.next_recast, ← List.map_tail]
  rfl

theorem fail (what : ParseError.Expectation) : Carries c f (fail what) (fail what) := by
  intro s
  show EStateM.Result.error (ParseError.mk (.expected what) (s.recast c).next) _ = _
  rw [s.next_recast]
  rfl

theorem exhausted : Carries c f exhausted exhausted := by
  intro s
  show EStateM.Result.error (ParseError.mk .unfinished (s.recast c).next) _ = _
  rw [s.next_recast]
  rfl

theorem record (e : ParseError) : Carries c id (record e) (record (e.recast c)) := by
  intro s
  show EStateM.Result.ok () (State.mk _ _ _ ((s.errors.map (ParseError.recast c)).push _)) = _
  rw [← Array.map_push]
  rfl

theorem freshId : Carries c (· + c.shift) freshId freshId := by
  intro s
  show EStateM.Result.ok _ { s.recast c with nextId := s.nextId + c.shift + 1 } = _
  rw [Nat.add_right_comm]
  rfl

theorem accept (mark : Symbol) : Carries c id (accept mark) (accept mark) :=
  (nextIs mark).bind fun _ => .ite (advance.bind fun _ => .pure rfl) (.pure rfl)

theorem acceptKeyword (word : Keyword) :
    Carries c id (acceptKeyword word) (acceptKeyword word) := by
  refine peek.bind fun token => ?_
  rw [c.isKeyword_token]
  exact .ite (advance.bind fun _ => .pure rfl) (.pure rfl)

theorem expect (mark : Symbol) (what : ParseError.Expectation) :
    Carries c c.token (expect mark what) (expect mark what) :=
  (nextIs mark).bind fun _ => .ite advance (.fail what)

theorem expectIdent (what : ParseError.Expectation) :
    Carries c (Ident.relabel c.labels) (expectIdent what) (expectIdent what) := by
  refine peek.bind fun token => ?_
  rw [c.kind]
  cases token.kind with
  | identifier name =>
    refine advance.bind fun _ => .pure ?_
    rw [c.place]
    rfl
  | _ => exact .fail what

theorem skipToStatement_map (last : Token) (rest : List Token) :
    skipToStatement (c.token last) (rest.map c.token) =
      (skipToStatement last rest).map c.token := by
  induction rest generalizing last with
  | nil => rfl
  | cons token rest inductionHypothesis =>
    rw [List.map_cons, skipToStatement, skipToStatement, c.isSymbol_token, c.startsStatement_token,
      inductionHypothesis, apply_ite (List.map c.token)]
    rfl

theorem synchronize : Carries c id synchronize synchronize := by
  rintro ⟨_ | ⟨token, rest⟩, finish, nextId, errors⟩
  · rfl
  · refine congrArg (EStateM.Result.ok ()) ?_
    show State.mk (skipToStatement (c.token token) (rest.map c.token)) _ _ _ = _
    rw [skipToStatement_map]
    rfl

end Carries

/-! ## Expressions -/

theorem InfixOp.relabel_apply (r : Relabeling) (op : InfixOp) (id : ExprId) (span : Span)
    (left right : Expr) : (op.apply id span left right).relabel r =
      op.apply (r.id id) (r.span span) (left.relabel r) (right.relabel r) := by
  cases op with
  | binary | logical => rw [apply, Expr.relabel, apply]

structure CarriesExpressions (c : Recast) (fuel : Nat) : Prop where
  expression : Carries c (Expr.relabel c.labels) (expression fuel) (expression fuel)
  operators : ∀ level, Carries c (Expr.relabel c.labels) (operators fuel level)
    (operators fuel level)
  operand : ∀ level, Carries c (Expr.relabel c.labels) (operand fuel level) (operand fuel level)
  operatorsTail : ∀ level left, Carries c (Expr.relabel c.labels) (operatorsTail fuel level left)
    (operatorsTail fuel level (left.relabel c.labels))
  unary : Carries c (Expr.relabel c.labels) (unary fuel) (unary fuel)
  callTail : ∀ callee, Carries c (Expr.relabel c.labels) (callTail fuel callee)
    (callTail fuel (callee.relabel c.labels))
  arguments : ∀ count, Carries c (Expr.relabelAll c.labels) (arguments fuel count)
    (arguments fuel count)
  primary : Carries c (Expr.relabel c.labels) (primary fuel) (primary fuel)

namespace CarriesExpressions

variable {c : Recast} {fuel : Nat}

theorem zero : CarriesExpressions c 0 where
  expression := .exhausted
  operators _ := .exhausted
  operand _ := .exhausted
  operatorsTail _ _ := .exhausted
  unary := .exhausted
  callTail _ := .exhausted
  arguments _ := .exhausted
  primary := .exhausted

variable (carries : CarriesExpressions c fuel)
include carries

theorem expression_succ : Carries c (Expr.relabel c.labels) (Grammar.expression (fuel + 1))
    (Grammar.expression (fuel + 1)) := by
  refine (carries.operators .or).bind fun target => Carries.peek.bind fun equals => ?_
  rw [c.isSymbol_token]
  refine .ite ?_ (.pure rfl)
  refine Carries.advance.bind fun _ => carries.expression.bind fun value => ?_
  cases target with
  | ref reference =>
    refine Carries.freshId.bind fun id => .pure ?_
    rw [Expr.relabel]
    rfl
  | get id object name =>
    rw [Expr.relabel]
    refine Carries.freshId.bind fun id => .pure ?_
    rw [Expr.relabel]
    rfl
  | _ =>
    rw [Expr.relabel]
    refine (Carries.record _).bind fun _ => .pure ?_
    rw [Expr.relabel]

theorem operators_succ (level : Level) : Carries c (Expr.relabel c.labels)
    (Grammar.operators (fuel + 1) level) (Grammar.operators (fuel + 1) level) :=
  (carries.operand level).bind fun left => carries.operatorsTail level left

theorem operand_succ (level : Level) : Carries c (Expr.relabel c.labels)
    (Grammar.operand (fuel + 1) level) (Grammar.operand (fuel + 1) level) := by
  unfold Grammar.operand
  cases level.tighter? with
  | some tighter => exact carries.operators tighter
  | none => exact carries.unary

theorem operatorsTail_succ (level : Level) (left : Expr) : Carries c (Expr.relabel c.labels)
    (Grammar.operatorsTail (fuel + 1) level left)
    (Grammar.operatorsTail (fuel + 1) level (left.relabel c.labels)) := by
  refine Carries.peek.bind fun token => ?_
  rw [c.kind]
  cases level.operator? token.kind with
  | none => exact .pure rfl
  | some op =>
    refine Carries.advance.bind fun _ => (carries.operand level).bind fun right => ?_
    refine Carries.freshId.bind fun id => ?_
    rw [c.place]
    have tail := carries.operatorsTail level (op.apply id token.span left right)
    rwa [op.relabel_apply] at tail

theorem unary_succ : Carries c (Expr.relabel c.labels) (Grammar.unary (fuel + 1))
    (Grammar.unary (fuel + 1)) := by
  refine Carries.peek.bind fun token => ?_
  rw [c.kind]
  cases unaryOperator? token.kind with
  | some op =>
    refine Carries.advance.bind fun _ => carries.unary.bind fun inner => ?_
    refine Carries.freshId.bind fun id => .pure ?_
    rw [c.place, Expr.relabel]
    rfl
  | none => exact carries.primary.bind fun callee => carries.callTail callee

theorem callTail_succ (callee : Expr) : Carries c (Expr.relabel c.labels)
    (Grammar.callTail (fuel + 1) callee)
      (Grammar.callTail (fuel + 1) (callee.relabel c.labels)) := by
  refine (Carries.accept .leftParen).bind fun _ => .ite ?_ ?_
  · have call (args : List Expr) : Carries c (Expr.relabel c.labels)
        (do
          let closing ← expect .rightParen .argumentsEnd
          let id ← freshId
          Grammar.callTail fuel (.call id closing.span callee args))
        (do
          let closing ← expect .rightParen .argumentsEnd
          let id ← freshId
          Grammar.callTail fuel
            (.call id closing.span (callee.relabel c.labels) (Expr.relabelAll c.labels args))) := by
      refine (Carries.expect _ _).bind fun closing => Carries.freshId.bind fun id => ?_
      rw [c.place]
      have tail := carries.callTail (.call id closing.span callee args)
      rwa [Expr.relabel] at tail
    refine (Carries.nextIs _).bind fun _ => .ite (call []) ?_
    exact (carries.arguments 0).bind call
  · refine (Carries.accept .dot).bind fun _ => .ite ?_ (.pure rfl)
    refine (Carries.expectIdent _).bind fun name => Carries.freshId.bind fun id => ?_
    have tail := carries.callTail (.get id callee name)
    rwa [Expr.relabel] at tail

theorem arguments_succ (count : Nat) : Carries c (Expr.relabelAll c.labels)
    (Grammar.arguments (fuel + 1) count) (Grammar.arguments (fuel + 1) count) := by
  unfold Grammar.arguments
  refine .ite (Carries.peek.bind fun _ => (Carries.record _).bind fun _ => ?_) ?_
  all_goals
    refine carries.expression.bind fun first => ?_
    refine (Carries.accept .comma).bind fun _ => .ite ?_ (.pure rfl)
    exact (carries.arguments (count + 1)).bind fun others => .pure rfl

theorem primary_succ : Carries c (Expr.relabel c.labels) (Grammar.primary (fuel + 1))
    (Grammar.primary (fuel + 1)) := by
  refine Carries.peek.bind fun token => ?_
  rw [c.kind, c.place]
  split
  · exact Carries.advance.bind fun _ => Carries.freshId.bind fun _ => .pure rfl
  · exact Carries.advance.bind fun _ => Carries.freshId.bind fun _ => .pure rfl
  · exact Carries.advance.bind fun _ => Carries.freshId.bind fun _ => .pure rfl
  · refine Carries.advance.bind fun _ => (Carries.expect _ _).bind fun _ => ?_
    exact (Carries.expectIdent _).bind fun _ => Carries.freshId.bind fun _ => .pure rfl
  · refine Carries.advance.bind fun _ => carries.expression.bind fun inner => ?_
    refine (Carries.expect _ _).bind fun _ => Carries.freshId.bind fun _ => .pure ?_
    rw [Expr.relabel]
    rfl
  · exact .fail _

theorem succ : CarriesExpressions c (fuel + 1) where
  expression := carries.expression_succ
  operators := carries.operators_succ
  operand := carries.operand_succ
  operatorsTail := carries.operatorsTail_succ
  unary := carries.unary_succ
  callTail := carries.callTail_succ
  arguments := carries.arguments_succ
  primary := carries.primary_succ

end CarriesExpressions

theorem carriesExpressions (c : Recast) (fuel : Nat) : CarriesExpressions c fuel := by
  induction fuel with
  | zero => exact .zero
  | succ fuel inductionHypothesis => exact inductionHypothesis.succ

/-! ## Statements -/

variable {c : Recast}

theorem carries_parameters (fuel count : Nat) :
    Carries c (List.map (Ident.relabel c.labels)) (parameters fuel count)
      (parameters fuel count) := by
  induction fuel generalizing count with
  | zero => exact .exhausted
  | succ fuel inductionHypothesis =>
    unfold parameters
    refine .ite (Carries.peek.bind fun _ => (Carries.record _).bind fun _ => ?_) ?_
    all_goals
      refine (Carries.expectIdent _).bind fun first => ?_
      refine (Carries.accept .comma).bind fun _ => .ite ?_ (.pure rfl)
      exact (inductionHypothesis (count + 1)).bind fun _ => .pure rfl

theorem carries_expressionUnless (mark : Symbol) (fuel : Nat) :
    Carries c (Option.map (Expr.relabel c.labels)) (expressionUnless mark fuel)
      (expressionUnless mark fuel) :=
  (Carries.nextIs mark).bind fun _ => .ite (.pure rfl)
    ((carriesExpressions c fuel).expression.bind fun _ => .pure rfl)

theorem carries_varDeclaration (fuel : Nat) :
    Carries c (Stmt.relabel c.labels) (varDeclaration fuel) (varDeclaration fuel) := by
  refine (Carries.expectIdent _).bind fun name => (Carries.accept .equal).bind fun _ => .ite ?_ ?_
  · have initial : Carries c (Option.map (Expr.relabel c.labels)) (some <$> expression fuel)
        (some <$> expression fuel) := (carriesExpressions c fuel).expression.map fun _ => rfl
    refine initial.bind fun value => (Carries.expect _ _).bind fun _ => .pure ?_
    rw [Stmt.relabel]
  · refine (Carries.expect _ _).bind fun _ => .pure ?_
    rw [Stmt.relabel]
    rfl

theorem carries_expressionStatement (fuel : Nat) :
    Carries c (Stmt.relabel c.labels) (expressionStatement fuel) (expressionStatement fuel) := by
  refine (carriesExpressions c fuel).expression.bind fun value => (Carries.expect _ _).bind
    fun _ => .pure ?_
  rw [Stmt.relabel]

theorem carries_forInitial (fuel : Nat) :
    Carries c (Option.map (Stmt.relabel c.labels)) (forInitial fuel) (forInitial fuel) := by
  refine (Carries.accept .semicolon).bind fun _ => .ite (.pure rfl) ?_
  refine (Carries.acceptKeyword .var).bind fun _ => .ite ?_ ?_
  · exact (carries_varDeclaration fuel).bind fun _ => .pure rfl
  · exact (carries_expressionStatement fuel).bind fun _ => .pure rfl

theorem relabel_forLoop (r : Relabeling) (initial : Option Stmt) (condition : Expr)
    (increment : Option Expr) (body : Stmt) : (forLoop initial condition increment body).relabel r =
      forLoop (initial.map (Stmt.relabel r)) (condition.relabel r) (increment.map (Expr.relabel r))
        (body.relabel r) := by
  cases initial <;> cases increment <;> simp [forLoop, Stmt.relabel, Stmt.relabelAll]

/-- What was read first, if anything, and what follows it. -/
theorem relabelAll_toList_append (r : Relabeling) (first : Option Stmt) (rest : List Stmt) :
    (first.map (Stmt.relabel r)).toList ++ Stmt.relabelAll r rest =
      Stmt.relabelAll r (first.toList ++ rest) := by
  cases first with
  | none => rfl
  | some s =>
    rw [Option.toList_some, List.cons_append, Stmt.relabelAll]
    rfl

structure CarriesStatements (c : Recast) (fuel : Nat) : Prop where
  declaration : Carries c (Option.map (Stmt.relabel c.labels)) (declaration fuel) (declaration fuel)
  classDeclaration : Carries c (Stmt.relabel c.labels) (classDeclaration fuel)
    (classDeclaration fuel)
  methods : Carries c (Stmt.relabelMethods c.labels) (methods fuel) (methods fuel)
  routine : ∀ sort, Carries c (Stmt.relabelRoutine c.labels) (routine fuel sort) (routine fuel sort)
  block : Carries c (Stmt.relabelAll c.labels) (block fuel) (block fuel)
  statement : Carries c (Stmt.relabel c.labels) (statement fuel) (statement fuel)

namespace CarriesStatements

variable {fuel : Nat}

theorem zero : CarriesStatements c 0 where
  declaration := .exhausted
  classDeclaration := .exhausted
  methods := .exhausted
  routine _ := .exhausted
  block := .exhausted
  statement := .exhausted

variable (carries : CarriesStatements c fuel)
include carries

theorem declaration_succ : Carries c (Option.map (Stmt.relabel c.labels))
    (Grammar.declaration (fuel + 1)) (Grammar.declaration (fuel + 1)) := by
  refine .tryCatch (.map (f := Stmt.relabel c.labels) ?_ fun _ => rfl) fun fault => ?_
  · refine (Carries.acceptKeyword .class).bind fun _ => .ite carries.classDeclaration ?_
    refine (Carries.acceptKeyword .fun).bind fun _ => .ite ?_ ?_
    · refine (carries.routine .function).map fun routine => ?_
      rw [Stmt.relabel]
    · exact (Carries.acceptKeyword .var).bind fun _ =>
        .ite (carries_varDeclaration fuel) carries.statement
  · exact (Carries.record fault).bind fun _ => Carries.synchronize.bind fun _ => .pure rfl

theorem classDeclaration_succ :
    Carries c (Stmt.relabel c.labels) (Grammar.classDeclaration (fuel + 1))
    (Grammar.classDeclaration (fuel + 1)) := by
  refine (Carries.expectIdent _).bind fun name => (Carries.accept .less).bind fun _ => .ite ?_ ?_
  · refine (Carries.expectIdent _).bind fun superclass => Carries.freshId.bind fun id => ?_
    refine (Carries.expect _ _).bind fun _ => carries.methods.bind fun methods => ?_
    refine (Carries.expect _ _).bind fun _ => .pure ?_
    rw [Stmt.relabel]
    rfl
  · refine (Carries.expect _ _).bind fun _ => carries.methods.bind fun methods => ?_
    refine (Carries.expect _ _).bind fun _ => .pure ?_
    rw [Stmt.relabel]
    rfl

theorem methods_succ : Carries c (Stmt.relabelMethods c.labels) (Grammar.methods (fuel + 1))
    (Grammar.methods (fuel + 1)) := by
  refine (Carries.nextIs _).bind fun _ => Carries.atEnd.bind fun _ => .ite (.pure rfl) ?_
  refine (carries.routine .method).bind fun first => carries.methods.bind fun others => .pure ?_
  rw [Stmt.relabelMethods]

theorem routine_succ (sort : ParseError.RoutineSort) : Carries c (Stmt.relabelRoutine c.labels)
    (Grammar.routine (fuel + 1) sort) (Grammar.routine (fuel + 1) sort) := by
  refine (Carries.expectIdent _).bind fun name => (Carries.expect _ _).bind fun _ => ?_
  have behind (params : List Ident) : Carries c (Stmt.relabelRoutine c.labels)
      (do
        let _ ← expect .rightParen .parametersEnd
        let _ ← expect .leftBrace (.routineBody sort)
        let body ← Grammar.block fuel
        return ⟨name, params, body⟩)
      (do
        let _ ← expect .rightParen .parametersEnd
        let _ ← expect .leftBrace (.routineBody sort)
        let body ← Grammar.block fuel
        return ⟨name.relabel c.labels, params.map (Ident.relabel c.labels), body⟩) := by
    refine (Carries.expect _ _).bind fun _ => (Carries.expect _ _).bind fun _ => ?_
    refine carries.block.bind fun body => .pure ?_
    rw [Stmt.relabelRoutine]
  exact (Carries.nextIs _).bind fun _ => .ite (behind []) ((carries_parameters fuel 0).bind behind)

theorem block_succ : Carries c (Stmt.relabelAll c.labels) (Grammar.block (fuel + 1))
    (Grammar.block (fuel + 1)) := by
  refine (Carries.nextIs _).bind fun _ => Carries.atEnd.bind fun _ => .ite ?_ ?_
  · exact (Carries.expect _ _).bind fun _ => .pure rfl
  · refine carries.declaration.bind fun first => carries.block.bind fun others => .pure ?_
    exact relabelAll_toList_append ..

theorem statement_succ : Carries c (Stmt.relabel c.labels) (Grammar.statement (fuel + 1))
    (Grammar.statement (fuel + 1)) := by
  have expressions := carriesExpressions c fuel
  refine Carries.peek.bind fun token => ?_
  rw [c.kind, c.place]
  split
  · -- The number of a condition that is left out is handed out last.
    refine Carries.advance.bind fun _ => (Carries.expect _ _).bind fun _ => ?_
    refine (carries_forInitial fuel).bind fun initial => ?_
    refine (carries_expressionUnless _ fuel).bind fun condition =>
      (Carries.expect _ _).bind fun _ => ?_
    refine (carries_expressionUnless _ fuel).bind fun increment =>
      (Carries.expect _ _).bind fun _ => ?_
    refine carries.statement.bind fun body => ?_
    cases condition with
    | some condition => exact .pure (relabel_forLoop ..).symm
    | none =>
      refine Carries.freshId.bind fun id => .pure ?_
      rw [relabel_forLoop, Expr.relabel]
      rfl
  · refine Carries.advance.bind fun _ => (Carries.expect _ _).bind fun _ => ?_
    refine expressions.expression.bind fun condition => (Carries.expect _ _).bind fun _ => ?_
    refine carries.statement.bind fun yes => (Carries.acceptKeyword .else).bind fun _ => .ite ?_ ?_
    · have other : Carries c (Option.map (Stmt.relabel c.labels)) (some <$> Grammar.statement fuel)
          (some <$> Grammar.statement fuel) := carries.statement.map fun _ => rfl
      refine other.bind fun no => .pure ?_
      cases no <;> rw [Stmt.relabel] <;> rfl
    · refine .pure ?_
      rw [Stmt.relabel]
  · refine Carries.advance.bind fun _ => expressions.expression.bind fun value => ?_
    refine (Carries.expect _ _).bind fun _ => .pure ?_
    rw [Stmt.relabel]
  · refine Carries.advance.bind fun _ => (carries_expressionUnless _ fuel).bind fun value => ?_
    refine (Carries.expect _ _).bind fun _ => .pure ?_
    rw [Stmt.relabel]
    rfl
  · refine Carries.advance.bind fun _ => (Carries.expect _ _).bind fun _ => ?_
    refine expressions.expression.bind fun condition => (Carries.expect _ _).bind fun _ => ?_
    refine carries.statement.bind fun body => .pure ?_
    rw [Stmt.relabel]
  · refine Carries.advance.bind fun _ => carries.block.map fun body => ?_
    rw [Stmt.relabel]
  · exact carries_expressionStatement fuel

theorem succ : CarriesStatements c (fuel + 1) where
  declaration := carries.declaration_succ
  classDeclaration := carries.classDeclaration_succ
  methods := carries.methods_succ
  routine := carries.routine_succ
  block := carries.block_succ
  statement := carries.statement_succ

end CarriesStatements

theorem carriesStatements (c : Recast) (fuel : Nat) : CarriesStatements c fuel := by
  induction fuel with
  | zero => exact .zero
  | succ fuel inductionHypothesis => exact inductionHypothesis.succ

theorem carries_declarations (fuel : Nat) :
    Carries c (Stmt.relabelAll c.labels) (declarations fuel) (declarations fuel) := by
  induction fuel with
  | zero => exact .exhausted
  | succ fuel inductionHypothesis =>
    refine Carries.atEnd.bind fun _ => .ite (.pure rfl) ?_
    refine (carriesStatements c fuel).declaration.bind fun first => ?_
    refine inductionHypothesis.bind fun others => .pure ?_
    exact relabelAll_toList_append ..

/-- Tokens with an end mark, recast, are read from a recast state. -/
theorem State.ofTokens_recast {tokens : List Token} (firstId : ExprId)
    (finished : (∃ t ∈ tokens, t.isEnd = true) ∨ c.token = id) :
    State.ofTokens (tokens.map c.token) (firstId + c.shift) =
      (State.ofTokens tokens firstId).recast c := by
  have ends : Token.isEnd ∘ c.token = Token.isEnd := funext c.isEnd_token
  have goesOn : (!·.isEnd) ∘ c.token = (!·.isEnd) := funext fun t => congrArg not (c.isEnd_token t)
  have finish : ((tokens.map c.token).find? Token.isEnd).getD (missingEnd (tokens.map c.token)) =
      c.token ((tokens.find? Token.isEnd).getD (missingEnd tokens)) := by
    rw [List.find?_map, ends]
    rcases finished with ⟨t, member, isEnd⟩ | same
    · cases found : tokens.find? Token.isEnd with
      | some t => rfl
      | none => exact absurd isEnd (List.find?_eq_none.mp found t member)
    · rw [same, Option.map_id, List.map_id]
      rfl
  unfold State.ofTokens State.recast
  rw [finish, List.takeWhile_map, goesOn]
  exact congrArg (State.mk _ _ _) Array.map_empty.symm

end Grammar

def Parsed.recast (c : Recast) (parsed : Parsed) : Parsed where
  result := match parsed.result with
    | .ok program => .ok (program.relabel c.labels)
    | .error errors => .error (errors.map (ParseError.recast c))
  nextId := parsed.nextId + c.shift

/-- Recast tokens are parsed as the tokens are. -/
theorem Program.parse_recast (c : Recast) (tokens : List Token) (firstId : ExprId)
    (finished : (∃ t ∈ tokens, t.isEnd = true) ∨ c.token = id) :
    Program.parse (tokens.map c.token) (firstId + c.shift) =
      (Program.parse tokens firstId).recast c := by
  unfold Program.parse
  dsimp only
  rw [Grammar.State.ofTokens_recast firstId finished]
  have length : ((Grammar.State.ofTokens tokens firstId).recast c).rest.length =
      (Grammar.State.ofTokens tokens firstId).rest.length := List.length_map _
  rw [length, Grammar.carries_declarations]
  cases Grammar.declarations _ (Grammar.State.ofTokens tokens firstId) with
  | ok program finish =>
    refine congrArg (Parsed.mk · _) ?_
    have empty : (finish.errors.map (ParseError.recast c)).isEmpty = finish.errors.isEmpty := by
      simp [Array.isEmpty]
    simp only [Grammar.State.recast, empty, Array.toList_map]
    by_cases clean : finish.errors.isEmpty = true
    · rw [if_pos clean, if_pos clean]
      rfl
    · rw [if_neg clean, if_neg clean]
  | error fault finish =>
    refine congrArg (Parsed.mk · _) ?_
    simp only [Grammar.State.recast, ← Array.map_push, Array.toList_map]

/-! ## Where faults of grammar stand -/

open Classical in
/-- Tokens that are not among some are given other lexemes. -/
noncomputable def Recast.altering (tokens : List Token) : Recast where
  token t := if t ∈ tokens then t else { t with lexeme := t.lexeme ++ "'" }
  span := id
  shift := 0
  kind t := by split <;> rfl
  place t := by split <;> rfl

theorem Recast.mem_of_altering {tokens : List Token} {t : Token}
    (same : (altering tokens).token t = t) :
    t ∈ tokens := by
  by_contra outside
  have altered : (altering tokens).token t = { t with lexeme := t.lexeme ++ "'" } := if_neg outside
  rw [altered] at same
  have lengths := congrArg (String.length ∘ Token.lexeme) same
  simp at lengths

/-- Every fault of grammar stands at a token that was read. Recasting leaves these tokens as they
are, and so leaves the faults as they are. -/
theorem Program.token_mem_of_parse {tokens : List Token} {firstId : ExprId}
    {errors : List ParseError} (finished : ∃ t ∈ tokens, t.isEnd = true)
    (refused : (Program.parse tokens firstId).result = .error errors)
    {e : ParseError} (member : e ∈ errors) : e.token ∈ tokens := by
  have again : Program.parse (tokens.map (Recast.altering tokens).token) firstId =
      (Program.parse tokens firstId).recast (.altering tokens) :=
    Program.parse_recast (.altering tokens) tokens firstId (.inl finished)
  have unchanged : tokens.map (Recast.altering tokens).token = tokens.map id :=
    List.map_congr_left fun t inside => if_pos inside
  rw [unchanged, List.map_id] at again
  have results := congrArg Parsed.result again
  simp only [Parsed.recast, refused, Except.error.injEq] at results
  have faults : errors.map (ParseError.recast (.altering tokens)) = errors.map id := by
    rw [List.map_id, ← results]
  have same := List.map_inj_left.mp faults e member
  exact Recast.mem_of_altering (congrArg ParseError.token same)

end Lox
