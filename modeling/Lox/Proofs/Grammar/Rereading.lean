import Lox.Proofs.Grammar.Progress

set_option autoImplicit false

/-!
# Reading an expression again

What a reader of expressions does depends on the tokens in front of it alone. It does not look at
the faults that were recorded before, nor at the numbers that were handed out, and the bound on its
recursion only matters if it is reached. So an expression that is read again, on its own, takes the
same tokens, and the same faults are recorded on the way.
-/

namespace Lox

def Expr.isTarget : Expr → Bool
  | .ref _ => true
  | .get .. => true
  | _ => false

namespace Grammar

/-- Two readers that stood at the same tokens have taken the same ones and recorded the same
faults. -/
structure State.Abreast (s t s' t' : State) : Prop where
  rest : s'.rest = t'.rest
  finish : s'.finish = t'.finish
  faults : ∃ new, s'.errors = s.errors ++ new ∧ t'.errors = t.errors ++ new

open State (Abreast)

theorem State.Abreast.refl {s t : State} (rest : s.rest = t.rest) (finish : s.finish = t.finish) :
    Abreast s t s t :=
  ⟨rest, finish, #[], Array.append_empty.symm, Array.append_empty.symm⟩

theorem State.Abreast.trans {s t s' t' s'' t'' : State} (first : Abreast s t s' t')
    (second : Abreast s' t' s'' t'') : Abreast s t s'' t'' := by
  obtain ⟨new, here, there⟩ := first.faults
  obtain ⟨new', here', there'⟩ := second.faults
  refine ⟨second.rest, second.finish, new ++ new', ?_, ?_⟩
  · rw [here', here, Array.append_assoc]
  · rw [there', there, Array.append_assoc]

theorem State.next_eq {s t : State} (rest : s.rest = t.rest) (finish : s.finish = t.finish) :
    s.next = t.next := by
  rw [State.next, State.next, rest, finish]

variable {α β γ δ : Type}

/-- If the first reader finds no fault that it throws, the second one does the same at the same
tokens, unless its bound is reached. -/
def Rereads (same : α → β → Prop) (x : Read α) (y : Read β) : Prop :=
  ∀ ⦃s t : State⦄, s.rest = t.rest → s.finish = t.finish → ∀ ⦃a : α⦄ ⦃s' : State⦄, x s = .ok a s' →
    Meets y t (fun b t' => same a b ∧ Abreast s t s' t') fun e _ => e.cause = .unfinished

namespace Rereads

variable {same : α → β → Prop} {same' : γ → δ → Prop} {x : Read α} {y : Read β}

theorem pure {a : α} {b : β} (here : same a b) : Rereads same (pure a) (pure b) := by
  intro s t rest finish _ _ read
  cases read
  exact ⟨here, .refl rest finish⟩

theorem bind {f : α → Read γ} {g : β → Read δ} (first : Rereads same x y)
    (second : ∀ a b, same a b → Rereads same' (f a) (g b)) : Rereads same' (x >>= f) (y >>= g) := by
  intro s t rest finish c s'' read
  cases readFirst : x s with
  | error e s' =>
    rw [bind_of_error readFirst] at read
    cases read
  | ok a s' =>
    rw [bind_of_ok readFirst] at read
    refine Meets.bind (first rest finish readFirst) fun b t' _ ⟨here, abreast⟩ => ?_
    refine (second a b here abreast.rest abreast.finish read).imp fun _ _ _ ⟨there, behind⟩ => ?_
    exact ⟨there, abreast.trans behind⟩

theorem ite {condition : Prop} [Decidable condition] {x' : Read α} {y' : Read β}
    (yes : Rereads same x y) (no : Rereads same x' y') :
    Rereads same (if condition then x else x') (if condition then y else y') := by
  split
  · exact yes
  · exact no

/-! ## Primitive steps -/

theorem exhausted_left : Rereads same exhausted y := by
  intro s t _ _ _ _ read
  cases read

theorem exhausted_right : Rereads same x exhausted :=
  fun _ _ _ _ _ _ _ => rfl

theorem fail {what : ParseError.Expectation} : Rereads same (fail what) y := by
  intro s t _ _ _ _ read
  cases read

theorem peek : Rereads Eq peek peek := by
  intro s t rest finish _ _ read
  cases read
  exact ⟨State.next_eq rest finish, .refl rest finish⟩

theorem nextIs (mark : Symbol) : Rereads Eq (nextIs mark) (nextIs mark) := by
  intro s t rest finish _ _ read
  cases read
  exact ⟨congrArg (·.isSymbol mark) (State.next_eq rest finish), .refl rest finish⟩

theorem advance : Rereads Eq advance advance := by
  intro s t rest finish _ _ read
  cases read
  refine ⟨State.next_eq rest finish, congrArg List.tail rest, finish, #[], ?_, ?_⟩
  · exact Array.append_empty.symm
  · exact Array.append_empty.symm

theorem record (e : ParseError) : Rereads Eq (record e) (record e) := by
  intro s t rest finish _ _ read
  cases read
  exact ⟨rfl, rest, finish, #[e], Array.push_eq_append, Array.push_eq_append⟩

theorem freshId : Rereads (fun _ _ => True) freshId freshId := by
  intro s t rest finish _ _ read
  cases read
  refine ⟨trivial, rest, finish, #[], ?_, ?_⟩
  · exact Array.append_empty.symm
  · exact Array.append_empty.symm

theorem accept (mark : Symbol) : Rereads Eq (accept mark) (accept mark) := by
  refine (nextIs mark).bind fun _ _ here => ?_
  subst here
  exact .ite (advance.bind fun _ _ _ => .pure rfl) (.pure rfl)

theorem expect (mark : Symbol) (what : ParseError.Expectation) :
    Rereads Eq (expect mark what) (expect mark what) := by
  refine (nextIs mark).bind fun _ _ here => ?_
  subst here
  exact .ite advance .fail

theorem expectIdent (what : ParseError.Expectation) :
    Rereads Eq (expectIdent what) (expectIdent what) := by
  refine peek.bind fun token _ here => ?_
  subst here
  cases token.kind with
  | identifier name => exact advance.bind fun _ _ _ => .pure rfl
  | _ => exact .fail

end Rereads

/-! ## Expressions -/

/-- Both can be assigned to, or neither can. -/
def SameTarget (first second : Expr) : Prop :=
  first.isTarget = second.isTarget

theorem sameTarget_apply (op : InfixOp) {id id' : ExprId} {span : Span}
    {left left' right right' : Expr} :
    SameTarget (op.apply id span left right) (op.apply id' span left' right') := by
  cases op <;> rfl

structure RereadsExpressions (fuel fuel' : Nat) : Prop where
  expression : Rereads SameTarget (expression fuel) (expression fuel')
  operators : ∀ level, Rereads SameTarget (operators fuel level) (operators fuel' level)
  operand : ∀ level, Rereads SameTarget (operand fuel level) (operand fuel' level)
  operatorsTail : ∀ level left left', SameTarget left left' →
    Rereads SameTarget (operatorsTail fuel level left) (operatorsTail fuel' level left')
  unary : Rereads SameTarget (unary fuel) (unary fuel')
  callTail : ∀ callee callee', SameTarget callee callee' →
    Rereads SameTarget (callTail fuel callee) (callTail fuel' callee')
  arguments : ∀ count, Rereads (fun _ _ => True) (arguments fuel count) (arguments fuel' count)
  primary : Rereads SameTarget (primary fuel) (primary fuel')

namespace RereadsExpressions

theorem zero_left (fuel' : Nat) : RereadsExpressions 0 fuel' where
  expression := .exhausted_left
  operators _ := .exhausted_left
  operand _ := .exhausted_left
  operatorsTail _ _ _ _ := .exhausted_left
  unary := .exhausted_left
  callTail _ _ _ := .exhausted_left
  arguments _ := .exhausted_left
  primary := .exhausted_left

theorem zero_right (fuel : Nat) : RereadsExpressions fuel 0 where
  expression := .exhausted_right
  operators _ := .exhausted_right
  operand _ := .exhausted_right
  operatorsTail _ _ _ _ := .exhausted_right
  unary := .exhausted_right
  callTail _ _ _ := .exhausted_right
  arguments _ := .exhausted_right
  primary := .exhausted_right

variable {fuel fuel' : Nat} (rereads : RereadsExpressions fuel fuel')
include rereads

theorem expression_succ : Rereads SameTarget (Grammar.expression (fuel + 1))
    (Grammar.expression (fuel' + 1)) := by
  refine (rereads.operators .or).bind fun target target' targets => ?_
  refine Rereads.peek.bind fun equals _ here => ?_
  subst here
  refine .ite ?_ (.pure targets)
  refine Rereads.advance.bind fun _ _ _ => rereads.expression.bind fun value value' _ => ?_
  cases target with
  | ref | get =>
    cases target' with
    | ref | get => exact Rereads.freshId.bind fun _ _ _ => .pure rfl
    | _ => cases targets
  | _ =>
    cases target' with
    | ref | get => cases targets
    | _ => exact (Rereads.record _).bind fun _ _ _ => .pure rfl

theorem operators_succ (level : Level) : Rereads SameTarget (Grammar.operators (fuel + 1) level)
    (Grammar.operators (fuel' + 1) level) :=
  (rereads.operand level).bind fun left left' lefts => rereads.operatorsTail level left left' lefts

theorem operand_succ (level : Level) : Rereads SameTarget (Grammar.operand (fuel + 1) level)
    (Grammar.operand (fuel' + 1) level) := by
  unfold Grammar.operand
  cases level.tighter? with
  | some tighter => exact rereads.operators tighter
  | none => exact rereads.unary

theorem operatorsTail_succ (level : Level) (left left' : Expr) (lefts : SameTarget left left') :
    Rereads SameTarget (Grammar.operatorsTail (fuel + 1) level left)
      (Grammar.operatorsTail (fuel' + 1) level left') := by
  refine Rereads.peek.bind fun token _ here => ?_
  subst here
  cases level.operator? token.kind with
  | none => exact .pure lefts
  | some op =>
    refine Rereads.advance.bind fun _ _ _ => (rereads.operand level).bind fun right right' _ => ?_
    exact Rereads.freshId.bind fun _ _ _ => rereads.operatorsTail level _ _ (sameTarget_apply op)

theorem unary_succ : Rereads SameTarget (Grammar.unary (fuel + 1)) (Grammar.unary (fuel' + 1)) := by
  refine Rereads.peek.bind fun token _ here => ?_
  subst here
  cases unaryOperator? token.kind with
  | some op =>
    refine Rereads.advance.bind fun _ _ _ => rereads.unary.bind fun _ _ _ => ?_
    exact Rereads.freshId.bind fun _ _ _ => .pure rfl
  | none =>
    exact rereads.primary.bind fun callee callee' callees => rereads.callTail callee callee' callees

theorem callTail_succ (callee callee' : Expr) (callees : SameTarget callee callee') :
    Rereads SameTarget (Grammar.callTail (fuel + 1) callee)
      (Grammar.callTail (fuel' + 1) callee') := by
  have call (args args' : List Expr) : Rereads SameTarget
      (do
        let closing ← expect .rightParen .argumentsEnd
        let id ← freshId
        Grammar.callTail fuel (.call id closing.span callee args))
      (do
        let closing ← expect .rightParen .argumentsEnd
        let id ← freshId
        Grammar.callTail fuel' (.call id closing.span callee' args')) := by
    refine (Rereads.expect _ _).bind fun _ _ _ => Rereads.freshId.bind fun _ _ _ => ?_
    exact rereads.callTail _ _ rfl
  refine (Rereads.accept .leftParen).bind fun _ _ here => ?_
  subst here
  refine .ite ?_ ((Rereads.accept .dot).bind fun _ _ here => ?_)
  · refine (Rereads.nextIs _).bind fun _ _ here => ?_
    subst here
    exact .ite (call [] []) ((rereads.arguments 0).bind fun args args' _ => call args args')
  · subst here
    refine .ite ?_ (.pure callees)
    refine (Rereads.expectIdent _).bind fun _ _ _ => Rereads.freshId.bind fun _ _ _ => ?_
    exact rereads.callTail _ _ rfl

theorem arguments_succ (count : Nat) :
    Rereads (fun _ _ => True) (Grammar.arguments (fuel + 1) count)
    (Grammar.arguments (fuel' + 1) count) := by
  unfold Grammar.arguments
  refine .ite (Rereads.peek.bind fun _ _ here => ?_) ?_
  · subst here
    refine (Rereads.record _).bind fun _ _ _ => rereads.expression.bind fun _ _ _ => ?_
    refine (Rereads.accept .comma).bind fun _ _ here => ?_
    subst here
    exact .ite ((rereads.arguments (count + 1)).bind fun _ _ _ => .pure trivial) (.pure trivial)
  · refine rereads.expression.bind fun _ _ _ => (Rereads.accept .comma).bind fun _ _ here => ?_
    subst here
    exact .ite ((rereads.arguments (count + 1)).bind fun _ _ _ => .pure trivial) (.pure trivial)

theorem primary_succ :
    Rereads SameTarget (Grammar.primary (fuel + 1)) (Grammar.primary (fuel' + 1)) := by
  refine Rereads.peek.bind fun token _ here => ?_
  subst here
  split
  · exact Rereads.advance.bind fun _ _ _ => Rereads.freshId.bind fun _ _ _ => .pure rfl
  · exact Rereads.advance.bind fun _ _ _ => Rereads.freshId.bind fun _ _ _ => .pure rfl
  · exact Rereads.advance.bind fun _ _ _ => Rereads.freshId.bind fun _ _ _ => .pure rfl
  · refine Rereads.advance.bind fun _ _ _ => (Rereads.expect _ _).bind fun _ _ _ => ?_
    exact (Rereads.expectIdent _).bind fun _ _ _ => Rereads.freshId.bind fun _ _ _ => .pure rfl
  · refine Rereads.advance.bind fun _ _ _ => rereads.expression.bind fun _ _ _ => ?_
    exact (Rereads.expect _ _).bind fun _ _ _ => Rereads.freshId.bind fun _ _ _ => .pure rfl
  · exact .fail

theorem succ : RereadsExpressions (fuel + 1) (fuel' + 1) where
  expression := rereads.expression_succ
  operators := rereads.operators_succ
  operand := rereads.operand_succ
  operatorsTail := rereads.operatorsTail_succ
  unary := rereads.unary_succ
  callTail := rereads.callTail_succ
  arguments := rereads.arguments_succ
  primary := rereads.primary_succ

end RereadsExpressions

theorem rereadsExpressions (fuel fuel' : Nat) : RereadsExpressions fuel fuel' := by
  induction fuel generalizing fuel' with
  | zero => exact .zero_left fuel'
  | succ fuel inductionHypothesis =>
    cases fuel' with
    | zero => exact .zero_right (fuel + 1)
    | succ fuel' => exact (inductionHypothesis fuel').succ

/-- The faults that are recorded while an expression is read, which is in front of some tokens. -/
def expressionFaults (rest : List Token) (finish : Token) : List ParseError :=
  (endState (expression (fuelFor rest.length) ⟨rest, finish, 0, #[]⟩)).errors.toList

theorem errors_of_expression {fuel : Nat} {s s' : State} {value : Expr} (ends : s.Ends)
    (read : expression fuel s = .ok value s') :
    s'.errors.toList = s.errors.toList ++ expressionFaults s.rest s.finish := by
  let start : State := ⟨s.rest, s.finish, 0, #[]⟩
  have enough : True → 16 * start.rest.length + 15 ≤ fuelFor start.rest.length := fun _ => by
    unfold fuelFor
    omega
  have rest : s.rest = start.rest := rfl
  have finish : s.finish = start.finish := rfl
  have again := (rereadsExpressions fuel (fuelFor start.rest.length)).expression rest finish read
  have finished := (runsExpressions (fuelFor start.rest.length)).expression (s := start) ends enough
  unfold expressionFaults
  change _ = _ ++ (endState (expression (fuelFor start.rest.length) start)).errors.toList
  cases outcome : expression (fuelFor start.rest.length) start with
  | error e t =>
    have unfinished := again.error_of_eq outcome
    exact absurd unfinished ((finished.error_of_eq outcome).2.genuine trivial)
  | ok value' t =>
    obtain ⟨-, -, -, new, here, there⟩ := again.ok_of_eq outcome
    rw [here, Array.toList_append]
    have recorded : t.errors = new := there.trans Array.empty_append
    exact congrArg (s.errors.toList ++ Array.toList ·) recorded.symm

end Grammar

end Lox
