import Lox.Proofs.Scope.Extension

set_option autoImplicit false

/-!
# The steps of the resolver

What the resolver does for an expression or a statement, written down as a list of steps. A step
reports at most one fault, and does so at the word that it is about. So the faults of a program come
in the order of its steps.
-/

namespace Lox

open Scope (State RoutineKind ClassKind)

def ScopeError.word (e : ScopeError) : Ident :=
  ⟨e.lexeme, e.span⟩

namespace Scope

/-- The state between two steps, with the kinds of the routines and classes to come back to,
innermost first. -/
structure Moment where
  state : State := {}
  routines : List RoutineKind := []
  classes : List ClassKind := []

inductive Step where
  | declare (name : Ident)
  | define (name : Ident)
  | read (target : Reference)
  | write (id : ExprId) (name : String)
  | this (id : ExprId) (span : Span)
  | super (id : ExprId) (span : Span)
  | return (keyword : Span) (hasValue : Bool)
  | inherit (name clause : Ident)
  | push
  | pop
  /-- Declares `this` or `super`. -/
  | bind (name : String)
  | enterRoutine (kind : RoutineKind)
  | leaveRoutine
  | enterClass
  | subclass
  | leaveClass

namespace Step

def apply : Step → Moment → Moment
  | .declare name, m => { m with state := m.state.declare name }
  | .define name, m => { m with state := m.state.define name }
  | .read target, m => { m with state := m.state.useName target }
  | .write id name, m => { m with state := m.state.resolve id name }
  | .this id span, m => { m with state := m.state.useThis id span }
  | .super id span, m => { m with state := m.state.useSuper id span }
  | .return keyword hasValue, m => { m with state := m.state.useReturn keyword hasValue }
  | .inherit name clause, m =>
    { m with state :=
      if clause.text = name.text then m.state.report .selfInheritance clause.text clause.span
      else m.state }
  | .push, m => { m with state := m.state.push }
  | .pop, m => { m with state := m.state.pop }
  | .bind name, m => { m with state := m.state.mark name true }
  | .enterRoutine kind, m =>
    { m with state := { m.state with routine := kind }, routines := m.state.routine :: m.routines }
  | .leaveRoutine, m =>
    { m with
      state := { m.state with routine := m.routines.headD .none }
      routines := m.routines.tail }
  | .enterClass, m =>
    { m with
      state := { m.state with classKind := .base }
      classes := m.state.classKind :: m.classes }
  | .subclass, m => { m with state := { m.state with classKind := .subclass } }
  | .leaveClass, m =>
    { m with
      state := { m.state with classKind := m.classes.headD .none }
      classes := m.classes.tail }

def run (steps : List Step) (m : Moment) : Moment :=
  steps.foldl (fun m step => step.apply m) m

theorem run_append (steps steps' : List Step) (m : Moment) :
    run (steps ++ steps') m = run steps' (run steps m) :=
  List.foldl_append

def word? : Step → Option Ident
  | .declare name | .inherit _ name => some name
  | .read target => some target.name
  | .this _ span => some ⟨"this", span⟩
  | .super _ span => some ⟨"super", span⟩
  | .return keyword _ => some ⟨"return", keyword⟩
  | _ => none

def words (steps : List Step) : List Ident :=
  steps.filterMap word?

theorem words_append (steps steps' : List Step) :
    words (steps ++ steps') = words steps ++ words steps' :=
  List.filterMap_append

end Step

/-! ## Faults -/

/-- The faults that are new in a later state are reported at some of the words, in their order. -/
def State.Reports (words : List Ident) (s s' : State) : Prop :=
  ∃ found : List ScopeError, s'.errors.toList = s.errors.toList ++ found ∧
    (found.map ScopeError.word).Sublist words

namespace State.Reports

variable {words words' : List Ident} {s s' s'' : State}

theorem trans (first : Reports words s s') (second : Reports words' s' s'') :
    Reports (words ++ words') s s'' := by
  obtain ⟨found, errors, sublist⟩ := first
  obtain ⟨found', errors', sublist'⟩ := second
  refine ⟨found ++ found', by rw [errors', errors, List.append_assoc], ?_⟩
  rw [List.map_append]
  exact sublist.append sublist'

theorem of_eq (same : s'.errors = s.errors) : Reports words s s' :=
  ⟨[], by simp [same], List.nil_sublist _⟩

theorem report (cause : ScopeError.Cause) (word : Ident)
    (same : s'.errors = (s.report cause word.text word.span).errors) :
    Reports [word] s s' :=
  ⟨[⟨cause, word.text, word.span⟩], by simp [same, State.report], List.Sublist.refl _⟩

end State.Reports

theorem Step.reports (step : Step) (m : Moment) :
    State.Reports step.word?.toList m.state (step.apply m).state := by
  cases step with
  | declare name =>
    simp only [apply, State.declare]
    split
    · exact .report .alreadyDeclared name (State.mark_errors ..)
    · exact .of_eq (State.mark_errors ..)
  | read target =>
    simp only [apply, State.useName]
    split
    · exact .report .readInOwnInitializer target.name (State.resolve_errors ..)
    · exact .of_eq (State.resolve_errors ..)
  | this id span =>
    simp only [apply, State.useThis]
    split
    · exact .report .thisOutsideClass ⟨"this", span⟩ rfl
    all_goals exact .of_eq (State.resolve_errors ..)
  | super id span =>
    simp only [apply, State.useSuper]
    split
    · exact .report .superOutsideClass ⟨"super", span⟩ (State.resolve_errors ..)
    · exact .report .superWithoutSuperclass ⟨"super", span⟩ (State.resolve_errors ..)
    · exact .of_eq (State.resolve_errors ..)
  | «return» keyword hasValue =>
    simp only [apply, State.useReturn_eq]
    split
    · exact .report .topLevelReturn ⟨"return", keyword⟩ rfl
    · exact .report .valueReturnFromInitializer ⟨"return", keyword⟩ rfl
    · exact .of_eq rfl
  | inherit name clause =>
    simp only [apply]
    split
    · exact .report .selfInheritance clause rfl
    · exact .of_eq rfl
  | write | define | bind | push | pop | enterRoutine | leaveRoutine | enterClass | subclass
  | leaveClass =>
    exact .of_eq (by simp [apply, State.define, State.push, State.pop])

/-- Faults come in the order of the steps. -/
theorem Step.reports_run (steps : List Step) (m : Moment) :
    State.Reports (Step.words steps) m.state (Step.run steps m).state := by
  induction steps generalizing m with
  | nil => exact .of_eq rfl
  | cons step rest inductionHypothesis =>
    have words : Step.words (step :: rest) = step.word?.toList ++ Step.words rest := by
      cases found : step.word? <;> simp [Step.words, found]
    rw [words]
    exact (step.reports m).trans (inductionHypothesis _)

end Scope

/-! ## Syntax -/

open Scope (Step)

mutual

def Expr.steps : Expr → List Step
  | .literal .. => []
  | .ref target => [.read target]
  | .assign id name value => value.steps ++ [.write id name.text]
  | .binary _ _ _ left right | .logical _ _ _ left right => left.steps ++ right.steps
  | .unary _ _ _ inner | .group _ _ inner | .get _ inner _ => inner.steps
  | .call _ _ callee args => callee.steps ++ Expr.stepsAll args
  | .set _ object _ value => value.steps ++ object.steps
  | .this id span => [.this id span]
  | .super id span _ => [.super id span]

def Expr.stepsAll : List Expr → List Step
  | [] => []
  | e :: rest => e.steps ++ Expr.stepsAll rest

end

def Expr.stepsOption : Option Expr → List Step
  | some e => e.steps
  | none => []

def Ident.steps (names : List Ident) : List Step :=
  names.flatMap fun name => [.declare name, .define name]

def Reference.steps (name : Ident) : Option Reference → List Step
  | some clause => [.inherit name clause.name, .subclass, .read clause, .push, .bind "super"]
  | none => []

namespace Stmt

mutual

def steps : Stmt → List Step
  | .expr value | .print value => value.steps
  | .var name initial => .declare name :: (Expr.stepsOption initial ++ [.define name])
  | .block body => .push :: (stepsAll body ++ [.pop])
  | .if condition yes none | .while condition yes => condition.steps ++ yes.steps
  | .if condition yes (some no) => condition.steps ++ (yes.steps ++ no.steps)
  | .fun routine =>
    [.declare routine.name, .define routine.name] ++ stepsOfRoutine .function routine
  | .return keyword value => .return keyword value.isSome :: Expr.stepsOption value
  | .class name superclass methods =>
    [.enterClass, .declare name, .define name] ++ (Reference.steps name superclass ++
      ([.push, .bind "this"] ++ (stepsOfMethods methods ++
        (.pop :: (superclass.map fun _ => Step.pop).toList ++ [.leaveClass]))))

def stepsAll : List Stmt → List Step
  | [] => []
  | s :: rest => s.steps ++ stepsAll rest

def stepsOfRoutine (kind : RoutineKind) : Routine (List Stmt) → List Step
  | ⟨_, params, body⟩ =>
    [.enterRoutine kind, .push] ++ (Ident.steps params ++ (stepsAll body ++ [.pop, .leaveRoutine]))

def stepsOfMethods : List (Routine (List Stmt)) → List Step
  | [] => []
  | method :: rest => stepsOfRoutine (Scope.methodKind method.name) method ++ stepsOfMethods rest

end

end Stmt

def Program.steps (program : Program) : List Step :=
  Stmt.stepsAll program

end Lox
