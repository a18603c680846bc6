import Lox.Evaluation.Basic
import Lox.Proofs.Outcome
import Lox.Proofs.Syntax.Uses

set_option autoImplicit false

/-!
# The moments of a run

A run as a tree of activities. An activity is the evaluation of one thing from one state of the
machine, and the activities below it are those that it starts, each from the state in which it
starts it. All moments of a run at which something is evaluated are the activities that are reached
from its first one.
-/

namespace Lox

inductive Task where
  | expr (e : Expr)
  | exprs (es : List Expr)
  | call (callee : Value) (args : List Value) (span : Span)
  | apply (function : Function) (args : List Value)
  | instantiate (cls : Class) (args : List Value)
  | stmt (s : Stmt)
  | loop (condition : Expr) (body : Stmt)
  | stmts (body : List Stmt)

namespace Task

abbrev Result : Task → Type
  | .expr _ | .call .. | .apply .. | .instantiate .. => Value
  | .exprs _ => List Value
  | .stmt _ | .loop .. | .stmts _ => Flow

def run (limit fuel : Nat) : (task : Task) → Eval task.Result
  | .expr e => Eval.expr limit fuel e
  | .exprs es => Eval.exprs limit fuel es
  | .call callee args span => Eval.call limit fuel callee args span
  | .apply function args => Eval.apply limit fuel function args
  | .instantiate cls args => Eval.instantiate limit fuel cls args
  | .stmt s => Eval.stmt limit fuel s
  | .loop condition body => Eval.loop limit fuel condition body
  | .stmts body => Eval.stmts limit fuel body

end Task

/-- A task, with the bound on the recursion and the machine that it is started with. -/
structure Activity where
  fuel : Nat
  task : Task
  machine : Machine

namespace Activity

def Fails (limit : Nat) (a : Activity) (e : Interruption) : Prop :=
  FailsWith (a.task.run limit a.fuel) a.machine e

/-- An activity starts another one as a part of it. What the parts before that one yield decides
whether it is started, and from which state. -/
inductive Starts (limit : Nat) : Activity → Activity → Prop where
  | assigned {fuel : Nat} {m : Machine} {id : ExprId} {name : Ident} {value : Expr} :
    Starts limit ⟨fuel + 1, .expr (.assign id name value), m⟩ ⟨fuel, .expr value, m⟩
  | binaryLeft {fuel : Nat} {m : Machine} {id : ExprId} {span : Span} {op : BinaryOp}
      {left right : Expr} :
    Starts limit ⟨fuel + 1, .expr (.binary id span op left right), m⟩ ⟨fuel, .expr left, m⟩
  | binaryRight {fuel : Nat} {m m' : Machine} {id : ExprId} {span : Span} {op : BinaryOp}
      {left right : Expr} {value : Value} (first : Eval.expr limit fuel left m = .ok value m') :
    Starts limit ⟨fuel + 1, .expr (.binary id span op left right), m⟩ ⟨fuel, .expr right, m'⟩
  | logicalLeft {fuel : Nat} {m : Machine} {id : ExprId} {span : Span} {op : LogicalOp}
      {left right : Expr} :
    Starts limit ⟨fuel + 1, .expr (.logical id span op left right), m⟩ ⟨fuel, .expr left, m⟩
  | logicalRight {fuel : Nat} {m m' : Machine} {id : ExprId} {span : Span} {op : LogicalOp}
      {left right : Expr} {value : Value} (first : Eval.expr limit fuel left m = .ok value m')
      (unsettled : ¬op.isSettledBy value = true) :
    Starts limit ⟨fuel + 1, .expr (.logical id span op left right), m⟩ ⟨fuel, .expr right, m'⟩
  | operand {fuel : Nat} {m : Machine} {id : ExprId} {span : Span} {op : UnaryOp} {operand : Expr} :
    Starts limit ⟨fuel + 1, .expr (.unary id span op operand), m⟩ ⟨fuel, .expr operand, m⟩
  | callee {fuel : Nat} {m : Machine} {id : ExprId} {span : Span} {callee : Expr}
      {args : List Expr} :
    Starts limit ⟨fuel + 1, .expr (.call id span callee args), m⟩ ⟨fuel, .expr callee, m⟩
  | args {fuel : Nat} {m m' : Machine} {id : ExprId} {span : Span} {callee : Expr}
      {args : List Expr} {f : Value} (first : Eval.expr limit fuel callee m = .ok f m') :
    Starts limit ⟨fuel + 1, .expr (.call id span callee args), m⟩ ⟨fuel, .exprs args, m'⟩
  | call {fuel : Nat} {m m' m'' : Machine} {id : ExprId} {span : Span} {callee : Expr}
      {args : List Expr} {f : Value} {values : List Value}
      (first : Eval.expr limit fuel callee m = .ok f m')
      (second : Eval.exprs limit fuel args m' = .ok values m'')
      (allowed : ¬limit ≤ m''.callDepth) :
    Starts limit ⟨fuel + 1, .expr (.call id span callee args), m⟩
      ⟨fuel, .call f values span, { m'' with callDepth := m''.callDepth + 1 }⟩
  | inner {fuel : Nat} {m : Machine} {id : ExprId} {span : Span} {inner : Expr} :
    Starts limit ⟨fuel + 1, .expr (.group id span inner), m⟩ ⟨fuel, .expr inner, m⟩
  | getObject {fuel : Nat} {m : Machine} {id : ExprId} {object : Expr} {name : Ident} :
    Starts limit ⟨fuel + 1, .expr (.get id object name), m⟩ ⟨fuel, .expr object, m⟩
  | setObject {fuel : Nat} {m : Machine} {id : ExprId} {object value : Expr} {name : Ident} :
    Starts limit ⟨fuel + 1, .expr (.set id object name value), m⟩ ⟨fuel, .expr object, m⟩
  | setValue {fuel : Nat} {m m' : Machine} {id : ExprId} {object value : Expr} {name : Ident}
      {found : Instance} (first : Eval.expr limit fuel object m = .ok (.instance found) m') :
    Starts limit ⟨fuel + 1, .expr (.set id object name value), m⟩ ⟨fuel, .expr value, m'⟩
  | firstExpr {fuel : Nat} {m : Machine} {e : Expr} {rest : List Expr} :
    Starts limit ⟨fuel + 1, .exprs (e :: rest), m⟩ ⟨fuel, .expr e, m⟩
  | otherExprs {fuel : Nat} {m m' : Machine} {e : Expr} {rest : List Expr} {value : Value}
      (first : Eval.expr limit fuel e m = .ok value m') :
    Starts limit ⟨fuel + 1, .exprs (e :: rest), m⟩ ⟨fuel, .exprs rest, m'⟩
  | apply {fuel : Nat} {m : Machine} {function : Function} {args : List Value} {span : Span}
      (arity : function.arity = args.length) :
    Starts limit ⟨fuel + 1, .call (.function function) args span, m⟩ ⟨fuel, .apply function args, m⟩
  | instantiate {fuel : Nat} {m : Machine} {cls : Class} {args : List Value} {span : Span}
      (arity : cls.arity = args.length) :
    Starts limit ⟨fuel + 1, .call (.class cls) args span, m⟩ ⟨fuel, .instantiate cls args, m⟩
  | body {fuel : Nat} {m m' : Machine} {function : Function} {args : List Value} {env : Env}
      (enclosed : Eval.enclose function.closure (function.bindArguments args) m = .ok env m') :
    Starts limit ⟨fuel + 1, .apply function args, m⟩
      ⟨fuel, .stmts function.routine.body, { m' with env := env }⟩
  | initializer {fuel : Nat} {m m' m'' : Machine} {cls : Class} {args : List Value}
      {object : Instance} {method bound : Function} (declared : cls.initializer? = some method)
      (made : Eval.newInstance cls m = .ok object m')
      (tied : Eval.bindMethod method object m' = .ok bound m'') :
    Starts limit ⟨fuel + 1, .instantiate cls args, m⟩ ⟨fuel, .apply bound args, m''⟩
  | exprStmt {fuel : Nat} {m : Machine} {value : Expr} :
    Starts limit ⟨fuel + 1, .stmt (.expr value), m⟩ ⟨fuel, .expr value, m⟩
  | printed {fuel : Nat} {m : Machine} {value : Expr} :
    Starts limit ⟨fuel + 1, .stmt (.print value), m⟩ ⟨fuel, .expr value, m⟩
  | initial {fuel : Nat} {m : Machine} {name : Ident} {initial : Expr} :
    Starts limit ⟨fuel + 1, .stmt (.var name (some initial)), m⟩ ⟨fuel, .expr initial, m⟩
  | block {fuel : Nat} {m m' : Machine} {body : List Stmt} {env : Env}
      (enclosed : Eval.enclose m.env ∅ m = .ok env m') :
    Starts limit ⟨fuel + 1, .stmt (.block body), m⟩ ⟨fuel, .stmts body, { m' with env := env }⟩
  | condition {fuel : Nat} {m : Machine} {condition : Expr} {yes : Stmt} {no : Option Stmt} :
    Starts limit ⟨fuel + 1, .stmt (.if condition yes no), m⟩ ⟨fuel, .expr condition, m⟩
  | yes {fuel : Nat} {m m' : Machine} {condition : Expr} {yes : Stmt} {no : Option Stmt}
      {value : Value} (first : Eval.expr limit fuel condition m = .ok value m')
      (holds : value.isTruthy = true) :
    Starts limit ⟨fuel + 1, .stmt (.if condition yes no), m⟩ ⟨fuel, .stmt yes, m'⟩
  | no {fuel : Nat} {m m' : Machine} {condition : Expr} {yes no : Stmt} {value : Value}
      (first : Eval.expr limit fuel condition m = .ok value m') (fails : ¬value.isTruthy = true) :
    Starts limit ⟨fuel + 1, .stmt (.if condition yes (some no)), m⟩ ⟨fuel, .stmt no, m'⟩
  | loop {fuel : Nat} {m : Machine} {condition : Expr} {body : Stmt} :
    Starts limit ⟨fuel + 1, .stmt (.while condition body), m⟩ ⟨fuel, .loop condition body, m⟩
  | returned {fuel : Nat} {m : Machine} {keyword : Span} {value : Expr} :
    Starts limit ⟨fuel + 1, .stmt (.return keyword (some value)), m⟩ ⟨fuel, .expr value, m⟩
  | loopCondition {fuel : Nat} {m : Machine} {condition : Expr} {body : Stmt} :
    Starts limit ⟨fuel + 1, .loop condition body, m⟩ ⟨fuel, .expr condition, m⟩
  | loopBody {fuel : Nat} {m m' : Machine} {condition : Expr} {body : Stmt} {value : Value}
      (first : Eval.expr limit fuel condition m = .ok value m') (holds : value.isTruthy = true) :
    Starts limit ⟨fuel + 1, .loop condition body, m⟩ ⟨fuel, .stmt body, m'⟩
  | loopAgain {fuel : Nat} {m m' m'' : Machine} {condition : Expr} {body : Stmt} {value : Value}
      (first : Eval.expr limit fuel condition m = .ok value m') (holds : value.isTruthy = true)
      (second : Eval.stmt limit fuel body m' = .ok .next m'') :
    Starts limit ⟨fuel + 1, .loop condition body, m⟩ ⟨fuel, .loop condition body, m''⟩
  | firstStmt {fuel : Nat} {m : Machine} {s : Stmt} {rest : List Stmt} :
    Starts limit ⟨fuel + 1, .stmts (s :: rest), m⟩ ⟨fuel, .stmt s, m⟩
  | otherStmts {fuel : Nat} {m m' : Machine} {s : Stmt} {rest : List Stmt}
      (first : Eval.stmt limit fuel s m = .ok .next m') :
    Starts limit ⟨fuel + 1, .stmts (s :: rest), m⟩ ⟨fuel, .stmts rest, m'⟩

/-- The activities that take place in the course of an activity, itself among them. -/
def Reaches (limit : Nat) : Activity → Activity → Prop :=
  Relation.ReflTransGen (Starts limit)

/-- An activity uses a name while the machine is in a state. An assignment does so when it starts,
and again when its value has been computed. -/
inductive Uses (limit : Nat) : Activity → Use → Machine → Prop where
  | read {fuel : Nat} {m : Machine} {target : Reference} :
    Uses limit ⟨fuel + 1, .expr (.ref target), m⟩ (.read target) m
  | write {fuel : Nat} {m : Machine} {id : ExprId} {name : Ident} {value : Expr} :
    Uses limit ⟨fuel + 1, .expr (.assign id name value), m⟩ (.write id name) m
  | written {fuel : Nat} {m m' : Machine} {id : ExprId} {name : Ident} {value : Expr} {v : Value}
      (computed : Eval.expr limit fuel value m = .ok v m') :
    Uses limit ⟨fuel + 1, .expr (.assign id name value), m⟩ (.write id name) m'
  | this {fuel : Nat} {m : Machine} {id : ExprId} {span : Span} :
    Uses limit ⟨fuel + 1, .expr (.this id span), m⟩ (.this id) m
  | super {fuel : Nat} {m : Machine} {id : ExprId} {span : Span} {method : Ident} :
    Uses limit ⟨fuel + 1, .expr (.super id span method), m⟩ (.super id) m
  | superclass {fuel : Nat} {m : Machine} {name : Ident} {superclass : Reference}
      {methods : List (Routine (List Stmt))} :
    Uses limit ⟨fuel + 1, .stmt (.class name (some superclass) methods), m⟩ (.read superclass) m

end Activity

namespace Eval

variable {fuel : Nat} {args : List Value}

theorem call_function (limit : Nat) {f : Function} (arity : f.arity = args.length) (span : Span) :
    Eval.call limit (fuel + 1) (.function f) args span = Eval.apply limit fuel f args :=
  if_neg (not_not.mpr arity)

theorem call_class (limit : Nat) {cls : Class} (arity : cls.arity = args.length) (span : Span) :
    Eval.call limit (fuel + 1) (.class cls) args span = Eval.instantiate limit fuel cls args :=
  if_neg (not_not.mpr arity)

end Eval

section Failures

variable {α : Type} {limit : Nat} {e : Interruption} {m : Machine} {step : Eval α}

theorem FailsWith.within {env : Env} (fails : FailsWith step { m with env := env } e) :
    FailsWith (Eval.within env step) m e := by
  obtain ⟨m', failure⟩ := fails
  exact ⟨{ m' with env := m.env }, by simp only [Eval.within, failure]⟩

theorem FailsWith.counted {span : Span} (allowed : ¬limit ≤ m.callDepth)
    (fails : FailsWith step { m with callDepth := m.callDepth + 1 } e) :
    FailsWith (Eval.counted limit span step) m e := by
  obtain ⟨m', failure⟩ := fails
  exact ⟨{ m' with callDepth := m'.callDepth - 1 },
    by simp only [Eval.counted, if_neg allowed, failure]⟩

namespace Activity

variable {a b : Activity}

/-- What a part of an activity fails with, the activity fails with. -/
theorem Starts.fails (starts : Starts limit a b) (fails : b.Fails limit e) : a.Fails limit e := by
  cases starts with
  | assigned | binaryLeft | logicalLeft | operand | callee | getObject | setObject | firstExpr
  | exprStmt | printed | initial | condition | loopCondition | firstStmt | returned =>
    exact FailsWith.bind fails
  | inner | loop => exact fails
  | binaryRight first | args first | setValue first | otherExprs first =>
    exact .behind first (.bind fails)
  | logicalRight first unsettled =>
    refine .behind first ?_
    rw [if_neg unsettled]
    exact fails
  | call first second allowed => exact .behind first (.behind second (fails.counted allowed))
  | apply arity =>
    rw [Fails, Task.run, Eval.call_function limit arity]
    exact fails
  | instantiate arity =>
    rw [Fails, Task.run, Eval.call_class limit arity]
    exact fails
  | body enclosed => exact .behind enclosed (.bind fails.within)
  | initializer declared made tied =>
    refine .behind made ?_
    rw [declared]
    exact .behind tied (.bind fails)
  | block enclosed => exact .behind rfl (.behind enclosed fails.within)
  | yes first holds =>
    refine .behind first ?_
    rw [if_pos holds]
    exact fails
  | no first failed =>
    refine .behind first ?_
    rw [if_neg failed]
    exact fails
  | loopBody first holds =>
    refine .behind first ?_
    rw [if_pos holds]
    exact .bind fails
  | loopAgain first holds second =>
    refine .behind first ?_
    rw [if_pos holds]
    exact .behind second fails
  | otherStmts first => exact .behind first fails

theorem Reaches.fails (reaches : Reaches limit a b) (fails : b.Fails limit e) :
    a.Fails limit e := by
  induction reaches using Relation.ReflTransGen.head_induction_on with
  | refl => exact fails
  | head starts _ inductionHypothesis => exact starts.fails inductionHypothesis

end Activity

end Failures

end Lox
