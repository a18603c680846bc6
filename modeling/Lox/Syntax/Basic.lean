import Lox.Source.Position

set_option autoImplicit false

/-!
# Programs

Every expression carries a number of its own, so that two uses of one name are told apart.
-/

namespace Lox

/-- The number of an expression, unique within a session. Statements that rest on this for a whole
session ask that its numbers fit into words of 32 bits. -/
abbrev ExprId := Nat

structure Ident where
  text : String
  span : Span
  deriving DecidableEq, Repr, Inhabited

structure Reference where
  id : ExprId
  name : Ident
  deriving DecidableEq, Repr, Inhabited

inductive Literal where
  | nil
  | bool (value : Bool)
  | number (value : Float)
  | string (value : String)
  deriving Inhabited

inductive UnaryOp where
  | negate | not
  deriving DecidableEq, Repr

inductive BinaryOp where
  | add | sub | mul | div | equal | notEqual | greater | greaterEqual | less | lessEqual
  deriving DecidableEq, Repr

inductive LogicalOp where
  | and | or
  deriving DecidableEq, Repr

/-- Where an expression keeps a span of its own, it is that of the token a message points at: the
operator, the closing parenthesis of a call, the opening one of a group, or the word itself. -/
inductive Expr where
  | literal (id : ExprId) (span : Span) (value : Literal)
  | ref (target : Reference)
  | assign (id : ExprId) (name : Ident) (value : Expr)
  | binary (id : ExprId) (span : Span) (op : BinaryOp) (left right : Expr)
  | logical (id : ExprId) (span : Span) (op : LogicalOp) (left right : Expr)
  | unary (id : ExprId) (span : Span) (op : UnaryOp) (operand : Expr)
  | call (id : ExprId) (span : Span) (callee : Expr) (args : List Expr)
  | group (id : ExprId) (span : Span) (inner : Expr)
  | get (id : ExprId) (object : Expr) (name : Ident)
  | set (id : ExprId) (object : Expr) (name : Ident) (value : Expr)
  | this (id : ExprId) (span : Span)
  | super (id : ExprId) (span : Span) (method : Ident)
  deriving Inhabited

namespace Expr

def id : Expr → ExprId
  | literal id .. | assign id .. | binary id .. | logical id .. | unary id .. | call id ..
  | group id .. | get id .. | set id .. | this id .. | super id .. => id
  | ref target => target.id

/-- The span that a message about the expression points at. -/
def span : Expr → Span
  | literal _ span _ | binary _ span .. | logical _ span .. | unary _ span .. | call _ span ..
  | group _ span _ | this _ span | super _ span _ => span
  | ref target => target.name.span
  | assign _ name _ | get _ _ name | set _ _ name _ => name.span

end Expr

structure Routine (Body : Type) where
  name : Ident
  params : List Ident
  body : Body
  deriving Inhabited

inductive Stmt where
  | expr (value : Expr)
  | print (value : Expr)
  | var (name : Ident) (initial : Option Expr)
  | block (body : List Stmt)
  | if (condition : Expr) (yes : Stmt) (no : Option Stmt)
  | while (condition : Expr) (body : Stmt)
  | fun (routine : Routine (List Stmt))
  | return (keyword : Span) (value : Option Expr)
  | class (name : Ident) (superclass : Option Reference) (methods : List (Routine (List Stmt)))
  deriving Inhabited

abbrev Program := List Stmt

end Lox
