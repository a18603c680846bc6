import Lox.Syntax.Basic
import Mathlib

set_option autoImplicit false

/-!
# Uses of names

Which expressions of a program use names, which numbers its expressions carry, and which statements
declare a name.
-/

namespace Lox

inductive UseKind where
  | read | write | this | super
  deriving DecidableEq, Repr

structure Use where
  kind : UseKind
  id : ExprId
  name : String
  deriving DecidableEq, Repr

namespace Use

def read (r : Reference) : Use := ⟨.read, r.id, r.name.text⟩

def write (id : ExprId) (name : Ident) : Use := ⟨.write, id, name.text⟩

def this (id : ExprId) : Use := ⟨.this, id, "this"⟩

def super (id : ExprId) : Use := ⟨.super, id, "super"⟩

end Use

/-- The names that are bound by method calls and class declarations only. -/
def IsReserved (name : String) : Prop :=
  name = "this" ∨ name = "super"

instance (name : String) : Decidable (IsReserved name) :=
  inferInstanceAs (Decidable (name = "this" ∨ name = "super"))

mutual

def Expr.ids : Expr → List ExprId
  | .literal id .. => [id]
  | .ref target => [target.id]
  | .assign id _ value => value.ids ++ [id]
  | .binary id _ _ left right => left.ids ++ right.ids ++ [id]
  | .logical id _ _ left right => left.ids ++ right.ids ++ [id]
  | .unary id _ _ operand => operand.ids ++ [id]
  | .call id _ callee args => callee.ids ++ Expr.idsAll args ++ [id]
  | .group id _ inner => inner.ids ++ [id]
  | .get id object _ => object.ids ++ [id]
  | .set id object _ value => object.ids ++ value.ids ++ [id]
  | .this id _ => [id]
  | .super id .. => [id]

def Expr.idsAll : List Expr → List ExprId
  | [] => []
  | e :: rest => e.ids ++ Expr.idsAll rest

end

def Expr.idsOption : Option Expr → List ExprId
  | some e => e.ids
  | none => []

namespace Stmt

/-- The name that a statement declares in the scope around it. -/
def declared? : Stmt → Option Ident
  | .var name _ => some name
  | .fun routine => some routine.name
  | .class name .. => some name
  | _ => none

mutual

def ids : Stmt → List ExprId
  | .expr value => value.ids
  | .print value => value.ids
  | .var _ initial => Expr.idsOption initial
  | .block body => idsAll body
  | .if condition yes none => condition.ids ++ yes.ids
  | .if condition yes (some no) => condition.ids ++ yes.ids ++ no.ids
  | .while condition body => condition.ids ++ body.ids
  | .fun routine => idsOfRoutine routine
  | .return _ value => Expr.idsOption value
  | .class _ superclass methods => (superclass.map Reference.id).toList ++ idsOfMethods methods

def idsAll : List Stmt → List ExprId
  | [] => []
  | s :: rest => s.ids ++ idsAll rest

def idsOfRoutine : Routine (List Stmt) → List ExprId
  | ⟨_, _, body⟩ => idsAll body

def idsOfMethods : List (Routine (List Stmt)) → List ExprId
  | [] => []
  | method :: rest => idsOfRoutine method ++ idsOfMethods rest

end

end Stmt

def Program.ids (program : Program) : List ExprId :=
  Stmt.idsAll program

end Lox
