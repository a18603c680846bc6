import Lox.Syntax.Basic
import Lox.Text.Quoted

set_option autoImplicit false

/-!
# Outlines

The outline of a program: every node of its tree between parentheses, with numbers and places.
-/

namespace Lox

/-- Parts separated by single spaces, between parentheses. -/
def outlineNode (parts : List String) : String :=
  "(" ++ " ".intercalate parts ++ ")"

def Span.outline (s : Span) : String :=
  "@" ++ toString s.start ++ ":" ++ toString s.stop ++ ":" ++ toString s.line ++ ":"
    ++ toString s.column

def Ident.outline (i : Ident) : String :=
  i.text ++ i.span.outline

def UnaryOp.outline : UnaryOp → String
  | .negate => "Negate"
  | .not => "Not"

def BinaryOp.outline : BinaryOp → String
  | .add => "Add"
  | .sub => "Sub"
  | .mul => "Mul"
  | .div => "Div"
  | .equal => "Equal"
  | .notEqual => "NotEqual"
  | .greater => "Greater"
  | .greaterEqual => "GreaterEqual"
  | .less => "Less"
  | .lessEqual => "LessEqual"

def LogicalOp.outline : LogicalOp → String
  | .and => "And"
  | .or => "Or"

def bitsOutline (x : Float) : String :=
  if x.isNaN then "nan" else String.ofList (Text.hexDigits 16 x.toBits.toNat)

/-- The word for a literal, and its value where the word does not say it. -/
def Literal.outline : Literal → String × List String
  | .nil => ("nil", [])
  | .bool true => ("true", [])
  | .bool false => ("false", [])
  | .number x => ("num", [bitsOutline x])
  | .string s => ("str", [Text.quoteWith Text.escapeControl s])

/-- A word with the number and place of the expression it stands for. -/
def outlineTag (word : String) (id : ExprId) (span : Span) : String :=
  word ++ "#" ++ toString id ++ span.outline

def Reference.outline (r : Reference) : String :=
  outlineNode [outlineTag "ref" r.id r.name.span, r.name.outline]

mutual

def Expr.outline : Expr → String
  | .literal id span value =>
    outlineNode (outlineTag value.outline.1 id span :: value.outline.2)
  | .ref target => target.outline
  | .assign id name value =>
    outlineNode [outlineTag "assign" id name.span, name.outline, value.outline]
  | .binary id span op left right =>
    outlineNode [outlineTag op.outline id span, left.outline, right.outline]
  | .logical id span op left right =>
    outlineNode [outlineTag op.outline id span, left.outline, right.outline]
  | .unary id span op operand =>
    outlineNode [outlineTag op.outline id span, operand.outline]
  | .call id span callee args =>
    outlineNode (outlineTag "call" id span :: callee.outline :: Expr.outlines args)
  | .group id span inner => outlineNode [outlineTag "group" id span, inner.outline]
  | .get id object name =>
    outlineNode [outlineTag "get" id name.span, name.outline, object.outline]
  | .set id object name value =>
    outlineNode [outlineTag "set" id name.span, name.outline, object.outline, value.outline]
  | .this id span => outlineNode [outlineTag "this" id span]
  | .super id span method => outlineNode [outlineTag "super" id span, method.outline]

def Expr.outlines : List Expr → List String
  | [] => []
  | e :: rest => e.outline :: Expr.outlines rest

end

/-- An absent part is written as a dash. -/
def outlineOption (part : Option String) : String :=
  part.getD "-"

mutual

def Stmt.outline : Stmt → String
  | .expr value => outlineNode ["expr", value.outline]
  | .print value => outlineNode ["print", value.outline]
  | .var name initial =>
    outlineNode ["var", name.outline, outlineOption (initial.map Expr.outline)]
  | .block body => outlineNode ("block" :: Stmt.outlines body)
  | .if condition yes none => outlineNode ["if", condition.outline, yes.outline, "-"]
  | .if condition yes (some no) => outlineNode ["if", condition.outline, yes.outline, no.outline]
  | .while condition body => outlineNode ["while", condition.outline, body.outline]
  | .fun routine => Stmt.outlineRoutine routine
  | .return keyword value =>
    outlineNode ["return", keyword.outline, outlineOption (value.map Expr.outline)]
  | .class name superclass methods =>
    outlineNode ("class" :: name.outline :: outlineOption (superclass.map Reference.outline)
      :: Stmt.outlineMethods methods)

def Stmt.outlines : List Stmt → List String
  | [] => []
  | s :: rest => s.outline :: Stmt.outlines rest

def Stmt.outlineRoutine : Routine (List Stmt) → String
  | ⟨name, params, body⟩ =>
    outlineNode ("fun" :: name.outline :: outlineNode (params.map Ident.outline)
      :: Stmt.outlines body)

def Stmt.outlineMethods : List (Routine (List Stmt)) → List String
  | [] => []
  | m :: rest => Stmt.outlineRoutine m :: Stmt.outlineMethods rest

end

end Lox
