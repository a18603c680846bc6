import Lox.Grammar.State

set_option autoImplicit false

/-!
# Grammar of expressions

Reading expressions by recursive descent. The number that the functions take first bounds the depth
of the recursion: each function calls the others with a smaller one, and with none left reading is
broken off. Sixteen for every token still to be read, and fifteen more, are enough.
-/

namespace Lox.Grammar

/-- The levels of infix operators, from the loosest to the tightest. -/
inductive Level where
  | or | and | equality | comparison | term | factor
  deriving DecidableEq, Repr

/-- The level that the operands of a level are read at; those of the tightest are prefixed by unary
operators only. -/
def Level.tighter? : Level → Option Level
  | .or => some .and
  | .and => some .equality
  | .equality => some .comparison
  | .comparison => some .term
  | .term => some .factor
  | .factor => none

inductive InfixOp where
  | binary (op : BinaryOp)
  | logical (op : LogicalOp)
  deriving DecidableEq, Repr

def InfixOp.apply (op : InfixOp) (id : ExprId) (span : Span) (left right : Expr) : Expr :=
  match op with
  | .binary op => .binary id span op left right
  | .logical op => .logical id span op left right

def Level.operator? : Level → Token.Kind → Option InfixOp
  | .or, .keyword .or => some (.logical .or)
  | .and, .keyword .and => some (.logical .and)
  | .equality, .symbol .bangEqual => some (.binary .notEqual)
  | .equality, .symbol .equalEqual => some (.binary .equal)
  | .comparison, .symbol .greater => some (.binary .greater)
  | .comparison, .symbol .greaterEqual => some (.binary .greaterEqual)
  | .comparison, .symbol .less => some (.binary .less)
  | .comparison, .symbol .lessEqual => some (.binary .lessEqual)
  | .term, .symbol .minus => some (.binary .sub)
  | .term, .symbol .plus => some (.binary .add)
  | .factor, .symbol .slash => some (.binary .div)
  | .factor, .symbol .star => some (.binary .mul)
  | _, _ => none

def unaryOperator? : Token.Kind → Option UnaryOp
  | .symbol .bang => some .not
  | .symbol .minus => some .negate
  | _ => none

def literal? : Token.Kind → Option Literal
  | .keyword .nil => some .nil
  | .keyword .true => some (.bool true)
  | .keyword .false => some (.bool false)
  | .number x => some (.number x)
  | .string s => some (.string s)
  | _ => none

/-- The largest number of arguments or parameters that is not reported. -/
def maxArguments : Nat := 255

mutual

/-- An assignment, or what may stand to the left of one. A left side that is neither a variable nor
a property is reported once the right side has been read, and stands for the whole. -/
def expression : Nat → Read Expr
  | 0 => exhausted
  | fuel + 1 => do
    let target ← operators fuel .or
    let equals ← peek
    if equals.isSymbol .equal then
      let _ ← advance
      let value ← expression fuel
      match target with
      | .ref reference => return .assign (← freshId) reference.name value
      | .get _ object name => return .set (← freshId) object name value
      | _ =>
        record ⟨.assignmentTarget, equals⟩
        return target
    else
      return target

/-- Operands of a level, joined by its operators from the left. -/
def operators : Nat → Level → Read Expr
  | 0, _ => exhausted
  | fuel + 1, level => do
    let left ← operand fuel level
    operatorsTail fuel level left

def operand : Nat → Level → Read Expr
  | 0, _ => exhausted
  | fuel + 1, level =>
    match level.tighter? with
    | some tighter => operators fuel tighter
    | none => unary fuel

def operatorsTail : Nat → Level → Expr → Read Expr
  | 0, _, _ => exhausted
  | fuel + 1, level, left => do
    let token ← peek
    match level.operator? token.kind with
    | some op =>
      let _ ← advance
      let right ← operand fuel level
      let id ← freshId
      operatorsTail fuel level (op.apply id token.span left right)
    | none => return left

def unary : Nat → Read Expr
  | 0 => exhausted
  | fuel + 1 => do
    let token ← peek
    match unaryOperator? token.kind with
    | some op =>
      let _ ← advance
      let inner ← unary fuel
      return .unary (← freshId) token.span op inner
    | none =>
      let callee ← primary fuel
      callTail fuel callee

/-- Calls and property accesses behind an expression. -/
def callTail : Nat → Expr → Read Expr
  | 0, _ => exhausted
  | fuel + 1, callee => do
    if ← accept .leftParen then
      let args ← if ← nextIs .rightParen then pure [] else arguments fuel 0
      let closing ← expect .rightParen .argumentsEnd
      let id ← freshId
      callTail fuel (.call id closing.span callee args)
    else if ← accept .dot then
      let name ← expectIdent .propertyName
      let id ← freshId
      callTail fuel (.get id callee name)
    else
      return callee

/-- One argument or more; every one past the limit is reported. -/
def arguments : Nat → Nat → Read (List Expr)
  | 0, _ => exhausted
  | fuel + 1, count => do
    if maxArguments ≤ count then
      record ⟨.tooManyArguments, ← peek⟩
    let first ← expression fuel
    if ← accept .comma then
      return first :: (← arguments fuel (count + 1))
    else
      return [first]

def primary : Nat → Read Expr
  | 0 => exhausted
  | fuel + 1 => do
    let token ← peek
    match literal? token.kind, token.kind with
    | some value, _ =>
      let _ ← advance
      return .literal (← freshId) token.span value
    | none, .identifier name =>
      let _ ← advance
      return .ref ⟨← freshId, ⟨name, token.span⟩⟩
    | none, .keyword .this =>
      let _ ← advance
      return .this (← freshId) token.span
    | none, .keyword .super =>
      let _ ← advance
      let _ ← expect .dot .superDot
      let method ← expectIdent .superMethod
      return .super (← freshId) token.span method
    | none, .symbol .leftParen =>
      let _ ← advance
      let inner ← expression fuel
      let _ ← expect .rightParen .groupEnd
      return .group (← freshId) token.span inner
    | none, _ => fail .expression

end

end Lox.Grammar
