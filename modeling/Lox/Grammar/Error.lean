import Lox.Token.Basic

set_option autoImplicit false

/-!
# Parse errors

Faults of grammar, each with the token that it is reported at.
-/

namespace Lox

namespace ParseError

inductive RoutineSort where
  | function | method
  deriving DecidableEq, Repr

def RoutineSort.text : RoutineSort → String
  | .function => "function"
  | .method => "method"

inductive Expectation where
  | className | superclassName | classBody | classEnd
  | routineName (sort : RoutineSort) | parameters (sort : RoutineSort)
  | parameterName | parametersEnd | routineBody (sort : RoutineSort)
  | variableName | variableEnd
  | printEnd | returnEnd | statementEnd
  | whileCondition | whileConditionEnd
  | forClauses | forConditionEnd | forClausesEnd
  | ifCondition | ifConditionEnd
  | blockEnd
  | propertyName | argumentsEnd | groupEnd | superDot | superMethod
  | expression
  deriving DecidableEq, Repr

def Expectation.message : Expectation → String
  | .className => "Expect class name."
  | .superclassName => "Expect superclass name."
  | .classBody => "Expect '\x7b' before class body."
  | .classEnd => "Expect '\x7d' after class body."
  | .routineName sort => "Expect " ++ sort.text ++ " name."
  | .parameters sort => "Expect '(' after " ++ sort.text ++ " name."
  | .parameterName => "Expect parameter name."
  | .parametersEnd => "Expect ')' after parameters."
  | .routineBody sort => "Expect '\x7b' before " ++ sort.text ++ " body."
  | .variableName => "Expect variable name."
  | .variableEnd => "Expect ';' after variable declaration."
  | .printEnd => "Expect ';' after value."
  | .returnEnd => "Expect ';' after return value."
  | .statementEnd => "Expect ';' after expression."
  | .whileCondition => "Expect '(' after 'while'."
  | .whileConditionEnd => "Expect ')' after condition."
  | .forClauses => "Expect '(' after 'for'."
  | .forConditionEnd => "Expect ';' after loop condition."
  | .forClausesEnd => "Expect ')' after for clauses."
  | .ifCondition => "Expect '(' after 'if'."
  | .ifConditionEnd => "Expect ')' after if condition."
  | .blockEnd => "Expect '\x7d' after block."
  | .propertyName => "Expect property name after '.'."
  | .argumentsEnd => "Expect ')' after arguments."
  | .groupEnd => "Expect ')' after expression."
  | .superDot => "Expect '.' after 'super'."
  | .superMethod => "Expect superclass method name."
  | .expression => "Expect expression."

inductive Cause where
  | expected (what : Expectation)
  | tooManyParameters
  | tooManyArguments
  | assignmentTarget
  /-- The bound on the recursion of the reader was reached. -/
  | unfinished
  deriving DecidableEq, Repr

def Cause.message : Cause → String
  | .expected what => what.message
  | .tooManyParameters => "Can't have more than 255 parameters."
  | .tooManyArguments => "Can't have more than 255 arguments."
  | .assignmentTarget => "Invalid assignment target."
  | .unfinished => "Reading was not finished."

end ParseError

structure ParseError where
  cause : ParseError.Cause
  token : Token

namespace ParseError

def message (e : ParseError) : String :=
  e.cause.message

def line (e : ParseError) : Nat :=
  e.token.span.line

def location (e : ParseError) : String :=
  e.token.text

def text (e : ParseError) : String :=
  "[line " ++ toString e.line ++ "] Error at " ++ e.location ++ ": " ++ e.message

end ParseError

end Lox
