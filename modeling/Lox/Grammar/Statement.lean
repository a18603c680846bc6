import Lox.Grammar.Expression

set_option autoImplicit false

/-!
# Grammar of statements

Reading statements and whole programs. A fault inside a declaration is recorded, tokens are skipped
up to where a statement is likely to start, and reading goes on, so that one pass reports many
faults.
-/

namespace Lox.Grammar

/-- Whether a token is a keyword that starts a statement. -/
def startsStatement (t : Token) : Bool :=
  match t.kind with
  | .keyword .class | .keyword .fun | .keyword .var | .keyword .for | .keyword .if
  | .keyword .while | .keyword .print | .keyword .return => true
  | _ => false

/-- Skips tokens behind `last` up to one behind a semicolon or one that starts a statement. -/
def skipToStatement (last : Token) : List Token → List Token
  | [] => []
  | token :: rest =>
    if last.isSymbol .semicolon || startsStatement token then token :: rest
    else skipToStatement token rest

/-- Skips the next token at least, and goes on to the next likely statement. -/
def synchronize : Read Unit :=
  modify fun s =>
    match s.rest with
    | [] => s
    | token :: rest => { s with rest := skipToStatement token rest }

/-- One parameter or more; every one past the limit is reported. -/
def parameters : Nat → Nat → Read (List Ident)
  | 0, _ => exhausted
  | fuel + 1, count => do
    if maxArguments ≤ count then
      record ⟨.tooManyParameters, ← peek⟩
    let first ← expectIdent .parameterName
    if ← accept .comma then
      return first :: (← parameters fuel (count + 1))
    else
      return [first]

/-- An expression, unless the symbol that would follow it comes at once. -/
def expressionUnless (mark : Symbol) (fuel : Nat) : Read (Option Expr) := do
  if ← nextIs mark then return none else return some (← expression fuel)

def varDeclaration (fuel : Nat) : Read Stmt := do
  let name ← expectIdent .variableName
  let initial ← if ← accept .equal then some <$> expression fuel else pure none
  let _ ← expect .semicolon .variableEnd
  return .var name initial

def expressionStatement (fuel : Nat) : Read Stmt := do
  let value ← expression fuel
  let _ ← expect .semicolon .statementEnd
  return .expr value

/-- The first clause of a for statement, with its semicolon. -/
def forInitial (fuel : Nat) : Read (Option Stmt) := do
  if ← accept .semicolon then
    return none
  else if ← acceptKeyword .var then
    return some (← varDeclaration fuel)
  else
    return some (← expressionStatement fuel)

/-- A for statement stands for a while statement: the increment follows the body in a block, and the
first clause precedes the loop in another. -/
def forLoop (initial : Option Stmt) (condition : Expr) (increment : Option Expr)
    (body : Stmt) : Stmt :=
  let body := match increment with
    | some increment => .block [body, .expr increment]
    | none => body
  let loop := .while condition body
  match initial with
  | some initial => .block [initial, loop]
  | none => loop

mutual

/-- A declaration or statement, or nothing if a fault was found in it. -/
def declaration : Nat → Read (Option Stmt)
  | 0 => exhausted
  | fuel + 1 =>
    tryCatch
      (some <$> do
        if ← acceptKeyword .class then
          classDeclaration fuel
        else if ← acceptKeyword .fun then
          .fun <$> routine fuel .function
        else if ← acceptKeyword .var then
          varDeclaration fuel
        else
          statement fuel)
      fun fault => do
        record fault
        synchronize
        return none

def classDeclaration : Nat → Read Stmt
  | 0 => exhausted
  | fuel + 1 => do
    let name ← expectIdent .className
    let superclass ← if ← accept .less then do
        let name ← expectIdent .superclassName
        pure (some (Reference.mk (← freshId) name))
      else
        pure none
    let _ ← expect .leftBrace .classBody
    let methods ← methods fuel
    let _ ← expect .rightBrace .classEnd
    return .class name superclass methods

def methods : Nat → Read (List (Routine (List Stmt)))
  | 0 => exhausted
  | fuel + 1 => do
    if (← nextIs .rightBrace) || (← atEnd) then
      return []
    else
      let first ← routine fuel .method
      return first :: (← methods fuel)

def routine : Nat → ParseError.RoutineSort → Read (Routine (List Stmt))
  | 0, _ => exhausted
  | fuel + 1, sort => do
    let name ← expectIdent (.routineName sort)
    let _ ← expect .leftParen (.parameters sort)
    let params ← if ← nextIs .rightParen then pure [] else parameters fuel 0
    let _ ← expect .rightParen .parametersEnd
    let _ ← expect .leftBrace (.routineBody sort)
    let body ← block fuel
    return ⟨name, params, body⟩

def block : Nat → Read (List Stmt)
  | 0 => exhausted
  | fuel + 1 => do
    if (← nextIs .rightBrace) || (← atEnd) then
      let _ ← expect .rightBrace .blockEnd
      return []
    else
      let first ← declaration fuel
      return first.toList ++ (← block fuel)

def statement : Nat → Read Stmt
  | 0 => exhausted
  | fuel + 1 => do
    let token ← peek
    match token.kind with
    | .keyword .for =>
      let _ ← advance
      let _ ← expect .leftParen .forClauses
      let initial ← forInitial fuel
      let condition ← expressionUnless .semicolon fuel
      let _ ← expect .semicolon .forConditionEnd
      let increment ← expressionUnless .rightParen fuel
      let _ ← expect .rightParen .forClausesEnd
      let body ← statement fuel
      let condition ← match condition with
        | some condition => pure condition
        | none => do pure (.literal (← freshId) token.span (.bool true))
      return forLoop initial condition increment body
    | .keyword .if =>
      let _ ← advance
      let _ ← expect .leftParen .ifCondition
      let condition ← expression fuel
      let _ ← expect .rightParen .ifConditionEnd
      let yes ← statement fuel
      let no ← if ← acceptKeyword .else then some <$> statement fuel else pure none
      return .if condition yes no
    | .keyword .print =>
      let _ ← advance
      let value ← expression fuel
      let _ ← expect .semicolon .printEnd
      return .print value
    | .keyword .return =>
      let _ ← advance
      let value ← expressionUnless .semicolon fuel
      let _ ← expect .semicolon .returnEnd
      return .return token.span value
    | .keyword .while =>
      let _ ← advance
      let _ ← expect .leftParen .whileCondition
      let condition ← expression fuel
      let _ ← expect .rightParen .whileConditionEnd
      return .while condition (← statement fuel)
    | .symbol .leftBrace =>
      let _ ← advance
      .block <$> block fuel
    | _ => expressionStatement fuel

end

def declarations : Nat → Read (List Stmt)
  | 0 => exhausted
  | fuel + 1 => do
    if ← atEnd then
      return []
    else
      let first ← declaration fuel
      return first.toList ++ (← declarations fuel)

/-- Enough for the recursion over a number of tokens: fifteen for the levels of an expression, so
sixteen for every token, and as much again for the levels around the first expression. -/
def fuelFor (tokens : Nat) : Nat :=
  16 * (tokens + 2)

end Lox.Grammar
