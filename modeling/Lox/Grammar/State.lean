import Lox.Grammar.Error
import Lox.Syntax.Basic

set_option autoImplicit false

/-!
# Reading tokens

A reader consumes tokens from the front, hands out expression numbers, and records faults. A fault
that is thrown ends the reading of the current declaration; the state stays where the fault was
found.
-/

namespace Lox.Grammar

structure State where
  /-- The tokens still to be read, none of them an end mark. -/
  rest : List Token
  /-- The end mark. -/
  finish : Token
  nextId : ExprId
  errors : Array ParseError

abbrev Read := EStateM ParseError State

/-- The end mark of a token list that has none: where the last token ends, on that token's line and
column, and on line one of an empty text. -/
def missingEnd (tokens : List Token) : Token :=
  let last := (tokens.getLast?.map Token.span).getD ⟨0, 0, 0, 0⟩
  ⟨.endOfInput, "", ⟨last.stop, last.stop, max last.line 1, last.column⟩⟩

/-- Reading starts at the first token and ends at the first end mark. -/
def State.ofTokens (tokens : List Token) (firstId : ExprId) : State where
  rest := tokens.takeWhile (!·.isEnd)
  finish := (tokens.find? Token.isEnd).getD (missingEnd tokens)
  nextId := firstId
  errors := #[]

def State.next (s : State) : Token :=
  s.rest.headD s.finish

def peek : Read Token :=
  return (← get).next

def atEnd : Read Bool :=
  return (← get).rest.isEmpty

def nextIs (mark : Symbol) : Read Bool :=
  return (← get).next.isSymbol mark

/-- Reads one token. The end mark is never passed. -/
def advance : Read Token :=
  modifyGet fun s => (s.next, { s with rest := s.rest.tail })

def fail {α : Type} (what : ParseError.Expectation) : Read α := do
  throw ⟨.expected what, ← peek⟩

/-- What a reader does that is left with nothing to bound its recursion. -/
def exhausted {α : Type} : Read α := do
  throw ⟨.unfinished, ← peek⟩

def record (e : ParseError) : Read Unit :=
  modify fun s => { s with errors := s.errors.push e }

def freshId : Read ExprId :=
  modifyGet fun s => (s.nextId, { s with nextId := s.nextId + 1 })

def accept (mark : Symbol) : Read Bool := do
  if ← nextIs mark then
    let _ ← advance
    return true
  else
    return false

def acceptKeyword (word : Keyword) : Read Bool := do
  if (← peek).isKeyword word then
    let _ ← advance
    return true
  else
    return false

def expect (mark : Symbol) (what : ParseError.Expectation) : Read Token := do
  if ← nextIs mark then advance else fail what

def expectIdent (what : ParseError.Expectation) : Read Ident := do
  let token ← peek
  match token.kind with
  | .identifier name =>
    let _ ← advance
    return ⟨name, token.span⟩
  | _ => fail what

end Lox.Grammar
