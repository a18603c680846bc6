import Lox.Token.Segment

set_option autoImplicit false

/-!
# Scanning

The tokens of a source text. `Token.tokenize` stops at the first fault; `Token.scan` reports every
fault in its place and goes on behind it.
-/

namespace Lox

namespace ScanError

inductive Cause where
  | unexpectedCharacter (c : Char)
  | unterminatedString
  | unterminatedComment
  | invalidNumber (literal : String)
  deriving DecidableEq, Repr

def Cause.message : Cause → String
  | .unexpectedCharacter c => "Unexpected character '" ++ c.toString ++ "'."
  | .unterminatedString => "Unterminated string."
  | .unterminatedComment => "Unterminated block comment."
  | .invalidNumber literal => "Invalid number literal '" ++ literal ++ "'."

end ScanError

/-- A fault of the text itself, with the line on which the faulty segment starts. -/
structure ScanError where
  cause : ScanError.Cause
  line : Nat
  deriving DecidableEq, Repr

def ScanError.message (e : ScanError) : String :=
  e.cause.message

def Segment.fault? (s : Segment) : Option ScanError.Cause :=
  match s.kind with
  | .number =>
    if Number.isLiteral s.text then none else some (.invalidNumber (String.ofList s.text))
  | .unexpected c => some (.unexpectedCharacter c)
  | .unclosedString => some .unterminatedString
  | .unclosedComment => some .unterminatedComment
  | _ => none

/-- What a segment at a position contributes: a token, a fault, or nothing. -/
def Segment.item? (s : Segment) (p : Position) : Option (Except ScanError Token) :=
  match s.fault?, s.tokenKind? with
  | some cause, _ => some (.error ⟨cause, p.line⟩)
  | none, some kind => some (.ok ⟨kind, String.ofList s.text, p.span s.text⟩)
  | none, none => none

namespace Token

/-- Tokens and faults of segments that start at a position, up to the end mark. -/
def itemsFrom (p : Position) : List Segment → List (Except ScanError Token)
  | [] => [.ok (endAt p)]
  | s :: rest =>
    match s.item? p with
    | some item => item :: itemsFrom (p.after s.text) rest
    | none => itemsFrom (p.after s.text) rest

/-- The tokens of segments that start at a position, unless one of them is a fault. -/
def tokensFrom (p : Position) : List Segment → Except ScanError (List Token)
  | [] => .ok [endAt p]
  | s :: rest =>
    match s.item? p with
    | some (.error e) => .error e
    | some (.ok t) => (tokensFrom (p.after s.text) rest).map (t :: ·)
    | none => tokensFrom (p.after s.text) rest

def scan (source : String) : List (Except ScanError Token) :=
  itemsFrom {} (Segment.split source.toList)

/-- The tokens of a text up to and including the end mark, or its first fault. -/
def tokenize (source : String) : Except ScanError (List Token) :=
  tokensFrom {} (Segment.split source.toList)

end Token

end Lox
