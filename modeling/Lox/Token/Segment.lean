import Lox.Number.Text
import Lox.Text.Alphabetic
import Lox.Text.Numeric
import Lox.Token.Basic

set_option autoImplicit false

/-!
# Segments

A source text cut into segments. Every character belongs to exactly one segment, and each segment is
the longest one that can start at its first character: a run of blanks, a comment, a word, a number,
a string, a symbol, or a fault. A fault is a character that starts nothing, or a string or comment
that is not closed and takes the rest of the text.
-/

namespace Lox

namespace Segment

inductive Kind where
  | blank
  | comment
  | word
  | number
  | string
  | symbol (mark : Symbol)
  | unexpected (c : Char)
  | unclosedString
  | unclosedComment
  deriving DecidableEq, Repr

end Segment

structure Segment where
  kind : Segment.Kind
  text : List Char
  deriving DecidableEq, Repr

namespace Segment

def isBlank (c : Char) : Bool :=
  c == ' ' || c == '\r' || c == '\t' || c == '\n'

def startsWord (c : Char) : Bool :=
  c == '_' || Text.isAlphabetic c

def continuesWord (c : Char) : Bool :=
  startsWord c || Text.isNumeric c

/-- How many characters of a text reach to the end of the first `*/` in it. -/
def commentLength? : List Char → Option Nat
  | '*' :: '/' :: _ => some 2
  | _ :: rest => (commentLength? rest).map (· + 1)
  | [] => none

/-- How many characters go on a number behind its first digit: digits, and a point with at least one
digit behind it. -/
def numberTail (rest : List Char) : Nat :=
  let whole := (rest.takeWhile Char.isDigit).length
  match rest.drop whole with
  | '.' :: fraction =>
    match (fraction.takeWhile Char.isDigit).length with
    | 0 => whole
    | places => whole + 1 + places
  | _ => whole

/-- Kind of the segment that starts with `c`, and how many of the characters behind it belong to
it. -/
def first (c : Char) (rest : List Char) : Kind × Nat :=
  if isBlank c then
    (.blank, (rest.takeWhile isBlank).length)
  else if c == '"' then
    match rest.findIdx? (· == '"') with
    | some index => (.string, index + 1)
    | none => (.unclosedString, rest.length)
  else if c.isDigit then
    (.number, numberTail rest)
  else if startsWord c then
    (.word, (rest.takeWhile continuesWord).length)
  else
    match c, rest with
    | '/', '/' :: _ => (.comment, (rest.takeWhile (· != '\n')).length)
    | '/', '*' :: inside =>
      match commentLength? inside with
      | some length => (.comment, length + 1)
      | none => (.unclosedComment, rest.length)
    | _, _ =>
      match Symbol.ofChar? c with
      | none => (.unexpected c, 0)
      | some mark =>
        match mark.withEqual?, rest with
        | some longer, '=' :: _ => (.symbol longer, 1)
        | _, _ => (.symbol mark, 0)

def split : List Char → List Segment
  | [] => []
  | c :: rest =>
    let (kind, length) := first c rest
    ⟨kind, c :: rest.take length⟩ :: split (rest.drop length)
termination_by text => text.length
decreasing_by simp only [List.length_drop, List.length_cons]; omega

/-- Cutting loses no character and adds none. -/
theorem flatMap_text_split (text : List Char) : (split text).flatMap Segment.text = text := by
  fun_induction split text with
  | case1 => rfl
  | case2 c rest kind length _ inductionHypothesis =>
    simp [inductionHypothesis, List.take_append_drop]

/-- The kind of token that a segment forms. Blanks, comments and faults form none. -/
def tokenKind? (s : Segment) : Option Token.Kind :=
  match s.kind with
  | .word =>
    let word := String.ofList s.text
    match Keyword.ofText? word with
    | some keyword => some (.keyword keyword)
    | none => some (.identifier word)
  | .number => some (.number (Number.ofLiteral s.text))
  | .string => some (.string (String.ofList (s.text.drop 1).dropLast))
  | .symbol mark => some (.symbol mark)
  | _ => none

end Segment

end Lox
