set_option autoImplicit false

/-!
# Positions and spans

Places in a source text. Offsets count UTF-8 bytes, lines count from one, and a column counts the
characters since the last line feed.
-/

namespace Lox

structure Position where
  offset : Nat := 0
  line : Nat := 1
  column : Nat := 0
  deriving DecidableEq, Repr, Inhabited

namespace Position

/-- The position behind one more character. -/
def advance (p : Position) (c : Char) : Position :=
  if c = '\n' then ⟨p.offset + c.utf8Size, p.line + 1, 0⟩
  else ⟨p.offset + c.utf8Size, p.line, p.column + 1⟩

def after (p : Position) (text : List Char) : Position :=
  text.foldl advance p

@[simp] theorem after_nil (p : Position) : p.after [] = p := rfl

@[simp] theorem after_cons (p : Position) (c : Char) (text : List Char) :
    p.after (c :: text) = (p.advance c).after text := rfl

@[simp] theorem after_append (p : Position) (first second : List Char) :
    p.after (first ++ second) = (p.after first).after second :=
  List.foldl_append

end Position

/-- A piece of a source text: the offsets of its two ends, and line and column of its start. -/
structure Span where
  start : Nat
  stop : Nat
  line : Nat
  column : Nat
  deriving DecidableEq, Repr, Inhabited

def Position.span (p : Position) (text : List Char) : Span :=
  ⟨p.offset, (p.after text).offset, p.line, p.column⟩

end Lox
