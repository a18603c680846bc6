import Lox.Source.Position

set_option autoImplicit false

/-!
# Tokens

Words, numbers, strings and symbols with their places, and the mark for the end of the text.
-/

namespace Lox

inductive Keyword where
  | and | «class» | else | false | for | fun | if | nil | or | print | return | super | this | true
  | var | while
  deriving DecidableEq, Repr

namespace Keyword

def text : Keyword → String
  | .and => "and"
  | .class => "class"
  | .else => "else"
  | .false => "false"
  | .for => "for"
  | .fun => "fun"
  | .if => "if"
  | .nil => "nil"
  | .or => "or"
  | .print => "print"
  | .return => "return"
  | .super => "super"
  | .this => "this"
  | .true => "true"
  | .var => "var"
  | .while => "while"

def all : List Keyword :=
  [.and, .class, .else, .false, .for, .fun, .if, .nil, .or, .print, .return, .super, .this, .true,
    .var, .while]

def ofText? (word : String) : Option Keyword :=
  all.find? (fun keyword => keyword.text == word)

theorem mem_all (keyword : Keyword) : keyword ∈ all := by
  cases keyword <;> decide

end Keyword

inductive Symbol where
  | leftParen | rightParen | leftBrace | rightBrace | comma | dot | semicolon
  | minus | plus | slash | star
  | bang | bangEqual | equal | equalEqual | greater | greaterEqual | less | lessEqual
  deriving DecidableEq, Repr

namespace Symbol

def text : Symbol → String
  | .leftParen => "("
  | .rightParen => ")"
  | .leftBrace => "\x7b"
  | .rightBrace => "\x7d"
  | .comma => ","
  | .dot => "."
  | .semicolon => ";"
  | .minus => "-"
  | .plus => "+"
  | .slash => "/"
  | .star => "*"
  | .bang => "!"
  | .bangEqual => "!="
  | .equal => "="
  | .equalEqual => "=="
  | .greater => ">"
  | .greaterEqual => ">="
  | .less => "<"
  | .lessEqual => "<="

def ofChar? : Char → Option Symbol
  | '(' => some .leftParen
  | ')' => some .rightParen
  | '\x7b' => some .leftBrace
  | '\x7d' => some .rightBrace
  | ',' => some .comma
  | '.' => some .dot
  | ';' => some .semicolon
  | '-' => some .minus
  | '+' => some .plus
  | '/' => some .slash
  | '*' => some .star
  | '!' => some .bang
  | '=' => some .equal
  | '>' => some .greater
  | '<' => some .less
  | _ => none

/-- The symbol that a symbol of one character forms with an equals sign behind it. -/
def withEqual? : Symbol → Option Symbol
  | .bang => some .bangEqual
  | .equal => some .equalEqual
  | .greater => some .greaterEqual
  | .less => some .lessEqual
  | _ => none

end Symbol

namespace Token

inductive Kind where
  | identifier (name : String)
  | number (value : Float)
  | string (value : String)
  | keyword (word : Keyword)
  | symbol (mark : Symbol)
  | endOfInput
  deriving Inhabited

end Token

structure Token where
  kind : Token.Kind
  lexeme : String
  span : Span
  deriving Inhabited

namespace Token

def isEnd (t : Token) : Bool :=
  match t.kind with
  | .endOfInput => true
  | _ => false

def isSymbol (t : Token) (mark : Symbol) : Bool :=
  match t.kind with
  | .symbol other => other == mark
  | _ => false

def isKeyword (t : Token) (word : Keyword) : Bool :=
  match t.kind with
  | .keyword other => other == word
  | _ => false

/-- The token as error messages show it. -/
def text (t : Token) : String :=
  if t.isEnd then "end" else "'" ++ t.lexeme ++ "'"

def endAt (p : Position) : Token :=
  ⟨.endOfInput, "", ⟨p.offset, p.offset, p.line, p.column⟩⟩

end Token

end Lox
