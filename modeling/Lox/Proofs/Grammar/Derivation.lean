import Lox.Grammar.Program
import Mathlib

set_option autoImplicit false

/-!
# The grammar of the language

The rules that say which words of tokens are programs, one phrase for each category, and the
derivations that follow them. The grammar is ambiguous: a branch can belong to more than one `if`
statement.

A family of sets of words, one for each category, is closed if it holds all that the rules build
from it. The derivable words are the least such family.
-/

namespace Lox.Grammar

inductive Terminal where
  | symbol (mark : Symbol)
  | keyword (word : Keyword)
  | identifier
  | number
  | string
  | endOfInput
  deriving DecidableEq, Repr

def Terminal.Matches : Terminal → Token.Kind → Prop
  | .symbol mark, kind => kind = .symbol mark
  | .keyword word, kind => kind = .keyword word
  | .identifier, kind => ∃ name, kind = .identifier name
  | .number, kind => ∃ value, kind = .number value
  | .string, kind => ∃ value, kind = .string value
  | .endOfInput, kind => kind = .endOfInput

inductive Category where
  | program | declaration | varDeclaration | function | parameters | block
  | statement | expressionStatement | forStatement | ifStatement | printStatement | returnStatement
  | whileStatement
  | expression | assignment | logicOr | logicAnd | equality | comparison | term | factor
  | unary | call
  | arguments | primary
  deriving DecidableEq, Repr

inductive Phrase where
  | token (terminal : Terminal)
  | category (name : Category)
  | empty
  | seq (first second : Phrase)
  | nothing
  | either (first second : Phrase)
  | many (inner : Phrase)
  /-- One entry or more, with commas between them and no more than a number of entries. -/
  | list (most : Nat) (entry : Phrase)
  deriving DecidableEq, Repr

namespace Phrase

def symbol (mark : Symbol) : Phrase := .token (.symbol mark)

def keyword (word : Keyword) : Phrase := .token (.keyword word)

def identifier : Phrase := .token .identifier

def sequence : List Phrase → Phrase
  | [] => .empty
  | first :: rest => .seq first (sequence rest)

def oneOf : List Phrase → Phrase
  | [] => .nothing
  | first :: rest => .either first (oneOf rest)

def maybe (inner : Phrase) : Phrase := .either inner .empty

def chain (operand : Phrase) (operators : List Terminal) : Phrase :=
  .sequence [operand, .many (.sequence [.oneOf (operators.map .token), operand])]

end Phrase

def Category.rule : Category → Phrase
  | .program => .sequence [.many (.category .declaration), .token .endOfInput]
  | .declaration => .oneOf [
      .sequence [.keyword .class, .identifier, .maybe (.sequence [.symbol .less, .identifier]),
        .symbol .leftBrace, .many (.category .function), .symbol .rightBrace],
      .sequence [.keyword .fun, .category .function],
      .category .varDeclaration,
      .category .statement]
  | .varDeclaration => .sequence [.keyword .var, .identifier,
      .maybe (.sequence [.symbol .equal, .category .expression]), .symbol .semicolon]
  | .function => .sequence [.identifier, .symbol .leftParen, .maybe (.category .parameters),
      .symbol .rightParen, .category .block]
  | .parameters => .list 255 .identifier
  | .block => .sequence [.symbol .leftBrace, .many (.category .declaration), .symbol .rightBrace]
  | .statement => .oneOf [.category .expressionStatement, .category .forStatement,
      .category .ifStatement, .category .printStatement, .category .returnStatement,
      .category .whileStatement, .category .block]
  | .expressionStatement => .sequence [.category .expression, .symbol .semicolon]
  | .forStatement => .sequence [.keyword .for, .symbol .leftParen,
      .oneOf [.category .varDeclaration, .category .expressionStatement, .symbol .semicolon],
      .maybe (.category .expression), .symbol .semicolon, .maybe (.category .expression),
      .symbol .rightParen, .category .statement]
  | .ifStatement => .sequence [.keyword .if, .symbol .leftParen, .category .expression,
      .symbol .rightParen, .category .statement,
      .maybe (.sequence [.keyword .else, .category .statement])]
  | .printStatement => .sequence [.keyword .print, .category .expression, .symbol .semicolon]
  | .returnStatement => .sequence [.keyword .return, .maybe (.category .expression),
      .symbol .semicolon]
  | .whileStatement => .sequence [.keyword .while, .symbol .leftParen, .category .expression,
      .symbol .rightParen, .category .statement]
  | .expression => .category .assignment
  | .assignment => .oneOf [
      .sequence [.maybe (.sequence [.category .call, .symbol .dot]), .identifier, .symbol .equal,
        .category .assignment],
      .category .logicOr]
  | .logicOr => .chain (.category .logicAnd) [.keyword .or]
  | .logicAnd => .chain (.category .equality) [.keyword .and]
  | .equality => .chain (.category .comparison) [.symbol .bangEqual, .symbol .equalEqual]
  | .comparison => .chain (.category .term)
      [.symbol .greater, .symbol .greaterEqual, .symbol .less, .symbol .lessEqual]
  | .term => .chain (.category .factor) [.symbol .minus, .symbol .plus]
  | .factor => .chain (.category .unary) [.symbol .slash, .symbol .star]
  | .unary => .oneOf [
      .sequence [.oneOf [.symbol .bang, .symbol .minus], .category .unary],
      .category .call]
  | .call => .sequence [.category .primary, .many (.oneOf [
      .sequence [.symbol .leftParen, .maybe (.category .arguments), .symbol .rightParen],
      .sequence [.symbol .dot, .identifier]])]
  | .arguments => .list 255 (.category .expression)
  | .primary => .oneOf [.keyword .true, .keyword .false, .keyword .nil, .keyword .this,
      .token .number, .token .string, .identifier,
      .sequence [.symbol .leftParen, .category .expression, .symbol .rightParen],
      .sequence [.keyword .super, .symbol .dot, .identifier]]

inductive Derives : Phrase → List Token → Prop where
  | token {terminal : Terminal} {t : Token} : terminal.Matches t.kind →
      Derives (.token terminal) [t]
  | category {category : Category} {w : List Token} :
    Derives category.rule w → Derives (.category category) w
  | empty : Derives .empty []
  | seq {first second : Phrase} {w v : List Token} :
    Derives first w → Derives second v → Derives (.seq first second) (w ++ v)
  | left {first second : Phrase} {w : List Token} :
    Derives first w → Derives (.either first second) w
  | right {first second : Phrase} {w : List Token} :
    Derives second w → Derives (.either first second) w
  | done {inner : Phrase} : Derives (.many inner) []
  | more {inner : Phrase} {w v : List Token} :
    Derives inner w → Derives (.many inner) v → Derives (.many inner) (w ++ v)
  | last {most : Nat} {entry : Phrase} {w : List Token} :
    Derives entry w → Derives (.list (most + 1) entry) w
  | entry {most : Nat} {entry : Phrase} {comma : Token} {w v : List Token} :
    Derives entry w → comma.kind = .symbol .comma → Derives (.list most entry) v →
      Derives (.list (most + 1) entry) (w ++ comma :: v)

namespace Derives

variable {p q : Phrase} {w v : List Token} {ps : List Phrase}

theorem oneOf (member : p ∈ ps) (derives : Derives p w) : Derives (.oneOf ps) w := by
  induction ps with
  | nil => cases member
  | cons first rest inductionHypothesis =>
    rcases List.mem_cons.mp member with rfl | member
    · exact .left derives
    · exact .right (inductionHypothesis member)

/-- One of the phrases of a category. -/
theorem choice {category : Category} (rule : category.rule = .oneOf ps) (member : p ∈ ps)
    (derives : Derives p w) : Derives (.category category) w :=
  .category (rule ▸ derives.oneOf member)

theorem next {t : Token} {terminal : Terminal} (found : terminal.Matches t.kind)
    (rest : Derives (.sequence ps) v) : Derives (.sequence (.token terminal :: ps)) (t :: v) :=
  .seq (.token found) rest

theorem last_of_sequence (derives : Derives p w) : Derives (.sequence [p]) w := by
  have ended : Derives (.sequence [p]) (w ++ []) := .seq derives .empty
  rwa [List.append_nil] at ended

theorem absent : Derives (.maybe p) [] := .right .empty

theorem present (derives : Derives p w) : Derives (.maybe p) w := .left derives

/-- One more at the end of many. -/
theorem snoc (derives : Derives (.many p) w) (added : Derives p v) :
    Derives (.many p) (w ++ v) := by
  generalize shape : Phrase.many p = phrase at derives
  induction derives with
  | done =>
    cases shape
    rw [List.nil_append, ← List.append_nil v]
    exact .more added .done
  | more first _ _ inductionHypothesis =>
    cases shape
    rw [List.append_assoc]
    exact .more first (inductionHypothesis rfl)
  | token | category | empty | seq | left | right | last | entry => cases shape

end Derives

/-! ## Families of words -/

/-- One word of a set or more, with commas between them and no more than a number of them. -/
inductive Listed (entry : List Token → Prop) : Nat → List Token → Prop where
  | last {most : Nat} {w : List Token} : entry w → Listed entry (most + 1) w
  | cons {most : Nat} {comma : Token} {w v : List Token} :
    entry w → comma.kind = .symbol .comma → Listed entry most v →
      Listed entry (most + 1) (w ++ comma :: v)

def Phrase.Words (family : Category → List Token → Prop) : Phrase → List Token → Prop
  | .token terminal, w => ∃ t, terminal.Matches t.kind ∧ w = [t]
  | .category name, w => family name w
  | .empty, w => w = []
  | .seq first second, w => ∃ u v, first.Words family u ∧ second.Words family v ∧ w = u ++ v
  | .nothing, _ => False
  | .either first second, w => first.Words family w ∨ second.Words family w
  | .many inner, w => ∃ parts : List (List Token), (∀ part ∈ parts, inner.Words family part) ∧
    w = parts.flatten
  | .list most entry, w => Listed (entry.Words family) most w

/-- Every closed family holds the derivable words. -/
theorem Derives.words {family : Category → List Token → Prop}
    (closed : ∀ category w, category.rule.Words family w → family category w) {p : Phrase}
    {w : List Token} (derives : Derives p w) : p.Words family w := by
  induction derives with
  | token found => exact ⟨_, found, rfl⟩
  | category _ inductionHypothesis => exact closed _ _ inductionHypothesis
  | empty => rfl
  | seq _ _ first second => exact ⟨_, _, first, second, rfl⟩
  | left _ inductionHypothesis => exact Or.inl inductionHypothesis
  | right _ inductionHypothesis => exact Or.inr inductionHypothesis
  | done => exact ⟨[], by simp, rfl⟩
  | more _ _ first rest =>
    obtain ⟨parts, members, rfl⟩ := rest
    exact ⟨_ :: parts, List.forall_mem_cons.mpr ⟨first, members⟩, rfl⟩
  | last _ inductionHypothesis => exact Listed.last inductionHypothesis
  | entry _ commaKind _ first rest => exact Listed.cons first commaKind rest

namespace Phrase

variable {family : Category → List Token → Prop} {w : List Token} {p : Phrase} {ps : List Phrase}

@[simp] theorem words_category {category : Category} :
    (Phrase.category category).Words family w ↔ family category w := Iff.rfl

@[simp] theorem words_sequence_nil : (sequence []).Words family w ↔ w = [] := Iff.rfl

@[simp] theorem words_sequence_cons : (sequence (p :: ps)).Words family w ↔
    ∃ u v, p.Words family u ∧ (sequence ps).Words family v ∧ w = u ++ v := Iff.rfl

@[simp] theorem words_token {terminal : Terminal} : (Phrase.token terminal).Words family w ↔
    ∃ t, terminal.Matches t.kind ∧ w = [t] := Iff.rfl

@[simp] theorem words_oneOf_nil : (oneOf []).Words family w ↔ False := Iff.rfl

@[simp] theorem words_oneOf_cons : (oneOf (p :: ps)).Words family w ↔
    p.Words family w ∨ (oneOf ps).Words family w := Iff.rfl

theorem words_oneOf : (oneOf ps).Words family w ↔ ∃ p ∈ ps, p.Words family w := by
  induction ps with
  | nil => simp
  | cons first rest inductionHypothesis => simp [inductionHypothesis]

@[simp] theorem words_maybe : (maybe p).Words family w ↔ p.Words family w ∨ w = [] := Iff.rfl

@[simp] theorem words_many : (Phrase.many p).Words family w ↔
    ∃ parts : List (List Token), (∀ part ∈ parts, p.Words family part) ∧
      w = parts.flatten := Iff.rfl

@[simp] theorem words_symbol {mark : Symbol} : (symbol mark).Words family w ↔
    ∃ t, t.kind = .symbol mark ∧ w = [t] := Iff.rfl

@[simp] theorem words_keyword {word : Keyword} : (keyword word).Words family w ↔
    ∃ t, t.kind = .keyword word ∧ w = [t] := Iff.rfl

@[simp] theorem words_identifier : identifier.Words family w ↔
    ∃ t, (∃ name, t.kind = .identifier name) ∧ w = [t] := Iff.rfl

end Phrase

end Lox.Grammar
