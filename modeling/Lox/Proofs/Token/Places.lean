import Lox.Proofs.Token.Lexing

set_option autoImplicit false

/-!
# Where items stand

An item of a source is about a piece of it, and says where this piece stands: a token by its span, a
fault by its line. Bytes, lines and columns are found by counting in the text in front of the piece.
From one item to the next there is nothing but trivia, so the pieces follow each other in the order
of the items.
-/

namespace Lox

open Segment (Begins Blocked)

/-! ## Counting in the text in front -/

def lineBehind (text : List Char) : Nat :=
  text.count '\n' + 1

def columnBehind (text : List Char) : Nat :=
  (text.rtakeWhile (· != '\n')).length

def Span.ofPiece (before piece : List Char) : Span where
  start := (String.ofList before).utf8ByteSize
  stop := (String.ofList (before ++ piece)).utf8ByteSize
  line := lineBehind before
  column := columnBehind before

namespace Position

theorem offset_after (text : List Char) :
    (({} : Position).after text).offset = (String.ofList text).utf8ByteSize := by
  rw [String.utf8ByteSize_ofList]
  exact (after_eq text).1.trans (Nat.zero_add _)

theorem line_after (text : List Char) : (({} : Position).after text).line = lineBehind text :=
  (after_eq text).2.trans (Nat.add_comm ..)

/-- The column starts again behind each line feed. The induction is on the text from its end, where
the counter was changed last. -/
theorem column_after (text : List Char) :
    (({} : Position).after text).column = columnBehind text := by
  induction text using List.reverseRecOn with
  | nil => rfl
  | append_singleton front c inductionHypothesis =>
    rw [after_append, after_cons, after_nil, advance, columnBehind, List.rtakeWhile_concat]
    by_cases newline : c = '\n'
    · simp [newline]
    · simp [newline, inductionHypothesis, columnBehind]

theorem span_after (before piece : List Char) :
    (({} : Position).after before).span piece = .ofPiece before piece := by
  rw [span, ← after_append, offset_after, offset_after, line_after, column_after]
  rfl

end Position

/-! ## What is not closed -/

namespace Segment

theorem Blocked.noQuote {rest : List Char} (blocked : Blocked ('"' :: rest)) : '"' ∉ rest := by
  intro member
  have quoted : (rest.findIdx? (· == '"')).isSome = true := by
    rw [List.findIdx?_isSome, List.any_eq_true]
    exact ⟨'"', member, rfl⟩
  obtain ⟨index, found⟩ := Option.isSome_iff_exists.mp quoted
  obtain ⟨body, more, rfl, -, noQuote⟩ := findIdx?_quote_eq_some_iff.mp found
  refine blocked .string _ ⟨.string noQuote, ⟨more, ?_⟩, nofun⟩
  simp

theorem Blocked.noClose {inside : List Char} (blocked : Blocked ('/' :: '*' :: inside)) :
    ¬['*', '/'] <:+: inside := by
  rw [← commentLength?_eq_none_iff, Option.eq_none_iff_forall_ne_some]
  intro length found
  obtain ⟨body, more, rfl, -, firstClose⟩ := commentLength?_eq_some_iff.mp found
  refine blocked .comment _ ⟨.blockComment firstClose, ⟨more, ?_⟩, nofun⟩
  simp

/-- Blanks and comments, one behind the other. -/
def IsTrivia (text : List Char) : Prop :=
  ∃ pieces : List (List Char), pieces.flatten = text ∧
    ∀ piece ∈ pieces, Class.blank.Spells piece ∨ Class.comment.Spells piece

theorem IsTrivia.nil : IsTrivia [] :=
  ⟨[], rfl, nofun⟩

theorem IsTrivia.append {text rest piece : List Char} {kind : Kind}
    (begins : Begins text kind piece)
    (silent : kind = .blank ∨ kind = .comment) (trivia : IsTrivia rest) :
    IsTrivia (piece ++ rest) := by
  obtain ⟨pieces, rfl, spelled⟩ := trivia
  refine ⟨piece :: pieces, rfl, List.forall_mem_cons.mpr ⟨?_, spelled⟩⟩
  rcases silent with rfl | rfl
  · cases begins with
    | blank longest => exact .inl longest.spells
  · cases begins with
    | comment longest => exact .inr longest.spells

end Segment

open Segment (IsTrivia)

/-! ## Places -/

structure Place where
  before : List Char
  piece : List Char
  after : List Char

namespace Place

def text (place : Place) : List Char :=
  place.before ++ place.piece ++ place.after

/-- Between the two pieces there is nothing but trivia. -/
def Precedes (first second : Place) : Prop :=
  ∃ gap, IsTrivia gap ∧ second.before = first.before ++ first.piece ++ gap

/-- What an item says about the piece at a place. A token has the piece as its lexeme, and the span
of the piece; the end mark stands behind all of the text. A fault has the line on which the piece
starts, which is a character, or the rest of the text from a delimiter that is not closed. -/
inductive Reports : Place → Except ScanError Token → Prop
  | token {before piece after : List Char} {kind : Token.Kind} (inside : kind ≠ .endOfInput) :
      Reports ⟨before, piece, after⟩ (.ok ⟨kind, String.ofList piece, .ofPiece before piece⟩)
  | finish {before : List Char} :
      Reports ⟨before, [], []⟩ (.ok ⟨.endOfInput, "", .ofPiece before []⟩)
  | unexpected {before after : List Char} {c : Char} :
      Reports ⟨before, [c], after⟩ (.error ⟨.unexpectedCharacter c, lineBehind before⟩)
  | unclosedString {before body : List Char} (noQuote : '"' ∉ body) :
      Reports ⟨before, '"' :: body, []⟩ (.error ⟨.unterminatedString, lineBehind before⟩)
  | unclosedComment {before body : List Char} (noClose : ¬['*', '/'] <:+: body) :
      Reports ⟨before, '/' :: '*' :: body, []⟩ (.error ⟨.unterminatedComment, lineBehind before⟩)

/-- Places that stand in a text, in this order and with nothing but trivia between them, from a
point of the text on. -/
structure Lined (text front : List Char) (places : List Place) : Prop where
  all : ∀ place ∈ places, place.text = text
  first : ∀ place ∈ places.head?, ∃ gap, IsTrivia gap ∧ place.before = front ++ gap
  next : places.IsChain Precedes

theorem Lined.cons {front piece rest : List Char} {places : List Place}
    (lined : Lined (front ++ (piece ++ rest)) (front ++ piece) places) :
    Lined (front ++ (piece ++ rest)) front (⟨front, piece, rest⟩ :: places) where
  all := List.forall_mem_cons.mpr ⟨List.append_assoc .., lined.all⟩
  first := by
    rintro _ ⟨⟩
    exact ⟨[], .nil, (List.append_nil _).symm⟩
  next := List.isChain_cons.mpr ⟨lined.first, lined.next⟩

/-- The place behind the whole text. -/
theorem Lined.finish (front : List Char) : Lined front front [⟨front, [], []⟩] := by
  have lined : Lined (front ++ ([] ++ [])) (front ++ []) [] := ⟨nofun, nofun, .nil⟩
  simpa using lined.cons

/-- A piece that takes the rest of the text, and the place behind it. -/
theorem Lined.rest (front tail : List Char) :
    Lined (front ++ tail) front [⟨front, tail, []⟩, ⟨front ++ tail, [], []⟩] := by
  have lined : Lined (front ++ (tail ++ [])) (front ++ tail) [⟨front ++ tail, [], []⟩] := by
    rw [List.append_nil]
    exact .finish _
  simpa using lined.cons

end Place

namespace Token

theorem endAt_after (text : List Char) :
    endAt (({} : Position).after text) = ⟨.endOfInput, "", .ofPiece text []⟩ := by
  rw [← Position.span_after]
  rfl

theorem Means.ne_endOfInput {kind : Segment.Kind} {piece : List Char} {meaning : Kind}
    (means : Means kind piece meaning) : meaning ≠ .endOfInput := by
  cases means <;> nofun

/-- The items of a text that stands behind another one have their places in it. -/
theorem Lexes.exists_places {p : Position} {text : List Char}
    {items : List (Except ScanError Token)}
    (lexes : Lexes p text items) {front : List Char} (here : p = ({} : Position).after front) :
    ∃ places, Place.Lined (front ++ text) front places ∧
      List.Forall₂ Place.Reports places items := by
  induction lexes generalizing front with
  | finish =>
    subst here
    rw [endAt_after, List.append_nil]
    exact ⟨_, .finish front, .cons .finish .nil⟩
  | @trivia p kind piece rest items begins silent _ inductionHypothesis =>
    subst here
    obtain ⟨places, lined, reports⟩ := inductionHypothesis (Position.after_append ..).symm
    rw [List.append_assoc] at lined
    refine ⟨places, ⟨lined.all, fun place head => ?_, lined.next⟩, reports⟩
    obtain ⟨gap, trivia, before⟩ := lined.first place head
    exact ⟨piece ++ gap, .append begins silent trivia, before.trans (List.append_assoc ..)⟩
  | @token p kind piece rest items meaning begins means _ inductionHypothesis =>
    subst here
    obtain ⟨places, lined, reports⟩ := inductionHypothesis (Position.after_append ..).symm
    rw [List.append_assoc] at lined
    rw [Position.span_after]
    exact ⟨_, lined.cons, .cons (.token means.ne_endOfInput) reports⟩
  | @unexpected p c rest items begins _ inductionHypothesis =>
    subst here
    obtain ⟨places, lined, reports⟩ := inductionHypothesis (Position.after_append _ front [c]).symm
    rw [List.append_assoc] at lined
    rw [Position.line_after]
    exact ⟨_, lined.cons, .cons .unexpected reports⟩
  | @unclosedString p tail begins =>
    subst here
    rw [← Position.after_append, endAt_after, Position.line_after]
    refine ⟨_, .rest front tail, .cons ?_ (.cons .finish .nil)⟩
    cases begins with
    | unclosedString blocked => exact .unclosedString blocked.noQuote
  | @unclosedComment p tail begins =>
    subst here
    rw [← Position.after_append, endAt_after, Position.line_after]
    refine ⟨_, .rest front tail, .cons ?_ (.cons .finish .nil)⟩
    cases begins with
    | unclosedComment blocked => exact .unclosedComment blocked.noClose

/-- No token stands before the text does. -/
theorem Lexes.le_of_mem {p : Position} {text : List Char} {items : List (Except ScanError Token)}
    (lexes : Lexes p text items) {t : Token} (member : .ok t ∈ items) :
    p.offset ≤ t.span.start ∧ p.line ≤ t.span.line := by
  have later (text : List Char) : p.offset ≤ (p.after text).offset ∧
      p.line ≤ (p.after text).line := by
    obtain ⟨offset, line⟩ := Position.after_eq (p := p) text
    omega
  rcases lexes.arises member with ⟨kind, before, piece, after, -, -, -, -, span⟩ | rfl
  · rw [span]
    exact later before
  · exact later text

theorem Lexes.ascends {p : Position} {text : List Char} {items : List (Except ScanError Token)}
    (lexes : Lexes p text items) : (items.filterMap Except.toOption).Pairwise fun first second =>
      first.span.start < first.span.stop ∧ first.span.stop ≤ second.span.start ∧
        first.span.line ≤ second.span.line := by
  induction lexes with
  | finish | unclosedString | unclosedComment => exact List.pairwise_singleton _ _
  | trivia _ _ _ inductionHypothesis | unexpected _ _ inductionHypothesis =>
    exact inductionHypothesis
  | @token p kind piece rest items meaning begins _ behind inductionHypothesis =>
    refine List.pairwise_cons.mpr ⟨fun second member => ?_, inductionHypothesis⟩
    obtain ⟨item, there, found⟩ := List.mem_filterMap.mp member
    cases item with
    | error e => cases found
    | ok t =>
      cases found
      obtain ⟨offset, line⟩ := Position.after_eq (p := p) piece
      obtain ⟨start, lines⟩ := behind.le_of_mem there
      have long : 0 < String.utf8Len piece := by
        cases piece with
        | nil => exact absurd rfl begins.ne_nil
        | cons c rest =>
          rw [String.utf8Len_cons]
          exact Nat.add_pos_right _ c.utf8Size_pos
      refine ⟨?_, start, by change p.line ≤ _; omega⟩
      change p.offset < (p.after piece).offset
      omega

/-- A token that comes later in a text starts later, on no earlier line. -/
theorem ascends_of_tokenize {source : String} {tokens : List Token}
    (scanned : tokenize source = .ok tokens) :
    tokens.Pairwise fun first second =>
      first.span.start < second.span.start ∧ first.span.line ≤ second.span.line := by
  have items : scan source = tokens.map .ok := itemsFrom_of_tokensFrom scanned
  have ascends := (scan_eq_iff.mp items).ascends
  have all : (tokens.map .ok).filterMap (Except.toOption : Except ScanError Token → Option Token) =
      tokens := by
    simp [List.filterMap_map, Function.comp_def, Except.toOption]
  rw [all] at ascends
  exact ascends.imp fun places => ⟨places.1.trans_le places.2.1, places.2.2⟩

/-- Positions are exact. There are places for the items of a source, in the order of the items and
with nothing but trivia between them. The lexeme of a token is the piece at its place, and its span
is found by counting in the text in front: the bytes, the line feeds, and the characters behind the
last of these. The end mark stands behind the whole source. A fault is reported on the line of the
character that starts nothing, or of the delimiter that is not closed. No token ends behind the
start of one that comes later. -/
theorem scan_positions_exact (source : String) :
    (∃ places, Place.Lined source.toList [] places ∧
      List.Forall₂ Place.Reports places (scan source)) ∧
    ((scan source).filterMap Except.toOption).Pairwise
      fun first second => first.span.stop ≤ second.span.start := by
  have lexes : Lexes {} source.toList (scan source) := scan_eq_iff.mp rfl
  have start : ({} : Position) = ({} : Position).after [] := rfl
  exact ⟨lexes.exists_places start, lexes.ascends.imp fun places => places.2.1⟩

example : (scan "\"é\n\" @\n/*é*/x\"").map (Except.map (fun t => (t.lexeme, t.span))) =
    [.ok ("\"é\n\"", ⟨0, 5, 1, 0⟩), .error ⟨.unexpectedCharacter '@', 2⟩, .ok ("x", ⟨14, 15, 3, 5⟩),
      .error ⟨.unterminatedString, 3⟩, .ok ("", ⟨16, 16, 3, 7⟩)] := by
  decide +kernel

end Token

end Lox
