import Lox.Proofs.Token.LongestMatch
import Mathlib

set_option autoImplicit false

/-!
# Items of a source

The items of a source as rules: at each place stands trivia, a token or a fault, each of them the
longest piece of its class, and the next place is the one behind it. The items that scanning gives
are those of the rules, and the rules give no others. Each token is the text of the source between
the two ends of its span.
-/

namespace Lox

open Segment (Begins)

theorem Keyword.ofText?_eq_some_iff {text : String} {word : Keyword} :
    ofText? text = some word ↔ word.text = text := by
  constructor
  · intro found
    have spelled : (word.text == text) = Bool.true :=
      List.find?_some (p := fun keyword : Keyword => keyword.text == text) found
    exact beq_iff_eq.mp spelled
  · rintro rfl
    cases word <;> rfl

theorem Keyword.ofText?_eq_none_iff {text : String} :
    ofText? text = none ↔ ∀ word : Keyword, word.text ≠ text := by
  rw [Option.eq_none_iff_forall_ne_some]
  exact forall_congr' fun word => not_congr ofText?_eq_some_iff

/-- Keywords are words of small letters. -/
theorem Keyword.spells_text (word : Keyword) : Segment.Class.word.Spells word.text.toList := by
  have small : ∀ c ∈ word.text.toList, c.isLower = Bool.true := by
    apply List.all_eq_true.mp
    cases word <;> rfl
  have nonempty : word.text.toList ≠ [] := by
    cases word <;> decide
  obtain ⟨c, more, shape⟩ := List.exists_cons_of_ne_nil nonempty
  rw [shape, List.forall_mem_cons] at small
  rw [shape]
  refine .word (Segment.startsWord_of_isLower small.1) fun d member => ?_
  exact Bool.or_eq_true_iff.mpr (.inl (Segment.startsWord_of_isLower (small.2 d member)))

namespace Token

inductive Means : Segment.Kind → List Char → Kind → Prop
  | keyword {piece : List Char} {word : Keyword} (spelled : word.text = String.ofList piece) :
      Means .word piece (.keyword word)
  | identifier {piece : List Char} (noKeyword : ∀ word : Keyword, word.text ≠ String.ofList piece) :
      Means .word piece (.identifier (String.ofList piece))
  | number {piece : List Char} : Means .number piece (.number (Number.ofLiteral piece))
  | string {body : List Char} : Means .string ('"' :: (body ++ ['"']))
      (.string (String.ofList body))
  | symbol {mark : Symbol} {piece : List Char} : Means (.symbol mark) piece (.symbol mark)

/-- The items of a text that starts at a position. -/
inductive Lexes : Position → List Char → List (Except ScanError Token) → Prop
  | finish {p : Position} : Lexes p [] [.ok (endAt p)]
  | trivia {p : Position} {kind : Segment.Kind} {piece rest : List Char}
      {items : List (Except ScanError Token)} (begins : Begins (piece ++ rest) kind piece)
      (silent : kind = .blank ∨ kind = .comment) (behind : Lexes (p.after piece) rest items) :
      Lexes p (piece ++ rest) items
  | token {p : Position} {kind : Segment.Kind} {piece rest : List Char}
      {items : List (Except ScanError Token)} {meaning : Kind}
      (begins : Begins (piece ++ rest) kind piece) (means : Means kind piece meaning)
      (behind : Lexes (p.after piece) rest items) :
      Lexes p (piece ++ rest) (.ok ⟨meaning, String.ofList piece, p.span piece⟩ :: items)
  | unexpected {p : Position} {c : Char} {rest : List Char} {items : List (Except ScanError Token)}
      (begins : Begins ([c] ++ rest) (.unexpected c) [c])
      (behind : Lexes (p.advance c) rest items) :
      Lexes p ([c] ++ rest) (.error ⟨.unexpectedCharacter c, p.line⟩ :: items)
  | unclosedString {p : Position} {tail : List Char} (begins : Begins tail .unclosedString tail) :
      Lexes p tail [.error ⟨.unterminatedString, p.line⟩, .ok (endAt (p.after tail))]
  | unclosedComment {p : Position} {tail : List Char} (begins : Begins tail .unclosedComment tail) :
      Lexes p tail [.error ⟨.unterminatedComment, p.line⟩, .ok (endAt (p.after tail))]

/-! ## Scanning follows the rules -/

theorem Means.tokenKind?_eq {kind : Segment.Kind} {piece : List Char} {meaning : Kind}
    (means : Means kind piece meaning) : Segment.tokenKind? ⟨kind, piece⟩ = some meaning := by
  unfold Segment.tokenKind?
  cases means with
  | keyword spelled =>
    dsimp only
    rw [Keyword.ofText?_eq_some_iff.mpr spelled]
  | identifier noKeyword =>
    dsimp only
    rw [Keyword.ofText?_eq_none_iff.mpr noKeyword]
  | string => simp
  | number => rfl
  | symbol => rfl

/-- Every segment that is no fault means a token or is trivia. -/
theorem means_of_begins {text piece : List Char} {kind : Segment.Kind}
    (begins : Begins text kind piece) (noFault : Segment.fault? ⟨kind, piece⟩ = none) :
    (kind = .blank ∨ kind = .comment) ∨ ∃ meaning, Means kind piece meaning := by
  cases begins with
  | blank => exact .inl (.inl rfl)
  | comment => exact .inl (.inr rfl)
  | word =>
    refine .inr ?_
    cases found : Keyword.ofText? (String.ofList piece) with
    | some word => exact ⟨_, .keyword (Keyword.ofText?_eq_some_iff.mp found)⟩
    | none => exact ⟨_, .identifier (Keyword.ofText?_eq_none_iff.mp found)⟩
  | number => exact .inr ⟨_, .number⟩
  | string longest =>
    cases longest.spells with
    | string => exact .inr ⟨_, .string⟩
  | symbol => exact .inr ⟨_, .symbol⟩
  | unexpected => cases noFault
  | unclosedString => cases noFault
  | unclosedComment => cases noFault

theorem Means.exists_class?_eq {kind : Segment.Kind} {piece : List Char} {meaning : Kind}
    (means : Means kind piece meaning) : ∃ cls, kind.class? = some cls := by
  cases means <;> exact ⟨_, rfl⟩

theorem Means.fault?_eq {kind : Segment.Kind} {text piece : List Char} {meaning : Kind}
    (means : Means kind piece meaning) (begins : Begins text kind piece) :
    Segment.fault? ⟨kind, piece⟩ = none := by
  obtain ⟨cls, formed⟩ := means.exists_class?_eq
  exact begins.fault?_eq formed

theorem Lexes.itemsFrom_split {p : Position} {text : List Char}
    {items : List (Except ScanError Token)}
    (lexes : Lexes p text items) : itemsFrom p (Segment.split text) = items := by
  induction lexes with
  | finish =>
    rw [Segment.split]
    rfl
  | trivia begins silent _ inductionHypothesis =>
    rw [begins.split_eq, ← inductionHypothesis]
    rcases silent with rfl | rfl <;> rfl
  | token begins means _ inductionHypothesis =>
    rw [begins.split_eq, itemsFrom, Segment.item?, means.fault?_eq begins, means.tokenKind?_eq,
      inductionHypothesis]
  | unexpected begins _ inductionHypothesis =>
    rw [begins.split_eq, ← inductionHypothesis]
    rfl
  | unclosedString begins | unclosedComment begins =>
    rw [begins.split_eq_singleton]
    rfl

/-- Every text has items by the rules. -/
theorem exists_lexes (p : Position) (text : List Char) : ∃ items, Lexes p text items := by
  fun_induction Segment.split text generalizing p with
  | case1 => exact ⟨_, .finish⟩
  | case2 c rest kind length first inductionHypothesis =>
    have begins := Segment.begins_first c rest
    rw [first] at begins
    obtain ⟨items, behind⟩ := inductionHypothesis (p.after (c :: rest.take length))
    have whole : c :: rest = (c :: rest.take length) ++ rest.drop length := by
      rw [List.cons_append, List.take_append_drop]
    generalize c :: rest.take length = piece at begins behind whole
    cases fault : Segment.fault? ⟨kind, piece⟩ with
    | none =>
      rw [whole] at begins ⊢
      rcases means_of_begins begins fault with silent | ⟨meaning, means⟩
      · exact ⟨_, .trivia begins silent behind⟩
      · exact ⟨_, .token begins means behind⟩
    | some cause =>
      cases kind with
      | unexpected d =>
        obtain rfl := begins.eq_of_unexpected
        rw [whole] at begins ⊢
        exact ⟨_, .unexpected begins behind⟩
      | unclosedString =>
        obtain rfl := begins.eq_of_unclosed (.inl rfl)
        exact ⟨_, .unclosedString begins⟩
      | unclosedComment =>
        obtain rfl := begins.eq_of_unclosed (.inr rfl)
        exact ⟨_, .unclosedComment begins⟩
      | _ => cases fault.symm.trans (begins.fault?_eq rfl)

theorem scan_eq_iff {source : String} {items : List (Except ScanError Token)} :
    scan source = items ↔ Lexes {} source.toList items := by
  constructor
  · rintro rfl
    obtain ⟨items, lexes⟩ := exists_lexes {} source.toList
    have same : scan source = items := lexes.itemsFrom_split
    rwa [same]
  · exact Lexes.itemsFrom_split

/-! ## Texts without faults -/

theorem itemsFrom_of_tokensFrom {p : Position} {segments : List Segment} {tokens : List Token}
    (scanned : tokensFrom p segments = .ok tokens) : itemsFrom p segments = tokens.map .ok := by
  fun_induction tokensFrom p segments generalizing tokens with
  | case1 p =>
    cases scanned
    rfl
  | case2 p s rest e found => cases scanned
  | case3 p s rest t found inductionHypothesis =>
    cases behind : tokensFrom (p.after s.text) rest with
    | error e =>
      rw [behind] at scanned
      cases scanned
    | ok following =>
      rw [behind] at scanned
      cases scanned
      rw [itemsFrom, found]
      exact congrArg (.ok t :: ·) (inductionHypothesis behind)
  | case4 p s rest silent inductionHypothesis =>
    rw [itemsFrom, silent]
    exact inductionHypothesis scanned

/-- The fault that is reported is the first one among the items. -/
theorem itemsFrom_of_tokensFrom_eq_error {p : Position} {segments : List Segment} {e : ScanError}
    (faulty : tokensFrom p segments = .error e) :
    ∃ (tokens : List Token) (behind : _), itemsFrom p segments =
      tokens.map .ok ++ .error e :: behind := by
  fun_induction tokensFrom p segments with
  | case1 p => cases faulty
  | case2 p s rest e' found =>
    cases faulty
    rw [itemsFrom, found]
    exact ⟨[], _, rfl⟩
  | case3 p s rest t found inductionHypothesis =>
    rw [itemsFrom, found]
    cases behind : tokensFrom (p.after s.text) rest with
    | error e' =>
      rw [behind] at faulty
      cases faulty
      obtain ⟨tokens, others, items⟩ := inductionHypothesis behind
      exact ⟨t :: tokens, others, congrArg (.ok t :: ·) items⟩
    | ok following =>
      rw [behind] at faulty
      cases faulty
  | case4 p s rest silent inductionHypothesis =>
    rw [itemsFrom, silent]
    exact inductionHypothesis faulty

theorem mem_itemsFrom_of_tokensFrom {p : Position} {segments : List Segment} {e : ScanError}
    (faulty : tokensFrom p segments = .error e) : .error e ∈ itemsFrom p segments := by
  obtain ⟨tokens, behind, items⟩ := itemsFrom_of_tokensFrom_eq_error faulty
  rw [items]
  exact List.mem_append_right _ List.mem_cons_self

/-! ## Where tokens stand -/

def Arises (p : Position) (text : List Char) (t : Token) : Prop :=
  ∃ kind before piece after, text = before ++ (piece ++ after) ∧
    Begins (piece ++ after) kind piece ∧
    Means kind piece t.kind ∧ t.lexeme = String.ofList piece ∧ t.span = (p.after before).span piece

theorem Arises.behind {p : Position} {text : List Char} {t : Token} (front : List Char)
    (arises : Arises (p.after front) text t) : Arises p (front ++ text) t := by
  obtain ⟨kind, before, piece, after, rfl, begins, means, lexeme, span⟩ := arises
  rw [← Position.after_append] at span
  exact ⟨kind, front ++ before, piece, after, (List.append_assoc ..).symm, begins,
    means, lexeme, span⟩

/-- A token of a text is one that a piece of it means, or the end mark. -/
theorem Lexes.arises {p : Position} {text : List Char} {items : List (Except ScanError Token)}
    (lexes : Lexes p text items) {t : Token} (member : .ok t ∈ items) :
    Arises p text t ∨ t = endAt (p.after text) := by
  induction lexes with
  | finish => exact .inr (Except.ok.inj (List.mem_singleton.mp member))
  | @trivia p kind piece rest items begins silent behind inductionHypothesis =>
    rw [Position.after_append]
    exact (inductionHypothesis member).imp_left (.behind piece)
  | @token p kind piece rest items meaning begins means behind inductionHypothesis =>
    rw [Position.after_append]
    rcases List.mem_cons.mp member with same | member
    · cases Except.ok.inj same
      exact .inl ⟨kind, [], piece, rest, rfl, begins, means, rfl, rfl⟩
    · exact (inductionHypothesis member).imp_left (.behind piece)
  | @unexpected p c rest items begins behind inductionHypothesis =>
    rcases List.mem_cons.mp member with same | member
    · cases same
    · exact (inductionHypothesis member).imp_left (.behind [c])
  | unclosedString | unclosedComment =>
    rcases List.mem_cons.mp member with same | member
    · cases same
    · exact .inr (Except.ok.inj (List.mem_singleton.mp member))

/-- The line of a fault is that of a place in the text. -/
theorem Lexes.line_of_error {p : Position} {text : List Char}
    {items : List (Except ScanError Token)}
    (lexes : Lexes p text items) {e : ScanError} (member : .error e ∈ items) :
    ∃ before, before <+: text ∧ e.line = (p.after before).line := by
  have behind {p : Position} {rest : List Char} (piece : List Char)
      (found : ∃ before, before <+: rest ∧ e.line = ((p.after piece).after before).line) :
      ∃ before, before <+: piece ++ rest ∧ e.line = (p.after before).line := by
    obtain ⟨before, front, line⟩ := found
    rw [← Position.after_append] at line
    exact ⟨piece ++ before, (List.prefix_append_right_inj piece).mpr front, line⟩
  induction lexes with
  | finish => cases List.mem_singleton.mp member
  | trivia _ _ _ inductionHypothesis => exact behind _ (inductionHypothesis member)
  | token _ _ _ inductionHypothesis =>
    rcases List.mem_cons.mp member with same | member
    · cases same
    · exact behind _ (inductionHypothesis member)
  | unexpected _ _ inductionHypothesis =>
    rcases List.mem_cons.mp member with same | member
    · cases Except.error.inj same
      exact ⟨[], List.nil_prefix, rfl⟩
    · exact behind [_] (inductionHypothesis member)
  | unclosedString | unclosedComment =>
    rcases List.mem_cons.mp member with same | member
    · cases Except.error.inj same
      exact ⟨[], List.nil_prefix, rfl⟩
    · cases List.mem_singleton.mp member

theorem arises_of_tokenize {source : String} {tokens : List Token}
    (scanned : tokenize source = .ok tokens) {t : Token} (member : t ∈ tokens) :
    Arises {} source.toList t ∨ t = endAt (({} : Position).after source.toList) := by
  have items : scan source = tokens.map .ok := itemsFrom_of_tokensFrom scanned
  have lexes := scan_eq_iff.mp items
  exact lexes.arises (List.mem_map_of_mem member)

/-- Tokens with the same lexeme are of the same kind. -/
theorem Arises.kind_eq_of_lexeme {p p' : Position} {text text' : List Char} {t t' : Token}
    (arises : Arises p text t) (arises' : Arises p' text' t') (same : t.lexeme = t'.lexeme) :
    t.kind = t'.kind := by
  obtain ⟨kind, -, piece, after, -, begins, means, lexeme, -⟩ := arises
  obtain ⟨kind', -, piece', after', -, begins', means', lexeme', -⟩ := arises'
  obtain rfl : piece = piece' := String.ofList_injective (lexeme.symm.trans (same.trans lexeme'))
  obtain ⟨cls, formed⟩ := means.exists_class?_eq
  obtain ⟨cls', formed'⟩ := means'.exists_class?_eq
  obtain rfl := begins.kind_eq begins' formed formed'
  exact Option.some.inj (means.tokenKind?_eq.symm.trans means'.tokenKind?_eq)

theorem Arises.lexeme_ne {p : Position} {text : List Char} {t : Token} (arises : Arises p text t) :
    t.lexeme ≠ "" := by
  obtain ⟨kind, -, piece, after, -, begins, -, lexeme, -⟩ := arises
  rw [lexeme, ← String.ofList_nil]
  exact fun empty => begins.ne_nil (String.ofList_injective empty)

def form (t : Token) : Kind × String :=
  (t.kind, t.lexeme)

/-- The lexemes of tokens tell their kinds. -/
theorem forms_eq_of_lexemes {source source' : String} {tokens tokens' : List Token}
    (scanned : tokenize source = .ok tokens) (scanned' : tokenize source' = .ok tokens')
    (same : tokens.map lexeme = tokens'.map lexeme) : tokens.map form = tokens'.map form := by
  have kinds {t t' : Token} (member : t ∈ tokens) (member' : t' ∈ tokens')
      (lexemes : t.lexeme = t'.lexeme) : t.kind = t'.kind := by
    rcases arises_of_tokenize scanned member with arises | rfl <;>
      rcases arises_of_tokenize scanned' member' with arises' | rfl
    · exact arises.kind_eq_of_lexeme arises' lexemes
    · exact absurd lexemes arises.lexeme_ne
    · exact absurd lexemes.symm arises'.lexeme_ne
    · rfl
  refine List.ext_getElem? fun i => ?_
  have here := congrArg (·[i]?) same
  simp only [List.getElem?_map] at here ⊢
  cases found : tokens[i]? with
  | none =>
    rw [found] at here
    rw [Option.map_eq_none_iff.mp here.symm]
  | some t =>
    rw [found] at here
    obtain ⟨t', found', lexemes⟩ := Option.map_eq_some_iff.mp here.symm
    have kind := kinds (List.mem_of_getElem? found) (List.mem_of_getElem? found') lexemes.symm
    rw [found']
    exact congrArg some (Prod.ext kind lexemes.symm)

theorem exists_tokens_of_lexemes {source : String} {lexemes : List String}
    (read : (tokenize source).toOption.map (List.map lexeme) = some lexemes) :
    ∃ tokens, tokenize source = .ok tokens ∧ tokens.map lexeme = lexemes := by
  cases scanned : tokenize source with
  | error e =>
    rw [scanned] at read
    cases read
  | ok tokens =>
    rw [scanned] at read
    exact ⟨tokens, rfl, Option.some.inj read⟩

/-- A token whose lexeme is the text of the source between the two ends of its span. -/
structure StandsBetween (t : Token) (source before after : String) : Prop where
  text : source = before ++ t.lexeme ++ after
  start : t.span.start = before.utf8ByteSize
  stop : t.span.stop = (before ++ t.lexeme).utf8ByteSize
  line : t.span.line = before.toList.count '\n' + 1

theorem Arises.standsBetween {source : String} {t : Token} (arises : Arises {} source.toList t) :
    ∃ before after, t.StandsBetween source before after := by
  obtain ⟨kind, before, piece, after, whole, -, -, lexeme, span⟩ := arises
  obtain ⟨offset, line⟩ := Position.after_eq (p := {}) before
  have size (text : List Char) : (String.ofList text).utf8ByteSize = String.utf8Len text := by
    rw [← String.utf8Len_toList, String.toList_ofList]
  refine ⟨String.ofList before, String.ofList after, ?_, ?_, ?_, ?_⟩
  · apply String.toList_injective
    rw [whole, lexeme]
    simp
  · rw [span, size]
    exact offset.trans (Nat.zero_add _)
  · rw [span, lexeme, ← String.ofList_append, size, String.utf8Len_append]
    refine (Position.after_eq piece).1.trans ?_
    rw [offset, Nat.zero_add]
  · rw [span, String.toList_ofList]
    exact line.trans (Nat.add_comm ..)

section Keywords

variable {p : Position} {text : List Char} {t : Token}

/-- A token is a keyword if it is spelled as one. -/
theorem Arises.kind_eq_keyword_iff (arises : Arises p text t) (word : Keyword) :
    t.kind = .keyword word ↔ t.lexeme = word.text := by
  obtain ⟨kind, before, piece, after, -, begins, means, lexeme, -⟩ := arises
  rw [lexeme]
  constructor
  · intro keyword
    rw [keyword] at means
    cases means with
    | keyword spelled => exact spelled.symm
  · intro spelled
    have spells : Segment.Class.word.Spells piece := by
      rw [← String.toList_ofList (l := piece), spelled]
      exact Keyword.spells_text word
    have formed := begins.class?_eq_of_spells spells nofun
    generalize t.kind = meaning at means ⊢
    cases means with
    | keyword other =>
      have same := Keyword.ofText?_eq_some_iff.mpr (other.trans spelled)
      rw [Keyword.ofText?_eq_some_iff.mpr rfl] at same
      rw [Option.some.inj same]
    | identifier noKeyword => exact absurd spelled.symm (noKeyword word)
    | number => cases formed
    | string => cases formed
    | symbol => cases formed

/-- An identifier is named by its lexeme, and no keyword is. -/
theorem Arises.of_identifier (arises : Arises p text t) {name : String}
    (identifier : t.kind = .identifier name) :
    t.lexeme = name ∧ ∀ word : Keyword, word.text ≠ name := by
  obtain ⟨kind, before, piece, after, -, begins, means, lexeme, -⟩ := arises
  rw [identifier] at means
  cases means with
  | identifier noKeyword => exact ⟨lexeme, noKeyword⟩

end Keywords

/-- Lexing loses nothing and takes the longest match. The items of a source are those that the rules
give, each token is the text between the two ends of its span, and a token is a keyword if it is
spelled as one, so that no identifier is named by a keyword. A slash that opens a comment, closed or
not, counts as no symbol. -/
theorem scan_lossless_longest (source : String) :
    (∀ items, scan source = items ↔ Lexes {} source.toList items) ∧
    ∀ t, .ok t ∈ scan source →
      (t.kind ≠ .endOfInput → ∃ before after, t.StandsBetween source before after) ∧
      (∀ word, t.kind = .keyword word ↔ t.lexeme = word.text) ∧
      ∀ name, t.kind = .identifier name → t.lexeme = name ∧ ∀ word : Keyword, word.text ≠ name := by
  refine ⟨fun items => scan_eq_iff, fun t member => ?_⟩
  rcases (scan_eq_iff.mp rfl).arises member with arises | rfl
  · exact ⟨fun _ => arises.standsBetween, arises.kind_eq_keyword_iff, fun _ => arises.of_identifier⟩
  · refine ⟨fun other => absurd rfl other, fun word => ⟨nofun, fun spelled => ?_⟩, nofun⟩
    have empty : word.text = "" := spelled.symm
    exact absurd (empty ▸ Keyword.spells_text word) nofun

/-- A comment with a letter of two bytes, symbols that run together, a number before a point, a
string with slashes, a character that starts nothing, a keyword and a comment that is not closed. -/
theorem scan_lossless_longest_hard_case :
    (∃ items, Lexes {} "/*é*/x>==1.5.\"//\"@or/*/".toList items ∧
      items.map (fun item => item.toOption.map lexeme) =
        [some "x", some ">=", some "=", some "1.5", some ".", some "\"//\"", none, some "or", none,
          some ""]) ∧
    ∃ t, .ok t ∈ scan "/*é*/x>==1.5.\"//\"@or/*/" ∧ t.kind = .keyword .or ∧ t.span.start = 19 ∧
      ∃ before after, t.StandsBetween "/*é*/x>==1.5.\"//\"@or/*/" before after := by
  obtain ⟨rules, tokens⟩ := scan_lossless_longest "/*é*/x>==1.5.\"//\"@or/*/"
  refine ⟨⟨_, (rules _).mp rfl, by decide +kernel⟩, ?_⟩
  have eighth : ((scan "/*é*/x>==1.5.\"//\"@or/*/")[7]?.bind Except.toOption).map
      (fun t => (t.lexeme, t.span.start)) = some ("or", 19) := by decide +kernel
  obtain ⟨t, found, same⟩ := Option.map_eq_some_iff.mp eighth
  obtain ⟨lexeme, start⟩ := Prod.mk.inj same
  obtain ⟨item, there, ok⟩ := Option.bind_eq_some_iff.mp found
  cases item with
  | error e => cases ok
  | ok t' =>
    cases ok
    have member := List.mem_of_getElem? there
    obtain ⟨stands, keyword, -⟩ := tokens t member
    have kind : t.kind = .keyword .or := (keyword .or).mpr lexeme
    exact ⟨t, member, kind, start, stands (by rw [kind]; nofun)⟩

end Token

end Lox
