import Lox.Proofs.Token.Lexing

set_option autoImplicit false

/-!
# Tokens of respaced texts

The lexemes of a source can be written down again with other blanks and comments between them.
Behind a blank a token does not grow, whatever comes then, and what the token is depends on its own
text alone. So the new text has the same tokens. A gap has to start with a blank, since a slash in
front of a comment would open one of its own.
-/

namespace Lox

namespace Segment

/-! ## Tokens in front of a blank -/

/-- What may follow a token: nothing, or a blank and anything behind it. -/
def Stops (rest : List Char) : Prop :=
  ∀ c ∈ rest.head?, isBlank c = true

theorem stops_nil : Stops [] := by
  rintro _ ⟨⟩

variable {piece rest text : List Char} {c : Char}

theorem continuesWord_of_isBlank (blank : isBlank c = true) : continuesWord c = false := by
  simp only [isBlank, Bool.or_eq_true, beq_iff_eq] at blank
  rcases blank with ((rfl | rfl) | rfl) | rfl <;> decide

theorem isDigit_of_isBlank (blank : isBlank c = true) : c.isDigit = false := by
  simp only [isBlank, Bool.or_eq_true, beq_iff_eq] at blank
  rcases blank with ((rfl | rfl) | rfl) | rfl <;> rfl

/-- Words, numbers and symbols have no blanks in them. -/
theorem Class.Spells.noBlank {cls : Class} (spells : cls.Spells piece)
    (noTrivia : cls ≠ .blank ∧ cls ≠ .comment)
    (noString : cls ≠ .string) : ∀ d ∈ piece, isBlank d = false := by
  have ofDigit {d : Char} (digit : d.isDigit = true) : isBlank d = false :=
    Bool.eq_false_of_not_eq_true fun blank => by simp [isDigit_of_isBlank blank] at digit
  have ofWord {d : Char} (goesOn : continuesWord d = true) : isBlank d = false :=
    Bool.eq_false_of_not_eq_true fun blank => by simp [continuesWord_of_isBlank blank] at goesOn
  cases spells with
  | blank => exact absurd rfl noTrivia.1
  | lineComment | blockComment => exact absurd rfl noTrivia.2
  | string => exact absurd rfl noString
  | word starts continues =>
    refine List.forall_mem_cons.mpr ⟨ofWord ?_, fun d member => ofWord (continues d member)⟩
    exact Bool.or_eq_true_iff.mpr (.inl starts)
  | whole digit digits =>
    exact List.forall_mem_cons.mpr ⟨ofDigit digit, fun d member => ofDigit (digits d member)⟩
  | fraction digit digits place places =>
    refine List.forall_mem_cons.mpr ⟨ofDigit digit, fun d member => ?_⟩
    rcases List.mem_append.mp member with member | member
    · exact ofDigit (digits d member)
    rcases List.mem_cons.mp member with rfl | member
    · rfl
    rcases List.mem_cons.mp member with rfl | member
    · exact ofDigit place
    · exact ofDigit (places d member)
  | symbol mark =>
    have all : mark.text.toList.all (!isBlank ·) = true := by cases mark <;> rfl
    simpa using all

/-- A symbol does not open a comment with a blank behind it. -/
theorem not_opensComment (mark : Symbol) (stops : Stops rest) :
    ¬OpensComment (mark.text.toList ++ rest) := by
  have blank (d : Char) (front : [d] <+: rest) : isBlank d = true := by
    obtain ⟨more, rfl⟩ := front
    exact stops d rfl
  rcases symbol_text_cases mark with ⟨d, text, -⟩ | ⟨d, short, text, -, -⟩
  · rw [text]
    rintro (front | front)
    · exact absurd (blank _ (List.cons_prefix_cons.mp front).2) (by decide)
    · exact absurd (blank _ (List.cons_prefix_cons.mp front).2) (by decide)
  · rw [text]
    rintro (front | front)
    · exact absurd (List.cons_prefix_cons.mp (List.cons_prefix_cons.mp front).2).1 (by decide)
    · exact absurd (List.cons_prefix_cons.mp (List.cons_prefix_cons.mp front).2).1 (by decide)

/-- A prefix without blanks ends in front of the first blank. -/
theorem length_le_of_noBlank {other : List Char} (noBlank : ∀ d ∈ other, isBlank d = false)
    (front : other <+: piece ++ rest) (stops : Stops rest) : other.length ≤ piece.length := by
  by_contra longer
  have inside : piece <+: other :=
    List.prefix_of_prefix_length_le (List.prefix_append _ _) front (by omega)
  obtain ⟨more, rfl⟩ := inside
  cases more with
  | nil => simp at longer
  | cons d more =>
    obtain ⟨behind, rfl⟩ := (List.prefix_append_right_inj piece).mp front
    have blank : isBlank d = true := stops d rfl
    rw [noBlank d (by simp)] at blank
    cases blank

/-- A string ends at its second quote. -/
theorem length_le_of_string {other : List Char} (spells : Class.string.Spells piece)
    (others : Class.string.Spells other) (front : other <+: piece ++ rest) :
    other.length ≤ piece.length := by
  cases spells with
  | @string body noQuote =>
    cases others with
    | @string body' noQuote' =>
      obtain ⟨more, shape⟩ := (List.cons_prefix_cons.mp front).2
      have here : (body ++ '"' :: rest).findIdx? (· == '"') = some body.length :=
        findIdx?_quote_eq_some_iff.mpr ⟨body, rest, rfl, rfl, noQuote⟩
      have there : (body ++ '"' :: rest).findIdx? (· == '"') = some body'.length :=
        findIdx?_quote_eq_some_iff.mpr ⟨body', more, by simpa using shape.symm, rfl, noQuote'⟩
      have same := Option.some.inj (here.symm.trans there)
      simp [same]

/-- In front of a blank, and at the end, a text that is of a class is the longest one. -/
theorem Class.Spells.longest {cls : Class} (spells : cls.Spells piece)
    (noTrivia : cls ≠ .blank ∧ cls ≠ .comment) (stops : Stops rest) :
    cls.Longest piece (piece ++ rest) := by
  refine ⟨⟨spells, List.prefix_append _ _, ?_⟩, ?_⟩
  · rintro rfl
    cases spells with
    | symbol mark => exact not_opensComment mark stops
  · rintro other ⟨others, front, -⟩
    by_cases string : cls = .string
    · subst string
      exact length_le_of_string spells others front
    · exact length_le_of_noBlank (others.noBlank noTrivia string) front stops

theorem Begins.respaced {kind : Kind} {meaning : Token.Kind} (begins : Begins text kind piece)
    (means : Token.Means kind piece meaning) (stops : Stops rest) :
    Begins (piece ++ rest) kind piece := by
  cases means with
  | keyword | identifier => exact .word ((begins.longest rfl).spells.longest (by decide) stops)
  | number => exact .number ((begins.longest rfl).spells.longest (by decide) stops)
  | string => exact .string ((begins.longest rfl).spells.longest (by decide) stops)
  | symbol =>
    cases begins with
    | symbol longest => exact .symbol (longest.spells.longest (by decide) stops)

/-! ## Gaps -/

/-- Blanks and comments that are closed, one behind the other. A line feed closes a comment that
starts with two slashes. -/
inductive Spacing : List Char → Prop
  | nil : Spacing []
  | blank {c : Char} {more : List Char} (blank : isBlank c = true) (behind : Spacing more) :
      Spacing (c :: more)
  | lineComment {body more : List Char} (oneLine : ∀ d ∈ body, d ≠ '\n') (behind : Spacing more) :
      Spacing ('/' :: '/' :: (body ++ '\n' :: more))
  | blockComment {body more : List Char} (firstClose : ¬['*', '/'] <:+: body ++ ['*'])
      (behind : Spacing more) : Spacing ('/' :: '*' :: (body ++ '*' :: '/' :: more))

/-- What may stand between two tokens, whichever they are. -/
structure Gap (text : List Char) : Prop where
  spacing : Spacing text
  blankFirst : ∃ c more, text = c :: more ∧ isBlank c = true

theorem Gap.stops (gap : Gap text) (rest : List Char) : Stops (text ++ rest) := by
  obtain ⟨-, c, more, rfl, blank⟩ := gap
  rintro _ ⟨⟩
  exact blank

theorem begins_lineComment {body : List Char} (oneLine : ∀ d ∈ body, d ≠ '\n') (more : List Char) :
    Begins ('/' :: '/' :: body ++ '\n' :: more) .comment ('/' :: '/' :: body) := by
  have whole : (body ++ '\n' :: more).takeWhile (· != '\n') = body := by
    rw [List.takeWhile_append_of_pos fun d member => bne_iff_ne.mpr (oneLine d member)]
    simp
  have longest := @Class.longest_lineComment (body ++ '\n' :: more)
  rw [whole] at longest
  exact .comment longest

theorem begins_blockComment {body : List Char} (firstClose : ¬['*', '/'] <:+: body ++ ['*'])
    (more : List Char) :
    Begins ('/' :: '*' :: (body ++ ['*', '/']) ++ more) .comment
      ('/' :: '*' :: (body ++ ['*', '/'])) := by
  have closed : commentLength? (body ++ ['*', '/'] ++ more) = some (body.length + 2) :=
    commentLength?_eq_some_iff.mpr ⟨body, more, by simp, rfl, firstClose⟩
  have taken : (body ++ ['*', '/'] ++ more).take (body.length + 2) = body ++ ['*', '/'] :=
    List.take_left' (by simp)
  have longest := Class.longest_blockComment closed
  rw [taken] at longest
  exact .comment longest

end Segment

namespace Token

open Segment (Begins Spacing Gap Stops)

variable {p : Position} {text rest piece : List Char} {tokens : List Token}

/-- A text without faults, behind a segment that is none. -/
theorem Scans.behind {kind : Segment.Kind} (begins : Begins (piece ++ rest) kind piece)
    (noFault : Segment.fault? ⟨kind, piece⟩ = none) (scans : Scans (p.after piece) rest tokens) :
    Scans p (piece ++ rest) ((Segment.token? ⟨kind, piece⟩ p).toList ++ tokens) := by
  obtain ⟨clean, rfl⟩ := scans
  rw [Scans, begins.split_eq]
  exact ⟨List.forall_mem_cons.mpr ⟨noFault, clean⟩, rfl⟩

/-- Spacing in front of a text adds no tokens. -/
theorem scans_spacing {gap : List Char} (spacing : Spacing gap)
    (scans : Scans (p.after gap) rest tokens) :
    Scans p (gap ++ rest) tokens := by
  induction spacing generalizing p with
  | nil => exact scans
  | blank blank _ inductionHypothesis =>
    exact (scans_blank_iff blank).mpr (inductionHypothesis scans)
  | @lineComment body more oneLine _ inductionHypothesis =>
    have shape : '/' :: '/' :: (body ++ '\n' :: more) = ('/' :: '/' :: body) ++ '\n' :: more := rfl
    rw [shape, Position.after_append] at scans
    rw [shape, List.append_assoc]
    exact Scans.behind (Segment.begins_lineComment oneLine _) rfl
      ((scans_blank_iff rfl).mpr (inductionHypothesis scans))
  | @blockComment body more firstClose _ inductionHypothesis =>
    have shape : '/' :: '*' :: (body ++ '*' :: '/' :: more) =
        ('/' :: '*' :: (body ++ ['*', '/'])) ++ more := by simp
    rw [shape, Position.after_append] at scans
    rw [shape, List.append_assoc]
    exact Scans.behind (Segment.begins_blockComment firstClose _) rfl (inductionHypothesis scans)

/-! ## Texts with other gaps -/

/-- Lexemes, written one behind the other with a gap between each two of them. There may be one
behind the last lexeme too. -/
inductive Spaced : List String → String → Prop
  | nil : Spaced [] ""
  | last {lexeme : String} : Spaced [lexeme] lexeme
  | cons {lexeme gap text : String} {others : List String} (between : Gap gap.toList)
      (behind : Spaced others text) : Spaced (lexeme :: others) (lexeme ++ gap ++ text)

def IsLexeme (lexeme : String) : Prop :=
  ∃ text kind meaning, Begins text kind lexeme.toList ∧ Means kind lexeme.toList meaning

theorem Arises.isLexeme {t : Token} (arises : Arises p text t) : IsLexeme t.lexeme := by
  obtain ⟨kind, before, piece, after, -, begins, means, lexeme, -⟩ := arises
  rw [lexeme, IsLexeme, String.toList_ofList]
  exact ⟨_, kind, _, begins, means⟩

/-- A lexeme in front of a blank, or at the end, is a token with this lexeme. -/
theorem IsLexeme.scans {lexeme : String} (isLexeme : IsLexeme lexeme) (stops : Stops rest)
    (scans : Scans (p.after lexeme.toList) rest tokens) :
    ∃ t : Token, t.lexeme = lexeme ∧ Scans p (lexeme.toList ++ rest) (t :: tokens) := by
  obtain ⟨text, kind, meaning, begins, means⟩ := isLexeme
  have respaced := begins.respaced means stops
  have scansAll := Scans.behind respaced (means.fault?_eq begins) scans
  rw [Segment.token?, means.tokenKind?_eq] at scansAll
  exact ⟨_, String.ofList_toList, scansAll⟩

theorem Spaced.scans {lexemes : List String} {text : String} (spaced : Spaced lexemes text)
    (known : ∀ lexeme ∈ lexemes, IsLexeme lexeme) (p : Position) :
    ∃ tokens, Scans p text.toList tokens ∧ tokens.map lexeme = lexemes := by
  induction spaced generalizing p with
  | nil => exact ⟨[], by simp [Scans, Segment.split, formed], rfl⟩
  | @last lexeme =>
    have nothing : Scans (p.after lexeme.toList) [] [] := by simp [Scans, Segment.split, formed]
    obtain ⟨t, same, scans⟩ := (known lexeme List.mem_cons_self).scans Segment.stops_nil nothing
    rw [List.append_nil] at scans
    exact ⟨[t], scans, congrArg (fun lexeme => [lexeme]) same⟩
  | @cons lexeme gap text others between _ inductionHypothesis =>
    obtain ⟨first, following⟩ := List.forall_mem_cons.mp known
    obtain ⟨tokens, scans, rfl⟩ :=
      inductionHypothesis following ((p.after lexeme.toList).after gap.toList)
    obtain ⟨t, same, scansAll⟩ :=
      first.scans (between.stops _) (scans_spacing between.spacing scans)
    rw [String.toList_append, String.toList_append, List.append_assoc]
    exact ⟨t :: tokens, scansAll, congrArg (· :: _) same⟩

/-- The lexemes of a source that has no faults, written down again with any gaps between them, are
read as tokens of the same kinds with the same lexemes. -/
theorem tokenize_respaced {source text : String} {tokens : List Token}
    (scanned : tokenize source = .ok tokens) (spaced : Spaced (tokens.dropLast.map lexeme) text) :
    ∃ respaced, tokenize text = .ok respaced ∧ respaced.map form = tokens.map form := by
  obtain ⟨body, ⟨-, formed⟩, rfl⟩ := tokenize_eq_ok_iff.mp scanned
  rw [List.dropLast_concat] at spaced
  have known : ∀ word ∈ body.map lexeme, IsLexeme word := by
    intro _ written
    obtain ⟨t, member, rfl⟩ := List.mem_map.mp written
    rcases arises_of_tokenize scanned (List.mem_append_left _ member) with arises | rfl
    · exact arises.isLexeme
    · rw [formed] at member
      exact absurd rfl (kind_ne_of_mem_formed _ member)
  obtain ⟨others, scans, same⟩ := spaced.scans known {}
  have respaced := tokenize_eq_ok_iff.mpr ⟨others, scans, rfl⟩
  refine ⟨_, respaced, forms_eq_of_lexemes respaced scanned ?_⟩
  rw [List.map_append, List.map_append, same]
  rfl

/-- A number, a slash, an equality sign and a string with slashes in it, with comments of both sorts
in the gaps. -/
theorem tokenize_respaced_comment_marks :
    ∃ tokens respaced, tokenize "7.5/x==\"//\"" = .ok tokens ∧
      tokenize "7.5 /\t// 1\nx\n/***/== \"//\"\r" = .ok respaced ∧
      tokens.map lexeme = ["7.5", "/", "x", "==", "\"//\"", ""] ∧
        respaced.map form = tokens.map form := by
  have read : (tokenize "7.5/x==\"//\"").toOption.map (List.map lexeme) =
      some ["7.5", "/", "x", "==", "\"//\"", ""] := by decide +kernel
  obtain ⟨tokens, scanned, lexemes⟩ := exists_tokens_of_lexemes read
  have line : Spacing "\t// 1\n".toList :=
    .blank rfl (@Spacing.lineComment [' ', '1'] [] (by simp) .nil)
  have block : Spacing "\n/***/".toList :=
    .blank rfl (@Spacing.blockComment ['*'] [] (by decide) .nil)
  have spaced : Spaced ["7.5", "/", "x", "==", "\"//\""]
      ("7.5" ++ " " ++ ("/" ++ "\t// 1\n" ++ ("x" ++ "\n/***/" ++ ("==" ++ " " ++
        ("\"//\"" ++ "\r" ++ ""))))) := by
    refine .cons ⟨.blank rfl .nil, _, _, rfl, rfl⟩ (.cons ⟨line, _, _, rfl, rfl⟩ ?_)
    refine .cons ⟨block, _, _, rfl, rfl⟩ (.cons ⟨.blank rfl .nil, _, _, rfl, rfl⟩ ?_)
    exact .cons ⟨.blank rfl .nil, _, _, rfl, rfl⟩ .nil
  have same : tokens.dropLast.map lexeme = ["7.5", "/", "x", "==", "\"//\""] := by
    rw [List.map_dropLast, lexemes]
    rfl
  rw [← same] at spaced
  obtain ⟨respaced, readAgain, forms⟩ := tokenize_respaced scanned spaced
  exact ⟨tokens, respaced, scanned, readAgain, lexemes, forms⟩

end Token

end Lox
