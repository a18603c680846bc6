import Lox.Proofs.Token.Joining
import Mathlib

set_option autoImplicit false

/-!
# Longest matches

Which texts are words, numbers, strings, symbols, blanks and comments is said here by their letters
alone. A text starts with the longest piece of its first class, and with a fault where no class has
a piece; cutting a source that way again and again gives its items, and gives no others.

A slash is no symbol where it opens a comment. Without that proviso an unclosed comment would read
as a slash and a star.
-/

namespace Lox

namespace Segment

/-! ## Classes of texts -/

inductive Class where
  | blank | comment | word | number | string | symbol
  deriving DecidableEq, Repr

inductive Class.Spells : Class → List Char → Prop
  | blank {c : Char} {more : List Char} (blank : isBlank c = true)
      (blanks : ∀ d ∈ more, isBlank d = true) : Spells .blank (c :: more)
  | lineComment {body : List Char} (oneLine : ∀ d ∈ body, d ≠ '\n') :
      Spells .comment ('/' :: '/' :: body)
  | blockComment {body : List Char} (firstClose : ¬['*', '/'] <:+: body ++ ['*']) :
      Spells .comment ('/' :: '*' :: (body ++ ['*', '/']))
  | word {c : Char} {more : List Char} (starts : startsWord c = true)
      (continues : ∀ d ∈ more, continuesWord d = true) : Spells .word (c :: more)
  | whole {c : Char} {more : List Char} (digit : c.isDigit = true)
      (digits : ∀ d ∈ more, d.isDigit = true) : Spells .number (c :: more)
  | fraction {c d : Char} {more places : List Char} (digit : c.isDigit = true)
      (digits : ∀ d ∈ more, d.isDigit = true) (place : d.isDigit = true)
      (morePlaces : ∀ d ∈ places, d.isDigit = true) :
      Spells .number (c :: (more ++ '.' :: d :: places))
  | string {body : List Char} (noQuote : ∀ d ∈ body, d ≠ '"') :
      Spells .string ('"' :: (body ++ ['"']))
  | symbol (mark : Symbol) : Spells .symbol mark.text.toList

def OpensComment (text : List Char) : Prop :=
  ['/', '/'] <+: text ∨ ['/', '*'] <+: text

/-- A piece at the front of a text that is of a class. -/
structure Class.Matches (kind : Class) (piece text : List Char) : Prop where
  spells : kind.Spells piece
  front : piece <+: text
  noComment : kind = .symbol → ¬OpensComment text

structure Class.Longest (kind : Class) (piece text : List Char) : Prop extends
    kind.Matches piece text where
  longest : ∀ other, kind.Matches other text → other.length ≤ piece.length

/-- No class has a piece at the front of the text. -/
def Blocked (text : List Char) : Prop :=
  ∀ (kind : Class) (piece : List Char), ¬kind.Matches piece text

/-- How a text starts: with the longest piece of a class, or, where no class has one, with a
fault. -/
inductive Begins : List Char → Kind → List Char → Prop
  | blank {piece text : List Char} : Class.blank.Longest piece text → Begins text .blank piece
  | comment {piece text : List Char} : Class.comment.Longest piece text → Begins text .comment piece
  | word {piece text : List Char} : Class.word.Longest piece text → Begins text .word piece
  | number {piece text : List Char} : Class.number.Longest piece text → Begins text .number piece
  | string {piece text : List Char} : Class.string.Longest piece text → Begins text .string piece
  | symbol {mark : Symbol} {text : List Char} : Class.symbol.Longest mark.text.toList text →
      Begins text (.symbol mark) mark.text.toList
  | unexpected {c : Char} {rest : List Char} : Blocked (c :: rest) → c ≠ '"' →
      ¬OpensComment (c :: rest) → Begins (c :: rest) (.unexpected c) [c]
  | unclosedString {rest : List Char} : Blocked ('"' :: rest) →
      Begins ('"' :: rest) .unclosedString ('"' :: rest)
  | unclosedComment {inside : List Char} : Blocked ('/' :: '*' :: inside) →
      Begins ('/' :: '*' :: inside) .unclosedComment ('/' :: '*' :: inside)

/-! ## What the first segment is -/

/-- The class of a kind of segment. Faults have none. -/
def Kind.class? : Kind → Option Class
  | .blank => some .blank
  | .comment => some .comment
  | .word => some .word
  | .number => some .number
  | .string => some .string
  | .symbol _ => some .symbol
  | _ => none

theorem isPrefix_takeWhile {test : Char → Bool} {body rest : List Char} (front : body <+: rest)
    (passes : ∀ d ∈ body, test d = true) : body <+: rest.takeWhile test := by
  obtain ⟨more, rfl⟩ := front
  rw [List.takeWhile_append_of_pos passes]
  exact List.prefix_append _ _

/-- The mark that closes a comment, at the front of a text or further on. -/
theorem close_infix_cons_iff {c : Char} {rest : List Char} : ['*', '/'] <:+: c :: rest ↔
    (c = '*' ∧ ∃ more, rest = '/' :: more) ∨ ['*', '/'] <:+: rest := by
  rw [List.infix_cons_iff, List.cons_prefix_cons]
  refine or_congr (and_congr eq_comm ?_) Iff.rfl
  constructor
  · rintro ⟨more, rfl⟩
    exact ⟨more, rfl⟩
  · rintro ⟨more, rfl⟩
    exact ⟨more, rfl⟩

theorem commentLength?_eq_none_iff {text : List Char} :
    commentLength? text = none ↔ ¬['*', '/'] <:+: text := by
  fun_induction commentLength? text with
  | case1 rest => simp [close_infix_cons_iff]
  | case2 c rest other inductionHypothesis =>
    rw [Option.map_eq_none_iff, inductionHypothesis, close_infix_cons_iff, not_or]
    refine ⟨fun none => ⟨?_, none⟩, And.right⟩
    rintro ⟨rfl, more, rfl⟩
    exact other more rfl rfl
  | case3 => simp

/-- The first `*/` of a text closes a comment. -/
theorem commentLength?_eq_some_iff {text : List Char} {length : Nat} :
    commentLength? text = some length ↔ ∃ body more, text = body ++ '*' :: '/' :: more ∧
      length = body.length + 2 ∧ ¬['*', '/'] <:+: body ++ ['*'] := by
  fun_induction commentLength? text generalizing length with
  | case1 rest =>
    constructor
    · intro found
      cases found
      exact ⟨[], rest, rfl, rfl, by decide⟩
    · rintro ⟨body, more, shape, rfl, early⟩
      cases body with
      | nil => rfl
      | cons c body =>
        -- a longer body would start with the mark itself
        refine absurd ?_ early
        obtain ⟨rfl, behind⟩ := List.cons.inj shape
        refine close_infix_cons_iff.mpr (.inl ⟨rfl, ?_⟩)
        cases body with
        | nil => cases behind
        | cons d body =>
          obtain ⟨rfl, -⟩ := List.cons.inj behind
          exact ⟨_, rfl⟩
  | case2 c rest other inductionHypothesis =>
    rw [Option.map_eq_some_iff]
    constructor
    · rintro ⟨shorter, found, rfl⟩
      obtain ⟨body, more, rfl, rfl, early⟩ := inductionHypothesis.mp found
      refine ⟨c :: body, more, rfl, rfl, ?_⟩
      rw [List.cons_append, close_infix_cons_iff, not_or]
      refine ⟨?_, early⟩
      rintro ⟨rfl, tail, shape⟩
      cases body with
      | nil => cases shape
      | cons d body =>
        obtain ⟨rfl, -⟩ := List.cons.inj shape
        exact other _ rfl rfl
    · rintro ⟨body, more, shape, rfl, early⟩
      cases body with
      | nil =>
        obtain ⟨rfl, rfl⟩ := List.cons.inj shape
        exact absurd rfl (other more rfl)
      | cons d body =>
        obtain ⟨rfl, rfl⟩ := List.cons.inj shape
        rw [List.cons_append, close_infix_cons_iff, not_or] at early
        exact ⟨_, inductionHypothesis.mpr ⟨body, more, rfl, rfl, early.2⟩, rfl⟩
  | case3 => simp

/-- The first quote of a text closes a string. -/
theorem findIdx?_quote_eq_some_iff {text : List Char} {index : Nat} :
    text.findIdx? (· == '"') = some index ↔ ∃ body more, text = body ++ '"' :: more ∧
      index = body.length ∧ ∀ d ∈ body, d ≠ '"' := by
  induction text generalizing index with
  | nil => simp
  | cons c rest inductionHypothesis =>
    rw [List.findIdx?_cons]
    by_cases quote : c = '"'
    · subst quote
      rw [if_pos (beq_self_eq_true _), Option.some.injEq]
      constructor
      · rintro rfl
        exact ⟨[], rest, rfl, rfl, nofun⟩
      · rintro ⟨body, more, shape, rfl, noQuote⟩
        cases body with
        | nil => rfl
        | cons d body => exact absurd (List.cons.inj shape).1.symm (noQuote d List.mem_cons_self)
    · rw [if_neg (fun same => quote (beq_iff_eq.mp same)), Option.map_eq_some_iff]
      constructor
      · rintro ⟨index, found, rfl⟩
        obtain ⟨body, more, rfl, rfl, noQuote⟩ := inductionHypothesis.mp found
        exact ⟨c :: body, more, rfl, rfl, List.forall_mem_cons.mpr ⟨quote, noQuote⟩⟩
      · rintro ⟨body, more, shape, rfl, noQuote⟩
        cases body with
        | nil => exact absurd (List.cons.inj shape).1 quote
        | cons d body =>
          obtain ⟨rfl, rfl⟩ := List.cons.inj shape
          have inner := (List.forall_mem_cons.mp noQuote).2
          exact ⟨_, inductionHypothesis.mpr ⟨body, more, rfl, rfl, inner⟩, rfl⟩

/-! ## Classes by the first character -/

theorem le_of_startsWord {c : Char} (starts : startsWord c = true) : 65 ≤ c.toNat := by
  rcases Bool.or_eq_true_iff.mp starts with underscore | alphabetic
  · rw [beq_iff_eq.mp underscore]
    decide
  · have low := (Bool.and_eq_true_iff.mp alphabetic).1
    exact of_decide_eq_true low

theorem contains_second (range second : Nat × Nat) {others : Text.Ranges} {code : Nat}
    (above : range.1 ≤ code) (low : second.1 ≤ code) (high : code ≤ second.2) :
    Text.Ranges.contains (range :: second :: others) code = true := by
  simp [Text.Ranges.contains, above, low, high]

theorem startsWord_of_isLower {c : Char} (lower : c.isLower = true) : startsWord c = true := by
  rw [Char.isLower, Bool.and_eq_true_iff] at lower
  have low : 0x61 ≤ c.toNat := of_decide_eq_true lower.1
  have high : c.toNat ≤ 0x7A := of_decide_eq_true lower.2
  have alphabetic : Text.isAlphabetic c = true :=
    contains_second (0x41, 0x5A) (0x61, 0x7A) (Nat.le_trans (by decide) low) low high
  exact Bool.or_eq_true_iff.mpr (.inr alphabetic)

theorem le_of_isDigit {c : Char} (digit : c.isDigit = true) : 48 ≤ c.toNat ∧ c.toNat ≤ 57 := by
  rw [Char.isDigit, Bool.and_eq_true_iff] at digit
  exact ⟨of_decide_eq_true digit.1, of_decide_eq_true digit.2⟩

variable {c : Char} {rest : List Char}

/-- Blanks and the quote come before the digits and the letters. -/
theorem lt_of_isBlank_or (early : isBlank c = true ∨ (c == '"') = true) : c.toNat < 48 := by
  simp only [isBlank, Bool.or_eq_true, beq_iff_eq] at early
  rcases early with (((rfl | rfl) | rfl) | rfl) | rfl <;> decide

theorem first_of_isBlank (blank : isBlank c = true) :
    first c rest = (.blank, (rest.takeWhile isBlank).length) := by
  unfold first
  rw [if_pos blank]

theorem first_of_isDigit (digit : c.isDigit = true) :
    first c rest = (.number, numberTail rest) := by
  have later := (le_of_isDigit digit).1
  have noBlank : ¬isBlank c = true :=
    fun blank => Nat.not_lt_of_le later (lt_of_isBlank_or (.inl blank))
  have noQuote : ¬(c == '"') = true :=
    fun quote => Nat.not_lt_of_le later (lt_of_isBlank_or (.inr quote))
  unfold first
  rw [if_neg noBlank, if_neg noQuote, if_pos digit]

theorem first_of_startsWord (starts : startsWord c = true) :
    first c rest = (.word, (rest.takeWhile continuesWord).length) := by
  have later := le_of_startsWord starts
  have noBlank : ¬isBlank c = true := fun blank => by
    have := lt_of_isBlank_or (.inl blank)
    omega
  have noQuote : ¬(c == '"') = true := fun quote => by
    have := lt_of_isBlank_or (.inr quote)
    omega
  have noDigit : ¬c.isDigit = true := fun digit => by
    have := le_of_isDigit digit
    omega
  unfold first
  rw [if_neg noBlank, if_neg noQuote, if_neg noDigit, if_pos starts]

theorem first_quote (rest : List Char) : first '"' rest = match rest.findIdx? (· == '"') with
    | some index => (.string, index + 1)
    | none => (.unclosedString, rest.length) := rfl

theorem first_lineComment :
    first '/' ('/' :: rest) = (.comment, (rest.takeWhile (· != '\n')).length + 1) := rfl

theorem first_blockComment (rest : List Char) :
    first '/' ('*' :: rest) = match commentLength? rest with
    | some length => (.comment, length + 1)
    | none => (.unclosedComment, rest.length + 1) := rfl

/-- A text that starts neither with blanks nor with a string, a number, a word or a comment. -/
structure StartsNone (c : Char) (rest : List Char) : Prop where
  noBlank : ¬isBlank c = true
  noQuote : ¬(c == '"') = true
  noDigit : ¬c.isDigit = true
  noWord : ¬startsWord c = true
  noComment : ¬OpensComment (c :: rest)

theorem startsNone_of_symbol {mark : Symbol} (found : Symbol.ofChar? c = some mark)
    (noComment : ¬OpensComment (c :: rest)) : StartsNone c rest := by
  suffices others : ¬isBlank c = true ∧ ¬(c == '"') = true ∧ ¬c.isDigit = true ∧
    ¬startsWord c = true from
    ⟨others.1, others.2.1, others.2.2.1, others.2.2.2, noComment⟩
  unfold Symbol.ofChar? at found
  split at found
  all_goals first | decide | cases found

theorem first_unexpected (none : StartsNone c rest) (other : Symbol.ofChar? c = .none) :
    first c rest = (.unexpected c, 0) := by
  unfold first
  rw [if_neg none.noBlank, if_neg none.noQuote, if_neg none.noDigit, if_neg none.noWord]
  split
  · exact absurd (.inl ⟨_, rfl⟩) none.noComment
  · exact absurd (.inr ⟨_, rfl⟩) none.noComment
  · rw [other]

/-- A symbol has one character, or it has an equals sign as the second one. -/
theorem symbol_text_cases (mark : Symbol) :
    (∃ c, mark.text.toList = [c] ∧ Symbol.ofChar? c = some mark) ∨
      ∃ c short, mark.text.toList = [c, '='] ∧ Symbol.ofChar? c = some short ∧
        short.withEqual? = some mark := by
  cases mark
  case bangEqual => exact .inr ⟨'!', .bang, rfl, rfl, rfl⟩
  case equalEqual => exact .inr ⟨'=', .equal, rfl, rfl, rfl⟩
  case greaterEqual => exact .inr ⟨'>', .greater, rfl, rfl, rfl⟩
  case lessEqual => exact .inr ⟨'<', .less, rfl, rfl, rfl⟩
  all_goals exact .inl ⟨_, rfl, rfl⟩

theorem text_of_ofChar? {mark : Symbol} (found : Symbol.ofChar? c = some mark) :
    mark.text.toList = [c] := by
  unfold Symbol.ofChar? at found
  split at found
  all_goals cases found
  all_goals rfl

theorem text_of_withEqual? {mark longer : Symbol} (found : mark.withEqual? = some longer) :
    longer.text.toList = mark.text.toList ++ ['='] := by
  cases mark
  all_goals cases found
  all_goals rfl

/-- A symbol is taken as long as the text has it. -/
theorem first_symbol {mark : Symbol} (none : StartsNone c rest)
    (found : Symbol.ofChar? c = some mark) :
    ∃ (taken : Symbol) (length : Nat), first c rest = (.symbol taken, length) ∧
      taken.text.toList = c :: rest.take length ∧
      ∀ other : Symbol, other.text.toList <+: c :: rest →
        other.text.toList.length ≤ taken.text.toList.length := by
  have one := text_of_ofChar? found
  unfold first
  rw [if_neg none.noBlank, if_neg none.noQuote, if_neg none.noDigit, if_neg none.noWord]
  split
  · exact absurd (.inl ⟨_, rfl⟩) none.noComment
  · exact absurd (.inr ⟨_, rfl⟩) none.noComment
  · rename_i noLine noBlock
    clear none noLine noBlock
    rw [found]
    dsimp only
    split
    · rename_i longer more grows
      have two := text_of_withEqual? grows
      rw [one] at two
      refine ⟨longer, 1, rfl, two, fun other _ => ?_⟩
      rw [two]
      rcases symbol_text_cases other with ⟨_, text, -⟩ | ⟨_, _, text, -, -⟩
      all_goals simp [text]
    · rename_i narrow
      refine ⟨mark, 0, rfl, one, fun other front => ?_⟩
      rw [one]
      rcases symbol_text_cases other with ⟨_, text, -⟩ | ⟨d, short, text, foundOther, grows⟩
      · simp [text]
      · -- a longer symbol would have been taken
        rw [text] at front
        obtain ⟨more, shape⟩ := front
        obtain ⟨rfl, rfl⟩ := List.cons.inj shape
        cases found.symm.trans foundOther
        exact absurd rfl (narrow _ _ grows)

/-! ## The longest piece of each class -/

namespace Class

/-- The longest piece of a class whose texts are a first character and a run of others. -/
theorem longest_run {kind : Class} {test : Char → Bool}
    (all : ∀ more, (∀ d ∈ more, test d = true) → kind.Spells (c :: more))
    (only : ∀ piece, kind.Spells piece → ∃ d more, piece = d :: more ∧ ∀ d ∈ more, test d = true)
    (noSymbol : kind ≠ .symbol) : kind.Longest (c :: rest.takeWhile test) (c :: rest) where
  spells := all _ fun _ => List.mem_takeWhile_imp
  front := List.cons_prefix_cons.mpr ⟨rfl, List.takeWhile_prefix _⟩
  noComment := fun same => absurd same noSymbol
  longest := by
    rintro piece ⟨spells, front, -⟩
    obtain ⟨d, more, rfl, passes⟩ := only piece spells
    have inner := (List.cons_prefix_cons.mp front).2
    exact Nat.succ_le_succ (isPrefix_takeWhile inner passes).length_le

theorem longest_blank (blank : isBlank c = true) :
    Class.blank.Longest (c :: rest.takeWhile isBlank) (c :: rest) :=
  longest_run (fun _ => .blank blank) (fun | _, .blank _ blanks => ⟨_, _, rfl, blanks⟩) nofun

theorem longest_word (starts : startsWord c = true) :
    Class.word.Longest (c :: rest.takeWhile continuesWord) (c :: rest) :=
  longest_run (fun _ => .word starts) (fun | _, .word _ continues => ⟨_, _, rfl, continues⟩) nofun

theorem longest_lineComment :
    Class.comment.Longest ('/' :: '/' :: rest.takeWhile (· != '\n')) ('/' :: '/' :: rest) where
  spells := by
    refine .lineComment fun d member => ?_
    have other : (d != '\n') = true := List.mem_takeWhile_imp (p := (· != '\n')) member
    exact bne_iff_ne.mp other
  front := by simp [List.cons_prefix_cons, List.takeWhile_prefix]
  noComment := nofun
  longest := by
    rintro _ ⟨spells, front, -⟩
    cases spells with
    | lineComment oneLine =>
      have inner := (List.cons_prefix_cons.mp (List.cons_prefix_cons.mp front).2).2
      have passes := isPrefix_takeWhile inner fun d member => bne_iff_ne.mpr (oneLine d member)
      exact Nat.succ_le_succ (Nat.succ_le_succ passes.length_le)
    | blockComment =>
      have second := (List.cons_prefix_cons.mp (List.cons_prefix_cons.mp front).2).1
      exact absurd second (by decide)

theorem longest_blockComment {length : Nat} (closed : commentLength? rest = some length) :
    Class.comment.Longest ('/' :: '*' :: rest.take length) ('/' :: '*' :: rest) := by
  obtain ⟨body, more, rfl, rfl, early⟩ := commentLength?_eq_some_iff.mp closed
  have taken : (body ++ '*' :: '/' :: more).take (body.length + 2) = body ++ ['*', '/'] := by
    rw [List.take_append]
    simp
  rw [taken]
  refine ⟨⟨.blockComment early, ?_, nofun⟩, ?_⟩
  · exact ⟨more, by simp⟩
  rintro _ ⟨spells, front, -⟩
  cases spells with
  | lineComment =>
    have second := (List.cons_prefix_cons.mp (List.cons_prefix_cons.mp front).2).1
    exact absurd second (by decide)
  | @blockComment body' early' =>
    -- both bodies reach to the first mark behind them
    obtain ⟨more', shape⟩ := (List.cons_prefix_cons.mp (List.cons_prefix_cons.mp front).2).2
    have closed' : commentLength? (body ++ '*' :: '/' :: more) = some (body'.length + 2) :=
      commentLength?_eq_some_iff.mpr ⟨body', more', by rw [← shape]; simp, rfl, early'⟩
    have same := Option.some.inj (closed'.symm.trans closed)
    simp only [List.length_cons, List.length_append, List.length_nil]
    omega

theorem longest_string {index : Nat} (closed : rest.findIdx? (· == '"') = some index) :
    Class.string.Longest ('"' :: rest.take (index + 1)) ('"' :: rest) := by
  obtain ⟨body, more, rfl, rfl, noQuote⟩ := findIdx?_quote_eq_some_iff.mp closed
  have taken : (body ++ '"' :: more).take (body.length + 1) = body ++ ['"'] := by
    rw [List.take_append]
    simp
  rw [taken]
  refine ⟨⟨.string noQuote, ⟨more, by simp⟩, nofun⟩, ?_⟩
  rintro _ ⟨spells, front, -⟩
  cases spells with
  | @string body' noQuote' =>
    obtain ⟨more', shape⟩ := (List.cons_prefix_cons.mp front).2
    have closed' : (body ++ '"' :: more).findIdx? (· == '"') = some body'.length :=
      findIdx?_quote_eq_some_iff.mpr ⟨body', more', by rw [← shape]; simp, rfl, noQuote'⟩
    have same := Option.some.inj (closed'.symm.trans closed)
    simp only [List.length_cons, List.length_append, List.length_nil]
    omega

/-- A point with digits behind it goes on a number. -/
theorem take_numberTail_fraction {fraction places : List Char} {d : Char}
    (point : rest.dropWhile Char.isDigit = '.' :: fraction)
    (digits : fraction.takeWhile Char.isDigit = d :: places) :
    rest.take (numberTail rest) = rest.takeWhile Char.isDigit ++ '.' :: d :: places := by
  have tail : numberTail rest =
      (rest.takeWhile Char.isDigit).length + ('.' :: d :: places).length := by
    unfold numberTail
    dsimp only
    rw [Token.drop_length_takeWhile]
    split
    · rename_i fraction' point'
      obtain ⟨-, rfl⟩ := List.cons.inj (point.symm.trans point')
      rw [digits]
      simp only [List.length_cons]
      omega
    · rename_i other
      exact absurd point (other fraction)
  have behind : fraction = d :: places ++ fraction.dropWhile Char.isDigit := by
    rw [← digits, List.takeWhile_append_dropWhile]
  have shape : rest = rest.takeWhile Char.isDigit ++ ('.' :: d :: places) ++
      fraction.dropWhile Char.isDigit := by
    rw [List.append_assoc, List.cons_append, ← behind, ← point, List.takeWhile_append_dropWhile]
  rw [tail, ← List.length_append]
  conv_lhs =>
    arg 2
    rw [shape]
  exact List.take_left

theorem take_numberTail_whole (none : ∀ fraction, rest.dropWhile Char.isDigit = '.' :: fraction →
    fraction.takeWhile Char.isDigit = []) :
    rest.take (numberTail rest) = rest.takeWhile Char.isDigit := by
  have tail : numberTail rest = (rest.takeWhile Char.isDigit).length := by
    unfold numberTail
    dsimp only
    rw [Token.drop_length_takeWhile]
    split
    · rename_i fraction point
      rw [none fraction point]
      rfl
    · rfl
  rw [tail, Token.take_length_takeWhile]

/-- A point ends the digits in front of it. -/
theorem takeWhile_isDigit_point {more fraction : List Char}
    (digits : ∀ d ∈ more, d.isDigit = true) :
    (more ++ '.' :: fraction).takeWhile Char.isDigit = more ∧
      (more ++ '.' :: fraction).dropWhile Char.isDigit = '.' :: fraction := by
  rw [List.takeWhile_append_of_pos digits, List.dropWhile_append_of_pos digits]
  exact ⟨List.append_nil _, rfl⟩

theorem longest_number (digit : c.isDigit = true) :
    Class.number.Longest (c :: rest.take (numberTail rest)) (c :: rest) := by
  have front : c :: rest.take (numberTail rest) <+: c :: rest :=
    List.cons_prefix_cons.mpr ⟨rfl, List.take_prefix _ _⟩
  have wholeDigits : ∀ d ∈ rest.takeWhile Char.isDigit, d.isDigit = true :=
    fun _ => List.mem_takeWhile_imp
  by_cases point : ∃ fraction d places, rest.dropWhile Char.isDigit = '.' :: fraction ∧
      fraction.takeWhile Char.isDigit = d :: places
  · obtain ⟨fraction, d, places, point, digits⟩ := point
    have allPlaces : ∀ e ∈ d :: places, e.isDigit = true :=
      fun _ member => List.mem_takeWhile_imp (digits ▸ member)
    rw [take_numberTail_fraction point digits] at front ⊢
    obtain ⟨place, morePlaces⟩ := List.forall_mem_cons.mp allPlaces
    refine ⟨⟨.fraction digit wholeDigits place morePlaces, front, nofun⟩, ?_⟩
    rintro _ ⟨spells, other, -⟩
    cases spells with
    | whole _ digits' =>
      have shorter := (isPrefix_takeWhile (List.cons_prefix_cons.mp other).2 digits').length_le
      simp only [List.length_cons, List.length_append]
      omega
    | fraction _ digits' place' morePlaces' =>
      obtain ⟨after, rfl⟩ := (List.cons_prefix_cons.mp other).2
      rw [List.append_assoc, List.cons_append] at point ⊢
      obtain ⟨whole, behind⟩ := takeWhile_isDigit_point digits'
      cases behind.symm.trans point
      rw [whole]
      have places' := isPrefix_takeWhile (List.prefix_append _ after)
        (List.forall_mem_cons.mpr ⟨place', morePlaces'⟩)
      rw [digits] at places'
      have shorter := places'.length_le
      simp only [List.length_cons, List.length_append] at shorter ⊢
      omega
  · have none : ∀ fraction, rest.dropWhile Char.isDigit = '.' :: fraction →
        fraction.takeWhile Char.isDigit = [] := fun fraction found => by
      cases digits : fraction.takeWhile Char.isDigit with
      | nil => rfl
      | cons d places => exact absurd ⟨fraction, d, places, found, digits⟩ point
    rw [take_numberTail_whole none] at front ⊢
    refine ⟨⟨.whole digit wholeDigits, front, nofun⟩, ?_⟩
    rintro _ ⟨spells, other, -⟩
    cases spells with
    | whole _ digits' =>
      have shorter := (isPrefix_takeWhile (List.cons_prefix_cons.mp other).2 digits').length_le
      exact Nat.succ_le_succ shorter
    | fraction _ digits' place' =>
      obtain ⟨after, rfl⟩ := (List.cons_prefix_cons.mp other).2
      rw [List.append_assoc, List.cons_append] at none
      have empty := none _ (takeWhile_isDigit_point digits').2
      rw [List.cons_append, List.takeWhile_cons_of_pos place'] at empty
      cases empty

end Class

/-! ## The first segment is what the text begins with -/

/-- What decides about the first segment. -/
theorem starts_cases (c : Char) (rest : List Char) : isBlank c = true ∨ c = '"' ∨ c.isDigit = true ∨
    startsWord c = true ∨ (∃ more, c = '/' ∧ rest = '/' :: more) ∨
      (∃ inside, c = '/' ∧ rest = '*' :: inside) ∨ StartsNone c rest := by
  by_cases blank : isBlank c = true
  · exact .inl blank
  by_cases quote : c = '"'
  · exact .inr (.inl quote)
  by_cases digit : c.isDigit = true
  · exact .inr (.inr (.inl digit))
  by_cases word : startsWord c = true
  · exact .inr (.inr (.inr (.inl word)))
  by_cases comment : OpensComment (c :: rest)
  · rcases comment with ⟨more, shape⟩ | ⟨inside, shape⟩
    · obtain ⟨rfl, rfl⟩ := List.cons.inj shape
      exact .inr (.inr (.inr (.inr (.inl ⟨more, rfl, rfl⟩))))
    · obtain ⟨rfl, rfl⟩ := List.cons.inj shape
      exact .inr (.inr (.inr (.inr (.inr (.inl ⟨inside, rfl, rfl⟩)))))
  · have none : StartsNone c rest :=
      ⟨blank, fun same => quote (beq_iff_eq.mp same), digit, word, comment⟩
    exact .inr (.inr (.inr (.inr (.inr (.inr none)))))

/-- The class of a piece in front is the class of the first segment. -/
theorem class?_first {kind : Class} {piece : List Char} (found : kind.Matches piece (c :: rest)) :
    (first c rest).1.class? = some kind := by
  obtain ⟨spells, front, noComment⟩ := found
  cases spells with
  | blank blank =>
    obtain ⟨rfl, -⟩ := List.cons_prefix_cons.mp front
    rw [first_of_isBlank blank]
    rfl
  | word starts =>
    obtain ⟨rfl, -⟩ := List.cons_prefix_cons.mp front
    rw [first_of_startsWord starts]
    rfl
  | whole digit | fraction digit =>
    obtain ⟨rfl, -⟩ := List.cons_prefix_cons.mp front
    rw [first_of_isDigit digit]
    rfl
  | lineComment =>
    obtain ⟨more, shape⟩ := front
    cases shape
    rfl
  | @blockComment body early =>
    obtain ⟨rfl, more, rfl⟩ := List.cons_prefix_cons.mp front
    have closed : commentLength? (body ++ ['*', '/'] ++ more) = some (body.length + 2) :=
      commentLength?_eq_some_iff.mpr ⟨body, more, by simp, rfl, early⟩
    rw [List.cons_append, first_blockComment, closed]
    rfl
  | @string body noQuote =>
    obtain ⟨rfl, more, rfl⟩ := List.cons_prefix_cons.mp front
    have closed : (body ++ ['"'] ++ more).findIdx? (· == '"') = some body.length :=
      findIdx?_quote_eq_some_iff.mpr ⟨body, more, by simp, rfl, noQuote⟩
    rw [first_quote, closed]
    rfl
  | symbol mark =>
    have otherwise {short : Symbol} (first : Symbol.ofChar? c = some short) : StartsNone c rest :=
      startsNone_of_symbol first (noComment rfl)
    rcases symbol_text_cases mark with ⟨d, text, found⟩ | ⟨d, short, text, found, -⟩
    all_goals
      rw [text] at front
      obtain ⟨rfl, -⟩ := List.cons_prefix_cons.mp front
      obtain ⟨taken, length, same, -⟩ := first_symbol (otherwise found) found
      rw [same]
      rfl

theorem blocked_of_first (fault : (first c rest).1.class? = none) : Blocked (c :: rest) :=
  fun _ _ found => Option.some_ne_none _ ((class?_first found).symm.trans fault)

/-- A text begins with its first segment. -/
theorem begins_first (c : Char) (rest : List Char) :
    Begins (c :: rest) (first c rest).1 (c :: rest.take (first c rest).2) := by
  rcases starts_cases c rest with
    blank | rfl | digit | word | ⟨more, rfl, rfl⟩ | ⟨inside, rfl, rfl⟩ | otherwise
  · rw [first_of_isBlank blank, Token.take_length_takeWhile]
    exact .blank (Class.longest_blank blank)
  · have same := first_quote rest
    cases closed : rest.findIdx? (· == '"') with
    | some index =>
      rw [closed] at same
      rw [same]
      exact .string (Class.longest_string closed)
    | none =>
      rw [closed] at same
      have blocked : Blocked ('"' :: rest) := blocked_of_first (by rw [same]; rfl)
      rw [same, List.take_length]
      exact .unclosedString blocked
  · rw [first_of_isDigit digit]
    exact .number (Class.longest_number digit)
  · rw [first_of_startsWord word, Token.take_length_takeWhile]
    exact .word (Class.longest_word word)
  · rw [first_lineComment, List.take_succ_cons, Token.take_length_takeWhile]
    exact .comment Class.longest_lineComment
  · have same := first_blockComment inside
    cases closed : commentLength? inside with
    | some length =>
      rw [closed] at same
      rw [same, List.take_succ_cons]
      exact .comment (Class.longest_blockComment closed)
    | none =>
      rw [closed] at same
      have blocked : Blocked ('/' :: '*' :: inside) := blocked_of_first (by rw [same]; rfl)
      rw [same, List.take_succ_cons, List.take_length]
      exact .unclosedComment blocked
  · cases found : Symbol.ofChar? c with
    | none =>
      have same := first_unexpected otherwise found
      have blocked : Blocked (c :: rest) := blocked_of_first (by rw [same]; rfl)
      rw [same]
      exact .unexpected blocked (fun quote => otherwise.noQuote (beq_iff_eq.mpr quote))
        otherwise.noComment
    | some mark =>
      obtain ⟨taken, length, same, text, longest⟩ := first_symbol otherwise found
      have front : taken.text.toList <+: c :: rest := by
        rw [text]
        exact List.cons_prefix_cons.mpr ⟨rfl, List.take_prefix _ _⟩
      rw [same, ← text]
      refine .symbol ⟨⟨.symbol taken, front, fun _ => otherwise.noComment⟩, ?_⟩
      rintro _ ⟨spells, other, -⟩
      cases spells with
      | symbol other' => exact longest other' other

/-! ## Numbers are literals -/

theorem ne_point_of_isDigit {digits : List Char} (all : ∀ d ∈ digits, d.isDigit = true) :
    ∀ d ∈ digits, (d != '.') = true := by
  intro d member
  refine bne_iff_ne.mpr ?_
  rintro rfl
  exact absurd (all _ member) (by decide)

theorem Class.Spells.isLiteral {piece : List Char} (spells : Class.number.Spells piece) :
    Number.isLiteral piece = true := by
  unfold Number.isLiteral
  cases spells with
  | @whole c more digit digits =>
    have all : ∀ d ∈ c :: more, d.isDigit = true := List.forall_mem_cons.mpr ⟨digit, digits⟩
    have noPoint := ne_point_of_isDigit all
    rw [List.takeWhile_eq_self_iff.mpr noPoint, List.dropWhile_eq_nil_iff.mpr noPoint]
    simpa using all
  | @fraction c d more places digit digits place morePlaces =>
    have all : ∀ d ∈ c :: more, d.isDigit = true := List.forall_mem_cons.mpr ⟨digit, digits⟩
    have noPoint := ne_point_of_isDigit all
    rw [← List.cons_append, List.takeWhile_append_of_pos noPoint,
      List.dropWhile_append_of_pos noPoint]
    simp only [List.takeWhile_cons, List.dropWhile_cons]
    simpa [digit, place] using And.intro digits morePlaces

/-! ## A text begins in one way -/

theorem Class.Longest.unique {kind : Class} {piece piece' text : List Char}
    (one : kind.Longest piece text) (other : kind.Longest piece' text) : piece = piece' := by
  have shorter := other.longest piece one.toMatches
  have longer := one.longest piece' other.toMatches
  exact (List.prefix_of_prefix_length_le one.front other.front shorter).eq_of_length
    (Nat.le_antisymm shorter longer)

theorem Class.Spells.ne_nil {kind : Class} {piece : List Char} (spells : kind.Spells piece) :
    piece ≠ [] := by
  cases spells with
  | symbol mark => cases mark <;> decide
  | _ => exact List.cons_ne_nil _ _

theorem symbol_text_injective {mark mark' : Symbol} (same : mark.text.toList = mark'.text.toList) :
    mark = mark' := by
  rcases symbol_text_cases mark with ⟨c, text, found⟩ | ⟨c, short, text, found, grows⟩ <;>
  rcases symbol_text_cases mark' with ⟨c', text', found'⟩ | ⟨c', short', text', found', grows'⟩ <;>
  rw [text, text'] at same <;> cases same
  · exact Option.some.inj (found.symm.trans found')
  · cases found.symm.trans found'
    exact Option.some.inj (grows.symm.trans grows')

namespace Begins

variable {text piece piece' : List Char} {kind kind' : Kind}

theorem longest {cls : Class} (begins : Begins text kind piece) (formed : kind.class? = some cls) :
    cls.Longest piece text := by
  cases begins <;> cases formed <;> assumption

theorem fault?_eq {cls : Class} (begins : Begins text kind piece)
    (formed : kind.class? = some cls) :
    fault? ⟨kind, piece⟩ = none := by
  cases begins with
  | number longest => exact if_pos longest.spells.isLiteral
  | unexpected | unclosedString | unclosedComment => cases formed
  | _ => rfl

theorem blocked (begins : Begins text kind piece) (fault : kind.class? = none) : Blocked text := by
  cases begins <;> cases fault <;> assumption

theorem ne_nil (begins : Begins text kind piece) : piece ≠ [] := by
  cases formed : kind.class? with
  | some cls => exact (begins.longest formed).spells.ne_nil
  | none => cases begins <;> cases formed <;> exact List.cons_ne_nil _ _

theorem eq_of_unexpected {d : Char} (begins : Begins text (.unexpected d) piece) : piece = [d] := by
  cases begins
  rfl

/-- What is not closed takes the rest of the text. -/
theorem eq_of_unclosed (begins : Begins text kind piece)
    (unclosed : kind = .unclosedString ∨ kind = .unclosedComment) : piece = text := by
  rcases unclosed with rfl | rfl
  all_goals
    cases begins
    rfl

/-- Two ways to begin are of the same class, or both are faults. -/
theorem class?_eq (one : Begins (c :: rest) kind piece) :
    kind.class? = (first c rest).1.class? := by
  cases formed : kind.class? with
  | some cls => exact (class?_first (one.longest formed).toMatches).symm
  | none =>
    cases formed' : (first c rest).1.class? with
    | none => rfl
    | some cls =>
      have found := ((begins_first c rest).longest formed').toMatches
      exact absurd found (one.blocked formed cls _)

/-- A text that is of a class does not begin a segment of another one. -/
theorem class?_eq_of_spells {cls : Class} (begins : Begins (piece ++ rest) kind piece)
    (spells : cls.Spells piece) (noSymbol : cls ≠ .symbol) : kind.class? = some cls := by
  obtain ⟨c, more, rfl⟩ := List.exists_cons_of_ne_nil spells.ne_nil
  have front : cls.Matches (c :: more) (c :: (more ++ rest)) :=
    ⟨spells, List.prefix_append (c :: more) rest, fun symbol => absurd symbol noSymbol⟩
  exact begins.class?_eq.trans (class?_first front)

/-- Segments of one class with one text are of the same kind. -/
theorem kind_eq_of_class?_eq {text' : List Char} {cls : Class} (one : Begins text kind piece)
    (other : Begins text' kind' piece') (pieces : piece = piece') (formed : kind.class? = some cls)
    (formed' : kind'.class? = some cls) : kind = kind' := by
  cases one <;> cases formed <;> cases other <;> cases formed'
  case symbol.refl.symbol.refl => rw [symbol_text_injective pieces]
  all_goals rfl

/-- What is behind a text does not matter for the kind of segment that it is. -/
theorem kind_eq {rest rest' : List Char} {cls cls' : Class}
    (one : Begins (piece ++ rest) kind piece)
    (other : Begins (piece ++ rest') kind' piece) (formed : kind.class? = some cls)
    (formed' : kind'.class? = some cls') : kind = kind' := by
  by_cases noSymbol : cls = .symbol
  · by_cases noSymbol' : cls' = .symbol
    · subst noSymbol noSymbol'
      exact one.kind_eq_of_class?_eq other rfl formed formed'
    · have same := one.class?_eq_of_spells (other.longest formed').spells noSymbol'
      exact one.kind_eq_of_class?_eq other rfl same formed'
  · have same := other.class?_eq_of_spells (one.longest formed).spells noSymbol
    exact one.kind_eq_of_class?_eq other rfl formed same

theorem unique (one : Begins (c :: rest) kind piece) (other : Begins (c :: rest) kind' piece') :
    kind = kind' ∧ piece = piece' := by
  have same := one.class?_eq.trans other.class?_eq.symm
  cases formed : kind.class? with
  | some cls =>
    have formed' := same.symm.trans formed
    have pieces := (one.longest formed).unique (other.longest formed')
    exact ⟨one.kind_eq_of_class?_eq other pieces formed formed', pieces⟩
  | none =>
    have formed' := same.symm.trans formed
    cases one with
    | unexpected _ noQuote noComment =>
      cases other with
      | unexpected => exact ⟨rfl, rfl⟩
      | unclosedString => exact absurd rfl noQuote
      | unclosedComment => exact absurd (.inr ⟨_, rfl⟩) noComment
      | _ => cases formed'
    | unclosedString =>
      cases other with
      | unexpected _ noQuote => exact absurd rfl noQuote
      | unclosedString => exact ⟨rfl, rfl⟩
      | _ => cases formed'
    | unclosedComment =>
      cases other with
      | unexpected _ _ noComment => exact absurd (.inr ⟨_, rfl⟩) noComment
      | unclosedComment => exact ⟨rfl, rfl⟩
      | _ => cases formed'
    | _ => cases formed

/-- What a text begins with is its first segment. -/
theorem split_eq {rest : List Char} (begins : Begins (piece ++ rest) kind piece) :
    split (piece ++ rest) = ⟨kind, piece⟩ :: split rest := by
  obtain ⟨c, more, rfl⟩ := List.exists_cons_of_ne_nil begins.ne_nil
  rw [List.cons_append] at begins ⊢
  obtain ⟨rfl, pieces⟩ := begins.unique (begins_first c (more ++ rest))
  have taken : more = (more ++ rest).take (first c (more ++ rest)).2 := (List.cons.inj pieces).2
  have dropped : (more ++ rest).drop (first c (more ++ rest)).2 = rest := by
    have whole := List.take_append_drop (first c (more ++ rest)).2 (more ++ rest)
    rw [← taken] at whole
    exact List.append_cancel_left whole
  rw [split]
  change ⟨(first c (more ++ rest)).1, c :: (more ++ rest).take (first c (more ++ rest)).2⟩ ::
    split ((more ++ rest).drop (first c (more ++ rest)).2) = _
  rw [dropped, ← taken]

theorem split_eq_singleton (begins : Begins text kind text) : split text = [⟨kind, text⟩] := by
  have whole : Begins (text ++ []) kind text := by rwa [List.append_nil]
  have cut := whole.split_eq
  rwa [List.append_nil, split] at cut

end Begins

end Segment

end Lox
