import Lox.Token.Scan
import Mathlib

set_option autoImplicit false

/-!
# Tokens of texts that are joined

A text without faults and another one, with a line feed between them, have the tokens of the first
and those of the second, moved to where it stands. The line feed keeps the last segment of the first
text from growing, whatever it is, except for blanks, which form no tokens.
-/

namespace Lox

/-! ## Spans that are moved -/

def Span.moved (bytes lines : Nat) (span : Span) : Span :=
  ⟨span.start + bytes, span.stop + bytes, span.line + lines, span.column⟩

/-- A span of a text that stands behind another text and a line feed. -/
def Span.behind (text : String) : Span → Span :=
  moved (text.utf8ByteSize + 1) (text.toList.count '\n' + 1)

/-- A span that does not end before it starts. -/
def Span.IsProper (span : Span) : Prop :=
  span.start ≤ span.stop

namespace Position

def moved (bytes lines : Nat) (p : Position) : Position :=
  ⟨p.offset + bytes, p.line + lines, p.column⟩

variable {bytes lines : Nat} {p : Position}

theorem advance_moved (c : Char) :
    (p.moved bytes lines).advance c = (p.advance c).moved bytes lines := by
  by_cases newline : c = '\n'
  · rw [advance, advance, if_pos newline, if_pos newline]
    simp only [moved, mk.injEq, and_true]
    omega
  · rw [advance, advance, if_neg newline, if_neg newline]
    simp only [moved, mk.injEq, and_true]
    omega

theorem after_moved (text : List Char) :
    (p.moved bytes lines).after text = (p.after text).moved bytes lines := by
  induction text generalizing p with
  | nil => rfl
  | cons c rest inductionHypothesis =>
    rw [after_cons, advance_moved, inductionHypothesis, after_cons]

theorem span_moved (text : List Char) :
    (p.moved bytes lines).span text = (p.span text).moved bytes lines := by
  unfold span
  rw [after_moved]
  rfl

/-- Where a text ends. -/
theorem after_eq (text : List Char) : (p.after text).offset = p.offset + String.utf8Len text ∧
    (p.after text).line = p.line + text.count '\n' := by
  induction text generalizing p with
  | nil => exact ⟨rfl, rfl⟩
  | cons c rest inductionHypothesis =>
    obtain ⟨offset, line⟩ := inductionHypothesis (p := p.advance c)
    rw [after_cons, offset, line, String.utf8Len_cons]
    by_cases newline : c = '\n'
    · subst newline
      rw [advance, if_pos rfl, List.count_cons_self]
      dsimp only
      omega
    · rw [advance, if_neg newline, List.count_cons_of_ne newline]
      dsimp only
      omega

theorem isProper_span (text : List Char) : (p.span text).IsProper := by
  unfold Span.IsProper span
  rw [(after_eq text).1]
  exact Nat.le_add_right ..

/-- A second text behind the first one and a line feed starts in the first column. -/
theorem after_lineFeed (text : List Char) : ({} : Position).after (text ++ ['\n']) =
    ({} : Position).moved (String.utf8Len text + 1) (text.count '\n' + 1) := by
  obtain ⟨offset, line⟩ := after_eq (p := {}) text
  rw [after_append, after_cons, after_nil, advance, if_pos rfl, offset, line]
  simp only [moved, mk.injEq, and_true]
  exact ⟨rfl, by omega⟩

end Position

/-! ## Tokens of segments -/

def Segment.token? (s : Segment) (p : Position) : Option Token :=
  s.tokenKind?.map fun kind => ⟨kind, String.ofList s.text, p.span s.text⟩

namespace Token

def respan (f : Span → Span) (t : Token) : Token :=
  { t with span := f t.span }

def formed (p : Position) : List Segment → List Token
  | [] => []
  | s :: rest => (s.token? p).toList ++ formed (p.after s.text) rest

theorem formed_moved {bytes lines : Nat} {p : Position} (segments : List Segment) :
    formed (p.moved bytes lines) segments =
      (formed p segments).map (respan (Span.moved bytes lines)) := by
  induction segments generalizing p with
  | nil => rfl
  | cons s rest inductionHypothesis =>
    unfold formed Segment.token?
    rw [Position.after_moved, inductionHypothesis, Position.span_moved, List.map_append]
    cases s.tokenKind? <;> rfl

theorem isProper_of_mem_formed {p : Position} {segments : List Segment} :
    ∀ t ∈ formed p segments, t.span.IsProper := by
  induction segments generalizing p with
  | nil => simp [formed]
  | cons s rest inductionHypothesis =>
    intro t member
    rcases List.mem_append.mp member with member | member
    · obtain ⟨kind, -, rfl⟩ := Option.map_eq_some_iff.mp (Option.mem_toList.mp member)
      exact Position.isProper_span s.text
    · exact inductionHypothesis t member

theorem kind_ne_of_mem_formed {p : Position} {segments : List Segment} :
    ∀ t ∈ formed p segments, t.kind ≠ .endOfInput := by
  induction segments generalizing p with
  | nil => simp [formed]
  | cons s rest inductionHypothesis =>
    intro t member
    unfold formed at member
    rcases List.mem_append.mp member with member | member
    · obtain ⟨kind, formed, rfl⟩ := Option.map_eq_some_iff.mp (Option.mem_toList.mp member)
      rintro rfl
      unfold Segment.tokenKind? at formed
      dsimp only at formed
      split at formed <;> try split at formed
      all_goals cases formed
    · exact inductionHypothesis t member

theorem tokensFrom_eq_ok_iff {p : Position} {segments : List Segment} {tokens : List Token} :
    tokensFrom p segments = .ok tokens ↔ (∀ s ∈ segments, s.fault? = none) ∧
      tokens = formed p segments ++ [endAt (p.after (segments.flatMap Segment.text))] := by
  induction segments generalizing p tokens with
  | nil => simp [tokensFrom, formed, eq_comm]
  | cons s rest inductionHypothesis =>
    unfold tokensFrom formed Segment.item? Segment.token?
    rw [List.forall_mem_cons, List.flatMap_cons, Position.after_append]
    cases s.fault? with
    | some cause => simp
    | none =>
      cases s.tokenKind? with
      | none => simpa using inductionHypothesis
      | some kind =>
        have mapped {t : Token} : (tokensFrom (p.after s.text) rest).map (t :: ·) = .ok tokens ↔
            ∃ following, tokensFrom (p.after s.text) rest = .ok following ∧
              t :: following = tokens := by
          cases tokensFrom (p.after s.text) rest <;> simp [Except.map]
        simp only [mapped, inductionHypothesis]
        constructor
        · rintro ⟨following, ⟨clean, rfl⟩, rfl⟩
          exact ⟨⟨trivial, clean⟩, rfl⟩
        · rintro ⟨⟨-, clean⟩, rfl⟩
          exact ⟨_, ⟨clean, rfl⟩, rfl⟩

/-- The tokens of a text end with an end mark, and it is the only one. -/
theorem tokenize_ends {source : String} {tokens : List Token}
    (scanned : tokenize source = .ok tokens) :
    ∃ body finish, tokens = body ++ [finish] ∧ finish.kind = .endOfInput ∧
      tokens.takeWhile (!·.isEnd) = body := by
  obtain ⟨-, rfl⟩ := tokensFrom_eq_ok_iff.mp scanned
  refine ⟨_, _, rfl, rfl, ?_⟩
  rw [List.takeWhile_append_of_pos]
  · exact List.append_nil _
  · intro t member
    have other := kind_ne_of_mem_formed t member
    unfold isEnd
    split
    · exact absurd ‹_› other
    · rfl

theorem exists_isEnd_of_tokenize {source : String} {tokens : List Token}
    (scanned : tokenize source = .ok tokens) : ∃ t ∈ tokens, t.isEnd = true := by
  obtain ⟨body, finish, rfl, isEnd, -⟩ := tokenize_ends scanned
  exact ⟨finish, List.mem_append_right _ (List.mem_singleton.mpr rfl), by rw [Token.isEnd, isEnd]⟩

/-! ## Joining -/

/-- The tokens of a text that starts at a position and has no faults. -/
def Scans (p : Position) (text : List Char) (tokens : List Token) : Prop :=
  (∀ s ∈ Segment.split text, s.fault? = none) ∧ tokens = formed p (Segment.split text)

theorem tokenize_eq_ok_iff {source : String} {tokens : List Token} : tokenize source = .ok tokens ↔
    ∃ body, Scans {} source.toList body ∧
      tokens = body ++ [endAt (({} : Position).after source.toList)] := by
  unfold tokenize Scans
  rw [tokensFrom_eq_ok_iff, Segment.flatMap_text_split]
  constructor
  · rintro ⟨clean, rfl⟩
    exact ⟨_, ⟨clean, rfl⟩, rfl⟩
  · rintro ⟨_, ⟨clean, rfl⟩, rfl⟩
    exact ⟨clean, rfl⟩

theorem isProper_of_tokenize {source : String} {tokens : List Token}
    (scanned : tokenize source = .ok tokens) : ∀ t ∈ tokens, t.span.IsProper := by
  obtain ⟨body, ⟨-, rfl⟩, rfl⟩ := tokenize_eq_ok_iff.mp scanned
  intro t member
  rcases List.mem_append.mp member with member | member
  · exact isProper_of_mem_formed t member
  · rw [List.mem_singleton.mp member]
    exact Position.isProper_span []

/-- A text starts with its first segment. -/
theorem scans_cons_iff {p : Position} {c : Char} {rest : List Char} {tokens : List Token}
    {kind : Segment.Kind} {length : Nat} (first : Segment.first c rest = (kind, length)) :
    Scans p (c :: rest) tokens ↔ Segment.fault? ⟨kind, c :: rest.take length⟩ = none ∧
      ∃ others, Scans (p.after (c :: rest.take length)) (rest.drop length) others ∧
        tokens = (Segment.token? ⟨kind, c :: rest.take length⟩ p).toList ++ others := by
  unfold Scans
  rw [Segment.split, first]
  simp only [List.forall_mem_cons, formed]
  constructor
  · rintro ⟨⟨noFault, clean⟩, rfl⟩
    exact ⟨noFault, _, ⟨clean, rfl⟩, rfl⟩
  · rintro ⟨noFault, _, ⟨clean, rfl⟩, rfl⟩
    exact ⟨⟨noFault, clean⟩, rfl⟩

theorem scans_moved (bytes lines : Nat) {p : Position} {text : List Char} {tokens : List Token}
    (scans : Scans p text tokens) :
    Scans (p.moved bytes lines) text (tokens.map (respan (Span.moved bytes lines))) := by
  obtain ⟨clean, rfl⟩ := scans
  exact ⟨clean, (formed_moved _).symm⟩

theorem take_length_takeWhile (test : Char → Bool) (text : List Char) :
    text.take (text.takeWhile test).length = text.takeWhile test :=
  (List.prefix_iff_eq_take.mp (List.takeWhile_prefix test)).symm

theorem drop_length_takeWhile (test : Char → Bool) (text : List Char) :
    text.drop (text.takeWhile test).length = text.dropWhile test := by
  have joined : text.takeWhile test ++ text.drop (text.takeWhile test).length =
      text.takeWhile test ++ text.dropWhile test := by
    rw [List.takeWhile_append_dropWhile]
    conv_lhs =>
      arg 1
      rw [← take_length_takeWhile]
    exact List.take_append_drop ..
  exact List.append_cancel_left joined

/-- Blanks in front can be dropped, one by one. -/
theorem scans_blank_iff {p : Position} {c : Char} {rest : List Char} {tokens : List Token}
    (blank : Segment.isBlank c = true) :
    Scans p (c :: rest) tokens ↔ Scans (p.advance c) rest tokens := by
  have skip {p : Position} {c : Char} (blank : Segment.isBlank c = true) (rest : List Char) :
      Scans p (c :: rest) tokens ↔ Scans ((p.advance c).after (rest.takeWhile Segment.isBlank))
        (rest.dropWhile Segment.isBlank) tokens := by
    have first : Segment.first c rest = (.blank, (rest.takeWhile Segment.isBlank).length) := by
      unfold Segment.first
      rw [if_pos blank]
    rw [scans_cons_iff first, take_length_takeWhile, drop_length_takeWhile]
    exact ⟨fun ⟨_, _, scans, same⟩ => same ▸ scans, fun scans => ⟨rfl, _, scans, rfl⟩⟩
  cases rest with
  | nil => exact skip blank []
  | cons d rest =>
    by_cases blank' : Segment.isBlank d = true
    · rw [skip blank, skip blank', List.takeWhile_cons_of_pos blank',
        List.dropWhile_cons_of_pos blank']
      rfl
    · rw [skip blank, List.takeWhile_cons_of_neg blank', List.dropWhile_cons_of_neg blank']
      rfl

section LineFeed

variable {test : Char → Bool} {text more : List Char}

/-- A line feed ends a run of characters that are not line feeds. -/
theorem takeWhile_lineFeed (stops : test '\n' = false) :
    (text ++ '\n' :: more).takeWhile test = text.takeWhile test := by
  induction text with
  | nil => exact List.takeWhile_cons_of_neg (by simp [stops])
  | cons c rest inductionHypothesis =>
    by_cases goesOn : test c = true
    · rw [List.cons_append, List.takeWhile_cons_of_pos goesOn, List.takeWhile_cons_of_pos goesOn,
        inductionHypothesis]
    · rw [List.cons_append, List.takeWhile_cons_of_neg goesOn, List.takeWhile_cons_of_neg goesOn]

theorem cons_of_lineFeed {c : Char} {rest : List Char} (shape : text ++ '\n' :: more = c :: rest)
    (other : c ≠ '\n') : ∃ tail, text = c :: tail := by
  cases text with
  | nil => exact absurd (List.cons.inj shape).1.symm other
  | cons d tail => exact ⟨tail, by rw [(List.cons.inj shape).1]⟩

theorem length_takeWhile_le (test : Char → Bool) (text : List Char) :
    (text.takeWhile test).length ≤ text.length :=
  (List.takeWhile_prefix test).length_le

theorem numberTail_lineFeed :
    Segment.numberTail (text ++ '\n' :: more) = Segment.numberTail text := by
  unfold Segment.numberTail
  rw [takeWhile_lineFeed (by decide)]
  dsimp only
  rw [List.drop_append_of_le_length (length_takeWhile_le _ text)]
  cases text.drop (text.takeWhile Char.isDigit).length with
  | nil => rfl
  | cons d fraction =>
    rw [List.cons_append]
    split
    · rename_i fraction' shape
      obtain ⟨rfl, rfl⟩ := List.cons.inj shape
      rw [takeWhile_lineFeed (by decide)]
      rfl
    · rename_i other
      split
      · rename_i shape
        obtain ⟨rfl, -⟩ := List.cons.inj shape
        exact absurd rfl (other _)
      · rfl

theorem numberTail_le (text : List Char) : Segment.numberTail text ≤ text.length := by
  have whole := length_takeWhile_le Char.isDigit text
  unfold Segment.numberTail
  dsimp only
  split
  · rename_i fraction shape
    have parts := congrArg List.length shape
    have places := length_takeWhile_le Char.isDigit fraction
    rw [List.length_drop, List.length_cons] at parts
    split <;> omega
  · exact whole

theorem commentLength_append (more : List Char) {length : Nat}
    (closed : Segment.commentLength? text = some length) :
    Segment.commentLength? (text ++ more) = some length ∧ length ≤ text.length := by
  fun_induction Segment.commentLength? text generalizing length with
  | case1 rest =>
    cases closed
    exact ⟨rfl, by simp⟩
  | case2 c rest other inductionHypothesis =>
    obtain ⟨shorter, closedLater, rfl⟩ := Option.map_eq_some_iff.mp closed
    obtain ⟨same, le⟩ := inductionHypothesis closedLater
    refine ⟨?_, Nat.succ_le_succ le⟩
    rw [List.cons_append, Segment.commentLength?.eq_2, same]
    · rfl
    · intro rest' rfl shape
      cases rest with
      | nil => cases closedLater
      | cons d rest =>
        obtain ⟨rfl, -⟩ := List.cons.inj shape
        exact other rest rfl rfl
  | case3 => cases closed

/-- A symbol grows by an equals sign only. -/
theorem symbol_lineFeed {mark : Symbol} {kind : Segment.Kind} {length : Nat}
    (found : (match mark.withEqual?, text with
      | some longer, '=' :: _ => (Segment.Kind.symbol longer, 1)
      | _, _ => (.symbol mark, 0)) = (kind, length)) :
    (match mark.withEqual?, text ++ '\n' :: more with
      | some longer, '=' :: _ => (Segment.Kind.symbol longer, 1)
      | _, _ => (.symbol mark, 0)) = (kind, length) ∧ length ≤ text.length := by
  split at found
  · rename_i longer
    cases found
    rw [longer]
    exact ⟨rfl, Nat.le_add_left 1 _⟩
  · rename_i narrow
    cases found
    refine ⟨?_, Nat.zero_le _⟩
    split
    · rename_i longer shape
      obtain ⟨_, shape⟩ := cons_of_lineFeed shape (by decide)
      exact absurd shape (narrow _ _ longer)
    · rfl

end LineFeed

/-- A line feed behind a text changes nothing about its first segment, unless that is a blank
one. -/
theorem first_lineFeed {c : Char} {rest : List Char} (more : List Char) {kind : Segment.Kind}
    {length : Nat}
    (first : Segment.first c rest = (kind, length)) (noBlank : ¬Segment.isBlank c = true)
    (noFault : Segment.fault? ⟨kind, c :: rest.take length⟩ = none) :
    Segment.first c (rest ++ '\n' :: more) = (kind, length) ∧ length ≤ rest.length := by
  unfold Segment.first at first ⊢
  rw [if_neg noBlank] at first ⊢
  by_cases quote : (c == '"') = true
  · rw [if_pos quote] at first ⊢
    cases found : rest.findIdx? (· == '"') with
    | none =>
      rw [found] at first
      cases first
      cases noFault
    | some index =>
      rw [found] at first
      cases first
      rw [List.findIdx?_append, found]
      exact ⟨rfl, (List.findIdx?_eq_some_iff_getElem.mp found).1⟩
  rw [if_neg quote] at first ⊢
  by_cases digit : c.isDigit = true
  · rw [if_pos digit] at first ⊢
    cases first
    exact ⟨by rw [numberTail_lineFeed], numberTail_le rest⟩
  rw [if_neg digit] at first ⊢
  by_cases word : Segment.startsWord c = true
  · rw [if_pos word] at first ⊢
    cases first
    exact ⟨by rw [takeWhile_lineFeed (by decide)], length_takeWhile_le _ rest⟩
  rw [if_neg word] at first ⊢
  split at first
  · cases first
    refine ⟨?_, length_takeWhile_le _ _⟩
    rw [takeWhile_lineFeed (by decide)]
    rfl
  · rename_i inside
    cases closed : Segment.commentLength? inside with
    | none =>
      rw [closed] at first
      cases first
      cases noFault
    | some length =>
      rw [closed] at first
      cases first
      obtain ⟨same, le⟩ := commentLength_append ('\n' :: more) closed
      exact ⟨by simp [same], Nat.succ_le_succ le⟩
  · rename_i noComment noBlock
    cases mark : Symbol.ofChar? c with
    | none =>
      rw [mark] at first
      cases first
      cases noFault
    | some mark =>
      rw [mark] at first
      split
      · exact absurd (cons_of_lineFeed ‹_› (by decide)) fun ⟨_, shape⟩ => noComment _ rfl shape
      · exact absurd (cons_of_lineFeed ‹_› (by decide)) fun ⟨_, shape⟩ => noBlock _ rfl shape
      · exact symbol_lineFeed first

theorem Scans.join {p : Position} {text more : List Char} {tokens others : List Token}
    (scans : Scans p text tokens) (behind : Scans (p.after (text ++ ['\n'])) more others) :
    Scans p (text ++ '\n' :: more) (tokens ++ others) := by
  induction size : text.length using Nat.strong_induction_on generalizing p text tokens with
  | _ _ inductionHypothesis =>
    subst size
    cases text with
    | nil =>
      obtain ⟨-, rfl⟩ := scans
      rw [Segment.split]
      exact (scans_blank_iff rfl).mpr behind
    | cons c rest =>
      by_cases blank : Segment.isBlank c = true
      · exact (scans_blank_iff blank).mpr
          (inductionHypothesis _ (Nat.lt_succ_self _) ((scans_blank_iff blank).mp scans) behind rfl)
      · obtain ⟨kind, length, first⟩ : ∃ kind length, Segment.first c rest = (kind, length) :=
          ⟨_, _, rfl⟩
        obtain ⟨noFault, following, scansLater, rfl⟩ := (scans_cons_iff first).mp scans
        obtain ⟨first, short⟩ := first_lineFeed more first blank noFault
        have place : p.after (c :: rest ++ ['\n']) =
            (p.after (c :: rest.take length)).after (rest.drop length ++ ['\n']) := by
          rw [← Position.after_append, List.cons_append, List.cons_append, ← List.append_assoc,
            List.take_append_drop]
        rw [place] at behind
        refine (scans_cons_iff first).mpr ?_
        rw [List.take_append_of_le_length short, List.drop_append_of_le_length short]
        have shorter : (rest.drop length).length < (c :: rest).length := by
          rw [List.length_drop, List.length_cons]
          omega
        exact ⟨noFault, _, inductionHypothesis _ shorter scansLater behind rfl,
          List.append_assoc ..⟩

/-- The tokens of two texts with a line feed between them. -/
theorem tokenize_join {first second : String} {tokens others : List Token}
    (scanned : tokenize first = .ok tokens) (scannedOthers : tokenize second = .ok others) :
    tokenize (first ++ "\n" ++ second) = .ok (tokens.takeWhile (!·.isEnd) ++
      others.map (respan (Span.behind first))) := by
  obtain ⟨body, finish, shape, -, same⟩ := tokenize_ends scanned
  obtain ⟨body', scans, rfl⟩ := tokenize_eq_ok_iff.mp scanned
  obtain ⟨others, scansOthers, rfl⟩ := tokenize_eq_ok_iff.mp scannedOthers
  obtain ⟨rfl, -⟩ := List.append_inj' shape rfl
  rw [same, tokenize_eq_ok_iff, Span.behind, ← String.utf8Len_toList]
  have text : (first ++ "\n" ++ second).toList = first.toList ++ '\n' :: second.toList := by
    rw [String.toList_append, String.toList_append, List.append_assoc]
    rfl
  have place := Position.after_lineFeed first.toList
  have behind := scans_moved (String.utf8Len first.toList + 1) (first.toList.count '\n' + 1)
    scansOthers
  rw [← place] at behind
  have finish : ({} : Position).after (first.toList ++ '\n' :: second.toList) =
      (({} : Position).after second.toList).moved (String.utf8Len first.toList + 1)
        (first.toList.count '\n' + 1) := by
    rw [List.append_cons, Position.after_append, place, Position.after_moved]
  rw [text]
  refine ⟨_, scans.join behind, ?_⟩
  rw [finish, List.map_append, List.append_assoc]
  rfl

end Token

end Lox
