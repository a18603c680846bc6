import Lox.Proofs.Grammar.Acceptance
import Lox.Proofs.Grammar.Derivation
import Lox.Proofs.Grammar.Programs
import Lox.Proofs.Token.Joining

set_option autoImplicit false

/-!
# The language that is read

The words that spell programs are those that can be derived from the grammar, so the grammar says
which token lists are read. The rules of the grammar leave open which statement a branch belongs to,
and the rules for spelling settle it: a branch behind an open statement goes to the innermost one.
-/

namespace Lox

namespace Grammar

def Level.category : Level → Category
  | .or => .logicOr
  | .and => .logicAnd
  | .equality => .equality
  | .comparison => .comparison
  | .term => .term
  | .factor => .factor

def Tier.category : Tier → Category
  | .assignment => .assignment
  | .operators level => level.category
  | .unary => .unary
  | .call => .call
  | .primary => .primary

def Level.terminals : Level → List Terminal
  | .or => [.keyword .or]
  | .and => [.keyword .and]
  | .equality => [.symbol .bangEqual, .symbol .equalEqual]
  | .comparison => [.symbol .greater, .symbol .greaterEqual, .symbol .less, .symbol .lessEqual]
  | .term => [.symbol .minus, .symbol .plus]
  | .factor => [.symbol .slash, .symbol .star]

theorem Level.rule_category (level : Level) :
    level.category.rule = .chain (.category level.operandTier.category) level.terminals := by
  cases level <;> rfl

theorem Level.exists_operator_iff {level : Level} {kind : Token.Kind} :
    (∃ op, level.operator? kind = some op) ↔
      ∃ terminal ∈ level.terminals, terminal.Matches kind := by
  constructor
  · rintro ⟨op, found⟩
    unfold Level.operator? at found
    split at found <;> simp_all [Level.terminals, Terminal.Matches]
  · rintro ⟨terminal, member, found⟩
    cases level <;> simp only [Level.terminals, List.mem_cons, List.not_mem_nil, or_false] at member
    case or | and =>
      subst member
      cases found
      exact ⟨_, rfl⟩
    case equality | term | factor =>
      rcases member with rfl | rfl <;> cases found <;> exact ⟨_, rfl⟩
    case comparison =>
      rcases member with rfl | rfl | rfl | rfl <;> cases found <;> exact ⟨_, rfl⟩

/-! ## Spelled words can be derived -/

namespace Derives

variable {category : Category} {p q : Phrase} {w v : List Token}

/-- The first part of a rule that goes on with many others. -/
theorem start (rule : category.rule = .sequence [p, .many q]) (derives : Derives p w) :
    Derives (.category category) w := by
  rw [← List.append_nil w]
  exact .category (rule ▸ .seq derives (last_of_sequence .done))

/-- One more part at the end of what such a rule builds. -/
theorem extend (rule : category.rule = .sequence [p, .many q])
    (derives : Derives (.category category) w) (added : Derives q v) :
    Derives (.category category) (w ++ v) := by
  cases derives with
  | category derives =>
    rw [rule] at derives
    cases derives with
    | @seq _ _ u _ first rest =>
      cases rest with
      | @seq _ _ t _ others ended =>
        cases ended
        rw [List.append_nil, List.append_assoc]
        exact .category (rule ▸ .seq first (last_of_sequence (others.snoc added)))

theorem expression (derives : Derives (.category .assignment) w) :
    Derives (.category .expression) w :=
  .category derives

end Derives

theorem derives_tighter {tier tier' : Tier} {w : List Token} (below : tier.tighter? = some tier')
    (derives : Derives (.category tier'.category) w) : Derives (.category tier.category) w := by
  cases tier with
  | primary => cases below
  | call =>
    cases below
    exact .start rfl derives
  | unary =>
    cases below
    exact .choice rfl (by decide) derives
  | operators level =>
    cases below
    exact .start level.rule_category derives
  | assignment =>
    cases below
    exact .choice rfl (by decide) derives

theorem derives_literal {token : Token} {value : Literal}
    (found : literal? token.kind = some value) :
    Derives (.category .primary) [token] := by
  unfold literal? at found
  split at found
  · exact .choice rfl (by decide) (.token ‹_› : Derives (.keyword .nil) _)
  · exact .choice rfl (by decide) (.token ‹_› : Derives (.keyword .true) _)
  · exact .choice rfl (by decide) (.token ‹_› : Derives (.keyword .false) _)
  · exact .choice rfl (by decide) (.token ⟨_, ‹_›⟩ : Derives (.token .number) _)
  · exact .choice rfl (by decide) (.token ⟨_, ‹_›⟩ : Derives (.token .string) _)
  · cases found

theorem derives_unaryOperator {token : Token} {op : UnaryOp}
    (found : unaryOperator? token.kind = some op) :
    Derives (.oneOf [.symbol .bang, .symbol .minus]) [token] := by
  unfold unaryOperator? at found
  split at found
  · exact .left (.token ‹_›)
  · exact .right (.left (.token ‹_›))
  · cases found

mutual

theorem Spells.derives : ∀ {tier : Tier} {i j : ExprId} {w : List Token} {e : Expr},
    Spells tier i w e j → Derives (.category tier.category) w
  | _, _, _, _, _, .tighter below inner => derives_tighter below inner.derives
  | _, _, _, _, _, .assign target equal value =>
    .category
      (.left (.seq .absent (.next ⟨_, target⟩ (.next equal (.last_of_sequence value.derives)))))
  | _, _, _, _, _, .set object dot field equal value => by
    rw [List.append_cons]
    exact .category (.left (.seq (.present (.seq object.derives (.next dot .empty)))
      (.next ⟨_, field⟩ (.next equal (.last_of_sequence value.derives)))))
  | _, _, _, _, _, .operator left found right => by
    obtain ⟨terminal, member, found⟩ := Level.exists_operator_iff.mp ⟨_, found⟩
    refine left.derives.extend (Level.rule_category _) ?_
    exact .seq (.oneOf (List.mem_map_of_mem member) (.token found))
      (.last_of_sequence right.derives)
  | _, _, _, _, _, .unary found operand =>
    .category (.left (.seq (derives_unaryOperator found) (.last_of_sequence operand.derives)))
  | _, _, _, _, _, .call callee opening closing =>
    callee.derives.extend rfl (.left (.next opening (.seq .absent (.next closing .empty))))
  | _, _, _, _, _, .callWith callee opening args few closing =>
    callee.derives.extend rfl (.left (.next opening
      (.seq (.present (.category (args.derives few))) (.next closing .empty))))
  | _, _, _, _, _, .get object dot field =>
    object.derives.extend rfl (.right (.left (.next dot (.next ⟨_, field⟩ .empty))))
  | _, _, _, _, _, .literal found => derives_literal found
  | _, _, _, _, _, .ref found => .choice rfl (by decide) (.token ⟨_, found⟩ : Derives .identifier _)
  | _, _, _, _, _, .this found =>
    .choice rfl (by decide) (.token found : Derives (.keyword .this) _)
  | _, _, _, _, _, .super found dot method =>
    .choice (p := .sequence [.keyword .super, .symbol .dot, .identifier]) rfl (by decide)
      (.next found (.next dot (.next ⟨_, method⟩ .empty)))
  | _, _, _, _, _, .group opening inner closing =>
    .choice (p := .sequence [.symbol .leftParen, .category .expression, .symbol .rightParen]) rfl
      (by decide) (.next opening (.seq inner.derives.expression (.next closing .empty)))

theorem SpellsArguments.derives : ∀ {i j : ExprId} {w : List Token} {args : List Expr},
    SpellsArguments i w args j → ∀ {most : Nat}, args.length ≤ most →
      Derives (.list most (.category .expression)) w
  | _, _, _, _, .last value, _ + 1, _ => .last value.derives.expression
  | _, _, _, _, .cons value comma rest, _ + 1, few =>
    .entry value.derives.expression comma (rest.derives (Nat.le_of_succ_le_succ few))

end

section Clauses

variable {i j k l : ExprId} {w : List Token}

theorem SpellsOption.derives {value : Option Expr} (spells : SpellsOption i w value j) :
    Derives (.maybe (.category .expression)) w := by
  cases spells with
  | none => exact .absent
  | some value => exact .present value.derives.expression

theorem SpellsCondition.derives {keyword : Token} {condition : Expr}
    (spells : SpellsCondition keyword i w j k condition l) :
    Derives (.maybe (.category .expression)) w := by
  obtain ⟨value, spells, -⟩ := option_of_spellsCondition spells
  exact spells.derives

theorem SpellsVariable.derives {keyword : Token} {s : Stmt}
    (keywordKind : keyword.kind = .keyword .var)
    (spells : SpellsVariable i w s j) : Derives (.category .varDeclaration) (keyword :: w) := by
  cases spells with
  | bare found semicolon =>
    exact .category (.next keywordKind (.next ⟨_, found⟩ (.seq .absent (.next semicolon .empty))))
  | @initialized _ token equal semicolon _ v initial found equalKind value semicolonKind =>
    have initial : Derives (.maybe (.sequence [.symbol .equal, .category .expression]))
        (equal :: v) :=
      .present (.next equalKind (.last_of_sequence value.derives.expression))
    exact .category
      (.next keywordKind (.next ⟨_, found⟩ (.seq initial (.next semicolonKind .empty))))

theorem derives_expressionStatement {semicolon : Token} {value : Expr}
    (spells : Spells .assignment i w value j)
    (semicolonKind : semicolon.kind = .symbol .semicolon) :
    Derives (.category .expressionStatement) (w ++ [semicolon]) :=
  .category (.seq spells.derives.expression (.next semicolonKind .empty))

theorem SpellsInitial.derives {initial : Option Stmt} (spells : SpellsInitial i w initial j) :
    Derives (.oneOf [.category .varDeclaration, .category .expressionStatement, .symbol .semicolon])
      w := by
  cases spells with
  | none semicolon => exact .right (.right (.left (.token semicolon)))
  | var keyword declared => exact .left (declared.derives keyword)
  | expr value semicolon => exact .right (.left (derives_expressionStatement value semicolon))

theorem SpellsSuperclass.derives {superclass : Option Reference}
    (spells : SpellsSuperclass i w superclass j) :
    Derives (.maybe (.sequence [.symbol .less, .identifier])) w := by
  cases spells with
  | none => exact .absent
  | some less found => exact .present (.next less (.next ⟨_, found⟩ .empty))

theorem SpellsNames.derives {params : List Ident} (spells : SpellsNames w params) {most : Nat}
    (few : params.length ≤ most) : Derives (.list most .identifier) w := by
  induction spells generalizing most with
  | last found =>
    obtain ⟨most, rfl⟩ := Nat.exists_eq_add_one.mpr few
    exact .last (.token ⟨_, found⟩)
  | cons found comma _ inductionHypothesis =>
    obtain ⟨most, rfl⟩ := Nat.exists_eq_add_one.mpr (Nat.zero_lt_of_lt few)
    have name : Derives .identifier [_] := .token ⟨_, found⟩
    exact .entry name comma (inductionHypothesis (Nat.le_of_succ_le_succ few))

theorem SpellsParameters.derives {params : List Ident} (spells : SpellsParameters w params) :
    Derives (.maybe (.category .parameters)) w := by
  cases spells with
  | none => exact .absent
  | some names few => exact .present (.category (names.derives few))

/-- Declarations between braces. -/
theorem derives_block {opening closing : Token} (openingKind : opening.kind = .symbol .leftBrace)
    (derives : Derives (.many (.category .declaration)) w)
    (closingKind : closing.kind = .symbol .rightBrace) :
    Derives (.category .block) (opening :: (w ++ [closing])) :=
  .category (.next openingKind (.seq derives (.next closingKind .empty)))

theorem derives_if {keyword opening closing : Token} {v : List Token}
    (keywordKind : keyword.kind = .keyword .if) (openingKind : opening.kind = .symbol .leftParen)
    (condition : Derives (.category .assignment) w)
    (closingKind : closing.kind = .symbol .rightParen) (yes : Derives (.category .statement) v) :
    Derives (.category .ifStatement) (keyword :: opening :: (w ++ closing :: v)) := by
  rw [← List.append_nil v]
  exact .category (.next keywordKind (.next openingKind (.seq condition.expression
    (.next closingKind (.seq yes (.last_of_sequence .absent))))))

end Clauses

mutual

theorem SpellsStatement.derives : ∀ {isOpen : Bool} {i j : ExprId} {w : List Token} {s : Stmt},
    SpellsStatement isOpen i w s j → Derives (.category .statement) w
  | _, _, _, _, _, .expr value semicolon =>
    .choice rfl (by decide) (derives_expressionStatement value semicolon)
  | _, _, _, _, _, .print keyword value semicolon =>
    .choice rfl (by decide) (.category (.next keyword (.seq value.derives.expression
      (.next semicolon .empty))) : Derives (.category .printStatement) _)
  | _, _, _, _, _, .return keyword value semicolon =>
    .choice rfl (by decide) (.category (.next keyword (.seq value.derives
      (.next semicolon .empty))) : Derives (.category .returnStatement) _)
  | _, _, _, _, _, .block opening body closing =>
    .choice rfl (by decide) (derives_block opening body.derives closing)
  | _, _, _, _, _, .while keyword opening condition closing body =>
    .choice rfl (by decide) (.category (.next keyword (.next opening
      (.seq condition.derives.expression (.next closing (.last_of_sequence body.derives))))) :
        Derives (.category .whileStatement) _)
  | _, _, _, _, _, .if keyword opening condition closing yes =>
    .choice rfl (by decide) (derives_if keyword opening condition.derives closing yes.derives)
  | _, _, _, _, _, .ifElse keyword opening condition closing yes otherwise no =>
    .choice rfl (by decide) (.category (.next keyword (.next opening
      (.seq condition.derives.expression (.next closing (.seq yes.derives
        (.last_of_sequence (.present (.next otherwise (.last_of_sequence no.derives))))))))) :
          Derives (.category .ifStatement) _)
  | _, _, _, _, _, .for keyword opening initial condition semicolon increment closing body =>
    .choice rfl (by decide) (.category (.next keyword (.next opening (.seq initial.derives
      (.seq condition.derives (.next semicolon (.seq increment.derives (.next closing
        (.last_of_sequence body.derives)))))))) : Derives (.category .forStatement) _)

theorem SpellsDeclaration.derives : ∀ {i j : ExprId} {w : List Token} {s : Stmt},
    SpellsDeclaration i w s j → Derives (.category .declaration) w
  | _, _, _, _, .class keyword found superclass opening methods closing =>
    .category (.left (.next keyword (.next ⟨_, found⟩ (.seq superclass.derives (.next opening
      (.seq methods.derives (.next closing .empty)))))))
  | _, _, _, _, .fun keyword routine =>
    .category (.right (.left (.next keyword (.last_of_sequence routine.derives))))
  | _, _, _, _, .var keyword declared => .choice rfl (by decide) (declared.derives keyword)
  | _, _, _, _, .statement statement => .choice rfl (by decide) statement.derives

theorem SpellsRoutine.derives : ∀ {i j : ExprId} {w : List Token} {routine : Routine (List Stmt)},
    SpellsRoutine i w routine j → Derives (.category .function) w
  | _, _, _, _, .mk found opening params closing brace body last =>
    .category (.next ⟨_, found⟩ (.next opening (.seq params.derives (.next closing
      (.last_of_sequence (derives_block brace body.derives last))))))

theorem SpellsMethods.derives :
    ∀ {i j : ExprId} {w : List Token} {methods : List (Routine (List Stmt))},
    SpellsMethods i w methods j → Derives (.many (.category .function)) w
  | _, _, _, _, .nil => .done
  | _, _, _, _, .cons first rest => .more first.derives rest.derives

theorem SpellsDeclarations.derives : ∀ {i j : ExprId} {w : List Token} {program : List Stmt},
    SpellsDeclarations i w program j → Derives (.many (.category .declaration)) w
  | _, _, _, _, .nil => .done
  | _, _, _, _, .cons first rest => .more first.derives rest.derives

end

/-! ## Derivable words are spelled

What a word spells depends on the number it starts at, and whether it spells something does not. -/

def Tier.Spelled (tier : Tier) (w : List Token) : Prop :=
  ∀ i, ∃ e j, Spells tier i w e j

def StatementSpelled (w : List Token) : Prop :=
  ∀ i, ∃ isOpen s j, SpellsStatement isOpen i w s j

def DeclarationsSpelled (w : List Token) : Prop :=
  ∀ i, ∃ program j, SpellsDeclarations i w program j

/-- The words that spell what a category is about. -/
def Category.Spelled : Category → List Token → Prop
  | .program, w => ∃ v finish, DeclarationsSpelled v ∧ finish.kind = .endOfInput ∧ w = v ++ [finish]
  | .declaration, w => ∀ i, ∃ s j, SpellsDeclaration i w s j
  | .varDeclaration, w => ∃ keyword v, keyword.kind = .keyword .var ∧
    (∀ i, ∃ s j, SpellsVariable i v s j) ∧ w = keyword :: v
  | .function, w => ∀ i, ∃ routine j, SpellsRoutine i w routine j
  | .parameters, w => ∃ params, SpellsNames w params ∧ params.length ≤ maxArguments
  | .block, w => ∃ opening v closing, opening.kind = .symbol .leftBrace ∧ DeclarationsSpelled v ∧
    closing.kind = .symbol .rightBrace ∧ w = opening :: (v ++ [closing])
  | .expressionStatement, w => ∃ v semicolon, Tier.assignment.Spelled v ∧
    semicolon.kind = .symbol .semicolon ∧ w = v ++ [semicolon]
  | .statement, w | .forStatement, w | .ifStatement, w | .printStatement, w | .returnStatement, w
  | .whileStatement, w => StatementSpelled w
  | .arguments, w => ∀ i, ∃ args j, SpellsArguments i w args j ∧ args.length ≤ maxArguments
  | .expression, w | .assignment, w => Tier.assignment.Spelled w
  | .logicOr, w => (Tier.operators .or).Spelled w
  | .logicAnd, w => (Tier.operators .and).Spelled w
  | .equality, w => (Tier.operators .equality).Spelled w
  | .comparison, w => (Tier.operators .comparison).Spelled w
  | .term, w => (Tier.operators .term).Spelled w
  | .factor, w => (Tier.operators .factor).Spelled w
  | .unary, w => Tier.unary.Spelled w
  | .call, w => Tier.call.Spelled w
  | .primary, w => Tier.primary.Spelled w

theorem Tier.spelled_of_tighter {tier tier' : Tier} {w : List Token}
    (below : tier.tighter? = some tier') (spelled : tier'.Spelled w) : tier.Spelled w := by
  intro i
  obtain ⟨e, j, spells⟩ := spelled i
  exact ⟨e, j, .tighter below spells⟩

/-- What follows an expression, part by part, associates to the left. -/
theorem Tier.spelled_flatten {tier : Tier} {parts : List (List Token)}
    (grows : ∀ part ∈ parts, ∀ w, tier.Spelled w → tier.Spelled (w ++ part)) {w : List Token}
    (spelled : tier.Spelled w) : tier.Spelled (w ++ parts.flatten) := by
  induction parts generalizing w with
  | nil => simpa using spelled
  | cons part rest inductionHypothesis =>
    rw [List.flatten_cons, ← List.append_assoc]
    exact inductionHypothesis (fun part member => grows part (List.mem_cons_of_mem _ member))
      (grows part List.mem_cons_self w spelled)

theorem Tier.spelled_category (tier : Tier) : tier.category.Spelled = tier.Spelled := by
  cases tier with
  | operators level => cases level <;> rfl
  | assignment | unary | call | primary => rfl

section Expressions

variable {w : List Token}

theorem Level.spelled_of_words (level : Level)
    (words : level.category.rule.Words Category.Spelled w) : (Tier.operators level).Spelled w := by
  simp only [Level.rule_category, Phrase.chain, Phrase.words_sequence_cons,
    Phrase.words_sequence_nil, Phrase.words_many, Phrase.words_category, Phrase.words_oneOf,
    Tier.spelled_category] at words
  obtain ⟨u, v, first, ⟨_, _, ⟨parts, others, rfl⟩, rfl, rfl⟩, rfl⟩ := words
  rw [List.append_nil]
  refine Tier.spelled_flatten (fun part member w left i => ?_) (Tier.spelled_of_tighter rfl first)
  obtain ⟨_, _, ⟨_, isOperator, found⟩, ⟨v, _, right, rfl, rfl⟩, rfl⟩ := others part member
  obtain ⟨terminal, isTerminal, rfl⟩ := List.mem_map.mp isOperator
  obtain ⟨token, found, rfl⟩ := found
  obtain ⟨op, found⟩ := Level.exists_operator_iff.mpr ⟨terminal, isTerminal, found⟩
  obtain ⟨e, j, left⟩ := left i
  obtain ⟨e', k, right⟩ := right j
  rw [List.append_nil]
  exact ⟨_, _, .operator left found right⟩

theorem spelled_assignment (words : Category.assignment.rule.Words Category.Spelled w) :
    Tier.assignment.Spelled w := by
  simp only [Category.rule, Phrase.words_oneOf_cons, Phrase.words_oneOf_nil, or_false,
    Phrase.words_sequence_cons, Phrase.words_sequence_nil, Phrase.words_maybe,
    Phrase.words_category,
    Phrase.words_symbol, Phrase.words_identifier] at words
  rcases words with
    ⟨_, _, target, ⟨_, _, ⟨field, ⟨name, found⟩, rfl⟩, ⟨_, _, ⟨equal, equalKind, rfl⟩,
      ⟨v, _, value, rfl, rfl⟩, rfl⟩, rfl⟩, rfl⟩ | words
  · intro i
    rw [List.append_nil]
    rcases target with ⟨u, _, object, ⟨_, _, ⟨dot, dotKind, rfl⟩, rfl, rfl⟩, rfl⟩ | rfl
    · obtain ⟨e, j, object⟩ := object i
      obtain ⟨e', k, value⟩ := value (j + 1)
      rw [List.append_nil, List.append_assoc]
      exact ⟨_, _, .set object dotKind found equalKind value⟩
    · obtain ⟨e, j, value⟩ := value (i + 1)
      exact ⟨_, _, .assign found equalKind value⟩
  · exact Tier.spelled_of_tighter rfl words

theorem spelled_unary (words : Category.unary.rule.Words Category.Spelled w) :
    Tier.unary.Spelled w := by
  simp only [Category.rule, Phrase.words_oneOf_cons, Phrase.words_oneOf_nil, or_false,
    Phrase.words_sequence_cons, Phrase.words_sequence_nil, Phrase.words_category,
    Phrase.words_symbol] at words
  rcases words with ⟨_, _, operator, ⟨v, _, operand, rfl, rfl⟩, rfl⟩ | words
  · intro i
    rw [List.append_nil]
    obtain ⟨e, j, operand⟩ := operand i
    rcases operator with ⟨token, found, rfl⟩ | ⟨token, found, rfl⟩
    · exact ⟨_, _, .unary (by rw [found]; rfl) operand⟩
    · exact ⟨_, _, .unary (by rw [found]; rfl) operand⟩
  · exact Tier.spelled_of_tighter rfl words

theorem spelled_call (words : Category.call.rule.Words Category.Spelled w) :
    Tier.call.Spelled w := by
  simp only [Category.rule, Phrase.words_oneOf_cons, Phrase.words_oneOf_nil, or_false,
    Phrase.words_sequence_cons, Phrase.words_sequence_nil, Phrase.words_many, Phrase.words_maybe,
    Phrase.words_category, Phrase.words_symbol, Phrase.words_identifier] at words
  obtain ⟨u, _, first, ⟨_, _, ⟨parts, others, rfl⟩, rfl, rfl⟩, rfl⟩ := words
  rw [List.append_nil]
  refine Tier.spelled_flatten (fun part member w callee i => ?_) (Tier.spelled_of_tighter rfl first)
  obtain ⟨e, j, callee⟩ := callee i
  rcases others part member with
    ⟨_, _, ⟨opening, openingKind, rfl⟩, ⟨v, _, args, ⟨_, _, ⟨closing, closingKind, rfl⟩, rfl, rfl⟩,
      rfl⟩, rfl⟩ |
    ⟨_, _, ⟨dot, dotKind, rfl⟩, ⟨_, _, ⟨field, ⟨name, found⟩, rfl⟩, rfl, rfl⟩, rfl⟩
  · rcases args with args | rfl
    · obtain ⟨args, k, args, few⟩ := args j
      exact ⟨_, _, .callWith callee openingKind args few closingKind⟩
    · exact ⟨_, _, .call callee openingKind closingKind⟩
  · exact ⟨_, _, .get callee dotKind found⟩

theorem spelled_arguments {most : Nat} (listed : Listed Tier.assignment.Spelled most w) :
    ∀ i, ∃ args j, SpellsArguments i w args j ∧ args.length ≤ most := by
  induction listed with
  | last value =>
    intro i
    obtain ⟨e, j, value⟩ := value i
    exact ⟨[e], j, .last value, Nat.le_add_left 1 _⟩
  | cons value comma _ inductionHypothesis =>
    intro i
    obtain ⟨e, j, value⟩ := value i
    obtain ⟨args, k, rest, few⟩ := inductionHypothesis j
    exact ⟨e :: args, k, .cons value comma rest, Nat.succ_le_succ few⟩

theorem spelled_primary (words : Category.primary.rule.Words Category.Spelled w) :
    Tier.primary.Spelled w := by
  simp only [Category.rule, Phrase.words_oneOf_cons, Phrase.words_oneOf_nil, or_false,
    Phrase.words_sequence_cons, Phrase.words_sequence_nil, Phrase.words_category,
    Phrase.words_symbol,
    Phrase.words_keyword, Phrase.words_token, Terminal.Matches, Phrase.words_identifier] at words
  intro i
  rcases words with ⟨t, found, rfl⟩ | ⟨t, found, rfl⟩ | ⟨t, found, rfl⟩ | ⟨t, found, rfl⟩ |
    ⟨t, ⟨value, found⟩, rfl⟩ | ⟨t, ⟨value, found⟩, rfl⟩ | ⟨t, ⟨name, found⟩, rfl⟩ |
    ⟨_, _, ⟨opening, openingKind, rfl⟩, ⟨v, _, inner, ⟨_, _, ⟨closing, closingKind, rfl⟩, rfl, rfl⟩,
      rfl⟩, rfl⟩ |
    ⟨_, _, ⟨t, found, rfl⟩,
      ⟨_, _, ⟨dot, dotKind, rfl⟩, ⟨_, _, ⟨method, ⟨name, methodKind⟩, rfl⟩, rfl, rfl⟩, rfl⟩, rfl⟩
  · exact ⟨_, _, .literal (by rw [found]; rfl)⟩
  · exact ⟨_, _, .literal (by rw [found]; rfl)⟩
  · exact ⟨_, _, .literal (by rw [found]; rfl)⟩
  · exact ⟨_, _, .this found⟩
  · exact ⟨_, _, .literal (by rw [found]; rfl)⟩
  · exact ⟨_, _, .literal (by rw [found]; rfl)⟩
  · exact ⟨_, _, .ref found⟩
  · obtain ⟨e, j, inner⟩ := inner i
    exact ⟨_, _, .group openingKind inner closingKind⟩
  · exact ⟨_, _, .super found dotKind methodKind⟩

end Expressions

/-! ### Statements -/

section Statements

variable {w v : List Token}

theorem spelled_option (words : Tier.assignment.Spelled w ∨ w = []) (i : ExprId) :
    ∃ value j, SpellsOption i w value j := by
  rcases words with words | rfl
  · obtain ⟨_, _, value⟩ := words i
    exact ⟨_, _, .some value⟩
  · exact ⟨_, _, .none⟩

theorem condition_of_option (keyword : Token) {i j : ExprId} {value : Option Expr}
    (spells : SpellsOption i w value j) (k : ExprId) :
    ∃ condition l, SpellsCondition keyword i w j k condition l := by
  cases spells with
  | none => exact ⟨_, _, .none⟩
  | some value => exact ⟨_, _, .some value⟩

/-- A branch can be added to a statement: if the statement is open, another one is spelled. -/
def TakesBranch (otherwise : Token) (v : List Token) (isOpen : Bool) (i : ExprId)
    (w : List Token) : Prop :=
  isOpen = true → ∃ isOpen s j, SpellsStatement isOpen i (w ++ otherwise :: v) s j

/-- A branch behind an open statement goes to the innermost one. -/
theorem takesBranch {otherwise : Token} (otherwiseKind : otherwise.kind = .keyword .else)
    (no : StatementSpelled v) : ∀ {isOpen : Bool} {i j : ExprId} {w : List Token} {s : Stmt},
      SpellsStatement isOpen i w s j → TakesBranch otherwise v isOpen i w
  | _, _, _, _, _, .expr .. => nofun
  | _, _, _, _, _, .print .. => nofun
  | _, _, _, _, _, .return .. => nofun
  | _, _, _, _, _, .block .. => nofun
  | _, _, _, _, _, .while keyword opening condition closing body => by
    intro isOpen
    obtain ⟨_, _, _, body⟩ := takesBranch otherwiseKind no body isOpen
    have spells := SpellsStatement.while keyword opening condition closing body
    exact ⟨_, _, _, by simpa using spells⟩
  | _, _, _, _, _, @SpellsStatement.if isOpen _ _ _ _ _ _ _ _ _ _ keyword opening condition
      closing yes => by
    intro _
    have inner := takesBranch otherwiseKind no yes
    cases isOpen with
    | false =>
      obtain ⟨_, _, _, no⟩ := no _
      have spells := SpellsStatement.ifElse keyword opening condition closing yes otherwiseKind no
      exact ⟨_, _, _, by simpa using spells⟩
    | true =>
      obtain ⟨_, _, _, yes⟩ := inner rfl
      have spells := SpellsStatement.if keyword opening condition closing yes
      exact ⟨_, _, _, by simpa using spells⟩
  | _, _, _, _, _, .ifElse keyword opening condition closing yes between other => by
    intro isOpen
    obtain ⟨_, _, _, other⟩ := takesBranch otherwiseKind no other isOpen
    have spells := SpellsStatement.ifElse keyword opening condition closing yes between other
    exact ⟨_, _, _, by simpa using spells⟩
  | _, _, _, _, _, .for keyword opening initial condition semicolon increment closing body => by
    intro isOpen
    obtain ⟨_, _, k, body⟩ := takesBranch otherwiseKind no body isOpen
    obtain ⟨_, value, -⟩ := option_of_spellsCondition condition
    obtain ⟨_, _, condition⟩ := condition_of_option _ value k
    have spells :=
      SpellsStatement.for keyword opening initial condition semicolon increment closing body
    exact ⟨_, _, _, by simpa using spells⟩

theorem spelled_if (words : Category.ifStatement.rule.Words Category.Spelled w) :
    StatementSpelled w := by
  simp only [Category.rule, Phrase.words_sequence_cons, Phrase.words_sequence_nil,
    Phrase.words_maybe, Phrase.words_category, Phrase.words_symbol, Phrase.words_keyword] at words
  obtain ⟨_, _, ⟨keyword, keywordKind, rfl⟩, ⟨_, _, ⟨opening, openingKind, rfl⟩, ⟨u, _, condition,
    ⟨_, _, ⟨closing, closingKind, rfl⟩, ⟨v, _, yes, ⟨_, _, branch, rfl, rfl⟩, rfl⟩, rfl⟩, rfl⟩,
    rfl⟩,
    rfl⟩ := words
  intro i
  obtain ⟨_, j, condition⟩ := condition i
  obtain ⟨isOpen, _, k, yes⟩ := yes j
  rw [List.append_nil]
  rcases branch with ⟨_, _, ⟨otherwise, otherwiseKind, rfl⟩, ⟨t, _, no, rfl, rfl⟩, rfl⟩ | rfl
  · rw [List.append_nil]
    cases isOpen with
    | false =>
      obtain ⟨_, _, _, no⟩ := no k
      exact ⟨_, _, _, .ifElse keywordKind openingKind condition closingKind yes otherwiseKind no⟩
    | true =>
      obtain ⟨_, _, _, yes⟩ := takesBranch otherwiseKind no yes rfl
      exact ⟨_, _, _, .if keywordKind openingKind condition closingKind yes⟩
  · rw [List.append_nil]
    exact ⟨_, _, _, .if keywordKind openingKind condition closingKind yes⟩

theorem spelled_for (words : Category.forStatement.rule.Words Category.Spelled w) :
    StatementSpelled w := by
  simp only [Category.rule, Phrase.words_sequence_cons, Phrase.words_sequence_nil,
    Phrase.words_maybe, Phrase.words_oneOf_cons, Phrase.words_oneOf_nil, or_false,
    Phrase.words_category,
    Phrase.words_symbol, Phrase.words_keyword] at words
  obtain ⟨_, _, ⟨keyword, keywordKind, rfl⟩, ⟨_, _, ⟨opening, openingKind, rfl⟩, ⟨u, _, initial,
    ⟨t, _, condition, ⟨_, _, ⟨semicolon, semicolonKind, rfl⟩, ⟨r, _, increment, ⟨_, _, ⟨closing,
    closingKind, rfl⟩, ⟨v, _, body, rfl, rfl⟩, rfl⟩, rfl⟩, rfl⟩, rfl⟩, rfl⟩, rfl⟩, rfl⟩ := words
  intro i
  obtain ⟨initial, j, first⟩ : ∃ initial j, SpellsInitial i u initial j := by
    rcases initial with ⟨token, u, tokenKind, declared, rfl⟩ | ⟨u, token, value, tokenKind, rfl⟩ |
      ⟨token, tokenKind, rfl⟩
    · obtain ⟨_, _, declared⟩ := declared i
      exact ⟨_, _, .var tokenKind declared⟩
    · obtain ⟨_, _, value⟩ := value i
      exact ⟨_, _, .expr value tokenKind⟩
    · exact ⟨_, _, .none tokenKind⟩
  obtain ⟨value, k, second⟩ := spelled_option condition j
  obtain ⟨increment, l, third⟩ := spelled_option increment k
  obtain ⟨isOpen, _, m, body⟩ := body l
  obtain ⟨_, _, condition⟩ := condition_of_option keyword second m
  rw [List.append_nil]
  exact ⟨_, _, _, .for keywordKind openingKind first condition semicolonKind third closingKind body⟩

theorem spelled_print (words : Category.printStatement.rule.Words Category.Spelled w) :
    StatementSpelled w := by
  simp only [Category.rule, Phrase.words_sequence_cons, Phrase.words_sequence_nil,
    Phrase.words_category, Phrase.words_symbol, Phrase.words_keyword] at words
  obtain ⟨_, _, ⟨keyword, keywordKind, rfl⟩,
    ⟨u, _, value, ⟨_, _, ⟨semicolon, semicolonKind, rfl⟩, rfl, rfl⟩, rfl⟩, rfl⟩ := words
  intro i
  obtain ⟨_, _, value⟩ := value i
  exact ⟨_, _, _, .print keywordKind value semicolonKind⟩

theorem spelled_return (words : Category.returnStatement.rule.Words Category.Spelled w) :
    StatementSpelled w := by
  simp only [Category.rule, Phrase.words_sequence_cons, Phrase.words_sequence_nil,
    Phrase.words_maybe, Phrase.words_category, Phrase.words_symbol, Phrase.words_keyword] at words
  obtain ⟨_, _, ⟨keyword, keywordKind, rfl⟩,
    ⟨u, _, value, ⟨_, _, ⟨semicolon, semicolonKind, rfl⟩, rfl, rfl⟩, rfl⟩, rfl⟩ := words
  intro i
  obtain ⟨_, _, value⟩ := spelled_option value i
  exact ⟨_, _, _, .return keywordKind value semicolonKind⟩

theorem spelled_while (words : Category.whileStatement.rule.Words Category.Spelled w) :
    StatementSpelled w := by
  simp only [Category.rule, Phrase.words_sequence_cons, Phrase.words_sequence_nil,
    Phrase.words_category, Phrase.words_symbol, Phrase.words_keyword] at words
  obtain ⟨_, _, ⟨keyword, keywordKind, rfl⟩, ⟨_, _, ⟨opening, openingKind, rfl⟩, ⟨u, _, condition,
    ⟨_, _, ⟨closing, closingKind, rfl⟩, ⟨v, _, body, rfl, rfl⟩, rfl⟩, rfl⟩, rfl⟩, rfl⟩ := words
  intro i
  obtain ⟨_, j, condition⟩ := condition i
  obtain ⟨_, _, _, body⟩ := body j
  rw [List.append_nil]
  exact ⟨_, _, _, .while keywordKind openingKind condition closingKind body⟩

theorem spelled_statement (words : Category.statement.rule.Words Category.Spelled w) :
    StatementSpelled w := by
  simp only [Category.rule, Phrase.words_oneOf_cons, Phrase.words_oneOf_nil, or_false,
    Phrase.words_category] at words
  rcases words with ⟨v, semicolon, value, semicolonKind,
    rfl⟩ | words | words | words | words | words |
    ⟨opening, v, closing, openingKind, body, closingKind, rfl⟩
  · intro i
    obtain ⟨_, _, value⟩ := value i
    exact ⟨_, _, _, .expr value semicolonKind⟩
  · exact words
  · exact words
  · exact words
  · exact words
  · exact words
  · intro i
    obtain ⟨_, _, body⟩ := body i
    exact ⟨_, _, _, .block openingKind body closingKind⟩

end Statements

/-! ### Declarations -/

section Declarations

variable {w : List Token}

theorem spelled_declarations {parts : List (List Token)}
    (spelled : ∀ part ∈ parts, Category.declaration.Spelled part) :
    DeclarationsSpelled parts.flatten := by
  intro i
  induction parts generalizing i with
  | nil => exact ⟨[], i, .nil⟩
  | cons part rest inductionHypothesis =>
    rw [List.forall_mem_cons] at spelled
    obtain ⟨_, j, first⟩ := spelled.1 i
    obtain ⟨_, _, others⟩ := inductionHypothesis spelled.2 j
    exact ⟨_, _, .cons first others⟩

theorem spelled_methods {parts : List (List Token)}
    (spelled : ∀ part ∈ parts, Category.function.Spelled part) (i : ExprId) :
    ∃ methods j, SpellsMethods i parts.flatten methods j := by
  induction parts generalizing i with
  | nil => exact ⟨[], i, .nil⟩
  | cons part rest inductionHypothesis =>
    rw [List.forall_mem_cons] at spelled
    obtain ⟨_, j, first⟩ := spelled.1 i
    obtain ⟨_, _, others⟩ := inductionHypothesis spelled.2 j
    exact ⟨_, _, .cons first others⟩

theorem spelled_varDeclaration (words : Category.varDeclaration.rule.Words Category.Spelled w) :
    Category.varDeclaration.Spelled w := by
  simp only [Category.rule, Phrase.words_sequence_cons, Phrase.words_sequence_nil,
    Phrase.words_maybe, Phrase.words_category, Phrase.words_symbol, Phrase.words_keyword,
    Phrase.words_identifier] at words
  obtain ⟨_, _, ⟨keyword, keywordKind, rfl⟩, ⟨_, _, ⟨token, ⟨name, found⟩, rfl⟩, ⟨u, _, initial,
    ⟨_, _, ⟨semicolon, semicolonKind, rfl⟩, rfl, rfl⟩, rfl⟩, rfl⟩, rfl⟩ := words
  refine ⟨keyword, _, keywordKind, fun i => ?_, rfl⟩
  rcases initial with ⟨_, _, ⟨equal, equalKind, rfl⟩, ⟨v, _, value, rfl, rfl⟩, rfl⟩ | rfl
  · obtain ⟨_, _, value⟩ := value i
    rw [List.append_nil]
    exact ⟨_, _, .initialized found equalKind value semicolonKind⟩
  · exact ⟨_, _, .bare found semicolonKind⟩

theorem spelled_names {most : Nat}
    (listed : Listed (Phrase.identifier.Words Category.Spelled) most w) :
    ∃ params, SpellsNames w params ∧ params.length ≤ most := by
  induction listed with
  | last entry =>
    obtain ⟨token, ⟨name, found⟩, rfl⟩ := entry
    exact ⟨_, .last found, Nat.le_add_left 1 _⟩
  | cons entry comma _ inductionHypothesis =>
    obtain ⟨token, ⟨name, found⟩, rfl⟩ := entry
    obtain ⟨_, names, few⟩ := inductionHypothesis
    exact ⟨_, .cons found comma names, Nat.succ_le_succ few⟩

theorem spelled_function (words : Category.function.rule.Words Category.Spelled w) :
    Category.function.Spelled w := by
  simp only [Category.rule, Phrase.words_sequence_cons, Phrase.words_sequence_nil,
    Phrase.words_maybe, Phrase.words_category, Phrase.words_symbol,
    Phrase.words_identifier] at words
  obtain ⟨_, _, ⟨token, ⟨name, found⟩, rfl⟩, ⟨_, _, ⟨opening, openingKind, rfl⟩, ⟨u, _, params,
    ⟨_, _, ⟨closing, closingKind, rfl⟩, ⟨_, _, ⟨brace, v, last, braceKind, body, lastKind, rfl⟩,
    rfl, rfl⟩, rfl⟩, rfl⟩, rfl⟩, rfl⟩ := words
  obtain ⟨params, spells⟩ : ∃ params, SpellsParameters u params := by
    rcases params with ⟨params, names, few⟩ | rfl
    · exact ⟨_, .some names few⟩
    · exact ⟨_, .none⟩
  intro i
  obtain ⟨_, _, body⟩ := body i
  rw [List.append_nil]
  exact ⟨_, _, .mk found openingKind spells closingKind braceKind body lastKind⟩

theorem spelled_declaration (words : Category.declaration.rule.Words Category.Spelled w) :
    Category.declaration.Spelled w := by
  simp only [Category.rule, Phrase.words_oneOf_cons, Phrase.words_oneOf_nil, or_false,
    Phrase.words_sequence_cons, Phrase.words_sequence_nil, Phrase.words_many, Phrase.words_maybe,
    Phrase.words_category, Phrase.words_symbol, Phrase.words_keyword,
    Phrase.words_identifier] at words
  intro i
  rcases words with
    ⟨_, _, ⟨keyword, keywordKind, rfl⟩, ⟨_, _, ⟨token, ⟨name, found⟩, rfl⟩, ⟨u, _, superclass,
      ⟨_, _, ⟨opening, openingKind, rfl⟩, ⟨_, _, ⟨parts, members, rfl⟩,
      ⟨_, _, ⟨closing, closingKind, rfl⟩, rfl, rfl⟩, rfl⟩, rfl⟩, rfl⟩, rfl⟩, rfl⟩ |
    ⟨_, _, ⟨keyword, keywordKind, rfl⟩, ⟨v, _, routine, rfl, rfl⟩, rfl⟩ |
    ⟨keyword, v, keywordKind, declared, rfl⟩ | statement
  · obtain ⟨reference, j, spells⟩ : ∃ reference j, SpellsSuperclass i u reference j := by
      rcases superclass with ⟨_, _, ⟨less, lessKind, rfl⟩,
        ⟨_, _, ⟨other, ⟨text, otherFound⟩, rfl⟩, rfl, rfl⟩, rfl⟩ | rfl
      · exact ⟨_, _, .some lessKind otherFound⟩
      · exact ⟨_, _, .none⟩
    obtain ⟨_, _, methods⟩ := spelled_methods members j
    exact ⟨_, _, .class keywordKind found spells openingKind methods closingKind⟩
  · obtain ⟨_, _, routine⟩ := routine i
    rw [List.append_nil]
    exact ⟨_, _, .fun keywordKind routine⟩
  · obtain ⟨_, _, declared⟩ := declared i
    exact ⟨_, _, .var keywordKind declared⟩
  · obtain ⟨_, _, _, statement⟩ := statement i
    exact ⟨_, _, .statement statement⟩

theorem spelled_block (words : Category.block.rule.Words Category.Spelled w) :
    Category.block.Spelled w := by
  simp only [Category.rule, Phrase.words_sequence_cons, Phrase.words_sequence_nil,
    Phrase.words_many, Phrase.words_category, Phrase.words_symbol] at words
  obtain ⟨_, _, ⟨opening, openingKind, rfl⟩,
    ⟨_, _, ⟨parts, members, rfl⟩, ⟨_, _, ⟨closing, closingKind, rfl⟩, rfl, rfl⟩, rfl⟩, rfl⟩ := words
  exact ⟨opening, _, closing, openingKind, spelled_declarations members, closingKind, rfl⟩

theorem spelled_program (words : Category.program.rule.Words Category.Spelled w) :
    Category.program.Spelled w := by
  simp only [Category.rule, Phrase.words_sequence_cons, Phrase.words_sequence_nil,
    Phrase.words_many, Phrase.words_category, Phrase.words_token, Terminal.Matches] at words
  obtain ⟨_, _, ⟨parts, members, rfl⟩, ⟨_, _, ⟨finish, finishKind, rfl⟩, rfl, rfl⟩, rfl⟩ := words
  exact ⟨_, finish, spelled_declarations members, finishKind, rfl⟩

end Declarations

/-- Words that spell what a category is about are closed under the rules. -/
theorem spelled_of_words (category : Category) (w : List Token)
    (words : category.rule.Words Category.Spelled w) : category.Spelled w := by
  cases category with
  | program => exact spelled_program words
  | declaration => exact spelled_declaration words
  | varDeclaration => exact spelled_varDeclaration words
  | function => exact spelled_function words
  | parameters => exact spelled_names words
  | block => exact spelled_block words
  | statement => exact spelled_statement words
  | expressionStatement =>
    obtain ⟨v, _, value, ⟨_, _, ⟨semicolon, semicolonKind, rfl⟩, rfl, rfl⟩, rfl⟩ := words
    exact ⟨v, semicolon, value, semicolonKind, rfl⟩
  | forStatement => exact spelled_for words
  | ifStatement => exact spelled_if words
  | printStatement => exact spelled_print words
  | returnStatement => exact spelled_return words
  | whileStatement => exact spelled_while words
  | expression => exact words
  | assignment => exact spelled_assignment words
  | logicOr => exact Level.spelled_of_words .or words
  | logicAnd => exact Level.spelled_of_words .and words
  | equality => exact Level.spelled_of_words .equality words
  | comparison => exact Level.spelled_of_words .comparison words
  | term => exact Level.spelled_of_words .term words
  | factor => exact Level.spelled_of_words .factor words
  | unary => exact spelled_unary words
  | call => exact spelled_call words
  | arguments => exact spelled_arguments words
  | primary => exact spelled_primary words

/-- Programs are derivable from the grammar exactly if they are spelled. -/
theorem derives_program_iff {w : List Token} {finish : Token}
    (finishKind : finish.kind = .endOfInput)
    (i : ExprId) : Derives (.category .program) (w ++ [finish]) ↔
      ∃ program j, SpellsDeclarations i w program j := by
  constructor
  · intro derives
    obtain ⟨v, last, spelled, -, shape⟩ := derives.words spelled_of_words
    obtain ⟨rfl, -⟩ := List.append_inj' shape rfl
    exact spelled i
  · rintro ⟨program, j, spells⟩
    exact .category (.seq spells.derives (.next finishKind .empty))

end Grammar

namespace Program

/-- Reading succeeds on the token lists that the grammar derives from a program, where no list of
parameters or arguments is too long, and reports faults for all others. -/
theorem parse_accepts_grammar {source : String} {tokens : List Token}
    (scanned : Token.tokenize source = .ok tokens) (firstId : ExprId) :
    ((∃ program, (Program.parse tokens firstId).result = .ok program) ↔
        Grammar.Derives (.category .program) tokens) ∧
      (¬Grammar.Derives (.category .program) tokens →
        ∃ errors, errors ≠ [] ∧ (Program.parse tokens firstId).result = .error errors) := by
  obtain ⟨body, finish, rfl, finishKind, bodyEq⟩ := Token.tokenize_ends scanned
  have accepted : (∃ program, (Program.parse (body ++ [finish]) firstId).result = .ok program) ↔
      Grammar.Derives (.category .program) (body ++ [finish]) := by
    rw [Grammar.derives_program_iff finishKind firstId]
    constructor
    · rintro ⟨program, parsed⟩
      have spells := spells_of_parse parsed
      rw [bodyEq] at spells
      exact ⟨program, _, spells⟩
    · rintro ⟨program, j, spells⟩
      rw [← bodyEq] at spells
      exact ⟨program, congrArg Parsed.result (parse_eq_ok_iff.mpr spells)⟩
  refine ⟨accepted, fun underivable => ?_⟩
  cases parsed : (Program.parse (body ++ [finish]) firstId).result with
  | ok program => exact absurd (accepted.mp ⟨program, parsed⟩) underivable
  | error errors => exact ⟨errors, parse_error_ne_nil parsed, rfl⟩

/-- A branch behind statements inside of each other, and a list of arguments that ends with a
comma. -/
theorem parse_accepts_grammar_dangling_branch :
    (∃ tokens, Token.tokenize "if (a) while (b) if (c) d.e = f(g, 1); else for (;;) print \"h\";" =
        .ok tokens ∧ Grammar.Derives (.category .program) tokens) ∧
      ∃ tokens, Token.tokenize "if (a) f(g, 1, ); else b = c;" = .ok tokens ∧
        ¬Grammar.Derives (.category .program) tokens ∧
        ∃ errors, errors ≠ [] ∧ (Program.parse tokens 0).result = .error errors := by
  -- what reading yields is computed, and the derivations follow from it
  have reads (source : String) (accepted : Bool) (outcome : (Token.tokenize source).toOption.map
      (fun tokens => (Program.parse tokens 0).result.toOption.isSome) = some accepted) :
      ∃ tokens, Token.tokenize source = .ok tokens ∧
        (Program.parse tokens 0).result.toOption.isSome = accepted := by
    cases scanned : Token.tokenize source with
    | error fault =>
      rw [scanned] at outcome
      cases outcome
    | ok tokens =>
      rw [scanned] at outcome
      exact ⟨tokens, rfl, Option.some.inj outcome⟩
  constructor
  · obtain ⟨tokens, scanned, read⟩ := reads
      "if (a) while (b) if (c) d.e = f(g, 1); else for (;;) print \"h\";" true (by decide +kernel)
    refine ⟨tokens, scanned, (parse_accepts_grammar scanned 0).1.mp ?_⟩
    cases parsed : (Program.parse tokens 0).result with
    | ok program => exact ⟨program, rfl⟩
    | error errors =>
      rw [parsed] at read
      cases read
  · obtain ⟨tokens, scanned, read⟩ := reads "if (a) f(g, 1, ); else b = c;" false
      (by decide +kernel)
    have underivable : ¬Grammar.Derives (.category .program) tokens := by
      intro derives
      obtain ⟨program, parsed⟩ := (parse_accepts_grammar scanned 0).1.mpr derives
      rw [parsed] at read
      cases read
    exact ⟨tokens, scanned, underivable, (parse_accepts_grammar scanned 0).2 underivable⟩

end Program

end Lox
