import Lox.Proofs.Grammar.Completeness

set_option autoImplicit false

/-!
# Spelled programs are read

The readers of statements and of whole programs take the words that spell them. A statement that a
branch could be added to is read as such only if no branch follows. Declarations never start with
one, and a block or a text that ends does not go on with one.
-/

namespace Lox

namespace Grammar

theorem map_of_ok {α β : Type} {x : Read α} {s s' : State} {a : α} (f : α → β)
    (result : x s = .ok a s') : (f <$> x) s = .ok (f a) s' := by
  simp only [Functor.map, EStateM.map, result]

theorem tryCatch_of_ok {α : Type} {x : Read α} {s s' : State} {a : α}
    (handler : ParseError → Read α)
    (result : x s = .ok a s') : tryCatch x handler s = .ok a s' := by
  show EStateM.tryCatch x handler s = _
  simp only [EStateM.tryCatch, result]

section Clauses

variable {s : State} {i j : ExprId} {w r : List Token} {fuel : Nat} {e : Expr}

theorem expression_accepts (spells : Spells .assignment i w e j) (enough : 16 * w.length ≤ fuel)
    {mark : Symbol} {t : Token} (found : t.kind = .symbol mark)
    (ending : mark = .rightParen ∨ mark = .comma ∨ mark = .semicolon) :
    expression fuel (s.facing (w ++ t :: r) i) = .ok e (s.facing (t :: r) j) :=
  spells.accepts s (t :: r) fuel enough (stops_of_symbol found ending)

/-- A symbol that stands behind whole expressions starts none. -/
theorem ne_of_startsWith {kind : Token.Kind} (starts : Tier.assignment.startsWith kind = true)
    {mark : Symbol} (ending : mark = .rightParen ∨ mark = .comma ∨ mark = .semicolon) :
    kind ≠ .symbol mark := by
  rintro rfl
  rcases ending with rfl | rfl | rfl <;> cases starts

theorem expressionUnless_accepts {value : Option Expr} (spells : SpellsOption i w value j)
    (enough : 16 * w.length ≤ fuel) {mark : Symbol} {t : Token} (found : t.kind = .symbol mark)
    (ending : mark = .rightParen ∨ mark = .comma ∨ mark = .semicolon) :
    expressionUnless mark fuel (s.facing (w ++ t :: r) i) = .ok value (s.facing (t :: r) j) := by
  cases spells with
  | none =>
    rw [List.nil_append, expressionUnless, bind_of_ok (nextIs_facing found)]
    rfl
  | some spells =>
    have more : (s.facing (w ++ t :: r) i).next.kind ≠ .symbol mark := by
      obtain ⟨u, v, rfl, starts⟩ := spells.starts
      exact ne_of_startsWith starts ending
    rw [expressionUnless, bind_of_ok (nextIs_of_ne more), if_neg Bool.false_ne_true,
      bind_of_ok (expression_accepts spells enough found ending)]
    rfl

theorem varDeclaration_accepts {declared : Stmt} (spells : SpellsVariable i w declared j)
    (enough : 16 * w.length ≤ fuel) :
    varDeclaration fuel (s.facing (w ++ r) i) = .ok declared (s.facing r j) := by
  cases spells with
  | @bare token semicolon _ found semicolonKind =>
    have noEqual : (s.facing (semicolon :: r) i).next.kind ≠ .symbol .equal := by
      simp [semicolonKind]
    rw [List.cons_append, List.singleton_append, varDeclaration,
      bind_of_ok (expectIdent_facing found), bind_of_ok (accept_of_ne noEqual),
      if_neg Bool.false_ne_true, pure_bind]
    exact bind_of_ok (expect_facing semicolonKind)
  | @initialized _ token equal semicolon _ v initial found equalKind spells semicolonKind =>
    simp only [List.length_cons, List.length_append] at enough
    have value : expression fuel (s.facing (v ++ semicolon :: r) i) =
        .ok initial (s.facing (semicolon :: r) j) :=
      expression_accepts spells (by omega) semicolonKind (by simp)
    have shape : token :: equal :: (v ++ [semicolon]) ++ r =
        token :: equal :: (v ++ semicolon :: r) := by simp
    rw [shape, varDeclaration, bind_of_ok (expectIdent_facing found),
      bind_of_ok (accept_facing equalKind), if_pos rfl, bind_of_ok (map_of_ok some value)]
    exact bind_of_ok (expect_facing semicolonKind)

theorem expressionStatement_accepts (spells : Spells .assignment i w e j) {semicolon : Token}
    (semicolonKind : semicolon.kind = .symbol .semicolon) (enough : 16 * w.length ≤ fuel) :
    expressionStatement fuel (s.facing (w ++ semicolon :: r) i) = .ok (.expr e) (s.facing r j) := by
  rw [expressionStatement, bind_of_ok (expression_accepts spells enough semicolonKind (by simp)),
    bind_of_ok (expect_facing semicolonKind)]
  rfl

theorem forInitial_accepts {initial : Option Stmt} (spells : SpellsInitial i w initial j)
    (enough : 16 * w.length ≤ fuel) :
    forInitial fuel (s.facing (w ++ r) i) = .ok initial (s.facing r j) := by
  cases spells with
  | none semicolonKind =>
    rw [List.singleton_append, forInitial, bind_of_ok (accept_facing semicolonKind)]
    rfl
  | @var _ keyword v declared keywordKind spells =>
    rw [List.length_cons] at enough
    have noSemicolon : (s.facing (keyword :: (v ++ r)) i).next.kind ≠ .symbol .semicolon := by
      simp [keywordKind]
    rw [List.cons_append, forInitial, bind_of_ok (accept_of_ne noSemicolon),
      if_neg Bool.false_ne_true, bind_of_ok (acceptKeyword_facing keywordKind), if_pos rfl,
      bind_of_ok (varDeclaration_accepts spells (by omega))]
    rfl
  | @expr _ semicolon v value spells semicolonKind =>
    rw [List.length_append] at enough
    obtain ⟨first, u, rfl, starts⟩ := spells.starts
    have noSemicolon : (s.facing (first :: u ++ semicolon :: r) i).next.kind ≠ .symbol .semicolon :=
      ne_of_startsWith starts (by simp)
    have noVar : (s.facing (first :: u ++ semicolon :: r) i).next.kind ≠ .keyword .var := by
      intro found
      rw [List.cons_append, State.facing_next] at found
      rw [found] at starts
      cases starts
    rw [List.append_assoc, List.singleton_append, forInitial, bind_of_ok (accept_of_ne noSemicolon),
      if_neg Bool.false_ne_true, bind_of_ok (acceptKeyword_of_ne noVar), if_neg Bool.false_ne_true,
      bind_of_ok (expressionStatement_accepts spells semicolonKind (by omega))]
    rfl

/-- The reader of parameters takes a word that stands before a closing parenthesis. -/
theorem parameters_accepts {params : List Ident} (spells : SpellsNames w params) :
    ∀ {fuel count : Nat}, w.length < fuel → count + params.length ≤ maxArguments →
      ∀ {closing : Token}, closing.kind = .symbol .rightParen →
        parameters fuel count (s.facing (w ++ closing :: r) i) =
          .ok params (s.facing (closing :: r) i) := by
  induction spells with
  | @last token name found =>
    intro fuel count enough few closing closingKind
    obtain ⟨fuel, rfl⟩ : ∃ n, fuel = n + 1 := ⟨fuel - 1, by omega⟩
    have noComma : (s.facing (closing :: r) i).next.kind ≠ .symbol .comma := by simp [closingKind]
    simp only [List.length_singleton] at few
    rw [List.singleton_append, parameters, if_neg (by omega)]
    dsimp only
    rw [bind_of_ok (expectIdent_facing found), bind_of_ok (accept_of_ne noComma)]
    rfl
  | @cons token comma name v rest found commaKind _ inductionHypothesis =>
    intro fuel count enough few closing closingKind
    obtain ⟨fuel, rfl⟩ : ∃ n, fuel = n + 1 := ⟨fuel - 1, by omega⟩
    simp only [List.length_cons] at enough few
    rw [List.cons_append, List.cons_append, parameters, if_neg (by omega)]
    dsimp only
    rw [bind_of_ok (expectIdent_facing found), bind_of_ok (accept_facing commaKind), if_pos rfl,
      bind_of_ok (inductionHypothesis (by omega) (by omega) closingKind)]
    rfl

end Clauses

/-! ## Statements -/

def AcceptsStatement (isOpen : Bool) (i : ExprId) (w : List Token) (a : Stmt) (j : ExprId) : Prop :=
  ∀ (s : State) (r : List Token) (fuel : Nat), 16 * w.length ≤ fuel →
    (isOpen = true → (s.facing r j).next.kind ≠ .keyword .else) →
    statement fuel (s.facing (w ++ r) i) = .ok a (s.facing r j)

def AcceptsDeclaration (i : ExprId) (w : List Token) (a : Stmt) (j : ExprId) : Prop :=
  ∀ (s : State) (r : List Token) (fuel : Nat), 16 * w.length < fuel →
    (s.facing r j).next.kind ≠ .keyword .else →
    declaration fuel (s.facing (w ++ r) i) = .ok (some a) (s.facing r j)

def AcceptsRoutine (i : ExprId) (w : List Token) (a : Routine (List Stmt)) (j : ExprId) : Prop :=
  ∀ (s : State) (r : List Token) (fuel : Nat) (sort : ParseError.RoutineSort), 16 *
    w.length ≤ fuel →
    routine fuel sort (s.facing (w ++ r) i) = .ok a (s.facing r j)

def AcceptsMethods (i : ExprId) (w : List Token) (a : List (Routine (List Stmt)))
    (j : ExprId) : Prop :=
  ∀ (s : State) (r : List Token) (fuel : Nat) (closing : Token), 16 * w.length < fuel →
    closing.kind = .symbol .rightBrace →
    methods fuel (s.facing (w ++ closing :: r) i) = .ok a (s.facing (closing :: r) j)

structure AcceptsDeclarations (i : ExprId) (w : List Token) (a : List Stmt) (j : ExprId) :
    Prop where
  block : ∀ (s : State) (r : List Token) (fuel : Nat) (closing : Token), 16 * w.length + 16 ≤ fuel →
    closing.kind = .symbol .rightBrace →
    block fuel (s.facing (w ++ closing :: r) i) = .ok a (s.facing r j)
  program : ∀ (s : State) (fuel : Nat), 16 * w.length + 1 < fuel → s.Ends →
    declarations fuel (s.facing w i) = .ok a (s.facing [] j)

section Statements

variable {i j k l m n : ExprId} {w v u t : List Token} {isOpen : Bool} {e : Expr}

theorem statement_of_expression {s : State} {fuel : Nat}
    (starts : Tier.assignment.startsWith s.next.kind = true) :
    statement (fuel + 1) s = expressionStatement fuel s := by
  rw [statement, bind_of_ok (rfl : peek s = .ok s.next s)]
  generalize s.next.kind = kind at starts ⊢
  cases kind with
  | keyword word =>
    cases word with
    | «for» | «if» | print | «return» | «while» => cases starts
    | and | «class» | «else» | false | «fun» | nil | or | super | this | true | var => rfl
  | symbol mark =>
    cases mark with
    | leftBrace => cases starts
    | leftParen | rightParen | rightBrace | comma | dot | semicolon | minus | plus | slash | star
    | bang | bangEqual | equal | equalEqual | greater | greaterEqual | less | lessEqual => rfl
  | identifier _ | number _ | string _ | endOfInput => rfl

theorem accepts_expr {semicolon : Token} (spells : Spells .assignment i w e j)
    (semicolonKind : semicolon.kind = .symbol .semicolon) :
    AcceptsStatement false i (w ++ [semicolon]) (.expr e) j := by
  intro s r fuel enough _
  rw [List.length_append, List.length_singleton] at enough
  obtain ⟨fuel, rfl⟩ : ∃ n, fuel = n + 1 := ⟨fuel - 1, by omega⟩
  have value : expressionStatement fuel (s.facing (w ++ semicolon :: r) i) =
      .ok (.expr e) (s.facing r j) :=
    expressionStatement_accepts spells semicolonKind (by omega)
  have starts : Tier.assignment.startsWith (s.facing (w ++ semicolon :: r) i).next.kind = true := by
    obtain ⟨t, v, rfl, starts⟩ := spells.starts
    exact starts
  rw [List.append_assoc, List.singleton_append, statement_of_expression starts, value]

theorem accepts_print {keyword semicolon : Token} (keywordKind : keyword.kind = .keyword .print)
    (spells : Spells .assignment i w e j) (semicolonKind : semicolon.kind = .symbol .semicolon) :
    AcceptsStatement false i (keyword :: (w ++ [semicolon])) (.print e) j := by
  intro s r fuel enough _
  rw [List.length_cons, List.length_append, List.length_singleton] at enough
  obtain ⟨fuel, rfl⟩ : ∃ n, fuel = n + 1 := ⟨fuel - 1, by omega⟩
  have value : expression fuel (s.facing (w ++ semicolon :: r) i) =
      .ok e (s.facing (semicolon :: r) j) :=
    expression_accepts spells (by omega) semicolonKind (by simp)
  rw [List.cons_append, List.append_assoc, List.singleton_append, statement, bind_of_ok peek_facing,
    keywordKind]
  dsimp only
  rw [bind_of_ok advance_facing, bind_of_ok value, bind_of_ok (expect_facing semicolonKind)]
  rfl

theorem accepts_return {keyword semicolon : Token} {value : Option Expr}
    (keywordKind : keyword.kind = .keyword .return) (spells : SpellsOption i w value j)
    (semicolonKind : semicolon.kind = .symbol .semicolon) :
    AcceptsStatement false i (keyword :: (w ++ [semicolon])) (.return keyword.span value) j := by
  intro s r fuel enough _
  rw [List.length_cons, List.length_append, List.length_singleton] at enough
  obtain ⟨fuel, rfl⟩ : ∃ n, fuel = n + 1 := ⟨fuel - 1, by omega⟩
  have value : expressionUnless .semicolon fuel (s.facing (w ++ semicolon :: r) i) =
      .ok value (s.facing (semicolon :: r) j) :=
    expressionUnless_accepts spells (by omega) semicolonKind (by simp)
  rw [List.cons_append, List.append_assoc, List.singleton_append, statement, bind_of_ok peek_facing,
    keywordKind]
  dsimp only
  rw [bind_of_ok advance_facing, bind_of_ok value, bind_of_ok (expect_facing semicolonKind)]
  rfl

theorem accepts_block {opening closing : Token} {body : List Stmt}
    (openingKind : opening.kind = .symbol .leftBrace) (accepts : AcceptsDeclarations i w body j)
    (closingKind : closing.kind = .symbol .rightBrace) :
    AcceptsStatement false i (opening :: (w ++ [closing])) (.block body) j := by
  intro s r fuel enough _
  rw [List.length_cons, List.length_append, List.length_singleton] at enough
  obtain ⟨fuel, rfl⟩ : ∃ n, fuel = n + 1 := ⟨fuel - 1, by omega⟩
  rw [List.cons_append, List.append_assoc, List.singleton_append, statement, bind_of_ok peek_facing,
    openingKind]
  dsimp only
  rw [bind_of_ok advance_facing]
  exact map_of_ok _ (accepts.block s r fuel closing (by omega) closingKind)

theorem accepts_while {keyword opening closing : Token} {body : Stmt}
    (keywordKind : keyword.kind = .keyword .while) (openingKind : opening.kind = .symbol .leftParen)
    (spells : Spells .assignment i w e j) (closingKind : closing.kind = .symbol .rightParen)
    (accepts : AcceptsStatement isOpen j v body k) :
    AcceptsStatement isOpen i (keyword :: opening :: (w ++ closing :: v)) (.while e body) k := by
  intro s r fuel enough follows
  simp only [List.length_cons, List.length_append] at enough
  obtain ⟨fuel, rfl⟩ : ∃ n, fuel = n + 1 := ⟨fuel - 1, by omega⟩
  have condition : expression fuel (s.facing (w ++ closing :: (v ++ r)) i) =
      .ok e (s.facing (closing :: (v ++ r)) j) :=
    expression_accepts spells (by omega) closingKind (by simp)
  have shape : keyword :: opening :: (w ++ closing :: v) ++ r =
      keyword :: opening :: (w ++ closing :: (v ++ r)) := by simp
  rw [shape, statement, bind_of_ok peek_facing, keywordKind]
  dsimp only
  rw [bind_of_ok advance_facing, bind_of_ok (expect_facing openingKind), bind_of_ok condition,
    bind_of_ok (expect_facing closingKind), bind_of_ok (accepts s r fuel (by omega) follows)]
  rfl

theorem accepts_if {keyword opening closing : Token} {yes : Stmt}
    (keywordKind : keyword.kind = .keyword .if) (openingKind : opening.kind = .symbol .leftParen)
    (spells : Spells .assignment i w e j) (closingKind : closing.kind = .symbol .rightParen)
    (accepts : AcceptsStatement isOpen j v yes k) :
    AcceptsStatement true i (keyword :: opening :: (w ++ closing :: v)) (.if e yes none) k := by
  intro s r fuel enough follows
  simp only [List.length_cons, List.length_append] at enough
  obtain ⟨fuel, rfl⟩ : ∃ n, fuel = n + 1 := ⟨fuel - 1, by omega⟩
  have condition : expression fuel (s.facing (w ++ closing :: (v ++ r)) i) =
      .ok e (s.facing (closing :: (v ++ r)) j) :=
    expression_accepts spells (by omega) closingKind (by simp)
  have branch := accepts s r fuel (by omega) fun _ => follows rfl
  have shape : keyword :: opening :: (w ++ closing :: v) ++ r =
      keyword :: opening :: (w ++ closing :: (v ++ r)) := by simp
  rw [shape, statement, bind_of_ok peek_facing, keywordKind]
  dsimp only
  rw [bind_of_ok advance_facing, bind_of_ok (expect_facing openingKind), bind_of_ok condition,
    bind_of_ok (expect_facing closingKind), bind_of_ok branch,
    bind_of_ok (acceptKeyword_of_ne (follows rfl))]
  rfl

theorem accepts_ifElse {keyword opening closing otherwise : Token} {yes no : Stmt}
    (keywordKind : keyword.kind = .keyword .if) (openingKind : opening.kind = .symbol .leftParen)
    (spells : Spells .assignment i w e j) (closingKind : closing.kind = .symbol .rightParen)
    (acceptsYes : AcceptsStatement false j v yes k)
    (otherwiseKind : otherwise.kind = .keyword .else)
    (acceptsNo : AcceptsStatement isOpen k u no l) :
    AcceptsStatement isOpen i (keyword :: opening :: (w ++ closing :: (v ++ otherwise :: u)))
      (.if e yes (some no)) l := by
  intro s r fuel enough follows
  simp only [List.length_cons, List.length_append] at enough
  obtain ⟨fuel, rfl⟩ : ∃ n, fuel = n + 1 := ⟨fuel - 1, by omega⟩
  have condition : expression fuel (s.facing (w ++ closing :: (v ++ otherwise :: (u ++ r))) i) =
      .ok e (s.facing (closing :: (v ++ otherwise :: (u ++ r))) j) :=
    expression_accepts spells (by omega) closingKind (by simp)
  have branch := acceptsYes s (otherwise :: (u ++ r)) fuel (by omega) (by simp)
  have other := acceptsNo s r fuel (by omega) follows
  have shape : keyword :: opening :: (w ++ closing :: (v ++ otherwise :: u)) ++ r =
      keyword :: opening :: (w ++ closing :: (v ++ otherwise :: (u ++ r))) := by simp
  rw [shape, statement, bind_of_ok peek_facing, keywordKind]
  dsimp only
  rw [bind_of_ok advance_facing, bind_of_ok (expect_facing openingKind), bind_of_ok condition,
    bind_of_ok (expect_facing closingKind), bind_of_ok branch,
    bind_of_ok (acceptKeyword_facing otherwiseKind), if_pos rfl, bind_of_ok (map_of_ok some other)]
  rfl

theorem option_of_spellsCondition {keyword : Token} {condition : Expr}
    (spells : SpellsCondition keyword i w j k condition l) :
    ∃ value, SpellsOption i w value j ∧
      (value = none ∧ condition = .literal k keyword.span (.bool true) ∧ l = k + 1 ∨
        value = some condition ∧ l = k) := by
  cases spells with
  | none => exact ⟨none, .none, .inl ⟨rfl, rfl, rfl⟩⟩
  | some spells => exact ⟨_, .some spells, .inr ⟨rfl, rfl⟩⟩

theorem accepts_for {keyword opening semicolon closing : Token} {initial : Option Stmt}
    {condition : Expr} {increment : Option Expr} {body : Stmt}
    (keywordKind : keyword.kind = .keyword .for) (openingKind : opening.kind = .symbol .leftParen)
    (spellsInitial : SpellsInitial i w initial j)
    (spellsCondition : SpellsCondition keyword j v k m condition n)
    (semicolonKind : semicolon.kind = .symbol .semicolon)
    (spellsIncrement : SpellsOption k u increment l)
    (closingKind : closing.kind = .symbol .rightParen)
    (accepts : AcceptsStatement isOpen l t body m) :
    AcceptsStatement isOpen i (keyword :: opening :: (w ++ (v ++ semicolon :: (u ++ closing :: t))))
      (forLoop initial condition increment body) n := by
  intro s r fuel enough follows
  simp only [List.length_cons, List.length_append] at enough
  obtain ⟨fuel, rfl⟩ : ∃ n, fuel = n + 1 := ⟨fuel - 1, by omega⟩
  obtain ⟨value, spellsValue, shown⟩ := option_of_spellsCondition spellsCondition
  have readValue : expressionUnless .semicolon fuel
      (s.facing (v ++ semicolon :: (u ++ closing :: (t ++ r))) j) =
      .ok value (s.facing (semicolon :: (u ++ closing :: (t ++ r))) k) :=
    expressionUnless_accepts spellsValue (by omega) semicolonKind (by simp)
  have readIncrement : expressionUnless .rightParen fuel (s.facing (u ++ closing :: (t ++ r)) k) =
      .ok increment (s.facing (closing :: (t ++ r)) l) :=
    expressionUnless_accepts spellsIncrement (by omega) closingKind (by simp)
  have readBody := accepts s r fuel (by omega) follows
  have shape : keyword :: opening :: (w ++ (v ++ semicolon :: (u ++ closing :: t))) ++ r =
      keyword :: opening :: (w ++ (v ++ semicolon :: (u ++ closing :: (t ++ r)))) := by simp
  rw [shape, statement, bind_of_ok peek_facing, keywordKind]
  dsimp only
  rw [bind_of_ok advance_facing, bind_of_ok (expect_facing openingKind),
    bind_of_ok (forInitial_accepts spellsInitial (by omega)), bind_of_ok readValue,
    bind_of_ok (expect_facing semicolonKind), bind_of_ok readIncrement,
    bind_of_ok (expect_facing closingKind), bind_of_ok readBody]
  rcases shown with ⟨rfl, rfl, rfl⟩ | ⟨rfl, rfl⟩ <;> rfl

end Statements

/-! ## Declarations -/

section Declarations

variable {i j k : ExprId} {w v : List Token} {isOpen : Bool} {s : State} {fuel : Nat}

theorem declaration_class {keyword : Token} {declared : Stmt} {r : List Token}
    (found : keyword.kind = .keyword .class)
    (result : classDeclaration fuel (s.facing w i) = .ok declared (s.facing r j)) :
    declaration (fuel + 1) (s.facing (keyword :: w) i) = .ok (some declared) (s.facing r j) := by
  refine tryCatch_of_ok _ (map_of_ok some ?_)
  rw [bind_of_ok (acceptKeyword_facing found), if_pos rfl, result]

theorem declaration_fun {keyword : Token} {declared : Routine (List Stmt)} {r : List Token}
    (found : keyword.kind = .keyword .fun)
    (result : routine fuel .function (s.facing w i) = .ok declared (s.facing r j)) :
    declaration (fuel + 1) (s.facing (keyword :: w) i) =
      .ok (some (.fun declared)) (s.facing r j) := by
  refine tryCatch_of_ok _ (map_of_ok some ?_)
  rw [bind_of_ok (acceptKeyword_of_ne (by simp [found])), if_neg Bool.false_ne_true,
    bind_of_ok (acceptKeyword_facing found), if_pos rfl]
  exact map_of_ok _ result

theorem declaration_var {keyword : Token} {declared : Stmt} {r : List Token}
    (found : keyword.kind = .keyword .var)
    (result : varDeclaration fuel (s.facing w i) = .ok declared (s.facing r j)) :
    declaration (fuel + 1) (s.facing (keyword :: w) i) = .ok (some declared) (s.facing r j) := by
  refine tryCatch_of_ok _ (map_of_ok some ?_)
  rw [bind_of_ok (acceptKeyword_of_ne (by simp [found])), if_neg Bool.false_ne_true,
    bind_of_ok (acceptKeyword_of_ne (by simp [found])), if_neg Bool.false_ne_true,
    bind_of_ok (acceptKeyword_facing found), if_pos rfl, result]

theorem declaration_statement {declared : Stmt} {s' : State}
    (begins : beginsStatement s.next.kind = true) (result : statement fuel s = .ok declared s') :
    declaration (fuel + 1) s = .ok (some declared) s' := by
  have other {word : Keyword} (starts : beginsStatement (.keyword word) = false) :
      s.next.kind ≠ .keyword word := by
    intro found
    rw [found, starts] at begins
    cases begins
  refine tryCatch_of_ok _ (map_of_ok some ?_)
  rw [bind_of_ok (acceptKeyword_of_ne (other rfl)), if_neg Bool.false_ne_true,
    bind_of_ok (acceptKeyword_of_ne (other rfl)), if_neg Bool.false_ne_true,
    bind_of_ok (acceptKeyword_of_ne (other rfl)), if_neg Bool.false_ne_true, result]

theorem accepts_fun {keyword : Token} {routine : Routine (List Stmt)}
    (keywordKind : keyword.kind = .keyword .fun) (accepts : AcceptsRoutine i w routine j) :
    AcceptsDeclaration i (keyword :: w) (.fun routine) j := by
  intro s r fuel enough _
  rw [List.length_cons] at enough
  obtain ⟨fuel, rfl⟩ : ∃ n, fuel = n + 1 := ⟨fuel - 1, by omega⟩
  exact declaration_fun keywordKind (accepts s r fuel .function (by omega))

theorem accepts_var {keyword : Token} {declared : Stmt} (keywordKind : keyword.kind = .keyword .var)
    (spells : SpellsVariable i w declared j) : AcceptsDeclaration i (keyword :: w) declared j := by
  intro s r fuel enough _
  rw [List.length_cons] at enough
  obtain ⟨fuel, rfl⟩ : ∃ n, fuel = n + 1 := ⟨fuel - 1, by omega⟩
  exact declaration_var keywordKind (varDeclaration_accepts spells (by omega))

theorem superclass_accepts {superclass : Option Reference} {opening : Token} {r : List Token}
    (spells : SpellsSuperclass i w superclass j) (openingKind : opening.kind = .symbol .leftBrace)
    {next : Option Reference → Read Stmt} :
    (do
      let superclass ← if ← accept .less then do
          let name ← expectIdent .superclassName
          pure (some (Reference.mk (← freshId) name))
        else
          pure none
      next superclass) (s.facing (w ++ opening :: r) i) =
      next superclass (s.facing (opening :: r) j) := by
  cases spells with
  | none =>
    have noLess : (s.facing (opening :: r) i).next.kind ≠ .symbol .less := by simp [openingKind]
    rw [List.nil_append, bind_of_ok (accept_of_ne noLess)]
    rfl
  | some lessKind found =>
    rw [List.cons_append, List.singleton_append, bind_of_ok (accept_facing lessKind), if_pos rfl,
      bind_of_ok (expectIdent_facing found)]
    rfl

theorem accepts_class {keyword token opening closing : Token} {name : String}
    {superclass : Option Reference} {members : List (Routine (List Stmt))}
    (keywordKind : keyword.kind = .keyword .class) (found : token.kind = .identifier name)
    (spells : SpellsSuperclass i w superclass j) (openingKind : opening.kind = .symbol .leftBrace)
    (accepts : AcceptsMethods j v members k) (closingKind : closing.kind = .symbol .rightBrace) :
    AcceptsDeclaration i (keyword :: token :: (w ++ opening :: (v ++ [closing])))
      (.class ⟨name, token.span⟩ superclass members) k := by
  intro s r fuel enough _
  simp only [List.length_cons, List.length_append] at enough
  obtain ⟨fuel, rfl⟩ : ∃ n, fuel = n + 2 := ⟨fuel - 2, by omega⟩
  have shape : keyword :: token :: (w ++ opening :: (v ++ [closing])) ++ r =
      keyword :: token :: (w ++ opening :: (v ++ closing :: r)) := by simp
  rw [shape]
  apply declaration_class keywordKind
  rw [classDeclaration, bind_of_ok (expectIdent_facing found),
    superclass_accepts spells openingKind, bind_of_ok (expect_facing openingKind),
    bind_of_ok (accepts s r fuel closing (by omega) closingKind)]
  exact bind_of_ok (expect_facing closingKind)

theorem accepts_statement {declared : Stmt} (spells : SpellsStatement isOpen i w declared j)
    (accepts : AcceptsStatement isOpen i w declared j) : AcceptsDeclaration i w declared j := by
  intro s r fuel enough follows
  obtain ⟨fuel, rfl⟩ : ∃ n, fuel = n + 1 := ⟨fuel - 1, by omega⟩
  have begins : beginsStatement (s.facing (w ++ r) i).next.kind = true := by
    obtain ⟨t, v, rfl, begins⟩ := spells.begins
    exact begins
  exact declaration_statement begins (accepts s r fuel (by omega) fun _ => follows)

theorem accepts_routine {token opening closing brace last : Token} {name : String}
    {params : List Ident} {body : List Stmt} (found : token.kind = .identifier name)
    (openingKind : opening.kind = .symbol .leftParen) (spells : SpellsParameters w params)
    (closingKind : closing.kind = .symbol .rightParen) (braceKind : brace.kind = .symbol .leftBrace)
    (accepts : AcceptsDeclarations i v body j) (lastKind : last.kind = .symbol .rightBrace) :
    AcceptsRoutine i (token :: opening :: (w ++ closing :: brace :: (v ++ [last])))
      ⟨⟨name, token.span⟩, params, body⟩ j := by
  intro s r fuel sort enough
  simp only [List.length_cons, List.length_append] at enough
  obtain ⟨fuel, rfl⟩ : ∃ n, fuel = n + 1 := ⟨fuel - 1, by omega⟩
  have shape : token :: opening :: (w ++ closing :: brace :: (v ++ [last])) ++ r =
      token :: opening :: (w ++ closing :: brace :: (v ++ last :: r)) := by simp
  have readBody := accepts.block s r fuel last (by omega) lastKind
  rw [shape, routine, bind_of_ok (expectIdent_facing found), bind_of_ok (expect_facing openingKind)]
  cases spells with
  | none =>
    rw [List.nil_append, bind_of_ok (nextIs_facing closingKind), if_pos rfl, pure_bind]
    dsimp only
    rw [bind_of_ok (expect_facing closingKind), bind_of_ok (expect_facing braceKind),
      bind_of_ok readBody]
    rfl
  | some spells few =>
    have more {r : List Token} : (s.facing (w ++ r) i).next.kind ≠ .symbol .rightParen := by
      cases spells with
      | last found => simp [found]
      | cons found => simp [found]
    rw [bind_of_ok (nextIs_of_ne more), if_neg Bool.false_ne_true,
      bind_of_ok (parameters_accepts spells (by omega) (by omega) closingKind)]
    dsimp only
    rw [bind_of_ok (expect_facing closingKind), bind_of_ok (expect_facing braceKind),
      bind_of_ok readBody]
    rfl

theorem accepts_noMethods : AcceptsMethods i [] [] i := by
  intro s r fuel closing enough closingKind
  obtain ⟨fuel, rfl⟩ : ∃ n, fuel = n + 1 := ⟨fuel - 1, by omega⟩
  rw [List.nil_append, methods, bind_of_ok (nextIs_facing closingKind)]
  rfl

theorem SpellsRoutine.starts {routine : Routine (List Stmt)}
    (spells : SpellsRoutine i w routine j) :
    ∃ t v name, w = t :: v ∧ t.kind = .identifier name := by
  obtain ⟨found, _, _, _, _, _, _⟩ := spells
  exact ⟨_, _, _, rfl, found⟩

theorem accepts_method {method : Routine (List Stmt)} {rest : List (Routine (List Stmt))}
    (spells : SpellsRoutine i w method j) (acceptsFirst : AcceptsRoutine i w method j)
    (acceptsRest : AcceptsMethods j v rest k) : AcceptsMethods i (w ++ v) (method :: rest) k := by
  intro s r fuel closing enough closingKind
  rw [List.length_append] at enough
  obtain ⟨fuel, rfl⟩ : ∃ n, fuel = n + 1 := ⟨fuel - 1, by omega⟩
  obtain ⟨t, u, name, rfl, found⟩ := spells.starts
  rw [List.length_cons] at enough
  have more : (s.facing (t :: u ++ (v ++ closing :: r)) i).next.kind ≠ .symbol .rightBrace := by
    simp [found]
  have readFirst :=
    acceptsFirst s (v ++ closing :: r) fuel .method (by rw [List.length_cons]; omega)
  have readRest := acceptsRest s r fuel closing (by omega) closingKind
  rw [List.append_assoc, methods, bind_of_ok (nextIs_of_ne more)]
  exact (bind_of_ok readFirst).trans (bind_of_ok readRest)

/-- No branch stands behind a declaration that others follow. -/
theorem SpellsDeclarations.noBranch {program : List Stmt}
    (spells : SpellsDeclarations i w program j)
    {r : List Token} (follows : (s.facing r k).next.kind ≠ .keyword .else) :
    (s.facing (w ++ r) k).next.kind ≠ .keyword .else := by
  cases spells with
  | nil => exact follows
  | cons first _ =>
    obtain ⟨t, u, rfl, begins⟩ := first.begins
    intro found
    rw [List.cons_append, List.cons_append, State.facing_next] at found
    rw [found] at begins
    cases begins

theorem accepts_noDeclarations : AcceptsDeclarations i [] [] i where
  block s r fuel closing enough closingKind := by
    obtain ⟨fuel, rfl⟩ : ∃ n, fuel = n + 1 := ⟨fuel - 1, by omega⟩
    rw [List.nil_append, Grammar.block, bind_of_ok (nextIs_facing closingKind)]
    exact bind_of_ok (expect_facing closingKind)
  program s fuel enough ends := by
    obtain ⟨fuel, rfl⟩ : ∃ n, fuel = n + 1 := ⟨fuel - 1, by omega⟩
    rfl

theorem accepts_declaration {first : Stmt} {rest : List Stmt}
    (spellsFirst : SpellsDeclaration i w first j)
    (acceptsFirst : AcceptsDeclaration i w first j) (spellsRest : SpellsDeclarations j v rest k)
    (acceptsRest : AcceptsDeclarations j v rest k) :
    AcceptsDeclarations i (w ++ v) (first :: rest) k := by
  obtain ⟨t, u, rfl, begins⟩ := spellsFirst.begins
  refine ⟨fun s r fuel closing enough closingKind => ?_, fun s fuel enough ends => ?_⟩
  all_goals
    simp only [List.length_append, List.length_cons] at enough
    obtain ⟨fuel, rfl⟩ : ∃ n, fuel = n + 1 := ⟨fuel - 1, by omega⟩
  · have more : (s.facing (t :: u ++ (v ++ closing :: r)) i).next.kind ≠ .symbol .rightBrace := by
      intro found
      rw [List.cons_append, State.facing_next] at found
      rw [found] at begins
      cases begins
    have follows : (s.facing (v ++ closing :: r) j).next.kind ≠ .keyword .else :=
      spellsRest.noBranch (by simp [closingKind])
    have readFirst :=
      acceptsFirst s (v ++ closing :: r) fuel (by rw [List.length_cons]; omega) follows
    have readRest := acceptsRest.block s r fuel closing (by omega) closingKind
    rw [List.append_assoc, block, bind_of_ok (nextIs_of_ne more)]
    exact (bind_of_ok readFirst).trans (bind_of_ok readRest)
  · have follows : (s.facing v j).next.kind ≠ .keyword .else := by
      rw [← List.append_nil v]
      refine spellsRest.noBranch fun found => ?_
      have atEnd : s.finish.kind = .endOfInput := ends
      rw [show (s.facing [] j).next = s.finish from rfl, atEnd] at found
      cases found
    have readFirst := acceptsFirst s v fuel (by rw [List.length_cons]; omega) follows
    have readRest := acceptsRest.program s fuel (by omega) ends
    exact (bind_of_ok readFirst).trans (bind_of_ok readRest)

end Declarations

mutual

theorem SpellsStatement.accepts : ∀ {isOpen : Bool} {i j : ExprId} {w : List Token} {a : Stmt},
    SpellsStatement isOpen i w a j → AcceptsStatement isOpen i w a j
  | _, _, _, _, _, .expr value semicolon => accepts_expr value semicolon
  | _, _, _, _, _, .print keyword value semicolon => accepts_print keyword value semicolon
  | _, _, _, _, _, .return keyword value semicolon => accepts_return keyword value semicolon
  | _, _, _, _, _, .block opening body closing => accepts_block opening body.accepts closing
  | _, _, _, _, _, .while keyword opening condition closing body =>
    accepts_while keyword opening condition closing body.accepts
  | _, _, _, _, _, .if keyword opening condition closing yes =>
    accepts_if keyword opening condition closing yes.accepts
  | _, _, _, _, _, .ifElse keyword opening condition closing yes otherwise no =>
    accepts_ifElse keyword opening condition closing yes.accepts otherwise no.accepts
  | _, _, _, _, _, .for keyword opening initial condition semicolon increment closing body =>
    accepts_for keyword opening initial condition semicolon increment closing body.accepts

theorem SpellsDeclaration.accepts : ∀ {i j : ExprId} {w : List Token} {a : Stmt},
    SpellsDeclaration i w a j → AcceptsDeclaration i w a j
  | _, _, _, _, .class keyword token superclass opening methods closing =>
    accepts_class keyword token superclass opening methods.accepts closing
  | _, _, _, _, .fun keyword routine => accepts_fun keyword routine.accepts
  | _, _, _, _, .var keyword declared => accepts_var keyword declared
  | _, _, _, _, .statement statement => accepts_statement statement statement.accepts

theorem SpellsRoutine.accepts : ∀ {i j : ExprId} {w : List Token} {a : Routine (List Stmt)},
    SpellsRoutine i w a j → AcceptsRoutine i w a j
  | _, _, _, _, .mk token opening params closing brace body last =>
    accepts_routine token opening params closing brace body.accepts last

theorem SpellsMethods.accepts : ∀ {i j : ExprId} {w : List Token} {a : List (Routine (List Stmt))},
    SpellsMethods i w a j → AcceptsMethods i w a j
  | _, _, _, _, .nil => accepts_noMethods
  | _, _, _, _, .cons first rest => accepts_method first first.accepts rest.accepts

theorem SpellsDeclarations.accepts : ∀ {i j : ExprId} {w : List Token} {a : List Stmt},
    SpellsDeclarations i w a j → AcceptsDeclarations i w a j
  | _, _, _, _, .nil => accepts_noDeclarations
  | _, _, _, _, .cons first rest => accepts_declaration first first.accepts rest rest.accepts

end

end Grammar

/-- A program is read from the tokens that spell it, and from no others. -/
theorem Program.parse_eq_ok_iff {tokens : List Token} {firstId nextId : ExprId}
    {program : Program} :
    Program.parse tokens firstId = ⟨.ok program, nextId⟩ ↔
      Grammar.SpellsDeclarations firstId (tokens.takeWhile (!·.isEnd)) program nextId := by
  constructor
  · intro parsed
    have spells := Program.spells_of_parse (congrArg Parsed.result parsed)
    rwa [parsed] at spells
  · intro spells
    have read := spells.accepts.program (Grammar.State.ofTokens tokens firstId)
      (Grammar.fuelFor (Grammar.State.ofTokens tokens firstId).rest.length)
      (by
        show 16 * (tokens.takeWhile (!·.isEnd)).length + 1 <
          16 * ((tokens.takeWhile (!·.isEnd)).length + 2)
        omega)
      (Grammar.ends_ofTokens tokens firstId)
    have start : Grammar.State.facing (Grammar.State.ofTokens tokens firstId)
      (tokens.takeWhile (!·.isEnd)) firstId = Grammar.State.ofTokens tokens firstId := rfl
    rw [start] at read
    unfold Program.parse
    dsimp only
    rw [read]
    rfl

end Lox
