import Lox.Proofs.Grammar.Primitives
import Lox.Proofs.Grammar.Soundness

set_option autoImplicit false

/-!
# What is spelled is read

A reader that faces a word takes exactly that word and yields what it spells, whatever follows, as
long as what follows does not go on with the word. Sixteen for each token bound the recursion.
Operators and calls associate to the left, so what is said of them is said in the middle of their
loops: the loop has come to stand behind the word.
-/

namespace Lox.Grammar

def State.facing (s : State) (rest : List Token) (id : ExprId) : State :=
  { s with rest := rest, nextId := id }

section Steps

variable {s : State} {r : List Token} {i : ExprId} {t : Token} {mark : Symbol} {word : Keyword}
  {what : ParseError.Expectation} {name : String}

@[simp] theorem State.facing_next (s : State) (t : Token) (r : List Token) (i : ExprId) :
    (s.facing (t :: r) i).next = t := rfl

theorem peek_facing : peek (s.facing (t :: r) i) = .ok t (s.facing (t :: r) i) := rfl

theorem advance_facing : advance (s.facing (t :: r) i) = .ok t (s.facing r i) := rfl

theorem freshId_facing : freshId (s.facing r i) = .ok i (s.facing r (i + 1)) := rfl

theorem nextIs_facing (found : t.kind = .symbol mark) :
    nextIs mark (s.facing (t :: r) i) = .ok true (s.facing (t :: r) i) := by
  show EStateM.Result.ok (t.isSymbol mark) _ = _
  rw [Token.isSymbol_iff.mpr found]

theorem nextIs_of_ne (missing : s.next.kind ≠ .symbol mark) : nextIs mark s = .ok false s := by
  show EStateM.Result.ok (s.next.isSymbol mark) _ = _
  rw [Bool.eq_false_iff.mpr (mt Token.isSymbol_iff.mp missing)]

theorem expect_facing (found : t.kind = .symbol mark) :
    expect mark what (s.facing (t :: r) i) = .ok t (s.facing r i) := by
  show (if t.isSymbol mark = true then advance else fail what) (s.facing (t :: r) i) = _
  rw [if_pos (Token.isSymbol_iff.mpr found)]
  rfl

theorem expectIdent_facing (found : t.kind = .identifier name) :
    expectIdent what (s.facing (t :: r) i) = .ok ⟨name, t.span⟩ (s.facing r i) := by
  obtain ⟨kind, lexeme, span⟩ := t
  subst found
  rfl

theorem accept_facing (found : t.kind = .symbol mark) :
    accept mark (s.facing (t :: r) i) = .ok true (s.facing r i) := by
  show (if t.isSymbol mark = true then advance >>= fun _ => pure true else pure false)
    (s.facing (t :: r) i) = _
  rw [if_pos (Token.isSymbol_iff.mpr found)]
  rfl

theorem accept_of_ne (missing : s.next.kind ≠ .symbol mark) : accept mark s = .ok false s := by
  show (if s.next.isSymbol mark = true then advance >>= fun _ => pure true else pure false) s = _
  rw [if_neg (mt Token.isSymbol_iff.mp missing)]
  rfl

theorem acceptKeyword_facing (found : t.kind = .keyword word) :
    acceptKeyword word (s.facing (t :: r) i) = .ok true (s.facing r i) := by
  show (if t.isKeyword word = true then advance >>= fun _ => pure true else pure false)
    (s.facing (t :: r) i) = _
  rw [if_pos (Token.isKeyword_iff.mpr found)]
  rfl

theorem acceptKeyword_of_ne (missing : s.next.kind ≠ .keyword word) :
    acceptKeyword word s = .ok false s := by
  show (if s.next.isKeyword word = true then advance >>= fun _ => pure true else pure false) s = _
  rw [if_neg (mt Token.isKeyword_iff.mp missing)]
  rfl

end Steps

/-! ## Tokens that end an expression -/

def Level.rank : Level → Nat
  | .or => 0
  | .and => 1
  | .equality => 2
  | .comparison => 3
  | .term => 4
  | .factor => 5

theorem Level.rank_injective : Function.Injective Level.rank := by
  intro first second same
  cases first <;> cases second <;> simp_all [Level.rank]

theorem Level.rank_le (level : Level) : level.rank ≤ 5 := by
  cases level <;> decide

theorem Level.rank_of_tighter {level tighter : Level} (below : level.tighter? = some tighter) :
    tighter.rank = level.rank + 1 := by
  cases level <;> cases below <;> rfl

theorem Level.rank_of_tightest {level : Level} (tightest : level.tighter? = none) :
    level.rank = 5 := by
  cases level <;> cases tightest
  rfl

def Tier.Stops : Tier → Token → Prop
  | .primary, _ => True
  | .call, t | .unary, t => t.kind ≠ .symbol .leftParen ∧ t.kind ≠ .symbol .dot
  | .operators level, t => (t.kind ≠ .symbol .leftParen ∧ t.kind ≠ .symbol .dot) ∧
    ∀ other : Level, level.rank ≤ other.rank → other.operator? t.kind = none
  | .assignment, t => ((t.kind ≠ .symbol .leftParen ∧ t.kind ≠ .symbol .dot) ∧
    ∀ other : Level, other.operator? t.kind = none) ∧ t.kind ≠ .symbol .equal

theorem Level.stops_iff {level : Level} {t : Token} : (Tier.operators level).Stops t ↔
    level.operandTier.Stops t ∧ level.operator? t.kind = none := by
  constructor
  · rintro ⟨closed, none⟩
    refine ⟨?_, none level le_rfl⟩
    cases level with
    | factor => exact closed
    | or | and | equality | comparison | term =>
      exact ⟨closed, fun other tighter => none other (Nat.le_of_succ_le tighter)⟩
  · rintro ⟨closed, none⟩
    have loosest (other : Level) (same : level.rank = other.rank) : other.operator? t.kind =
        Option.none := by
      rwa [← Level.rank_injective same]
    cases level with
    | factor =>
      refine ⟨closed, fun other tighter => loosest other (le_antisymm tighter ?_)⟩
      cases other <;> decide
    | or | and | equality | comparison | term =>
      refine ⟨closed.1, fun other tighter => ?_⟩
      rcases Nat.lt_or_eq_of_le tighter with tighter | same
      · exact closed.2 other tighter
      · exact loosest other same

/-- How far the bound on the recursion may stay below sixteen for each token. -/
def Tier.slack : Tier → Nat
  | .assignment => 0
  | .operators level => 1 + 2 * level.rank
  | .unary | .call => 13
  | .primary => 14

/-- The reader of a tier takes a word. -/
def Accepts (tier : Tier) (i : ExprId) (w : List Token) (e : Expr) (j : ExprId) : Prop :=
  ∀ (s : State) (r : List Token) (fuel : Nat), 16 * w.length ≤ fuel + tier.slack →
    match tier with
    | .assignment => Tier.assignment.Stops (s.facing r j).next →
      expression fuel (s.facing (w ++ r) i) = .ok e (s.facing r j)
    | .operators level => level.operandTier.Stops (s.facing r j).next →
      ∃ fuel', fuel ≤ fuel' + w.length ∧
        operators fuel level (s.facing (w ++ r) i) = operatorsTail fuel' level e (s.facing r j)
    | .unary => Tier.unary.Stops (s.facing r j).next →
      unary fuel (s.facing (w ++ r) i) = .ok e (s.facing r j)
    | .call => ∃ fuel', fuel ≤ fuel' + w.length ∧
        unary fuel (s.facing (w ++ r) i) = callTail fuel' e (s.facing r j)
    | .primary => primary fuel (s.facing (w ++ r) i) = .ok e (s.facing r j)

section Readers

variable {s : State} {fuel : Nat} {level : Level} {e : Expr}

theorem unary_of_none (none : unaryOperator? s.next.kind = none) :
    unary (fuel + 1) s = (primary fuel >>= callTail fuel) s := by
  unfold unary
  rw [bind_of_ok (rfl : peek s = .ok s.next s), none]

theorem operatorsTail_of_none (none : level.operator? s.next.kind = none) :
    operatorsTail (fuel + 1) level e s = .ok e s := by
  unfold operatorsTail
  rw [bind_of_ok (rfl : peek s = .ok s.next s), none]
  rfl

theorem callTail_of_stops (stops : Tier.call.Stops s.next) : callTail (fuel + 1) e s = .ok e s := by
  unfold callTail
  rw [bind_of_ok (accept_of_ne stops.1), if_neg Bool.false_ne_true,
    bind_of_ok (accept_of_ne stops.2)]
  rfl

theorem operand_factor (tightest : level.tighter? = none) :
    operand (fuel + 1) level s = unary fuel s := by
  unfold operand
  rw [tightest]

theorem operand_of_tighter {tighter : Level} (below : level.tighter? = some tighter) :
    operand (fuel + 1) level s = operators fuel tighter s := by
  unfold operand
  rw [below]

end Readers

/-! ## Expressions -/

section Tiers

variable {tier : Tier} {level : Level} {i j k : ExprId} {w v : List Token} {e : Expr}

theorem Spells.length_pos (spells : Spells tier i w e j) : 0 < w.length := by
  obtain ⟨t, v, rfl, _⟩ := spells.starts
  simp

theorem unaryOperator?_of_startsPrimary {kind : Token.Kind} (starts : startsPrimary kind = true) :
    unaryOperator? kind = none := by
  cases kind with
  | symbol mark => cases mark <;> simp_all [startsPrimary, unaryOperator?]
  | identifier _ | number _ | string _ | keyword _ | endOfInput => rfl

theorem accepts_call_of_primary (spells : Spells .primary i w e j)
    (accepts : Accepts .primary i w e j) : Accepts .call i w e j := by
  intro s r fuel enough
  have positive := spells.length_pos
  obtain ⟨t, v, rfl, starts⟩ := spells.starts
  cases fuel with
  | zero => simp only [Tier.slack] at enough; omega
  | succ fuel =>
    refine ⟨fuel, by omega, ?_⟩
    rw [unary_of_none (s := s.facing (t :: v ++ r) i) (unaryOperator?_of_startsPrimary starts)]
    exact bind_of_ok (accepts s r fuel (by simp only [Tier.slack] at enough ⊢; omega))

theorem accepts_unary_of_call (spells : Spells .call i w e j) (accepts : Accepts .call i w e j) :
    Accepts .unary i w e j := by
  intro s r fuel enough stops
  have positive := spells.length_pos
  obtain ⟨fuel', remains, reads⟩ := accepts s r fuel enough
  simp only [Tier.slack] at enough
  obtain ⟨fuel', rfl⟩ : ∃ n, fuel' = n + 1 := ⟨fuel' - 1, by omega⟩
  rw [reads, callTail_of_stops stops]

/-- The loop over the operators of a level ends at a token that is none of them. -/
theorem operators_accepts (spells : Spells (.operators level) i w e j)
    (accepts : Accepts (.operators level) i w e j) (s : State) (r : List Token) (fuel : Nat)
    (enough : 16 * w.length ≤ fuel + (Tier.operators level).slack)
    (stops : (Tier.operators level).Stops (s.facing r j).next) :
    operators fuel level (s.facing (w ++ r) i) = .ok e (s.facing r j) := by
  have positive := spells.length_pos
  have rank := level.rank_le
  obtain ⟨tighter, none⟩ := Level.stops_iff.mp stops
  obtain ⟨fuel', remains, reads⟩ := accepts s r fuel enough tighter
  simp only [Tier.slack] at enough
  obtain ⟨fuel', rfl⟩ : ∃ n, fuel' = n + 1 := ⟨fuel' - 1, by omega⟩
  rw [reads, operatorsTail_of_none none]

/-- An operand of a level is read at the tier below it. -/
theorem operand_accepts (spells : Spells level.operandTier i w e j)
    (accepts : Accepts level.operandTier i w e j) (s : State) (r : List Token) {fuel : Nat}
    (enough : 16 * w.length ≤ fuel + (2 + 2 * level.rank))
    (stops : level.operandTier.Stops (s.facing r j).next) :
    operand fuel level (s.facing (w ++ r) i) = .ok e (s.facing r j) := by
  have positive := spells.length_pos
  have rank := level.rank_le
  obtain ⟨fuel, rfl⟩ : ∃ n, fuel = n + 1 := ⟨fuel - 1, by omega⟩
  cases below : level.tighter? with
  | none =>
    have tier : level.operandTier = .unary := by simp [Level.operandTier, below]
    rw [tier] at accepts stops
    rw [Level.rank_of_tightest below] at enough
    rw [operand_factor below]
    exact accepts s r fuel (by simp only [Tier.slack]; omega) stops
  | some tighter =>
    have tier : level.operandTier = .operators tighter := by simp [Level.operandTier, below]
    rw [tier] at spells accepts stops
    have rank' := Level.rank_of_tighter below
    rw [operand_of_tighter below]
    exact operators_accepts spells accepts s r fuel (by simp only [Tier.slack]; omega) stops

theorem accepts_operators_of_operand (spells : Spells level.operandTier i w e j)
    (accepts : Accepts level.operandTier i w e j) : Accepts (.operators level) i w e j := by
  intro s r fuel enough stops
  have positive := spells.length_pos
  have rank := level.rank_le
  simp only [Tier.slack] at enough
  obtain ⟨fuel, rfl⟩ : ∃ n, fuel = n + 1 := ⟨fuel - 1, by omega⟩
  refine ⟨fuel, by omega, ?_⟩
  unfold operators
  exact bind_of_ok (operand_accepts spells accepts s r (by omega) stops)

theorem accepts_assignment_of_operators (spells : Spells (.operators .or) i w e j)
    (accepts : Accepts (.operators .or) i w e j) : Accepts .assignment i w e j := by
  intro s r fuel enough stops
  have positive := spells.length_pos
  simp only [Tier.slack] at enough
  obtain ⟨fuel, rfl⟩ : ∃ n, fuel = n + 1 := ⟨fuel - 1, by omega⟩
  have reads := operators_accepts spells accepts s r fuel
    (by simp only [Tier.slack, Level.rank]; omega) ⟨stops.1.1, fun other _ => stops.1.2 other⟩
  unfold expression
  rw [bind_of_ok reads, bind_of_ok (rfl : peek (s.facing r j) = .ok _ _),
    if_neg (mt Token.isSymbol_iff.mp stops.2)]
  rfl

/-- What is read at a tier is read at the looser ones. -/
theorem accepts_of_tighter {tier' : Tier} (below : tier.tighter? = some tier')
    (spells : Spells tier' i w e j) (accepts : Accepts tier' i w e j) : Accepts tier i w e j := by
  cases tier with
  | assignment =>
    cases below
    exact accepts_assignment_of_operators spells accepts
  | operators level =>
    cases below
    exact accepts_operators_of_operand spells accepts
  | unary =>
    cases below
    exact accepts_unary_of_call spells accepts
  | call =>
    cases below
    exact accepts_call_of_primary spells accepts
  | primary => cases below

theorem Level.operator?_of_looser {kind : Token.Kind} {op : InfixOp} {other : Level}
    (found : level.operator? kind = some op) (tighter : level.rank < other.rank) :
    other.operator? kind = none := by
  unfold Level.operator? at found
  split at found <;> cases other <;> simp_all [Level.rank, Level.operator?]

/-- The operators of a level end its operands. -/
theorem Level.operandTier_stops {t : Token} {op : InfixOp}
    (found : level.operator? t.kind = some op) : level.operandTier.Stops t := by
  have closed : t.kind ≠ .symbol .leftParen ∧ t.kind ≠ .symbol .dot := by
    constructor
    · intro kind
      rw [kind] at found
      cases level <;> cases found
    · intro kind
      rw [kind] at found
      cases level <;> cases found
  cases level with
  | factor => exact closed
  | or | and | equality | comparison | term =>
    exact ⟨closed, fun other tighter => Level.operator?_of_looser found tighter⟩

theorem accepts_operator {token : Token} {op : InfixOp} {left right : Expr}
    (spellsLeft : Spells (.operators level) i w left j)
    (acceptsLeft : Accepts (.operators level) i w left j)
    (found : level.operator? token.kind = some op)
    (spellsRight : Spells level.operandTier j v right k)
    (acceptsRight : Accepts level.operandTier j v right k) :
    Accepts (.operators level) i (w ++ token :: v) (op.apply k token.span left right) (k + 1) := by
  intro s r fuel enough stops
  have positive := spellsLeft.length_pos
  have rank := level.rank_le
  simp only [Tier.slack, List.length_append, List.length_cons] at enough ⊢
  obtain ⟨fuel', remains, reads⟩ := acceptsLeft s (token :: (v ++ r)) fuel
    (by simp only [Tier.slack]; omega) (Level.operandTier_stops found)
  obtain ⟨fuel', rfl⟩ : ∃ n, fuel' = n + 1 := ⟨fuel' - 1, by omega⟩
  refine ⟨fuel', by omega, ?_⟩
  rw [List.append_assoc, List.cons_append, reads, operatorsTail, bind_of_ok peek_facing, found]
  dsimp only
  rw [bind_of_ok advance_facing,
    bind_of_ok (operand_accepts spellsRight acceptsRight s r (by omega) stops),
    bind_of_ok freshId_facing]

theorem accepts_unary {token : Token} {op : UnaryOp} {operand : Expr}
    (found : unaryOperator? token.kind = some op) (accepts : Accepts .unary i w operand j) :
    Accepts .unary i (token :: w) (.unary j token.span op operand) (j + 1) := by
  intro s r fuel enough stops
  simp only [Tier.slack, List.length_cons] at enough
  obtain ⟨fuel, rfl⟩ : ∃ n, fuel = n + 1 := ⟨fuel - 1, by omega⟩
  rw [List.cons_append, unary, bind_of_ok peek_facing, found]
  dsimp only
  rw [bind_of_ok advance_facing,
    bind_of_ok (accepts s r fuel (by simp only [Tier.slack]; omega) stops),
    bind_of_ok freshId_facing]
  rfl

theorem accepts_call {opening closing : Token} {callee : Expr}
    (accepts : Accepts .call i w callee j) (openingKind : opening.kind = .symbol .leftParen)
    (closingKind : closing.kind = .symbol .rightParen) :
    Accepts .call i (w ++ [opening, closing]) (.call j closing.span callee []) (j + 1) := by
  intro s r fuel enough
  simp only [Tier.slack, List.length_append, List.length_cons, List.length_nil] at enough ⊢
  obtain ⟨fuel', remains, reads⟩ := accepts s (opening :: closing :: r) fuel
    (by simp only [Tier.slack]; omega)
  obtain ⟨fuel', rfl⟩ : ∃ n, fuel' = n + 1 := ⟨fuel' - 1, by omega⟩
  refine ⟨fuel', by omega, ?_⟩
  rw [List.append_assoc, List.cons_append, List.cons_append, List.nil_append, reads, callTail,
    bind_of_ok (accept_facing openingKind), if_pos rfl, bind_of_ok (nextIs_facing closingKind)]
  dsimp only
  rw [if_pos rfl, pure_bind, bind_of_ok (expect_facing closingKind), bind_of_ok freshId_facing]

theorem accepts_get {dot field : Token} {name : String} {object : Expr}
    (accepts : Accepts .call i w object j) (dotKind : dot.kind = .symbol .dot)
    (fieldKind : field.kind = .identifier name) :
    Accepts .call i (w ++ [dot, field]) (.get j object ⟨name, field.span⟩) (j + 1) := by
  intro s r fuel enough
  simp only [Tier.slack, List.length_append, List.length_cons, List.length_nil] at enough ⊢
  obtain ⟨fuel', remains, reads⟩ := accepts s (dot :: field :: r) fuel
    (by simp only [Tier.slack]; omega)
  obtain ⟨fuel', rfl⟩ : ∃ n, fuel' = n + 1 := ⟨fuel' - 1, by omega⟩
  refine ⟨fuel', by omega, ?_⟩
  have noCall : (s.facing (dot :: field :: r) j).next.kind ≠ .symbol .leftParen := by
    simp [dotKind]
  rw [List.append_assoc, List.cons_append, List.cons_append, List.nil_append, reads, callTail,
    bind_of_ok (accept_of_ne noCall), if_neg Bool.false_ne_true, bind_of_ok (accept_facing dotKind),
    if_pos rfl, bind_of_ok (expectIdent_facing fieldKind), bind_of_ok freshId_facing]

/-- The symbols that stand behind whole expressions end them. -/
theorem stops_of_symbol {t : Token} {mark : Symbol} (found : t.kind = .symbol mark)
    (ending : mark = .rightParen ∨ mark = .comma ∨ mark = .semicolon) :
    Tier.assignment.Stops t := by
  obtain ⟨kind, _, _⟩ := t
  subst found
  rcases ending with rfl | rfl | rfl <;>
    exact ⟨⟨⟨by simp, by simp⟩, fun other => by cases other <;> rfl⟩, by simp⟩

def AcceptsArguments (i : ExprId) (w : List Token) (args : List Expr) (j : ExprId) : Prop :=
  ∀ (s : State) (r : List Token) (fuel count : Nat), 16 * w.length < fuel →
    count + args.length ≤ maxArguments → (s.facing r j).next.kind = .symbol .rightParen →
    arguments fuel count (s.facing (w ++ r) i) = .ok args (s.facing r j)

theorem accepts_callWith {opening closing : Token} {callee : Expr} {args : List Expr}
    (accepts : Accepts .call i w callee j) (openingKind : opening.kind = .symbol .leftParen)
    (acceptsArguments : AcceptsArguments j v args k) (few : args.length ≤ maxArguments)
    (starts : ∃ t u, v = t :: u ∧ Tier.assignment.startsWith t.kind = true)
    (closingKind : closing.kind = .symbol .rightParen) :
    Accepts .call i (w ++ opening :: (v ++ [closing]))
      (.call k closing.span callee args) (k + 1) := by
  intro s r fuel enough
  simp only [Tier.slack, List.length_append, List.length_cons, List.length_nil] at enough ⊢
  obtain ⟨fuel', remains, reads⟩ := accepts s (opening :: (v ++ closing :: r)) fuel
    (by simp only [Tier.slack]; omega)
  obtain ⟨fuel', rfl⟩ : ∃ n, fuel' = n + 1 := ⟨fuel' - 1, by omega⟩
  refine ⟨fuel', by omega, ?_⟩
  have some : (s.facing (v ++ closing :: r) j).next.kind ≠ .symbol .rightParen := by
    obtain ⟨t, u, rfl, starts⟩ := starts
    intro found
    rw [List.cons_append, State.facing_next] at found
    simp [found, Tier.startsWith, startsPrimary, unaryOperator?] at starts
  have argumentsRead := acceptsArguments s (closing :: r) fuel' 0 (by omega) (by omega) closingKind
  have shape : w ++ opening :: (v ++ [closing]) ++ r = w ++ opening :: (v ++ closing :: r) := by
    simp
  rw [shape, reads, callTail, bind_of_ok (accept_facing openingKind), if_pos rfl,
    bind_of_ok (nextIs_of_ne some)]
  dsimp only
  rw [if_neg Bool.false_ne_true, bind_of_ok argumentsRead, bind_of_ok (expect_facing closingKind),
    bind_of_ok freshId_facing]

theorem accepts_last_argument (accepts : Accepts .assignment i w e j) :
    AcceptsArguments i w [e] j := by
  intro s r fuel count enough few closing
  simp only [List.length_singleton] at few
  obtain ⟨fuel, rfl⟩ : ∃ n, fuel = n + 1 := ⟨fuel - 1, by omega⟩
  have noComma : (s.facing r j).next.kind ≠ .symbol .comma := by simp [closing]
  have argument := accepts s r fuel (by simp only [Tier.slack]; omega)
    (stops_of_symbol closing (by simp))
  rw [arguments, if_neg (by omega)]
  dsimp only
  rw [bind_of_ok argument, bind_of_ok (accept_of_ne noComma)]
  rfl

theorem accepts_argument {comma : Token} {rest : List Expr} (accepts : Accepts .assignment i w e j)
    (commaKind : comma.kind = .symbol .comma) (acceptsRest : AcceptsArguments j v rest k) :
    AcceptsArguments i (w ++ comma :: v) (e :: rest) k := by
  intro s r fuel count enough few closing
  simp only [List.length_append, List.length_cons] at enough few
  obtain ⟨fuel, rfl⟩ : ∃ n, fuel = n + 1 := ⟨fuel - 1, by omega⟩
  have first := accepts s (comma :: (v ++ r)) fuel (by simp only [Tier.slack]; omega)
    (stops_of_symbol commaKind (by simp))
  have others := acceptsRest s r fuel (count + 1) (by omega) (by omega) closing
  rw [List.append_assoc, List.cons_append, arguments, if_neg (by omega)]
  dsimp only
  rw [bind_of_ok first, bind_of_ok (accept_facing commaKind), if_pos rfl, bind_of_ok others]
  rfl

/-- What stands to the left of an equals sign is read at the loosest level of operators. -/
theorem operators_accepts_target (spells : Spells .call i w e j) (accepts : Accepts .call i w e j)
    {equal : Token} (equalKind : equal.kind = .symbol .equal) (s : State) (r : List Token)
    (fuel : Nat) (enough : 16 * w.length ≤ fuel + 1) :
    operators fuel .or (s.facing (w ++ equal :: r) i) = .ok e (s.facing (equal :: r) j) := by
  have looser {tier tier' : Tier} (below : tier.tighter? = some tier')
      (both : Spells tier' i w e j ∧ Accepts tier' i w e j) :
      Spells tier i w e j ∧ Accepts tier i w e j :=
    ⟨.tighter below both.1, accepts_of_tighter below both.1 both.2⟩
  obtain ⟨spells, accepts⟩ : Spells (.operators .or) i w e j ∧ Accepts (.operators .or) i w e j :=
    looser rfl (looser rfl (looser rfl (looser rfl (looser rfl (looser rfl (looser rfl
      ⟨spells, accepts⟩))))))
  refine operators_accepts spells accepts s (equal :: r) fuel enough ⟨⟨?_, ?_⟩, fun other _ => ?_⟩
  · simp [equalKind]
  · simp [equalKind]
  · rw [State.facing_next, equalKind]
    cases other <;> rfl

theorem accepts_ref {token : Token} {name : String} (found : token.kind = .identifier name) :
    Accepts .primary i [token] (.ref ⟨i, ⟨name, token.span⟩⟩) (i + 1) := by
  intro s r fuel enough
  simp only [Tier.slack, List.length_singleton] at enough
  obtain ⟨fuel, rfl⟩ : ∃ n, fuel = n + 1 := ⟨fuel - 1, by omega⟩
  rw [List.singleton_append, primary, bind_of_ok peek_facing, found]
  rfl

theorem accepts_assign {target equal : Token} {name : String} {value : Expr}
    (targetKind : target.kind = .identifier name) (equalKind : equal.kind = .symbol .equal)
    (accepts : Accepts .assignment (i + 1) w value j) :
    Accepts .assignment i (target :: equal :: w) (.assign j ⟨name, target.span⟩ value) (j + 1) := by
  intro s r fuel enough stops
  simp only [Tier.slack, List.length_cons] at enough
  obtain ⟨fuel, rfl⟩ : ∃ n, fuel = n + 1 := ⟨fuel - 1, by omega⟩
  have targetRead := operators_accepts_target (.tighter rfl (.ref targetKind))
    (accepts_call_of_primary (.ref targetKind) (accepts_ref targetKind)) equalKind s (w ++ r) fuel
    (i := i) (by simp only [List.length_singleton]; omega)
  have value := accepts s r fuel (by simp only [Tier.slack]; omega) stops
  rw [List.cons_append, List.cons_append, expression]
  rw [List.singleton_append] at targetRead
  rw [bind_of_ok targetRead, bind_of_ok peek_facing, if_pos (Token.isSymbol_iff.mpr equalKind),
    bind_of_ok advance_facing, bind_of_ok value]
  rfl

theorem accepts_set {dot field equal : Token} {name : String} {object value : Expr}
    (spells : Spells .call i w object j) (accepts : Accepts .call i w object j)
    (dotKind : dot.kind = .symbol .dot) (fieldKind : field.kind = .identifier name)
    (equalKind : equal.kind = .symbol .equal)
    (acceptsValue : Accepts .assignment (j + 1) v value k) :
    Accepts .assignment i (w ++ dot :: field :: equal :: v) (.set k object ⟨name, field.span⟩ value)
      (k + 1) := by
  intro s r fuel enough stops
  simp only [Tier.slack, List.length_append, List.length_cons] at enough
  obtain ⟨fuel, rfl⟩ : ∃ n, fuel = n + 1 := ⟨fuel - 1, by omega⟩
  have property := operators_accepts_target (.get spells dotKind fieldKind)
    (accepts_get accepts dotKind fieldKind) equalKind s (v ++ r) fuel
    (by simp only [List.length_append, List.length_cons, List.length_nil]; omega)
  have value := acceptsValue s r fuel (by simp only [Tier.slack]; omega) stops
  have shape : w ++ dot :: field :: equal :: v ++ r = w ++ [dot, field] ++ equal :: (v ++ r) := by
    simp
  rw [shape, expression, bind_of_ok property, bind_of_ok peek_facing,
    if_pos (Token.isSymbol_iff.mpr equalKind), bind_of_ok advance_facing, bind_of_ok value]
  rfl

theorem accepts_literal {token : Token} {value : Literal}
    (found : literal? token.kind = some value) :
    Accepts .primary i [token] (.literal i token.span value) (i + 1) := by
  intro s r fuel enough
  simp only [Tier.slack, List.length_singleton] at enough
  obtain ⟨fuel, rfl⟩ : ∃ n, fuel = n + 1 := ⟨fuel - 1, by omega⟩
  rw [List.singleton_append, primary, bind_of_ok peek_facing, found]
  rfl

theorem accepts_this {token : Token} (found : token.kind = .keyword .this) :
    Accepts .primary i [token] (.this i token.span) (i + 1) := by
  intro s r fuel enough
  simp only [Tier.slack, List.length_singleton] at enough
  obtain ⟨fuel, rfl⟩ : ∃ n, fuel = n + 1 := ⟨fuel - 1, by omega⟩
  rw [List.singleton_append, primary, bind_of_ok peek_facing, found]
  rfl

theorem accepts_super {token dot method : Token} {name : String}
    (found : token.kind = .keyword .super) (dotKind : dot.kind = .symbol .dot)
    (methodKind : method.kind = .identifier name) :
    Accepts .primary i [token, dot, method] (.super i token.span ⟨name, method.span⟩) (i + 1) := by
  intro s r fuel enough
  simp only [Tier.slack, List.length_cons, List.length_nil] at enough
  obtain ⟨fuel, rfl⟩ : ∃ n, fuel = n + 1 := ⟨fuel - 1, by omega⟩
  rw [List.cons_append, List.cons_append, List.singleton_append, primary,
    bind_of_ok peek_facing, found]
  show (advance >>= fun _ => _) _ = _
  rw [bind_of_ok advance_facing, bind_of_ok (expect_facing dotKind),
    bind_of_ok (expectIdent_facing methodKind), bind_of_ok freshId_facing]
  rfl

theorem accepts_group {opening closing : Token} {inner : Expr}
    (openingKind : opening.kind = .symbol .leftParen) (accepts : Accepts .assignment i w inner j)
    (closingKind : closing.kind = .symbol .rightParen) :
    Accepts .primary i (opening :: (w ++ [closing])) (.group j opening.span inner) (j + 1) := by
  intro s r fuel enough
  simp only [Tier.slack, List.length_cons, List.length_append, List.length_nil] at enough
  obtain ⟨fuel, rfl⟩ : ∃ n, fuel = n + 1 := ⟨fuel - 1, by omega⟩
  have inner := accepts s (closing :: r) fuel (by simp only [Tier.slack]; omega)
    (stops_of_symbol closingKind (by simp))
  rw [List.cons_append, List.append_assoc, List.singleton_append, primary, bind_of_ok peek_facing,
    openingKind]
  show (advance >>= fun _ => _) _ = _
  rw [bind_of_ok advance_facing, bind_of_ok inner, bind_of_ok (expect_facing closingKind),
    bind_of_ok freshId_facing]
  rfl

end Tiers

theorem SpellsArguments.starts {i j : ExprId} {w : List Token} {args : List Expr}
    (spells : SpellsArguments i w args j) :
    ∃ t v, w = t :: v ∧ Tier.assignment.startsWith t.kind = true := by
  cases spells with
  | last first => exact first.starts
  | cons first _ _ => exact startsWith_append first.starts _

mutual

theorem Spells.accepts : ∀ {tier : Tier} {i j : ExprId} {w : List Token} {e : Expr},
    Spells tier i w e j → Accepts tier i w e j
  | _, _, _, _, _, .tighter below inner => accepts_of_tighter below inner inner.accepts
  | _, _, _, _, _, .assign target equal value => accepts_assign target equal value.accepts
  | _, _, _, _, _, .set object dot field equal value =>
    accepts_set object object.accepts dot field equal value.accepts
  | _, _, _, _, _, .operator left found right =>
    accepts_operator left left.accepts found right right.accepts
  | _, _, _, _, _, .unary found operand => accepts_unary found operand.accepts
  | _, _, _, _, _, .call callee opening closing => accepts_call callee.accepts opening closing
  | _, _, _, _, _, .callWith callee opening args few closing =>
    accepts_callWith callee.accepts opening args.accepts few args.starts closing
  | _, _, _, _, _, .get object dot field => accepts_get object.accepts dot field
  | _, _, _, _, _, .literal found => accepts_literal found
  | _, _, _, _, _, .ref found => accepts_ref found
  | _, _, _, _, _, .this found => accepts_this found
  | _, _, _, _, _, .super found dot method => accepts_super found dot method
  | _, _, _, _, _, .group opening inner closing => accepts_group opening inner.accepts closing

theorem SpellsArguments.accepts : ∀ {i j : ExprId} {w : List Token} {args : List Expr},
    SpellsArguments i w args j → AcceptsArguments i w args j
  | _, _, _, _, .last first => accepts_last_argument first.accepts
  | _, _, _, _, .cons first comma rest => accepts_argument first.accepts comma rest.accepts

end

end Lox.Grammar
