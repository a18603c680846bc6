import Lox.Grammar.Program
import Mathlib

set_option autoImplicit false

/-!
# Spelling

Which words of tokens spell which expressions, statements and programs. The relations look at no
token outside of the word. They also say how expressions are numbered: the numbers from the first
index up to, and without, the last one belong to the word.

Expressions come in tiers, each of which holds the tighter ones. Operators of one level associate to
the left. A statement is open if a branch could still be added to it, which is to say that it ends
in an `if` statement without one; no branch is ever added behind an open statement.
-/

namespace Lox.Grammar

/-- Kinds of expressions, from the loosest to the tightest. -/
inductive Tier where
  | assignment
  | operators (level : Level)
  | unary
  | call
  | primary
  deriving DecidableEq, Repr

def Level.operandTier (level : Level) : Tier :=
  match level.tighter? with
  | some tighter => .operators tighter
  | none => .unary

def Tier.tighter? : Tier → Option Tier
  | .assignment => some (.operators .or)
  | .operators level => some level.operandTier
  | .unary => some .call
  | .call => some .primary
  | .primary => none

mutual

inductive Spells : Tier → ExprId → List Token → Expr → ExprId → Prop where
  | tighter {tier tier' : Tier} {i j : ExprId} {w : List Token} {e : Expr} :
    tier.tighter? = some tier' → Spells tier' i w e j → Spells tier i w e j
  /-- The number of the variable on the left is given up. -/
  | assign {i j : ExprId} {target equal : Token} {name : String} {w : List Token} {value : Expr} :
    target.kind = .identifier name → equal.kind = .symbol .equal →
      Spells .assignment (i + 1) w value j →
      Spells .assignment i (target :: equal :: w) (.assign j ⟨name, target.span⟩ value) (j + 1)
  /-- The number of the property on the left is given up. -/
  | set {i j k : ExprId} {dot field equal : Token} {name : String} {w v : List Token}
      {object value : Expr} :
    Spells .call i w object j → dot.kind = .symbol .dot → field.kind = .identifier name →
      equal.kind = .symbol .equal → Spells .assignment (j + 1) v value k →
      Spells .assignment i (w ++ dot :: field :: equal :: v)
        (.set k object ⟨name, field.span⟩ value) (k + 1)
  | operator {level : Level} {i j k : ExprId} {token : Token} {op : InfixOp} {w v : List Token}
      {left right : Expr} :
    Spells (.operators level) i w left j → level.operator? token.kind = some op →
      Spells level.operandTier j v right k →
      Spells (.operators level) i (w ++ token :: v) (op.apply k token.span left right) (k + 1)
  | unary {i j : ExprId} {token : Token} {op : UnaryOp} {w : List Token} {operand : Expr} :
    unaryOperator? token.kind = some op → Spells .unary i w operand j →
      Spells .unary i (token :: w) (.unary j token.span op operand) (j + 1)
  | call {i j : ExprId} {opening closing : Token} {w : List Token} {callee : Expr} :
    Spells .call i w callee j → opening.kind = .symbol .leftParen →
      closing.kind = .symbol .rightParen →
      Spells .call i (w ++ [opening, closing]) (.call j closing.span callee []) (j + 1)
  | callWith {i j k : ExprId} {opening closing : Token} {w v : List Token} {callee : Expr}
      {args : List Expr} :
    Spells .call i w callee j → opening.kind = .symbol .leftParen → SpellsArguments j v args k →
      args.length ≤ maxArguments → closing.kind = .symbol .rightParen →
      Spells .call i (w ++ opening :: (v ++ [closing])) (.call k closing.span callee args) (k + 1)
  | get {i j : ExprId} {dot field : Token} {name : String} {w : List Token} {object : Expr} :
    Spells .call i w object j → dot.kind = .symbol .dot → field.kind = .identifier name →
      Spells .call i (w ++ [dot, field]) (.get j object ⟨name, field.span⟩) (j + 1)
  | literal {i : ExprId} {token : Token} {value : Literal} :
    literal? token.kind = some value →
      Spells .primary i [token] (.literal i token.span value) (i + 1)
  | ref {i : ExprId} {token : Token} {name : String} :
    token.kind = .identifier name →
      Spells .primary i [token] (.ref ⟨i, ⟨name, token.span⟩⟩) (i + 1)
  | this {i : ExprId} {token : Token} :
    token.kind = .keyword .this → Spells .primary i [token] (.this i token.span) (i + 1)
  | super {i : ExprId} {token dot method : Token} {name : String} :
    token.kind = .keyword .super → dot.kind = .symbol .dot → method.kind = .identifier name →
      Spells .primary i [token, dot, method] (.super i token.span ⟨name, method.span⟩) (i + 1)
  | group {i j : ExprId} {opening closing : Token} {w : List Token} {inner : Expr} :
    opening.kind = .symbol .leftParen → Spells .assignment i w inner j →
      closing.kind = .symbol .rightParen →
      Spells .primary i (opening :: (w ++ [closing])) (.group j opening.span inner) (j + 1)

inductive SpellsArguments : ExprId → List Token → List Expr → ExprId → Prop where
  | last {i j : ExprId} {w : List Token} {e : Expr} :
    Spells .assignment i w e j → SpellsArguments i w [e] j
  | cons {i j k : ExprId} {comma : Token} {w v : List Token} {e : Expr} {rest : List Expr} :
    Spells .assignment i w e j → comma.kind = .symbol .comma → SpellsArguments j v rest k →
      SpellsArguments i (w ++ comma :: v) (e :: rest) k

end

inductive SpellsOption : ExprId → List Token → Option Expr → ExprId → Prop where
  | none {i : ExprId} : SpellsOption i [] none i
  | some {i j : ExprId} {w : List Token} {e : Expr} :
    Spells .assignment i w e j → SpellsOption i w (some e) j

inductive SpellsVariable : ExprId → List Token → Stmt → ExprId → Prop where
  | bare {i : ExprId} {token semicolon : Token} {name : String} :
    token.kind = .identifier name → semicolon.kind = .symbol .semicolon →
      SpellsVariable i [token, semicolon] (.var ⟨name, token.span⟩ none) i
  | initialized {i j : ExprId} {token equal semicolon : Token} {name : String} {w : List Token}
      {initial : Expr} :
    token.kind = .identifier name → equal.kind = .symbol .equal →
      Spells .assignment i w initial j → semicolon.kind = .symbol .semicolon →
      SpellsVariable i (token :: equal :: (w ++ [semicolon]))
        (.var ⟨name, token.span⟩ (some initial)) j

inductive SpellsInitial : ExprId → List Token → Option Stmt → ExprId → Prop where
  | none {i : ExprId} {semicolon : Token} :
    semicolon.kind = .symbol .semicolon → SpellsInitial i [semicolon] none i
  | var {i j : ExprId} {keyword : Token} {w : List Token} {s : Stmt} :
    keyword.kind = .keyword .var → SpellsVariable i w s j →
      SpellsInitial i (keyword :: w) (some s) j
  | expr {i j : ExprId} {semicolon : Token} {w : List Token} {value : Expr} :
    Spells .assignment i w value j → semicolon.kind = .symbol .semicolon →
      SpellsInitial i (w ++ [semicolon]) (some (.expr value)) j

/-- The condition of a for statement, whose number is handed out behind the body if it is left
out. -/
inductive SpellsCondition (keyword : Token) :
    ExprId → List Token → ExprId → ExprId → Expr → ExprId → Prop where
  | none {i j : ExprId} :
    SpellsCondition keyword i [] i j (.literal j keyword.span (.bool true)) (j + 1)
  | some {i j k : ExprId} {w : List Token} {e : Expr} :
    Spells .assignment i w e j → SpellsCondition keyword i w j k e k

inductive SpellsSuperclass : ExprId → List Token → Option Reference → ExprId → Prop where
  | none {i : ExprId} : SpellsSuperclass i [] none i
  | some {i : ExprId} {less token : Token} {name : String} :
    less.kind = .symbol .less → token.kind = .identifier name →
      SpellsSuperclass i [less, token] (some ⟨i, ⟨name, token.span⟩⟩) (i + 1)

inductive SpellsNames : List Token → List Ident → Prop where
  | last {token : Token} {name : String} :
    token.kind = .identifier name → SpellsNames [token] [⟨name, token.span⟩]
  | cons {token comma : Token} {name : String} {w : List Token} {rest : List Ident} :
    token.kind = .identifier name → comma.kind = .symbol .comma → SpellsNames w rest →
      SpellsNames (token :: comma :: w) (⟨name, token.span⟩ :: rest)

inductive SpellsParameters : List Token → List Ident → Prop where
  | none : SpellsParameters [] []
  | some {w : List Token} {params : List Ident} :
    SpellsNames w params → params.length ≤ maxArguments → SpellsParameters w params

mutual

/-- Statements that are open or not. -/
inductive SpellsStatement : Bool → ExprId → List Token → Stmt → ExprId → Prop where
  | expr {i j : ExprId} {semicolon : Token} {w : List Token} {value : Expr} :
    Spells .assignment i w value j → semicolon.kind = .symbol .semicolon →
      SpellsStatement false i (w ++ [semicolon]) (.expr value) j
  | print {i j : ExprId} {keyword semicolon : Token} {w : List Token} {value : Expr} :
    keyword.kind = .keyword .print → Spells .assignment i w value j →
      semicolon.kind = .symbol .semicolon →
      SpellsStatement false i (keyword :: (w ++ [semicolon])) (.print value) j
  | return {i j : ExprId} {keyword semicolon : Token} {w : List Token} {value : Option Expr} :
    keyword.kind = .keyword .return → SpellsOption i w value j →
      semicolon.kind = .symbol .semicolon →
      SpellsStatement false i (keyword :: (w ++ [semicolon])) (.return keyword.span value) j
  | block {i j : ExprId} {opening closing : Token} {w : List Token} {body : List Stmt} :
    opening.kind = .symbol .leftBrace → SpellsDeclarations i w body j →
      closing.kind = .symbol .rightBrace →
      SpellsStatement false i (opening :: (w ++ [closing])) (.block body) j
  | while {isOpen : Bool} {i j k : ExprId} {keyword opening closing : Token} {w v : List Token}
      {condition : Expr} {body : Stmt} :
    keyword.kind = .keyword .while → opening.kind = .symbol .leftParen →
      Spells .assignment i w condition j → closing.kind = .symbol .rightParen →
      SpellsStatement isOpen j v body k →
      SpellsStatement isOpen i (keyword :: opening :: (w ++ closing :: v)) (.while condition body) k
  | if {isOpen : Bool} {i j k : ExprId} {keyword opening closing : Token} {w v : List Token}
      {condition : Expr} {yes : Stmt} :
    keyword.kind = .keyword .if → opening.kind = .symbol .leftParen →
      Spells .assignment i w condition j → closing.kind = .symbol .rightParen →
      SpellsStatement isOpen j v yes k →
      SpellsStatement true i (keyword :: opening :: (w ++ closing :: v)) (.if condition yes none) k
  | ifElse {isOpen : Bool} {i j k l : ExprId} {keyword opening closing otherwise : Token}
      {w v u : List Token} {condition : Expr} {yes no : Stmt} :
    keyword.kind = .keyword .if → opening.kind = .symbol .leftParen →
      Spells .assignment i w condition j → closing.kind = .symbol .rightParen →
      SpellsStatement false j v yes k → otherwise.kind = .keyword .else →
      SpellsStatement isOpen k u no l →
      SpellsStatement isOpen i (keyword :: opening :: (w ++ closing :: (v ++ otherwise :: u)))
        (.if condition yes (some no)) l
  | for {isOpen : Bool} {i j k l m n : ExprId} {keyword opening semicolon closing : Token}
      {w v u t : List Token} {initial : Option Stmt} {condition : Expr} {increment : Option Expr}
      {body : Stmt} :
    keyword.kind = .keyword .for → opening.kind = .symbol .leftParen →
      SpellsInitial i w initial j → SpellsCondition keyword j v k m condition n →
      semicolon.kind = .symbol .semicolon → SpellsOption k u increment l →
      closing.kind = .symbol .rightParen → SpellsStatement isOpen l t body m →
      SpellsStatement isOpen i
        (keyword :: opening :: (w ++ (v ++ semicolon :: (u ++ closing :: t))))
        (forLoop initial condition increment body) n

inductive SpellsDeclaration : ExprId → List Token → Stmt → ExprId → Prop where
  | class {i j k : ExprId} {keyword token opening closing : Token} {name : String}
      {w v : List Token} {superclass : Option Reference} {methods : List (Routine (List Stmt))} :
    keyword.kind = .keyword .class → token.kind = .identifier name →
      SpellsSuperclass i w superclass j → opening.kind = .symbol .leftBrace →
      SpellsMethods j v methods k → closing.kind = .symbol .rightBrace →
      SpellsDeclaration i (keyword :: token :: (w ++ opening :: (v ++ [closing])))
        (.class ⟨name, token.span⟩ superclass methods) k
  | fun {i j : ExprId} {keyword : Token} {w : List Token} {routine : Routine (List Stmt)} :
    keyword.kind = .keyword .fun → SpellsRoutine i w routine j →
      SpellsDeclaration i (keyword :: w) (.fun routine) j
  | var {i j : ExprId} {keyword : Token} {w : List Token} {s : Stmt} :
    keyword.kind = .keyword .var → SpellsVariable i w s j → SpellsDeclaration i (keyword :: w) s j
  | statement {isOpen : Bool} {i j : ExprId} {w : List Token} {s : Stmt} :
    SpellsStatement isOpen i w s j → SpellsDeclaration i w s j

inductive SpellsRoutine : ExprId → List Token → Routine (List Stmt) → ExprId → Prop where
  | mk {i j : ExprId} {token opening closing brace last : Token} {name : String}
      {w v : List Token} {params : List Ident} {body : List Stmt} :
    token.kind = .identifier name → opening.kind = .symbol .leftParen →
      SpellsParameters w params → closing.kind = .symbol .rightParen →
      brace.kind = .symbol .leftBrace → SpellsDeclarations i v body j →
      last.kind = .symbol .rightBrace →
      SpellsRoutine i (token :: opening :: (w ++ closing :: brace :: (v ++ [last])))
        ⟨⟨name, token.span⟩, params, body⟩ j

inductive SpellsMethods : ExprId → List Token → List (Routine (List Stmt)) → ExprId → Prop where
  | nil {i : ExprId} : SpellsMethods i [] [] i
  | cons {i j k : ExprId} {w v : List Token} {method : Routine (List Stmt)}
      {rest : List (Routine (List Stmt))} :
    SpellsRoutine i w method j → SpellsMethods j v rest k →
      SpellsMethods i (w ++ v) (method :: rest) k

inductive SpellsDeclarations : ExprId → List Token → List Stmt → ExprId → Prop where
  | nil {i : ExprId} : SpellsDeclarations i [] [] i
  | cons {i j k : ExprId} {w v : List Token} {s : Stmt} {rest : List Stmt} :
    SpellsDeclaration i w s j → SpellsDeclarations j v rest k →
      SpellsDeclarations i (w ++ v) (s :: rest) k

end

/-! ## First tokens -/

def startsPrimary : Token.Kind → Bool
  | .identifier _ | .number _ | .string _ => true
  | .keyword .nil | .keyword .true | .keyword .false | .keyword .this | .keyword .super => true
  | .symbol .leftParen => true
  | _ => false

def Tier.startsWith : Tier → Token.Kind → Bool
  | .primary, kind | .call, kind => startsPrimary kind
  | .unary, kind | .operators _, kind | .assignment, kind =>
    startsPrimary kind || (unaryOperator? kind).isSome

def beginsStatement : Token.Kind → Bool
  | .keyword .for | .keyword .if | .keyword .print | .keyword .return | .keyword .while
  | .symbol .leftBrace => true
  | kind => Tier.assignment.startsWith kind

def beginsDeclaration : Token.Kind → Bool
  | .keyword .class | .keyword .fun | .keyword .var => true
  | kind => beginsStatement kind

theorem startsPrimary_of_literal {kind : Token.Kind} {value : Literal}
    (found : literal? kind = some value) : startsPrimary kind = true := by
  cases kind with
  | identifier _ | number _ | string _ => rfl
  | keyword word => cases word <;> simp_all [literal?, startsPrimary]
  | symbol _ | endOfInput => cases found

theorem Tier.startsWith_of_tighter {tier tier' : Tier} {kind : Token.Kind}
    (tighter : tier.tighter? = some tier') (starts : tier'.startsWith kind = true) :
    tier.startsWith kind = true := by
  cases tier with
  | primary => cases tighter
  | call =>
    cases tighter
    exact starts
  | unary =>
    cases tighter
    simpa [Tier.startsWith] using .inl starts
  | assignment =>
    cases tighter
    exact starts
  | operators level => cases level <;> cases tighter <;> exact starts

/-- A word that goes on behind one starts with the same token. -/
theorem startsWith_append {starts : Token.Kind → Bool} {w : List Token}
    (first : ∃ t v, w = t :: v ∧ starts t.kind = true) (rest : List Token) :
    ∃ t v, w ++ rest = t :: v ∧ starts t.kind = true := by
  obtain ⟨t, v, rfl, found⟩ := first
  exact ⟨t, v ++ rest, rfl, found⟩

theorem Spells.starts : ∀ {tier : Tier} {i j : ExprId} {w : List Token} {e : Expr},
    Spells tier i w e j → ∃ t v, w = t :: v ∧ tier.startsWith t.kind = true
  | _, _, _, _, _, .tighter below inner => by
    obtain ⟨t, v, rfl, found⟩ := inner.starts
    exact ⟨t, v, rfl, Tier.startsWith_of_tighter below found⟩
  | _, _, _, _, _, .assign target _ _ =>
    ⟨_, _, rfl, by simp [Tier.startsWith, startsPrimary, target]⟩
  | _, _, _, _, _, .set object _ _ _ _ => by
    obtain ⟨t, v, rfl, found⟩ := object.starts
    exact ⟨t, _, rfl, by simpa [Tier.startsWith] using .inl found⟩
  | _, _, _, _, _, .operator left _ _ => startsWith_append left.starts _
  | _, _, _, _, _, .unary found _ => ⟨_, _, rfl, by simp [Tier.startsWith, found]⟩
  | _, _, _, _, _, .call callee _ _ => startsWith_append callee.starts _
  | _, _, _, _, _, .callWith callee _ _ _ _ => startsWith_append callee.starts _
  | _, _, _, _, _, .get object _ _ => startsWith_append object.starts _
  | _, _, _, _, _, .literal found => ⟨_, _, rfl, startsPrimary_of_literal found⟩
  | _, _, _, _, _, .ref found | _, _, _, _, _, .this found | _, _, _, _, _, .super found _ _
  | _, _, _, _, _, .group found _ _ => ⟨_, _, rfl, by simp [Tier.startsWith, startsPrimary, found]⟩

theorem beginsStatement_of_expression {kind : Token.Kind}
    (starts : Tier.assignment.startsWith kind = true) : beginsStatement kind = true := by
  unfold beginsStatement
  split <;> simp_all

theorem beginsDeclaration_of_statement {kind : Token.Kind} (begins : beginsStatement kind = true) :
    beginsDeclaration kind = true := by
  unfold beginsDeclaration
  split <;> simp_all

theorem SpellsStatement.begins {isOpen : Bool} {i j : ExprId} {w : List Token} {s : Stmt}
    (spells : SpellsStatement isOpen i w s j) :
    ∃ t v, w = t :: v ∧ beginsStatement t.kind = true := by
  cases spells with
  | expr value _ =>
    obtain ⟨t, v, rfl, found⟩ := value.starts
    exact ⟨t, _, rfl, beginsStatement_of_expression found⟩
  | print keyword | «return» keyword | block keyword | «while» keyword | «if» keyword
  | ifElse keyword | «for» keyword =>
    exact ⟨_, _, rfl, by simp [beginsStatement, keyword]⟩

theorem SpellsDeclaration.begins {i j : ExprId} {w : List Token} {s : Stmt}
    (spells : SpellsDeclaration i w s j) : ∃ t v, w = t :: v ∧ beginsDeclaration t.kind = true := by
  cases spells with
  | statement statement =>
    obtain ⟨t, v, rfl, found⟩ := statement.begins
    exact ⟨t, v, rfl, beginsDeclaration_of_statement found⟩
  | «class» keyword | «fun» keyword | var keyword =>
    exact ⟨_, _, rfl, by simp [beginsDeclaration, keyword]⟩

/-! ## Targets of assignments -/

/-- What a word is that spells a variable or a property, at whatever tier it stands. -/
def SpellsTarget (i : ExprId) (w : List Token) (j : ExprId) : Expr → Prop
  | .ref r => ∃ token name, w = [token] ∧ token.kind = .identifier name ∧
      r = ⟨i, ⟨name, token.span⟩⟩ ∧ j = i + 1
  | .get id object name => ∃ v dot field text, w = v ++ [dot, field] ∧ Spells .call i v object id ∧
      dot.kind = .symbol .dot ∧ field.kind = .identifier text ∧
      name = ⟨text, field.span⟩ ∧ j = id + 1
  | _ => True

theorem InfixOp.spellsTarget_apply (op : InfixOp) {i j id : ExprId} {w : List Token} {span : Span}
    {left right : Expr} : SpellsTarget i w j (op.apply id span left right) := by
  cases op <;> trivial

theorem Spells.target : ∀ {tier : Tier} {i j : ExprId} {w : List Token} {e : Expr},
    Spells tier i w e j → SpellsTarget i w j e
  | _, _, _, _, _, .tighter _ inner => inner.target
  | _, _, _, _, _, .operator _ _ _ => InfixOp.spellsTarget_apply _
  | _, _, _, _, _, .ref found => ⟨_, _, rfl, found, rfl, rfl⟩
  | _, _, _, _, _, .get object dot field => ⟨_, _, _, _, rfl, object, dot, field, rfl, rfl⟩
  | _, _, _, _, _, .assign .. | _, _, _, _, _, .set .. | _, _, _, _, _, .unary ..
  | _, _, _, _, _, .call ..
  | _, _, _, _, _, .callWith .. | _, _, _, _, _, .literal .. | _, _, _, _, _, .this ..
  | _, _, _, _, _, .super ..
  | _, _, _, _, _, .group .. => trivial

end Lox.Grammar
