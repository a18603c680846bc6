import Lox.Proofs.Grammar.Completeness
import Lox.Proofs.Grammar.Counting

set_option autoImplicit false

/-!
# How what was read is nested

A program that was read shows how tightly its operators bind. The operands of an operator bind at
least as tightly as the operator, and its right operand does so more tightly. A branch behind `else`
belongs to the nearest `if` that could take it.
-/

namespace Lox

def BinaryOp.level : BinaryOp → Grammar.Level
  | .equal | .notEqual => .equality
  | .greater | .greaterEqual | .less | .lessEqual => .comparison
  | .add | .sub => .term
  | .mul | .div => .factor

def LogicalOp.level : LogicalOp → Grammar.Level
  | .and => .and
  | .or => .or

namespace Grammar

def InfixOp.level : InfixOp → Level
  | .binary op => op.level
  | .logical op => op.level

/-- An operator is found at its own level. -/
theorem Level.eq_of_operator? {level : Level} {kind : Token.Kind} {op : InfixOp}
    (found : level.operator? kind = some op) : op.level = level := by
  unfold Level.operator? at found
  split at found <;> cases found <;> rfl

def Tier.rank : Tier → Nat
  | .assignment => 0
  | .operators level => level.rank + 1
  | .unary => 7
  | .call => 8
  | .primary => 9

theorem Tier.rank_of_tighter {tier tier' : Tier} (below : tier.tighter? = some tier') :
    tier'.rank = tier.rank + 1 := by
  cases tier with
  | operators level => cases level <;> cases below <;> rfl
  | assignment | unary | call => cases below; rfl
  | primary => cases below

theorem Level.rank_operandTier (level : Level) :
    level.operandTier.rank = (Tier.operators level).rank + 1 :=
  Tier.rank_of_tighter rfl

end Grammar

open Grammar (Tier)

namespace Expr

def tier : Expr → Tier
  | .assign .. | .set .. => .assignment
  | .binary _ _ op _ _ => .operators op.level
  | .logical _ _ op _ _ => .operators op.level
  | .unary .. => .unary
  | .call .. | .get .. => .call
  | .literal .. | .ref _ | .group .. | .this .. | .super .. => .primary

/-- How tightly the operands of an expression bind, if it has any that are not set off by a mark. An
assignment may have any expression as its value. -/
def Nested (e : Expr) : Prop :=
  match e with
  | .binary _ _ _ left right | .logical _ _ _ left right =>
    e.tier.rank ≤ left.tier.rank ∧ e.tier.rank < right.tier.rank
  | .unary _ _ _ operand => e.tier.rank ≤ operand.tier.rank
  | .call _ _ callee _ => e.tier.rank ≤ callee.tier.rank
  | .get _ object _ => e.tier.rank ≤ object.tier.rank
  | .set _ object _ _ => Tier.call.rank ≤ object.tier.rank
  | .literal .. | .ref _ | .assign .. | .group .. | .this .. | .super .. => True

end Expr

namespace Stmt

def isOpen : Stmt → Bool
  | .if _ _ none => true
  | .if _ _ (some no) => no.isOpen
  | .while _ body => body.isOpen
  | _ => false

/-- If there are two branches, the first is not one that could take the second. -/
def Closes : Stmt → Prop
  | .if _ yes (some _) => yes.isOpen = false
  | _ => True

mutual

/-- A statement and all statements in it. -/
def statements : Stmt → List Stmt
  | .expr value => [.expr value]
  | .print value => [.print value]
  | .var name initial => [.var name initial]
  | .block body => .block body :: statementsAll body
  | .if condition yes none => .if condition yes none :: yes.statements
  | .if condition yes (some no) => .if condition yes (some no) :: (yes.statements ++ no.statements)
  | .while condition body => .while condition body :: body.statements
  | .fun routine => .fun routine :: statementsOfRoutine routine
  | .return keyword value => [.return keyword value]
  | .class name superclass methods => .class name superclass methods :: statementsOfMethods methods

def statementsAll : List Stmt → List Stmt
  | [] => []
  | s :: rest => s.statements ++ statementsAll rest

def statementsOfRoutine : Routine (List Stmt) → List Stmt
  | ⟨_, _, body⟩ => statementsAll body

def statementsOfMethods : List (Routine (List Stmt)) → List Stmt
  | [] => []
  | method :: rest => statementsOfRoutine method ++ statementsOfMethods rest

end

end Stmt

def Program.statements (program : Program) : List Stmt :=
  Stmt.statementsAll program

namespace Grammar

theorem InfixOp.tier_apply (op : InfixOp) (id : ExprId) (span : Span) (left right : Expr) :
    (op.apply id span left right).tier = .operators op.level := by
  cases op <;> rfl

/-- An expression of a tier binds at least as tightly as the tier says. -/
theorem Spells.rank_le : ∀ {tier : Tier} {i j : ExprId} {w : List Token} {e : Expr},
    Spells tier i w e j → tier.rank ≤ e.tier.rank
  | _, _, _, _, _, .tighter below inner =>
    (Nat.le_succ _).trans ((Tier.rank_of_tighter below).symm.trans_le inner.rank_le)
  | _, _, _, _, _, .operator _ found _ => by
    rw [InfixOp.tier_apply, Level.eq_of_operator? found]
  | _, _, _, _, _, .assign .. | _, _, _, _, _, .set .. | _, _, _, _, _, .unary ..
  | _, _, _, _, _, .call ..
  | _, _, _, _, _, .callWith .. | _, _, _, _, _, .get .. | _, _, _, _, _, .literal ..
  | _, _, _, _, _, .ref ..
  | _, _, _, _, _, .this .. | _, _, _, _, _, .super .. | _, _, _, _, _, .group .. => le_rfl

theorem InfixOp.nested_apply {op : InfixOp} {id : ExprId} {span : Span} {left right : Expr}
    (loose : (Tier.operators op.level).rank ≤ left.tier.rank)
    (tight : (Tier.operators op.level).rank < right.tier.rank) :
    (op.apply id span left right).Nested := by
  cases op <;> exact ⟨loose, tight⟩

/-- Behind its parts, an expression is nested if they are. -/
theorem nested_nodes {e : Expr} (parts : ∀ inner ∈ e.parts, inner.Nested) (here : e.Nested) :
    ∀ inner ∈ e.nodes, inner.Nested := by
  rw [Expr.nodes_eq, List.forall_mem_append]
  exact ⟨parts, List.forall_mem_singleton.mpr here⟩

theorem InfixOp.parts_apply (op : InfixOp) (id : ExprId) (span : Span) (left right : Expr) :
    (op.apply id span left right).parts = left.nodes ++ right.nodes := by
  cases op <;> rfl

mutual

theorem Spells.nested : ∀ {tier : Tier} {i j : ExprId} {w : List Token} {e : Expr},
    Spells tier i w e j → ∀ inner ∈ e.nodes, inner.Nested
  | _, _, _, _, _, .tighter _ inner => inner.nested
  | _, _, _, _, _, .assign _ _ value => nested_nodes value.nested trivial
  | _, _, _, _, _, .set object _ _ _ value =>
    nested_nodes (List.forall_mem_append.mpr ⟨object.nested, value.nested⟩) object.rank_le
  | _, _, _, _, _, .operator left found right => by
    have same := Level.eq_of_operator? found
    refine nested_nodes ?_ (InfixOp.nested_apply ?_ ?_)
    · rw [InfixOp.parts_apply]
      exact List.forall_mem_append.mpr ⟨left.nested, right.nested⟩
    · rw [same]
      exact left.rank_le
    · rw [same]
      exact (Level.rank_operandTier _).symm.trans_le right.rank_le
  | _, _, _, _, _, .unary _ operand => nested_nodes operand.nested operand.rank_le
  | _, _, _, _, _, .call callee _ _ =>
    nested_nodes (List.forall_mem_append.mpr ⟨callee.nested, List.forall_mem_nil _⟩) callee.rank_le
  | _, _, _, _, _, .callWith callee _ args _ _ =>
    nested_nodes (List.forall_mem_append.mpr ⟨callee.nested, args.nested⟩) callee.rank_le
  | _, _, _, _, _, .get object _ _ => nested_nodes object.nested object.rank_le
  | _, _, _, _, _, .literal _ | _, _, _, _, _, .ref _ | _, _, _, _, _, .this _
  | _, _, _, _, _, .super _ _ _ =>
    nested_nodes (List.forall_mem_nil _) trivial
  | _, _, _, _, _, .group _ inner _ => nested_nodes inner.nested trivial

theorem SpellsArguments.nested : ∀ {i j : ExprId} {w : List Token} {args : List Expr},
    SpellsArguments i w args j → ∀ inner ∈ Expr.nodesAll args, inner.Nested
  | _, _, _, _, .last last => List.forall_mem_append.mpr ⟨last.nested, List.forall_mem_nil _⟩
  | _, _, _, _, .cons first _ rest => List.forall_mem_append.mpr ⟨first.nested, rest.nested⟩

end

/-! ## Statements -/

structure Shaped (nodes : List Expr) (statements : List Stmt) : Prop where
  nested : ∀ e ∈ nodes, e.Nested
  closes : ∀ s ∈ statements, s.Closes

namespace Shaped

variable {nodes nodes' : List Expr} {statements statements' : List Stmt} {s : Stmt}

theorem nil : Shaped [] [] :=
  ⟨List.forall_mem_nil _, List.forall_mem_nil _⟩

theorem append (first : Shaped nodes statements) (second : Shaped nodes' statements') :
    Shaped (nodes ++ nodes') (statements ++ statements') :=
  ⟨List.forall_mem_append.mpr ⟨first.nested, second.nested⟩,
    List.forall_mem_append.mpr ⟨first.closes, second.closes⟩⟩

theorem cons (shaped : Shaped nodes statements) (closes : s.Closes) :
    Shaped nodes (s :: statements) :=
  ⟨shaped.nested, List.forall_mem_cons.mpr ⟨closes, shaped.closes⟩⟩

theorem expressions (nested : ∀ e ∈ nodes, e.Nested) : Shaped nodes [] :=
  ⟨nested, List.forall_mem_nil _⟩

theorem expr {value : Expr} (nested : ∀ e ∈ value.nodes, e.Nested) :
    Shaped (Stmt.expr value).nodes (Stmt.expr value).statements :=
  (expressions nested).cons trivial

theorem loop {condition : Expr} {body : Stmt} (nested : ∀ e ∈ condition.nodes, e.Nested)
    (shaped : Shaped body.nodes body.statements) :
    Shaped (Stmt.while condition body).nodes (Stmt.while condition body).statements :=
  ((expressions nested).append shaped).cons trivial

theorem pair {first second : Stmt} (shapedFirst : Shaped first.nodes first.statements)
    (shapedSecond : Shaped second.nodes second.statements) :
    Shaped (Stmt.block [first, second]).nodes (Stmt.block [first, second]).statements :=
  (shapedFirst.append (shapedSecond.append nil)).cons trivial

/-- A for statement is shaped as the statement is that it means. -/
theorem forLoop {initial : Option Stmt} {condition : Expr} {increment : Option Expr} {body : Stmt}
    (shapedInitial : ∀ s ∈ initial, Shaped s.nodes s.statements)
    (nestedCondition : ∀ e ∈ condition.nodes, e.Nested)
    (nestedIncrement : ∀ e ∈ Expr.nodesOption increment, e.Nested)
    (shapedBody : Shaped body.nodes body.statements) :
    Shaped (forLoop initial condition increment body).nodes
      (forLoop initial condition increment body).statements := by
  cases increment with
  | none =>
    cases initial with
    | none => exact .loop nestedCondition shapedBody
    | some initial => exact (shapedInitial initial rfl).pair (.loop nestedCondition shapedBody)
  | some increment =>
    have shapedInner := shapedBody.pair (.expr nestedIncrement)
    cases initial with
    | none => exact .loop nestedCondition shapedInner
    | some initial => exact (shapedInitial initial rfl).pair (.loop nestedCondition shapedInner)

end Shaped

section Statements

variable {i j : ExprId} {w : List Token}

theorem SpellsOption.nested {e : Option Expr} (spells : SpellsOption i w e j) :
    ∀ inner ∈ Expr.nodesOption e, inner.Nested := by
  cases spells with
  | none => exact List.forall_mem_nil _
  | some spells => exact spells.nested

theorem SpellsCondition.nested {keyword : Token} {k m n : ExprId} {condition : Expr}
    (spells : SpellsCondition keyword j w k m condition n) :
    ∀ inner ∈ condition.nodes, inner.Nested := by
  cases spells with
  | none => exact nested_nodes (List.forall_mem_nil _) trivial
  | some spells => exact spells.nested

theorem SpellsVariable.shaped {s : Stmt} (spells : SpellsVariable i w s j) :
    Shaped s.nodes s.statements := by
  cases spells with
  | bare => exact Shaped.nil.cons trivial
  | initialized _ _ initial _ => exact (Shaped.expressions initial.nested).cons trivial

theorem SpellsInitial.shaped {initial : Option Stmt} (spells : SpellsInitial i w initial j) :
    ∀ s ∈ initial, Shaped s.nodes s.statements := by
  rintro s ⟨⟩
  cases spells with
  | var _ declared => exact declared.shaped
  | expr value _ => exact .expr value.nested

theorem SpellsSuperclass.nested {superclass : Option Reference}
    (spells : SpellsSuperclass i w superclass j) :
    ∀ e ∈ (superclass.map Expr.ref).toList, e.Nested := by
  cases spells with
  | none => exact List.forall_mem_nil _
  | some => exact List.forall_mem_singleton.mpr trivial

end Statements

theorem isOpen_forLoop {initial : Option Stmt} {condition : Expr}
    {increment : Option Expr} {body : Stmt}
    (isOpen : (forLoop initial condition increment body).isOpen = true) : body.isOpen = true := by
  cases initial with
  | some => cases isOpen
  | none =>
    cases increment with
    | some => cases isOpen
    | none => exact isOpen

/-- A statement that could take a branch is spelled as one. -/
theorem SpellsStatement.isOpen_of_isOpen :
    ∀ {isOpen : Bool} {i j : ExprId} {w : List Token} {s : Stmt},
    SpellsStatement isOpen i w s j → s.isOpen = true → isOpen = true
  | _, _, _, _, _, .while _ _ _ _ body => fun found => body.isOpen_of_isOpen found
  | _, _, _, _, _, .if .. => fun _ => rfl
  | _, _, _, _, _, .ifElse _ _ _ _ _ _ no => fun found => no.isOpen_of_isOpen found
  | _, _, _, _, _, .for _ _ _ _ _ _ _ body =>
    fun found => body.isOpen_of_isOpen (isOpen_forLoop found)
  | _, _, _, _, _, .expr .. | _, _, _, _, _, .print .. | _, _, _, _, _, .return ..
  | _, _, _, _, _, .block .. =>
    fun found => by cases found

mutual

theorem SpellsStatement.shaped : ∀ {isOpen : Bool} {i j : ExprId} {w : List Token} {s : Stmt},
    SpellsStatement isOpen i w s j → Shaped s.nodes s.statements
  | _, _, _, _, _, .expr value _ => .expr value.nested
  | _, _, _, _, _, .print _ value _ | _, _, _, _, _, .return _ value _ =>
    (Shaped.expressions value.nested).cons trivial
  | _, _, _, _, _, .block _ body _ => body.shaped.cons trivial
  | _, _, _, _, _, .while _ _ condition _ body => .loop condition.nested body.shaped
  | _, _, _, _, _, .if _ _ condition _ yes =>
    ((Shaped.expressions condition.nested).append yes.shaped).cons trivial
  | _, _, _, _, _, .ifElse _ _ condition _ yes _ no =>
    (((Shaped.expressions condition.nested).append yes.shaped).append no.shaped).cons
      (Bool.eq_false_iff.mpr fun found => Bool.false_ne_true (yes.isOpen_of_isOpen found))
  | _, _, _, _, _, .for _ _ initial condition _ increment _ body =>
    .forLoop initial.shaped condition.nested increment.nested body.shaped

theorem SpellsDeclaration.shaped : ∀ {i j : ExprId} {w : List Token} {s : Stmt},
    SpellsDeclaration i w s j → Shaped s.nodes s.statements
  | _, _, _, _, .class _ _ superclass _ methods _ =>
    ((Shaped.expressions superclass.nested).append methods.shaped).cons trivial
  | _, _, _, _, .fun _ routine => routine.shaped.cons trivial
  | _, _, _, _, .var _ declared => declared.shaped
  | _, _, _, _, .statement statement => statement.shaped

theorem SpellsRoutine.shaped : ∀ {i j : ExprId} {w : List Token} {routine : Routine (List Stmt)},
    SpellsRoutine i w routine j →
      Shaped (Stmt.nodesOfRoutine routine) (Stmt.statementsOfRoutine routine)
  | _, _, _, _, .mk _ _ _ _ _ body _ => body.shaped

theorem SpellsMethods.shaped :
    ∀ {i j : ExprId} {w : List Token} {methods : List (Routine (List Stmt))},
    SpellsMethods i w methods j →
      Shaped (Stmt.nodesOfMethods methods) (Stmt.statementsOfMethods methods)
  | _, _, _, _, .nil => .nil
  | _, _, _, _, .cons method rest => method.shaped.append rest.shaped

theorem SpellsDeclarations.shaped : ∀ {i j : ExprId} {w : List Token} {program : List Stmt},
    SpellsDeclarations i w program j → Shaped (Stmt.nodesAll program) (Stmt.statementsAll program)
  | _, _, _, _, .nil => .nil
  | _, _, _, _, .cons first rest => first.shaped.append rest.shaped

end

end Grammar

end Lox
