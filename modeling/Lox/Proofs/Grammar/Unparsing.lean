import Lox.Proofs.Grammar.Acceptance
import Lox.Proofs.Grammar.Nesting
import Lox.Proofs.Grammar.Recasting
import Lox.Token.Scan

set_option autoImplicit false

/-!
# Writing programs

Programs written as tokens. Everything is written as the grammar has it, and no parentheses are
added. A program that was read can be read again from what is written for it, and is the same but
for its spans and the numbers of its expressions.
-/

namespace Lox

open Token (Kind)

/-! ## What is written -/

def Literal.kind : Literal → Kind
  | .nil => .keyword .nil
  | .bool true => .keyword .true
  | .bool false => .keyword .false
  | .number value => .number value
  | .string value => .string value

def UnaryOp.kind : UnaryOp → Kind
  | .negate => .symbol .minus
  | .not => .symbol .bang

def BinaryOp.kind : BinaryOp → Kind
  | .add => .symbol .plus
  | .sub => .symbol .minus
  | .mul => .symbol .star
  | .div => .symbol .slash
  | .equal => .symbol .equalEqual
  | .notEqual => .symbol .bangEqual
  | .greater => .symbol .greater
  | .greaterEqual => .symbol .greaterEqual
  | .less => .symbol .less
  | .lessEqual => .symbol .lessEqual

def LogicalOp.kind : LogicalOp → Kind
  | .and => .keyword .and
  | .or => .keyword .or

def Ident.kind (name : Ident) : Kind :=
  .identifier name.text

namespace Expr

mutual

/-- The kinds of the tokens that an expression is written with. -/
def unparse : Expr → List Kind
  | .literal _ _ value => [value.kind]
  | .ref target => [target.name.kind]
  | .assign _ name value => name.kind :: .symbol .equal :: value.unparse
  | .binary _ _ op left right => left.unparse ++ op.kind :: right.unparse
  | .logical _ _ op left right => left.unparse ++ op.kind :: right.unparse
  | .unary _ _ op operand => op.kind :: operand.unparse
  | .call _ _ callee args =>
    callee.unparse ++ .symbol .leftParen :: (unparseArguments args ++ [.symbol .rightParen])
  | .group _ _ inner => .symbol .leftParen :: (inner.unparse ++ [.symbol .rightParen])
  | .get _ object name => object.unparse ++ [.symbol .dot, name.kind]
  | .set _ object name value =>
    object.unparse ++ .symbol .dot :: name.kind :: .symbol .equal :: value.unparse
  | .this .. => [.keyword .this]
  | .super _ _ method => [.keyword .super, .symbol .dot, method.kind]

def unparseArguments : List Expr → List Kind
  | [] => []
  | [e] => e.unparse
  | e :: rest => e.unparse ++ .symbol .comma :: unparseArguments rest

end

theorem unparseArguments_cons (e : Expr) {rest : List Expr} (more : rest ≠ []) :
    unparseArguments (e :: rest) = e.unparse ++ .symbol .comma :: unparseArguments rest := by
  cases rest with
  | nil => exact absurd rfl more
  | cons => rw [unparseArguments]; simp

def unparseOption : Option Expr → List Kind
  | some e => e.unparse
  | none => []

end Expr

def Ident.unparseAll (names : List Ident) : List Kind :=
  (names.map Ident.kind).intersperse (.symbol .comma)

namespace Stmt

mutual

/-- The kinds of the tokens that a statement is written with. -/
def unparse : Stmt → List Kind
  | .expr value => value.unparse ++ [.symbol .semicolon]
  | .print value => .keyword .print :: (value.unparse ++ [.symbol .semicolon])
  | .var name none => [.keyword .var, name.kind, .symbol .semicolon]
  | .var name (some initial) =>
    .keyword .var :: name.kind :: .symbol .equal :: (initial.unparse ++ [.symbol .semicolon])
  | .block body => .symbol .leftBrace :: (unparseAll body ++ [.symbol .rightBrace])
  | .if condition yes none =>
    .keyword .if :: .symbol .leftParen :: (condition.unparse ++ .symbol .rightParen :: yes.unparse)
  | .if condition yes (some no) =>
    .keyword .if :: .symbol .leftParen ::
      (condition.unparse ++ .symbol .rightParen :: (yes.unparse ++ .keyword .else :: no.unparse))
  | .while condition body =>
    .keyword .while :: .symbol .leftParen ::
      (condition.unparse ++ .symbol .rightParen :: body.unparse)
  | .fun routine => .keyword .fun :: unparseRoutine routine
  | .return _ value => .keyword .return :: (Expr.unparseOption value ++ [.symbol .semicolon])
  | .class name none methods =>
    .keyword .class :: name.kind :: .symbol .leftBrace ::
      (unparseMethods methods ++ [.symbol .rightBrace])
  | .class name (some superclass) methods =>
    .keyword .class :: name.kind :: .symbol .less :: superclass.name.kind :: .symbol .leftBrace ::
      (unparseMethods methods ++ [.symbol .rightBrace])

def unparseAll : List Stmt → List Kind
  | [] => []
  | s :: rest => s.unparse ++ unparseAll rest

def unparseRoutine : Routine (List Stmt) → List Kind
  | ⟨name, params, body⟩ =>
    name.kind :: .symbol .leftParen :: (Ident.unparseAll params ++
      .symbol .rightParen :: .symbol .leftBrace :: (unparseAll body ++ [.symbol .rightBrace]))

def unparseMethods : List (Routine (List Stmt)) → List Kind
  | [] => []
  | method :: rest => unparseRoutine method ++ unparseMethods rest

end

end Stmt

def Program.unparse (program : Program) : List Kind :=
  Stmt.unparseAll program

/-! No token that is written is an end mark. -/

@[simp] theorem Literal.ne_kind (value : Literal) : Kind.endOfInput ≠ value.kind := by
  cases value with
  | bool value => cases value <;> exact Kind.noConfusion
  | nil | number | string => exact Kind.noConfusion

@[simp] theorem UnaryOp.ne_kind (op : UnaryOp) : Kind.endOfInput ≠ op.kind := by
  cases op <;> exact Kind.noConfusion

@[simp] theorem BinaryOp.ne_kind (op : BinaryOp) : Kind.endOfInput ≠ op.kind := by
  cases op <;> exact Kind.noConfusion

@[simp] theorem LogicalOp.ne_kind (op : LogicalOp) : Kind.endOfInput ≠ op.kind := by
  cases op <;> exact Kind.noConfusion

@[simp] theorem Ident.ne_kind (name : Ident) : Kind.endOfInput ≠ name.kind :=
  Kind.noConfusion

mutual

theorem Expr.notMem_unparse : ∀ e : Expr, Kind.endOfInput ∉ e.unparse
  | .literal .. | .ref _ | .this .. | .super .. => by simp [Expr.unparse]
  | .assign _ _ value => by simp [Expr.unparse, value.notMem_unparse]
  | .binary _ _ _ left right | .logical _ _ _ left right =>
    by simp [Expr.unparse, left.notMem_unparse, right.notMem_unparse]
  | .unary _ _ _ operand => by simp [Expr.unparse, operand.notMem_unparse]
  | .call _ _ callee args => by
    simp [Expr.unparse, callee.notMem_unparse, Expr.notMem_unparseArguments args]
  | .group _ _ inner => by simp [Expr.unparse, inner.notMem_unparse]
  | .get _ object _ => by simp [Expr.unparse, object.notMem_unparse]
  | .set _ object _ value => by simp [Expr.unparse, object.notMem_unparse, value.notMem_unparse]

theorem Expr.notMem_unparseArguments : ∀ args : List Expr, Kind.endOfInput ∉ unparseArguments args
  | [] => by simp [unparseArguments]
  | [e] => by simp [unparseArguments, e.notMem_unparse]
  | e :: e' :: rest => by
    simp [unparseArguments, e.notMem_unparse, Expr.notMem_unparseArguments (e' :: rest)]

end

theorem Expr.notMem_unparseOption (e : Option Expr) : Kind.endOfInput ∉ unparseOption e := by
  cases e with
  | none => exact List.not_mem_nil
  | some e => exact e.notMem_unparse

theorem Ident.unparseAll_cons (name : Ident) {rest : List Ident} (more : rest ≠ []) :
    unparseAll (name :: rest) = name.kind :: .symbol .comma :: unparseAll rest := by
  cases rest with
  | nil => exact absurd rfl more
  | cons => rfl

theorem Ident.notMem_unparseAll (names : List Ident) : Kind.endOfInput ∉ unparseAll names := by
  induction names with
  | nil => exact List.not_mem_nil
  | cons name rest inductionHypothesis =>
    by_cases more : rest = []
    · subst more
      simp [unparseAll]
    · simp [unparseAll_cons name more, inductionHypothesis]

namespace Stmt

mutual

theorem notMem_unparse : ∀ s : Stmt, Kind.endOfInput ∉ s.unparse
  | .expr value | .print value => by simp [unparse, value.notMem_unparse]
  | .var _ none => by simp [unparse]
  | .var _ (some initial) => by simp [unparse, initial.notMem_unparse]
  | .block body => by simp [unparse, notMem_unparseAll body]
  | .if condition yes none => by simp [unparse, condition.notMem_unparse, yes.notMem_unparse]
  | .if condition yes (some no) => by
    simp [unparse, condition.notMem_unparse, yes.notMem_unparse, no.notMem_unparse]
  | .while condition body => by simp [unparse, condition.notMem_unparse, body.notMem_unparse]
  | .fun routine => by simp [unparse, notMem_unparseRoutine routine]
  | .return _ value => by simp [unparse, Expr.notMem_unparseOption value]
  | .class _ none methods
  | .class _ (some _) methods => by simp [unparse, notMem_unparseMethods methods]

theorem notMem_unparseAll : ∀ program : List Stmt, Kind.endOfInput ∉ unparseAll program
  | [] => by simp [unparseAll]
  | s :: rest => by simp [unparseAll, s.notMem_unparse, notMem_unparseAll rest]

theorem notMem_unparseRoutine :
    ∀ routine : Routine (List Stmt), Kind.endOfInput ∉ unparseRoutine routine
  | ⟨_, params, body⟩ => by
    simp [unparseRoutine, Ident.notMem_unparseAll params, notMem_unparseAll body]

theorem notMem_unparseMethods : ∀ methods : List (Routine (List Stmt)),
    Kind.endOfInput ∉ unparseMethods methods
  | [] => by simp [unparseMethods]
  | method :: rest => by
    simp [unparseMethods, notMem_unparseRoutine method, notMem_unparseMethods rest]

end

end Stmt

def Relabeling.blank : Relabeling :=
  ⟨fun _ => ⟨0, 0, 0, 0⟩, fun _ => 0⟩

namespace Grammar

def InfixOp.kind : InfixOp → Kind
  | .binary op => op.kind
  | .logical op => op.kind

theorem InfixOp.operator?_kind (op : InfixOp) : op.level.operator? op.kind = some op := by
  cases op with
  | binary op => cases op <;> rfl
  | logical op => cases op <;> rfl

theorem InfixOp.unparse_apply (op : InfixOp) (id : ExprId) (span : Span) (left right : Expr) :
    (op.apply id span left right).unparse = left.unparse ++ op.kind :: right.unparse := by
  cases op <;> rw [apply, Expr.unparse, kind]

theorem unaryOperator?_kind (op : UnaryOp) : unaryOperator? op.kind = some op := by
  cases op <;> rfl

theorem literal?_kind (value : Literal) : literal? value.kind = some value := by
  cases value with
  | bool value => cases value <;> rfl
  | nil | number | string => rfl

/-! ## Reading what is written -/

/-- Tokens of the kinds that are written for an expression spell, from any number on, an expression
of a tier that is the same but for labels. -/
def Prints (tier : Tier) (e : Expr) : Prop :=
  ∀ i w, w.map Token.kind = e.unparse →
    ∃ e' j, Spells tier i w e' j ∧ e'.relabel .blank = e.relabel .blank

def PrintsArguments (args : List Expr) : Prop :=
  ∀ i w, w.map Token.kind = Expr.unparseArguments args →
    ∃ args' j, SpellsArguments i w args' j ∧
      Expr.relabelAll .blank args' = Expr.relabelAll .blank args

namespace Prints

variable {tier : Tier} {e : Expr}

theorem tighter {tier' : Tier} (below : tier.tighter? = some tier') (prints : Prints tier' e) :
    Prints tier e := by
  intro i w kinds
  obtain ⟨e', j, spells, same⟩ := prints i w kinds
  exact ⟨e', j, .tighter below spells, same⟩

/-- What binds most tightly can stand everywhere. -/
theorem loosest (prints : Prints .primary e) : Prints .assignment e := by
  have factor : Prints (.operators .factor) e :=
    .tighter rfl (.tighter rfl (.tighter rfl prints))
  have comparison : Prints (.operators .comparison) e := .tighter rfl (.tighter rfl factor)
  exact .tighter rfl (.tighter rfl (.tighter rfl (.tighter rfl comparison)))

theorem assign {id : ExprId} {name : Ident} {value : Expr} (prints : Prints .assignment value) :
    Prints .assignment (.assign id name value) := by
  intro i w kinds
  simp only [Expr.unparse, List.map_eq_cons_iff] at kinds
  obtain ⟨target, _, rfl, named, equal, w, rfl, equals, kinds⟩ := kinds
  obtain ⟨value', j, spells, same⟩ := prints (i + 1) w kinds
  refine ⟨_, _, .assign named equals spells, ?_⟩
  simp only [Expr.relabel, same]
  rfl

theorem set {id : ExprId} {object value : Expr} {name : Ident} (printsObject : Prints .call object)
    (printsValue : Prints .assignment value) : Prints .assignment (.set id object name value) := by
  intro i w kinds
  simp only [Expr.unparse, List.map_eq_append_iff, List.map_eq_cons_iff] at kinds
  obtain ⟨w, _, rfl, kinds, dot, _, rfl, dotted, field, _, rfl, named, equal, v, rfl, equals,
    kinds'⟩ := kinds
  obtain ⟨object', j, spells, same⟩ := printsObject i w kinds
  obtain ⟨value', k, spells', same'⟩ := printsValue (j + 1) v kinds'
  refine ⟨_, _, .set spells dotted named equals spells', ?_⟩
  simp only [Expr.relabel, same, same']
  rfl

theorem operator {level : Level} {op : InfixOp} {id : ExprId} {span : Span} {left right : Expr}
    (printsLeft : Prints (.operators level) left) (here : op.level = level)
    (printsRight : Prints level.operandTier right) :
    Prints (.operators level) (op.apply id span left right) := by
  subst here
  intro i w kinds
  simp only [op.unparse_apply, List.map_eq_append_iff, List.map_eq_cons_iff] at kinds
  obtain ⟨w, _, rfl, kinds, token, v, rfl, found, kinds'⟩ := kinds
  obtain ⟨left', j, spells, same⟩ := printsLeft i w kinds
  obtain ⟨right', k, spells', same'⟩ := printsRight j v kinds'
  refine ⟨_, _, .operator spells (found ▸ op.operator?_kind) spells', ?_⟩
  simp only [InfixOp.relabel_apply, same, same']
  rfl

theorem unary {id : ExprId} {span : Span} {op : UnaryOp} {operand : Expr}
    (prints : Prints .unary operand) :
    Prints .unary (.unary id span op operand) := by
  intro i w kinds
  simp only [Expr.unparse, List.map_eq_cons_iff] at kinds
  obtain ⟨token, w, rfl, found, kinds⟩ := kinds
  obtain ⟨operand', j, spells, same⟩ := prints i w kinds
  refine ⟨_, _, .unary (found ▸ unaryOperator?_kind op) spells, ?_⟩
  simp only [Expr.relabel, same]
  rfl

theorem call {id : ExprId} {span : Span} {callee : Expr} (prints : Prints .call callee) :
    Prints .call (.call id span callee []) := by
  intro i w kinds
  simp only [Expr.unparse, Expr.unparseArguments, List.map_eq_append_iff, List.map_eq_cons_iff,
    List.nil_append, List.map_eq_nil_iff] at kinds
  obtain ⟨w, _, rfl, kinds, opening, _, rfl, opens, closing, _, rfl, closes, rfl⟩ := kinds
  obtain ⟨callee', j, spells, same⟩ := prints i w kinds
  refine ⟨_, _, .call spells opens closes, ?_⟩
  simp only [Expr.relabel, same]
  rfl

theorem callWith {id : ExprId} {span : Span} {callee : Expr} {args : List Expr}
    (prints : Prints .call callee) (printsArgs : PrintsArguments args)
    (few : args.length ≤ maxArguments) : Prints .call (.call id span callee args) := by
  intro i w kinds
  simp only [Expr.unparse, List.map_eq_append_iff, List.map_eq_cons_iff,
    List.map_eq_nil_iff] at kinds
  obtain ⟨w, _, rfl, kinds, opening, _, rfl, opens, v, _, rfl, kinds', closing, _, rfl,
    closes, rfl⟩ := kinds
  obtain ⟨callee', j, spells, same⟩ := prints i w kinds
  obtain ⟨args', k, spells', same'⟩ := printsArgs j v kinds'
  have length : args'.length = args.length := by
    have lengths := congrArg List.length same'
    rwa [Expr.length_relabelAll, Expr.length_relabelAll] at lengths
  refine ⟨_, _, .callWith spells opens spells' (length.trans_le few) closes, ?_⟩
  simp only [Expr.relabel, same, same']
  rfl

theorem get {id : ExprId} {object : Expr} {name : Ident} (prints : Prints .call object) :
    Prints .call (.get id object name) := by
  intro i w kinds
  simp only [Expr.unparse, List.map_eq_append_iff, List.map_eq_cons_iff,
    List.map_eq_nil_iff] at kinds
  obtain ⟨w, _, rfl, kinds, dot, _, rfl, dotted, field, _, rfl, named, rfl⟩ := kinds
  obtain ⟨object', j, spells, same⟩ := prints i w kinds
  refine ⟨_, _, .get spells dotted named, ?_⟩
  simp only [Expr.relabel, same]
  rfl

theorem literal {id : ExprId} {span : Span} (value : Literal) :
    Prints .primary (.literal id span value) := by
  intro i w kinds
  obtain ⟨token, rfl, found⟩ := List.map_eq_singleton_iff.mp kinds
  exact ⟨_, _, .literal (found ▸ literal?_kind value), rfl⟩

theorem ref (target : Reference) : Prints .primary (.ref target) := by
  intro i w kinds
  obtain ⟨token, rfl, named⟩ := List.map_eq_singleton_iff.mp kinds
  exact ⟨_, _, .ref named, rfl⟩

theorem this {id : ExprId} {span : Span} : Prints .primary (.this id span) := by
  intro i w kinds
  obtain ⟨token, rfl, found⟩ := List.map_eq_singleton_iff.mp kinds
  exact ⟨_, _, .this found, rfl⟩

theorem super {id : ExprId} {span : Span} (method : Ident) :
    Prints .primary (.super id span method) := by
  intro i w kinds
  simp only [Expr.unparse, List.map_eq_cons_iff, List.map_eq_nil_iff] at kinds
  obtain ⟨token, _, rfl, found, dot, _, rfl, dotted, field, _, rfl, named, rfl⟩ := kinds
  exact ⟨_, _, .super found dotted named, rfl⟩

theorem group {id : ExprId} {span : Span} {inner : Expr} (prints : Prints .assignment inner) :
    Prints .primary (.group id span inner) := by
  intro i w kinds
  simp only [Expr.unparse, List.map_eq_append_iff, List.map_eq_cons_iff,
    List.map_eq_nil_iff] at kinds
  obtain ⟨opening, _, rfl, opens, w, _, rfl, kinds, closing, _, rfl, closes, rfl⟩ := kinds
  obtain ⟨inner', j, spells, same⟩ := prints i w kinds
  refine ⟨_, _, .group opens spells closes, ?_⟩
  simp only [Expr.relabel, same]
  rfl

end Prints

theorem SpellsArguments.ne_nil {i j : ExprId} {w : List Token} {args : List Expr}
    (spells : SpellsArguments i w args j) : args ≠ [] := by
  cases spells <;> exact List.cons_ne_nil _ _

theorem PrintsArguments.last {e : Expr} (prints : Prints .assignment e) : PrintsArguments [e] := by
  intro i w kinds
  obtain ⟨e', j, spells, same⟩ := prints i w kinds
  exact ⟨[e'], j, .last spells, by rw [Expr.relabelAll, same]; rfl⟩

theorem PrintsArguments.cons {e : Expr} {rest : List Expr} (prints : Prints .assignment e)
    (others : PrintsArguments rest) (more : rest ≠ []) : PrintsArguments (e :: rest) := by
  intro i w kinds
  simp only [Expr.unparseArguments_cons e more, List.map_eq_append_iff,
    List.map_eq_cons_iff] at kinds
  obtain ⟨w, _, rfl, kinds, comma, v, rfl, separates, kinds'⟩ := kinds
  obtain ⟨e', j, spells, same⟩ := prints i w kinds
  obtain ⟨rest', k, spells', same'⟩ := others j v kinds'
  exact ⟨e' :: rest', k, .cons spells separates spells', by
    rw [Expr.relabelAll, same, same', Expr.relabelAll]⟩

mutual

/-- What an expression is written with spells it. -/
theorem Spells.prints : ∀ {tier : Tier} {i j : ExprId} {w : List Token} {e : Expr},
    Spells tier i w e j → Prints tier e
  | _, _, _, _, _, .tighter below inner => inner.prints.tighter below
  | _, _, _, _, _, .assign _ _ value => value.prints.assign
  | _, _, _, _, _, .set object _ _ _ value => object.prints.set value.prints
  | _, _, _, _, _, .operator left found right =>
    left.prints.operator (Level.eq_of_operator? found) right.prints
  | _, _, _, _, _, .unary _ operand => operand.prints.unary
  | _, _, _, _, _, .call callee _ _ => callee.prints.call
  | _, _, _, _, _, .callWith callee _ args few _ => callee.prints.callWith args.prints few
  | _, _, _, _, _, .get object _ _ => object.prints.get
  | _, _, _, _, _, .literal _ => .literal _
  | _, _, _, _, _, .ref _ => .ref _
  | _, _, _, _, _, .this _ => .this
  | _, _, _, _, _, .super _ _ _ => .super _
  | _, _, _, _, _, .group _ inner _ => inner.prints.group

theorem SpellsArguments.prints : ∀ {i j : ExprId} {w : List Token} {args : List Expr},
    SpellsArguments i w args j → PrintsArguments args
  | _, _, _, _, .last last => .last last.prints
  | _, _, _, _, .cons first _ rest => .cons first.prints rest.prints rest.ne_nil

end

/-! ## Reading statements that are written -/

/-- What is written for a statement spells one that is the same but for labels, and that is open
only if the statement is. -/
def PrintsStatement (isOpen : Bool) (s : Stmt) : Prop :=
  ∀ i w, w.map Token.kind = s.unparse → ∃ isOpen' s' j, (isOpen' = true → isOpen = true) ∧
    SpellsStatement isOpen' i w s' j ∧ s'.relabel .blank = s.relabel .blank

def PrintsDeclaration (s : Stmt) : Prop :=
  ∀ i w, w.map Token.kind = s.unparse →
    ∃ s' j, SpellsDeclaration i w s' j ∧ s'.relabel .blank = s.relabel .blank

def PrintsRoutine (routine : Routine (List Stmt)) : Prop :=
  ∀ i w, w.map Token.kind = Stmt.unparseRoutine routine →
    ∃ routine' j, SpellsRoutine i w routine' j ∧
      Stmt.relabelRoutine .blank routine' = Stmt.relabelRoutine .blank routine

def PrintsMethods (methods : List (Routine (List Stmt))) : Prop :=
  ∀ i w, w.map Token.kind = Stmt.unparseMethods methods →
    ∃ methods' j, SpellsMethods i w methods' j ∧
      Stmt.relabelMethods .blank methods' = Stmt.relabelMethods .blank methods

def PrintsDeclarations (program : List Stmt) : Prop :=
  ∀ i w, w.map Token.kind = Stmt.unparseAll program →
    ∃ program' j, SpellsDeclarations i w program' j ∧
      Stmt.relabelAll .blank program' = Stmt.relabelAll .blank program

theorem SpellsOption.prints {i j : ExprId} {w : List Token} {value : Option Expr}
    (spells : SpellsOption i w value j) : ∀ e ∈ value, Prints .assignment e := by
  rintro e ⟨⟩
  cases spells with
  | some spells => exact spells.prints

theorem SpellsNames.ne_nil {w : List Token} {names : List Ident} (spells : SpellsNames w names) :
    names ≠ [] := by
  cases spells <;> exact List.cons_ne_nil _ _

theorem SpellsNames.prints {w : List Token} {names : List Ident} (spells : SpellsNames w names) :
    ∀ v, v.map Token.kind = Ident.unparseAll names → ∃ names', SpellsNames v names' ∧
      names'.map (Ident.relabel .blank) = names.map (Ident.relabel .blank) := by
  induction spells with
  | last =>
    intro v kinds
    obtain ⟨token, rfl, named⟩ := List.map_eq_singleton_iff.mp kinds
    exact ⟨_, .last named, rfl⟩
  | cons _ _ spells inductionHypothesis =>
    intro v kinds
    simp only [Ident.unparseAll_cons _ spells.ne_nil, List.map_eq_cons_iff] at kinds
    obtain ⟨token, _, rfl, named, comma, v, rfl, separates, kinds⟩ := kinds
    obtain ⟨names', spells', same⟩ := inductionHypothesis v kinds
    refine ⟨_, .cons named separates spells', ?_⟩
    rw [List.map_cons, same, List.map_cons]
    rfl

theorem SpellsParameters.prints {w : List Token} {params : List Ident}
    (spells : SpellsParameters w params) :
    ∀ v, v.map Token.kind = Ident.unparseAll params → ∃ params', SpellsParameters v params' ∧
      params'.map (Ident.relabel .blank) = params.map (Ident.relabel .blank) := by
  intro v kinds
  cases spells with
  | none =>
    cases List.map_eq_nil_iff.mp kinds
    exact ⟨[], .none, rfl⟩
  | some spells few =>
    obtain ⟨params', spells', same⟩ := spells.prints v kinds
    have length := congrArg List.length same
    rw [List.length_map, List.length_map] at length
    exact ⟨params', .some spells' (length.trans_le few), same⟩

namespace PrintsStatement

variable {isOpen : Bool}

theorem expr {value : Expr} (prints : Prints .assignment value) :
    PrintsStatement isOpen (.expr value) := by
  intro i w kinds
  simp only [Stmt.unparse, List.map_eq_append_iff, List.map_eq_cons_iff,
    List.map_eq_nil_iff] at kinds
  obtain ⟨w, _, rfl, kinds, semicolon, _, rfl, ends, rfl⟩ := kinds
  obtain ⟨value', j, spells, same⟩ := prints i w kinds
  exact ⟨false, _, _, by simp, .expr spells ends, by rw [Stmt.relabel, same, Stmt.relabel]⟩

theorem print {value : Expr} (prints : Prints .assignment value) :
    PrintsStatement isOpen (.print value) := by
  intro i w kinds
  simp only [Stmt.unparse, List.map_eq_append_iff, List.map_eq_cons_iff,
    List.map_eq_nil_iff] at kinds
  obtain ⟨keyword, _, rfl, starts, w, _, rfl, kinds, semicolon, _, rfl, ends, rfl⟩ := kinds
  obtain ⟨value', j, spells, same⟩ := prints i w kinds
  exact ⟨false, _, _, by simp, .print starts spells ends, by rw [Stmt.relabel, same, Stmt.relabel]⟩

theorem exit {span : Span} {value : Option Expr} (prints : ∀ e ∈ value, Prints .assignment e) :
    PrintsStatement isOpen (.return span value) := by
  intro i w kinds
  simp only [Stmt.unparse, List.map_eq_append_iff, List.map_eq_cons_iff,
    List.map_eq_nil_iff] at kinds
  obtain ⟨keyword, _, rfl, starts, w, _, rfl, kinds, semicolon, _, rfl, ends, rfl⟩ := kinds
  cases value with
  | none =>
    cases List.map_eq_nil_iff.mp kinds
    exact ⟨false, _, _, by simp, .return starts .none ends, rfl⟩
  | some value =>
    obtain ⟨value', j, spells, same⟩ := prints value rfl i w kinds
    refine ⟨false, _, _, by simp, .return starts (.some spells) ends, ?_⟩
    simp only [Stmt.relabel, Option.map_some, same]
    rfl

theorem block {body : List Stmt} (prints : PrintsDeclarations body) :
    PrintsStatement isOpen (.block body) := by
  intro i w kinds
  simp only [Stmt.unparse, List.map_eq_append_iff, List.map_eq_cons_iff,
    List.map_eq_nil_iff] at kinds
  obtain ⟨opening, _, rfl, opens, w, _, rfl, kinds, closing, _, rfl, closes, rfl⟩ := kinds
  obtain ⟨body', j, spells, same⟩ := prints i w kinds
  exact ⟨false, _, _, by simp, .block opens spells closes, by rw [Stmt.relabel, same, Stmt.relabel]⟩

theorem loop {condition : Expr} {body : Stmt} (printsCondition : Prints .assignment condition)
    (printsBody : PrintsStatement isOpen body) :
    PrintsStatement isOpen (.while condition body) := by
  intro i w kinds
  simp only [Stmt.unparse, List.map_eq_append_iff, List.map_eq_cons_iff] at kinds
  obtain ⟨keyword, _, rfl, starts, opening, _, rfl, opens, w, _, rfl, kinds, closing,
    v, rfl, closes, kinds'⟩ := kinds
  obtain ⟨condition', j, spells, same⟩ := printsCondition i w kinds
  obtain ⟨isOpen', body', k, closed, spells', same'⟩ := printsBody j v kinds'
  exact ⟨isOpen', _, _, closed, .while starts opens spells closes spells', by
    rw [Stmt.relabel, same, same', Stmt.relabel]⟩

theorem branch {isOpen' : Bool} {condition : Expr} {yes : Stmt}
    (printsCondition : Prints .assignment condition)
    (printsYes : PrintsStatement isOpen' yes) : PrintsStatement true (.if condition yes none) := by
  intro i w kinds
  simp only [Stmt.unparse, List.map_eq_append_iff, List.map_eq_cons_iff] at kinds
  obtain ⟨keyword, _, rfl, starts, opening, _, rfl, opens, w, _, rfl, kinds, closing,
    v, rfl, closes, kinds'⟩ := kinds
  obtain ⟨condition', j, spells, same⟩ := printsCondition i w kinds
  obtain ⟨_, yes', k, _, spells', same'⟩ := printsYes j v kinds'
  exact ⟨true, _, _, id, .if starts opens spells closes spells', by
    rw [Stmt.relabel, same, same', Stmt.relabel]⟩

theorem branches {condition : Expr} {yes no : Stmt} (printsCondition : Prints .assignment condition)
    (printsYes : PrintsStatement false yes) (printsNo : PrintsStatement isOpen no) :
    PrintsStatement isOpen (.if condition yes (some no)) := by
  intro i w kinds
  simp only [Stmt.unparse, List.map_eq_append_iff, List.map_eq_cons_iff] at kinds
  obtain ⟨keyword, _, rfl, starts, opening, _, rfl, opens, w, _, rfl, kinds, closing, _,
    rfl, closes, v, _, rfl, kinds', otherwise, u, rfl, alternates, kinds''⟩ := kinds
  obtain ⟨condition', j, spells, same⟩ := printsCondition i w kinds
  obtain ⟨yesOpen, yes', k, closed, spells', same'⟩ := printsYes j v kinds'
  obtain ⟨isOpen', no', l, closed', spells'', same''⟩ := printsNo k u kinds''
  -- Nothing can be added to the first branch as it is written, so `else` does not become a part of
  -- it.
  cases yesOpen with
  | true => exact absurd (closed rfl) Bool.false_ne_true
  | false =>
    exact ⟨isOpen', _, _, closed',
      .ifElse starts opens spells closes spells' alternates spells'', by
      rw [Stmt.relabel, same, same', same'', Stmt.relabel]⟩

theorem declaration {s : Stmt} (prints : PrintsStatement isOpen s) : PrintsDeclaration s := by
  intro i w kinds
  obtain ⟨_, s', j, _, spells, same⟩ := prints i w kinds
  exact ⟨s', j, .statement spells, same⟩

end PrintsStatement

namespace PrintsDeclarations

theorem nil : PrintsDeclarations [] := by
  intro i w kinds
  cases List.map_eq_nil_iff.mp kinds
  exact ⟨[], i, .nil, rfl⟩

theorem cons {s : Stmt} {rest : List Stmt} (first : PrintsDeclaration s)
    (others : PrintsDeclarations rest) :
    PrintsDeclarations (s :: rest) := by
  intro i w kinds
  rw [Stmt.unparseAll, List.map_eq_append_iff] at kinds
  obtain ⟨w, v, rfl, kinds, kinds'⟩ := kinds
  obtain ⟨s', j, spells, same⟩ := first i w kinds
  obtain ⟨rest', k, spells', same'⟩ := others j v kinds'
  exact ⟨s' :: rest', k, .cons spells spells',
    by rw [Stmt.relabelAll, same, same', Stmt.relabelAll]⟩

end PrintsDeclarations

theorem PrintsRoutine.mk {name : Ident} {params : List Ident} {body : List Stmt} {w : List Token}
    (spellsParams : SpellsParameters w params) (prints : PrintsDeclarations body) :
    PrintsRoutine ⟨name, params, body⟩ := by
  intro i w kinds
  simp only [Stmt.unparseRoutine, List.map_eq_append_iff, List.map_eq_cons_iff,
    List.map_eq_nil_iff] at kinds
  obtain ⟨token, _, rfl, named, opening, _, rfl, opens, w, _, rfl, kinds, closing, _, rfl,
    closes, brace, _, rfl, begins, v, _, rfl, kinds', last, _, rfl, ends, rfl⟩ := kinds
  obtain ⟨params', spells, same⟩ := spellsParams.prints w kinds
  obtain ⟨body', j, spells', same'⟩ := prints i v kinds'
  refine ⟨_, _, .mk named opens spells closes begins spells' ends, ?_⟩
  rw [Stmt.relabelRoutine, same, same', Stmt.relabelRoutine]
  rfl

theorem PrintsRoutine.declaration {routine : Routine (List Stmt)} (prints : PrintsRoutine routine) :
    PrintsDeclaration (.fun routine) := by
  intro i w kinds
  simp only [Stmt.unparse, List.map_eq_cons_iff] at kinds
  obtain ⟨keyword, w, rfl, starts, kinds⟩ := kinds
  obtain ⟨routine', j, spells, same⟩ := prints i w kinds
  exact ⟨_, _, .fun starts spells, by rw [Stmt.relabel, same, Stmt.relabel]⟩

theorem PrintsMethods.nil : PrintsMethods [] := by
  intro i w kinds
  cases List.map_eq_nil_iff.mp kinds
  exact ⟨[], i, .nil, rfl⟩

theorem PrintsMethods.cons {method : Routine (List Stmt)} {rest : List (Routine (List Stmt))}
    (first : PrintsRoutine method) (others : PrintsMethods rest) :
    PrintsMethods (method :: rest) := by
  intro i w kinds
  rw [Stmt.unparseMethods, List.map_eq_append_iff] at kinds
  obtain ⟨w, v, rfl, kinds, kinds'⟩ := kinds
  obtain ⟨method', j, spells, same⟩ := first i w kinds
  obtain ⟨rest', k, spells', same'⟩ := others j v kinds'
  exact ⟨method' :: rest', k, .cons spells spells', by
    rw [Stmt.relabelMethods, same, same', Stmt.relabelMethods]⟩

theorem PrintsDeclaration.class {name : Ident} {superclass : Option Reference}
    {methods : List (Routine (List Stmt))} (prints : PrintsMethods methods) :
    PrintsDeclaration (.class name superclass methods) := by
  intro i w kinds
  cases superclass with
  | none =>
    simp only [Stmt.unparse, List.map_eq_append_iff, List.map_eq_cons_iff,
      List.map_eq_nil_iff] at kinds
    obtain ⟨keyword, _, rfl, starts, token, _, rfl, named, opening, _, rfl, opens, v, _, rfl,
      kinds, closing, _, rfl, closes, rfl⟩ := kinds
    obtain ⟨methods', k, spells, same⟩ := prints i v kinds
    refine ⟨_, _, .class starts named .none opens spells closes, ?_⟩
    rw [Stmt.relabel, same, Stmt.relabel]
    rfl
  | some superclass =>
    simp only [Stmt.unparse, List.map_eq_append_iff, List.map_eq_cons_iff,
      List.map_eq_nil_iff] at kinds
    obtain ⟨keyword, _, rfl, starts, token, _, rfl, named, less, _, rfl, inherits, parent,
      _, rfl, named', opening, _, rfl, opens, v, _, rfl, kinds, closing, _, rfl,
      closes, rfl⟩ := kinds
    obtain ⟨methods', k, spells, same⟩ := prints (i + 1) v kinds
    refine ⟨_, _, .class starts named (.some inherits named') opens spells closes, ?_⟩
    rw [Stmt.relabel, same, Stmt.relabel]
    rfl

theorem SpellsVariable.prints {i j : ExprId} {w : List Token} {s : Stmt}
    (spells : SpellsVariable i w s j) :
    PrintsDeclaration s := by
  intro i w kinds
  cases spells with
  | bare =>
    simp only [Stmt.unparse, List.map_eq_cons_iff, List.map_eq_nil_iff] at kinds
    obtain ⟨keyword, _, rfl, starts, token, _, rfl, named, semicolon, _, rfl, ends, rfl⟩ := kinds
    exact ⟨_, _, .var starts (.bare named ends), rfl⟩
  | initialized _ _ initial _ =>
    simp only [Stmt.unparse, List.map_eq_append_iff, List.map_eq_cons_iff,
      List.map_eq_nil_iff] at kinds
    obtain ⟨keyword, _, rfl, starts, token, _, rfl, named, equal, _, rfl, equals, w, _, rfl,
      kinds, semicolon, _, rfl, ends, rfl⟩ := kinds
    obtain ⟨initial', j, spells', same⟩ := initial.prints i w kinds
    refine ⟨_, _, .var starts (.initialized named equals spells' ends), ?_⟩
    simp only [Stmt.relabel, Option.map_some, same]
    rfl

theorem SpellsInitial.prints {i j : ExprId} {w : List Token} {initial : Option Stmt}
    (spells : SpellsInitial i w initial j) : ∀ s ∈ initial, PrintsDeclaration s := by
  rintro s ⟨⟩
  cases spells with
  | var _ declared => exact declared.prints
  | expr value _ =>
    have prints : PrintsStatement false _ := .expr value.prints
    exact prints.declaration

theorem SpellsCondition.prints {keyword : Token} {i j k m : ExprId} {w : List Token}
    {condition : Expr}
    (spells : SpellsCondition keyword i w j k condition m) : Prints .assignment condition := by
  cases spells with
  | none => exact (Prints.literal (.bool true)).loosest
  | some spells => exact spells.prints

/-- A for statement is written as the statement that it means. -/
theorem PrintsStatement.forLoop {isOpen : Bool} {initial : Option Stmt} {condition : Expr}
    {increment : Option Expr} {body : Stmt} (printsInitial : ∀ s ∈ initial, PrintsDeclaration s)
    (printsCondition : Prints .assignment condition)
    (printsIncrement : ∀ e ∈ increment, Prints .assignment e)
    (printsBody : PrintsStatement isOpen body) :
    PrintsStatement isOpen (forLoop initial condition increment body) := by
  have printsLoop : PrintsStatement isOpen (Grammar.forLoop none condition increment body) := by
    cases increment with
    | none => exact .loop printsCondition printsBody
    | some increment =>
      have last : PrintsStatement false (.expr increment) := .expr (printsIncrement increment rfl)
      exact .loop printsCondition
        (.block (.cons printsBody.declaration (.cons last.declaration .nil)))
  cases initial with
  | none => exact printsLoop
  | some initial =>
    exact .block (.cons (printsInitial initial rfl) (.cons printsLoop.declaration .nil))

mutual

theorem SpellsStatement.prints : ∀ {isOpen : Bool} {i j : ExprId} {w : List Token} {s : Stmt},
    SpellsStatement isOpen i w s j → PrintsStatement isOpen s
  | _, _, _, _, _, .expr value _ => .expr value.prints
  | _, _, _, _, _, .print _ value _ => .print value.prints
  | _, _, _, _, _, .return _ value _ => .exit value.prints
  | _, _, _, _, _, .block _ body _ => .block body.prints
  | _, _, _, _, _, .while _ _ condition _ body => .loop condition.prints body.prints
  | _, _, _, _, _, .if _ _ condition _ yes => .branch condition.prints yes.prints
  | _, _, _, _, _, .ifElse _ _ condition _ yes _ no =>
    .branches condition.prints yes.prints no.prints
  | _, _, _, _, _, .for _ _ initial condition _ increment _ body =>
    .forLoop initial.prints condition.prints increment.prints body.prints

theorem SpellsDeclaration.prints : ∀ {i j : ExprId} {w : List Token} {s : Stmt},
    SpellsDeclaration i w s j → PrintsDeclaration s
  | _, _, _, _, .class _ _ _ _ methods _ => .class methods.prints
  | _, _, _, _, .fun _ routine => routine.prints.declaration
  | _, _, _, _, .var _ declared => declared.prints
  | _, _, _, _, .statement statement => statement.prints.declaration

theorem SpellsRoutine.prints : ∀ {i j : ExprId} {w : List Token} {routine : Routine (List Stmt)},
    SpellsRoutine i w routine j → PrintsRoutine routine
  | _, _, _, _, .mk _ _ params _ _ body _ => .mk params body.prints

theorem SpellsMethods.prints :
    ∀ {i j : ExprId} {w : List Token} {methods : List (Routine (List Stmt))},
    SpellsMethods i w methods j → PrintsMethods methods
  | _, _, _, _, .nil => .nil
  | _, _, _, _, .cons method rest => .cons method.prints rest.prints

theorem SpellsDeclarations.prints : ∀ {i j : ExprId} {w : List Token} {program : List Stmt},
    SpellsDeclarations i w program j → PrintsDeclarations program
  | _, _, _, _, .nil => .nil
  | _, _, _, _, .cons first rest => .cons first.prints rest.prints

end

end Grammar

namespace Program

/-- Tokens that a program is written with are read up to the end mark behind them. -/
theorem takeWhile_of_unparse {program : Program} {printed behind : List Token}
    (kinds : printed.map Token.kind = program.unparse) (ends : ∀ t ∈ behind.head?, t.isEnd = true) :
    (printed ++ behind).takeWhile (!·.isEnd) = printed := by
  have proper : ∀ t ∈ printed, (!t.isEnd) = true := by
    intro t member
    have kind : t.kind ≠ .endOfInput := by
      intro isEnd
      have written : t.kind ∈ program.unparse := kinds ▸ List.mem_map_of_mem member
      rw [isEnd] at written
      exact Stmt.notMem_unparseAll program written
    rw [Token.isEnd]
    split
    · rename_i isEnd
      exact absurd isEnd kind
    · rfl
  rw [List.takeWhile_append_of_pos proper]
  cases behind with
  | nil => exact List.append_nil printed
  | cons t rest => simp [ends t rfl]

/-- A program that was read is read from all tokens of the kinds that it is written with, but for
spans and numbers. No parentheses are needed for this, as operands of operators bind tightly enough
and every `else` stands behind the nearest `if` that could take it. -/
theorem parse_unparse {tokens : List Token} {firstId : ExprId} {program : Program}
    (parsed : (Program.parse tokens firstId).result = .ok program) :
    (∀ (printed behind : List Token) (nextId : ExprId), printed.map Token.kind = program.unparse →
      (∀ t ∈ behind.head?, t.isEnd = true) →
      ∃ again, (Program.parse (printed ++ behind) nextId).result = .ok again ∧
        again.relabel .blank = program.relabel .blank) ∧
      (∀ e ∈ program.nodes, e.Nested) ∧ ∀ s ∈ program.statements, s.Closes := by
  have spells := Program.spells_of_parse parsed
  have shaped := spells.shaped
  refine ⟨fun printed behind nextId kinds ends => ?_, shaped.nested, shaped.closes⟩
  obtain ⟨again, j, spellsAgain, same⟩ := spells.prints nextId printed kinds
  refine ⟨again, ?_, same⟩
  rw [← takeWhile_of_unparse kinds ends] at spellsAgain
  rw [Program.parse_eq_ok_iff.mpr spellsAgain]

/-- A loop without a condition, a branch that the nearer of two `if` takes, and an assignment in
another. -/
theorem parse_unparse_nearest_branch :
    let source := "for (;;) if (a) if (b) a.b = c = !d - e - f; else print (g);"
    ∃ tokens program again, Token.tokenize source = .ok tokens ∧
      (Program.parse tokens 0).result = .ok program ∧
      program.ids = [15, 0, 1, 2, 5, 6, 7, 8, 9, 10, 11, 12, 13, 14] ∧ program.unparse.length = 31 ∧
      (Program.parse (program.unparse.map fun kind => ⟨kind, "", ⟨0, 0, 0, 0⟩⟩) 7).result =
        .ok again ∧
      again.relabel .blank = program.relabel .blank := by
  intro source
  have found : (Token.tokenize source).toOption.any (fun tokens =>
      (Program.parse tokens 0).result.toOption.any fun program =>
        program.ids = [15, 0, 1, 2, 5, 6, 7, 8, 9, 10, 11, 12, 13, 14] ∧
          program.unparse.length = 31) =
      true := by
    decide +kernel
  cases scanned : Token.tokenize source with
  | error fault =>
    rw [scanned] at found
    cases found
  | ok tokens =>
    rw [scanned] at found
    cases parsed : (Program.parse tokens 0).result with
    | error errors =>
      rw [Except.toOption, Option.any_some, parsed] at found
      cases found
    | ok program =>
      rw [Except.toOption, Option.any_some, parsed] at found
      obtain ⟨ids, length⟩ := of_decide_eq_true found
      obtain ⟨again, read, same⟩ := (parse_unparse parsed).1
        (program.unparse.map fun kind => ⟨kind, "", ⟨0, 0, 0, 0⟩⟩) [] 7
        (by rw [List.map_map]; exact List.map_id _) (by simp)
      rw [List.append_nil] at read
      exact ⟨tokens, program, again, rfl, parsed, ids, length, read, same⟩

end Program

end Lox
