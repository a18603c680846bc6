import Lox.Proofs.Grammar.Soundness

set_option autoImplicit false

/-!
# How expressions are numbered

Every expression takes a number when it has been read, and so the parts of an expression have
smaller numbers than the expression. The variable or property on the left of an assignment has taken
a number too when it turns out to be no expression of its own; that number is lost. All numbers that
are handed out can be told from the program that is read.
-/

namespace Lox

namespace Expr

mutual

/-- An expression and all its parts, each behind its own parts. -/
def nodes : Expr → List Expr
  | .literal id span value => [.literal id span value]
  | .ref target => [.ref target]
  | .assign id name value => value.nodes ++ [.assign id name value]
  | .binary id span op left right => left.nodes ++ right.nodes ++ [.binary id span op left right]
  | .logical id span op left right => left.nodes ++ right.nodes ++ [.logical id span op left right]
  | .unary id span op operand => operand.nodes ++ [.unary id span op operand]
  | .call id span callee args => callee.nodes ++ nodesAll args ++ [.call id span callee args]
  | .group id span inner => inner.nodes ++ [.group id span inner]
  | .get id object name => object.nodes ++ [.get id object name]
  | .set id object name value => object.nodes ++ value.nodes ++ [.set id object name value]
  | .this id span => [.this id span]
  | .super id span method => [.super id span method]

def nodesAll : List Expr → List Expr
  | [] => []
  | e :: rest => e.nodes ++ nodesAll rest

end

def nodesOption : Option Expr → List Expr
  | some e => e.nodes
  | none => []

def parts : Expr → List Expr
  | .literal .. | .ref _ | .this .. | .super .. => []
  | .assign _ _ value => value.nodes
  | .binary _ _ _ left right | .logical _ _ _ left right => left.nodes ++ right.nodes
  | .unary _ _ _ operand => operand.nodes
  | .call _ _ callee args => callee.nodes ++ nodesAll args
  | .group _ _ inner => inner.nodes
  | .get _ object _ => object.nodes
  | .set _ object _ value => object.nodes ++ value.nodes

def isAssignment : Expr → Bool
  | .assign .. | .set .. => true
  | _ => false

theorem nodes_eq (e : Expr) : e.nodes = e.parts ++ [e] := by
  cases e <;> simp only [parts, nodes, List.nil_append]

end Expr

namespace Stmt

mutual

def nodes : Stmt → List Expr
  | .expr value => value.nodes
  | .print value => value.nodes
  | .var _ initial => Expr.nodesOption initial
  | .block body => nodesAll body
  | .if condition yes none => condition.nodes ++ yes.nodes
  | .if condition yes (some no) => condition.nodes ++ yes.nodes ++ no.nodes
  | .while condition body => condition.nodes ++ body.nodes
  | .fun routine => nodesOfRoutine routine
  | .return _ value => Expr.nodesOption value
  | .class _ superclass methods => (superclass.map Expr.ref).toList ++ nodesOfMethods methods

def nodesAll : List Stmt → List Expr
  | [] => []
  | s :: rest => s.nodes ++ nodesAll rest

def nodesOfRoutine : Routine (List Stmt) → List Expr
  | ⟨_, _, body⟩ => nodesAll body

def nodesOfMethods : List (Routine (List Stmt)) → List Expr
  | [] => []
  | method :: rest => nodesOfRoutine method ++ nodesOfMethods rest

end

end Stmt

def Program.nodes (program : Program) : List Expr :=
  Stmt.nodesAll program

namespace Grammar

/-- Expressions that have taken the numbers from `i` up to, and without, `j`, where one was lost for
each assignment among them. -/
structure Laid (i : Nat) (nodes : List Expr) (j : Nat) : Prop where
  numbered : Numbered i j (nodes.map Expr.id)
  count : j = i + nodes.length + (nodes.filter Expr.isAssignment).length
  descends : ∀ e ∈ nodes, ∀ part ∈ e.parts, part.id < e.id

namespace Laid

variable {i j k : Nat} {first second : List Expr} {e : Expr}

theorem nil : Laid i [] i :=
  ⟨.nil le_rfl, rfl, by simp⟩

theorem append (left : Laid i first j) (right : Laid j second k) : Laid i (first ++ second) k where
  numbered := by
    rw [List.map_append]
    exact left.numbered.append right.numbered
  count := by
    have := left.count
    have := right.count
    simp only [List.length_append, List.filter_append]
    omega
  descends e member := by
    rcases List.mem_append.mp member with member | member
    · exact left.descends e member
    · exact right.descends e member

theorem perm (laid : Laid i first j) (reordered : second.Perm first) : Laid i second j where
  numbered := laid.numbered.perm (reordered.map Expr.id)
  count := by
    rw [reordered.length_eq, (reordered.filter Expr.isAssignment).length_eq]
    exact laid.count
  descends e member := laid.descends e (reordered.mem_iff.mp member)

/-- An expression whose parts have numbers takes the one behind them. -/
theorem above (numbered : Numbered i j (e.parts.map Expr.id))
    (descends : ∀ inner ∈ e.parts, ∀ part ∈ inner.parts, part.id < inner.id) (id : e.id = j)
    (count : j + 1 = i + (e.parts.length + 1) +
      ((e.parts.filter Expr.isAssignment).length + if e.isAssignment then 1 else 0)) :
    Laid i e.nodes (j + 1) := by
  rw [Expr.nodes_eq]
  refine ⟨?_, ?_, fun inner member => ?_⟩
  · rw [List.map_append, List.map_singleton, id]
    exact numbered.push
  · rw [List.filter_append, List.length_append, List.length_append, List.filter_singleton]
    cases assigns : e.isAssignment <;> simpa [assigns] using count
  · rcases List.mem_append.mp member with member | member
    · exact descends inner member
    · cases List.mem_singleton.mp member
      intro part within
      rw [id]
      exact (numbered.bounds _ (List.mem_map_of_mem within)).2

/-- What is no assignment loses no number. -/
theorem node (parts : Laid i e.parts j) (id : e.id = j) (plain : e.isAssignment = false) :
    Laid i e.nodes (j + 1) := by
  have := parts.count
  refine above parts.numbered parts.descends id ?_
  rw [plain]
  simp only [Bool.false_eq_true, if_false]
  omega

theorem leaf (id : e.id = i) (none : e.parts = []) (plain : e.isAssignment = false) :
    Laid i e.nodes (i + 1) :=
  node (none ▸ nil) id plain

theorem operator {op : InfixOp} {span : Span} {left right : Expr}
    (laid : Laid i (left.nodes ++ right.nodes) j) :
    Laid i (op.apply j span left right).nodes (j + 1) := by
  cases op with
  | binary => exact node laid rfl rfl
  | logical => exact node laid rfl rfl

/-- The variable on the left of an assignment has taken a number first. -/
theorem assign {name : Ident} {value : Expr} (laid : Laid (i + 1) value.nodes j) :
    Laid i (Expr.assign j name value).nodes (j + 1) := by
  have := laid.count
  refine above (laid.numbered.lower (Nat.le_succ i)) laid.descends rfl ?_
  simp only [Expr.parts, Expr.isAssignment, if_true]
  omega

/-- The property on the left of an assignment has taken a number behind its object. -/
theorem set {object value : Expr} {name : Ident} (laidObject : Laid i object.nodes j)
    (laidValue : Laid (j + 1) value.nodes k) :
    Laid i (Expr.set k object name value).nodes (k + 1) := by
  have := laidObject.count
  have := laidValue.count
  refine above ?_ ?_ rfl ?_
  · rw [Expr.parts, List.map_append]
    exact laidObject.numbered.append (laidValue.numbered.lower (Nat.le_succ j))
  · intro inner member
    rcases List.mem_append.mp member with member | member
    · exact laidObject.descends inner member
    · exact laidValue.descends inner member
  · simp only [Expr.parts, Expr.isAssignment, if_true, List.length_append, List.filter_append]
    omega

end Laid

mutual

theorem Spells.laid : ∀ {tier : Tier} {i j : ExprId} {w : List Token} {e : Expr},
    Spells tier i w e j → Laid i e.nodes j
  | _, _, _, _, _, .tighter _ inner => inner.laid
  | _, _, _, _, _, .assign _ _ value => value.laid.assign
  | _, _, _, _, _, .set object _ _ _ value => object.laid.set value.laid
  | _, _, _, _, _, .operator left _ right => (left.laid.append right.laid).operator
  | _, _, _, _, _, .unary _ operand => operand.laid.node rfl rfl
  | _, _, _, _, _, .call callee _ _ => (callee.laid.append .nil).node rfl rfl
  | _, _, _, _, _, .callWith callee _ args _ _ => (callee.laid.append args.laid).node rfl rfl
  | _, _, _, _, _, .get object _ _ => object.laid.node rfl rfl
  | _, _, _, _, _, .literal _ | _, _, _, _, _, .ref _ | _, _, _, _, _, .this _
  | _, _, _, _, _, .super _ _ _ =>
    .leaf rfl rfl rfl
  | _, _, _, _, _, .group _ inner _ => inner.laid.node rfl rfl

theorem SpellsArguments.laid : ∀ {i j : ExprId} {w : List Token} {args : List Expr},
    SpellsArguments i w args j → Laid i (Expr.nodesAll args) j
  | _, _, _, _, .last last => last.laid.append .nil
  | _, _, _, _, .cons first _ rest => first.laid.append rest.laid

end

section Statements

variable {i j : ExprId} {w : List Token}

theorem SpellsOption.laid {e : Option Expr} (spells : SpellsOption i w e j) :
    Laid i (Expr.nodesOption e) j := by
  cases spells with
  | none => exact .nil
  | some spells => exact spells.laid

theorem SpellsVariable.laid {s : Stmt} (spells : SpellsVariable i w s j) : Laid i s.nodes j := by
  cases spells with
  | bare => exact .nil
  | initialized _ _ initial _ => exact initial.laid

theorem SpellsInitial.laid {s : Option Stmt} (spells : SpellsInitial i w s j) :
    Laid i (Stmt.nodesAll s.toList) j := by
  cases spells with
  | none => exact .nil
  | var _ spells => exact spells.laid.append .nil
  | expr spells _ => exact spells.laid.append .nil

theorem SpellsSuperclass.laid {superclass : Option Reference}
    (spells : SpellsSuperclass i w superclass j) :
    Laid i (superclass.map Expr.ref).toList j := by
  cases spells with
  | none => exact .nil
  | @some _ token name =>
    have inherited : Laid i (Expr.ref ⟨i, ⟨name, token.span⟩⟩).nodes (i + 1) := .leaf rfl rfl rfl
    exact inherited

/-- The parts of a for statement are not read in the order in which they stand in the statement that
it means. -/
theorem nodes_forLoop_perm (initial : Option Stmt) (condition : Expr) (increment : Option Expr)
    (body : Stmt) : (forLoop initial condition increment body).nodes.Perm
      (Stmt.nodesAll initial.toList ++ condition.nodes ++ Expr.nodesOption increment ++
        body.nodes) := by
  cases initial <;> cases increment <;>
    simp [forLoop, Stmt.nodes, Stmt.nodesAll, Expr.nodesOption, List.append_assoc,
      List.perm_append_left_iff, List.perm_append_comm]

/-- A condition that is left out takes its number behind the body. -/
theorem SpellsCondition.laid {keyword : Token} {k m n : ExprId} {condition : Expr}
    {first between : List Expr}
    (spells : SpellsCondition keyword j w k m condition n) (before : Laid i first j)
    (behind : Laid k between m) : Laid i (first ++ condition.nodes ++ between) n := by
  cases spells with
  | some spells => exact (before.append spells.laid).append behind
  | none =>
    have last : Laid m (Expr.literal m keyword.span (.bool true)).nodes (m + 1) := .leaf rfl rfl rfl
    refine ((before.append behind).append last).perm ?_
    rw [List.append_assoc, List.append_assoc, List.perm_append_left_iff]
    exact List.perm_append_comm

end Statements

mutual

theorem SpellsStatement.laid : ∀ {isOpen : Bool} {i j : ExprId} {w : List Token} {s : Stmt},
    SpellsStatement isOpen i w s j → Laid i s.nodes j
  | _, _, _, _, _, .expr value _ => value.laid
  | _, _, _, _, _, .print _ value _ => value.laid
  | _, _, _, _, _, .return _ value _ => value.laid
  | _, _, _, _, _, .block _ body _ => body.laid
  | _, _, _, _, _, .while _ _ condition _ body => condition.laid.append body.laid
  | _, _, _, _, _, .if _ _ condition _ yes => condition.laid.append yes.laid
  | _, _, _, _, _, .ifElse _ _ condition _ yes _ no =>
    (condition.laid.append yes.laid).append no.laid
  | _, _, _, _, _, .for _ _ initial condition _ increment _ body => by
    refine (condition.laid initial.laid (increment.laid.append body.laid)).perm ?_
    rw [← List.append_assoc]
    exact nodes_forLoop_perm ..

theorem SpellsDeclaration.laid : ∀ {i j : ExprId} {w : List Token} {s : Stmt},
    SpellsDeclaration i w s j → Laid i s.nodes j
  | _, _, _, _, .class _ _ superclass _ methods _ => superclass.laid.append methods.laid
  | _, _, _, _, .fun _ routine => routine.laid
  | _, _, _, _, .var _ declared => declared.laid
  | _, _, _, _, .statement statement => statement.laid

theorem SpellsRoutine.laid : ∀ {i j : ExprId} {w : List Token} {routine : Routine (List Stmt)},
    SpellsRoutine i w routine j → Laid i (Stmt.nodesOfRoutine routine) j
  | _, _, _, _, .mk _ _ _ _ _ body _ => body.laid

theorem SpellsMethods.laid :
    ∀ {i j : ExprId} {w : List Token} {methods : List (Routine (List Stmt))},
    SpellsMethods i w methods j → Laid i (Stmt.nodesOfMethods methods) j
  | _, _, _, _, .nil => .nil
  | _, _, _, _, .cons method rest => method.laid.append rest.laid

theorem SpellsDeclarations.laid : ∀ {i j : ExprId} {w : List Token} {program : List Stmt},
    SpellsDeclarations i w program j → Laid i (Stmt.nodesAll program) j
  | _, _, _, _, .nil => .nil
  | _, _, _, _, .cons first rest => first.laid.append rest.laid

end

end Grammar

/-- The expressions of a program that was read have taken the numbers that were handed out. -/
theorem Program.laid_of_parse {tokens : List Token} {firstId : ExprId} {program : Program}
    (parsed : (Program.parse tokens firstId).result = .ok program) :
    Grammar.Laid firstId program.nodes (Program.parse tokens firstId).nextId :=
  (Program.spells_of_parse parsed).laid

end Lox
