import Lox.Proofs.Grammar.Counting
import Lox.Proofs.Grammar.Totality
import Lox.Proofs.Scope.Rules
import Lox.Token.Scan

set_option autoImplicit false

/-!
# Programs that were read

The numbers in a program that was read are distinct and in the range that was handed out. Names come
from identifier tokens, so that no variable is called `this` or `super` if no identifier token is.
No declaration is read as the body of an `if` or `while` statement.
-/

namespace Lox

def Token.IsPlain (t : Token) : Prop :=
  ∀ name, t.kind = .identifier name → ¬IsReserved name

def Expr.IsPlain (e : Expr) : Prop :=
  ∀ scopes, e.Obeys .plain scopes

def Expr.AllPlain (es : List Expr) : Prop :=
  ∀ scopes, Expr.AllObey .plain scopes es

def Expr.OptionPlain (e : Option Expr) : Prop :=
  ∀ scopes, Expr.OptionObeys .plain scopes e

namespace Stmt

def IsPlain (s : Stmt) : Prop :=
  ∀ scopes, s.Obeys .plain scopes

def AllPlain (body : List Stmt) : Prop :=
  ∀ scopes, AllObey .plain scopes body

def BodyPlain (s : Stmt) : Prop :=
  s.declared? = none ∧ s.IsPlain

def RoutinePlain (routine : Routine (List Stmt)) : Prop :=
  ¬IsReserved routine.name.text ∧ ∀ scopes, RoutineObeys .plain scopes routine

def MethodsPlain (methods : List (Routine (List Stmt))) : Prop :=
  ∀ scopes, MethodsObey .plain scopes methods

end Stmt

namespace Grammar

/-! ## Names -/

theorem allObey_plain_params (scopes : List Scope.Names) (names : Scope.Names)
    {params : List Ident} (plain : ∀ param ∈ params, ¬IsReserved param.text) :
    Ident.AllObey .plain scopes names params := by
  induction params generalizing names with
  | nil => trivial
  | cons param rest inductionHypothesis =>
    exact ⟨plain param List.mem_cons_self,
      inductionHypothesis _ fun other member => plain other (List.mem_cons_of_mem _ member)⟩

theorem InfixOp.isPlain_apply {op : InfixOp} {i : ExprId} {span : Span} {left right : Expr}
    (plainLeft : left.IsPlain) (plainRight : right.IsPlain) :
    (op.apply i span left right).IsPlain := by
  cases op with
  | binary | logical => exact fun scopes => ⟨plainLeft scopes, plainRight scopes⟩

mutual

theorem Spells.plain : ∀ {tier : Tier} {i j : ExprId} {w : List Token} {e : Expr},
    Spells tier i w e j → (∀ t ∈ w, t.IsPlain) → e.IsPlain
  | _, _, _, _, _, .tighter _ inner, plain => inner.plain plain
  | _, _, _, _, _, .assign found _ value, plain => fun scopes => by
    simp only [List.forall_mem_cons] at plain
    exact ⟨value.plain plain.2.2 scopes, fun _ => plain.1 _ found⟩
  | _, _, _, _, _, .set object _ _ _ value, plain => fun scopes => by
    simp only [List.forall_mem_append, List.forall_mem_cons] at plain
    exact ⟨object.plain plain.1 scopes, value.plain plain.2.2.2.2 scopes⟩
  | _, _, _, _, _, .operator left _ right, plain => by
    simp only [List.forall_mem_append, List.forall_mem_cons] at plain
    exact InfixOp.isPlain_apply (left.plain plain.1) (right.plain plain.2.2)
  | _, _, _, _, _, .unary _ operand, plain => operand.plain (List.forall_mem_cons.mp plain).2
  | _, _, _, _, _, .call callee _ _, plain =>
    fun scopes => ⟨callee.plain (List.forall_mem_append.mp plain).1 scopes, trivial⟩
  | _, _, _, _, _, .callWith callee _ args _ _, plain => fun scopes => by
    simp only [List.forall_mem_append, List.forall_mem_cons] at plain
    exact ⟨callee.plain plain.1 scopes, args.plain plain.2.2.1 scopes⟩
  | _, _, _, _, _, .get object _ _, plain => object.plain (List.forall_mem_append.mp plain).1
  | _, _, _, _, _, .literal _, _ => fun _ => trivial
  | _, _, _, _, _, .ref found, plain => fun _ _ => List.forall_mem_singleton.mp plain _ found
  | _, _, _, _, _, .this _, _ => fun _ kind => by simp [Use.this] at kind
  | _, _, _, _, _, .super _ _ _, _ => fun _ kind => by simp [Use.super] at kind
  | _, _, _, _, _, .group _ inner _, plain => by
    simp only [List.forall_mem_append, List.forall_mem_cons] at plain
    exact inner.plain plain.2.1

theorem SpellsArguments.plain : ∀ {i j : ExprId} {w : List Token} {args : List Expr},
    SpellsArguments i w args j → (∀ t ∈ w, t.IsPlain) → Expr.AllPlain args
  | _, _, _, _, .last last, plain => fun scopes => ⟨last.plain plain scopes, trivial⟩
  | _, _, _, _, .cons first _ rest, plain => fun scopes => by
    simp only [List.forall_mem_append, List.forall_mem_cons] at plain
    exact ⟨first.plain plain.1 scopes, rest.plain plain.2.2 scopes⟩

end

section Clauses

variable {i j k m : ExprId} {w : List Token}

theorem SpellsOption.plain {e : Option Expr} (spells : SpellsOption i w e j)
    (plain : ∀ t ∈ w, t.IsPlain) :
    Expr.OptionPlain e := by
  cases spells with
  | none => exact fun _ => trivial
  | some value => exact value.plain plain

theorem SpellsVariable.plain {s : Stmt} (spells : SpellsVariable i w s j)
    (plain : ∀ t ∈ w, t.IsPlain) :
    s.IsPlain := by
  simp only [Stmt.IsPlain]
  cases spells with
  | bare found => exact fun _ => ⟨(List.forall_mem_cons.mp plain).1 _ found, trivial⟩
  | initialized found _ initial _ =>
    simp only [List.forall_mem_append, List.forall_mem_cons] at plain
    exact fun _ => ⟨plain.1 _ found, initial.plain plain.2.2.1 _⟩

theorem SpellsInitial.plain {initial : Option Stmt} (spells : SpellsInitial i w initial j)
    (plain : ∀ t ∈ w, t.IsPlain) : ∀ s ∈ initial, s.IsPlain := by
  cases spells with
  | none => exact nofun
  | var _ declared =>
    rintro _ ⟨⟩
    exact declared.plain (List.forall_mem_cons.mp plain).2
  | expr value _ =>
    rintro _ ⟨⟩
    exact value.plain (List.forall_mem_append.mp plain).1

theorem SpellsCondition.plain {keyword : Token} {e : Expr} {n : ExprId}
    (spells : SpellsCondition keyword i w j k e n) (plain : ∀ t ∈ w, t.IsPlain) : e.IsPlain := by
  cases spells with
  | none => exact fun _ => trivial
  | some condition => exact condition.plain plain

theorem SpellsSuperclass.plain {superclass : Option Reference}
    (spells : SpellsSuperclass i w superclass j)
    (plain : ∀ t ∈ w, t.IsPlain) : ∀ reference ∈ superclass, ¬IsReserved reference.name.text := by
  cases spells with
  | none => exact nofun
  | some _ found =>
    rintro _ ⟨⟩
    exact plain _ (by simp) _ found

theorem SpellsParameters.plain {params : List Ident} (spells : SpellsParameters w params)
    (plain : ∀ t ∈ w, t.IsPlain) : ∀ param ∈ params, ¬IsReserved param.text := by
  cases spells with
  | none => exact nofun
  | some names =>
    induction names with
    | last found => exact List.forall_mem_singleton.mpr (List.forall_mem_singleton.mp plain _ found)
    | cons found _ _ inductionHypothesis =>
      simp only [List.forall_mem_cons] at plain ⊢
      exact ⟨plain.1 _ found, inductionHypothesis plain.2.2 (Nat.le_of_succ_le ‹_›)⟩

theorem forLoop_plain {initial : Option Stmt} {condition : Expr}
    {increment : Option Expr} {body : Stmt}
    (plainInitial : ∀ s ∈ initial, s.IsPlain) (plainCondition : condition.IsPlain)
    (plainIncrement : Expr.OptionPlain increment) (plainBody : body.BodyPlain) :
    (forLoop initial condition increment body).BodyPlain := by
  have loop : (forLoop none condition increment body).BodyPlain := by
    cases increment with
    | none => exact ⟨rfl, fun scopes => ⟨plainCondition scopes, plainBody.1, plainBody.2 scopes⟩⟩
    | some increment =>
      exact ⟨rfl, fun scopes => ⟨plainCondition scopes, rfl, plainBody.2 _,
        plainIncrement _, trivial⟩⟩
  cases initial with
  | none => exact loop
  | some first => exact ⟨rfl, fun scopes => ⟨plainInitial first rfl _, loop.2 _, trivial⟩⟩

end Clauses

mutual

theorem SpellsStatement.plain : ∀ {isOpen : Bool} {i j : ExprId} {w : List Token} {s : Stmt},
    SpellsStatement isOpen i w s j → (∀ t ∈ w, t.IsPlain) → s.BodyPlain
  | _, _, _, _, _, .expr value _, plain => ⟨rfl, value.plain (List.forall_mem_append.mp plain).1⟩
  | _, _, _, _, _, .print _ value _, plain | _, _, _, _, _, .return _ value _, plain => by
    rw [List.forall_mem_cons, List.forall_mem_append] at plain
    exact ⟨rfl, value.plain plain.2.1⟩
  | _, _, _, _, _, .block _ body _, plain => by
    rw [List.forall_mem_cons, List.forall_mem_append] at plain
    exact ⟨rfl, fun _ => body.plain plain.2.1 _⟩
  | _, _, _, _, _, .while _ _ condition _ body, plain => by
    simp only [List.forall_mem_append, List.forall_mem_cons] at plain
    have inside := body.plain plain.2.2.2.2
    exact ⟨rfl, fun scopes => ⟨condition.plain plain.2.2.1 scopes, inside.1, inside.2 scopes⟩⟩
  | _, _, _, _, _, .if _ _ condition _ yes, plain => by
    simp only [List.forall_mem_append, List.forall_mem_cons] at plain
    have inside := yes.plain plain.2.2.2.2
    exact ⟨rfl, fun scopes => ⟨condition.plain plain.2.2.1 scopes, inside.1, inside.2 scopes⟩⟩
  | _, _, _, _, _, .ifElse _ _ condition _ yes _ no, plain => by
    simp only [List.forall_mem_append, List.forall_mem_cons] at plain
    obtain ⟨-, -, inCondition, -, inYes, -, inNo⟩ := plain
    have inside := yes.plain inYes
    have otherwise := no.plain inNo
    exact ⟨rfl,
      fun scopes => ⟨condition.plain inCondition scopes, ⟨inside.1, inside.2 scopes⟩, otherwise.1,
        otherwise.2 scopes⟩⟩
  | _, _, _, _, _, .for _ _ initial condition _ increment _ body, plain => by
    simp only [List.forall_mem_append, List.forall_mem_cons] at plain
    obtain ⟨-, -, inInitial, inCondition, -, inIncrement, -, inBody⟩ := plain
    exact forLoop_plain (initial.plain inInitial) (condition.plain inCondition)
      (increment.plain inIncrement) (body.plain inBody)

theorem SpellsDeclaration.plain : ∀ {i j : ExprId} {w : List Token} {s : Stmt},
    SpellsDeclaration i w s j → (∀ t ∈ w, t.IsPlain) → s.IsPlain
  | _, _, _, _, .class _ found superclass _ methods _, plain => fun scopes => by
    simp only [List.forall_mem_append, List.forall_mem_cons] at plain
    obtain ⟨-, inName, inSuperclass, -, inMethods, -⟩ := plain
    exact ⟨inName _ found, fun reference member =>
      ⟨fun _ => superclass.plain inSuperclass reference member, trivial⟩, methods.plain inMethods _⟩
  | _, _, _, _, .fun _ routine, plain =>
    fun _ => (routine.plain (List.forall_mem_cons.mp plain).2).imp_right fun inside => inside _
  | _, _, _, _, .var _ declared, plain => declared.plain (List.forall_mem_cons.mp plain).2
  | _, _, _, _, .statement statement, plain => (statement.plain plain).2

theorem SpellsRoutine.plain : ∀ {i j : ExprId} {w : List Token} {routine : Routine (List Stmt)},
    SpellsRoutine i w routine j → (∀ t ∈ w, t.IsPlain) → Stmt.RoutinePlain routine
  | _, _, _, _, .mk found _ params _ _ body _, plain => by
    simp only [List.forall_mem_append, List.forall_mem_cons] at plain
    obtain ⟨inName, -, inParams, -, -, inBody, -⟩ := plain
    exact ⟨inName _ found, fun scopes =>
      ⟨allObey_plain_params _ _ (params.plain inParams), body.plain inBody _⟩⟩

theorem SpellsMethods.plain :
    ∀ {i j : ExprId} {w : List Token} {methods : List (Routine (List Stmt))},
    SpellsMethods i w methods j → (∀ t ∈ w, t.IsPlain) → Stmt.MethodsPlain methods
  | _, _, _, _, .nil, _ => fun _ => trivial
  | _, _, _, _, .cons method rest, plain => fun scopes =>
    ⟨(method.plain (List.forall_mem_append.mp plain).1).2 scopes,
      rest.plain (List.forall_mem_append.mp plain).2 scopes⟩

theorem SpellsDeclarations.plain : ∀ {i j : ExprId} {w : List Token} {program : List Stmt},
    SpellsDeclarations i w program j → (∀ t ∈ w, t.IsPlain) → Stmt.AllPlain program
  | _, _, _, _, .nil, _ => fun _ => trivial
  | _, _, _, _, .cons first rest, plain => fun scopes =>
    ⟨first.plain (List.forall_mem_append.mp plain).1 scopes,
      rest.plain (List.forall_mem_append.mp plain).2 _⟩

end

end Grammar

/-! ## Numbers -/

mutual

theorem Expr.map_id_nodes : ∀ e : Expr, e.nodes.map Expr.id = e.ids
  | .literal .. | .ref _ | .this .. | .super .. => rfl
  | .assign _ _ inner | .unary _ _ _ inner | .group _ _ inner | .get _ inner _ => by
    simp [nodes, ids, inner.map_id_nodes, Expr.id]
  | .binary _ _ _ left right | .logical _ _ _ left right | .set _ left _ right => by
    simp [nodes, ids, left.map_id_nodes, right.map_id_nodes, Expr.id]
  | .call _ _ callee args => by
    simp [nodes, ids, callee.map_id_nodes, Expr.map_id_nodesAll args, Expr.id]

theorem Expr.map_id_nodesAll : ∀ es : List Expr, (Expr.nodesAll es).map Expr.id = Expr.idsAll es
  | [] => rfl
  | e :: rest => by simp [nodesAll, idsAll, e.map_id_nodes, Expr.map_id_nodesAll rest]

end

theorem Expr.map_id_nodesOption (e : Option Expr) :
    (Expr.nodesOption e).map Expr.id = Expr.idsOption e := by
  cases e with
  | none => rfl
  | some e => exact e.map_id_nodes

namespace Stmt

mutual

theorem map_id_nodes : ∀ s : Stmt, s.nodes.map Expr.id = s.ids
  | .expr value | .print value => value.map_id_nodes
  | .var _ value | .return _ value => Expr.map_id_nodesOption value
  | .block body => map_id_nodesAll body
  | .if condition yes none | .while condition yes => by
    simp [nodes, ids, condition.map_id_nodes, yes.map_id_nodes]
  | .if condition yes (some no) => by
    simp [nodes, ids, condition.map_id_nodes, yes.map_id_nodes, no.map_id_nodes]
  | .fun routine => map_id_nodesOfRoutine routine
  | .class _ superclass methods => by
    cases superclass <;> simp [nodes, ids, map_id_nodesOfMethods methods, Expr.id]

theorem map_id_nodesAll : ∀ body : List Stmt, (nodesAll body).map Expr.id = idsAll body
  | [] => rfl
  | s :: rest => by simp [nodesAll, idsAll, s.map_id_nodes, map_id_nodesAll rest]

theorem map_id_nodesOfRoutine : ∀ routine : Routine (List Stmt),
    (nodesOfRoutine routine).map Expr.id = idsOfRoutine routine
  | ⟨_, _, body⟩ => map_id_nodesAll body

theorem map_id_nodesOfMethods : ∀ methods : List (Routine (List Stmt)),
    (nodesOfMethods methods).map Expr.id = idsOfMethods methods
  | [] => rfl
  | method :: rest => by
    simp [nodesOfMethods, idsOfMethods, map_id_nodesOfRoutine method, map_id_nodesOfMethods rest]

end

end Stmt

/-- A program that was read has distinct numbers in the range that was handed out, and no variable
with a reserved name. -/
theorem Program.parse_ok {tokens : List Token} {firstId : ExprId} {program : Program}
    (plain : ∀ t ∈ tokens, t.IsPlain)
    (parsed : (Program.parse tokens firstId).result = .ok program) :
    Numbered firstId (Program.parse tokens firstId).nextId program.ids ∧
      program.Obeys .plain := by
  refine ⟨?_, (Program.spells_of_parse parsed).plain (fun t member => ?_) []⟩
  · rw [Program.ids, ← Stmt.map_id_nodesAll]
    exact (Program.laid_of_parse parsed).numbered
  · exact plain t (List.takeWhile_subset _ member)

/-- Numbers that were handed out are not handed out again, whether or not reading succeeds. -/
theorem Program.le_nextId_parse (tokens : List Token) (firstId : ExprId) :
    firstId ≤ (Program.parse tokens firstId).nextId := by
  have enough : 16 * (Grammar.State.ofTokens tokens firstId).rest.length + 18 ≤
      Grammar.fuelFor (Grammar.State.ofTokens tokens firstId).rest.length := by
    unfold Grammar.fuelFor
    omega
  have reading := Grammar.declarations_reaches _ (Grammar.ends_ofTokens tokens firstId) enough
  unfold Program.parse
  dsimp only
  cases outcome : Grammar.declarations
      (Grammar.fuelFor (Grammar.State.ofTokens tokens firstId).rest.length)
      (Grammar.State.ofTokens tokens firstId) with
  | ok read finish =>
    refine (reading.ok_of_eq outcome).1.keeps (fun s => firstId ≤ s.nextId) le_rfl fun step le => ?_
    cases step with
    | advance | record => exact le
    | number => exact Nat.le_succ_of_le le
  | error fault finish => exact (reading.error_of_eq outcome).elim

/-! ## Tokens of a source text -/

theorem Keyword.not_isReserved_of_ofText?_eq_none {word : String}
    (noKeyword : Keyword.ofText? word = none) : ¬IsReserved word := by
  rintro (rfl | rfl)
  · exact absurd noKeyword (by decide)
  · exact absurd noKeyword (by decide)

theorem Segment.item?_isPlain {segment : Segment} {p : Position} {token : Token}
    (item : segment.item? p = some (.ok token)) : token.IsPlain := by
  intro name found
  unfold Segment.item? at item
  split at item
  · cases item
  · rename_i kind _ formed
    cases item
    dsimp only at found
    subst found
    unfold Segment.tokenKind? at formed
    split at formed
    · dsimp only at formed
      split at formed
      · cases formed
      · rename_i noKeyword
        cases formed
        exact Keyword.not_isReserved_of_ofText?_eq_none noKeyword
    all_goals cases formed
  · cases item

theorem Token.tokensFrom_isPlain {segments : List Segment} {p : Position} {tokens : List Token}
    (scanned : Token.tokensFrom p segments = .ok tokens) : ∀ t ∈ tokens, t.IsPlain := by
  induction segments generalizing p tokens with
  | nil =>
    cases scanned
    intro t member name found
    rw [List.mem_singleton.mp member] at found
    cases found
  | cons segment rest inductionHypothesis =>
    unfold Token.tokensFrom at scanned
    split at scanned
    · cases scanned
    · rename_i token item
      cases others : Token.tokensFrom (p.after segment.text) rest with
      | error e =>
        rw [others] at scanned
        cases scanned
      | ok following =>
        rw [others] at scanned
        cases scanned
        intro t member
        rcases List.mem_cons.mp member with rfl | member
        · exact Segment.item?_isPlain item
        · exact inductionHypothesis others t member
    · exact inductionHypothesis scanned

/-- No identifier of a source text is called `this` or `super`. -/
theorem Token.tokenize_isPlain {source : String} {tokens : List Token}
    (scanned : Token.tokenize source = .ok tokens) : ∀ t ∈ tokens, t.IsPlain :=
  Token.tokensFrom_isPlain scanned

/-- Where nothing is read, faults are reported. -/
theorem Program.parse_error_ne_nil {tokens : List Token} {firstId : ExprId}
    {errors : List ParseError}
    (parsed : (Program.parse tokens firstId).result = .error errors) : errors ≠ [] := by
  unfold Program.parse at parsed
  dsimp only at parsed
  split at parsed
  · dsimp only at parsed
    split at parsed
    · cases parsed
    · rename_i faulty
      cases parsed
      simpa using faulty
  · cases parsed
    simp

end Lox
