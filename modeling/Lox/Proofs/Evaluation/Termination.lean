import Lox.Proofs.Evaluation.Control
import Lox.Proofs.Evaluation.Origins

set_option autoImplicit false

/-!
# Termination

An activity reaches the bound on the recursion only if some part of it does. Without loops, each
part of an activity is smaller than the activity: its text is a part of the text, or a call has used
up one of the calls that may still be executed. So there is a bound that is not reached.
-/

namespace Lox

variable {α β : Type}

/-! ## Where the bound is reached -/

theorem FailsWith.of_bind {ε σ : Type} {x : EStateM ε σ α} {k : α → EStateM ε σ β} {s : σ} {e : ε}
    (fails : FailsWith (x >>= k) s e) :
    FailsWith x s e ∨ ∃ a s', x s = .ok a s' ∧ FailsWith (k a) s' e := by
  obtain ⟨s'', failure⟩ := fails
  cases outcome : x s with
  | ok a s' => exact .inr ⟨a, s', rfl, s'', (bind_of_ok outcome).symm.trans failure⟩
  | error e' s' =>
    cases (bind_of_error outcome).symm.trans failure
    exact .inl ⟨_, outcome⟩

namespace Eval

def Prompt (x : Eval α) : Prop :=
  ∀ m, ¬FailsWith x m .outOfFuel

namespace Prompt

variable {x : Eval α}

protected theorem pure (a : α) : Prompt (pure a) := by
  rintro m ⟨m', ⟨⟩⟩

theorem raise (cause : RuntimeError.Cause) (span : Span) : Prompt (raise cause span : Eval α) := by
  rintro m ⟨m', ⟨⟩⟩

theorem modifyGet (f : Machine → α × Machine) : Prompt (modifyGet f) := by
  rintro m ⟨m', ⟨⟩⟩

theorem bind {k : α → Eval β} (first : Prompt x) (second : ∀ a, Prompt (k a)) :
    Prompt (x >>= k) := by
  intro m fails
  rcases fails.of_bind with fails | ⟨a, m', _, fails⟩
  · exact first m fails
  · exact second a m' fails

theorem get {k : Machine → Eval α} (second : ∀ m, Prompt (k m)) : Prompt (MonadState.get >>= k) :=
  fun m => second m m

theorem ite {condition : Prop} [Decidable condition] {y : Eval α} (yes : Prompt x) (no : Prompt y) :
    Prompt (if condition then x else y) := by
  split
  · exact yes
  · exact no

theorem ofExcept (result : Except RuntimeError α) : Prompt (ofExcept result) := by
  cases result <;> rintro m ⟨m', ⟨⟩⟩

theorem ofCause (result : Except RuntimeError.Cause α) (span : Span) :
    Prompt (ofCause result span) := by
  cases result <;> rintro m ⟨m', ⟨⟩⟩

theorem lookup (i : ExprId) (name : String) (span : Span) : Prompt (lookup i name span) := by
  refine .get fun m => ?_
  split <;> exact .ofExcept _

theorem assign (i : ExprId) (name : Ident) (value : Value) : Prompt (assign i name value) :=
  .get fun _ => (ofExcept _).bind fun _ => .modifyGet _

theorem print (line : String) (span : Span) : Prompt (print line span) :=
  .get fun _ => .ite (.modifyGet _) (.raise _ span)

theorem bindMethod (method : Function) (object : Instance) : Prompt (bindMethod method object) :=
  .bind (.modifyGet _) fun _ => .bind (.modifyGet _) fun _ => .pure _

theorem getProperty (object : Instance) (name : String) (span : Span) :
    Prompt (getProperty object name span) := by
  refine .get fun m => ?_
  split
  · exact .pure _
  · split
    · exact (bindMethod _ object).bind fun _ => .pure _
    · exact .raise _ span

theorem superMethod (i : ExprId) (span : Span) (method : Ident) :
    Prompt (superMethod i span method) := by
  refine .get fun m => ?_
  split
  · exact .raise _ span
  · exact .raise _ span
  · refine .bind (.ofExcept _) fun value => ?_
    split
    · refine .bind (.ofExcept _) fun value => ?_
      split
      · split
        · exact (bindMethod _ _).bind fun _ => .pure _
        · exact .raise _ method.span
      · exact .raise _ span
    · exact .raise _ span

theorem makeMethods (closure : Env) (routines : List (Routine (List Stmt)))
    (methods : Bindings Function) :
    Prompt (makeMethods closure routines methods) := by
  induction routines generalizing methods with
  | nil => exact .pure _
  | cons routine rest inductionHypothesis =>
    exact .bind (.modifyGet _) fun _ => inductionHypothesis _

theorem completeClass (name : Ident) (env closure : Env) (inherited : List ClassLayer)
    (methods : List (Routine (List Stmt))) :
    Prompt (completeClass name env closure inherited methods) :=
  (makeMethods closure methods ∅).bind fun _ => .bind (.modifyGet _) fun _ => .get fun _ =>
    .bind (.ofExcept _) fun _ => .modifyGet _

theorem declareClass (name : Ident) (superclass : Option Reference)
    (methods : List (Routine (List Stmt))) : Prompt (declareClass name superclass methods) := by
  have superclassOf : Prompt (superclassOf superclass) := by
    cases superclass with
    | none => exact .pure _
    | some reference =>
      refine (lookup _ _ _).bind fun value => ?_
      split
      · exact .pure _
      · exact .raise _ _
  rw [declareClass_eq]
  refine superclassOf.bind fun superclass => .bind (.modifyGet _) fun _ => .get fun m => ?_
  cases superclass with
  | some superclass =>
    exact .bind (.modifyGet _) fun closure => .completeClass name m.env closure _ methods
  | none => exact .completeClass name m.env m.env [] methods

theorem declareFunction (routine : Routine (List Stmt)) : Prompt (declareFunction routine) :=
  .bind (.modifyGet _) fun _ => .get fun _ => .modifyGet _

end Prompt

end Eval

namespace Activity

variable {limit : Nat} {a b : Activity}

/-- If the step reaches the bound on the recursion from a state, then so does a part of the
activity. -/
def Blames (limit : Nat) (a : Activity) (x : Eval α) (m : Machine) : Prop :=
  FailsWith x m .outOfFuel → ∃ b, Starts limit a b ∧ b.Fails limit .outOfFuel

namespace Blames

variable {x : Eval α} {m : Machine}

theorem prompt (prompt : Eval.Prompt x) : Blames limit a x m :=
  fun fails => absurd fails (prompt m)

theorem part {fuel : Nat} {task : Task} (starts : Starts limit a ⟨fuel, task, m⟩) :
    Blames limit a (task.run limit fuel) m :=
  fun fails => ⟨_, starts, fails⟩

theorem bind {k : α → Eval β} (first : Blames limit a x m)
    (second : ∀ v m', x m = .ok v m' → Blames limit a (k v) m') : Blames limit a (x >>= k) m := by
  intro fails
  rcases fails.of_bind with fails | ⟨v, m', done, fails⟩
  · exact first fails
  · exact second v m' done fails

theorem get {k : Machine → Eval α} (second : Blames limit a (k m) m) :
    Blames limit a (MonadState.get >>= k) m :=
  second

theorem ite {condition : Prop} [Decidable condition] {y : Eval α}
    (yes : condition → Blames limit a x m) (no : ¬condition → Blames limit a y m) :
    Blames limit a (if condition then x else y) m := by
  split
  · exact yes ‹_›
  · exact no ‹_›

theorem within {env : Env} (inner : Blames limit a x { m with env := env }) :
    Blames limit a (Eval.within env x) m := by
  rintro ⟨m', failure⟩
  unfold Eval.within at failure
  cases outcome : x { m with env := env } with
  | ok v m'' =>
    simp only [outcome] at failure
    cases failure
  | error e m'' =>
    simp only [outcome] at failure
    cases failure
    exact inner ⟨m'', outcome⟩

theorem counted {span : Span}
    (inner : ¬limit ≤ m.callDepth → Blames limit a x { m with callDepth := m.callDepth + 1 }) :
    Blames limit a (Eval.counted limit span x) m := by
  rintro ⟨m', failure⟩
  unfold Eval.counted at failure
  split at failure
  · cases failure
  · rename_i allowed
    cases outcome : x { m with callDepth := m.callDepth + 1 } with
    | ok v m'' =>
      simp only [outcome] at failure
      cases failure
    | error e m'' =>
      simp only [outcome] at failure
      cases failure
      exact inner allowed ⟨m'', outcome⟩

end Blames

variable {fuel : Nat} {m : Machine}

theorem blames_expr (e : Expr) :
    Blames limit ⟨fuel + 1, .expr e, m⟩ (Eval.expr limit (fuel + 1) e) m := by
  cases e with
  | literal i span value => exact .prompt (.pure _)
  | ref target => exact .prompt (.lookup _ _ _)
  | assign i name value =>
    exact .bind (.part .assigned) fun v _ _ =>
      .prompt ((Eval.Prompt.assign i name v).bind fun _ => .pure _)
  | binary i span op left right =>
    exact .bind (.part .binaryLeft) fun v _ first => .bind (.part (.binaryRight first)) fun w _ _ =>
      .prompt (.ofCause _ span)
  | logical i span op left right =>
    exact .bind (.part .logicalLeft) fun v _ first => .ite (fun _ => .prompt (.pure _))
      fun unsettled =>
      .part (.logicalRight first unsettled)
  | unary i span op operand => exact .bind (.part .operand) fun v _ _ => .prompt (.ofCause _ span)
  | call i span callee args =>
    exact .bind (.part .callee) fun v _ first => .bind (.part (.args first)) fun vs _ second =>
      .counted fun allowed => .part (.call first second allowed)
  | group i span inner => exact .part .inner
  | get i object name =>
    refine .bind (.part .getObject) fun v _ _ => .prompt ?_
    split
    · exact .getProperty _ name.text name.span
    · exact .raise _ name.span
  | set i object name value =>
    refine .bind (.part .setObject) fun v _ first => ?_
    cases v with
    | «instance» object =>
      exact .bind (.part (.setValue first)) fun w _ _ =>
        .prompt (.bind (.modifyGet _) fun _ => .pure _)
    | _ => exact .prompt (.raise _ name.span)
  | this i span => exact .prompt (.lookup i "this" span)
  | super i span method => exact .prompt (.superMethod i span method)

theorem blames_stmt (s : Stmt) :
    Blames limit ⟨fuel + 1, .stmt s, m⟩ (Eval.stmt limit (fuel + 1) s) m := by
  cases s with
  | expr value => exact .bind (.part .exprStmt) fun _ _ _ => .prompt (.pure _)
  | print value =>
    exact .bind (.part .printed) fun v _ _ =>
      .prompt (.bind (.print v.text value.span) fun _ => .pure _)
  | var name initial =>
    have define (v : Value) : Eval.Prompt (do Eval.define name.text v; return Flow.next) :=
      .bind (.modifyGet _) fun _ => .pure _
    cases initial with
    | none => exact .prompt (.bind (.pure _) define)
    | some initial => exact .bind (.part .initial) fun v _ _ => .prompt (define v)
  | block body =>
    exact .get (.bind (.prompt (.modifyGet _)) fun env _ enclosed => .within
      (.part (.block enclosed)))
  | «if» condition yes no =>
    refine .bind (.part .condition) fun v _ first => .ite (fun holds => .part (.yes first holds))
      fun fails => ?_
    cases no with
    | none => exact .prompt (.pure _)
    | some no => exact .part (.no first fails)
  | «while» condition body => exact .part .loop
  | «fun» routine => exact .prompt ((Eval.Prompt.declareFunction routine).bind fun _ => .pure _)
  | «return» keyword value =>
    cases value with
    | none => exact .prompt (.pure _)
    | some value => exact .bind (.part .returned) fun _ _ _ => .prompt (.pure _)
  | «class» name superclass methods =>
    exact .prompt ((Eval.Prompt.declareClass name superclass methods).bind fun _ => .pure _)

theorem blames_call (callee : Value) (args : List Value) (span : Span) :
    Blames limit ⟨fuel + 1, .call callee args span, m⟩
      (Eval.call limit (fuel + 1) callee args span) m := by
  cases callee with
  | nil | bool | number | string | «instance» => exact .prompt (.raise _ span)
  | native builtin =>
    exact .ite (fun _ => .prompt (.raise _ span)) fun _ =>
      .prompt (.bind (.modifyGet _) fun _ => .pure _)
  | function f =>
    exact .ite (fun _ => .prompt (.raise _ span)) fun same => .part (.apply (not_not.mp same))
  | «class» cls =>
    exact .ite (fun _ => .prompt (.raise _ span)) fun same => .part (.instantiate (not_not.mp same))

theorem blames_apply (f : Function) (args : List Value) :
    Blames limit ⟨fuel + 1, .apply f args, m⟩ (Eval.apply limit (fuel + 1) f args) m := by
  refine .bind (.prompt (.modifyGet _)) fun env _ enclosed =>
    .bind (.within (.part (.body enclosed))) fun flow _ _ => .prompt ?_
  refine .ite (.get fun _ => .ofExcept _) ?_
  split <;> exact .pure _

theorem blames_instantiate (cls : Class) (args : List Value) :
    Blames limit ⟨fuel + 1, .instantiate cls args, m⟩
      (Eval.instantiate limit (fuel + 1) cls args) m := by
  refine .bind (.prompt (.modifyGet _)) fun object _ made => ?_
  cases declared : cls.initializer? with
  | none => exact .prompt (.pure _)
  | some method =>
    exact .bind (.prompt (.bindMethod method object)) fun bound _ tied =>
      .bind (.part (.initializer declared made tied)) fun _ _ _ => .prompt (.pure _)

/-- An activity that reaches the bound on the recursion has no fuel, or a part of it reaches the
bound. -/
theorem Fails.blame (fails : a.Fails limit .outOfFuel) :
    a.fuel = 0 ∨ ∃ b, Starts limit a b ∧ b.Fails limit .outOfFuel := by
  obtain ⟨fuel, task, m⟩ := a
  cases fuel with
  | zero => exact .inl rfl
  | succ fuel =>
    refine .inr ((?_ : Blames limit ⟨fuel + 1, task, m⟩ (task.run limit (fuel + 1)) m) fails)
    cases task with
    | expr e => exact blames_expr e
    | exprs es =>
      cases es with
      | nil => exact .prompt (.pure _)
      | cons e rest =>
        exact .bind (.part .firstExpr) fun _ _ first =>
          .bind (.part (.otherExprs first)) fun _ _ _ =>
          .prompt (.pure _)
    | call callee args span => exact blames_call callee args span
    | apply f args => exact blames_apply f args
    | instantiate cls args => exact blames_instantiate cls args
    | stmt s => exact blames_stmt s
    | loop condition body =>
      refine .bind (.part .loopCondition) fun v _ first => .ite (fun holds => ?_) fun _ =>
        .prompt (.pure _)
      refine .bind (.part (.loopBody first holds)) fun flow _ second => ?_
      cases flow with
      | next => exact .part (.loopAgain first holds second)
      | «return» value => exact .prompt (.pure _)
    | stmts body =>
      cases body with
      | nil => exact .prompt (.pure _)
      | cons s rest =>
        refine .bind (.part .firstStmt) fun flow _ first => ?_
        cases flow with
        | next => exact .part (.otherStmts first)
        | «return» value => exact .prompt (.pure _)

end Activity

/-! ## Activities without loops -/

namespace Task

/-- Whether there is a loop in the text of the task, or it is a loop. -/
def loops : Task → Bool
  | .stmt s => s.loops
  | .loop .. => true
  | .stmts body => Stmt.loopsAny body
  | .expr _ | .exprs _ | .call .. | .apply .. | .instantiate .. => false

/-- The size of the text of a task, where functions have bodies of at most the given size. -/
noncomputable def weight (size : Nat) : Task → Nat
  | .expr e => sizeOf e
  | .exprs es => sizeOf es
  | .call .. => size + 3
  | .instantiate .. => size + 2
  | .apply .. => size + 1
  | .stmt s => sizeOf s
  | .loop condition body => sizeOf condition + sizeOf body
  | .stmts body => sizeOf body

end Task

/-- Functions are made from routines without loops, of at most the given size. -/
def Origin.loopless (size : Nat) : Origin :=
  ⟨Stmt.Loopless size, fun _ => True⟩

theorem Origin.loopless_covers (limit size : Nat) :
    (Origin.loopless size).Covers limit fun _ => True where
  inner _ known _ := known.inner
  starts _ _ := trivial
  declares _ _ := trivial

namespace Activity

variable {limit size : Nat} {a b : Activity}

structure Loopless (size : Nat) (a : Activity) : Prop where
  routines : a.MadeFrom (.loopless size)
  text : a.task.loops = false

theorem Starts.loopless (starts : Starts limit a b) (loopless : a.Loopless size) :
    b.Loopless size := by
  refine ⟨starts.madeFrom (Origin.loopless_covers limit size) trivial loopless.routines, ?_⟩
  obtain ⟨routines, text⟩ := loopless
  cases starts with
  | assigned | binaryLeft | binaryRight | logicalLeft | logicalRight | operand
  | callee | args | call
  | inner | getObject | setObject | setValue | firstExpr | otherExprs
  | apply | instantiate | initializer
  | exprStmt | printed | initial | condition | returned => rfl
  | body => exact routines.task.1.1
  | block => exact text
  | @yes fuel m m' condition yes no =>
    cases no with
    | none => exact text
    | some no => exact (Bool.or_eq_false_iff.mp text).1
  | no => exact (Bool.or_eq_false_iff.mp text).2
  | loop | loopCondition | loopBody | loopAgain => cases text
  | firstStmt => exact (Bool.or_eq_false_iff.mp text).1
  | otherStmts => exact (Bool.or_eq_false_iff.mp text).2

/-- A part that is not a call has less weight than the activity. -/
theorem Starts.weight_lt (starts : Starts limit a b) (loopless : a.Loopless size)
    (other : b.isCall = false) : b.task.weight size < a.task.weight size := by
  obtain ⟨routines, text⟩ := loopless
  cases starts with
  | call => cases other
  | body => exact Nat.lt_succ_of_le routines.task.1.2
  | loop | loopCondition | loopBody | loopAgain => cases text
  | apply | instantiate | initializer =>
    simp only [Task.weight]
    omega
  | assigned | binaryLeft | binaryRight | logicalLeft | logicalRight | operand | callee
  | args | inner
  | getObject | setObject | setValue =>
    simp only [Task.weight, Expr.assign.sizeOf_spec, Expr.binary.sizeOf_spec,
      Expr.logical.sizeOf_spec, Expr.unary.sizeOf_spec, Expr.call.sizeOf_spec,
      Expr.group.sizeOf_spec, Expr.get.sizeOf_spec,
      Expr.set.sizeOf_spec]
    omega
  | firstExpr | otherExprs | firstStmt | otherStmts =>
    simp only [Task.weight, List.cons.sizeOf_spec]
    omega
  | exprStmt | printed | initial | block | condition | yes | no | returned =>
    simp only [Task.weight, Stmt.expr.sizeOf_spec, Stmt.print.sizeOf_spec, Stmt.var.sizeOf_spec,
      Stmt.block.sizeOf_spec, Stmt.if.sizeOf_spec, Stmt.return.sizeOf_spec, Option.some.sizeOf_spec]
    omega

/-- A measure for activities without loops. A call has one call less that may still be executed
inside of it, and so may lead to a body of whatever size. -/
noncomputable def cost (limit size : Nat) (a : Activity) : Nat :=
  (limit - a.machine.callDepth) * (size + 3) + a.task.weight size

theorem Starts.cost_lt (starts : Starts limit a b) (loopless : a.Loopless size) :
    b.cost limit size < a.cost limit size := by
  have counted := starts.callDepth
  unfold cost
  cases call : b.isCall with
  | false =>
    rw [call, if_neg Bool.false_ne_true, Nat.add_zero] at counted
    rw [counted]
    exact Nat.add_lt_add_left (starts.weight_lt loopless call) _
  | true =>
    rw [call, if_pos rfl] at counted
    cases starts with
    | @call fuel m m' m'' i span callee args f values first second allowed =>
      dsimp only at counted ⊢
      have remaining : limit - m.callDepth = limit - (m.callDepth + 1) + 1 := by omega
      have positive : 0 < sizeOf (Expr.call i span callee args) := by
        rw [Expr.call.sizeOf_spec]
        omega
      rw [counted, remaining, Nat.succ_mul]
      exact Nat.lt_add_of_pos_right positive
    | _ => cases call

theorem Starts.fuel (starts : Starts limit a b) : a.fuel = b.fuel + 1 := by
  cases starts <;> rfl

/-- With more fuel than its cost, an activity without loops does not reach the bound. -/
theorem Loopless.not_exhausted (loopless : a.Loopless size) (enough : a.cost limit size < a.fuel) :
    ¬a.Fails limit .outOfFuel := by
  intro fails
  generalize fuel : a.fuel = n at enough
  induction n generalizing a with
  | zero => exact absurd enough (Nat.not_lt_zero _)
  | succ n inductionHypothesis =>
    rcases fails.blame with none | ⟨b, starts, fails⟩
    · omega
    · have cheaper := starts.cost_lt loopless
      have less := starts.fuel
      exact inductionHypothesis (starts.loopless loopless) fails (by omega) (by omega)

end Activity

end Lox
