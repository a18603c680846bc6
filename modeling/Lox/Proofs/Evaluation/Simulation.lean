import Lox.Evaluation.Basic
import Lox.Proofs.Evaluation.Activity
import Lox.Proofs.Evaluation.Parallel

set_option autoImplicit false

/-!
# Similar programs run alike

Evaluation of similar expressions and execution of similar statements, from similar states: the
outcomes agree. Whatever the two machines print on the way is the same.
-/

namespace Lox

open Comparison (Alongside)

/-! ## The simulation -/

structure Simulates (c : Correspondence) (limit fuel : Nat) : Prop where
  expr : ∀ {world marks e e'}, Expr.Similar c marks e e' →
    Parallel c world marks (Value.Similar c) (Eval.expr limit fuel e) (Eval.expr limit fuel e')
  exprs : ∀ {world marks es es'}, List.Forall₂ (Expr.Similar c marks) es es' →
    Parallel c world marks (fun next => List.Forall₂ (Value.Similar c next))
      (Eval.exprs limit fuel es) (Eval.exprs limit fuel es')
  call : ∀ {world marks callee callee' args args'} (span : Span),
    Value.Similar c world callee callee' → List.Forall₂ (Value.Similar c world) args args' →
    Parallel c world marks (Value.Similar c) (Eval.call limit fuel callee args span)
      (Eval.call limit fuel callee' args' span)
  apply : ∀ {world marks f f' args args'},
    Function.Similar c [] world f f' → List.Forall₂ (Value.Similar c world) args args' →
    Parallel c world marks (Value.Similar c) (Eval.apply limit fuel f args)
      (Eval.apply limit fuel f' args')
  instantiate : ∀ {world marks cls cls' args args'},
    Class.Similar c world cls cls' → List.Forall₂ (Value.Similar c world) args args' →
    Parallel c world marks (Value.Similar c) (Eval.instantiate limit fuel cls args)
      (Eval.instantiate limit fuel cls' args')
  stmt : ∀ {world marks s s'}, Stmt.Similar c marks s s' →
    Parallel c world marks (Flow.Similar c) (Eval.stmt limit fuel s) (Eval.stmt limit fuel s')
  loop : ∀ {world marks condition condition' body body'},
    Expr.Similar c marks condition condition' → Stmt.Similar c marks body body' →
    Parallel c world marks (Flow.Similar c) (Eval.loop limit fuel condition body)
      (Eval.loop limit fuel condition' body')
  stmts : ∀ {world marks body body'}, Stmt.AllSimilar c marks body body' →
    Parallel c world marks (Flow.Similar c) (Eval.stmts limit fuel body)
    (Eval.stmts limit fuel body')

namespace Simulates

variable {c : Correspondence} {limit fuel : Nat} {world marks : List Bool}

theorem zero (c : Correspondence) (limit : Nat) : Simulates c limit 0 where
  expr _ := .throw (.same _)
  exprs _ := .throw (.same _)
  call _ _ _ := .throw (.same _)
  apply _ _ := .throw (.same _)
  instantiate _ _ := .throw (.same _)
  stmt _ := .throw (.same _)
  loop _ _ := .throw (.same _)
  stmts _ := .throw (.same _)

variable (simulates : Simulates c limit fuel)
include simulates

theorem succ_expr (lawful : c.Lawful) {e e' : Expr} (similar : e.Similar c marks e') :
    Parallel c world marks (Value.Similar c) (Eval.expr limit (fuel + 1) e)
      (Eval.expr limit (fuel + 1) e') := by
  cases similar with
  | @literal i i' span value =>
    cases value with
    | nil => exact .value .nil
    | bool b => exact .value (.bool b)
    | number x => exact .value (.number x)
    | string s => exact .value (.string s)
  | ref target => exact .lookup lawful target
  | assign target value =>
    refine (simulates.expr value).andThen fun next v v' _ values => ?_
    exact (Parallel.assign lawful target values).andThen fun _ _ _ later _ =>
      .value (values.later later)
  | @binary i i' span op left left' right right' first second =>
    refine (simulates.expr first).andThen fun next v v' _ lefts => ?_
    refine (simulates.expr second).andThen fun next' w w' later rights => ?_
    rw [op.apply_eq_of_alike (lefts.later later).alike rights.alike]
    exact .ofCause span (op.isCalculated_apply v w)
  | @logical i i' span op left left' right right' first second =>
    refine (simulates.expr first).andThen fun next v v' _ lefts => ?_
    refine .ite (by rw [op.isSettledBy_eq_of_alike lefts.alike]) (fun _ => .value lefts) fun _ => ?_
    exact simulates.expr second
  | @unary i i' span op operand operand' inner =>
    refine (simulates.expr inner).andThen fun next v v' _ operands => ?_
    rw [op.apply_eq_of_alike operands.alike]
    exact .ofCause span (op.isCalculated_apply v)
  | call callee args =>
    refine (simulates.expr callee).andThen fun next v v' _ callees => ?_
    refine (simulates.exprs args).andThen fun next' vs vs' later values => ?_
    exact .counted limit _ (simulates.call _ (callees.later later) values)
  | group inner => exact simulates.expr inner
  | get object =>
    refine (simulates.expr object).andThen fun next v v' _ values => ?_
    cases values with
    | «instance» objects => exact .getProperty (Parallel.bindMethod lawful) _ _ objects
    | _ => exact .raise _ _
  | set object value =>
    refine (simulates.expr object).andThen fun next v v' _ values => ?_
    cases values with
    | «instance» objects =>
      refine (simulates.expr value).andThen fun next' w w' later values => ?_
      exact (Alongside.setField _ (objects.later later) values).andThen
        fun _ _ _ later' _ => .value (values.later later')
    | _ => exact .raise _ _
  | @this i i' span same =>
    have uses : Reference.Similar c marks ⟨i, "this", span⟩ ⟨i', "this", span⟩ :=
      ⟨same, lawful.reserved _ (.inl rfl), rfl⟩
    exact .lookup lawful uses
  | super same => exact .superMethod lawful _ _ same

theorem succ_exprs {es es' : List Expr} (similar : List.Forall₂ (Expr.Similar c marks) es es') :
    Parallel c world marks (fun next => List.Forall₂ (Value.Similar c next))
      (Eval.exprs limit (fuel + 1) es) (Eval.exprs limit (fuel + 1) es') := by
  cases similar with
  | nil => exact .pure fun _ _ => .nil
  | cons first others =>
    refine (simulates.expr first).andThen fun next v v' _ values => ?_
    refine (simulates.exprs others).andThen fun next' vs vs' later rest => .pure fun _ later' => ?_
    exact .cons (values.later (later.trans later'))
      (rest.imp fun _ _ related => related.later later')

theorem succ_apply (lawful : c.Lawful) {f f' : Function} {args args' : List Value}
    (functions : f.Similar c [] world f')
    (values : List.Forall₂ (Value.Similar c world) args args') :
    Parallel c world marks (Value.Similar c) (Eval.apply limit (fuel + 1) f args)
      (Eval.apply limit (fuel + 1) f' args') := by
  obtain ⟨outer, marked, routine⟩ := functions.routine
  obtain ⟨name, mark, params, body⟩ := Stmt.routineSimilar_iff.mp routine
  unfold Eval.apply
  rw [functions.closure, functions.isInitializer, name]
  refine (Parallel.enclose mark marked fun a a' name =>
    optionRel_bindAll (params.imp fun _ _ param => lawful.name_eq_iff name param.text) values
      .none).andThen
      fun next env _ later inside => ?_
  refine (Alongside.within inside (simulates.stmts body)).andThen
    fun next' flow flow' later' flows => ?_
  -- An initializer yields its instance, whatever its body ends with.
  refine .ite Iff.rfl (fun _ => .get fun now m m' later'' states => ?_) fun _ => ?_
  · refine .orFault (fun _ since => ?_) (.same _)
    have still := marked.later (later.trans (later'.trans later''))
    exact optionRel_imp (fun _ _ related => related.later since)
      (states.store.getAt? still (lawful.reserved _ (.inl rfl)))
  · cases flows with
    | next => exact .value .nil
    | «return» values => exact .value values

theorem succ_stmt (lawful : c.Lawful) {s s' : Stmt} (similar : s.Similar c marks s') :
    Parallel c world marks (Flow.Similar c) (Eval.stmt limit (fuel + 1) s)
      (Eval.stmt limit (fuel + 1) s') := by
  cases similar with
  | expr value => exact (simulates.expr value).andThen fun _ _ _ _ _ => .pure fun _ _ => .next
  | print value =>
    refine (simulates.expr value).andThen fun _ v v' _ values => ?_
    rw [values.alike.text, value.span]
    exact (Alongside.print _ _).andThen fun _ _ _ _ _ => .pure fun _ _ => .next
  | var name initial =>
    cases initial with
    | none =>
      exact (Parallel.define lawful name.text .nil).andThen fun _ _ _ _ _ => .pure fun _ _ => .next
    | some initial =>
      refine (simulates.expr initial).andThen fun _ v v' _ values => ?_
      exact (Parallel.define lawful name.text values).andThen fun _ _ _ _ _ =>
        .pure fun _ _ => .next
  | block mark body =>
    refine .get fun now m m' _ states => ?_
    rw [states.inside.1]
    exact (Parallel.enclose mark states.inside.2 fun _ _ _ => .none).andThen
      fun next env _ _ inside => .within inside (simulates.stmts body)
  | «if» condition yes =>
    refine (simulates.expr condition).andThen fun _ v v' _ values => ?_
    exact .ite (by rw [values.alike.isTruthy]) (fun _ => simulates.stmt yes) fun _ =>
      .pure fun _ _ => .next
  | ifElse condition yes no =>
    refine (simulates.expr condition).andThen fun _ v v' _ values => ?_
    exact .ite (by rw [values.alike.isTruthy]) (fun _ => simulates.stmt yes) fun _ =>
      simulates.stmt no
  | «while» condition body => exact simulates.loop condition body
  | «fun» text routine =>
    exact (Parallel.declareFunction lawful text routine).andThen fun _ _ _ _ _ =>
      .pure fun _ _ => .next
  | «return» value =>
    cases value with
    | none => exact .pure fun _ _ => .return .nil
    | some value =>
      exact (simulates.expr value).andThen
        fun _ v v' _ values => .pure fun _ later => .return (values.later later)
  | «class» text methods =>
    exact (Parallel.declareClass lawful text methods).andThen fun _ _ _ _ _ =>
      .pure fun _ _ => .next
  | subclass text superclass _ methods =>
    exact (Parallel.declareSubclass lawful text superclass methods).andThen
      fun _ _ _ _ _ => .pure fun _ _ => .next

theorem succ_loop {condition condition' : Expr} {body body' : Stmt}
    (conditions : condition.Similar c marks condition') (bodies : body.Similar c marks body') :
    Parallel c world marks (Flow.Similar c) (Eval.loop limit (fuel + 1) condition body)
      (Eval.loop limit (fuel + 1) condition' body') := by
  refine (simulates.expr conditions).andThen fun _ v v' _ values => ?_
  refine .ite (by rw [values.alike.isTruthy]) (fun _ => ?_) fun _ => .pure fun _ _ => .next
  refine (simulates.stmt bodies).andThen fun _ flow flow' _ flows => ?_
  cases flows with
  | next => exact simulates.loop conditions bodies
  | «return» values => exact .pure fun _ later => .return (values.later later)

theorem succ_stmts {body body' : List Stmt} (similar : Stmt.AllSimilar c marks body body') :
    Parallel c world marks (Flow.Similar c) (Eval.stmts limit (fuel + 1) body)
      (Eval.stmts limit (fuel + 1) body') := by
  cases similar with
  | nil => exact .pure fun _ _ => .next
  | cons first others =>
    refine (simulates.stmt first).andThen fun _ flow flow' _ flows => ?_
    cases flows with
    | next => exact simulates.stmts others
    | «return» values => exact .pure fun _ later => .return (values.later later)

theorem succ (lawful : c.Lawful) : Simulates c limit (fuel + 1) where
  expr := simulates.succ_expr lawful
  exprs := simulates.succ_exprs
  call span callees values :=
    .call simulates.apply span (fun classes => simulates.instantiate classes values) callees values
  apply := simulates.succ_apply lawful
  instantiate classes values :=
    .instantiate (Parallel.bindMethod lawful) simulates.apply classes values
  stmt := simulates.succ_stmt lawful
  loop := simulates.succ_loop
  stmts := simulates.succ_stmts

end Simulates

theorem simulates {c : Correspondence} (lawful : c.Lawful) (limit fuel : Nat) :
    Simulates c limit fuel := by
  induction fuel with
  | zero => exact .zero c limit
  | succ fuel inductionHypothesis => exact inductionHypothesis.succ lawful

/-! ## Whole programs -/

inductive EndsSimilar (c : Correspondence) :
    Except Interruption Unit → Except Interruption Unit → Prop where
  | ok : EndsSimilar c (.ok ()) (.ok ())
  | error {e e' : Interruption} : e.Similar c e' → EndsSimilar c (.error e) (.error e')

/-- Similar programs are run in step with each other, and leave similar machines at the top
level. -/
theorem Machine.Similar.run {c : Correspondence} {world : List Bool} {m m' : Machine}
    {program program' : Program} {depths depths' : Depths} (lawful : c.Lawful)
    (programs : Stmt.AllSimilar c [] program program')
    (similar : Machine.Similar c world [] { m with depths := m.depths.merge depths }
      { m' with depths := m'.depths.merge depths' }) (limit fuel : Nat) :
    EndsSimilar c (m.run limit fuel program depths).1 (m'.run limit fuel program' depths').1 ∧
      ∃ next, (m.run limit fuel program depths).2.Similar c next []
        (m'.run limit fuel program' depths').2 := by
  have outcome := (simulates lawful limit fuel).stmts programs List.prefix_rfl similar
  have leave : ∀ {next : List Bool} {n n' : Machine}, n.Similar c next [] n' →
      Machine.Similar c next [] { n with env := n.globals, callDepth := 0 }
        { n' with env := n'.globals, callDepth := 0 } :=
    fun done => { done with inside := done.top, callDepth := rfl }
  unfold Machine.run
  generalize Eval.stmts limit fuel program _ = result, Eval.stmts limit fuel program' _ = result'
    at outcome
  cases outcome with
  | ok _ done _ => exact ⟨.ok, _, leave done⟩
  | error _ done faults => exact ⟨.error faults, _, leave done⟩
  | cutShort cut => exact cut.elim

end Lox
