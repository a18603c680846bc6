import Lox.Evaluation.Basic
import Lox.Proofs.Evaluation.Activity
import Lox.Proofs.Evaluation.Rerun
import Lox.Proofs.Scope.Joining

set_option autoImplicit false

/-!
# Programs that are run again

Relabeled expressions and statements do what the expressions and statements do. With other labels,
this says that labels do not matter. With the same labels, it says that an evaluation that ends does
so with all larger bounds on the recursion too.
-/

namespace Lox

theorem Function.bindArguments_relabel (r : Relabeling) (f : Function) (args : List Value) :
    (f.relabel r).bindArguments (args.map (Value.relabel r)) =
      (f.bindArguments args).map (Value.relabel r) := by
  suffices general : ∀ (params : List Ident) (args : List Value) (bindings : Bindings Value),
      Bindings.bindAll (params.map (Ident.relabel r)) (args.map (Value.relabel r))
          (bindings.map (Value.relabel r)) =
        (Bindings.bindAll params args bindings).map (Value.relabel r) by
    rw [bindArguments, bindArguments, Function.relabel, Stmt.relabelRoutine_params]
    exact general f.routine.params args ∅
  intro params
  induction params with
  | nil => exact fun _ _ => rfl
  | cons param rest inductionHypothesis =>
    intro args bindings
    cases args with
    | nil => rfl
    | cons arg args =>
      have bound := inductionHypothesis args (bindings.insert param.text arg)
      rw [Bindings.map_insert] at bound
      exact bound

namespace Rerun

structure Carries (c : Rerun) (limit fuel fuel' : Nat) : Prop where
  expr : ∀ e : Expr, c.Follows (Value.relabel c.labels) (Eval.expr limit fuel e)
    (Eval.expr limit fuel' (e.relabel c.labels))
  exprs : ∀ es : List Expr, c.Follows (List.map (Value.relabel c.labels)) (Eval.exprs limit fuel es)
    (Eval.exprs limit fuel' (Expr.relabelAll c.labels es))
  call : ∀ (callee : Value) (args : List Value) (span : Span),
    c.Follows (Value.relabel c.labels) (Eval.call limit fuel callee args span)
      (Eval.call limit fuel' (callee.relabel c.labels) (args.map (Value.relabel c.labels))
        (c.labels.span span))
  apply : ∀ (f : Function) (args : List Value),
    c.Follows (Value.relabel c.labels) (Eval.apply limit fuel f args)
      (Eval.apply limit fuel' (f.relabel c.labels) (args.map (Value.relabel c.labels)))
  instantiate : ∀ (cls : Class) (args : List Value),
    c.Follows (Value.relabel c.labels) (Eval.instantiate limit fuel cls args)
      (Eval.instantiate limit fuel' (cls.relabel c.labels) (args.map (Value.relabel c.labels)))
  stmt : ∀ s : Stmt, c.Follows (Flow.relabel c.labels) (Eval.stmt limit fuel s)
    (Eval.stmt limit fuel' (s.relabel c.labels))
  loop : ∀ (condition : Expr) (body : Stmt),
    c.Follows (Flow.relabel c.labels) (Eval.loop limit fuel condition body)
      (Eval.loop limit fuel' (condition.relabel c.labels) (body.relabel c.labels))
  stmts : ∀ body : List Stmt, c.Follows (Flow.relabel c.labels) (Eval.stmts limit fuel body)
    (Eval.stmts limit fuel' (Stmt.relabelAll c.labels body))

namespace Carries

variable {c : Rerun} {limit fuel fuel' : Nat}

theorem zero (possible : c.longer ∨ fuel' = 0) : Carries c limit 0 fuel' := by
  have exhausted {α : Type} {f : α → α} (x' : Nat → Eval α) (without : x' 0 = throw .outOfFuel) :
      c.Follows f (throw .outOfFuel) (x' fuel') := by
    refine .outOfFuel (possible.imp_right fun none => ?_)
    rw [none, without]
  exact
    { expr e := exhausted (Eval.expr limit · _) rfl
      exprs es := exhausted (Eval.exprs limit · _) rfl
      call callee args span := exhausted (Eval.call limit · _ _ _) rfl
      apply f args := exhausted (Eval.apply limit · _ _) rfl
      instantiate cls args := exhausted (Eval.instantiate limit · _ _) rfl
      stmt s := exhausted (Eval.stmt limit · _) rfl
      loop condition body := exhausted (Eval.loop limit · _ _) rfl
      stmts body := exhausted (Eval.stmts limit · _) rfl }

variable (carries : Carries c limit fuel fuel')
include carries

theorem succ_expr (e : Expr) : c.Follows (Value.relabel c.labels) (Eval.expr limit (fuel + 1) e)
    (Eval.expr limit (fuel' + 1) (e.relabel c.labels)) := by
  cases e with
  | literal id span value =>
    have same := Follows.pure (c := c) (f := Value.relabel c.labels) value.value
    rw [Value.relabel_literal] at same
    exact same
  | ref target => exact .lookup target.id target.name.text target.name.span
  | assign id name value =>
    exact (carries.expr value).bind fun v => (Follows.assign id name v).bind fun _ => .pure v
  | binary id span op left right =>
    refine (carries.expr left).bind fun v => (carries.expr right).bind fun w => ?_
    rw [op.apply_relabel]
    exact .ofCause (op.apply v w) span
  | logical id span op left right =>
    refine (carries.expr left).bind fun v => ?_
    exact .ite (by rw [op.isSettledBy_relabel]) (.pure v) (carries.expr right)
  | unary id span op operand =>
    refine (carries.expr operand).bind fun v => ?_
    rw [op.apply_relabel]
    exact .ofCause (op.apply v) span
  | call id span callee args =>
    exact (carries.expr callee).bind fun v => (carries.exprs args).bind fun vs =>
      .counted limit span (carries.call v vs span)
  | group id span inner => exact carries.expr inner
  | get id object name =>
    refine (carries.expr object).bind fun v => ?_
    cases v with
    | «instance» object => exact .getProperty object name.text name.span
    | _ => exact .raise _ name.span
  | set id object name value =>
    refine (carries.expr object).bind fun v => ?_
    cases v with
    | «instance» object =>
      exact (carries.expr value).bind fun w =>
        (Follows.setField object name.text w).bind fun _ => .pure w
    | _ => exact .raise _ name.span
  | this id span => exact .lookup id "this" span
  | super id span method => exact .superMethod id span method

theorem succ_exprs (es : List Expr) :
    c.Follows (List.map (Value.relabel c.labels)) (Eval.exprs limit (fuel + 1) es)
      (Eval.exprs limit (fuel' + 1) (Expr.relabelAll c.labels es)) := by
  cases es with
  | nil => exact .pure []
  | cons e rest =>
    exact (carries.expr e).bind fun v => (carries.exprs rest).bind fun vs => .pure (v :: vs)

theorem succ_call (callee : Value) (args : List Value) (span : Span) :
    c.Follows (Value.relabel c.labels) (Eval.call limit (fuel + 1) callee args span)
      (Eval.call limit (fuel' + 1) (callee.relabel c.labels) (args.map (Value.relabel c.labels))
        (c.labels.span span)) := by
  unfold Eval.call
  rw [Value.callable?_relabel]
  cases callee.callable? with
  | none => exact .raise _ span
  | some callable =>
    dsimp only [Option.map_some]
    rw [Callable.arity_relabel, List.length_map]
    refine .ite Iff.rfl (.raise _ span) ?_
    cases callable with
    | native builtin =>
      cases builtin
      exact Follows.readClock.bind fun reading => .pure (Value.number reading)
    | function f => exact carries.apply f args
    | «class» cls => exact carries.instantiate cls args

theorem succ_apply (f : Function) (args : List Value) :
    c.Follows (Value.relabel c.labels) (Eval.apply limit (fuel + 1) f args)
      (Eval.apply limit (fuel' + 1) (f.relabel c.labels) (args.map (Value.relabel c.labels))) := by
  have frame := Follows.enclose (c := c) f.closure (f.bindArguments args)
  rw [← Function.bindArguments_relabel] at frame
  refine frame.bind fun env => ?_
  have body := carries.stmts f.routine.body
  rw [← Stmt.relabelRoutine_body] at body
  refine (Follows.within env body).bind fun flow => ?_
  refine .ite Iff.rfl (.get fun m _ => ?_) ?_
  · have span : (f.relabel c.labels).routine.name.span = c.labels.span f.routine.name.span := by
      rw [Function.relabel, Stmt.relabelRoutine_name]
      rfl
    rw [span]
    exact .getAt 0 "this" f.routine.name.span f.closure
  · cases flow with
    | next => exact .pure Value.nil
    | «return» value => exact .pure value

theorem succ_instantiate (cls : Class) (args : List Value) :
    c.Follows (Value.relabel c.labels) (Eval.instantiate limit (fuel + 1) cls args)
      (Eval.instantiate limit (fuel' + 1) (cls.relabel c.labels)
        (args.map (Value.relabel c.labels))) := by
  refine (Follows.newInstance cls).bind fun object => ?_
  unfold Class.initializer?
  rw [Class.findMethod?_relabel]
  cases cls.findMethod? "init" with
  | none => exact .pure (Value.instance object)
  | some method =>
    exact (Follows.bindMethod method object).bind fun initializer =>
      (carries.apply initializer args).bind fun _ => .pure (Value.instance object)

theorem succ_stmt (s : Stmt) : c.Follows (Flow.relabel c.labels) (Eval.stmt limit (fuel + 1) s)
    (Eval.stmt limit (fuel' + 1) (s.relabel c.labels)) := by
  cases s with
  | expr value => exact (carries.expr value).bind fun _ => .pure Flow.next
  | print value =>
    refine (carries.expr value).bind fun v => ?_
    rw [Value.text_relabel, Expr.span_relabel]
    exact (Follows.print v.text value.span).bind fun _ => .pure Flow.next
  | var name initial =>
    cases initial with
    | none =>
      exact (Follows.pure (f := Value.relabel c.labels) Value.nil).bind fun v =>
        (Follows.define name.text v).bind fun _ => .pure Flow.next
    | some initial =>
      exact (carries.expr initial).bind fun v =>
        (Follows.define name.text v).bind fun _ => .pure Flow.next
  | block body =>
    exact .get fun m _ => (Follows.enclose m.env ∅).bind fun env => .within env (carries.stmts body)
  | «if» condition yes no =>
    cases no with
    | none =>
      refine (carries.expr condition).bind fun v => ?_
      exact .ite (by rw [Value.isTruthy_relabel]) (carries.stmt yes) (.pure Flow.next)
    | some no =>
      refine (carries.expr condition).bind fun v => ?_
      exact .ite (by rw [Value.isTruthy_relabel]) (carries.stmt yes) (carries.stmt no)
  | «while» condition body => exact carries.loop condition body
  | «fun» routine => exact (Follows.declareFunction routine).bind fun _ => .pure Flow.next
  | «return» keyword value =>
    cases value with
    | none => exact .pure (Flow.return .nil)
    | some value => exact (carries.expr value).bind fun v => .pure (Flow.return v)
  | «class» name superclass methods =>
    exact (Follows.declareClass name superclass methods).bind fun _ => .pure Flow.next

theorem succ_loop (condition : Expr) (body : Stmt) :
    c.Follows (Flow.relabel c.labels) (Eval.loop limit (fuel + 1) condition body)
      (Eval.loop limit (fuel' + 1) (condition.relabel c.labels) (body.relabel c.labels)) := by
  refine (carries.expr condition).bind fun v => ?_
  refine .ite (by rw [Value.isTruthy_relabel]) ((carries.stmt body).bind fun flow => ?_)
    (.pure Flow.next)
  cases flow with
  | next => exact carries.loop condition body
  | «return» value => exact .pure (Flow.return value)

theorem succ_stmts (body : List Stmt) :
    c.Follows (Flow.relabel c.labels) (Eval.stmts limit (fuel + 1) body)
      (Eval.stmts limit (fuel' + 1) (Stmt.relabelAll c.labels body)) := by
  cases body with
  | nil => exact .pure Flow.next
  | cons s rest =>
    refine (carries.stmt s).bind fun flow => ?_
    cases flow with
    | next => exact carries.stmts rest
    | «return» value => exact .pure (Flow.return value)

theorem succ : Carries c limit (fuel + 1) (fuel' + 1) where
  expr := carries.succ_expr
  exprs := carries.succ_exprs
  call := carries.succ_call
  apply := carries.succ_apply
  instantiate := carries.succ_instantiate
  stmt := carries.succ_stmt
  loop := carries.succ_loop
  stmts := carries.succ_stmts

end Carries

/-- Everything is done again with the same bound on the recursion, and with a larger one too if that
is allowed for. -/
theorem carries (c : Rerun) (limit : Nat) {fuel fuel' : Nat} (le : fuel ≤ fuel')
    (possible : c.longer ∨ fuel' = fuel) : Carries c limit fuel fuel' := by
  induction fuel generalizing fuel' with
  | zero => exact .zero possible
  | succ fuel inductionHypothesis =>
    obtain ⟨more, rfl⟩ := Nat.exists_eq_add_of_le' le
    exact (inductionHypothesis (Nat.le_of_succ_le_succ le)
      (possible.imp_right Nat.succ.inj)).succ

/-! ## The same labels -/

/-- Nothing is changed, but there may be more fuel. -/
def unchanged (depths : Depths) (longer : Prop) : Rerun where
  labels := .spans fun span => span
  before := depths
  after := depths
  entries _ := rfl
  longer := longer

theorem relabelAll_unchanged (depths : Depths) (longer : Prop) (body : List Stmt) :
    Stmt.relabelAll (unchanged depths longer).labels body = body :=
  Stmt.relabelAll_eq_self (fun _ => rfl) body fun _ _ => rfl

theorem store_unchanged (depths : Depths) (longer : Prop) (s : Store) :
    s.relabel (unchanged depths longer).labels = s :=
  s.relabel_eq_self fun routine => Stmt.relabelRoutine_eq_self (fun _ => rfl) routine fun _ _ => rfl

theorem again_unchanged (longer : Prop) {m : Machine} {depths : Depths} (same : m.depths = depths) :
    m.again (unchanged depths longer) = m := by
  rw [Machine.again, store_unchanged, unchanged, ← same]

theorem flow_unchanged (depths : Depths) (longer : Prop) (flow : Flow) :
    flow.relabel (unchanged depths longer).labels = flow := by
  cases flow with
  | next => rfl
  | «return» value =>
    exact congrArg Flow.return (value.relabel_eq_self fun routine =>
      Stmt.relabelRoutine_eq_self (fun _ => rfl) routine fun _ _ => rfl)

theorem interruption_unchanged (depths : Depths) (longer : Prop) (e : Interruption) :
    e.relabel (unchanged depths longer).labels = e := by
  cases e <;> rfl

/-! ## Other spans -/

def respan (f : Span → Span) (depths : Depths) : Rerun where
  labels := .spans f
  before := depths
  after := depths
  entries _ := rfl
  longer := False

end Rerun

def Machine.respan (f : Span → Span) (m : Machine) : Machine :=
  { m with store := m.store.relabel (.spans f) }

theorem Rerun.again_respan {f : Span → Span} {m : Machine} {depths : Depths}
    (same : m.depths = depths) :
    m.again (.respan f depths) = m.respan f := by
  rw [Machine.again, respan, Machine.respan, ← same]

def Eval.respanOutcome (f : Span → Span) :
    EStateM.Result Interruption Machine Flow → EStateM.Result Interruption Machine Flow
  | .ok flow m => .ok (flow.relabel (.spans f)) (m.respan f)
  | .error e m => .error (e.relabel (.spans f)) (m.respan f)

namespace Eval

variable {limit fuel fuel' : Nat} {body rest : List Stmt} {m : Machine}

/-- Statements leave the machine at the point where it was, however they end. -/
theorem stmts_keeps (limit fuel : Nat) (body : List Stmt) (m : Machine) :
    Meets (stmts limit fuel body) m (fun _ m' => m.Keeps m') fun _ m' => m.Keeps m' := by
  exact ((Rerun.unchanged m.depths False).carries limit (le_refl fuel) (.inr rfl)).stmts body
    |>.keeps not_false rfl

/-- An outcome that is reached with some bound is reached with every larger one. -/
theorem stmts_of_le (le : fuel ≤ fuel')
    (finished : ¬FailsWith (stmts limit fuel body) m .outOfFuel) :
    stmts limit fuel' body m = stmts limit fuel body m := by
  have repeated :=
    ((Rerun.unchanged m.depths True).carries limit le (.inl trivial)).stmts body m rfl
  rw [Rerun.relabelAll_unchanged, Rerun.again_unchanged True rfl] at repeated
  unfold FailsWith at finished
  generalize stmts limit fuel body m = outcome, stmts limit fuel' body m = outcome'
    at repeated finished
  cases repeated with
  | ok keeps => rw [Rerun.again_unchanged True keeps.depths, Rerun.flow_unchanged]
  | error keeps => rw [Rerun.again_unchanged True keeps.depths, Rerun.interruption_unchanged]
  | exhausted => exact absurd ⟨_, rfl⟩ finished

/-- Statements at another place, in a machine that has executed others at other places. -/
theorem stmts_respan (f : Span → Span) (limit fuel : Nat) (body : List Stmt) (m : Machine) :
    stmts limit fuel (Stmt.relabelAll (.spans f) body) (m.respan f) =
      respanOutcome f (stmts limit fuel body m) := by
  have repeated :=
    ((Rerun.respan f m.depths).carries limit (le_refl fuel) (.inr rfl)).stmts body m rfl
  cases result : stmts limit fuel body m with
  | ok flow m' =>
    rw [result, Rerun.Repeats.ok_iff] at repeated
    refine repeated.2.trans ?_
    rw [Rerun.again_respan repeated.1.depths]
    rfl
  | error e m' =>
    rw [result, Rerun.Repeats.error_iff not_false] at repeated
    refine repeated.2.trans ?_
    rw [Rerun.again_respan repeated.1.depths]
    rfl

/-- Statements before others, with a bound that is enough to come to the others. -/
theorem stmts_append (limit more : Nat) (body rest : List Stmt) :
    stmts limit (body.length + (more + 1)) (body ++ rest) = (do
      match ← stmts limit (body.length + (more + 1)) body with
      | .next => stmts limit (more + 1) rest
      | .return value => return .return value) := by
  induction body with
  | nil =>
    rw [List.length_nil, Nat.zero_add, stmts, pure_bind, List.nil_append]
  | cons s body inductionHypothesis =>
    rw [List.length_cons, Nat.add_right_comm, List.cons_append, stmts, stmts, bind_assoc]
    refine bind_congr fun flow => ?_
    cases flow with
    | next => exact inductionHypothesis
    | «return» value => rfl

/-! ## Statements that do not return -/

/-- A step that lets the statements behind it be executed, if it does not fail. -/
def GoesOn (x : Eval Flow) : Prop :=
  ∀ m flow m', x m = .ok flow m' → flow = .next

namespace GoesOn

protected theorem pure : GoesOn (pure .next) := by
  rintro m flow m' ⟨⟩
  rfl

protected theorem throw (e : Interruption) : GoesOn (throw e) := by
  rintro m flow m' ⟨⟩

theorem bind {α : Type} {x : Eval α} {k : α → Eval Flow} (later : ∀ a, GoesOn (k a)) :
    GoesOn (x >>= k) := by
  intro m flow m' result
  cases first : x m with
  | ok a between => exact later a between flow m' ((bind_of_ok first).symm.trans result)
  | error e between => cases (bind_of_error first).symm.trans result

/-- A step whose own result matters for what is done behind it. -/
theorem andThen {x : Eval Flow} {k : Flow → Eval Flow} (first : GoesOn x)
    (later : GoesOn (k .next)) :
    GoesOn (x >>= k) := by
  intro m flow m' result
  cases done : x m with
  | ok between m₁ =>
    cases first m between m₁ done
    exact later m₁ flow m' ((bind_of_ok done).symm.trans result)
  | error e m₁ => cases (bind_of_error done).symm.trans result

theorem ite {condition : Prop} [Decidable condition] {x y : Eval Flow} (yes : GoesOn x)
    (no : GoesOn y) : GoesOn (if condition then x else y) := by
  split
  · exact yes
  · exact no

theorem within {x : Eval Flow} (env : Env) (inner : GoesOn x) : GoesOn (Eval.within env x) := by
  intro m flow m' result
  unfold Eval.within at result
  cases done : x { m with env := env } with
  | ok inside m₁ =>
    simp only [done] at result
    cases result
    exact inner _ _ _ done
  | error e m₁ =>
    simp only [done] at result
    cases result

end GoesOn

/-- Statements in which no return stands go on. -/
theorem goesOn (limit fuel : Nat) :
    (∀ s : Stmt, s.returns = false → GoesOn (stmt limit fuel s)) ∧
      (∀ (condition : Expr) (body : Stmt), body.returns = false →
        GoesOn (loop limit fuel condition body)) ∧
      ∀ body : List Stmt, Stmt.returnsAny body = false → GoesOn (stmts limit fuel body) := by
  induction fuel with
  | zero => exact ⟨fun _ _ => .throw _, fun _ _ _ => .throw _, fun _ _ => .throw _⟩
  | succ fuel inductionHypothesis =>
    obtain ⟨statements, loops, bodies⟩ := inductionHypothesis
    refine ⟨fun s none => ?_, fun condition body none => ?_, fun body none => ?_⟩
    · cases s with
      | expr | «fun» | «class» => exact .bind fun _ => .pure
      | print => exact .bind fun _ => .bind fun _ => .pure
      | var name initial =>
        cases initial with
        | none | some => exact .bind fun _ => .bind fun _ => .pure
      | block body => exact .bind fun _ => .bind fun env => .within env (bodies body none)
      | «if» condition yes no =>
        refine .bind fun value => ?_
        cases no with
        | none => exact .ite (statements yes none) .pure
        | some no =>
          rw [Stmt.returns, Bool.or_eq_false_iff] at none
          exact .ite (statements yes none.1) (statements no none.2)
      | «while» condition body => exact loops condition body none
      | «return» => cases none
    · exact .bind fun value =>
        .ite (.andThen (statements body none) (loops condition body none)) .pure
    · cases body with
      | nil => exact .pure
      | cons s rest =>
        rw [Stmt.returnsAny, Bool.or_eq_false_iff] at none
        exact .andThen (statements s none.1) (bodies rest none.2)

end Eval

end Lox
