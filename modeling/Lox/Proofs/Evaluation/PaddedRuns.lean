import Lox.Proofs.Evaluation.Padding

set_option autoImplicit false

/-!
# Runs of padded programs

Evaluation and execution in a program and in a padded one, step by step alongside each other. An
extra block makes the recursion three levels deeper where it stands. So with three times the fuel
the padded program gets at least as far as the other one, and with no more fuel it gets no further.
-/

namespace Lox

/-! ## Steps that come back -/

/-- Steps that leave the machine at the point where it was, found by their form. -/
class Eval.IsSteady {α : Type} (x : Eval α) : Prop where
  steady : Steady x

namespace Eval.IsSteady

variable {α β : Type} {x y : Eval α}

theorem of_follows (follows : ∀ depths, ∃ (f : α → α) (y : Eval α),
    (Rerun.unchanged depths False).Follows f x y) : IsSteady x :=
  ⟨.of_follows follows⟩

instance (a : α) : IsSteady (Pure.pure a : Eval α) :=
  ⟨fun m => .refl m⟩

instance : IsSteady (MonadState.get : Eval Machine) :=
  ⟨fun m => .refl m⟩

instance {f : α → Eval β} [first : IsSteady x] [second : ∀ a, IsSteady (f a)] :
    IsSteady (x >>= f) :=
  ⟨first.steady.bind fun a => (second a).steady⟩

instance {condition : Prop} [Decidable condition] [yes : IsSteady x] [no : IsSteady y] :
    IsSteady (if condition then x else y) := by
  split
  · exact yes
  · exact no

instance (cause : RuntimeError.Cause) (span : Span) : IsSteady (raise cause span : Eval α) :=
  ⟨fun m => .refl m⟩

instance (result : Except RuntimeError α) : IsSteady (ofExcept result) := by
  cases result with
  | ok a => exact ⟨fun m => .refl m⟩
  | error e => exact ⟨fun m => .refl m⟩

instance (result : Except RuntimeError.Cause α) (span : Span) : IsSteady (ofCause result span) := by
  cases result with
  | ok a => exact ⟨fun m => .refl m⟩
  | error cause => exact ⟨fun m => .refl m⟩

instance (limit : Nat) (span : Span) [inner : IsSteady x] : IsSteady (counted limit span x) :=
  ⟨inner.steady.counted limit span⟩

instance (i : ExprId) (name : Ident) (value : Value) : IsSteady (assign i name value) :=
  of_follows fun _ => ⟨_, _, Rerun.Follows.assign i name value⟩

instance (name : String) (value : Value) : IsSteady (define name value) :=
  of_follows fun _ => ⟨_, _, Rerun.Follows.define name value⟩

instance (line : String) (span : Span) : IsSteady (print line span) :=
  of_follows fun _ => ⟨_, _, Rerun.Follows.print line span⟩

instance (object : Instance) (name : String) (span : Span) :
    IsSteady (getProperty object name span) :=
  of_follows fun _ => ⟨_, _, Rerun.Follows.getProperty object name span⟩

instance (object : Instance) (name : String) (value : Value) :
    IsSteady (setField object name value) :=
  of_follows fun _ => ⟨_, _, Rerun.Follows.setField object name value⟩

section Tasks

variable (limit fuel : Nat)

instance (e : Expr) : IsSteady (expr limit fuel e) := ⟨Task.steady limit fuel (.expr e)⟩

instance (es : List Expr) : IsSteady (exprs limit fuel es) := ⟨Task.steady limit fuel (.exprs es)⟩

instance (callee : Value) (args : List Value) (span : Span) :
    IsSteady (call limit fuel callee args span) :=
  ⟨Task.steady limit fuel (.call callee args span)⟩

instance (f : Function) (args : List Value) : IsSteady (apply limit fuel f args) :=
  ⟨Task.steady limit fuel (.apply f args)⟩

instance (cls : Class) (args : List Value) : IsSteady (instantiate limit fuel cls args) :=
  ⟨Task.steady limit fuel (.instantiate cls args)⟩

instance (s : Stmt) : IsSteady (stmt limit fuel s) := ⟨Task.steady limit fuel (.stmt s)⟩

instance (condition : Expr) (body : Stmt) : IsSteady (loop limit fuel condition body) :=
  ⟨Task.steady limit fuel (.loop condition body)⟩

instance (body : List Stmt) :
    IsSteady (stmts limit fuel body) := ⟨Task.steady limit fuel (.stmts body)⟩

end Tasks

end Eval.IsSteady

open Eval (IsSteady)

/-- What a loop does behind its condition. -/
theorem Eval.steady_iteration (limit fuel : Nat) (condition : Expr) (body : Stmt) (v : Value) :
    Steady (if v.isTruthy then do
        match ← stmt limit fuel body with
        | .next => loop limit fuel condition body
        | .return value => return .return value
      else
        return .next) := by
  split
  · exact Steady.bind IsSteady.steady fun flow => by cases flow <;> exact IsSteady.steady
  · exact IsSteady.steady

/-- A block with one statement. -/
theorem Eval.stmts_singleton (limit fuel : Nat) (s : Stmt) :
    stmts limit (fuel + 2) [s] = stmt limit (fuel + 1) s := by
  refine Eq.trans (bind_congr fun flow => ?_) (bind_pure (stmt limit (fuel + 1) s))
  cases flow <;> rfl

theorem Eval.stmts_singleton_exhausted {limit fuel : Nat} (short : fuel < 2) (s : Stmt) :
    stmts limit fuel [s] = throw .outOfFuel := by
  obtain rfl | rfl : fuel = 0 ∨ fuel = 1 := by omega
  · rfl
  · rfl

open Comparison (Alongside)

namespace Comparison.Alongside

variable {ω γ α β : Type} {r : Comparison ω γ} {shorter : Shorter} {world : List ω} {place : γ}
variable {related : List ω → α → α → Prop} {related' : List ω → β → β → Prop}
variable {x x' : Eval α} {f f' : α → Eval β}

/-- Sequences whose second steps come back by their form. -/
theorem chain [steady : ∀ a, IsSteady (f a)] [steady' : ∀ a, IsSteady (f' a)]
    (begin : r.Alongside shorter world place related x x')
    (second : ∀ next a a', world <+: next → related next a a' →
      r.Alongside shorter next place related' (f a) (f' a')) :
    r.Alongside shorter world place related' (x >>= f) (x' >>= f') :=
  begin.bind (fun a => (steady a).steady) (fun a => (steady' a).steady) second

/-- A run that is cut off at once. -/
theorem exhausted [steady : IsSteady x'] :
    r.Alongside .plain world place related (throw .outOfFuel) x' :=
  fun _ _ _ _ states => .cutShort (CutShort.of_steady steady.steady states.output)

theorem exhaustedPadded [steady : IsSteady x] :
    r.Alongside .padded world place related x (throw .outOfFuel) :=
  fun _ _ _ _ states => .cutShort (CutShort.of_steady steady.steady states.output.symm)

end Comparison.Alongside

/-! ## The simulation -/

/-- With so much fuel for each of the two, what is run in a program and in a padded one runs
alongside each other. -/
structure Sustains (t : Tables) (shorter : Shorter) (limit fuel fuel' : Nat) : Prop where
  expr : ∀ {world layout} {e : Expr}, e.Obeys (.ofUses (t.Shifts layout)) [] →
    t.Alongside shorter world layout (Value.Padded t) (Eval.expr limit fuel e)
    (Eval.expr limit fuel' e)
  exprs : ∀ {world layout} {es : List Expr}, Expr.AllObey (.ofUses (t.Shifts layout)) [] es →
    t.Alongside shorter world layout (fun next => List.Forall₂ (Value.Padded t next))
      (Eval.exprs limit fuel es) (Eval.exprs limit fuel' es)
  call : ∀ {world layout callee callee' args args'} (span : Span),
    Value.Padded t world callee callee' → List.Forall₂ (Value.Padded t world) args args' →
    t.Alongside shorter world layout (Value.Padded t) (Eval.call limit fuel callee args span)
      (Eval.call limit fuel' callee' args' span)
  apply : ∀ {world layout f f' args args'}, Function.Padded t [] world f f' →
    List.Forall₂ (Value.Padded t world) args args' →
    t.Alongside shorter world layout (Value.Padded t) (Eval.apply limit fuel f args)
      (Eval.apply limit fuel' f' args')
  instantiate : ∀ {world layout cls cls' args args'}, Class.Padded t world cls cls' →
    List.Forall₂ (Value.Padded t world) args args' →
    t.Alongside shorter world layout (Value.Padded t) (Eval.instantiate limit fuel cls args)
      (Eval.instantiate limit fuel' cls' args')
  stmt : ∀ {world layout s s'}, Stmt.Padded t.Shifts layout s s' →
    t.Alongside shorter world layout (Flow.Padded t) (Eval.stmt limit fuel s)
    (Eval.stmt limit fuel' s')
  loop : ∀ {world layout} {condition : Expr} {body body'},
    condition.Obeys (.ofUses (t.Shifts layout)) [] → Stmt.Padded t.Shifts layout body body' →
    t.Alongside shorter world layout (Flow.Padded t) (Eval.loop limit fuel condition body)
      (Eval.loop limit fuel' condition body')
  stmts : ∀ {world layout body body'}, Stmt.AllPadded t.Shifts layout body body' →
    t.Alongside shorter world layout (Flow.Padded t) (Eval.stmts limit fuel body)
      (Eval.stmts limit fuel' body')

namespace Sustains

variable {t : Tables} {shorter : Shorter} {limit fuel fuel' : Nat}
variable {world : List FrameId} {layout : Layout}

theorem exhausted (t : Tables) (limit fuel' : Nat) : Sustains t .plain limit 0 fuel' where
  expr _ := .exhausted
  exprs _ := .exhausted
  call _ _ _ := .exhausted
  apply _ _ := .exhausted
  instantiate _ _ := .exhausted
  stmt _ := .exhausted
  loop _ _ := .exhausted
  stmts _ := .exhausted

theorem exhaustedPadded (t : Tables) (limit fuel : Nat) : Sustains t .padded limit fuel 0 where
  expr _ := .exhaustedPadded
  exprs _ := .exhaustedPadded
  call _ _ _ := .exhaustedPadded
  apply _ _ := .exhaustedPadded
  instantiate _ _ := .exhaustedPadded
  stmt _ := .exhaustedPadded
  loop _ _ := .exhaustedPadded
  stmts _ := .exhaustedPadded

variable (sustains : Sustains t shorter limit fuel fuel')
include sustains

theorem succ_expr {e : Expr} (shifts : e.Obeys (.ofUses (t.Shifts layout)) []) :
    t.Alongside shorter world layout (Value.Padded t) (Eval.expr limit (fuel + 1) e)
      (Eval.expr limit (fuel' + 1) e) := by
  cases e with
  | literal i span value =>
    cases value with
    | nil => exact .value .nil
    | bool b => exact .value (.bool b)
    | number x => exact .value (.number x)
    | string s => exact .value (.string s)
  | ref target => exact (Tables.Alongside.lookup shifts.depth _ _).unbounded
  | assign i name value =>
    refine (sustains.expr shifts.1).chain fun next v v' _ values => ?_
    exact (Tables.Alongside.assign shifts.2.depth name values).andThen
      fun _ _ _ later _ => .value (values.later later)
  | binary i span op left right =>
    refine (sustains.expr shifts.1).chain fun next v v' _ lefts => ?_
    refine (sustains.expr shifts.2).chain fun next' w w' later rights => ?_
    rw [op.apply_eq_of_alike (lefts.later later).alike rights.alike]
    exact .ofCause span (op.isCalculated_apply v w)
  | logical i span op left right =>
    refine (sustains.expr shifts.1).chain fun next v v' _ lefts => ?_
    refine .ite (by rw [op.isSettledBy_eq_of_alike lefts.alike]) (fun _ => .value lefts) fun _ => ?_
    exact sustains.expr shifts.2
  | unary i span op operand =>
    refine (sustains.expr (e := operand) shifts).chain fun next v v' _ operands => ?_
    rw [op.apply_eq_of_alike operands.alike]
    exact .ofCause span (op.isCalculated_apply v)
  | call i span callee args =>
    refine (sustains.expr shifts.1).chain fun next v v' _ callees => ?_
    refine (sustains.exprs shifts.2).chain fun next' vs vs' later values => ?_
    exact .counted limit span (sustains.call span (callees.later later) values)
  | group i span inner => exact sustains.expr (e := inner) shifts
  | get i object name =>
    refine (sustains.expr (e := object) shifts).bind (fun v => by cases v <;> exact IsSteady.steady)
      (fun v => by cases v <;> exact IsSteady.steady) fun next v v' _ values => ?_
    cases values with
    | «instance» objects =>
      exact (Alongside.getProperty Tables.Alongside.bindMethod _ _ objects).unbounded
    | _ => exact .raise _ _
  | set i object name value =>
    refine (sustains.expr shifts.1).bind (fun v => by cases v <;> exact IsSteady.steady)
      (fun v => by cases v <;> exact IsSteady.steady) fun next v v' _ values => ?_
    cases values with
    | «instance» objects =>
      refine (sustains.expr shifts.2).chain fun next' w w' later values => ?_
      exact (Alongside.setField _ (objects.later later) values).andThen
        fun _ _ _ later' _ => .value (values.later later')
    | _ => exact .raise _ _
  | this i span => exact (Tables.Alongside.lookup shifts.depth _ _).unbounded
  | super i span method => exact (Tables.Alongside.superMethod shifts span method).unbounded

theorem succ_exprs {es : List Expr} (shifts : Expr.AllObey (.ofUses (t.Shifts layout)) [] es) :
    t.Alongside shorter world layout (fun next => List.Forall₂ (Value.Padded t next))
      (Eval.exprs limit (fuel + 1) es) (Eval.exprs limit (fuel' + 1) es) := by
  cases es with
  | nil => exact .pure fun _ _ => .nil
  | cons e es =>
    refine (sustains.expr shifts.1).chain fun next v v' _ values => ?_
    refine (sustains.exprs shifts.2).chain fun next' vs vs' later rest => .pure fun _ later' => ?_
    exact .cons (values.later (later.trans later'))
      (rest.imp fun _ _ related => related.later later')

theorem succ_apply {f f' : Function} {args args' : List Value} (functions : f.Padded t [] world f')
    (values : List.Forall₂ (Value.Padded t world) args args') :
    t.Alongside shorter world layout (Value.Padded t) (Eval.apply limit (fuel + 1) f args)
      (Eval.apply limit (fuel' + 1) f' args') := by
  obtain ⟨outer, regular, chains, routine⟩ := functions.routine
  have innermost : outer.shift 0 = 0 := Layout.Regular.shift_zero regular
  unfold Eval.apply
  rw [functions.isInitializer, routine.name, Function.bindArguments, Function.bindArguments,
    routine.params]
  refine (Tables.Alongside.enclose chains fun name =>
    optionRel_bindAll (List.forall₂_same.mpr fun _ _ => Iff.rfl) values .none).andThen
    fun next env env' later inside => ?_
  refine (Alongside.within inside (sustains.stmts routine.body)).bind
    (fun flow => by cases flow <;> exact IsSteady.steady)
    (fun flow => by cases flow <;> exact IsSteady.steady) fun next' flow flow' later' flows => ?_
  -- An initializer yields its instance, whatever its body ends with.
  refine .ite Iff.rfl (fun _ => .get fun now m m' later'' states => ?_) fun _ => ?_
  · refine .orFault (fun _ since => ?_) (.same _)
    have still := chains.later (later.trans (later'.trans later''))
    have this := states.store.getAt? still 0 "this"
    rw [innermost] at this
    exact optionRel_imp (fun _ _ related => related.later since) this
  · cases flows with
    | next => exact .value .nil
    | «return» values => exact .value values

theorem succ_shaped {s s' : Stmt} (shaped : Stmt.Shaped t.Shifts layout s s') :
    t.Alongside shorter world layout (Flow.Padded t) (Eval.stmt limit (fuel + 1) s)
      (Eval.stmt limit (fuel' + 1) s') := by
  cases shaped with
  | expr value => exact (sustains.expr value).chain fun _ _ _ _ _ => .pure fun _ _ => .next
  | print value =>
    refine (sustains.expr value).chain fun _ v v' _ values => ?_
    rw [values.alike.text]
    exact (Alongside.print _ _).andThen fun _ _ _ _ _ => .pure fun _ _ => .next
  | @var _ name initial regular initials =>
    cases initial with
    | none =>
      exact (Tables.Alongside.define regular _ .nil).andThen fun _ _ _ _ _ => .pure fun _ _ => .next
    | some initial =>
      refine (sustains.expr initials).chain fun _ v v' _ values => ?_
      exact (Tables.Alongside.define regular _ values).andThen fun _ _ _ _ _ =>
        .pure fun _ _ => .next
  | block body =>
    refine .get fun now m m' _ states => ?_
    exact (Tables.Alongside.enclose states.inside fun _ => .none).andThen
      fun next env env' _ inside => .within inside (sustains.stmts body)
  | «if» condition yes =>
    refine (sustains.expr condition).chain fun _ v v' _ values => ?_
    exact .ite (by rw [values.alike.isTruthy]) (fun _ => sustains.stmt yes)
      fun _ => .pure fun _ _ => .next
  | ifElse condition yes no =>
    refine (sustains.expr condition).chain fun _ v v' _ values => ?_
    exact .ite (by rw [values.alike.isTruthy]) (fun _ => sustains.stmt yes) fun _ =>
      sustains.stmt no
  | «while» condition body => exact sustains.loop condition body
  | «fun» regular routine =>
    exact (Tables.Alongside.declareFunction regular routine).andThen
      fun _ _ _ _ _ => .pure fun _ _ => .next
  | @«return» _ keyword value values =>
    cases value with
    | none => exact .pure fun _ _ => .return .nil
    | some value =>
      exact (sustains.expr values).chain
        fun _ v v' _ values => .pure fun _ later => .return (values.later later)
  | «class» regular methods =>
    exact (Tables.Alongside.declareClass regular methods).andThen fun _ _ _ _ _ =>
      .pure fun _ _ => .next
  | subclass regular superclass methods =>
    exact (Tables.Alongside.declareSubclass regular superclass methods).andThen
      fun _ _ _ _ _ => .pure fun _ _ => .next

theorem succ_loop {condition : Expr} {body body' : Stmt}
    (conditions : condition.Obeys (.ofUses (t.Shifts layout)) [])
    (bodies : Stmt.Padded t.Shifts layout body body') :
    t.Alongside shorter world layout (Flow.Padded t) (Eval.loop limit (fuel + 1) condition body)
      (Eval.loop limit (fuel' + 1) condition body') := by
  refine (sustains.expr conditions).bind (Eval.steady_iteration _ _ _ _)
    (Eval.steady_iteration _ _ _ _) fun _ v v' _ values => ?_
  refine .ite (by rw [values.alike.isTruthy]) (fun _ => ?_) fun _ => .pure fun _ _ => .next
  refine (sustains.stmt bodies).bind (fun flow => by cases flow <;> exact IsSteady.steady)
    (fun flow => by cases flow <;> exact IsSteady.steady) fun _ flow flow' _ flows => ?_
  cases flows with
  | next => exact sustains.loop conditions bodies
  | «return» values => exact .pure fun _ later => .return (values.later later)

theorem succ_stmts {body body' : List Stmt} (padded : Stmt.AllPadded t.Shifts layout body body') :
    t.Alongside shorter world layout (Flow.Padded t) (Eval.stmts limit (fuel + 1) body)
      (Eval.stmts limit (fuel' + 1) body') := by
  cases padded with
  | nil => exact .pure fun _ _ => .next
  | cons first others =>
    refine (sustains.stmt first).bind (fun flow => by cases flow <;> exact IsSteady.steady)
      (fun flow => by cases flow <;> exact IsSteady.steady) fun _ flow flow' _ flows => ?_
    cases flows with
    | next => exact sustains.stmts others
    | «return» values => exact .pure fun _ later => .return (values.later later)

end Sustains

/-- How much fuel the two runs have if one of them may be the shorter one. -/
def Shorter.Allows : Shorter → Nat → Nat → Prop
  | .neither, _, _ => False
  | .plain, fuel, fuel' => 3 * fuel ≤ fuel'
  | .padded, fuel, fuel' => fuel' ≤ fuel

namespace Sustains

variable {t : Tables} {shorter : Shorter} {limit fuel fuel' : Nat}
variable {world : List FrameId} {layout : Layout}

/-- A statement in an extra block. With too little fuel to get to the statement, the padded run is
over. -/
theorem succ_stmt (sustains : Sustains t shorter limit fuel fuel')
    (inner : ∀ less, fuel' = less + 2 → Sustains t shorter limit fuel less)
    (short : fuel' < 2 → shorter = .padded) {s s' : Stmt}
    (padded : Stmt.Padded t.Shifts layout s s') :
    t.Alongside shorter world layout (Flow.Padded t) (Eval.stmt limit (fuel + 1) s)
      (Eval.stmt limit (fuel' + 1) s') := by
  cases padded with
  | shaped shaped => exact sustains.succ_shaped shaped
  | @wrapped _ _ s' shaped =>
    have step : t.Alongside shorter world (true :: layout) (Flow.Padded t)
        (Eval.stmt limit (fuel + 1) s) (Eval.stmts limit fuel' [s']) := by
      by_cases enough : fuel' < 2
      · cases short enough
        rw [Eval.stmts_singleton_exhausted enough]
        exact .exhaustedPadded
      · obtain ⟨less, rfl⟩ : ∃ less, fuel' = less + 2 := ⟨fuel' - 2, by omega⟩
        rw [Eval.stmts_singleton]
        exact (inner less rfl).succ_shaped shaped
    exact .withinExtra IsSteady.steady step

theorem succ (sustains : Sustains t shorter limit fuel fuel')
    (inner : ∀ less, fuel' = less + 2 → Sustains t shorter limit fuel less)
    (short : fuel' < 2 → shorter = .padded) : Sustains t shorter limit (fuel + 1) (fuel' + 1) where
  expr := sustains.succ_expr
  exprs := sustains.succ_exprs
  call span callees values :=
    .call sustains.apply span (fun classes => sustains.instantiate classes values) callees values
  apply := sustains.succ_apply
  instantiate classes values :=
    .instantiate Tables.Alongside.bindMethod sustains.apply classes values
  stmt := sustains.succ_stmt inner short
  loop := sustains.succ_loop
  stmts := sustains.succ_stmts

end Sustains

theorem sustains (t : Tables) (limit : Nat) {shorter : Shorter} {fuel fuel' : Nat}
    (allowed : shorter.Allows fuel fuel') : Sustains t shorter limit fuel fuel' := by
  induction fuel generalizing fuel' with
  | zero =>
    cases shorter with
    | neither => exact allowed.elim
    | plain => exact .exhausted t limit fuel'
    | padded =>
      cases Nat.le_zero.mp allowed
      exact .exhaustedPadded t limit 0
  | succ fuel inductionHypothesis =>
    cases shorter with
    | neither => exact allowed.elim
    | plain =>
      -- Three levels of recursion in the padded run are enough for one in the other, and a block.
      obtain ⟨less, rfl⟩ : ∃ less, fuel' = less + 3 := Nat.exists_eq_add_of_le' (by
        simp only [Shorter.Allows] at allowed
        omega)
      have enough : 3 * fuel ≤ less := by
        simp only [Shorter.Allows] at allowed
        omega
      have below : Sustains t .plain limit fuel (less + 2) :=
        inductionHypothesis (enough.trans (Nat.le_add_right less 2))
      refine below.succ (fun inner same => ?_) nofun
      rw [← Nat.add_right_cancel same]
      exact inductionHypothesis enough
    | padded =>
      cases fuel' with
      | zero => exact .exhaustedPadded t limit (fuel + 1)
      | succ fuel' =>
        have enough : fuel' ≤ fuel := Nat.le_of_succ_le_succ allowed
        refine (inductionHypothesis enough).succ (fun less same => inductionHypothesis ?_)
          fun _ => rfl
        exact (Nat.le_add_right less 2).trans (same ▸ enough)

/-! ## Whole programs -/

/-- The interruption without the distance in a report of a missing binding. -/
def Interruption.withoutDistance : Interruption → Interruption
  | .fault ⟨.scopeMismatch name _, span⟩ => .fault ⟨.scopeMismatch name 0, span⟩
  | interruption => interruption

theorem Interruption.Padded.withoutDistance {e e' : Interruption} (padded : e.Padded e') :
    e'.withoutDistance = e.withoutDistance := by
  cases padded <;> rfl

/-- A run shows what another one has shown: it ends in the same way, with the same output. If the
other one was cut off, it has written at least as much. -/
structure Confirms (run other : Except Interruption Unit × Machine) : Prop where
  ending : other.1 ≠ .error .outOfFuel →
    run.1.mapError Interruption.withoutDistance = other.1.mapError Interruption.withoutDistance
  output : other.1 ≠ .error .outOfFuel → run.2.output = other.2.output
  written : ∃ text, run.2.output.text = other.2.output.text ++ text

theorem Confirms.of_same {run other : Except Interruption Unit × Machine}
    (ending : run.1.mapError Interruption.withoutDistance =
      other.1.mapError Interruption.withoutDistance) (output : run.2.output = other.2.output) :
    Confirms run other :=
  ⟨fun _ => ending, fun _ => output, "", by rw [output, String.append_empty]⟩

def Machine.ending : EStateM.Result Interruption Machine Flow → Except Interruption Unit × Machine
  | .ok _ m => (.ok (), { m with env := m.globals, callDepth := 0 })
  | .error e m => (.error e, { m with env := m.globals, callDepth := 0 })

theorem Machine.run_eq_ending (limit fuel : Nat) (program : Program) (depths : Depths)
    (m : Machine) :
    m.run limit fuel program depths =
      ending (Eval.stmts limit fuel program { m with depths := m.depths.merge depths }) := by
  unfold run
  cases Eval.stmts limit fuel program { m with depths := m.depths.merge depths } <;> rfl

section Endings

variable {t : Tables} {now : List FrameId} {layout : Layout}
variable {related : List FrameId → Flow → Flow → Prop}
variable {result result' : EStateM.Result Interruption Machine Flow}

theorem CutShort.confirms (cut : CutShort result result') :
    Confirms (Machine.ending result') (Machine.ending result) := by
  obtain ⟨m, rfl, written⟩ := cut
  refine ⟨fun finished => absurd rfl finished, fun finished => absurd rfl finished, ?_⟩
  cases result' with
  | ok => exact written
  | error => exact written

theorem Comparison.Coincide.confirms
    (coincide : (padding t).Coincide .plain now layout related result result') :
    Confirms (Machine.ending result') (Machine.ending result) := by
  cases coincide with
  | ok _ done _ => exact .of_same rfl done.output
  | error _ done faults => exact .of_same (congrArg Except.error faults.withoutDistance) done.output
  | cutShort cut => exact cut.confirms

theorem Comparison.Coincide.confirmed
    (coincide : (padding t).Coincide .padded now layout related result result') :
    Confirms (Machine.ending result) (Machine.ending result') := by
  cases coincide with
  | ok _ done _ => exact .of_same rfl done.output.symm
  | error _ done faults =>
    exact .of_same (congrArg Except.error faults.withoutDistance.symm) done.output.symm
  | cutShort cut => exact cut.confirms

end Endings

/-- A machine before its first program goes together with itself. -/
theorem Machine.padded_start (t : Tables) (clock : Clock) (output : Output) :
    Machine.Padded t [0] [] { start clock output with depths := t.plain }
      { start clock output with depths := t.padded } where
  store := by
    refine ⟨rfl, List.nodup_singleton 0, fun j member => ?_, rfl, rfl, fun {i j} known name => ?_,
      fun _ _ => .none⟩
    · rw [List.mem_singleton.mp member]
      exact Nat.one_pos
    · cases i with
      | succ i => cases known
      | zero =>
        cases known
        exact optionRel_insert .none "clock" (.native .clock)
  top := .global rfl
  inside := .global rfl
  depths := ⟨rfl, rfl⟩
  output := rfl
  callDepth := rfl
  clock := rfl

end Lox
