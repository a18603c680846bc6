import Lox.Proofs.Evaluation.Control

set_option autoImplicit false

/-!
# The limit on calls

With a larger limit on the calls that are executed at a time, the machine does what it does with a
smaller one, as long as the smaller one lets it. The two are in step up to the first call that the
smaller limit refuses; from there on, the one only gives up what it is at, and the other may go on
printing.
-/

namespace Lox

inductive CutOff {α : Type} : EStateM.Result Interruption Machine α →
    EStateM.Result Interruption Machine α → Prop where
  | same (outcome : EStateM.Result Interruption Machine α) : CutOff outcome outcome
  | refused {span : Span} {m : Machine} {outcome : EStateM.Result Interruption Machine α} :
    (∃ text, (endState outcome).output.text = m.output.text ++ text) →
    CutOff (.error (.fault ⟨.stackOverflow, span⟩) m) outcome

structure Loosens {α : Type} (x x' : Eval α) : Prop where
  cutOff : ∀ m, CutOff (x m) (x' m)
  steady : Eval.Steady x'

namespace Loosens

variable {α β : Type} {x x' : Eval α}

/-- A step that calls nothing. -/
theorem refl (steady : Eval.Steady x) : Loosens x x :=
  ⟨fun _ => .same _, steady⟩

theorem step (follows : ∀ depths, ∃ (f : α → α) (y : Eval α),
    (Rerun.unchanged depths False).Follows f x y) : Loosens x x :=
  .refl (.of_follows follows)

protected theorem pure (a : α) : Loosens (pure a) (pure a) :=
  .refl fun m => .refl m

theorem raise (cause : RuntimeError.Cause) (span : Span) :
    Loosens (Eval.raise cause span : Eval α) (Eval.raise cause span) :=
  .refl fun m => .refl m

theorem bind {k k' : α → Eval β} (first : Loosens x x') (second : ∀ a, Loosens (k a) (k' a)) :
    Loosens (x >>= k) (x' >>= k') := by
  refine ⟨fun m => ?_, first.steady.bind fun a => (second a).steady⟩
  have cutOff := first.cutOff m
  simp only [Bind.bind, EStateM.bind]
  generalize x m = outcome, x' m = outcome' at cutOff
  cases cutOff with
  | same =>
    cases outcome with
    | ok a m' => exact (second a).cutOff m'
    | error e m' => exact .same _
  | refused written =>
    refine .refused ?_
    cases outcome' with
    | error e m' => exact written
    | ok a m' =>
      -- What the larger limit lets happen behind the refused call comes behind what was printed so
      -- far.
      obtain ⟨text, before⟩ := written
      obtain ⟨more, behind⟩ := ((second a).steady m').written
      refine ⟨text ++ more, behind.trans ?_⟩
      rw [← String.append_assoc]
      exact congrArg (· ++ more) before

/-- A step that looks at the state first. -/
theorem get {k k' : Machine → Eval α} (second : ∀ m, Loosens (k m) (k' m)) :
    Loosens (MonadState.get >>= k) (MonadState.get >>= k') :=
  ⟨fun m => (second m).cutOff m, fun m => (second m).steady m⟩

theorem ite {condition : Prop} [Decidable condition] {y y' : Eval α} (yes : Loosens x x')
    (no : Loosens y y') : Loosens (if condition then x else y) (if condition then x' else y') := by
  by_cases holds : condition
  · rw [if_pos holds, if_pos holds]
    exact yes
  · rw [if_neg holds, if_neg holds]
    exact no

theorem within (env : Env) (inner : Loosens x x') :
    Loosens (Eval.within env x) (Eval.within env x') := by
  refine ⟨fun m => ?_, inner.steady.within env⟩
  have cutOff := inner.cutOff { m with env := env }
  simp only [Eval.within]
  generalize x _ = outcome, x' _ = outcome' at cutOff
  cases cutOff with
  | same => exact .same _
  | refused written =>
    refine .refused ?_
    cases outcome' with
    | ok | error => exact written

/-- A call, which is where the limits come in. -/
theorem counted {limit limit' : Nat} (le : limit ≤ limit') (span : Span) (inner : Loosens x x') :
    Loosens (Eval.counted limit span x) (Eval.counted limit' span x') := by
  have steady := inner.steady.counted limit' span
  refine ⟨fun m => ?_, steady⟩
  by_cases full : limit ≤ m.callDepth
  · have refused : Eval.counted limit span x m = .error (.fault ⟨.stackOverflow, span⟩) m :=
      if_pos full
    rw [refused]
    exact .refused (steady m).written
  · have cutOff := inner.cutOff { m with callDepth := m.callDepth + 1 }
    rw [Eval.counted, Eval.counted, if_neg full, if_neg (mt le.trans full)]
    generalize x _ = outcome, x' _ = outcome' at cutOff
    cases cutOff with
    | same => exact .same _
    | refused written =>
      refine .refused ?_
      cases outcome' with
      | ok | error => exact written

end Loosens

namespace Task

variable {limit limit' fuel : Nat}

section Successor

variable (loosens : ∀ task : Task, Loosens (task.run limit fuel) (task.run limit' fuel))
include loosens

theorem loosens_expr (le : limit ≤ limit') (e : Expr) :
    Loosens (Eval.expr limit (fuel + 1) e) (Eval.expr limit' (fuel + 1) e) := by
  have expr (e : Expr) := loosens (.expr e)
  cases e with
  | literal id span value => exact .pure _
  | ref target => exact .step fun _ => ⟨_, _, .lookup _ _ _⟩
  | assign id name value =>
    exact (expr value).bind fun v => .bind (.step fun _ => ⟨_, _, .assign _ _ _⟩) fun _ => .pure v
  | binary id span op left right =>
    exact (expr left).bind fun v => (expr right).bind fun w => .step fun _ =>
      ⟨fun v => v, _, .ofCause _ span⟩
  | logical id span op left right => exact (expr left).bind fun v => .ite (.pure v) (expr right)
  | unary id span op operand =>
    exact (expr operand).bind fun v => .step fun _ => ⟨fun v => v, _, .ofCause _ span⟩
  | call id span callee args =>
    exact (expr callee).bind fun v => (loosens (.exprs args)).bind fun vs =>
      .counted le span (loosens (.call v vs span))
  | group id span inner => exact expr inner
  | get id object name =>
    refine (expr object).bind fun v => ?_
    cases v with
    | «instance» object => exact .step fun _ => ⟨_, _, .getProperty _ _ _⟩
    | _ => exact .raise _ name.span
  | set id object name value =>
    refine (expr object).bind fun v => ?_
    cases v with
    | «instance» object =>
      exact (expr value).bind fun w => .bind (.step fun _ => ⟨_, _, .setField _ _ _⟩)
        fun _ => .pure w
    | _ => exact .raise _ name.span
  | this id span => exact .step fun _ => ⟨_, _, .lookup _ _ _⟩
  | super id span method => exact .step fun _ => ⟨_, _, .superMethod _ _ _⟩

theorem loosens_stmt (s : Stmt) :
    Loosens (Eval.stmt limit (fuel + 1) s) (Eval.stmt limit' (fuel + 1) s) := by
  have expr (e : Expr) := loosens (.expr e)
  have stmt (s : Stmt) := loosens (.stmt s)
  cases s with
  | expr value => exact (expr value).bind fun _ => .pure _
  | print value =>
    exact (expr value).bind fun v => .bind (.step fun _ => ⟨_, _, .print _ _⟩) fun _ => .pure _
  | var name initial =>
    cases initial with
    | none =>
      exact .bind (.pure _) fun v => .bind (.step fun _ => ⟨_, _, .define _ _⟩) fun _ => .pure _
    | some initial =>
      exact (expr initial).bind fun v => .bind (.step fun _ => ⟨_, _, .define _ _⟩) fun _ => .pure _
  | block body =>
    exact .get fun m => .bind (.step fun _ => ⟨_, _, .enclose _ _⟩) fun env =>
      .within env (loosens (.stmts body))
  | «if» condition yes no =>
    refine (expr condition).bind fun v => ?_
    cases no with
    | none => exact .ite (stmt yes) (.pure _)
    | some no => exact .ite (stmt yes) (stmt no)
  | «while» condition body => exact loosens (.loop condition body)
  | «fun» routine => exact .bind (.step fun _ => ⟨_, _, .declareFunction _⟩) fun _ => .pure _
  | «return» keyword value =>
    cases value with
    | none => exact .pure _
    | some value => exact (expr value).bind fun v => .pure _
  | «class» name superclass methods =>
    exact .bind (.step fun _ => ⟨_, _, .declareClass _ _ _⟩) fun _ => .pure _

theorem loosens_call (callee : Value) (args : List Value) (span : Span) :
    Loosens (Eval.call limit (fuel + 1) callee args span)
      (Eval.call limit' (fuel + 1) callee args span) := by
  unfold Eval.call
  cases callee.callable? with
  | none => exact .raise _ span
  | some callable =>
    refine .ite (.raise _ span) ?_
    cases callable with
    | native builtin =>
      cases builtin
      exact .bind (.step fun _ => ⟨_, _, .readClock⟩) fun reading => .pure _
    | function f => exact loosens (.apply f args)
    | «class» cls => exact loosens (.instantiate cls args)

theorem loosens_apply (f : Function) (args : List Value) :
    Loosens (Eval.apply limit (fuel + 1) f args) (Eval.apply limit' (fuel + 1) f args) := by
  refine .bind (.step fun _ => ⟨_, _, .enclose _ _⟩) fun env =>
    .bind (.within env (loosens (.stmts f.routine.body))) fun flow => ?_
  refine .ite (.get fun m => .step fun _ => ⟨_, _, .getAt _ _ _ _⟩) ?_
  cases flow with
  | next => exact .pure _
  | «return» value => exact .pure _

theorem loosens_instantiate (cls : Class) (args : List Value) :
    Loosens (Eval.instantiate limit (fuel + 1) cls args)
      (Eval.instantiate limit' (fuel + 1) cls args) := by
  unfold Eval.instantiate
  refine .bind (.step fun _ => ⟨_, _, .newInstance _⟩) fun object => ?_
  cases cls.initializer? with
  | none => exact .pure _
  | some method =>
    exact .bind (.step fun _ => ⟨_, _, .bindMethod _ _⟩) fun initializer =>
      (loosens (.apply initializer args)).bind fun _ => .pure _

theorem loosens_succ (le : limit ≤ limit') (task : Task) :
    Loosens (task.run limit (fuel + 1)) (task.run limit' (fuel + 1)) := by
  cases task with
  | expr e => exact loosens_expr loosens le e
  | exprs es =>
    cases es with
    | nil => exact .pure _
    | cons e rest =>
      exact (loosens (.expr e)).bind fun v => (loosens (.exprs rest)).bind fun vs => .pure _
  | call callee args span => exact loosens_call loosens callee args span
  | apply f args => exact loosens_apply loosens f args
  | instantiate cls args => exact loosens_instantiate loosens cls args
  | stmt s => exact loosens_stmt loosens s
  | loop condition body =>
    refine (loosens (.expr condition)).bind fun v =>
      .ite ((loosens (.stmt body)).bind fun flow => ?_) (.pure _)
    cases flow with
    | next => exact loosens (.loop condition body)
    | «return» value => exact .pure _
  | stmts body =>
    cases body with
    | nil => exact .pure _
    | cons s rest =>
      refine (loosens (.stmt s)).bind fun flow => ?_
      cases flow with
      | next => exact loosens (.stmts rest)
      | «return» value => exact .pure _

end Successor

/-- With the same bound on the recursion, a larger limit lets the machine do what the smaller one
does. -/
theorem loosens (le : limit ≤ limit') (fuel : Nat) (task : Task) :
    Loosens (task.run limit fuel) (task.run limit' fuel) := by
  induction fuel generalizing task with
  | zero =>
    cases task with
    | _ => exact .refl fun m => .refl m
  | succ fuel inductionHypothesis => exact loosens_succ inductionHypothesis le task

end Task

namespace Machine

variable {limit limit' fuel fuel' : Nat} {program : Program} {depths : Depths} {m m₁ m₂ : Machine}
variable {result result₁ result₂ : Except RuntimeError Unit}

/-- The run of a program ends with a result in a state, with some bound on the recursion. -/
def Finishes (limit : Nat) (program : Program) (depths : Depths) (m : Machine)
    (result : Except RuntimeError Unit) (m' : Machine) : Prop :=
  ∃ fuel, m.run limit fuel program depths = (result.mapError .fault, m')

/-- A run that ends does so with every larger bound. -/
theorem run_of_le (le : fuel ≤ fuel')
    (finished : m.run limit fuel program depths = (result.mapError .fault, m₁)) :
    m.run limit fuel' program depths = (result.mapError .fault, m₁) := by
  rw [← finished]
  unfold run
  rw [Eval.stmts_of_le le]
  rintro ⟨m', exhausted⟩
  rw [run, exhausted] at finished
  cases result with
  | ok => cases finished
  | error => cases finished

theorem Finishes.unique (first : m.Finishes limit program depths result₁ m₁)
    (second : m.Finishes limit program depths result₂ m₂) : result₁ = result₂ ∧ m₁ = m₂ := by
  obtain ⟨fuel, finished⟩ := first
  obtain ⟨fuel', finished'⟩ := second
  have same := (run_of_le (le_max_left fuel fuel') finished).symm.trans
    (run_of_le (le_max_right fuel fuel') finished')
  cases result₁ with
  | ok =>
    cases result₂ with
    | ok => exact ⟨rfl, congrArg Prod.snd same⟩
    | error => cases same
  | error =>
    cases result₂ with
    | ok => cases same
    | error =>
      cases same
      exact ⟨rfl, rfl⟩

/-- A larger limit does not change a run, unless the smaller one ends it. -/
theorem run_cutOff (le : limit ≤ limit') (fuel : Nat) (program : Program) (depths : Depths)
    (m : Machine) :
    m.run limit' fuel program depths = m.run limit fuel program depths ∨
      (∃ span, (m.run limit fuel program depths).1 = .error (.fault ⟨.stackOverflow, span⟩)) ∧
      ∃ text, (m.run limit' fuel program depths).2.output.text =
        (m.run limit fuel program depths).2.output.text ++ text := by
  let started : Machine := { m with depths := m.depths.merge depths }
  have cutOff : CutOff (Eval.stmts limit fuel program started)
      (Eval.stmts limit' fuel program started) :=
    (Task.loosens le fuel (.stmts program)).cutOff started
  unfold run
  generalize Eval.stmts limit fuel program started = outcome,
    Eval.stmts limit' fuel program started = outcome' at cutOff ⊢
  cases cutOff with
  | same => exact .inl rfl
  | refused written =>
    refine .inr ⟨⟨_, rfl⟩, ?_⟩
    cases outcome' with
    | ok | error => exact written

def IsOverflow (result : Except RuntimeError Unit) : Prop :=
  ∃ span, result = .error ⟨.stackOverflow, span⟩

/-- The limit on calls only cuts off. If a run ends, but not because of the limit, then with every
larger limit it ends with the same result and in the same state. If it ends because of the limit,
then what it has printed comes first in what is printed with a larger limit. -/
theorem limit_cuts_off (le : limit ≤ limit') (program : Program) (depths : Depths) (m : Machine)
    (result : Except RuntimeError Unit) (m₁ : Machine)
    (finishes : m.Finishes limit program depths result m₁) :
    (¬IsOverflow result → ∀ result' m₂,
      m.Finishes limit' program depths result' m₂ ↔ result' = result ∧ m₂ = m₁) ∧
    (IsOverflow result → ∀ result' m₂, m.Finishes limit' program depths result' m₂ →
      ∃ text, m₂.output.text = m₁.output.text ++ text) := by
  obtain ⟨fuel, finished⟩ := finishes
  constructor
  · intro within result' m₂
    have finishes : m.Finishes limit' program depths result m₁ := by
      rcases run_cutOff le fuel program depths m with same | ⟨⟨span, overflow⟩, _⟩
      · exact ⟨fuel, same.trans finished⟩
      · rw [finished] at overflow
        cases result with
        | ok => cases overflow
        | error =>
          cases overflow
          exact absurd ⟨span, rfl⟩ within
    constructor
    · exact fun finishes' => finishes'.unique finishes
    · rintro ⟨rfl, rfl⟩
      exact finishes
  · rintro - result' m₂ ⟨fuel', finished'⟩
    have earlier := run_of_le (le_max_left fuel fuel') finished
    have later := run_of_le (le_max_right fuel fuel') finished'
    rcases run_cutOff le (max fuel fuel') program depths m with same | ⟨_, written⟩
    · rw [earlier, later, Prod.mk.injEq] at same
      exact ⟨"", by rw [same.2, String.append_empty]⟩
    · rw [earlier, later] at written
      exact written

/-- A run in which one call more is wanted than a limit of one allows, and which ends with all
others. -/
theorem limit_cuts_off_inner_call :
    let m := start ⟨fun _ => 0, 0⟩ {}
    ∃ program depths result m₁ m₂,
      (Program.check
        "fun f() \x7b print \"a\"; g(); \x7d fun g() \x7b print \"b\"; \x7d f();" 0).1.toOption =
        some (program, depths) ∧
      m.Finishes 1 program depths result m₁ ∧ IsOverflow result ∧ m₁.output.text = "a\n" ∧
      m.Finishes 2 program depths (.ok ()) m₂ ∧ m₂.output.text = "a\nb\n" ∧
      (∃ text, m₂.output.text = m₁.output.text ++ text) ∧
      m.Finishes callLimit program depths (.ok ()) m₂ := by
  intro m
  have found : (Program.check
      "fun f() \x7b print \"a\"; g(); \x7d fun g() \x7b print \"b\"; \x7d f();" 0).1.toOption.map
      (fun accepted =>
        let first := m.run 1 20 accepted.1 accepted.2
        let second := m.run 2 20 accepted.1 accepted.2
        (first.1, first.2.output.text, second.1, second.2.output.text)) =
      some (.error (.fault ⟨.stackOverflow, ⟨23, 24, 1, 23⟩⟩), "a\n", .ok (), "a\nb\n") := by
    decide +kernel
  obtain ⟨⟨program, depths⟩, accepted, outcomes⟩ := Option.map_eq_some_iff.mp found
  simp only [Prod.mk.injEq] at outcomes
  obtain ⟨overflow, before, done, after⟩ := outcomes
  have first : m.Finishes 1 program depths (.error ⟨.stackOverflow, ⟨23, 24, 1, 23⟩⟩)
      (m.run 1 20 program depths).2 := ⟨20, Prod.ext overflow rfl⟩
  have second : m.Finishes 2 program depths (.ok ()) (m.run 2 20 program depths).2 :=
    ⟨20, Prod.ext done rfl⟩
  have cut := limit_cuts_off (show 1 ≤ 2 by decide) program depths m _ _ first
  have same := limit_cuts_off (show 2 ≤ callLimit by decide) program depths m _ _ second
  refine ⟨program, depths, _, _, _, accepted, first, ⟨_, rfl⟩, before, second, after,
    cut.2 ⟨_, rfl⟩ _ _ second, (same.1 ?_ _ _).mpr ⟨rfl, rfl⟩⟩
  rintro ⟨span, impossible⟩
  cases impossible

end Machine

end Lox
