import Lox.Proofs.Evaluation.Termination
import Lox.Proofs.Session.Links

set_option autoImplicit false

/-!
# Faults leave the state alone

An expression or statement that raises a fault itself, and does not pass on that of a part of it,
does so before it has written anything of its own. The state that the fault comes with is the one
that the parts have left which were evaluated until then. A call that is refused therefore changes
nothing, an assignment that fails binds nothing, and a class declaration that fails keeps what its
name was bound to.
-/

namespace Lox

theorem Meets.exists_ok {ε σ α : Type} {x : EStateM ε σ α} {s : σ} {ok : α → σ → Prop}
    (meets : Meets x s ok fun _ _ => False) : ∃ a s', x s = .ok a s' ∧ ok a s' := by
  cases outcome : x s with
  | ok a s' => exact ⟨a, s', rfl, meets.ok_of_eq outcome⟩
  | error e s' => exact (meets.error_of_eq outcome).elim

namespace Activity

variable {limit fuel : Nat} {m m' : Machine} {a b : Activity}

/-! ## What was evaluated -/

/-- A step on the way from a call expression to the body of a function. It evaluates nothing by
itself. -/
def isStep (a : Activity) : Bool :=
  match a.task with
  | .call .. | .apply .. | .instantiate .. => true
  | _ => false

/-- The expressions and statements that a task evaluates as its parts, in their order. In place of
the steps of a call stands what these evaluate: the body of the function. -/
def evaluatedFrom (limit : Nat) : Nat → Task → Machine → List Activity
  | 0, _, _ => []
  | fuel + 1, task, m =>
    (taskParts limit fuel m task).flatMap fun b =>
      if b.isStep then evaluatedFrom limit fuel b.task b.machine else [b]

/-- What is evaluated as a part, or in the course of a step. -/
def expand (limit fuel : Nat) (b : Activity) : List Activity :=
  if b.isStep then evaluatedFrom limit fuel b.task b.machine else [b]

theorem evaluatedFrom_succ (limit fuel : Nat) (task : Task) (m : Machine) :
    evaluatedFrom limit (fuel + 1) task m =
      (taskParts limit fuel m task).flatMap (expand limit fuel) :=
  rfl

theorem flatMap_behind {α : Type} {outcome : EStateM.Result Interruption Machine α}
    {started : α → Machine → List Activity} {f : Activity → List Activity} :
    (behind outcome started).flatMap f = behind outcome fun a m => (started a m).flatMap f := by
  cases outcome <;> rfl

def evaluated (limit : Nat) (a : Activity) : List Activity :=
  evaluatedFrom limit a.fuel a.task a.machine

/-- The state that the last of some activities has left, back at the point where the machine was
before. -/
def leftBy (limit : Nat) (m : Machine) (done : List Activity) : Machine :=
  match done.getLast? with
  | none => m
  | some b =>
    { endState (b.task.run limit b.fuel b.machine) with env := m.env, callDepth := m.callDepth }

structure Raises (limit : Nat) (a : Activity) (e : RuntimeError) (m' : Machine) : Prop where
  fails : a.task.run limit a.fuel a.machine = .error (.fault e) m'
  itself : ∀ b ∈ a.evaluated limit, ∀ cause, ¬b.Fails limit cause

/-- If anything was done, only the point where the machine was before counts. -/
theorem leftBy_congr {done : List Activity} (nonempty : done ≠ []) (env : m'.env = m.env)
    (callDepth : m'.callDepth = m.callDepth) : leftBy limit m' done = leftBy limit m done := by
  unfold leftBy
  cases last : done.getLast? with
  | none => exact absurd (List.getLast?_eq_none_iff.mp last) nonempty
  | some b => rw [env, callDepth]

theorem leftBy_of_ok {result : b.task.Result}
    (done : b.task.run limit b.fuel b.machine = .ok result m') :
    leftBy limit m [b] = { m' with env := m.env, callDepth := m.callDepth } := by
  simp only [leftBy, List.getLast?_singleton, done, endState]

end Activity

namespace Eval

open Activity (leftBy behind expand)

variable {α β : Type} {limit fuel : Nat} {m : Machine} {done : List Activity} {x : Eval α}

def Still (x : Eval α) (m : Machine) : Prop :=
  Meets x m (fun _ _ => True) fun _ m' => m' = m

def Succeeds (x : Eval α) (m : Machine) : Prop :=
  Meets x m (fun _ _ => True) fun _ _ => False

namespace Still

protected theorem pure (a : α) : Still (pure a) m :=
  trivial

theorem raise (cause : RuntimeError.Cause) (span : Span) : Still (raise cause span : Eval α) m :=
  rfl

theorem of_succeeds (succeeds : Succeeds x m) : Still x m :=
  succeeds.never

theorem andThen {k : α → Eval β} (first : Still x m) (second : ∀ a m', Succeeds (k a) m') :
    Still (x >>= k) m :=
  first.bind fun a m' _ _ => (second a m').never

/-- A step that looks at something first. -/
theorem behind {k : α → Eval β} (first : Meets x m (fun _ m' => m' = m) fun _ m' => m' = m)
    (second : ∀ a, Still (k a) m) : Still (x >>= k) m := by
  refine first.bind ?_
  rintro a _ _ rfl
  exact second a

theorem get {k : Machine → Eval α} (second : ∀ a, Still (k a) m) : Still (MonadState.get >>= k) m :=
  second m

theorem ofExcept (result : Except RuntimeError α) : Still (ofExcept result) m :=
  meets_ofExcept.imp fun _ _ _ _ => trivial

theorem ofCause (result : Except RuntimeError.Cause α) (span : Span) :
    Still (ofCause result span) m := by
  cases result with
  | ok a => exact .pure a
  | error cause => exact .raise cause span

theorem lookup (i : ExprId) (name : String) (span : Span) : Still (lookup i name span) m := by
  refine .get fun _ => ?_
  split
  · exact .ofExcept _
  · exact .ofExcept _

theorem assign (i : ExprId) (name : Ident) (value : Value) : Still (assign i name value) m := by
  have target : Still (assignmentTarget i name) m := by
    refine .get fun _ => ?_
    split
    · exact .ofExcept _
    · exact .ofExcept _
  rw [assign_eq]
  exact target.andThen fun _ _ => trivial

theorem print (line : String) (span : Span) : Still (print line span) m := by
  refine .get fun _ => ?_
  split
  · exact trivial
  · exact .raise _ span

theorem tieMethod (cls : Class) (object : Instance) (name : String) (span : Span) :
    Still (tieMethod cls object name span) m := by
  unfold Eval.tieMethod
  split
  · exact .of_succeeds trivial
  · exact .raise _ span

theorem getProperty (object : Instance) (name : String) (span : Span) :
    Still (getProperty object name span) m := by
  refine .get fun _ => ?_
  split
  · exact .pure _
  · exact .tieMethod object.cls object name span

theorem superMethod (i : ExprId) (span : Span) (method : Ident) :
    Still (superMethod i span method) m := by
  refine .get fun m' => ?_
  split
  · exact .raise _ span
  · exact .raise _ span
  · refine .behind meets_ofExcept fun value => ?_
    cases value with
    | «class» superclass =>
      refine .behind meets_ofExcept fun value => ?_
      cases value with
      | «instance» object => exact .tieMethod superclass object method.text method.span
      | _ => exact .raise _ span
    | _ => exact .raise _ span

end Still

/-- If none of the activities fails, a fault of the step comes with the state that they have
left. -/
def Clean (limit : Nat) (done : List Activity) (x : Eval α) (m : Machine) : Prop :=
  (∀ b ∈ done, ∀ cause, ¬b.Fails limit cause) → ∀ e m', x m = .error (.fault e) m' →
    m' = leftBy limit m done

namespace Clean

/-- A step that evaluates nothing, and does not change the state before it fails. -/
theorem still (still : Still x m) : Clean limit [] x m :=
  fun _ _ _ failure => still.error_of_eq failure

/-- A step that raises no fault. -/
theorem never (meets : Meets x m (fun _ _ => True) fun e _ => e = .outOfFuel) :
    Clean limit done x m := by
  intro _ e m' failure
  cases meets.error_of_eq failure

/-- A part, and what follows it. -/
theorem part {task : Task} {k : task.Result → Eval β}
    {started : task.Result → Machine → List Activity}
    (second : ∀ a m', task.run limit fuel m = .ok a m' → Clean limit (started a m') (k a) m') :
    Clean limit (⟨fuel, task, m⟩ :: behind (task.run limit fuel m) started)
      (task.run limit fuel >>= k) m := by
  intro itself e m' failure
  obtain ⟨first, others⟩ := List.forall_mem_cons.mp itself
  cases outcome : task.run limit fuel m with
  | error cause m₁ => exact absurd ⟨m₁, outcome⟩ (first cause)
  | ok a m₁ =>
    have keeps := (task.steady limit fuel).of_ok outcome
    rw [outcome] at others
    rw [bind_of_ok outcome] at failure
    have left := second a m₁ outcome others e m' failure
    rw [left, behind]
    -- The last thing that was evaluated is the part, or the last of what follows it.
    cases following : started a m₁ with
    | nil =>
      rw [Activity.leftBy_of_ok outcome, ← keeps.env, ← keeps.callDepth]
      rfl
    | cons b rest =>
      rw [Activity.leftBy_congr (List.cons_ne_nil b rest) keeps.env keeps.callDepth]
      unfold leftBy
      rw [List.getLast?_cons_cons]

/-- A part, and a step that evaluates nothing behind it. -/
theorem last {task : Task} {k : task.Result → Eval β}
    (second : ∀ a m', task.run limit fuel m = .ok a m' → Clean limit [] (k a) m') :
    Clean limit [⟨fuel, task, m⟩] (task.run limit fuel >>= k) m := by
  have none : behind (task.run limit fuel m) (fun _ _ => []) = [] := by
    cases task.run limit fuel m <;> rfl
  rw [← none]
  exact part second

end Clean

def CleanParts (limit fuel : Nat) (parts : List Activity) (x : Eval α) (m : Machine) : Prop :=
  Clean limit (parts.flatMap (expand limit fuel)) x m

namespace CleanParts

theorem still (still : Still x m) : CleanParts limit fuel [] x m :=
  Clean.still still

theorem part (task : Task) {k : task.Result → Eval β}
    {started : task.Result → Machine → List Activity}
    (text : Activity.isStep ⟨fuel, task, m⟩ = false)
    (second : ∀ a m', task.run limit fuel m = .ok a m' →
      CleanParts limit fuel (started a m') (k a) m') :
    CleanParts limit fuel (⟨fuel, task, m⟩ :: behind (task.run limit fuel m) started)
      (task.run limit fuel >>= k) m := by
  rw [CleanParts, List.flatMap_cons, expand, text, Activity.flatMap_behind]
  exact Clean.part second

theorem last (task : Task) {k : task.Result → Eval β}
    (text : Activity.isStep ⟨fuel, task, m⟩ = false)
    (second : ∀ a m', task.run limit fuel m = .ok a m' → CleanParts limit fuel [] (k a) m') :
    CleanParts limit fuel [⟨fuel, task, m⟩] (task.run limit fuel >>= k) m := by
  rw [CleanParts, List.flatMap_singleton, expand, text]
  exact Clean.last second

/-- A part, in this state or in one that comes from it, with nothing else that fails. -/
theorem alone {task : Task} {m₁ : Machine} (text : Activity.isStep ⟨fuel, task, m₁⟩ = false)
    (fails : ∀ e m', x m = .error (.fault e) m' →
      ∃ cause, Activity.Fails limit ⟨fuel, task, m₁⟩ cause) :
    CleanParts limit fuel [⟨fuel, task, m₁⟩] x m := by
  rw [CleanParts, List.flatMap_singleton, expand, text]
  intro itself e m' failure
  obtain ⟨cause, fails⟩ := fails e m' failure
  exact absurd fails (itself _ (List.mem_singleton_self _) cause)

theorem only (task : Task) (text : Activity.isStep ⟨fuel, task, m⟩ = false) :
    CleanParts limit fuel [⟨fuel, task, m⟩] (task.run limit fuel) m :=
  .alone text fun e m' failure => ⟨.fault e, m', failure⟩

/-- A step of a call counts for what it evaluates. -/
theorem step {task : Task} {m' : Machine} (step : Activity.isStep ⟨fuel, task, m'⟩ = true)
    (clean : Clean limit (Activity.evaluatedFrom limit fuel task m') x m) :
    CleanParts limit fuel [⟨fuel, task, m'⟩] x m := by
  rw [CleanParts, List.flatMap_singleton, expand, step]
  exact clean

/-- A step that is taken only if a condition holds, with a fault otherwise. -/
theorem provided {condition : Prop} [Decidable condition] [Decidable (¬condition)]
    {parts : List Activity} {y : Eval α} (no : Still x m) (yes : CleanParts limit fuel parts y m) :
    CleanParts limit fuel (if condition then parts else []) (if ¬condition then x else y) m := by
  by_cases holds : condition
  · rw [if_pos holds, if_neg (not_not.mpr holds)]
    exact yes
  · rw [if_neg holds, if_pos holds]
    exact .still no

theorem ite {condition : Prop} [Decidable condition] {parts others : List Activity} {y : Eval α}
    (yes : condition → CleanParts limit fuel parts x m)
    (no : ¬condition → CleanParts limit fuel others y m) :
    CleanParts limit fuel (if condition then parts else others) (if condition then x else y) m := by
  by_cases holds : condition
  · rw [if_pos holds, if_pos holds]
    exact yes holds
  · rw [if_neg holds, if_neg holds]
    exact no holds

end CleanParts

end Eval

/-! ## Calls -/

namespace Eval

open Activity (leftBy behind expand)

variable {limit fuel : Nat} {m : Machine}

def bodyOf (fuel : Nat) (f : Function) (args : List Value) (m : Machine) : Activity :=
  ⟨fuel, .stmts f.routine.body, { m with
    store := m.store.addFrame (f.bindArguments args)
    env := ⟨m.store.frames.size, f.closure.chain⟩ }⟩

/-- The only fault of a call itself, once it has begun, is that of an initializer that does not find
its instance. By then the body has ended. -/
theorem clean_body (f : Function) (args : List Value) :
    Clean limit [bodyOf fuel f args m] (Eval.apply limit (fuel + 1) f args) m := by
  intro itself e m' failure
  have succeeds := itself _ (List.mem_singleton_self _)
  have body :
      Meets (within (bodyOf fuel f args m).machine.env (Eval.stmts limit fuel f.routine.body))
      { m with store := m.store.addFrame (f.bindArguments args) }
      (fun _ m₁ => m₁ = leftBy limit m [bodyOf fuel f args m])
      fun _ m₁ => m₁ = leftBy limit m [bodyOf fuel f args m] := by
    refine meets_within.mpr (meets_iff.mpr ⟨fun flow m₁ outcome => ?_, fun cause m₁ outcome => ?_⟩)
    · have keeps := ((Task.stmts f.routine.body).steady limit fuel).of_ok outcome
      have left : leftBy limit m [bodyOf fuel f args m] = _ := Activity.leftBy_of_ok outcome
      rw [left, ← show m₁.callDepth = m.callDepth from keeps.callDepth]
    · exact absurd ⟨m₁, outcome⟩ (succeeds cause)
  have meets : Meets (Eval.apply limit (fuel + 1) f args) m (fun _ _ => True)
      fun _ m₁ => m₁ = leftBy limit m [bodyOf fuel f args m] := by
    refine meets_bind.mpr (body.bind fun flow m₁ _ same => ?_)
    rw [← same]
    split
    · exact Still.get fun _ => .ofExcept _
    · split
      · exact Still.pure _
      · exact Still.pure _
  exact meets.error_of_eq failure

theorem clean_apply (f : Function) (args : List Value) :
    Clean limit (Activity.evaluatedFrom limit fuel (.apply f args) m)
      (Eval.apply limit fuel f args) m := by
  cases fuel with
  | zero => exact .never rfl
  | succ fuel => exact clean_body f args

section Instantiate

variable {cls : Class} {args : List Value} {object : Instance} {method bound : Function}
  {m₁ m₂ : Machine}

theorem instantiate_of_none (declared : cls.initializer? = none)
    (made : newInstance cls m = .ok object m₁) :
    Eval.instantiate limit (fuel + 1) cls args m = .ok (.instance object) m₁ := by
  rw [Eval.instantiate, bind_of_ok made, declared]
  rfl

theorem instantiate_of_some (declared : cls.initializer? = some method)
    (made : newInstance cls m = .ok object m₁) (tied : bindMethod method object m₁ = .ok bound m₂) :
    Eval.instantiate limit (fuel + 1) cls args m =
      (do let _ ← Eval.apply limit fuel bound args; return .instance object : Eval Value) m₂ := by
  rw [Eval.instantiate, bind_of_ok made, declared]
  exact bind_of_ok tied

end Instantiate

theorem exists_newInstance (cls : Class) (m : Machine) :
    ∃ object m', newInstance cls m = .ok object m' :=
  ⟨_, _, rfl⟩

/-- A fault in making an instance is one of the initializer. -/
theorem exists_initializer_of_fault {cls : Class} {args : List Value} {e : RuntimeError}
    {m' : Machine} (failure : Eval.instantiate limit (fuel + 1) cls args m = .error (.fault e) m') :
    ∃ method object m₁ bound m₂, cls.initializer? = some method ∧
      newInstance cls m = .ok object m₁ ∧
      bindMethod method object m₁ = .ok bound m₂ ∧
      Eval.apply limit fuel bound args m₂ = .error (.fault e) m' := by
  obtain ⟨object, m₁, made⟩ := exists_newInstance cls m
  cases declared : cls.initializer? with
  | none => cases (instantiate_of_none declared made).symm.trans failure
  | some method =>
    obtain ⟨bound, m₂, tied⟩ := exists_bindMethod method object m₁
    rw [instantiate_of_some declared made tied] at failure
    refine ⟨method, object, m₁, bound, m₂, rfl, made, tied, ?_⟩
    cases outcome : Eval.apply limit fuel bound args m₂ with
    | ok value m₃ => cases (bind_of_ok outcome).symm.trans failure
    | error cause m₃ =>
      cases (bind_of_error outcome).symm.trans failure
      rfl

/-- Making an instance raises no fault, so that only the initializer can. -/
theorem clean_instantiate (cls : Class) (args : List Value) :
    Clean limit (Activity.evaluatedFrom limit fuel (.instantiate cls args) m)
      (Eval.instantiate limit fuel cls args) m := by
  cases fuel with
  | zero => exact .never rfl
  | succ fuel =>
    intro itself e m' failure
    obtain ⟨method, object, m₁, bound, m₂, declared, made, tied, outcome⟩ :=
      exists_initializer_of_fault failure
    simp only [Activity.evaluatedFrom_succ, Activity.taskParts, made, behind, declared, tied,
      List.flatMap_singleton] at itself ⊢
    have left := clean_apply bound args itself e _ outcome
    cases made
    cases tied
    cases fuel with
    | zero => cases outcome
    | succ fuel => exact left.trans (Activity.leftBy_congr (List.cons_ne_nil _ _) rfl rfl)

theorem clean_call (callee : Value) (args : List Value) (span : Span) :
    Clean limit (Activity.evaluatedFrom limit fuel (.call callee args span) m)
      (Eval.call limit fuel callee args span) m := by
  cases fuel with
  | zero => exact .never rfl
  | succ fuel =>
    change CleanParts limit fuel (Activity.callParts fuel m callee args) _ m
    cases callee with
    | nil | bool | number | string | «instance» => exact .still (.raise _ span)
    | native builtin =>
      change CleanParts limit fuel [] (if _ then _ else _) m
      split
      · exact .still (.raise _ span)
      · exact .still (.of_succeeds trivial)
    | function f => exact .provided (.raise _ span) (.step rfl (clean_apply f args))
    | «class» cls => exact .provided (.raise _ span) (.step rfl (clean_instantiate cls args))

theorem clean_counted (callee : Value) (args : List Value) (span : Span) :
    CleanParts limit fuel
      (if limit ≤ m.callDepth then []
        else [⟨fuel, .call callee args span, { m with callDepth := m.callDepth + 1 }⟩])
      (counted limit span (Eval.call limit fuel callee args span)) m := by
  by_cases full : limit ≤ m.callDepth
  · rw [if_pos full]
    refine .still ?_
    rw [Still, meets_counted, if_pos full]
  · rw [if_neg full]
    refine .step rfl fun itself e m' failure => ?_
    simp only [counted, if_neg full] at failure
    cases outcome : Eval.call limit fuel callee args span
      { m with callDepth := m.callDepth + 1 } with
    | ok value m₁ =>
      rw [outcome] at failure
      cases failure
    | error cause m₁ =>
      rw [outcome] at failure
      cases failure
      rw [clean_call callee args span itself e m₁ outcome]
      unfold leftBy
      split <;> rfl

end Eval

/-! ## Class declarations -/

def Machine.InFrame (m : Machine) : Prop :=
  m.env.frame < m.store.frames.size

namespace Eval

variable {m : Machine} {name : Ident} {closure env : Env} {inherited : List ClassLayer}
variable {methods : List (Routine (List Stmt))}

/-- A class is completed where its name is bound, and is found there afterwards. -/
theorem meets_completeClass_bound (bound : (m.store.frame env.frame).contains name.text = true) :
    Meets (completeClass name env closure inherited methods) m
      (fun _ m' => ∃ cls, (m'.store.frame env.frame).find? name.text = some (.class cls))
      fun _ _ => False := by
  have allocated : env.frame < m.store.frames.size := by
    obtain ⟨value, found⟩ := Option.isSome_iff_exists.mp bound
    exact Store.allocated_of_find? found
  rw [meets_congr (completeClass_eq bound)]
  refine (frames_makeMethods closure methods ∅).bind fun made m₁ _ same => ?_
  have allocated₁ : env.frame < m₁.store.addIdentity.frames.size := by
    rw [Store.addIdentity, same]
    exact allocated
  refine ⟨⟨⟨m₁.store.identities, name.text, made⟩, inherited⟩, ?_⟩
  exact (Store.find?_frame_bind ..).trans (if_pos ⟨rfl, rfl, allocated₁⟩)

/-- Once the superclass is there, nothing fails: the name is bound in the current frame from the
beginning, so it can be given its class at the end. -/
theorem meets_declareClass_found (inFrame : m.InFrame) {superclass : Option Reference}
    {found : Option Class} (known : superclassOf superclass m = .ok found m) :
    Meets (declareClass name superclass methods) m
      (fun _ m' => ∃ cls, (m'.store.frame m.env.frame).find? name.text = some (.class cls))
      fun _ _ => False := by
  rw [declareClass_eq, meets_congr (bind_of_ok known)]
  have bound : ((m.store.define m.env name.text .nil).frame m.env.frame).contains
      name.text = true :=
    (Store.contains_frame_bind ..).mpr (.inl ⟨rfl, rfl, inFrame⟩)
  simp only [define, meets_bind, meets_modify, meets_get]
  cases found with
  | none => exact meets_completeClass_bound bound
  | some parent =>
    rw [meets_bind]
    refine meets_completeClass_bound ?_
    -- The frame for `super` is a new one, and the name is bound where it was.
    have different : m.env.frame ≠ (m.store.define m.env name.text .nil).frames.size := by
      rw [Store.define, Store.size_bind]
      exact inFrame.ne
    change ((Store.addFrame _ _).frame m.env.frame).contains name.text = true
    rw [Store.frame_addFrame_of_ne _ different]
    exact bound

/-- A class declaration that fails changes nothing. -/
theorem still_declareClass (inFrame : m.InFrame) (superclass : Option Reference) :
    Still (declareClass name superclass methods) m := by
  have looked := meets_superclassOf_same (m := m) superclass
  cases known : superclassOf superclass m with
  | error e m₁ =>
    refine .of_error (bind_of_error known) (looked.error_of_eq known)
  | ok found m₁ =>
    obtain rfl := looked.ok_of_eq known
    exact .of_succeeds ((meets_declareClass_found inFrame known).imp fun _ _ _ _ => trivial)

end Eval

/-! ## Expressions and statements -/

section Tasks

variable {limit fuel : Nat} {m : Machine}

open Eval (Clean CleanParts Still)

theorem Eval.clean_expr (e : Expr) :
    CleanParts limit fuel (Activity.exprParts limit fuel m e) (Eval.expr limit (fuel + 1) e) m := by
  cases e with
  | literal i span value => exact .still (.pure _)
  | ref target => exact .still (.lookup target.id target.name.text target.name.span)
  | assign i name value =>
    exact .last (.expr value) rfl fun v _ _ =>
      .still ((Still.assign i name v).andThen fun _ _ => trivial)
  | binary i span op left right =>
    exact .part (.expr left) rfl fun v _ _ => .last (.expr right) rfl fun w _ _ =>
      .still (.ofCause (op.apply v w) span)
  | logical i span op left right =>
    exact .part (.expr left) rfl fun v _ _ =>
      .ite (fun _ => .still (.pure v)) fun _ => .only (.expr right) rfl
  | unary i span op operand =>
    exact .last (.expr operand) rfl fun v _ _ => .still (.ofCause (op.apply v) span)
  | call i span callee args =>
    exact .part (.expr callee) rfl fun v _ _ => .part (.exprs args) rfl fun vs _ _ =>
      clean_counted v vs span
  | group i span inner => exact .only (.expr inner) rfl
  | get i object name =>
    refine .last (.expr object) rfl fun v _ _ => .still ?_
    cases v with
    | «instance» object => exact .getProperty object name.text name.span
    | _ => exact .raise _ name.span
  | set i object name value =>
    refine .part (.expr object) rfl fun v _ _ => ?_
    cases v with
    | «instance» object =>
      exact .last (.expr value) rfl fun w _ _ => .still (.of_succeeds trivial)
    | _ => exact .still (.raise _ name.span)
  | this i span => exact .still (.lookup i "this" span)
  | super i span method => exact .still (.superMethod i span method)

theorem Eval.clean_stmt (inFrame : m.InFrame) (s : Stmt) :
    CleanParts limit fuel (Activity.stmtParts limit fuel m s) (Eval.stmt limit (fuel + 1) s) m := by
  cases s with
  | expr value => exact .last (.expr value) rfl fun _ _ _ => .still (.pure _)
  | print value =>
    exact .last (.expr value) rfl fun v _ _ =>
      .still ((Still.print v.text value.span).andThen fun _ _ => trivial)
  | var name initial =>
    cases initial with
    | none => exact .still (.of_succeeds trivial)
    | some value => exact .last (.expr value) rfl fun v _ _ => .still (.of_succeeds trivial)
  | block body =>
    refine .alone rfl fun e m' failure => ?_
    have meets : Meets (Eval.stmt limit (fuel + 1) (.block body)) m (fun _ _ => True) fun cause _ =>
        Activity.Fails limit ⟨fuel, .stmts body, _⟩ cause :=
      meets_within.mpr (meets_iff.mpr ⟨fun _ _ _ => trivial, fun cause m₁ outcome => ⟨m₁, outcome⟩⟩)
    exact ⟨.fault e, meets.error_of_eq failure⟩
  | «if» condition yes no =>
    refine .part (.expr condition) rfl fun v _ _ => ?_
    refine .ite (fun _ => .only (.stmt yes) rfl) fun _ => ?_
    cases no with
    | none => exact .still (.pure _)
    | some no => exact .only (.stmt no) rfl
  | «while» condition body => exact .only (.loop condition body) rfl
  | «fun» routine => exact .still (.of_succeeds trivial)
  | «return» keyword value =>
    cases value with
    | none => exact .still (.pure _)
    | some value => exact .last (.expr value) rfl fun v _ _ => .still (.pure _)
  | «class» name superclass methods =>
    exact .still ((still_declareClass inFrame superclass).andThen fun _ _ => trivial)

/-- Every task. The parts of a task do not fail here, so that nothing needs to be known of them but
that they come back to the point where they started. -/
theorem Task.clean (inFrame : m.InFrame) (task : Task) :
    Clean limit (Activity.evaluatedFrom limit fuel task m) (task.run limit fuel) m := by
  cases fuel with
  | zero => exact .never (by cases task <;> rfl)
  | succ fuel =>
    change CleanParts limit fuel (Activity.taskParts limit fuel m task) _ m
    cases task with
    | expr e => exact Eval.clean_expr e
    | exprs es =>
      cases es with
      | nil => exact .still (.pure _)
      | cons e rest =>
        exact .part (.expr e) rfl fun v _ _ => .last (.exprs rest) rfl fun vs _ _ =>
          .still (.pure _)
    | call callee args span => exact @Eval.clean_call limit (fuel + 1) m callee args span
    | apply f args => exact @Eval.clean_apply limit (fuel + 1) m f args
    | instantiate cls args => exact @Eval.clean_instantiate limit (fuel + 1) m cls args
    | stmt s => exact Eval.clean_stmt inFrame s
    | loop condition body =>
      refine .part (.expr condition) rfl fun v _ _ => .ite (fun _ => ?_) fun _ => .still (.pure _)
      refine .part (.stmt body) rfl fun flow _ _ => ?_
      cases flow with
      | next => exact .only (.loop condition body) rfl
      | «return» value => exact .still (.pure _)
    | stmts ss =>
      cases ss with
      | nil => exact .still (.pure _)
      | cons s rest =>
        refine .part (.stmt s) rfl fun flow _ _ => ?_
        cases flow with
        | next => exact .only (.stmts rest) rfl
        | «return» value => exact .still (.pure _)

end Tasks

/-! ## Where faults come from -/

namespace Activity

variable {limit fuel : Nat} {a b : Activity} {task : Task} {m : Machine}

theorem Reaches.fuel_le (reaches : Reaches limit a b) : b.fuel ≤ a.fuel := by
  induction reaches with
  | refl => exact le_rfl
  | tail _ starts inductionHypothesis =>
    rw [starts.fuel] at inductionHypothesis
    exact (Nat.le_succ _).trans inductionHypothesis

/-- What is evaluated is started, at once or by a step of a call. -/
theorem exists_starts_of_mem_evaluatedFrom (member : b ∈ evaluatedFrom limit fuel task m) :
    ∃ c, Starts limit ⟨fuel, task, m⟩ c ∧ c.Reaches limit b := by
  induction fuel generalizing task m with
  | zero => cases member
  | succ fuel inductionHypothesis =>
    rw [evaluatedFrom_succ] at member
    obtain ⟨c, part, member⟩ := List.mem_flatMap.mp member
    have starts : Starts limit ⟨fuel + 1, task, m⟩ c := mem_parts_iff.mp part
    refine ⟨c, starts, ?_⟩
    unfold expand at member
    split at member
    · obtain ⟨d, next, reaches⟩ := inductionHypothesis member
      obtain rfl : fuel = c.fuel := Nat.succ.inj starts.fuel
      exact .head next reaches
    · obtain rfl := List.mem_singleton.mp member
      exact .refl

/-- A fault is raised by the activity that fails with it, or by one that takes place in the course
of it. The induction is on the bound on the recursion: what is evaluated has a smaller one. -/
theorem exists_raises {e : RuntimeError} (fails : a.Fails limit (.fault e)) :
    ∃ b m', a.Reaches limit b ∧ b.Raises limit e m' := by
  induction size : a.fuel using Nat.strong_induction_on generalizing a with
  | _ fuel inductionHypothesis =>
    subst size
    obtain ⟨m', failure⟩ := fails
    by_cases passed : ∃ b ∈ a.evaluated limit, ∃ cause, b.Fails limit cause
    · obtain ⟨b, member, cause, part⟩ := passed
      obtain ⟨c, starts, reaches⟩ := exists_starts_of_mem_evaluatedFrom member
      -- What a part fails with is passed on, so it is the same fault.
      have whole : a.Reaches limit b := .head starts reaches
      obtain ⟨_, again⟩ := whole.fails part
      cases failure.symm.trans again
      have smaller : b.fuel < a.fuel := by
        rw [starts.fuel]
        exact Nat.lt_succ_of_le reaches.fuel_le
      obtain ⟨d, m'', further, raises⟩ := inductionHypothesis b.fuel smaller part rfl
      exact ⟨d, m'', whole.trans further, raises⟩
    · push Not at passed
      exact ⟨a, m', .refl, failure, passed⟩

end Activity

/-! ## Refused calls, failed assignments and failed declarations -/

section Refusals

variable {limit fuel : Nat} {m m₁ m₂ m' : Machine} {e : Interruption}

/-- Why a call is refused in a state, if it is: as many calls as may be are being executed, the
value cannot be called, or it takes another number of arguments. -/
def Machine.refusal? (limit : Nat) (callee : Value) (args : List Value) (m : Machine) :
    Option RuntimeError.Cause :=
  if limit ≤ m.callDepth then some .stackOverflow
  else match callee.callable? with
    | none => some .notCallable
    | some callable =>
      if callable.arity ≠
        args.length then some (.arityMismatch callable.arity args.length) else none

theorem Eval.counted_call_of_refused {callee : Value} {args : List Value}
    {cause : RuntimeError.Cause}
    (refused : m.refusal? limit callee args = some cause) (span : Span) :
    counted limit span (Eval.call limit (fuel + 1) callee args span) m =
      .error (.fault ⟨cause, span⟩) m := by
  unfold Machine.refusal? at refused
  unfold counted
  split at refused
  · cases refused
    rw [if_pos ‹_›]
    rfl
  · rw [if_neg ‹_›, Eval.call]
    cases callable : callee.callable? with
    | none =>
      rw [callable] at refused
      cases refused
      rfl
    | some f =>
      rw [callable] at refused
      dsimp only at refused ⊢
      split at refused
      · cases refused
        rw [if_pos ‹_›]
        rfl
      · cases refused

theorem Eval.expr_call_of_refused {i : ExprId} {span : Span} {callee : Expr}
    {args : List Expr} {f : Value} {values : List Value} {cause : RuntimeError.Cause}
    (first : Eval.expr limit fuel callee m = .ok f m₁)
    (second : Eval.exprs limit fuel args m₁ = .ok values m₂)
    (refused : m₂.refusal? limit f values = some cause) :
    Eval.expr limit (fuel + 1) (.call i span callee args) m = .error (.fault ⟨cause, span⟩) m₂ := by
  cases fuel with
  | zero => cases first
  | succ fuel =>
    refine (bind_of_ok first).trans ((bind_of_ok second).trans ?_)
    exact counted_call_of_refused refused span

theorem Eval.state_of_assign_fails {i : ExprId} {name : Ident} {value : Expr} {v : Value}
    (computed : Eval.expr limit fuel value m = .ok v m₁)
    (failure : Eval.expr limit (fuel + 1) (.assign i name value) m = .error e m') : m' = m₁ := by
  have still : Still (do assign i name v; return v) m₁ :=
    (Still.assign i name v).andThen fun _ _ => trivial
  exact still.error_of_eq ((bind_of_ok computed).symm.trans failure)

theorem Eval.state_of_class_fails (inFrame : m.InFrame) {name : Ident}
    {superclass : Option Reference} {methods : List (Routine (List Stmt))}
    (failure : Eval.stmt limit fuel (.class name superclass methods) m = .error e m') : m' = m := by
  cases fuel with
  | zero =>
    cases failure
    rfl
  | succ fuel =>
    have still : Still (do declareClass name superclass methods; return Flow.next) m :=
      (still_declareClass inFrame superclass).andThen fun _ _ => trivial
    exact still.error_of_eq failure

end Refusals

/-- At every moment of a session, the frame of the current environment is there. -/
theorem History.Occurs.inFrame {clock : Clock} {output : Output} {runs : List (Nat × String)}
    {a : Activity} (occurs : (start clock output).Occurs runs a) : a.machine.InFrame := by
  obtain ⟨links, _, _, _, traced⟩ :=
    exists_links_runAll (h := start clock output) (Machine.linked_start clock output) runs
  obtain ⟨before, _, linked⟩ := (traced a occurs).linked
  rw [Machine.InFrame, linked.machine.size]
  exact Nat.lt_succ_of_le linked.machine.env.le_length

/-- An activity that raises a fault itself comes to the state that the parts have left which it had
evaluated until then, and every fault is raised by such an activity. An assignment that fails leaves
the state as it was when the value had been computed; a call that is refused, as it was behind the
arguments; a class declaration that fails, as it was. Once the superclass is there, a class
declaration does not fail, so that its name is never left without the class. All this needs that the
frame of the current environment is there, as it is at every moment of a session. -/
theorem Activity.fault_writes_nothing (limit : Nat) :
    (∀ a : Activity, a.machine.InFrame → ∀ e m', a.Raises limit e m' →
      m' = leftBy limit a.machine (a.evaluated limit)) ∧
    (∀ (a : Activity) (e : RuntimeError), a.Fails limit (.fault e) →
      ∃ b m', a.Reaches limit b ∧ b.Raises limit e m') ∧
    (∀ fuel i name value v e, ∀ m m₁ m' : Machine, Eval.expr limit fuel value m = .ok v m₁ →
      Eval.expr limit (fuel + 1) (.assign i name value) m = .error e m' → m' = m₁) ∧
    (∀ fuel i span callee args f values cause, ∀ m m₁ m₂ : Machine,
      Eval.expr limit fuel callee m = .ok f m₁ → Eval.exprs limit fuel args m₁ = .ok values m₂ →
        m₂.refusal? limit f values = some cause →
          Eval.expr limit (fuel + 1) (.call i span callee args) m =
            .error (.fault ⟨cause, span⟩) m₂) ∧
    (∀ m : Machine, m.InFrame → ∀ name superclass methods,
      (∀ fuel e m', Eval.stmt limit fuel (.class name superclass methods) m = .error e
        m' → m' = m) ∧
      ∀ found, Eval.superclassOf superclass m = .ok found m →
        ∃ m' cls, Eval.declareClass name superclass methods m = .ok () m' ∧
          (m'.store.frame m.env.frame).find? name.text = some (.class cls)) ∧
    ∀ clock output runs a, (History.start clock output).Occurs runs a → a.machine.InFrame := by
  refine ⟨fun a inFrame e m' raises => ?_, fun a e => exists_raises,
    fun _ _ _ _ _ _ _ _ _ => Eval.state_of_assign_fails,
    fun _ _ _ _ _ _ _ _ _ _ _ => Eval.expr_call_of_refused,
    fun m inFrame name superclass methods =>
    ⟨fun fuel e m' => Eval.state_of_class_fails inFrame, ?_⟩,
    fun _ _ _ _ => History.Occurs.inFrame⟩
  · exact a.task.clean inFrame raises.itself e m' raises.fails
  · intro found known
    obtain ⟨_, m', done, cls, bound⟩ := (Eval.meets_declareClass_found inFrame known).exists_ok
    exact ⟨m', cls, done, bound⟩

/-- A call with an argument too many, which reads the clock first. The reading stays counted. -/
theorem Activity.fault_writes_nothing_argument :
    let span : Span := ⟨0, 1, 1, 0⟩
    let clock : Expr := .ref ⟨0, ⟨"clock", span⟩⟩
    let a : Activity :=
      ⟨6, .expr (.call 2 span clock [.call 1 span clock []]), .start ⟨fun _ => 0, 0⟩ {}⟩
    ∃ m', a.machine.InFrame ∧ a.Raises callLimit ⟨.arityMismatch 0 1, span⟩ m' ∧
      m' = leftBy callLimit a.machine (a.evaluated callLimit) ∧ m'.clock.taken = 1 ∧
      (a.evaluated callLimit).length = 2 := by
  intro span clock a
  have inFrame : a.machine.InFrame := Nat.one_pos
  have raises : a.Raises callLimit ⟨.arityMismatch 0 1, span⟩
      { a.machine with clock := ⟨fun _ => 0, 1⟩ } := by
    refine ⟨rfl, List.forall_mem_cons.mpr ⟨?_, List.forall_mem_singleton.mpr ?_⟩⟩
    · rintro cause ⟨m', ⟨⟩⟩
    · rintro cause ⟨m', ⟨⟩⟩
  exact ⟨_, inFrame, raises, (fault_writes_nothing callLimit).1 a inFrame _ _ raises, rfl, rfl⟩

end Lox
