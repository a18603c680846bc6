import Lox.Proofs.Evaluation.Activity
import Lox.Proofs.Evaluation.Machine

set_option autoImplicit false

/-!
# Evaluation agrees with resolving

Every activity that takes place in the course of one that fits, fits as well: where it stands, the
environment stands for the scopes around its text. So each use of a name finds its binding at the
depth on record. The two faults of looking up a variable have one source each: an assignment to a
variable inside its own initializer, and a use of a global variable that is not there.
-/

namespace Lox

open Scope (Names Rules Resolution Complete mark locate? thisScope)

/-! ## Tasks that fit -/

def Flow.Fits (rules : Rules) (store : Store) : Flow → Prop
  | .next => True
  | .return value => value.Fits rules store

namespace Task

/-- What a task needs of the machine: that it stands inside the scopes around the text of the task,
or that the values of the task fit. -/
def Fits (r : Resolution) (scopes : List Names) (m : Machine) : Task → Prop
  | .expr e => m.Inside scopes ∧ e.Obeys r.rules scopes
  | .exprs es => m.Inside scopes ∧ Expr.AllObey r.rules scopes es
  | .call callee args _ =>
    callee.Fits r.rules m.store ∧ ∀ arg ∈ args, arg.Fits r.rules m.store
  | .apply function args =>
    function.Fits r.rules m.store ∧ (∀ arg ∈ args, arg.Fits r.rules m.store) ∧
      function.arity = args.length
  | .instantiate cls args =>
    cls.Fits r.rules m.store ∧ (∀ arg ∈ args, arg.Fits r.rules m.store) ∧ cls.arity = args.length
  | .stmt s => m.Inside scopes ∧ s.Obeys r.rules scopes
  | .loop condition body =>
    m.Inside scopes ∧ condition.Obeys r.rules scopes ∧ body.declared? = none ∧
      body.Obeys r.rules scopes
  | .stmts body => m.Inside scopes ∧ Stmt.AllObey r.rules scopes body

def Yields (r : Resolution) (scopes : List Names) (m : Machine) : (task : Task) → task.Result → Prop
  | .expr _, value | .call .., value | .apply .., value | .instantiate .., value =>
    value.Fits r.rules m.store
  | .exprs _, values => ∀ value ∈ values, value.Fits r.rules m.store
  | .stmt s, flow => flow.Fits r.rules m.store ∧ m.Inside (s.scopesAfter scopes)
  | .loop .., flow => flow.Fits r.rules m.store ∧ m.Inside scopes
  | .stmts _, flow => flow.Fits r.rules m.store

def opened (m : Machine) : Task → Option FrameId
  | .stmt _ | .loop .. | .stmts _ => some m.env.frame
  | _ => none

end Task

namespace Activity

/-- An assignment to a variable inside its own initializer, of which the value has been computed,
with the fault that it ends in. -/
inductive AssignsEarly (limit : Nat) (own : ExprId → Prop) : Activity → Interruption → Prop where
  | intro {fuel : Nat} {m m' : Machine} {id : ExprId} {name : Ident} {value : Expr} {v : Value}
      (inside : own id) (computed : Eval.expr limit fuel value m = .ok v m') :
    AssignsEarly limit own ⟨fuel + 1, .expr (.assign id name value), m⟩
      (.fault (scopeMismatch name.text 0 name.span))

/-- A use of a global variable that is not there, with the fault that it ends in. -/
def Misses (limit : Nat) (a : Activity) (e : Interruption) : Prop :=
  ∃ u m span, a.Uses limit u m ∧ m.depths[u.id]? = none ∧
    m.store.frameOf? m.globals u.name = none ∧ e = .fault (undefinedVariable u.name span)

/-- A fault of looking up a variable has its source in the course of the activity. -/
def Explains (limit : Nat) (own : ExprId → Prop) (a : Activity) (e : Interruption) : Prop :=
  e.IsLookupFault → ∃ b, a.Reaches limit b ∧ (b.AssignsEarly limit own e ∨ b.Misses limit e)

variable {limit : Nat} {own : ExprId → Prop} {a b : Activity} {e : Interruption}

theorem Explains.lift (starts : a.Starts limit b) (explains : b.Explains limit own e) :
    a.Explains limit own e := fun fault => by
  obtain ⟨source, reaches, found⟩ := explains fault
  exact ⟨source, .head starts reaches, found⟩

theorem Explains.of_other (other : ¬e.IsLookupFault) : a.Explains limit own e :=
  fun fault => absurd fault other

theorem Explains.of_misses (misses : a.Misses limit e) : a.Explains limit own e :=
  fun _ => ⟨a, .refl, .inr misses⟩

end Activity

/-! ## Entering a frame -/

theorem contains_bindArguments {f : Function} {args : List Value} (arity : f.arity = args.length)
    (name : String) :
    (f.bindArguments args).contains name = true ↔ name ∈ f.routine.params.map Ident.text := by
  suffices general : ∀ (params : List Ident) (args : List Value) (bindings : Bindings Value),
      params.length = args.length →
      ((Bindings.bindAll params args bindings).contains name = true ↔
        name ∈ params.map Ident.text ∨ bindings.contains name = true) by
    simpa [Function.bindArguments, Bindings.contains] using
      general f.routine.params args ∅ arity
  intro params
  induction params with
  | nil => simp
  | cons param rest inductionHypothesis =>
    intro args bindings same
    cases args with
    | nil => cases same
    | cons arg args =>
      have step := inductionHypothesis args (bindings.insert param.text arg) (by simpa using same)
      simp only [Bindings.bindAll_cons, step, Bindings.contains_insert, List.map_cons,
        List.mem_cons, Bool.or_eq_true, beq_iff_eq]
      tauto

theorem mem_of_bindArguments {f : Function} {args : List Value} {name : String} {value : Value}
    (found : (f.bindArguments args).find? name = some value) : value ∈ args := by
  suffices general : ∀ (params : List Ident) (args : List Value) (bindings : Bindings Value),
      (Bindings.bindAll params args bindings).find? name = some value →
        value ∈ args ∨ bindings.find? name = some value by
    simpa using general f.routine.params args ∅ found
  intro params
  induction params with
  | nil => exact fun _ _ found => .inr found
  | cons param rest inductionHypothesis =>
    intro args bindings found
    cases args with
    | nil => exact .inr found
    | cons arg args =>
      rw [Bindings.bindAll_cons] at found
      rcases inductionHypothesis args _ found with later | here
      · exact .inl (List.mem_cons_of_mem _ later)
      · rw [Bindings.find?_insert] at here
        split at here
        · cases here
          exact .inl List.mem_cons_self
        · exact .inr here

section Entering

variable {r : Resolution} {scopes : List Names} {m : Machine}

/-- A new frame inside an environment stands for a scope that holds just the names that it binds. -/
theorem Machine.inside_enclose {bindings : Bindings Value} {names : Names} {env : Env}
    (unreserved : ∀ name, IsReserved name → names.find? name = none)
    (bound : ∀ name, bindings.contains name = true ↔ names.find? name = some true)
    (chain : m.store.StandFor env.chain scopes) :
    Machine.Inside (names :: scopes)
      { m with store := m.store.addFrame bindings, env := ⟨m.store.frames.size, env.chain⟩ } := by
  have evolves : Store.Evolves none m.store (m.store.addFrame bindings) := .addFrame _ _
  refine ⟨.frame (.of_unreserved (by simp) unreserved fun name declared => ?_)
    (chain.evolve evolves), ?_, ?_, fun name reserved => ?_⟩
  · simpa using (bound name).mpr declared
  · simp
  · rintro _ ⟨⟩ name known
    exact (bound name).mp (by simpa using known)
  · rw [Store.frame_addFrame_self, ← Option.not_isSome_iff_eq_none]
    intro known
    have declared := (bound name).mp known
    rw [unreserved name reserved] at declared
    cases declared

theorem Function.Fits.not_mem_params {f : Function} {store : Store} (fits : f.Fits r.rules store)
    {name : String} (reserved : IsReserved name) : name ∉ f.routine.params.map Ident.text := by
  obtain ⟨outer, chain, obeys, _⟩ := fits
  rw [Stmt.routineObeys_iff] at obeys
  intro member
  obtain ⟨param, isParam, rfl⟩ := List.mem_map.mp member
  exact obeys.1.forall (fun declared => declared.1) param isParam reserved

theorem Function.Fits.setApart {f : Function} {store : Store} {args : List Value}
    (fits : f.Fits r.rules store) (arity : f.arity = args.length) :
    (f.bindArguments args).SetApart := by
  refine .of_unreserved fun name reserved => ?_
  rw [Bool.eq_false_iff, ne_eq, contains_bindArguments arity]
  exact fits.not_mem_params reserved

/-- The body of a function finds the scope of the function with its parameters. -/
theorem Function.Fits.enter {f : Function} {args : List Value} (fits : f.Fits r.rules m.store)
    (arity : f.arity = args.length) :
    ∃ scopes, Machine.Inside scopes { m with
        store := m.store.addFrame (f.bindArguments args)
        env := ⟨m.store.frames.size, f.closure.chain⟩ } ∧
      Stmt.AllObey r.rules scopes f.routine.body := by
  have unreserved {name : String} (reserved : IsReserved name) := fits.not_mem_params reserved
  obtain ⟨outer, chain, obeys, _⟩ := fits
  rw [Stmt.routineObeys_iff] at obeys
  refine ⟨Scope.paramNames f.routine.params :: outer,
    Machine.inside_enclose (fun name reserved => ?_) (fun name => ?_) chain, obeys.2⟩
  · rw [Scope.paramNames_find?, if_neg (unreserved reserved)]
  · rw [contains_bindArguments arity, Scope.paramNames_find?]
    simp

/-- Back from a new frame, the frames that were there before are still closed. -/
theorem Machine.Continues.leave {bindings : Bindings Value} {env : Env} {m' : Machine}
    (inner : Machine.Continues r (some m.store.frames.size)
      { m with store := m.store.addFrame bindings, env := env } m') :
    m.Continues r none { m' with env := m.env } :=
  ⟨⟨inner.fits.table, inner.fits.store⟩, rfl, inner.globals,
    ((Store.Evolves.addFrame m.store bindings).trans inner.evolves).close⟩

/-- The initializer of a variable stands where the variable is declared but not bound. -/
theorem Machine.Inside.declare (inside : m.Inside scopes) {name : String}
    (new : ∀ names ∈ scopes.head?, names.find? name = none) :
    m.Inside (mark scopes name false) := by
  cases scopes with
  | nil => exact inside
  | cons names outer =>
    have missing := new names rfl
    have same : ∀ key, (names.insert name false).find? key = some true ↔
        names.find? key = some true := by
      intro key
      rw [Bindings.find?_insert]
      split
      · rename_i this
        simp [this, missing]
      · rfl
    obtain ⟨holds, around⟩ := ChainMatches.cons_iff.mp inside.chain
    refine ⟨.frame ⟨holds.allocated, ?_, ?_, ?_⟩ around, inside.allocated, ?_, inside.plain⟩
    · exact fun key declared => holds.bound key ((same key).mp declared)
    · exact fun declared => holds.this ((same "this").mp declared)
    · exact fun declared => holds.super ((same "super").mp declared)
    · rintro _ ⟨⟩ key bound
      exact (same key).mpr (inside.exact names rfl key bound)

theorem Function.Fits.this {f : Function} {store : Store} (fits : f.Fits r.rules store)
    (initializer : f.isInitializer = true) :
    ∃ object, store.getAt? f.closure 0 "this" = some (.instance object) := by
  obtain ⟨scopes, chain, _, starts⟩ := fits
  have innermost : scopes[0]? = some thisScope := by
    rw [← List.head?_eq_getElem?]
    exact starts initializer
  obtain ⟨id, frame, holds⟩ := chain.getElem? innermost
  obtain ⟨object, bound⟩ := holds.this (Bindings.find?_insert_self _ _ _)
  exact ⟨object, by simp [Store.getAt?, frame, bound]⟩

end Entering

/-! ## One step -/

/-- From a machine that fits, doing the task keeps to what it may change. -/
def Sound (limit : Nat) (r : Resolution) (fuel : Nat) (task : Task) : Prop :=
  ∀ ⦃m : Machine⦄ ⦃scopes : List Names⦄, m.Fits r → task.Fits r scopes m →
    Meets (task.run limit fuel) m
      (fun result m' => m.Continues r (task.opened m) m' ∧ task.Yields r scopes m' result)
      fun e m' => m.Continues r (task.opened m) m' ∧
        Activity.Explains limit r.own ⟨fuel, task, m⟩ e

section Steps

variable {limit fuel : Nat} {r : Resolution} {scopes : List Names} {m m' : Machine}

/-- A part of an activity, seen from the activity as a whole. -/
theorem Sound.part {task part : Task} {opened : Option FrameId} (sound : Sound limit r fuel part)
    (starts : Activity.Starts limit ⟨fuel + 1, task, m⟩ ⟨fuel, part, m'⟩)
    (before : m.Continues r opened m') (fits : part.Fits r scopes m')
    (closed : part.opened m' = none ∨ part.opened m' = opened) :
    Meets (part.run limit fuel) m'
      (fun result m'' => m.Continues r opened m'' ∧ m'.Continues r (part.opened m') m'' ∧
        part.Yields r scopes m'' result)
      fun e m'' => m.Continues r opened m'' ∧
        Activity.Explains limit r.own ⟨fuel + 1, task, m⟩ e := by
  have widen : ∀ {m'' : Machine}, m'.Continues r (part.opened m') m'' →
      m.Continues r opened m'' := by
    intro m'' step
    rcases closed with none | same
    · rw [none] at step
      exact before.trans step.open'
    · rw [same] at step
      exact before.trans step
  exact (sound before.fits fits).mono
    (fun result m'' _ done => ⟨widen done.1, done.1, done.2⟩)
    fun e m'' _ stopped => ⟨widen stopped.1, stopped.2.lift starts⟩

/-- A step that fails for another reason than a variable, and changes nothing then. -/
theorem Machine.Continues.stop {opened : Option FrameId} {m'' : Machine} {a : Activity}
    {e : Interruption} (after : m.Continues r opened m')
    (failed : m'' = m' ∧ ¬e.IsLookupFault) :
    m.Continues r opened m'' ∧ a.Explains limit r.own e := by
  obtain ⟨rfl, other⟩ := failed
  exact ⟨after, .of_other other⟩

variable (sound : ∀ task, Sound limit r fuel task)
include sound

theorem sound_assign (id : ExprId) (name : Ident) (value : Expr) :
    Sound limit r (fuel + 1) (.expr (.assign id name value)) := by
  intro m scopes fits ⟨inside, obeys, agrees⟩
  have permitted := agrees.permitted
  refine ((sound (.expr value)).part .assigned (.refl fits) ⟨inside, obeys⟩ (.inl rfl)).bind
    fun v m₁ computed ⟨after, step, fitsValue⟩ => ?_
  by_cases own : r.own id
  · -- The frame does not bind the variable yet: its declaration is complete only behind
    -- the initializer.
    refine .of_error (bind_of_error (Eval.assign_unbound step.fits (inside.follow step)
      agrees.depth (permitted.2.1 own) v)) ⟨after, fun _ => ?_⟩
    exact ⟨_, .refl, .inl (.intro own computed)⟩
  · have assigned := Eval.meets_assign step.fits (inside.follow step) agrees.depth
      (permitted.2.2 own) permitted.1 fitsValue
    refine meets_bind.mpr (assigned.mono (fun _ m₂ _ written => ?_) ?_)
    · exact ⟨after.trans written, fitsValue.evolve written.evolves⟩
    · rintro e m₂ _ ⟨rfl, entry, unbound, rfl⟩
      exact ⟨after, .of_misses ⟨.write id name, m₂, name.span, .written computed, entry,
        unbound, rfl⟩⟩

theorem sound_binary (id : ExprId) (span : Span) (op : BinaryOp) (left right : Expr) :
    Sound limit r (fuel + 1) (.expr (.binary id span op left right)) := by
  intro m scopes fits ⟨inside, obeysLeft, obeysRight⟩
  refine ((sound (.expr left)).part .binaryLeft (.refl fits) ⟨inside, obeysLeft⟩ (.inl rfl)).bind
    fun v m₁ first ⟨_, step, _⟩ => ?_
  refine ((sound (.expr right)).part (.binaryRight first) step ⟨inside.follow step, obeysRight⟩
    (.inl rfl)).bind fun w m₂ _ ⟨after, _, _⟩ => ?_
  refine (Eval.meets_ofCause r (op.isCalculated_apply v w)).mono ?_ ?_
  · rintro result _ _ ⟨rfl, fitsResult⟩
    exact ⟨after, fitsResult⟩
  · exact fun _ _ _ => after.stop

theorem sound_logical (id : ExprId) (span : Span) (op : LogicalOp) (left right : Expr) :
    Sound limit r (fuel + 1) (.expr (.logical id span op left right)) := by
  intro m scopes fits ⟨inside, obeysLeft, obeysRight⟩
  refine ((sound (.expr left)).part .logicalLeft (.refl fits) ⟨inside, obeysLeft⟩ (.inl rfl)).bind
    fun v m₁ first ⟨_, step, fitsLeft⟩ => ?_
  refine meets_ite.mpr ⟨fun _ => ⟨step, fitsLeft⟩, fun unsettled => ?_⟩
  exact ((sound (.expr right)).part (.logicalRight first unsettled) step
    ⟨inside.follow step, obeysRight⟩ (.inl rfl)).imp fun _ _ _ done => ⟨done.1, done.2.2⟩

theorem sound_unary (id : ExprId) (span : Span) (op : UnaryOp) (operand : Expr) :
    Sound limit r (fuel + 1) (.expr (.unary id span op operand)) := by
  intro m scopes fits ⟨inside, obeys⟩
  refine ((sound (.expr operand)).part .operand (.refl fits) ⟨inside, obeys⟩ (.inl rfl)).bind
    fun v m₁ _ ⟨after, _, _⟩ => ?_
  refine (Eval.meets_ofCause r (op.isCalculated_apply v)).mono ?_ ?_
  · rintro result _ _ ⟨rfl, fitsResult⟩
    exact ⟨after, fitsResult⟩
  · exact fun _ _ _ => after.stop

theorem sound_callExpr (id : ExprId) (span : Span) (callee : Expr) (args : List Expr) :
    Sound limit r (fuel + 1) (.expr (.call id span callee args)) := by
  intro m scopes fits ⟨inside, obeysCallee, obeyArgs⟩
  refine ((sound (.expr callee)).part .callee (.refl fits) ⟨inside, obeysCallee⟩ (.inl rfl)).bind
    fun f m₁ first ⟨_, step, fitsCallee⟩ => ?_
  refine ((sound (.exprs args)).part (.args first) step ⟨inside.follow step, obeyArgs⟩
    (.inl rfl)).bind fun values m₂ second ⟨after, stepArgs, fitArgs⟩ => ?_
  rw [Eval.meets_counted]
  split
  · exact ⟨after, .of_other not_false⟩
  · rename_i allowed
    have fitsCall : Task.Fits r scopes { m₂ with callDepth := m₂.callDepth + 1 }
        (.call f values span) := ⟨fitsCallee.evolve stepArgs.evolves, fitArgs⟩
    exact ((sound (.call f values span)).part (.call first second allowed) (after.recount _)
      fitsCall (.inl rfl)).mono
      (fun _ _ _ done => ⟨done.1.recount _, done.2.2⟩)
      fun _ _ _ stopped => ⟨stopped.1.recount _, stopped.2⟩

theorem sound_get (id : ExprId) (object : Expr) (name : Ident) :
    Sound limit r (fuel + 1) (.expr (.get id object name)) := by
  intro m scopes fits ⟨inside, obeys⟩
  refine ((sound (.expr object)).part .getObject (.refl fits) ⟨inside, obeys⟩ (.inl rfl)).bind
    fun v m₁ _ ⟨after, _, fitsObject⟩ => ?_
  cases v with
  | «instance» found =>
    refine (Eval.meets_getProperty after.fits fitsObject).mono
      (fun _ _ _ done => ⟨after.trans done.1, done.2⟩) fun _ _ _ => after.stop
  | nil | bool | number | string | native | function | «class» =>
    exact ⟨after, .of_other not_false⟩

theorem sound_set (id : ExprId) (object : Expr) (name : Ident) (value : Expr) :
    Sound limit r (fuel + 1) (.expr (.set id object name value)) := by
  intro m scopes fits ⟨inside, obeysObject, obeysValue⟩
  refine ((sound (.expr object)).part .setObject (.refl fits) ⟨inside, obeysObject⟩ (.inl rfl)).bind
    fun v m₁ first ⟨_, step, fitsObject⟩ => ?_
  cases v with
  | «instance» found =>
    refine ((sound (.expr value)).part (.setValue first) step ⟨inside.follow step, obeysValue⟩
      (.inl rfl)).bind fun w m₂ _ ⟨after, _, fitsValue⟩ => ?_
    refine (Eval.meets_setField after.fits fitsValue).never.bind fun _ m₃ _ written => ?_
    exact ⟨after.trans written, fitsValue.evolve written.evolves⟩
  | nil | bool | number | string | native | function | «class» =>
    exact ⟨step, .of_other not_false⟩

omit sound in
theorem sound_this (id : ExprId) (span : Span) :
    Sound limit r (fuel + 1) (.expr (.this id span)) := by
  intro m scopes fits ⟨inside, agrees⟩
  obtain ⟨depth, located⟩ := agrees.permitted
  have complete : Complete scopes "this" := by
    intro _ _ found
    cases located.symm.trans found
    rfl
  refine (Eval.meets_lookup fits inside agrees.depth complete).mono ?_ ?_
  · rintro v _ _ ⟨rfl, fitsValue⟩
    exact ⟨.refl fits, fitsValue⟩
  · rintro e _ _ ⟨rfl, missing⟩
    exact ⟨.refl fits, .of_misses ⟨.this id, _, span, .this, missing⟩⟩

omit sound in
theorem sound_super (id : ExprId) (span : Span) (method : Ident) :
    Sound limit r (fuel + 1) (.expr (.super id span method)) := by
  intro m scopes fits ⟨inside, agrees⟩
  obtain ⟨depth, super, this⟩ := agrees.permitted
  have entry : r.table[id]? = some (depth + 1) := by
    have recorded := agrees.depth
    rw [super] at recorded
    exact recorded
  exact (Eval.meets_superMethod fits inside entry super this).mono (fun _ _ _ done => done)
    fun _ _ _ => (Machine.Continues.refl fits).stop

theorem sound_expr (e : Expr) : Sound limit r (fuel + 1) (.expr e) := by
  cases e with
  | literal id span value =>
    intro m scopes fits _
    cases value <;> exact ⟨.refl fits, trivial⟩
  | ref target =>
    intro m scopes fits ⟨inside, agrees⟩
    refine (Eval.meets_lookup fits inside agrees.depth agrees.permitted).mono ?_ ?_
    · rintro v _ _ ⟨rfl, fitsValue⟩
      exact ⟨.refl fits, fitsValue⟩
    · rintro e _ _ ⟨rfl, missing⟩
      exact ⟨.refl fits, .of_misses ⟨.read target, _, _, .read, missing⟩⟩
  | assign id name value => exact sound_assign sound id name value
  | binary id span op left right => exact sound_binary sound id span op left right
  | logical id span op left right => exact sound_logical sound id span op left right
  | unary id span op operand => exact sound_unary sound id span op operand
  | call id span callee args => exact sound_callExpr sound id span callee args
  | group id span inner =>
    intro m scopes fits within
    exact ((sound (.expr inner)).part .inner (.refl fits) within (.inl rfl)).imp
      fun _ _ _ done => ⟨done.1, done.2.2⟩
  | get id object name => exact sound_get sound id object name
  | set id object name value => exact sound_set sound id object name value
  | this id span => exact sound_this id span
  | super id span method => exact sound_super id span method

theorem sound_exprs (es : List Expr) : Sound limit r (fuel + 1) (.exprs es) := by
  intro m scopes fits ⟨inside, obey⟩
  cases es with
  | nil => exact ⟨.refl fits, List.forall_mem_nil _⟩
  | cons e rest =>
    refine ((sound (.expr e)).part .firstExpr (.refl fits) ⟨inside, obey.1⟩ (.inl rfl)).bind
      fun v m₁ first ⟨_, step, fitsValue⟩ => ?_
    refine ((sound (.exprs rest)).part (.otherExprs first) step ⟨inside.follow step, obey.2⟩
      (.inl rfl)).bind fun values m₂ _ ⟨after, stepRest, fitValues⟩ => ?_
    exact ⟨after, List.forall_mem_cons.mpr ⟨fitsValue.evolve stepRest.evolves, fitValues⟩⟩

theorem sound_call (callee : Value) (args : List Value) (span : Span) :
    Sound limit r (fuel + 1) (.call callee args span) := by
  intro m scopes fits ⟨fitsCallee, fitArgs⟩
  cases callee with
  | nil | bool | number | string | «instance» => exact ⟨.refl fits, .of_other not_false⟩
  | native builtin =>
    refine meets_ite.mpr ⟨fun _ => ⟨.refl fits, .of_other not_false⟩, fun _ => ?_⟩
    exact (Eval.meets_readClock fits).never.bind fun _ m₁ _ after => ⟨after, trivial⟩
  | function f =>
    refine meets_ite.mpr ⟨fun _ => ⟨.refl fits, .of_other not_false⟩, fun same => ?_⟩
    have arity := not_not.mp same
    have fitsApply : Task.Fits r scopes m (.apply f args) := ⟨fitsCallee, fitArgs, arity⟩
    exact ((sound (.apply f args)).part (.apply arity) (.refl fits) fitsApply (.inl rfl)).imp
      fun _ _ _ done => ⟨done.1, done.2.2⟩
  | «class» cls =>
    refine meets_ite.mpr ⟨fun _ => ⟨.refl fits, .of_other not_false⟩, fun same => ?_⟩
    have arity := not_not.mp same
    have fitsNew : Task.Fits r scopes m (.instantiate cls args) := ⟨fitsCallee, fitArgs, arity⟩
    exact ((sound (.instantiate cls args)).part (.instantiate arity) (.refl fits) fitsNew
      (.inl rfl)).imp fun _ _ _ done => ⟨done.1, done.2.2⟩

theorem sound_apply (function : Function) (args : List Value) :
    Sound limit r (fuel + 1) (.apply function args) := by
  intro m scopes fits ⟨fitsFunction, fitArgs, arity⟩
  have enclosed : m.Continues r none
      { m with store := m.store.addFrame (function.bindArguments args) } :=
    .addFrame fits (fitsFunction.setApart arity) fun name value found =>
      fitArgs value (mem_of_bindArguments found)
  obtain ⟨within, inside, obeys⟩ := fitsFunction.enter arity
  have fitsBody : Machine.Fits r { m with
      store := m.store.addFrame (function.bindArguments args)
      env := ⟨m.store.frames.size, function.closure.chain⟩ } :=
    ⟨enclosed.fits.table, enclosed.fits.store⟩
  have body := sound (.stmts function.routine.body) fitsBody ⟨inside, obeys⟩
  refine meets_bind.mpr (meets_bind.mpr (Eval.meets_within.mpr (body.mono ?_ ?_)))
  · rintro flow m₁ _ ⟨inner, fitsFlow⟩
    have after := inner.leave
    refine meets_ite.mpr ⟨fun initializer => ?_, fun _ => ?_⟩
    · obtain ⟨object, found⟩ := (fitsFunction.evolve after.evolves).this initializer
      refine meets_bind.mpr ?_
      simp only [meets_get, Store.getAt, found, orFault, Eval.ofExcept, meets_pure]
      exact ⟨after, after.fits.store.getAt? found⟩
    · cases flow with
      | next => exact ⟨after, trivial⟩
      | «return» value => exact ⟨after, fitsFlow⟩
  · rintro e m₁ _ ⟨inner, explains⟩
    exact ⟨inner.leave, explains.lift (.body rfl)⟩

theorem sound_instantiate (cls : Class) (args : List Value) :
    Sound limit r (fuel + 1) (.instantiate cls args) := by
  intro m scopes fits ⟨fitsClass, fitArgs, arity⟩
  refine (Eval.meets_newInstance fits cls).never.bind ?_
  rintro object m₁ made ⟨after, rfl⟩
  have fitsObject := fitsClass.evolve after.evolves
  cases declared : object.cls.initializer? with
  | none => exact ⟨after, fitsObject⟩
  | some method =>
    obtain ⟨superclass, fitsMethod⟩ := fitsObject.findMethod? declared
    refine (Eval.meets_bindMethod after.fits fitsMethod fitsObject).never.bind
      fun bound m₂ tied ⟨step, fitsBound, sameArity⟩ => ?_
    have both := after.trans step
    have fitsApply : Task.Fits r scopes m₂ (.apply bound args) := by
      refine ⟨fitsBound, fun arg member => (fitArgs arg member).evolve both.evolves, ?_⟩
      rw [sameArity, ← arity, Class.arity, declared]
    refine ((sound (.apply bound args)).part (.initializer declared made tied) both fitsApply
      (.inl rfl)).bind fun _ m₃ _ ⟨done, _, _⟩ => ?_
    exact ⟨done, fitsClass.evolve done.evolves⟩

theorem sound_var (name : Ident) (initial : Option Expr) :
    Sound limit r (fuel + 1) (.stmt (.var name initial)) := by
  intro m scopes fits ⟨inside, declaration, obeys⟩
  cases initial with
  | none =>
    have bound := Eval.meets_define fits inside declaration.1 (show Value.nil.Fits _ _ from trivial)
    refine meets_bind.mpr (meets_pure.mpr (bound.never.bind ?_))
    exact fun _ m₁ _ ⟨after, declared⟩ => ⟨after, trivial, declared⟩
  | some initial =>
    refine ((sound (.expr initial)).part .initial (.refl fits)
      ⟨inside.declare declaration.2, obeys⟩ (.inl rfl)).bind
      fun v m₁ _ ⟨after, step, fitsValue⟩ => ?_
    refine (Eval.meets_define step.fits (inside.follow step) declaration.1 fitsValue).never.bind
      fun _ m₂ _ ⟨written, declared⟩ => ?_
    rw [step.env] at written
    exact ⟨after.trans written, trivial, declared⟩

theorem sound_block (body : List Stmt) : Sound limit r (fuel + 1) (.stmt (.block body)) := by
  intro m scopes fits ⟨inside, obeys⟩
  have enclosed : m.Continues r none { m with store := m.store.addFrame ∅ } :=
    .addFrame fits (.of_unreserved fun _ _ => rfl) (by simp)
  have fitsBody : Machine.Fits r { m with
      store := m.store.addFrame ∅
      env := ⟨m.store.frames.size, m.env.chain⟩ } :=
    ⟨enclosed.fits.table, enclosed.fits.store⟩
  have entered : Machine.Inside (∅ :: scopes) { m with
      store := m.store.addFrame ∅
      env := ⟨m.store.frames.size, m.env.chain⟩ } :=
    Machine.inside_enclose (by simp) (by simp [Bindings.contains]) inside.chain
  have block := sound (.stmts body) fitsBody ⟨entered, obeys⟩
  refine meets_bind.mpr (meets_bind.mpr (Eval.meets_within.mpr (block.mono ?_ ?_)))
  · rintro flow m₁ _ ⟨inner, fitsFlow⟩
    have after := inner.leave
    exact ⟨after.open', fitsFlow, inside.follow after⟩
  · rintro e m₁ _ ⟨inner, explains⟩
    exact ⟨inner.leave.open', explains.lift (.block rfl)⟩

theorem sound_if (condition : Expr) (yes : Stmt) (no : Option Stmt) :
    Sound limit r (fuel + 1) (.stmt (.if condition yes no)) := by
  intro m scopes fits ⟨inside, obeys⟩
  have parts : condition.Obeys r.rules scopes ∧ yes.declared? = none ∧ yes.Obeys r.rules scopes ∧
      ∀ other ∈ no, other.declared? = none ∧ other.Obeys r.rules scopes := by
    cases no with
    | none => exact ⟨obeys.1, obeys.2.1, obeys.2.2, by simp⟩
    | some other => exact ⟨obeys.1, obeys.2.1.1, obeys.2.1.2, by simpa using obeys.2.2⟩
  obtain ⟨obeysCondition, shape, obeysYes, obeysNo⟩ := parts
  refine ((sound (.expr condition)).part .condition (.refl fits) ⟨inside, obeysCondition⟩
    (.inl rfl)).bind fun v m₁ first ⟨after, step, _⟩ => ?_
  refine meets_ite.mpr ⟨fun holds => ?_, fun fails => ?_⟩
  · refine ((sound (.stmt yes)).part (.yes first holds) after ⟨inside.follow step, obeysYes⟩
      (.inr step.frame_eq)).imp ?_
    rintro flow m₂ _ ⟨done, _, fitsFlow, insideYes⟩
    rw [Stmt.scopesAfter_of_declared?_eq_none shape] at insideYes
    exact ⟨done, fitsFlow, insideYes⟩
  · cases no with
    | none => exact ⟨after, trivial, inside.follow step⟩
    | some no =>
      obtain ⟨shape, obeysNo⟩ := obeysNo no rfl
      refine ((sound (.stmt no)).part (.no first fails) after ⟨inside.follow step, obeysNo⟩
        (.inr step.frame_eq)).imp ?_
      rintro flow m₂ _ ⟨done, _, fitsFlow, insideNo⟩
      rw [Stmt.scopesAfter_of_declared?_eq_none shape] at insideNo
      exact ⟨done, fitsFlow, insideNo⟩

omit sound in
theorem sound_class (name : Ident) (superclass : Option Reference)
    (methods : List (Routine (List Stmt))) :
    Sound limit r (fuel + 1) (.stmt (.class name superclass methods)) := by
  intro m scopes fits ⟨inside, declaration, clause, obey⟩
  have agrees : ∀ reference ∈ superclass, r.Agrees scopes (.read reference) :=
    fun reference member => (clause reference member).1
  refine meets_bind.mpr
    ((Eval.meets_declareClass fits inside declaration.1 agrees obey).mono ?_ ?_)
  · rintro _ m₁ _ ⟨after, declared⟩
    exact ⟨after, trivial, declared⟩
  · rintro e _ _ ⟨rfl, missing⟩
    refine ⟨.refl fits, fun fault => ?_⟩
    obtain ⟨reference, same, entry, unbound, rfl⟩ := missing fault
    cases same
    exact ⟨_, .refl, .inr ⟨.read reference, _, _, .superclass, entry, unbound, rfl⟩⟩

theorem sound_stmt (s : Stmt) : Sound limit r (fuel + 1) (.stmt s) := by
  cases s with
  | expr value =>
    intro m scopes fits ⟨inside, obeys⟩
    exact ((sound (.expr value)).part .exprStmt (.refl fits) ⟨inside, obeys⟩ (.inl rfl)).bind
      fun _ m₁ _ ⟨after, step, _⟩ => ⟨after, trivial, inside.follow step⟩
  | print value =>
    intro m scopes fits ⟨inside, obeys⟩
    refine ((sound (.expr value)).part .printed (.refl fits) ⟨inside, obeys⟩ (.inl rfl)).bind
      fun _ m₁ _ ⟨after, step, _⟩ => ?_
    refine meets_bind.mpr ((Eval.meets_print step.fits).mono (fun _ m₂ _ written => ?_)
      fun _ _ _ => after.stop)
    exact ⟨after.trans written.open', trivial, inside.follow (step.trans written)⟩
  | var name initial => exact sound_var sound name initial
  | block body => exact sound_block sound body
  | «if» condition yes no => exact sound_if sound condition yes no
  | «while» condition body =>
    intro m scopes fits ⟨inside, obeys⟩
    exact ((sound (.loop condition body)).part .loop (.refl fits) ⟨inside, obeys⟩ (.inr rfl)).imp
      fun _ _ _ done => ⟨done.1, done.2.2⟩
  | «fun» routine =>
    intro m scopes fits ⟨inside, declaration, obeys⟩
    exact (Eval.meets_declareFunction fits inside declaration.1 obeys).never.bind
      fun _ m₁ _ ⟨after, declared⟩ => ⟨after, trivial, declared⟩
  | «return» keyword value =>
    intro m scopes fits ⟨inside, obeys⟩
    cases value with
    | none => exact ⟨.refl fits, trivial, inside⟩
    | some value =>
      exact ((sound (.expr value)).part .returned (.refl fits) ⟨inside, obeys⟩ (.inl rfl)).bind
        fun _ m₁ _ ⟨after, step, fitsValue⟩ => ⟨after, fitsValue, inside.follow step⟩
  | «class» name superclass methods => exact sound_class name superclass methods

theorem sound_loop (condition : Expr) (body : Stmt) :
    Sound limit r (fuel + 1) (.loop condition body) := by
  intro m scopes fits ⟨inside, obeysCondition, shape, obeysBody⟩
  refine ((sound (.expr condition)).part .loopCondition (.refl fits) ⟨inside, obeysCondition⟩
    (.inl rfl)).bind fun v m₁ first ⟨after, step, _⟩ => ?_
  refine meets_ite.mpr ⟨fun holds => ?_, fun _ => ⟨after, trivial, inside.follow step⟩⟩
  refine ((sound (.stmt body)).part (.loopBody first holds) after ⟨inside.follow step, obeysBody⟩
    (.inr step.frame_eq)).bind ?_
  rintro flow m₂ second ⟨done, stepBody, fitsFlow, insideBody⟩
  rw [Stmt.scopesAfter_of_declared?_eq_none shape] at insideBody
  cases flow with
  | «return» value => exact ⟨done, fitsFlow, insideBody⟩
  | next =>
    exact ((sound (.loop condition body)).part (.loopAgain first holds second) done
      ⟨insideBody, obeysCondition, shape, obeysBody⟩
      (.inr done.frame_eq)).imp fun _ _ _ again => ⟨again.1, again.2.2⟩

theorem sound_stmts (body : List Stmt) : Sound limit r (fuel + 1) (.stmts body) := by
  intro m scopes fits ⟨inside, obey⟩
  cases body with
  | nil => exact ⟨.refl fits, trivial⟩
  | cons s rest =>
    refine ((sound (.stmt s)).part .firstStmt (.refl fits) ⟨inside, obey.1⟩ (.inr rfl)).bind ?_
    rintro flow m₁ first ⟨after, _, fitsFlow, behind⟩
    cases flow with
    | «return» value => exact ⟨after, fitsFlow⟩
    | next =>
      exact ((sound (.stmts rest)).part (.otherStmts first) after ⟨behind, obey.2⟩
        (.inr after.frame_eq)).imp fun _ _ _ done => ⟨done.1, done.2.2⟩

end Steps

/-! ## Whole runs -/

/-- Every task is sound: by induction on the bound, with one step for each kind of task. -/
theorem sound (limit : Nat) (r : Resolution) (fuel : Nat) (task : Task) :
    Sound limit r fuel task := by
  induction fuel generalizing task with
  | zero =>
    intro m scopes fits _
    cases task <;> exact ⟨.refl fits, .of_other not_false⟩
  | succ fuel inductionHypothesis =>
    cases task with
    | expr e => exact sound_expr inductionHypothesis e
    | exprs es => exact sound_exprs inductionHypothesis es
    | call callee args span => exact sound_call inductionHypothesis callee args span
    | apply function args => exact sound_apply inductionHypothesis function args
    | instantiate cls args => exact sound_instantiate inductionHypothesis cls args
    | stmt s => exact sound_stmt inductionHypothesis s
    | loop condition body => exact sound_loop inductionHypothesis condition body
    | stmts body => exact sound_stmts inductionHypothesis body

/-- An expression that was evaluated. -/
theorem value_fits {limit fuel : Nat} {r : Resolution} {scopes : List Names} {m m' : Machine}
    {e : Expr} {v : Value} (fits : m.Fits r) (inside : m.Inside scopes)
    (obeys : e.Obeys r.rules scopes) (evaluated : Eval.expr limit fuel e m = .ok v m') :
    m.Continues r none m' ∧ v.Fits r.rules m'.store :=
  (sound limit r fuel (.expr e) fits ⟨inside, obeys⟩).ok_of_eq evaluated

namespace Machine

/-- Walking a number of links outwards from the environment reaches a frame that binds the name. -/
def Binds (m : Machine) (depth : Nat) (name : String) : Prop :=
  ∃ id, m.env.chain[depth]? = some id ∧ (m.store.frame id).contains name = true

end Machine

namespace Activity

variable {limit : Nat} {r : Resolution} {a b : Activity}

def Fits (r : Resolution) (a : Activity) : Prop :=
  ∃ scopes, a.machine.Fits r ∧ a.task.Fits r scopes a.machine

structure Agrees (limit : Nat) (own : ExprId → Prop) (a : Activity) : Prop where
  /-- A use with a depth finds its name there, unless it is an assignment to a variable inside its
  own initializer. -/
  bound : ∀ {u m depth}, a.Uses limit u m → m.depths[u.id]? = some depth →
    ¬(u.kind = .write ∧ own u.id) → m.Binds depth u.name
  /-- An assignment to a variable inside its own initializer comes before the binding. -/
  early : ∀ {u m}, a.Uses limit u m → u.kind = .write → own u.id →
    m.depths[u.id]? = some 0 ∧ ¬m.Binds 0 u.name
  /-- It always fails, once its value has been computed. -/
  fails : ∀ {e}, a.AssignsEarly limit own e → a.Fails limit e
  this : ∀ {u m}, a.Uses limit u m → u.kind = .this →
    ∃ depth object, m.depths[u.id]? = some depth ∧
      m.store.getAt? m.env depth "this" = some (.instance object)
  /-- The frame with `super` lies one further out than the one with `this`. -/
  super : ∀ {u m}, a.Uses limit u m → u.kind = .super →
    ∃ depth cls object, m.depths[u.id]? = some (depth + 1) ∧
      m.store.getAt? m.env (depth + 1) "super" = some (.class cls) ∧
      m.store.getAt? m.env depth "this" = some (.instance object)
  /-- Faults of looking up a variable have no other sources. -/
  explained : ∀ {e}, a.Fails limit e → a.Explains limit own e

/-- A use in an activity that fits stands where the record about it fits the scopes. -/
theorem Fits.use {u : Use} {m : Machine} (fits : a.Fits r) (uses : a.Uses limit u m) :
    ∃ scopes, m.Fits r ∧ m.Inside scopes ∧ r.Agrees scopes u := by
  obtain ⟨scopes, fitsMachine, fitsTask⟩ := fits
  cases uses with
  | read | this | super => exact ⟨scopes, fitsMachine, fitsTask.1, fitsTask.2⟩
  | write => exact ⟨scopes, fitsMachine, fitsTask.1, fitsTask.2.2⟩
  | @written fuel m m' id name value v computed =>
    obtain ⟨step, _⟩ := value_fits fitsMachine fitsTask.1 fitsTask.2.1 computed
    exact ⟨scopes, step.fits, fitsTask.1.follow step, fitsTask.2.2⟩
  | superclass => exact ⟨scopes, fitsMachine, fitsTask.1, (fitsTask.2.2.1 _ rfl).1⟩

theorem Fits.agrees (fits : a.Fits r) : a.Agrees limit r.own where
  bound {u m depth} uses entry regular := by
    obtain ⟨scopes, fitsMachine, inside, agrees⟩ := fits.use uses
    rw [fitsMachine.table, agrees.depth] at entry
    obtain ⟨⟨distance, known⟩, located, rfl⟩ := Option.map_eq_some_iff.mp entry
    cases agrees.complete regular distance known located
    exact inside.bound located
  early {u m} uses write own := by
    obtain ⟨scopes, fitsMachine, inside, agrees⟩ := fits.use uses
    have declaring : locate? scopes u.name = some (0, false) := by
      have permitted := agrees.permitted
      simp only [Resolution.Permits, write] at permitted
      exact permitted.2.1 own
    refine ⟨by rw [fitsMachine.table, agrees.depth, declaring]; rfl, ?_⟩
    rintro ⟨id, innermost, bound⟩
    cases innermost
    rw [inside.unbound declaring] at bound
    cases bound
  fails {e} early := by
    cases early with
    | @intro fuel m m' id name value v own computed =>
      obtain ⟨scopes, fitsMachine, inside, agrees⟩ := fits.use (.written computed)
      exact .behind computed (.bind ⟨m', Eval.assign_unbound fitsMachine inside agrees.depth
        (agrees.permitted.2.1 own) v⟩)
  this {u m} uses kind := by
    obtain ⟨scopes, fitsMachine, inside, agrees⟩ := fits.use uses
    cases uses with
    | this =>
      obtain ⟨depth, located⟩ := agrees.permitted
      obtain ⟨object, found⟩ := inside.this located
      exact ⟨depth, object, by rw [fitsMachine.table, agrees.depth, located]; rfl, found⟩
    | read | write | written | super | superclass => cases kind
  super {u m} uses kind := by
    obtain ⟨scopes, fitsMachine, inside, agrees⟩ := fits.use uses
    cases uses with
    | super =>
      obtain ⟨depth, located, within⟩ := agrees.permitted
      obtain ⟨cls, foundSuper⟩ := inside.super located
      obtain ⟨object, foundThis⟩ := inside.this within
      exact ⟨depth, cls, object, by rw [fitsMachine.table, agrees.depth, located]; rfl,
        foundSuper, foundThis⟩
    | read | write | written | this | superclass => cases kind
  explained {e} failed := by
    obtain ⟨scopes, fitsMachine, fitsTask⟩ := fits
    obtain ⟨m', failure⟩ := failed
    exact ((sound limit r a.fuel a.task fitsMachine fitsTask).error_of_eq failure).2

/-- What an activity that fits starts, fits. -/
theorem Starts.fits (starts : Starts limit a b) (fits : a.Fits r) : b.Fits r := by
  obtain ⟨scopes, fitsMachine, fitsTask⟩ := fits
  cases starts with
  | assigned | binaryLeft | logicalLeft | callee | setObject | firstExpr | firstStmt
  | loopCondition =>
    exact ⟨scopes, fitsMachine, fitsTask.1, fitsTask.2.1⟩
  | operand | inner | getObject | exprStmt | printed | loop | returned =>
    exact ⟨scopes, fitsMachine, fitsTask.1, fitsTask.2⟩
  | binaryRight first | logicalRight first | args first | setValue first | otherExprs first =>
    obtain ⟨step, _⟩ := value_fits fitsMachine fitsTask.1 fitsTask.2.1 first
    exact ⟨scopes, step.fits, fitsTask.1.follow step, fitsTask.2.2⟩
  | @call fuel m m' m'' id span callee args f values first second =>
    obtain ⟨step, fitsCallee⟩ := value_fits fitsMachine fitsTask.1 fitsTask.2.1 first
    obtain ⟨stepArgs, fitArgs⟩ := (sound limit r fuel (.exprs args) step.fits
      ⟨fitsTask.1.follow step, fitsTask.2.2⟩).ok_of_eq second
    exact ⟨scopes, ⟨stepArgs.fits.table, stepArgs.fits.store⟩,
      fitsCallee.evolve stepArgs.evolves, fitArgs⟩
  | apply arity | instantiate arity =>
    exact ⟨scopes, fitsMachine, fitsTask.1, fitsTask.2, arity⟩
  | body enclosed =>
    cases enclosed
    obtain ⟨within, inside, obeys⟩ := fitsTask.1.enter fitsTask.2.2
    refine ⟨within, ⟨fitsMachine.table, ?_⟩, inside, obeys⟩
    exact fitsMachine.store.addFrame (fitsTask.1.setApart fitsTask.2.2) fun name value found =>
      fitsTask.2.1 value (mem_of_bindArguments found)
  | @initializer fuel m m' m'' cls args object method bound declared made tied =>
    -- Two steps lie before the call: making the instance, and tying its initializer to it.
    obtain ⟨fitsClass, fitArgs, arity⟩ := fitsTask
    obtain ⟨new, rfl⟩ := (Eval.meets_newInstance fitsMachine cls).ok_of_eq made
    have fitsObject := fitsClass.evolve new.evolves
    obtain ⟨superclass, fitsMethod⟩ := fitsObject.findMethod? declared
    obtain ⟨step, fitsBound, sameArity⟩ :=
      (Eval.meets_bindMethod new.fits fitsMethod fitsObject).ok_of_eq tied
    have both := new.trans step
    refine ⟨scopes, both.fits, fitsBound,
      fun arg member => (fitArgs arg member).evolve both.evolves, ?_⟩
    rw [sameArity, ← arity, Class.arity, declared]
  | initial => exact ⟨_, fitsMachine, fitsTask.1.declare fitsTask.2.1.2, fitsTask.2.2⟩
  | block enclosed =>
    cases enclosed
    refine ⟨_, ⟨fitsMachine.table, fitsMachine.store.addFrame (.of_unreserved fun _ _ => rfl)
      (by simp)⟩, ?_, fitsTask.2⟩
    exact Machine.inside_enclose (by simp) (by simp [Bindings.contains]) fitsTask.1.chain
  | @condition fuel m condition yes no =>
    cases no <;> exact ⟨scopes, fitsMachine, fitsTask.1, fitsTask.2.1⟩
  | @yes fuel m m' condition yes no value first holds =>
    cases no with
    | none =>
      obtain ⟨step, _⟩ := value_fits fitsMachine fitsTask.1 fitsTask.2.1 first
      exact ⟨scopes, step.fits, fitsTask.1.follow step, fitsTask.2.2.2⟩
    | some no =>
      obtain ⟨step, _⟩ := value_fits fitsMachine fitsTask.1 fitsTask.2.1 first
      exact ⟨scopes, step.fits, fitsTask.1.follow step, fitsTask.2.2.1.2⟩
  | no first =>
    obtain ⟨step, _⟩ := value_fits fitsMachine fitsTask.1 fitsTask.2.1 first
    exact ⟨scopes, step.fits, fitsTask.1.follow step, fitsTask.2.2.2.2⟩
  | loopBody first =>
    obtain ⟨step, _⟩ := value_fits fitsMachine fitsTask.1 fitsTask.2.1 first
    exact ⟨scopes, step.fits, fitsTask.1.follow step, fitsTask.2.2.2⟩
  | @loopAgain fuel m m' m'' condition body value first holds second =>
    obtain ⟨inside, obeysCondition, shape, obeysBody⟩ := fitsTask
    obtain ⟨step, _⟩ := value_fits fitsMachine inside obeysCondition first
    obtain ⟨stepBody, _, behind⟩ := (sound limit r fuel (.stmt body) step.fits
      ⟨inside.follow step, obeysBody⟩).ok_of_eq second
    rw [Stmt.scopesAfter_of_declared?_eq_none shape] at behind
    exact ⟨scopes, stepBody.fits, behind, obeysCondition, shape, obeysBody⟩
  | @otherStmts fuel m m' s rest first =>
    obtain ⟨step, _, behind⟩ := (sound limit r fuel (.stmt s) fitsMachine
      ⟨fitsTask.1, fitsTask.2.1⟩).ok_of_eq first
    exact ⟨_, step.fits, behind, fitsTask.2.2⟩

theorem Reaches.fits (reaches : Reaches limit a b) (fits : a.Fits r) : b.Fits r := by
  induction reaches with
  | refl => exact fits
  | tail _ starts inductionHypothesis => exact starts.fits inductionHypothesis

end Activity

end Lox
