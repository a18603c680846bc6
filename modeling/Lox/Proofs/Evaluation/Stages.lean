import Lox.Proofs.Evaluation.Agreement
import Lox.Proofs.Evaluation.Parts
import Lox.Proofs.Store.Origins
import Lox.Proofs.Syntax.Routines

set_option autoImplicit false

/-!
# Stages of a run

Frames, instances, functions and classes are only added in the course of a run. A stage says what
has been made so far. An invariant says which states, environments and values there can be at a
stage. If the steps of a machine keep it, then so does every task: it leads from one stage to a
later one, and the activities that it starts take place between the two, one after the other.
-/

namespace Lox

variable {Stage α β : Type} [Preorder Stage] {limit fuel : Nat} {m m' : Machine}

/-- What there can be at a stage: the states, the environments, and the values. The routines are
those that functions are made from, and what occurs are the activities of the run. -/
structure Invariant (Stage : Type) [Preorder Stage] (limit : Nat) where
  state : Stage → Machine → Prop
  env : Stage → Env → Prop
  value : Stage → Value → Prop
  routine : Routine (List Stmt) → Prop
  occurs : Activity → Prop
  inner {r : Routine (List Stmt)} : routine r → ∀ inner ∈ Stmt.routinesAll r.body, routine inner
  starts {a b : Activity} : occurs a → a.Starts limit b → occurs b
  env_mono {e e' : Stage} {closure : Env} : env e closure → e ≤ e' → env e' closure
  value_mono {e e' : Stage} {v : Value} : value e v → e ≤ e' → value e' v
  calculated {v : Value} (e : Stage) : IsCalculated (.ok v) → value e v
  function_iff {e : Stage} {f : Function} : value e (.function f) ↔ env e f.closure ∧
    routine f.routine
  method {e : Stage} {cls : Class} {name : String} {f : Function} :
    value e (.class cls) → cls.findMethod? name = some f → value e (.function f)
  owner {e : Stage} {object : Instance} : value e (.instance object) → value e (.class object.cls)
  current {e : Stage} {m : Machine} : state e m → env e m.env
  store {e : Stage} {m : Machine} : state e m → m.store.All (value e)
  move {e : Stage} {m m' : Machine} :
    state e m → m'.store = m.store → m'.globals = m.globals → env e m'.env → state e m'
  bind {e : Stage} {m : Machine} {v : Value} (id : FrameId) (name : String) :
    state e m → value e v → state e { m with store := m.store.bind id name v }
  setField {e : Stage} {m : Machine} {v : Value} (id : InstanceId) (name : String) :
    state e m → value e v → state e { m with store := m.store.setField id name v }
  addIdentity {e : Stage} {m : Machine} :
    state e m → ∃ e', e ≤ e' ∧ state e' { m with store := m.store.addIdentity }
  addFrame {e : Stage} {m : Machine} {outer : Env} {bindings : Bindings Value} :
    state e m → env e outer →
    (∀ name v, bindings.find? name = some v → value e v) →
    ∃ e', e ≤ e' ∧ state e' { m with store := m.store.addFrame bindings } ∧
      env e' ⟨m.store.frames.size, outer.chain⟩
  addInstance {e : Stage} {m : Machine} {cls : Class} : state e m → value e (.class cls) →
    ∃ e', e ≤ e' ∧ state e' { m with store := m.store.addInstance } ∧
      value e' (.instance ⟨m.store.fields.size, cls⟩)

abbrev Eval.Anything : α → Prop := fun _ => True

namespace Invariant

open Eval (Anything)

section Definitions

variable (inv : Invariant Stage limit)

def Given (e : Stage) : Task → Prop
  | .expr _ | .exprs _ => True
  | .call callee args _ => inv.value e callee ∧ ∀ arg ∈ args, inv.value e arg
  | .apply f args => inv.value e (.function f) ∧ ∀ arg ∈ args, inv.value e arg
  | .instantiate cls args => inv.value e (.class cls) ∧ ∀ arg ∈ args, inv.value e arg
  | .stmt s | .loop _ s => ∀ routine ∈ s.routines, inv.routine routine
  | .stmts body => ∀ routine ∈ Stmt.routinesAll body, inv.routine routine

def FlowsTo (e : Stage) : Flow → Prop
  | .next => True
  | .return v => inv.value e v

def Yields : (task : Task) → Stage → task.Result → Prop
  | .expr _, e, v | .call .., e, v | .apply .., e, v | .instantiate .., e, v => inv.value e v
  | .exprs _, e, values => ∀ v ∈ values, inv.value e v
  | .stmt _, e, flow | .loop .., e, flow | .stmts _, e, flow => inv.FlowsTo e flow

/-- The step leads from one stage to another, however it ends, and to a result of which something
holds. -/
def Ends (e e' : Stage) (good : Stage → α → Prop) (x : Eval α) (m : Machine) : Prop :=
  e ≤ e' ∧ Meets x m (fun a m' => inv.state e' m' ∧ good e' a) fun _ m' => inv.state e' m'

inductive Spans (first last : Stage) (a : Activity) : Prop where
  | intro (e e' : Stage) : first ≤ e → e' ≤ last → inv.state e a.machine → inv.Given e a.task →
    inv.Ends e e' (inv.Yields a.task) (a.task.run limit a.fuel) a.machine → Spans first last a

inductive Runs : Stage → List Activity → Stage → Prop where
  | nil {e e' : Stage} : e ≤ e' → Runs e [] e'
  | cons {e e₁ e₂ : Stage} {part : Activity} {parts : List Activity} :
    (∀ b, part.Reaches limit b → inv.Spans e e₁ b) → Runs e₁ parts e₂ → Runs e (part :: parts) e₂

/-- From a state at the stage, the step leads to a later stage, and the parts that it starts take
place in between. -/
def Keeps (e : Stage) (parts : List Activity) (good : Stage → α → Prop) (x : Eval α)
    (m : Machine) : Prop :=
  inv.state e m → (∀ part ∈ parts, inv.occurs part) → ∃ e', inv.Ends e e' good x m ∧
    inv.Runs e parts e'

/-- The steps of a class declaration keep the invariant too. -/
def KeepsClasses : Prop :=
  ∀ ⦃e fuel m name superclass methods⦄, inv.occurs
    ⟨fuel + 1, .stmt (.class name superclass methods), m⟩ →
    (∀ routine ∈ methods, inv.routine routine) →
    inv.Keeps e [] (fun _ => Anything) (Eval.declareClass name superclass methods) m

end Definitions

variable {inv : Invariant Stage limit} {e e' e₁ e₂ : Stage}

/-- A state that differs in nothing that is made. -/
theorem stay (here : inv.state e m) (store : m'.store = m.store) (globals : m'.globals = m.globals)
    (env : m'.env = m.env) : inv.state e m' :=
  inv.move here store globals (env ▸ inv.current here)

theorem value_nil : inv.value e .nil :=
  inv.calculated e (show IsCalculated (.ok .nil) from trivial)

theorem Spans.le {a : Activity} (spans : inv.Spans e e' a) : e ≤ e' := by
  obtain ⟨_, _, first, last, _, _, ends⟩ := spans
  exact first.trans (ends.1.trans last)

theorem Spans.mono {a : Activity} (spans : inv.Spans e₁ e₂ a) (earlier : e ≤ e₁) (later : e₂ ≤ e') :
    inv.Spans e e' a := by
  obtain ⟨_, _, first, last, here, given, ends⟩ := spans
  exact ⟨_, _, earlier.trans first, last.trans later, here, given, ends⟩

namespace Runs

variable {parts others : List Activity}

theorem le (runs : inv.Runs e parts e') : e ≤ e' := by
  induction runs with
  | nil le => exact le
  | cons spans _ inductionHypothesis => exact (spans _ .refl).le.trans inductionHypothesis

theorem append (first : inv.Runs e parts e₁) (second : inv.Runs e₁ others e₂) :
    inv.Runs e (parts ++ others) e₂ := by
  induction first with
  | nil le =>
    cases second with
    | nil le' => exact .nil (le.trans le')
    | cons spans rest => exact .cons (fun b reaches => (spans b reaches).mono le le_rfl) rest
  | cons spans _ inductionHypothesis => exact .cons spans (inductionHypothesis second)

theorem spans (runs : inv.Runs e parts e') {part b : Activity} (member : part ∈ parts)
    (reaches : part.Reaches limit b) : inv.Spans e e' b := by
  induction runs with
  | nil => cases member
  | cons first rest inductionHypothesis =>
    rcases List.mem_cons.mp member with rfl | later
    · exact (first b reaches).mono le_rfl rest.le
    · exact (inductionHypothesis later).mono (first _ .refl).le le_rfl

/-- What an earlier one reaches has ended when what a later one reaches starts. -/
theorem pairwise (runs : inv.Runs e parts e') :
    parts.Pairwise fun first second => ∀ b c, first.Reaches limit b → second.Reaches limit c →
      ∃ between, inv.Spans e between b ∧ inv.Spans between e' c := by
  induction runs with
  | nil => exact .nil
  | cons spans rest inductionHypothesis =>
    refine .cons (fun second member b c inFirst inSecond => ?_) (inductionHypothesis.imp ?_)
    · exact ⟨_, spans b inFirst, rest.spans member inSecond⟩
    · intro first second order b c inFirst inSecond
      obtain ⟨between, earlier, later⟩ := order b c inFirst inSecond
      exact ⟨between, earlier.mono (spans _ .refl).le le_rfl, later⟩

end Runs

/-! ## Steps -/

namespace Keeps

variable {parts : List Activity} {good : Stage → α → Prop} {good' : Stage → β → Prop} {x : Eval α}

/-- A step that starts nothing. -/
theorem step (ends : inv.state e m → ∃ e', inv.Ends e e' good x m) : inv.Keeps e [] good x m := by
  intro here _
  obtain ⟨e', ends⟩ := ends here
  exact ⟨e', ends, .nil ends.1⟩

/-- A step that makes nothing either. -/
theorem silent (meets : inv.state e m →
      Meets x m (fun a m' => inv.state e m' ∧ good e a) fun _ m' => inv.state e m') :
    inv.Keeps e [] good x m :=
  step fun here => ⟨e, le_rfl, meets here⟩

protected theorem pure {a : α} (holds : good e a) : inv.Keeps e [] good (pure a) m :=
  silent fun here => ⟨here, holds⟩

theorem raise (cause : RuntimeError.Cause) (span : Span) :
    inv.Keeps e [] good (Eval.raise cause span) m :=
  silent fun here => here

/-- Two steps one after the other. The second one goes on from the stage at which the first one
ends. -/
theorem bind {k : α → Eval β} {started : α → Machine → List Activity}
    (first : inv.Keeps e parts good x m)
    (second : ∀ a m' e', x m = .ok a m' → e ≤ e' → good e' a →
      inv.Keeps e' (started a m') good' (k a) m') :
    inv.Keeps e (parts ++ Activity.behind (x m) started) good' (x >>= k) m := by
  intro here occurs
  obtain ⟨occurs, others⟩ := List.forall_mem_append.mp occurs
  obtain ⟨e₁, ends, runs⟩ := first here occurs
  cases done : x m with
  | error i m₁ =>
    -- Nothing is started behind a step that fails.
    refine ⟨e₁, ⟨ends.1, .of_error (bind_of_error done) (ends.2.error_of_eq done)⟩, ?_⟩
    simpa [Activity.behind] using runs
  | ok a m₁ =>
    obtain ⟨there, holds⟩ := ends.2.ok_of_eq done
    rw [done] at others
    obtain ⟨e₂, ends', runs'⟩ := second a m₁ e₁ done ends.1 holds there others
    refine ⟨e₂, ⟨ends.1.trans ends'.1, ?_⟩, runs.append runs'⟩
    rw [Meets, bind_of_ok done]
    exact ends'.2

/-- A step that starts nothing, before one that does. -/
theorem behind {k : α → Eval β} {started : α → Machine → List Activity}
    (first : inv.Keeps e [] good x m)
    (second : ∀ a m' e', x m = .ok a m' → e ≤ e' → good e' a →
      inv.Keeps e' (started a m') good' (k a) m') :
    inv.Keeps e (Activity.behind (x m) started) good' (x >>= k) m :=
  bind first second

/-- A step that starts nothing, behind one that does. -/
theorem andThen {k : α → Eval β} (first : inv.Keeps e parts good x m)
    (second : ∀ a m' e', x m = .ok a m' → e ≤ e' → good e' a → inv.Keeps e' [] good' (k a) m') :
    inv.Keeps e parts good' (x >>= k) m := by
  have none : Activity.behind (x m) (fun _ _ => []) = [] := by cases x m <;> rfl
  have both : inv.Keeps e (parts ++ Activity.behind (x m) fun _ _ => []) good' (x >>= k) m :=
    bind first second
  rwa [none, List.append_nil] at both

/-- A step that looks at the state first. -/
theorem get {k : Machine → Eval α} (second : inv.state e m → inv.Keeps e parts good (k m) m) :
    inv.Keeps e parts good (MonadState.get >>= k) m :=
  fun here => second here here

/-- A step of which more can be said in a state at the stage. -/
theorem assuming (step : inv.state e m → inv.Keeps e parts good x m) : inv.Keeps e parts good x m :=
  fun here => step here here

theorem ite {condition : Prop} [Decidable condition] {others : List Activity} {y : Eval α}
    (yes : condition → inv.Keeps e parts good x m) (no : ¬condition → inv.Keeps e others good y m) :
    inv.Keeps e (if condition then parts else others) good (if condition then x else y) m := by
  by_cases holds : condition
  · rw [if_pos holds, if_pos holds]
    exact yes holds
  · rw [if_neg holds, if_neg holds]
    exact no holds

/-- A step that is taken only if a condition holds, with a fault otherwise. -/
theorem provided {condition : Prop} [Decidable condition] [Decidable (¬condition)] {y : Eval α}
    (no : inv.Keeps e [] good x m) (yes : inv.Keeps e parts good y m) :
    inv.Keeps e (if condition then parts else []) good (if ¬condition then x else y) m := by
  by_cases holds : condition
  · rw [if_pos holds, if_neg (not_not.mpr holds)]
    exact yes
  · rw [if_neg holds, if_pos holds]
    exact no

/-- A step in another state of the same store, which leads back. -/
theorem aside {y : Eval α} {away : Machine} (step : inv.Keeps e parts good x away)
    (back : Machine → Machine) (there : inv.state e m → inv.state e away)
    (returns : ∀ {e' m'}, inv.state e m → e ≤ e' → inv.state e' m' → inv.state e' (back m'))
    (meets : ∀ {ok : α → Machine → Prop} {error : Interruption → Machine → Prop},
      Meets x away (fun a m' => ok a (back m')) (fun i m' => error i (back m')) →
        Meets y m ok error) :
    inv.Keeps e parts good y m := by
  intro here occurs
  obtain ⟨e', ends, runs⟩ := step (there here) occurs
  refine ⟨e', ⟨ends.1, meets ?_⟩, runs⟩
  exact ends.2.mono (fun _ _ _ done => ⟨returns here ends.1 done.1, done.2⟩)
    fun _ _ _ stopped => returns here ends.1 stopped

theorem within {env : Env} (around : inv.env e env)
    (step : inv.Keeps e parts good x { m with env := env }) :
    inv.Keeps e parts good (Eval.within env x) m := by
  refine step.aside (fun m' => { m' with env := m.env }) (fun here => inv.move here rfl rfl around)
    (fun here le there => ?_) Eval.meets_within.mpr
  have outside : inv.env _ m.env := inv.env_mono (inv.current here) le
  exact inv.move there rfl rfl outside

theorem counted {limit' : Nat} (span : Span)
    (step : inv.Keeps e parts good x { m with callDepth := m.callDepth + 1 }) :
    inv.Keeps e (if limit' ≤ m.callDepth then [] else parts) good
      (Eval.counted limit' span x) m := by
  by_cases full : limit' ≤ m.callDepth
  · rw [if_pos full]
    refine silent fun here => ?_
    rw [Eval.meets_counted, if_pos full]
    exact here
  · rw [if_neg full]
    refine step.aside (fun m' => { m' with callDepth := m'.callDepth - 1 })
      (fun here => stay here rfl rfl rfl) (fun _ _ there => stay there rfl rfl rfl) fun meets => ?_
    rw [Eval.meets_counted, if_neg full]
    exact meets

theorem orFault {found : Option α} {error : RuntimeError} (holds : ∀ a, found = some a → good e a) :
    inv.Keeps e [] good (Eval.ofExcept (orFault found error)) m := by
  cases found with
  | none => exact silent fun here => here
  | some a => exact .pure (holds a rfl)

theorem ofCause {result : Except RuntimeError.Cause Value} (span : Span)
    (calculated : IsCalculated result) :
    inv.Keeps e [] inv.value (Eval.ofCause result span) m := by
  cases result with
  | error cause => exact .raise cause span
  | ok v => exact .pure (inv.calculated e calculated)

/-! ## The steps of a machine -/

theorem freshIdentity : inv.Keeps e [] (fun _ => Anything) Eval.freshIdentity m := by
  refine step fun here => ?_
  obtain ⟨e', le, there⟩ := inv.addIdentity here
  exact ⟨e', le, there, trivial⟩

theorem enclose {outer : Env} {bindings : Bindings Value} (around : inv.env e outer)
    (values : ∀ name v, bindings.find? name = some v → inv.value e v) :
    inv.Keeps e [] inv.env (Eval.enclose outer bindings) m := by
  refine step fun here => ?_
  obtain ⟨e', le, there, inside⟩ := inv.addFrame here around values
  exact ⟨e', le, there, inside⟩

theorem encloseOne {outer : Env} (around : inv.env e outer) (name : String) {v : Value}
    (new : inv.value e v) :
    inv.Keeps e [] inv.env (Eval.enclose outer (Bindings.empty.insert name v)) m := by
  refine .enclose around fun key found there => ?_
  rw [Bindings.find?_insert] at there
  split at there
  · cases there
    exact new
  · cases there

theorem define (name : String) {v : Value} (new : inv.value e v) :
    inv.Keeps e [] (fun _ => Anything) (Eval.define name v) m :=
  silent fun here => ⟨inv.bind _ name here new, trivial⟩

theorem lookup (i : ExprId) (name : String) (span : Span) :
    inv.Keeps e [] inv.value (Eval.lookup i name span) m := by
  refine .get fun here => ?_
  split
  · exact .orFault fun _ => (inv.store here).getAt?
  · exact .orFault fun _ => (inv.store here).get?

theorem assign (i : ExprId) (name : Ident) {v : Value} (new : inv.value e v) :
    inv.Keeps e [] (fun _ => Anything) (Eval.assign i name v) m := by
  have target : inv.Keeps e [] (fun _ => Anything) (Eval.assignmentTarget i name) m := by
    refine .get fun _ => ?_
    split
    · exact .orFault fun _ _ => trivial
    · exact .orFault fun _ _ => trivial
  rw [Eval.assign_eq]
  exact target.andThen fun frame _ _ _ le _ =>
    silent fun here => ⟨inv.bind frame name.text here (inv.value_mono new le), trivial⟩

theorem print (line : String) (span : Span) :
    inv.Keeps e [] (fun _ => Anything) (Eval.print line span) m := by
  refine .get fun _ => ?_
  split
  · exact silent fun here => ⟨stay here rfl rfl rfl, trivial⟩
  · exact .raise _ span

theorem readClock : inv.Keeps e [] (fun _ => Anything) Eval.readClock m :=
  silent fun here => ⟨stay here rfl rfl rfl, trivial⟩

theorem newInstance {cls : Class} (known : inv.value e (.class cls)) :
    inv.Keeps e [] (fun e object => inv.value e (.instance object)) (Eval.newInstance cls) m := by
  refine step fun here => ?_
  obtain ⟨e', le, there, new⟩ := inv.addInstance here known
  exact ⟨e', le, there, new⟩

theorem setField (object : Instance) (name : String) {v : Value} (new : inv.value e v) :
    inv.Keeps e [] (fun _ => Anything) (Eval.setField object name v) m :=
  silent fun here => ⟨inv.setField object.id name here new, trivial⟩

theorem bindMethod {method : Function} {object : Instance} (known : inv.value e (.function method))
    (owner : inv.value e (.instance object)) :
    inv.Keeps e [] (fun e f => inv.value e (.function f)) (Eval.bindMethod method object) m := by
  obtain ⟨around, text⟩ := inv.function_iff.mp known
  exact (encloseOne around "this" owner).andThen fun _ _ _ _ _ inside =>
    freshIdentity.andThen fun _ _ _ _ le _ =>
      .pure (inv.function_iff.mpr ⟨inv.env_mono inside le, text⟩)

theorem tieMethod {cls : Class} {object : Instance} (name : String) (span : Span)
    (known : inv.value e (.class cls)) (owner : inv.value e (.instance object)) :
    inv.Keeps e [] inv.value (Eval.tieMethod cls object name span) m := by
  unfold Eval.tieMethod
  cases found : cls.findMethod? name with
  | none => exact .raise _ span
  | some method =>
    exact (bindMethod (inv.method known found) owner).andThen fun _ _ _ _ _ tied => .pure tied

theorem getProperty {object : Instance} (name : String) (span : Span)
    (known : inv.value e (.instance object)) :
    inv.Keeps e [] inv.value (Eval.getProperty object name span) m := by
  refine .get fun here => ?_
  cases field : (m.store.fieldsOf object.id).find? name with
  | some v => exact .pure ((inv.store here).fields _ _ _ field)
  | none => exact tieMethod name span (inv.owner known) known

theorem superMethod (i : ExprId) (span : Span) (method : Ident) :
    inv.Keeps e [] inv.value (Eval.superMethod i span method) m := by
  refine .get fun here => ?_
  rcases m.depths[i]? with _ | _ | distance
  · exact .raise _ span
  · exact .raise _ span
  · refine andThen (.orFault fun _ => (inv.store here).getAt?) fun v m₁ e₁ _ le known => ?_
    cases v with
    | «class» superclass =>
      refine andThen (.orFault fun _ there => inv.value_mono ((inv.store here).getAt? there) le)
        fun v m₂ e₂ _ le owner => ?_
      cases v with
      | «instance» object => exact tieMethod method.text method.span (inv.value_mono known le) owner
      | _ => exact .raise _ span
    | _ => exact .raise _ span

theorem declareFunction {routine : Routine (List Stmt)} (text : inv.routine routine) :
    inv.Keeps e [] (fun _ => Anything) (Eval.declareFunction routine) m :=
  freshIdentity.andThen fun _ _ _ _ _ _ => .get fun here =>
    .define routine.name.text (inv.function_iff.mpr ⟨inv.current here, text⟩)

theorem superclassOf (superclass : Option Reference) :
    inv.Keeps e [] (fun e found => ∀ cls ∈ found, inv.value e (.class cls))
      (Eval.superclassOf superclass) m := by
  cases superclass with
  | none => exact .pure (by simp)
  | some reference =>
    refine (lookup reference.id reference.name.text reference.name.span).andThen
      fun v _ _ _ _ known => ?_
    cases v with
    | «class» superclass => exact .pure (by rintro _ ⟨⟩; exact known)
    | _ => exact .raise _ reference.name.span

/-- The methods of a class are made in one environment, and the one named `init` as the
initializer. -/
theorem makeMethods {closure : Env} (routines : List (Routine (List Stmt)))
    {methods : Bindings Function}
    (known : ∀ name f, methods.find? name = some f →
      f.closure = closure ∧ f.isInitializer = decide (name = "init")) :
    inv.Keeps e [] (fun _ made => ∀ name f, made.find? name = some f →
        f.closure = closure ∧ f.isInitializer = decide (name = "init"))
      (Eval.makeMethods closure routines methods) m := by
  induction routines generalizing e m methods with
  | nil => exact .pure known
  | cons routine rest inductionHypothesis =>
    refine freshIdentity.andThen fun _ _ _ _ _ _ => inductionHypothesis fun name f found => ?_
    rw [Bindings.find?_insert] at found
    split at found
    · rename_i same
      cases found
      rw [same]
      exact ⟨rfl, rfl⟩
    · exact known name f found

end Keeps

section Classes

variable (new : ∀ {e e' : Stage} {m : Machine} {cls : Class}, inv.state e m → e ≤ e' →
  inv.state e' { m with store := m.store.addIdentity } → cls.own.identity = m.store.identities →
  (∀ parent ∈ cls.superclass?, inv.value e (.class parent)) →
  (∀ name f, cls.own.methods.find? name = some f →
    inv.env e f.closure ∧ f.isInitializer = decide (name = "init")) → inv.value e' (.class cls))
include new

theorem keeps_completeClass (name : Ident) (env : Env) {closure : Env} (around : inv.env e closure)
    {inherited : List ClassLayer}
    (above : ∀ own, ∀ parent ∈ Class.superclass? ⟨own, inherited⟩, inv.value e (.class parent))
    (methods : List (Routine (List Stmt))) :
    inv.Keeps e [] (fun _ => Anything)
      (Eval.completeClass name env closure inherited methods) m := by
  refine (Keeps.makeMethods methods (by simp)).andThen fun made m₁ e₁ _ le own =>
    .assuming fun before => ?_
  refine Keeps.freshIdentity.andThen fun identity m₂ e₂ fresh later _ => .get fun after => ?_
  have known : inv.value e₂ (.class ⟨⟨identity, name.text, made⟩, inherited⟩) := by
    cases fresh
    refine new before later after rfl (fun parent found => inv.value_mono (above _ parent found) le)
      fun key f found => ?_
    obtain ⟨rfl, initializes⟩ := own key f found
    exact ⟨inv.env_mono around le, initializes⟩
  have target : inv.Keeps e₂ [] (fun _ => Anything)
      (Eval.ofExcept (m₂.store.target env name.text name.span)) m₂ := .orFault fun _ _ => trivial
  exact target.andThen fun frame _ _ _ le _ =>
    .silent fun here => ⟨inv.bind frame name.text here (inv.value_mono known le), trivial⟩

/-- The steps of a class declaration keep an invariant that the new class keeps. -/
theorem keepsClasses : inv.KeepsClasses := by
  intro e fuel m name superclass methods _ _
  rw [Eval.declareClass_eq]
  refine (Keeps.superclassOf superclass).andThen fun found m₁ e₁ _ _ known => ?_
  refine (Keeps.define name.text value_nil).andThen fun _ m₂ e₂ _ le _ => .get fun here => ?_
  cases found with
  | none =>
    exact keeps_completeClass new name m₂.env (inv.current here)
      (by simp [Class.superclass?]) methods
  | some parent =>
    have above := inv.value_mono (known parent rfl) le
    refine (Keeps.encloseOne (inv.current here) "super" above).andThen
      fun closure _ _ _ le inside => ?_
    refine keeps_completeClass new name m₂.env inside (fun _ => ?_) methods
    rintro cls ⟨⟩
    exact inv.value_mono above le

end Classes

/-! ## Whole tasks -/

/-- From a state at a stage at which there can be what it is given, the task takes place up to
another stage. -/
def KeepsTask (inv : Invariant Stage limit) (fuel : Nat) (task : Task) : Prop :=
  ∀ ⦃e m⦄, inv.Given e task → inv.Keeps e [⟨fuel, task, m⟩] (inv.Yields task)
    (task.run limit fuel) m

/-- In between, its parts take place one after the other. -/
def KeepsParts (inv : Invariant Stage limit) (fuel : Nat) (task : Task) : Prop :=
  ∀ ⦃e m⦄, inv.occurs ⟨fuel, task, m⟩ → inv.Given e task →
    inv.Keeps e (Activity.parts limit ⟨fuel, task, m⟩) (inv.Yields task) (task.run limit fuel) m

/-- What a task reaches is itself, or reached from one of its parts. -/
theorem KeepsParts.whole {task : Task} (parts : inv.KeepsParts fuel task) :
    inv.KeepsTask fuel task := by
  intro e m given here occurs
  have occurs := List.forall_mem_singleton.mp occurs
  obtain ⟨e', ends, runs⟩ := parts occurs given here fun part member =>
    inv.starts occurs (Activity.starts_of_mem_parts member)
  refine ⟨e', ends, .cons (fun b reaches => ?_) (.nil le_rfl)⟩
  rcases Relation.ReflTransGen.cases_head reaches with rfl | ⟨part, starts, rest⟩
  · exact ⟨e, e', le_rfl, le_rfl, here, given, ends⟩
  · exact runs.spans (Activity.mem_parts_of_starts starts) rest

section Successor

variable (kept : ∀ task, inv.KeepsTask fuel task)
include kept

theorem keeps_expr (expr : Expr) :
    inv.Keeps e (Activity.exprParts limit fuel m expr) inv.value
      (Eval.expr limit (fuel + 1) expr) m := by
  have keeps (part : Expr) {e : Stage} {m : Machine} : inv.Keeps e [⟨fuel, .expr part, m⟩] inv.value
      (Eval.expr limit fuel part) m := kept (.expr part) trivial
  cases expr with
  | literal i span value => cases value <;> exact .pure (inv.calculated e trivial)
  | ref target => exact .lookup target.id target.name.text target.name.span
  | assign i name value =>
    exact (keeps value).andThen fun v _ _ _ _ known =>
      (Keeps.assign i name known).andThen fun _ _ _ _ le _ => .pure (inv.value_mono known le)
  | binary i span op left right =>
    exact (keeps left).bind fun v _ _ _ _ _ => (keeps right).andThen fun w _ _ _ _ _ =>
      .ofCause span (op.isCalculated_apply v w)
  | logical i span op left right =>
    exact (keeps left).bind fun v _ _ _ _ known => .ite (fun _ => .pure known) fun _ => keeps right
  | unary i span op operand =>
    exact (keeps operand).andThen fun v _ _ _ _ _ => .ofCause span (op.isCalculated_apply v)
  | call i span callee args =>
    refine (keeps callee).bind fun v _ _ _ _ known => ?_
    refine (kept (.exprs args) trivial).bind fun vs _ _ _ le others => ?_
    exact .counted span (kept (.call v vs span) ⟨inv.value_mono known le, others⟩)
  | group i span inner => exact keeps inner
  | get i object name =>
    refine (keeps object).andThen fun v _ _ _ _ known => ?_
    cases v with
    | «instance» object => exact .getProperty name.text name.span known
    | _ => exact .raise _ name.span
  | set i object name value =>
    refine (keeps object).bind fun v _ _ _ _ _ => ?_
    cases v with
    | «instance» object =>
      exact (keeps value).andThen fun w _ _ _ _ known =>
        (Keeps.setField object name.text known).andThen fun _ _ _ _ le _ =>
          .pure (inv.value_mono known le)
    | _ => exact .raise _ name.span
  | this i span => exact .lookup i "this" span
  | super i span method => exact .superMethod i span method

theorem keepsParts_exprs (es : List Expr) : inv.KeepsParts (fuel + 1) (.exprs es) := by
  intro e m _ _
  cases es with
  | nil => exact .pure (List.forall_mem_nil _)
  | cons first rest =>
    refine (kept (.expr first) trivial).bind fun v _ _ _ _ known => ?_
    exact (kept (.exprs rest) trivial).andThen fun vs _ _ _ le others =>
      .pure (List.forall_mem_cons.mpr ⟨inv.value_mono known le, others⟩)

theorem keepsParts_call (callee : Value) (args : List Value) (span : Span) :
    inv.KeepsParts (fuel + 1) (.call callee args span) := by
  intro e m _ given
  cases callee with
  | nil | bool | number | string | «instance» => exact .raise _ span
  | native builtin =>
    change inv.Keeps e [] inv.value (if _ then _ else _) m
    split
    · exact .raise _ span
    · exact Keeps.readClock.andThen fun _ _ _ _ _ _ => .pure (inv.calculated _ trivial)
  | function f => exact .provided (.raise _ span) (kept (.apply f args) given)
  | «class» cls => exact .provided (.raise _ span) (kept (.instantiate cls args) given)

theorem keepsParts_apply (f : Function) (args : List Value) :
    inv.KeepsParts (fuel + 1) (.apply f args) := by
  intro e m _ ⟨known, others⟩
  obtain ⟨around, text⟩ := inv.function_iff.mp known
  rw [Activity.parts, Activity.taskParts]
  refine (Keeps.enclose around fun _ v found => others v (mem_of_bindArguments found)).behind
    fun env m₁ e₁ _ _ inside => ?_
  refine (Keeps.within inside (kept (.stmts f.routine.body) (inv.inner text))).andThen
    fun flow m₂ e₂ _ _ result => ?_
  split
  · exact .get fun here => .orFault fun _ => (inv.store here).getAt?
  · cases flow with
    | next => exact .pure (inv.calculated _ trivial)
    | «return» v => exact .pure result

theorem keepsParts_instantiate (cls : Class) (args : List Value) :
    inv.KeepsParts (fuel + 1) (.instantiate cls args) := by
  intro e m _ ⟨known, others⟩
  rw [Activity.parts, Activity.taskParts]
  refine (Keeps.newInstance known).behind fun object m₁ e₁ _ le new => ?_
  cases declared : cls.initializer? with
  | none => exact .pure new
  | some method =>
    refine (Keeps.bindMethod (inv.value_mono (inv.method known declared) le) new).behind
      fun bound m₂ e₂ _ later tied => ?_
    have given : inv.Given e₂ (.apply bound args) :=
      ⟨tied, fun arg member => inv.value_mono (others arg member) (le.trans later)⟩
    exact (kept (.apply bound args) given).andThen fun _ _ _ _ last _ =>
      .pure (inv.value_mono new (later.trans last))

theorem keeps_stmt (classes : inv.KeepsClasses) (s : Stmt)
    (occurs : inv.occurs ⟨fuel + 1, .stmt s, m⟩)
    (given : ∀ routine ∈ s.routines, inv.routine routine) :
    inv.Keeps e (Activity.stmtParts limit fuel m s) inv.FlowsTo
      (Eval.stmt limit (fuel + 1) s) m := by
  have keeps (part : Expr) {e : Stage} {m : Machine} : inv.Keeps e [⟨fuel, .expr part, m⟩] inv.value
      (Eval.expr limit fuel part) m := kept (.expr part) trivial
  cases s with
  | expr value => exact (keeps value).andThen fun _ _ _ _ _ _ => .pure trivial
  | print value =>
    exact (keeps value).andThen fun v _ _ _ _ _ =>
      (Keeps.print v.text value.span).andThen fun _ _ _ _ _ _ => .pure trivial
  | var name initial =>
    have define {v : Value} {e : Stage} {m : Machine} (known : inv.value e v) :
        inv.Keeps e [] inv.FlowsTo (do Eval.define name.text v; return .next) m :=
      (Keeps.define name.text known).andThen fun _ _ _ _ _ _ => .pure trivial
    cases initial with
    | none => exact define value_nil
    | some initial => exact (keeps initial).andThen fun v _ _ _ _ known => define known
  | block body =>
    rw [Activity.stmtParts]
    refine .get fun here => ?_
    refine (Keeps.enclose (inv.current here) (by simp)).behind fun env m₁ e₁ _ _ inside => ?_
    exact .within inside (kept (.stmts body) given)
  | «if» condition yes no =>
    refine (keeps condition).bind fun v m₁ e₁ _ _ _ => ?_
    cases no with
    | none => exact .ite (fun _ => kept (.stmt yes) given) fun _ => .pure trivial
    | some no =>
      obtain ⟨left, right⟩ := List.forall_mem_append.mp given
      exact .ite (fun _ => kept (.stmt yes) left) fun _ => kept (.stmt no) right
  | «while» condition body => exact kept (.loop condition body) given
  | «fun» routine =>
    exact (Keeps.declareFunction (given routine List.mem_cons_self)).andThen fun _ _ _ _ _ _ =>
      .pure trivial
  | «return» keyword value =>
    cases value with
    | none => exact .pure (value_nil (e := e))
    | some value => exact (keeps value).andThen fun v _ _ _ _ known => .pure known
  | «class» name superclass methods =>
    exact (classes occurs given).andThen fun _ _ _ _ _ _ => .pure trivial

theorem keepsParts_loop (condition : Expr) (body : Stmt) :
    inv.KeepsParts (fuel + 1) (.loop condition body) := by
  intro e m _ given
  refine (kept (.expr condition) trivial).bind fun v m₁ e₁ _ _ _ =>
    .ite (fun _ => ?_) fun _ => .pure trivial
  refine (kept (.stmt body) given).bind fun flow m₂ e₂ _ _ known => ?_
  cases flow with
  | next => exact kept (.loop condition body) given
  | «return» v => exact .pure known

theorem keepsParts_stmts (body : List Stmt) : inv.KeepsParts (fuel + 1) (.stmts body) := by
  intro e m _ given
  cases body with
  | nil => exact .pure trivial
  | cons s rest =>
    obtain ⟨head, others⟩ := List.forall_mem_append.mp given
    refine (kept (.stmt s) head).bind fun flow m₁ e₁ _ _ known => ?_
    cases flow with
    | next => exact kept (.stmts rest) others
    | «return» v => exact .pure known

end Successor

/-- Every task keeps the invariant. The induction is on the bound on the recursion, which each part
has one less of. -/
theorem keepsParts (classes : inv.KeepsClasses) (fuel : Nat) (task : Task) :
    inv.KeepsParts fuel task := by
  induction fuel generalizing task with
  | zero =>
    refine fun e m _ _ => .silent fun here => ?_
    cases task <;> exact here
  | succ fuel inductionHypothesis =>
    have kept (task : Task) : inv.KeepsTask fuel task := (inductionHypothesis task).whole
    cases task with
    | expr expr => exact fun _ _ _ _ => keeps_expr kept expr
    | exprs es => exact keepsParts_exprs kept es
    | call callee args span => exact keepsParts_call kept callee args span
    | apply f args => exact keepsParts_apply kept f args
    | instantiate cls args => exact keepsParts_instantiate kept cls args
    | stmt s => exact fun _ _ occurs given => keeps_stmt kept classes s occurs given
    | loop condition body => exact keepsParts_loop kept condition body
    | stmts body => exact keepsParts_stmts kept body

theorem keepsTask (classes : inv.KeepsClasses) (fuel : Nat) (task : Task) :
    inv.KeepsTask fuel task :=
  (keepsParts classes fuel task).whole

end Invariant

end Lox
