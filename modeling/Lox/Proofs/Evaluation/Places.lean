import Lox.Proofs.Evaluation.Control
import Lox.Proofs.Evaluation.Persistence
import Lox.Proofs.Scope.Renaming

set_option autoImplicit false

/-!
# Places in the body of a function

What is executed inside the body of a function, whenever that happens: the body itself with all that
its text leads to, calls left out, and the bodies of the functions that are declared there, even if
they are called after the function has returned. Such a place stands in some scopes inside those
around the function, and its environment has one frame for each of these scopes, outside of which
lies the environment that the function was made in.
-/

namespace Lox

open Scope (Names Rules Resolution mark locate?)

namespace Activity

inductive Makes : Activity → Function → Prop where
  | intro {fuel : Nat} {m m' : Machine} {routine : Routine (List Stmt)} {f : Function}
      (executed : Eval.declareFunction routine m = .ok () m')
      (bound : (m'.store.frame m'.env.frame).find? routine.name.text = some (.function f)) :
    Makes ⟨fuel + 1, .stmt (.fun routine), m⟩ f

/-- The activity takes place in the body of a function. -/
inductive RunsIn (limit : Nat) (occurs : Activity → Prop) : Function → Activity → Prop where
  | body {fuel : Nat} {m : Machine} {f : Function} {args : List Value} {b : Activity}
      (called : occurs ⟨fuel, .apply f args, m⟩)
      (starts : Starts limit ⟨fuel, .apply f args, m⟩ b) :
    RunsIn limit occurs f b
  | part {f : Function} {a b : Activity} (inside : RunsIn limit occurs f a)
      (starts : Starts limit a b)
      (text : b.isCall = false) : RunsIn limit occurs f b
  | inner {f g : Function} {a b : Activity} (inside : RunsIn limit occurs f a) (made : a.Makes g)
      (within : RunsIn limit occurs g b) : RunsIn limit occurs f b

theorem RunsIn.occurs {limit : Nat} {occurs : Activity → Prop}
    (closed : ∀ {a b}, occurs a → a.Starts limit b → occurs b) {f : Function} {b : Activity}
    (runs : RunsIn limit occurs f b) : occurs b := by
  induction runs with
  | body called starts => exact closed called starts
  | part _ starts _ inductionHypothesis => exact closed inductionHypothesis starts
  | inner _ _ _ _ inductionHypothesis => exact inductionHypothesis

def textPart? (limit : Nat) : List Nat → Activity → Option Activity
  | [], a => some a
  | number :: path, a =>
    ((a.parts limit)[number]?.filter fun b => !b.isCall).bind (textPart? limit path)

theorem RunsIn.textPart? {limit : Nat} {occurs : Activity → Prop} {f : Function} {a b : Activity}
    (inside : RunsIn limit occurs f a) {path : List Nat} (found : a.textPart? limit path = some b) :
    RunsIn limit occurs f b := by
  induction path generalizing a with
  | nil =>
    cases found
    exact inside
  | cons number path inductionHypothesis =>
    obtain ⟨part, filtered, rest⟩ := Option.bind_eq_some_iff.mp found
    obtain ⟨numbered, text⟩ := Option.filter_eq_some_iff.mp filtered
    have starts := mem_parts_iff.mp (List.mem_of_getElem? numbered)
    exact inductionHypothesis (inside.part starts (by simpa using text)) rest

/-- The function is made in the current environment. -/
theorem Makes.exists_routine {a : Activity} {f : Function} (makes : a.Makes f) :
    ∃ routine, a.task = .stmt (.fun routine) ∧
      f = ⟨a.machine.store.identities, routine, a.machine.env, false⟩ := by
  cases makes with
  | @intro fuel m m' routine f executed bound =>
    cases executed
    have found : ((m.store.addIdentity.bind m.env.frame routine.name.text
        (.function ⟨m.store.identities, routine, m.env, false⟩)).frame m.env.frame).find?
          routine.name.text = some (.function f) := bound
    rw [Store.find?_frame_bind] at found
    split at found
    · exact ⟨routine, rfl, (Value.function.inj (Option.some.inj found)).symm⟩
    · rename_i outside
      have allocated := Store.allocated_of_find? found
      exact absurd ⟨rfl, rfl, allocated⟩ outside

end Activity

/-! ## Scopes inside a function -/

namespace Scope

variable {inner outer : List Names} {name : String}

/-- No scope holds a reserved name. -/
def Unreserved (scopes : List Names) : Prop :=
  ∀ names ∈ scopes, ∀ name, IsReserved name → names.find? name = none

/-- Reserved names lie outside of scopes that have none. -/
theorem Unreserved.locate?_append (unreserved : Unreserved inner) (reserved : IsReserved name) :
    locate? (inner ++ outer) name =
      (locate? outer name).map fun found => (found.1 + inner.length, found.2) := by
  induction inner with
  | nil => simp
  | cons names rest inductionHypothesis =>
    obtain ⟨here, others⟩ := List.forall_mem_cons.mp unreserved
    rw [List.cons_append, locate?_cons_of_none (here name reserved), inductionHypothesis others,
      Option.map_map]
    rfl

theorem Unreserved.mark (unreserved : Unreserved inner) (plain : ¬IsReserved name)
    (complete : Bool) :
    Unreserved (mark inner name complete) := by
  cases inner with
  | nil => exact unreserved
  | cons names rest =>
    obtain ⟨here, others⟩ := List.forall_mem_cons.mp unreserved
    refine List.forall_mem_cons.mpr ⟨fun key reserved => ?_, others⟩
    have different : key ≠ name := by
      rintro rfl
      exact plain reserved
    rw [Bindings.find?_insert_of_ne names complete different]
    exact here key reserved

theorem mark_append (entered : inner ≠ []) (name : String) (complete : Bool) :
    mark (inner ++ outer) name complete = mark inner name complete ++ outer := by
  cases inner with
  | nil => exact absurd rfl entered
  | cons names rest => rfl

theorem length_mark (scopes : List Names) (name : String) (complete : Bool) :
    (mark scopes name complete).length = scopes.length := by
  cases scopes <;> rfl

theorem mark_ne_nil (entered : inner ≠ []) (name : String) (complete : Bool) :
    mark inner name complete ≠ [] := by
  cases inner with
  | nil => exact absurd rfl entered
  | cons names rest => exact List.cons_ne_nil _ _

end Scope

def Task.Obeys (rules : Rules) (scopes : List Names) : Task → Prop
  | .expr e => e.Obeys rules scopes
  | .exprs es => Expr.AllObey rules scopes es
  | .stmt s => s.Obeys rules scopes
  | .loop condition body =>
    condition.Obeys rules scopes ∧ body.declared? = none ∧ body.Obeys rules scopes
  | .stmts body => Stmt.AllObey rules scopes body
  | .call .. | .apply .. | .instantiate .. => False

namespace Activity

variable {limit : Nat} {r : Resolution} {outer inner : List Names} {closure : Env}
variable {frames : List FrameId} {a b : Activity}

/-- The activity stands in some scopes inside the outer ones, and has a frame for each of them
inside the environment of the function. -/
structure Placed (r : Resolution) (outer : List Names) (closure : Env) (inner : List Names)
    (frames : List FrameId) (a : Activity) : Prop where
  obeys : a.task.Obeys r.rules (inner ++ outer)
  chain : a.machine.env.chain = frames ++ closure.chain
  length : frames.length = inner.length
  unreserved : Scope.Unreserved inner
  entered : inner ≠ []

/-- In the same frames, with a name set in the innermost scope or not. -/
theorem Placed.mark (placed : a.Placed r outer closure inner frames) {name : String}
    {complete : Bool} (plain : ¬IsReserved name) (env : b.machine.env = a.machine.env)
    (obeys : b.task.Obeys r.rules (mark (inner ++ outer) name complete)) :
    ∃ inner frames, b.Placed r outer closure inner frames := by
  rw [Scope.mark_append placed.entered] at obeys
  refine ⟨_, frames, obeys, ?_, ?_, placed.unreserved.mark plain complete, ?_⟩
  · rw [env]
    exact placed.chain
  · rw [Scope.length_mark]
    exact placed.length
  · exact Scope.mark_ne_nil placed.entered name complete

/-- The parts of the text of a place are places too. -/
theorem Starts.placed (starts : Starts limit a b) (placed : a.Placed r outer closure inner frames)
    (text : b.isCall = false) : ∃ inner frames, b.Placed r outer closure inner frames := by
  have same (obeys : b.task.Obeys r.rules (inner ++ outer)) (env : b.machine.env = a.machine.env) :
      ∃ inner frames, b.Placed r outer closure inner frames := by
    refine ⟨inner, frames, obeys, ?_, placed.length, placed.unreserved, placed.entered⟩
    rw [env]
    exact placed.chain
  have expr {fuel : Nat} {e : Expr} {m m' : Machine} {value : Value}
      (done : Eval.expr limit fuel e m = .ok value m') : m'.env = m.env :=
    (((Task.expr e).steady limit fuel).of_ok done).env
  have stmt {fuel : Nat} {s : Stmt} {m m' : Machine} {flow : Flow}
      (done : Eval.stmt limit fuel s m = .ok flow m') : m'.env = m.env :=
    (((Task.stmt s).steady limit fuel).of_ok done).env
  have obeys := placed.obeys
  cases starts with
  | call => cases text
  | apply | instantiate | body | initializer => exact obeys.elim
  | assigned | binaryLeft | logicalLeft | callee | setObject | firstExpr | firstStmt
  | loopCondition =>
    exact same obeys.1 rfl
  | operand | inner | getObject | exprStmt | printed | loop | returned => exact same obeys rfl
  | binaryRight first | logicalRight first | args first | setValue first | otherExprs first =>
    exact same obeys.2 (expr first)
  | initial => exact placed.mark obeys.1.1 rfl obeys.2
  | @block fuel m m' body env enclosed =>
    cases enclosed
    refine ⟨∅ :: inner, m.store.frames.size :: frames, obeys, ?_, ?_, ?_, List.cons_ne_nil _ _⟩
    · exact congrArg (m.store.frames.size :: ·) placed.chain
    · exact congrArg (· + 1) placed.length
    · exact List.forall_mem_cons.mpr ⟨fun _ _ => rfl, placed.unreserved⟩
  | @condition fuel m condition yes no =>
    cases no with
    | none => exact same obeys.1 rfl
    | some no => exact same obeys.1 rfl
  | @yes fuel m m' condition yes no value first =>
    cases no with
    | none => exact same obeys.2.2 (expr first)
    | some no => exact same obeys.2.1.2 (expr first)
  | no first => exact same obeys.2.2.2 (expr first)
  | loopBody first => exact same obeys.2.2 (expr first)
  | loopAgain first holds second => exact same obeys ((stmt second).trans (expr first))
  | @otherStmts fuel m m' s rest first =>
    have behind : Stmt.AllObey r.rules (s.scopesAfter (inner ++ outer)) rest := obeys.2
    cases declared : s.declared? with
    | none =>
      rw [Stmt.scopesAfter_of_declared?_eq_none declared] at behind
      exact same behind (stmt first)
    | some name =>
      rw [Stmt.scopesAfter, declared] at behind
      exact placed.mark (Stmt.Obeys.declaration obeys.1 declared).1 (stmt first) behind

/-- Whatever is executed in the body of a function is placed inside its environment: by induction on
how the place is reached. A function that is declared at a place has the environment of the
place. -/
theorem RunsIn.placed {occurs : Activity → Prop} {f : Function} (runs : RunsIn limit occurs f b)
    (obeys : Stmt.RoutineObeys r.rules outer f.routine) :
    ∃ inner frames, b.Placed r outer f.closure inner frames := by
  induction runs generalizing outer with
  | @body fuel m f args b called starts =>
    rw [Stmt.routineObeys_iff] at obeys
    cases starts with
    | body enclosed =>
      cases enclosed
      refine ⟨[Scope.paramNames f.routine.params], [m.store.frames.size], obeys.2, rfl, rfl, ?_,
        List.cons_ne_nil _ _⟩
      refine List.forall_mem_singleton.mpr fun name reserved => ?_
      rw [Scope.paramNames_find?, if_neg]
      intro member
      obtain ⟨param, isParam, rfl⟩ := List.mem_map.mp member
      exact obeys.1.forall (fun declared => declared.1) param isParam reserved
  | part _ starts text inductionHypothesis =>
    obtain ⟨inner, frames, placed⟩ := inductionHypothesis obeys
    exact starts.placed placed text
  | @inner f g a b _ made _ outside inside =>
    obtain ⟨inner, frames, placed⟩ := outside obeys
    obtain ⟨routine, task, rfl⟩ := made.exists_routine
    have obeysTask := placed.obeys
    rw [task] at obeysTask
    obtain ⟨declaration, obeysRoutine⟩ := obeysTask
    rw [Scope.mark_append placed.entered] at obeysRoutine
    obtain ⟨innermost, first, inside⟩ := inside obeysRoutine
    refine ⟨innermost ++ mark inner routine.name.text true, first ++ frames, ?_, ?_, ?_, ?_, ?_⟩
    · rw [List.append_assoc]
      exact inside.obeys
    · rw [inside.chain, placed.chain, List.append_assoc]
    · rw [List.length_append, List.length_append, Scope.length_mark, inside.length, placed.length]
    · have around := placed.unreserved.mark declaration.1 true
      exact fun names member => (List.mem_append.mp member).elim (inside.unreserved names)
        (around names)
    · exact List.append_ne_nil_of_left_ne_nil inside.entered _

end Activity

end Lox
