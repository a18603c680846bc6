import Lox.Evaluation.Operators
import Lox.Scope.Depths
import Lox.Store.Access

set_option autoImplicit false

/-!
# The machine

The state of a running program and the steps that change it.
-/

namespace Lox

/-- The readings that a clock will give, in seconds, and how many were taken. -/
structure Clock where
  reading : Nat → Float
  taken : Nat := 0

/-- A clock that shows a time first, and goes on by a microsecond with each reading. -/
def Clock.startingAt (time : Float) : Clock where
  reading taken := time + taken.toFloat / 1000000

/-- What was printed, and whether anybody still takes it. -/
structure Output where
  text : String := ""
  isOpen : Bool := true

structure Machine where
  store : Store
  globals : Env
  /-- The current environment. -/
  env : Env
  depths : Depths := ∅
  output : Output := {}
  /-- How many calls are being executed. -/
  callDepth : Nat := 0
  clock : Clock

/-- Why an evaluation ended early. -/
inductive Interruption where
  | fault (error : RuntimeError)
  /-- The bound on the recursion of the evaluator was reached. -/
  | outOfFuel
  deriving DecidableEq

/-- Whether the statements behind a statement are executed. -/
inductive Flow where
  | next
  | return (value : Value)

/-- A step that changes a machine, and yields a result or is interrupted. -/
abbrev Eval := EStateM Interruption Machine

namespace Machine

/-- A machine before its first program: one frame, which binds the built-in functions. -/
def start (clock : Clock) (output : Output) : Machine :=
  let (globals, store) := Store.newGlobal {}
  { store := Builtin.all.foldl (fun store f => store.define globals f.name (.native f)) store
    globals := globals
    env := globals
    output := output
    clock := clock }

end Machine

namespace Eval

variable {α : Type}

def raise (cause : RuntimeError.Cause) (span : Span) : Eval α :=
  throw (.fault ⟨cause, span⟩)

/-- The value of a computation on values, with its fault raised at a place. -/
def ofCause (result : Except RuntimeError.Cause α) (span : Span) : Eval α :=
  match result with
  | .ok a => pure a
  | .error cause => raise cause span

@[inline] def ofExcept (result : Except RuntimeError α) : Eval α :=
  match result with
  | .ok a => pure a
  | .error error => throw (.fault error)

@[inline] def modifyStore (f : Store → Store) : Eval Unit :=
  modify fun m => { m with store := f m.store }

/-- Changes the store, or raises the fault that keeps it from being changed. Like all that it is
used with, it is inlined, so that a store that nothing else refers to is changed in place. -/
@[inline] def updateStore (change : Machine → Except RuntimeError Store) : Eval Unit := do
  let store ← ofExcept (change (← get))
  modifyStore fun _ => store

def freshIdentity : Eval Identity :=
  modifyGet fun m => (m.store.identities, { m with store := m.store.addIdentity })

def enclose (env : Env) (bindings : Bindings Value) : Eval Env :=
  modifyGet fun m =>
    let (inner, store) := m.store.enclose env bindings
    (inner, { m with store := store })

def define (name : String) (value : Value) : Eval Unit :=
  modify fun m => { m with store := m.store.define m.env name value }

/-- The value of a use of a name: at its recorded distance, or among the globals. -/
def lookup (id : ExprId) (name : String) (span : Span) : Eval Value := do
  let m ← get
  match m.depths[id]? with
  | some distance => ofExcept (m.store.getAt m.env distance name span)
  | none => ofExcept (m.store.get m.globals name span)

/-- An assignment to a name: at its recorded distance, or among the globals. -/
def assign (id : ExprId) (name : Ident) (value : Value) : Eval Unit :=
  updateStore fun m =>
    match m.depths[id]? with
    | some distance => m.store.assignAt m.env distance name.text value name.span
    | none => m.store.assign m.globals name.text value name.span

/-- Writes a line. The place is that of the printed expression. -/
def print (line : String) (span : Span) : Eval Unit := do
  if (← get).output.isOpen then
    modify fun m => { m with output := { m.output with text := m.output.text ++ line ++ "\n" } }
  else
    raise (.output .brokenPipe) span

def readClock : Eval Float :=
  modifyGet fun m =>
    (m.clock.reading m.clock.taken, { m with clock := { m.clock with taken := m.clock.taken + 1 } })

def newInstance (cls : Class) : Eval Instance :=
  modifyGet fun m => (⟨m.store.fields.size, cls⟩, { m with store := m.store.addInstance })

/-- A method tied to an instance: a new function, whose environment is a new frame with `this`
inside that of the method. -/
def bindMethod (method : Function) (object : Instance) : Eval Function := do
  let closure ← enclose method.closure (Bindings.empty.insert "this" (.instance object))
  let identity ← freshIdentity
  return { method with identity := identity, closure := closure }

/-- A property of an instance. Fields come before methods. -/
def getProperty (object : Instance) (name : String) (span : Span) : Eval Value := do
  match ((← get).store.fieldsOf object.id).find? name with
  | some value => return value
  | none =>
    match object.cls.findMethod? name with
    | some method => return .function (← bindMethod method object)
    | none => raise (.undefinedProperty name) span

def setField (object : Instance) (name : String) (value : Value) : Eval Unit :=
  modifyStore (·.setField object.id name value)

/-- A method of the superclass, tied to the current instance. The frame with `this` lies directly
inside the one with `super`. -/
def superMethod (id : ExprId) (span : Span) (method : Ident) : Eval Value := do
  let m ← get
  match m.depths[id]? with
  | none | some 0 => raise (.scopeMismatch "super" 0) span
  | some (distance + 1) =>
    let .class superclass ← ofExcept (m.store.getAt m.env (distance + 1) "super" span)
      | raise (.scopeMismatch "super" (distance + 1)) span
    let .instance object ← ofExcept (m.store.getAt m.env distance "this" span)
      | raise (.scopeMismatch "super" distance) span
    match superclass.findMethod? method.text with
    | some found => return .function (← bindMethod found object)
    | none => raise (.undefinedProperty method.text) method.span

/-- Runs a step in another environment, and comes back to the current one however it ends. -/
def within (env : Env) (step : Eval α) : Eval α := fun m =>
  let outer := m.env
  match step { m with env := env } with
  | .ok a m => .ok a { m with env := outer }
  | .error e m => .error e { m with env := outer }

/-- Runs a step as a call, of which only so many may be executed at a time. -/
def counted (limit : Nat) (span : Span) (step : Eval α) : Eval α := fun m =>
  if limit ≤ m.callDepth then
    raise .stackOverflow span m
  else
    match step { m with callDepth := m.callDepth + 1 } with
    | .ok a m => .ok a { m with callDepth := m.callDepth - 1 }
    | .error e m => .error e { m with callDepth := m.callDepth - 1 }

/-- The methods of a class declaration as functions. The last one of a name counts. -/
def makeMethods (closure : Env) : List (Routine (List Stmt)) → Bindings Function →
    Eval (Bindings Function)
  | [], methods => return methods
  | routine :: rest, methods => do
    let identity ← freshIdentity
    let method := ⟨identity, routine, closure, routine.name.text = "init"⟩
    makeMethods closure rest (methods.insert routine.name.text method)

def superclassOf : Option Reference → Eval (Option Class)
  | none => return none
  | some reference => do
    match ← lookup reference.id reference.name.text reference.name.span with
    | .class superclass => return some superclass
    | _ => raise .superclassMustBeClass reference.name.span

/-- A class declaration. The methods of a subclass are made in a frame with `super`. -/
def declareClass (name : Ident) (superclass : Option Reference)
    (methods : List (Routine (List Stmt))) : Eval Unit := do
  let superclass ← superclassOf superclass
  define name.text .nil
  let env := (← get).env
  let closure ← match superclass with
    | some superclass => enclose env (Bindings.empty.insert "super" (.class superclass))
    | none => pure env
  let methods ← makeMethods closure methods ∅
  let own : ClassLayer := ⟨← freshIdentity, name.text, methods⟩
  let inherited := match superclass with
    | some superclass => superclass.own :: superclass.inherited
    | none => []
  updateStore (·.store.assign env name.text (.class ⟨own, inherited⟩) name.span)

def declareFunction (routine : Routine (List Stmt)) : Eval Unit := do
  let identity ← freshIdentity
  define routine.name.text (.function ⟨identity, routine, (← get).env, false⟩)

end Eval

end Lox
