import Lox.Bindings
import Lox.Number.Text
import Lox.Syntax.Basic

set_option autoImplicit false

/-!
# Values

What can change lives in the store and is referred to by number: the frames of environments and the
fields of instances. What cannot change is held by value: functions, and classes with all their
superclasses. Functions and classes carry an identity, because two of them are equal only if they
were made by the same step.
-/

namespace Lox

/-- The number of a frame in the store. -/
abbrev FrameId := Nat

/-- The number of an instance in the store. -/
abbrev InstanceId := Nat

/-- The number of the step that made a function or class. -/
abbrev Identity := Nat

/-- An environment: its own frame, and the frames around it, innermost first. -/
structure Env where
  frame : FrameId
  enclosing : List FrameId
  deriving DecidableEq, Repr, Inhabited

def Env.chain (e : Env) : List FrameId :=
  e.frame :: e.enclosing

def Env.ancestor? (e : Env) (distance : Nat) : Option Env :=
  match e.chain.drop distance with
  | [] => none
  | frame :: enclosing => some ⟨frame, enclosing⟩

structure Function where
  identity : Identity
  routine : Routine (List Stmt)
  closure : Env
  isInitializer : Bool
  deriving Inhabited

def Function.name (f : Function) : String :=
  f.routine.name.text

def Function.arity (f : Function) : Nat :=
  f.routine.params.length

structure ClassLayer where
  identity : Identity
  name : String
  methods : Bindings Function
  deriving Inhabited

/-- A class: its own layer, and those of its superclasses, the nearest first. -/
structure Class where
  own : ClassLayer
  inherited : List ClassLayer
  deriving Inhabited

namespace Class

def name (c : Class) : String :=
  c.own.name

def superclass? (c : Class) : Option Class :=
  match c.inherited with
  | [] => none
  | own :: inherited => some ⟨own, inherited⟩

/-- The nearest method with a name, from the class itself outwards. -/
def findMethod? (c : Class) (name : String) : Option Function :=
  (c.own :: c.inherited).findSome? (·.methods.find? name)

def initializer? (c : Class) : Option Function :=
  c.findMethod? "init"

def arity (c : Class) : Nat :=
  match c.initializer? with
  | some method => method.arity
  | none => 0

end Class

structure Instance where
  id : InstanceId
  cls : Class
  deriving Inhabited

inductive Builtin where
  | clock
  deriving DecidableEq, Repr

namespace Builtin

def all : List Builtin := [.clock]

def name : Builtin → String
  | .clock => "clock"

def arity : Builtin → Nat
  | .clock => 0

end Builtin

inductive Value where
  | nil
  | bool (value : Bool)
  | number (value : Float)
  | string (value : String)
  | native (builtin : Builtin)
  | function (f : Function)
  | class (cls : Class)
  | instance (object : Instance)
  deriving Inhabited

inductive Callable where
  | native (builtin : Builtin)
  | function (f : Function)
  | class (cls : Class)

def Callable.arity : Callable → Nat
  | .native builtin => builtin.arity
  | .function f => f.arity
  | .class cls => cls.arity

def Literal.value : Literal → Value
  | .nil => .nil
  | .bool value => .bool value
  | .number value => .number value
  | .string value => .string value

namespace Value

/-- Everything but `nil` and `false` counts as true. -/
def isTruthy : Value → Bool
  | .nil | .bool false => false
  | _ => true

def number? : Value → Option Float
  | .number value => some value
  | _ => none

def callable? : Value → Option Callable
  | .native builtin => some (.native builtin)
  | .function f => some (.function f)
  | .class cls => some (.class cls)
  | _ => none

def arity? (v : Value) : Option Nat :=
  v.callable?.map Callable.arity

/-- Equality by content, and by identity for functions, classes and instances. -/
def equals : Value → Value → Bool
  | .nil, .nil => true
  | .bool a, .bool b => a == b
  | .number a, .number b => a == b
  | .string a, .string b => a == b
  | .native a, .native b => a == b
  | .function a, .function b => a.identity == b.identity
  | .class a, .class b => a.own.identity == b.own.identity
  | .instance a, .instance b => a.id == b.id
  | _, _ => false

/-- The text that a print statement writes. -/
def text : Value → String
  | .nil => "nil"
  | .bool true => "true"
  | .bool false => "false"
  | .number value => Number.text value
  | .string value => value
  | .native _ => "<native fn>"
  | .function f => "<fn " ++ f.name ++ ">"
  | .class cls => cls.name
  | .instance object => object.cls.name ++ " instance"

end Value

namespace Bindings

/-- Bindings to which parameters have been added, each with its argument. -/
def bindAll (params : List Ident) (args : List Value) (bindings : Bindings Value) :
    Bindings Value :=
  (params.zip args).foldl (fun bindings (param, arg) => bindings.insert param.text arg) bindings

@[simp] theorem bindAll_nil (args : List Value) (bindings : Bindings Value) :
    bindAll [] args bindings = bindings :=
  rfl

@[simp] theorem bindAll_cons (param : Ident) (params : List Ident) (arg : Value) (args : List Value)
    (bindings : Bindings Value) :
    bindAll (param :: params) (arg :: args) bindings =
      bindAll params args (bindings.insert param.text arg) :=
  rfl

end Bindings

/-- The bindings of a new frame for a call. -/
def Function.bindArguments (f : Function) (args : List Value) : Bindings Value :=
  .bindAll f.routine.params args ∅

end Lox
