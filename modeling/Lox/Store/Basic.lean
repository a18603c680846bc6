import Lox.Evaluation.Error
import Lox.Value.Basic

set_option autoImplicit false

/-!
# The store

The bindings of all frames and the fields of all instances, by number, in the order in which
they were made. Nothing is ever removed.
-/

namespace Lox

structure Store where
  frames : Array (Bindings Value) := #[]
  fields : Array (Bindings Value) := #[]
  /-- How many functions and classes were made. -/
  identities : Identity := 0
  deriving Inhabited

namespace Store

def frame (s : Store) (id : FrameId) : Bindings Value :=
  s.frames.getD id ∅

def fieldsOf (s : Store) (id : InstanceId) : Bindings Value :=
  s.fields.getD id ∅

def addFrame (s : Store) (bindings : Bindings Value) : Store :=
  { s with frames := s.frames.push bindings }

/-- Binds a name in a frame, in place of what it was bound to there. -/
def bind (s : Store) (id : FrameId) (name : String) (value : Value) : Store :=
  { s with frames := s.frames.modify id (·.insert name value) }

def addInstance (s : Store) : Store :=
  { s with fields := s.fields.push ∅ }

def setField (s : Store) (id : InstanceId) (name : String) (value : Value) : Store :=
  { s with fields := s.fields.modify id (·.insert name value) }

def addIdentity (s : Store) : Store :=
  { s with identities := s.identities + 1 }

/-- The innermost frame of an environment that binds a name. -/
def frameOf? (s : Store) (env : Env) (name : String) : Option FrameId :=
  env.chain.find? fun id => (s.frame id).contains name

/-- The frame at a distance in an environment, if it binds a name. Nearer and farther frames do not
count. -/
def frameAt? (s : Store) (env : Env) (distance : Nat) (name : String) : Option FrameId :=
  env.chain[distance]?.filter fun id => (s.frame id).contains name

def get? (s : Store) (env : Env) (name : String) : Option Value :=
  env.chain.findSome? fun id => (s.frame id).find? name

def getAt? (s : Store) (env : Env) (distance : Nat) (name : String) : Option Value :=
  env.chain[distance]?.bind fun id => (s.frame id).find? name

end Store

end Lox
