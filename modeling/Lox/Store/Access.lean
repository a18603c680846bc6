import Lox.Store.Basic

set_option autoImplicit false

/-!
# Variable access

Reading and writing variables with faults. Access by search looks through an environment from the
inside out; access by distance looks at one frame only. Writing never creates a binding.
-/

namespace Lox

def undefinedVariable (name : String) (span : Span) : RuntimeError :=
  ⟨.undefinedVariable name, span⟩

def scopeMismatch (name : String) (distance : Nat) (span : Span) : RuntimeError :=
  ⟨.scopeMismatch name distance, span⟩

def orFault {α : Type} (found : Option α) (fault : RuntimeError) : Except RuntimeError α :=
  match found with
  | some a => .ok a
  | none => .error fault

/-- The environment a number of frames further out, where a name is looked for. -/
def Env.ancestor (env : Env) (distance : Nat) (name : String) (span : Span) :
    Except RuntimeError Env :=
  orFault (env.ancestor? distance) (scopeMismatch name distance span)

namespace Store

def get (s : Store) (env : Env) (name : String) (span : Span) : Except RuntimeError Value :=
  orFault (s.get? env name) (undefinedVariable name span)

def getAt (s : Store) (env : Env) (distance : Nat) (name : String) (span : Span) :
    Except RuntimeError Value :=
  orFault (s.getAt? env distance name) (scopeMismatch name distance span)

/-- The frame that an assignment by search writes to. -/
def target (s : Store) (env : Env) (name : String) (span : Span) : Except RuntimeError FrameId :=
  orFault (s.frameOf? env name) (undefinedVariable name span)

/-- The frame that an assignment by distance writes to. -/
def targetAt (s : Store) (env : Env) (distance : Nat) (name : String) (span : Span) :
    Except RuntimeError FrameId :=
  orFault (s.frameAt? env distance name) (scopeMismatch name distance span)

@[inline] def assign (s : Store) (env : Env) (name : String) (value : Value) (span : Span) :
    Except RuntimeError Store :=
  (s.target env name span).map fun id => s.bind id name value

@[inline] def assignAt (s : Store) (env : Env) (distance : Nat) (name : String) (value : Value)
    (span : Span) :
    Except RuntimeError Store :=
  (s.targetAt env distance name span).map fun id => s.bind id name value

def define (s : Store) (env : Env) (name : String) (value : Value) : Store :=
  s.bind env.frame name value

/-- Makes a frame of its own, with nothing around it. -/
def newGlobal (s : Store) : Env × Store :=
  (⟨s.frames.size, []⟩, s.addFrame ∅)

@[inline] def enclose (s : Store) (env : Env) (bindings : Bindings Value) : Env × Store :=
  (⟨s.frames.size, env.chain⟩, s.addFrame bindings)

end Store

end Lox
