import Lox.Proofs.Store.Fits

set_option autoImplicit false

/-!
# Where functions and classes come from

Values and stores in which every function was made from a routine with some property, and every
class was declared in some way. Whatever is written to such a store, this is kept if it holds of
what is written.
-/

namespace Lox

structure Origin where
  routine : Routine (List Stmt) → Prop
  declared : Class → Prop

section Origin

variable (origin : Origin)

def Class.MadeFrom (c : Class) : Prop :=
  ∀ home, c.DerivesFrom home → origin.declared home ∧
    ∀ name method, home.own.methods.find? name = some method → origin.routine method.routine

/-- Every function and every class in the value has its origin there. -/
def Value.MadeFrom : Value → Prop
  | .function f => origin.routine f.routine
  | .class cls => cls.MadeFrom origin
  | .instance object => object.cls.MadeFrom origin
  | _ => True

end Origin

variable {origin : Origin}

theorem Class.MadeFrom.findMethod? {c : Class} (made : c.MadeFrom origin) {name : String}
    {method : Function} (found : c.findMethod? name = some method) :
    origin.routine method.routine := by
  obtain ⟨home, finds⟩ := Class.findMethod?_eq_some_iff.mp found
  exact (made home finds.derives).2 name method finds.found

theorem Class.MadeFrom.extend {c : Class} (declared : origin.declared c)
    (methods : ∀ name method, c.own.methods.find? name = some method →
      origin.routine method.routine)
    (above : ∀ cls ∈ c.superclass?, cls.MadeFrom origin) : c.MadeFrom origin := by
  intro home derives
  cases derives with
  | self => exact ⟨declared, methods⟩
  | above next derives => exact above _ next home derives

/-! ## Stores -/

structure Store.All (property : Value → Prop) (s : Store) : Prop where
  frames : ∀ id name value, (s.frame id).find? name = some value → property value
  fields : ∀ id name value, (s.fieldsOf id).find? name = some value → property value

namespace Store.All

variable {property : Value → Prop} {s : Store} {name : String} {value : Value}

theorem mono {property' : Value → Prop} (all : s.All property)
    (implies : ∀ value, property value → property' value) : s.All property' :=
  ⟨fun id name value found => implies value (all.frames id name value found),
    fun id name value found => implies value (all.fields id name value found)⟩

theorem addFrame (all : s.All property) {bindings : Bindings Value}
    (values : ∀ name value, bindings.find? name = some value → property value) :
    (s.addFrame bindings).All property := by
  refine ⟨fun id name value found => ?_, all.fields⟩
  rw [frame_addFrame] at found
  split at found
  · exact values name value found
  · exact all.frames id name value found

theorem bind (all : s.All property) (id : FrameId) (name : String) (new : property value) :
    (s.bind id name value).All property := by
  refine ⟨fun other key found there => ?_, all.fields⟩
  rw [find?_frame_bind] at there
  split at there
  · cases there
    exact new
  · exact all.frames other key found there

theorem addInstance (all : s.All property) : s.addInstance.All property := by
  refine ⟨all.frames, fun id name value found => ?_⟩
  simp only [fieldsOf, Store.addInstance, Array.getD_eq_getD_getElem?, Array.getElem?_push] at found
  split at found
  · cases found
  · refine all.fields id name value ?_
    simpa [fieldsOf, Array.getD_eq_getD_getElem?] using found

theorem setField (all : s.All property) (id : InstanceId) (name : String) (new : property value) :
    (s.setField id name value).All property := by
  refine ⟨all.frames, fun other key found there => ?_⟩
  rw [find?_fieldsOf_setField] at there
  split at there
  · cases there
    exact new
  · exact all.fields other key found there

theorem get? (all : s.All property) {env : Env} (found : s.get? env name = some value) :
    property value := by
  obtain ⟨id, _, bound⟩ := List.exists_of_findSome?_eq_some found
  exact all.frames id name value bound

theorem getAt? (all : s.All property) {env : Env} {distance : Nat}
    (found : s.getAt? env distance name = some value) : property value := by
  obtain ⟨id, _, bound⟩ := Option.bind_eq_some_iff.mp found
  exact all.frames id name value bound

end Store.All

abbrev Store.MadeFrom (origin : Origin) (s : Store) : Prop :=
  s.All (Value.MadeFrom origin)

end Lox
