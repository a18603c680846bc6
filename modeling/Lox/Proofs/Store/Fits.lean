import Lox.Proofs.Scope.Rules
import Lox.Proofs.Value.Inheritance
import Lox.Store.Access

set_option autoImplicit false

/-!
# Stores that fit the scopes

The frames of an environment stand for the scopes around a point of a program, one frame for each
scope and one more for the global variables. A frame that stands for a scope binds every name that
is completely declared there, `this` to an instance and `super` to a class. A store fits if every
function in it was made in an environment that stands for the scopes around its text, with `super`
bound around the methods of a class to its superclass, and if `this` and `super` are bound in frames
of their own.
-/

namespace Lox

open Scope (Names Rules thisScope superScope)

/-! ## Frames -/

namespace Store

variable {s s' : Store} {id other : FrameId} {name : String} {value : Value}

theorem frame_addFrame (s : Store) (bindings : Bindings Value) (id : FrameId) :
    (s.addFrame bindings).frame id = if id = s.frames.size then bindings else s.frame id := by
  simp only [Store.frame, addFrame, Array.getD_eq_getD_getElem?, Array.getElem?_push]
  split <;> rfl

@[simp] theorem frame_addFrame_self (s : Store) (bindings : Bindings Value) :
    (s.addFrame bindings).frame s.frames.size = bindings := by
  simp [frame_addFrame]

theorem frame_addFrame_of_ne (bindings : Bindings Value) (different : id ≠ s.frames.size) :
    (s.addFrame bindings).frame id = s.frame id := by
  simp [frame_addFrame, different]

/-- Frames that were not made yet bind nothing. -/
theorem frame_eq_empty (outside : s.frames.size ≤ id) : s.frame id = ∅ := by
  simp [Store.frame, Array.getD_eq_getD_getElem?, Array.getElem?_eq_none outside]

theorem find?_modify_insert (rows : Array (Bindings Value)) (id other : Nat) (name key : String)
    (value : Value) :
    ((rows.modify id (·.insert name value)).getD other ∅).find? key =
      if other = id ∧ key = name ∧ id < rows.size then some value
      else (rows.getD other ∅).find? key := by
  simp only [Array.getD_eq_getD_getElem?, Array.getElem?_modify]
  by_cases same : other = id
  · subst same
    by_cases allocated : other < rows.size
    · simp [allocated, Bindings.find?_insert]
    · simp [allocated]
  · simp [same, Ne.symm same]

theorem find?_frame_bind (s : Store) (id other : FrameId) (name key : String) (value : Value) :
    ((s.bind id name value).frame other).find? key =
      if other = id ∧ key = name ∧ id < s.frames.size then some value
      else (s.frame other).find? key :=
  find?_modify_insert s.frames id other name key value

theorem find?_fieldsOf_setField (s : Store) (id other : InstanceId) (name key : String)
    (value : Value) :
    ((s.setField id name value).fieldsOf other).find? key =
      if other = id ∧ key = name ∧ id < s.fields.size then some value
      else (s.fieldsOf other).find? key :=
  find?_modify_insert s.fields id other name key value

theorem contains_frame_bind (s : Store) (id other : FrameId) (name key : String) (value : Value) :
    ((s.bind id name value).frame other).contains key = true ↔
      (other = id ∧ key = name ∧ id < s.frames.size) ∨ (s.frame other).contains key = true := by
  simp only [Bindings.contains, find?_frame_bind]
  split <;> simp_all

/-- A name is found by search exactly if some frame binds it. -/
theorem get?_eq_none_iff {env : Env} : s.get? env name = none ↔ s.frameOf? env name = none := by
  simp [Store.get?, frameOf?, Bindings.contains]

@[simp] theorem size_bind (s : Store) (id : FrameId) (name : String) (value : Value) :
    (s.bind id name value).frames.size = s.frames.size := by
  simp [Store.bind]

@[simp] theorem size_addFrame (s : Store) (bindings : Bindings Value) :
    (s.addFrame bindings).frames.size = s.frames.size + 1 := by
  simp [addFrame]

/-- A later store. Names stay bound. In the frames that were there no name is added, except in the
one that is open for declarations, and `this` and `super` are bound there as they were. -/
structure Evolves (opened : Option FrameId) (s s' : Store) : Prop where
  size : s.frames.size ≤ s'.frames.size
  bound : ∀ id name, (s.frame id).contains name = true → (s'.frame id).contains name = true
  names : ∀ id < s.frames.size, opened ≠ some id →
    ∀ name, (s'.frame id).contains name = true → (s.frame id).contains name = true
  reserved : ∀ id < s.frames.size, ∀ name, IsReserved name →
    (s'.frame id).find? name = (s.frame id).find? name

namespace Evolves

variable {s'' : Store} {opened : Option FrameId}

theorem of_frames (same : s'.frames = s.frames) : Evolves opened s s' := by
  have frame : ∀ id, s'.frame id = s.frame id := fun id => by simp [Store.frame, same]
  exact ⟨by rw [same], by simp [frame], by simp [frame], by simp [frame]⟩

theorem refl (s : Store) : Evolves opened s s :=
  of_frames rfl

theorem trans (first : Evolves opened s s') (second : Evolves opened s' s'') :
    Evolves opened s s'' where
  size := first.size.trans second.size
  bound id name known := second.bound id name (first.bound id name known)
  names id allocated closed name known :=
    first.names id allocated closed name
      (second.names id (allocated.trans_le first.size) closed name known)
  reserved id allocated name reserved :=
    (second.reserved id (allocated.trans_le first.size) name reserved).trans
      (first.reserved id allocated name reserved)

theorem open' (evolves : Evolves none s s') : Evolves opened s s' :=
  ⟨evolves.size, evolves.bound, fun id allocated _ => evolves.names id allocated (by simp),
    evolves.reserved⟩

theorem addFrame (s : Store) (bindings : Bindings Value) :
    Evolves opened s (s.addFrame bindings) := by
  refine ⟨by simp, fun id name known => ?_, fun id allocated _ name known => ?_,
    fun id allocated name _ => ?_⟩
  · rw [frame_addFrame]
    split
    · rename_i new
      rw [new, frame_eq_empty le_rfl] at known
      cases known
    · exact known
  · rwa [frame_addFrame_of_ne bindings allocated.ne] at known
  · rw [frame_addFrame_of_ne bindings allocated.ne]

/-- What happens in a new frame leaves the old ones closed. -/
theorem close (evolves : Evolves (some s.frames.size) s s') : Evolves none s s' :=
  ⟨evolves.size, evolves.bound,
    fun id allocated _ => evolves.names id allocated fun same => by
      cases same
      exact absurd allocated (lt_irrefl _),
    evolves.reserved⟩

theorem bind (unreserved : ¬IsReserved name)
    (known : opened = some id ∨ (s.frame id).contains name = true) :
    Evolves opened s (s.bind id name value) := by
  refine ⟨by simp, fun other key bound => ?_, fun other allocated closed key bound => ?_,
    fun other allocated key reserved => ?_⟩
  · exact (contains_frame_bind ..).mpr (.inr bound)
  · rcases (contains_frame_bind ..).mp bound with ⟨rfl, rfl, _⟩ | bound
    · exact known.resolve_left closed
    · exact bound
  · rw [find?_frame_bind, if_neg]
    rintro ⟨_, rfl, _⟩
    exact unreserved reserved

end Evolves

/-! ## Environments -/

structure Holds (s : Store) (id : FrameId) (names : Names) : Prop where
  allocated : id < s.frames.size
  bound : ∀ name, names.find? name = some true → (s.frame id).contains name = true
  this : names.find? "this" = some true →
    ∃ object, (s.frame id).find? "this" = some (.instance object)
  super : names.find? "super" = some true → ∃ cls, (s.frame id).find? "super" = some (.class cls)

theorem Holds.evolve {opened : Option FrameId} {names : Names} (holds : s.Holds id names)
    (evolves : Evolves opened s s') : s'.Holds id names where
  allocated := holds.allocated.trans_le evolves.size
  bound name known := evolves.bound id name (holds.bound name known)
  this known := by
    rw [evolves.reserved id holds.allocated "this" (.inl rfl)]
    exact holds.this known
  super known := by
    rw [evolves.reserved id holds.allocated "super" (.inr rfl)]
    exact holds.super known

/-- One more name is declared. -/
theorem Holds.insert {names : Names} (holds : s.Holds id names) (unreserved : ¬IsReserved name)
    (bound : (s.frame id).contains name = true) : s.Holds id (names.insert name true) := by
  have this : "this" ≠ name := fun same => unreserved (.inl same.symm)
  have super : "super" ≠ name := fun same => unreserved (.inr same.symm)
  refine ⟨holds.allocated, fun key declared => ?_, ?_, ?_⟩
  · rw [Bindings.find?_insert] at declared
    split at declared
    · rename_i same
      rw [same]
      exact bound
    · exact holds.bound key declared
  · rw [Bindings.find?_insert_of_ne names true this]
    exact holds.this
  · rw [Bindings.find?_insert_of_ne names true super]
    exact holds.super

theorem Holds.of_unreserved {names : Names} (allocated : id < s.frames.size)
    (unreserved : ∀ name, IsReserved name → names.find? name = none)
    (bound : ∀ name, names.find? name = some true → (s.frame id).contains name = true) :
    s.Holds id names :=
  ⟨allocated, bound, by simp [unreserved "this" (.inl rfl)],
    by simp [unreserved "super" (.inr rfl)]⟩

theorem holds_thisScope (s : Store) (object : Instance) :
    (s.addFrame (Bindings.empty.insert "this" (.instance object))).Holds s.frames.size
      thisScope := by
  refine ⟨by simp, fun name declared => ?_, fun _ => ⟨object, by simp⟩, fun declared => ?_⟩
  · rw [thisScope, Bindings.find?_insert] at declared
    split at declared
    · simp [Bindings.contains, *]
    · cases declared
  · cases declared

theorem holds_superScope (s : Store) (cls : Class) :
    (s.addFrame (Bindings.empty.insert "super" (.class cls))).Holds s.frames.size superScope := by
  refine ⟨by simp, fun name declared => ?_, fun declared => ?_, fun _ => ⟨cls, by simp⟩⟩
  · rw [superScope, Bindings.find?_insert] at declared
    split at declared
    · simp [Bindings.contains, *]
    · cases declared
  · cases declared

end Store

/-- The frames of an environment match the members of a list, with one frame more outside of
them. -/
inductive ChainMatches {α : Type} (outermost : FrameId → Prop) (fits : FrameId → α → Prop) :
    List FrameId → List α → Prop where
  | global {id : FrameId} : outermost id → ChainMatches outermost fits [id] []
  | frame {id : FrameId} {chain : List FrameId} {layer : α} {layers : List α} :
    fits id layer → ChainMatches outermost fits chain layers →
      ChainMatches outermost fits (id :: chain) (layer :: layers)

namespace ChainMatches

variable {α : Type} {outermost : FrameId → Prop} {fits : FrameId → α → Prop}
variable {chain : List FrameId} {layers : List α}

theorem imp {outermost' : FrameId → Prop} {fits' : FrameId → α → Prop}
    (impliedOutside : ∀ id, outermost id → outermost' id)
    (implied : ∀ id layer, fits id layer → fits' id layer)
    (chainMatches : ChainMatches outermost fits chain layers) :
    ChainMatches outermost' fits' chain layers := by
  induction chainMatches with
  | global outside => exact .global (impliedOutside _ outside)
  | frame here _ inductionHypothesis => exact .frame (implied _ _ here) inductionHypothesis

theorem cons_iff {id : FrameId} {layer : α} :
    ChainMatches outermost fits (id :: chain) (layer :: layers) ↔
      fits id layer ∧ ChainMatches outermost fits chain layers := by
  refine ⟨fun chainMatches => ?_, fun ⟨here, around⟩ => .frame here around⟩
  cases chainMatches with
  | frame here around => exact ⟨here, around⟩

theorem getElem? (chainMatches : ChainMatches outermost fits chain layers) {depth : Nat} {layer : α}
    (there : layers[depth]? = some layer) :
    ∃ id, chain[depth]? = some id ∧ fits id layer := by
  induction chainMatches generalizing depth with
  | global _ => simp at there
  | @frame id chain innermost layers here _ inductionHypothesis =>
    cases depth with
    | zero =>
      obtain rfl : innermost = layer := by simpa using there
      exact ⟨id, rfl, here⟩
    | succ depth => exact inductionHypothesis (by simpa using there)

end ChainMatches

/-- The frames stand for the scopes around a point, the outermost one for the top level. -/
abbrev Store.StandFor (s : Store) : List FrameId → List Names → Prop :=
  ChainMatches (· < s.frames.size) s.Holds

theorem Store.StandFor.allocated {s : Store} {id : FrameId} {chain : List FrameId}
    {scopes : List Names} (stand : s.StandFor (id :: chain) scopes) : id < s.frames.size := by
  cases stand with
  | global allocated => exact allocated
  | frame holds _ => exact holds.allocated

/-! ## Values -/

/-- Where `this` or `super` is bound, nothing else is. -/
def Bindings.SetApart (bindings : Bindings Value) : Prop :=
  ∀ name key, IsReserved name → bindings.contains name = true →
    bindings.contains key = true → key = name

theorem Bindings.SetApart.single (name : String) (value : Value) :
    (Bindings.empty.insert name value).SetApart := by
  have only : ∀ key, (Bindings.empty.insert name value).contains key = true → key = name := by
    intro key bound
    rw [Bindings.contains_insert] at bound
    rcases Bool.or_eq_true_iff.mp bound with same | impossible
    · exact beq_iff_eq.mp same
    · cases impossible
  intro first second _ bound boundToo
  rw [only first bound, only second boundToo]

theorem Bindings.SetApart.of_unreserved {bindings : Bindings Value}
    (unreserved : ∀ name, IsReserved name → bindings.contains name = false) :
    bindings.SetApart := by
  intro name key reserved bound
  rw [unreserved name reserved] at bound
  cases bound

section Values

variable (rules : Rules) (store : Store)

/-- The function was made in an environment that stands for the scopes around its text. That of an
initializer starts with the frame of its instance. -/
def Function.Fits (f : Function) : Prop :=
  ∃ scopes, store.StandFor f.closure.chain scopes ∧
    Stmt.RoutineObeys rules scopes f.routine ∧
    (f.isInitializer = true → scopes.head? = some thisScope)

/-- A method of a class with this superclass, before it is tied to an instance. -/
def Function.FitsAsMethod (superclass : Option Class) (f : Function) : Prop :=
  ∃ scopes, store.StandFor f.closure.chain scopes ∧
    Stmt.RoutineObeys rules (thisScope :: scopes) f.routine ∧
    (store.frame f.closure.frame).find? "super" = superclass.map .class

def Class.Fits (c : Class) : Prop :=
  ∀ home, c.DerivesFrom home → ∀ name method, home.own.methods.find? name = some method →
    method.FitsAsMethod rules store home.superclass?

def Value.Fits : Value → Prop
  | .function f => f.Fits rules store
  | .class cls => cls.Fits rules store
  | .instance object => object.cls.Fits rules store
  | _ => True

structure Store.Fits : Prop where
  apart : ∀ id, (store.frame id).SetApart
  frames : ∀ id name value, (store.frame id).find? name = some value → value.Fits rules store
  fields : ∀ id name value, (store.fieldsOf id).find? name = some value → value.Fits rules store

end Values

section Evolution

variable {rules : Rules} {opened : Option FrameId} {s s' : Store}

theorem Store.StandFor.evolve {chain : List FrameId} {scopes : List Names}
    (stand : s.StandFor chain scopes) (evolves : s.Evolves opened s') : s'.StandFor chain scopes :=
  stand.imp (fun _ allocated => allocated.trans_le evolves.size)
    fun _ _ holds => holds.evolve evolves

theorem Function.Fits.evolve {f : Function} (fits : f.Fits rules s)
    (evolves : s.Evolves opened s') :
    f.Fits rules s' := by
  obtain ⟨scopes, chainMatches, obeys, initializer⟩ := fits
  exact ⟨scopes, Store.StandFor.evolve chainMatches evolves, obeys, initializer⟩

theorem Function.FitsAsMethod.evolve {superclass : Option Class} {f : Function}
    (fits : f.FitsAsMethod rules s superclass) (evolves : s.Evolves opened s') :
    f.FitsAsMethod rules s' superclass := by
  obtain ⟨scopes, chainMatches, obeys, linked⟩ := fits
  refine ⟨scopes, Store.StandFor.evolve chainMatches evolves, obeys, ?_⟩
  rw [evolves.reserved _ (Store.StandFor.allocated chainMatches) "super" (.inr rfl)]
  exact linked

theorem Class.Fits.evolve {c : Class} (fits : c.Fits rules s) (evolves : s.Evolves opened s') :
    c.Fits rules s' :=
  fun home derives name method found => (fits home derives name method found).evolve evolves

theorem Value.Fits.evolve {v : Value} (fits : v.Fits rules s) (evolves : s.Evolves opened s') :
    v.Fits rules s' := by
  cases v with
  | function f => exact Function.Fits.evolve fits evolves
  | «class» cls => exact Class.Fits.evolve fits evolves
  | «instance» object => exact Class.Fits.evolve (c := object.cls) fits evolves
  | nil | bool | number | string | native => trivial

theorem Class.Fits.finds {c home : Class} (fits : c.Fits rules s) {name : String}
    {method : Function}
    (finds : c.Finds name home method) : method.FitsAsMethod rules s home.superclass? :=
  fits home finds.derives name method finds.found

theorem Class.Fits.findMethod? {c : Class} (fits : c.Fits rules s) {name : String}
    {method : Function} (found : c.findMethod? name = some method) :
    ∃ superclass, method.FitsAsMethod rules s superclass := by
  obtain ⟨home, finds⟩ := Class.findMethod?_eq_some_iff.mp found
  exact ⟨_, fits.finds finds⟩

/-- A new class fits if its own methods do, and its superclass. -/
theorem Class.Fits.extend {c : Class} {superclass : Option Class}
    (same : c.superclass? = superclass)
    (methods : ∀ name method, c.own.methods.find? name = some method →
      method.FitsAsMethod rules s superclass)
    (above : ∀ cls ∈ superclass, cls.Fits rules s) : c.Fits rules s := by
  subst same
  intro home derives
  cases derives with
  | self => exact methods
  | above next derives => exact above _ next home derives

end Evolution

section Monotone

variable {rules weaker : Rules} {s : Store}

theorem Class.Fits.mono (implied : rules.Implies weaker) {c : Class} (fits : c.Fits rules s) :
    c.Fits weaker s := by
  intro home derives name method found
  obtain ⟨scopes, chainMatches, obeys, linked⟩ := fits home derives name method found
  exact ⟨scopes, chainMatches, obeys.mono implied, linked⟩

theorem Value.Fits.mono (implied : rules.Implies weaker) {v : Value} (fits : v.Fits rules s) :
    v.Fits weaker s := by
  cases v with
  | function f =>
    obtain ⟨scopes, chainMatches, obeys, initializer⟩ := fits
    exact ⟨scopes, chainMatches, Stmt.RoutineObeys.mono implied obeys, initializer⟩
  | «class» cls => exact Class.Fits.mono implied fits
  | «instance» object => exact Class.Fits.mono implied (c := object.cls) fits
  | nil | bool | number | string | native => trivial

theorem Store.Fits.mono (implied : rules.Implies weaker) (fits : s.Fits rules) : s.Fits weaker :=
  ⟨fits.apart, fun id name value found => (fits.frames id name value found).mono implied,
    fun id name value found => (fits.fields id name value found).mono implied⟩

end Monotone

namespace Store.Fits

variable {rules : Rules} {s s' : Store}

theorem addFrame (fits : s.Fits rules) {bindings : Bindings Value} (apart : bindings.SetApart)
    (values : ∀ name value, bindings.find? name = some value → value.Fits rules s) :
    (s.addFrame bindings).Fits rules := by
  have evolves : Evolves none s (s.addFrame bindings) := .addFrame s bindings
  refine ⟨fun id => ?_, fun id name value found => ?_, fun id name value found => ?_⟩
  · rw [frame_addFrame]
    split
    · exact apart
    · exact fits.apart id
  · rw [frame_addFrame] at found
    split at found
    · exact (values name value found).evolve evolves
    · exact (fits.frames id name value found).evolve evolves
  · exact (fits.fields id name value found).evolve evolves

/-- A name is bound in a frame that binds no reserved one, or binds the name already. -/
theorem bind (fits : s.Fits rules) {opened : Option FrameId} {id : FrameId} {name : String}
    {value : Value} (unreserved : ¬IsReserved name)
    (open' : ∀ key, IsReserved key → (s.frame id).contains key = true →
      (s.frame id).contains name = true)
    (new : value.Fits rules (s.bind id name value))
    (evolves : Evolves opened s (s.bind id name value)) : (s.bind id name value).Fits rules := by
  refine ⟨fun other => ?_, fun other key found there => ?_, fun other key found there => ?_⟩
  · intro first second reserved bound boundToo
    rcases (contains_frame_bind ..).mp bound with ⟨_, rfl, _⟩ | old
    · exact absurd reserved unreserved
    · rcases (contains_frame_bind ..).mp boundToo with ⟨rfl, rfl, _⟩ | oldToo
      · exact fits.apart other first second reserved old (open' first reserved old)
      · exact fits.apart other first second reserved old oldToo
  · rw [find?_frame_bind] at there
    split at there
    · cases there
      exact new
    · exact (fits.frames other key found there).evolve evolves
  · exact (fits.fields other key found there).evolve evolves

theorem of_eq (fits : s.Fits rules) (frames : s'.frames = s.frames)
    (fields : s'.fields = s.fields) :
    s'.Fits rules := by
  have evolves : Evolves none s s' := .of_frames frames
  refine ⟨fun id => ?_, fun id name value found => ?_, fun id name value found => ?_⟩
  · simp only [Store.frame, frames]
    exact fits.apart id
  · simp only [Store.frame, frames] at found
    exact (fits.frames id name value found).evolve evolves
  · simp only [fieldsOf, fields] at found
    exact (fits.fields id name value found).evolve evolves

theorem addInstance (fits : s.Fits rules) : s.addInstance.Fits rules := by
  have evolves : Evolves none s s.addInstance := .of_frames rfl
  refine ⟨fits.apart, fun id name value found => (fits.frames id name value found).evolve evolves,
    fun id name value found => ?_⟩
  simp only [fieldsOf, Store.addInstance, Array.getD_eq_getD_getElem?, Array.getElem?_push] at found
  split at found
  · cases found
  · refine (fits.fields id name value ?_).evolve evolves
    simpa [fieldsOf, Array.getD_eq_getD_getElem?] using found

theorem setField (fits : s.Fits rules) {id : InstanceId} {name : String} {value : Value}
    (new : value.Fits rules s) : (s.setField id name value).Fits rules := by
  have evolves : Evolves none s (s.setField id name value) := .of_frames rfl
  refine ⟨fits.apart,
    fun other key found there => (fits.frames other key found there).evolve evolves,
    fun other key found there => ?_⟩
  rw [find?_fieldsOf_setField] at there
  split at there
  · cases there
    exact new.evolve evolves
  · exact (fits.fields other key found there).evolve evolves

theorem get? (fits : s.Fits rules) {env : Env} {name : String} {value : Value}
    (found : s.get? env name = some value) : value.Fits rules s := by
  obtain ⟨id, _, bound⟩ := List.exists_of_findSome?_eq_some found
  exact fits.frames id name value bound

theorem getAt? (fits : s.Fits rules) {env : Env} {distance : Nat} {name : String} {value : Value}
    (found : s.getAt? env distance name = some value) : value.Fits rules s := by
  obtain ⟨id, _, bound⟩ := Option.bind_eq_some_iff.mp found
  exact fits.frames id name value bound

end Store.Fits

end Lox
