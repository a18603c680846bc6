import Lox.Proofs.Evaluation.Stages

set_option autoImplicit false

/-!
# What functions and classes are made from

A machine makes functions from nothing but the routines in the statements that it executes, and
classes by nothing but the declarations that it executes. So a property that all these routines
have, and with a routine all those in its body, is one of every routine that is executed in the
course of a run, and every class that is there comes from a declaration that was executed.
-/

namespace Lox

variable {origin : Origin} {α : Type} {limit : Nat} {occurs : Activity → Prop} {m : Machine}

theorem Machine.madeFrom_start (clock : Clock) (output : Output) :
    (start clock output).store.MadeFrom origin := by
  refine ⟨fun id name value found => ?_, fun id name value found => by cases found⟩
  cases eq_native_of_start found
  trivial

/-! ## Class declarations -/

namespace Eval

/-- The methods that are made are those of the declaration. -/
theorem meets_makeMethods_routines (closure : Env) {routines written : List (Routine (List Stmt))}
    {methods : Bindings Function} (made : m.store.MadeFrom origin) (part : routines ⊆ written)
    (known : ∀ name method, methods.find? name = some method → method.routine ∈ written) :
    Meets (makeMethods closure routines methods) m
      (fun made m' => m'.store.MadeFrom origin ∧
        ∀ name method, made.find? name = some method → method.routine ∈ written)
      fun _ _ => False := by
  induction routines generalizing m methods with
  | nil => exact ⟨made, known⟩
  | cons routine rest inductionHypothesis =>
    obtain ⟨first, others⟩ := List.cons_subset.mp part
    refine meets_bind.mpr (inductionHypothesis ⟨made.frames, made.fields⟩ others
      fun name method found => ?_)
    rw [Bindings.find?_insert] at found
    split at found
    · cases found
      exact first
    · exact known name method found

/-- A class was written to a store, with the layers above it and methods of the declaration. -/
def WritesClass (origin : Origin) (name : String) (inherited : List ClassLayer)
    (methods : List (Routine (List Stmt))) (after : Store) : Prop :=
  ∃ (before : Store) (id : FrameId) (own : ClassLayer),
    after = before.bind id name (.class ⟨own, inherited⟩) ∧ before.MadeFrom origin ∧
    id < before.frames.size ∧
    ∀ key method, own.methods.find? key = some method → method.routine ∈ methods

theorem meets_completeClass_writes (name : Ident) (env closure : Env) (inherited : List ClassLayer)
    (methods : List (Routine (List Stmt))) (made : m.store.MadeFrom origin) :
    Meets (completeClass name env closure inherited methods) m
      (fun _ m' => WritesClass origin name.text inherited methods m'.store)
      fun _ m' => m'.store.MadeFrom origin := by
  refine (meets_makeMethods_routines closure made (List.Subset.refl methods) (by simp)).never.bind
    fun found m₁ _ ⟨between, own⟩ => ?_
  have numbered : m₁.store.addIdentity.MadeFrom origin := ⟨between.frames, between.fields⟩
  simp only [freshIdentity, meets_bind, meets_modifyGet, meets_get, Store.target]
  cases target : m₁.store.addIdentity.frameOf? env name.text with
  | none => exact numbered
  | some id =>
    refine ⟨_, id, ⟨m₁.store.identities, name.text, found⟩, rfl, numbered, ?_, own⟩
    by_contra outside
    have bound : (m₁.store.addIdentity.frame id).contains name.text = true := by
      simpa using List.find?_some target
    rw [Store.frame_eq_empty (not_lt.mp outside)] at bound
    cases bound

theorem meets_ofExcept {result : Except RuntimeError α} :
    Meets (ofExcept result) m (fun _ m' => m' = m) fun _ m' => m' = m := by
  cases result with
  | ok a => exact rfl
  | error e => exact rfl

/-- Looking up the superclass changes nothing. -/
theorem meets_superclassOf_same (superclass : Option Reference) :
    Meets (superclassOf superclass) m (fun _ m' => m' = m) fun _ m' => m' = m := by
  cases superclass with
  | none => exact rfl
  | some reference =>
    have looked : Meets (lookup reference.id reference.name.text reference.name.span) m
        (fun _ m' => m' = m) fun _ m' => m' = m := by
      simp only [lookup, meets_bind, meets_get]
      split
      · exact meets_ofExcept
      · exact meets_ofExcept
    refine looked.bind ?_
    rintro value _ _ rfl
    cases value with
    | «class» cls => exact rfl
    | _ => exact rfl

end Eval

/-- A class declaration is executed, and binds its name to a class, with the superclass that it
finds and with methods of the declaration. -/
inductive Activity.Declares : Activity → Class → Prop where
  | intro {fuel : Nat} {m m' : Machine} {name : Ident} {superclass : Option Reference}
      {methods : List (Routine (List Stmt))} {cls : Class} {id : FrameId}
      (found : Eval.superclassOf superclass m = .ok cls.superclass? m)
      (executed : Eval.declareClass name superclass methods m = .ok () m')
      (bound : (m'.store.frame id).find? name.text = some (.class cls))
      (own : ∀ key method, cls.own.methods.find? key = some method → method.routine ∈ methods) :
    Declares ⟨fuel + 1, .stmt (.class name superclass methods), m⟩ cls

/-- The origin covers all that some activities can make: with a routine the routines in its body,
and the classes that the activities declare. What the activities start is among them. -/
structure Origin.Covers (origin : Origin) (limit : Nat) (occurs : Activity → Prop) : Prop where
  inner : ∀ routine, origin.routine routine →
    ∀ inner ∈ Stmt.routinesAll routine.body, origin.routine inner
  starts : ∀ {a b}, occurs a → a.Starts limit b → occurs b
  declares : ∀ {a cls}, occurs a → a.Declares cls → origin.declared cls

/-- In a run of such activities, whatever is made has its origin there. -/
def Origin.Covers.invariant (covers : origin.Covers limit occurs) : Invariant Unit limit where
  state _ m := m.store.MadeFrom origin
  env _ _ := True
  value _ := Value.MadeFrom origin
  routine := origin.routine
  occurs := occurs
  inner := covers.inner _
  starts := covers.starts
  env_mono _ _ := trivial
  value_mono made _ := made
  calculated {v} _ calculated := by
    cases v with
    | nil | bool | number | string => trivial
    | native | function | «class» | «instance» => exact calculated.elim
  function_iff := by simp [Value.MadeFrom]
  method made found := Class.MadeFrom.findMethod? made found
  owner made := made
  current _ := trivial
  store made := made
  move made same _ _ := same ▸ made
  bind id name made new := made.bind id name new
  setField id name made new := made.setField id name new
  addIdentity made := ⟨(), le_rfl, made.frames, made.fields⟩
  addFrame made _ values := ⟨(), le_rfl, made.addFrame values, trivial⟩
  addInstance made known := ⟨(), le_rfl, made.addInstance, known⟩

/-- A class declaration writes a class with the superclass that it finds. -/
theorem Eval.meets_declareClass_writes (covers : origin.Covers limit occurs) (name : Ident)
    (superclass : Option Reference) (methods : List (Routine (List Stmt)))
    (made : m.store.MadeFrom origin) :
    Meets (declareClass name superclass methods) m
      (fun _ m' => ∃ inherited, WritesClass origin name.text inherited methods m'.store ∧
        ∀ own, superclassOf superclass m = .ok (Class.superclass? ⟨own, inherited⟩) m ∧
          ∀ cls ∈ Class.superclass? ⟨own, inherited⟩, cls.MadeFrom origin)
      fun _ m' => m'.store.MadeFrom origin := by
  rw [declareClass_eq]
  have steps : covers.invariant.Keeps () [] _ (superclassOf superclass) m :=
    .superclassOf superclass
  obtain ⟨_, ⟨_, meets⟩, _⟩ := steps made (List.forall_mem_nil _)
  refine meets.bind fun found m₁ looked kept => ?_
  have known := kept.2
  obtain rfl : m₁ = m := (meets_superclassOf_same superclass).ok_of_eq looked
  have declared : (m₁.store.define m₁.env name.text .nil).MadeFrom origin := made.bind _ _ trivial
  simp only [define, meets_bind, meets_modify, meets_get]
  cases found with
  | none =>
    refine (meets_completeClass_writes name _ _ [] methods declared).imp fun _ m₂ _ writes => ?_
    exact ⟨[], writes, fun own => ⟨looked, known⟩⟩
  | some superclass =>
    have encloses : covers.invariant.Keeps () [] _
      (enclose m₁.env (Bindings.empty.insert "super" _))
        { m₁ with store := m₁.store.define m₁.env name.text .nil } :=
      .encloseOne trivial "super" (known superclass rfl)
    obtain ⟨_, ⟨_, meets⟩, _⟩ := encloses declared (List.forall_mem_nil _)
    refine meets.bind fun closure m₂ _ enclosed => ?_
    refine (meets_completeClass_writes name _ closure _ methods enclosed.1).imp
      fun _ m₃ _ writes => ?_
    exact ⟨superclass.own :: superclass.inherited, writes, fun own => ⟨looked, known⟩⟩

theorem Origin.Covers.keepsClasses (covers : origin.Covers limit occurs) :
    covers.invariant.KeepsClasses := by
  refine fun e fuel m name superclass methods here new => .silent fun made => ?_
  refine (Eval.meets_declareClass_writes covers name superclass methods made).imp
    fun _ m' executed ⟨inherited, writes, found⟩ => ⟨?_, trivial⟩
  obtain ⟨before, id, own, same, kept, allocated, routines⟩ := writes
  have bound : (m'.store.frame id).find? name.text = some (.class ⟨own, inherited⟩) := by
    rw [same, Store.find?_frame_bind, if_pos ⟨rfl, rfl, allocated⟩]
  have declared := covers.declares here (.intro (found own).1 executed bound routines)
  have extended : (Value.class ⟨own, inherited⟩).MadeFrom origin :=
    .extend (c := ⟨own, inherited⟩) declared
      (fun key method there => new _ (routines key method there))
      (found own).2
  change m'.store.MadeFrom origin
  rw [same]
  exact kept.bind id name.text extended

/-! ## Whole tasks -/

def Task.MadeFrom (origin : Origin) : Task → Prop
  | .expr _ | .exprs _ => True
  | .call callee args _ => callee.MadeFrom origin ∧ ∀ arg ∈ args, arg.MadeFrom origin
  | .apply f args => origin.routine f.routine ∧ ∀ arg ∈ args, arg.MadeFrom origin
  | .instantiate cls args => cls.MadeFrom origin ∧ ∀ arg ∈ args, arg.MadeFrom origin
  | .stmt s => ∀ routine ∈ s.routines, origin.routine routine
  | .loop _ body => ∀ routine ∈ body.routines, origin.routine routine
  | .stmts body => ∀ routine ∈ Stmt.routinesAll body, origin.routine routine

theorem Origin.Covers.given_iff (covers : origin.Covers limit occurs) {task : Task} :
    covers.invariant.Given () task ↔ task.MadeFrom origin := by
  cases task <;> exact Iff.rfl

/-- Every task makes functions from nothing but the routines that it is given, and the classes that
it declares. -/
theorem Task.faithful (covers : origin.Covers limit occurs) (fuel : Nat) (task : Task)
    (here : occurs ⟨fuel, task, m⟩) (given : task.MadeFrom origin)
    (made : m.store.MadeFrom origin) :
    Meets (task.run limit fuel) m (fun result m' => m'.store.MadeFrom origin ∧
      covers.invariant.Yields task () result) fun _ m' => m'.store.MadeFrom origin := by
  obtain ⟨_, ends, _⟩ :=
    Invariant.keepsTask covers.keepsClasses fuel task (covers.given_iff.mpr given) made
    (List.forall_mem_singleton.mpr here)
  exact ends.2

namespace Activity

variable {a b : Activity}

structure MadeFrom (origin : Origin) (a : Activity) : Prop where
  store : a.machine.store.MadeFrom origin
  task : a.task.MadeFrom origin

/-- What the parts of an activity are given has the same origin. -/
theorem Starts.madeFrom (covers : origin.Covers limit occurs) (starts : Starts limit a b)
    (here : occurs a) (made : a.MadeFrom origin) : b.MadeFrom origin := by
  obtain ⟨_, _, runs⟩ := Invariant.keepsTask covers.keepsClasses a.fuel a.task
    (covers.given_iff.mpr made.task) made.store (List.forall_mem_singleton.mpr here)
  obtain ⟨_, _, _, _, store, given, _⟩ := runs.spans List.mem_cons_self (.single starts)
  exact ⟨store, covers.given_iff.mp given⟩

end Activity

end Lox
