import Lox.Proofs.Evaluation.Dispatch

set_option autoImplicit false

/-!
# Instances in the order in which they are made

Instances are numbered in the order in which they are made. At every moment, the values that are
there contain only instances that were made by then, and the classes among them have initializers
under the name of the initializer. What ends before something else starts has made all its instances
by then.
-/

namespace Lox

variable {α β : Type} {limit fuel count count' : Nat} {m m' m'' : Machine}

/-! ## Values -/

/-- Under the name of the initializer there is an initializer, if there is a method at all. -/
def Class.Initializes (c : Class) : Prop :=
  ∀ method, c.initializer? = some method → method.isInitializer = true

theorem Class.Initializes.extend {own : ClassLayer} {inherited : List ClassLayer}
    (here : ∀ method, own.methods.find? "init" = some method → method.isInitializer = true)
    (above : ∀ cls ∈ Class.superclass? ⟨own, inherited⟩, cls.Initializes) :
    Class.Initializes ⟨own, inherited⟩ := by
  intro method found
  rw [initializer?, findMethod?, List.findSome?_cons] at found
  split at found
  · cases found
    exact here method ‹_›
  · cases inherited with
    | nil => cases found
    | cons next rest => exact above ⟨next, rest⟩ rfl method found

def Value.Known (count : Nat) : Value → Prop
  | .class cls => cls.Initializes
  | .instance object => object.id < count ∧ object.cls.Initializes
  | _ => True

theorem Value.Known.mono {value : Value} (known : value.Known count) (more : count ≤ count') :
    value.Known count' := by
  cases value with
  | «instance» object => exact ⟨known.1.trans_le more, known.2⟩
  | «class» cls => exact known
  | nil | bool | number | string | native | function => trivial

/-- The next instance is none of those that are there. -/
theorem Value.Known.equals_next {value : Value} (known : value.Known count) (cls : Class) :
    value.equals (.instance ⟨count, cls⟩) = false := by
  cases value with
  | «instance» object => exact beq_false_of_ne known.1.ne
  | nil | bool | number | string | native | function | «class» => rfl

/-! ## Machines -/

namespace Machine

def instances (m : Machine) : Nat :=
  m.store.fields.size

def Known (m : Machine) : Prop :=
  m.store.All (Value.Known m.instances)

structure Grows (m m' : Machine) : Prop where
  known : m'.Known
  more : m.instances ≤ m'.instances

theorem known_start (clock : Clock) (output : Output) : (start clock output).Known := by
  refine ⟨fun id name value found => ?_, fun id name value found => by cases found⟩
  cases eq_native_of_start found
  trivial

theorem Known.refl (known : m.Known) : m.Grows m :=
  ⟨known, le_rfl⟩

/-- A step that makes no instance. -/
theorem Grows.withStore {s : Store} (same : s.fields.size = m.instances)
    (values : s.All (Value.Known m.instances)) : m.Grows { m with store := s } := by
  refine ⟨?_, same.ge⟩
  rw [Known, instances, same]
  exact values

end Machine

/-! ## Tasks and activities -/

def Flow.values : Flow → List Value
  | .next => []
  | .return value => [value]

namespace Task

def given : Task → List Value
  | .call callee args _ => callee :: args
  | .apply _ args => args
  | .instantiate cls args => .class cls :: args
  | _ => []

def values : (task : Task) → task.Result → List Value
  | .expr _, value | .call .., value | .apply .., value | .instantiate .., value => [value]
  | .exprs _, values => values
  | .stmt _, flow | .loop .., flow | .stmts _, flow => flow.values

end Task

namespace Eval

/-- The step comes to a state in which no fewer instances were made, and to a result of which
something holds. -/
def Extends (good : Nat → α → Prop) (x : Eval α) (m : Machine) : Prop :=
  Meets x m (fun a m' => m.Grows m' ∧ good m'.instances a) fun _ m' => m.Grows m'

theorem Extends.endState {good : Nat → α → Prop} {x : Eval α} (ends : Extends good x m) :
    m.Grows (endState (x m)) :=
  meets_endState.mp (ends.imp fun _ _ _ done => done.1)

end Eval

namespace Activity

def endInstances (limit : Nat) (a : Activity) : Nat :=
  (endState (a.task.run limit a.fuel a.machine)).instances

structure Known (a : Activity) : Prop where
  machine : a.machine.Known
  given : ∀ value ∈ a.task.given, value.Known a.machine.instances

/-- While so many instances were made, the activity takes place, and yields what can be there
then. -/
structure Spans (limit first last : Nat) (a : Activity) : Prop where
  known : a.Known
  yields : Eval.Extends (fun count result => ∀ value ∈ a.task.values result, value.Known count)
    (a.task.run limit a.fuel) a.machine
  first : first ≤ a.machine.instances
  last : a.endInstances limit ≤ last

theorem Spans.mono {first first' last last' : Nat} {a : Activity} (spans : a.Spans limit first last)
    (earlier : first' ≤ first) (later : last ≤ last') : a.Spans limit first' last' :=
  ⟨spans.known, spans.yields, earlier.trans spans.first, spans.last.trans later⟩

end Activity

/-! ## The instances of a run -/

namespace Instances

/-- In the course of a run, the values that are there can be there when so many instances were
made. -/
def invariant (limit : Nat) : Invariant Nat limit where
  state count m := m.instances = count ∧ m.Known
  env _ _ := True
  value := Value.Known
  routine _ := True
  occurs _ := True
  inner _ _ _ := trivial
  starts _ _ := trivial
  env_mono _ _ := trivial
  value_mono := Value.Known.mono
  calculated {v} _ calculated := by
    cases v with
    | nil | bool | number | string => trivial
    | native | function | «class» | «instance» => exact calculated.elim
  function_iff := by simp [Value.Known]
  method _ _ := trivial
  owner known := known.2
  current _ := trivial
  store := by
    rintro _ m ⟨rfl, known⟩
    exact known
  move := by
    rintro _ m m' ⟨rfl, known⟩ same _ _
    rw [Machine.Known, Machine.instances, Machine.instances, same]
    exact ⟨rfl, known⟩
  bind := by
    rintro _ m v id name ⟨rfl, known⟩ new
    exact ⟨rfl, Store.All.bind known id name new⟩
  setField := by
    rintro _ m v id name ⟨rfl, known⟩ new
    have written := Store.All.setField known id name new
    have same : (m.store.setField id name v).fields.size = m.instances := by
      simp [Store.setField, Machine.instances]
    exact ⟨same, (Machine.Grows.withStore same written).known⟩
  addIdentity := by
    rintro _ m ⟨rfl, known⟩
    exact ⟨_, le_rfl, rfl, known.frames, known.fields⟩
  addFrame := by
    rintro _ m outer bindings ⟨rfl, known⟩ _ values
    exact ⟨_, le_rfl, ⟨rfl, Store.All.addFrame known values⟩, trivial⟩
  addInstance := by
    rintro _ m cls ⟨rfl, known⟩ initializes
    have more : m.instances < m.store.addInstance.fields.size := by
      rw [Store.addInstance, Array.size_push]
      exact Nat.lt_succ_self _
    have all := (Store.All.addInstance known).mono fun _ old => old.mono more.le
    exact ⟨m.store.addInstance.fields.size, more.le, ⟨rfl, all⟩, more, initializes⟩

theorem keepsClasses (limit : Nat) : (invariant limit).KeepsClasses :=
  Invariant.keepsClasses fun _ _ _ _ above methods =>
    .extend (fun method found => (methods "init" method found).2) above

theorem given_iff {task : Task} :
    (invariant limit).Given count task ↔ ∀ value ∈ task.given, value.Known count := by
  cases task with
  | call | instantiate => exact List.forall_mem_cons.symm
  | apply => exact ⟨And.right, fun known => ⟨trivial, known⟩⟩
  | expr | exprs | stmt | loop | stmts => simp [Invariant.Given, Task.given, invariant]

theorem known_of_yields {task : Task} {result : task.Result}
    (yields : (invariant limit).Yields task count result) :
    ∀ value ∈ task.values result, value.Known count := by
  cases task with
  | exprs => exact yields
  | expr | call | apply | instantiate => exact List.forall_mem_singleton.mpr yields
  | stmt | loop | stmts =>
    cases result with
    | next => exact List.forall_mem_nil _
    | «return» => exact List.forall_mem_singleton.mpr yields

theorem spans {first last : Nat} {a : Activity} (spans : (invariant limit).Spans first last a) :
    a.Spans limit first last := by
  obtain ⟨_, count, le, le', ⟨rfl, known⟩, given, more, meets⟩ := spans
  have grows {m : Machine} (there : (invariant limit).state count m) : a.machine.Grows m :=
    ⟨there.2, there.1 ▸ more⟩
  refine ⟨⟨known, given_iff.mp given⟩, ?_, le, ?_⟩
  · refine meets.mono (fun _ m' _ done => ⟨grows done.1, ?_⟩) fun _ _ _ stopped => grows stopped
    rw [done.1.1]
    exact known_of_yields done.2
  · have ended : (invariant limit).state count (endState (a.task.run limit a.fuel a.machine)) :=
      meets_endState.mp (meets.imp fun _ _ _ done => done.1)
    rw [Activity.endInstances, ended.1]
    exact le'

end Instances

namespace Activity

variable {a : Activity}

/-- All that is reached takes place while the activity does. -/
theorem Known.spans (known : a.Known) {b : Activity} (reaches : a.Reaches limit b) :
    b.Spans limit a.machine.instances (a.endInstances limit) := by
  obtain ⟨count, ends, runs⟩ := Invariant.keepsTask (Instances.keepsClasses limit) a.fuel a.task
    (Instances.given_iff.mpr known.given) ⟨rfl, known.machine⟩
    (List.forall_mem_singleton.mpr trivial)
  have ended : (Instances.invariant limit).state count
      (endState (a.task.run limit a.fuel a.machine)) :=
    meets_endState.mp (ends.2.imp fun _ _ _ done => done.1)
  rw [endInstances, ended.1]
  exact Instances.spans (runs.spans List.mem_cons_self reaches)

/-- Whatever takes place in the course of one part has ended when something in the course of a later
one starts. -/
theorem Known.pairwise (known : a.Known) :
    (a.parts limit).Pairwise fun first second => ∀ b c, first.Reaches limit b →
      second.Reaches limit c →
      b.endInstances limit ≤ c.machine.instances := by
  obtain ⟨_, _, runs⟩ := Invariant.keepsParts (Instances.keepsClasses limit) a.fuel a.task trivial
    (Instances.given_iff.mpr known.given) ⟨rfl, known.machine⟩ fun _ _ => trivial
  refine runs.pairwise.imp fun order b c inFirst inSecond => ?_
  obtain ⟨between, earlier, later⟩ := order b c inFirst inSecond
  exact (Instances.spans earlier).last.trans (Instances.spans later).first

end Activity

/-! ## Initializers that are obtained -/

namespace Activity

variable {name : String} {cls : Class} {object : Instance} {f : Function} {a : Activity}

/-- The class that a method is looked for in. -/
theorem Obtains.initializes (obtains : a.Obtains limit name cls object f) (known : a.Known) :
    cls.Initializes := by
  cases obtains with
  | @access fuel m m' m'' id target name object f evaluated noField obtained =>
    have start : Activity.Known ⟨fuel, .expr target, m⟩ := ⟨known.machine, List.forall_mem_nil _⟩
    have spans : Activity.Spans limit _ _ ⟨fuel, .expr target, m⟩ := start.spans .refl
    obtain ⟨_, yields⟩ := spans.yields.ok_of_eq evaluated
    exact (List.forall_mem_singleton.mp yields).2
  | super entry above this obtained =>
    have there : (Value.class cls).Known _ := Store.All.getAt? known.machine above
    exact there
  | initializer declared made tied =>
    have there : (Value.class cls).Known _ := known.given _ List.mem_cons_self
    exact there

/-- What is obtained is an initializer if the method is. -/
theorem Obtains.exists_method (obtains : a.Obtains limit name cls object f) :
    ∃ method, cls.findMethod? name = some method ∧ f.isInitializer = method.isInitializer := by
  have tied {m m' : Machine} {method : Function} (found : cls.findMethod? name = some method)
      (bound : Eval.bindMethod method object m = .ok f m') :
      ∃ method, cls.findMethod? name = some method ∧ f.isInitializer = method.isInitializer := by
    refine ⟨method, found, ?_⟩
    cases bound
    rfl
  cases obtains with
  | @access fuel m m' m'' id target name object f evaluated noField obtained =>
    have looked : Eval.tieMethod object.cls object name.text name.span m' =
        .ok (.function f) m'' := by
      rw [← Eval.getProperty_eq noField]
      exact (bind_of_ok evaluated).symm.trans obtained
    obtain ⟨home, method, finds, bound⟩ := Eval.finds_of_tieMethod looked
    exact tied (Class.findMethod?_eq_some_iff.mpr ⟨home, finds⟩) bound
  | super entry above this obtained =>
    have looked := (Eval.superMethod_eq entry above this).symm.trans obtained
    obtain ⟨home, method, finds, bound⟩ := Eval.finds_of_tieMethod looked
    exact tied (Class.findMethod?_eq_some_iff.mpr ⟨home, finds⟩) bound
  | initializer declared made bound => exact tied declared bound

theorem Obtains.isInitializer (obtains : a.Obtains limit "init" cls object f) (known : a.Known) :
    f.isInitializer = true := by
  obtain ⟨method, found, same⟩ := obtains.exists_method
  rw [same]
  exact obtains.initializes known method found

end Activity

end Lox
