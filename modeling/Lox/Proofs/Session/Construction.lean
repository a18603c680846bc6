import Lox.Proofs.Evaluation.Instances
import Lox.Proofs.Evaluation.Raising
import Lox.Proofs.Session.Dispatch

set_option autoImplicit false

/-!
# Calls and construction in a session

In a session, a function is only applied to as many values as it has parameters. A class that is
called yields an instance that was not there before, and an initializer that is called on its own
yields the instance that it is tied to, however its body ends.
-/

namespace Lox

/-! ## Calls -/

section Calls

variable {limit fuel : Nat} {m m' : Machine} {cls : Class} {args : List Value} {v : Value}

/-- A class yields the next instance. -/
theorem Eval.instance_of_instantiate (done : Eval.instantiate limit fuel cls args m = .ok v m') :
    v = .instance ⟨m.instances, cls⟩ := by
  cases fuel with
  | zero => cases done
  | succ fuel =>
    obtain ⟨object, m₁, made⟩ := exists_newInstance cls m
    have next : object = ⟨m.instances, cls⟩ := by
      cases made
      rfl
    rw [← next]
    cases declared : cls.initializer? with
    | none =>
      cases (instantiate_of_none declared made).symm.trans done
      rfl
    | some method =>
      obtain ⟨bound, m₂, tied⟩ := exists_bindMethod method object m₁
      rw [instantiate_of_some declared made tied] at done
      cases outcome : Eval.apply limit fuel bound args m₂ with
      | ok value m₃ =>
        cases (bind_of_ok outcome).symm.trans done
        rfl
      | error e m₃ => cases (bind_of_error outcome).symm.trans done

/-- A call that comes to a value is one of something that takes so many arguments. -/
theorem Eval.arity_of_call {callee : Value} {span : Span}
    (done : Eval.call limit fuel callee args span m = .ok v m') :
    callee.arity? = some args.length := by
  cases fuel with
  | zero => cases done
  | succ fuel =>
    rw [Eval.call] at done
    cases callable : callee.callable? with
    | none =>
      rw [callable] at done
      cases done
    | some f =>
      rw [callable] at done
      dsimp only at done
      split at done
      · cases done
      · rw [Value.arity?, callable]
        exact congrArg some (not_not.mp ‹_›)

theorem Eval.instance_of_call_class {span : Span}
    (done : Eval.call limit fuel (.class cls) args span m = .ok v m') :
    v = .instance ⟨m.instances, cls⟩ := by
  have arity : cls.arity = args.length := Option.some.inj (arity_of_call done)
  cases fuel with
  | zero => cases done
  | succ fuel =>
    rw [call_class limit arity] at done
    exact instance_of_instantiate done

/-- The faults of the activity are those of the body of a function, if there is one. -/
def Activity.FailsIn (limit : Nat) (f? : Option Function) (a : Activity) : Prop :=
  ∀ e, a.Fails limit (.fault e) →
    ∃ f ∈ f?, ∃ b, a.Reaches limit b ∧ b.task = .stmts f.routine.body ∧ b.Fails limit (.fault e)

/-- An activity that fails only as a part of it does. -/
theorem Activity.FailsIn.of_starts {f? : Option Function} {a b : Activity}
    (failsIn : b.FailsIn limit f?)
    (starts : a.Starts limit b) (same : ∀ e, a.Fails limit (.fault e) → b.Fails limit (.fault e)) :
    a.FailsIn limit f? := by
  intro e fails
  obtain ⟨f, member, c, reaches, task, failsThere⟩ := failsIn e (same e fails)
  exact ⟨f, member, c, .head starts reaches, task, failsThere⟩

def Activity.results (limit : Nat) (a : Activity) : List Value :=
  match a.task.run limit a.fuel a.machine with
  | .ok result _ => a.task.values result
  | .error .. => []

theorem Activity.mem_results {a : Activity} : v ∈ a.results limit ↔
    ∃ result m', a.task.run limit a.fuel a.machine = .ok result m' ∧ v ∈ a.task.values result := by
  unfold results
  cases a.task.run limit a.fuel a.machine <;> simp

end Calls

/-! ## Before and after -/

namespace History

variable {h : History} {runs : List (Nat × String)} {a b c : Activity}

/-- One activity has ended when another one starts, while the texts are run: in an earlier run, or
in an earlier part of some activity. -/
inductive Earlier : History → List (Nat × String) → Activity → Activity → Prop where
  | now {h : History} {fuel : Nat} {source : String} {rest : List (Nat × String)}
      {program : Program}
      {depths : Depths} {nextId : ExprId} {a first second b c : Activity}
      (checked : Program.check source h.session.nextId = (.ok (program, depths), nextId))
      (reaches : (h.session.activity fuel program depths).Reaches callLimit a)
      (order : [first, second].Sublist (a.parts callLimit)) (inFirst : first.Reaches callLimit b)
      (inSecond : second.Reaches callLimit c) :
    Earlier h ((fuel, source) :: rest) b c
  | before {h : History} {fuel : Nat} {source : String} {rest : List (Nat × String)}
      {program : Program}
      {depths : Depths} {nextId : ExprId} {b c : Activity}
      (checked : Program.check source h.session.nextId = (.ok (program, depths), nextId))
      (reaches : (h.session.activity fuel program depths).Reaches callLimit b)
      (occurs : (h.run fuel source).Occurs rest c) :
    Earlier h ((fuel, source) :: rest) b c
  | later {h : History} {fuel : Nat} {source : String} {rest : List (Nat × String)}
      {b c : Activity} :
    Earlier (h.run fuel source) rest b c → Earlier h ((fuel, source) :: rest) b c

/-- A value is there when an activity starts: a variable or a field holds it, the activity is given
it, or something has yielded it that has ended by then. -/
inductive Present (h : History) (runs : List (Nat × String)) (c : Activity) : Value → Prop where
  | variable {id : FrameId} {name : String} {value : Value}
      (bound : (c.machine.store.frame id).find? name = some value) : Present h runs c value
  | field {id : InstanceId} {name : String} {value : Value}
      (held : (c.machine.store.fieldsOf id).find? name = some value) : Present h runs c value
  | given {value : Value} (member : value ∈ c.task.given) : Present h runs c value
  | yielded {b : Activity} {value : Value} (earlier : h.Earlier runs b c)
      (member : value ∈ b.results callLimit) : Present h runs c value

section Run

variable {fuel : Nat} {source : String} {program : Program} {depths : Depths} {nextId : ExprId}
variable (known : h.session.machine.Known)
include known

/-- All that takes place in a run takes place between its first and its last state. -/
theorem spans_of_reaches
    (checked : Program.check source h.session.nextId = (.ok (program, depths), nextId))
    (reaches : (h.session.activity fuel program depths).Reaches callLimit a) :
    a.Spans callLimit h.session.machine.instances
      (h.run fuel source).session.machine.instances := by
  have root : (h.session.activity fuel program depths).Known := ⟨known, List.forall_mem_nil _⟩
  rw [session_run_of_check checked]
  exact root.spans reaches

theorem grows_run (fuel : Nat) (source : String) :
    h.session.machine.Grows (h.run fuel source).session.machine := by
  rcases checked :
    Program.check source h.session.nextId with ⟨diagnostics | ⟨program, depths⟩, nextId⟩
  · rw [run, Session.run_of_refused checked]
    exact known.refl
  · have root : (h.session.activity fuel program depths).Reaches callLimit _ := .refl
    have grows := (spans_of_reaches known checked root).yields.endState
    rw [session_run_of_check checked]
    exact ⟨grows.known, grows.more⟩

end Run

theorem Occurs.spans (occurs : h.Occurs runs a) (known : h.session.machine.Known) :
    ∃ last, a.Spans callLimit h.session.machine.instances last := by
  induction occurs with
  | now checked reaches => exact ⟨_, spans_of_reaches known checked reaches⟩
  | @later h fuel source rest a _ inductionHypothesis =>
    have grows := grows_run known fuel source
    obtain ⟨last, spans⟩ := inductionHypothesis grows.known
    exact ⟨last, spans.mono grows.more le_rfl⟩

theorem Earlier.endInstances_le (earlier : h.Earlier runs b c) (known : h.session.machine.Known) :
    b.endInstances callLimit ≤ c.machine.instances := by
  induction earlier with
  | @now h fuel source rest program depths nextId a first second b c checked reaches order
      inFirst inSecond =>
    have here := (spans_of_reaches known checked reaches).known
    have pair := here.pairwise.sublist order
    exact List.rel_of_pairwise_cons pair (List.mem_singleton_self second) b c inFirst inSecond
  | @before h fuel source rest program depths nextId b c checked reaches occurs =>
    obtain ⟨last, spans⟩ := occurs.spans (grows_run known fuel source).known
    exact (spans_of_reaches known checked reaches).last.trans spans.first
  | @later h fuel source rest b c _ inductionHypothesis =>
    exact inductionHypothesis (grows_run known fuel source).known

theorem Earlier.occurs (earlier : h.Earlier runs b c) : h.Occurs runs b := by
  induction earlier with
  | @now h fuel source rest program depths nextId a first second b c checked reaches order
      inFirst inSecond =>
    have starts : a.Starts callLimit first :=
      Activity.mem_parts_iff.mp (order.subset List.mem_cons_self)
    exact .now checked (reaches.trans (.head starts inFirst))
  | before checked reaches occurs => exact .now checked reaches
  | later _ inductionHypothesis => exact .later inductionHypothesis

/-- What is there when an activity starts contains no instance that is made later. -/
theorem Present.known {value : Value} (present : h.Present runs c value) (occurs : h.Occurs runs c)
    (known : h.session.machine.Known) : value.Known c.machine.instances := by
  obtain ⟨_, spans⟩ := occurs.spans known
  cases present with
  | «variable» bound => exact spans.known.machine.frames _ _ _ bound
  | field held => exact spans.known.machine.fields _ _ _ held
  | given member => exact spans.known.given _ member
  | yielded earlier member =>
    obtain ⟨result, m, done, member⟩ := Activity.mem_results.mp member
    obtain ⟨_, spansEarlier⟩ := earlier.occurs.spans known
    obtain ⟨_, yields⟩ := spansEarlier.yields.ok_of_eq done
    have ended := earlier.endInstances_le known
    rw [Activity.endInstances, done] at ended
    exact (yields value member).mono ended

/-! ## Initializers -/

section Initializers

variable {cls : Class} {object : Instance} {f : Function} {args : List Value} {fuel : Nat}
  {m m' : Machine}

/-- When the body of a method has ended, the frame of the method still has the instance that it is
tied to. -/
theorem Occurs.getAt?_this {name : String} (occurs : h.Occurs runs a)
    (fits : h.session.Fits h.programs) (obtains : a.Obtains callLimit name cls object f)
    (applied : h.Occurs runs ⟨fuel + 1, .apply f args, m⟩) :
    ((Eval.bodyOf fuel f args m).endStore callLimit).getAt? f.closure 0 "this" =
      some (.instance object) := by
  obtain ⟨r, fitsHere, _⟩ := occurs.fits fits
  obtain ⟨_, _, _, _, tied⟩ := obtains.finds fitsHere
  have body : h.Occurs runs (Eval.bodyOf fuel f args m) := applied.starts (.body rfl)
  -- The frame was there when the function was applied, and frames stay.
  have allocated : f.closure.frame <
      ((Eval.bodyOf fuel f args m).endStore callLimit).frames.size := by
    obtain ⟨_, ⟨_, _, ⟨_, stand, _⟩, _⟩, _⟩ := applied.fits fits
    obtain ⟨_, fitsBody, _⟩ := body.fits fits
    have before := (Store.Precedes.addFrame m.store (f.bindArguments args)).trans
      (fitsBody.precedes_endStore callLimit)
    exact (Store.StandFor.allocated stand).trans_le before.size
  have same :=
    Shows.find?_eq (.after occurs) (.after body) fits (Store.allocated_of_find? tied.this) allocated
    (.inl rfl : IsReserved "this")
  exact same.symm.trans tied.this

/-- An initializer that is applied ends as its body does, with the instance that it is tied to. -/
theorem Occurs.apply_initializer (occurs : h.Occurs runs a) (fits : h.session.Fits h.programs)
    (known : h.session.machine.Known) (obtains : a.Obtains callLimit "init" cls object f)
    (applied : h.Occurs runs ⟨fuel + 1, .apply f args, m⟩) :
    Meets (Eval.apply callLimit (fuel + 1) f args) m (fun v _ => v = .instance object)
      fun e _ => (Eval.bodyOf fuel f args m).Fails callLimit e := by
  obtain ⟨_, spans⟩ := occurs.spans known
  have initializer : f.isInitializer = true := obtains.isInitializer spans.known
  have this := occurs.getAt?_this fits obtains applied
  have body : Meets (Eval.within (Eval.bodyOf fuel f args m).machine.env
        (Eval.stmts callLimit fuel f.routine.body))
      { m with store := m.store.addFrame (f.bindArguments args) }
      (fun _ m₁ => m₁.store.getAt? f.closure 0 "this" = some (.instance object))
      fun e _ => (Eval.bodyOf fuel f args m).Fails callLimit e := by
    refine Eval.meets_within.mpr
      (meets_iff.mpr ⟨fun flow m₁ outcome => ?_, fun e m₁ outcome => ⟨m₁, outcome⟩⟩)
    have ended : (Eval.bodyOf fuel f args m).endStore callLimit = m₁.store := by
      rw [Activity.endStore]
      exact congrArg (fun result => (endState result).store) outcome
    rw [← ended]
    exact this
  refine meets_bind.mpr (body.bind fun flow m₁ _ there => ?_)
  rw [if_pos initializer]
  refine meets_bind.mpr ?_
  rw [meets_get, Store.getAt, there]
  exact rfl

theorem Occurs.apply_obtained (occurs : h.Occurs runs a) (fits : h.session.Fits h.programs)
    (known : h.session.machine.Known) (obtains : a.Obtains callLimit "init" cls object f)
    (applied : h.Occurs runs ⟨fuel, .apply f args, m⟩) :
    (∀ v m', Eval.apply callLimit fuel f args m = .ok v m' → v = .instance object) ∧
      Activity.FailsIn callLimit (some f) ⟨fuel, .apply f args, m⟩ := by
  cases fuel with
  | zero =>
    constructor
    · rintro v m' ⟨⟩
    · rintro e ⟨m', ⟨⟩⟩
  | succ fuel =>
    have meets := occurs.apply_initializer fits known obtains applied
    refine ⟨fun v m' => meets.ok_of_eq, fun e fails => ?_⟩
    obtain ⟨m', failure⟩ := fails
    exact ⟨f, rfl, _, .single (.body rfl), rfl, meets.error_of_eq failure⟩

/-- A call of an initializer that was obtained, with the right number of arguments. -/
theorem Occurs.call_obtained (occurs : h.Occurs runs a) (fits : h.session.Fits h.programs)
    (known : h.session.machine.Known) (obtains : a.Obtains callLimit "init" cls object f)
    {span : Span} (called : h.Occurs runs ⟨fuel, .call (.function f) args span, m⟩)
    (arity : f.arity = args.length) :
    (∀ v m', Eval.call callLimit fuel (.function f) args span m = .ok v m' → v = .instance object) ∧
      Activity.FailsIn callLimit (some f) ⟨fuel, .call (.function f) args span, m⟩ := by
  cases fuel with
  | zero =>
    constructor
    · rintro v m' ⟨⟩
    · rintro e ⟨m', ⟨⟩⟩
  | succ fuel =>
    have starts : Activity.Starts callLimit ⟨fuel + 1, .call (.function f) args span, m⟩
        ⟨fuel, .apply f args, m⟩ := .apply arity
    have same : Eval.call callLimit (fuel + 1) (.function f) args span =
        Eval.apply callLimit fuel f args :=
      Eval.call_function callLimit arity span
    obtain ⟨yields, failsIn⟩ := occurs.apply_obtained fits known obtains (called.starts starts)
    rw [same]
    refine ⟨yields, failsIn.of_starts starts fun e fails => ?_⟩
    rwa [Activity.Fails, Task.run, same] at fails

/-- Making an instance fails only in the initializer of the class. -/
theorem Occurs.instantiate_failsIn (fits : h.session.Fits h.programs)
    (known : h.session.machine.Known)
    (occurs : h.Occurs runs ⟨fuel, .instantiate cls args, m⟩) :
    Activity.FailsIn callLimit cls.initializer? ⟨fuel, .instantiate cls args, m⟩ := by
  rintro e ⟨m', failure⟩
  cases fuel with
  | zero => cases failure
  | succ fuel =>
    obtain ⟨method, object, m₁, bound, m₂, declared, made, tied, outcome⟩ :=
      Eval.exists_initializer_of_fault failure
    have obtains : Activity.Obtains callLimit ⟨fuel + 1, .instantiate cls args, m⟩ "init" cls
        object bound :=
      .initializer declared made tied
    have starts : Activity.Starts callLimit ⟨fuel + 1, .instantiate cls args, m⟩
        ⟨fuel, .apply bound args, m₂⟩ := .initializer declared made tied
    obtain ⟨_, failsIn⟩ := occurs.apply_obtained fits known obtains (occurs.starts starts)
    obtain ⟨_, ⟨⟩, b, reaches, task, failsThere⟩ := failsIn e ⟨m', outcome⟩
    refine ⟨method, declared, b, .head starts reaches, ?_, failsThere⟩
    cases tied
    exact task

/-- A call of a class, with the right number of arguments. -/
theorem Occurs.call_class_failsIn (fits : h.session.Fits h.programs)
    (known : h.session.machine.Known)
    {span : Span} (called : h.Occurs runs ⟨fuel, .call (.class cls) args span, m⟩)
    (arity : cls.arity = args.length) :
    Activity.FailsIn callLimit cls.initializer? ⟨fuel, .call (.class cls) args span, m⟩ := by
  cases fuel with
  | zero => rintro e ⟨m', ⟨⟩⟩
  | succ fuel =>
    have starts : Activity.Starts callLimit ⟨fuel + 1, .call (.class cls) args span, m⟩
        ⟨fuel, .instantiate cls args, m⟩ := .instantiate arity
    have same : Eval.call callLimit (fuel + 1) (.class cls) args span =
        Eval.instantiate callLimit fuel cls args := Eval.call_class callLimit arity span
    refine (Occurs.instantiate_failsIn fits known (called.starts starts)).of_starts starts
      fun e fails => ?_
    rwa [Activity.Fails, Task.run, same] at fails

end Initializers

structure Matches (params : List Ident) (args : List Value) (bindings : Bindings Value) : Prop where
  length : params.length = args.length
  names : (params.zip args).map Prod.fst = params
  values : (params.zip args).map Prod.snd = args
  bound : ∀ name, bindings.contains name = true ↔ name ∈ params.map Ident.text

theorem matches_of_arity {f : Function} {args : List Value} (arity : f.arity = args.length) :
    Matches f.routine.params args (f.bindArguments args) where
  length := arity
  names := List.map_fst_zip arity.le
  values := List.map_snd_zip arity.ge
  bound := contains_bindArguments arity

theorem Occurs.arity {fuel : Nat} {f : Function} {args : List Value} {m : Machine}
    (occurs : h.Occurs runs ⟨fuel, .apply f args, m⟩) (fits : h.session.Fits h.programs) :
    f.arity = args.length := by
  obtain ⟨_, ⟨_, _, _, _, arity⟩, _⟩ := occurs.fits fits
  exact arity

/-- A call of a class, as an activity, comes to an instance of the class that is made in its course,
and that is none of the values that are there when it starts. -/
structure Constructs (h : History) (runs : List (Nat × String)) (a : Activity)
    (cls : Class) (v : Value) (m' : Machine) : Prop where
  yields : v = .instance ⟨a.machine.store.fields.size, cls⟩
  made : a.machine.store.fields.size < m'.store.fields.size
  new : ∀ value, h.Present runs a value → value.equals v = false

theorem Occurs.constructs {fuel : Nat} {cls : Class} {args : List Value} {span : Span}
    {m m' : Machine} {v : Value} (occurs : h.Occurs runs ⟨fuel, .call (.class cls) args span, m⟩)
    (known : h.session.machine.Known)
    (done : Eval.call callLimit fuel (.class cls) args span m = .ok v m') :
    h.Constructs runs ⟨fuel, .call (.class cls) args span, m⟩ cls v m' := by
  obtain rfl := Eval.instance_of_call_class done
  obtain ⟨_, spans⟩ := occurs.spans known
  obtain ⟨_, yields⟩ := spans.yields.ok_of_eq done
  have there : (Value.instance ⟨m.instances, cls⟩).Known m'.instances :=
    List.forall_mem_singleton.mp yields
  exact ⟨rfl, there.1, fun value present => (present.known occurs known).equals_next cls⟩

end History

/-! ## Calls that can be pointed at -/

namespace Task

def calledClass? : Task → Option Class
  | .call (.class cls) _ _ => some cls
  | _ => none

def calledProperty? : Task → Option String
  | .expr (.call _ _ (.get _ _ name) _) => some name.text
  | _ => none

theorem exists_of_calledClass? {task : Task} {cls : Class} (found : task.calledClass? = some cls) :
    ∃ args span, task = .call (.class cls) args span := by
  unfold calledClass? at found
  split at found
  · cases found
    exact ⟨_, _, rfl⟩
  · cases found

theorem exists_of_calledProperty? {task : Task} {name : String}
    (found : task.calledProperty? = some name) :
    ∃ i span j target ident args,
      task = .expr (.call i span (.get j target ident) args) ∧ ident.text = name := by
  unfold calledProperty? at found
  split at found
  · cases found
    exact ⟨_, _, _, _, _, _, rfl, rfl⟩
  · cases found

end Task

namespace Activity

variable {limit : Nat} {a b target : Activity} {object : Instance}

def instance? (limit : Nat) (a : Activity) : Option Instance :=
  match a.results limit with
  | [.instance object] => some object
  | _ => none

theorem results_of_instance? (found : a.instance? limit = some object) :
    a.results limit = [.instance object] := by
  unfold instance? at found
  split at found
  · cases found
    assumption
  · cases found

/-- A method of an instance that is called was obtained right before. -/
theorem exists_obtains {name : String} (property : a.task.calledProperty? = some name)
    (starts : a.Starts limit b) (call : b.isCall = true)
    (first : a.part? limit [0, 0] = some target) (evaluated : target.instance? limit = some object)
    (noField : ((target.endStore limit).fieldsOf object.id).find? name = none) :
    ∃ access f args span, a.Starts limit access ∧ access.Obtains limit name object.cls object f ∧
      b.task = .call (.function f) args span := by
  obtain ⟨fuel, task, m⟩ := a
  obtain ⟨i, span, j, inner, ident, args, rfl, rfl⟩ := Task.exists_of_calledProperty? property
  cases starts with
  | callee | args => cases call
  | @call fuel m m' m'' i span callee args v values computed second allowed =>
    cases fuel with
    | zero => cases computed
    | succ fuel =>
      have same : some (⟨fuel, .expr inner, m⟩ : Activity) = some target := first
      cases same
      have result := results_of_instance? evaluated
      obtain ⟨v, m₁, done, member⟩ := mem_results.mp (result ▸ List.mem_singleton_self _)
      obtain rfl := List.mem_singleton.mp member
      have absent : (m₁.store.fieldsOf object.id).find? ident.text = none := by
        rw [endStore, done] at noField
        exact noField
      have looked : Eval.getProperty object ident.text ident.span m₁ = .ok v m' :=
        (bind_of_ok done).symm.trans computed
      rw [Eval.getProperty_eq absent, Eval.tieMethod] at looked
      cases declared : object.cls.findMethod? ident.text with
      | none =>
        rw [declared] at looked
        cases looked
      | some method =>
        obtain ⟨f, m₂, tied⟩ := Eval.exists_bindMethod method object m₁
        rw [declared] at looked
        cases (bind_of_ok tied).symm.trans looked
        exact ⟨_, f, values, span, .callee, .access done absent computed, rfl⟩

end Activity

/-! ## Sessions -/

namespace History

/-- In a session, a function is applied to as many values as it has parameters: each of these gets
one, and none is left over. A class that is called yields a new instance of it, different from every
value that is there by then, and with the right number of arguments it fails only in its
initializer. An initializer that was obtained from an instance or through `super`, or in making an
instance, yields that instance whenever it is called, and with the right number of arguments it
fails only in its body. -/
theorem calls_and_construction (clock : Clock) (output : Output) (runs : List (Nat × String)) :
    let h := start clock output
    (∀ fuel f args m, h.Occurs runs ⟨fuel, .apply f args, m⟩ →
      Matches f.routine.params args (f.bindArguments args)) ∧
    (∀ fuel cls args span m, h.Occurs runs ⟨fuel, .call (.class cls) args span, m⟩ →
      (∀ v m', Eval.call callLimit fuel (.class cls) args span m = .ok v m' →
        h.Constructs runs ⟨fuel, .call (.class cls) args span, m⟩ cls v m') ∧
      (cls.arity = args.length →
        Activity.FailsIn callLimit cls.initializer? ⟨fuel, .call (.class cls) args span, m⟩)) ∧
    ∀ a cls object f, h.Occurs runs a → a.Obtains callLimit "init" cls object f →
      ∀ fuel args span m, h.Occurs runs ⟨fuel, .call (.function f) args span, m⟩ →
        (∀ v m', Eval.call callLimit fuel (.function f) args span m = .ok v m' →
          v = .instance object) ∧
        (f.arity = args.length →
          Activity.FailsIn callLimit (some f) ⟨fuel, .call (.function f) args span, m⟩) := by
  intro h
  have fits : h.session.Fits h.programs := Session.fits_start clock output
  have known : h.session.machine.Known := Machine.known_start clock output
  refine ⟨fun _ _ _ _ occurs => matches_of_arity (occurs.arity fits), fun _ _ _ _ _ called =>
    ⟨fun _ _ => called.constructs known, Occurs.call_class_failsIn fits known called⟩, ?_⟩
  intro a cls object f occurs obtains fuel args span m called
  have outcome := occurs.call_obtained fits known obtains called
  refine ⟨fun v m' done => ?_, fun arity => (outcome arity).2⟩
  exact (outcome (Option.some.inj (Eval.arity_of_call done))).1 v m' done

/-- Two instances of a class with an inherited initializer, which is left from the inside of a loop.
The second one is new, and yielded again when its initializer is called on it. -/
theorem calls_and_construction_bare_return :
    let source := "class A \x7b init(x) \x7b while (true) \x7b \x7b return; \x7d \x7d \x7d \x7d " ++
      "class B < A \x7b\x7d B(1) == B(2).init(3);"
    let h := start ⟨fun _ => 0, 0⟩ {}
    let runs := [(60, source)]
    ∃ (call direct : Activity) (cls : Class) (earlier made object : Instance),
      h.Occurs runs call ∧ call.task.calledClass? = some cls ∧ cls.own.name = "B" ∧
      (cls.own.methods.find? "init").isNone ∧ h.Present runs call (.instance earlier) ∧
      call.results callLimit = [.instance made] ∧ made.cls = cls ∧ made.id ≠ earlier.id ∧
      h.Occurs runs direct ∧ direct.isCall = true ∧ direct.results callLimit = [.instance object] ∧
      object.id = made.id := by
  intro source h runs
  have found : ((Program.check source h.session.nextId).1.toOption.bind fun accepted =>
      (Activity.part? callLimit [1, 1, 0, 0] (h.session.activity 60 accepted.1 accepted.2)).bind
        fun both =>
        (both.parts callLimit)[0]?.bind fun left => (both.parts callLimit)[1]?.bind fun right =>
          (right.part? callLimit [0, 0]).bind fun target =>
            (target.part? callLimit [2]).bind fun call =>
            (right.parts callLimit)[2]?.bind fun direct => call.task.calledClass?.bind fun cls =>
              (left.instance? callLimit).bind fun earlier =>
                (call.instance? callLimit).bind fun made =>
                (target.instance? callLimit).bind fun object =>
                  (direct.instance? callLimit).map fun _ =>
                  right.task.calledProperty? == some "init" && direct.isCall &&
                    (((target.endStore callLimit).fieldsOf object.id).find? "init").isNone &&
                      cls.own.name == "B" && (cls.own.methods.find? "init").isNone &&
                        object.id == made.id) = some true := by
    decide +kernel
  obtain ⟨⟨program, depths⟩, accepted, found⟩ := Option.bind_eq_some_iff.mp found
  obtain ⟨both, path, found⟩ := Option.bind_eq_some_iff.mp found
  obtain ⟨left, first, found⟩ := Option.bind_eq_some_iff.mp found
  obtain ⟨right, second, found⟩ := Option.bind_eq_some_iff.mp found
  obtain ⟨target, inner, found⟩ := Option.bind_eq_some_iff.mp found
  obtain ⟨call, innermost, found⟩ := Option.bind_eq_some_iff.mp found
  obtain ⟨direct, last, found⟩ := Option.bind_eq_some_iff.mp found
  obtain ⟨cls, called, found⟩ := Option.bind_eq_some_iff.mp found
  obtain ⟨earlier, leftYields, found⟩ := Option.bind_eq_some_iff.mp found
  obtain ⟨made, callYields, found⟩ := Option.bind_eq_some_iff.mp found
  obtain ⟨object, targetYields, found⟩ := Option.bind_eq_some_iff.mp found
  obtain ⟨result, directYields, facts⟩ := Option.map_eq_some_iff.mp found
  simp only [Bool.and_eq_true, Option.isNone_iff_eq_none, beq_iff_eq] at facts
  obtain ⟨⟨⟨⟨⟨property, isCall⟩, noField⟩, name⟩, inherits⟩, same⟩ := facts
  obtain ⟨nextId, checked⟩ : ∃ nextId, Program.check source h.session.nextId =
      (.ok (program, depths), nextId) := by
    rcases outcome : Program.check source h.session.nextId with ⟨errors | result, nextId⟩
    · rw [outcome] at accepted
      cases accepted
    · rw [outcome] at accepted
      cases accepted
      exact ⟨nextId, rfl⟩
  have reached := Activity.reaches_of_part? path
  have startsRight : both.Starts callLimit right :=
    Activity.mem_parts_iff.mp (List.mem_of_getElem? second)
  have rightCall := (Activity.reaches_of_part? inner).trans (Activity.reaches_of_part? innermost)
  have order : [left, right].Sublist (both.parts callLimit) := by
    generalize both.parts callLimit = parts at first second
    rcases parts with _ | ⟨_, _ | ⟨_, rest⟩⟩
    · cases first
    · cases second
    · cases first
      cases second
      exact List.sublist_append_left [left, right] rest
  have present : h.Present runs call (.instance earlier) := by
    refine .yielded (.now checked reached order .refl rightCall) ?_
    rw [Activity.results_of_instance? leftYields]
    exact List.mem_cons_self
  have occursRight : h.Occurs runs right := .now checked (reached.tail startsRight)
  have occursCall : h.Occurs runs call := .now checked ((reached.tail startsRight).trans rightCall)
  have startsDirect : right.Starts callLimit direct :=
    Activity.mem_parts_iff.mp (List.mem_of_getElem? last)
  have occursDirect := occursRight.starts startsDirect
  obtain ⟨_, construction, initializers⟩ := calls_and_construction ⟨fun _ => 0, 0⟩ {} runs
  have callResults := Activity.results_of_instance? callYields
  have directResults := Activity.results_of_instance? directYields
  obtain ⟨access, f, args, span, startsAccess, obtains, task⟩ :=
    Activity.exists_obtains property startsDirect isCall inner targetYields noField
  have yielded : result = object := by
    obtain ⟨fuel, _, m⟩ := direct
    subst task
    obtain ⟨v, m', done, member⟩ :=
      Activity.mem_results.mp (directResults ▸ List.mem_singleton_self _)
    obtain rfl := List.mem_singleton.mp member
    cases (initializers _ _ _ _ (occursRight.starts startsAccess) obtains _ _ _ _
      occursDirect).1 _ _ done
    rfl
  have constructs : ∃ m', h.Constructs runs call cls (.instance made) m' := by
    obtain ⟨fuel, _, m⟩ := call
    obtain ⟨args, span, rfl⟩ := Task.exists_of_calledClass? called
    obtain ⟨v, m', done, member⟩ :=
      Activity.mem_results.mp (callResults ▸ List.mem_singleton_self _)
    obtain rfl := List.mem_singleton.mp member
    exact ⟨m', (construction _ _ _ _ _ occursCall).1 _ _ done⟩
  obtain ⟨m', constructs⟩ := constructs
  have new : (earlier.id == made.id) = false := constructs.new _ present
  refine ⟨call, direct, cls, earlier, made, object, occursCall, called, name, ?_, present,
    callResults, ?_, ?_, occursDirect, isCall, ?_, same⟩
  · rw [inherits]
    rfl
  · cases constructs.yields
    rfl
  · exact (beq_eq_false_iff_ne.mp new).symm
  · rw [directResults, yielded]

end History

end Lox
