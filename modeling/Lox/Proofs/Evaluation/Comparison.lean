import Lox.Proofs.Evaluation.Control
import Lox.Proofs.Value.Related

set_option autoImplicit false

/-!
# Two machines side by side

Two machines run programs of which one was made from the other, and each of them takes a step. One
of the two may run out of fuel where the other one goes on. Unless this happens the outcomes are of
one kind, and the states behind them compare as the states before. If it happens, the run that goes
on has written at least what the other one had written. This is shown for the steps that do not
depend on how the states compare, and carries over from steps to their sequences.
-/

namespace Lox

inductive Flow.Related (values : Value → Value → Prop) : Flow → Flow → Prop where
  | next : Related values .next .next
  | return {v v' : Value} : values v v' → Related values (.return v) (.return v')

/-! ## Runs that are cut off -/

section CutShort

variable {α β : Type}

/-- The first run was cut off, and the second one has written all that the first one had. -/
def CutShort (result : EStateM.Result Interruption Machine α)
    (result' : EStateM.Result Interruption Machine β) : Prop :=
  ∃ m, result = .error .outOfFuel m ∧
    ∃ text, (endState result').output.text = m.output.text ++ text

variable {x : Eval α} {x' : Eval β} {m m' : Machine}

theorem CutShort.of_steady (steady : Eval.Steady x') (output : m'.output = m.output) :
    CutShort ((throw .outOfFuel : Eval α) m) (x' m') := by
  obtain ⟨text, written⟩ := (steady m').written
  exact ⟨m, rfl, text, by rw [written, output]⟩

theorem CutShort.bind {γ δ : Type} {f : α → Eval γ} {f' : β → Eval δ} (cut : CutShort (x m) (x' m'))
    (steady : ∀ b, Eval.Steady (f' b)) : CutShort ((x >>= f) m) ((x' >>= f') m') := by
  obtain ⟨n, failure, text, written⟩ := cut
  refine ⟨n, bind_of_error failure, ?_⟩
  cases done : x' m' with
  | error e n' =>
    rw [done] at written
    rw [bind_of_error done]
    exact ⟨text, written⟩
  | ok b n' =>
    rw [done] at written
    obtain ⟨more, writtenLater⟩ := (steady b n').written
    refine ⟨text ++ more, ?_⟩
    rw [bind_of_ok done, writtenLater, ← String.append_assoc]
    exact congrArg (· ++ more) written

theorem Eval.output_within (env : Env) (x : Eval α) (m : Machine) :
    (endState (within env x m)).output = (endState (x { m with env := env })).output := by
  unfold within
  cases x { m with env := env } <;> rfl

theorem Eval.within_of_error {env : Env} {e : Interruption} {n : Machine}
    (failure : x { m with env := env } = .error e n) :
    within env x m = .error e { n with env := m.env } := by
  simp only [within, failure]

theorem CutShort.withinFirst {env : Env} {result : EStateM.Result Interruption Machine β}
    (cut : CutShort (x { m with env := env }) result) : CutShort (Eval.within env x m) result := by
  obtain ⟨n, failure, written⟩ := cut
  exact ⟨_, Eval.within_of_error failure, written⟩

theorem CutShort.withinSecond {env : Env} {result : EStateM.Result Interruption Machine β}
    (cut : CutShort result (x { m with env := env })) : CutShort result (Eval.within env x m) := by
  obtain ⟨n, failure, written⟩ := cut
  refine ⟨n, failure, ?_⟩
  rw [Eval.output_within]
  exact written

theorem CutShort.counted {limit : Nat} {span : Span} (below : ¬limit ≤ m.callDepth)
    (below' : ¬limit ≤ m'.callDepth)
    (cut : CutShort (x { m with callDepth := m.callDepth + 1 })
      (x' { m' with callDepth := m'.callDepth + 1 })) :
    CutShort (Eval.counted limit span x m) (Eval.counted limit span x' m') := by
  obtain ⟨n, failure, written⟩ := cut
  refine ⟨{ n with callDepth := n.callDepth - 1 }, ?_, ?_⟩
  · simp only [Eval.counted, if_neg below, failure]
  · simp only [Eval.counted, if_neg below']
    generalize x' { m' with callDepth := m'.callDepth + 1 } = result at written
    cases result with
    | ok => exact written
    | error => exact written

end CutShort

/-- Which one of two runs may be cut off while the other one goes on. -/
inductive Shorter where
  | neither | plain | padded

namespace Shorter

variable {α β : Type} {shorter : Shorter} {x x' : Eval α} {m m' : Machine}

def CutShort : Shorter → EStateM.Result Interruption Machine α →
    EStateM.Result Interruption Machine α → Prop
  | .neither, _, _ => False
  | .plain, result, result' => Lox.CutShort result result'
  | .padded, result, result' => Lox.CutShort result' result

theorem CutShort.bind {f f' : α → Eval β} (cut : shorter.CutShort (x m) (x' m'))
    (steady : ∀ a, Eval.Steady (f a)) (steady' : ∀ a, Eval.Steady (f' a)) :
    shorter.CutShort ((x >>= f) m) ((x' >>= f') m') := by
  cases shorter with
  | neither => exact cut
  | plain => exact Lox.CutShort.bind cut steady'
  | padded => exact Lox.CutShort.bind cut steady

theorem CutShort.withinPadded {env : Env} {result : EStateM.Result Interruption Machine α}
    (cut : shorter.CutShort result (x { m with env := env })) :
    shorter.CutShort result (Eval.within env x m) := by
  cases shorter with
  | neither => exact cut
  | plain => exact Lox.CutShort.withinSecond cut
  | padded => exact Lox.CutShort.withinFirst cut

theorem CutShort.within {env env' : Env}
    (cut : shorter.CutShort (x { m with env := env }) (x' { m' with env := env' })) :
    shorter.CutShort (Eval.within env x m) (Eval.within env' x' m') := by
  refine CutShort.withinPadded ?_
  cases shorter with
  | neither => exact cut
  | plain => exact Lox.CutShort.withinFirst cut
  | padded => exact Lox.CutShort.withinSecond cut

theorem CutShort.counted {limit : Nat} {span : Span} (below : ¬limit ≤ m.callDepth)
    (below' : ¬limit ≤ m'.callDepth)
    (cut : shorter.CutShort (x { m with callDepth := m.callDepth + 1 })
      (x' { m' with callDepth := m'.callDepth + 1 })) :
    shorter.CutShort (Eval.counted limit span x m) (Eval.counted limit span x' m') := by
  cases shorter with
  | neither => exact cut
  | plain => exact Lox.CutShort.counted below below' cut
  | padded => exact Lox.CutShort.counted below' below cut

end Shorter

/-- Arguments that are bound to parameters. -/
theorem optionRel_bindAll {related : Value → Value → Prop} {name name' : String}
    {params params' : List Ident}
    (same : List.Forall₂ (fun param param' : Ident => name = param.text ↔ name' = param'.text)
      params params')
    {args args' : List Value} (values : List.Forall₂ related args args')
    {bindings bindings' : Bindings Value}
    (known : Option.Rel related (bindings.find? name) (bindings'.find? name')) :
    Option.Rel related ((Bindings.bindAll params args bindings).find? name)
      ((Bindings.bindAll params' args' bindings').find? name') := by
  induction same generalizing args args' bindings bindings' with
  | nil => exact known
  | cons first _ inductionHypothesis =>
    cases values with
    | nil => exact known
    | cons value values =>
      refine inductionHypothesis values ?_
      rw [Bindings.find?_insert, Bindings.find?_insert]
      simp only [first]
      split
      · exact .some value
      · exact known

/-! ## States -/

/-- How the stores, the environments and the functions of two machines compare. Frames that are made
are added to a list, and environments are compared at a place in the two programs. -/
structure Comparison (ω γ : Type) where
  store : List ω → Store → Store → Prop
  env : List ω → γ → Env → Env → Prop
  top : γ
  depths : Depths → Depths → Prop
  functions : List ω → Function → Function → Prop
  methods : List ω → Function → Function → Prop
  interrupted : Interruption → Interruption → Prop
  lasting : Function.Lasting functions
  lastingMethods : Function.Lasting methods
  env_later {world world' : List ω} {place : γ} {e e' : Env} :
    env world place e e' → world <+: world' → env world' place e e'
  fault (error : RuntimeError) : interrupted (.fault error) (.fault error)
  identities {world : List ω} {s s' : Store} : store world s s' → s'.identities = s.identities
  fields {world : List ω} {s s' : Store} : store world s s' → s'.fields.size = s.fields.size
  properties {world : List ω} {s s' : Store} : store world s s' → ∀ id name,
    Option.Rel (Value.Related (functions world) (methods world)) ((s.fieldsOf id).find? name)
      ((s'.fieldsOf id).find? name)
  addIdentity {world : List ω} {s s' : Store} : store world s s' →
    store world s.addIdentity s'.addIdentity
  addInstance {world : List ω} {s s' : Store} : store world s s' →
    store world s.addInstance s'.addInstance
  setField {world : List ω} {s s' : Store} {v v' : Value} (id : InstanceId) (name : String) :
    store world s s' → v.Related (functions world) (methods world) v' →
      store world (s.setField id name v) (s'.setField id name v')

attribute [instance] Comparison.lasting Comparison.lastingMethods

namespace Comparison

variable {ω γ : Type}

abbrev Values (r : Comparison ω γ) (world : List ω) : Value → Value → Prop :=
  Value.Related (r.functions world) (r.methods world)

structure Machines (r : Comparison ω γ) (world : List ω) (place : γ) (m m' : Machine) : Prop where
  store : r.store world m.store m'.store
  top : r.env world r.top m.globals m'.globals
  inside : r.env world place m.env m'.env
  depths : r.depths m.depths m'.depths
  output : m'.output = m.output
  callDepth : m'.callDepth = m.callDepth
  clock : m'.clock = m.clock

theorem Machines.withStore {r : Comparison ω γ} {world world' : List ω} {place : γ} {m m' : Machine}
    (states : r.Machines world place m m') (later : world <+: world') {s s' : Store}
    (stores : r.store world' s s') :
    r.Machines world' place { m with store := s } { m' with store := s' } :=
  { states with
    store := stores
    top := r.env_later states.top later
    inside := r.env_later states.inside later }

/-! ## Steps -/

variable {α β : Type}

/-- Outcomes of one kind, with machines that compare behind them and results that are related. -/
inductive Coincide (r : Comparison ω γ) (shorter : Shorter) (now : List ω) (place : γ)
    (related : List ω → α → α → Prop) :
    EStateM.Result Interruption Machine α → EStateM.Result Interruption Machine α → Prop where
  | ok {next : List ω} {a a' : α} {m m' : Machine} : now <+: next → r.Machines next place m m' →
    related next a a' → Coincide r shorter now place related (.ok a m) (.ok a' m')
  | error {next : List ω} {e e' : Interruption} {m m' : Machine} : now <+: next →
    r.Machines next place m m' → r.interrupted e e' →
    Coincide r shorter now place related (.error e m) (.error e' m')
  | cutShort {result result' : EStateM.Result Interruption Machine α} :
    shorter.CutShort result result' → Coincide r shorter now place related result result'

/-- Two steps have outcomes of one kind from all machines at a place. More frames may have been made
since. -/
def Alongside (r : Comparison ω γ) (shorter : Shorter) (world : List ω) (place : γ)
    (related : List ω → α → α → Prop) (x x' : Eval α) : Prop :=
  ∀ ⦃now m m'⦄, world <+: now → r.Machines now place m m' →
    r.Coincide shorter now place related (x m) (x' m')

variable {r : Comparison ω γ} {shorter : Shorter} {world : List ω} {place : γ}
variable {related : List ω → α → α → Prop} {x x' : Eval α}

theorem Coincide.earlier {now next : List ω}
    {result result' : EStateM.Result Interruption Machine α}
    (coincide : r.Coincide shorter next place related result result') (later : now <+: next) :
    r.Coincide shorter now place related result result' := by
  cases coincide with
  | ok later' states done => exact .ok (later.trans later') states done
  | error later' states faults => exact .error (later.trans later') states faults
  | cutShort cut => exact .cutShort cut

namespace Alongside

protected theorem pure {a a' : α} (here : ∀ now, world <+: now → related now a a') :
    r.Alongside shorter world place related (pure a) (pure a') :=
  fun now _ _ later states => .ok List.prefix_rfl states (here now later)

protected theorem throw {e e' : Interruption} (faults : r.interrupted e e') :
    r.Alongside shorter world place related (throw e) (throw e') :=
  fun _ _ _ _ states => .error List.prefix_rfl states faults

theorem raise (cause : RuntimeError.Cause) (span : Span) :
    r.Alongside shorter world place related (Eval.raise cause span) (Eval.raise cause span) :=
  .throw (r.fault _)

theorem later {world' : List ω} (alongside : r.Alongside shorter world place related x x')
    (later : world <+: world') : r.Alongside shorter world' place related x x' :=
  fun _ _ _ later' states => alongside (later.trans later') states

/-- Steps that are not cut off, whichever run is the shorter one. -/
theorem unbounded (alongside : r.Alongside .neither world place related x x') :
    r.Alongside shorter world place related x x' := by
  intro now m m' later states
  have outcome := alongside later states
  generalize x m = result, x' m' = result' at outcome
  cases outcome with
  | ok later' done results => exact .ok later' done results
  | error later' done faults => exact .error later' done faults
  | cutShort cut => exact cut.elim

section Bind

variable {related' : List ω → β → β → Prop} {f f' : α → Eval β}

/-- Sequences, given what follows if the first steps are cut off. -/
theorem bindWith {first : Shorter} (begin : r.Alongside first world place related x x')
    (cut : ∀ m m', first.CutShort (x m) (x' m') → shorter.CutShort ((x >>= f) m) ((x' >>= f') m'))
    (second : ∀ next a a', world <+: next → related next a a' →
      r.Alongside shorter next place related' (f a) (f' a')) :
    r.Alongside shorter world place related' (x >>= f) (x' >>= f') := by
  intro now m m' later states
  have outcome := begin later states
  have short := cut m m'
  simp only [Bind.bind, EStateM.bind] at short ⊢
  generalize x m = result, x' m' = result' at outcome short
  cases outcome with
  | ok later' done results =>
    exact (second _ _ _ (later.trans later') results List.prefix_rfl done).earlier later'
  | error later' done faults => exact .error later' done faults
  | cutShort cut => exact .cutShort (short cut)

/-- First steps that are not cut off. -/
theorem andThen (begin : r.Alongside .neither world place related x x')
    (second : ∀ next a a', world <+: next → related next a a' →
      r.Alongside shorter next place related' (f a) (f' a')) :
    r.Alongside shorter world place related' (x >>= f) (x' >>= f') :=
  begin.bindWith (fun _ _ => False.elim) second

/-- If the first step is cut off in one run, the other run goes on with the second one, and writes
more if it writes anything. -/
theorem bind (begin : r.Alongside shorter world place related x x')
    (steady : ∀ a, Eval.Steady (f a)) (steady' : ∀ a, Eval.Steady (f' a))
    (second : ∀ next a a', world <+: next → related next a a' →
      r.Alongside shorter next place related' (f a) (f' a')) :
    r.Alongside shorter world place related' (x >>= f) (x' >>= f') :=
  begin.bindWith (fun _ _ cut => cut.bind steady steady') second

end Bind

/-- A step that looks at the state first. -/
protected theorem get {f f' : Machine → Eval α}
    (step : ∀ now m m', world <+: now → r.Machines now place m m' →
      r.Alongside shorter now place related (f m) (f' m')) :
    r.Alongside shorter world place related (get >>= f) (get >>= f') :=
  fun now m m' later states => step now m m' later states List.prefix_rfl states

theorem ite {condition condition' : Prop} [Decidable condition] [Decidable condition']
    {y y' : Eval α} (same : condition' ↔ condition)
    (yes : condition → r.Alongside shorter world place related x x')
    (no : ¬condition → r.Alongside shorter world place related y y') :
    r.Alongside shorter world place related (if condition then x else y)
      (if condition' then x' else y') := by
  by_cases holds : condition
  · rw [if_pos holds, if_pos (same.mpr holds)]
    exact yes holds
  · rw [if_neg holds, if_neg (mt same.mp holds)]
    exact no holds

theorem value {v v' : Value} (values : r.Values world v v') :
    r.Alongside shorter world place r.Values (Pure.pure v) (Pure.pure v') :=
  .pure fun _ later => values.later later

/-- What is there in one store is there in the other. -/
theorem orFault {found found' : Option α} {error error' : RuntimeError}
    (values : ∀ now, world <+: now → Option.Rel (related now) found found')
    (faults : r.interrupted (.fault error) (.fault error')) :
    r.Alongside shorter world place related (Eval.ofExcept (orFault found error))
      (Eval.ofExcept (orFault found' error')) := by
  intro now m m' later states
  cases values now later with
  | some value => exact .ok List.prefix_rfl states value
  | none => exact .error List.prefix_rfl states faults

theorem ofCause {result : Except RuntimeError.Cause Value} (span : Span)
    (calculated : IsCalculated result) :
    r.Alongside shorter world place r.Values (Eval.ofCause result span)
      (Eval.ofCause result span) := by
  cases result with
  | error cause => exact .raise _ _
  | ok v =>
    cases v with
    | nil => exact .value .nil
    | bool b => exact .value (.bool b)
    | number x => exact .value (.number x)
    | string s => exact .value (.string s)
    | native | function | «class» | «instance» => exact calculated.elim

/-! ## The steps of a machine -/

theorem modifyStore {f f' : Store → Store}
    (step : ∀ now s s', world <+: now → r.store now s s' → r.store now (f s) (f' s')) :
    r.Alongside .neither world place (fun _ _ _ => True) (Eval.modifyStore f)
      (Eval.modifyStore f') :=
  fun _ _ _ later states => .ok List.prefix_rfl
    (states.withStore List.prefix_rfl (step _ _ _ later states.store)) trivial

theorem freshIdentity :
    r.Alongside .neither world place (fun _ identity identity' => identity' = identity)
      Eval.freshIdentity Eval.freshIdentity :=
  fun _ _ _ _ states => .ok List.prefix_rfl
    (states.withStore List.prefix_rfl (r.addIdentity states.store)) (r.identities states.store)

theorem within {env env' : Env} {inner : γ} (envs : r.env world inner env env')
    (step : r.Alongside shorter world inner related x x') :
    r.Alongside shorter world place related (Eval.within env x) (Eval.within env' x') := by
  intro now m m' later states
  have entered : r.Machines now inner { m with env := env } { m' with env := env' } :=
    { states with inside := r.env_later envs later }
  have outcome := step later entered
  have short := @Shorter.CutShort.within _ shorter x x' m m' env env'
  unfold Eval.within at short ⊢
  generalize x { m with env := env } = result, x' { m' with env := env' } = result' at outcome short
  cases outcome with
  | ok later' done results =>
    exact .ok later' { done with inside := r.env_later states.inside later' } results
  | error later' done faults =>
    exact .error later' { done with inside := r.env_later states.inside later' } faults
  | cutShort cut => exact .cutShort (short cut)

theorem counted (limit : Nat) (span : Span) (step : r.Alongside shorter world place related x x') :
    r.Alongside shorter world place related (Eval.counted limit span x)
      (Eval.counted limit span x') := by
  intro now m m' later states
  by_cases full : limit ≤ m.callDepth
  · simp only [Eval.counted, states.callDepth, if_pos full]
    exact Alongside.raise _ _ later states
  · have full' : ¬limit ≤ m'.callDepth := states.callDepth ▸ full
    have entered : r.Machines now place { m with callDepth := m.callDepth + 1 }
        { m' with callDepth := m'.callDepth + 1 } :=
      { states with callDepth := congrArg (· + 1) states.callDepth }
    have outcome := step later entered
    have short := @Shorter.CutShort.counted _ shorter x x' m m' limit span full full'
    simp only [Eval.counted, if_neg full, if_neg full'] at short ⊢
    generalize x { m with callDepth := m.callDepth + 1 } = result,
      x' { m' with callDepth := m'.callDepth + 1 } = result' at outcome short
    cases outcome with
    | ok later' done results =>
      exact .ok later' { done with callDepth := congrArg (· - 1) done.callDepth } results
    | error later' done faults =>
      exact .error later' { done with callDepth := congrArg (· - 1) done.callDepth } faults
    | cutShort cut => exact .cutShort (short cut)

theorem print (line : String) (span : Span) :
    r.Alongside .neither world place (fun _ _ _ => True) (Eval.print line span)
      (Eval.print line span) := by
  refine .get fun now m m' _ states => .ite (by rw [states.output]) (fun _ => ?_)
    fun _ => .raise _ _
  refine fun _ _ _ _ current => .ok List.prefix_rfl { current with output := ?_ } trivial
  exact congrArg (fun out : Output => { out with text := out.text ++ line ++ "\n" }) current.output

theorem readClock :
    r.Alongside .neither world place (fun _ reading reading' => reading' = reading)
      Eval.readClock Eval.readClock :=
  fun _ _ _ _ states => .ok List.prefix_rfl { states with clock := by rw [states.clock] }
    (by rw [states.clock])

/-! ## Instances and their methods -/

theorem newInstance {cls cls' : Class} (classes : cls.Related (r.methods world) cls') :
    r.Alongside .neither world place (fun next => Instance.Related (r.methods next))
      (Eval.newInstance cls)
      (Eval.newInstance cls') :=
  fun _ _ _ later states => .ok List.prefix_rfl
    (states.withStore List.prefix_rfl (r.addInstance states.store))
    ⟨r.fields states.store, classes.later later⟩

theorem setField {object object' : Instance} {v v' : Value} (name : String)
    (objects : object.Related (r.methods world) object') (values : r.Values world v v') :
    r.Alongside .neither world place (fun _ _ _ => True) (Eval.setField object name v)
      (Eval.setField object' name v') := by
  unfold Eval.setField
  rw [objects.id]
  exact .modifyStore fun _ _ _ later stores => r.setField _ _ stores (values.later later)

section Methods

variable (bindMethod :
  ∀ {world : List ω} {place : γ} {method method' : Function} {object object' : Instance},
  r.methods world method method' → object.Related (r.methods world) object' →
    r.Alongside .neither world place r.functions (Eval.bindMethod method object)
      (Eval.bindMethod method' object'))
include bindMethod

theorem tieMethod {cls cls' : Class} {object object' : Instance} (name : String) (span : Span)
    (classes : cls.Related (r.methods world) cls')
    (objects : object.Related (r.methods world) object') :
    r.Alongside .neither world place r.Values (Eval.tieMethod cls object name span)
      (Eval.tieMethod cls' object' name span) := by
  have method := classes.findMethod? name
  unfold Eval.tieMethod
  generalize cls.findMethod? name = found, cls'.findMethod? name = found' at method
  cases method with
  | some methods =>
    exact (bindMethod methods objects).andThen fun _ _ _ _ functions => .value (.function functions)
  | none => exact .raise _ _

theorem getProperty {object object' : Instance} (name : String) (span : Span)
    (objects : object.Related (r.methods world) object') :
    r.Alongside .neither world place r.Values (Eval.getProperty object name span)
      (Eval.getProperty object' name span) := by
  refine .get fun now m m' later states => ?_
  have field := r.properties states.store object.id name
  rw [objects.id]
  generalize (m.store.fieldsOf object.id).find? name = found,
    (m'.store.fieldsOf object.id).find? name = found' at field
  cases field with
  | some values => exact .value values
  | none => exact tieMethod bindMethod name span (objects.cls.later later) (objects.later later)

variable {limit fuel fuel' : Nat} {args args' : List Value}
  (apply : ∀ {world : List ω} {place : γ} {f f' : Function} {args args' : List Value},
    r.functions world f f' → List.Forall₂ (r.Values world) args args' →
      r.Alongside shorter world place r.Values (Eval.apply limit fuel f args)
      (Eval.apply limit fuel' f' args'))
include apply

theorem instantiate {cls cls' : Class} (classes : cls.Related (r.methods world) cls')
    (values : List.Forall₂ (r.Values world) args args') :
    r.Alongside shorter world place r.Values (Eval.instantiate limit (fuel + 1) cls args)
      (Eval.instantiate limit (fuel' + 1) cls' args') := by
  refine (newInstance classes).andThen fun next object object' later objects => ?_
  have method := classes.findMethod? "init"
  unfold Class.initializer?
  generalize cls.findMethod? "init" = found, cls'.findMethod? "init" = found' at method
  cases method with
  | none => exact .value (.instance objects)
  | some methods =>
    refine (bindMethod (Function.Lasting.later methods later) objects).andThen
      fun next' f f' later' functions => ?_
    have args := values.imp fun _ _ related => related.later (later.trans later')
    exact (apply functions args).bind (fun _ m => .refl m) (fun _ m => .refl m)
      fun _ _ _ later'' _ => .value (.instance (objects.later (later'.trans later'')))

omit bindMethod in
theorem call {callee callee' : Value} (span : Span)
    (instantiate : ∀ {cls cls' : Class}, cls.Related (r.methods world) cls' →
      r.Alongside shorter world place r.Values (Eval.instantiate limit fuel cls args)
        (Eval.instantiate limit fuel' cls' args'))
    (callees : r.Values world callee callee') (values : List.Forall₂ (r.Values world) args args') :
    r.Alongside shorter world place r.Values (Eval.call limit (fuel + 1) callee args span)
      (Eval.call limit (fuel' + 1) callee' args' span) := by
  have length := values.length_eq
  cases callees with
  | native builtin =>
    cases builtin
    refine .ite (by rw [length]) (fun _ => by rw [length]; exact .raise _ _) fun _ => ?_
    refine readClock.andThen fun _ reading reading' _ same => ?_
    rw [same]
    exact .value (.number reading)
  | function functions =>
    have arity := (r.lasting.alike functions).arity
    refine .ite (by simp only [Callable.arity, arity, length]) (fun _ => ?_) fun _ =>
      apply functions values
    simp only [Callable.arity, arity, length]
    exact .raise _ _
  | «class» classes =>
    have arity := classes.alike.arity
    refine .ite (by simp only [Callable.arity, arity, length]) (fun _ => ?_) fun _ =>
      instantiate classes
    simp only [Callable.arity, arity, length]
    exact .raise _ _
  | _ => exact .raise _ _

end Methods

/-! ## Classes -/

theorem superclassOf {superclass superclass' : Reference}
    (span : superclass'.name.span = superclass.name.span)
    (found : r.Alongside .neither world place r.Values
      (Eval.lookup superclass.id superclass.name.text superclass.name.span)
      (Eval.lookup superclass'.id superclass'.name.text superclass'.name.span)) :
    r.Alongside .neither world place
      (fun next found found' => ∃ cls cls', found = some cls ∧ found' = some cls' ∧
        cls.Related (r.methods next) cls')
      (Eval.superclassOf (some superclass)) (Eval.superclassOf (some superclass')) := by
  refine found.andThen fun _ v v' _ values => ?_
  cases values with
  | «class» classes => exact .pure fun _ later => ⟨_, _, rfl, rfl, classes.later later⟩
  | _ =>
    dsimp only
    rw [span]
    exact .raise _ _

/-- The end of a class declaration, if the methods that are made and the frames of the classes
compare. -/
theorem completeClass {name : Ident} {env env' closure closure' : Env}
    {inherited inherited' : List ClassLayer} {methods methods' : List (Routine (List Stmt))}
    (made : r.Alongside .neither world place
      (fun next made made' => ∀ key, Option.Rel (r.methods next) (made.find? key) (made'.find? key))
      (Eval.makeMethods closure methods ∅) (Eval.makeMethods closure' methods' ∅))
    (bind : ∀ {now : List ω} {s s' : Store} {v v' : Value}, world <+: now → r.store now s s' →
      r.Values now v v' →
        r.store now (s.bind env.frame name.text v) (s'.bind env'.frame name.text v'))
    (above : List.Forall₂ (ClassLayer.Related (r.methods world)) inherited inherited')
    {m m' : Machine} (states : r.Machines world place m m')
    (bound : (m.store.frame env.frame).contains name.text = true)
    (bound' : (m'.store.frame env'.frame).contains name.text = true) :
    r.Coincide .neither world place (fun _ _ _ => True)
      (Eval.completeClass name env closure inherited methods m)
      (Eval.completeClass name env' closure' inherited' methods' m') := by
  rw [Eval.completeClass_eq bound, Eval.completeClass_eq bound']
  refine made.andThen (fun next made made' later methods => freshIdentity.andThen
    fun next' identity _ later' same => .modifyStore fun now _ _ later'' stores => ?_)
    List.prefix_rfl states
  cases same
  have sinceMade := later'.trans later''
  refine bind (later.trans sinceMade) stores (.class (.cons ⟨rfl, rfl, fun key => ?_⟩ ?_))
  · exact optionRel_imp (fun _ _ related => Function.Lasting.later related sinceMade) (methods key)
  · exact above.imp fun _ _ layers =>
      layers.mono fun _ _ methods => Function.Lasting.later methods (later.trans sinceMade)

end Alongside

end Comparison

end Lox
