import Lox.Proofs.Evaluation.Parts
import Lox.Proofs.Evaluation.Relabeling
import Lox.Proofs.Session.Runs

set_option autoImplicit false

/-!
# The control state

The environment of a machine and its count of calls say where it is in a program. Whatever the
machine is asked to do, it is back where it was when that ends, in whichever way it ends. While it
is at work, it counts each call expression that is being executed, so the count is bounded by the
limit on calls. Bringing the machine back to the top level behind a program therefore changes
nothing.
-/

namespace Lox

structure Machine.SameControl (m m' : Machine) : Prop where
  env : m'.env = m.env
  callDepth : m'.callDepth = m.callDepth

theorem Machine.Keeps.sameControl {m m' : Machine} (keeps : m.Keeps m') : m.SameControl m' :=
  ⟨keeps.env, keeps.callDepth⟩

/-! ## Steps that come back -/

/-- The step leaves the machine at the point where it was, however it ends. -/
def Eval.Steady {α : Type} (x : Eval α) : Prop :=
  ∀ m : Machine, m.Keeps (endState (x m))

namespace Eval.Steady

variable {α β : Type} {x : Eval α}

theorem of_follows (follows : ∀ depths, ∃ (f : α → α) (y : Eval α),
    (Rerun.unchanged depths False).Follows f x y) : Steady x := by
  intro m
  obtain ⟨f, y, follows⟩ := follows m.depths
  exact meets_endState.mp (follows.keeps not_false rfl)

theorem of_ok (steady : Steady x) {m m' : Machine} {a : α} (done : x m = .ok a m') :
    m.Keeps m' := by
  have keeps := steady m
  rwa [done] at keeps

theorem bind {k : α → Eval β} (first : Steady x) (second : ∀ a, Steady (k a)) :
    Steady (x >>= k) := by
  intro m
  have keeps := first m
  cases done : x m with
  | ok a m' =>
    rw [bind_of_ok done]
    exact (first.of_ok done).trans (second a m')
  | error e m' =>
    rw [done] at keeps
    rw [bind_of_error done]
    exact keeps

theorem within (env : Env) (steady : Steady x) : Steady (Eval.within env x) := by
  intro m
  have keeps := meets_endState.mpr (steady { m with env := env })
  exact meets_endState.mp (meets_within.mpr (keeps.mono (fun _ _ _ keeps => keeps.within)
    fun _ _ _ keeps => keeps.within))

theorem counted (limit : Nat) (span : Span) (steady : Steady x) :
    Steady (Eval.counted limit span x) := by
  intro m
  have keeps := meets_endState.mpr (steady { m with callDepth := m.callDepth + 1 })
  apply meets_endState.mp
  rw [meets_counted]
  split
  · exact .refl m
  · exact keeps.mono (fun _ _ _ keeps => keeps.counted) fun _ _ _ keeps => keeps.counted

end Eval.Steady

/-- Whatever is done leaves the machine at the point where it was. -/
theorem Task.steady (limit fuel : Nat) (task : Task) : Eval.Steady (task.run limit fuel) := by
  have again (depths : Depths) :=
    (Rerun.unchanged depths False).carries limit (le_refl fuel) (.inr rfl)
  refine .of_follows fun depths => ?_
  cases task with
  | expr e => exact ⟨_, _, (again depths).expr e⟩
  | exprs es => exact ⟨_, _, (again depths).exprs es⟩
  | call callee args span => exact ⟨_, _, (again depths).call callee args span⟩
  | apply f args => exact ⟨_, _, (again depths).apply f args⟩
  | instantiate cls args => exact ⟨_, _, (again depths).instantiate cls args⟩
  | stmt s => exact ⟨_, _, (again depths).stmt s⟩
  | loop condition body => exact ⟨_, _, (again depths).loop condition body⟩
  | stmts body => exact ⟨_, _, (again depths).stmts body⟩

/-! ## Calls that are being executed -/

namespace Activity

variable {limit : Nat} {a b first : Activity} {trail : List Activity}

/-- What is under way inside an activity when another one is started: the activities that it has
started and that have not ended yet, the latest one first. -/
inductive UnderWay (limit : Nat) (first : Activity) : List Activity → Activity → Prop where
  | here : UnderWay limit first [] first
  | inside {trail : List Activity} {a b : Activity} :
    UnderWay limit first trail a → Starts limit a b → UnderWay limit first (b :: trail) b

/-- Every moment of a run is reached with some activities under way. -/
theorem Reaches.underWay (reaches : first.Reaches limit b) :
    ∃ trail, UnderWay limit first trail b := by
  induction reaches with
  | refl => exact ⟨[], .here⟩
  | tail _ starts inductionHypothesis =>
    obtain ⟨trail, underWay⟩ := inductionHypothesis
    exact ⟨_, underWay.inside starts⟩

/-- The activity is the call that a call expression makes. It comes behind the callee and the
arguments: a call expression is being executed once they are there. -/
def isCall (a : Activity) : Bool :=
  match a.task with
  | .call .. => true
  | _ => false

def calls (trail : List Activity) : Nat :=
  trail.countP isCall

theorem calls_cons (b : Activity) (trail : List Activity) :
    calls (b :: trail) = calls trail + if b.isCall then 1 else 0 :=
  List.countP_cons

/-- A call is counted when it is started, and nothing else is. -/
theorem Starts.callDepth (starts : Starts limit a b) :
    b.machine.callDepth = a.machine.callDepth + if b.isCall then 1 else 0 := by
  have expr {fuel : Nat} {e : Expr} {m m' : Machine} {value : Value}
      (done : Eval.expr limit fuel e m = .ok value m') : m'.callDepth = m.callDepth :=
    ((Task.steady limit fuel (.expr e)).of_ok done).callDepth
  have stmt {fuel : Nat} {s : Stmt} {m m' : Machine} {flow : Flow}
      (done : Eval.stmt limit fuel s m = .ok flow m') : m'.callDepth = m.callDepth :=
    ((Task.steady limit fuel (.stmt s)).of_ok done).callDepth
  cases starts with
  | assigned | binaryLeft | logicalLeft | operand | callee | inner | getObject
  | setObject | firstExpr
  | apply | instantiate | exprStmt | printed | initial | condition | loop | returned | loopCondition
  | firstStmt => rfl
  | binaryRight first | logicalRight first | args first | setValue first | otherExprs first
  | yes first | no first | loopBody first => exact expr first
  | @call fuel m m' m'' id span callee args f values first second =>
    have counted := ((Task.steady limit fuel (.exprs args)).of_ok second).callDepth
    exact congrArg (· + 1) (counted.trans (expr first))
  | body enclosed | block enclosed =>
    cases enclosed
    rfl
  | initializer declared made tied =>
    cases made
    cases tied
    rfl
  | loopAgain first holds second => exact (stmt second).trans (expr first)
  | otherStmts first => exact stmt first

/-- A call is started only if that leaves the count within the limit. -/
theorem Starts.callDepth_le (starts : Starts limit a b) (within : a.machine.callDepth ≤ limit) :
    b.machine.callDepth ≤ limit := by
  by_cases call : b.isCall = true
  · cases starts with
    | call first second allowed => exact not_le.mp allowed
    | _ => cases call
  · rw [starts.callDepth, if_neg call]
    exact within

/-- At every moment the machine counts the calls that are being executed. -/
theorem UnderWay.callDepth (underWay : UnderWay limit first trail b) :
    b.machine.callDepth = first.machine.callDepth + calls trail := by
  induction underWay with
  | here => rfl
  | inside _ starts inductionHypothesis =>
    rw [starts.callDepth, inductionHypothesis, calls_cons, Nat.add_assoc]

theorem UnderWay.callDepth_le (underWay : UnderWay limit first trail b)
    (within : first.machine.callDepth ≤ limit) : b.machine.callDepth ≤ limit := by
  induction underWay with
  | here => exact within
  | inside _ starts inductionHypothesis => exact starts.callDepth_le inductionHypothesis

end Activity

namespace Machine

/-- Runs some programs one after another, each with a bound on the recursion and with depths, which
need not be those of the program. -/
def runAll (limit : Nat) (runs : List (Nat × Program × Depths)) (m : Machine) : Machine :=
  runs.foldl (fun m (fuel, program, depths) => (m.run limit fuel program depths).2) m

def runThrough (limit fuel : Nat) (program : Program) (depths : Depths) (m : Machine) :
    Except Interruption Unit × Machine :=
  match Eval.stmts limit fuel program { m with depths := m.depths.merge depths } with
  | .ok _ m => (.ok (), m)
  | .error e m => (.error e, m)

structure Idle (m : Machine) : Prop where
  top : m.env = m.globals
  callDepth : m.callDepth = 0

variable {m m' : Machine}

theorem idle_run (limit fuel : Nat) (program : Program) (depths : Depths) (m : Machine) :
    (m.run limit fuel program depths).2.Idle := by
  unfold run
  split <;> exact ⟨rfl, rfl⟩

theorem idle_runAll (limit : Nat) (clock : Clock) (output : Output)
    (runs : List (Nat × Program × Depths)) : ((start clock output).runAll limit runs).Idle := by
  suffices general : ∀ m : Machine, m.Idle → (m.runAll limit runs).Idle from general _ ⟨rfl, rfl⟩
  induction runs with
  | nil => exact fun _ idle => idle
  | cons run rest inductionHypothesis =>
    obtain ⟨fuel, program, depths⟩ := run
    exact fun m _ => inductionHypothesis _ (idle_run limit fuel program depths m)

theorem Idle.keeps (idle : m.Idle) (keeps : m.Keeps m') : m'.Idle :=
  ⟨keeps.env.trans (idle.top.trans keeps.globals.symm), keeps.callDepth.trans idle.callDepth⟩

theorem Idle.reset (idle : m.Idle) : { m with env := m.globals, callDepth := 0 } = m := by
  obtain ⟨top, callDepth⟩ := idle
  cases m
  dsimp only at top callDepth
  rw [top, callDepth]

theorem Idle.run_eq (idle : m.Idle) (limit fuel : Nat) (program : Program) (depths : Depths) :
    m.run limit fuel program depths = m.runThrough limit fuel program depths := by
  have started : Idle { m with depths := m.depths.merge depths } := ⟨idle.top, idle.callDepth⟩
  have kept := Eval.stmts_keeps limit fuel program { m with depths := m.depths.merge depths }
  unfold run runThrough
  cases outcome : Eval.stmts limit fuel program { m with depths := m.depths.merge depths } with
  | ok flow m' =>
    exact congrArg (Prod.mk (Except.ok ())) (started.keeps (kept.ok_of_eq outcome)).reset
  | error e m' =>
    exact congrArg (Prod.mk (Except.error e)) (started.keeps (kept.error_of_eq outcome)).reset

/-- From every state and with every table of depths, whatever the machine does leaves its
environment and its count of calls as they were, in whichever way it ends; at every moment the count
has grown by the calls that are being executed, and it stays within the limit. A machine that runs
programs one after another counts just those calls, and bringing it back to the top level behind a
program changes nothing. -/
theorem control_restored (limit : Nat) :
    (∀ (m : Machine) (fuel : Nat) (task : Task),
      m.SameControl (endState (task.run limit fuel m))) ∧
    (∀ (m : Machine) (fuel : Nat) (env : Env) (body : List Stmt),
      m.SameControl (endState (Eval.within env (Eval.stmts limit fuel body) m))) ∧
    (∀ (m : Machine) (fuel : Nat) (task : Task) (trail : List Activity) (b : Activity),
      Activity.UnderWay limit ⟨fuel, task, m⟩ trail b →
        b.machine.callDepth = m.callDepth + Activity.calls trail ∧
        (m.callDepth ≤ limit → b.machine.callDepth ≤ limit)) ∧
    ∀ (clock : Clock) (output : Output) (runs : List (Nat × Program × Depths)) (fuel : Nat)
      (program : Program) (depths : Depths),
      let m := (start clock output).runAll limit runs
      (∀ trail b, Activity.UnderWay limit
          ⟨fuel, .stmts program, { m with depths := m.depths.merge depths }⟩ trail b →
        b.machine.callDepth = Activity.calls trail ∧ Activity.calls trail ≤ limit) ∧
      m.run limit fuel program depths = m.runThrough limit fuel program depths := by
  refine ⟨fun m fuel task => ?_, fun m fuel env body => ?_, fun m fuel task trail b underWay => ?_,
    fun clock output runs fuel program depths => ?_⟩
  · exact (task.steady limit fuel m).sameControl
  · exact ((Task.steady limit fuel (.stmts body)).within env m).sameControl
  · exact ⟨underWay.callDepth, underWay.callDepth_le⟩
  · have idle := idle_runAll limit clock output runs
    refine ⟨fun trail b underWay => ?_, idle.run_eq limit fuel program depths⟩
    have counted := underWay.callDepth
    have bounded := underWay.callDepth_le (idle.callDepth.trans_le (Nat.zero_le limit))
    dsimp only at counted
    rw [idle.callDepth, Nat.zero_add] at counted
    exact ⟨counted, counted ▸ bounded⟩

/-- A run that fails inside a block inside a call, and one behind it with two calls under way. -/
theorem control_restored_nested_calls :
    ∃ (first second : Program × Depths) (trail : List Activity) (b : Activity),
      let m := (start ⟨fun _ => 0, 0⟩ {}).runAll callLimit [(60, first)]
      (Program.check "fun f(g) \x7b \x7b g(); \x7d \x7d f(1);" 0).1.toOption = some first ∧
      (Program.check "f(clock);" 10).1.toOption = some second ∧
      Activity.UnderWay callLimit
        ⟨60, .stmts second.1, { m with depths := m.depths.merge second.2 }⟩ trail b ∧
      Activity.calls trail = 2 ∧ Activity.calls trail ≤ callLimit ∧
      m.run callLimit 60 second.1 second.2 = m.runThrough callLimit 60 second.1 second.2 := by
  have found :
      ((Program.check "fun f(g) \x7b \x7b g(); \x7d \x7d f(1);" 0).1.toOption.bind fun first =>
      (Program.check "f(clock);" 10).1.toOption.bind fun second =>
        let m := (start ⟨fun _ => 0, 0⟩ {}).runAll callLimit [(60, first)]
        (Activity.part? callLimit [0, 0, 2, 0, 0, 0, 0, 0, 0, 2]
          ⟨60, .stmts second.1, { m with depths := m.depths.merge second.2 }⟩).map
          (·.machine.callDepth)) = some 2 := by
    decide +kernel
  obtain ⟨first, accepted, found⟩ := Option.bind_eq_some_iff.mp found
  obtain ⟨second, acceptedNext, found⟩ := Option.bind_eq_some_iff.mp found
  obtain ⟨b, part, counted⟩ := Option.map_eq_some_iff.mp found
  obtain ⟨trail, underWay⟩ := (Activity.reaches_of_part? part).underWay
  obtain ⟨moments, unreset⟩ :=
    (control_restored callLimit).2.2.2 ⟨fun _ => 0, 0⟩ {} [(60, first)] 60
    second.1 second.2
  obtain ⟨depth, bounded⟩ := moments trail b underWay
  exact ⟨first, second, trail, b, accepted, acceptedNext, underWay,
    depth.symm.trans counted, bounded, unreset⟩

end Machine

end Lox
