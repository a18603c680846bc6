import Lox.Proofs.Evaluation.Stages
import Lox.Proofs.Store.Links

set_option autoImplicit false

/-!
# Links in the course of a run

A machine makes frames only inside those that are there, and classes only behind their superclasses.
So a table of links for the state in which an activity starts can be extended to one that is good
for the whole activity: each of the moments that it reaches is linked by an initial segment of that
table, and so is the state that it comes to. No link changes, and the frames that are made are new.
-/

namespace Lox

variable {α β : Type} {limit fuel : Nat} {links links' links'' all : Links} {m m' m'' : Machine}

/-! ## Machines -/

namespace Machine

/-- What has been made by now, if these are the links of the frames. -/
def extent (links : Links) (m : Machine) : Extent :=
  ⟨links, m.store.identities⟩

/-- There is a link for each frame but the global one, and everything in the state follows them. -/
structure Linked (links : Links) (m : Machine) : Prop where
  size : m.store.frames.size = links.length + 1
  earlier : links.Earlier
  globals : m.globals = ⟨0, []⟩
  env : m.env.Follows links
  store : m.store.All (Value.Linked (m.extent links))

/-- From a state, with its links, to a linked state in which no less has been made. -/
structure Advances (links links' : Links) (m m' : Machine) : Prop where
  linked : m'.Linked links'
  grows : m.extent links ≤ m'.extent links'

theorem linked_start (clock : Clock) (output : Output) : (start clock output).Linked [] where
  size := rfl
  earlier id outer found := by cases id <;> cases found
  globals := rfl
  env := .first
  store := by
    refine ⟨fun id name value found => ?_, fun id name value found => by cases found⟩
    cases eq_native_of_start found
    trivial

namespace Linked

/-- A step that makes no frame, and writes linked values. -/
theorem withStore (linked : m.Linked links) {s : Store} (size : s.frames.size = m.store.frames.size)
    (later : m.store.identities ≤ s.identities) (values : s.All (Value.Linked (m.extent links))) :
    m.Advances links links { m with store := s } := by
  have grows : m.extent links ≤ ⟨links, s.identities⟩ := ⟨List.prefix_rfl, later⟩
  exact ⟨⟨size.trans linked.size, linked.earlier, linked.globals, linked.env,
    values.mono fun _ known => known.mono grows⟩, grows⟩

theorem bind (linked : m.Linked links) (id : FrameId) (name : String) {value : Value}
    (new : value.Linked (m.extent links)) :
    m.Advances links links { m with store := m.store.bind id name value } :=
  linked.withStore (by simp) le_rfl (linked.store.bind id name new)

theorem addIdentity (linked : m.Linked links) :
    m.Advances links links { m with store := m.store.addIdentity } :=
  linked.withStore rfl (Nat.le_succ _) ⟨linked.store.frames, linked.store.fields⟩

theorem addInstance (linked : m.Linked links) :
    m.Advances links links { m with store := m.store.addInstance } :=
  linked.withStore rfl le_rfl linked.store.addInstance

/-- A state with the same store, perhaps in another environment. -/
theorem moveTo (linked : m.Linked links) (store : m'.store = m.store)
    (globals : m'.globals = m.globals) (follows : m'.env.Follows links) : m'.Linked links := by
  refine ⟨?_, linked.earlier, globals.trans linked.globals, follows, ?_⟩
  · rw [store]
    exact linked.size
  · rw [extent, store]
    exact linked.store

/-- The state back at the top level. -/
theorem rest (linked : m.Linked links) :
    ({ m with env := m.globals, callDepth := 0 } : Machine).Linked links := by
  have top : m.globals.Follows links := by
    rw [linked.globals]
    exact .first
  exact linked.moveTo rfl rfl top

/-- The next frame gets the next link. -/
theorem follows_next (linked : m.Linked links) {outer : Env} (follows : outer.Follows links) :
    Env.Follows (links ++ [outer.frame]) ⟨m.store.frames.size, outer.chain⟩ := by
  have next : Links.around? (links ++ [outer.frame]) m.store.frames.size = some outer.frame := by
    rw [linked.size]
    exact Links.around?_concat links outer.frame
  exact .outwards next (follows.mono (List.prefix_append ..))

theorem addFrame (linked : m.Linked links) {outer : Env} (follows : outer.Follows links)
    {bindings : Bindings Value}
    (values : ∀ name value, bindings.find? name = some value → value.Linked (m.extent links)) :
    m.Advances links (links ++ [outer.frame]) { m with store := m.store.addFrame bindings } := by
  have front : links <+: links ++ [outer.frame] := List.prefix_append ..
  have grows : m.extent links ≤ ⟨links ++ [outer.frame], m.store.identities⟩ := ⟨front, le_rfl⟩
  refine ⟨⟨?_, linked.earlier.append follows.le_length, linked.globals,
    linked.env.mono front, ?_⟩, grows⟩
  · simp [linked.size]
  · exact (linked.store.addFrame values).mono fun _ known => known.mono grows

/-- A frame that is made now is in no environment that is there. -/
theorem not_mem_chain (linked : m.Linked links) {old : Env} (follows : old.Follows links) :
    m.store.frames.size ∉ old.chain := by
  intro member
  have within : m.store.frames.size ≤ old.frame := by
    rcases List.mem_cons.mp member with same | outer
    · exact same.le
    · have chain := (follows.descends linked.earlier).1
      exact (List.rel_of_pairwise_cons (List.isChain_iff_pairwise.mp chain) outer).le
  rw [linked.size] at within
  exact Nat.not_succ_le_self _ (within.trans follows.le_length)

end Linked

end Machine

/-! ## Tasks and activities -/

def Flow.Linked (e : Extent) : Flow → Prop
  | .next => True
  | .return value => value.Linked e

namespace Task

def Linked (e : Extent) : Task → Prop
  | .call callee args _ => callee.Linked e ∧ ∀ arg ∈ args, arg.Linked e
  | .apply f args => f.closure.Follows e.links ∧ ∀ arg ∈ args, arg.Linked e
  | .instantiate cls args => cls.Linked e ∧ ∀ arg ∈ args, arg.Linked e
  | _ => True

def YieldsLinked (e : Extent) : (task : Task) → task.Result → Prop
  | .expr _, value | .call .., value | .apply .., value | .instantiate .., value => value.Linked e
  | .exprs _, values => ∀ value ∈ values, value.Linked e
  | .stmt _, flow | .loop .., flow | .stmts _, flow => flow.Linked e

end Task

namespace Eval

def Leaves (links links' : Links) (good : Extent → α → Prop) (x : Eval α) (m : Machine) : Prop :=
  Meets x m (fun a m' => m.Advances links links' m' ∧ good (m'.extent links') a)
    fun _ m' => m.Advances links links' m'

theorem Leaves.endState {good : Extent → α → Prop} {x : Eval α}
    (leaves : Leaves links links' good x m) :
    m.Advances links links' (endState (x m)) :=
  meets_endState.mp (leaves.imp fun _ _ _ done => done.1)

end Eval

namespace Activity

structure Linked (links : Links) (a : Activity) : Prop where
  machine : a.machine.Linked links
  task : a.task.Linked (a.machine.extent links)

/-- The activity starts and ends with initial segments of the links. -/
inductive Traced (limit : Nat) (all : Links) (a : Activity) : Prop where
  | intro (links links' : Links) : links' <+: all → a.Linked links →
    Eval.Leaves links links' (fun e => a.task.YieldsLinked e) (a.task.run limit a.fuel) a.machine →
    Traced limit all a

theorem Traced.mono {a : Activity} (traced : a.Traced limit links) (front : links <+: links') :
    a.Traced limit links' := by
  obtain ⟨before, after, within, linked, leaves⟩ := traced
  exact ⟨before, after, within.trans front, linked, leaves⟩

end Activity

/-! ## The links of a run -/

namespace Links

/-- In the course of a run, everything that is made follows the links. -/
def invariant (limit : Nat) : Invariant Extent limit where
  state e m := m.extent e.links = e ∧ m.Linked e.links
  env e env := env.Follows e.links
  value := Value.Linked
  routine _ := True
  occurs _ := True
  inner _ _ _ := trivial
  starts _ _ := trivial
  env_mono follows le := follows.mono le.1
  value_mono := Value.Linked.mono
  calculated {v} _ calculated := by
    cases v with
    | nil | bool | number | string => trivial
    | native | function | «class» | «instance» => exact calculated.elim
  function_iff := by simp [Value.Linked]
  method known found := Class.Linked.findMethod? known found
  owner known := known
  current here := here.2.env
  store := by
    rintro e m ⟨same, linked⟩
    exact same ▸ linked.store
  move := by
    rintro e m m' ⟨same, linked⟩ store globals follows
    refine ⟨?_, linked.moveTo store globals follows⟩
    rw [← same, Machine.extent, Machine.extent, store]
  bind := by
    rintro e m v id name ⟨same, linked⟩ new
    exact ⟨same, (linked.bind id name (same.symm ▸ new)).linked⟩
  setField := by
    rintro e m v id name ⟨same, linked⟩ new
    have written := linked.store.setField id name (same.symm ▸ new)
    exact ⟨same, (linked.withStore (s := m.store.setField id name v) rfl le_rfl written).linked⟩
  addIdentity := by
    rintro e m ⟨same, linked⟩
    have advances := linked.addIdentity
    exact ⟨Machine.extent e.links _, same.ge.trans advances.grows, rfl, advances.linked⟩
  addFrame := by
    rintro e m outer bindings ⟨same, linked⟩ follows values
    have advances := linked.addFrame follows (same.symm ▸ values)
    exact ⟨Machine.extent _ _, same.ge.trans advances.grows, ⟨rfl, advances.linked⟩,
      linked.follows_next follows⟩
  addInstance := by
    rintro e m cls ⟨same, linked⟩ known
    exact ⟨e, le_rfl, ⟨same, linked.addInstance.linked⟩, known⟩

variable {e : Extent}

theorem keepsClasses (limit : Nat) : (invariant limit).KeepsClasses := by
  refine Invariant.keepsClasses fun {e e' m cls} before le after number above methods => ?_
  -- The class is the last thing that was numbered, so all its superclasses have smaller numbers.
  have new : cls.Linked ⟨e.links, cls.own.identity + 1⟩ := by
    refine .extend (fun parent found => ?_) fun key f found => (methods key f found).1
    rw [number]
    exact before.1 ▸ above parent found
  refine Class.Linked.mono new ⟨le.1, ?_⟩
  rw [number, ← after.1]
  exact le_rfl

theorem given_iff {task : Task} : (invariant limit).Given e task ↔ task.Linked e := by
  cases task with
  | call | apply | instantiate | expr | exprs => exact Iff.rfl
  | stmt | loop | stmts => exact ⟨fun _ => trivial, fun _ _ _ => trivial⟩

theorem yieldsLinked {task : Task} {result : task.Result}
    (yields : (invariant limit).Yields task e result) :
    task.YieldsLinked e result := by
  cases task with
  | expr | exprs | call | apply | instantiate => exact yields
  | stmt | loop | stmts => cases result <;> exact yields

theorem leaves {task : Task} {e' : Extent} (here : (invariant limit).state e m)
    (ends : (invariant limit).Ends e e' ((invariant limit).Yields task) (task.run limit fuel) m) :
    Eval.Leaves e.links e'.links (fun e => task.YieldsLinked e) (task.run limit fuel) m := by
  have advances {m' : Machine} (there : (invariant limit).state e' m') :
      m.Advances e.links e'.links m' := by
    refine ⟨there.2, ?_⟩
    rw [here.1, there.1]
    exact ends.1
  refine ends.2.mono (fun _ m' _ done => ⟨advances done.1, ?_⟩) fun _ _ _ stopped =>
    advances stopped
  rw [done.1.1]
  exact yieldsLinked done.2

end Links

/-- From a linked state, there are links for all that the task reaches and for the state it comes
to. -/
theorem Task.tracked (limit fuel : Nat) (task : Task) (given : task.Linked (m.extent links))
    (linked : m.Linked links) :
    ∃ links', Eval.Leaves links links' (fun e => task.YieldsLinked e) (task.run limit fuel) m ∧
      ∀ b, Activity.Reaches limit ⟨fuel, task, m⟩ b → b.Traced limit links' := by
  have here : (Links.invariant limit).state (m.extent links) m := ⟨rfl, linked⟩
  obtain ⟨e', ends, runs⟩ := Invariant.keepsTask (Links.keepsClasses limit) fuel task
    (Links.given_iff.mpr given) here (List.forall_mem_singleton.mpr trivial)
  refine ⟨e'.links, Links.leaves here ends, fun b reaches => ?_⟩
  obtain ⟨e, e₁, _, last, there, known, ends⟩ := runs.spans List.mem_cons_self reaches
  refine ⟨e.links, e₁.links, last.1, ⟨there.2, ?_⟩, Links.leaves there ends⟩
  rw [there.1]
  exact Links.given_iff.mp known

/-! ## New frames -/

namespace Activity

/-- In some state, the activity makes an environment with a new frame inside another environment:
for a block, for a call, or for a method that is tied to an instance. -/
inductive Opens (limit : Nat) : Activity → Machine → Env → Env → Prop where
  | block {fuel : Nat} {m m' : Machine} {body : List Stmt} {env : Env}
      (enclosed : Eval.enclose m.env ∅ m = .ok env m') :
    Opens limit ⟨fuel + 1, .stmt (.block body), m⟩ m m.env env
  | call {fuel : Nat} {m m' : Machine} {f : Function} {args : List Value} {env : Env}
      (enclosed : Eval.enclose f.closure (f.bindArguments args) m = .ok env m') :
    Opens limit ⟨fuel + 1, .apply f args, m⟩ m f.closure env
  | initializer {fuel : Nat} {m m' m'' : Machine} {cls : Class} {args : List Value}
      {object : Instance}
      {method bound : Function} (declared : cls.initializer? = some method)
      (made : Eval.newInstance cls m = .ok object m')
      (tied : Eval.bindMethod method object m' = .ok bound m'') :
    Opens limit ⟨fuel + 1, .instantiate cls args, m⟩ m' method.closure bound.closure
  | property {fuel : Nat} {m m' m'' : Machine} {id : ExprId} {target : Expr} {name : Ident}
      {object : Instance} {method bound : Function}
      (evaluated : Eval.expr limit fuel target m = .ok (.instance object) m')
      (noField : (m'.store.fieldsOf object.id).find? name.text = none)
      (found : object.cls.findMethod? name.text = some method)
      (tied : Eval.bindMethod method object m' = .ok bound m'') :
    Opens limit ⟨fuel + 1, .expr (.get id target name), m⟩ m' method.closure bound.closure
  | super {fuel : Nat} {m m' : Machine} {id : ExprId} {span : Span} {name : Ident} {distance : Nat}
      {cls : Class} {object : Instance} {method bound : Function}
      (entry : m.depths[id]? = some (distance + 1))
      (above : m.store.getAt? m.env (distance + 1) "super" = some (.class cls))
      (this : m.store.getAt? m.env distance "this" = some (.instance object))
      (found : cls.findMethod? name.text = some method)
      (tied : Eval.bindMethod method object m = .ok bound m') :
    Opens limit ⟨fuel + 1, .expr (.super id span name), m⟩ m method.closure bound.closure

end Activity

/-- In a state, an environment is made inside another one. Its own frame is the next one, which is
in no environment that is there, and has its link in the table. -/
structure Machine.Gains (all : Links) (m : Machine) (outer env : Env) : Prop where
  inside : env.enclosing = outer.chain
  link : all.around? env.frame = some outer.frame
  existing : outer.frame < m.store.frames.size
  next : env.frame = m.store.frames.size
  fresh : ∃ links, links <+: all ∧ m.Linked links ∧ ∀ old : Env, old.Follows links →
    env.frame ∉ old.chain

theorem Machine.Linked.gains (linked : m.Linked links) (front : links <+: all) {outer env : Env}
    (around : outer.Follows links) (made : env = ⟨m.store.frames.size, outer.chain⟩)
    (follows : env.Follows all) : m.Gains all outer env := by
  subst made
  refine ⟨rfl, follows.around?_eq, ?_, rfl, links, front, linked, fun _ => linked.not_mem_chain⟩
  rw [linked.size]
  exact Nat.lt_succ_of_le around.le_length

namespace Activity

variable {a : Activity} {outer env : Env}

theorem Traced.linked (traced : a.Traced limit all) : ∃ links, links <+: all ∧ a.Linked links := by
  obtain ⟨links, links', front, linked, leaves⟩ := traced
  exact ⟨links, leaves.endState.grows.1.trans front, linked⟩

theorem Traced.result (traced : a.Traced limit all) {result : a.task.Result}
    (done : a.task.run limit a.fuel a.machine = .ok result m') :
    ∃ links, links <+: all ∧ m'.Linked links ∧ a.task.YieldsLinked (m'.extent links) result := by
  obtain ⟨_, links', front, _, leaves⟩ := traced
  obtain ⟨advances, known⟩ := leaves.ok_of_eq done
  exact ⟨links', front, advances.linked, known⟩

/-- The frames that an activity makes are new, and get the links of the table. -/
theorem Opens.gains (opens : a.Opens limit m outer env) (here : a.Traced limit all)
    (parts : ∀ b, a.Starts limit b → b.Traced limit all) : m.Gains all outer env := by
  obtain ⟨links, front, linked, given⟩ := here.linked
  cases opens with
  | block enclosed =>
    obtain ⟨_, front', inside⟩ := (parts _ (.block enclosed)).linked
    have follows := inside.machine.env.mono front'
    cases enclosed
    exact linked.gains front linked.env rfl follows
  | call enclosed =>
    obtain ⟨_, front', inside⟩ := (parts _ (.body enclosed)).linked
    have follows := inside.machine.env.mono front'
    cases enclosed
    exact linked.gains front given.1 rfl follows
  | initializer declared made tied =>
    obtain ⟨_, front', inside⟩ := (parts _ (.initializer declared made tied)).linked
    have follows := inside.task.1.mono front'
    cases made
    cases tied
    exact linked.addInstance.linked.gains front (given.1.findMethod? declared) rfl follows
  | @property fuel m m' m'' id target name object method bound evaluated noField found tied =>
    -- No part is started in the new environment, but it is that of the result.
    obtain ⟨links', front', between, known⟩ := (parts _ .getObject).result evaluated
    have obtained : Eval.expr limit (fuel + 1) (.get id target name) m =
        .ok (.function bound) m'' := by
      refine (bind_of_ok evaluated).trans ((Eval.getProperty_eq noField name.span).trans ?_)
      rw [Eval.tieMethod, found]
      exact bind_of_ok tied
    obtain ⟨_, last, _, result⟩ := here.result obtained
    have follows := Env.Follows.mono result last
    cases tied
    exact between.gains front' (Class.Linked.findMethod? known found) rfl follows
  | @super fuel m m' id span name distance cls object method bound entry above this found tied =>
    have obtained : Eval.expr limit (fuel + 1) (.super id span name) m =
        .ok (.function bound) m' := by
      refine (Eval.superMethod_eq entry above this).trans ?_
      rw [Eval.tieMethod, found]
      exact bind_of_ok tied
    obtain ⟨_, last, _, result⟩ := here.result obtained
    have follows := Env.Follows.mono result last
    have known : cls.Linked (m.extent links) := linked.store.getAt? above
    cases tied
    exact linked.gains front (known.findMethod? found) rfl follows

end Activity

end Lox
