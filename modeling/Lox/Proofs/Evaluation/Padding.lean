import Lox.Proofs.Evaluation.Comparison
import Lox.Proofs.Store.Padding

set_option autoImplicit false

/-!
# Steps of padded programs

Two machines at one point of a program and of a padded one, each of which takes a step. The extra
blocks make the recursion of the padded program deeper, so one of the two may run out of fuel where
the other one goes on. Unless this happens the outcomes are of one kind, and the machines are again
at one point behind them. If it happens, the run that goes on has written at least what the other
one had written.
-/

namespace Lox

/-! ## States -/

/-- Interruptions that differ at most in the distance that a missing binding is reported with. -/
inductive Interruption.Padded : Interruption → Interruption → Prop where
  | same (e : Interruption) : Padded e e
  | mismatch (name : String) (distance distance' : Nat) (span : Span) :
    Padded (.fault (scopeMismatch name distance span)) (.fault (scopeMismatch name distance' span))

abbrev Flow.Padded (t : Tables) (world : List FrameId) : Flow → Flow → Prop :=
  Related (Value.Padded t world)

/-- Machines inside scopes with a layout. -/
@[reducible] def padding (t : Tables) : Comparison FrameId Layout where
  store world s s' := s.Padded t world s'
  env world layout e e' := Chains world layout e.chain e'.chain
  top := []
  depths depths depths' := depths = t.plain ∧ depths' = t.padded
  functions := Function.Padded t []
  methods := Function.PaddedAsMethod t
  interrupted := Interruption.Padded
  lasting := inferInstance
  lastingMethods := inferInstance
  env_later envs later := envs.later later
  fault _ := .same _
  identities stores := stores.identities
  fields stores := stores.fields
  properties stores := stores.properties
  addIdentity stores := stores.addIdentity
  addInstance stores := stores.addInstance
  setField id name stores values := stores.setField id name values

abbrev Machine.Padded (t : Tables) (world : List FrameId) (layout : Layout) :
    Machine → Machine → Prop :=
  (padding t).Machines world layout

abbrev Tables.Alongside {α : Type} (t : Tables) (shorter : Shorter) (world : List FrameId)
    (layout : Layout) (related : List FrameId → α → α → Prop) (x x' : Eval α) : Prop :=
  (padding t).Alongside shorter world layout related x x'

/-! ## The steps of a machine -/

namespace Machine.Padded

variable {t : Tables} {world world' : List FrameId} {layout : Layout} {m m' : Machine}

theorem define (padded : m.Padded t world layout m') (regular : layout.Regular) (name : String)
    {v v' : Value} (values : v.Padded t world v') :
    Machine.Padded t world layout { m with store := m.store.define m.env name v }
      { m' with store := m'.store.define m'.env name v' } :=
  padded.withStore List.prefix_rfl
    (padded.store.bind (padded.inside.innermost regular) name values)

end Machine.Padded

open Comparison (Alongside)

namespace Tables.Alongside

variable {α : Type} {t : Tables} {shorter : Shorter} {world : List FrameId} {layout : Layout}
variable {related : List FrameId → α → α → Prop} {x x' : Eval α}

theorem enclose {env env' : Env} {outer : Layout} {bindings bindings' : Bindings Value}
    (chains : Chains world outer env.chain env'.chain)
    (values : ∀ name,
      Option.Rel (Value.Padded t world) (bindings.find? name) (bindings'.find? name)) :
    t.Alongside .neither world layout
      (fun next e e' => Chains next (false :: outer) e.chain e'.chain)
      (Eval.enclose env bindings) (Eval.enclose env' bindings') := by
  intro now m m' later padded
  have new : now <+: now ++ [m'.store.frames.size] := List.prefix_append _ _
  refine .ok new (padded.withStore new (padded.store.addFrame fun name =>
    optionRel_imp (fun _ _ related => related.later later) (values name))) (.own ?_ ?_)
  · rw [← padded.store.known, List.getElem?_concat_length]
  · exact chains.later (later.trans new)

/-- A step of the first machine, and the step of the second one in a new frame for an extra
scope. -/
theorem withinExtra (steady : Eval.Steady x)
    (step : t.Alongside shorter world (true :: layout) related x x') :
    t.Alongside shorter world layout related x (do
      let env ← Eval.enclose (← MonadState.get).env ∅
      Eval.within env x') := by
  intro now m m' later padded
  let env : Env := ⟨m'.store.frames.size, m'.env.chain⟩
  let made : Machine := { m' with store := m'.store.addFrame ∅ }
  have entered : Machine.Padded t now (true :: layout) m { made with env := env } :=
    { padded with
      store := padded.store.addExtra ∅
      inside := .extra _ padded.inside }
  have outcome := step later entered
  have keeps := steady m
  have short := @Shorter.CutShort.withinPadded _ shorter x' made env (x m)
  change (padding t).Coincide shorter now layout related (x m) (Eval.within env x' made)
  unfold Eval.within at short ⊢
  generalize x m = result, x' { made with env := env } = result' at outcome keeps short
  -- Both machines are where they were, but for the frame that was made for the extra scope.
  have back : ∀ {next : List FrameId}, now <+: next → Chains next layout (endState result).env.chain
      m'.env.chain := by
    intro next later'
    rw [keeps.env]
    exact padded.inside.later later'
  cases outcome with
  | ok later' done results => exact .ok later' { done with inside := back later' } results
  | error later' done faults => exact .error later' { done with inside := back later' } faults
  | cutShort cut => exact .cutShort (short cut)

theorem define (regular : layout.Regular) (name : String) {v v' : Value}
    (values : v.Padded t world v') :
    t.Alongside .neither world layout (fun _ _ _ => True) (Eval.define name v)
      (Eval.define name v') :=
  fun _ _ _ later padded =>
    .ok List.prefix_rfl (Machine.Padded.define padded regular name (values.later later)) trivial

section Uses

variable {id : ExprId} (entry : t.padded[id]? = t.plain[id]?.map layout.shift)
include entry

theorem lookup (name : String) (span : Span) :
    t.Alongside .neither world layout (Value.Padded t) (Eval.lookup id name span)
      (Eval.lookup id name span) := by
  refine .get fun now m m' _ padded => ?_
  rw [padded.depths.1, padded.depths.2, entry]
  cases t.plain[id]? with
  | none =>
    refine .orFault (fun next later => ?_) (.same _)
    exact optionRel_imp (fun _ _ related => related.later later) (padded.store.get? padded.top name)
  | some depth =>
    refine .orFault (fun next later => ?_) (.mismatch ..)
    exact optionRel_imp (fun _ _ related => related.later later)
      (padded.store.getAt? padded.inside depth name)

/-- An assignment writes to frames that go together. -/
theorem assignmentTarget (name : Ident) :
    t.Alongside .neither world layout (fun next i j => next[i]? = some j)
      (Eval.assignmentTarget id name) (Eval.assignmentTarget id name) := by
  refine .get fun now m m' _ padded => ?_
  rw [padded.depths.1, padded.depths.2, entry]
  cases t.plain[id]? with
  | none =>
    refine .orFault (fun next later => ?_) (.same _)
    exact optionRel_imp (fun _ _ => frame_later later) (padded.store.frameOf? padded.top name.text)
  | some depth =>
    refine .orFault (fun next later => ?_) (.mismatch ..)
    exact optionRel_imp (fun _ _ => frame_later later)
      (padded.store.frameAt? padded.inside depth name.text)

theorem assign (name : Ident) {v v' : Value} (values : v.Padded t world v') :
    t.Alongside .neither world layout (fun _ _ _ => True) (Eval.assign id name v)
      (Eval.assign id name v') := by
  rw [Eval.assign_eq, Eval.assign_eq]
  refine (assignmentTarget entry name).andThen fun next i j later known => ?_
  exact .modifyStore fun _ _ _ later' stores => stores.bind (frame_later later' known) name.text
    (values.later (later.trans later'))

end Uses

/-- The frames with `this` go together. -/
theorem bindMethod {method method' : Function} {object object' : Instance}
    (methods : method.PaddedAsMethod t world method') (objects : object.Padded t world object') :
    t.Alongside .neither world layout (Function.Padded t []) (Eval.bindMethod method object)
      (Eval.bindMethod method' object') := by
  obtain ⟨outer, regular, chains, routine⟩ := methods.routine
  refine (enclose chains fun name => optionRel_insert .none "this" (.instance objects)).andThen
    fun next closure closure' later inner => ?_
  refine Alongside.freshIdentity.andThen fun _ identity _ later' same => .pure fun _ later'' => ?_
  exact ⟨same, methods.isInitializer, false :: outer, regular,
    inner.later (later'.trans later''), routine⟩

/-- The scopes of `this` and `super` lie next to each other in both programs. -/
theorem superMethod {id : ExprId} (shifts : t.Shifts layout (.super id)) (span : Span)
    (method : Ident) :
    t.Alongside .neither world layout (Value.Padded t) (Eval.superMethod id span method)
      (Eval.superMethod id span method) := by
  obtain ⟨depth, entry, adjacent⟩ := shifts.adjacent rfl
  have entry' : t.padded[id]? = some (layout.shift depth + 1) := by
    rw [← adjacent]
    exact shifts.depth.trans (congrArg (Option.map layout.shift) entry)
  refine .get fun now m m' later padded => ?_
  have access : ∀ (distance : Nat) (name : String),
      t.Alongside .neither now layout (Value.Padded t)
        (Eval.ofExcept (m.store.getAt m.env distance name span))
        (Eval.ofExcept (m'.store.getAt m'.env (layout.shift distance) name span)) := by
    refine fun distance name => .orFault (fun next later => ?_) (.mismatch ..)
    exact optionRel_imp (fun _ _ related => related.later later)
      (padded.store.getAt? padded.inside distance name)
  have mismatch : ∀ (name : String) (distance distance' : Nat) {world : List FrameId},
      t.Alongside .neither world layout (Value.Padded t)
        (Eval.raise (.scopeMismatch name distance) span)
        (Eval.raise (.scopeMismatch name distance') span) :=
    fun name distance distance' _ _ _ _ _ padded =>
      .error List.prefix_rfl padded (.mismatch name distance distance' span)
  have super := access (depth + 1) "super"
  rw [adjacent] at super
  have plain : m.depths[id]? = some (depth + 1) := by
    rw [padded.depths.1]
    exact entry
  rw [plain, padded.depths.2, entry']
  refine super.andThen fun next v v' later' values => ?_
  cases values with
  | @«class» cls cls' superclasses =>
    refine ((access depth "this").later later').andThen fun next' w w' later'' values => ?_
    cases values with
    | «instance» objects =>
      exact .tieMethod bindMethod _ _ (superclasses.later later'') objects
    | _ => exact mismatch ..
  | _ => exact mismatch ..

/-! ## Declarations -/

/-- The methods of a class and those of the padded one, made in environments that go together. -/
theorem makeMethods {closure closure' : Env} {outer : Layout}
    {routines routines' : List (Routine (List Stmt))}
    (padded : Stmt.MethodsPadded t.Shifts (false :: outer) routines routines')
    (chains : Chains world outer closure.chain closure'.chain)
    {methods methods' : Bindings Function}
    (known : ∀ name, Option.Rel (Function.PaddedAsMethod t world) (methods.find? name)
      (methods'.find? name)) :
    t.Alongside .neither world layout
      (fun next made made' => ∀ name, Option.Rel (Function.PaddedAsMethod t next)
        (made.find? name) (made'.find? name))
      (Eval.makeMethods closure routines methods)
        (Eval.makeMethods closure' routines' methods') := by
  induction routines generalizing world routines' methods methods' with
  | nil =>
    cases padded
    exact .pure fun _ later name =>
      optionRel_imp (fun _ _ related => related.later later) (known name)
  | cons routine rest inductionHypothesis =>
    obtain _ | ⟨first, others⟩ := padded
    refine Alongside.freshIdentity.andThen fun next identity _ later same => ?_
    refine inductionHypothesis others (chains.later later) fun name => ?_
    rw [first.name]
    refine optionRel_insert ?_ routine.name.text
      ⟨same, rfl, outer, Layout.regular_cons outer, chains.later later, first⟩
    exact optionRel_imp (fun _ _ related => related.later later) (known name)

theorem completeClass (regular : layout.Regular) {name : Ident} {closure closure' : Env}
    {outer : Layout} {inherited inherited' : List ClassLayer}
    {methods methods' : List (Routine (List Stmt))}
    (padded : Stmt.MethodsPadded t.Shifts (false :: outer) methods methods')
    (chains : Chains world outer closure.chain closure'.chain)
    (above : List.Forall₂ (ClassLayer.Related (Function.PaddedAsMethod t world))
      inherited inherited')
    {m m' : Machine} (states : m.Padded t world layout m')
    (bound : (m.store.frame m.env.frame).contains name.text = true) :
    (padding t).Coincide .neither world layout (fun _ _ _ => True)
      (Eval.completeClass name m.env closure inherited methods m)
      (Eval.completeClass name m'.env closure' inherited' methods' m') := by
  have frame := states.inside.innermost regular
  refine Comparison.Alongside.completeClass (makeMethods padded chains fun _ => .none)
    (fun later stores values => stores.bind (frame_later later frame) name.text values) above
    states bound ?_
  rw [states.store.contains frame]
  exact bound

theorem declareClass (regular : layout.Regular) {name : Ident}
    {methods methods' : List (Routine (List Stmt))}
    (padded : Stmt.MethodsPadded t.Shifts (false :: layout) methods methods') :
    t.Alongside .neither world layout (fun _ _ _ => True) (Eval.declareClass name none methods)
      (Eval.declareClass name none methods') := by
  intro now m m' later states
  rw [Eval.declareClass_eq, Eval.declareClass_eq]
  have declared := Machine.Padded.define states regular name.text .nil
  refine completeClass regular padded declared.inside .nil declared ?_
  exact (Store.contains_frame_bind ..).mpr
    (.inl ⟨rfl, rfl, states.store.allocated (states.inside.innermost regular)⟩)

theorem declareSubclass (regular : layout.Regular) {name : Ident} {superclass : Reference}
    {methods methods' : List (Routine (List Stmt))} (shifts : t.Shifts layout (.read superclass))
    (padded : Stmt.MethodsPadded t.Shifts (false :: false :: layout) methods methods') :
    t.Alongside .neither world layout (fun _ _ _ => True)
      (Eval.declareClass name (some superclass) methods)
      (Eval.declareClass name (some superclass) methods') := by
  rw [Eval.declareClass_eq, Eval.declareClass_eq]
  refine (Alongside.superclassOf rfl (lookup shifts.depth _ _)).andThen
    fun next found found' later classes => ?_
  obtain ⟨cls, cls', rfl, rfl, classes⟩ := classes
  intro now m m' later' states
  have declared := Machine.Padded.define states regular name.text .nil
  have allocated := states.store.allocated (states.inside.innermost regular)
  have new : now <+: now ++ [(m'.store.define m'.env name.text .nil).frames.size] :=
    List.prefix_append _ _
  -- The frames with `super` come between those of the class and those of its methods.
  have bound : ∀ key, Option.Rel (Value.Padded t now)
      ((Bindings.empty.insert "super" (.class cls)).find? key)
      ((Bindings.empty.insert "super" (.class cls')).find? key) :=
    fun key => optionRel_insert .none "super" (.class (classes.later later'))
  have stores := declared.store.addFrame bound
  refine (completeClass regular padded (.own ?_ (states.inside.later new))
    (classes.later (later'.trans new)) (declared.withStore new stores) ?_).earlier new
  · rw [← declared.store.known, List.getElem?_concat_length]
  · have old : m.env.frame ≠ (m.store.define m.env name.text .nil).frames.size := by
      rw [Store.define, Store.size_bind]
      exact allocated.ne
    rw [Store.frame_addFrame_of_ne _ old]
    exact (Store.contains_frame_bind ..).mpr (.inl ⟨rfl, rfl, allocated⟩)

theorem declareFunction (regular : layout.Regular) {routine routine' : Routine (List Stmt)}
    (padded : Stmt.RoutinePadded t.Shifts layout routine routine') :
    t.Alongside .neither world layout (fun _ _ _ => True) (Eval.declareFunction routine)
      (Eval.declareFunction routine') := by
  refine Alongside.freshIdentity.andThen fun _ identity _ _ same => .get fun _ m m' _ states => ?_
  cases same
  rw [padded.name]
  exact define regular _ (.function ⟨rfl, rfl, layout, regular, states.inside, padded⟩)

end Tables.Alongside

end Lox
