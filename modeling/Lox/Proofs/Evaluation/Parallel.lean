import Lox.Proofs.Evaluation.Comparison
import Lox.Proofs.Store.Similar

set_option autoImplicit false

/-!
# Steps in parallel

Two machines in similar states, each of which takes a step: the outcomes are of one kind, and the
states behind them are similar again. This is shown for the steps that depend on what is similar.
-/

namespace Lox

open Comparison (Alongside)
open Correspondence (markAt)

/-! ## Similar states -/

/-- The depths that two machines run with are on record for numbers that stand for each other, and
the names of uses stand for each other in the scope at the recorded depth. -/
structure Correspondence.Records (c : Correspondence) (depths depths' : Depths) : Prop where
  entry : ∀ {i i' : ExprId}, c.id i i' → depths'[i']? = depths[i]?
  name : ∀ {marks : List Bool} {i : ExprId} {a a' : String},
    c.name (markAt marks (c.depth i)) a a' → c.name (markAt marks depths[i]?) a a'

/-- Interruptions that differ at most in the name that a missing binding is reported with. -/
inductive Interruption.Similar (c : Correspondence) : Interruption → Interruption → Prop where
  | same (e : Interruption) : Similar c e e
  | mismatch {mark : Bool} {a a' : String} {distance : Nat} {span : Span} : c.name mark a a' →
    Similar c (.fault (scopeMismatch a distance span)) (.fault (scopeMismatch a' distance span))

abbrev Flow.Similar (c : Correspondence) (world : List Bool) : Flow → Flow → Prop :=
  Related (Value.Similar c world)

/-- Machines inside scopes with the given marks. -/
@[reducible] def similarity (c : Correspondence) : Comparison Bool (List Bool) where
  store world s s' := s.Similar c world s'
  env world marks e e' := e' = e ∧ Marked world e.chain marks
  top := []
  depths := c.Records
  functions := Function.Similar c []
  methods := Function.SimilarAsMethod c
  interrupted := Interruption.Similar c
  lasting := inferInstance
  lastingMethods := inferInstance
  env_later envs later := ⟨envs.1, envs.2.later later⟩
  fault _ := .same _
  identities stores := stores.identities
  fields stores := stores.fields
  properties stores := stores.properties
  addIdentity stores := stores.addIdentity
  addInstance stores := stores.addInstance
  setField id name stores values := stores.setField id name values

abbrev Machine.Similar (c : Correspondence) (world marks : List Bool) : Machine → Machine → Prop :=
  (similarity c).Machines world marks

/-- Two steps agree from all similar states. The marks of the frames may have grown since. -/
abbrev Parallel {α : Type} (c : Correspondence) (world marks : List Bool)
    (related : List Bool → α → α → Prop) (x x' : Eval α) : Prop :=
  (similarity c).Alongside .neither world marks related x x'

/-! ## The steps of a machine -/

namespace Machine.Similar

variable {c : Correspondence} {world world' marks : List Bool} {m m' : Machine}

/-- The innermost frame is marked like the innermost scope. -/
theorem innermost (similar : m.Similar c world marks m') :
    world[m.env.frame]? = some (marks.headD false) := by
  rw [← Correspondence.markAt_zero]
  exact similar.inside.2.mark_of_depth rfl

theorem allocated (similar : m.Similar c world marks m') : m.env.frame < m.store.frames.size := by
  rw [← similar.store.marked]
  exact (List.getElem?_eq_some_iff.mp similar.innermost).1

/-- Names that stand for each other, bound in the innermost frames. -/
theorem define (lawful : c.Lawful) (similar : m.Similar c world marks m') {a a' : String}
    {v v' : Value} (name : c.name (marks.headD false) a a') (values : v.Similar c world v') :
    Machine.Similar c world marks { m with store := m.store.define m.env a v }
      { m' with store := m'.store.define m'.env a' v' } := by
  refine similar.withStore List.prefix_rfl ?_
  rw [similar.inside.1]
  exact similar.store.bind lawful similar.innermost name values

end Machine.Similar

namespace Parallel

variable {c : Correspondence} {world marks : List Bool}

/-- A new frame in an environment, with the mark that goes with its bindings. -/
theorem enclose {env : Env} {outer : List Bool} {bindings bindings' : Bindings Value} (mark : Bool)
    (marked : Marked world env.chain outer)
    (values : ∀ a a', c.name mark a a' →
      Option.Rel (Value.Similar c world) (bindings.find? a) (bindings'.find? a')) :
    Parallel c world marks (fun next => (similarity c).env next (mark :: outer))
      (Eval.enclose env bindings) (Eval.enclose env bindings') := by
  intro now m m' later similar
  have new : now <+: now ++ [mark] := List.prefix_append _ _
  refine .ok new (similar.withStore new (similar.store.addFrame fun a a' name =>
    optionRel_imp (fun _ _ related => related.later later) (values a a' name))) ⟨?_, .frame ?_ ?_⟩
  · rw [similar.store.frames]
  · rw [← similar.store.marked, List.getElem?_concat_length]
  · exact marked.later (later.trans new)

/-- The methods of similar declarations, made in one environment. -/
theorem makeMethods {closure : Env} {outer : List Bool}
    {routines routines' : List (Routine (List Stmt))}
    (similar : Stmt.MethodsSimilar c (false :: outer) routines routines')
    (marked : Marked world closure.chain outer) {methods methods' : Bindings Function}
    (known : ∀ name, Option.Rel (Function.SimilarAsMethod c world) (methods.find? name)
      (methods'.find? name)) :
    Parallel c world marks
      (fun next made made' => ∀ name, Option.Rel (Function.SimilarAsMethod c next)
        (made.find? name) (made'.find? name))
      (Eval.makeMethods closure routines methods)
        (Eval.makeMethods closure routines' methods') := by
  induction routines generalizing world routines' methods methods' with
  | nil =>
    cases similar
    exact .pure fun _ later name =>
      optionRel_imp (fun _ _ related => related.later later) (known name)
  | cons routine rest inductionHypothesis =>
    obtain _ | ⟨first, others⟩ := similar
    refine Alongside.freshIdentity.andThen fun next identity _ later same => ?_
    refine inductionHypothesis others (marked.later later) fun name => ?_
    rw [first.name]
    refine optionRel_insert ?_ routine.name.text ⟨same, rfl, rfl, outer, marked.later later, first⟩
    exact optionRel_imp (fun _ _ related => related.later later) (known name)

section Lawful

variable (lawful : c.Lawful)
include lawful

theorem define {a a' : String} {v v' : Value} (name : c.name (marks.headD false) a a')
    (values : v.Similar c world v') :
    Parallel c world marks (fun _ _ _ => True) (Eval.define a v) (Eval.define a' v') :=
  fun _ _ _ later similar =>
    .ok List.prefix_rfl (Machine.Similar.define lawful similar name (values.later later)) trivial

/-- Uses that stand for each other find similar values. -/
theorem lookup {r r' : Reference} (similar : r.Similar c marks r') :
    Parallel c world marks (Value.Similar c) (Eval.lookup r.id r.name.text r.name.span)
      (Eval.lookup r'.id r'.name.text r'.name.span) := by
  refine .get fun now m m' _ states => ?_
  have name := states.depths.name similar.name.text
  rw [states.depths.entry similar.id, similar.name.span]
  cases found : m.depths[r.id]? with
  | none =>
    rw [found] at name
    refine .orFault (fun next later => ?_) ?_
    · rw [states.top.1]
      exact optionRel_imp (fun _ _ related => related.later later)
        (states.store.get? states.top.2 name)
    · rw [lawful.top name]
      exact .same _
  | some distance =>
    rw [found] at name
    refine .orFault (fun next later => ?_) (.mismatch name)
    rw [states.inside.1]
    exact optionRel_imp (fun _ _ related => related.later later)
      (states.store.getAt? states.inside.2 name)

/-- Assignments that stand for each other write to one frame. -/
theorem assignmentTarget {i i' : ExprId} {name name' : Ident}
    (similar : Reference.Similar c marks ⟨i, name⟩ ⟨i', name'⟩) :
    Parallel c world marks
      (fun next frame frame' => frame' = frame ∧
        ∃ mark, next[frame]? = some mark ∧ c.name mark name.text name'.text)
      (Eval.assignmentTarget i name) (Eval.assignmentTarget i' name') := by
  refine .get fun now m m' _ states => ?_
  have span : name'.span = name.span := similar.name.span
  have text := states.depths.name similar.name.text
  rw [states.depths.entry similar.id, span]
  cases found : m.depths[i]? with
  | none =>
    -- A use without a depth belongs to the top level, where no name changes.
    rw [found] at text
    refine .orFault (fun next later => ?_) ?_
    · rw [states.top.1, states.store.frameOf? states.top.2 text]
      cases there : m.store.frameOf? m.globals name.text with
      | none => exact .none
      | some frame =>
        have known := states.top.2.mark_of_mem (List.mem_of_find?_eq_some there)
        exact .some ⟨rfl, _, mark_later later known, text⟩
    · rw [lawful.top text]
      exact .same _
  | some distance =>
    rw [found] at text
    refine .orFault (fun next later => ?_) (.mismatch text)
    rw [states.inside.1, states.store.frameAt? states.inside.2 text]
    cases there : m.store.frameAt? m.env distance name.text with
    | none => exact .none
    | some frame =>
      have known := states.inside.2.mark_of_depth (Option.filter_eq_some_iff.mp there).1
      exact .some ⟨rfl, _, mark_later later known, text⟩

theorem assign {i i' : ExprId} {name name' : Ident} {v v' : Value}
    (similar : Reference.Similar c marks ⟨i, name⟩ ⟨i', name'⟩) (values : v.Similar c world v') :
    Parallel c world marks (fun _ _ _ => True) (Eval.assign i name v)
      (Eval.assign i' name' v') := by
  rw [Eval.assign_eq, Eval.assign_eq]
  refine (assignmentTarget lawful similar).andThen fun next frame _ later found => ?_
  obtain ⟨rfl, mark, known, text⟩ := found
  exact .modifyStore fun _ _ _ later' stores => stores.bind lawful (mark_later later' known) text
    (values.later (later.trans later'))

/-- A method is tied to similar instances in a new frame, which is not marked. -/
theorem bindMethod {method method' : Function} {object object' : Instance}
    (methods : method.SimilarAsMethod c world method') (objects : object.Similar c world object') :
    Parallel c world marks (Function.Similar c []) (Eval.bindMethod method object)
      (Eval.bindMethod method' object') := by
  obtain ⟨outer, marked, routine⟩ := methods.routine
  unfold Eval.bindMethod
  rw [methods.closure]
  refine (enclose false marked fun a a' name => ?_).andThen fun next closure _ later found => ?_
  · rw [← lawful.top name]
    exact optionRel_insert .none "this" (.instance objects)
  · obtain ⟨rfl, marked⟩ := found
    refine Alongside.freshIdentity.andThen fun _ identity _ later' same => .pure fun _ later'' => ?_
    exact ⟨same, rfl, methods.isInitializer, _, marked.later (later'.trans later''), routine⟩

theorem superMethod {i i' : ExprId} (span : Span) (method : Ident) (id : c.id i i') :
    Parallel c world marks (Value.Similar c) (Eval.superMethod i span method)
      (Eval.superMethod i' span method) := by
  refine .get fun now m m' later states => ?_
  rw [states.depths.entry id]
  -- `this` and `super` stand for themselves, so it does not matter how their frames are marked.
  have access : ∀ {distance : Nat} {name : String}, IsReserved name →
      Parallel c now marks (Value.Similar c)
        (Eval.ofExcept (m.store.getAt m.env distance name span))
        (Eval.ofExcept (m'.store.getAt m'.env distance name span)) := by
    intro distance name reserved
    refine .orFault (fun next later => ?_) (.same _)
    rw [states.inside.1]
    exact optionRel_imp (fun _ _ related => related.later later)
      (states.store.getAt? states.inside.2 (lawful.reserved _ reserved))
  rcases m.depths[i]? with _ | _ | distance
  · exact .raise _ _
  · exact .raise _ _
  · refine (access (.inr rfl)).andThen fun next v v' later' values => ?_
    cases values with
    | @«class» cls cls' superclasses =>
      refine ((access (.inl rfl)).later later').andThen fun next' w w' later'' values => ?_
      cases values with
      | «instance» objects =>
        exact .tieMethod (bindMethod lawful) _ _ (superclasses.later later'') objects
      | _ => exact .raise _ _
    | _ => exact .raise _ _

theorem completeClass {name : Ident} {closure closure' : Env} {outer : List Bool}
    {inherited inherited' : List ClassLayer} {methods methods' : List (Routine (List Stmt))}
    (text : c.name (marks.headD false) name.text name.text)
    (similar : Stmt.MethodsSimilar c (false :: outer) methods methods')
    (closures : (similarity c).env world outer closure closure')
    (above : List.Forall₂ (ClassLayer.Related (Function.SimilarAsMethod c world)) inherited
      inherited') {m m' : Machine}
    (states : m.Similar c world marks m')
    (bound : (m.store.frame m.env.frame).contains name.text = true) :
    (similarity c).Coincide .neither world marks (fun _ _ _ => True)
      (Eval.completeClass name m.env closure inherited methods m)
      (Eval.completeClass name m'.env closure' inherited' methods' m') := by
  obtain ⟨rfl, marked⟩ := closures
  have frame := states.innermost
  rw [states.inside.1]
  refine Alongside.completeClass (makeMethods similar marked fun _ => .none)
    (fun later stores values => ?_) above
    states bound ?_
  · exact stores.bind lawful (mark_later later frame) text values
  · rw [states.store.contains frame text]
    exact bound

theorem declareClass {name : Ident} {methods methods' : List (Routine (List Stmt))}
    (text : c.name (marks.headD false) name.text name.text)
    (similar : Stmt.MethodsSimilar c (false :: marks) methods methods') :
    Parallel c world marks (fun _ _ _ => True) (Eval.declareClass name none methods)
      (Eval.declareClass name none methods') := by
  intro now m m' later states
  rw [Eval.declareClass_eq, Eval.declareClass_eq]
  have declared := Machine.Similar.define lawful states text .nil
  refine completeClass lawful text similar declared.inside .nil declared ?_
  exact (Store.contains_frame_bind ..).mpr (.inl ⟨rfl, rfl, Machine.Similar.allocated states⟩)

theorem declareSubclass {name : Ident} {superclass superclass' : Reference}
    {methods methods' : List (Routine (List Stmt))}
    (text : c.name (marks.headD false) name.text name.text)
    (references : superclass.Similar c marks superclass')
    (similar : Stmt.MethodsSimilar c (false :: false :: marks) methods methods') :
    Parallel c world marks (fun _ _ _ => True) (Eval.declareClass name (some superclass) methods)
      (Eval.declareClass name (some superclass') methods') := by
  rw [Eval.declareClass_eq, Eval.declareClass_eq]
  refine (Alongside.superclassOf references.name.span (lookup lawful references)).andThen
    fun next found found' later classes => ?_
  obtain ⟨cls, cls', rfl, rfl, classes⟩ := classes
  intro now m m' later' states
  have declared := Machine.Similar.define lawful states text .nil
  have new : now <+: now ++ [false] := List.prefix_append _ _
  -- The frame with `super` comes between those of the class and those of its methods.
  have stores : (Store.addFrame (m.store.define m.env name.text .nil)
      (Bindings.empty.insert "super" (.class cls))).Similar c (now ++ [false])
      (Store.addFrame (m'.store.define m'.env name.text .nil)
        (Bindings.empty.insert "super" (.class cls'))) := by
    refine declared.store.addFrame fun a a' same => ?_
    rw [← lawful.top same]
    exact optionRel_insert .none "super" (.class (classes.later later'))
  refine (completeClass lawful text similar ⟨?_, .frame ?_ ?_⟩ (classes.later (later'.trans new))
    (declared.withStore new stores) ?_).earlier new
  · rw [declared.store.frames]
    exact congrArg (Env.mk _) (congrArg Env.chain states.inside.1)
  · rw [← declared.store.marked, List.getElem?_concat_length]
  · exact states.inside.2.later new
  · have old : m.env.frame ≠ (m.store.define m.env name.text .nil).frames.size :=
      (Machine.Similar.allocated declared).ne
    rw [Store.frame_addFrame_of_ne _ old]
    exact (Store.contains_frame_bind ..).mpr (.inl ⟨rfl, rfl, Machine.Similar.allocated states⟩)

theorem declareFunction {routine routine' : Routine (List Stmt)}
    (text : c.name (marks.headD false) routine.name.text routine.name.text)
    (similar : Stmt.RoutineSimilar c marks routine routine') :
    Parallel c world marks (fun _ _ _ => True) (Eval.declareFunction routine)
      (Eval.declareFunction routine') := by
  refine Alongside.freshIdentity.andThen fun _ identity _ _ same => .get fun _ m m' _ states => ?_
  cases same
  rw [similar.name, states.inside.1]
  exact define lawful text (.function ⟨rfl, rfl, rfl, marks, states.inside.2, similar⟩)

end Lawful

end Parallel

end Lox
