import Lox.Proofs.Evaluation.Machine
import Lox.Proofs.Store.Relabeling

set_option autoImplicit false

/-!
# Steps that are run again

A step can be run again with other labels, other depths and more fuel. It does then what it did,
with the labels replaced in all that it yields and leaves behind. Only where it ran out of fuel it
may go on now. This is shown for every step of the machine, and carries over from steps to their
sequences.
-/

namespace Lox

def Interruption.relabel (r : Relabeling) : Interruption → Interruption
  | .fault error => .fault (error.relabel r)
  | .outOfFuel => .outOfFuel

def Flow.relabel (r : Relabeling) : Flow → Flow
  | .next => .next
  | .return value => .return (value.relabel r)

/-- How something is run again: with which labels, and with which depths in place of those before.
The depths are the same for the numbers that are put in place of the numbers before. -/
structure Rerun where
  labels : Relabeling
  before : Depths
  after : Depths
  entries : ∀ id, after[labels.id id]? = before[id]?
  /-- Whether there may be more fuel. -/
  longer : Prop

structure Machine.Keeps (m m' : Machine) : Prop where
  globals : m'.globals = m.globals
  env : m'.env = m.env
  depths : m'.depths = m.depths
  callDepth : m'.callDepth = m.callDepth
  written : ∃ text, m'.output.text = m.output.text ++ text

namespace Machine

variable {m m' m'' : Machine}

theorem Keeps.refl (m : Machine) : m.Keeps m :=
  ⟨rfl, rfl, rfl, rfl, "", by rw [String.append_empty]⟩

theorem Keeps.trans (first : m.Keeps m') (second : m'.Keeps m'') : m.Keeps m'' := by
  obtain ⟨text, written⟩ := first.written
  obtain ⟨more, writtenLater⟩ := second.written
  exact ⟨second.globals.trans first.globals, second.env.trans first.env,
    second.depths.trans first.depths, second.callDepth.trans first.callDepth, text ++ more,
    by rw [writtenLater, written, String.append_assoc]⟩

theorem Keeps.withStore (m : Machine) (s : Store) : m.Keeps { m with store := s } :=
  ⟨rfl, rfl, rfl, rfl, "", by rw [String.append_empty]⟩

theorem Keeps.within {env : Env} (keeps : Keeps { m with env := env } m') :
    m.Keeps { m' with env := m.env } :=
  ⟨keeps.globals, rfl, keeps.depths, keeps.callDepth, keeps.written⟩

theorem Keeps.counted (keeps : Keeps { m with callDepth := m.callDepth + 1 } m') :
    m.Keeps { m' with callDepth := m'.callDepth - 1 } :=
  ⟨keeps.globals, keeps.env, keeps.depths, congrArg (· - 1) keeps.callDepth, keeps.written⟩

/-- The state that a step is run again from. -/
def again (c : Rerun) (m : Machine) : Machine :=
  { m with store := m.store.relabel c.labels, depths := c.after }

/-- Uses have the depths that they had. -/
theorem getElem?_again {c : Rerun} (depths : m.depths = c.before) (i : ExprId) :
    (m.again c).depths[c.labels.id i]? = m.depths[i]? := by
  rw [depths]
  exact c.entries i

end Machine

namespace Rerun

variable {α β : Type}

inductive Repeats (c : Rerun) (f : α → β) (m : Machine) :
    EStateM.Result Interruption Machine α → EStateM.Result Interruption Machine β → Prop where
  | ok {a : α} {m' : Machine} : m.Keeps m' → Repeats c f m (.ok a m') (.ok (f a) (m'.again c))
  | error {e : Interruption} {m' : Machine} :
    m.Keeps m' → Repeats c f m (.error e m') (.error (e.relabel c.labels) (m'.again c))
  | exhausted {m' : Machine} {outcome : EStateM.Result Interruption Machine β} :
    c.longer → Repeats c f m (.error .outOfFuel m') outcome

/-- A step, and what it is when it is run again. -/
def Follows (c : Rerun) (f : α → β) (x : Eval α) (x' : Eval β) : Prop :=
  ∀ m : Machine, m.depths = c.before → c.Repeats f m (x m) (x' (m.again c))

variable {c : Rerun} {f : α → β}

theorem Repeats.earlier {m m' : Machine} {outcome : EStateM.Result Interruption Machine α}
    {outcome' : EStateM.Result Interruption Machine β} (keeps : m.Keeps m')
    (repeats : c.Repeats f m' outcome outcome') : c.Repeats f m outcome outcome' := by
  cases repeats with
  | ok later => exact .ok (keeps.trans later)
  | error later => exact .error (keeps.trans later)
  | exhausted longer => exact .exhausted longer

theorem Repeats.ok_iff {m m' : Machine} {a : α} {outcome : EStateM.Result Interruption Machine β} :
    c.Repeats f m (.ok a m') outcome ↔ m.Keeps m' ∧ outcome = .ok (f a) (m'.again c) := by
  constructor
  · rintro ⟨keeps⟩
    exact ⟨keeps, rfl⟩
  · rintro ⟨keeps, rfl⟩
    exact .ok keeps

theorem Repeats.error_iff (exact : ¬c.longer) {m m' : Machine} {e : Interruption}
    {outcome : EStateM.Result Interruption Machine β} : c.Repeats f m (.error e m') outcome ↔
      m.Keeps m' ∧ outcome = .error (e.relabel c.labels) (m'.again c) := by
  constructor
  · rintro (_ | keeps | longer)
    · exact ⟨keeps, rfl⟩
    · exact absurd longer exact
  · rintro ⟨keeps, rfl⟩
    exact .error keeps

namespace Follows

variable {x : Eval α} {x' : Eval β}

theorem keeps (follows : c.Follows f x x') (exact : ¬c.longer) {m : Machine}
    (depths : m.depths = c.before) :
    Meets x m (fun _ m' => m.Keeps m') fun _ m' => m.Keeps m' := by
  have outcome := follows m depths
  unfold Meets
  generalize x m = result, x' (m.again c) = result' at outcome
  cases outcome with
  | ok keeps => exact keeps
  | error keeps => exact keeps
  | exhausted longer => exact absurd longer exact

protected theorem pure (a : α) : c.Follows f (pure a) (pure (f a)) :=
  fun m _ => .ok (.refl m)

theorem raise (cause : RuntimeError.Cause) (span : Span) :
    c.Follows f (Eval.raise cause span) (Eval.raise cause (c.labels.span span)) :=
  fun m _ => .error (.refl m)

/-- Without fuel, nothing is done again or anything may be. -/
theorem outOfFuel (possible : c.longer ∨ x' = throw .outOfFuel) :
    c.Follows f (throw .outOfFuel) x' := by
  intro m _
  rcases possible with longer | rfl
  · exact .exhausted longer
  · exact .error (.refl m)

theorem bind {γ δ : Type} {g : γ → δ} {k : α → Eval γ} {k' : β → Eval δ} (first : c.Follows f x x')
    (second : ∀ a, c.Follows g (k a) (k' (f a))) : c.Follows g (x >>= k) (x' >>= k') := by
  intro m depths
  have outcome := first m depths
  simp only [Bind.bind, EStateM.bind]
  generalize x m = result, x' (m.again c) = result' at outcome
  cases outcome with
  | @ok a m' keeps => exact (second a m' (keeps.depths.trans depths)).earlier keeps
  | error keeps => exact .error keeps
  | exhausted longer => exact .exhausted longer

/-- A step that looks at the state first. -/
theorem get {k : Machine → Eval α} {k' : Machine → Eval β}
    (step : ∀ m : Machine, m.depths = c.before → c.Follows f (k m) (k' (m.again c))) :
    c.Follows f (MonadState.get >>= k) (MonadState.get >>= k') :=
  fun m depths => step m depths m depths

theorem ite {condition condition' : Prop} [Decidable condition] [Decidable condition'] {y : Eval α}
    {y' : Eval β} (same : condition' ↔ condition) (yes : c.Follows f x x') (no : c.Follows f y y') :
    c.Follows f (if condition then x else y) (if condition' then x' else y') := by
  by_cases holds : condition
  · rw [if_pos holds, if_pos (same.mpr holds)]
    exact yes
  · rw [if_neg holds, if_neg (mt same.mp holds)]
    exact no

/-- What is there in a store is there in the relabeled one. -/
theorem orFault (found : Option α) (error : RuntimeError) :
    c.Follows f (Eval.ofExcept (orFault found error))
      (Eval.ofExcept (Lox.orFault (found.map f) (error.relabel c.labels))) := by
  cases found with
  | none => exact fun m _ => .error (.refl m)
  | some a => exact .pure a

theorem ofCause (result : Except RuntimeError.Cause α) (span : Span) :
    c.Follows f (Eval.ofCause result span) (Eval.ofCause (result.map f) (c.labels.span span)) := by
  cases result with
  | error cause => exact .raise cause span
  | ok a => exact .pure a

/-- A step that does nothing but change the store. -/
theorem changeStore (g : Machine → α × Store) (g' : Machine → β × Store)
    (step : ∀ m : Machine, g' (m.again c) = (f (g m).1, (g m).2.relabel c.labels)) :
    c.Follows f (modifyGet fun m => ((g m).1, { m with store := (g m).2 }))
      (modifyGet fun m => ((g' m).1, { m with store := (g' m).2 })) := by
  intro m _
  have same : (modifyGet fun m => ((g' m).1, { m with store := (g' m).2 }) : Eval β) (m.again c) =
      .ok (f (g m).1) (Machine.again c { m with store := (g m).2 }) := by
    change EStateM.Result.ok _ _ = _
    rw [step m]
    rfl
  rw [same]
  exact .ok (.withStore m _)

theorem modifyStore {g g' : Store → Store}
    (step : ∀ s : Store, g' (s.relabel c.labels) = (g s).relabel c.labels) :
    c.Follows id (Eval.modifyStore g) (Eval.modifyStore g') :=
  changeStore (fun m => ((), g m.store)) (fun m => ((), g' m.store))
    fun m => congrArg (Prod.mk ()) (step m.store)

/-! ## The steps of a machine -/

theorem freshIdentity : c.Follows id Eval.freshIdentity Eval.freshIdentity :=
  changeStore (fun m => (m.store.identities, m.store.addIdentity))
    (fun m => (m.store.identities, m.store.addIdentity)) fun _ => rfl

theorem enclose (env : Env) (bindings : Bindings Value) :
    c.Follows id (Eval.enclose env bindings)
      (Eval.enclose env (bindings.map (Value.relabel c.labels))) :=
  changeStore (fun m => (Env.mk m.store.frames.size env.chain, m.store.addFrame bindings))
    (fun m => (Env.mk m.store.frames.size env.chain,
      m.store.addFrame (bindings.map (Value.relabel c.labels))))
    fun _ => Prod.ext (congrArg (Env.mk · env.chain) Array.size_map) (Store.addFrame_relabel ..)

theorem define (name : String) (value : Value) :
    c.Follows id (Eval.define name value) (Eval.define name (value.relabel c.labels)) :=
  changeStore (fun m => ((), m.store.define m.env name value))
    (fun m => ((), m.store.define m.env name (value.relabel c.labels)))
    fun _ => congrArg (Prod.mk ()) (Store.bind_relabel ..)

theorem newInstance (cls : Class) :
    c.Follows (Instance.relabel c.labels) (Eval.newInstance cls)
      (Eval.newInstance (cls.relabel c.labels)) :=
  changeStore (fun m => (Instance.mk m.store.fields.size cls, m.store.addInstance))
    (fun m => (Instance.mk m.store.fields.size (cls.relabel c.labels), m.store.addInstance))
    fun _ => Prod.ext (congrArg (Instance.mk · (cls.relabel c.labels)) Array.size_map)
      (Store.addInstance_relabel ..)

theorem setField (object : Instance) (name : String) (value : Value) :
    c.Follows id (Eval.setField object name value)
      (Eval.setField (object.relabel c.labels) name (value.relabel c.labels)) :=
  modifyStore fun _ => Store.setField_relabel ..

theorem readClock : c.Follows id Eval.readClock Eval.readClock :=
  fun _ _ => .ok ⟨rfl, rfl, rfl, rfl, "", by rw [String.append_empty]⟩

theorem print (line : String) (span : Span) :
    c.Follows id (Eval.print line span) (Eval.print line (c.labels.span span)) := by
  refine .get fun m _ => .ite Iff.rfl (fun m _ => .ok ⟨rfl, rfl, rfl, rfl, line ++ "\n", ?_⟩)
    (.raise _ _)
  exact String.append_assoc ..

/-- A step in another environment. -/
theorem within (env : Env) (step : c.Follows f x x') :
    c.Follows f (Eval.within env x) (Eval.within env x') := by
  intro m depths
  have outcome := step { m with env := env } depths
  simp only [Eval.within, Machine.again] at outcome ⊢
  generalize x _ = result, x' _ = result' at outcome
  cases outcome with
  | ok keeps => exact .ok keeps.within
  | error keeps => exact .error keeps.within
  | exhausted longer => exact .exhausted longer

theorem counted (limit : Nat) (span : Span) (step : c.Follows f x x') :
    c.Follows f (Eval.counted limit span x) (Eval.counted limit (c.labels.span span) x') := by
  intro m depths
  have same : (m.again c).callDepth = m.callDepth := rfl
  by_cases full : limit ≤ m.callDepth
  · rw [Eval.counted, Eval.counted, if_pos full, same, if_pos full]
    exact .error (.refl m)
  · have outcome := step { m with callDepth := m.callDepth + 1 } depths
    rw [Eval.counted, Eval.counted, if_neg full, same, if_neg full]
    simp only [Machine.again] at outcome ⊢
    generalize x _ = result, x' _ = result' at outcome
    cases outcome with
    | ok keeps => exact .ok keeps.counted
    | error keeps => exact .error keeps.counted
    | exhausted longer => exact .exhausted longer

theorem getAt {m : Machine} (distance : Nat) (name : String) (span : Span) (env : Env) :
    c.Follows (Value.relabel c.labels) (Eval.ofExcept (m.store.getAt env distance name span))
      (Eval.ofExcept ((m.again c).store.getAt env distance name (c.labels.span span))) := by
  unfold Store.getAt Machine.again
  rw [Store.getAt?_relabel]
  exact .orFault _ (scopeMismatch name distance span)

theorem lookup (i : ExprId) (name : String) (span : Span) :
    c.Follows (Value.relabel c.labels) (Eval.lookup i name span)
      (Eval.lookup (c.labels.id i) name (c.labels.span span)) := by
  refine .get fun m depths => ?_
  rw [Machine.getElem?_again depths]
  cases m.depths[i]? with
  | some distance => exact .getAt distance name span m.env
  | none =>
    unfold Store.get Machine.again
    dsimp only
    rw [Store.get?_relabel]
    exact .orFault _ (undefinedVariable name span)

theorem target {m : Machine} (env : Env) (name : String) (span : Span) :
    c.Follows id (Eval.ofExcept (m.store.target env name span))
      (Eval.ofExcept ((m.again c).store.target env name (c.labels.span span))) := by
  have found := orFault (c := c) (f := id) (m.store.frameOf? env name) (undefinedVariable name span)
  unfold Store.target Machine.again
  rw [Option.map_id] at found
  rwa [Store.frameOf?_relabel]

theorem targetAt {m : Machine} (env : Env) (distance : Nat) (name : String) (span : Span) :
    c.Follows id (Eval.ofExcept (m.store.targetAt env distance name span))
      (Eval.ofExcept ((m.again c).store.targetAt env distance name (c.labels.span span))) := by
  have found := orFault (c := c) (f := id) (m.store.frameAt? env distance name)
    (scopeMismatch name distance span)
  unfold Store.targetAt Machine.again
  rw [Option.map_id] at found
  rwa [Store.frameAt?_relabel]

theorem assignmentTarget (i : ExprId) (name : Ident) :
    c.Follows id (Eval.assignmentTarget i name)
      (Eval.assignmentTarget (c.labels.id i) (name.relabel c.labels)) := by
  refine .get fun m depths => ?_
  rw [Machine.getElem?_again depths]
  cases m.depths[i]? with
  | some distance => exact .targetAt m.env distance name.text name.span
  | none => exact .target m.globals name.text name.span

theorem assign (i : ExprId) (name : Ident) (value : Value) :
    c.Follows id (Eval.assign i name value)
      (Eval.assign (c.labels.id i) (name.relabel c.labels) (value.relabel c.labels)) := by
  rw [Eval.assign_eq, Eval.assign_eq]
  exact (assignmentTarget i name).bind fun _ => modifyStore fun _ => Store.bind_relabel ..

/-- A method tied to an instance. -/
theorem bindMethod (method : Function) (object : Instance) :
    c.Follows (Function.relabel c.labels) (Eval.bindMethod method object)
      (Eval.bindMethod (method.relabel c.labels) (object.relabel c.labels)) := by
  have frame := enclose (c := c) method.closure (Bindings.empty.insert "this" (.instance object))
  rw [Bindings.map_insert] at frame
  exact frame.bind fun closure => freshIdentity.bind fun identity =>
    .pure { method with identity := identity, closure := closure }

/-- A method that was looked for, tied to an instance. -/
theorem boundMethod (found : Option Function) (object : Instance) (cause : RuntimeError.Cause)
    (span : Span) :
    c.Follows (Value.relabel c.labels)
      (match found with
        | some method => return Value.function (← Eval.bindMethod method object)
        | none => Eval.raise cause span)
      (match found.map (Function.relabel c.labels) with
        | some method => return Value.function (← Eval.bindMethod method (object.relabel c.labels))
        | none => Eval.raise cause (c.labels.span span)) := by
  cases found with
  | none => exact .raise cause span
  | some method => exact (bindMethod method object).bind fun f => .pure (Value.function f)

theorem getProperty (object : Instance) (name : String) (span : Span) :
    c.Follows (Value.relabel c.labels) (Eval.getProperty object name span)
      (Eval.getProperty (object.relabel c.labels) name (c.labels.span span)) := by
  refine .get fun m _ => ?_
  have field : ((m.again c).store.fieldsOf (object.relabel c.labels).id).find? name =
      ((m.store.fieldsOf object.id).find? name).map (Value.relabel c.labels) := by
    unfold Machine.again
    rw [Store.fieldsOf_relabel, Bindings.find?_map]
    rfl
  have method : (object.relabel c.labels).cls.findMethod? name =
      (object.cls.findMethod? name).map (Function.relabel c.labels) :=
      object.cls.findMethod?_relabel ..
  rw [field, method]
  cases (m.store.fieldsOf object.id).find? name with
  | some value => exact .pure value
  | none => exact .boundMethod _ object _ span

theorem superMethod (i : ExprId) (span : Span) (method : Ident) :
    c.Follows (Value.relabel c.labels) (Eval.superMethod i span method)
      (Eval.superMethod (c.labels.id i) (c.labels.span span) (method.relabel c.labels)) := by
  refine .get fun m depths => ?_
  rw [Machine.getElem?_again depths]
  rcases m.depths[i]? with _ | _ | distance
  · exact .raise _ span
  · exact .raise _ span
  · refine (getAt (distance + 1) "super" span m.env).bind fun value => ?_
    cases value with
    | «class» superclass =>
      refine (getAt distance "this" span m.env).bind fun value => ?_
      cases value with
      | «instance» object =>
        simp only [Value.relabel, Class.findMethod?_relabel]
        exact .boundMethod _ object _ method.span
      | _ => exact .raise _ span
    | _ => exact .raise _ span

theorem makeMethods (closure : Env) (routines : List (Routine (List Stmt)))
    (methods : Bindings Function) :
    c.Follows (Bindings.map (Function.relabel c.labels)) (Eval.makeMethods closure routines methods)
      (Eval.makeMethods closure (Stmt.relabelMethods c.labels routines)
        (methods.map (Function.relabel c.labels))) := by
  induction routines generalizing methods with
  | nil => exact .pure methods
  | cons routine rest inductionHypothesis =>
    refine freshIdentity.bind fun identity => ?_
    have made := inductionHypothesis (methods.insert routine.name.text
      ⟨identity, routine, closure, routine.name.text = "init"⟩)
    rw [Bindings.map_insert] at made
    rw [Stmt.relabelRoutine_name]
    exact made

theorem superclassOf (superclass : Option Reference) :
    c.Follows (Option.map (Class.relabel c.labels)) (Eval.superclassOf superclass)
      (Eval.superclassOf (superclass.map (Reference.relabel c.labels))) := by
  cases superclass with
  | none => exact .pure none
  | some reference =>
    refine (lookup reference.id reference.name.text reference.name.span).bind fun value => ?_
    cases value with
    | «class» superclass => exact .pure (some superclass)
    | _ => exact .raise _ reference.name.span

theorem completeClass (name : Ident) (env closure : Env) (inherited : List ClassLayer)
    (methods : List (Routine (List Stmt))) :
    c.Follows id (Eval.completeClass name env closure inherited methods)
      (Eval.completeClass (name.relabel c.labels) env closure
        (inherited.map (ClassLayer.relabel c.labels)) (Stmt.relabelMethods c.labels methods)) :=
  (makeMethods closure methods ∅).bind fun made => freshIdentity.bind fun identity =>
    .get fun _ _ =>
    (target env name.text name.span).bind fun frame => modifyStore fun s =>
      s.bind_relabel c.labels frame name.text (.class ⟨⟨identity, name.text, made⟩, inherited⟩)

theorem declareClass (name : Ident) (superclass : Option Reference)
    (methods : List (Routine (List Stmt))) :
    c.Follows id (Eval.declareClass name superclass methods)
      (Eval.declareClass (name.relabel c.labels) (superclass.map (Reference.relabel c.labels))
        (Stmt.relabelMethods c.labels methods)) := by
  rw [Eval.declareClass_eq, Eval.declareClass_eq]
  refine (superclassOf superclass).bind fun superclass => (define name.text .nil).bind fun _ =>
    .get fun m _ => ?_
  cases superclass with
  | none => exact .completeClass name m.env m.env [] methods
  | some superclass =>
    have frame := enclose (c := c) m.env (Bindings.empty.insert "super" (.class superclass))
    rw [Bindings.map_insert] at frame
    exact frame.bind fun closure =>
      .completeClass name m.env closure (superclass.own :: superclass.inherited) methods

theorem declareFunction (routine : Routine (List Stmt)) :
    c.Follows id (Eval.declareFunction routine)
      (Eval.declareFunction (Stmt.relabelRoutine c.labels routine)) := by
  refine freshIdentity.bind fun identity => .get fun m _ => ?_
  rw [Stmt.relabelRoutine_name]
  exact .define routine.name.text (.function ⟨identity, routine, m.env, false⟩)

end Follows

end Rerun

end Lox
