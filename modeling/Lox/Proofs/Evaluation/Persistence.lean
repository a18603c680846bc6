import Lox.Proofs.Evaluation.Agreement

set_option autoImplicit false

/-!
# Reserved names stay as they are

`this` and `super` are bound when a frame is made, and never again. So an earlier store binds them
in its frames as a later one does. Each part of a run that fits ends in a store that is earlier than
the one that the run ends in. Hence any two moments of a run agree about the frames that are there
in both, whichever of them comes first.
-/

namespace Lox

open Scope (Resolution)

namespace Store

variable {s s' s'' : Store} {id : FrameId} {name : String} {value : Value}

/-- An earlier store. Its frames are still there in the later one, and bind the reserved names
alike. -/
structure Precedes (s s' : Store) : Prop where
  size : s.frames.size ≤ s'.frames.size
  reserved : ∀ id < s.frames.size, ∀ name, IsReserved name →
    (s'.frame id).find? name = (s.frame id).find? name

theorem Evolves.precedes {opened : Option FrameId} (evolves : s.Evolves opened s') :
    s.Precedes s' :=
  ⟨evolves.size, evolves.reserved⟩

theorem allocated_of_find? (found : (s.frame id).find? name = some value) : id < s.frames.size := by
  by_contra outside
  rw [frame_eq_empty (not_lt.mp outside)] at found
  cases found

namespace Precedes

theorem refl (s : Store) : s.Precedes s :=
  ⟨le_rfl, fun _ _ _ _ => rfl⟩

theorem of_frames (same : s'.frames = s.frames) : s.Precedes s' := by
  refine ⟨by rw [same], fun id _ name _ => ?_⟩
  simp only [Store.frame, same]

theorem trans (first : s.Precedes s') (second : s'.Precedes s'') : s.Precedes s'' where
  size := first.size.trans second.size
  reserved id allocated name reserved :=
    (second.reserved id (allocated.trans_le first.size) name reserved).trans
      (first.reserved id allocated name reserved)

theorem bind (before : s.Precedes s') (unreserved : ¬IsReserved name) :
    s.Precedes (s'.bind id name value) := by
  refine ⟨by simpa using before.size, fun other allocated key reserved => ?_⟩
  rw [find?_frame_bind, if_neg]
  · exact before.reserved other allocated key reserved
  · rintro ⟨_, rfl, _⟩
    exact unreserved reserved

theorem addFrame (s : Store) (bindings : Bindings Value) : s.Precedes (s.addFrame bindings) :=
  (show s.Evolves none _ from .addFrame s bindings).precedes

theorem find? (before : s.Precedes s') (reserved : IsReserved name)
    (found : (s.frame id).find? name = some value) : (s'.frame id).find? name = some value := by
  rw [before.reserved id (allocated_of_find? found) name reserved]
  exact found

end Precedes

end Store

/-! ## The end of a step -/

namespace Eval

variable {α β : Type} {s : Store} {m : Machine} {x : Eval α}

def EndsAfter (s : Store) (x : Eval α) (m : Machine) : Prop :=
  Meets x m (fun _ m' => s.Precedes m'.store) fun _ m' => s.Precedes m'.store

namespace EndsAfter

protected theorem pure {a : α} (before : s.Precedes m.store) : EndsAfter s (pure a) m :=
  before

theorem raise (cause : RuntimeError.Cause) (span : Span) (before : s.Precedes m.store) :
    EndsAfter s (raise cause span : Eval α) m :=
  before

theorem bind {k : α → Eval β} (first : EndsAfter s x m)
    (second : ∀ a m', x m = .ok a m' → s.Precedes m'.store → EndsAfter s (k a) m') :
    EndsAfter s (x >>= k) m :=
  Meets.bind first second

/-- A step that starts with one of which the outcome is known. -/
theorem behind {k : α → Eval β} {a : α} {m' : Machine} (done : x m = .ok a m')
    (second : EndsAfter s (k a) m') : EndsAfter s (x >>= k) m :=
  (meets_congr (x := x >>= k) (y := fun _ => k a m') (bind_of_ok done)).mpr second

theorem ite {condition : Prop} [Decidable condition] {y : Eval α}
    (yes : condition → EndsAfter s x m)
    (no : ¬condition → EndsAfter s y m) : EndsAfter s (if condition then x else y) m := by
  by_cases holds : condition
  · rw [if_pos holds]
    exact yes holds
  · rw [if_neg holds]
    exact no holds

theorem yes {condition : Prop} [Decidable condition] {y : Eval α} (holds : condition)
    (step : EndsAfter s x m) : EndsAfter s (if condition then x else y) m :=
  .ite (fun _ => step) fun fails => absurd holds fails

theorem no {condition : Prop} [Decidable condition] {y : Eval α} (fails : ¬condition)
    (step : EndsAfter s y m) : EndsAfter s (if condition then x else y) m :=
  .ite (fun holds => absurd holds fails) fun _ => step

/-- A step behind which nothing is left but to return. -/
theorem last {f : α → β} (step : EndsAfter s x m) : EndsAfter s (x >>= fun a => pure (f a)) m :=
  step.bind fun _ _ _ after => .pure after

/-- A step behind which another one is taken, unless it returns. -/
theorem goOn {x : Eval Flow} {k : Flow → Eval Flow} (first : EndsAfter s x m)
    (returned : ∀ value, k (.return value) = pure (.return value))
    (second : ∀ m', x m = .ok .next m' → s.Precedes m'.store → EndsAfter s (k .next) m') :
    EndsAfter s (x >>= k) m := by
  refine first.bind fun flow m' done before => ?_
  cases flow with
  | next => exact second m' done before
  | «return» value =>
    rw [returned]
    exact before

theorem within {env : Env} (step : EndsAfter s x { m with env := env }) :
    EndsAfter s (within env x) m :=
  meets_within.mpr step

theorem counted {limit : Nat} (span : Span) (full : limit ≤ m.callDepth → s.Precedes m.store)
    (step : ¬limit ≤ m.callDepth → EndsAfter s x { m with callDepth := m.callDepth + 1 }) :
    EndsAfter s (counted limit span x) m := by
  rw [EndsAfter, meets_counted]
  split
  · exact full ‹_›
  · exact step ‹_›

theorem ofExcept (result : Except RuntimeError α) (before : s.Precedes m.store) :
    EndsAfter s (ofExcept result) m := by
  cases result with
  | ok a => exact before
  | error e => exact before

theorem ofCause (result : Except RuntimeError.Cause α) (span : Span) (before : s.Precedes m.store) :
    EndsAfter s (ofCause result span) m := by
  cases result with
  | ok a => exact before
  | error cause => exact before

theorem assign (i : ExprId) {name : Ident} (value : Value) (unreserved : ¬IsReserved name.text)
    (before : s.Precedes m.store) : EndsAfter s (assign i name value) m := by
  have target : EndsAfter s (assignmentTarget i name) m := by
    refine .behind rfl ?_
    split
    · exact .ofExcept _ before
    · exact .ofExcept _ before
  rw [assign_eq]
  exact target.bind fun _ _ _ between => between.bind unreserved

theorem define {name : String} (value : Value) (unreserved : ¬IsReserved name)
    (before : s.Precedes m.store) : EndsAfter s (define name value) m :=
  before.bind unreserved

theorem bindMethod (method : Function) (object : Instance) (before : s.Precedes m.store) :
    EndsAfter s (bindMethod method object) m :=
  meets_bind.mpr (before.trans ((Store.Precedes.addFrame m.store _).trans (.of_frames rfl)))

theorem getProperty (object : Instance) (name : String) (span : Span)
    (before : s.Precedes m.store) :
    EndsAfter s (getProperty object name span) m := by
  refine .behind rfl ?_
  split
  · exact .pure before
  · split
    · exact (bindMethod _ object before).last
    · exact .raise _ span before

theorem setField (object : Instance) (name : String) (value : Value) (before : s.Precedes m.store) :
    EndsAfter s (setField object name value) m :=
  before.trans (.of_frames rfl)

theorem print (line : String) (span : Span) (before : s.Precedes m.store) :
    EndsAfter s (print line span) m :=
  .behind rfl (.ite (fun _ => before) fun _ => .raise _ span before)

end EndsAfter

end Eval

/-! ## The end of an activity -/

namespace Activity

variable {limit : Nat} {r : Resolution} {a b : Activity}

def endStore (limit : Nat) (a : Activity) : Store :=
  (endState (a.task.run limit a.fuel a.machine)).store

theorem Fits.precedes_endStore (fits : a.Fits r) (limit : Nat) :
    a.machine.store.Precedes (a.endStore limit) := by
  obtain ⟨scopes, fitsMachine, fitsTask⟩ := fits
  have ends : Eval.EndsAfter a.machine.store (a.task.run limit a.fuel) a.machine :=
    (sound limit r a.fuel a.task fitsMachine fitsTask).mono
      (fun _ _ _ done => done.1.evolves.precedes) fun _ _ _ stopped => stopped.1.evolves.precedes
  exact meets_endState.mp ends

theorem Fits.setApart_endStore (fits : a.Fits r) (limit : Nat) (id : FrameId) :
    ((a.endStore limit).frame id).SetApart := by
  obtain ⟨scopes, fitsMachine, fitsTask⟩ := fits
  have ends := (sound limit r a.fuel a.task fitsMachine fitsTask).mono
    (fun _ _ _ done => done.1.fits.store.apart) fun _ _ _ stopped => stopped.1.fits.store.apart
  exact meets_endState.mp ends id

/-- A part ends before the activity does. Behind the part come the parts that are started after it,
and steps that bind no reserved name in a frame that was there. -/
theorem Starts.endStore_precedes (starts : Starts limit a b) (fits : a.Fits r) :
    (b.endStore limit).Precedes (a.endStore limit) := by
  have here : Eval.EndsAfter (b.endStore limit) (b.task.run limit b.fuel) b.machine :=
    meets_endState.mpr (.refl _)
  have part {c : Activity} (started : Starts limit a c)
      (before : (b.endStore limit).Precedes c.machine.store) :
      Eval.EndsAfter (b.endStore limit) (c.task.run limit c.fuel) c.machine :=
    meets_endState.mpr (before.trans ((started.fits fits).precedes_endStore limit))
  obtain ⟨scopes, fitsMachine, fitsTask⟩ := fits
  suffices ends : Eval.EndsAfter (b.endStore limit) (a.task.run limit a.fuel) a.machine from
    meets_endState.mp ends
  generalize b.endStore limit = s at here part ⊢
  cases starts with
  | assigned =>
    refine here.bind fun v m₁ _ before => ?_
    exact (Eval.EndsAfter.assign _ v fitsTask.2.2.permitted.1 before).last
  | binaryLeft =>
    refine here.bind fun v m₁ first before => ?_
    exact (part (.binaryRight first) before).bind fun w _ _ after => .ofCause _ _ after
  | binaryRight first => exact .behind first (here.bind fun w _ _ after => .ofCause _ _ after)
  | logicalLeft =>
    refine here.bind fun v m₁ first before => .ite (fun _ => .pure before) fun unsettled => ?_
    exact part (.logicalRight first unsettled) before
  | logicalRight first unsettled => exact .behind first (.no unsettled here)
  | operand => exact here.bind fun v _ _ before => .ofCause _ _ before
  | callee =>
    refine here.bind fun f m₁ first before => ?_
    refine (part (.args first) before).bind fun values m₂ second between => ?_
    exact .counted _ (fun _ => between) fun allowed => part (.call first second allowed) between
  | args first =>
    refine .behind first (here.bind fun values m₂ second between => ?_)
    exact .counted _ (fun _ => between) fun allowed => part (.call first second allowed) between
  | call first second allowed =>
    exact .behind
      first (.behind second (.counted _ (fun full => absurd full allowed) fun _ => here))
  | inner | loop => exact here
  | getObject =>
    refine here.bind fun v m₁ _ before => ?_
    cases v with
    | «instance» object => exact .getProperty object _ _ before
    | _ => exact .raise _ _ before
  | setObject =>
    refine here.bind fun v m₁ first before => ?_
    cases v with
    | «instance» object =>
      exact (part (.setValue first) before).bind fun w _ _ after =>
        (Eval.EndsAfter.setField object _ w after).last
    | _ => exact .raise _ _ before
  | setValue first =>
    exact .behind first (here.bind fun w _ _ after => (Eval.EndsAfter.setField _ _ w after).last)
  | firstExpr =>
    refine here.bind fun v m₁ first before => ?_
    exact (part (.otherExprs first) before).last
  | otherExprs first => exact .behind first here.last
  | apply arity =>
    rw [Task.run, Eval.call_function limit arity]
    exact here
  | instantiate arity =>
    rw [Task.run, Eval.call_class limit arity]
    exact here
  | body enclosed =>
    refine .behind enclosed ((Eval.EndsAfter.within here).bind fun flow m₂ _ after => ?_)
    refine .ite (fun _ => .behind rfl (.ofExcept _ after)) fun _ => ?_
    cases flow with
    | next => exact .pure after
    | «return» value => exact .pure after
  | initializer declared made tied =>
    refine .behind made ?_
    rw [declared]
    exact .behind tied here.last
  | exprStmt | returned => exact here.last
  | printed =>
    refine here.bind fun v m₁ _ before => ?_
    exact (Eval.EndsAfter.print _ _ before).last
  | initial =>
    refine here.bind fun v m₁ _ before => ?_
    exact (Eval.EndsAfter.define v fitsTask.2.1.1 before).last
  | block enclosed => exact .behind rfl (.behind enclosed (.within here))
  | @condition fuel m condition yes no =>
    refine here.bind fun v m₁ first before =>
      .ite (fun holds => part (.yes first holds) before) fun fails => ?_
    cases no with
    | none => exact .pure before
    | some no => exact part (.no first fails) before
  | yes first holds => exact .behind first (.yes holds here)
  | no first fails => exact .behind first (.no fails here)
  | loopCondition =>
    refine here.bind fun v m₁ first before => .ite (fun holds => ?_) fun _ => .pure before
    refine (part (.loopBody first holds) before).goOn (fun _ => rfl) fun m₂ second between => ?_
    exact part (.loopAgain first holds second) between
  | loopBody first holds =>
    refine .behind first (.yes holds (here.goOn (fun _ => rfl) fun m₂ second between => ?_))
    exact part (.loopAgain first holds second) between
  | loopAgain first holds second => exact .behind first (.yes holds (.behind second here))
  | firstStmt =>
    refine here.goOn (fun _ => rfl) fun m₁ first before => ?_
    exact part (.otherStmts first) before
  | otherStmts first => exact .behind first here

theorem Reaches.endStore_precedes (reaches : Reaches limit a b) (fits : a.Fits r) :
    (b.endStore limit).Precedes (a.endStore limit) := by
  induction reaches with
  | refl => exact .refl _
  | tail earlier starts inductionHypothesis =>
    have fitsEarlier := Reaches.fits earlier fits
    exact (starts.endStore_precedes fitsEarlier).trans inductionHypothesis

end Activity

end Lox
