import Lox.Proofs.Scope.Violations
import Lox.Proofs.Syntax.Relabeling

set_option autoImplicit false

/-!
# Resolving programs that are joined

Resolving does not look at spans, at depths or at faults: it copies spans into faults and adds to
the rest. At the top level it leaves nothing behind but depths and faults. So a program behind
another one is resolved as it is on its own.
-/

namespace Lox

open Scope (State RoutineKind)

def ScopeError.respan (f : Span → Span) (e : ScopeError) : ScopeError := { e with span := f e.span }

theorem Depths.merge_insert (earlier later : Depths) (id : ExprId) (depth : Nat) :
    earlier.merge (later.insert id depth) = (earlier.merge later).insert id depth := by
  refine Std.ExtTreeMap.ext_getElem? fun {other} => ?_
  rw [getElem?_merge, Std.ExtTreeMap.getElem?_insert, Std.ExtTreeMap.getElem?_insert,
    getElem?_merge]
  split <;> rfl

theorem Depths.merge_empty (earlier : Depths) : earlier.merge ∅ = earlier := by
  refine Std.ExtTreeMap.ext_getElem? fun {other} => ?_
  rw [getElem?_merge, Std.ExtTreeMap.getElem?_empty, Option.none_or]

/-! ## Other spans and earlier depths -/

namespace Scope.State

def under (table : Depths) (f : Span → Span) (s : State) : State :=
  { s with depths := table.merge s.depths, errors := s.errors.map (ScopeError.respan f) }

variable (table : Depths) (f : Span → Span) (s : State)

theorem report_under (cause : ScopeError.Cause) (lexeme : String) (span : Span) :
    (s.under table f).report cause lexeme (f span) =
      (s.report cause lexeme span).under table f := by
  simp [report, under, ScopeError.respan]

theorem reportIf_under (condition : Prop) [Decidable condition] (cause : ScopeError.Cause)
    (lexeme : String) (span : Span) :
    (if condition then (s.under table f).report cause lexeme (f span) else s.under table f) =
      (if condition then s.report cause lexeme span else s).under table f := by
  split
  · exact report_under ..
  · rfl

theorem push_under : (s.under table f).push = s.push.under table f := rfl

theorem mark_under (name : String) (complete : Bool) :
    (s.under table f).mark name complete = (s.mark name complete).under table f := by
  unfold mark
  cases found : s.scopes with
  | nil => simp only [under, found]
  | cons innermost outer => simp only [under, found]

theorem resolve_under (id : ExprId) (name : String) :
    (s.under table f).resolve id name = (s.resolve id name).under table f := by
  have same : (s.under table f).depth? name = s.depth? name := rfl
  unfold resolve
  rw [same]
  cases s.depth? name with
  | none => rfl
  | some depth => simp only [under, Depths.merge_insert]

theorem declare_under (name : Ident) :
    (s.under table f).declare (name.relabel (.spans f)) = (s.declare name).under table f :=
  (congrArg (mark · name.text false) (reportIf_under table f s _ _ _ _)).trans (mark_under ..)

theorem define_under (name : Ident) :
    (s.under table f).define (name.relabel (.spans f)) = (s.define name).under table f :=
  mark_under ..

theorem useName_under (r : Reference) :
    (s.under table f).useName (r.relabel (.spans f)) = (s.useName r).under table f :=
  (congrArg (resolve · r.id r.name.text) (reportIf_under table f s _ _ _ _)).trans
    (resolve_under ..)

theorem useThis_under (id : ExprId) (span : Span) :
    (s.under table f).useThis id (f span) = (s.useThis id span).under table f := by
  have same : (s.under table f).classKind = s.classKind := rfl
  unfold useThis
  rw [same]
  cases s.classKind with
  | none => exact report_under ..
  | base | subclass => exact resolve_under ..

theorem useSuper_under (id : ExprId) (span : Span) :
    (s.under table f).useSuper id (f span) = (s.useSuper id span).under table f := by
  have same : (s.under table f).classKind = s.classKind := rfl
  unfold useSuper
  rw [same]
  cases s.classKind with
  | none | base =>
    dsimp only
    rw [report_under, resolve_under]
  | subclass => exact resolve_under ..

theorem useReturn_under (keyword : Span) (hasValue : Bool) :
    (s.under table f).useReturn (f keyword) hasValue =
      (s.useReturn keyword hasValue).under table f := by
  obtain ⟨scopes, routine, classKind, depths, errors⟩ := s
  cases routine with
  | none => exact report_under table f ⟨scopes, .none, classKind, depths, errors⟩ ..
  | function | method => rfl
  | initializer =>
    cases hasValue with
    | true => exact report_under table f ⟨scopes, .initializer, classKind, depths, errors⟩ ..
    | false => rfl

theorem declareAll_under (params : List Ident) :
    (params.map (Ident.relabel (.spans f))).foldl (fun s param => (s.declare param).define param)
        (s.under table f) =
      (params.foldl (fun s param => (s.declare param).define param) s).under table f := by
  induction params generalizing s with
  | nil => rfl
  | cons param rest inductionHypothesis =>
    rw [List.map_cons, List.foldl_cons, declare_under, define_under, inductionHypothesis,
      List.foldl_cons]

theorem enterRoutine_under (kind : RoutineKind) (params : List Ident) :
    (s.under table f).enterRoutine kind (params.map (Ident.relabel (.spans f))) =
      (s.enterRoutine kind params).under table f :=
  declareAll_under table f (push { s with routine := kind }) params

theorem enterSuperclass_under (name : Ident) (superclass : Reference) :
    (s.under table f).enterSuperclass (name.relabel (.spans f)) (superclass.relabel (.spans f)) =
      (s.enterSuperclass name superclass).under table f := by
  have reported := reportIf_under table f s (superclass.name.text = name.text) .selfInheritance
    superclass.name.text superclass.name.span
  have used := useName_under table f { (if superclass.name.text = name.text then
      s.report .selfInheritance superclass.name.text superclass.name.span else s) with
    classKind := .subclass } superclass
  have marked := mark_under table f (({ (if superclass.name.text = name.text then
      s.report .selfInheritance superclass.name.text superclass.name.span else s) with
    classKind := .subclass }.useName superclass).push) "super" true
  refine Eq.trans ?_ marked
  refine congrArg (fun s : State => s.push.mark "super" true) (Eq.trans ?_ used)
  exact congrArg (fun s : State => { s with classKind := .subclass }.useName
    (superclass.relabel (.spans f))) reported

theorem enterClass_under (name : Ident) (superclass : Option Reference) :
    (s.under table f).enterClass (name.relabel (.spans f))
        (superclass.map (Reference.relabel (.spans f))) =
      (s.enterClass name superclass).under table f := by
  have declared : (({ s.under table f with classKind := .base }.declare
      (name.relabel (.spans f))).define (name.relabel (.spans f))) =
      (({ s with classKind := .base }.declare name).define name).under table f := by
    rw [← define_under, ← declare_under]
    rfl
  unfold enterClass
  rw [declared]
  cases superclass with
  | none =>
    dsimp only [Option.map_none]
    rw [push_under, mark_under]
  | some superclass =>
    dsimp only [Option.map_some]
    rw [enterSuperclass_under, push_under, mark_under]

theorem leaveClass_under (superclass : Option Reference) (outer : ClassKind) :
    (s.under table f).leaveClass (superclass.map (Reference.relabel (.spans f))) outer =
      (s.leaveClass superclass outer).under table f := by
  cases superclass <;> rfl

end Scope.State

mutual

theorem Expr.resolve_under (table : Depths) (f : Span → Span) : ∀ (e : Expr) (s : State),
    (e.relabel (.spans f)).resolve (s.under table f) = (e.resolve s).under table f
  | .literal .., _ => rfl
  | .ref target, s => s.useName_under table f target
  | .assign id name value, s => by
    rw [Expr.relabel, Expr.resolve, value.resolve_under]
    exact State.resolve_under ..
  | .binary _ _ _ left right, s | .logical _ _ _ left right, s => by
    rw [Expr.relabel, Expr.resolve, left.resolve_under, right.resolve_under, Expr.resolve]
  | .unary _ _ _ operand, s => operand.resolve_under table f s
  | .call _ _ callee args, s => by
    rw [Expr.relabel, Expr.resolve, callee.resolve_under, Expr.resolveAll_under, Expr.resolve]
  | .group _ _ inner, s => inner.resolve_under table f s
  | .get _ object _, s => object.resolve_under table f s
  | .set _ object _ value, s => by
    rw [Expr.relabel, Expr.resolve, value.resolve_under, object.resolve_under, Expr.resolve]
  | .this id span, s => s.useThis_under table f id span
  | .super id span _, s => s.useSuper_under table f id span

theorem Expr.resolveAll_under (table : Depths) (f : Span → Span) : ∀ (es : List Expr) (s : State),
    Expr.resolveAll (Expr.relabelAll (.spans f) es) (s.under table f) =
      (Expr.resolveAll es s).under table f
  | [], _ => rfl
  | e :: rest, s => by
    rw [Expr.relabelAll, Expr.resolveAll, e.resolve_under, Expr.resolveAll_under, Expr.resolveAll]

end

theorem Expr.resolveOption_under (table : Depths) (f : Span → Span) (e : Option Expr) (s : State) :
    Expr.resolveOption (e.map (Expr.relabel (.spans f))) (s.under table f) =
      (Expr.resolveOption e s).under table f := by
  cases e with
  | none => rfl
  | some e => exact e.resolve_under table f s

namespace Stmt

mutual

theorem resolve_under (table : Depths) (f : Span → Span) : ∀ (statement : Stmt) (s : State),
    (statement.relabel (.spans f)).resolve (s.under table f) = (statement.resolve s).under table f
  | .expr value, s => value.resolve_under table f s
  | .print value, s => value.resolve_under table f s
  | .var name initial, s => by
    rw [relabel, Stmt.resolve, State.declare_under, Expr.resolveOption_under, State.define_under,
      Stmt.resolve]
  | .block body, s => congrArg State.pop (resolveAll_under table f body s.push)
  | .if condition yes none, s => by
    rw [relabel, Stmt.resolve, condition.resolve_under, resolve_under, Stmt.resolve]
  | .if condition yes (some no), s => by
    rw [relabel, Stmt.resolve, condition.resolve_under, resolve_under, resolve_under, Stmt.resolve]
  | .while condition body, s => by
    rw [relabel, Stmt.resolve, condition.resolve_under, resolve_under, Stmt.resolve]
  | .fun routine, s => by
    rw [relabel, Stmt.resolve, relabelRoutine_name, State.declare_under, State.define_under,
      resolveRoutine_under, Stmt.resolve]
  | .return keyword value, s => by
    have returned := s.useReturn_under table f keyword value.isSome
    rw [relabel, Stmt.resolve, Option.isSome_map]
    exact (congrArg _ returned).trans (Expr.resolveOption_under ..)
  | .class name superclass methods, s => by
    rw [relabel, Stmt.resolve, State.enterClass_under, resolveMethods_under]
    exact State.leaveClass_under ..

theorem resolveAll_under (table : Depths) (f : Span → Span) : ∀ (body : List Stmt) (s : State),
    Stmt.resolveAll (relabelAll (.spans f) body) (s.under table f) =
      (Stmt.resolveAll body s).under table f
  | [], _ => rfl
  | statement :: rest, s => by
    rw [relabelAll, Stmt.resolveAll, resolve_under, resolveAll_under, Stmt.resolveAll]

theorem resolveRoutine_under (table : Depths) (f : Span → Span) :
    ∀ (routine : Routine (List Stmt)) (kind : RoutineKind) (s : State),
      Stmt.resolveRoutine (relabelRoutine (.spans f) routine) kind (s.under table f) =
        (Stmt.resolveRoutine routine kind s).under table f
  | ⟨_, params, body⟩, kind, s => by
    rw [relabelRoutine, Stmt.resolveRoutine, State.enterRoutine_under, resolveAll_under]
    rfl

theorem resolveMethods_under (table : Depths) (f : Span → Span) :
    ∀ (methods : List (Routine (List Stmt))) (s : State),
      Stmt.resolveMethods (relabelMethods (.spans f) methods) (s.under table f) =
        (Stmt.resolveMethods methods s).under table f
  | [], _ => rfl
  | method :: rest, s => by
    have kind : Scope.methodKind (relabelRoutine (.spans f) method).name =
        Scope.methodKind method.name := by
      rw [relabelRoutine_name]
      rfl
    rw [relabelMethods, Stmt.resolveMethods, kind, resolveRoutine_under, resolveMethods_under,
      Stmt.resolveMethods]

end

theorem resolveAll_append (first second : List Stmt) (s : State) :
    Stmt.resolveAll (first ++ second) s = Stmt.resolveAll second (Stmt.resolveAll first s) := by
  induction first generalizing s with
  | nil => rfl
  | cons statement rest inductionHypothesis =>
    rw [List.cons_append, Stmt.resolveAll, inductionHypothesis, Stmt.resolveAll]

end Stmt

namespace Program

/-- A program leaves no scope open. -/
theorem resolveAll_of_resolve {program : Program} {depths : Depths}
    (accepted : program.resolve = .ok depths) (f : Span → Span) :
    Stmt.resolveAll program {} = ({} : State).under depths f := by
  obtain ⟨clean, recorded⟩ := resolve_ok_iff.mp accepted
  have kept := Stmt.resolveAll_extends program {}
  have scopes := program.finds.place.scopes
  revert clean recorded kept scopes
  generalize Stmt.resolveAll program {} = finish
  intro clean recorded kept scopes
  obtain ⟨names, routine, classKind, table, errors⟩ := finish
  obtain ⟨rfl, rfl⟩ : routine = .none ∧ classKind = .none := ⟨kept.routine, kept.classKind⟩
  cases scopes
  simp only at clean recorded
  rw [clean, recorded, State.under, Depths.merge_empty, Array.map_empty]

/-- A program behind another one is resolved as it is on its own, wherever it stands. -/
theorem resolve_append {first second : Program} {depths depths' : Depths}
    (accepted : first.resolve = .ok depths) (acceptedSecond : second.resolve = .ok depths')
    (f : Span → Span) :
    Program.resolve (first ++ second.relabel (.spans f)) = .ok (depths.merge depths') := by
  obtain ⟨clean, recorded⟩ := resolve_ok_iff.mp acceptedSecond
  rw [resolve_ok_iff, Stmt.resolveAll_append, resolveAll_of_resolve accepted f]
  have joined := Stmt.resolveAll_under depths f second {}
  rw [relabel, joined]
  exact ⟨by rw [State.under, clean, Array.map_empty], by rw [State.under, recorded]⟩

end Program

/-! ## Returns -/

namespace Stmt

mutual

/-- Whether a statement can return from the routine around it. -/
def returns : Stmt → Bool
  | .return .. => true
  | .block body => returnsAny body
  | .if _ yes none => yes.returns
  | .if _ yes (some no) => yes.returns || no.returns
  | .while _ body => body.returns
  | _ => false

def returnsAny : List Stmt → Bool
  | [] => false
  | s :: rest => s.returns || returnsAny rest

end

mutual

/-- Outside of routines a return is a fault. -/
theorem not_returns_of_clean : ∀ (statement : Stmt) {s : State}, s.routine = .none →
    (statement.resolve s).errors = #[] → statement.returns = false
  | .expr _, _, _, _ | .print _, _, _, _ | .var .., _, _, _
  | .fun _, _, _, _ | .class .., _, _, _ => rfl
  | .return keyword value, s, outside, clean => by
    have reported := (Expr.resolveOption_extends value _).errors_eq clean
    rw [State.useReturn_eq, outside] at reported
    simp [State.report] at reported
  | .block body, s, outside, clean => not_returnsAny_of_clean body (s := s.push) outside clean
  | .if condition yes none, s, outside, clean =>
    not_returns_of_clean yes ((condition.resolve_extends s).routine.trans outside) clean
  | .if condition yes (some no), s, outside, clean => by
    have before := (condition.resolve_extends s).routine.trans outside
    have between := (yes.resolve_extends (condition.resolve s)).routine.trans before
    rw [returns, not_returns_of_clean no between clean,
      not_returns_of_clean yes before ((no.resolve_extends _).errors_eq clean), Bool.or_false]
  | .while condition body, s, outside, clean =>
    not_returns_of_clean body ((condition.resolve_extends s).routine.trans outside) clean

theorem not_returnsAny_of_clean : ∀ (body : List Stmt) {s : State}, s.routine = .none →
    (Stmt.resolveAll body s).errors = #[] → returnsAny body = false
  | [], _, _, _ => rfl
  | statement :: rest, s, outside, clean => by
    have between := (statement.resolve_extends s).routine.trans outside
    rw [returnsAny, not_returnsAny_of_clean rest between clean,
      not_returns_of_clean statement outside ((resolveAll_extends rest _).errors_eq clean),
      Bool.or_false]

end

end Stmt

theorem Program.not_returnsAny_of_resolve {program : Program} {depths : Depths}
    (accepted : program.resolve = .ok depths) : Stmt.returnsAny program = false :=
  Stmt.not_returnsAny_of_clean program rfl (resolve_ok_iff.mp accepted).1

end Lox
