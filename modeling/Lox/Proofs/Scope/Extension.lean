import Lox.Proofs.Scope.Occurrences
import Lox.Proofs.Scope.Rules

set_option autoImplicit false

/-!
# What resolving leaves unchanged

Resolving a piece of a program records depths for the expressions in it only, and takes back no
fault. It ends in the routine and class in which it started. An expression leaves the scopes as they
were, and a statement adds the name that it declares to the innermost one.
-/

namespace Lox

open Scope (Names Rules State mark markAll locate?)

namespace Scope

/-- Later states, in which only depths of the given expressions may be new. -/
structure State.Extends (ids : List ExprId) (s s' : State) : Prop where
  routine : s'.routine = s.routine
  classKind : s'.classKind = s.classKind
  errors : s.errors.toList <+: s'.errors.toList
  depths : ∀ id ∉ ids, s'.depths[id]? = s.depths[id]?
  known : ∀ id ∈ s.depths, id ∈ s'.depths

namespace State

variable {ids ids' : List ExprId} {s s' s'' : State} {name : String}

/-! ## Steps of the resolver -/

@[simp] theorem mark_scopes (s : State) (name : String) (complete : Bool) :
    (s.mark name complete).scopes = Scope.mark s.scopes name complete := by
  unfold State.mark
  cases found : s.scopes with
  | nil => exact found
  | cons innermost outer => rfl

@[simp] theorem mark_routine (s : State) (name : String) (complete : Bool) :
    (s.mark name complete).routine = s.routine := by
  unfold State.mark
  split <;> rfl

@[simp] theorem mark_classKind (s : State) (name : String) (complete : Bool) :
    (s.mark name complete).classKind = s.classKind := by
  unfold State.mark
  split <;> rfl

@[simp] theorem mark_depths (s : State) (name : String) (complete : Bool) :
    (s.mark name complete).depths = s.depths := by
  unfold State.mark
  split <;> rfl

@[simp] theorem mark_errors (s : State) (name : String) (complete : Bool) :
    (s.mark name complete).errors = s.errors := by
  unfold State.mark
  split <;> rfl

theorem depth?_eq (s : State) (name : String) :
    s.depth? name = (locate? s.scopes name).map Prod.fst := by
  unfold State.depth?
  induction s.scopes with
  | nil => rfl
  | cons names outer inductionHypothesis =>
    rw [List.findIdx?_cons]
    cases found : names.find? name with
    | some complete => simp [Bindings.contains, found, locate?_cons_of_some found]
    | none =>
      rw [locate?_cons_of_none found, inductionHypothesis]
      simp [Bindings.contains, found, Function.comp_def]

theorem isIncomplete_iff (s : State) (name : String) :
    s.isIncomplete name = true ↔ locate? s.scopes name = some (0, false) := by
  unfold State.isIncomplete
  cases s.scopes with
  | nil => simp
  | cons names outer =>
    cases found : names.find? name with
    | some complete => simp [locate?, found]
    | none => simp [locate?, found]

theorem declares_iff (s : State) (name : String) :
    s.declares name = true ↔ ∃ names ∈ s.scopes.head?, (names.find? name).isSome := by
  unfold State.declares
  cases s.scopes with
  | nil => simp
  | cons names outer => simp [Bindings.contains]

@[simp] theorem resolve_scopes (s : State) (id : ExprId) (name : String) :
    (s.resolve id name).scopes = s.scopes := by
  unfold State.resolve
  split <;> rfl

@[simp] theorem resolve_errors (s : State) (id : ExprId) (name : String) :
    (s.resolve id name).errors = s.errors := by
  unfold State.resolve
  split <;> rfl

namespace Extends

theorem refl (ids : List ExprId) (s : State) : Extends ids s s :=
  ⟨rfl, rfl, List.prefix_refl _, fun _ _ => rfl, fun _ => id⟩

theorem trans (first : Extends ids s s') (second : Extends ids' s' s'') :
    Extends (ids ++ ids') s s'' := by
  refine ⟨second.routine.trans first.routine, second.classKind.trans first.classKind,
    first.errors.trans second.errors, fun id outside => ?_,
    fun id known => second.known id (first.known id known)⟩
  rw [List.mem_append, not_or] at outside
  exact (second.depths id outside.2).trans (first.depths id outside.1)

theorem mono (extends' : Extends ids s s') (subset : ids ⊆ ids') : Extends ids' s s' :=
  ⟨extends'.routine, extends'.classKind, extends'.errors,
    fun id outside => extends'.depths id fun member => outside (subset member), extends'.known⟩

/-- Two steps that record depths for parts of one piece. -/
theorem join {both : List ExprId} (first : Extends ids s s') (second : Extends ids' s' s'')
    (left : ids ⊆ both) (right : ids' ⊆ both) : Extends both s s'' :=
  (first.trans second).mono (List.append_subset.mpr ⟨left, right⟩)

/-- If no fault was found in the end, none was found before. -/
theorem errors_eq (extends' : Extends ids s s') (none : s'.errors = #[]) : s.errors = #[] := by
  have shorter := extends'.errors
  rw [none] at shorter
  exact Array.toList_eq_nil_iff.mp (List.prefix_nil.mp shorter)

theorem report (s : State) (cause : ScopeError.Cause) (lexeme : String) (span : Span) :
    Extends [] s (s.report cause lexeme span) :=
  ⟨rfl, rfl, by simp [State.report], fun _ _ => rfl, fun _ => id⟩

theorem reportIf (condition : Prop) [Decidable condition] (s : State) (cause : ScopeError.Cause)
    (lexeme : String) (span : Span) :
    Extends [] s (if condition then s.report cause lexeme span else s) := by
  split
  · exact report s cause lexeme span
  · exact refl [] s

theorem mark (s : State) (name : String) (complete : Bool) :
    Extends [] s (s.mark name complete) :=
  ⟨by simp, by simp, by simp, by simp, by simp⟩

theorem declare (s : State) (name : Ident) : Extends [] s (s.declare name) :=
  (reportIf _ s _ _ _).trans (mark _ _ _)

theorem define (s : State) (name : Ident) : Extends [] s (s.define name) :=
  mark s _ _

theorem resolve (s : State) (id : ExprId) (name : String) :
    Extends [id] s (s.resolve id name) := by
  unfold State.resolve
  split
  · refine ⟨rfl, rfl, List.prefix_refl _, fun other outside => ?_, fun other known =>
      Std.ExtTreeMap.mem_insert.mpr (.inr known)⟩
    rw [List.mem_singleton] at outside
    simp [Std.ExtTreeMap.getElem?_insert, Ne.symm outside]
  · exact refl _ s

theorem useName (s : State) (r : Reference) : Extends [r.id] s (s.useName r) :=
  (reportIf _ s _ _ _).trans (resolve _ _ _)

theorem useThis (s : State) (id : ExprId) (span : Span) : Extends [id] s (s.useThis id span) := by
  unfold State.useThis
  split
  · exact (report s _ _ _).mono (List.nil_subset _)
  · exact resolve s id _
  · exact resolve s id _

theorem useSuper (s : State) (id : ExprId) (span : Span) : Extends [id] s (s.useSuper id span) := by
  unfold State.useSuper
  split
  · exact (report s _ _ _).trans (resolve _ _ _)
  · exact (report s _ _ _).trans (resolve _ _ _)
  · exact resolve s id _

theorem useReturn (s : State) (keyword : Span) (hasValue : Bool) :
    Extends [] s (s.useReturn keyword hasValue) := by
  unfold State.useReturn
  split
  · dsimp only
    split
    · exact (report s _ _ _).trans (report _ _ _ _)
    · exact report s _ _ _
  · dsimp only
    split
    · exact report s _ _ _
    · exact refl [] s

end Extends

@[simp] theorem report_scopes (s : State) (cause : ScopeError.Cause) (lexeme : String)
    (span : Span) : (s.report cause lexeme span).scopes = s.scopes := rfl

theorem declare_scopes (s : State) (name : Ident) :
    (s.declare name).scopes = Scope.mark s.scopes name.text false := by
  unfold State.declare
  split <;> simp

theorem define_scopes (s : State) (name : Ident) :
    (s.define name).scopes = Scope.mark s.scopes name.text true := by
  simp [State.define]

@[simp] theorem useName_scopes (s : State) (r : Reference) : (s.useName r).scopes = s.scopes := by
  unfold State.useName
  split <;> simp

@[simp] theorem useThis_scopes (s : State) (id : ExprId) (span : Span) :
    (s.useThis id span).scopes = s.scopes := by
  unfold State.useThis
  split <;> simp

@[simp] theorem useSuper_scopes (s : State) (id : ExprId) (span : Span) :
    (s.useSuper id span).scopes = s.scopes := by
  unfold State.useSuper
  split <;> simp

theorem useReturn_eq (s : State) (keyword : Span) (hasValue : Bool) :
    s.useReturn keyword hasValue =
      match s.routine, hasValue with
      | .none, _ => s.report .topLevelReturn "return" keyword
      | .initializer, true => s.report .valueReturnFromInitializer "return" keyword
      | _, _ => s := by
  unfold State.useReturn
  cases kind : s.routine <;> cases hasValue <;> simp [kind, State.report]

@[simp] theorem useReturn_scopes (s : State) (keyword : Span) (hasValue : Bool) :
    (s.useReturn keyword hasValue).scopes = s.scopes := by
  unfold State.useReturn
  split <;> dsimp only <;> split <;> rfl

end State

end Scope

/-! ## Expressions -/

open Scope.State (Extends)

mutual

theorem Expr.resolve_scopes : ∀ (e : Expr) (s : State), (e.resolve s).scopes = s.scopes
  | .literal .., _ => rfl
  | .ref target, s => s.useName_scopes target
  | .assign id name value, s => by
    rw [Expr.resolve, State.resolve_scopes, value.resolve_scopes]
  | .binary _ _ _ left right, s | .logical _ _ _ left right, s =>
    by rw [Expr.resolve, right.resolve_scopes, left.resolve_scopes]
  | .unary _ _ _ operand, s => operand.resolve_scopes s
  | .call _ _ callee args, s => by
    rw [Expr.resolve, Expr.resolveAll_scopes, callee.resolve_scopes]
  | .group _ _ inner, s => inner.resolve_scopes s
  | .get _ object _, s => object.resolve_scopes s
  | .set _ object _ value, s => by rw [Expr.resolve, object.resolve_scopes, value.resolve_scopes]
  | .this id span, s => s.useThis_scopes id span
  | .super id span _, s => s.useSuper_scopes id span

theorem Expr.resolveAll_scopes :
    ∀ (es : List Expr) (s : State), (Expr.resolveAll es s).scopes = s.scopes
  | [], _ => rfl
  | e :: rest, s => by rw [Expr.resolveAll, Expr.resolveAll_scopes rest, e.resolve_scopes]

end

mutual

theorem Expr.resolve_extends : ∀ (e : Expr) (s : State), Extends e.ids s (e.resolve s)
  | .literal .., s => Extends.refl _ s
  | .ref target, s => Extends.useName s target
  | .assign id name value, s => (value.resolve_extends s).trans (Extends.resolve _ id _)
  | .binary id _ _ left right, s | .logical id _ _ left right, s =>
    ((left.resolve_extends s).trans (right.resolve_extends _)).mono (List.subset_append_left _ _)
  | .unary id _ _ operand, s => (operand.resolve_extends s).mono (List.subset_append_left _ _)
  | .call id _ callee args, s =>
    ((callee.resolve_extends s).trans (Expr.resolveAll_extends args _)).mono
      (List.subset_append_left _ _)
  | .group id _ inner, s => (inner.resolve_extends s).mono (List.subset_append_left _ _)
  | .get id object _, s => (object.resolve_extends s).mono (List.subset_append_left _ _)
  | .set id object _ value, s =>
    (value.resolve_extends s).join (object.resolve_extends _) (by simp [Expr.ids])
      (by simp [Expr.ids])
  | .this id span, s => Extends.useThis s id span
  | .super id span _, s => Extends.useSuper s id span

theorem Expr.resolveAll_extends :
    ∀ (es : List Expr) (s : State), Extends (Expr.idsAll es) s (Expr.resolveAll es s)
  | [], s => Extends.refl _ s
  | e :: rest, s => (e.resolve_extends s).trans (Expr.resolveAll_extends rest _)

end

theorem Expr.resolveOption_scopes (e : Option Expr) (s : State) :
    (Expr.resolveOption e s).scopes = s.scopes := by
  cases e with
  | none => rfl
  | some e => exact e.resolve_scopes s

theorem Expr.resolveOption_extends (e : Option Expr) (s : State) :
    Extends (Expr.idsOption e) s (Expr.resolveOption e s) := by
  cases e with
  | none => exact Extends.refl _ s
  | some e => exact e.resolve_extends s

/-! ## Statements -/

namespace Scope.State

theorem declare_define_scopes (s : State) (name : Ident) :
    ((s.declare name).define name).scopes = Scope.mark s.scopes name.text true := by
  rw [define_scopes, declare_scopes, mark_mark]

theorem declareAll_scopes {names : Names} {outer : List Names} (params : List Ident) {s : State}
    (around : s.scopes = names :: outer) :
    (params.foldl (fun s param => (s.declare param).define param) s).scopes =
      params.foldl (fun names param => names.insert param.text true) names :: outer := by
  induction params generalizing s names with
  | nil => exact around
  | cons param rest inductionHypothesis =>
    refine inductionHypothesis ?_
    rw [declare_define_scopes, around]
    rfl

theorem enterRoutine_scopes (s : State) (kind : RoutineKind) (params : List Ident) :
    (s.enterRoutine kind params).scopes = Scope.paramNames params :: s.scopes :=
  declareAll_scopes params rfl

theorem Extends.declareAll (params : List Ident) (s : State) :
    Extends [] s (params.foldl (fun s param => (s.declare param).define param) s) := by
  induction params generalizing s with
  | nil => exact Extends.refl [] s
  | cons param rest inductionHypothesis =>
    exact ((Extends.declare s param).trans (Extends.define _ param)).trans (inductionHypothesis _)

theorem Extends.push (s : State) : Extends [] s s.push :=
  ⟨rfl, rfl, List.prefix_refl _, fun _ _ => rfl, fun _ => id⟩

theorem Extends.enterRoutine (s : State) (kind : RoutineKind) (params : List Ident) :
    Extends [] { s with routine := kind } (s.enterRoutine kind params) :=
  (Extends.push { s with routine := kind }).trans (Extends.declareAll params _)

def classKindOf : Option Reference → ClassKind
  | some _ => .subclass
  | none => .base

theorem enterClass_scopes (s : State) (name : Ident) (superclass : Option Reference) :
    (s.enterClass name superclass).scopes =
      classScopes (Scope.mark s.scopes name.text true) superclass := by
  cases superclass with
  | none =>
    have declared := declare_define_scopes { s with classKind := .base } name
    simp only [State.enterClass, mark_scopes, State.push, declared]
    rfl
  | some superclass =>
    have declared := declare_define_scopes { s with classKind := .base } name
    have reported : ∀ (condition : Prop) [Decidable condition] (t : State) cause lexeme span,
        (if condition then t.report cause lexeme span else t).scopes = t.scopes := by
      intro condition _ t cause lexeme span
      split <;> rfl
    simp only [State.enterClass, State.enterSuperclass, mark_scopes, State.push, useName_scopes,
      reported, declared]
    rfl

theorem Extends.declareClass (s : State) (name : Ident) (kind : ClassKind) :
    Extends [] { s with classKind := kind }
      { ({ s with classKind := .base }.declare name).define name with classKind := kind } := by
  have declared := (Extends.declare { s with classKind := .base } name).trans
    (Extends.define _ name)
  exact ⟨declared.routine, rfl, declared.errors, declared.depths, declared.known⟩

theorem Extends.enterSuperclass (s : State) (name : Ident) (superclass : Reference) :
    Extends [superclass.id] { s with classKind := .subclass }
      (s.enterSuperclass name superclass) := by
  have reported := reportIf (superclass.name.text = name.text) s .selfInheritance
    superclass.name.text superclass.name.span
  have inClass : Extends [] { s with classKind := .subclass }
      { (if superclass.name.text = name.text then
          s.report .selfInheritance superclass.name.text superclass.name.span else s) with
        classKind := .subclass } :=
    ⟨reported.routine, rfl, reported.errors, reported.depths, reported.known⟩
  exact ((inClass.trans (Extends.useName _ superclass)).trans (Extends.push _)).join
    (Extends.mark _ _ _) (by simp) (by simp)

theorem Extends.enterClass (s : State) (name : Ident) (superclass : Option Reference) :
    Extends (superclass.map Reference.id).toList { s with classKind := classKindOf superclass }
      (s.enterClass name superclass) := by
  cases superclass with
  | none =>
    exact ((Extends.declare { s with classKind := .base } name).trans (Extends.define _ name)).join
      ((Extends.push _).trans (Extends.mark _ "this" true)) (by simp) (by simp)
  | some superclass =>
    have declared := Extends.declareClass s name .subclass
    exact (declared.trans (Extends.enterSuperclass _ name superclass)).join
      ((Extends.push _).trans (Extends.mark _ "this" true)) (by simp) (by simp)

end Scope.State

namespace Stmt

/-- Only declarations declare something in the scope around them. -/
theorem declaredNames_eq_nil {rules : Rules} : ∀ (s : Stmt) {scopes : List Names},
    s.Obeys rules scopes → s.declared? = none → s.declaredNames = []
  | .expr _, _, _, _ | .print _, _, _, _ | .block _, _, _, _ | .return .., _, _, _ => rfl
  | .if _ yes none, _, obeys, _ => declaredNames_eq_nil yes obeys.2.2 obeys.2.1
  | .if _ yes (some no), _, obeys, _ =>
    List.append_eq_nil_iff.mpr ⟨declaredNames_eq_nil yes obeys.2.1.2 obeys.2.1.1,
      declaredNames_eq_nil no obeys.2.2.2 obeys.2.2.1⟩
  | .while _ body, _, obeys, _ => declaredNames_eq_nil body obeys.2.2 obeys.2.1

theorem declaredNames_eq_singleton {s : Stmt} {name : Ident} (declared : s.declared? = some name) :
    s.declaredNames = [name.text] := by
  cases s <;> cases declared <;> rfl

theorem scopesAfter_of_declared?_eq_none {s : Stmt} (none : s.declared? = none)
    (scopes : List Names) : s.scopesAfter scopes = scopes := by
  simp [scopesAfter, none]

mutual

/-- A statement adds what it declares to the innermost scope. -/
theorem scopes_resolve : ∀ (statement : Stmt) (s : State),
    (statement.resolve s).scopes = markAll s.scopes statement.declaredNames
  | .expr value, s | .print value, s => value.resolve_scopes s
  | .var name initial, s => by
    rw [Stmt.resolve, State.define_scopes, Expr.resolveOption_scopes, State.declare_scopes,
      Scope.mark_mark]
    rfl
  | .block body, s => by
    rw [Stmt.resolve, State.pop, scopes_resolveAll body, State.push, Scope.markAll_cons]
    rfl
  | .if condition yes none, s | .while condition yes, s => by
    rw [Stmt.resolve, scopes_resolve yes, condition.resolve_scopes, declaredNames]
  | .if condition yes (some no), s => by
    rw [Stmt.resolve, scopes_resolve no, scopes_resolve yes, condition.resolve_scopes,
      declaredNames]
    exact List.foldl_append.symm
  | .fun routine, s => by
    rw [Stmt.resolve, resolveRoutine_scopes, State.declare_define_scopes]
    rfl
  | .return keyword value, s => by
    rw [Stmt.resolve, Expr.resolveOption_scopes, State.useReturn_scopes]
    rfl
  | .class name superclass methods, s => by
    cases superclass <;> simp [Stmt.resolve, State.leaveClass, State.pop, resolveMethods_scopes,
      State.enterClass_scopes, Scope.classScopes, declaredNames, Scope.markAll]

theorem scopes_resolveAll : ∀ (body : List Stmt) (s : State),
    (Stmt.resolveAll body s).scopes = markAll s.scopes (body.flatMap declaredNames)
  | [], _ => rfl
  | statement :: rest, s => by
    rw [Stmt.resolveAll, scopes_resolveAll rest, scopes_resolve statement]
    exact List.foldl_append.symm

theorem resolveRoutine_scopes :
    ∀ (routine : Routine (List Stmt)) (kind : Scope.RoutineKind) (s : State),
    (Stmt.resolveRoutine routine kind s).scopes = s.scopes
  | ⟨_, params, body⟩, kind, s => by
    rw [Stmt.resolveRoutine, State.leaveRoutine, State.pop, scopes_resolveAll body,
      State.enterRoutine_scopes, Scope.markAll_cons]
    rfl

theorem resolveMethods_scopes : ∀ (methods : List (Routine (List Stmt))) (s : State),
    (Stmt.resolveMethods methods s).scopes = s.scopes
  | [], _ => rfl
  | method :: rest, s => by
    rw [Stmt.resolveMethods, resolveMethods_scopes rest, resolveRoutine_scopes method]

end

theorem resolve_scopes {rules : Rules} (statement : Stmt) (s : State)
    (obeys : statement.Obeys rules s.scopes) :
    (statement.resolve s).scopes = statement.scopesAfter s.scopes := by
  rw [scopes_resolve, scopesAfter]
  cases declared : statement.declared? with
  | none =>
    rw [statement.declaredNames_eq_nil obeys declared]
    rfl
  | some name =>
    rw [declaredNames_eq_singleton declared]
    rfl

mutual

theorem resolve_extends : ∀ (statement : Stmt) (s : State),
    Extends statement.ids s (statement.resolve s)
  | .expr value, s => value.resolve_extends s
  | .print value, s => value.resolve_extends s
  | .var name initial, s =>
    ((Extends.declare s name).trans (Expr.resolveOption_extends initial _)).join
      (Extends.define _ name) (by simp [ids]) (by simp)
  | .block body, s => by
    have inside := (Extends.push s).trans (resolveAll_extends body s.push)
    exact ⟨inside.routine, inside.classKind, inside.errors, inside.depths, inside.known⟩
  | .if condition yes none, s => (condition.resolve_extends s).trans (resolve_extends yes _)
  | .if condition yes (some no), s =>
    ((condition.resolve_extends s).trans (resolve_extends yes _)).trans (resolve_extends no _)
  | .while condition body, s => (condition.resolve_extends s).trans (resolve_extends body _)
  | .fun routine, s =>
    ((Extends.declare s routine.name).trans (Extends.define _ routine.name)).trans
      (resolveRoutine_extends routine _ _)
  | .return keyword value, s =>
    (Extends.useReturn s keyword value.isSome).trans (Expr.resolveOption_extends value _)
  | .class name superclass methods, s => by
    have inside := (Extends.enterClass s name superclass).trans (resolveMethods_extends methods _)
    cases superclass <;> exact ⟨inside.routine, rfl, inside.errors, inside.depths, inside.known⟩

theorem resolveAll_extends : ∀ (body : List Stmt) (s : State),
    Extends (idsAll body) s (Stmt.resolveAll body s)
  | [], s => Extends.refl _ s
  | statement :: rest, s => (resolve_extends statement s).trans (resolveAll_extends rest _)

theorem resolveRoutine_extends :
    ∀ (routine : Routine (List Stmt)) (kind : Scope.RoutineKind) (s : State),
      Extends (idsOfRoutine routine) s (Stmt.resolveRoutine routine kind s)
  | ⟨_, params, body⟩, kind, s => by
    have inside := (Extends.enterRoutine s kind params).trans (resolveAll_extends body _)
    exact ⟨rfl, inside.classKind, inside.errors, inside.depths, inside.known⟩

theorem resolveMethods_extends : ∀ (methods : List (Routine (List Stmt))) (s : State),
    Extends (idsOfMethods methods) s (Stmt.resolveMethods methods s)
  | [], s => Extends.refl _ s
  | method :: rest, s =>
    (resolveRoutine_extends method _ s).trans (resolveMethods_extends rest _)

end

end Stmt

/-! ## Whole programs -/

namespace Program

variable {program : Program}

theorem resolve_ok_iff {depths : Depths} : program.resolve = .ok depths ↔
    (Stmt.resolveAll program {}).errors = #[] ∧ (Stmt.resolveAll program {}).depths = depths := by
  unfold Program.resolve
  by_cases clean : (Stmt.resolveAll program {}).errors = #[] <;> simp [clean]

theorem resolve_error_iff {errors : List ScopeError} : program.resolve = .error errors ↔
    (Stmt.resolveAll program {}).errors ≠ #[] ∧
      (Stmt.resolveAll program {}).errors.toList = errors := by
  unfold Program.resolve
  by_cases clean : (Stmt.resolveAll program {}).errors = #[] <;> simp [clean]

end Program

end Lox
