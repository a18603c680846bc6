import Lox.Proofs.Scope.Extension
import Lox.Proofs.Syntax.Similar

set_option autoImplicit false

/-!
# Resolving similar programs

Two programs that are similar are resolved alike: the same depths for uses that stand for each
other, and the same faults but for the names in them. A use belongs to the innermost scope with its
name, so the names must correspond in such a way that no scope further in catches the other name.
-/

namespace Lox

open Correspondence (markAt)
open Scope (Names Rules State RoutineKind ClassKind mark locate?)

inductive ScopeError.Similar (c : Correspondence) : ScopeError → ScopeError → Prop where
  | same (error : ScopeError) : Similar c error error
  | name {mark : Bool} {a a' : String} {cause : ScopeError.Cause} {span : Span} :
    c.name mark a a' → Similar c ⟨cause, a, span⟩ ⟨cause, a', span⟩

namespace Scope

structure Names.Similar (c : Correspondence) (mark : Bool) (names names' : Names) : Prop where
  find? : ∀ {a a'}, c.name mark a a' → names'.find? a' = names.find? a
  image : ∀ {a' complete}, names'.find? a' = some complete → ∃ a, c.name mark a a'

inductive ScopesSimilar (c : Correspondence) : List Bool → List Names → List Names → Prop where
  | nil : ScopesSimilar c [] [] []
  | cons {mark : Bool} {marks : List Bool} {names names' : Names} {scopes scopes' : List Names} :
    Names.Similar c mark names names' → ScopesSimilar c marks scopes scopes' →
      ScopesSimilar c (mark :: marks) (names :: scopes) (names' :: scopes')

variable {c : Correspondence} {marks : List Bool} {scopes scopes' : List Names} {a a' : String}

theorem Names.similar_empty (c : Correspondence) (mark : Bool) : Names.Similar c mark ∅ ∅ :=
  ⟨fun _ => rfl, fun found => by cases found⟩

theorem Names.Similar.insert (lawful : c.Lawful) {mark : Bool} {names names' : Names}
    (similar : Names.Similar c mark names names') (name : c.name mark a a') (complete : Bool) :
    Names.Similar c mark (names.insert a complete) (names'.insert a' complete) := by
  refine ⟨fun {b b'} other => ?_, fun {b' known} found => ?_⟩
  · simp only [Bindings.find?_insert, lawful.name_eq_iff other name, similar.find? other]
  · rw [Bindings.find?_insert] at found
    split at found
    · rename_i same
      exact ⟨a, same ▸ name⟩
    · exact similar.image found

theorem ScopesSimilar.mark (lawful : c.Lawful) (similar : ScopesSimilar c marks scopes scopes')
    (name : c.name (marks.headD false) a a') (complete : Bool) :
    ScopesSimilar c marks (mark scopes a complete) (Scope.mark scopes' a' complete) := by
  cases similar with
  | nil => exact .nil
  | cons innermost outer => exact .cons (innermost.insert lawful name complete) outer

/-- Names that stand for each other in the scope where one of them is located are located alike. -/
theorem ScopesSimilar.locate? (lawful : c.Lawful) (similar : ScopesSimilar c marks scopes scopes')
    (name : c.name (markAt marks ((locate? scopes a).map Prod.fst)) a a') :
    Scope.locate? scopes' a' = Scope.locate? scopes a := by
  induction similar with
  | nil => rfl
  | @cons mark marks names names' scopes scopes' innermost _ inductionHypothesis =>
    cases found : names.find? a with
    | some complete =>
      rw [locate?_cons_of_some found] at name ⊢
      exact locate?_cons_of_some ((innermost.find? name).trans found)
    | none =>
      -- Whatever stands for `a'` in this scope is `a`, which is not declared in it.
      have missing : names'.find? a' = none := by
        by_contra present
        obtain ⟨complete, declared⟩ := Option.ne_none_iff_exists'.mp present
        obtain ⟨b, other⟩ := innermost.image declared
        rw [lawful.name_back other name] at other
        rw [innermost.find? other, found] at declared
        cases declared
      rw [locate?_cons_of_none found] at name ⊢
      rw [locate?_cons_of_none missing, inductionHypothesis]
      cases outside : Scope.locate? scopes a with
      | none | some location =>
        rw [outside] at name
        exact name

/-! ## Similar states -/

structure State.Similar (c : Correspondence) (marks : List Bool) (s s' : State) : Prop where
  scopes : ScopesSimilar c marks s.scopes s'.scopes
  routine : s'.routine = s.routine
  classKind : s'.classKind = s.classKind
  depths : ∀ {i i' : ExprId}, c.id i i' → s'.depths[i']? = s.depths[i]?
  errors : List.Forall₂ (ScopeError.Similar c) s.errors.toList s'.errors.toList

namespace State.Similar

variable {s s' : State}

theorem report (similar : s.Similar c marks s') {error error' : ScopeError}
    (faults : error.Similar c error') :
    (s.report error.cause error.lexeme error.span).Similar c marks
      (s'.report error'.cause error'.lexeme error'.span) :=
  { similar with
    errors := by
      simp only [State.report, Array.toList_push]
      exact List.rel_append similar.errors (.cons faults .nil) }

theorem errors_eq_empty_iff (similar : s.Similar c marks s') :
    s'.errors = #[] ↔ s.errors = #[] := by
  have same : s.errors.size = s'.errors.size := by simpa using similar.errors.length_eq
  rw [← Array.size_eq_zero_iff, ← Array.size_eq_zero_iff, same]

theorem withClassKind (similar : s.Similar c marks s') (kind : ClassKind) :
    State.Similar c marks { s with classKind := kind } { s' with classKind := kind } :=
  { similar with classKind := rfl }

theorem push (similar : s.Similar c marks s') (mark : Bool) :
    s.push.Similar c (mark :: marks) s'.push :=
  { similar with scopes := .cons (Names.similar_empty c mark) similar.scopes }

theorem pop {mark : Bool} (similar : s.Similar c (mark :: marks) s') :
    s.pop.Similar c marks s'.pop := by
  refine { similar with scopes := ?_ }
  have scopes := similar.scopes
  simp only [State.pop]
  generalize s.scopes = before, s'.scopes = before' at scopes
  cases scopes with
  | cons _ outer => exact outer

theorem mark (lawful : c.Lawful) (similar : s.Similar c marks s')
    (name : c.name (marks.headD false) a a') (complete : Bool) :
    (s.mark a complete).Similar c marks (s'.mark a' complete) := by
  refine ⟨?_, ?_, ?_, ?_, ?_⟩
  · rw [mark_scopes, mark_scopes]
    exact similar.scopes.mark lawful name complete
  · simpa using similar.routine
  · simpa using similar.classKind
  · intro i i' id
    simpa using similar.depths id
  · simpa using similar.errors

theorem declares (similar : s.Similar c marks s') (name : c.name (marks.headD false) a a') :
    s'.declares a' = s.declares a := by
  have scopes := similar.scopes
  unfold State.declares
  generalize s.scopes = before, s'.scopes = before' at scopes
  cases scopes with
  | nil => rfl
  | cons innermost _ => simp only [Bindings.contains, innermost.find? name]

theorem declare (lawful : c.Lawful) (similar : s.Similar c marks s') {name name' : Ident}
    (names : name.Similar c (marks.headD false) name') :
    (s.declare name).Similar c marks (s'.declare name') := by
  unfold State.declare
  refine mark lawful ?_ names.text false
  rw [similar.declares names.text, names.span]
  split
  · exact similar.report (.name names.text)
  · exact similar

theorem define (lawful : c.Lawful) (similar : s.Similar c marks s') {name name' : Ident}
    (names : name.Similar c (marks.headD false) name') :
    (s.define name).Similar c marks (s'.define name') :=
  similar.mark lawful names.text true

theorem resolve (lawful : c.Lawful) (similar : s.Similar c marks s') {i i' : ExprId}
    (id : c.id i i') (located : locate? s'.scopes a' = locate? s.scopes a) :
    (s.resolve i a).Similar c marks (s'.resolve i' a') := by
  unfold State.resolve
  rw [depth?_eq, depth?_eq, located]
  cases (locate? s.scopes a).map Prod.fst with
  | none => exact similar
  | some depth =>
    refine { similar with depths := fun {j j'} other => ?_ }
    simp only [Std.ExtTreeMap.getElem?_insert, compare_eq_iff_eq, lawful.id_eq_iff id other,
      similar.depths other]

theorem useName (lawful : c.Lawful) (similar : s.Similar c marks s') {r r' : Reference}
    (references : r.Similar c marks r')
    (located : locate? s'.scopes r'.name.text = locate? s.scopes r.name.text) :
    (s.useName r).Similar c marks (s'.useName r') := by
  have incomplete : s'.isIncomplete r'.name.text = s.isIncomplete r.name.text := by
    rw [Bool.eq_iff_iff, isIncomplete_iff, isIncomplete_iff, located]
  unfold State.useName
  rw [incomplete, references.name.span]
  by_cases early : s.isIncomplete r.name.text = true
  · simp only [early, if_true]
    exact (similar.report (.name references.name.text)).resolve lawful references.id located
  · simp only [early]
    exact similar.resolve lawful references.id located

/-- A reserved name is located alike in all similar scopes. -/
theorem locate?_reserved (lawful : c.Lawful) (similar : s.Similar c marks s') {name : String}
    (reserved : IsReserved name) : locate? s'.scopes name = locate? s.scopes name :=
  similar.scopes.locate? lawful (lawful.reserved _ reserved)

theorem useThis (lawful : c.Lawful) (similar : s.Similar c marks s') {i i' : ExprId}
    (id : c.id i i') (span : Span) : (s.useThis i span).Similar c marks (s'.useThis i' span) := by
  unfold State.useThis
  rw [similar.classKind]
  cases s.classKind with
  | none => exact similar.report (.same ⟨_, _, _⟩)
  | base | subclass => exact similar.resolve lawful id (similar.locate?_reserved lawful (.inl rfl))

theorem useSuper (lawful : c.Lawful) (similar : s.Similar c marks s') {i i' : ExprId}
    (id : c.id i i') (span : Span) : (s.useSuper i span).Similar c marks (s'.useSuper i' span) := by
  have located := similar.locate?_reserved lawful (.inr rfl)
  unfold State.useSuper
  rw [similar.classKind]
  cases s.classKind with
  | none | base => exact (similar.report (.same ⟨_, _, _⟩)).resolve lawful id located
  | subclass => exact similar.resolve lawful id located

theorem useReturn (similar : s.Similar c marks s') (keyword : Span) (hasValue : Bool) :
    (s.useReturn keyword hasValue).Similar c marks (s'.useReturn keyword hasValue) := by
  rw [useReturn_eq, useReturn_eq, similar.routine]
  split
  · exact similar.report (.same ⟨_, _, _⟩)
  · exact similar.report (.same ⟨_, _, _⟩)
  · exact similar

theorem declareAll (lawful : c.Lawful) {params params' : List Ident}
    (names : List.Forall₂ (Ident.Similar c (marks.headD false)) params params')
    (similar : s.Similar c marks s') :
    (params.foldl (fun s param => (s.declare param).define param) s).Similar c marks
      (params'.foldl (fun s param => (s.declare param).define param) s') := by
  induction names generalizing s s' with
  | nil => exact similar
  | cons first _ inductionHypothesis =>
    exact inductionHypothesis ((similar.declare lawful first).define lawful first)

theorem enterRoutine (lawful : c.Lawful) (similar : s.Similar c marks s') (kind : RoutineKind)
    {mark : Bool} {params params' : List Ident}
    (names : List.Forall₂ (Ident.Similar c mark) params params') :
    (s.enterRoutine kind params).Similar c (mark :: marks) (s'.enterRoutine kind params') := by
  have inside : State.Similar c marks { s with routine := kind } { s' with routine := kind } :=
    { similar with routine := rfl }
  exact declareAll lawful names (inside.push mark)

theorem leaveRoutine {mark : Bool} (similar : s.Similar c (mark :: marks) s')
    (outer : RoutineKind) :
    (s.leaveRoutine outer).Similar c marks (s'.leaveRoutine outer) :=
  { similar.pop with routine := rfl }

/-- A scope with one reserved name, which is not marked. -/
theorem pushReserved (lawful : c.Lawful) (similar : s.Similar c marks s') {name : String}
    (reserved : IsReserved name) :
    (s.push.mark name true).Similar c (false :: marks) (s'.push.mark name true) :=
  (similar.push false).mark lawful (lawful.reserved _ reserved) true

theorem enterSuperclass (lawful : c.Lawful) (similar : s.Similar c marks s') {name : Ident}
    {superclass superclass' : Reference} (references : superclass.Similar c marks superclass')
    (itself : superclass.name.text = name.text ↔ superclass'.name.text = name.text)
    (located : locate? s'.scopes superclass'.name.text = locate? s.scopes superclass.name.text) :
    (s.enterSuperclass name superclass).Similar c (false :: marks)
      (s'.enterSuperclass name superclass') := by
  have reported : State.Similar c marks
      (if superclass.name.text = name.text then
        s.report .selfInheritance superclass.name.text superclass.name.span else s)
      (if superclass'.name.text = name.text then
        s'.report .selfInheritance superclass'.name.text superclass'.name.span else s') := by
    rw [references.name.span]
    simp only [itself]
    split
    · exact similar.report (.name references.name.text)
    · exact similar
  refine pushReserved lawful (useName lawful (reported.withClassKind _) references ?_) (.inr rfl)
  rw [apply_ite State.scopes, apply_ite State.scopes, report_scopes, report_scopes,
    ite_self, ite_self]
  exact located

/-- A name that is declared anew catches two names or none of them. -/
theorem locate?_declared {name : String}
    (scopes : ScopesSimilar c marks s.scopes s'.scopes) (itself : a = name ↔ a' = name)
    (located : locate? s'.scopes a' = locate? s.scopes a) (complete : Bool) :
    locate? (Scope.mark s'.scopes name complete) a' =
      locate? (Scope.mark s.scopes name complete) a := by
  by_cases same : a = name
  · rw [same, itself.mp same]
    generalize s.scopes = before, s'.scopes = before' at scopes
    cases scopes with
    | nil => rfl
    | cons => rw [locate?_mark_self, locate?_mark_self]
  · rw [locate?_mark_of_ne complete same, locate?_mark_of_ne complete (mt itself.mpr same)]
    exact located

theorem declareClass (lawful : c.Lawful) (similar : s.Similar c marks s') {name : Ident}
    (text : c.name (marks.headD false) name.text name.text) :
    (({ s with classKind := .base }.declare name).define name).Similar c marks
      (({ s' with classKind := .base }.declare name).define name) :=
  ((similar.withClassKind _).declare lawful ⟨text, rfl⟩).define lawful ⟨text, rfl⟩

theorem enterClass (lawful : c.Lawful) (similar : s.Similar c marks s') {name : Ident}
    (text : c.name (marks.headD false) name.text name.text) :
    (s.enterClass name none).Similar c (false :: marks) (s'.enterClass name none) :=
  (similar.declareClass lawful text).pushReserved lawful (.inl rfl)

theorem enterSubclass (lawful : c.Lawful) (similar : s.Similar c marks s') {name : Ident}
    {superclass superclass' : Reference} (text : c.name (marks.headD false) name.text name.text)
    (references : superclass.Similar c marks superclass')
    (itself : superclass.name.text = name.text ↔ superclass'.name.text = name.text)
    (located : locate? s'.scopes superclass'.name.text = locate? s.scopes superclass.name.text) :
    (s.enterClass name (some superclass)).Similar c (false :: false :: marks)
      (s'.enterClass name (some superclass')) := by
  refine pushReserved lawful (enterSuperclass lawful (similar.declareClass lawful text) references
    itself ?_) (.inl rfl)
  rw [declare_define_scopes, declare_define_scopes]
  exact locate?_declared similar.scopes itself located true

theorem leaveClass {mark : Bool} (similar : s.Similar c (mark :: marks) s') (outer : ClassKind) :
    (s.leaveClass none outer).Similar c marks (s'.leaveClass none outer) :=
  similar.pop.withClassKind outer

theorem leaveSubclass {mark mark' : Bool} (similar : s.Similar c (mark :: mark' :: marks) s')
    (superclass superclass' : Reference) (outer : ClassKind) :
    (s.leaveClass (some superclass) outer).Similar c marks
      (s'.leaveClass (some superclass') outer) :=
  similar.pop.pop.withClassKind outer

end State.Similar

end Scope

/-! ## Similar programs -/

/-- Where the rules hold, the depths that a correspondence goes by are those of the scopes. -/
def Correspondence.Follows (c : Correspondence) (rules : Rules) : Prop :=
  ∀ {scopes : List Names} {u : Use}, rules.use scopes u →
    ∀ {marks : List Bool} {a a' : String}, c.name (markAt marks (c.depth u.id)) a a' →
      c.name (markAt marks ((locate? scopes u.name).map Prod.fst)) a a'

section Programs

variable {c : Correspondence} {rules : Rules}

mutual

theorem Expr.resolve_similar (lawful : c.Lawful) (follows : c.Follows rules) {marks : List Bool} :
    ∀ (e : Expr) {e' : Expr} {s s' : State}, e.Obeys rules s.scopes → e.Similar c marks e' →
      s.Similar c marks s' → (e.resolve s).Similar c marks (e'.resolve s')
  | .literal .., _, _, _, _, .literal, states => states
  | .ref target, _, _, _, obeys, .ref references, states =>
    states.useName lawful references
      (states.scopes.locate? lawful (follows obeys references.name.text))
  | .assign id name value, _, s, s', obeys, .assign references values, states => by
    have after := value.resolve_similar lawful follows obeys.1 values states
    have around := value.resolve_scopes s
    have text := follows obeys.2 references.name.text
    rw [← around] at text
    exact after.resolve lawful references.id (after.scopes.locate? lawful text)
  | .binary _ _ _ left right, _, s, _, obeys, .binary lefts rights, states
  | .logical _ _ _ left right, _, s, _, obeys, .logical lefts rights, states => by
    have first := left.resolve_similar lawful follows obeys.1 lefts states
    have second :=
      right.resolve_similar lawful follows
        (by rw [left.resolve_scopes s]; exact obeys.2) rights first
    exact second
  | .unary _ _ _ operand, _, _, _, obeys, .unary operands, states => by
    have inside := operand.resolve_similar lawful follows obeys operands states
    exact inside
  | .call _ _ callee args, _, s, _, obeys, .call callees values, states => by
    have first := callee.resolve_similar lawful follows obeys.1 callees states
    exact Expr.resolveAll_similar lawful follows args
      (by rw [callee.resolve_scopes s]; exact obeys.2) values first
  | .group _ _ inner, _, _, _, obeys, .group inners, states => by
    have inside := inner.resolve_similar lawful follows obeys inners states
    exact inside
  | .get _ object _, _, _, _, obeys, .get objects, states => by
    have inside := object.resolve_similar lawful follows obeys objects states
    exact inside
  | .set _ object _ value, _, s, _, obeys, .set objects values, states => by
    have first := value.resolve_similar lawful follows obeys.2 values states
    have second :=
      object.resolve_similar lawful follows
        (by rw [value.resolve_scopes s]; exact obeys.1) objects first
    exact second
  | .this _ span, _, _, _, _, .this id, states => states.useThis lawful id span
  | .super _ span _, _, _, _, _, .super id, states => states.useSuper lawful id span

theorem Expr.resolveAll_similar (lawful : c.Lawful) (follows : c.Follows rules)
    {marks : List Bool} :
    ∀ (es : List Expr) {es' : List Expr} {s s' : State}, Expr.AllObey rules s.scopes es →
      List.Forall₂ (Expr.Similar c marks) es es' → s.Similar c marks s' →
      (Expr.resolveAll es s).Similar c marks (Expr.resolveAll es' s')
  | [], _, _, _, _, .nil, states => states
  | e :: rest, _, s, _, obeys, .cons first others, states => by
    have after := e.resolve_similar lawful follows obeys.1 first states
    have done :=
      Expr.resolveAll_similar lawful follows rest
        (by rw [e.resolve_scopes s]; exact obeys.2) others after
    exact done

end

theorem Expr.resolveOption_similar (lawful : c.Lawful) (follows : c.Follows rules)
    {marks : List Bool}
    {e e' : Option Expr} {s s' : State} (obeys : Expr.OptionObeys rules s.scopes e)
    (similar : Option.Rel (Expr.Similar c marks) e e') (states : s.Similar c marks s') :
    (Expr.resolveOption e s).Similar c marks (Expr.resolveOption e' s') := by
  cases similar with
  | none => exact states
  | some similar => exact Expr.resolve_similar lawful follows _ obeys similar states

namespace Stmt

mutual

theorem resolve_similar (lawful : c.Lawful) (follows : c.Follows rules) :
    ∀ (statement : Stmt) {statement' : Stmt} {marks : List Bool} {s s' : State},
      statement.Obeys rules s.scopes → statement.Similar c marks statement' → s.Similar c marks s' →
      (statement.resolve s).Similar c marks (statement'.resolve s')
  | .expr value, _, _, _, _, obeys, .expr values, states
  | .print value, _, _, _, _, obeys, .print values, states =>
    value.resolve_similar lawful follows obeys values states
  | .var name initial, _, _, s, _, obeys, .var names initials, states => by
    refine (Expr.resolveOption_similar lawful follows ?_ initials
      (states.declare lawful names)).define lawful names
    rw [State.declare_scopes]
    exact obeys.2
  | .block body, _, _, s, _, obeys, .block mark bodies, states => by
    have inside :=
      resolveAll_similar lawful follows body (s := s.push) obeys bodies (states.push mark)
    exact inside.pop
  | .if condition yes none, _, _, s, _, obeys, .if conditions yeses, states => by
    have first := condition.resolve_similar lawful follows obeys.1 conditions states
    have second := resolve_similar lawful follows yes
      (by rw [condition.resolve_scopes s]; exact obeys.2.2) yeses first
    exact second
  | .if condition yes (some no), _, _, s, _, obeys, .ifElse conditions yeses nos, states => by
    have around := condition.resolve_scopes s
    have first := condition.resolve_similar lawful follows obeys.1 conditions states
    have obeysYes : yes.Obeys rules (condition.resolve s).scopes := by
      rw [around]; exact obeys.2.1.2
    have second := resolve_similar lawful follows yes obeysYes yeses first
    have aroundNo : (yes.resolve (condition.resolve s)).scopes = s.scopes := by
      rw [resolve_scopes yes _ obeysYes, around]
      exact scopesAfter_of_declared?_eq_none obeys.2.1.1 _
    have third := resolve_similar lawful follows no (by rw [aroundNo]; exact obeys.2.2.2) nos second
    exact third
  | .while condition body, _, _, s, _, obeys, .while conditions bodies, states => by
    have first := condition.resolve_similar lawful follows obeys.1 conditions states
    have second := resolve_similar lawful follows body
      (by rw [condition.resolve_scopes s]; exact obeys.2.2) bodies first
    exact second
  | .fun routine, _, _, s, _, obeys, .fun text routines, states => by
    have names := Stmt.RoutineSimilar.name routines
    have declared := (states.declare lawful ⟨text, rfl⟩).define lawful ⟨text, rfl⟩
    rw [Stmt.resolve, Stmt.resolve, names]
    refine resolveRoutine_similar lawful follows routine .function ?_ routines declared
    rw [s.declare_define_scopes routine.name]
    exact obeys.2
  | .return keyword value, _, _, s, _, obeys, .return values, states => by
    have same : value.isSome = _ := (isSome_eq_of_optionRel values).symm
    rw [Stmt.resolve, Stmt.resolve, ← same]
    refine Expr.resolveOption_similar lawful follows ?_ values (states.useReturn keyword _)
    rw [State.useReturn_scopes]
    exact obeys
  | .class name none methods, _, _, s, _, obeys, .class text similar, states => by
    have inside := resolveMethods_similar lawful follows methods
      (by rw [s.enterClass_scopes]; exact obeys.2.2) similar (states.enterClass lawful text)
    rw [Stmt.resolve, Stmt.resolve, states.classKind]
    exact inside.leaveClass s.classKind
  | .class name (some superclass) methods, _, _, s, _, obeys,
      .subclass text references itself similar, states => by
    have located := states.scopes.locate? lawful (follows (obeys.2.1 superclass rfl).1
      references.name.text)
    have inside := resolveMethods_similar lawful follows methods
      (by rw [s.enterClass_scopes]; exact obeys.2.2) similar
      (states.enterSubclass lawful text references itself located)
    rw [Stmt.resolve, Stmt.resolve, states.classKind]
    exact inside.leaveSubclass superclass _ s.classKind

theorem resolveAll_similar (lawful : c.Lawful) (follows : c.Follows rules) :
    ∀ (body : List Stmt) {body' : List Stmt} {marks : List Bool} {s s' : State},
      AllObey rules s.scopes body → AllSimilar c marks body body' → s.Similar c marks s' →
      (resolveAll body s).Similar c marks (resolveAll body' s')
  | [], _, _, _, _, _, .nil, states => states
  | statement :: rest, _, _, s, _, obeys, .cons first others, states => by
    have after := resolve_similar lawful follows statement obeys.1 first states
    have done := resolveAll_similar lawful follows rest
      (by rw [resolve_scopes statement s obeys.1]; exact obeys.2) others after
    exact done

theorem resolveRoutine_similar (lawful : c.Lawful) (follows : c.Follows rules) :
    ∀ (routine : Routine (List Stmt)) {routine' : Routine (List Stmt)} {marks : List Bool}
      (kind : RoutineKind) {s s' : State}, RoutineObeys rules s.scopes routine →
      RoutineSimilar c marks routine routine' → s.Similar c marks s' →
      (resolveRoutine routine kind s).Similar c marks (resolveRoutine routine' kind s')
  | ⟨_, params, body⟩, _, _, kind, s, _, obeys, .mk mark names bodies, states => by
    have inside := resolveAll_similar lawful follows body
      (by rw [s.enterRoutine_scopes]; exact obeys.2) bodies (states.enterRoutine lawful kind names)
    rw [resolveRoutine, resolveRoutine, states.routine]
    exact inside.leaveRoutine s.routine

theorem resolveMethods_similar (lawful : c.Lawful) (follows : c.Follows rules) :
    ∀ (methods : List (Routine (List Stmt))) {methods' : List (Routine (List Stmt))}
      {marks : List Bool} {s s' : State}, MethodsObey rules s.scopes methods →
      MethodsSimilar c marks methods methods' → s.Similar c marks s' →
      (resolveMethods methods s).Similar c marks (resolveMethods methods' s')
  | [], _, _, _, _, _, .nil, states => states
  | method :: rest, _, _, s, _, obeys, .cons first others, states => by
    have after :=
      resolveRoutine_similar lawful follows method (Scope.methodKind method.name) obeys.1
      first states
    have done := resolveMethods_similar lawful follows rest
      (by rw [resolveRoutine_scopes method _ s]; exact obeys.2) others after
    rw [resolveMethods, resolveMethods, Stmt.RoutineSimilar.name first]
    exact done

end

end Stmt

namespace Program

variable {program program' : Program}

theorem resolved_similar (lawful : c.Lawful) (follows : c.Follows rules)
    (obeys : program.Obeys rules) (similar : Stmt.AllSimilar c [] program program') :
    (Stmt.resolveAll program {}).Similar c [] (Stmt.resolveAll program' {}) :=
  Stmt.resolveAll_similar lawful follows program obeys similar
    ⟨.nil, rfl, rfl, fun _ => rfl, .nil⟩

theorem resolve_ok_of_similar (lawful : c.Lawful) (follows : c.Follows rules)
    (obeys : program.Obeys rules) (similar : Stmt.AllSimilar c [] program program')
    {depths : Depths} (accepted : program.resolve = .ok depths) :
    ∃ depths', program'.resolve = .ok depths' ∧ ∀ {i i'}, c.id i i' →
      depths'[i']? = depths[i]? := by
  have states := resolved_similar lawful follows obeys similar
  obtain ⟨clean, rfl⟩ := resolve_ok_iff.mp accepted
  exact ⟨_, resolve_ok_iff.mpr ⟨states.errors_eq_empty_iff.mpr clean, rfl⟩, states.depths⟩

theorem resolve_error_of_similar (lawful : c.Lawful) (follows : c.Follows rules)
    (obeys : program.Obeys rules) (similar : Stmt.AllSimilar c [] program program')
    {errors : List ScopeError} (refused : program.resolve = .error errors) :
    ∃ errors', program'.resolve = .error errors' ∧
      List.Forall₂ (ScopeError.Similar c) errors errors' := by
  have states := resolved_similar lawful follows obeys similar
  obtain ⟨faulty, rfl⟩ := resolve_error_iff.mp refused
  exact ⟨_, resolve_error_iff.mpr ⟨mt states.errors_eq_empty_iff.mp faulty, rfl⟩, states.errors⟩

end Program

end Programs

end Lox
