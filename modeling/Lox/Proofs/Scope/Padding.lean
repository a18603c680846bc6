import Lox.Proofs.Scope.Resolution
import Lox.Proofs.Syntax.Padding

set_option autoImplicit false

/-!
# Resolving padded programs

An extra scope has no names, so a name is found in the scope in which it was found without it, only
further out. The faults are the same: whether a name is declared twice, or read before its
declaration is complete, is seen in the innermost scope, and no declaration goes on where an extra
scope is entered.
-/

namespace Lox

open Scope (Names Rules State RoutineKind ClassKind Resolution Settled mark locate?)

namespace Scope

/-! ## Scopes -/

/-- The scopes around a point, and those around it in the longer program. -/
inductive Pads : Layout → List Names → List Names → Prop where
  | nil : Pads [] [] []
  | own {layout : Layout} {scopes scopes' : List Names} (names : Names) :
    Pads layout scopes scopes' → Pads (false :: layout) (names :: scopes) (names :: scopes')
  | extra {layout : Layout} {scopes scopes' : List Names} :
    Pads layout scopes scopes' → Pads (true :: layout) scopes (∅ :: scopes')

namespace Pads

variable {layout : Layout} {scopes scopes' : List Names} {name : String}

theorem mark (pads : Pads layout scopes scopes') (regular : layout.Regular) (complete : Bool) :
    Pads layout (mark scopes name complete) (Scope.mark scopes' name complete) := by
  cases pads with
  | nil => exact .nil
  | own names outer => exact .own _ outer
  | extra => exact absurd regular (Layout.not_regular _)

theorem scopesAfter (pads : Pads layout scopes scopes') (regular : layout.Regular) (s : Stmt) :
    Pads layout (s.scopesAfter scopes) (s.scopesAfter scopes') := by
  unfold Stmt.scopesAfter
  cases s.declared? with
  | none => exact pads
  | some declared => exact pads.mark regular true

/-- A name is found where it was, with the extra scopes counted. -/
theorem locate? (pads : Pads layout scopes scopes') (name : String) :
    locate? scopes' name =
      (Scope.locate? scopes name).map fun found => (layout.shift found.1, found.2) := by
  induction pads with
  | nil => rfl
  | own names _ inductionHypothesis =>
    cases here : names.find? name with
    | some complete => simp [locate?_cons_of_some here, Layout.shift]
    | none =>
      rw [locate?_cons_of_none here, locate?_cons_of_none here, inductionHypothesis]
      cases Scope.locate? _ name <;> rfl
  | extra _ inductionHypothesis =>
    rw [locate?_cons_of_none rfl, inductionHypothesis]
    cases Scope.locate? _ name <;> rfl

end Pads

/-- The depths of a use on record for both programs: the second one is that of the scope behind the
first one. The scopes of `this` and `super` lie next to each other. -/
structure Shifts (depths depths' : Depths) (layout : Layout) (u : Use) : Prop where
  depth : depths'[u.id]? = depths[u.id]?.map layout.shift
  adjacent : u.kind = .super →
    ∃ depth, depths[u.id]? = some (depth + 1) ∧ layout.shift (depth + 1) = layout.shift depth + 1

theorem Pads.shifts {r r' : Resolution} {layout : Layout} {scopes scopes' : List Names} {u : Use}
    (pads : Pads layout scopes scopes') (agrees : r.Agrees scopes u)
    (agrees' : r'.Agrees scopes' u) :
    Shifts r.table r'.table layout u := by
  have located := pads.locate?
  refine ⟨?_, fun kind => ?_⟩
  · rw [agrees.depth, agrees'.depth, located]
    cases Scope.locate? scopes u.name <;> rfl
  · obtain ⟨_, id, name⟩ := u
    cases kind
    obtain ⟨depth, super, this⟩ := agrees.permitted
    obtain ⟨depth', super', this'⟩ := agrees'.permitted
    refine ⟨depth, by rw [agrees.depth, super]; rfl, ?_⟩
    rw [located, super] at super'
    rw [located, this] at this'
    simp only [Option.map_some, Option.some.injEq, Prod.mk.injEq, and_true] at super' this'
    rw [super', this']

end Scope

/-! ## Uses in padded programs -/

namespace Stmt

open Scope (Pads Shifts)

section Shifted

variable {holds : Layout → Use → Prop} {r r' : Resolution}

theorem obeys_shifts {layout : Layout} {scopes scopes' : List Names} {e : Expr}
    (pads : Pads layout scopes scopes') (first : e.Obeys r.rules scopes)
    (second : e.Obeys r'.rules scopes') :
    e.Obeys (.ofUses (Shifts r.table r'.table layout)) [] := by
  refine first.combine ?_ second
  exact fun _ => pads.shifts

theorem optionObeys_shifts {layout : Layout} {scopes scopes' : List Names} {e : Option Expr}
    (pads : Pads layout scopes scopes') (first : Expr.OptionObeys r.rules scopes e)
    (second : Expr.OptionObeys r'.rules scopes' e) :
    Expr.OptionObeys (.ofUses (Shifts r.table r'.table layout)) [] e := by
  refine first.combine ?_ second
  exact fun _ => pads.shifts

mutual

/-- The uses in two programs that were accepted, one of them padded, have the depths on record that
go with the scopes around them. -/
theorem Shaped.shifts : ∀ {layout : Layout} {s s' : Stmt}, Shaped holds layout s s' →
    ∀ {scopes scopes' : List Names}, Pads layout scopes scopes' → s.Obeys r.rules scopes →
      s'.Obeys r'.rules scopes' → Shaped (Shifts r.table r'.table) layout s s'
  | _, _, _, .expr _, _, _, pads, first, second => .expr (obeys_shifts pads first second)
  | _, _, _, .print _, _, _, pads, first, second => .print (obeys_shifts pads first second)
  | _, _, _, .var regular initial, _, _, pads, first, second => by
    refine .var regular (first.2.combine ?_ second.2)
    exact fun _ => (pads.mark regular false).shifts
  | _, _, _, .block body, _, _, pads, first, second =>
    .block (AllPadded.shifts body (.own _ pads) (Layout.regular_cons _) first second)
  | _, _, _, .if _ yes, _, _, pads, first, second =>
    .if (obeys_shifts pads first.1 second.1) (Padded.shifts yes pads first.2.2 second.2.2)
  | _, _, _, .ifElse _ yes no, _, _, pads, first, second =>
    .ifElse (obeys_shifts pads first.1 second.1) (Padded.shifts yes pads first.2.1.2 second.2.1.2)
      (Padded.shifts no pads first.2.2.2 second.2.2.2)
  | _, _, _, .while _ body, _, _, pads, first, second =>
    .while (obeys_shifts pads first.1 second.1) (Padded.shifts body pads first.2.2 second.2.2)
  | _, _, _, .fun regular routine, _, _, pads, first, second => by
    rw [Stmt.Obeys, routine.name] at second
    exact .fun regular (RoutinePadded.shifts routine (pads.mark regular true) first.2 second.2)
  | _, _, _, .return _, _, _, pads, first, second => .return (optionObeys_shifts pads first second)
  | _, _, _, .class regular methods, _, _, pads, first, second =>
    .class regular
      (MethodsPadded.shifts methods (.own _ (pads.mark regular true)) first.2.2 second.2.2)
  | _, _, _, .subclass regular _ methods, _, _, pads, first, second =>
    .subclass regular (pads.shifts (first.2.1 _ rfl).1 (second.2.1 _ rfl).1)
      (MethodsPadded.shifts methods (.own _ (.own _ (pads.mark regular true))) first.2.2 second.2.2)

theorem Padded.shifts : ∀ {layout : Layout} {s s' : Stmt}, Padded holds layout s s' →
    ∀ {scopes scopes' : List Names}, Pads layout scopes scopes' → s.Obeys r.rules scopes →
      s'.Obeys r'.rules scopes' → Padded (Shifts r.table r'.table) layout s s'
  | _, _, _, .shaped shaped, _, _, pads, first, second =>
    .shaped (Shaped.shifts shaped pads first second)
  | _, _, _, .wrapped shaped, _, _, pads, first, second =>
    .wrapped (Shaped.shifts shaped (.extra pads) first second.1)

theorem AllPadded.shifts : ∀ {layout : Layout} {body body' : List Stmt},
    AllPadded holds layout body body' →
    ∀ {scopes scopes' : List Names}, Pads layout scopes scopes' → layout.Regular →
      AllObey r.rules scopes body → AllObey r'.rules scopes' body' →
      AllPadded (Shifts r.table r'.table) layout body body'
  | _, _, _, .nil, _, _, _, _, _, _ => .nil
  | _, s :: _, _, .cons padded others, _, _, pads, regular, first, second => by
    have after := second.2
    rw [padded.scopesAfter] at after
    exact .cons (Padded.shifts padded pads first.1 second.1)
      (AllPadded.shifts others (pads.scopesAfter regular s) regular first.2 after)

theorem RoutinePadded.shifts : ∀ {layout : Layout} {routine routine' : Routine (List Stmt)},
    RoutinePadded holds layout routine routine' →
    ∀ {scopes scopes' : List Names}, Pads layout scopes scopes' →
      RoutineObeys r.rules scopes routine →
      RoutineObeys r'.rules scopes' routine' →
      RoutinePadded (Shifts r.table r'.table) layout routine routine'
  | _, _, _, .mk body, _, _, pads, first, second =>
    .mk (AllPadded.shifts body (.own _ pads) (Layout.regular_cons _) first.2 second.2)

theorem MethodsPadded.shifts : ∀ {layout : Layout} {methods methods' : List (Routine (List Stmt))},
    MethodsPadded holds layout methods methods' →
    ∀ {scopes scopes' : List Names}, Pads layout scopes scopes' →
      MethodsObey r.rules scopes methods →
      MethodsObey r'.rules scopes' methods' →
      MethodsPadded (Shifts r.table r'.table) layout methods methods'
  | _, _, _, .nil, _, _, _, _, _ => .nil
  | _, _, _, .cons padded others, _, _, pads, first, second =>
    .cons (RoutinePadded.shifts padded pads first.1 second.1)
      (MethodsPadded.shifts others pads first.2 second.2)

end

end Shifted

end Stmt

/-! ## The steps of the resolver -/

namespace Scope

/-- States of the resolver at one point of both programs. The depths that were noted so far may
differ. -/
structure State.Pads (layout : Layout) (s s' : State) : Prop where
  scopes : Scope.Pads layout s.scopes s'.scopes
  routine : s'.routine = s.routine
  classKind : s'.classKind = s.classKind
  errors : s'.errors = s.errors

/-- No declaration is going on, unless the innermost scope is one of both programs. -/
def Quiet (layout : Layout) (s : State) : Prop :=
  layout.Regular ∨ Settled s.scopes

namespace State.Pads

variable {layout : Layout} {s s' : State}

theorem report (pads : s.Pads layout s') (cause : ScopeError.Cause) (lexeme : String)
    (span : Span) :
    (s.report cause lexeme span).Pads layout (s'.report cause lexeme span) :=
  { pads with errors := congrArg (Array.push · _) pads.errors }

theorem withClassKind (pads : s.Pads layout s') (kind : ClassKind) :
    State.Pads layout { s with classKind := kind } { s' with classKind := kind } :=
  { pads with classKind := rfl }

theorem push (pads : s.Pads layout s') : s.push.Pads (false :: layout) s'.push :=
  { pads with scopes := .own ∅ pads.scopes }

/-- Only the longer program enters an extra scope. -/
theorem pushExtra (pads : s.Pads layout s') : s.Pads (true :: layout) s'.push :=
  { pads with scopes := .extra pads.scopes }

theorem pop (pads : s.Pads (false :: layout) s') : s.pop.Pads layout s'.pop := by
  refine { pads with scopes := ?_ }
  have scopes := pads.scopes
  simp only [State.pop]
  generalize s.scopes = before, s'.scopes = before' at scopes
  cases scopes with
  | own _ outer => exact outer

theorem popExtra (pads : s.Pads (true :: layout) s') : s.Pads layout s'.pop := by
  refine { pads with scopes := ?_ }
  have scopes := pads.scopes
  simp only [State.pop]
  generalize s.scopes = before, s'.scopes = before' at scopes
  cases scopes with
  | extra outer => exact outer

theorem mark (pads : s.Pads layout s') (regular : layout.Regular) (name : String)
    (complete : Bool) :
    (s.mark name complete).Pads layout (s'.mark name complete) := by
  refine ⟨?_, ?_, ?_, ?_⟩
  · rw [mark_scopes, mark_scopes]
    exact pads.scopes.mark regular complete
  · simpa using pads.routine
  · simpa using pads.classKind
  · simpa using pads.errors

theorem declares (pads : s.Pads layout s') (regular : layout.Regular) (name : String) :
    s'.declares name = s.declares name := by
  have scopes := pads.scopes
  unfold State.declares
  generalize s.scopes = before, s'.scopes = before' at scopes
  cases scopes with
  | nil => rfl
  | own _ _ => rfl
  | extra _ => exact absurd regular (Layout.not_regular _)

theorem declare (pads : s.Pads layout s') (regular : layout.Regular) (name : Ident) :
    (s.declare name).Pads layout (s'.declare name) := by
  unfold State.declare
  refine mark ?_ regular name.text false
  rw [pads.declares regular]
  split
  · exact pads.report _ _ _
  · exact pads

theorem declare_define (pads : s.Pads layout s') (regular : layout.Regular) (name : Ident) :
    ((s.declare name).define name).Pads layout ((s'.declare name).define name) :=
  (pads.declare regular name).mark regular name.text true

theorem resolve (pads : s.Pads layout s') (id : ExprId) (name : String) :
    (s.resolve id name).Pads layout (s'.resolve id name) := by
  refine ⟨?_, ?_, ?_, ?_⟩
  · rw [resolve_scopes, resolve_scopes]
    exact pads.scopes
  · rw [(Extends.resolve s' id name).routine, (Extends.resolve s id name).routine, pads.routine]
  · rw [(Extends.resolve s' id name).classKind, (Extends.resolve s id name).classKind,
      pads.classKind]
  · rw [resolve_errors, resolve_errors, pads.errors]

theorem isIncomplete (pads : s.Pads layout s') (quiet : Quiet layout s) (name : String) :
    s'.isIncomplete name = s.isIncomplete name := by
  have scopes := pads.scopes
  unfold State.isIncomplete
  unfold Quiet at quiet
  generalize s.scopes = before, s'.scopes = before' at scopes quiet
  cases scopes with
  | nil => rfl
  | own _ _ => rfl
  | extra outer =>
    -- An extra scope has no names, and what the scope around it has is complete.
    have settled := quiet.resolve_left (Layout.not_regular _)
    cases before with
    | nil => rfl
    | cons names outer =>
      have complete : names.find? name ≠ some false := fun found => by
        cases settled name 0 _ (locate?_cons_of_some found)
      simpa using complete

theorem useName (pads : s.Pads layout s') (quiet : Quiet layout s) (r : Reference) :
    (s.useName r).Pads layout (s'.useName r) := by
  unfold State.useName
  rw [pads.isIncomplete quiet]
  refine resolve ?_ _ _
  split
  · exact pads.report _ _ _
  · exact pads

theorem useThis (pads : s.Pads layout s') (id : ExprId) (span : Span) :
    (s.useThis id span).Pads layout (s'.useThis id span) := by
  unfold State.useThis
  rw [pads.classKind]
  cases s.classKind with
  | none => exact pads.report _ _ _
  | base | subclass => exact pads.resolve _ _

theorem useSuper (pads : s.Pads layout s') (id : ExprId) (span : Span) :
    (s.useSuper id span).Pads layout (s'.useSuper id span) := by
  unfold State.useSuper
  rw [pads.classKind]
  cases s.classKind with
  | none | base => exact (pads.report _ _ _).resolve _ _
  | subclass => exact pads.resolve _ _

theorem useReturn (pads : s.Pads layout s') (keyword : Span) (hasValue : Bool) :
    (s.useReturn keyword hasValue).Pads layout (s'.useReturn keyword hasValue) := by
  rw [useReturn_eq, useReturn_eq, pads.routine]
  split
  · exact pads.report _ _ _
  · exact pads.report _ _ _
  · exact pads

theorem enterRoutine (pads : s.Pads layout s') (kind : RoutineKind) (params : List Ident) :
    (s.enterRoutine kind params).Pads (false :: layout) (s'.enterRoutine kind params) := by
  have inside : State.Pads layout { s with routine := kind } { s' with routine := kind } :=
    { pads with routine := rfl }
  have declared : ∀ {t t' : State}, t.Pads (false :: layout) t' →
      (params.foldl (fun s param => (s.declare param).define param) t).Pads (false :: layout)
        (params.foldl (fun s param => (s.declare param).define param) t') := by
    induction params with
    | nil => exact fun pads => pads
    | cons param rest inductionHypothesis =>
      exact fun pads => inductionHypothesis (pads.declare_define (Layout.regular_cons _) param)
  exact declared inside.push

theorem leaveRoutine (pads : s.Pads (false :: layout) s') (outer : RoutineKind) :
    (s.leaveRoutine outer).Pads layout (s'.leaveRoutine outer) :=
  { pads.pop with routine := rfl }

theorem pushReserved (pads : s.Pads layout s') (name : String) :
    (s.push.mark name true).Pads (false :: layout) (s'.push.mark name true) :=
  pads.push.mark (Layout.regular_cons _) name true

theorem enterClass (pads : s.Pads layout s') (regular : layout.Regular) (name : Ident) :
    (s.enterClass name none).Pads (false :: layout) (s'.enterClass name none) :=
  ((pads.withClassKind _).declare_define regular name).pushReserved "this"

theorem enterSubclass (pads : s.Pads layout s') (regular : layout.Regular) (name : Ident)
    (superclass : Reference) :
    (s.enterClass name (some superclass)).Pads (false :: false :: layout)
      (s'.enterClass name (some superclass)) := by
  refine pushReserved (pushReserved (useName (withClassKind ?_ _) (.inl regular) _) "super") "this"
  have declared := (pads.withClassKind .base).declare_define regular name
  split
  · exact declared.report _ _ _
  · exact declared

theorem leaveClass (pads : s.Pads (false :: layout) s') (outer : ClassKind) :
    (s.leaveClass none outer).Pads layout (s'.leaveClass none outer) :=
  pads.pop.withClassKind outer

theorem leaveSubclass (pads : s.Pads (false :: false :: layout) s') (superclass : Reference)
    (outer : ClassKind) :
    (s.leaveClass (some superclass) outer).Pads layout (s'.leaveClass (some superclass) outer) :=
  pads.pop.pop.withClassKind outer

end State.Pads

theorem Quiet.behind {layout : Layout} {s : State} (quiet : Quiet layout s) (e : Expr) :
    Quiet layout (e.resolve s) := by
  unfold Quiet
  rw [e.resolve_scopes s]
  exact quiet

theorem Settled.after {scopes : List Names} (settled : Settled scopes) (s : Stmt) :
    Settled (s.scopesAfter scopes) := by
  unfold Stmt.scopesAfter
  cases s.declared? with
  | none => exact settled
  | some declared => exact settled.mark_true declared.text

end Scope

/-! ## Faults of padded programs -/

open Scope (Quiet)

mutual

theorem Expr.resolve_pads {layout : Layout} : ∀ (e : Expr) {s s' : State}, Quiet layout s →
    s.Pads layout s' → (e.resolve s).Pads layout (e.resolve s')
  | .literal .., _, _, _, pads => pads
  | .ref target, _, _, quiet, pads => pads.useName quiet target
  | .assign id name value, _, _, quiet, pads => (value.resolve_pads quiet pads).resolve id name.text
  | .binary _ _ _ left right, _, _, quiet, pads | .logical _ _ _ left right, _, _, quiet, pads =>
    right.resolve_pads (quiet.behind left) (left.resolve_pads quiet pads)
  | .unary _ _ _ operand, _, _, quiet, pads => operand.resolve_pads quiet pads
  | .call _ _ callee args, _, _, quiet, pads =>
    Expr.resolveAll_pads args (quiet.behind callee) (callee.resolve_pads quiet pads)
  | .group _ _ inner, _, _, quiet, pads => inner.resolve_pads quiet pads
  | .get _ object _, _, _, quiet, pads => object.resolve_pads quiet pads
  | .set _ object _ value, _, _, quiet, pads =>
    object.resolve_pads (quiet.behind value) (value.resolve_pads quiet pads)
  | .this id span, _, _, _, pads => pads.useThis id span
  | .super id span _, _, _, _, pads => pads.useSuper id span

theorem Expr.resolveAll_pads {layout : Layout} : ∀ (es : List Expr) {s s' : State}, Quiet layout s →
    s.Pads layout s' → (Expr.resolveAll es s).Pads layout (Expr.resolveAll es s')
  | [], _, _, _, pads => pads
  | e :: rest, _, _, quiet, pads =>
    Expr.resolveAll_pads rest (quiet.behind e) (e.resolve_pads quiet pads)

end

theorem Expr.resolveOption_pads {layout : Layout} (e : Option Expr) {s s' : State}
    (quiet : Quiet layout s) (pads : s.Pads layout s') :
    (Expr.resolveOption e s).Pads layout (Expr.resolveOption e s') := by
  cases e with
  | none => exact pads
  | some e => exact e.resolve_pads quiet pads

namespace Stmt

variable {holds : Layout → Use → Prop}

mutual

theorem Shaped.resolve : ∀ {layout : Layout} {st st' : Stmt}, Shaped holds layout st st' →
    ∀ {s s' : State}, st.Obeys .plain s.scopes → Settled s.scopes → s.Pads layout s' →
      (st.resolve s).Pads layout (st'.resolve s')
  | _, _, _, .expr _, _, _, _, settled, pads => Expr.resolve_pads _ (.inr settled) pads
  | _, _, _, .print _, _, _, _, settled, pads => Expr.resolve_pads _ (.inr settled) pads
  | _, _, _, .var regular _, _, _, _, _, pads =>
    (Expr.resolveOption_pads _ (.inl regular) (pads.declare regular _)).mark regular _ true
  | _, _, _, .block body, s, _, plain, settled, pads => by
    have inside := AllPadded.resolve body (s := s.push) plain (settled.push (by simp)) pads.push
    exact inside.pop
  | _, .if condition _ _, _, .if _ yes, s, _, plain, settled, pads => by
    have first := condition.resolve_pads (.inr settled) pads
    have second := Padded.resolve yes (by rw [condition.resolve_scopes s]; exact plain.2.2)
      (by rw [condition.resolve_scopes s]; exact settled) first
    exact second
  | _, .if condition yes _, _, .ifElse _ first second, s, _, plain, settled, pads => by
    have around := condition.resolve_scopes s
    have asked := condition.resolve_pads (.inr settled) pads
    have plainYes : yes.Obeys .plain (condition.resolve s).scopes := by
      rw [around]; exact plain.2.1.2
    have passed := Padded.resolve first plainYes (by rw [around]; exact settled) asked
    have aroundNo : (yes.resolve (condition.resolve s)).scopes = s.scopes := by
      rw [resolve_scopes yes _ plainYes, around]
      exact scopesAfter_of_declared?_eq_none plain.2.1.1 _
    have done := Padded.resolve second (by rw [aroundNo]; exact plain.2.2.2)
      (by rw [aroundNo]; exact settled) passed
    exact done
  | _, .while condition _, _, .while _ body, s, _, plain, settled, pads => by
    have first := condition.resolve_pads (.inr settled) pads
    have second := Padded.resolve body (by rw [condition.resolve_scopes s]; exact plain.2.2)
      (by rw [condition.resolve_scopes s]; exact settled) first
    exact second
  | _, .fun routine, _, .fun regular padded, s, _, plain, settled, pads => by
    have declared := pads.declare_define regular routine.name
    have around := s.declare_define_scopes routine.name
    rw [Stmt.resolve, Stmt.resolve, padded.name]
    refine RoutinePadded.resolve padded .function ?_ ?_ declared
    · rw [around]
      exact plain.2
    · rw [around]
      exact settled.mark_true _
  | _, .return keyword value, _, .return _, s, _, _, settled, pads => by
    refine Expr.resolveOption_pads value (.inr ?_) (pads.useReturn keyword value.isSome)
    rw [State.useReturn_scopes]
    exact settled
  | _, .class name _ _, _, .class regular methods, s, _, plain, settled, pads => by
    have around := s.enterClass_scopes name none
    have inside := MethodsPadded.resolve methods (by rw [around]; exact plain.2.2)
      (by rw [around]; exact (settled.mark_true _).classScopes none) (pads.enterClass regular name)
    rw [Stmt.resolve, Stmt.resolve, pads.classKind]
    exact inside.leaveClass s.classKind
  | _, .class name (some superclass) _, _, .subclass regular _ methods, s, _, plain,
      settled, pads => by
    have around := s.enterClass_scopes name (some superclass)
    have inside := MethodsPadded.resolve methods (by rw [around]; exact plain.2.2)
      (by rw [around]; exact (settled.mark_true _).classScopes (some superclass))
      (pads.enterSubclass regular name superclass)
    rw [Stmt.resolve, Stmt.resolve, pads.classKind]
    exact inside.leaveSubclass superclass s.classKind

theorem Padded.resolve : ∀ {layout : Layout} {st st' : Stmt}, Padded holds layout st st' →
    ∀ {s s' : State}, st.Obeys .plain s.scopes → Settled s.scopes → s.Pads layout s' →
      (st.resolve s).Pads layout (st'.resolve s')
  | _, _, _, .shaped shaped, _, _, plain, settled, pads => Shaped.resolve shaped plain settled pads
  | _, _, _, .wrapped shaped, _, _, plain, settled, pads =>
    (Shaped.resolve shaped plain settled pads.pushExtra).popExtra

theorem AllPadded.resolve : ∀ {layout : Layout} {body body' : List Stmt},
    AllPadded holds layout body body' →
    ∀ {s s' : State}, AllObey .plain s.scopes body → Settled s.scopes → s.Pads layout s' →
      (resolveAll body s).Pads layout (resolveAll body' s')
  | _, _, _, .nil, _, _, _, _, pads => pads
  | _, st :: _, _, .cons first others, s, _, plain, settled, pads => by
    have after := st.resolve_scopes s plain.1
    have passed := Padded.resolve first plain.1 settled pads
    have done := AllPadded.resolve others (by rw [after]; exact plain.2)
      (by rw [after]; exact settled.after st) passed
    exact done

theorem RoutinePadded.resolve : ∀ {layout : Layout} {routine routine' : Routine (List Stmt)},
    RoutinePadded holds layout routine routine' → ∀ (kind : RoutineKind)
    {s s' : State}, RoutineObeys .plain s.scopes routine → Settled s.scopes → s.Pads layout s' →
      (resolveRoutine routine kind s).Pads layout (resolveRoutine routine' kind s')
  | _, ⟨_, params, _⟩, _, .mk body, kind, s, _, plain, settled, pads => by
    have around := s.enterRoutine_scopes kind params
    have inside := AllPadded.resolve body (by rw [around]; exact plain.2)
      (by rw [around]; exact settled.params params) (pads.enterRoutine kind params)
    rw [resolveRoutine, resolveRoutine, pads.routine]
    exact inside.leaveRoutine s.routine

theorem MethodsPadded.resolve : ∀ {layout : Layout} {methods methods' : List (Routine (List Stmt))},
    MethodsPadded holds layout methods methods' →
    ∀ {s s' : State}, MethodsObey .plain s.scopes methods → Settled s.scopes → s.Pads layout s' →
      (resolveMethods methods s).Pads layout (resolveMethods methods' s')
  | _, _, _, .nil, _, _, _, _, pads => pads
  | _, method :: _, _, .cons first others, s, _, plain, settled, pads => by
    have after := resolveRoutine_scopes method (Scope.methodKind method.name) s
    have passed := RoutinePadded.resolve first (Scope.methodKind method.name) plain.1 settled pads
    have done := MethodsPadded.resolve others (by rw [after]; exact plain.2)
      (by rw [after]; exact settled) passed
    rw [resolveMethods, resolveMethods, first.name]
    exact done

end

end Stmt

namespace Program

variable {program program' : Program}

/-- Padding changes nothing about the faults of scoping. -/
theorem errors_padded (padded : Stmt.AllPadded Stmt.anyUse [] program program')
    (plain : program.Obeys .plain) :
    (Stmt.resolveAll program' {}).errors = (Stmt.resolveAll program {}).errors := by
  have start : State.Pads [] {} {} := ⟨.nil, rfl, rfl, rfl⟩
  have settled : Settled ({} : State).scopes := fun name depth known found => by cases found
  have obeys : Stmt.AllObey .plain ({} : State).scopes program := plain
  exact (padded.resolve obeys settled start).errors

theorem resolve_error_iff_padded (padded : Stmt.AllPadded Stmt.anyUse [] program program')
    (plain : program.Obeys .plain) (errors : List ScopeError) :
    program'.resolve = .error errors ↔ program.resolve = .error errors := by
  rw [resolve_error_iff, resolve_error_iff, errors_padded padded plain]

end Program

end Lox
