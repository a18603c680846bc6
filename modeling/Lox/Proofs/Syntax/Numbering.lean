import Lox.Proofs.Syntax.Relabeling
import Lox.Proofs.Syntax.Similar

set_option autoImplicit false

/-!
# Numbers of expressions

Programs that differ in the numbers of their expressions only. No name changes, so it does not
matter which scopes are marked.
-/

namespace Lox

open Scope (Names Rules)

/-- Other numbers stand for the numbers of expressions, and every name for itself. -/
def Correspondence.numbering (id : ExprId → ExprId → Prop) : Correspondence where
  id := id
  name _ := Eq
  depth _ := none

variable {id : ExprId → ExprId → Prop}

theorem Correspondence.lawful_numbering
    (distinct : ∀ {i i' j j'}, id i i' → id j j' → (i = j ↔ i' = j')) : (numbering id).Lawful where
  id_eq_iff := distinct
  name_back first second := first.trans second.symm
  name_forth first second := first.symm.trans second
  top same := same
  reserved _ _ := rfl

theorem Ident.similar_numbering (mark : Bool) (name : Ident) :
    name.Similar (.numbering id) mark name :=
  ⟨rfl, rfl⟩

/-! ## Other numbers

A program under two relabelings of its numbers. -/

section Relabeled

variable {f f' : ExprId → ExprId}

theorem Reference.similar_relabel (both : ∀ i, id (f i) (f' i)) (marks : List Bool)
    (target : Reference) :
    (target.relabel (.numbers f)).Similar (.numbering id) marks (target.relabel (.numbers f')) :=
  ⟨both target.id, rfl, rfl⟩

mutual

theorem Expr.similar_relabel (both : ∀ i, id (f i) (f' i)) {marks : List Bool} : ∀ e : Expr,
    (e.relabel (.numbers f)).Similar (.numbering id) marks (e.relabel (.numbers f'))
  | .literal .. => .literal
  | .ref target => .ref (target.similar_relabel both marks)
  | .assign id name value =>
    .assign (Reference.similar_relabel both marks ⟨id, name⟩) (value.similar_relabel both)
  | .binary _ _ _ left right => .binary (left.similar_relabel both) (right.similar_relabel both)
  | .logical _ _ _ left right => .logical (left.similar_relabel both) (right.similar_relabel both)
  | .unary _ _ _ operand => .unary (operand.similar_relabel both)
  | .call _ _ callee args => .call (callee.similar_relabel both) (Expr.allSimilar_relabel both args)
  | .group _ _ inner => .group (inner.similar_relabel both)
  | .get _ object _ => .get (object.similar_relabel both)
  | .set _ object _ value => .set (object.similar_relabel both) (value.similar_relabel both)
  | .this id _ => .this (both id)
  | .super id _ _ => .super (both id)

theorem Expr.allSimilar_relabel (both : ∀ i, id (f i) (f' i)) {marks : List Bool} :
    ∀ es : List Expr,
    List.Forall₂ (Expr.Similar (.numbering id) marks) (Expr.relabelAll (.numbers f) es)
      (Expr.relabelAll (.numbers f') es)
  | [] => .nil
  | e :: rest => .cons (e.similar_relabel both) (Expr.allSimilar_relabel both rest)

end

theorem Expr.optionSimilar_relabel (both : ∀ i, id (f i) (f' i)) {marks : List Bool}
    (e : Option Expr) :
    Option.Rel (Expr.Similar (.numbering id) marks) (e.map (Expr.relabel (.numbers f)))
      (e.map (Expr.relabel (.numbers f'))) := by
  cases e with
  | none => exact .none
  | some e => exact .some (e.similar_relabel both)

namespace Stmt

mutual

theorem similar_relabel (both : ∀ i, id (f i) (f' i)) {marks : List Bool} : ∀ s : Stmt,
    (s.relabel (.numbers f)).Similar (.numbering id) marks (s.relabel (.numbers f'))
  | .expr value => .expr (value.similar_relabel both)
  | .print value => .print (value.similar_relabel both)
  | .var _ initial => .var ⟨rfl, rfl⟩ (Expr.optionSimilar_relabel both initial)
  | .block body => .block false (allSimilar_relabel both body)
  | .if condition yes none => .if (condition.similar_relabel both) (yes.similar_relabel both)
  | .if condition yes (some no) =>
    .ifElse (condition.similar_relabel both) (yes.similar_relabel both) (no.similar_relabel both)
  | .while condition body => .while (condition.similar_relabel both) (body.similar_relabel both)
  | .fun routine => .fun rfl (routineSimilar_relabel both routine)
  | .return _ value => .return (Expr.optionSimilar_relabel both value)
  | .class _ none methods => .class rfl (methodsSimilar_relabel both methods)
  | .class _ (some superclass) methods =>
    .subclass rfl (superclass.similar_relabel both marks) Iff.rfl
      (methodsSimilar_relabel both methods)

theorem allSimilar_relabel (both : ∀ i, id (f i) (f' i)) {marks : List Bool} : ∀ body : List Stmt,
    AllSimilar (.numbering id) marks (relabelAll (.numbers f) body) (relabelAll (.numbers f') body)
  | [] => .nil
  | s :: rest => .cons (s.similar_relabel both) (allSimilar_relabel both rest)

theorem routineSimilar_relabel (both : ∀ i, id (f i) (f' i)) {marks : List Bool} :
    ∀ routine : Routine (List Stmt), RoutineSimilar (.numbering id) marks
      (relabelRoutine (.numbers f) routine) (relabelRoutine (.numbers f') routine)
  | ⟨_, _, body⟩ =>
    .mk false (List.forall₂_same.mpr fun param _ => param.similar_numbering false)
      (allSimilar_relabel both body)

theorem methodsSimilar_relabel (both : ∀ i, id (f i) (f' i)) {marks : List Bool} :
    ∀ methods : List (Routine (List Stmt)), MethodsSimilar (.numbering id) marks
      (relabelMethods (.numbers f) methods) (relabelMethods (.numbers f') methods)
  | [] => .nil
  | method :: rest => .cons (routineSimilar_relabel both method) (methodsSimilar_relabel both rest)

end

end Stmt

end Relabeled

/-! ## Numbers that stay

A program is similar to itself if the numbers of its uses of names stand for themselves. -/

section Reflexive

variable {rules : Rules} {marks : List Bool}

mutual

theorem Expr.Obeys.similar (known : ∀ {scopes u}, rules.use scopes u → id u.id u.id)
    {scopes : List Names} : ∀ {e : Expr}, e.Obeys rules scopes → e.Similar (.numbering id) marks e
  | .literal .., _ => .literal
  | .ref _, obeys => .ref ⟨known obeys, rfl, rfl⟩
  | .assign .., obeys => .assign ⟨known obeys.2, rfl, rfl⟩ (obeys.1.similar known)
  | .binary .., obeys => .binary (obeys.1.similar known) (obeys.2.similar known)
  | .logical .., obeys => .logical (obeys.1.similar known) (obeys.2.similar known)
  | .unary _ _ _ operand, obeys => .unary (Expr.Obeys.similar known (e := operand) obeys)
  | .call .., obeys => .call (obeys.1.similar known) (Expr.AllObey.similar known obeys.2)
  | .group _ _ inner, obeys => .group (Expr.Obeys.similar known (e := inner) obeys)
  | .get _ object _, obeys => .get (Expr.Obeys.similar known (e := object) obeys)
  | .set .., obeys => .set (obeys.1.similar known) (obeys.2.similar known)
  | .this .., obeys => .this (known obeys)
  | .super .., obeys => .super (known obeys)

theorem Expr.AllObey.similar (known : ∀ {scopes u}, rules.use scopes u → id u.id u.id)
    {scopes : List Names} : ∀ {es : List Expr}, Expr.AllObey rules scopes es →
      List.Forall₂ (Expr.Similar (.numbering id) marks) es es
  | [], _ => .nil
  | _ :: _, obeys => .cons (obeys.1.similar known) (Expr.AllObey.similar known obeys.2)

end

theorem Expr.OptionObeys.similar (known : ∀ {scopes u}, rules.use scopes u → id u.id u.id)
    {scopes : List Names} {e : Option Expr} (obeys : Expr.OptionObeys rules scopes e) :
    Option.Rel (Expr.Similar (.numbering id) marks) e e := by
  cases e with
  | none => exact .none
  | some e => exact .some (Expr.Obeys.similar known (e := e) obeys)

end Reflexive

namespace Stmt

variable {rules : Rules}

mutual

theorem Obeys.similar (known : ∀ {scopes u}, rules.use scopes u → id u.id u.id)
    {scopes : List Names} {marks : List Bool} :
    ∀ {s : Stmt}, s.Obeys rules scopes → s.Similar (.numbering id) marks s
  | .expr _, obeys => .expr (Expr.Obeys.similar known obeys)
  | .print _, obeys => .print (Expr.Obeys.similar known obeys)
  | .var .., obeys => .var ⟨rfl, rfl⟩ (obeys.2.similar known)
  | .block _, obeys => .block false (AllObey.similar known obeys)
  | .if _ _ none, obeys => .if (obeys.1.similar known) (Obeys.similar known obeys.2.2)
  | .if _ _ (some _), obeys =>
    .ifElse (obeys.1.similar known) (Obeys.similar known obeys.2.1.2)
      (Obeys.similar known obeys.2.2.2)
  | .while .., obeys => .while (obeys.1.similar known) (Obeys.similar known obeys.2.2)
  | .fun _, obeys => .fun rfl (RoutineObeys.similar known obeys.2)
  | .return .., obeys => .return (Expr.OptionObeys.similar known obeys)
  | .class _ none _, obeys => .class rfl (MethodsObey.similar known obeys.2.2)
  | .class _ (some superclass) _, obeys =>
    .subclass rfl ⟨known (obeys.2.1 superclass rfl).1, rfl, rfl⟩ Iff.rfl
      (MethodsObey.similar known obeys.2.2)

theorem AllObey.similar (known : ∀ {scopes u}, rules.use scopes u → id u.id u.id)
    {scopes : List Names} {marks : List Bool} :
    ∀ {body : List Stmt}, AllObey rules scopes body → AllSimilar (.numbering id) marks body body
  | [], _ => .nil
  | _ :: _, obeys => .cons (Obeys.similar known obeys.1) (AllObey.similar known obeys.2)

theorem RoutineObeys.similar (known : ∀ {scopes u}, rules.use scopes u → id u.id u.id)
    {scopes : List Names} {marks : List Bool} :
    ∀ {routine : Routine (List Stmt)}, RoutineObeys rules scopes routine →
      RoutineSimilar (.numbering id) marks routine routine
  | ⟨_, _, _⟩, obeys =>
    .mk false (List.forall₂_same.mpr fun param _ => param.similar_numbering false)
      (AllObey.similar known obeys.2)

theorem MethodsObey.similar (known : ∀ {scopes u}, rules.use scopes u → id u.id u.id)
    {scopes : List Names} {marks : List Bool} :
    ∀ {methods : List (Routine (List Stmt))}, MethodsObey rules scopes methods →
      MethodsSimilar (.numbering id) marks methods methods
  | [], _ => .nil
  | _ :: _, obeys => .cons (RoutineObeys.similar known obeys.1) (MethodsObey.similar known obeys.2)

end

end Stmt

end Lox
