import Lox.Proofs.Scope.Rules

set_option autoImplicit false

/-!
# Similar programs

Programs of one shape that differ in the numbers of their expressions and in what their local
variables are called. A variable may have its other name in some scopes only: each scope is marked
or not, and which names stand for each other in it depends on the mark. A use of a variable goes by
the scope at its depth. Everything that a program can print is the same in a similar one.
-/

namespace Lox

section Options

variable {α β : Type} {r r' : α → β → Prop} {a : Option α} {b : Option β}

theorem optionRel_imp (implied : ∀ a b, r a b → r' a b) (related : Option.Rel r a b) :
    Option.Rel r' a b := by
  cases related with
  | some related => exact .some (implied _ _ related)
  | none => exact .none

theorem isSome_eq_of_optionRel (related : Option.Rel r a b) : b.isSome = a.isSome := by
  cases related <;> rfl

/-- The first that is found in two lists whose members are related. -/
theorem optionRel_findSome? {γ δ : Type} {p : γ → δ → Prop} {f : γ → Option α} {g : δ → Option β}
    (related : ∀ x y, p x y → Option.Rel r (f x) (g y)) {xs : List γ} {ys : List δ}
    (members : List.Forall₂ p xs ys) : Option.Rel r (xs.findSome? f) (ys.findSome? g) := by
  induction members with
  | nil => exact .none
  | @cons x y xs ys first _ inductionHypothesis =>
    have here := related x y first
    rw [List.findSome?_cons, List.findSome?_cons]
    generalize f x = found, g y = found' at here
    cases here with
    | some here => exact .some here
    | none => exact inductionHypothesis

end Options

/-- What stands for what in a similar program: numbers for numbers, and, in marked scopes and in
others, names for names. The depths tell which scope a use belongs to. -/
structure Correspondence where
  id : ExprId → ExprId → Prop
  name : Bool → String → String → Prop
  depth : ExprId → Option Nat

namespace Correspondence

def markAt (marks : List Bool) (depth : Option Nat) : Bool :=
  (depth.bind (marks[·]?)).getD false

@[simp] theorem markAt_zero (marks : List Bool) : markAt marks (some 0) = marks.headD false := by
  cases marks <;> rfl

/-- Nothing stands for two things or has two things that stand for it, also in scopes that are
marked differently. At the top level names do not change, and reserved names never do. -/
structure Lawful (c : Correspondence) : Prop where
  id_eq_iff : ∀ {i i' j j'}, c.id i i' → c.id j j' → (i = j ↔ i' = j')
  name_back : ∀ {mark other a b a'}, c.name mark a a' → c.name other b a' → a = b
  name_forth : ∀ {mark a a' b'}, c.name mark a a' → c.name mark a b' → a' = b'
  top : ∀ {a a'}, c.name false a a' → a = a'
  reserved : ∀ {name} mark, IsReserved name → c.name mark name name

theorem Lawful.name_eq_iff {c : Correspondence} (lawful : c.Lawful) {mark : Bool}
    {a a' b b' : String} (first : c.name mark a a') (second : c.name mark b b') :
    a = b ↔ a' = b' := by
  constructor
  · rintro rfl
    exact lawful.name_forth first second
  · rintro rfl
    exact lawful.name_back first second

end Correspondence

open Correspondence (markAt)

structure Ident.Similar (c : Correspondence) (mark : Bool) (name name' : Ident) : Prop where
  text : c.name mark name.text name'.text
  span : name'.span = name.span

structure Reference.Similar (c : Correspondence) (marks : List Bool) (r r' : Reference) : Prop where
  id : c.id r.id r'.id
  name : r.name.Similar c (markAt marks (c.depth r.id)) r'.name

inductive Expr.Similar (c : Correspondence) (marks : List Bool) : Expr → Expr → Prop where
  | literal {i i' : ExprId} {span : Span} {value : Literal} :
    Similar c marks (.literal i span value) (.literal i' span value)
  | ref {target target' : Reference} :
    target.Similar c marks target' → Similar c marks (.ref target) (.ref target')
  | assign {i i' : ExprId} {name name' : Ident} {value value' : Expr} :
    Reference.Similar c marks ⟨i, name⟩ ⟨i', name'⟩ → Similar c marks value value' →
      Similar c marks (.assign i name value) (.assign i' name' value')
  | binary {i i' : ExprId} {span : Span} {op : BinaryOp} {left left' right right' : Expr} :
    Similar c marks left left' → Similar c marks right right' →
      Similar c marks (.binary i span op left right) (.binary i' span op left' right')
  | logical {i i' : ExprId} {span : Span} {op : LogicalOp} {left left' right right' : Expr} :
    Similar c marks left left' → Similar c marks right right' →
      Similar c marks (.logical i span op left right) (.logical i' span op left' right')
  | unary {i i' : ExprId} {span : Span} {op : UnaryOp} {operand operand' : Expr} :
    Similar c marks operand operand' →
      Similar c marks (.unary i span op operand) (.unary i' span op operand')
  | call {i i' : ExprId} {span : Span} {callee callee' : Expr} {args args' : List Expr} :
    Similar c marks callee callee' → List.Forall₂ (Similar c marks) args args' →
      Similar c marks (.call i span callee args) (.call i' span callee' args')
  | group {i i' : ExprId} {span : Span} {inner inner' : Expr} :
    Similar c marks inner inner' → Similar c marks (.group i span inner) (.group i' span inner')
  | get {i i' : ExprId} {object object' : Expr} {name : Ident} :
    Similar c marks object object' → Similar c marks (.get i object name) (.get i' object' name)
  | set {i i' : ExprId} {object object' value value' : Expr} {name : Ident} :
    Similar c marks object object' → Similar c marks value value' →
      Similar c marks (.set i object name value) (.set i' object' name value')
  | this {i i' : ExprId} {span : Span} :
    c.id i i' → Similar c marks (.this i span) (.this i' span)
  | super {i i' : ExprId} {span : Span} {method : Ident} :
    c.id i i' → Similar c marks (.super i span method) (.super i' span method)

theorem Expr.Similar.span {c : Correspondence} {marks : List Bool} {e e' : Expr}
    (similar : e.Similar c marks e') : e'.span = e.span := by
  cases similar with
  | ref target => exact target.name.span
  | assign target => exact target.name.span
  | literal | binary | logical | unary | call | group | get | set | this | super => rfl

namespace Stmt

mutual

/-- Similar statements. The names of functions and classes are printed, so they are the same. -/
inductive Similar (c : Correspondence) : List Bool → Stmt → Stmt → Prop where
  | expr {marks : List Bool} {value value' : Expr} :
    value.Similar c marks value' → Similar c marks (.expr value) (.expr value')
  | print {marks : List Bool} {value value' : Expr} :
    value.Similar c marks value' → Similar c marks (.print value) (.print value')
  | var {marks : List Bool} {name name' : Ident} {initial initial' : Option Expr} :
    name.Similar c (marks.headD false) name' → Option.Rel (Expr.Similar c marks) initial initial' →
      Similar c marks (.var name initial) (.var name' initial')
  | block {marks : List Bool} {body body' : List Stmt} (mark : Bool) :
    AllSimilar c (mark :: marks) body body' → Similar c marks (.block body) (.block body')
  | if {marks : List Bool} {condition condition' : Expr} {yes yes' : Stmt} :
    condition.Similar c marks condition' → Similar c marks yes yes' →
      Similar c marks (.if condition yes none) (.if condition' yes' none)
  | ifElse {marks : List Bool} {condition condition' : Expr} {yes yes' no no' : Stmt} :
    condition.Similar c marks condition' → Similar c marks yes yes' → Similar c marks no no' →
      Similar c marks (.if condition yes (some no)) (.if condition' yes' (some no'))
  | while {marks : List Bool} {condition condition' : Expr} {body body' : Stmt} :
    condition.Similar c marks condition' → Similar c marks body body' →
      Similar c marks (.while condition body) (.while condition' body')
  | fun {marks : List Bool} {routine routine' : Routine (List Stmt)} :
    c.name (marks.headD false) routine.name.text routine.name.text →
      RoutineSimilar c marks routine routine' → Similar c marks (.fun routine) (.fun routine')
  | return {marks : List Bool} {keyword : Span} {value value' : Option Expr} :
    Option.Rel (Expr.Similar c marks) value value' →
      Similar c marks (.return keyword value) (.return keyword value')
  | class {marks : List Bool} {name : Ident} {methods methods' : List (Routine (List Stmt))} :
    c.name (marks.headD false) name.text name.text →
      MethodsSimilar c (false :: marks) methods methods' →
      Similar c marks (.class name none methods) (.class name none methods')
  | subclass {marks : List Bool} {name : Ident} {superclass superclass' : Reference}
      {methods methods' : List (Routine (List Stmt))} :
    c.name (marks.headD false) name.text name.text → superclass.Similar c marks superclass' →
      (superclass.name.text = name.text ↔ superclass'.name.text = name.text) →
      MethodsSimilar c (false :: false :: marks) methods methods' →
      Similar c marks (.class name (some superclass) methods)
      (.class name (some superclass') methods')

inductive AllSimilar (c : Correspondence) : List Bool → List Stmt → List Stmt → Prop where
  | nil {marks : List Bool} : AllSimilar c marks [] []
  | cons {marks : List Bool} {s s' : Stmt} {rest rest' : List Stmt} :
    Similar c marks s s' → AllSimilar c marks rest rest' →
      AllSimilar c marks (s :: rest) (s' :: rest')

inductive RoutineSimilar (c : Correspondence) :
    List Bool → Routine (List Stmt) → Routine (List Stmt) → Prop where
  | mk {marks : List Bool} {name : Ident} {params params' : List Ident} {body body' : List Stmt}
      (mark : Bool) :
    List.Forall₂ (Ident.Similar c mark) params params' → AllSimilar c (mark :: marks) body body' →
      RoutineSimilar c marks ⟨name, params, body⟩ ⟨name, params', body'⟩

inductive MethodsSimilar (c : Correspondence) :
    List Bool → List (Routine (List Stmt)) → List (Routine (List Stmt)) → Prop where
  | nil {marks : List Bool} : MethodsSimilar c marks [] []
  | cons {marks : List Bool} {method method' : Routine (List Stmt)}
      {rest rest' : List (Routine (List Stmt))} :
    RoutineSimilar c marks method method' → MethodsSimilar c marks rest rest' →
      MethodsSimilar c marks (method :: rest) (method' :: rest')

end

variable {c : Correspondence} {marks : List Bool} {routine routine' : Routine (List Stmt)}

theorem RoutineSimilar.name (similar : RoutineSimilar c marks routine routine') :
    routine'.name = routine.name := by
  cases similar
  rfl

theorem routineSimilar_iff : RoutineSimilar c marks routine routine' ↔
    routine'.name = routine.name ∧ ∃ mark,
      List.Forall₂ (Ident.Similar c mark) routine.params routine'.params ∧
        AllSimilar c (mark :: marks) routine.body routine'.body := by
  constructor
  · rintro ⟨mark, params, body⟩
    exact ⟨rfl, mark, params, body⟩
  · obtain ⟨name, params, body⟩ := routine
    obtain ⟨name', params', body'⟩ := routine'
    rintro ⟨rfl, mark, params, body⟩
    exact ⟨mark, params, body⟩

theorem RoutineSimilar.params_length (similar : RoutineSimilar c marks routine routine') :
    routine'.params.length = routine.params.length := by
  cases similar with
  | mk mark params _ => exact params.length_eq.symm

end Stmt

end Lox
