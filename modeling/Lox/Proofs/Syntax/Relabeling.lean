import Lox.Proofs.Syntax.Uses

set_option autoImplicit false

/-!
# Relabeled programs

Programs with other spans and other numbers of expressions in place of theirs. A span is only ever
copied, into a value or into a fault, and a number is only ever looked up, so a relabeled program
does the same as the program.
-/

namespace Lox

structure Relabeling where
  span : Span → Span
  id : ExprId → ExprId

namespace Relabeling

def spans (f : Span → Span) : Relabeling := ⟨f, fun i => i⟩

def numbers (f : ExprId → ExprId) : Relabeling := ⟨fun span => span, f⟩

end Relabeling

def Ident.relabel (r : Relabeling) (name : Ident) : Ident :=
  ⟨name.text, r.span name.span⟩

def Reference.relabel (r : Relabeling) (target : Reference) : Reference :=
  ⟨r.id target.id, target.name.relabel r⟩

mutual

def Expr.relabel (r : Relabeling) : Expr → Expr
  | .literal id span value => .literal (r.id id) (r.span span) value
  | .ref target => .ref (target.relabel r)
  | .assign id name value => .assign (r.id id) (name.relabel r) (value.relabel r)
  | .binary id span op left right =>
    .binary (r.id id) (r.span span) op (left.relabel r) (right.relabel r)
  | .logical id span op left right =>
    .logical (r.id id) (r.span span) op (left.relabel r) (right.relabel r)
  | .unary id span op operand => .unary (r.id id) (r.span span) op (operand.relabel r)
  | .call id span callee args =>
    .call (r.id id) (r.span span) (callee.relabel r) (Expr.relabelAll r args)
  | .group id span inner => .group (r.id id) (r.span span) (inner.relabel r)
  | .get id object name => .get (r.id id) (object.relabel r) (name.relabel r)
  | .set id object name value =>
    .set (r.id id) (object.relabel r) (name.relabel r) (value.relabel r)
  | .this id span => .this (r.id id) (r.span span)
  | .super id span method => .super (r.id id) (r.span span) (method.relabel r)

def Expr.relabelAll (r : Relabeling) : List Expr → List Expr
  | [] => []
  | e :: rest => e.relabel r :: Expr.relabelAll r rest

end

namespace Stmt

mutual

def relabel (r : Relabeling) : Stmt → Stmt
  | .expr value => .expr (value.relabel r)
  | .print value => .print (value.relabel r)
  | .var name initial => .var (name.relabel r) (initial.map (Expr.relabel r))
  | .block body => .block (relabelAll r body)
  | .if condition yes none => .if (condition.relabel r) (yes.relabel r) none
  | .if condition yes (some no) => .if (condition.relabel r) (yes.relabel r) (some (no.relabel r))
  | .while condition body => .while (condition.relabel r) (body.relabel r)
  | .fun routine => .fun (relabelRoutine r routine)
  | .return keyword value => .return (r.span keyword) (value.map (Expr.relabel r))
  | .class name superclass methods =>
    .class (name.relabel r) (superclass.map (Reference.relabel r)) (relabelMethods r methods)

def relabelAll (r : Relabeling) : List Stmt → List Stmt
  | [] => []
  | s :: rest => s.relabel r :: relabelAll r rest

def relabelRoutine (r : Relabeling) : Routine (List Stmt) → Routine (List Stmt)
  | ⟨name, params, body⟩ => ⟨name.relabel r, params.map (Ident.relabel r), relabelAll r body⟩

def relabelMethods (r : Relabeling) : List (Routine (List Stmt)) → List (Routine (List Stmt))
  | [] => []
  | method :: rest => relabelRoutine r method :: relabelMethods r rest

end

end Stmt

def Program.relabel (r : Relabeling) (program : Program) : Program :=
  Stmt.relabelAll r program

theorem Expr.span_relabel (r : Relabeling) (e : Expr) : (e.relabel r).span = r.span e.span := by
  cases e <;> rfl

@[simp] theorem Expr.length_relabelAll (r : Relabeling) (es : List Expr) :
    (Expr.relabelAll r es).length = es.length := by
  induction es with
  | nil => rfl
  | cons e rest inductionHypothesis =>
    rw [Expr.relabelAll, List.length_cons, inductionHypothesis, List.length_cons]

namespace Stmt

variable (r : Relabeling)

@[simp] theorem relabelRoutine_name (routine : Routine (List Stmt)) :
    (relabelRoutine r routine).name = routine.name.relabel r := by
  cases routine
  rw [relabelRoutine]

@[simp] theorem relabelRoutine_params (routine : Routine (List Stmt)) :
    (relabelRoutine r routine).params = routine.params.map (Ident.relabel r) := by
  cases routine
  rw [relabelRoutine]

@[simp] theorem relabelRoutine_body (routine : Routine (List Stmt)) :
    (relabelRoutine r routine).body = relabelAll r routine.body := by
  cases routine
  rw [relabelRoutine]

end Stmt

/-! ## Labels that stay

A program does not change if spans stay and its own numbers do. -/

section Fixed

variable {r : Relabeling}

theorem Ident.relabel_eq_self (spans : ∀ span, r.span span = span) (name : Ident) :
    name.relabel r = name := by
  rw [Ident.relabel, spans]

theorem Ident.map_relabel_eq_self (spans : ∀ span, r.span span = span) (names : List Ident) :
    names.map (Ident.relabel r) = names := by
  rw [List.map_congr_left fun name _ => name.relabel_eq_self spans, List.map_id']

theorem Reference.relabel_eq_self (spans : ∀ span, r.span span = span) {target : Reference}
    (same : r.id target.id = target.id) : target.relabel r = target := by
  rw [Reference.relabel, same, Ident.relabel_eq_self spans]

mutual

theorem Expr.relabel_eq_self (spans : ∀ span, r.span span = span) :
    ∀ e : Expr, (∀ i ∈ e.ids, r.id i = i) → e.relabel r = e
  | .literal id _ _, same => by rw [Expr.relabel, spans, same id (by simp [Expr.ids])]
  | .ref target, same => by
    rw [Expr.relabel, Reference.relabel_eq_self spans (same target.id (by simp [Expr.ids]))]
  | .assign id name value, same => by
    simp only [Expr.ids, List.forall_mem_append, List.forall_mem_singleton] at same
    rw [Expr.relabel, value.relabel_eq_self spans same.1, name.relabel_eq_self spans, same.2]
  | .binary id _ _ left right, same | .logical id _ _ left right, same => by
    simp only [Expr.ids, List.forall_mem_append, List.forall_mem_singleton] at same
    rw [Expr.relabel, left.relabel_eq_self spans same.1.1,
      right.relabel_eq_self spans same.1.2, spans, same.2]
  | .unary id _ _ operand, same => by
    simp only [Expr.ids, List.forall_mem_append, List.forall_mem_singleton] at same
    rw [Expr.relabel, operand.relabel_eq_self spans same.1, spans, same.2]
  | .call id _ callee args, same => by
    simp only [Expr.ids, List.forall_mem_append, List.forall_mem_singleton] at same
    rw [Expr.relabel, callee.relabel_eq_self spans same.1.1,
      Expr.relabelAll_eq_self spans args same.1.2, spans, same.2]
  | .group id _ inner, same => by
    simp only [Expr.ids, List.forall_mem_append, List.forall_mem_singleton] at same
    rw [Expr.relabel, inner.relabel_eq_self spans same.1, spans, same.2]
  | .get id object name, same => by
    simp only [Expr.ids, List.forall_mem_append, List.forall_mem_singleton] at same
    rw [Expr.relabel, object.relabel_eq_self spans same.1, name.relabel_eq_self spans, same.2]
  | .set id object name value, same => by
    simp only [Expr.ids, List.forall_mem_append, List.forall_mem_singleton] at same
    rw [Expr.relabel, object.relabel_eq_self spans same.1.1, value.relabel_eq_self spans same.1.2,
      name.relabel_eq_self spans, same.2]
  | .this id _, same => by rw [Expr.relabel, spans, same id (by simp [Expr.ids])]
  | .super id _ method, same => by
    rw [Expr.relabel, spans, method.relabel_eq_self spans, same id (by simp [Expr.ids])]

theorem Expr.relabelAll_eq_self (spans : ∀ span, r.span span = span) :
    ∀ es : List Expr, (∀ i ∈ Expr.idsAll es, r.id i = i) → Expr.relabelAll r es = es
  | [], _ => by rw [Expr.relabelAll]
  | e :: rest, same => by
    simp only [Expr.idsAll, List.forall_mem_append] at same
    rw [Expr.relabelAll, e.relabel_eq_self spans same.1, Expr.relabelAll_eq_self spans rest same.2]

end

theorem Expr.map_relabel_eq_self (spans : ∀ span, r.span span = span) {e : Option Expr}
    (same : ∀ i ∈ Expr.idsOption e, r.id i = i) : e.map (Expr.relabel r) = e := by
  cases e with
  | none => rfl
  | some e => exact congrArg some (e.relabel_eq_self spans same)

namespace Stmt

mutual

theorem relabel_eq_self (spans : ∀ span, r.span span = span) :
    ∀ s : Stmt, (∀ i ∈ s.ids, r.id i = i) → s.relabel r = s
  | .expr value, same | .print value, same => by rw [relabel, value.relabel_eq_self spans same]
  | .var name initial, same => by
    rw [relabel, name.relabel_eq_self spans, Expr.map_relabel_eq_self spans (e := initial) same]
  | .block body, same => by rw [relabel, relabelAll_eq_self spans body same]
  | .if condition yes none, same => by
    simp only [ids, List.forall_mem_append] at same
    rw [relabel, condition.relabel_eq_self spans same.1, yes.relabel_eq_self spans same.2]
  | .if condition yes (some no), same => by
    simp only [ids, List.forall_mem_append] at same
    rw [relabel, condition.relabel_eq_self spans same.1.1, yes.relabel_eq_self spans same.1.2,
      no.relabel_eq_self spans same.2]
  | .while condition body, same => by
    simp only [ids, List.forall_mem_append] at same
    rw [relabel, condition.relabel_eq_self spans same.1, body.relabel_eq_self spans same.2]
  | .fun routine, same => by rw [relabel, relabelRoutine_eq_self spans routine same]
  | .return _ value, same => by
    rw [relabel, spans, Expr.map_relabel_eq_self spans (e := value) same]
  | .class name none methods, same => by
    rw [relabel, name.relabel_eq_self spans, relabelMethods_eq_self spans methods same]
    rfl
  | .class name (some superclass) methods, same => by
    simp only [ids, Option.map_some, Option.toList_some, List.forall_mem_append,
      List.forall_mem_singleton] at same
    rw [relabel, name.relabel_eq_self spans, relabelMethods_eq_self spans methods same.2,
      Option.map_some, Reference.relabel_eq_self spans same.1]

theorem relabelAll_eq_self (spans : ∀ span, r.span span = span) :
    ∀ body : List Stmt, (∀ i ∈ idsAll body, r.id i = i) → relabelAll r body = body
  | [], _ => by rw [relabelAll]
  | s :: rest, same => by
    simp only [idsAll, List.forall_mem_append] at same
    rw [relabelAll, s.relabel_eq_self spans same.1, relabelAll_eq_self spans rest same.2]

theorem relabelRoutine_eq_self (spans : ∀ span, r.span span = span) :
    ∀ routine : Routine (List Stmt), (∀ i ∈ idsOfRoutine routine, r.id i = i) →
      relabelRoutine r routine = routine
  | ⟨name, params, body⟩, same => by
    rw [relabelRoutine, relabelAll_eq_self spans body same, name.relabel_eq_self spans,
      Ident.map_relabel_eq_self spans]

theorem relabelMethods_eq_self (spans : ∀ span, r.span span = span) :
    ∀ methods : List (Routine (List Stmt)), (∀ i ∈ idsOfMethods methods, r.id i = i) →
      relabelMethods r methods = methods
  | [], _ => by rw [relabelMethods]
  | method :: rest, same => by
    simp only [idsOfMethods, List.forall_mem_append] at same
    rw [relabelMethods, relabelRoutine_eq_self spans method same.1,
      relabelMethods_eq_self spans rest same.2]

end

end Stmt

end Fixed

end Lox
