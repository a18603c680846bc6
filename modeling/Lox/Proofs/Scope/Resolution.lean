import Lox.Proofs.Scope.Violations

set_option autoImplicit false

/-!
# What resolving promises

The rules that an accepted program obeys. Every use of a name has the depth on record at which the
scopes around it have the name, and no depth if they do not have it. The declaration found there is
complete, with one exception: an assignment to a local variable inside the initializer of that
variable finds the declaration that is still going on, at depth 0.

The rules are read off the occurrences of the program: none of them breaks a rule of scoping, and
the depth on record for each is the one at which its place sees the name.
-/

namespace Lox

open Scope (Names Occurrence Place Rules State mark locate?)

namespace Scope

structure Resolution where
  table : Depths
  /-- The assignments to a local variable inside its own initializer. -/
  own : ExprId → Prop
  /-- A bound on the numbers of the expressions. -/
  bound : Nat

/-- The declaration of a name that a use finds is complete. -/
def Complete (scopes : List Names) (name : String) : Prop :=
  ∀ depth complete, locate? scopes name = some (depth, complete) → complete = true

namespace Resolution

/-- What the scopes around a use hold, by the kind of the use. -/
def Permits (r : Resolution) (scopes : List Names) (u : Use) : Prop :=
  match u.kind with
  | .read => Complete scopes u.name
  | .write =>
    ¬IsReserved u.name ∧ (r.own u.id → locate? scopes u.name = some (0, false)) ∧
      (¬r.own u.id → Complete scopes u.name)
  | .this => ∃ depth, locate? scopes u.name = some (depth, true)
  | .super =>
    ∃ depth, locate? scopes u.name = some (depth + 1, true) ∧
      locate? scopes "this" = some (depth, true)

structure Agrees (r : Resolution) (scopes : List Names) (u : Use) : Prop where
  bound : u.id < r.bound
  depth : r.table[u.id]? = (locate? scopes u.name).map Prod.fst
  permitted : r.Permits scopes u

/-- The rules of an accepted program. A name is declared at most once in a scope, and no class
inherits from itself. -/
def rules (r : Resolution) : Rules where
  use := r.Agrees
  declaration scopes name :=
    ¬IsReserved name.text ∧ ∀ names ∈ scopes.head?, names.find? name.text = none
  superclass name reference := reference.name.text ≠ name.text

/-- Every use finds a complete declaration, or none, but for an assignment to a variable inside its
own initializer. -/
theorem Agrees.complete {r : Resolution} {scopes : List Names} {u : Use}
    (agrees : r.Agrees scopes u)
    (regular : ¬(u.kind = .write ∧ r.own u.id)) : Complete scopes u.name := by
  obtain ⟨kind, id, name⟩ := u
  have permitted := agrees.permitted
  have unique : (∃ depth, locate? scopes name = some (depth, true)) → Complete scopes name := by
    rintro ⟨depth, located⟩ other known found
    cases located.symm.trans found
    rfl
  cases kind with
  | read => exact permitted
  | write => exact permitted.2.2 fun own => regular ⟨rfl, own⟩
  | this => exact unique permitted
  | super =>
    obtain ⟨depth, located, _⟩ := permitted
    exact unique ⟨depth + 1, located⟩

/-- The record of more programs. What it says about the numbers that were used before is the
same. -/
structure Grows (r r' : Resolution) : Prop where
  bound : r.bound ≤ r'.bound
  table : ∀ id < r.bound, r'.table[id]? = r.table[id]?
  own : ∀ id < r.bound, r'.own id ↔ r.own id

theorem Grows.implies {r r' : Resolution} (grows : r.Grows r') : r.rules.Implies r'.rules where
  use {scopes u} agrees := by
    refine ⟨agrees.bound.trans_le grows.bound, ?_, ?_⟩
    · rw [grows.table u.id agrees.bound]
      exact agrees.depth
    · have permitted := agrees.permitted
      unfold Permits at permitted ⊢
      rw [grows.own u.id agrees.bound]
      exact permitted
  declaration declared := declared
  superclass different := different

end Resolution

/-! ## The scopes while a program is resolved -/

def Settled (scopes : List Names) : Prop :=
  ∀ name, Complete scopes name

/-- The scopes inside a class hold `this`, and those inside a subclass also `super`, one further
out. -/
structure InClass (isSubclass : Option Bool) (scopes : List Names) : Prop where
  this : isSubclass ≠ none → ∃ depth, locate? scopes "this" = some (depth, true)
  super : isSubclass = some true → ∃ depth, locate? scopes "super" = some (depth + 1, true) ∧
    locate? scopes "this" = some (depth, true)

section Contexts

variable {scopes : List Names} {names : Names} {name : String} {isSubclass : Option Bool}

theorem Settled.push (settled : Settled scopes) (complete : ∀ name, names.find? name ≠ some false) :
    Settled (names :: scopes) := by
  intro name depth known found
  cases here : names.find? name with
  | some value =>
    rw [locate?_cons_of_some here] at found
    cases found
    exact Bool.eq_true_of_not_eq_false fun incomplete => complete name (incomplete ▸ here)
  | none =>
    rw [locate?_cons_of_none here] at found
    obtain ⟨⟨outerDepth, value⟩, outside, equality⟩ := Option.map_eq_some_iff.mp found
    cases equality
    exact settled name outerDepth _ outside

theorem Settled.mark_true (settled : Settled scopes) (name : String) :
    Settled (mark scopes name true) := by
  intro other depth known found
  by_cases same : other = name
  · subst same
    cases scopes with
    | nil => cases found
    | cons names outer =>
      rw [locate?_mark_self] at found
      cases found
      rfl
  · rw [locate?_mark_of_ne true same] at found
    exact settled other depth _ found

theorem settled_of_lists {around : List (List String)}
    (lists : List.Forall₂ (Lists none) scopes around) : Settled scopes := by
  induction lists with
  | nil =>
    intro name depth known found
    cases found
  | cons first _ inductionHypothesis =>
    refine inductionHypothesis.push fun name => ?_
    rw [first name]
    split <;> simp

theorem paramNames_find? (params : List Ident) (name : String) :
    (paramNames params).find? name = if name ∈ params.map Ident.text then some true else none := by
  suffices general : ∀ names : Names,
      (params.foldl (fun names param => names.insert param.text true) names).find? name =
        if name ∈ params.map Ident.text then some true else names.find? name from general ∅
  induction params with
  | nil => simp
  | cons param rest inductionHypothesis =>
    intro names
    rw [List.foldl_cons, inductionHypothesis, Bindings.find?_insert]
    by_cases later : name ∈ rest.map Ident.text <;> by_cases here : name = param.text <;>
      simp [later, here]

theorem Settled.params (settled : Settled scopes) (params : List Ident) :
    Settled (paramNames params :: scopes) := by
  refine settled.push fun name => ?_
  rw [paramNames_find?]
  split <;> simp

theorem Settled.classScopes (settled : Settled scopes) (superclass : Option Reference) :
    Settled (classScopes scopes superclass) := by
  have single : ∀ reserved name : String,
      ((∅ : Names).insert reserved true).find? name ≠ some false := by
    intro reserved name
    rw [Bindings.find?_insert]
    split <;> simp
  cases superclass with
  | none => exact settled.push (single "this")
  | some superclass => exact (settled.push (single "super")).push (single "this")

theorem InClass.push (inClass : InClass isSubclass scopes) : InClass isSubclass (∅ :: scopes) where
  this known := by
    obtain ⟨depth, found⟩ := inClass.this known
    exact ⟨depth + 1, by rw [locate?_cons_of_none rfl, found]; rfl⟩
  super known := by
    obtain ⟨depth, found, inside⟩ := inClass.super known
    refine ⟨depth + 1, ?_, ?_⟩
    · rw [locate?_cons_of_none rfl, found]
      rfl
    · rw [locate?_cons_of_none rfl, inside]
      rfl

theorem InClass.mark (inClass : InClass isSubclass scopes) (unreserved : ¬IsReserved name)
    (complete : Bool) : InClass isSubclass (mark scopes name complete) := by
  have this : "this" ≠ name := fun same => unreserved (.inl same.symm)
  have super : "super" ≠ name := fun same => unreserved (.inr same.symm)
  exact ⟨by rw [locate?_mark_of_ne complete this]; exact inClass.this,
    by rw [locate?_mark_of_ne complete this,
      locate?_mark_of_ne complete super]; exact inClass.super⟩

theorem inClass_classScopes (scopes : List Names) (superclass : Option Reference) :
    InClass (some superclass.isSome) (classScopes scopes superclass) := by
  have this : ∀ outer, locate? (thisScope :: outer) "this" = some (0, true) := fun outer =>
    locate?_cons_of_some (Bindings.find?_insert_self _ _ _)
  cases superclass with
  | none => exact ⟨fun _ => ⟨0, this _⟩, fun known => by cases known⟩
  | some superclass =>
    refine ⟨fun _ => ⟨0, this _⟩, fun _ => ⟨0, ?_, this _⟩⟩
    have hidden : thisScope.find? "super" = none := by decide
    have found : locate? (superScope :: scopes) "super" = some (0, true) :=
      locate?_cons_of_some (Bindings.find?_insert_self _ _ _)
    rw [classScopes, locate?_cons_of_none hidden, found]
    rfl

end Contexts

end Scope

namespace Stmt

theorem Obeys.declaration {rules : Rules} {scopes : List Names} {s : Stmt} {name : Ident}
    (obeys : s.Obeys rules scopes) (declared : s.declared? = some name) :
    rules.declaration scopes name := by
  cases s with
  | var | «fun» | «class» =>
    cases declared
    exact obeys.1
  | expr | print | block | «if» | «while» | «return» => cases declared

end Stmt

namespace Scope

/-! ## The scopes around a place -/

namespace Place

structure Within (p : Place) (scopes : List Names) : Prop where
  lists : ScopesList p.pending scopes p.scopes
  inClass : InClass p.class? scopes

@[simp] theorem class?_declare (p : Place) (name : String) :
    (p.declare name).class? = p.class? := by
  unfold Place.declare
  split <;> rfl

namespace Within

variable {p : Place} {scopes : List Names} {name : String}

/-- A state of the resolver at the place. -/
theorem describes (within : p.Within scopes) :
    p.Describes ⟨scopes, p.routineKind, p.classKind, ∅, #[]⟩ :=
  ⟨within.lists, rfl, rfl⟩

theorem sees_iff (within : p.Within scopes) {depth : Nat} :
    (locate? scopes name).map Prod.fst = some depth ↔ p.Sees name depth := by
  rw [← within.describes.depth?_eq_some_iff, State.depth?_eq]

theorem initializerOf_iff (within : p.Within scopes) :
    locate? scopes name = some (0, false) ↔ p.InitializerOf name := by
  rw [← within.describes.isIncomplete_iff, State.isIncomplete_iff]

/-- Only the variable whose initializer the place is in has a declaration that is not complete. -/
theorem complete (within : p.Within scopes) (other : ¬p.InitializerOf name) :
    Complete scopes name := by
  intro depth known found
  have pending := within.initializerOf_iff.not.mpr other
  have lists := within.lists
  generalize p.scopes = around at lists
  cases lists with
  | nil => cases found
  | @cons names _ _ _ _ _ rest =>
    cases here : names.find? name with
    | some value =>
      rw [locate?_cons_of_some here] at found pending
      cases found
      exact Bool.eq_true_of_not_eq_false fun incomplete => pending (by rw [incomplete])
    | none =>
      rw [locate?_cons_of_none here] at found
      obtain ⟨⟨outerDepth, value⟩, outside, equality⟩ := Option.map_eq_some_iff.mp found
      cases equality
      exact settled_of_lists rest name outerDepth _ outside

theorem declaration (within : p.Within scopes) {declared : Ident}
    (unreserved : ¬IsReserved declared.text)
    (legal : p.violation? (.declaration declared) = none) (r : Resolution) :
    r.rules.declaration scopes declared := by
  refine ⟨unreserved, fun names first => ?_⟩
  by_contra known
  have declares := within.describes.declares_iff.mp ((State.declares_iff _ _).mpr
    ⟨names, first, Option.isSome_iff_ne_none.mpr known⟩)
  rw [violation?, if_pos declares] at legal
  cases legal

theorem push (within : p.Within scopes) (settled : p.pending = none) :
    Within (.block [] :: p) (∅ :: scopes) :=
  ⟨(within.describes.push settled).scopes, within.inClass.push⟩

theorem enterRoutine (within : p.Within scopes) (settled : p.pending = none) (isMethod : Bool)
    (name : String) : Within (.routine isMethod name [] :: p) (∅ :: scopes) :=
  ⟨(within.describes.enterRoutine settled isMethod name).scopes, within.inClass.push⟩

theorem declare (within : p.Within scopes) (body : p.IsBody) (unreserved : ¬IsReserved name) :
    Within (.initializer name :: p.declare name) (mark scopes name false) := by
  have lists := within.lists
  rw [body.pending] at lists
  refine ⟨?_, ?_⟩
  · show ScopesList (some name) _ (p.declare name).scopes
    rw [body.scopes_declare]
    exact lists.declare
  · show InClass (p.declare name).class? _
    rw [class?_declare]
    exact within.inClass.mark unreserved false

theorem define (within : p.Within scopes) (body : p.IsBody) (unreserved : ¬IsReserved name) :
    (p.declare name).Within (mark scopes name true) := by
  have declared := within.declare body unreserved
  rw [← mark_mark scopes name false true]
  refine ⟨?_, declared.inClass.mark unreserved true⟩
  rw [body.declare.pending]
  exact declared.lists.define

theorem enterClass (within : p.Within scopes) (settled : p.pending = none)
    (superclass : Option Reference) :
    Within (.class superclass.isSome :: p) (classScopes scopes superclass) :=
  ⟨(within.describes.enterClass settled superclass).scopes, inClass_classScopes scopes superclass⟩

theorem after (within : p.Within scopes) (body : p.IsBody) {s : Stmt}
    (plain : s.Obeys .plain scopes) :
    (p.declareAll s.declaredNames).Within (s.scopesAfter scopes) := by
  unfold Stmt.scopesAfter
  cases declared : s.declared? with
  | none =>
    rw [s.declaredNames_eq_nil plain declared]
    exact within
  | some name =>
    rw [Stmt.declaredNames_eq_singleton declared]
    exact within.define body (plain.declaration declared)

end Within

end Place

/-! ## Occurrences on record -/

/-- An occurrence breaks no rule of scoping, and what is on record about a use is right for its
place. -/
structure Resolution.Records (r : Resolution) (p : Place) (occurrence : Occurrence) : Prop where
  legal : p.violation? occurrence = none
  bound : ∀ u span, occurrence = .use u span → u.id < r.bound
  depth : ∀ u span, occurrence = .use u span → ∀ depth, r.table[u.id]? = some depth ↔
    p.Sees u.name depth
  own : ∀ u span, occurrence = .use u span → u.kind = .write → (r.own u.id ↔ p.InitializerOf u.name)

namespace Place.Within

variable {r : Resolution} {p : Place} {scopes : List Names}

theorem agrees (within : p.Within scopes) {u : Use} {span : Span}
    (records : r.Records p (.use u span)) (permitted : r.Permits scopes u) : r.Agrees scopes u := by
  refine ⟨records.bound u span rfl, Option.ext fun depth => ?_, permitted⟩
  rw [records.depth u span rfl, within.sees_iff]

theorem read (within : p.Within scopes) {target : Reference} {span : Span}
    (records : r.Records p (.use (.read target) span)) : r.Agrees scopes (.read target) := by
  refine within.agrees records (within.complete fun pending => ?_)
  cases (if_pos pending).symm.trans records.legal

theorem write (within : p.Within scopes) {id : ExprId} {name : Ident} {span : Span}
    (records : r.Records p (.use (.write id name) span)) (unreserved : ¬IsReserved name.text) :
    r.Agrees scopes (.write id name) := by
  have own := records.own _ _ rfl rfl
  exact within.agrees records ⟨unreserved, fun known => within.initializerOf_iff.mpr (own.mp known),
    fun other => within.complete (own.not.mp other)⟩

theorem this (within : p.Within scopes) {id : ExprId} {span : Span}
    (records : r.Records p (.use (.this id) span)) : r.Agrees scopes (.this id) := by
  refine within.agrees records (within.inClass.this fun outside => ?_)
  have legal := records.legal
  simp [violation?, Use.this, outside] at legal

theorem super (within : p.Within scopes) {id : ExprId} {span : Span}
    (records : r.Records p (.use (.super id) span)) : r.Agrees scopes (.super id) := by
  refine within.agrees records (within.inClass.super ?_)
  have legal := records.legal
  cases known : p.class? with
  | none => simp [violation?, Use.super, known] at legal
  | some isSubclass => cases isSubclass <;> simp [violation?, Use.super, known] at legal ⊢

/-- The superclass clause stands where the class is declared already, but it does not name the class
itself. -/
theorem superclass (within : p.Within scopes) (body : p.IsBody) {name : Ident} {clause : Reference}
    (unreserved : ¬IsReserved name.text) {span : Span}
    (different : r.Records (p.declare name.text) (.superclass name clause.name))
    (records : r.Records (p.declare name.text) (.use (.read clause) span)) :
    r.rules.use scopes (.read clause) ∧ r.rules.superclass name clause := by
  have other : clause.name.text ≠ name.text := by
    intro same
    have legal := different.legal
    rw [violation?, if_pos same] at legal
    cases legal
  have agrees := (within.define body unreserved).read records
  have located : locate? (mark scopes name.text true) clause.name.text =
      locate? scopes clause.name.text := locate?_mark_of_ne true other
  refine ⟨⟨agrees.bound, ?_, fun depth known found => ?_⟩, other⟩
  · exact agrees.depth.trans (congrArg (Option.map Prod.fst) located)
  · exact agrees.permitted depth known (located.trans found)

end Place.Within

end Scope

/-! ## Rules of an accepted program -/

open Scope (Resolution)

section Rules

variable {r : Resolution} {p : Place} {scopes : List Names}

mutual

theorem Expr.obeys_of_records (within : p.Within scopes) : ∀ e : Expr, e.Obeys .plain scopes →
    (∀ occurrence ∈ e.occurrences, r.Records p occurrence) → e.Obeys r.rules scopes
  | .literal .., _, _ => trivial
  | .ref _, _, records => within.read (List.forall_mem_singleton.mp records)
  | .assign _ _ value, plain, records => by
    obtain ⟨target, inside⟩ := List.forall_mem_cons.mp records
    exact ⟨value.obeys_of_records within plain.1 inside, within.write target (plain.2 (.inr rfl))⟩
  | .binary _ _ _ left right, plain, records | .logical _ _ _ left right, plain, records => by
    obtain ⟨first, second⟩ := List.forall_mem_append.mp records
    exact ⟨left.obeys_of_records within plain.1 first, right.obeys_of_records within plain.2 second⟩
  | .unary _ _ _ operand, plain, records => operand.obeys_of_records within plain records
  | .call _ _ callee args, plain, records => by
    obtain ⟨first, second⟩ := List.forall_mem_append.mp records
    exact ⟨callee.obeys_of_records within plain.1 first,
      Expr.allObey_of_records within args plain.2 second⟩
  | .group _ _ inner, plain, records => inner.obeys_of_records within plain records
  | .get _ object _, plain, records => object.obeys_of_records within plain records
  | .set _ object _ value, plain, records => by
    obtain ⟨first, second⟩ := List.forall_mem_append.mp records
    exact ⟨object.obeys_of_records within plain.1 first,
      value.obeys_of_records within plain.2 second⟩
  | .this .., _, records => within.this (List.forall_mem_singleton.mp records)
  | .super .., _, records => within.super (List.forall_mem_singleton.mp records)

theorem Expr.allObey_of_records (within : p.Within scopes) : ∀ es : List Expr,
    Expr.AllObey .plain scopes es →
      (∀ occurrence ∈ Expr.occurrencesAll es, r.Records p occurrence) →
      Expr.AllObey r.rules scopes es
  | [], _, _ => trivial
  | e :: rest, plain, records => by
    obtain ⟨first, second⟩ := List.forall_mem_append.mp records
    exact ⟨e.obeys_of_records within plain.1 first,
      Expr.allObey_of_records within rest plain.2 second⟩

end

theorem Expr.optionObeys_of_records (within : p.Within scopes) (e : Option Expr)
    (plain : Expr.OptionObeys .plain scopes e)
    (records : ∀ occurrence ∈ Expr.occurrencesOption e, r.Records p occurrence) :
    Expr.OptionObeys r.rules scopes e := by
  cases e with
  | none => trivial
  | some e => exact e.obeys_of_records within plain records

def Scope.Resolution.RecordsAll (r : Resolution) (found : List (Place × Occurrence)) : Prop :=
  ∀ p occurrence, (p, occurrence) ∈ found → r.Records p occurrence

namespace Scope.Resolution.RecordsAll

theorem append {first second : List (Place × Occurrence)}
    (records : r.RecordsAll (first ++ second)) :
    r.RecordsAll first ∧ r.RecordsAll second :=
  ⟨fun p o member => records p o (List.mem_append_left _ member),
    fun p o member => records p o (List.mem_append_right _ member)⟩

theorem cons {occurrence : Occurrence} {rest : List (Place × Occurrence)}
    (records : r.RecordsAll ((p, occurrence) :: rest)) :
    r.Records p occurrence ∧ r.RecordsAll rest :=
  ⟨records p _ List.mem_cons_self, fun p o member => records p o (List.mem_cons_of_mem _ member)⟩

theorem uses {found : List Occurrence} (records : r.RecordsAll (found.map (p, ·))) :
    ∀ occurrence ∈ found, r.Records p occurrence :=
  fun _ member => records p _ (List.mem_map_of_mem member)

end Scope.Resolution.RecordsAll

theorem Ident.allObey_of_records {p : Place} {names : Names} (within : p.Within (names :: scopes))
    (body : p.IsBody) :
    ∀ params : List Ident, Ident.AllObey .plain scopes names params →
      r.RecordsAll (Ident.occurrences p params) →
      Ident.AllObey r.rules scopes names params ∧
        (p.declareAll (params.map Ident.text)).Within
          (params.foldl (fun names param => names.insert param.text true) names :: scopes)
  | [], _, _ => ⟨trivial, within⟩
  | param :: rest, plain, records => by
    obtain ⟨first, others⟩ := records.cons
    obtain ⟨obey, behind⟩ := Ident.allObey_of_records (within.define body plain.1) body.declare rest
      plain.2 others
    exact ⟨⟨within.declaration plain.1 first.legal r, obey⟩, behind⟩

namespace Stmt

mutual

theorem obeys_of_records {p : Place} {scopes : List Names} (within : p.Within scopes)
    (body : p.IsBody) : ∀ s : Stmt,
    s.Obeys .plain scopes → r.RecordsAll (s.occurrences p) → s.Obeys r.rules scopes
  | .expr value, plain, records | .print value, plain, records =>
    value.obeys_of_records within plain records.uses
  | .var _ initial, plain, records => by
    obtain ⟨declaration, inside⟩ := records.cons
    exact ⟨within.declaration plain.1 declaration.legal r,
      Expr.optionObeys_of_records (within.declare body plain.1) initial plain.2 inside.uses⟩
  | .block inner, plain, records =>
    allObey_of_records (within.push body.pending) trivial inner plain records
  | .if condition yes none, plain, records => by
    obtain ⟨asked, taken⟩ := records.append
    exact ⟨condition.obeys_of_records within plain.1 asked.uses, plain.2.1,
      obeys_of_records within body yes plain.2.2 taken⟩
  | .if condition yes (some no), plain, records => by
    obtain ⟨both, other⟩ := records.append
    obtain ⟨asked, taken⟩ := both.append
    rw [yes.declaredNames_eq_nil plain.2.1.2 plain.2.1.1] at other
    exact ⟨condition.obeys_of_records within plain.1 asked.uses,
      ⟨plain.2.1.1, obeys_of_records within body yes plain.2.1.2 taken⟩, plain.2.2.1,
      obeys_of_records within body no plain.2.2.2 other⟩
  | .while condition repeated, plain, records => by
    obtain ⟨asked, inside⟩ := records.append
    exact ⟨condition.obeys_of_records within plain.1 asked.uses, plain.2.1,
      obeys_of_records within body repeated plain.2.2 inside⟩
  | .fun routine, plain, records => by
    obtain ⟨declaration, inside⟩ := records.cons
    exact ⟨within.declaration plain.1 declaration.legal r,
      routineObeys_of_records (within.define body plain.1) body.declare.pending false
      routine plain.2
        inside⟩
  | .return _ value, plain, records =>
    Expr.optionObeys_of_records within value plain records.cons.2.uses
  | .class name superclass methods, plain, records => by
    obtain ⟨declaration, others⟩ := records.cons
    obtain ⟨clause, inside⟩ := others.append
    refine ⟨within.declaration plain.1 declaration.legal r, fun reference same => ?_,
      methodsObey_of_records
      ((within.define body plain.1).enterClass body.declare.pending superclass)
        rfl methods plain.2.2 inside⟩
    cases same
    obtain ⟨different, use⟩ := clause.cons
    exact within.superclass body plain.1 different use.cons.1

theorem allObey_of_records {p : Place} {scopes : List Names} (within : p.Within scopes)
    (body : p.IsBody) :
    ∀ statements : List Stmt,
    AllObey .plain scopes statements → r.RecordsAll (occurrencesAll p statements) →
      AllObey r.rules scopes statements
  | [], _, _ => trivial
  | s :: rest, plain, records => by
    obtain ⟨first, others⟩ := records.append
    exact ⟨obeys_of_records within body s plain.1 first,
      allObey_of_records (within.after body plain.1) (body.declareAll _) rest plain.2 others⟩

theorem routineObeys_of_records {p : Place} {scopes : List Names} (within : p.Within scopes)
    (settled : p.pending = none) (isMethod : Bool) :
    ∀ routine : Routine (List Stmt), RoutineObeys .plain scopes routine →
      r.RecordsAll (occurrencesOfRoutine p isMethod routine) → RoutineObeys r.rules scopes routine
  | ⟨name, params, statements⟩, plain, records => by
    obtain ⟨first, inside⟩ := records.append
    obtain ⟨obey, behind⟩ :=
      Ident.allObey_of_records (within.enterRoutine settled isMethod name.text)
      trivial params plain.1 first
    have body : Place.IsBody (.routine isMethod name.text [] :: p) := trivial
    exact ⟨obey, allObey_of_records behind (body.declareAll _) statements plain.2 inside⟩

theorem methodsObey_of_records {p : Place} {scopes : List Names} (within : p.Within scopes)
    (settled : p.pending = none) :
    ∀ methods : List (Routine (List Stmt)), MethodsObey .plain scopes methods →
      r.RecordsAll (occurrencesOfMethods p methods) → MethodsObey r.rules scopes methods
  | [], _, _ => trivial
  | method :: rest, plain, records => by
    obtain ⟨first, others⟩ := records.append
    exact ⟨routineObeys_of_records within settled true method plain.1 first,
      methodsObey_of_records within settled rest plain.2 others⟩

end

end Stmt

end Rules

/-! ## Programs -/

/-- The number of an assignment to a local variable inside its own initializer. It is executed
before the variable exists. -/
def Scope.Place.ownAssignment? (p : Place) : Occurrence → Option ExprId
  | .use u _ => if u.kind = .write ∧ p.InitializerOf u.name then some u.id else none
  | _ => none

namespace Program

def ownAssignments (program : Program) : List ExprId :=
  program.occurrences.filterMap fun (p, occurrence) => p.ownAssignment? occurrence

variable {program : Program} {depths : Depths}

/-- Depths are recorded for the expressions of the program only. -/
theorem resolve_keys (accepted : program.resolve = .ok depths) :
    ∀ id ∉ program.ids, depths[id]? = none := by
  intro id outside
  rw [← (Program.resolve_ok_iff.mp accepted).2,
    (Stmt.resolveAll_extends program {}).depths id outside]
  rfl

theorem mem_ids_of_occurs {p : Place} {u : Use} {span : Span}
    (occurs : (p, .use u span) ∈ program.occurrences) : u.id ∈ program.ids :=
  (Stmt.useIdsAll_subperm [] program).subset (List.mem_filterMap.mpr ⟨_, occurs, rfl⟩)

theorem mem_ownAssignments_iff {id : ExprId} : id ∈ program.ownAssignments ↔
    ∃ p u span, (p, .use u span) ∈ program.occurrences ∧ u.id = id ∧ u.kind = .write ∧
      p.InitializerOf u.name := by
  rw [ownAssignments, List.mem_filterMap]
  constructor
  · rintro ⟨⟨p, occurrence⟩, occurs, own⟩
    cases occurrence with
    | use u span =>
      obtain ⟨written, same⟩ := Option.ite_none_right_eq_some.mp own
      exact ⟨p, u, span, occurs, Option.some.inj same, written⟩
    | _ => cases own
  · rintro ⟨p, u, span, occurs, rfl, written⟩
    exact ⟨_, occurs, if_pos written⟩

theorem ownAssignments_subset (program : Program) : program.ownAssignments ⊆ program.ids := by
  intro id own
  obtain ⟨p, u, span, occurs, rfl, _⟩ := mem_ownAssignments_iff.mp own
  exact mem_ids_of_occurs occurs

/-- An accepted program obeys the rules of every record that agrees with the depths that were
found. -/
theorem resolve_obeys {r : Resolution} (accepted : program.resolve = .ok depths)
    (plain : program.Obeys .plain) (distinct : program.ids.Nodup)
    (bound : ∀ id ∈ program.ids, id < r.bound)
    (table : ∀ id ∈ program.ids, r.table[id]? = depths[id]?)
    (own : ∀ id ∈ program.ids, r.own id ↔ id ∈ program.ownAssignments) :
    program.Obeys r.rules := by
  have legal := List.filterMap_eq_nil_iff.mp (resolve_eq_ok_iff.mp accepted).1
  have top : Place.Within [] [] :=
    ⟨.nil, fun known => absurd rfl known, fun known => by cases known⟩
  refine Stmt.allObey_of_records top trivial program plain fun p occurrence occurs =>
    ⟨legal _ occurs, ?_, ?_, ?_⟩
  · rintro u span rfl
    exact bound _ (mem_ids_of_occurs occurs)
  · rintro u span rfl depth
    rw [table _ (mem_ids_of_occurs occurs)]
    exact getElem?_depths_of_occurs accepted distinct occurs
  · rintro u span rfl written
    rw [own _ (mem_ids_of_occurs occurs), mem_ownAssignments_iff]
    refine ⟨?_, fun pending => ⟨p, u, span, occurs, rfl, written, pending⟩⟩
    rintro ⟨p', u', span', other, same, _, pending⟩
    obtain ⟨rfl, rfl⟩ := Scope.eq_of_useIds_nodup (useIds_nodup distinct) occurs other same.symm
    exact pending

end Program

end Lox
