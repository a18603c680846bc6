import Lox.Proofs.Syntax.Uses
import Lox.Scope.Resolve

set_option autoImplicit false

/-!
# Rules of scoping

A program walked with the scopes around each point of it, as a list of names for each scope. `Rules`
say what must hold where a name is used and where one is declared; a program obeys them if that
holds at every use and every declaration in it, and if no declaration stands as the body of an `if`
or `while` statement, where it would be executed or not without a scope of its own.
-/

namespace Lox.Scope

variable {scopes : List Names} {name other : String}

/-- Sets a name of the innermost scope. -/
def mark (scopes : List Names) (name : String) (complete : Bool) : List Names :=
  match scopes with
  | [] => []
  | innermost :: outer => innermost.insert name complete :: outer

def markAll (scopes : List Names) (names : List String) : List Names :=
  names.foldl (fun scopes name => mark scopes name true) scopes

/-- The innermost scope with a name: how many scopes out it lies, and whether the declaration of the
name is complete. -/
def locate? : List Names → String → Option (Nat × Bool)
  | [], _ => none
  | names :: outer, name =>
    match names.find? name with
    | some complete => some (0, complete)
    | none => (locate? outer name).map fun found => (found.1 + 1, found.2)

def thisScope : Names := (∅ : Names).insert "this" true

/-- The scope around the methods of a subclass that lies outside of `thisScope`. -/
def superScope : Names := (∅ : Names).insert "super" true

def classScopes (scopes : List Names) : Option Reference → List Names
  | some _ => thisScope :: superScope :: scopes
  | none => thisScope :: scopes

def paramNames (params : List Ident) : Names :=
  params.foldl (fun names param => names.insert param.text true) ∅

/-- What must hold at a use of a name and at a declaration, given the scopes around it, and of a
class and its superclass clause. -/
structure Rules where
  use : List Names → Use → Prop
  declaration : List Names → Ident → Prop
  superclass : Ident → Reference → Prop

/-- No variable has a reserved name. -/
def Rules.plain : Rules where
  use _ u := u.kind = .read ∨ u.kind = .write → ¬IsReserved u.name
  declaration _ name := ¬IsReserved name.text
  superclass _ _ := True

structure Rules.Implies (rules weaker : Rules) : Prop where
  use : ∀ {scopes u}, rules.use scopes u → weaker.use scopes u
  declaration : ∀ {scopes name}, rules.declaration scopes name → weaker.declaration scopes name
  superclass : ∀ {name reference}, rules.superclass name reference →
    weaker.superclass name reference

@[simp] theorem mark_nil (name : String) (complete : Bool) : mark [] name complete = [] := rfl

@[simp] theorem mark_cons (innermost : Names) (outer : List Names) (name : String)
    (complete : Bool) :
    mark (innermost :: outer) name complete = innermost.insert name complete :: outer := rfl

theorem markAll_cons (innermost : Names) (outer : List Names) (names : List String) :
    markAll (innermost :: outer) names =
      names.foldl (fun innermost name => innermost.insert name true) innermost :: outer := by
  induction names generalizing innermost with
  | nil => rfl
  | cons name rest inductionHypothesis => exact inductionHypothesis _

/-- The later mark of a name counts. -/
theorem mark_mark (scopes : List Names) (name : String) (first second : Bool) :
    mark (mark scopes name first) name second = mark scopes name second := by
  cases scopes with
  | nil => rfl
  | cons innermost outer => simp [Bindings.insert_insert]

@[simp] theorem locate?_nil (name : String) : locate? [] name = none := rfl

theorem locate?_cons_of_some {names : Names} {complete : Bool}
    (found : names.find? name = some complete) :
    locate? (names :: scopes) name = some (0, complete) := by
  simp [locate?, found]

theorem locate?_cons_of_none {names : Names} (missing : names.find? name = none) :
    locate? (names :: scopes) name = (locate? scopes name).map fun found =>
      (found.1 + 1, found.2) := by
  simp [locate?, missing]

/-- The scope that was located is there, and has the name. -/
theorem exists_of_locate? {depth : Nat} {complete : Bool}
    (found : locate? scopes name = some (depth, complete)) :
    ∃ names, scopes[depth]? = some names ∧ names.find? name = some complete := by
  induction scopes generalizing depth with
  | nil => simp at found
  | cons names outer inductionHypothesis =>
    cases here : names.find? name with
    | some known =>
      rw [locate?_cons_of_some here] at found
      obtain ⟨rfl, rfl⟩ : 0 = depth ∧ known = complete := by simpa using found
      exact ⟨names, rfl, here⟩
    | none =>
      rw [locate?_cons_of_none here] at found
      obtain ⟨⟨depth, complete⟩, outside, equality⟩ := Option.map_eq_some_iff.mp found
      obtain ⟨rfl, rfl⟩ := Prod.mk.inj equality
      simpa using inductionHypothesis outside

/-- A name is set where it is located. -/
theorem locate?_mark_self {names : Names} (complete : Bool) :
    locate? (mark (names :: scopes) name complete) name = some (0, complete) :=
  locate?_cons_of_some (Bindings.find?_insert_self _ _ _)

theorem locate?_mark_of_ne (complete : Bool) (different : other ≠ name) :
    locate? (mark scopes name complete) other = locate? scopes other := by
  cases scopes with
  | nil => rfl
  | cons names outer => simp [locate?, Bindings.find?_insert_of_ne names complete different]

end Lox.Scope

namespace Lox

open Scope (Names Rules mark)

mutual

def Expr.Obeys (rules : Rules) (scopes : List Names) : Expr → Prop
  | .literal .. => True
  | .ref target => rules.use scopes (.read target)
  | .assign id name value => value.Obeys rules scopes ∧ rules.use scopes (.write id name)
  | .binary _ _ _ left right => left.Obeys rules scopes ∧ right.Obeys rules scopes
  | .logical _ _ _ left right => left.Obeys rules scopes ∧ right.Obeys rules scopes
  | .unary _ _ _ operand => operand.Obeys rules scopes
  | .call _ _ callee args => callee.Obeys rules scopes ∧ Expr.AllObey rules scopes args
  | .group _ _ inner => inner.Obeys rules scopes
  | .get _ object _ => object.Obeys rules scopes
  | .set _ object _ value => object.Obeys rules scopes ∧ value.Obeys rules scopes
  | .this id _ => rules.use scopes (.this id)
  | .super id .. => rules.use scopes (.super id)

def Expr.AllObey (rules : Rules) (scopes : List Names) : List Expr → Prop
  | [] => True
  | e :: rest => e.Obeys rules scopes ∧ Expr.AllObey rules scopes rest

end

def Expr.OptionObeys (rules : Rules) (scopes : List Names) : Option Expr → Prop
  | some e => e.Obeys rules scopes
  | none => True

def Ident.AllObey (rules : Rules) (scopes : List Names) (names : Names) : List Ident → Prop
  | [] => True
  | param :: rest =>
    rules.declaration (names :: scopes) param ∧
      Ident.AllObey rules scopes (names.insert param.text true) rest

namespace Stmt

/-- The scopes behind a statement. -/
def scopesAfter (scopes : List Names) (s : Stmt) : List Names :=
  match s.declared? with
  | some name => mark scopes name.text true
  | none => scopes

mutual

def Obeys (rules : Rules) (scopes : List Names) : Stmt → Prop
  | .expr value => value.Obeys rules scopes
  | .print value => value.Obeys rules scopes
  | .var name initial =>
    rules.declaration scopes name ∧ Expr.OptionObeys rules (mark scopes name.text false) initial
  | .block body => AllObey rules (∅ :: scopes) body
  | .if condition yes none =>
    condition.Obeys rules scopes ∧ yes.declared? = none ∧ yes.Obeys rules scopes
  | .if condition yes (some no) =>
    condition.Obeys rules scopes ∧ (yes.declared? = none ∧ yes.Obeys rules scopes) ∧
      no.declared? = none ∧ no.Obeys rules scopes
  | .while condition body =>
    condition.Obeys rules scopes ∧ body.declared? = none ∧ body.Obeys rules scopes
  | .fun routine =>
    rules.declaration scopes routine.name ∧
      RoutineObeys rules (mark scopes routine.name.text true) routine
  | .return _ value => Expr.OptionObeys rules scopes value
  | .class name superclass methods =>
    rules.declaration scopes name ∧
      (∀ reference ∈ superclass,
        rules.use scopes (.read reference) ∧ rules.superclass name reference) ∧
      MethodsObey rules (Scope.classScopes (mark scopes name.text true) superclass) methods

def AllObey (rules : Rules) (scopes : List Names) : List Stmt → Prop
  | [] => True
  | s :: rest => s.Obeys rules scopes ∧ AllObey rules (s.scopesAfter scopes) rest

def RoutineObeys (rules : Rules) (scopes : List Names) : Routine (List Stmt) → Prop
  | ⟨_, params, body⟩ =>
    Ident.AllObey rules scopes ∅ params ∧ AllObey rules (Scope.paramNames params :: scopes) body

def MethodsObey (rules : Rules) (scopes : List Names) : List (Routine (List Stmt)) → Prop
  | [] => True
  | method :: rest => RoutineObeys rules scopes method ∧ MethodsObey rules scopes rest

end

end Stmt

theorem Stmt.routineObeys_iff {rules : Rules} {scopes : List Names}
    {routine : Routine (List Stmt)} :
    Stmt.RoutineObeys rules scopes routine ↔
      Ident.AllObey rules scopes ∅ routine.params ∧
        Stmt.AllObey rules (Scope.paramNames routine.params :: scopes) routine.body := by
  cases routine
  rfl

theorem Ident.AllObey.forall {rules : Rules} {scopes : List Names} {names : Names}
    {params : List Ident} {holds : Ident → Prop} (obey : Ident.AllObey rules scopes names params)
    (implied : ∀ {scopes name}, rules.declaration scopes name → holds name) :
    ∀ param ∈ params, holds param := by
  induction params generalizing names with
  | nil => simp
  | cons param rest inductionHypothesis =>
    exact List.forall_mem_cons.mpr ⟨implied obey.1, inductionHypothesis obey.2⟩

def Program.Obeys (rules : Rules) (program : Program) : Prop :=
  Stmt.AllObey rules [] program

section Monotone

variable {rules weaker : Rules}

mutual

theorem Expr.Obeys.mono (implied : rules.Implies weaker) {scopes : List Names} :
    ∀ {e : Expr}, e.Obeys rules scopes → e.Obeys weaker scopes
  | .literal .., _ => trivial
  | .ref _, obeys => implied.use obeys
  | .assign .., obeys => ⟨obeys.1.mono implied, implied.use obeys.2⟩
  | .binary .., obeys | .logical .., obeys => ⟨obeys.1.mono implied, obeys.2.mono implied⟩
  | .unary _ _ _ operand, obeys => Expr.Obeys.mono implied (e := operand) obeys
  | .call .., obeys => ⟨obeys.1.mono implied, Expr.AllObey.mono implied obeys.2⟩
  | .group _ _ inner, obeys => Expr.Obeys.mono implied (e := inner) obeys
  | .get _ object _, obeys => Expr.Obeys.mono implied (e := object) obeys
  | .set .., obeys => ⟨obeys.1.mono implied, obeys.2.mono implied⟩
  | .this .., obeys => implied.use obeys
  | .super .., obeys => implied.use obeys

theorem Expr.AllObey.mono (implied : rules.Implies weaker) {scopes : List Names} :
    ∀ {es : List Expr}, Expr.AllObey rules scopes es → Expr.AllObey weaker scopes es
  | [], _ => trivial
  | _ :: _, obeys => ⟨obeys.1.mono implied, Expr.AllObey.mono implied obeys.2⟩

end

theorem Expr.OptionObeys.mono (implied : rules.Implies weaker) {scopes : List Names}
    {e : Option Expr} (obeys : Expr.OptionObeys rules scopes e) :
    Expr.OptionObeys weaker scopes e := by
  cases e with
  | none => trivial
  | some e => exact Expr.Obeys.mono implied (e := e) obeys

theorem Ident.AllObey.mono (implied : rules.Implies weaker) {scopes : List Names} {names : Names}
    {params : List Ident} (obeys : Ident.AllObey rules scopes names params) :
    Ident.AllObey weaker scopes names params := by
  induction params generalizing names with
  | nil => trivial
  | cons param rest inductionHypothesis =>
    exact ⟨implied.declaration obeys.1, inductionHypothesis obeys.2⟩

namespace Stmt

mutual

theorem Obeys.mono (implied : rules.Implies weaker) {scopes : List Names} :
    ∀ {s : Stmt}, s.Obeys rules scopes → s.Obeys weaker scopes
  | .expr _, obeys => Expr.Obeys.mono implied obeys
  | .print _, obeys => Expr.Obeys.mono implied obeys
  | .var .., obeys => ⟨implied.declaration obeys.1, obeys.2.mono implied⟩
  | .block _, obeys => AllObey.mono implied obeys
  | .if _ _ none, obeys => ⟨obeys.1.mono implied, obeys.2.1, Obeys.mono implied obeys.2.2⟩
  | .if _ _ (some _), obeys =>
    ⟨obeys.1.mono implied, ⟨obeys.2.1.1, Obeys.mono implied obeys.2.1.2⟩, obeys.2.2.1,
      Obeys.mono implied obeys.2.2.2⟩
  | .while .., obeys => ⟨obeys.1.mono implied, obeys.2.1, Obeys.mono implied obeys.2.2⟩
  | .fun _, obeys => ⟨implied.declaration obeys.1, RoutineObeys.mono implied obeys.2⟩
  | .return .., obeys => Expr.OptionObeys.mono implied obeys
  | .class .., obeys =>
    ⟨implied.declaration obeys.1,
      fun reference member => (obeys.2.1 reference member).imp implied.use implied.superclass,
      MethodsObey.mono implied obeys.2.2⟩

theorem AllObey.mono (implied : rules.Implies weaker) {scopes : List Names} :
    ∀ {body : List Stmt}, AllObey rules scopes body → AllObey weaker scopes body
  | [], _ => trivial
  | _ :: _, obeys => ⟨Obeys.mono implied obeys.1, AllObey.mono implied obeys.2⟩

theorem RoutineObeys.mono (implied : rules.Implies weaker) {scopes : List Names} :
    ∀ {routine : Routine (List Stmt)}, RoutineObeys rules scopes routine →
      RoutineObeys weaker scopes routine
  | ⟨_, _, _⟩, obeys => ⟨obeys.1.mono implied, AllObey.mono implied obeys.2⟩

theorem MethodsObey.mono (implied : rules.Implies weaker) {scopes : List Names} :
    ∀ {methods : List (Routine (List Stmt))}, MethodsObey rules scopes methods →
      MethodsObey weaker scopes methods
  | [], _ => trivial
  | _ :: _, obeys => ⟨RoutineObeys.mono implied obeys.1, MethodsObey.mono implied obeys.2⟩

end

end Stmt

end Monotone

end Lox
