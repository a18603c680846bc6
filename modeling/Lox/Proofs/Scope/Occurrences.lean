import Lox.Proofs.Syntax.Uses
import Lox.Scope.Error

set_option autoImplicit false

/-!
# Occurrences

All that the rules of scoping speak of: declarations, uses of names, return statements and
superclass clauses, in the order of the text. With each comes its place, which says what encloses it
from the inside out, and which names each enclosing block or routine declares before it. The scopes
around a place, the nearest routine and the nearest class are read off from that. The top level
encloses everything and is no scope, so it does not count as an enclosure.

A declaration begins with its name. So the initializer of a variable, the body of a function, and
the superclass clause and the methods of a class stand behind the name that is being declared.
-/

namespace Lox

namespace Scope

inductive Enclosure where
  /-- A block that has declared some names. -/
  | block (names : List String)
  /-- A function or method, whose parameters and body are one scope, that has declared some
  names. -/
  | routine (isMethod : Bool) (name : String) (names : List String)
  /-- A class around one of its methods. -/
  | class (isSubclass : Bool)
  /-- The initializer of a variable. -/
  | initializer (name : String)
  deriving DecidableEq, Repr

/-- The names in the scopes that a construct opens, innermost first. -/
def Enclosure.scopes : Enclosure → List (List String)
  | .block names => [names]
  | .routine _ _ names => [names]
  | .class false => [["this"]]
  | .class true => [["this"], ["super"]]
  | .initializer _ => []

/-- What encloses a place, innermost first. -/
abbrev Place := List Enclosure

namespace Place

/-- The scopes around a place, innermost first, with the names that they declare before it. -/
def scopes (p : Place) : List (List String) :=
  p.flatMap Enclosure.scopes

def routine? (p : Place) : Option (Bool × String) :=
  p.findSome? fun
    | .routine isMethod name _ => some (isMethod, name)
    | _ => none

def class? (p : Place) : Option Bool :=
  p.findSome? fun
    | .class isSubclass => some isSubclass
    | _ => none

/-- The place is in the initializer of a local variable. -/
def InitializerOf (p : Place) (name : String) : Prop :=
  p.head? = some (.initializer name) ∧ p.scopes ≠ []

instance (p : Place) (name : String) : Decidable (p.InitializerOf name) :=
  inferInstanceAs (Decidable (_ ∧ _))

/-- The innermost scope with a name has so many of the scopes around the place inside of it. -/
def Sees (p : Place) (name : String) (depth : Nat) : Prop :=
  ∃ inner names outer, p.scopes = inner ++ names :: outer ∧ name ∈ names ∧
    (∀ others ∈ inner, name ∉ others) ∧ inner.length = depth

section

variable {p : Place} {name : String}

/-- The depth at which a name is seen is the position of the first scope that has it. -/
theorem sees_iff {depth : Nat} :
    p.Sees name depth ↔ p.scopes.findIdx? (name ∈ ·) = some depth := by
  rw [List.findIdx?_eq_some_iff_getElem]
  constructor
  · rintro ⟨inner, names, outer, around, membership, missing, rfl⟩
    refine ⟨by simp [around], by simp [around, membership], fun j inside => ?_⟩
    simp only [around, List.getElem_append_left inside, decide_eq_true_eq]
    exact missing _ (List.getElem_mem inside)
  · rintro ⟨inside, membership, missing⟩
    refine ⟨p.scopes.take depth, p.scopes[depth], p.scopes.drop (depth + 1), ?_,
      of_decide_eq_true membership, fun others member => ?_, ?_⟩
    · rw [← List.drop_eq_getElem_cons inside, List.take_append_drop]
    · obtain ⟨j, bound, rfl⟩ := List.getElem_of_mem member
      rw [List.length_take] at bound
      rw [List.getElem_take]
      simpa using missing j (by omega)
    · rw [List.length_take]
      omega

theorem Sees.unique {depth depth' : Nat} (first : p.Sees name depth) (second : p.Sees name depth') :
    depth = depth' := by
  rw [sees_iff] at first second
  exact Option.some.inj (first.symm.trans second)

end

/-- The place behind a declaration, which adds its name to the innermost block or routine. -/
def declare (name : String) : Place → Place
  | .block names :: outer => .block (name :: names) :: outer
  | .routine isMethod routine names :: outer => .routine isMethod routine (name :: names) :: outer
  | p => p

def declareAll (names : List String) (p : Place) : Place :=
  names.foldl (fun p name => p.declare name) p

end Place

inductive Occurrence where
  | declaration (name : Ident)
  | use (u : Use) (span : Span)
  | return (keyword : Span) (hasValue : Bool)
  /-- A superclass clause, which is also a use. -/
  | superclass (name : Ident) (clause : Ident)
  deriving DecidableEq, Repr

/-- The rule that something breaks at a place, with the word and the span that it is reported at. -/
def Place.violation? (p : Place) : Occurrence → Option ScopeError
  | .declaration name =>
    if name.text ∈ p.scopes.headD [] then some ⟨.alreadyDeclared, name.text, name.span⟩ else none
  | .use u span =>
    match u.kind with
    | .read => if p.InitializerOf u.name then some ⟨.readInOwnInitializer, u.name, span⟩ else none
    | .write => none
    | .this => if p.class? = none then some ⟨.thisOutsideClass, u.name, span⟩ else none
    | .super =>
      match p.class? with
      | none => some ⟨.superOutsideClass, u.name, span⟩
      | some false => some ⟨.superWithoutSuperclass, u.name, span⟩
      | some true => none
  | .return keyword hasValue =>
    match p.routine? with
    | none => some ⟨.topLevelReturn, "return", keyword⟩
    | some (isMethod, name) =>
      if isMethod ∧ name = "init" ∧ hasValue then
        some ⟨.valueReturnFromInitializer, "return", keyword⟩
      else none
  | .superclass name clause =>
    if clause.text = name.text then some ⟨.selfInheritance, clause.text, clause.span⟩ else none

def Occurrence.useId? : Occurrence → Option ExprId
  | .use u _ => some u.id
  | _ => none

def violations (found : List (Place × Occurrence)) : List ScopeError :=
  found.filterMap fun (p, occurrence) => p.violation? occurrence

end Scope

open Scope (Occurrence Place)

mutual

def Expr.occurrences : Expr → List Occurrence
  | .literal .. => []
  | .ref target => [.use (.read target) target.name.span]
  | .assign id name value => .use (.write id name) name.span :: value.occurrences
  | .binary _ _ _ left right => left.occurrences ++ right.occurrences
  | .logical _ _ _ left right => left.occurrences ++ right.occurrences
  | .unary _ _ _ operand => operand.occurrences
  | .call _ _ callee args => callee.occurrences ++ Expr.occurrencesAll args
  | .group _ _ inner => inner.occurrences
  | .get _ object _ => object.occurrences
  | .set _ object _ value => object.occurrences ++ value.occurrences
  | .this id span => [.use (.this id) span]
  | .super id span _ => [.use (.super id) span]

def Expr.occurrencesAll : List Expr → List Occurrence
  | [] => []
  | e :: rest => e.occurrences ++ Expr.occurrencesAll rest

end

def Expr.occurrencesOption : Option Expr → List Occurrence
  | some e => e.occurrences
  | none => []

def Ident.occurrences (p : Place) : List Ident → List (Place × Occurrence)
  | [] => []
  | param :: rest => (p, .declaration param) :: Ident.occurrences (p.declare param.text) rest

/-- A superclass clause and the use of a name in it. -/
def Reference.occurrences (p : Place) (name : Ident) : Option Reference → List (Place × Occurrence)
  | some clause => [(p, .superclass name clause.name), (p, .use (.read clause) clause.name.span)]
  | none => []

namespace Stmt

/-- The names that a statement declares in the scope around it. -/
def declaredNames : Stmt → List String
  | .var name _ => [name.text]
  | .fun routine => [routine.name.text]
  | .class name .. => [name.text]
  | .if _ yes none => yes.declaredNames
  | .if _ yes (some no) => yes.declaredNames ++ no.declaredNames
  | .while _ body => body.declaredNames
  | .expr _ | .print _ | .block _ | .return .. => []

mutual

def occurrences (p : Place) : Stmt → List (Place × Occurrence)
  | .expr value => value.occurrences.map (p, ·)
  | .print value => value.occurrences.map (p, ·)
  | .var name initial =>
    (p, .declaration name) ::
      (Expr.occurrencesOption initial).map (.initializer name.text :: p.declare name.text, ·)
  | .block body => occurrencesAll (.block [] :: p) body
  | .if condition yes none => condition.occurrences.map (p, ·) ++ yes.occurrences p
  | .if condition yes (some no) =>
    condition.occurrences.map (p, ·) ++ yes.occurrences p ++
      no.occurrences (p.declareAll yes.declaredNames)
  | .while condition body => condition.occurrences.map (p, ·) ++ body.occurrences p
  | .fun routine =>
    (p, .declaration routine.name) :: occurrencesOfRoutine
      (p.declare routine.name.text) false routine
  | .return keyword value =>
    (p, .return keyword value.isSome) :: (Expr.occurrencesOption value).map (p, ·)
  | .class name superclass methods =>
    (p, .declaration name) :: Reference.occurrences (p.declare name.text) name superclass ++
      occurrencesOfMethods (.class superclass.isSome :: p.declare name.text) methods

/-- Each statement stands behind what the ones before it declare. -/
def occurrencesAll (p : Place) : List Stmt → List (Place × Occurrence)
  | [] => []
  | s :: rest => s.occurrences p ++ occurrencesAll (p.declareAll s.declaredNames) rest

def occurrencesOfRoutine (p : Place) (isMethod : Bool) :
    Routine (List Stmt) → List (Place × Occurrence)
  | ⟨name, params, body⟩ =>
    let inside : Place := .routine isMethod name.text [] :: p
    Ident.occurrences inside params ++
      occurrencesAll (inside.declareAll (params.map Ident.text)) body

def occurrencesOfMethods (p : Place) : List (Routine (List Stmt)) → List (Place × Occurrence)
  | [] => []
  | method :: rest => occurrencesOfRoutine p true method ++ occurrencesOfMethods p rest

end

end Stmt

namespace Program

def occurrences (program : Program) : List (Place × Occurrence) :=
  Stmt.occurrencesAll [] program

def violations (program : Program) : List ScopeError :=
  Scope.violations program.occurrences

end Program

/-! ## Numbers of uses

Each use has the number of its expression, so uses in different expressions have different
numbers. -/

open Scope (Occurrence)

mutual

theorem Expr.useIds_subperm : ∀ e : Expr, (e.occurrences.filterMap Occurrence.useId?).Subperm e.ids
  | .literal .. => List.nil_subperm
  | .ref _ => .refl _
  | .assign _ _ value => by
    rw [Expr.occurrences, List.filterMap_cons, Expr.ids]
    exact ((List.subperm_cons _).mpr value.useIds_subperm).trans
      (List.perm_append_singleton _ _).symm.subperm
  | .binary _ _ _ left right | .logical _ _ _ left right => by
    rw [Expr.occurrences, List.filterMap_append, Expr.ids]
    exact (left.useIds_subperm.append right.useIds_subperm).trans
      (List.sublist_append_left _ _).subperm
  | .unary _ _ _ operand => operand.useIds_subperm.trans (List.sublist_append_left _ _).subperm
  | .call _ _ callee args => by
    rw [Expr.occurrences, List.filterMap_append, Expr.ids]
    exact (callee.useIds_subperm.append (Expr.useIdsAll_subperm args)).trans
      (List.sublist_append_left _ _).subperm
  | .group _ _ inner => inner.useIds_subperm.trans (List.sublist_append_left _ _).subperm
  | .get _ object _ => object.useIds_subperm.trans (List.sublist_append_left _ _).subperm
  | .set _ object _ value => by
    rw [Expr.occurrences, List.filterMap_append, Expr.ids]
    exact (object.useIds_subperm.append value.useIds_subperm).trans
      (List.sublist_append_left _ _).subperm
  | .this .. => .refl _
  | .super .. => .refl _

theorem Expr.useIdsAll_subperm :
    ∀ es : List Expr, ((Expr.occurrencesAll es).filterMap Occurrence.useId?).Subperm
      (Expr.idsAll es)
  | [] => List.nil_subperm
  | e :: rest => by
    rw [Expr.occurrencesAll, List.filterMap_append, Expr.idsAll]
    exact e.useIds_subperm.append (Expr.useIdsAll_subperm rest)

end

theorem Expr.useIdsOption_subperm (e : Option Expr) :
    ((Expr.occurrencesOption e).filterMap Occurrence.useId?).Subperm (Expr.idsOption e) := by
  cases e with
  | none => exact List.nil_subperm
  | some e => exact e.useIds_subperm

namespace Scope

def useIds (found : List (Place × Occurrence)) : List ExprId :=
  found.filterMap (Occurrence.useId? ∘ Prod.snd)

theorem useIds_map (p : Place) (found : List Occurrence) :
    useIds (found.map (p, ·)) = found.filterMap Occurrence.useId? := by
  rw [useIds, List.filterMap_map]
  rfl

theorem useIds_append (first second : List (Place × Occurrence)) :
    useIds (first ++ second) = useIds first ++ useIds second :=
  List.filterMap_append

theorem useIds_params (p : Place) (params : List Ident) :
    useIds (Ident.occurrences p params) = [] := by
  induction params generalizing p with
  | nil => rfl
  | cons param rest inductionHypothesis => exact inductionHypothesis _

theorem useIds_superclass (p : Place) (name : Ident) (superclass : Option Reference) :
    useIds (Reference.occurrences p name superclass) = (superclass.map Reference.id).toList := by
  cases superclass <;> rfl

/-- Uses with one number are one use where the numbers are distinct. -/
theorem eq_of_useIds_nodup {found : List (Place × Occurrence)} (distinct : (useIds found).Nodup)
    {p p' : Place} {u u' : Use} {span span' : Span} (first : (p, .use u span) ∈ found)
    (second : (p', .use u' span') ∈ found) (same : u.id = u'.id) : p = p' ∧ u = u' := by
  by_contra different
  rw [useIds, List.Nodup, List.pairwise_filterMap] at distinct
  have symmetric : Std.Symm fun a a' : Place × Occurrence =>
      ∀ i, (Occurrence.useId? ∘ Prod.snd) a = some i →
        ∀ j, (Occurrence.useId? ∘ Prod.snd) a' = some j → i ≠ j :=
    ⟨fun _ _ apart i found j known => (apart j known i found).symm⟩
  have others : (p, Occurrence.use u span) ≠ (p', Occurrence.use u' span') := by
    rintro ⟨⟩
    exact different ⟨rfl, rfl⟩
  exact distinct.forall first second others u.id rfl u'.id rfl same

end Scope

open Scope (useIds)

namespace Stmt

mutual

theorem useIds_subperm (p : Place) : ∀ s : Stmt, (useIds (s.occurrences p)).Subperm s.ids
  | .expr value | .print value => by
    rw [occurrences, Scope.useIds_map]
    exact value.useIds_subperm
  | .var name initial => by
    have initials := Expr.useIdsOption_subperm initial
    rwa [← Scope.useIds_map (.initializer name.text :: p.declare name.text)] at initials
  | .block body => useIdsAll_subperm _ body
  | .if condition yes none => by
    rw [occurrences, Scope.useIds_append, Scope.useIds_map]
    exact condition.useIds_subperm.append (useIds_subperm p yes)
  | .if condition yes (some no) => by
    rw [occurrences, Scope.useIds_append, Scope.useIds_append, Scope.useIds_map]
    exact (condition.useIds_subperm.append (useIds_subperm p yes)).append (useIds_subperm _ no)
  | .while condition body => by
    rw [occurrences, Scope.useIds_append, Scope.useIds_map]
    exact condition.useIds_subperm.append (useIds_subperm p body)
  | .fun routine => useIdsOfRoutine_subperm _ false routine
  | .return _ value => by
    have values := Expr.useIdsOption_subperm value
    rwa [← Scope.useIds_map p] at values
  | .class name superclass methods => by
    have inside := useIdsOfMethods_subperm (.class superclass.isSome :: p.declare name.text) methods
    rw [occurrences, Scope.useIds_append, ids]
    refine List.Subperm.append (List.Perm.subperm ?_) inside
    rw [← Scope.useIds_superclass (p.declare name.text) name]
    rfl

theorem useIdsAll_subperm (p : Place) :
    ∀ body : List Stmt, (useIds (occurrencesAll p body)).Subperm (idsAll body)
  | [] => List.nil_subperm
  | s :: rest => by
    rw [occurrencesAll, Scope.useIds_append, idsAll]
    exact (useIds_subperm p s).append (useIdsAll_subperm _ rest)

theorem useIdsOfRoutine_subperm (p : Place) (isMethod : Bool) : ∀ routine : Routine (List Stmt),
    (useIds (occurrencesOfRoutine p isMethod routine)).Subperm (idsOfRoutine routine)
  | ⟨_, params, body⟩ => by
    rw [occurrencesOfRoutine, Scope.useIds_append, Scope.useIds_params, idsOfRoutine]
    exact useIdsAll_subperm _ body

theorem useIdsOfMethods_subperm (p : Place) : ∀ methods : List (Routine (List Stmt)),
    (useIds (occurrencesOfMethods p methods)).Subperm (idsOfMethods methods)
  | [] => List.nil_subperm
  | method :: rest => by
    rw [occurrencesOfMethods, Scope.useIds_append, idsOfMethods]
    exact (useIdsOfRoutine_subperm p true method).append (useIdsOfMethods_subperm p rest)

end

end Stmt

end Lox
