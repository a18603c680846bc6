import Lox.Grammar.Program
import Lox.Proofs.Scope.Extension
import Lox.Proofs.Scope.Occurrences
import Lox.Token.Scan

set_option autoImplicit false

/-!
# What the resolver finds

The resolver against the places and occurrences of a program. Its scopes list the names of the
scopes around the place that it has reached; what it reports are the violations among the
occurrences that it has passed, and what it records are the depths at which their names are seen. It
does not take them in the order of the text everywhere: the value of an assignment comes before its
target. So errors are compared up to their order.
-/

namespace Lox

open Scope (Enclosure Names Occurrence Place RoutineKind ClassKind State violations)

namespace Scope

/-! ## Places -/

namespace Place

variable {p : Place} {name : String}

def IsBody : Place → Prop
  | [] => True
  | .block _ :: _ => True
  | .routine .. :: _ => True
  | .class _ :: _ => False
  | .initializer _ :: _ => False

def pending : Place → Option String
  | .initializer name :: _ => some name
  | _ => none

def routineKind (p : Place) : RoutineKind :=
  match p.routine? with
  | none => .none
  | some (false, _) => .function
  | some (true, name) => if name = "init" then .initializer else .method

def classKind (p : Place) : ClassKind :=
  match p.class? with
  | none => .none
  | some false => .base
  | some true => .subclass

theorem IsBody.pending (body : p.IsBody) : p.pending = none := by
  match p, body with
  | [], _ => rfl
  | .block _ :: _, _ => rfl
  | .routine .. :: _, _ => rfl

theorem IsBody.declare (body : p.IsBody) : (p.declare name).IsBody := by
  match p, body with
  | [], _ => trivial
  | .block _ :: _, _ => trivial
  | .routine .. :: _, _ => trivial

theorem IsBody.scopes_declare (body : p.IsBody) :
    (p.declare name).scopes = p.scopes.modifyHead (name :: ·) := by
  match p, body with
  | [], _ => rfl
  | .block _ :: _, _ => rfl
  | .routine .. :: _, _ => rfl

@[simp] theorem routineKind_declare : (p.declare name).routineKind = p.routineKind := by
  unfold Place.declare
  split <;> rfl

@[simp] theorem classKind_declare : (p.declare name).classKind = p.classKind := by
  unfold Place.declare
  split <;> rfl

theorem IsBody.declareAll (body : p.IsBody) (names : List String) :
    (p.declareAll names).IsBody := by
  induction names generalizing p with
  | nil => exact body
  | cons name rest inductionHypothesis => exact inductionHypothesis body.declare

theorem declareAll_append (first second : List String) :
    p.declareAll (first ++ second) = (p.declareAll first).declareAll second :=
  List.foldl_append

theorem declareAll_block (p : Place) (names : List String) (added : List String) :
    ∃ names', declareAll added (.block names :: p) = .block names' :: p := by
  induction added generalizing names with
  | nil => exact ⟨names, rfl⟩
  | cons name rest inductionHypothesis => exact inductionHypothesis (name :: names)

theorem declareAll_routine (p : Place) (isMethod : Bool) (routine : String) (names : List String)
    (added : List String) :
    ∃ names', declareAll added (.routine isMethod routine names :: p) =
      .routine isMethod routine names' :: p := by
  induction added generalizing names with
  | nil => exact ⟨names, rfl⟩
  | cons name rest inductionHypothesis => exact inductionHypothesis (name :: names)

end Place

/-! ## Scopes of the resolver -/

/-- A scope has the declared names, all of them complete except for the pending one. -/
def Lists (pending : Option String) (names : Names) (declared : List String) : Prop :=
  ∀ name, names.find? name = if name ∈ declared then some (decide (pending ≠ some name)) else none

/-- Only the innermost scope can have a pending name. -/
inductive ScopesList (pending : Option String) : List Names → List (List String) → Prop where
  | nil : ScopesList pending [] []
  | cons {names : Names} {declared : List String} {outer : List Names}
      {around : List (List String)} :
    Lists pending names declared → (∀ name ∈ pending, name ∈ declared) →
      List.Forall₂ (Lists none) outer around →
      ScopesList pending (names :: outer) (declared :: around)

section Scopes

variable {pending : Option String} {names : Names} {declared : List String} {scopes : List Names}
  {around : List (List String)} {name : String}

theorem lists_empty : Lists none ∅ [] := fun _ => rfl

theorem Lists.declare (lists : Lists none names declared) :
    Lists (some name) (names.insert name false) (name :: declared) := by
  intro other
  rw [Bindings.find?_insert, lists other]
  by_cases same : other = name
  · simp [same]
  · simp [same, Ne.symm same]

theorem Lists.define (lists : Lists (some name) names declared) (membership : name ∈ declared) :
    Lists none (names.insert name true) declared := by
  intro other
  rw [Bindings.find?_insert, lists other]
  by_cases same : other = name
  · simp [same, membership]
  · simp [same, Ne.symm same]

theorem Lists.contains (lists : Lists pending names declared) :
    names.contains name = decide (name ∈ declared) := by
  rw [Bindings.contains, lists name]
  by_cases membership : name ∈ declared
  · simp [membership]
  · simp [membership]

theorem Lists.find?_eq_some_false_iff (lists : Lists pending names declared) :
    names.find? name = some false ↔ name ∈ declared ∧ pending = some name := by
  rw [lists name]
  by_cases membership : name ∈ declared
  · simp [membership]
  · simp [membership]

theorem scopesList_none_iff :
    ScopesList none scopes around ↔ List.Forall₂ (Lists none) scopes around := by
  constructor
  · rintro (_ | ⟨first, _, rest⟩)
    · exact .nil
    · exact .cons first rest
  · rintro (_ | ⟨first, rest⟩)
    · exact .nil
    · exact .cons first (by simp) rest

theorem ScopesList.declare (lists : ScopesList none scopes around) :
    ScopesList (some name) (mark scopes name false) (around.modifyHead (name :: ·)) := by
  cases lists with
  | nil => exact .nil
  | cons first _ rest => exact .cons first.declare (by simp) rest

theorem ScopesList.define (lists : ScopesList (some name) scopes around) :
    ScopesList none (mark scopes name true) around := by
  cases lists with
  | nil => exact .nil
  | cons first membership rest => exact .cons (first.define (membership name rfl)) (by simp) rest

theorem findIdx?_of_lists (lists : List.Forall₂ (Lists none) scopes around) :
    scopes.findIdx? (·.contains name) = around.findIdx? (name ∈ ·) := by
  induction lists with
  | nil => rfl
  | cons first _ inductionHypothesis =>
    rw [List.findIdx?_cons, List.findIdx?_cons, first.contains, inductionHypothesis]

theorem ScopesList.findIdx? (lists : ScopesList pending scopes around) :
    scopes.findIdx? (·.contains name) = around.findIdx? (name ∈ ·) := by
  cases lists with
  | nil => rfl
  | cons first _ rest =>
    rw [List.findIdx?_cons, List.findIdx?_cons, first.contains, findIdx?_of_lists rest]

end Scopes

structure Place.Describes (p : Place) (s : State) : Prop where
  scopes : ScopesList p.pending s.scopes p.scopes
  routine : s.routine = p.routineKind
  classKind : s.classKind = p.classKind

namespace Place

variable {p : Place} {s : State} {name : String}

theorem initializerOf_iff : p.InitializerOf name ↔ p.pending = some name ∧ p.scopes ≠ [] := by
  have heads : p.head? = some (.initializer name) ↔ p.pending = some name := by
    cases p with
    | nil => simp [pending]
    | cons first rest => cases first <;> simp [pending]
  rw [InitializerOf, heads]

namespace Describes

theorem declares_iff (describes : p.Describes s) :
    s.declares name = true ↔ name ∈ p.scopes.headD [] := by
  have lists := describes.scopes
  unfold State.declares
  generalize s.scopes = scopes, p.scopes = around at lists
  cases lists with
  | nil => simp
  | cons first _ _ => simp [first.contains]

theorem isIncomplete_iff (describes : p.Describes s) :
    s.isIncomplete name = true ↔ p.InitializerOf name := by
  have lists := describes.scopes
  rw [initializerOf_iff]
  unfold State.isIncomplete
  generalize s.scopes = scopes, p.scopes = around at lists
  cases lists with
  | nil => simp
  | cons first membership _ =>
    rw [beq_iff_eq, first.find?_eq_some_false_iff]
    constructor
    · rintro ⟨_, pending⟩
      exact ⟨pending, List.cons_ne_nil _ _⟩
    · rintro ⟨pending, _⟩
      exact ⟨membership name pending, pending⟩

theorem depth?_eq_some_iff (describes : p.Describes s) {depth : Nat} :
    s.depth? name = some depth ↔ p.Sees name depth := by
  rw [sees_iff, State.depth?, describes.scopes.findIdx?]

theorem push (describes : p.Describes s) (settled : p.pending = none) :
    Describes (.block [] :: p) s.push := by
  have lists := describes.scopes
  rw [settled, scopesList_none_iff] at lists
  exact ⟨.cons lists_empty (by simp [pending]) lists, describes.routine, describes.classKind⟩

theorem declare (describes : p.Describes s) (body : p.IsBody) (declared : Ident) :
    Describes (.initializer declared.text :: p.declare declared.text) (s.declare declared) := by
  have kept := State.Extends.declare s declared
  refine ⟨?_, ?_, ?_⟩
  · have lists := describes.scopes
    rw [body.pending] at lists
    rw [State.declare_scopes]
    show ScopesList _ _ (Place.scopes (p.declare _))
    rw [body.scopes_declare]
    exact lists.declare
  · exact (kept.routine.trans describes.routine).trans routineKind_declare.symm
  · exact (kept.classKind.trans describes.classKind).trans classKind_declare.symm

theorem define {declared : Ident} (describes : Describes (.initializer declared.text :: p) s)
    (settled : p.pending = none) : p.Describes (s.define declared) := by
  have kept := State.Extends.define s declared
  refine ⟨?_, kept.routine.trans describes.routine, kept.classKind.trans describes.classKind⟩
  rw [State.define_scopes, settled]
  exact describes.scopes.define

end Describes

end Place

/-! ## Steps of the resolver -/

/-- Some occurrence with this number sees its name at a depth. -/
def Seen (found : List (Place × Occurrence)) (id : ExprId) (depth : Nat) : Prop :=
  ∃ p u span, (p, .use u span) ∈ found ∧ u.id = id ∧ p.Sees u.name depth

structure Records (found : List (Place × Occurrence)) (before after : Depths) : Prop where
  entry : ∀ {id depth}, after[id]? = some depth → before[id]? = some depth ∨ Seen found id depth
  known : ∀ {id}, id ∈ before → id ∈ after
  seen : ∀ {id depth}, Seen found id depth → id ∈ after

/-- The resolver passes some occurrences and reaches a place. What it records matters only if it
reports nothing. -/
structure Finds (q : Place) (found : List (Place × Occurrence)) (s s' : State) : Prop where
  place : q.Describes s'
  errors : s'.errors.toList.Perm (s.errors.toList ++ violations found)
  depths : violations found = [] → Records found s.depths s'.depths

theorem violations_append (first second : List (Place × Occurrence)) :
    violations (first ++ second) = violations first ++ violations second :=
  List.filterMap_append

theorem seen_append {first second : List (Place × Occurrence)} {id : ExprId} {depth : Nat} :
    Seen (first ++ second) id depth ↔ Seen first id depth ∨ Seen second id depth := by
  simp only [Seen, List.mem_append, or_and_right, exists_or]

namespace Records

variable {first second : List (Place × Occurrence)} {before middle after : Depths}

theorem trans (left : Records first before middle) (right : Records second middle after) :
    Records (first ++ second) before after where
  entry found := by
    rw [seen_append]
    rcases right.entry found with earlier | seen
    · rcases left.entry earlier with known | seen
      · exact .inl known
      · exact .inr (.inl seen)
    · exact .inr (.inr seen)
  known member := right.known (left.known member)
  seen found := by
    rcases seen_append.mp found with earlier | later
    · exact right.known (left.seen earlier)
    · exact right.seen later

theorem perm (records : Records first before after) (reordered : first.Perm second) :
    Records second before after where
  entry found := by
    rcases records.entry found with known | ⟨p, u, span, member, seen⟩
    · exact .inl known
    · exact .inr ⟨p, u, span, reordered.mem_iff.mp member, seen⟩
  known := records.known
  seen := by
    rintro id depth ⟨p, u, span, member, seen⟩
    exact records.seen ⟨p, u, span, reordered.mem_iff.mpr member, seen⟩

/-- Nothing is recorded for what is no use. -/
theorem of_no_use (unused : ∀ p u span, (p, .use u span) ∉ first) (table : Depths) :
    Records first table table where
  entry := .inl
  known := id
  seen := by
    rintro id depth ⟨p, u, span, member, _⟩
    exact absurd member (unused p u span)

end Records

namespace Finds

variable {p q r : Place} {first second : List (Place × Occurrence)} {s s' s'' : State}

theorem trans (left : Finds q first s s') (right : Finds r second s' s'') :
    Finds r (first ++ second) s s'' where
  place := right.place
  errors := by
    rw [violations_append, ← List.append_assoc]
    exact right.errors.trans (left.errors.append_right _)
  depths clean := by
    rw [violations_append, List.append_eq_nil_iff] at clean
    exact (left.depths clean.1).trans (right.depths clean.2)

theorem perm (finds : Finds q first s s') (reordered : first.Perm second) :
    Finds q second s s' where
  place := finds.place
  errors := finds.errors.trans ((reordered.filterMap _).append_left _)
  depths clean := by
    have same : (violations first).Perm (violations second) := reordered.filterMap _
    rw [clean] at same
    exact (finds.depths same.eq_nil).perm reordered

/-- A step that passes nothing. -/
theorem silent (place : q.Describes s') (errors : s'.errors = s.errors)
    (depths : s'.depths = s.depths) : Finds q [] s s' where
  place := place
  errors := by simp [errors, violations]
  depths _ := by
    rw [depths]
    exact Records.of_no_use (by simp) _

/-- A step that passes nothing comes last. -/
theorem reach (finds : Finds q first s s') (place : r.Describes s'')
    (errors : s''.errors = s'.errors) (depths : s''.depths = s'.depths) : Finds r first s s'' := by
  have reached := finds.trans (silent place errors depths)
  rwa [List.append_nil] at reached

/-- A step that passes one occurrence. -/
theorem single {occurrence : Occurrence} (place : q.Describes s')
    (errors : s'.errors.toList = s.errors.toList ++ (p.violation? occurrence).toList)
    (depths : p.violation? occurrence = none → Records [(p, occurrence)] s.depths s'.depths) :
    Finds q [(p, occurrence)] s s' := by
  have alone : violations [(p, occurrence)] = (p.violation? occurrence).toList := by
    unfold violations
    cases violation : p.violation? occurrence with
    | none => simp [violation]
    | some error => simp [violation]
  refine ⟨place, by rw [errors, alone], fun clean => depths ?_⟩
  rwa [alone, Option.toList_eq_nil_iff] at clean

/-- The error of a report that is made under a condition. -/
theorem errors_report {reported violating : Prop} [Decidable reported] [Decidable violating]
    (same : reported ↔ violating) (cause : ScopeError.Cause) (lexeme : String) (span : Span) :
    (if reported then s.report cause lexeme span else s).errors.toList =
      s.errors.toList ++
        (if violating then some (⟨cause, lexeme, span⟩ : ScopeError) else none).toList := by
  by_cases violation : violating
  · simp [same.mpr violation, violation, State.report]
  · simp [mt same.mp violation, violation]

theorem declare (describes : p.Describes s) (body : p.IsBody) (name : Ident) :
    Finds (.initializer name.text :: p.declare name.text) [(p, .declaration name)] s
      (s.declare name) := by
  refine single (describes.declare body name) ?_ fun _ => ?_
  · rw [State.declare, State.mark_errors]
    exact errors_report describes.declares_iff _ _ _
  · have kept : (s.declare name).depths = s.depths := by
      unfold State.declare
      split <;> simp [State.report]
    rw [kept]
    exact Records.of_no_use (by simp) _

theorem define {name : Ident} (finds : Finds (.initializer name.text :: p) first s s')
    (settled : p.pending = none) : Finds p first s (s'.define name) :=
  finds.reach (finds.place.define settled) (s'.mark_errors _ _) (s'.mark_depths _ _)

theorem declare_define (describes : p.Describes s) (body : p.IsBody) (name : Ident) :
    Finds (p.declare name.text) [(p, .declaration name)] s ((s.declare name).define name) :=
  have declared := declare describes body name
  define declared body.declare.pending

/-- What noting the depth of a use adds to the table. -/
theorem records_resolve {u : Use} {span : Span} (describes : p.Describes s) :
    Records [(p, .use u span)] s.depths (s.resolve u.id u.name).depths := by
  have alone {id : ExprId} {depth : Nat} (seen : Seen [(p, .use u span)] id depth) :
      u.id = id ∧ p.Sees u.name depth := by
    obtain ⟨p', u', span', member, same, sees⟩ := seen
    obtain ⟨rfl, rfl, rfl⟩ : p' = p ∧ u' = u ∧ span' = span := by simpa using member
    exact ⟨same, sees⟩
  unfold State.resolve
  cases found : s.depth? u.name with
  | none =>
    refine ⟨.inl, id, fun seen => ?_⟩
    have impossible := describes.depth?_eq_some_iff.mpr (alone seen).2
    simp [found] at impossible
  | some depth =>
    refine ⟨fun {id entry} present => ?_, fun member => by simp [member], fun seen => ?_⟩
    · rw [Std.ExtTreeMap.getElem?_insert] at present
      by_cases same : u.id = id
      · obtain rfl : depth = entry := by simpa [same] using present
        exact .inr ⟨p, u, span, List.mem_singleton_self _, same,
          describes.depth?_eq_some_iff.mp found⟩
      · exact .inl (by simpa [same] using present)
    · simp [(alone seen).1]

theorem describes_resolve (describes : p.Describes s) (id : ExprId) (name : String) :
    p.Describes (s.resolve id name) := by
  have kept := State.Extends.resolve s id name
  refine ⟨?_, kept.routine.trans describes.routine, kept.classKind.trans describes.classKind⟩
  rw [State.resolve_scopes]
  exact describes.scopes

theorem write (describes : p.Describes s) (id : ExprId) (name : Ident) :
    Finds p [(p, .use (.write id name) name.span)] s (s.resolve id name.text) := by
  refine single (describes_resolve describes id name.text) ?_ fun _ => ?_
  · simp [Place.violation?, Use.write]
  · exact records_resolve (u := .write id name) describes

theorem describes_report (describes : p.Describes s) (cause : ScopeError.Cause) (lexeme : String)
    (span : Span) : p.Describes (s.report cause lexeme span) :=
  ⟨describes.scopes, describes.routine, describes.classKind⟩

theorem read (describes : p.Describes s) (r : Reference) :
    Finds p [(p, .use (.read r) r.name.span)] s (s.useName r) := by
  refine single ?_ ?_ fun allowed => ?_
  · refine describes_resolve ?_ r.id r.name.text
    split
    · exact describes_report describes _ _ _
    · exact describes
  · rw [State.useName, State.resolve_errors]
    exact errors_report describes.isIncomplete_iff _ _ _
  · have complete : ¬s.isIncomplete r.name.text = true := by
      intro incomplete
      have violating := describes.isIncomplete_iff.mp incomplete
      simp [Place.violation?, Use.read, violating] at allowed
    rw [State.useName, if_neg complete]
    exact records_resolve (u := .read r) describes

theorem this (describes : p.Describes s) (id : ExprId) (span : Span) :
    Finds p [(p, .use (.this id) span)] s (s.useThis id span) := by
  have kind := describes.classKind
  unfold Place.classKind at kind
  unfold State.useThis
  cases around : p.class? with
  | none =>
    rw [around] at kind
    rw [kind]
    refine single (describes_report describes _ _ _) ?_ ?_
    · simp [Place.violation?, Use.this, around, State.report]
    · simp [Place.violation?, Use.this, around]
  | some isSubclass =>
    have inside : s.classKind = .base ∨ s.classKind = .subclass := by
      cases isSubclass <;> simp [kind, around]
    have resolved : Finds p [(p, .use (.this id) span)] s (s.resolve id "this") := by
      refine single (describes_resolve describes id "this") ?_ fun _ => ?_
      · simp [Place.violation?, Use.this, around]
      · exact records_resolve (u := .this id) describes
    rcases inside with base | subclass
    · rw [base]
      exact resolved
    · rw [subclass]
      exact resolved

theorem super (describes : p.Describes s) (id : ExprId) (span : Span) :
    Finds p [(p, .use (.super id) span)] s (s.useSuper id span) := by
  have kind := describes.classKind
  unfold Place.classKind at kind
  unfold State.useSuper
  cases around : p.class? with
  | none =>
    rw [around] at kind
    rw [kind]
    refine single (describes_resolve (describes_report describes _ _ _) _ _) ?_ ?_
    · simp [Place.violation?, Use.super, around, State.report]
    · simp [Place.violation?, Use.super, around]
  | some isSubclass =>
    rw [around] at kind
    cases isSubclass with
    | false =>
      rw [kind]
      refine single (describes_resolve (describes_report describes _ _ _) _ _) ?_ ?_
      · simp [Place.violation?, Use.super, around, State.report]
      · simp [Place.violation?, Use.super, around]
    | true =>
      rw [kind]
      refine single (describes_resolve describes id "super") ?_ fun _ => ?_
      · simp [Place.violation?, Use.super, around]
      · exact records_resolve (u := .super id) describes

theorem «return» (describes : p.Describes s) (keyword : Span) (hasValue : Bool) :
    Finds p [(p, .return keyword hasValue)] s (s.useReturn keyword hasValue) := by
  have kept := State.Extends.useReturn s keyword hasValue
  have kind := describes.routine
  refine single ⟨?_, kept.routine.trans kind, kept.classKind.trans describes.classKind⟩
    ?_ fun _ => ?_
  · rw [State.useReturn_scopes]
    exact describes.scopes
  · rw [State.useReturn_eq, kind, Place.routineKind, Place.violation?]
    cases p.routine? with
    | none => simp [State.report]
    | some nearest =>
      obtain ⟨isMethod, name⟩ := nearest
      by_cases initializer : name = "init"
      · cases isMethod <;> cases hasValue <;> simp [initializer, State.report]
      · cases isMethod <;> simp [initializer]
  · have unchanged : (s.useReturn keyword hasValue).depths = s.depths := by
      rw [State.useReturn_eq]
      split <;> rfl
    rw [unchanged]
    exact Records.of_no_use (by simp) _

end Finds

/-! ## What encloses a place -/

namespace Place.Describes

variable {p : Place} {s : State}

theorem outside {enclosure : Enclosure} {declared : List String} {names : List Names}
    (lists : ScopesList (pending (enclosure :: p)) names (declared :: p.scopes))
    (settled : p.pending = none) : ScopesList p.pending names.tail p.scopes := by
  cases lists with
  | cons _ _ rest =>
    rw [settled, scopesList_none_iff]
    exact rest

theorem pop {names : List String} (inside : Describes (.block names :: p) s)
    (settled : p.pending = none) : p.Describes s.pop :=
  ⟨outside inside.scopes settled, inside.routine, inside.classKind⟩

theorem enterRoutine (describes : p.Describes s) (settled : p.pending = none) (isMethod : Bool)
    (name : String) :
    Describes (.routine isMethod name [] :: p)
      { s with routine := routineKind (.routine isMethod name [] :: p) }.push := by
  have lists := describes.scopes
  rw [settled, scopesList_none_iff] at lists
  exact ⟨.cons lists_empty (by simp [pending]) lists, rfl, describes.classKind⟩

theorem leaveRoutine {isMethod : Bool} {name : String} {names : List String}
    (inside : Describes (.routine isMethod name names :: p) s) (settled : p.pending = none) :
    p.Describes (s.leaveRoutine p.routineKind) :=
  ⟨outside inside.scopes settled, rfl, inside.classKind⟩

theorem enterClass (describes : p.Describes s) (settled : p.pending = none)
    (superclass : Option Reference) :
    Describes (.class superclass.isSome :: p)
      { s with
        scopes := classScopes s.scopes superclass
        classKind := State.classKindOf superclass } := by
  have lists := describes.scopes
  rw [settled, scopesList_none_iff] at lists
  have only (name : String) : Lists none ((∅ : Names).insert name true) [name] := by
    intro other
    rw [Bindings.find?_insert]
    by_cases same : other = name <;> simp [same]
  cases superclass with
  | none => exact ⟨.cons (only "this") (by simp [pending]) lists, describes.routine, rfl⟩
  | some _ =>
    exact ⟨.cons (only "this") (by simp [pending]) (.cons (only "super") lists),
      describes.routine, rfl⟩

theorem leaveClass {superclass : Option Reference}
    (inside : Describes (.class superclass.isSome :: p) s) (settled : p.pending = none) :
    p.Describes (s.leaveClass superclass p.classKind) := by
  cases superclass with
  | none => exact ⟨outside inside.scopes settled, inside.routine, rfl⟩
  | some _ =>
    refine ⟨?_, inside.routine, rfl⟩
    have lists := inside.scopes
    show ScopesList p.pending s.scopes.tail.tail p.scopes
    generalize s.scopes = scopes at lists
    cases lists with
    | cons _ _ rest =>
      cases rest with
      | cons _ rest =>
        rw [settled, scopesList_none_iff]
        exact rest

end Place.Describes

namespace State

variable (s : State) (kind : ClassKind)

theorem reportIf_withClassKind (condition : Prop) [Decidable condition] (cause : ScopeError.Cause)
    (lexeme : String) (span : Span) :
    (if condition then { s with classKind := kind }.report cause lexeme span
      else { s with classKind := kind }) =
      { (if condition then s.report cause lexeme span else s) with classKind := kind } := by
  split <;> rfl

theorem mark_withClassKind (name : String) (complete : Bool) :
    { s with classKind := kind }.mark name complete =
      { s.mark name complete with classKind := kind } := by
  obtain ⟨scopes, _, _, _, _⟩ := s
  cases scopes <;> rfl

theorem declare_withClassKind (name : Ident) :
    { s with classKind := kind }.declare name = { s.declare name with classKind := kind } := by
  unfold State.declare
  rw [← mark_withClassKind, ← reportIf_withClassKind]
  rfl

theorem resolve_withClassKind (id : ExprId) (name : String) :
    { s with classKind := kind }.resolve id name =
      { s.resolve id name with classKind := kind } := by
  unfold State.resolve
  rw [show State.depth? { s with classKind := kind } name = s.depth? name from rfl]
  cases s.depth? name <;> rfl

theorem useName_withClassKind (r : Reference) :
    { s with classKind := kind }.useName r = { s.useName r with classKind := kind } := by
  unfold State.useName
  rw [← resolve_withClassKind, ← reportIf_withClassKind]
  rfl

/-- A class is entered once its name is declared and its superclass clause is resolved. -/
theorem enterClass_eq (name : Ident) (superclass : Option Reference) :
    s.enterClass name superclass =
      let t := match superclass with
        | none => (s.declare name).define name
        | some clause =>
          let t := (s.declare name).define name
          (if clause.name.text = name.text then
            t.report .selfInheritance clause.name.text clause.name.span else t).useName clause
      { t with
        scopes := classScopes t.scopes superclass
        classKind := classKindOf superclass } := by
  have declared : ({ s with classKind := .base }.declare name).define name =
      { (s.declare name).define name with classKind := .base } := by
    rw [declare_withClassKind, State.define, mark_withClassKind]
    rfl
  cases superclass with
  | none =>
    simp only [State.enterClass, declared]
    rfl
  | some clause =>
    simp only [State.enterClass, State.enterSuperclass, declared, reportIf_withClassKind,
      useName_withClassKind]
    rfl

end State

namespace Finds

variable {p : Place} {s : State}

theorem params (describes : p.Describes s) (body : p.IsBody) (params : List Ident) :
    Finds (p.declareAll (params.map Ident.text)) (Ident.occurrences p params) s
      (params.foldl (fun s param => (s.declare param).define param) s) := by
  induction params generalizing p s with
  | nil => exact silent describes rfl rfl
  | cons param rest inductionHypothesis =>
    have declared := declare_define describes body param
    exact declared.trans (inductionHypothesis declared.place body.declare)

theorem superclass (describes : p.Describes s) (name : Ident) (clause : Ident) :
    Finds p [(p, .superclass name clause)] s
      (if clause.text = name.text then s.report .selfInheritance clause.text
        clause.span else s) := by
  refine single ?_ (errors_report Iff.rfl _ _ _) fun _ => ?_
  · split
    · exact describes_report describes _ _ _
    · exact describes
  · have kept : (if clause.text = name.text then
        s.report .selfInheritance clause.text clause.span else s).depths = s.depths := by
      split <;> rfl
    rw [kept]
    exact Records.of_no_use (by simp) _

theorem enterClass (describes : p.Describes s) (body : p.IsBody) (name : Ident)
    (superclass : Option Reference) :
    Finds (.class superclass.isSome :: p.declare name.text)
      ((p, .declaration name) :: Reference.occurrences (p.declare name.text) name superclass) s
      (s.enterClass name superclass) := by
  have declared := declare_define describes body name
  rw [State.enterClass_eq]
  cases superclass with
  | none =>
    exact declared.reach (declared.place.enterClass body.declare.pending none) rfl rfl
  | some clause =>
    have named := Finds.superclass declared.place name clause.name
    have used := Finds.read named.place clause
    exact declared.trans (named.trans
      (used.reach (used.place.enterClass body.declare.pending (some clause)) rfl rfl))

end Finds

end Scope

open Scope (Finds)

/-! ## Whole programs -/

mutual

theorem Expr.finds {p : Place} : ∀ (e : Expr) {s : State}, p.Describes s →
    Finds p (e.occurrences.map (p, ·)) s (e.resolve s)
  | .literal .., _, describes => .silent describes rfl rfl
  | .ref target, _, describes => .read describes target
  | .assign id name value, _, describes =>
    have values := value.finds describes
    (values.trans (.write values.place id name)).perm List.perm_append_comm
  | .binary _ _ _ left right, _, describes | .logical _ _ _ left right, _, describes => by
    have lefts := left.finds describes
    rw [Expr.occurrences, List.map_append]
    exact lefts.trans (right.finds lefts.place)
  | .unary _ _ _ operand, _, describes => operand.finds describes
  | .call _ _ callee args, _, describes => by
    have callees := callee.finds describes
    rw [Expr.occurrences, List.map_append]
    exact callees.trans (Expr.findsAll args callees.place)
  | .group _ _ inner, _, describes => inner.finds describes
  | .get _ object _, _, describes => object.finds describes
  | .set _ object _ value, _, describes => by
    have values := value.finds describes
    rw [Expr.occurrences, List.map_append]
    exact (values.trans (object.finds values.place)).perm List.perm_append_comm
  | .this id span, _, describes => .this describes id span
  | .super id span _, _, describes => .super describes id span

theorem Expr.findsAll {p : Place} : ∀ (es : List Expr) {s : State}, p.Describes s →
    Finds p ((Expr.occurrencesAll es).map (p, ·)) s (Expr.resolveAll es s)
  | [], _, describes => .silent describes rfl rfl
  | e :: rest, _, describes => by
    have first := e.finds describes
    rw [Expr.occurrencesAll, List.map_append]
    exact first.trans (Expr.findsAll rest first.place)

end

theorem Expr.findsOption {p : Place} {s : State} (e : Option Expr) (describes : p.Describes s) :
    Finds p ((Expr.occurrencesOption e).map (p, ·)) s (Expr.resolveOption e s) := by
  cases e with
  | none => exact .silent describes rfl rfl
  | some e => exact e.finds describes

namespace Stmt

mutual

theorem finds {p : Place} (body : p.IsBody) : ∀ (statement : Stmt) {s : State}, p.Describes s →
    Finds (p.declareAll statement.declaredNames) (statement.occurrences p) s (statement.resolve s)
  | .expr value, _, describes => value.finds describes
  | .print value, _, describes => value.finds describes
  | .var name initial, _, describes => by
    have declared := Finds.declare describes body name
    exact (declared.trans (Expr.findsOption initial declared.place)).define body.declare.pending
  | .block statements, s, describes => by
    have pushed : Finds (.block [] :: p) [] s s.push :=
      .silent (describes.push body.pending) rfl rfl
    have inside := pushed.trans (findsAll (by trivial) statements pushed.place)
    obtain ⟨names, behind⟩ := Place.declareAll_block p [] (statements.flatMap declaredNames)
    rw [behind] at inside
    exact inside.reach (inside.place.pop body.pending) rfl rfl
  | .if condition yes none, _, describes =>
    have conditions := condition.finds describes
    conditions.trans (yes.finds body conditions.place)
  | .if condition yes (some no), _, describes => by
    have conditions := condition.finds describes
    have branch := yes.finds body conditions.place
    have other := no.finds (body.declareAll _) branch.place
    rw [← Place.declareAll_append] at other
    exact (conditions.trans branch).trans other
  | .while condition inner, _, describes =>
    have conditions := condition.finds describes
    conditions.trans (inner.finds body conditions.place)
  | .fun routine, _, describes => by
    have declared := Finds.declare_define describes body routine.name
    exact declared.trans (findsRoutine body.declare.pending false routine declared.place)
  | .return keyword value, _, describes =>
    have returned := Finds.return describes keyword value.isSome
    returned.trans (Expr.findsOption value returned.place)
  | .class name superclass methods, _, describes => by
    have entered := Finds.enterClass describes body name superclass
    have inside := entered.trans (findsMethods rfl methods entered.place)
    have left := inside.place.leaveClass body.declare.pending
    rw [Place.classKind_declare, ← describes.classKind] at left
    exact inside.reach left (by cases superclass <;> rfl) (by cases superclass <;> rfl)

theorem findsAll {p : Place} (body : p.IsBody) :
    ∀ (statements : List Stmt) {s : State}, p.Describes s →
    Finds (p.declareAll (statements.flatMap declaredNames)) (occurrencesAll p statements) s
      (Stmt.resolveAll statements s)
  | [], _, describes => .silent describes rfl rfl
  | statement :: rest, _, describes => by
    have first := statement.finds body describes
    have others := findsAll (body.declareAll _) rest first.place
    rw [← Place.declareAll_append] at others
    exact first.trans others

theorem findsRoutine {p : Place} (settled : p.pending = none) (isMethod : Bool) :
    ∀ (routine : Routine (List Stmt)) {s : State}, p.Describes s →
      Finds p (occurrencesOfRoutine p isMethod routine) s
        (Stmt.resolveRoutine routine
          (Place.routineKind (.routine isMethod routine.name.text [] :: p)) s)
  | ⟨name, params, statements⟩, s, describes => by
    have entered : Finds (.routine isMethod name.text [] :: p) [] s _ :=
      .silent (describes.enterRoutine settled isMethod name.text) rfl rfl
    have declared := entered.trans (Finds.params entered.place (by trivial) params)
    have inside := declared.trans
      (findsAll (Place.IsBody.declareAll (by trivial) _) statements declared.place)
    rw [← Place.declareAll_append] at inside
    obtain ⟨names, behind⟩ := Place.declareAll_routine p isMethod name.text []
      (params.map Ident.text ++ statements.flatMap declaredNames)
    rw [behind] at inside
    have left := inside.place.leaveRoutine settled
    rw [← describes.routine] at left
    exact inside.reach left rfl rfl

theorem findsMethods {p : Place} (settled : p.pending = none) :
    ∀ (methods : List (Routine (List Stmt))) {s : State}, p.Describes s →
      Finds p (occurrencesOfMethods p methods) s (Stmt.resolveMethods methods s)
  | [], _, describes => .silent describes rfl rfl
  | method :: rest, _, describes =>
    have first := findsRoutine settled true method describes
    first.trans (findsMethods settled rest first.place)

end

end Stmt

namespace Program

open Scope (Seen Records)

/-- The resolver walks a program from the top level, which is no scope. -/
theorem finds (program : Program) :
    Finds [] program.occurrences {} (Stmt.resolveAll program {}) := by
  have start : Place.Describes [] {} := ⟨.nil, rfl, rfl⟩
  have found := Stmt.findsAll (by trivial) program start
  have top (names : List String) : Place.declareAll names [] = [] := by
    induction names with
    | nil => rfl
    | cons _ _ inductionHypothesis => exact inductionHypothesis
  rwa [top] at found

theorem errors_perm_violations (program : Program) :
    (Stmt.resolveAll program {}).errors.toList.Perm program.violations :=
  program.finds.errors

variable {program : Program} {depths : Depths}

theorem resolve_eq_ok_iff : program.resolve = .ok depths ↔
    program.violations = [] ∧ (Stmt.resolveAll program {}).depths = depths := by
  have errors := program.errors_perm_violations
  have clean : (Stmt.resolveAll program {}).errors = #[] ↔ program.violations = [] := by
    rw [← Array.toList_eq_nil_iff]
    exact ⟨fun none => (none ▸ errors).symm.eq_nil, fun none => (none ▸ errors).eq_nil⟩
  rw [resolve_ok_iff, clean]

theorem records_of_resolve (accepted : program.resolve = .ok depths) :
    Records program.occurrences ∅ depths := by
  obtain ⟨clean, rfl⟩ := resolve_eq_ok_iff.mp accepted
  exact program.finds.depths clean

theorem seen_of_getElem? (accepted : program.resolve = .ok depths) {id : ExprId} {depth : Nat}
    (entry : depths[id]? = some depth) : Seen program.occurrences id depth :=
  ((records_of_resolve accepted).entry entry).resolve_left (by simp)

theorem useIds_nodup (distinct : program.ids.Nodup) : (Scope.useIds program.occurrences).Nodup := by
  obtain ⟨ids, reordered, sublist⟩ := Stmt.useIdsAll_subperm [] program
  exact reordered.nodup_iff.mp (distinct.sublist sublist)

/-- The depth on record for a use is the one at which it sees its name. -/
theorem getElem?_depths_of_occurs (accepted : program.resolve = .ok depths)
    (distinct : program.ids.Nodup) {p : Place} {u : Use} {span : Span}
    (occurs : (p, .use u span) ∈ program.occurrences) {depth : Nat} :
    depths[u.id]? = some depth ↔ p.Sees u.name depth := by
  have sees : ∀ {depth : Nat}, depths[u.id]? = some depth → p.Sees u.name depth := by
    intro depth entry
    obtain ⟨p', u', span', other, same, sees⟩ := seen_of_getElem? accepted entry
    obtain ⟨rfl, rfl⟩ := Scope.eq_of_useIds_nodup (useIds_nodup distinct) occurs other same.symm
    exact sees
  refine ⟨sees, fun seen => ?_⟩
  have member : u.id ∈ depths := (records_of_resolve accepted).seen ⟨p, u, span, occurs, rfl, seen⟩
  have entry := Std.ExtTreeMap.getElem?_eq_some_getElem member
  exact entry.trans (congrArg some ((sees entry).unique seen))

/-- An accepted program has entries for exactly the uses whose name is seen, each with the depth at
which it is. Uses are told apart by their numbers. -/
theorem resolve_depths {program : Program} {depths : Depths}
    (accepted : program.resolve = .ok depths) :
    (∀ id, id ∈ depths ↔ ∃ depth, Seen program.occurrences id depth) ∧
      (∀ id depth, depths[id]? = some depth → Seen program.occurrences id depth) ∧
      (program.ids.Nodup → ∀ p u span depth, (p, .use u span) ∈ program.occurrences →
        (depths[u.id]? = some depth ↔ p.Sees u.name depth)) := by
  refine ⟨fun id => ⟨fun member => ?_, fun ⟨_, seen⟩ => ?_⟩, fun _ _ => seen_of_getElem? accepted,
    fun distinct p u span depth occurs => getElem?_depths_of_occurs accepted distinct occurs⟩
  · have entry := Std.ExtTreeMap.getElem?_eq_some_getElem member
    exact ⟨depths[id], seen_of_getElem? accepted entry⟩
  · exact (records_of_resolve accepted).seen seen

/-- A method of a subclass keeps `this`, `super` and a variable in a function. The program also
hides a parameter and uses a name that no scope has. -/
theorem resolve_depths_kept_in_method :
    let source := "class A \x7b\x7d class B < A \x7b m(x) \x7b var y = x; \x7b fun g() \x7b" ++
      " return super.m(this.k, y, z); \x7d var x = g; \x7d return x; \x7d \x7d"
    let program :=
      (Program.parse ((Token.tokenize source).toOption.getD []) 0).result.toOption.getD []
    let p : Place :=
      [.routine false "g" [], .block ["g"], .routine true "m" ["y", "x"], .class true]
    ∃ depths, program.resolve = .ok depths ∧ program.ids.Nodup ∧
      depths.toList = [(1, 0), (2, 4), (3, 3), (5, 2), (8, 0), (9, 0)] ∧
      (p, .use (.super 2) ⟨62, 67, 1, 62⟩) ∈ program.occurrences ∧
      p.Sees "super" 4 ∧ depths[2]? = some 4 := by
  intro source program p
  have found : program.resolve.toOption.any (fun depths =>
      depths.toList = [(1, 0), (2, 4), (3, 3), (5, 2), (8, 0), (9, 0)]) = true := by
    decide +kernel
  have distinct : program.ids.Nodup := by decide +kernel
  have occurs : (p, .use (.super 2) ⟨62, 67, 1, 62⟩) ∈ program.occurrences := by decide +kernel
  have sees : p.Sees "super" 4 := Place.sees_iff.mpr (by decide)
  cases accepted : program.resolve with
  | error errors =>
    rw [accepted] at found
    cases found
  | ok depths =>
    rw [accepted] at found
    obtain ⟨_, _, entries⟩ := resolve_depths accepted
    exact ⟨depths, rfl, distinct, of_decide_eq_true found, occurs, sees,
      (entries distinct p (.super 2) _ 4 occurs).mpr sees⟩

/-- A program is accepted iff nothing in it breaks a rule, and otherwise there is one error for each
occurrence that does. -/
theorem resolve_reports_violations (program : Program) :
    ((∃ depths, program.resolve = .ok depths) ↔ program.violations = []) ∧
      ∀ errors, program.resolve = .error errors → errors.Perm program.violations := by
  refine ⟨⟨?_, fun clean => ⟨_, resolve_eq_ok_iff.mpr ⟨clean, rfl⟩⟩⟩, fun errors refused => ?_⟩
  · rintro ⟨depths, accepted⟩
    exact (resolve_eq_ok_iff.mp accepted).1
  · rw [← (resolve_error_iff.mp refused).2]
    exact program.errors_perm_violations

/-- Every kind of violation, some of them inside of others. -/
theorem resolve_reports_violations_of_each_kind :
    let source :=
      "\x7b var a = a;\n var a;\n fun f(b, b) \x7b return f; \x7d \x7d\n return this;\n" ++
      "class C < C \x7b\n init() \x7b fun g() \x7b return 1; \x7d return super.m; \x7d \x7d\n" ++
      "print super.x;\n class D \x7b n() \x7b super.n(); \x7d \x7d"
    let program :=
      (Program.parse ((Token.tokenize source).toOption.getD []) 0).result.toOption.getD []
    ∃ errors, program.resolve = .error errors ∧ errors.Perm program.violations ∧
      program.violations.map (fun error => (error.cause, error.lexeme, error.line)) =
        [(.readInOwnInitializer, "a", 1), (.alreadyDeclared, "a", 2), (.alreadyDeclared, "b", 3),
          (.topLevelReturn, "return", 4), (.thisOutsideClass, "this", 4),
          (.selfInheritance, "C", 5),
          (.valueReturnFromInitializer, "return", 6), (.superOutsideClass, "super", 7),
          (.superWithoutSuperclass, "super", 8)] := by
  intro source program
  have kinds : program.violations.map (fun error => (error.cause, error.lexeme, error.line)) =
      [(.readInOwnInitializer, "a", 1), (.alreadyDeclared, "a", 2), (.alreadyDeclared, "b", 3),
        (.topLevelReturn, "return", 4), (.thisOutsideClass, "this", 4), (.selfInheritance, "C", 5),
        (.valueReturnFromInitializer, "return", 6), (.superOutsideClass, "super", 7),
        (.superWithoutSuperclass, "super", 8)] := by
    decide +kernel
  obtain ⟨accepted, reports⟩ := resolve_reports_violations program
  cases refused : program.resolve with
  | error errors => exact ⟨errors, rfl, reports errors refused, kinds⟩
  | ok depths =>
    rw [accepted.mp ⟨depths, refused⟩] at kinds
    cases kinds

end Program

end Lox
