import Lox.Proofs.Scope.Resolution
import Lox.Proofs.Scope.Similar

set_option autoImplicit false

/-!
# Renaming a local variable

A new name for one local variable: in its declaration, and in exactly the uses whose recorded depth
leads to the scope of that declaration. Uses that stand before the declaration or below a
declaration of the same name further in belong to other variables and stay as they are. If the new
name is used for no variable yet, the new program is similar to the old one, and is resolved to the
same depths.
-/

namespace Lox

open Correspondence (markAt)
open Scope (Names Rules Resolution mark locate?)

/-! ## Variables of a program -/

mutual

def Expr.variableNames : Expr → List String
  | .literal .. => []
  | .ref target => [target.name.text]
  | .assign _ name value => name.text :: value.variableNames
  | .binary _ _ _ left right => left.variableNames ++ right.variableNames
  | .logical _ _ _ left right => left.variableNames ++ right.variableNames
  | .unary _ _ _ operand => operand.variableNames
  | .call _ _ callee args => callee.variableNames ++ Expr.variableNamesAll args
  | .group _ _ inner => inner.variableNames
  | .get _ object _ => object.variableNames
  | .set _ object _ value => object.variableNames ++ value.variableNames
  | .this .. => []
  | .super .. => []

def Expr.variableNamesAll : List Expr → List String
  | [] => []
  | e :: rest => e.variableNames ++ Expr.variableNamesAll rest

end

def Expr.variableNamesOption : Option Expr → List String
  | some e => e.variableNames
  | none => []

namespace Stmt

mutual

def variableNames : Stmt → List String
  | .expr value => value.variableNames
  | .print value => value.variableNames
  | .var name initial => name.text :: Expr.variableNamesOption initial
  | .block body => variableNamesAll body
  | .if condition yes none => condition.variableNames ++ yes.variableNames
  | .if condition yes (some no) => condition.variableNames ++ yes.variableNames ++ no.variableNames
  | .while condition body => condition.variableNames ++ body.variableNames
  | .fun routine => routine.name.text :: variableNamesOfRoutine routine
  | .return _ value => Expr.variableNamesOption value
  | .class name superclass methods =>
    name.text :: (superclass.map (·.name.text)).toList ++ variableNamesOfMethods methods

def variableNamesAll : List Stmt → List String
  | [] => []
  | s :: rest => s.variableNames ++ variableNamesAll rest

def variableNamesOfRoutine : Routine (List Stmt) → List String
  | ⟨_, params, body⟩ => params.map Ident.text ++ variableNamesAll body

def variableNamesOfMethods : List (Routine (List Stmt)) → List String
  | [] => []
  | method :: rest => variableNamesOfRoutine method ++ variableNamesOfMethods rest

end

end Stmt

def Program.variableNames (program : Program) : List String :=
  Stmt.variableNamesAll program

/-! ## Renaming -/

/-- A new name for the local variable with the given declaration. -/
structure Renaming where
  declaration : Ident
  name : String

namespace Renaming

variable (r : Renaming)

/-- The name that is written instead of a name, in the scope of the declaration or in another
one. -/
def apply (isScope : Bool) (name : Ident) : Ident :=
  if isScope = true ∧ name.text = r.declaration.text then ⟨r.name, name.span⟩ else name

/-- A use goes by the scope at its recorded depth. -/
def use (depths : Depths) (marks : List Bool) (target : Reference) : Reference :=
  ⟨target.id, r.apply (markAt marks depths[target.id]?) target.name⟩

def isDeclaredBy : Stmt → Bool
  | .var name _ => name = r.declaration
  | _ => false

/-- Whether a scope with the given parameters and statements is that of the declaration. -/
def isScope (params : List Ident) (body : List Stmt) : Bool :=
  params.contains r.declaration || body.any r.isDeclaredBy

end Renaming

mutual

/-- The expression with the variable renamed, where the marks tell which of the scopes around it are
those of the declaration. -/
def Expr.rename (r : Renaming) (depths : Depths) (marks : List Bool) : Expr → Expr
  | .literal id span value => .literal id span value
  | .ref target => .ref (r.use depths marks target)
  | .assign id name value =>
    .assign id (r.apply (markAt marks depths[id]?) name) (value.rename r depths marks)
  | .binary id span op left right =>
    .binary id span op (left.rename r depths marks) (right.rename r depths marks)
  | .logical id span op left right =>
    .logical id span op (left.rename r depths marks) (right.rename r depths marks)
  | .unary id span op operand => .unary id span op (operand.rename r depths marks)
  | .call id span callee args =>
    .call id span (callee.rename r depths marks) (Expr.renameAll r depths marks args)
  | .group id span inner => .group id span (inner.rename r depths marks)
  | .get id object name => .get id (object.rename r depths marks) name
  | .set id object name value =>
    .set id (object.rename r depths marks) name (value.rename r depths marks)
  | .this id span => .this id span
  | .super id span method => .super id span method

def Expr.renameAll (r : Renaming) (depths : Depths) (marks : List Bool) : List Expr → List Expr
  | [] => []
  | e :: rest => e.rename r depths marks :: Expr.renameAll r depths marks rest

end

def Expr.renameOption (r : Renaming) (depths : Depths) (marks : List Bool) :
    Option Expr → Option Expr
  | some e => some (e.rename r depths marks)
  | none => none

namespace Stmt

mutual

def rename (r : Renaming) (depths : Depths) (marks : List Bool) : Stmt → Stmt
  | .expr value => .expr (value.rename r depths marks)
  | .print value => .print (value.rename r depths marks)
  | .var name initial =>
    .var (r.apply (marks.headD false) name) (Expr.renameOption r depths marks initial)
  | .block body => .block (renameAll r depths (r.isScope [] body :: marks) body)
  | .if condition yes none =>
    .if (condition.rename r depths marks) (yes.rename r depths marks) none
  | .if condition yes (some no) =>
    .if (condition.rename r depths marks) (yes.rename r depths marks)
      (some (no.rename r depths marks))
  | .while condition body => .while (condition.rename r depths marks) (body.rename r depths marks)
  | .fun routine => .fun (renameRoutine r depths marks routine)
  | .return keyword value => .return keyword (Expr.renameOption r depths marks value)
  | .class name none methods => .class name none (renameMethods r depths (false :: marks) methods)
  | .class name (some superclass) methods =>
    .class name (some (r.use depths marks superclass))
      (renameMethods r depths (false :: false :: marks) methods)

def renameAll (r : Renaming) (depths : Depths) (marks : List Bool) : List Stmt → List Stmt
  | [] => []
  | s :: rest => s.rename r depths marks :: renameAll r depths marks rest

def renameRoutine (r : Renaming) (depths : Depths) (marks : List Bool) :
    Routine (List Stmt) → Routine (List Stmt)
  | ⟨name, params, body⟩ =>
    let isScope := r.isScope params body
    ⟨name, params.map (r.apply isScope), renameAll r depths (isScope :: marks) body⟩

def renameMethods (r : Renaming) (depths : Depths) (marks : List Bool) :
    List (Routine (List Stmt)) → List (Routine (List Stmt))
  | [] => []
  | method :: rest => renameRoutine r depths marks method :: renameMethods r depths marks rest

end

end Stmt

/-- The program with a local variable renamed, given the depths of its uses. -/
def Program.rename (r : Renaming) (depths : Depths) (program : Program) : Program :=
  Stmt.renameAll r depths [] program

/-! ## The renamed program is similar -/

namespace Renaming

variable {r : Renaming} {depths : Depths} {marks : List Bool}

def correspondence (r : Renaming) (depths : Depths) : Correspondence where
  id i i' := i' = i
  name isScope a a' := a ≠ r.name ∧
    a' = if isScope = true ∧ a = r.declaration.text ∧ ¬IsReserved a then r.name else a
  depth i := depths[i]?

theorem lawful_correspondence (legal : ¬IsReserved r.name) (depths : Depths) :
    (r.correspondence depths).Lawful where
  id_eq_iff := by
    rintro i _ j _ rfl rfl
    rfl
  name_back := by
    rintro mark other a b a' ⟨old, rfl⟩ ⟨old', same⟩
    split at same <;> split at same <;> simp_all
  name_forth := by
    rintro mark a a' b' ⟨_, rfl⟩ ⟨_, rfl⟩
    rfl
  top := by
    rintro a a' ⟨_, rfl⟩
    simp
  reserved := by
    intro name mark reserved
    refine ⟨fun same => legal (same ▸ reserved), ?_⟩
    rw [if_neg fun renamed => renamed.2.2 reserved]

/-- A name that is not the new one, where the old name can be that of a variable. -/
theorem similar_apply {isScope : Bool} {name : Ident}
    (legal : isScope = true → ¬IsReserved r.declaration.text) (fresh : name.text ≠ r.name) :
    name.Similar (r.correspondence depths) isScope (r.apply isScope name) := by
  unfold apply
  split
  · rename_i renamed
    refine ⟨⟨fresh, ?_⟩, rfl⟩
    rw [if_pos ⟨renamed.1, renamed.2, renamed.2 ▸ legal renamed.1⟩]
  · rename_i kept
    refine ⟨⟨fresh, ?_⟩, rfl⟩
    rw [if_neg fun renamed => kept ⟨renamed.1, renamed.2.1⟩]

theorem mem_of_markAt {depth : Option Nat} (marked : markAt marks depth = true) : true ∈ marks := by
  cases depth with
  | none => cases marked
  | some depth =>
    cases found : marks[depth]? with
    | none => simp [markAt, found] at marked
    | some mark =>
      have same : mark = true := by simpa [markAt, found] using marked
      exact same ▸ List.mem_of_getElem? found

theorem similar_use {target : Reference}
    (legal : true ∈ marks → ¬IsReserved r.declaration.text) (fresh : target.name.text ≠ r.name) :
    target.Similar (r.correspondence depths) marks (r.use depths marks target) :=
  ⟨rfl, similar_apply (fun marked => legal (mem_of_markAt marked)) fresh⟩

end Renaming

section Similar

variable {r : Renaming} {depths : Depths}

mutual

theorem Expr.similar_rename {marks : List Bool}
    (legal : true ∈ marks → ¬IsReserved r.declaration.text) :
    ∀ e : Expr, r.name ∉ e.variableNames →
      e.Similar (r.correspondence depths) marks (e.rename r depths marks)
  | .literal .., _ => .literal
  | .ref _, fresh =>
    .ref (Renaming.similar_use legal fun same => fresh (by simp [Expr.variableNames, same]))
  | .assign id name value, fresh => by
    simp only [Expr.variableNames, List.mem_cons, not_or] at fresh
    exact .assign (Renaming.similar_use legal (Ne.symm fresh.1))
      (value.similar_rename legal fresh.2)
  | .binary _ _ _ left right, fresh => by
    simp only [Expr.variableNames, List.mem_append, not_or] at fresh
    exact .binary (left.similar_rename legal fresh.1) (right.similar_rename legal fresh.2)
  | .logical _ _ _ left right, fresh => by
    simp only [Expr.variableNames, List.mem_append, not_or] at fresh
    exact .logical (left.similar_rename legal fresh.1) (right.similar_rename legal fresh.2)
  | .unary _ _ _ operand, fresh => .unary (operand.similar_rename legal fresh)
  | .call _ _ callee args, fresh => by
    simp only [Expr.variableNames, List.mem_append, not_or] at fresh
    exact .call (callee.similar_rename legal fresh.1) (Expr.similar_renameAll legal args fresh.2)
  | .group _ _ inner, fresh => .group (inner.similar_rename legal fresh)
  | .get _ object _, fresh => .get (object.similar_rename legal fresh)
  | .set _ object _ value, fresh => by
    simp only [Expr.variableNames, List.mem_append, not_or] at fresh
    exact .set (object.similar_rename legal fresh.1) (value.similar_rename legal fresh.2)
  | .this .., _ => .this rfl
  | .super .., _ => .super rfl

theorem Expr.similar_renameAll {marks : List Bool}
    (legal : true ∈ marks → ¬IsReserved r.declaration.text) :
    ∀ es : List Expr, r.name ∉ Expr.variableNamesAll es →
      List.Forall₂ (Expr.Similar (r.correspondence depths) marks) es
        (Expr.renameAll r depths marks es)
  | [], _ => .nil
  | e :: rest, fresh => by
    simp only [Expr.variableNamesAll, List.mem_append, not_or] at fresh
    exact .cons (e.similar_rename legal fresh.1) (Expr.similar_renameAll legal rest fresh.2)

end

theorem Expr.similar_renameOption {marks : List Bool}
    (legal : true ∈ marks → ¬IsReserved r.declaration.text) {e : Option Expr}
    (fresh : r.name ∉ Expr.variableNamesOption e) :
    Option.Rel (Expr.Similar (r.correspondence depths) marks) e
      (Expr.renameOption r depths marks e) := by
  cases e with
  | none => exact .none
  | some e => exact .some (e.similar_rename legal fresh)

end Similar

/-! A scope declares a name once, so the scope of the declaration has no function or class of its
name. -/

namespace Stmt

variable {res : Resolution} {names : Names} {outer : List Names} {body : List Stmt} {s t : Stmt}
  {name other : Ident}

theorem scopesAfter_find? (names : Names) (outer : List Names) (s : Stmt) :
    ∃ names', s.scopesAfter (names :: outer) = names' :: outer ∧
      ∀ key, names'.find? key = none →
        names.find? key = none ∧ ∀ name ∈ s.declared?, name.text ≠ key := by
  unfold scopesAfter
  cases s.declared? with
  | none => exact ⟨names, rfl, fun key missing => ⟨missing, by simp⟩⟩
  | some name =>
    refine ⟨names.insert name.text true, rfl, fun key missing => ?_⟩
    rw [Bindings.find?_insert] at missing
    split at missing
    · cases missing
    · rename_i different
      exact ⟨missing, by rintro _ ⟨⟩ same; exact different same.symm⟩

/-- What is declared in a scope could also be declared at its start. -/
theorem AllObey.declaration (obey : AllObey res.rules (names :: outer) body) (member : s ∈ body)
    (declared : s.declared? = some name) :
    ¬IsReserved name.text ∧ names.find? name.text = none := by
  induction body generalizing names with
  | nil => cases member
  | cons first rest inductionHypothesis =>
    obtain ⟨names', behind, earlier⟩ := scopesAfter_find? names outer first
    rw [AllObey, behind] at obey
    rw [List.mem_cons] at member
    obtain rfl | member := member
    · exact (Obeys.declaration obey.1 declared).imp_right fun new => new names rfl
    · exact (inductionHypothesis obey.2 member).imp_right fun new => (earlier _ new).1

theorem AllObey.eq_of_declared (obey : AllObey res.rules (names :: outer) body) (here : s ∈ body)
    (there : t ∈ body) (declared : s.declared? = some name) (declared' : t.declared? = some other)
    (same : name.text = other.text) : s = t := by
  induction body generalizing names with
  | nil => cases here
  | cons first rest inductionHypothesis =>
    obtain ⟨names', behind, earlier⟩ := scopesAfter_find? names outer first
    rw [AllObey, behind] at obey
    rw [List.mem_cons] at here there
    obtain rfl | here := here <;> obtain rfl | there := there
    · rfl
    · exact absurd same ((earlier _ (obey.2.declaration there declared').2).2 name declared)
    · exact absurd same.symm ((earlier _ (obey.2.declaration here declared).2).2 other declared')
    · exact inductionHypothesis obey.2 here there

end Stmt

namespace Renaming

variable {r : Renaming} {res : Resolution} {outer : List Names} {params : List Ident}
  {body : List Stmt} {s : Stmt}

/-- What the statement declares is not called as the renamed variable, unless it is that
variable. -/
def Apart (r : Renaming) (s : Stmt) : Prop :=
  ∀ name ∈ s.declared?, name.text = r.declaration.text → r.isDeclaredBy s = true

theorem apart_of_declared?_eq_none (nothing : s.declared? = none) : r.Apart s := by
  simp [Apart, nothing]

theorem declared?_of_isDeclaredBy (declares : r.isDeclaredBy s = true) :
    s.declared? = some r.declaration := by
  cases s with
  | var name initial => exact congrArg some (of_decide_eq_true declares)
  | expr | print | block | «if» | «while» | «fun» | «return» | «class» => cases declares

theorem isScope_iff :
    r.isScope params body = true ↔ r.declaration ∈ params ∨
      ∃ s ∈ body, r.isDeclaredBy s = true := by
  simp [isScope]

theorem not_isReserved_of_isScope (head : Ident.AllObey res.rules outer ∅ params)
    (obey : Stmt.AllObey res.rules (Scope.paramNames params :: outer) body)
    (inside : r.isScope params body = true) : ¬IsReserved r.declaration.text := by
  obtain member | ⟨s, member, declares⟩ := isScope_iff.mp inside
  · exact head.forall (fun declared => declared.1) r.declaration member
  · exact (obey.declaration member (declared?_of_isDeclaredBy declares)).1

/-- The marks inside a scope are legal as those around it are. -/
theorem legal_isScope (params : List Ident) {marks : List Bool}
    (legal : true ∈ marks → ¬IsReserved r.declaration.text)
    (head : Ident.AllObey res.rules outer ∅ params)
    (obey : Stmt.AllObey res.rules (Scope.paramNames params :: outer) body) :
    true ∈ r.isScope params body :: marks → ¬IsReserved r.declaration.text := by
  intro marked
  obtain inside | outside := List.mem_cons.mp marked
  · exact not_isReserved_of_isScope head obey inside.symm
  · exact legal outside

theorem apart_of_isScope (obey : Stmt.AllObey res.rules (Scope.paramNames params :: outer) body)
    (inside : r.isScope params body = true) : ∀ s ∈ body, r.Apart s := by
  intro s member name declared same
  obtain param | ⟨t, there, declares⟩ := isScope_iff.mp inside
  · have taken := (obey.declaration member declared).2
    rw [same, Scope.paramNames_find?, if_pos (List.mem_map_of_mem param)] at taken
    cases taken
  · rw [obey.eq_of_declared member there declared (declared?_of_isDeclaredBy declares) same]
    exact declares

end Renaming

namespace Stmt

open Renaming (apart_of_declared?_eq_none)

variable {r : Renaming} {depths : Depths} {res : Resolution}

/-- The name of a function or a class stands for itself. -/
theorem similar_name {mark : Bool} {name : Ident} {s : Stmt} (declared : s.declared? = some name)
    (other : r.isDeclaredBy s = false) (apart : mark = true → r.Apart s)
    (fresh : name.text ≠ r.name) :
    (r.correspondence depths).name mark name.text name.text := by
  refine ⟨fresh, ?_⟩
  rw [if_neg]
  rintro ⟨marked, same, _⟩
  exact absurd (apart marked name declared same) (by simp [other])

mutual

/-- A renamed statement is similar to the statement it was, by the rules that an accepted program
obeys. -/
theorem similar_rename {scopes : List Names} {marks : List Bool}
    (legal : true ∈ marks → ¬IsReserved r.declaration.text) :
    ∀ s : Stmt, s.Obeys res.rules scopes → (marks.headD false = true → r.Apart s) →
      r.name ∉ s.variableNames → s.Similar (r.correspondence depths) marks (s.rename r depths marks)
  | .expr value, _, _, fresh => .expr (value.similar_rename legal fresh)
  | .print value, _, _, fresh => .print (value.similar_rename legal fresh)
  | .var name initial, _, _, fresh => by
    simp only [variableNames, List.mem_cons, not_or] at fresh
    refine .var (Renaming.similar_apply (fun marked => legal ?_) (Ne.symm fresh.1))
      (Expr.similar_renameOption legal fresh.2)
    exact Renaming.mem_of_markAt ((Correspondence.markAt_zero marks).trans marked)
  | .block body, obeys, _, fresh =>
    .block _ (similar_renameAll (Renaming.legal_isScope [] legal trivial obeys) body obeys
      (Renaming.apart_of_isScope obeys) fresh)
  | .if condition yes none, obeys, _, fresh => by
    simp only [variableNames, List.mem_append, not_or] at fresh
    exact .if (condition.similar_rename legal fresh.1) (similar_rename legal yes obeys.2.2
      (fun _ => apart_of_declared?_eq_none obeys.2.1) fresh.2)
  | .if condition yes (some no), obeys, _, fresh => by
    simp only [variableNames, List.mem_append, not_or] at fresh
    exact .ifElse (condition.similar_rename legal fresh.1.1)
      (similar_rename legal yes obeys.2.1.2
        (fun _ => apart_of_declared?_eq_none obeys.2.1.1) fresh.1.2)
      (similar_rename legal no obeys.2.2.2
        (fun _ => apart_of_declared?_eq_none obeys.2.2.1) fresh.2)
  | .while condition body, obeys, _, fresh => by
    simp only [variableNames, List.mem_append, not_or] at fresh
    exact .while (condition.similar_rename legal fresh.1) (similar_rename legal body obeys.2.2
      (fun _ => apart_of_declared?_eq_none obeys.2.1) fresh.2)
  | .fun routine, obeys, apart, fresh => by
    simp only [variableNames, List.mem_cons, not_or] at fresh
    exact .fun (similar_name rfl rfl apart (Ne.symm fresh.1))
      (similar_renameRoutine legal routine obeys.2 fresh.2)
  | .return _ _, _, _, fresh => .return (Expr.similar_renameOption legal fresh)
  | .class name none methods, obeys, apart, fresh => by
    simp only [variableNames, List.mem_cons, List.mem_append, not_or] at fresh
    exact .class (similar_name rfl rfl apart (Ne.symm fresh.1.1))
      (similar_renameMethods (by simpa using legal) methods obeys.2.2 fresh.2)
  | .class name (some superclass) methods, obeys, apart, fresh => by
    simp only [variableNames, List.mem_cons, List.mem_append, Option.map_some, Option.toList_some,
      not_or] at fresh
    have uses : superclass.Similar (r.correspondence depths) marks
        (r.use depths marks superclass) :=
      Renaming.similar_use legal (Ne.symm fresh.1.2.1)
    have different := (obeys.2.1 superclass rfl).2
    refine .subclass (similar_name rfl rfl apart (Ne.symm fresh.1.1)) uses
      ⟨fun same => absurd same different, fun same => ?_⟩
      (similar_renameMethods (by simpa using legal) methods obeys.2.2 fresh.2)
    -- The new name of the superclass is its old one, or one that the class does not have.
    have named := uses.name.text.2
    split at named
    · exact absurd (named.symm.trans same) fresh.1.1
    · exact named.symm.trans same

theorem similar_renameAll {scopes : List Names} {marks : List Bool}
    (legal : true ∈ marks → ¬IsReserved r.declaration.text) :
    ∀ body : List Stmt, AllObey res.rules scopes body →
      (marks.headD false = true → ∀ s ∈ body, r.Apart s) → r.name ∉ variableNamesAll body →
      AllSimilar (r.correspondence depths) marks body (renameAll r depths marks body)
  | [], _, _, _ => .nil
  | s :: rest, obey, apart, fresh => by
    simp only [variableNamesAll, List.mem_append, not_or] at fresh
    exact .cons
      (similar_rename legal s obey.1 (fun marked => apart marked s List.mem_cons_self) fresh.1)
      (similar_renameAll legal rest obey.2
        (fun marked t member => apart marked t (List.mem_cons_of_mem s member)) fresh.2)

theorem similar_renameRoutine {scopes : List Names} {marks : List Bool}
    (legal : true ∈ marks → ¬IsReserved r.declaration.text) :
    ∀ routine : Routine (List Stmt), RoutineObeys res.rules scopes routine →
      r.name ∉ variableNamesOfRoutine routine →
      RoutineSimilar (r.correspondence depths) marks routine (renameRoutine r depths marks routine)
  | ⟨_, params, body⟩, obeys, fresh => by
    simp only [variableNamesOfRoutine, List.mem_append, not_or] at fresh
    have inside := Renaming.legal_isScope params legal obeys.1 obeys.2
    refine .mk _ ?_
      (similar_renameAll inside body obeys.2 (Renaming.apart_of_isScope obeys.2) fresh.2)
    refine List.forall₂_map_right_iff.mpr (List.forall₂_same.mpr fun param member => ?_)
    exact Renaming.similar_apply (fun marked => inside (List.mem_cons.mpr (.inl marked.symm)))
      fun same => fresh.1 (List.mem_map.mpr ⟨param, member, same⟩)

theorem similar_renameMethods {scopes : List Names} {marks : List Bool}
    (legal : true ∈ marks → ¬IsReserved r.declaration.text) :
    ∀ methods : List (Routine (List Stmt)), MethodsObey res.rules scopes methods →
      r.name ∉ variableNamesOfMethods methods →
      MethodsSimilar (r.correspondence depths) marks methods (renameMethods r depths marks methods)
  | [], _, _ => .nil
  | method :: rest, obey, fresh => by
    simp only [variableNamesOfMethods, List.mem_append, not_or] at fresh
    exact .cons (similar_renameRoutine legal method obey.1 fresh.1)
      (similar_renameMethods legal rest obey.2 fresh.2)

end

end Stmt

namespace Program

variable {r : Renaming} {program : Program} {depths : Depths}

theorem similar_rename {res : Resolution} (obeys : program.Obeys res.rules)
    (fresh : r.name ∉ program.variableNames) :
    Stmt.AllSimilar (r.correspondence depths) [] program (program.rename r depths) :=
  Stmt.similar_renameAll (by simp) program obeys (by simp) fresh

/-- Resolving finds the same depths for the renamed program. -/
theorem resolve_rename (accepted : program.resolve = .ok depths) {res : Resolution}
    (obeys : program.Obeys res.rules) (table : res.table = depths) (legal : ¬IsReserved r.name)
    (fresh : r.name ∉ program.variableNames) : (program.rename r depths).resolve = .ok depths := by
  have follows : (r.correspondence depths).Follows res.rules := by
    intro scopes u agrees marks a a' name
    rw [← agrees.depth, table]
    exact name
  obtain ⟨depths', accepted', entries⟩ :=
    resolve_ok_of_similar (r.lawful_correspondence legal depths)
    follows obeys (similar_rename obeys fresh) accepted
  have same : depths' = depths := Std.ExtTreeMap.ext_getElem? fun {id} => entries rfl
  rw [accepted', same]

end Program

end Lox
