import Lox.Proofs.Scope.Padding
import Lox.Proofs.Scope.Violations

set_option autoImplicit false

/-!
# Depths in a block around a statement

What a block around a statement does to the depths of uses. Uses inside of the statement that find
their declaration in one of its own scopes keep their depth. For those that look further out, one
more scope lies in between. The rest of the program does not notice.
-/

namespace Lox

open Scope (Enclosure Occurrence Place Seen)

/-! ## Occurrences in a statement -/

namespace Scope.Place

theorem scopes_append (inner outer : Place) :
    (inner ++ outer).scopes = inner.scopes ++ outer.scopes :=
  List.flatMap_append

/-- A place that is not the top level takes up declarations, whatever is around it. -/
theorem declare_inner {inner : Place} (inside : inner ≠ []) (outer : Place) (name : String) :
    (inner ++ outer).declare name = inner.declare name ++ outer := by
  cases inner with
  | nil => exact absurd rfl inside
  | cons enclosure rest => cases enclosure <;> rfl

theorem declare_ne_nil {p : Place} (inside : p ≠ []) (name : String) : p.declare name ≠ [] := by
  cases p with
  | nil => exact absurd rfl inside
  | cons enclosure rest => cases enclosure <;> exact List.cons_ne_nil _ _

theorem declareAll_inner {inner : Place} (inside : inner ≠ []) (outer : Place)
    (names : List String) :
    (inner ++ outer).declareAll names = inner.declareAll names ++ outer := by
  induction names generalizing inner with
  | nil => rfl
  | cons name rest inductionHypothesis =>
    have first := declare_inner inside outer name
    exact (congrArg (declareAll rest) first).trans
      (inductionHypothesis (declare_ne_nil inside name))

theorem declareAll_ne_nil {p : Place} (inside : p ≠ []) (names : List String) :
    p.declareAll names ≠ [] := by
  induction names generalizing p with
  | nil => exact inside
  | cons name rest inductionHypothesis => exact inductionHypothesis (declare_ne_nil inside name)

/-- A name that no inner scope has is seen one further out behind a block without names. -/
theorem sees_block_of_outside {inner outer : Place} {name : String}
    (outside : ∀ names ∈ inner.scopes, name ∉ names) {depth : Nat} :
    (inner ++ .block [] :: outer).Sees name depth ↔
      ∃ depth', (inner ++ outer).Sees name depth' ∧ depth = depth' + 1 := by
  have missing : inner.scopes.findIdx? (name ∈ ·) = none := by
    rw [List.findIdx?_eq_none_iff]
    exact fun names member => decide_eq_false (outside names member)
  have block : scopes (.block [] :: outer) = [] :: outer.scopes := rfl
  simp only [sees_iff, scopes_append, List.findIdx?_append, missing, Option.none_or, block,
    List.findIdx?_cons]
  cases outer.scopes.findIdx? (name ∈ ·) with
  | none => simp
  | some found =>
    simp
    omega

/-- A name that an inner scope has is seen there. -/
theorem sees_block_of_inside {inner outer : Place} {name : String} {names : List String}
    (member : names ∈ inner.scopes) (declared : name ∈ names) {depth : Nat} :
    (inner ++ .block [] :: outer).Sees name depth ↔ (inner ++ outer).Sees name depth := by
  have found : (inner.scopes.findIdx? (name ∈ ·)).isSome := by
    rw [List.findIdx?_isSome, List.any_eq_true]
    exact ⟨names, member, decide_eq_true declared⟩
  obtain ⟨index, here⟩ := Option.isSome_iff_exists.mp found
  simp only [sees_iff, scopes_append, List.findIdx?_append, here, Option.some_or]

end Scope.Place

def Scope.Occurrence.use? : Occurrence → Option Use
  | .use u _ => some u
  | _ => none

/-- Occurrences that are seen with more around them. -/
def Scope.within (outer : Place) (found : List (Place × Occurrence)) : List (Place × Occurrence) :=
  found.map fun x => (x.1 ++ outer, x.2)

theorem Scope.seen_within {outer : Place} {found : List (Place × Occurrence)} {id : ExprId}
    {depth : Nat} : Seen (within outer found) id depth ↔
      ∃ p u span, (p, .use u span) ∈ found ∧ u.id = id ∧ (p ++ outer).Sees u.name depth := by
  constructor
  · rintro ⟨_, u, span, member, same, sees⟩
    obtain ⟨⟨p, occurrence⟩, occurs, equality⟩ := List.mem_map.mp member
    obtain ⟨rfl, rfl⟩ := Prod.mk.inj equality
    exact ⟨p, u, span, occurs, same, sees⟩
  · rintro ⟨p, u, span, occurs, same, sees⟩
    exact ⟨p ++ outer, u, span, List.mem_map_of_mem occurs, same, sees⟩

namespace Stmt

open Scope (within)

theorem within_map (p outer : Place) (found : List Occurrence) :
    within outer (found.map (p, ·)) = found.map (p ++ outer, ·) := by
  simp [within, Function.comp_def]

theorem within_append (outer : Place) (first second : List (Place × Occurrence)) :
    within outer (first ++ second) = within outer first ++ within outer second :=
  List.map_append

theorem within_params {p : Place} (inside : p ≠ []) (outer : Place) (params : List Ident) :
    Ident.occurrences (p ++ outer) params = within outer (Ident.occurrences p params) := by
  induction params generalizing p with
  | nil => rfl
  | cons param rest inductionHypothesis =>
    have others := inductionHypothesis (Place.declare_ne_nil inside param.text)
    rw [Ident.occurrences, Place.declare_inner inside, others]
    rfl

theorem within_superclass (p outer : Place) (name : Ident) (superclass : Option Reference) :
    Reference.occurrences (p ++ outer) name superclass =
      within outer (Reference.occurrences p name superclass) := by
  cases superclass <;> rfl

mutual

/-- What is around a statement is around all that occurs in it. Declarations of the statement itself
would belong to the innermost scope around it. -/
theorem occurrences_append : ∀ (s : Stmt) (p outer : Place), p ≠ [] ∨ s.declaredNames = [] →
    s.occurrences (p ++ outer) = within outer (s.occurrences p)
  | .expr _, p, outer, _ => (within_map p outer _).symm
  | .print _, p, outer, _ => (within_map p outer _).symm
  | .var name initial, p, outer, allowed => by
    have inside := allowed.resolve_right (List.cons_ne_nil _ _)
    have initials := within_map (.initializer name.text :: p.declare name.text) outer
      (Expr.occurrencesOption initial)
    rw [occurrences, Place.declare_inner inside]
    exact congrArg _ initials.symm
  | .block body, p, outer, _ =>
    occurrencesAll_append body (.block [] :: p) outer (List.cons_ne_nil _ _)
  | .if condition yes none, p, outer, allowed => by
    have second := occurrences_append yes p outer allowed
    rw [occurrences, occurrences, within_append, within_map, second]
  | .if condition yes (some no), p, outer, allowed => by
    have second := occurrences_append yes p outer (allowed.imp_right fun none =>
      (List.append_eq_nil_iff.mp none).1)
    have third := occurrences_append no (p.declareAll yes.declaredNames) outer
      (allowed.imp (Place.declareAll_ne_nil · _) fun none => (List.append_eq_nil_iff.mp none).2)
    have behind : (p ++ outer).declareAll yes.declaredNames =
        p.declareAll yes.declaredNames ++ outer := by
      rcases allowed with inside | none
      · exact Place.declareAll_inner inside outer _
      · rw [(List.append_eq_nil_iff.mp none).1]
        rfl
    rw [occurrences, occurrences, within_append, within_append, within_map, second, behind, third]
  | .while condition body, p, outer, allowed => by
    have second := occurrences_append body p outer allowed
    rw [occurrences, occurrences, within_append, within_map, second]
  | .fun routine, p, outer, allowed => by
    have inside := allowed.resolve_right (List.cons_ne_nil _ _)
    have body := occurrencesOfRoutine_append routine (p.declare routine.name.text) outer false
    rw [occurrences, Place.declare_inner inside, body]
    rfl
  | .return _ value, p, outer, _ => by
    have values := within_map p outer (Expr.occurrencesOption value)
    rw [occurrences, ← values]
    rfl
  | .class name superclass methods, p, outer, allowed => by
    have inside := allowed.resolve_right (List.cons_ne_nil _ _)
    have bodies := occurrencesOfMethods_append methods
      (.class superclass.isSome :: p.declare name.text) outer
    rw [occurrences, occurrences, Place.declare_inner inside, within_superclass, within_append,
      ← bodies]
    rfl

theorem occurrencesAll_append : ∀ (body : List Stmt) (p outer : Place), p ≠ [] →
    occurrencesAll (p ++ outer) body = within outer (occurrencesAll p body)
  | [], _, _, _ => rfl
  | s :: rest, p, outer, inside => by
    have first := occurrences_append s p outer (.inl inside)
    have others := occurrencesAll_append rest (p.declareAll s.declaredNames) outer
      (Place.declareAll_ne_nil inside _)
    rw [occurrencesAll, occurrencesAll, Place.declareAll_inner inside, within_append, first, others]

theorem occurrencesOfRoutine_append : ∀ (routine : Routine (List Stmt)) (p outer : Place)
    (isMethod : Bool), occurrencesOfRoutine (p ++ outer) isMethod routine =
      within outer (occurrencesOfRoutine p isMethod routine)
  | ⟨name, params, body⟩, p, outer, isMethod => by
    have inside : (.routine isMethod name.text [] :: p : Place) ≠ [] := List.cons_ne_nil _ _
    have names := within_params inside outer params
    have statements := occurrencesAll_append body _ outer
      (Place.declareAll_ne_nil inside (params.map Ident.text))
    rw [← Place.declareAll_inner inside] at statements
    rw [occurrencesOfRoutine, occurrencesOfRoutine, within_append, ← names, ← statements]
    rfl

theorem occurrencesOfMethods_append : ∀ (methods : List (Routine (List Stmt))) (p outer : Place),
    occurrencesOfMethods (p ++ outer) methods = within outer (occurrencesOfMethods p methods)
  | [], _, _ => rfl
  | method :: rest, p, outer => by
    have first := occurrencesOfRoutine_append method p outer true
    have others := occurrencesOfMethods_append rest p outer
    rw [occurrencesOfMethods, occurrencesOfMethods, within_append, first, others]

end

/-! ## A statement in a context -/

theorem exists_obeys_of_mem {rules : Scope.Rules} {body : List Stmt} {scopes : List Scope.Names}
    (obey : AllObey rules scopes body) {s : Stmt} (member : s ∈ body) :
    ∃ around, s.Obeys rules around := by
  induction body generalizing scopes with
  | nil => cases member
  | cons first rest inductionHypothesis =>
    rcases List.mem_cons.mp member with rfl | later
    · exact ⟨scopes, obey.1⟩
    · exact inductionHypothesis obey.2 later

theorem routineObeys_of_mem {rules : Scope.Rules} {methods : List (Routine (List Stmt))}
    {scopes : List Scope.Names} (obey : MethodsObey rules scopes methods)
    {method : Routine (List Stmt)} (member : method ∈ methods) :
    RoutineObeys rules scopes method := by
  induction methods with
  | nil => cases member
  | cons first rest inductionHypothesis =>
    rcases List.mem_cons.mp member with rfl | later
    · exact obey.1
    · exact inductionHypothesis obey.2 later

/-- A statement in a hole obeys the rules in the scopes around the hole. -/
theorem Context.exists_obeys {rules : Scope.Rules} {s : Stmt} : ∀ (c : Context)
    {scopes : List Scope.Names}, (c.fill s).Obeys rules scopes → ∃ around, s.Obeys rules around
  | .hole, scopes, obeys => ⟨scopes, obeys⟩
  | .block _ inner _, _, obeys => by
    obtain ⟨_, here⟩ := exists_obeys_of_mem obeys (List.mem_append_right _ List.mem_cons_self)
    exact inner.exists_obeys here
  | .ifYes _ inner none, _, obeys => inner.exists_obeys obeys.2.2
  | .ifYes _ inner (some _), _, obeys => inner.exists_obeys obeys.2.1.2
  | .ifNo _ _ inner, _, obeys => inner.exists_obeys obeys.2.2.2
  | .while _ inner, _, obeys => inner.exists_obeys obeys.2.2
  | .fun _ _ _ inner _, _, obeys => by
    obtain ⟨_, here⟩ := exists_obeys_of_mem obeys.2.2 (List.mem_append_right _ List.mem_cons_self)
    exact inner.exists_obeys here
  | .class _ _ _ _ _ _ inner _ _, _, obeys => by
    have routine := routineObeys_of_mem obeys.2.2 (List.mem_append_right _ List.mem_cons_self)
    obtain ⟨_, here⟩ := exists_obeys_of_mem routine.2 (List.mem_append_right _ List.mem_cons_self)
    exact inner.exists_obeys here

theorem Context.declaredNames_fill {s s' : Stmt} (same : s'.declaredNames = s.declaredNames) :
    ∀ c : Context, (c.fill s').declaredNames = (c.fill s).declaredNames
  | .hole => same
  | .block .. => rfl
  | .ifYes _ inner none => inner.declaredNames_fill same
  | .ifYes _ inner (some no) => congrArg (· ++ no.declaredNames) (inner.declaredNames_fill same)
  | .ifNo _ yes inner => congrArg (yes.declaredNames ++ ·) (inner.declaredNames_fill same)
  | .while _ inner => inner.declaredNames_fill same
  | .fun .. => rfl
  | .class .. => rfl

/-- What occurs in a program with a hole: something before the hole, what is in it, and something
behind it. All but the second does not depend on the statement in the hole if it declares
nothing. -/
def Surrounds (fill : Stmt → List (Place × Occurrence)) : Prop :=
  ∃ before p after, ∀ s : Stmt, s.declaredNames = [] → fill s = before ++ s.occurrences p ++ after

theorem Surrounds.behind {fill : Stmt → List (Place × Occurrence)} (surrounds : Surrounds fill)
    (first last : List (Place × Occurrence)) : Surrounds fun s => first ++ fill s ++ last := by
  obtain ⟨before, p, after, equal⟩ := surrounds
  refine ⟨first ++ before, p, after ++ last, fun s undeclared => ?_⟩
  simp only [equal s undeclared, List.append_assoc]

theorem Surrounds.congr {fill fill' : Stmt → List (Place × Occurrence)} (surrounds : Surrounds fill)
    (same : ∀ s, s.declaredNames = [] → fill' s = fill s) : Surrounds fill' := by
  obtain ⟨before, p, after, equal⟩ := surrounds
  exact ⟨before, p, after, fun s undeclared => (same s undeclared).trans (equal s undeclared)⟩

/-- Statements of which one has a hole. -/
theorem surrounds_middle {inner : Context}
    (surrounds : ∀ p, Surrounds fun s => (inner.fill s).occurrences p) (before after : List Stmt)
    (p : Place) : Surrounds fun s => occurrencesAll p (before ++ inner.fill s :: after) := by
  induction before generalizing p with
  | nil =>
    refine (surrounds p).behind []
      (occurrencesAll (p.declareAll (inner.fill (.block [])).declaredNames)
      after) |>.congr fun s undeclared => ?_
    have names := inner.declaredNames_fill (s := .block []) undeclared
    rw [List.nil_append, occurrencesAll, names]
    rfl
  | cons first before inductionHypothesis =>
    refine (inductionHypothesis (p.declareAll first.declaredNames)).behind (first.occurrences p) []
      |>.congr fun s undeclared => ?_
    exact (List.append_nil _).symm

theorem surrounds_methods (method : Stmt → Routine (List Stmt)) {p : Place}
    (surrounds : Surrounds fun s => occurrencesOfRoutine p true (method s))
    (earlier later : List (Routine (List Stmt))) :
    Surrounds fun s => occurrencesOfMethods p (earlier ++ method s :: later) := by
  induction earlier with
  | nil => exact surrounds.behind [] (occurrencesOfMethods p later)
  | cons first earlier inductionHypothesis =>
    refine (inductionHypothesis).behind (occurrencesOfRoutine p true first) []
      |>.congr fun s undeclared => ?_
    exact (List.append_nil _).symm

theorem Context.surrounds : ∀ (c : Context) (p : Place), Surrounds fun s => (c.fill s).occurrences p
  | .hole, p => ⟨[], p, [], fun s _ => (List.append_nil _).symm⟩
  | .block before inner after, p => surrounds_middle inner.surrounds before after (.block [] :: p)
  | .ifYes condition inner none, p =>
    (inner.surrounds p).behind (condition.occurrences.map (p, ·)) [] |>.congr
      fun _ _ => (List.append_nil _).symm
  | .ifYes condition inner (some no), p => by
    refine (inner.surrounds p).behind (condition.occurrences.map (p, ·))
      (no.occurrences (p.declareAll (inner.fill (.block [])).declaredNames)) |>.congr
      fun s undeclared => ?_
    have names := inner.declaredNames_fill (s := .block []) undeclared
    rw [Context.fill, occurrences, names]
  | .ifNo condition yes inner, p =>
    (inner.surrounds (p.declareAll yes.declaredNames)).behind
      (condition.occurrences.map (p, ·) ++ yes.occurrences p) [] |>.congr
      fun _ _ => (List.append_nil _).symm
  | .while condition inner, p =>
    (inner.surrounds p).behind (condition.occurrences.map (p, ·)) [] |>.congr
      fun _ _ => (List.append_nil _).symm
  | .fun name params before inner after, p => by
    have body := surrounds_middle inner.surrounds before after
      (Place.declareAll (params.map Ident.text)
        (.routine false name.text [] :: p.declare name.text))
    refine body.behind ((p, .declaration name) ::
      Ident.occurrences (.routine false name.text [] :: p.declare name.text) params) [] |>.congr
      fun _ _ => ?_
    exact (List.append_nil _).symm
  | .class name superclass earlier method params before inner after later, p => by
    have body :=
      surrounds_middle inner.surrounds before after (Place.declareAll (params.map Ident.text)
      (.routine true method.text [] :: .class superclass.isSome :: p.declare name.text))
    have routine := body.behind (Ident.occurrences
      (.routine true method.text [] :: .class superclass.isSome :: p.declare name.text) params) []
    have methods := surrounds_methods (fun s => ⟨method, params, before ++ inner.fill s :: after⟩)
      (routine.congr fun _ _ => (List.append_nil _).symm) earlier later
    refine methods.behind ((p, .declaration name) ::
      Reference.occurrences (p.declare name.text) name superclass) [] |>.congr fun _ _ => ?_
    exact (List.append_nil _).symm

/-- A use in a statement whose name is declared in none of the scopes of the statement. -/
def UsesOutside (s : Stmt) (id : ExprId) : Prop :=
  ∃ p u span, (p, .use u span) ∈ s.occurrences [] ∧ u.id = id ∧
    ∀ names ∈ Place.scopes p, u.name ∉ names

instance (s : Stmt) (id : ExprId) : Decidable (s.UsesOutside id) :=
  decidable_of_iff (∃ x ∈ s.occurrences [], ∃ u ∈ x.2.use?, u.id = id ∧
    ∀ names ∈ Place.scopes x.1, u.name ∉ names) <| by
  constructor
  · rintro ⟨⟨p, occurrence⟩, occurs, u, used, same, outside⟩
    cases occurrence with
    | use =>
      cases used
      exact ⟨p, _, _, occurs, same, outside⟩
    | _ => cases used
  · rintro ⟨p, u, span, occurs, same, outside⟩
    exact ⟨_, occurs, u, rfl, same, outside⟩

end Stmt

namespace Program

theorem Context.surrounds (c : Context) : Stmt.Surrounds fun s => (c.fill s).occurrences :=
  Stmt.surrounds_middle c.inner.surrounds c.before c.after []

theorem getElem?_depths_iff {program : Program} {depths : Depths}
    (accepted : program.resolve = .ok depths) (distinct : program.ids.Nodup) {id : ExprId}
    {depth : Nat} : depths[id]? = some depth ↔ Seen program.occurrences id depth := by
  refine ⟨seen_of_getElem? accepted, ?_⟩
  rintro ⟨p, u, span, occurs, rfl, sees⟩
  exact (getElem?_depths_of_occurs accepted distinct occurs).mpr sees

/-- What occurs in a program with a statement in a hole, and in the program with a block around
it. -/
theorem Context.occurrences_fill (c : Context) {s : Stmt} (undeclared : s.declaredNames = []) :
    ∃ before p after,
      (c.fill s).occurrences = before ++ Scope.within p (s.occurrences []) ++ after ∧
      (c.fill (.block [s])).occurrences =
        before ++ Scope.within (.block [] :: p) (s.occurrences []) ++ after := by
  obtain ⟨before, p, after, equal⟩ := c.surrounds
  dsimp only at equal
  have around : ∀ p : Place, s.occurrences p = Scope.within p (s.occurrences []) := fun p =>
    Stmt.occurrences_append s [] p (.inr undeclared)
  refine ⟨before, p, after, ?_, ?_⟩
  · rw [equal s undeclared, around]
  · rw [equal (.block [s]) rfl, ← around]
    simp [Stmt.occurrences, Stmt.occurrencesAll]

/-- A block around a statement: the uses in it that look for a name outside of it have one more
scope to pass, and all other uses in the program are as far from their declarations as before. -/
theorem Context.getElem?_depths_block (c : Context) {s : Stmt} (undeclared : s.declaredNames = [])
    {depths depths' : Depths} (accepted : (c.fill s).resolve = .ok depths)
    (accepted' : (c.fill (.block [s])).resolve = .ok depths') (distinct : (c.fill s).ids.Nodup)
    (distinct' : (c.fill (.block [s])).ids.Nodup) (id : ExprId) :
    (s.UsesOutside id → depths'[id]? = depths[id]?.map (· + 1)) ∧
      (¬s.UsesOutside id → depths'[id]? = depths[id]?) := by
  obtain ⟨before, p, after, occurs, occurs'⟩ := c.occurrences_fill undeclared
  have member : ∀ {outer q : Place} {o : Occurrence}, (q, o) ∈ s.occurrences [] →
      (q ++ outer, o) ∈ before ++ Scope.within outer (s.occurrences []) ++ after :=
    fun found => List.mem_append_left _ (List.mem_append_right _ (List.mem_map_of_mem found))
  constructor
  · rintro ⟨q, u, span, found, rfl, outside⟩
    have entry := @getElem?_depths_of_occurs _ _ accepted distinct _ _ span (occurs ▸ member found)
    have entry' :=
      @getElem?_depths_of_occurs _ _ accepted' distinct' _ _ span (occurs' ▸ member found)
    refine Option.ext fun depth => ?_
    rw [entry', Place.sees_block_of_outside outside, Option.map_eq_some_iff]
    simp only [entry, eq_comm]
  · intro inside
    have seen : ∀ depth, Seen (Scope.within (.block [] :: p) (s.occurrences [])) id depth ↔
        Seen (Scope.within p (s.occurrences [])) id depth := by
      intro depth
      rw [Scope.seen_within, Scope.seen_within]
      refine exists_congr fun q => exists_congr fun u => exists_congr fun span =>
        and_congr_right fun found => and_congr_right fun same => ?_
      obtain ⟨names, member, declared⟩ : ∃ names ∈ q.scopes, u.name ∈ names := by
        by_contra none
        exact inside ⟨q, u, span, found, same, fun names member declared => none
          ⟨names, member, declared⟩⟩
      exact Place.sees_block_of_inside member declared
    refine Option.ext fun depth => ?_
    rw [getElem?_depths_iff accepted distinct, getElem?_depths_iff accepted' distinct',
      occurs, occurs']
    simp only [Scope.seen_append, seen]

end Program

end Lox
