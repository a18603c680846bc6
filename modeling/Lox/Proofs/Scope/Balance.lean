import Lox.Proofs.Grammar.Nesting
import Lox.Proofs.Grammar.Programs
import Lox.Proofs.Scope.Steps

set_option autoImplicit false

/-!
# The context of the resolver

Whatever the resolver does for an expression or a statement, with faults or without, it comes back
to the scopes, the routine and the class that it started with, up to the names that the statement
declares.

What it does for a program is also written down step by step. Between any two steps one name at most
is not completely declared, in all scopes together. That name is in the innermost scope, and either
the initializer of its variable is being resolved, or it was declared by the last step and is
completed by the next one.
-/

namespace Lox

open Scope (Names Rules State RoutineKind ClassKind)
open Scope.State (Extends)

namespace Scope

/-! ## What is kept -/

/-- From one state to a later one, in the same scopes but for some names that were declared in the
innermost one. -/
structure Balanced (ids : List ExprId) (declared : List String) (s s' : State) :
    Prop extends Extends ids s s' where
  height : s'.scopes.length = s.scopes.length
  outer : s'.scopes.tail = s.scopes.tail
  innermost : s'.scopes.head? = s.scopes.head?.map fun names =>
    declared.foldl (fun names name => names.insert name true) names

theorem Balanced.of_extends {ids : List ExprId} {declared : List String} {s s' : State}
    (kept : Extends ids s s') (scopes : s'.scopes = markAll s.scopes declared) :
    Balanced ids declared s s' := by
  cases around : s.scopes with
  | nil =>
    have unchanged : s'.scopes = [] := by
      rw [scopes, around]
      exact List.foldl_fixed' (fun name => mark_nil name true) declared
    exact ⟨kept, by simp [around, unchanged], by simp [around, unchanged],
      by simp [around, unchanged]⟩
  | cons innermost outer =>
    rw [around, markAll_cons] at scopes
    exact ⟨kept, by simp [around, scopes], by simp [around, scopes], by simp [around, scopes]⟩

/-! ## Moments -/

/-- Between two steps, the initializer of a variable is being resolved. -/
def Initializing (statements : List Stmt) (done rest : List Step) (name : String) : Prop :=
  ∃ declared initial before inside remaining after, .var declared (some initial) ∈ statements ∧
    declared.text = name ∧ initial.steps = inside ++ remaining ∧
    done = before ++ .declare declared :: inside ∧ rest = remaining ++ .define declared :: after

/-- The last step has started the declaration of a name, and the next one completes it. -/
def Completing (done rest : List Step) (name : String) : Prop :=
  ∃ declared before after, done = before ++ [.declare declared] ∧ rest = .define declared :: after ∧
    declared.text = name

/-- A name that is not completely declared is the only one. It is in the innermost scope, and the
initializer of its variable is being resolved, unless it was declared by the last step and is
completed by the next one. -/
def OnePending (statements : List Stmt) (done rest : List Step) (scopes : List Names) : Prop :=
  ∀ depth names name, scopes[depth]? = some names → names.find? name = some false →
    depth = 0 ∧ (∀ other, names.find? other = some false → other = name) ∧
      (Initializing statements done rest name ∨ Completing done rest name)

/-- So it is before, between and behind some steps. -/
def Watched (statements : List Stmt) (steps : List Step) (m : Moment) : Prop :=
  ∀ done rest, steps = done ++ rest → OnePending statements done rest (Step.run done m).state.scopes

/-- All names in all scopes are completely declared. -/
def AllComplete (scopes : List Names) : Prop :=
  ∀ names ∈ scopes, ∀ name, names.find? name ≠ some false

structure Follows (steps : List Step) (m m' : Moment) : Prop where
  run : Step.run steps m = m'
  scopes : ∀ step ∈ steps, ∀ m, (step.apply m).state.scopes = m.state.scopes

structure Takes (statements : List Stmt) (steps : List Step) (m m' : Moment) : Prop where
  run : Step.run steps m = m'
  watched : AllComplete m.state.scopes → Watched statements steps m
  complete : AllComplete m.state.scopes → AllComplete m'.state.scopes

section

variable {statements statements' : List Stmt} {steps steps' done rest : List Step}
  {m m' m'' : Moment}
  {scopes : List Names} {name : String}

theorem Initializing.extend (initializing : Initializing statements done rest name)
    (inside : statements ⊆ statements') (before after : List Step) :
    Initializing statements' (before ++ done) (rest ++ after) name := by
  obtain ⟨declared, initial, front, within, remaining, behind, member, same, split, rfl, rfl⟩ :=
    initializing
  exact ⟨declared, initial, before ++ front, within, remaining, behind ++ after,
    inside member, same, split, by simp, by simp⟩

theorem OnePending.extend (one : OnePending statements done rest scopes)
    (inside : statements ⊆ statements') (before after : List Step) :
    OnePending statements' (before ++ done) (rest ++ after) scopes := by
  intro depth names name there incomplete
  obtain ⟨innermost, only, pending⟩ := one depth names name there incomplete
  refine ⟨innermost, only, ?_⟩
  rcases pending with initializing | ⟨declared, front, behind, rfl, rfl, same⟩
  · exact .inl (initializing.extend inside before after)
  · exact .inr ⟨declared, before ++ front, behind ++ after, by simp, rfl, same⟩

theorem AllComplete.onePending (complete : AllComplete scopes) :
    OnePending statements done rest scopes :=
  fun _ names name there incomplete =>
    absurd incomplete (complete names (List.mem_of_getElem? there) name)

theorem AllComplete.mark (complete : AllComplete scopes) (name : String) :
    AllComplete (mark scopes name true) := by
  cases scopes with
  | nil => exact complete
  | cons innermost outer =>
    obtain ⟨first, others⟩ := List.forall_mem_cons.mp complete
    refine List.forall_mem_cons.mpr ⟨fun other => ?_, others⟩
    rw [Bindings.find?_insert]
    split
    · exact nofun
    · exact first other

/-- The declaration of one more name has started. -/
theorem AllComplete.onePending_mark (complete : AllComplete scopes)
    (pending : Initializing statements done rest name ∨ Completing done rest name) :
    OnePending statements done rest (Scope.mark scopes name false) := by
  cases scopes with
  | nil =>
    intro depth names other there
    cases there
  | cons innermost outer =>
    obtain ⟨first, others⟩ := List.forall_mem_cons.mp complete
    have only : ∀ other, (innermost.insert name false).find? other = some false → other = name := by
      intro other incomplete
      by_contra different
      rw [Bindings.find?_insert_of_ne innermost false different] at incomplete
      exact first other incomplete
    intro depth names other there incomplete
    cases depth with
    | zero =>
      obtain rfl : innermost.insert name false = names := Option.some.inj there
      obtain rfl := only other incomplete
      exact ⟨rfl, only, pending⟩
    | succ depth => exact absurd incomplete (others names (List.mem_of_getElem? there) other)

theorem Watched.append (first : Watched statements steps m)
    (second : Watched statements' steps' (Step.run steps m)) :
    Watched (statements ++ statements') (steps ++ steps') m := by
  intro done rest split
  rcases List.append_eq_append_iff.mp split with ⟨more, rfl, later⟩ | ⟨more, earlier, rfl⟩
  · have moment := second more rest later
    rw [← List.append_nil rest, Step.run_append]
    exact moment.extend (List.subset_append_right _ _) steps []
  · exact (first done more earlier).extend (List.subset_append_left _ _) [] steps'

namespace Follows

theorem nil : Follows [] m m :=
  ⟨rfl, List.forall_mem_nil _⟩

theorem single (step : Step) (same : ∀ m, (step.apply m).state.scopes = m.state.scopes) :
    Follows [step] m (step.apply m) :=
  ⟨rfl, List.forall_mem_singleton.mpr same⟩

theorem append (first : Follows steps m m') (second : Follows steps' m' m'') :
    Follows (steps ++ steps') m m'' where
  run := by rw [Step.run_append, first.run, second.run]
  scopes := List.forall_mem_append.mpr ⟨first.scopes, second.scopes⟩

/-- The scopes are the same all along. -/
theorem scopes_run (follows : Follows (done ++ rest) m m') :
    (Step.run done m).state.scopes = m.state.scopes := by
  have same := (List.forall_mem_append.mp follows.scopes).1
  clear follows
  induction done generalizing m with
  | nil => rfl
  | cons step done inductionHypothesis =>
    obtain ⟨first, others⟩ := List.forall_mem_cons.mp same
    exact (inductionHypothesis others).trans (first m)

theorem same_scopes (follows : Follows steps m m') : m'.state.scopes = m.state.scopes := by
  rw [← follows.run]
  rw [← List.append_nil steps] at follows
  exact follows.scopes_run

theorem takes (follows : Follows steps m m') : Takes [] steps m m' where
  run := follows.run
  watched complete done rest split := by
    subst split
    rw [follows.scopes_run]
    exact complete.onePending
  complete known := by rwa [follows.same_scopes]

end Follows

namespace Takes

theorem append (first : Takes statements steps m m') (second : Takes statements' steps' m' m'') :
    Takes (statements ++ statements') (steps ++ steps') m m'' where
  run := by rw [Step.run_append, first.run, second.run]
  watched complete := by
    have later := second.watched (first.complete complete)
    rw [← first.run] at later
    exact (first.watched complete).append later
  complete known := second.complete (first.complete known)

theorem andThen (first : Takes statements steps m m') (second : Takes [] steps' m' m'') :
    Takes statements (steps ++ steps') m m'' := by
  rw [← List.append_nil statements]
  exact first.append second

/-- What is done for a statement is done for one around it. -/
theorem cons (takes : Takes statements steps m m') (around : Stmt) :
    Takes (around :: statements) steps m m' where
  run := takes.run
  watched complete done rest split := by
    have moment := takes.watched complete done rest split
    rw [← List.append_nil rest]
    exact moment.extend (List.subset_cons_self _ _) [] []
  complete := takes.complete

/-- A step that leaves nothing incomplete. -/
theorem single (step : Step)
    (complete : AllComplete m.state.scopes → AllComplete (step.apply m).state.scopes) :
    Takes [] [step] m (step.apply m) where
  run := rfl
  watched known done rest split := by
    rcases List.singleton_eq_append_iff.mp split with ⟨rfl, rfl⟩ | ⟨rfl, rfl⟩
    · exact known.onePending
    · exact (complete known).onePending
  complete := complete

theorem push : Takes [] [.push] m (Step.push.apply m) :=
  single _ fun complete => List.forall_mem_cons.mpr ⟨fun _ => nofun, complete⟩

theorem pop : Takes [] [.pop] m (Step.pop.apply m) :=
  single _ fun complete names member => complete names (List.mem_of_mem_tail member)

theorem bind (name : String) : Takes [] [.bind name] m ((Step.bind name).apply m) :=
  single _ fun complete => by
    rw [Step.apply, State.mark_scopes]
    exact complete.mark name

/-- What is done between the start of a declaration and its end only uses names. -/
theorem declaration {name : Ident} (follows : Follows steps ((Step.declare name).apply m) m')
    (pending : ∀ done rest, steps = done ++ rest →
      Initializing statements (.declare name :: done) (rest ++ [.define name]) name.text ∨
        Completing (.declare name :: done) (rest ++ [.define name]) name.text) :
    Takes statements (.declare name :: (steps ++ [.define name])) m
      ((Step.define name).apply m') := by
  have run : Step.run (.declare name :: (steps ++ [.define name])) m =
      (Step.define name).apply m' := by
    rw [← follows.run]
    exact Step.run_append steps [.define name] _
  have complete (known : AllComplete m.state.scopes) :
      AllComplete ((Step.define name).apply m').state.scopes := by
    rw [Step.apply, State.define_scopes, follows.same_scopes, Step.apply,
      State.declare_scopes, mark_mark]
    exact known.mark name.text
  refine ⟨run, fun known done rest split => ?_, complete⟩
  cases done with
  | nil => exact known.onePending
  | cons step done =>
    rcases List.eq_nil_or_concat rest with rfl | ⟨rest, last, rfl⟩
    · rw [List.append_nil] at split
      rw [← split, run]
      exact (complete known).onePending
    · rw [List.concat_eq_append] at split ⊢
      obtain ⟨rfl, behind⟩ := List.cons.inj split
      obtain ⟨rfl, ended⟩ :=
        List.append_inj' (behind.trans (List.append_assoc done rest [last]).symm) rfl
      have moment := known.onePending_mark (pending done rest rfl)
      rw [← m.state.declare_scopes name, ended] at moment
      exact follows.scopes_run ▸ moment

end Takes

end

end Scope

open Scope (Follows Takes Moment Step)

mutual

theorem Expr.follows :
    ∀ (e : Expr) (m : Moment), Follows e.steps m { m with state := e.resolve m.state }
  | .literal .., _ => .nil
  | .ref target, _ => .single _ (·.state.useName_scopes target)
  | .assign id name value, m =>
    (value.follows m).append (.single (.write ..) (·.state.resolve_scopes id name.text))
  | .binary _ _ _ left right, m | .logical _ _ _ left right, m =>
    (left.follows m).append (right.follows _)
  | .unary _ _ _ inner, m | .group _ _ inner, m | .get _ inner _, m => inner.follows m
  | .call _ _ callee args, m => (callee.follows m).append (Expr.followsAll args _)
  | .set _ object _ value, m => (value.follows m).append (object.follows _)
  | .this id span, _ => .single (.this ..) (·.state.useThis_scopes id span)
  | .super id span _, _ => .single (.super ..) (·.state.useSuper_scopes id span)

theorem Expr.followsAll : ∀ (es : List Expr) (m : Moment),
    Follows (Expr.stepsAll es) m { m with state := Expr.resolveAll es m.state }
  | [], _ => .nil
  | e :: rest, m => (e.follows m).append (Expr.followsAll rest _)

end

theorem Expr.followsOption : ∀ (e : Option Expr) (m : Moment),
    Follows (Expr.stepsOption e) m { m with state := Expr.resolveOption e m.state }
  | none, _ => .nil
  | some e, m => e.follows m

namespace Stmt

theorem takesDeclaration (name : Ident) (m : Moment) :
    Takes [] [.declare name, .define name] m
      { m with state := (m.state.declare name).define name } :=
  .declaration .nil fun done rest split => by
    obtain ⟨rfl, rfl⟩ := List.nil_eq_append_iff.mp split
    exact .inr ⟨name, [], [], rfl, rfl, rfl⟩

theorem takesDeclarations (names : List Ident) (m : Moment) :
    Takes [] (Ident.steps names) m
      { m with state := names.foldl (fun s name => (s.declare name).define name) m.state } := by
  induction names generalizing m with
  | nil => exact Follows.nil.takes
  | cons name rest inductionHypothesis =>
    exact (takesDeclaration name m).append (inductionHypothesis _)

theorem takesSuperclass (name : Ident) (superclass : Option Reference) (m : Moment) :
    Takes [] (Reference.steps name superclass) m { m with state :=
      match superclass with
      | some superclass => m.state.enterSuperclass name superclass
      | none => m.state } := by
  cases superclass with
  | none => exact Follows.nil.takes
  | some superclass =>
    have reported (m : Moment) : ((Step.inherit name superclass.name).apply m).state.scopes =
        m.state.scopes := by
      rw [Step.apply]
      dsimp only
      split <;> rfl
    have used : Follows [.inherit name superclass.name, .subclass, .read superclass] m _ :=
      (Follows.single _ reported).append ((Follows.single .subclass fun _ => rfl).append
        (.single (.read _) (·.state.useName_scopes superclass)))
    exact used.takes.append (Takes.push.append (.bind "super"))

theorem takesLeave (superclass : Option Reference) (m : Moment) :
    Takes [] (.pop :: (superclass.map fun _ => Step.pop).toList ++ [.leaveClass]) m
      { m with
        state := m.state.leaveClass superclass (m.classes.headD .none)
        classes := m.classes.tail } := by
  have left : ∀ m, Takes [] [.leaveClass] m (Step.leaveClass.apply m) := fun m => .single _ id
  cases superclass with
  | none => exact Takes.pop.append (left _)
  | some _ => exact Takes.pop.append (Takes.pop.append (left _))

mutual

theorem takes : ∀ (statement : Stmt) (m : Moment),
    Takes statement.statements statement.steps m { m with state := statement.resolve m.state }
  | .expr value, m | .print value, m => (value.follows m).takes.cons _
  | .var name none, m => (takesDeclaration name m).cons _
  | .var name (some initial), _ =>
    .declaration (initial.follows _) fun done rest split =>
      .inl ⟨name, initial, [], done, rest, [], List.mem_singleton_self _, rfl, split, rfl, rfl⟩
  | .block body, _ => .cons (Takes.push.append ((takesAll body _).andThen .pop)) _
  | .if condition yes none, m | .while condition yes, m =>
    .cons ((condition.follows m).takes.append (takes yes _)) _
  | .if condition yes (some no), m =>
    .cons ((condition.follows m).takes.append ((takes yes _).append (takes no _))) _
  | .fun routine, m =>
    .cons ((takesDeclaration routine.name m).append (takesRoutine routine .function _)) _
  | .return keyword value, _ =>
    .cons ((Follows.single (.return ..) (·.state.useReturn_scopes keyword value.isSome)).append
      (Expr.followsOption value _)).takes _
  | .class name superclass methods, _ =>
    .cons (((Takes.single .enterClass id).append (takesDeclaration name _)).append
      ((takesSuperclass name superclass _).append ((Takes.push.append (.bind "this")).append
        ((takesMethods methods _).andThen (takesLeave superclass _))))) _

theorem takesAll : ∀ (body : List Stmt) (m : Moment),
    Takes (statementsAll body) (stepsAll body) m { m with state := Stmt.resolveAll body m.state }
  | [], _ => Follows.nil.takes
  | statement :: rest, m => (takes statement m).append (takesAll rest _)

theorem takesRoutine : ∀ (routine : Routine (List Stmt)) (kind : RoutineKind) (m : Moment),
    Takes (statementsOfRoutine routine) (stepsOfRoutine kind routine) m
      { m with state := Stmt.resolveRoutine routine kind m.state }
  | ⟨_, params, body⟩, kind, _ =>
    ((Takes.single (.enterRoutine kind) id).append .push).append
      ((takesDeclarations params _).append
      ((takesAll body _).andThen (Takes.pop.append (.single .leaveRoutine id))))

theorem takesMethods : ∀ (methods : List (Routine (List Stmt))) (m : Moment),
    Takes (statementsOfMethods methods) (stepsOfMethods methods) m
      { m with state := Stmt.resolveMethods methods m.state }
  | [], _ => Follows.nil.takes
  | method :: rest, m => (takesRoutine method _ m).append (takesMethods rest _)

end

end Stmt

/-! ## What a program declares -/

namespace Stmt

variable {rules : Rules}

mutual

/-- Rules that a statement obeys are obeyed by each statement in it. -/
theorem Obeys.forall_statements : ∀ {s : Stmt} {scopes : List Names}, s.Obeys rules scopes →
    ∀ inner ∈ s.statements, ∃ around, inner.Obeys rules around
  | .expr _, scopes, obeys | .print _, scopes, obeys | .var .., scopes, obeys
  | .return .., scopes, obeys =>
    List.forall_mem_singleton.mpr ⟨scopes, obeys⟩
  | .block _, scopes, obeys =>
    List.forall_mem_cons.mpr ⟨⟨scopes, obeys⟩, AllObey.forall_statements obeys⟩
  | .if _ _ none, scopes, obeys | .while .., scopes, obeys =>
    List.forall_mem_cons.mpr ⟨⟨scopes, obeys⟩, obeys.2.2.forall_statements⟩
  | .if _ _ (some _), scopes, obeys =>
    List.forall_mem_cons.mpr ⟨⟨scopes, obeys⟩,
      List.forall_mem_append.mpr ⟨obeys.2.1.2.forall_statements, obeys.2.2.2.forall_statements⟩⟩
  | .fun _, scopes, obeys =>
    List.forall_mem_cons.mpr ⟨⟨scopes, obeys⟩, RoutineObeys.forall_statements obeys.2⟩
  | .class .., scopes, obeys =>
    List.forall_mem_cons.mpr ⟨⟨scopes, obeys⟩, MethodsObey.forall_statements obeys.2.2⟩

theorem AllObey.forall_statements :
    ∀ {body : List Stmt} {scopes : List Names}, AllObey rules scopes body →
    ∀ inner ∈ statementsAll body, ∃ around, inner.Obeys rules around
  | [], _, _ => List.forall_mem_nil _
  | _ :: _, _, obeys =>
    List.forall_mem_append.mpr ⟨obeys.1.forall_statements, AllObey.forall_statements obeys.2⟩

theorem RoutineObeys.forall_statements : ∀ {routine : Routine (List Stmt)} {scopes : List Names},
    RoutineObeys rules scopes routine →
      ∀ inner ∈ statementsOfRoutine routine, ∃ around, inner.Obeys rules around
  | ⟨_, _, _⟩, _, obeys => AllObey.forall_statements obeys.2

theorem MethodsObey.forall_statements :
    ∀ {methods : List (Routine (List Stmt))} {scopes : List Names},
    MethodsObey rules scopes methods →
      ∀ inner ∈ statementsOfMethods methods, ∃ around, inner.Obeys rules around
  | [], _, _ => List.forall_mem_nil _
  | _ :: _, _, obeys =>
    List.forall_mem_append.mpr ⟨RoutineObeys.forall_statements obeys.1,
      MethodsObey.forall_statements obeys.2⟩

end

end Stmt

open Scope (Balanced OnePending Initializing Completing)

/-- An expression leaves the scopes as they were. A statement adds to the innermost one what it
declares there: its own name if it is a declaration, and otherwise the names that are declared in it
outside of all blocks, of which there are none in a program that was read. The routine and the class
are the same as before, no fault is taken back and no depth forgotten. All of that is done in steps,
and before, between and behind those of a program at most one name is not completely declared. -/
theorem Scope.context_balanced :
    (∀ (e : Expr) (m : Moment), Balanced e.ids [] m.state (e.resolve m.state) ∧
      Step.run e.steps m = { m with state := e.resolve m.state }) ∧
    (∀ (statement : Stmt) (m : Moment),
      Balanced statement.ids statement.declaredNames m.state (statement.resolve m.state) ∧
        Step.run statement.steps m = { m with state := statement.resolve m.state } ∧
        ∀ name, statement.declared? = some name → statement.declaredNames = [name.text]) ∧
    (∀ (source : String) (tokens : List Token) (firstId : ExprId) (program : Program),
      Token.tokenize source = .ok tokens → (Program.parse tokens firstId).result = .ok program →
        ∀ statement ∈ program.statements, statement.declared? = none →
          statement.declaredNames = []) ∧
    (∀ (program : Program) (done rest : List Step), program.steps = done ++ rest →
      OnePending program.statements done rest (Step.run done {}).state.scopes) := by
  refine ⟨fun e m => ⟨.of_extends (e.resolve_extends _) (e.resolve_scopes _), (e.follows m).run⟩,
    fun statement m => ⟨.of_extends (statement.resolve_extends _) (statement.scopes_resolve _),
      (statement.takes m).run, fun _ => Stmt.declaredNames_eq_singleton⟩,
    fun source tokens firstId program scanned parsed statement member undeclared => ?_,
    fun program => (Stmt.takesAll program {}).watched (List.forall_mem_nil _)⟩
  obtain ⟨_, obeys⟩ :=
    (Program.parse_ok (Token.tokenize_isPlain scanned) parsed).2.forall_statements statement member
  exact statement.declaredNames_eq_nil obeys undeclared

/-- Before the initializer of a local variable is resolved, its name is not completely declared. -/
theorem Scope.context_balanced_in_initializer :
    let source := "\x7b var a = b; \x7d"
    ∃ tokens program, Token.tokenize source = .ok tokens ∧
      (Program.parse tokens 0).result = .ok program ∧
      (∀ statement ∈ program.statements, statement.declared? = none →
        statement.declaredNames = []) ∧
      (Step.run (program.steps.take 2) {}).state.scopes.map (·.find? "a") = [some false] ∧
      Initializing program.statements (program.steps.take 2) (program.steps.drop 2) "a" := by
  intro source
  have read : ((Token.tokenize source).toOption.bind fun tokens =>
      (Program.parse tokens 0).result.toOption.map fun program =>
        ((Step.run (program.steps.take 2) {}).state.scopes.map (·.find? "a"),
          ((program.steps.drop 2).head?.bind Step.word?).map Ident.text)) =
      some ([some false], some "b") := by
    decide +kernel
  obtain ⟨tokens, scanned, read⟩ := Option.bind_eq_some_iff.mp read
  obtain ⟨program, parsed, facts⟩ := Option.map_eq_some_iff.mp read
  obtain ⟨marked, next⟩ := Prod.mk.inj facts
  obtain ⟨names, around, found⟩ :
    ∃ names, (Step.run (program.steps.take 2) {}).state.scopes = [names] ∧
      names.find? "a" = some false := by simpa using marked
  have balanced := Scope.context_balanced
  have moment :=
    balanced.2.2.2 program _ _ (List.take_append_drop 2 _).symm 0 names "a"
      (by rw [around]; rfl) found
  have quiet :=
    balanced.2.2.1 source tokens 0 program (eq_ok_of_toOption scanned) (eq_ok_of_toOption parsed)
  -- The next step reads `b`, so it does not complete a declaration.
  have initializing := moment.2.2.resolve_right fun ⟨_, _, _, _, completed, _⟩ => by
    rw [completed] at next
    cases next
  exact ⟨tokens, program, eq_ok_of_toOption scanned, eq_ok_of_toOption parsed, quiet,
    marked, initializing⟩

/-- Outside of a block, what a branch declares stays declared behind the statement. And a variable
without an initializer is not completely declared for a moment, although there is no initializer to
resolve. -/
theorem Scope.bare_declarations_unbalanced :
    let x : Ident := ⟨"x", ⟨0, 0, 0, 0⟩⟩
    let statement : Stmt := .if (.literal 0 x.span .nil) (.var x none) none
    let program : Program := [.block [.var x none]]
    (statement.declared? = none ∧
      (∅ : Names).find? "x" = none ∧
      (statement.resolve { scopes := [∅] }).scopes.map (·.find? "x") = [some true]) ∧
    program.steps = [.push, .declare x] ++ [.define x, .pop] ∧
      (Step.run [.push, .declare x] {}).state.scopes.map (·.find? "x") = [some false] ∧
      ¬Initializing program.statements [.push, .declare x] [.define x, .pop] "x" := by
  intro x statement program
  refine ⟨⟨rfl, rfl, by decide⟩, rfl, by decide, ?_⟩
  rintro ⟨declared, initial, _, _, _, _, member, _⟩
  have statements : program.statements = [.block [.var x none], .var x none] := rfl
  rw [statements] at member
  simp at member

end Lox
