import Lox.Proofs.Grammar.Programs

set_option autoImplicit false

/-!
# Padding

Two programs of which one has blocks around single statements that the other does not have. Such a
block declares nothing, so its scope is extra: it lies between other scopes and is never asked for a
name. What is the same in both programs is stated once, for every way to put such blocks in: the
statements have one shape, and whatever is to be known of the uses of names is known of each, given
the scopes around it.

A statement in a context, and what may stand in its place, is the case of a single block.
-/

namespace Lox

open Scope (Rules Names)

/-! ## Layouts -/

/-- For each scope around a point of the longer program, innermost first, whether it is extra. -/
abbrev Layout := List Bool

namespace Layout

/-- The innermost scope is not extra, so that it can have declarations. -/
def Regular (layout : Layout) : Prop :=
  layout.head? ≠ some true

theorem regular_nil : Regular [] := by
  simp [Regular]

theorem regular_cons (outer : Layout) : Regular (false :: outer) := by
  simp [Regular]

theorem not_regular (outer : Layout) : ¬Regular (true :: outer) := by
  simp [Regular]

/-- Where the scope at a depth lies if the extra scopes are counted as well. -/
def shift : Layout → Nat → Nat
  | [], depth => depth
  | true :: outer, depth => shift outer depth + 1
  | false :: _, 0 => 0
  | false :: outer, depth + 1 => shift outer depth + 1

theorem Regular.shift_zero {layout : Layout} (regular : layout.Regular) : layout.shift 0 = 0 := by
  cases layout with
  | nil => rfl
  | cons extra outer =>
    cases extra with
    | true => exact absurd regular (not_regular outer)
    | false => rfl

end Layout

/-! ## Uses of names -/

/-- Rules that ask something of the uses of names, wherever they stand. -/
def Scope.Rules.ofUses (holds : Use → Prop) : Rules where
  use _ u := holds u
  declaration _ _ := True
  superclass _ _ := True

section Combine

variable {rules₁ rules₂ rules₃ : Rules} {scopes₁ scopes₂ scopes₃ : List Names}

mutual

/-- What follows from two rules for each use holds of all uses in an expression that obeys both. -/
theorem Expr.Obeys.combine
    (implied : ∀ u, rules₁.use scopes₁ u → rules₂.use scopes₂ u → rules₃.use scopes₃ u) :
    ∀ {e : Expr}, e.Obeys rules₁ scopes₁ → e.Obeys rules₂ scopes₂ → e.Obeys rules₃ scopes₃
  | .literal .., _, _ => trivial
  | .ref _, first, second => implied _ first second
  | .assign .., first, second => ⟨first.1.combine implied second.1, implied _ first.2 second.2⟩
  | .binary .., first, second | .logical .., first, second =>
    ⟨first.1.combine implied second.1, first.2.combine implied second.2⟩
  | .unary _ _ _ operand, first, second => Expr.Obeys.combine implied (e := operand) first second
  | .call .., first, second =>
    ⟨first.1.combine implied second.1, Expr.AllObey.combine implied first.2 second.2⟩
  | .group _ _ inner, first, second => Expr.Obeys.combine implied (e := inner) first second
  | .get _ object _, first, second => Expr.Obeys.combine implied (e := object) first second
  | .set .., first, second => ⟨first.1.combine implied second.1, first.2.combine implied second.2⟩
  | .this .., first, second => implied _ first second
  | .super .., first, second => implied _ first second

theorem Expr.AllObey.combine
    (implied : ∀ u, rules₁.use scopes₁ u → rules₂.use scopes₂ u → rules₃.use scopes₃ u) :
    ∀ {es : List Expr}, Expr.AllObey rules₁ scopes₁ es → Expr.AllObey rules₂ scopes₂ es →
      Expr.AllObey rules₃ scopes₃ es
  | [], _, _ => trivial
  | _ :: _, first, second =>
    ⟨first.1.combine implied second.1, Expr.AllObey.combine implied first.2 second.2⟩

end

theorem Expr.OptionObeys.combine
    (implied : ∀ u, rules₁.use scopes₁ u → rules₂.use scopes₂ u → rules₃.use scopes₃ u)
    {e : Option Expr} (first : Expr.OptionObeys rules₁ scopes₁ e)
    (second : Expr.OptionObeys rules₂ scopes₂ e) : Expr.OptionObeys rules₃ scopes₃ e := by
  cases e with
  | none => trivial
  | some e => exact Expr.Obeys.combine implied (e := e) first second

/-- What is asked of plain names does not depend on the scopes around them. -/
theorem Expr.Obeys.plain {e : Expr} (plain : e.Obeys .plain scopes₁) : e.Obeys .plain scopes₂ := by
  refine plain.combine ?_ plain
  exact fun _ known _ => known

theorem Expr.OptionObeys.plain {e : Option Expr} (plain : Expr.OptionObeys .plain scopes₁ e) :
    Expr.OptionObeys .plain scopes₂ e := by
  refine plain.combine ?_ plain
  exact fun _ known _ => known

end Combine

/-! ## Padded programs -/

namespace Stmt

mutual

/-- Statements of one shape inside scopes with a layout, of which the second one may have extra
blocks further inside. -/
inductive Shaped (holds : Layout → Use → Prop) : Layout → Stmt → Stmt → Prop where
  | expr {layout : Layout} {value : Expr} :
    value.Obeys (.ofUses (holds layout)) [] → Shaped holds layout (.expr value) (.expr value)
  | print {layout : Layout} {value : Expr} :
    value.Obeys (.ofUses (holds layout)) [] → Shaped holds layout (.print value) (.print value)
  | var {layout : Layout} {name : Ident} {initial : Option Expr} :
    layout.Regular → Expr.OptionObeys (.ofUses (holds layout)) [] initial →
      Shaped holds layout (.var name initial) (.var name initial)
  | block {layout : Layout} {body body' : List Stmt} :
    AllPadded holds (false :: layout) body body' → Shaped holds layout (.block body) (.block body')
  | if {layout : Layout} {condition : Expr} {yes yes' : Stmt} :
    condition.Obeys (.ofUses (holds layout)) [] → Padded holds layout yes yes' →
      Shaped holds layout (.if condition yes none) (.if condition yes' none)
  | ifElse {layout : Layout} {condition : Expr} {yes yes' no no' : Stmt} :
    condition.Obeys (.ofUses (holds layout)) [] → Padded holds layout yes yes' →
      Padded holds layout no no' →
      Shaped holds layout (.if condition yes (some no)) (.if condition yes' (some no'))
  | while {layout : Layout} {condition : Expr} {body body' : Stmt} :
    condition.Obeys (.ofUses (holds layout)) [] → Padded holds layout body body' →
      Shaped holds layout (.while condition body) (.while condition body')
  | fun {layout : Layout} {routine routine' : Routine (List Stmt)} :
    layout.Regular → RoutinePadded holds layout routine routine' →
      Shaped holds layout (.fun routine) (.fun routine')
  | return {layout : Layout} {keyword : Span} {value : Option Expr} :
    Expr.OptionObeys (.ofUses (holds layout)) [] value →
      Shaped holds layout (.return keyword value) (.return keyword value)
  | class {layout : Layout} {name : Ident} {methods methods' : List (Routine (List Stmt))} :
    layout.Regular → MethodsPadded holds (false :: layout) methods methods' →
      Shaped holds layout (.class name none methods) (.class name none methods')
  | subclass {layout : Layout} {name : Ident} {superclass : Reference}
      {methods methods' : List (Routine (List Stmt))} :
    layout.Regular → holds layout (.read superclass) →
      MethodsPadded holds (false :: false :: layout) methods methods' →
      Shaped holds layout (.class name (some superclass) methods)
        (.class name (some superclass) methods')

/-- Statements of one shape, or one of them in an extra block. -/
inductive Padded (holds : Layout → Use → Prop) : Layout → Stmt → Stmt → Prop where
  | shaped {layout : Layout} {s s' : Stmt} : Shaped holds layout s s' → Padded holds layout s s'
  | wrapped {layout : Layout} {s s' : Stmt} :
    Shaped holds (true :: layout) s s' → Padded holds layout s (.block [s'])

inductive AllPadded (holds : Layout → Use → Prop) : Layout → List Stmt → List Stmt → Prop where
  | nil {layout : Layout} : AllPadded holds layout [] []
  | cons {layout : Layout} {s s' : Stmt} {rest rest' : List Stmt} :
    Padded holds layout s s' → AllPadded holds layout rest rest' →
      AllPadded holds layout (s :: rest) (s' :: rest')

inductive RoutinePadded (holds : Layout → Use → Prop) :
    Layout → Routine (List Stmt) → Routine (List Stmt) → Prop where
  | mk {layout : Layout} {name : Ident} {params : List Ident} {body body' : List Stmt} :
    AllPadded holds (false :: layout) body body' →
      RoutinePadded holds layout ⟨name, params, body⟩ ⟨name, params, body'⟩

inductive MethodsPadded (holds : Layout → Use → Prop) :
    Layout → List (Routine (List Stmt)) → List (Routine (List Stmt)) → Prop where
  | nil {layout : Layout} : MethodsPadded holds layout [] []
  | cons {layout : Layout} {method method' : Routine (List Stmt)}
      {rest rest' : List (Routine (List Stmt))} :
    RoutinePadded holds layout method method' → MethodsPadded holds layout rest rest' →
      MethodsPadded holds layout (method :: rest) (method' :: rest')

end

section

variable {holds : Layout → Use → Prop} {layout : Layout} {s s' : Stmt}
  {routine routine' : Routine (List Stmt)}

theorem RoutinePadded.name (padded : RoutinePadded holds layout routine routine') :
    routine'.name = routine.name := by
  cases padded
  rfl

theorem RoutinePadded.params (padded : RoutinePadded holds layout routine routine') :
    routine'.params = routine.params := by
  cases padded
  rfl

theorem RoutinePadded.body (padded : RoutinePadded holds layout routine routine') :
    AllPadded holds (false :: layout) routine.body routine'.body := by
  cases padded with
  | mk body => exact body

theorem Shaped.declared? (shaped : Shaped holds layout s s') : s'.declared? = s.declared? := by
  cases shaped with
  | «fun» _ routine => exact congrArg some routine.name
  | _ => rfl

/-- Inside an extra scope there are no declarations. -/
theorem Shaped.declared?_eq_none (shaped : Shaped holds (true :: layout) s s') :
    s.declared? = none := by
  cases shaped with
  | var regular | «fun» regular | «class» regular | subclass regular =>
    exact absurd regular (Layout.not_regular layout)
  | _ => rfl

theorem Padded.declared? (padded : Padded holds layout s s') : s'.declared? = s.declared? := by
  cases padded with
  | shaped shaped => exact shaped.declared?
  | wrapped shaped => exact shaped.declared?_eq_none.symm

/-- The scopes behind a statement, whichever of the two it is. -/
theorem Padded.scopesAfter (padded : Padded holds layout s s') (scopes : List Names) :
    s'.scopesAfter scopes = s.scopesAfter scopes := by
  unfold Stmt.scopesAfter
  rw [padded.declared?]

end

/-! ## Numbers and names -/

section

variable {holds : Layout → Use → Prop}

mutual

/-- Padding adds no expression. -/
theorem Shaped.ids : ∀ {layout : Layout} {s s' : Stmt}, Shaped holds layout s s' → s'.ids = s.ids
  | _, _, _, .expr _ => rfl
  | _, _, _, .print _ => rfl
  | _, _, _, .var _ _ => rfl
  | _, _, _, .block body => AllPadded.ids body
  | _, _, _, .if _ yes => congrArg (_ ++ ·) (Padded.ids yes)
  | _, _, _, .ifElse _ yes no => congrArg₂ (_ ++ · ++ ·) (Padded.ids yes) (Padded.ids no)
  | _, _, _, .while _ body => congrArg (_ ++ ·) (Padded.ids body)
  | _, _, _, .fun _ routine => RoutinePadded.ids routine
  | _, _, _, .return _ => rfl
  | _, _, _, .class _ methods => MethodsPadded.ids methods
  | _, _, _, .subclass _ _ methods => congrArg (_ :: ·) (MethodsPadded.ids methods)

theorem Padded.ids : ∀ {layout : Layout} {s s' : Stmt}, Padded holds layout s s' → s'.ids = s.ids
  | _, _, _, .shaped shaped => Shaped.ids shaped
  | _, _, _, .wrapped shaped => (List.append_nil _).trans (Shaped.ids shaped)

theorem AllPadded.ids : ∀ {layout : Layout} {body body' : List Stmt},
    AllPadded holds layout body body' → idsAll body' = idsAll body
  | _, _, _, .nil => rfl
  | _, _, _, .cons first others => congrArg₂ (· ++ ·) (Padded.ids first) (AllPadded.ids others)

theorem RoutinePadded.ids : ∀ {layout : Layout} {routine routine' : Routine (List Stmt)},
    RoutinePadded holds layout routine routine' → idsOfRoutine routine' = idsOfRoutine routine
  | _, _, _, .mk body => AllPadded.ids body

theorem MethodsPadded.ids : ∀ {layout : Layout} {methods methods' : List (Routine (List Stmt))},
    MethodsPadded holds layout methods methods' → idsOfMethods methods' = idsOfMethods methods
  | _, _, _, .nil => rfl
  | _, _, _, .cons first others =>
    congrArg₂ (· ++ ·) (RoutinePadded.ids first) (MethodsPadded.ids others)

end

mutual

/-- Padding brings in no name. -/
theorem Shaped.plain : ∀ {layout : Layout} {s s' : Stmt}, Shaped holds layout s s' →
    ∀ {scopes scopes' : List Names}, s.Obeys .plain scopes → s'.Obeys .plain scopes'
  | _, _, _, .expr _, _, _, plain => Expr.Obeys.plain plain
  | _, _, _, .print _, _, _, plain => Expr.Obeys.plain plain
  | _, _, _, .var _ _, _, _, plain => ⟨plain.1, plain.2.plain⟩
  | _, _, _, .block body, _, _, plain => AllPadded.plain body plain
  | _, _, _, .if _ yes, _, _, plain =>
    ⟨plain.1.plain, yes.declared?.trans plain.2.1, Padded.plain yes plain.2.2⟩
  | _, _, _, .ifElse _ yes no, _, _, plain =>
    ⟨plain.1.plain, ⟨yes.declared?.trans plain.2.1.1, Padded.plain yes plain.2.1.2⟩,
      no.declared?.trans plain.2.2.1, Padded.plain no plain.2.2.2⟩
  | _, _, _, .while _ body, _, _, plain =>
    ⟨plain.1.plain, body.declared?.trans plain.2.1, Padded.plain body plain.2.2⟩
  | _, _, _, .fun _ routine, _, _, plain =>
    ⟨by rw [routine.name]; exact plain.1, RoutinePadded.plain routine plain.2⟩
  | _, _, _, .return _, _, _, plain => Expr.OptionObeys.plain plain
  | _, _, _, .class _ methods, _, _, plain =>
    ⟨plain.1, by simp, MethodsPadded.plain methods plain.2.2⟩
  | _, _, _, .subclass _ _ methods, _, _, plain =>
    ⟨plain.1, plain.2.1, MethodsPadded.plain methods plain.2.2⟩

theorem Padded.plain : ∀ {layout : Layout} {s s' : Stmt}, Padded holds layout s s' →
    ∀ {scopes scopes' : List Names}, s.Obeys .plain scopes → s'.Obeys .plain scopes'
  | _, _, _, .shaped shaped, _, _, plain => Shaped.plain shaped plain
  | _, _, _, .wrapped shaped, _, _, plain => ⟨Shaped.plain shaped plain, trivial⟩

theorem AllPadded.plain : ∀ {layout : Layout} {body body' : List Stmt},
    AllPadded holds layout body body' →
    ∀ {scopes scopes' : List Names}, AllObey .plain scopes body → AllObey .plain scopes' body'
  | _, _, _, .nil, _, _, _ => trivial
  | _, _, _, .cons first others, _, _, plain =>
    ⟨Padded.plain first plain.1, AllPadded.plain others plain.2⟩

theorem RoutinePadded.plain : ∀ {layout : Layout} {routine routine' : Routine (List Stmt)},
    RoutinePadded holds layout routine routine' →
    ∀ {scopes scopes' : List Names}, RoutineObeys .plain scopes routine →
      RoutineObeys .plain scopes' routine'
  | _, _, _, .mk body, _, _, plain =>
    ⟨Grammar.allObey_plain_params _ _ (plain.1.forall fun known => known),
      AllPadded.plain body plain.2⟩

theorem MethodsPadded.plain : ∀ {layout : Layout} {methods methods' : List (Routine (List Stmt))},
    MethodsPadded holds layout methods methods' →
    ∀ {scopes scopes' : List Names}, MethodsObey .plain scopes methods →
      MethodsObey .plain scopes' methods'
  | _, _, _, .nil, _, _, _ => trivial
  | _, _, _, .cons first others, _, _, plain =>
    ⟨RoutinePadded.plain first plain.1, MethodsPadded.plain others plain.2⟩

end

end

/-! ## One statement in another's place -/

/-- Nothing is asked of uses. -/
def anyUse (_ : Layout) (_ : Use) : Prop := True

theorem obeys_anyUse {layout : Layout} {scopes : List Names} {e : Expr}
    (plain : e.Obeys .plain scopes) :
    e.Obeys (.ofUses (anyUse layout)) [] := by
  refine plain.combine ?_ plain
  exact fun _ _ _ => trivial

theorem optionObeys_anyUse {layout : Layout} {scopes : List Names} {e : Option Expr}
    (plain : Expr.OptionObeys .plain scopes e) :
    Expr.OptionObeys (.ofUses (anyUse layout)) [] e := by
  refine plain.combine ?_ plain
  exact fun _ _ _ => trivial

mutual

/-- A statement has its own shape, also inside an extra scope if it is no declaration. -/
theorem shaped_self : ∀ (s : Stmt) {layout : Layout} {scopes : List Names}, s.Obeys .plain scopes →
    s.declared? = none ∨ layout.Regular → Shaped anyUse layout s s
  | .expr _, _, _, plain, _ => .expr (obeys_anyUse plain)
  | .print _, _, _, plain, _ => .print (obeys_anyUse plain)
  | .var .., _, _, plain, allowed => .var (allowed.resolve_left nofun) (optionObeys_anyUse plain.2)
  | .block body, _, _, plain, _ => .block (allPadded_self body plain (Layout.regular_cons _))
  | .if _ yes none, _, _, plain, _ =>
    .if (obeys_anyUse plain.1) (.shaped (shaped_self yes plain.2.2 (.inl plain.2.1)))
  | .if _ yes (some no), _, _, plain, _ =>
    .ifElse (obeys_anyUse plain.1) (.shaped (shaped_self yes plain.2.1.2 (.inl plain.2.1.1)))
      (.shaped (shaped_self no plain.2.2.2 (.inl plain.2.2.1)))
  | .while _ body, _, _, plain, _ =>
    .while (obeys_anyUse plain.1) (.shaped (shaped_self body plain.2.2 (.inl plain.2.1)))
  | .fun routine, _, _, plain, allowed =>
    .fun (allowed.resolve_left nofun) (routinePadded_self routine plain.2)
  | .return .., _, _, plain, _ => .return (optionObeys_anyUse plain)
  | .class _ none methods, _, _, plain, allowed =>
    .class (allowed.resolve_left nofun) (methodsPadded_self methods plain.2.2)
  | .class _ (some _) methods, _, _, plain, allowed =>
    .subclass (allowed.resolve_left nofun) trivial (methodsPadded_self methods plain.2.2)

theorem allPadded_self : ∀ (body : List Stmt) {layout : Layout} {scopes : List Names},
    AllObey .plain scopes body → layout.Regular → AllPadded anyUse layout body body
  | [], _, _, _, _ => .nil
  | s :: rest, _, _, plain, regular =>
    .cons (.shaped (shaped_self s plain.1 (.inr regular))) (allPadded_self rest plain.2 regular)

theorem routinePadded_self : ∀ (routine : Routine (List Stmt)) {layout : Layout}
    {scopes : List Names}, RoutineObeys .plain scopes routine →
    RoutinePadded anyUse layout routine routine
  | ⟨_, _, body⟩, _, _, plain => .mk (allPadded_self body plain.2 (Layout.regular_cons _))

theorem methodsPadded_self : ∀ (methods : List (Routine (List Stmt))) {layout : Layout}
    {scopes : List Names}, MethodsObey .plain scopes methods →
    MethodsPadded anyUse layout methods methods
  | [], _, _, _ => .nil
  | method :: rest, _, _, plain =>
    .cons (routinePadded_self method plain.1) (methodsPadded_self rest plain.2)

end

inductive Context where
  | hole
  | block (before : List Stmt) (inner : Context) (after : List Stmt)
  | ifYes (condition : Expr) (inner : Context) (no : Option Stmt)
  | ifNo (condition : Expr) (yes : Stmt) (inner : Context)
  | while (condition : Expr) (inner : Context)
  | fun (name : Ident) (params : List Ident) (before : List Stmt) (inner : Context)
      (after : List Stmt)
  | class (name : Ident) (superclass : Option Reference) (earlier : List (Routine (List Stmt)))
      (method : Ident) (params : List Ident) (before : List Stmt) (inner : Context)
      (after : List Stmt)
      (later : List (Routine (List Stmt)))

def Context.fill : Context → Stmt → Stmt
  | .hole, s => s
  | .block before inner after, s => .block (before ++ inner.fill s :: after)
  | .ifYes condition inner no, s => .if condition (inner.fill s) no
  | .ifNo condition yes inner, s => .if condition yes (some (inner.fill s))
  | .while condition inner, s => .while condition (inner.fill s)
  | .fun name params before inner after, s => .fun ⟨name, params, before ++ inner.fill s :: after⟩
  | .class name superclass earlier method params before inner after later, s =>
    .class name superclass (earlier ++ ⟨method, params, before ++ inner.fill s :: after⟩ :: later)

/-- One of several statements is padded. -/
theorem AllPadded.middle {before after : List Stmt} {s s' : Stmt} {layout : Layout}
    {scopes : List Names} (plain : AllObey .plain scopes (before ++ s :: after))
    (regular : layout.Regular)
    (padded : ∀ {scopes}, s.Obeys .plain scopes → Padded anyUse layout s s') :
    AllPadded anyUse layout (before ++ s :: after) (before ++ s' :: after) := by
  induction before generalizing scopes with
  | nil => exact .cons (padded plain.1) (allPadded_self after plain.2 regular)
  | cons first before inductionHypothesis =>
    exact .cons (.shaped (shaped_self first plain.1 (.inr regular))) (inductionHypothesis plain.2)

theorem MethodsPadded.middle {earlier later : List (Routine (List Stmt))}
    {method method' : Routine (List Stmt)} {layout : Layout} {scopes : List Names}
    (plain : MethodsObey .plain scopes (earlier ++ method :: later))
    (padded : RoutineObeys .plain scopes method → RoutinePadded anyUse layout method method') :
    MethodsPadded anyUse layout (earlier ++ method :: later) (earlier ++ method' :: later) := by
  induction earlier with
  | nil => exact .cons (padded plain.1) (methodsPadded_self later plain.2)
  | cons first earlier inductionHypothesis =>
    exact .cons (routinePadded_self first plain.1) (inductionHypothesis plain.2)

/-- A context of two statements, of which one is a padded form of the other in all scopes where the
first one can stand. -/
theorem Context.padded {old new : Stmt}
    (here : ∀ {layout scopes}, old.Obeys .plain scopes → old.declared? = none ∨ layout.Regular →
      Padded anyUse layout old new) :
    ∀ (c : Context) {layout : Layout} {scopes : List Names}, (c.fill old).Obeys .plain scopes →
      (c.fill old).declared? = none ∨ layout.Regular →
      Padded anyUse layout (c.fill old) (c.fill new)
  | .hole, _, _, plain, allowed => here plain allowed
  | .block _ inner _, _, _, plain, _ => by
    refine .shaped (.block (AllPadded.middle plain (Layout.regular_cons _) fun plain => ?_))
    exact inner.padded here plain (.inr (Layout.regular_cons _))
  | .ifYes _ inner none, _, _, plain, _ =>
    .shaped (.if (obeys_anyUse plain.1) (inner.padded here plain.2.2 (.inl plain.2.1)))
  | .ifYes _ inner (some no), _, _, plain, _ =>
    .shaped (.ifElse (obeys_anyUse plain.1) (inner.padded here plain.2.1.2 (.inl plain.2.1.1))
      (.shaped (shaped_self no plain.2.2.2 (.inl plain.2.2.1))))
  | .ifNo _ yes inner, _, _, plain, _ =>
    .shaped
      (.ifElse (obeys_anyUse plain.1) (.shaped (shaped_self yes plain.2.1.2 (.inl plain.2.1.1)))
      (inner.padded here plain.2.2.2 (.inl plain.2.2.1)))
  | .while _ inner, _, _, plain, _ =>
    .shaped (.while (obeys_anyUse plain.1) (inner.padded here plain.2.2 (.inl plain.2.1)))
  | .fun _ _ _ inner _, _, _, plain, allowed => by
    refine .shaped (.fun (allowed.resolve_left nofun) (.mk ?_))
    refine AllPadded.middle plain.2.2 (Layout.regular_cons _) fun plain => ?_
    exact inner.padded here plain (.inr (Layout.regular_cons _))
  | .class _ superclass _ _ _ _ inner _ _, _, _, plain, allowed => by
    have regular := allowed.resolve_left nofun
    have methods : ∀ layout, MethodsPadded anyUse layout _ _ := fun layout =>
      MethodsPadded.middle plain.2.2 fun plain => .mk (AllPadded.middle plain.2
        (Layout.regular_cons layout) fun plain =>
          inner.padded here plain (.inr (Layout.regular_cons _)))
    cases superclass with
    | none => exact .shaped (.class regular (methods _))
    | some superclass => exact .shaped (.subclass regular trivial (methods _))

/-- A statement that is no declaration, and the statement in a block of its own. -/
theorem padded_block {s : Stmt} {layout : Layout} {scopes : List Names}
    (plain : s.Obeys .plain scopes)
    (undeclared : s.declared? = none) : Padded anyUse layout s (.block [s]) :=
  .wrapped (shaped_self s plain (.inl undeclared))

end Stmt

/-! ## For statements -/

/-- A for statement with both blocks, whichever of its clauses are there. -/
def Grammar.fullForLoop (initial : Option Stmt) (condition : Expr) (increment : Option Expr)
    (body : Stmt) : Stmt :=
  .block (initial.toList ++ [.while condition (.block (body :: (increment.map Stmt.expr).toList))])

namespace Stmt

/-- The loop of a for statement, and the loop with a block around its body and its increment. -/
theorem shaped_loop {condition : Expr} {increment : Option Expr} {body : Stmt} {layout : Layout}
    {scopes : List Names}
    (plain : (Grammar.forLoop none condition increment body).Obeys .plain scopes) :
    Shaped anyUse layout (Grammar.forLoop none condition increment body)
      (.while condition (.block (body :: (increment.map Stmt.expr).toList))) := by
  refine .while (obeys_anyUse plain.1) ?_
  cases increment with
  | none => exact padded_block plain.2.2 plain.2.1
  | some increment => exact .shaped (shaped_self _ plain.2.2 (.inl rfl))

theorem padded_forLoop {initial : Option Stmt} {condition : Expr} {increment : Option Expr}
    {body : Stmt} {layout : Layout} {scopes : List Names}
    (plain : (Grammar.forLoop initial condition increment body).Obeys .plain scopes) :
    Padded anyUse layout (Grammar.forLoop initial condition increment body)
      (Grammar.fullForLoop initial condition increment body) := by
  cases initial with
  | none => exact .wrapped (shaped_loop plain)
  | some initial =>
    refine .shaped (.block (.cons (.shaped (shaped_self initial plain.1 (.inr ?_)))
      (.cons (.shaped (shaped_loop plain.2.1)) .nil)))
    exact Layout.regular_cons layout

end Stmt

structure Program.Context where
  before : List Stmt
  inner : Stmt.Context
  after : List Stmt

namespace Program.Context

def fill (c : Context) (s : Stmt) : Program :=
  c.before ++ c.inner.fill s :: c.after

theorem padded {old new : Stmt} (c : Context)
    (here : ∀ {layout scopes}, old.Obeys .plain scopes → old.declared? = none ∨ layout.Regular →
      Stmt.Padded Stmt.anyUse layout old new) (plain : (c.fill old).Obeys .plain) :
    Stmt.AllPadded Stmt.anyUse [] (c.fill old) (c.fill new) :=
  Stmt.AllPadded.middle plain Layout.regular_nil fun plain =>
    c.inner.padded here plain (.inr Layout.regular_nil)

end Program.Context

end Lox
