import Lox.Proofs.Grammar.Acceptance
import Lox.Proofs.Scope.Balance
import Lox.Proofs.Token.Places

set_option autoImplicit false

/-!
# Where faults of scoping stand

Every word that the resolver speaks of is spelled by a token of the program: a name by an
identifier, and `this`, `super` and `return` by keywords. So every fault of scoping has the word and
the span of a token.

Faults are found in the order of these words in the text, with two exceptions. The value of a
property assignment is resolved before the object that stands in front of it, and the body of a for
statement before the increment.
-/

namespace Lox

open Scope (Step)

/-- A word with its span is an identifier or a keyword among the tokens. -/
def Token.IsWordOf (tokens : List Token) (text : String) (span : Span) : Prop :=
  ∃ t ∈ tokens, t.span = span ∧
    (t.kind = .identifier text ∨ ∃ word : Keyword, t.kind = .keyword word ∧ word.text = text)

theorem Token.IsWordOf.mono {tokens more : List Token} {text : String} {span : Span}
    (isWord : IsWordOf tokens text span) (inside : tokens ⊆ more) : IsWordOf more text span :=
  isWord.imp fun _ found => found.imp_left (inside ·)

def Token.Ascending (tokens : List Token) : Prop :=
  tokens.Pairwise fun first second => first.span.start < second.span.start

def Expr.words (e : Expr) : List Ident :=
  Step.words e.steps

def Stmt.words (s : Stmt) : List Ident :=
  Step.words s.steps

namespace Scope

def Before (first second : List Ident) : Prop :=
  ∀ x ∈ first, ∀ y ∈ second, x.span.start < y.span.start

/-- Words that stand in front of others in the text, but come behind them in the steps of a
program. -/
inductive Reversed (nodes : List Expr) (statements : List Stmt) :
    List Ident → List Ident → Prop where
  | property {id : ExprId} {object value : Expr} {name : Ident} :
    .set id object name value ∈ nodes → Reversed nodes statements object.words value.words
  /-- A for statement means such a loop. If the loop was written as it stands, the words are not in
  front. -/
  | loop {condition increment : Expr} {body : Stmt} :
    .while condition (.block [body, .expr increment]) ∈ statements →
    Before increment.words body.words →
      Reversed nodes statements increment.words body.words

/-- The first word does not stand behind the second one, unless the parts of the program that they
are in are reversed. -/
def InOrder (nodes : List Expr) (statements : List Stmt) (x y : Ident) : Prop :=
  x.span.start ≤ y.span.start ∨ ∃ first second, Reversed nodes statements first second ∧
    y ∈ first ∧ x ∈ second

/-- Among some words, all that are in one part come behind all that are in the other, which they
stand in front of in the text. -/
structure Apart (words first second : List Ident) : Prop where
  before : Before first second
  turned : words.Pairwise fun x y => x ∈ first → y ∉ second
  left : first ⊆ words
  right : second ⊆ words

/-- The words of some steps are among the tokens, and in their order but for what is reversed. -/
structure Arranged (w : List Token) (nodes : List Expr) (statements : List Stmt)
    (steps : List Step) : Prop where
  inside : ∀ x ∈ Step.words steps, Token.IsWordOf w x.text x.span
  ordered : Token.Ascending w → (Step.words steps).Pairwise (InOrder nodes statements)
  apart : Token.Ascending w → ∀ {first second}, Reversed nodes statements first second →
    Apart (Step.words steps) first second

section

variable {nodes nodes' : List Expr} {statements statements' : List Stmt}
  {first second words words' : List Ident}
  {w v : List Token} {steps steps' : List Step}

theorem Reversed.mono (reversed : Reversed nodes statements first second) (more : nodes ⊆ nodes')
    (more' : statements ⊆ statements') : Reversed nodes' statements' first second := by
  cases reversed with
  | property member => exact .property (more member)
  | loop member before => exact .loop (more' member) before

theorem Reversed.append
    (reversed : Reversed (nodes ++ nodes') (statements ++ statements') first second) :
    Reversed nodes statements first second ∨ Reversed nodes' statements' first second := by
  cases reversed with
  | property member => exact (List.mem_append.mp member).imp .property .property
  | loop member before => exact (List.mem_append.mp member).imp (.loop · before) (.loop · before)

theorem InOrder.mono {x y : Ident} (inOrder : InOrder nodes statements x y) (more : nodes ⊆ nodes')
    (more' : statements ⊆ statements') : InOrder nodes' statements' x y := by
  rcases inOrder with le | ⟨first, second, reversed, inside⟩
  · exact .inl le
  · exact .inr ⟨first, second, reversed.mono more more', inside⟩

namespace Apart

/-- The later part, and then the earlier one. -/
theorem pair (before : Before first second) : Apart (second ++ first) first second := by
  have distinct : ∀ x ∈ first, x ∉ second := fun x here there => lt_irrefl _ (before x here x there)
  refine ⟨before, List.pairwise_append.mpr ⟨?_, ?_, ?_⟩, List.subset_append_right _ _,
    List.subset_append_left _ _⟩
  · exact List.pairwise_of_forall_mem_list fun x there _ _ here => absurd there (distinct x here)
  · exact List.pairwise_of_forall_mem_list fun _ _ y here _ => distinct y here
  · exact fun x there _ _ here => absurd there (distinct x here)

theorem append_left (apart : Apart words first second) (distinct : ∀ x ∈ words, x ∉ words') :
    Apart (words ++ words') first second := by
  refine ⟨apart.before, List.pairwise_append.mpr ⟨apart.turned, ?_, ?_⟩,
    List.subset_append_of_subset_left _ apart.left, List.subset_append_of_subset_left _ apart.right⟩
  · exact List.pairwise_of_forall_mem_list fun x there _ _ here =>
      absurd there (distinct x (apart.left here))
  · exact fun _ _ y there _ here => distinct y (apart.right here) there

theorem append_right (apart : Apart words first second) (distinct : ∀ x ∈ words', x ∉ words) :
    Apart (words' ++ words) first second := by
  refine ⟨apart.before, List.pairwise_append.mpr ⟨?_, apart.turned, ?_⟩,
    List.subset_append_of_subset_right _ apart.left,
    List.subset_append_of_subset_right _ apart.right⟩
  · exact List.pairwise_of_forall_mem_list fun x there _ _ here =>
      absurd (apart.left here) (distinct x there)
  · exact fun x there _ _ here => absurd (apart.left here) (distinct x there)

end Apart

namespace Arranged

/-- Of two parts of a text, the words in the first stand in front of those in the second. -/
theorem before (arranged : Arranged w nodes statements steps)
    (arranged' : Arranged v nodes' statements' steps')
    (ascending : Token.Ascending (w ++ v)) : Before (Step.words steps) (Step.words steps') := by
  intro x here y there
  obtain ⟨t, member, span, -⟩ := arranged.inside x here
  obtain ⟨t', member', span', -⟩ := arranged'.inside y there
  rw [← span, ← span']
  exact (List.pairwise_append.mp ascending).2.2 t member t' member'

/-- Two parts of a text in either order, if the words that are found first stand in front or if the
parts are reversed. -/
theorem join {u : List Token} {allNodes : List Expr} {allStatements : List Stmt}
    (arranged : Arranged w nodes statements steps)
    (arranged' : Arranged v nodes' statements' steps')
    (sublist : w.Sublist u) (sublist' : v.Sublist u) (more : nodes ++ nodes' ⊆ allNodes)
    (more' : statements ++ statements' ⊆ allStatements)
    (parts : Token.Ascending u → (∀ x ∈ Step.words steps, x ∉ Step.words steps') ∧
      (∀ x ∈ Step.words steps, ∀ y ∈ Step.words steps', InOrder allNodes allStatements x y) ∧
      ∀ {first second}, Reversed allNodes allStatements first second →
        Reversed nodes statements first second ∨
        Reversed nodes' statements' first second ∨
          Apart (Step.words (steps ++ steps')) first second) :
    Arranged u allNodes allStatements (steps ++ steps') := by
  obtain ⟨inNodes, inNodes'⟩ := List.append_subset.mp more
  obtain ⟨inStatements, inStatements'⟩ := List.append_subset.mp more'
  rw [Step.words_append] at parts
  refine ⟨?_, fun ascending => ?_, fun ascending first second reversed => ?_⟩ <;>
    rw [Step.words_append]
  · exact List.forall_mem_append.mpr ⟨fun x here => (arranged.inside x here).mono sublist.subset,
      fun x here => (arranged'.inside x here).mono sublist'.subset⟩
  · exact List.pairwise_append.mpr
      ⟨(arranged.ordered (ascending.sublist sublist)).imp (·.mono inNodes inStatements),
        (arranged'.ordered (ascending.sublist sublist')).imp (·.mono inNodes' inStatements'),
        (parts ascending).2.1⟩
  · obtain ⟨distinct, -, only⟩ := parts ascending
    rcases only reversed with reversed | reversed | apart
    · exact (arranged.apart (ascending.sublist sublist) reversed).append_left distinct
    · exact (arranged'.apart (ascending.sublist sublist') reversed).append_right distinct
    · exact apart

theorem append (arranged : Arranged w nodes statements steps)
    (arranged' : Arranged v nodes' statements' steps') :
    Arranged (w ++ v) (nodes ++ nodes') (statements ++ statements') (steps ++ steps') := by
  refine arranged.join arranged' (List.sublist_append_left _ _) (List.sublist_append_right _ _)
    (List.Subset.refl _)
    (List.Subset.refl _) fun ascending => ?_
  have before := arranged.before arranged' ascending
  exact ⟨fun x here there => lt_irrefl _ (before x here x there),
    fun x here y there => .inl (before x here y there).le,
    fun reversed => reversed.append.imp_right .inl⟩

/-- More expressions and statements among which nothing more is reversed. -/
theorem widen (arranged : Arranged w nodes statements steps) (sublist : w.Sublist v)
    (more : nodes ⊆ nodes')
    (more' : statements ⊆ statements') (same : Step.words steps' = Step.words steps)
    (only : ∀ {first second}, Reversed nodes' statements' first second →
      Reversed nodes statements first second) :
    Arranged v nodes' statements' steps' := by
  refine ⟨?_, fun ascending => ?_, fun ascending _ _ reversed => ?_⟩ <;> rw [same]
  · exact fun x here => (arranged.inside x here).mono sublist.subset
  · exact (arranged.ordered (ascending.sublist sublist)).imp (·.mono more more')
  · exact arranged.apart (ascending.sublist sublist) (only reversed)

theorem skip {t : Token} (arranged : Arranged w nodes statements steps) :
    Arranged (t :: w) nodes statements steps :=
  arranged.widen (List.sublist_cons_self _ _) (List.Subset.refl _) (List.Subset.refl _) rfl id

theorem ended (arranged : Arranged w nodes statements steps) :
    Arranged (w ++ v) nodes statements steps :=
  arranged.widen (List.sublist_append_left _ _) (List.Subset.refl _) (List.Subset.refl _) rfl id

/-- Steps that add no words. -/
theorem quiet (arranged : Arranged w nodes statements steps)
    (same : Step.words steps' = Step.words steps) :
    Arranged w nodes statements steps' :=
  arranged.widen (List.Sublist.refl _) (List.Subset.refl _) (List.Subset.refl _) same id

theorem node {e : Expr} (arranged : Arranged w e.parts [] steps)
    (plain : ∀ id object name value, e ≠ .set id object name value) :
    Arranged w e.nodes [] steps := by
  rw [Expr.nodes_eq]
  refine arranged.widen (List.Sublist.refl _) (List.subset_append_left _ _) (List.Subset.refl _) rfl
    fun reversed => ?_
  cases reversed with
  | property member =>
    rcases List.mem_append.mp member with inner | here
    · exact .property inner
    · exact absurd (List.mem_singleton.mp here).symm (plain _ _ _ _)
  | loop member => cases member

theorem cons {s : Stmt} (arranged : Arranged w nodes statements steps)
    (plain : ∀ condition body, s ≠ .while condition body) :
    Arranged w nodes (s :: statements) steps := by
  refine arranged.widen (List.Sublist.refl _) (List.Subset.refl _) (List.subset_cons_self _ _) rfl
    fun reversed => ?_
  cases reversed with
  | property member => exact .property member
  | loop member before =>
    rcases List.mem_cons.mp member with here | inner
    · exact absurd here.symm (plain _ _)
    · exact .loop inner before

/-- No words. -/
theorem nil : Arranged w [] [] [] where
  inside := List.forall_mem_nil _
  ordered _ := .nil
  apart _ _ _ reversed := by cases reversed <;> contradiction

/-- The same word in some steps. -/
theorem single {t : Token} (word : Ident) (here : ∀ x ∈ Step.words steps, x = word)
    (isWord : Token.IsWordOf [t] word.text word.span) : Arranged [t] [] [] steps where
  inside x member := here x member ▸ isWord
  ordered _ := List.pairwise_of_forall_mem_list fun x member y member' =>
    .inl (by rw [here x member, here y member'])
  apart _ _ _ reversed := by cases reversed <;> contradiction

/-- A property assignment, whose value is resolved before the object. -/
theorem set {id : ExprId} {object value : Expr} {name : Ident}
    (arranged : Arranged w object.nodes [] object.steps)
    (arranged' : Arranged v value.nodes [] value.steps) :
    Arranged (w ++ v) (Expr.set id object name value).nodes []
      (Expr.set id object name value).steps := by
  have here : Expr.set id object name value ∈ (Expr.set id object name value).nodes := by
    simp [Expr.nodes]
  refine arranged'.join arranged (List.sublist_append_right _ _) (List.sublist_append_left _ _)
    (by simp [Expr.nodes]) (List.Subset.refl _) fun ascending => ?_
  have before := arranged.before arranged' ascending
  refine ⟨fun x later earlier => lt_irrefl _ (before x earlier x later),
    fun x later y earlier => .inr ⟨_, _, .property here, earlier, later⟩, fun reversed => ?_⟩
  cases reversed with
  | property member =>
    rw [Expr.nodes, List.mem_append, List.mem_append, List.mem_singleton] at member
    rcases member with (inner | inner) | same
    · exact .inr (.inl (.property inner))
    · exact .inl (.property inner)
    · cases same
      rw [Step.words_append]
      exact .inr (.inr (.pair before))
  | loop member => cases member

theorem words_block (s s' : Stmt) :
    Step.words (Stmt.block [s, s']).steps = s.words ++ s'.words := by
  simp [Stmt.steps, Stmt.stepsAll, Stmt.words, Step.words, List.filterMap_cons, Step.word?]

/-- A loop that stands in the text as it is. -/
theorem loop {condition : Expr} {body : Stmt}
    (arranged : Arranged w condition.nodes [] condition.steps)
    (arranged' : Arranged v body.nodes body.statements body.steps) :
    Arranged (w ++ v) (Stmt.while condition body).nodes (Stmt.while condition body).statements
      (Stmt.while condition body).steps := by
  refine arranged.join arranged' (List.sublist_append_left _ _) (List.sublist_append_right _ _)
    (List.Subset.refl _) (List.subset_cons_self _ _) fun ascending => ?_
  have before := arranged.before arranged' ascending
  have distinct : ∀ x ∈ Step.words condition.steps, x ∉ Step.words body.steps :=
    fun x here there => lt_irrefl _ (before x here x there)
  refine ⟨distinct, fun x here y there => .inl (before x here y there).le, fun reversed => ?_⟩
  cases reversed with
  | property member => exact (List.mem_append.mp member).imp .property (.inl ∘ .property)
  | loop member front =>
    rcases List.mem_cons.mp member with same | inner
    · cases same
      rw [words_block] at distinct
      rw [Step.words_append, words_block]
      exact .inr (.inr ((Apart.pair front).append_right distinct))
    · exact .inr (.inl (.loop inner front))

/-- The increment and the body of a for statement, behind the condition. -/
theorem repeated {condition increment : Expr} {body : Stmt}
    (arranged : Arranged w increment.nodes [] increment.steps)
    (arranged' : Arranged v body.nodes body.statements body.steps) :
    Arranged (w ++ v) (Stmt.block [body, .expr increment]).nodes
      (Stmt.while condition (.block [body, .expr increment])).statements
      (Stmt.block [body, .expr increment]).steps := by
  suffices joined : Arranged (w ++ v) (Stmt.block [body, .expr increment]).nodes
      (Stmt.while condition (.block [body, .expr increment])).statements
      (body.steps ++ increment.steps) from
    joined.quiet ((words_block _ _).trans (Step.words_append _ _).symm)
  refine arranged'.join arranged (List.sublist_append_right _ _) (List.sublist_append_left _ _)
    (by simp [Stmt.nodes, Stmt.nodesAll])
    (List.append_subset.mpr ⟨fun s inner => ?_, List.nil_subset _⟩)
      fun ascending => ?_
  · simp [Stmt.statements, Stmt.statementsAll, inner]
  have before := arranged.before arranged' ascending
  refine ⟨fun x later earlier => lt_irrefl _ (before x earlier x later),
    fun x later y earlier => .inr ⟨_, _, .loop List.mem_cons_self before, earlier, later⟩,
    fun reversed => ?_⟩
  cases reversed with
  | property member =>
    simp only [Stmt.nodes, Stmt.nodesAll, List.append_nil, List.mem_append] at member
    exact member.imp .property (.inl ∘ .property)
  | loop member front =>
    simp only [Stmt.statements, Stmt.statementsAll, List.append_nil, List.mem_cons, List.mem_append,
      List.not_mem_nil, or_false, reduceCtorEq, false_or] at member
    rcases member with same | inner
    · cases same
      rw [Step.words_append]
      exact .inr (.inr (.pair before))
    · exact .inl (.loop inner front)

theorem pair {s s' : Stmt} (arranged : Arranged w s.nodes s.statements s.steps)
    (arranged' : Arranged v s'.nodes s'.statements s'.steps) :
    Arranged (w ++ v) (Stmt.block [s, s']).nodes (Stmt.block [s, s']).statements
      (Stmt.block [s, s']).steps := by
  have joined := ((arranged.append arranged').quiet
    ((words_block s s').trans (Step.words_append _ _).symm)).cons (s := .block [s, s']) nofun
  simpa [Stmt.nodes, Stmt.nodesAll, Stmt.statements, Stmt.statementsAll] using joined

/-- A for statement stands for a loop, with a block around it or inside of it. -/
theorem forLoop {initial : Option Stmt} {condition : Expr} {increment : Option Expr} {body : Stmt}
    {u t : List Token} (starts : ∀ s ∈ initial, Arranged w s.nodes s.statements s.steps)
    (tested : Arranged v condition.nodes [] condition.steps)
    (stepped : Arranged u (Expr.nodesOption increment) [] (Expr.stepsOption increment))
    (inside : Arranged t body.nodes body.statements body.steps) :
    Arranged (w ++ (v ++ (u ++ t))) (Grammar.forLoop initial condition increment body).nodes
      (Grammar.forLoop initial condition increment body).statements
      (Grammar.forLoop initial condition increment body).steps := by
  have looped : Arranged (v ++ (u ++ t)) (Grammar.forLoop none condition increment body).nodes
      (Grammar.forLoop none condition increment body).statements
      (Grammar.forLoop none condition increment body).steps := by
    cases increment with
    | none => exact tested.loop (stepped.append inside)
    | some increment => exact tested.append (stepped.repeated inside)
  cases initial with
  | none => exact nil.append looped
  | some first => exact (starts first rfl).pair looped

theorem identifier {t : Token} {name : String} (found : t.kind = .identifier name)
    (here : Step.words steps = [⟨name, t.span⟩]) : Arranged [t] [] [] steps :=
  single ⟨name, t.span⟩ (by simp [here]) ⟨t, List.mem_singleton_self t, rfl, .inl found⟩

theorem keyword {t : Token} {word : Keyword} (found : t.kind = .keyword word)
    (here : Step.words steps = [⟨word.text, t.span⟩]) : Arranged [t] [] [] steps :=
  single ⟨word.text, t.span⟩ (by simp [here]) ⟨t, List.mem_singleton_self t, rfl,
    .inr ⟨word, found, rfl⟩⟩

end Arranged

end

end Scope

namespace Grammar

open Scope (Arranged)

variable {i j k l : ExprId} {w : List Token}

theorem InfixOp.steps_apply (op : InfixOp) (id : ExprId) (span : Span) (left right : Expr) :
    (op.apply id span left right).steps = left.steps ++ right.steps := by
  cases op <;> rfl

theorem InfixOp.apply_ne_set (op : InfixOp) {id : ExprId} {span : Span} {left right : Expr} :
    ∀ id' object name value, op.apply id span left right ≠ .set id' object name value := by
  cases op <;> nofun

mutual

theorem Spells.arranged : ∀ {tier : Tier} {i j : ExprId} {w : List Token} {e : Expr},
    Spells tier i w e j → Arranged w e.nodes [] e.steps
  | _, _, _, _, _, .tighter _ inner => inner.arranged
  | _, _, _, _, _, .assign _ _ value =>
    .node (value.arranged.skip.skip.quiet ((Step.words_append _ _).trans (List.append_nil _))) nofun
  | _, _, _, _, _, .set object _ _ _ value => object.arranged.set value.arranged.skip.skip.skip
  | _, _, _, _, _, .operator left _ right => by
    refine .node ?_ (InfixOp.apply_ne_set _)
    rw [InfixOp.parts_apply, InfixOp.steps_apply]
    exact left.arranged.append right.arranged.skip
  | _, _, _, _, _, .unary _ operand => .node operand.arranged.skip nofun
  | _, _, _, _, _, .call callee _ _ => .node (callee.arranged.append .nil) nofun
  | _, _, _, _, _, .callWith callee _ args _ _ =>
    .node (callee.arranged.append args.arranged.ended.skip) nofun
  | _, _, _, _, _, .get object _ _ => .node object.arranged.ended nofun
  | _, _, _, _, _, .literal _ => .node .nil nofun
  | _, _, _, _, _, .ref found => .node (.identifier found rfl) nofun
  | _, _, _, _, _, .this found => .node (.keyword found rfl) nofun
  | _, _, _, _, _, .super found _ _ =>
    .node (Arranged.ended (.keyword found rfl)) nofun
  | _, _, _, _, _, .group _ inner _ => .node inner.arranged.ended.skip nofun

theorem SpellsArguments.arranged : ∀ {i j : ExprId} {w : List Token} {es : List Expr},
    SpellsArguments i w es j → Arranged w (Expr.nodesAll es) [] (Expr.stepsAll es)
  | _, _, _, _, .last e => by
    simpa [Expr.nodesAll, Expr.stepsAll] using e.arranged
  | _, _, _, _, .cons e _ rest => e.arranged.append rest.arranged.skip

end

/-! ## Parts of statements -/

theorem SpellsOption.arranged {e : Option Expr} (spells : SpellsOption i w e j) :
    Arranged w (Expr.nodesOption e) [] (Expr.stepsOption e) := by
  cases spells with
  | none => exact .nil
  | some value => exact value.arranged

theorem SpellsVariable.arranged {s : Stmt} (spells : SpellsVariable i w s j) :
    Arranged w s.nodes s.statements s.steps := by
  cases spells with
  | bare found => exact .cons (.ended (.identifier found rfl)) nofun
  | @initialized _ token _ _ name _ _ found _ value _ =>
    have declared : Arranged [token] [] [] [.declare ⟨name, token.span⟩] := .identifier found rfl
    refine .cons ((declared.append value.arranged.ended.skip).quiet ?_) nofun
    simp [Stmt.steps, Expr.stepsOption, Step.words, List.filterMap_cons, Step.word?]

theorem SpellsCondition.arranged {keyword : Token} {e : Expr}
    (spells : SpellsCondition keyword i w j k e l) : Arranged w e.nodes [] e.steps := by
  cases spells with
  | none => exact .node .nil nofun
  | some condition => exact condition.arranged

theorem SpellsSuperclass.arranged {superclass : Option Reference}
    (spells : SpellsSuperclass i w superclass j) (name : Ident) :
    Arranged w (superclass.map Expr.ref).toList [] (Reference.steps name superclass) := by
  cases spells with
  | none => exact .nil
  | @some _ token name' _ found =>
    -- The clause is looked at for the name of the class, and then read.
    have word : Arranged [token] [] []
        (Reference.steps name (Option.some ⟨i, ⟨name', token.span⟩⟩)) :=
      .single ⟨name', token.span⟩
        (by simp [Reference.steps, Step.words, List.filterMap_cons, Step.word?])
        ⟨token, List.mem_singleton_self token, rfl, .inl found⟩
    exact Arranged.node (e := .ref _) word.skip nofun

theorem SpellsNames.arranged {params : List Ident} (spells : SpellsNames w params) :
    Arranged w [] [] (Ident.steps params) := by
  induction spells with
  | last found => exact .identifier found rfl
  | cons found _ _ inductionHypothesis =>
    exact Arranged.append (.identifier found rfl) inductionHypothesis.skip

theorem SpellsParameters.arranged {params : List Ident} (spells : SpellsParameters w params) :
    Arranged w [] [] (Ident.steps params) := by
  cases spells with
  | none => exact .nil
  | some names => exact names.arranged

theorem SpellsInitial.arranged {initial : Option Stmt} (spells : SpellsInitial i w initial j) :
    ∀ s ∈ initial, Arranged w s.nodes s.statements s.steps := by
  rintro s ⟨⟩
  cases spells with
  | var _ declared => exact declared.arranged.skip
  | expr value _ => exact .cons value.arranged.ended nofun

/-! ## Statements -/

mutual

theorem SpellsStatement.arranged : ∀ {isOpen : Bool} {i j : ExprId} {w : List Token} {s : Stmt},
    SpellsStatement isOpen i w s j → Arranged w s.nodes s.statements s.steps
  | _, _, _, _, _, .expr value _ => .cons value.arranged.ended nofun
  | _, _, _, _, _, .print _ value _ => .cons value.arranged.ended.skip nofun
  | _, _, _, _, _, .return found value _ =>
    .cons
      (.append (.keyword found rfl : Arranged [_] [] [] [.return _ _]) value.arranged.ended) nofun
  | _, _, _, _, _, .block _ body _ => by
    refine .cons (body.arranged.ended.skip.quiet ?_) nofun
    simp [Stmt.steps, Step.words, List.filterMap_cons, Step.word?]
  | _, _, _, _, _, .while _ _ condition _ body =>
    (condition.arranged.loop body.arranged.skip).skip.skip
  | _, _, _, _, _, .if _ _ condition _ yes =>
    .cons (condition.arranged.append yes.arranged.skip).skip.skip nofun
  | _, _, _, _, _, .ifElse _ _ condition _ yes _ no => by
    rw [Stmt.nodes, List.append_assoc]
    exact .cons
      (condition.arranged.append (yes.arranged.append no.arranged.skip).skip).skip.skip nofun
  | _, _, _, _, _, .for _ _ initial condition _ increment _ body =>
    (Arranged.forLoop initial.arranged condition.arranged increment.arranged.skip
      body.arranged.skip).skip.skip

theorem SpellsDeclaration.arranged : ∀ {i j : ExprId} {w : List Token} {s : Stmt},
    SpellsDeclaration i w s j → Arranged w s.nodes s.statements s.steps
  | _, _, _, _, @SpellsDeclaration.class _ _ _ _ token _ _ name _ _ superclass _ _ found inherits _
      methods _ => by
    have declared : Arranged [token] [] [] [.enterClass, .declare ⟨name, token.span⟩,
        .define ⟨name, token.span⟩] :=
      .identifier found rfl
    refine .cons ((declared.append ((inherits.arranged ⟨name, token.span⟩).append
      methods.arranged.ended.skip)).quiet ?_).skip nofun
    cases superclass <;> simp [Stmt.steps, Step.words, List.filterMap_cons, Step.word?]
  | _, _, _, _, .fun _ routine =>
    .cons
      (routine.arranged [.declare _, .define _] (fun _ => List.mem_singleton.mp)
      .function).skip nofun
  | _, _, _, _, .var _ declared => declared.arranged.skip
  | _, _, _, _, .statement statement => statement.arranged

theorem SpellsRoutine.arranged : ∀ {i j : ExprId} {w : List Token} {routine : Routine (List Stmt)},
    SpellsRoutine i w routine j → ∀ before, (∀ x ∈ Step.words before, x = routine.name) → ∀ kind,
      Arranged w (Stmt.nodesOfRoutine routine) (Stmt.statementsOfRoutine routine)
        (before ++ Stmt.stepsOfRoutine kind routine)
  | _, _, _, _, .mk found _ params _ _ body _, before, here, kind => by
    refine ((Arranged.single _ here ⟨_, List.mem_singleton_self _, rfl, .inl found⟩).append
      (params.arranged.append body.arranged.ended.skip.skip).skip).quiet ?_
    simp [Stmt.stepsOfRoutine, Step.words, List.filterMap_cons, Step.word?]

theorem SpellsMethods.arranged :
    ∀ {i j : ExprId} {w : List Token} {methods : List (Routine (List Stmt))},
    SpellsMethods i w methods j →
      Arranged w (Stmt.nodesOfMethods methods) (Stmt.statementsOfMethods methods)
        (Stmt.stepsOfMethods methods)
  | _, _, _, _, .nil => .nil
  | _, _, _, _, .cons method rest => (method.arranged [] nofun _).append rest.arranged

theorem SpellsDeclarations.arranged : ∀ {i j : ExprId} {w : List Token} {body : List Stmt},
    SpellsDeclarations i w body j → Arranged w (Stmt.nodesAll body) (Stmt.statementsAll body)
      (Stmt.stepsAll body)
  | _, _, _, _, .nil => .nil
  | _, _, _, _, .cons statement rest => statement.arranged.append rest.arranged

end

end Grammar

/-! ## Programs -/

namespace Program

variable {tokens : List Token} {firstId nextId : ExprId} {program : Program}
  {errors : List ScopeError}

/-- Faults are found in the order of the steps. -/
theorem words_of_resolve (refused : program.resolve = .error errors) :
    (errors.map ScopeError.word).Sublist (Step.words program.steps) := by
  obtain ⟨found, reported, sublist⟩ := Step.reports_run program.steps {}
  have ran : (Step.run program.steps {}).state = Stmt.resolveAll program {} :=
    congrArg Scope.Moment.state (Stmt.takesAll program {}).run
  rw [ran, (resolve_error_iff.mp refused).2] at reported
  obtain rfl : errors = found := reported
  exact sublist

/-- Every fault of scoping has the word and the span of a token. -/
theorem isWordOf_of_resolve (parsed : parse tokens firstId = ⟨.ok program, nextId⟩)
    (refused : program.resolve = .error errors) {e : ScopeError} (member : e ∈ errors) :
    Token.IsWordOf tokens e.lexeme e.span :=
  ((parse_eq_ok_iff.mp parsed).arranged.inside e.word
    ((words_of_resolve refused).subset (List.mem_map_of_mem member))).mono
    (List.takeWhile_sublist _).subset

/-- Of two members of a list, one comes before the other. -/
theorem eq_or_of_pairwise {α : Type} {r : α → α → Prop} {l : List α}
    (pairs : l.Pairwise r) {a b : α} (first : a ∈ l) (second : b ∈ l) : a = b ∨ r a b ∨ r b a := by
  obtain ⟨i, small, rfl⟩ := List.mem_iff_getElem.mp first
  obtain ⟨j, small', rfl⟩ := List.mem_iff_getElem.mp second
  rcases lt_trichotomy i j with less | rfl | greater
  · exact .inr (.inl (List.pairwise_iff_getElem.mp pairs i j small small' less))
  · exact .inl rfl
  · exact .inr (.inr (List.pairwise_iff_getElem.mp pairs j i small' small greater))

theorem exists_errors_of_lines (source : String) (lines : List Nat)
    (read : (Token.tokenize source).toOption.bind
      (fun tokens => (parse tokens 0).result.toOption.map fun program =>
      (Stmt.resolveAll program {}).errors.toList.map ScopeError.line) = some lines)
        (some : lines ≠ []) :
    ∃ tokens program errors, Token.tokenize source = .ok tokens ∧
      (parse tokens 0).result = .ok program ∧
      program.resolve = .error errors ∧ errors.map ScopeError.line = lines := by
  obtain ⟨tokens, scanned, read⟩ := Option.bind_eq_some_iff.mp read
  obtain ⟨program, parsed, rfl⟩ := Option.map_eq_some_iff.mp read
  refine ⟨tokens, program, _, eq_ok_of_toOption scanned, eq_ok_of_toOption parsed,
    resolve_error_iff.mpr ⟨fun none => some ?_, rfl⟩, rfl⟩
  rw [none]
  rfl

open Scope (InOrder Reversed)

/-- Every fault of scoping is reported at a word of the text, and the faults come in the order of
these words, except that those in the value of a property assignment come before those in its
object, and those in the body of a for statement before those in its increment. So they are in order
exactly if no such two parts have faults in both, and their lines never decrease then. -/
theorem resolve_errors_ordered_iff {source : String} (scanned : Token.tokenize source = .ok tokens)
    (parsed : (parse tokens firstId).result = .ok program)
    (refused : program.resolve = .error errors) :
    (∀ e ∈ errors, Token.IsWordOf tokens e.lexeme e.span) ∧
    (errors.Pairwise fun e e' => InOrder program.nodes program.statements e.word e'.word) ∧
    ((errors.Pairwise fun e e' => e.span.start ≤ e'.span.start) ↔
      ∀ first second, Reversed program.nodes program.statements first second →
        (∀ e ∈ errors, e.word ∉ first) ∨ ∀ e ∈ errors, e.word ∉ second) ∧
    ((errors.Pairwise fun e e' => e.span.start ≤ e'.span.start) →
      (errors.map ScopeError.line).Pairwise (· ≤ ·)) := by
  have spells := spells_of_parse parsed
  have ascends := Token.ascends_of_tokenize scanned
  have ascending : Token.Ascending (tokens.takeWhile (!·.isEnd)) :=
    (ascends.sublist (List.takeWhile_sublist _)).imp And.left
  have words := words_of_resolve refused
  have located : ∀ e ∈ errors, Token.IsWordOf tokens e.lexeme e.span := fun e member =>
    (spells.arranged.inside e.word (words.subset (List.mem_map_of_mem member))).mono
      (List.takeWhile_sublist _).subset
  have inOrder : errors.Pairwise fun e e' =>
    InOrder program.nodes program.statements e.word e'.word :=
    List.pairwise_map.mp ((spells.arranged.ordered ascending).sublist words)
  refine ⟨located, inOrder, ⟨fun ordered first second reversed => ?_, fun clean => ?_⟩,
    fun ordered => ?_⟩
  · by_contra both
    push Not at both
    obtain ⟨⟨e, member, here⟩, e', member', there⟩ := both
    have apart := spells.arranged.apart ascending reversed
    have less : e.span.start < e'.span.start := apart.before _ here _ there
    have turned := List.pairwise_map.mp (apart.turned.sublist words)
    rcases eq_or_of_pairwise (ordered.and turned) member member' with rfl | ⟨-, out⟩ | ⟨le, -⟩
    · exact lt_irrefl _ less
    · exact out here there
    · exact absurd le less.not_ge
  · refine inOrder.imp_of_mem fun {e e'} member member' known => ?_
    rcases known with le | ⟨first, second, reversed, here, there⟩
    · exact le
    · rcases clean first second reversed with none | none
      · exact absurd here (none e' member')
      · exact absurd there (none e member)
  · refine List.pairwise_map.mpr (ordered.imp_of_mem fun {e e'} member member' le => ?_)
    obtain ⟨t, here, span, -⟩ := located e member
    obtain ⟨t', there, span', -⟩ := located e' member'
    rw [← span, ← span'] at le
    rw [ScopeError.line, ScopeError.line, ← span, ← span']
    rcases eq_or_of_pairwise ascends here there with rfl | ⟨-, lines⟩ | ⟨less, -⟩
    · exact le_rfl
    · exact lines
    · exact absurd le less.not_ge

/-- The object and the value of a property assignment have a fault each. -/
theorem resolve_errors_ordered_iff_property :
    ∃ tokens program errors first second, Token.tokenize "this.a =\nthis;" = .ok tokens ∧
      (parse tokens 0).result = .ok program ∧ program.resolve = .error errors ∧
      Reversed program.nodes program.statements first second ∧
      (∃ e ∈ errors, e.word ∈ first) ∧ ∃ e ∈ errors, e.word ∈ second := by
  obtain ⟨tokens, program, errors, scanned, parsed, refused, lines⟩ :=
    exists_errors_of_lines "this.a =\nthis;" [2, 1] (by decide +kernel) (by decide)
  obtain ⟨-, -, ordered_iff, ascending⟩ := resolve_errors_ordered_iff scanned parsed refused
  have unordered : ¬errors.Pairwise fun e e' => e.span.start ≤ e'.span.start := by
    intro ordered
    have pairs := ascending ordered
    rw [lines] at pairs
    exact absurd pairs (by decide)
  rw [ordered_iff] at unordered
  push Not at unordered
  obtain ⟨first, second, reversed, both⟩ := unordered
  exact ⟨tokens, program, errors, first, second, scanned, parsed, refused, reversed, both⟩

/-- A fault on the second line is reported before one on the first. -/
theorem resolve_errors_of_reversed_parts :
    (∃ tokens program errors, Token.tokenize "this.a =\nthis;" = .ok tokens ∧
      (parse tokens 0).result = .ok program ∧ program.resolve = .error errors ∧
      errors.map ScopeError.line = [2, 1]) ∧
    ∃ tokens program errors, Token.tokenize "for (;;this)\nthis;" = .ok tokens ∧
      (parse tokens 0).result = .ok program ∧ program.resolve = .error errors ∧
      errors.map ScopeError.line = [2, 1] :=
  ⟨exists_errors_of_lines _ _ (by decide +kernel) (by decide),
    exists_errors_of_lines _ _ (by decide +kernel) (by decide)⟩

end Program

end Lox
