import Lox.Proofs.Grammar.Primitives
import Lox.Proofs.Grammar.Spelling

set_option autoImplicit false

/-!
# What is read is spelled

A reader that records no fault has taken a word from the front of the tokens, and the word spells
what the reader yields. A fault is recorded or thrown, so no word has to be found where one was;
faults are never taken back, so a clean end means that every step before it was clean.
-/

namespace Lox

theorem Token.isSymbol_iff {t : Token} {mark : Symbol} :
    t.isSymbol mark = true ↔ t.kind = .symbol mark := by
  unfold Token.isSymbol
  cases t.kind <;> simp

theorem Token.isKeyword_iff {t : Token} {word : Keyword} :
    t.isKeyword word = true ↔ t.kind = .keyword word := by
  unfold Token.isKeyword
  cases t.kind <;> simp

namespace Grammar

/-- The end mark is one. -/
def State.Ends (s : State) : Prop :=
  s.finish.kind = .endOfInput

/-- Behind something that was read from an earlier state: if there is no fault, there was none
before and a word was taken that has the property. -/
structure Took (s : State) (word : ExprId → List Token → ExprId → Prop) (s' : State) : Prop where
  ends : s'.Ends
  clean : s'.errors = #[] →
    s.errors = #[] ∧ ∃ w, s.rest = w ++ s'.rest ∧ word s.nextId w s'.nextId

/-- What a reader takes spells what it yields. -/
def Yields {α : Type} (x : Read α) (word : ExprId → List Token → α → ExprId → Prop) : Prop :=
  ∀ {s : State}, s.Ends →
    Meets x s (fun a s' => Took s (word · · a ·) s') fun _ s' => s'.Ends

def YieldsBehind (x : Expr → Read Expr) (tier : Tier) : Prop :=
  ∀ {start s : State} {left : Expr}, Took start (Spells tier · · left ·) s →
    Meets (x left) s (fun e s' => Took start (Spells tier · · e ·) s') fun _ s' => s'.Ends

variable {s s' : State}

theorem Took.imp {word word' : ExprId → List Token → ExprId → Prop} (took : Took s word s')
    (implied : ∀ i w j, word i w j → word' i w j) : Took s word' s' := by
  refine ⟨took.ends, fun clean => ?_⟩
  obtain ⟨before, w, rest, holds⟩ := took.clean clean
  exact ⟨before, w, rest, implied _ _ _ holds⟩

/-- Nothing has to be shown behind a fault. -/
theorem Yields.of_fault {α : Type} {x : Read α}
    {word word' : ExprId → List Token → α → ExprId → Prop}
    (yields : Yields x word) (ends : s.Ends) (fault : s.errors ≠ #[]) {start : State} :
    Meets x s (fun a s' => Took start (word' · · a ·) s') fun _ s' => s'.Ends :=
  (yields ends).imp fun _ _ _ took => ⟨took.ends, fun clean => absurd (took.clean clean).1 fault⟩

/-- A token that is no end mark is the first of those that are left. -/
theorem State.Ends.rest_eq (ends : s.Ends) {kind : Token.Kind} (found : s.next.kind = kind)
    (proper : kind ≠ .endOfInput) : s.rest = s.next :: s.behind.rest := by
  unfold State.next State.behind at *
  cases remaining : s.rest with
  | nil =>
    rw [remaining] at found
    exact absurd (found.symm.trans ends) proper
  | cons token rest => rfl

theorem State.Ends.symbol (ends : s.Ends) {mark : Symbol} (found : s.next.isSymbol mark = true) :
    s.next.kind = .symbol mark ∧ s.rest = s.next :: s.behind.rest :=
  have kind := Token.isSymbol_iff.mp found
  ⟨kind, ends.rest_eq kind (by simp)⟩

theorem State.Ends.keyword (ends : s.Ends) {word : Keyword} (found : s.next.isKeyword word = true) :
    s.next.kind = .keyword word ∧ s.rest = s.next :: s.behind.rest :=
  have kind := Token.isKeyword_iff.mp found
  ⟨kind, ends.rest_eq kind (by simp)⟩

/-! ## Expressions -/

structure YieldsExpressions (fuel : Nat) : Prop where
  expression : Yields (expression fuel) (Spells .assignment)
  operators : ∀ level, Yields (operators fuel level) (Spells (.operators level))
  operand : ∀ level, Yields (operand fuel level) (Spells level.operandTier)
  operatorsTail : ∀ level, YieldsBehind (operatorsTail fuel level) (.operators level)
  unary : Yields (unary fuel) (Spells .unary)
  callTail : YieldsBehind (callTail fuel) .call
  arguments : ∀ count, Yields (arguments fuel count) fun i w args j =>
    SpellsArguments i w args j ∧ count + args.length ≤ maxArguments
  primary : Yields (primary fuel) (Spells .primary)

namespace YieldsExpressions

variable {fuel : Nat}

theorem zero : YieldsExpressions 0 where
  expression ends := ends
  operators _ _ ends := ends
  operand _ _ ends := ends
  operatorsTail _ _ _ _ took := took.ends
  unary ends := ends
  callTail took := took.ends
  arguments _ _ ends := ends
  primary ends := ends

variable (yields : YieldsExpressions fuel)
include yields

theorem expression_succ : Yields (Grammar.expression (fuel + 1)) (Spells .assignment) := by
  intro s ends
  unfold Grammar.expression
  refine (yields.operators .or ends).bind fun target s₁ _ tookTarget => ?_
  simp only [meets_bind, meets_peek]
  refine meets_ite.mpr ⟨fun found => ?_, fun _ => ?_⟩
  · simp only [meets_bind, meets_advance]
    refine (yields.expression (s := s₁.behind) tookTarget.ends).imp fun value s₂ _ tookValue => ?_
    have joined : s₂.errors = #[] → s.errors = #[] ∧
      ∃ w v, s.rest = w ++ s₁.next :: (v ++ s₂.rest) ∧
        s₁.next.kind = .symbol .equal ∧ SpellsTarget s.nextId w s₁.nextId target ∧
        Spells .assignment s₁.nextId v value s₂.nextId := by
      intro clean
      obtain ⟨middle, v, rest, value⟩ := tookValue.clean clean
      obtain ⟨before, w, rest', target⟩ := tookTarget.clean middle
      obtain ⟨kind, token⟩ := tookTarget.ends.symbol found
      exact ⟨before, w, v, by rw [rest', token, rest], kind, target.target, value⟩
    cases target with
    | ref reference =>
      simp only [meets_bind, meets_freshId, meets_pure]
      refine ⟨tookValue.ends, fun clean => ?_⟩
      obtain ⟨before, w, v, rest, equal, ⟨token, name, rfl, kind, rfl, number⟩, value⟩ :=
        joined clean
      rw [number] at value
      exact ⟨before, token :: s₁.next :: v, by rw [rest]; rfl, .assign kind equal value⟩
    | get id object name =>
      simp only [meets_bind, meets_freshId, meets_pure]
      refine ⟨tookValue.ends, fun clean => ?_⟩
      obtain ⟨before, w, v, rest, equal,
        ⟨u, dot, field, text, rfl, object, mark, kind, rfl, number⟩, value⟩ := joined clean
      rw [number] at value
      refine ⟨before, u ++ dot :: field :: s₁.next :: v, ?_, .set object mark kind equal value⟩
      rw [rest]
      simp
    | _ =>
      simp only [meets_bind, meets_record, meets_pure]
      exact ⟨tookValue.ends, fun clean => absurd clean (by simp)⟩
  · refine ⟨tookTarget.ends, fun clean => ?_⟩
    obtain ⟨before, w, rest, target⟩ := tookTarget.clean clean
    exact ⟨before, w, rest, .tighter rfl target⟩

theorem operators_succ (level : Level) :
    Yields (Grammar.operators (fuel + 1) level) (Spells (.operators level)) := by
  intro s ends
  unfold Grammar.operators
  refine (yields.operand level ends).bind fun left s₁ _ tookLeft => ?_
  refine yields.operatorsTail level ⟨tookLeft.ends, fun clean => ?_⟩
  obtain ⟨before, w, rest, left⟩ := tookLeft.clean clean
  exact ⟨before, w, rest, .tighter rfl left⟩

theorem operand_succ (level : Level) :
    Yields (Grammar.operand (fuel + 1) level) (Spells level.operandTier) := by
  intro s ends
  unfold Grammar.operand Level.operandTier
  cases level.tighter? with
  | some tighter => exact yields.operators tighter ends
  | none => exact yields.unary ends

theorem operatorsTail_succ (level : Level) :
    YieldsBehind (Grammar.operatorsTail (fuel + 1) level) (.operators level) := by
  intro start s left tookLeft
  unfold Grammar.operatorsTail
  simp only [meets_bind, meets_peek]
  cases found : level.operator? s.next.kind with
  | none => exact tookLeft
  | some op =>
    simp only [meets_bind, meets_advance, meets_freshId]
    refine (yields.operand level (s := s.behind) tookLeft.ends).imp fun right s₂ _ tookRight => ?_
    refine yields.operatorsTail level ⟨tookRight.ends, fun clean => ?_⟩
    obtain ⟨middle, v, rest, right⟩ := tookRight.clean clean
    obtain ⟨before, w, rest', left⟩ := tookLeft.clean middle
    have proper : s.next.kind ≠ .endOfInput := by
      intro finish
      rw [finish] at found
      cases level <;> cases found
    have token := tookLeft.ends.rest_eq rfl proper
    exact ⟨before, w ++ s.next :: v, by rw [rest', token, rest]; simp, .operator left found right⟩

theorem unary_succ : Yields (Grammar.unary (fuel + 1)) (Spells .unary) := by
  intro s ends
  unfold Grammar.unary
  simp only [meets_bind, meets_peek]
  cases found : unaryOperator? s.next.kind with
  | some op =>
    simp only [meets_bind, meets_advance, meets_freshId, meets_pure]
    refine (yields.unary (s := s.behind) ends).imp fun inner s₁ _ tookInner => ?_
    refine ⟨tookInner.ends, fun clean => ?_⟩
    obtain ⟨before, w, rest, inner⟩ := tookInner.clean clean
    have proper : s.next.kind ≠ .endOfInput := by
      intro finish
      rw [finish] at found
      cases found
    have token := ends.rest_eq rfl proper
    exact ⟨before, s.next :: w, by rw [token, rest]; rfl, .unary found inner⟩
  | none =>
    refine (yields.primary ends).bind fun callee s₁ _ tookCallee => ?_
    have call : Took s (Spells .call · · callee ·) s₁ := tookCallee.imp fun _ _ _ => .tighter rfl
    refine (yields.callTail call).imp fun e s₂ _ took => ?_
    exact took.imp fun _ _ _ => .tighter rfl

theorem callTail_succ : YieldsBehind (Grammar.callTail (fuel + 1)) .call := by
  intro start s callee took
  unfold Grammar.callTail
  rw [meets_bind, meets_accept]
  refine ⟨fun opening => ?_, fun _ => ?_⟩
  · obtain ⟨openingKind, openingToken⟩ := took.ends.symbol opening
    rw [if_pos rfl, meets_bind, meets_nextIs]
    refine meets_ite.mpr ⟨fun _ => ?_, fun _ => ?_⟩
    · rw [meets_bind, meets_pure, meets_bind, meets_expect]
      refine ⟨fun closing => ?_, fun _ => took.ends⟩
      obtain ⟨closingKind, closingToken⟩ := State.Ends.symbol (s := s.behind) took.ends closing
      simp only [meets_bind, meets_freshId]
      refine yields.callTail ⟨took.ends, fun clean => ?_⟩
      obtain ⟨before, w, rest, callee⟩ := took.clean clean
      refine ⟨before, w ++ [s.next, s.behind.next], ?_, .call callee openingKind closingKind⟩
      rw [rest, openingToken, closingToken]
      simp
    · refine (yields.arguments 0 (s := s.behind) took.ends).bind fun args s₁ _ tookArgs => ?_
      rw [meets_bind, meets_expect]
      refine ⟨fun closing => ?_, fun _ => tookArgs.ends⟩
      obtain ⟨closingKind, closingToken⟩ := tookArgs.ends.symbol closing
      simp only [meets_bind, meets_freshId]
      refine yields.callTail ⟨tookArgs.ends, fun clean => ?_⟩
      obtain ⟨middle, v, rest, args, few⟩ := tookArgs.clean clean
      obtain ⟨before, w, rest', callee⟩ := took.clean middle
      refine ⟨before, w ++ s.next :: (v ++ [s₁.next]), ?_,
        .callWith callee openingKind args (by omega) closingKind⟩
      rw [rest', openingToken, rest, closingToken]
      simp
  · rw [if_neg Bool.false_ne_true, meets_bind, meets_accept]
    refine ⟨fun dot => ?_, fun _ => took⟩
    obtain ⟨dotKind, dotToken⟩ := took.ends.symbol dot
    rw [if_pos rfl, meets_bind, meets_expectIdent]
    refine ⟨fun name field => ?_, fun _ => took.ends⟩
    have fieldToken := State.Ends.rest_eq (s := s.behind) took.ends field (by simp)
    simp only [meets_bind, meets_freshId]
    refine yields.callTail ⟨took.ends, fun clean => ?_⟩
    obtain ⟨before, w, rest, callee⟩ := took.clean clean
    refine ⟨before, w ++ [s.next, s.behind.next], ?_, .get callee dotKind field⟩
    rw [rest, dotToken, fieldToken]
    simp

theorem argument_succ (count : Nat) : Yields (do
      let first ← Grammar.expression fuel
      if ← accept .comma then
        return first :: (← Grammar.arguments fuel (count + 1))
      else
        return [first])
    fun i w args j => SpellsArguments i w args j ∧
      (count < maxArguments → count + args.length ≤ maxArguments) := by
  intro s ends
  refine (yields.expression ends).bind fun first s₁ _ tookFirst => ?_
  rw [meets_bind, meets_accept]
  refine ⟨fun comma => ?_, fun _ => ?_⟩
  · obtain ⟨commaKind, commaToken⟩ := tookFirst.ends.symbol comma
    simp only [if_true, meets_bind, meets_pure]
    refine (yields.arguments (count + 1) (s := s₁.behind) tookFirst.ends).imp
      fun rest s₂ _ tookRest => ?_
    refine ⟨tookRest.ends, fun clean => ?_⟩
    obtain ⟨middle, v, remaining, rest, few⟩ := tookRest.clean clean
    obtain ⟨before, w, remaining', first⟩ := tookFirst.clean middle
    refine ⟨before, w ++ s₁.next :: v, ?_, .cons first commaKind rest, fun _ => ?_⟩
    · rw [remaining', commaToken, remaining]
      simp
    · rw [List.length_cons]
      omega
  · simp only [Bool.false_eq_true, if_false, meets_pure]
    exact tookFirst.imp fun _ _ _ first => ⟨.last first, fun few => few⟩

theorem arguments_succ (count : Nat) : Yields (Grammar.arguments (fuel + 1) count)
    fun i w args j => SpellsArguments i w args j ∧ count + args.length ≤ maxArguments := by
  intro s ends
  unfold Grammar.arguments
  refine meets_ite.mpr ⟨fun _ => ?_, fun few => ?_⟩
  · rw [meets_bind, meets_peek, meets_bind, meets_record]
    refine Yields.of_fault (yields.argument_succ count) ?_ ?_
    · exact ends
    · simp
  · refine (yields.argument_succ count ends).imp fun args s₁ _ took => ?_
    exact took.imp fun _ _ _ holds => ⟨holds.1, holds.2 (by omega)⟩

theorem primary_succ : Yields (Grammar.primary (fuel + 1)) (Spells .primary) := by
  intro s ends
  unfold Grammar.primary
  simp only [meets_bind, meets_peek]
  split
  · rename_i value _ found
    have proper : s.next.kind ≠ .endOfInput := by
      intro finish
      rw [finish] at found
      cases found
    simp only [meets_bind, meets_advance, meets_freshId, meets_pure]
    exact ⟨ends, fun clean => ⟨clean, [s.next], ends.rest_eq rfl proper, .literal found⟩⟩
  · rename_i name _ found
    simp only [meets_bind, meets_advance, meets_freshId, meets_pure]
    exact ⟨ends, fun clean => ⟨clean, [s.next], ends.rest_eq found (by simp), .ref found⟩⟩
  · rename_i _ found
    simp only [meets_bind, meets_advance, meets_freshId, meets_pure]
    exact ⟨ends, fun clean => ⟨clean, [s.next], ends.rest_eq found (by simp), .this found⟩⟩
  · rename_i _ found
    have token := ends.rest_eq found (by simp)
    simp only [meets_bind, meets_advance]
    rw [meets_expect]
    refine ⟨fun dot => ?_, fun _ => ends⟩
    obtain ⟨dotKind, dotToken⟩ := State.Ends.symbol (s := s.behind) ends dot
    rw [meets_expectIdent]
    refine ⟨fun name method => ?_, fun _ => ends⟩
    have methodToken := State.Ends.rest_eq (s := s.behind.behind) ends method (by simp)
    simp only [meets_freshId, meets_pure]
    refine ⟨ends, fun clean => ⟨clean, [s.next, s.behind.next, s.behind.behind.next], ?_,
      .super found dotKind method⟩⟩
    rw [token, dotToken, methodToken]
    rfl
  · rename_i _ found
    have token := ends.rest_eq found (by simp)
    simp only [meets_bind, meets_advance]
    refine (yields.expression (s := s.behind) ends).imp fun inner s₁ _ tookInner => ?_
    rw [meets_expect]
    refine ⟨fun closing => ?_, fun _ => tookInner.ends⟩
    obtain ⟨closingKind, closingToken⟩ := tookInner.ends.symbol closing
    simp only [meets_freshId, meets_pure]
    refine ⟨tookInner.ends, fun clean => ?_⟩
    obtain ⟨before, w, rest, inner⟩ := tookInner.clean clean
    refine ⟨before, s.next :: (w ++ [s₁.next]), ?_, .group found inner closingKind⟩
    rw [token, rest, closingToken]
    simp
  · exact ends

theorem succ : YieldsExpressions (fuel + 1) where
  expression := yields.expression_succ
  operators := yields.operators_succ
  operand := yields.operand_succ
  operatorsTail := yields.operatorsTail_succ
  unary := yields.unary_succ
  callTail := yields.callTail_succ
  arguments := yields.arguments_succ
  primary := yields.primary_succ

end YieldsExpressions

theorem yieldsExpressions (fuel : Nat) : YieldsExpressions fuel := by
  induction fuel with
  | zero => exact .zero
  | succ fuel inductionHypothesis => exact inductionHypothesis.succ

/-! ## Statements -/

theorem parameter_yields {fuel : Nat} (count : Nat)
    (inductionHypothesis : ∀ count, Yields (parameters fuel count) fun i w params j =>
      i = j ∧ SpellsNames w params ∧ count + params.length ≤ maxArguments) :
    Yields (do
      let first ← expectIdent .parameterName
      if ← accept .comma then
        return first :: (← parameters fuel (count + 1))
      else
        return [first])
    fun i w params j => i = j ∧ SpellsNames w params ∧
      (count < maxArguments → count + params.length ≤ maxArguments) := by
  intro s ends
  rw [meets_bind, meets_expectIdent]
  refine ⟨fun name found => ?_, fun _ => ends⟩
  have token := ends.rest_eq found (by simp)
  rw [meets_bind, meets_accept]
  refine ⟨fun comma => ?_, fun _ => ?_⟩
  · obtain ⟨commaKind, commaToken⟩ := State.Ends.symbol (s := s.behind) ends comma
    simp only [if_true, meets_bind, meets_pure]
    refine (inductionHypothesis (count + 1) (s := s.behind.behind) ends).imp
      fun rest s₂ _ tookRest => ?_
    refine ⟨tookRest.ends, fun clean => ?_⟩
    obtain ⟨before, w, remaining, numbers, names, few⟩ := tookRest.clean clean
    refine ⟨before, s.next :: s.behind.next :: w, ?_, numbers,
      .cons found commaKind names, fun _ => ?_⟩
    · rw [token, commaToken, remaining]
      rfl
    · rw [List.length_cons]
      omega
  · simp only [Bool.false_eq_true, if_false, meets_pure]
    exact ⟨ends, fun clean => ⟨clean, [s.next], token, rfl, .last found, fun few => few⟩⟩

theorem parameters_yields (fuel : Nat) : ∀ count, Yields (parameters fuel count) fun i w params j =>
    i = j ∧ SpellsNames w params ∧ count + params.length ≤ maxArguments := by
  induction fuel with
  | zero => exact fun _ _ ends => ends
  | succ fuel inductionHypothesis =>
    intro count s ends
    unfold parameters
    refine meets_ite.mpr ⟨fun _ => ?_, fun few => ?_⟩
    · rw [meets_bind, meets_peek, meets_bind, meets_record]
      refine Yields.of_fault (parameter_yields count inductionHypothesis) ?_ ?_
      · exact ends
      · simp
    · refine (parameter_yields count inductionHypothesis ends).imp fun params s₁ _ took => ?_
      exact took.imp fun _ _ _ holds => ⟨holds.1, holds.2.1, holds.2.2 (by omega)⟩

/-- The symbol that an expression is left out before does not start one. -/
theorem expressionUnless_yields (mark : Symbol) (fuel : Nat) :
    Yields (expressionUnless mark fuel) SpellsOption := by
  intro s ends
  unfold expressionUnless
  simp only [meets_bind, meets_nextIs]
  refine meets_ite.mpr ⟨fun _ => ?_, fun _ => ?_⟩
  · exact ⟨ends, fun clean => ⟨clean, [], rfl, .none⟩⟩
  · simp only [meets_bind, meets_pure]
    refine ((yieldsExpressions fuel).expression ends).imp fun value s₁ _ took => ?_
    exact took.imp fun _ _ _ => .some

theorem varDeclaration_yields (fuel : Nat) : Yields (varDeclaration fuel) SpellsVariable := by
  intro s ends
  unfold varDeclaration
  rw [meets_bind, meets_expectIdent]
  refine ⟨fun name found => ?_, fun _ => ends⟩
  have token := ends.rest_eq found (by simp)
  rw [meets_bind, meets_accept]
  refine ⟨fun equal => ?_, fun _ => ?_⟩
  · obtain ⟨equalKind, equalToken⟩ := State.Ends.symbol (s := s.behind) ends equal
    rw [if_pos rfl, meets_bind, meets_map]
    refine ((yieldsExpressions fuel).expression (s := s.behind.behind) ends).imp
      fun initial s₁ _ took => ?_
    rw [meets_bind, meets_expect]
    refine ⟨fun semicolon => ?_, fun _ => took.ends⟩
    obtain ⟨semicolonKind, semicolonToken⟩ := took.ends.symbol semicolon
    refine ⟨took.ends, fun clean => ?_⟩
    obtain ⟨before, w, rest, initial⟩ := took.clean clean
    refine ⟨before, s.next :: s.behind.next :: (w ++ [s₁.next]), ?_,
      .initialized found equalKind initial semicolonKind⟩
    rw [token, equalToken, rest, semicolonToken]
    simp
  · rw [if_neg Bool.false_ne_true, meets_bind, meets_pure, meets_bind, meets_expect]
    refine ⟨fun semicolon => ?_, fun _ => ends⟩
    obtain ⟨semicolonKind, semicolonToken⟩ := State.Ends.symbol (s := s.behind) ends semicolon
    refine ⟨ends, fun clean => ⟨clean, [s.next, s.behind.next], ?_, .bare found semicolonKind⟩⟩
    rw [token, semicolonToken]
    rfl

/-- A statement of one part, with a semicolon behind it. -/
theorem Yields.terminated {α : Type} {x : Read α} {word : ExprId → List Token → α → ExprId → Prop}
    (yields : Yields x word) (expectation : ParseError.Expectation) (make : α → Stmt) :
    Yields (do let a ← x; let _ ← expect .semicolon expectation; return make a)
      fun i w s j => ∃ v semicolon a, w = v ++ [semicolon] ∧ s = make a ∧ word i v a j ∧
        semicolon.kind = .symbol .semicolon := by
  intro s ends
  refine (yields ends).bind fun a s₁ _ took => ?_
  rw [meets_bind, meets_expect]
  refine ⟨fun semicolon => ?_, fun _ => took.ends⟩
  obtain ⟨kind, token⟩ := took.ends.symbol semicolon
  refine ⟨took.ends, fun clean => ?_⟩
  obtain ⟨before, w, rest, spelled⟩ := took.clean clean
  refine ⟨before, w ++ [s₁.next], ?_, w, s₁.next, a, rfl, rfl, spelled, kind⟩
  rw [rest, token]
  simp

theorem expressionStatement_yields (fuel : Nat) : Yields (expressionStatement fuel)
    fun i w s j => ∃ v semicolon value, w = v ++ [semicolon] ∧ s = .expr value ∧
      Spells .assignment i v value j ∧ semicolon.kind = .symbol .semicolon :=
  Yields.terminated (yieldsExpressions fuel).expression .statementEnd .expr

theorem forInitial_yields (fuel : Nat) : Yields (forInitial fuel) SpellsInitial := by
  intro s ends
  unfold forInitial
  rw [meets_bind, meets_accept]
  refine ⟨fun semicolon => ?_, fun _ => ?_⟩
  · obtain ⟨kind, token⟩ := ends.symbol semicolon
    exact ⟨ends, fun clean => ⟨clean, [s.next], token, .none kind⟩⟩
  · rw [if_neg Bool.false_ne_true, meets_bind, meets_acceptKeyword]
    refine ⟨fun keyword => ?_, fun _ => ?_⟩
    · obtain ⟨kind, token⟩ := ends.keyword keyword
      simp only [if_true, meets_bind, meets_pure]
      refine (varDeclaration_yields fuel (s := s.behind) ends).imp fun declared s₁ _ took => ?_
      refine ⟨took.ends, fun clean => ?_⟩
      obtain ⟨before, w, rest, declared⟩ := took.clean clean
      exact ⟨before, s.next :: w, by rw [token, rest]; rfl, .var kind declared⟩
    · simp only [Bool.false_eq_true, if_false, meets_bind, meets_pure]
      refine (expressionStatement_yields fuel ends).imp fun statement s₁ _ took => ?_
      refine took.imp ?_
      rintro i w j ⟨v, semicolon, value, rfl, rfl, spelled, kind⟩
      exact .expr spelled kind

/-- What a reader takes spells the statement that it yields. No branch follows an open one. -/
def YieldsStatement (x : Read Stmt) : Prop :=
  ∀ {s : State}, s.Ends →
    Meets x s (fun a s' => Took s (fun i w j => ∃ isOpen, SpellsStatement isOpen i w a j ∧
      (isOpen = true → s'.next.isKeyword .else = false)) s') fun _ s' => s'.Ends

structure YieldsStatements (fuel : Nat) : Prop where
  declaration : Yields (declaration fuel) fun i w a j => ∃ s, a = some s ∧ SpellsDeclaration i w s j
  classDeclaration : Yields (classDeclaration fuel) fun i w s j =>
    ∀ keyword, keyword.kind = .keyword .class → SpellsDeclaration i (keyword :: w) s j
  methods : Yields (methods fuel) SpellsMethods
  routine : ∀ sort, Yields (routine fuel sort) SpellsRoutine
  block : Yields (block fuel) fun i w body j => ∃ v closing, w = v ++ [closing] ∧
    closing.kind = .symbol .rightBrace ∧ SpellsDeclarations i v body j
  statement : YieldsStatement (statement fuel)

namespace YieldsStatements

variable {fuel : Nat}

theorem zero : YieldsStatements 0 where
  declaration ends := ends
  classDeclaration ends := ends
  methods ends := ends
  routine _ _ ends := ends
  block ends := ends
  statement ends := ends

variable (yields : YieldsStatements fuel)
include yields

theorem declaration_succ : Yields (Grammar.declaration (fuel + 1)) fun i w a j =>
    ∃ s, a = some s ∧ SpellsDeclaration i w s j := by
  intro s ends
  unfold Grammar.declaration
  rw [meets_tryCatch, meets_map]
  -- A fault is recorded before reading goes on behind it.
  have recovers : ∀ (fault : ParseError) (s' : State), s'.Ends →
      Meets (do record fault; synchronize; return none : Read (Option Stmt)) s'
        (fun a s'' => Took s (fun i w j => ∃ d, a = some d ∧ SpellsDeclaration i w d j) s'')
        fun _ s'' => s''.Ends := by
    intro fault s' ends'
    rw [meets_bind, meets_record, meets_bind, meets_synchronize, meets_pure]
    refine ⟨?_, fun clean => ?_⟩
    · cases s'.rest <;> exact ends'
    · cases remaining : s'.rest <;> simp [remaining] at clean
  rw [meets_bind, meets_acceptKeyword]
  refine ⟨fun keyword => ?_, fun _ => ?_⟩
  · obtain ⟨kind, token⟩ := ends.keyword keyword
    rw [if_pos rfl]
    refine (yields.classDeclaration (s := s.behind) ends).mono (fun d s₁ _ took => ?_)
      fun fault s₁ _ => recovers fault s₁
    refine ⟨took.ends, fun clean => ?_⟩
    obtain ⟨before, w, rest, spells⟩ := took.clean clean
    exact ⟨before, s.next :: w, by rw [token, rest]; rfl, d, rfl, spells s.next kind⟩
  rw [if_neg Bool.false_ne_true, meets_bind, meets_acceptKeyword]
  refine ⟨fun keyword => ?_, fun _ => ?_⟩
  · obtain ⟨kind, token⟩ := ends.keyword keyword
    rw [if_pos rfl, meets_map]
    refine (yields.routine .function (s := s.behind) ends).mono (fun routine s₁ _ took => ?_)
      fun fault s₁ _ => recovers fault s₁
    refine ⟨took.ends, fun clean => ?_⟩
    obtain ⟨before, w, rest, spells⟩ := took.clean clean
    exact ⟨before, s.next :: w, by rw [token, rest]; rfl, _, rfl, .fun kind spells⟩
  rw [if_neg Bool.false_ne_true, meets_bind, meets_acceptKeyword]
  refine ⟨fun keyword => ?_, fun _ => ?_⟩
  · obtain ⟨kind, token⟩ := ends.keyword keyword
    rw [if_pos rfl]
    refine (varDeclaration_yields fuel (s := s.behind) ends).mono (fun d s₁ _ took => ?_)
      fun fault s₁ _ => recovers fault s₁
    refine ⟨took.ends, fun clean => ?_⟩
    obtain ⟨before, w, rest, spells⟩ := took.clean clean
    exact ⟨before, s.next :: w, by rw [token, rest]; rfl, d, rfl, .var kind spells⟩
  · rw [if_neg Bool.false_ne_true]
    refine (yields.statement ends).mono (fun d s₁ _ took => ?_) fun fault s₁ _ => recovers fault s₁
    refine took.imp ?_
    rintro i w j ⟨isOpen, spells, _⟩
    exact ⟨d, rfl, .statement spells⟩

theorem classBody_succ (name : Ident) (superclass : Option Reference) :
    Yields (do
      let _ ← expect .leftBrace .classBody
      let methods ← Grammar.methods fuel
      let _ ← expect .rightBrace .classEnd
      return Stmt.class name superclass methods)
    fun i w s j => ∃ opening v closing methods, w = opening :: (v ++ [closing]) ∧
      opening.kind = .symbol .leftBrace ∧ closing.kind = .symbol .rightBrace ∧
      s = .class name superclass methods ∧ SpellsMethods i v methods j := by
  intro s ends
  rw [meets_bind, meets_expect]
  refine ⟨fun opening => ?_, fun _ => ends⟩
  obtain ⟨openingKind, openingToken⟩ := ends.symbol opening
  refine (yields.methods (s := s.behind) ends).bind fun methods s₁ _ took => ?_
  rw [meets_bind, meets_expect]
  refine ⟨fun closing => ?_, fun _ => took.ends⟩
  obtain ⟨closingKind, closingToken⟩ := took.ends.symbol closing
  refine ⟨took.ends, fun clean => ?_⟩
  obtain ⟨before, v, rest, spells⟩ := took.clean clean
  refine ⟨before, s.next :: (v ++ [s₁.next]), ?_, s.next, v, s₁.next, methods, rfl, openingKind,
    closingKind, rfl, spells⟩
  rw [openingToken, rest, closingToken]
  simp

theorem classDeclaration_succ : Yields (Grammar.classDeclaration (fuel + 1)) fun i w s j =>
    ∀ keyword, keyword.kind = .keyword .class → SpellsDeclaration i (keyword :: w) s j := by
  intro s ends
  unfold Grammar.classDeclaration
  rw [meets_bind, meets_expectIdent]
  refine ⟨fun name found => ?_, fun _ => ends⟩
  have token := ends.rest_eq found (by simp)
  rw [meets_bind, meets_accept]
  refine ⟨fun less => ?_, fun _ => ?_⟩
  · obtain ⟨lessKind, lessToken⟩ := State.Ends.symbol (s := s.behind) ends less
    rw [if_pos rfl, meets_bind, meets_expectIdent]
    refine ⟨fun superclass foundSuperclass => ?_, fun _ => ends⟩
    have superclassToken := State.Ends.rest_eq (s := s.behind.behind) ends foundSuperclass (by simp)
    rw [meets_bind, meets_freshId, meets_bind, meets_pure]
    refine (yields.classBody_succ _ _
      (s := { s.behind.behind.behind with nextId := s.nextId + 1 }) ends).imp
      fun d s₁ _ took => ⟨took.ends, fun clean => ?_⟩
    obtain ⟨before, w, rest, opening, v, closing, methods, rfl, openingKind, closingKind,
        rfl, spells⟩ :=
      took.clean clean
    refine ⟨before, s.next :: s.behind.next :: s.behind.behind.next :: opening ::
      (v ++ [closing]), ?_,
      fun keyword kind => .class kind found (.some lessKind foundSuperclass) openingKind
      spells closingKind⟩
    rw [token, lessToken, superclassToken]
    simpa using rest
  · rw [if_neg Bool.false_ne_true, meets_bind, meets_pure]
    refine (yields.classBody_succ _ _ (s := s.behind) ends).imp
      fun d s₁ _ took => ⟨took.ends, fun clean => ?_⟩
    obtain ⟨before, w, rest, opening, v, closing, methods, rfl, openingKind, closingKind,
        rfl, spells⟩ :=
      took.clean clean
    refine ⟨before, s.next :: opening :: (v ++ [closing]), ?_,
      fun keyword kind => .class kind found .none openingKind spells closingKind⟩
    rw [token, rest]
    rfl

theorem methods_succ : Yields (Grammar.methods (fuel + 1)) SpellsMethods := by
  intro s ends
  unfold Grammar.methods
  simp only [meets_bind, meets_nextIs, meets_atEnd]
  refine meets_ite.mpr ⟨fun _ => ⟨ends, fun clean => ⟨clean, [], rfl, .nil⟩⟩, fun _ => ?_⟩
  refine (yields.routine .method ends).bind fun method s₁ _ tookMethod => ?_
  simp only [meets_bind, meets_pure]
  refine (yields.methods tookMethod.ends).imp fun rest s₂ _ tookRest => ?_
  refine ⟨tookRest.ends, fun clean => ?_⟩
  obtain ⟨middle, v, remaining, rest⟩ := tookRest.clean clean
  obtain ⟨before, w, remaining', method⟩ := tookMethod.clean middle
  exact ⟨before, w ++ v, by rw [remaining', remaining, List.append_assoc], .cons method rest⟩

theorem routineBody_succ (sort : ParseError.RoutineSort) (name : Ident) (params : List Ident) :
    Yields (do
      let _ ← expect .rightParen .parametersEnd
      let _ ← expect .leftBrace (.routineBody sort)
      let body ← Grammar.block fuel
      return (⟨name, params, body⟩ : Routine (List Stmt)))
    fun i w routine j => ∃ closing brace v last body, w = closing :: brace :: (v ++ [last]) ∧
      closing.kind = .symbol .rightParen ∧ brace.kind = .symbol .leftBrace ∧
      last.kind = .symbol .rightBrace ∧ routine = ⟨name, params, body⟩ ∧
      SpellsDeclarations i v body j := by
  intro s ends
  rw [meets_bind, meets_expect]
  refine ⟨fun closing => ?_, fun _ => ends⟩
  obtain ⟨closingKind, closingToken⟩ := ends.symbol closing
  rw [meets_bind, meets_expect]
  refine ⟨fun brace => ?_, fun _ => ends⟩
  obtain ⟨braceKind, braceToken⟩ := State.Ends.symbol (s := s.behind) ends brace
  refine (yields.block (s := s.behind.behind) ends).bind fun body s₁ _ took => ?_
  refine ⟨took.ends, fun clean => ?_⟩
  obtain ⟨before, w, rest, v, last, rfl, lastKind, spells⟩ := took.clean clean
  refine ⟨before, s.next :: s.behind.next :: (v ++ [last]), ?_, s.next, s.behind.next,
    v, last, body, rfl, closingKind, braceKind, lastKind, rfl, spells⟩
  rw [closingToken, braceToken, rest]
  rfl

theorem routine_succ (sort : ParseError.RoutineSort) :
    Yields (Grammar.routine (fuel + 1) sort) SpellsRoutine := by
  intro s ends
  unfold Grammar.routine
  rw [meets_bind, meets_expectIdent]
  refine ⟨fun name found => ?_, fun _ => ends⟩
  have token := ends.rest_eq found (by simp)
  rw [meets_bind, meets_expect]
  refine ⟨fun opening => ?_, fun _ => ends⟩
  obtain ⟨openingKind, openingToken⟩ := State.Ends.symbol (s := s.behind) ends opening
  simp only [meets_bind, meets_nextIs]
  refine meets_ite.mpr ⟨fun _ => ?_, fun _ => ?_⟩
  · refine (yields.routineBody_succ sort _ [] (s := s.behind.behind) ends).imp
      fun routine s₁ _ took => ⟨took.ends, fun clean => ?_⟩
    obtain ⟨before, w, rest, closing, brace, v, last, body, rfl, closingKind, braceKind,
      lastKind, rfl, spells⟩ := took.clean clean
    refine ⟨before, s.next :: s.behind.next :: closing :: brace :: (v ++ [last]), ?_,
      .mk found openingKind .none closingKind braceKind spells lastKind⟩
    rw [token, openingToken, rest]
    rfl
  · refine (parameters_yields fuel 0 (s := s.behind.behind) ends).bind
      fun params s₁ _ tookParams => ?_
    refine (yields.routineBody_succ sort _ params tookParams.ends).imp
      fun routine s₂ _ took => ⟨took.ends, fun clean => ?_⟩
    obtain ⟨middle, w, rest, closing, brace, v, last, body, rfl, closingKind, braceKind,
      lastKind, rfl, spells⟩ := took.clean clean
    obtain ⟨before, u, rest', numbers, names, few⟩ := tookParams.clean middle
    rw [← numbers] at spells
    refine ⟨before, s.next :: s.behind.next :: (u ++ closing :: brace :: (v ++ [last])), ?_,
      .mk found openingKind (.some names (by omega)) closingKind braceKind spells lastKind⟩
    rw [token, openingToken, rest', rest]
    simp

theorem block_succ : Yields (Grammar.block (fuel + 1)) fun i w body j => ∃ v closing,
    w = v ++ [closing] ∧ closing.kind = .symbol .rightBrace ∧ SpellsDeclarations i v body j := by
  intro s ends
  unfold Grammar.block
  simp only [meets_bind, meets_nextIs, meets_atEnd]
  refine meets_ite.mpr ⟨fun _ => ?_, fun _ => ?_⟩
  · rw [meets_bind, meets_expect]
    refine ⟨fun closing => ?_, fun _ => ends⟩
    obtain ⟨kind, token⟩ := ends.symbol closing
    exact ⟨ends, fun clean => ⟨clean, [s.next], token, [], s.next, rfl, kind, .nil⟩⟩
  · refine (yields.declaration ends).bind fun first s₁ _ tookFirst => ?_
    simp only [meets_bind, meets_pure]
    refine (yields.block tookFirst.ends).imp fun rest s₂ _ tookRest => ?_
    refine ⟨tookRest.ends, fun clean => ?_⟩
    obtain ⟨middle, u, remaining, v, closing, rfl, kind, rest⟩ := tookRest.clean clean
    obtain ⟨before, w, remaining', d, rfl, first⟩ := tookFirst.clean middle
    refine ⟨before, w ++ (v ++ [closing]), ?_, w ++ v, closing, by simp, kind, .cons first rest⟩
    rw [remaining', remaining]
    simp

theorem forStatement_succ (ends : s.Ends) (keyword : Token) (kind : keyword.kind = .keyword .for) :
    Meets (do
        let _ ← expect .leftParen .forClauses
        let initial ← forInitial fuel
        let condition ← expressionUnless .semicolon fuel
        let _ ← expect .semicolon .forConditionEnd
        let increment ← expressionUnless .rightParen fuel
        let _ ← expect .rightParen .forClausesEnd
        let body ← Grammar.statement fuel
        let condition ← match condition with
          | some condition => pure condition
          | none => do pure (.literal (← freshId) keyword.span (.bool true))
        return forLoop initial condition increment body) s
      (fun a s' => Took s (fun i w j => ∃ isOpen, SpellsStatement isOpen i (keyword :: w) a j ∧
        (isOpen = true → s'.next.isKeyword .else = false)) s') fun _ s' => s'.Ends := by
  rw [meets_bind, meets_expect]
  refine ⟨fun opening => ?_, fun _ => ends⟩
  obtain ⟨openingKind, openingToken⟩ := ends.symbol opening
  refine (forInitial_yields fuel (s := s.behind) ends).bind fun initial s₁ _ tookInitial => ?_
  refine (expressionUnless_yields .semicolon fuel tookInitial.ends).bind
    fun condition s₂ _ tookCondition => ?_
  rw [meets_bind, meets_expect]
  refine ⟨fun semicolon => ?_, fun _ => tookCondition.ends⟩
  obtain ⟨semicolonKind, semicolonToken⟩ := tookCondition.ends.symbol semicolon
  refine (expressionUnless_yields .rightParen fuel (s := s₂.behind) tookCondition.ends).bind
    fun increment s₃ _ tookIncrement => ?_
  rw [meets_bind, meets_expect]
  refine ⟨fun closing => ?_, fun _ => tookIncrement.ends⟩
  obtain ⟨closingKind, closingToken⟩ := tookIncrement.ends.symbol closing
  refine (yields.statement (s := s₃.behind) tookIncrement.ends).bind fun body s₄ _ tookBody => ?_
  -- The condition is numbered behind the body if it is left out.
  have spelled (e : Expr) (n : ExprId) (numbered : ∀ i v j, SpellsOption i v condition j →
      SpellsCondition keyword i v j s₄.nextId e n) :
      Took s (fun i w j => ∃ isOpen, SpellsStatement isOpen i (keyword :: w)
        (forLoop initial e increment body) j ∧
          (isOpen = true → s₄.next.isKeyword .else = false)) { s₄ with nextId := n } := by
    refine ⟨tookBody.ends, fun clean => ?_⟩
    obtain ⟨clean₃, t, rest₄, isOpen, body, follows⟩ := tookBody.clean clean
    obtain ⟨clean₂, u, rest₃, increment⟩ := tookIncrement.clean clean₃
    obtain ⟨clean₁, v, rest₂, condition⟩ := tookCondition.clean clean₂
    obtain ⟨before, w, rest₁, initial⟩ := tookInitial.clean clean₁
    refine ⟨before, s.next :: (w ++ (v ++ s₂.next :: (u ++ s₃.next :: t))), ?_, isOpen,
      .for kind openingKind initial (numbered _ _ _ condition) semicolonKind increment
      closingKind body,
      follows⟩
    rw [openingToken, rest₁, rest₂, semicolonToken, rest₃, closingToken, rest₄]
    simp
  cases condition with
  | none =>
    simp only [meets_bind, meets_freshId, meets_pure]
    refine spelled _ _ ?_
    rintro i v j ⟨⟩
    exact .none
  | some condition =>
    simp only [meets_bind, meets_pure]
    refine spelled _ _ ?_
    rintro i v j (_ | ⟨condition⟩)
    exact .some condition

theorem ifStatement_succ (ends : s.Ends) (keyword : Token) (kind : keyword.kind = .keyword .if) :
    Meets (do
        let _ ← expect .leftParen .ifCondition
        let condition ← Grammar.expression fuel
        let _ ← expect .rightParen .ifConditionEnd
        let yes ← Grammar.statement fuel
        let no ← if ← acceptKeyword .else then some <$> Grammar.statement fuel else pure none
        return Stmt.if condition yes no) s
      (fun a s' => Took s (fun i w j => ∃ isOpen, SpellsStatement isOpen i (keyword :: w) a j ∧
        (isOpen = true → s'.next.isKeyword .else = false)) s') fun _ s' => s'.Ends := by
  rw [meets_bind, meets_expect]
  refine ⟨fun opening => ?_, fun _ => ends⟩
  obtain ⟨openingKind, openingToken⟩ := ends.symbol opening
  refine ((yieldsExpressions fuel).expression (s := s.behind) ends).bind
    fun condition s₁ _ tookCondition => ?_
  rw [meets_bind, meets_expect]
  refine ⟨fun closing => ?_, fun _ => tookCondition.ends⟩
  obtain ⟨closingKind, closingToken⟩ := tookCondition.ends.symbol closing
  refine (yields.statement (s := s₁.behind) tookCondition.ends).bind fun yes s₂ _ tookYes => ?_
  rw [meets_bind, meets_acceptKeyword]
  refine ⟨fun otherwise => ?_, fun missing => ?_⟩
  · obtain ⟨otherwiseKind, otherwiseToken⟩ := tookYes.ends.keyword otherwise
    rw [if_pos rfl, meets_bind, meets_map]
    refine (yields.statement (s := s₂.behind) tookYes.ends).imp fun no s₃ _ tookNo => ?_
    refine ⟨tookNo.ends, fun clean => ?_⟩
    obtain ⟨clean₂, u, rest₃, isOpen, no, follows⟩ := tookNo.clean clean
    obtain ⟨clean₁, v, rest₂, yesIsOpen, yes, closed⟩ := tookYes.clean clean₂
    obtain ⟨before, w, rest₁, condition⟩ := tookCondition.clean clean₁
    obtain rfl : yesIsOpen = false := by
      cases yesIsOpen with
      | false => rfl
      | true => exact absurd (closed rfl) (by simp [otherwise])
    refine ⟨before, s.next :: (w ++ s₁.next :: (v ++ s₂.next :: u)), ?_, isOpen,
      .ifElse kind openingKind condition closingKind yes otherwiseKind no, follows⟩
    rw [openingToken, rest₁, closingToken, rest₂, otherwiseToken, rest₃]
    simp
  · rw [if_neg Bool.false_ne_true, meets_bind, meets_pure]
    refine ⟨tookYes.ends, fun clean => ?_⟩
    obtain ⟨clean₁, v, rest₂, isOpen, yes, _⟩ := tookYes.clean clean
    obtain ⟨before, w, rest₁, condition⟩ := tookCondition.clean clean₁
    refine ⟨before, s.next :: (w ++ s₁.next :: v), ?_, true,
      .if kind openingKind condition closingKind yes, fun _ => missing⟩
    rw [openingToken, rest₁, closingToken, rest₂]
    simp

theorem whileStatement_succ (ends : s.Ends) (keyword : Token)
    (kind : keyword.kind = .keyword .while) :
    Meets (do
        let _ ← expect .leftParen .whileCondition
        let condition ← Grammar.expression fuel
        let _ ← expect .rightParen .whileConditionEnd
        return Stmt.while condition (← Grammar.statement fuel)) s
      (fun a s' => Took s (fun i w j => ∃ isOpen, SpellsStatement isOpen i (keyword :: w) a j ∧
        (isOpen = true → s'.next.isKeyword .else = false)) s') fun _ s' => s'.Ends := by
  rw [meets_bind, meets_expect]
  refine ⟨fun opening => ?_, fun _ => ends⟩
  obtain ⟨openingKind, openingToken⟩ := ends.symbol opening
  refine ((yieldsExpressions fuel).expression (s := s.behind) ends).bind
    fun condition s₁ _ tookCondition => ?_
  rw [meets_bind, meets_expect]
  refine ⟨fun closing => ?_, fun _ => tookCondition.ends⟩
  obtain ⟨closingKind, closingToken⟩ := tookCondition.ends.symbol closing
  simp only [meets_bind, meets_pure]
  refine (yields.statement (s := s₁.behind) tookCondition.ends).imp fun body s₂ _ tookBody => ?_
  refine ⟨tookBody.ends, fun clean => ?_⟩
  obtain ⟨clean₁, v, rest₂, isOpen, body, follows⟩ := tookBody.clean clean
  obtain ⟨before, w, rest₁, condition⟩ := tookCondition.clean clean₁
  refine ⟨before, s.next :: (w ++ s₁.next :: v), ?_, isOpen,
    .while kind openingKind condition closingKind body, follows⟩
  rw [openingToken, rest₁, closingToken, rest₂]
  simp

theorem statement_succ : YieldsStatement (Grammar.statement (fuel + 1)) := by
  intro s ends
  -- The first token is the keyword or the brace that tells what follows.
  have behind {kind : Token.Kind} (found : s.next.kind = kind) (proper : kind ≠ .endOfInput)
      {a : Stmt} {s' : State}
      (took : Took s.behind (fun i w j => ∃ isOpen, SpellsStatement isOpen i (s.next :: w) a j ∧
        (isOpen = true → s'.next.isKeyword .else = false)) s') :
      Took s (fun i w j => ∃ isOpen, SpellsStatement isOpen i w a j ∧
        (isOpen = true → s'.next.isKeyword .else = false)) s' := by
    refine ⟨took.ends, fun clean => ?_⟩
    obtain ⟨before, w, rest, spells⟩ := took.clean clean
    exact ⟨before, s.next :: w, by rw [ends.rest_eq found proper, rest]; rfl, spells⟩
  unfold Grammar.statement
  rw [meets_bind, meets_peek]
  split
  · rename_i found
    rw [meets_bind, meets_advance]
    exact (yields.forStatement_succ (s := s.behind) ends s.next found).imp
      fun _ _ _ took => behind found (by simp) took
  · rename_i found
    rw [meets_bind, meets_advance]
    exact (yields.ifStatement_succ (s := s.behind) ends s.next found).imp
      fun _ _ _ took => behind found (by simp) took
  · rename_i found
    rw [meets_bind, meets_advance]
    refine (Yields.terminated (yieldsExpressions fuel).expression .printEnd .print
      (s := s.behind) ends).imp
      fun statement s₁ _ took => behind found (by simp) (took.imp ?_)
    rintro i w j ⟨v, semicolon, value, rfl, rfl, spelled, kind⟩
    exact ⟨false, .print found spelled kind, by simp⟩
  · rename_i found
    rw [meets_bind, meets_advance]
    refine (Yields.terminated (expressionUnless_yields .semicolon fuel) .returnEnd
      (.return s.next.span)
      (s := s.behind) ends).imp fun statement s₁ _ took => behind found (by simp) (took.imp ?_)
    rintro i w j ⟨v, semicolon, value, rfl, rfl, spelled, kind⟩
    exact ⟨false, .return found spelled kind, by simp⟩
  · rename_i found
    rw [meets_bind, meets_advance]
    exact (yields.whileStatement_succ (s := s.behind) ends s.next found).imp
      fun _ _ _ took => behind found (by simp) took
  · rename_i found
    rw [meets_bind, meets_advance, meets_map]
    refine (yields.block (s := s.behind) ends).imp fun body s₁ _ took => ?_
    refine behind found (by simp) (took.imp ?_)
    rintro i w j ⟨v, closing, rfl, kind, body⟩
    exact ⟨false, .block found body kind, by simp⟩
  · refine (expressionStatement_yields fuel ends).imp fun statement s₁ _ took => ?_
    refine took.imp ?_
    rintro i w j ⟨v, semicolon, value, rfl, rfl, spelled, kind⟩
    exact ⟨false, .expr spelled kind, by simp⟩

theorem succ : YieldsStatements (fuel + 1) where
  declaration := yields.declaration_succ
  classDeclaration := yields.classDeclaration_succ
  methods := yields.methods_succ
  routine := yields.routine_succ
  block := yields.block_succ
  statement := yields.statement_succ

end YieldsStatements

theorem yieldsStatements (fuel : Nat) : YieldsStatements fuel := by
  induction fuel with
  | zero => exact .zero
  | succ fuel inductionHypothesis => exact inductionHypothesis.succ

/-- What is left to be read spells the program, as long as the bound on the recursion is not
reached. -/
theorem declarations_yields (fuel : Nat) (ends : s.Ends) :
    Meets (declarations fuel) s (fun body s' => s'.errors = #[] → s.errors = #[] ∧
      SpellsDeclarations s.nextId s.rest body s'.nextId) fun _ _ => True := by
  induction fuel generalizing s with
  | zero => trivial
  | succ fuel inductionHypothesis =>
    unfold declarations
    simp only [meets_bind, meets_atEnd]
    refine meets_ite.mpr ⟨fun atEnd clean => ?_, fun _ => ?_⟩
    · rw [List.isEmpty_iff.mp atEnd]
      exact ⟨clean, .nil⟩
    · refine meets_bind.mpr (((yieldsStatements fuel).declaration ends).mono
        (fun first s₁ _ tookFirst => ?_) fun _ _ _ _ => trivial)
      simp only [meets_bind, meets_pure]
      refine (inductionHypothesis tookFirst.ends).mono
        (fun rest s₂ _ spelledRest clean => ?_) fun _ _ _ _ => trivial
      obtain ⟨middle, rest⟩ := spelledRest clean
      obtain ⟨before, w, remaining, d, rfl, spells⟩ := tookFirst.clean middle
      rw [remaining]
      exact ⟨before, .cons spells rest⟩

theorem ends_ofTokens (tokens : List Token) (firstId : ExprId) :
    (State.ofTokens tokens firstId).Ends := by
  unfold State.Ends State.ofTokens
  cases found : tokens.find? Token.isEnd with
  | none => rfl
  | some token =>
    have isEnd := List.find?_some found
    unfold Token.isEnd at isEnd
    split at isEnd
    · assumption
    · cases isEnd

end Grammar

/-- The tokens up to the end mark spell the program that is read from them. -/
theorem Program.spells_of_parse {tokens : List Token} {firstId : ExprId} {program : Program}
    (parsed : (Program.parse tokens firstId).result = .ok program) :
    Grammar.SpellsDeclarations firstId (tokens.takeWhile (!·.isEnd)) program
      (Program.parse tokens firstId).nextId := by
  have reading := Grammar.declarations_yields
    (Grammar.fuelFor (Grammar.State.ofTokens tokens firstId).rest.length)
    (Grammar.ends_ofTokens tokens firstId)
  unfold Program.parse at parsed ⊢
  dsimp only at parsed ⊢
  cases outcome : Grammar.declarations
      (Grammar.fuelFor (Grammar.State.ofTokens tokens firstId).rest.length)
      (Grammar.State.ofTokens tokens firstId) with
  | ok read finish =>
    have spelled := reading.ok_of_eq outcome
    rw [outcome] at parsed
    dsimp only at parsed ⊢
    split at parsed
    · rename_i clean
      cases parsed
      exact (spelled (Array.isEmpty_iff.mp clean)).2
    · cases parsed
  | error fault finish =>
    rw [outcome] at parsed
    cases parsed

end Lox
