import Lox.Proofs.Grammar.Acceptance
import Lox.Proofs.Grammar.Recasting
import Lox.Proofs.Token.Joining

set_option autoImplicit false

/-!
# Programs at other places

Tokens with other spans spell the program with those spans, and a word behind a word spells the
declarations of both. So a text behind another one is parsed as it is on its own, moved to where it
stands.
-/

namespace Lox

/-- The same tokens at other places. -/
def Recast.respan (f : Span → Span) : Recast where
  token := Token.respan f
  span := f
  shift := 0
  kind _ := rfl
  place _ := rfl

theorem Grammar.SpellsDeclarations.append {i j k : ExprId} {w v : List Token}
    {body rest : List Stmt}
    (first : SpellsDeclarations i w body j) (second : SpellsDeclarations j v rest k) :
    SpellsDeclarations i (w ++ v) (body ++ rest) k := by
  induction body generalizing i w with
  | nil =>
    cases first
    exact second
  | cons s body inductionHypothesis =>
    cases first with
    | cons s later =>
      rw [List.append_assoc]
      exact .cons s (inductionHypothesis later)

namespace Program

variable {tokens : List Token} {firstId nextId : ExprId} {program : Program}

theorem takeWhile_takeWhile_append (tokens : List Token) (finish : Token)
    (isEnd : finish.isEnd = true) :
    (tokens.takeWhile (!·.isEnd) ++ [finish]).takeWhile (!·.isEnd) =
      tokens.takeWhile (!·.isEnd) := by
  rw [List.takeWhile_append_of_pos fun token member => ?_]
  · rw [List.takeWhile_cons_of_neg (by simp [isEnd]), List.append_nil]
  · exact List.mem_takeWhile_imp (p := fun token : Token => !token.isEnd) member

/-- Where the tokens stand matters for the spans of a program only. -/
theorem parse_respan (f : Span → Span) (parsed : parse tokens firstId = ⟨.ok program, nextId⟩) :
    parse (tokens.map (Token.respan f)) firstId = ⟨.ok (program.relabel (.spans f)), nextId⟩ := by
  -- an end mark may be put in, since a program without faults is spelled before it
  have closed : parse (tokens.takeWhile (!·.isEnd) ++ [Token.endAt {}]) firstId =
      ⟨.ok program, nextId⟩ := by
    rw [parse_eq_ok_iff] at parsed ⊢
    rwa [takeWhile_takeWhile_append tokens _ rfl]
  have again := parse_recast (.respan f) (tokens.takeWhile (!·.isEnd) ++ [Token.endAt {}]) firstId
    (.inl ⟨Token.endAt {}, List.mem_append_right _ (List.mem_singleton.mpr rfl), rfl⟩)
  rw [closed] at again
  have spelled := parse_eq_ok_iff.mp again
  rw [List.takeWhile_map] at spelled
  have same :=
    congrArg (List.map (Token.respan f)) (takeWhile_takeWhile_append tokens (Token.endAt {}) rfl)
  rw [parse_eq_ok_iff, List.takeWhile_map]
  exact same ▸ spelled

/-- A program has no spans but those of its tokens. -/
theorem relabel_of_parse {f : Span → Span} (parsed : parse tokens firstId = ⟨.ok program, nextId⟩)
    (same : ∀ t ∈ tokens, t.isEnd = false → f t.span = t.span) :
    program.relabel (.spans f) = program := by
  have front : (tokens.map (Token.respan f)).takeWhile (!·.isEnd) =
      tokens.takeWhile (!·.isEnd) := by
    have unchanged : (tokens.takeWhile (!·.isEnd)).map (Token.respan f) =
        (tokens.takeWhile (!·.isEnd)).map id := by
      refine List.map_congr_left fun t member => ?_
      have goesOn := List.mem_takeWhile_imp (p := fun token : Token => !token.isEnd) member
      have inside := (List.takeWhile_sublist _).subset member
      exact congrArg (Token.mk t.kind t.lexeme) (same t inside (by simpa using goesOn))
    rw [List.takeWhile_map]
    exact unchanged.trans (List.map_id _)
  have moved := parse_eq_ok_iff.mp (parse_respan f parsed)
  rw [front, ← parse_eq_ok_iff, parsed] at moved
  simpa only [Parsed.mk.injEq, Except.ok.injEq, and_true] using moved.symm

/-- The tokens of a program before those of another one. -/
theorem parse_append {others : List Token} {program' : Program} {lastId : ExprId}
    (parsed : parse tokens firstId = ⟨.ok program, nextId⟩)
    (parsedOthers : parse others nextId = ⟨.ok program', lastId⟩) :
    parse (tokens.takeWhile (!·.isEnd) ++ others) firstId =
      ⟨.ok (program ++ program'), lastId⟩ := by
  rw [parse_eq_ok_iff] at parsed parsedOthers ⊢
  rw [List.takeWhile_append_of_pos fun token member => ?_]
  · exact parsed.append parsedOthers
  · exact List.mem_takeWhile_imp (p := fun token : Token => !token.isEnd) member

end Program

end Lox
