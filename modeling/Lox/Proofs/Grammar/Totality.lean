import Lox.Proofs.Grammar.Progress

set_option autoImplicit false

/-!
# Reading never gets stuck

Whatever tokens there are, reading them comes to an end at an end mark. The place of a reader among
the tokens never leaves them, and every declaration that starts in front of the end mark moves it
forward. What is read is a program if no fault was recorded, and all the recorded faults otherwise.
-/

namespace Lox.Grammar

/-- The tokens with an end mark behind them, unless they have one there. -/
def endMarked (tokens : List Token) : List Token :=
  if tokens.getLast?.any Token.isEnd then tokens else tokens ++ [missingEnd tokens]

def State.place (tokens : List Token) (s : State) : Nat :=
  (tokens.takeWhile (!·.isEnd)).length - s.rest.length

/-- The tokens are those to be read, the end mark, and others that are never looked at. -/
theorem endMarked_eq (tokens : List Token) (firstId : ExprId) :
    ∃ behind, endMarked tokens =
      (State.ofTokens tokens firstId).rest ++ (State.ofTokens tokens firstId).finish :: behind := by
  unfold State.ofTokens endMarked
  cases found : tokens.find? Token.isEnd with
  | none =>
    have none : ∀ token ∈ tokens, !token.isEnd := by simpa using found
    have last : ¬tokens.getLast?.any Token.isEnd = true := by
      intro closed
      obtain ⟨token, final, isEnd⟩ := (Option.any_eq_true _ _).mp closed
      have := none token (List.mem_of_getLast? final)
      simp [isEnd] at this
    rw [if_neg last, List.takeWhile_eq_self_iff.mpr none]
    exact ⟨[], rfl⟩
  | some mark =>
    obtain ⟨isEnd, before, behind, rfl, none⟩ := List.find?_eq_some_iff_append.mp found
    have front : (before ++ mark :: behind).takeWhile (!·.isEnd) = before := by
      rw [List.takeWhile_append_of_pos none]
      simp [isEnd]
    rw [front]
    split
    · exact ⟨behind, rfl⟩
    · exact ⟨behind ++ [missingEnd (before ++ mark :: behind)], by simp⟩

open State (Reaches)

variable {large : Prop} {s s' : State} {tokens : List Token} {firstId : ExprId}

/-- The end mark comes next behind the last token. -/
theorem State.Ends.isEnd_next (ends : s.Ends) (none : s.rest = []) : s.next.isEnd = true := by
  have next : s.next.kind = .endOfInput := by
    rw [State.next, none]
    exact ends
  rw [Token.isEnd, next]

/-- A reader stands at the next token. -/
theorem getElem?_place (reaches : Reaches large (.ofTokens tokens firstId) s) :
    (endMarked tokens)[s.place tokens]? = some s.next := by
  obtain ⟨behind, marked⟩ := endMarked_eq tokens firstId
  obtain ⟨passed, front⟩ := reaches.suffix
  have place : s.place tokens = passed.length := by
    have := congrArg List.length front
    rw [List.length_append] at this
    unfold State.place
    change passed.length + s.rest.length = (tokens.takeWhile (!·.isEnd)).length at this
    omega
  rw [place, marked, ← front, ← reaches.finish, State.next]
  cases s.rest with
  | nil => simp
  | cons token rest => simp

/-- Passing tokens moves the place forward. -/
theorem place_lt (reaches : Reaches large (.ofTokens tokens firstId) s)
    (shorter : s'.rest.length < s.rest.length) : s.place tokens < s'.place tokens := by
  have := reaches.suffix.length_le
  change s.rest.length ≤ (tokens.takeWhile (!·.isEnd)).length at this
  unfold State.place
  omega

/-- Declarations are read up to the end mark. -/
theorem declarations_leads (fuel : Nat) (ends : s.Ends) (enough : 16 * s.rest.length + 18 ≤ fuel) :
    Meets (declarations fuel) s (fun _ s' => s.Leads True s' ∧ s'.rest = []) fun _ _ => False := by
  induction fuel generalizing s with
  | zero => omega
  | succ fuel inductionHypothesis =>
    unfold declarations
    refine meets_bind.mpr (meets_atEnd.mpr (meets_ite.mpr ⟨fun atEnd => ?_, fun goesOn => ?_⟩))
    · exact ⟨.refl, List.isEmpty_iff.mp atEnd⟩
    · have remaining : s.rest ≠ [] := fun none => goesOn (List.isEmpty_iff.mpr none)
      have enoughFirst : True → 16 * s.rest.length + 17 ≤ fuel := fun _ => by omega
      refine meets_bind.mpr (((runsStatements fuel).recovers ends remaining enoughFirst).mono
        (fun first s' _ done => ?_) fun _ _ _ stopped => ?_)
      · obtain ⟨leads, shorter⟩ := done
        refine meets_bind.mpr ((inductionHypothesis (leads.reaches.ends ends) (by omega)).imp
          fun rest s'' _ done => ?_)
        exact ⟨leads.trans done.1, done.2⟩
      · omega

theorem declarations_reaches (fuel : Nat) (ends : s.Ends)
    (enough : 16 * s.rest.length + 18 ≤ fuel) :
    Meets (declarations fuel) s (fun _ s' => Reaches True s s' ∧ s'.rest = []) fun _ _ => False :=
  (declarations_leads fuel ends enough).imp fun _ _ _ done => ⟨done.1.reaches, done.2⟩

end Lox.Grammar

namespace Lox.Program

open Grammar (State declaration declarations fuelFor endMarked)
open Grammar.State (Reaches)

/-- Reading ends at an end mark for all tokens, without the bound on the recursion. It stands at one
of the tokens all the while, and goes forward by every declaration. The result are all the faults
that were recorded, if there are any. -/
theorem parse_total (tokens : List Token) (firstId : ExprId) :
    let start := State.ofTokens tokens firstId
    (∃ program finish,
      declarations (fuelFor start.rest.length) start = .ok program finish ∧
        Reaches True start finish ∧ (∀ e ∈ finish.errors, e.cause ≠ .unfinished) ∧
        (∃ mark, (endMarked tokens)[finish.place tokens]? = some mark ∧ mark.isEnd = true) ∧
        Program.parse tokens firstId =
          ⟨if finish.errors = #[] then .ok program else .error finish.errors.toList,
            finish.nextId⟩) ∧
      ∀ s, Reaches False start s →
        (endMarked tokens)[s.place tokens]? = some s.next ∧
          (s.next.isEnd = false → ∀ fuel, ∃ result s', declaration (fuel + 1) s = .ok result s' ∧
            Reaches False s s' ∧ s.place tokens < s'.place tokens) := by
  intro start
  have ends := Grammar.ends_ofTokens tokens firstId
  constructor
  · have enough : 16 * start.rest.length + 18 ≤ fuelFor start.rest.length := by
      unfold fuelFor
      omega
    have reading := Grammar.declarations_reaches _ ends enough
    cases outcome : declarations (fuelFor start.rest.length) start with
    | error fault finish => exact (reading.error_of_eq outcome).elim
    | ok program finish =>
      obtain ⟨reaches, none⟩ := reading.ok_of_eq outcome
      refine ⟨program, finish, rfl, reaches, reaches.finished (by simp [State.ofTokens]), ?_, ?_⟩
      · exact ⟨finish.next, Grammar.getElem?_place reaches, (reaches.ends ends).isEnd_next none⟩
      · unfold Program.parse
        simp only [start] at outcome
        simp only [outcome, Array.isEmpty_iff]
  · intro s reaches
    refine ⟨Grammar.getElem?_place reaches, fun proper fuel => ?_⟩
    have remaining : s.rest ≠ [] := by
      intro none
      rw [(reaches.ends ends).isEnd_next none] at proper
      cases proper
    have moves :=
      (Grammar.runsStatements (fuel + 1)).declaration (reaches.ends ends) remaining False.elim
    cases outcome : declaration (fuel + 1) s with
    | error fault s' => exact absurd (moves.error_of_eq outcome).1 (by omega)
    | ok result s' =>
      obtain ⟨further, shorter⟩ := moves.ok_of_eq outcome
      exact ⟨result, s', rfl, further, Grammar.place_lt reaches shorter⟩

end Lox.Program
