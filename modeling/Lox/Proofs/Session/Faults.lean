import Lox.Proofs.Session.Similar

set_option autoImplicit false

/-!
# Texts with faults

A text that is refused before execution leaves nothing behind but used numbers. The session is the
same machine as before, and similar to what it was: the programs that it has executed keep their
numbers, and all later ones get numbers that are larger by as many as were used. So nothing that it
runs from then on shows that the text was there.
-/

namespace Lox

open Scope (Names Rules Resolution)

/-! ## Similar to itself -/

section Reflexive

variable {id : ExprId → ExprId → Prop} {rules : Rules} {store : Store}

def Store.unmarked (store : Store) : List Bool :=
  List.replicate store.frames.size false

theorem Store.unmarked_getElem? {frame : FrameId} (allocated : frame < store.frames.size) :
    store.unmarked[frame]? = some false := by
  simp [unmarked, allocated]

theorem Store.StandFor.marked {chain : List FrameId} {scopes : List Names}
    (stand : store.StandFor chain scopes) :
    Marked store.unmarked chain (scopes.map fun _ => false) := by
  induction stand with
  | global allocated => exact .global (unmarked_getElem? allocated)
  | frame holds _ inductionHypothesis =>
    exact .frame (unmarked_getElem? holds.allocated) inductionHypothesis

variable (known : ∀ {scopes u}, rules.use scopes u → id u.id u.id)
include known

theorem Function.Fits.similar {f : Function} (fits : f.Fits rules store) :
    f.Similar (.numbering id) [] store.unmarked f := by
  obtain ⟨scopes, stand, obeys, _⟩ := fits
  exact ⟨rfl, rfl, rfl, _, Store.StandFor.marked stand, Stmt.RoutineObeys.similar known obeys⟩

theorem Function.FitsAsMethod.similar {superclass : Option Class} {f : Function}
    (fits : f.FitsAsMethod rules store superclass) :
    f.SimilarAsMethod (.numbering id) store.unmarked f := by
  obtain ⟨scopes, stand, obeys, _⟩ := fits
  exact ⟨rfl, rfl, rfl, _, Store.StandFor.marked stand, Stmt.RoutineObeys.similar known obeys⟩

theorem Class.Fits.similar {cls : Class} (fits : cls.Fits rules store) :
    cls.Similar (.numbering id) store.unmarked cls := by
  refine List.forall₂_same.mpr fun layer member => ⟨rfl, rfl, fun name => ?_⟩
  cases found : layer.methods.find? name with
  | none => exact .none
  | some method =>
    obtain ⟨home, derives, rfl⟩ := Class.exists_derivesFrom member
    exact .some ((fits home derives name method found).similar known)

theorem Value.Fits.similar {v : Value} (fits : v.Fits rules store) :
    v.Similar (.numbering id) store.unmarked v := by
  cases v with
  | nil => exact .nil
  | bool value => exact .bool value
  | number value => exact .number value
  | string value => exact .string value
  | native builtin => exact .native builtin
  | function f => exact .function (Function.Fits.similar known fits)
  | «class» cls => exact .class (Class.Fits.similar known fits)
  | «instance» object => exact .instance ⟨rfl, Class.Fits.similar known fits⟩

theorem Store.Fits.similar (fits : store.Fits rules) :
    store.Similar (.numbering id) store.unmarked store where
  marked := List.length_replicate
  frames := rfl
  fields := rfl
  identities := rfl
  bound {frame _ a a'} _ same := by
    cases same
    cases found : (store.frame frame).find? a with
    | none => exact .none
    | some value => exact .some ((fits.frames frame a value found).similar known)
  properties object name := by
    cases found : (store.fieldsOf object).find? name with
    | none => exact .none
    | some value => exact .some ((fits.fields object name value found).similar known)

end Reflexive

/-! ## Used numbers -/

/-- Numbers below `low` stand for themselves, and those from `low` on for those from `high` on. -/
def Shifted (low high i i' : ExprId) : Prop :=
  i < low ∧ i' = i ∨ ∃ k, i = low + k ∧ i' = high + k

theorem lawful_shifted {low high : ExprId} (le : low ≤ high) :
    (Correspondence.numbering (Shifted low high)).Lawful := by
  refine Correspondence.lawful_numbering fun {i i' j j'} first second => ?_
  obtain ⟨old, rfl⟩ | ⟨k, rfl, rfl⟩ := first <;> obtain ⟨old', rfl⟩ | ⟨k', rfl, rfl⟩ := second
  · rfl
  · have := old.trans_le (le.trans (Nat.le_add_right high k'))
    have := old.trans_le (Nat.le_add_right low k')
    grind
  · grind
  · grind

/-! ## A text that is refused -/

namespace Session

variable {s : Session} {programs : List Program}

theorem run_of_static_error {fuel : Nat} {source : String}
    (refused : (s.run fuel source).1.outcome = .staticError) :
    ∃ diagnostics nextId, Program.check source s.nextId = (.error diagnostics, nextId) ∧
      s.run fuel source = (⟨.staticError, diagnostics⟩, { s with nextId := nextId }) := by
  rw [run_eq] at refused ⊢
  cases checked : Program.check source s.nextId with
  | mk outcome nextId =>
    rw [checked] at refused
    cases outcome with
    | error diagnostics => exact ⟨diagnostics, nextId, rfl, rfl⟩
    | ok passed =>
      dsimp only at refused
      rw [execute_eq] at refused
      split at refused
      · cases refused
      · rename_i e _ _
        cases e <;> cases refused

theorem Fits.similar_number (fits : s.Fits programs) {nextId : ExprId} (le : s.nextId ≤ nextId) :
    s.Similar (Shifted s.nextId nextId) { s with nextId := nextId } where
  numbers k := .inr ⟨k, rfl, rfl⟩
  machine := by
    have known : ∀ {scopes u}, (s.record programs).rules.use scopes u →
        Shifted s.nextId nextId u.id u.id := fun agrees => .inl ⟨agrees.bound, rfl⟩
    have stand : Marked s.machine.store.unmarked s.machine.env.chain [] :=
      Store.StandFor.marked fits.inside.chain
    refine ⟨s.machine.store.unmarked, ?_⟩
    exact {
      store := fits.machine.store.similar known
      top := ⟨rfl, fits.top ▸ stand⟩
      inside := ⟨rfl, stand⟩
      depths := by
        refine ⟨fun {i i'} shifted => ?_, fun name => name⟩
        obtain ⟨_, rfl⟩ | ⟨k, rfl, rfl⟩ := shifted
        · rfl
        · -- Numbers that were not handed out have no depth, neither before nor behind the gap.
          rw [fits.entries _ (Nat.le_add_right _ k),
            fits.entries _ (le.trans (Nat.le_add_right _ k))]
      output := rfl
      callDepth := rfl
      clock := rfl }

end Session

namespace History

/-- A text that is refused is reported on by one phase, and changes nothing but the numbers of later
expressions. No later text shows a difference. -/
theorem transcript_of_static_error (clock : Clock) (output : Output) (runs : List (Nat × String))
    (fuel : Nat) (source : String) :
    let s := ((start clock output).runAll runs).session
    let result := s.run fuel source
    result.1.outcome = .staticError →
      result.2.machine = s.machine ∧ Diagnostic.OfOnePhase result.1.diagnostics ∧
        ∀ later : List (Nat × String), result.2.transcript later = s.transcript later := by
  intro s result refused
  obtain ⟨diagnostics, nextId, checked, ran⟩ := Session.run_of_static_error refused
  change result = _ at ran
  have fits : s.Fits _ := fits_runAll clock output runs
  have le : s.nextId ≤ nextId := by
    have le := Program.le_nextId_check source s.nextId
    rwa [checked] at le
  rw [ran]
  exact ⟨rfl, Program.ofOnePhase_of_check checked, fun later =>
    (fits.similar_number le).transcript (lawful_shifted le) later⟩

/-- The session has kept a closure, and the text uses it before the fault. -/
theorem transcript_of_static_error_kept_closure :
    let text :=
      "fun make() \x7b var n = \"a\"; fun add() \x7b n = n + \"b\"; return n; \x7d return add; \x7d"
    let s := ((start ⟨fun _ => 0, 0⟩ {}).runAll [(60, text), (60, "var f = make();")]).session
    let result := s.run 60 "print f(); print (f();"
    let later :=
      [(60, "print f();"), (60, "\x7b var a = f(); print a; \x7d print b;"), (60, "print (")]
    result.1.outcome = .staticError ∧ s.nextId < result.2.nextId ∧ result.2.machine = s.machine ∧
      Diagnostic.OfOnePhase result.1.diagnostics ∧
      (result.2.transcript later).map (fun seen => (seen.1.outcome, seen.2.text)) =
        [(.ok, "ab\n"), (.runtimeError, "ab\nabb\n"), (.staticError, "ab\nabb\n")] := by
  intro text s result later
  have refused : result.1.outcome = .staticError := by decide +kernel
  obtain ⟨machine, phase, same⟩ := transcript_of_static_error _ _ _ _ _ refused
  refine ⟨refused, by decide +kernel, machine, phase, ?_⟩
  rw [same later]
  decide +kernel

end History

end Lox
