import Lox.Value.Basic

set_option autoImplicit false

/-!
# Inheritance

The classes that a class derives from: itself, and those that its superclass derives from. A method
is found in the nearest of them that has one of its name.
-/

namespace Lox

namespace Class

variable {name : String} {c home : Class} {method : Function}

/-- The class itself, or one above it. -/
inductive DerivesFrom : Class → Class → Prop where
  | self (c : Class) : DerivesFrom c c
  | above {c superclass home : Class} :
    c.superclass? = some superclass → DerivesFrom superclass home → DerivesFrom c home

/-- The first definition of a name from a class upwards, with the class that has it. -/
inductive Finds (name : String) : Class → Class → Function → Prop where
  | own {c : Class} {method : Function} : c.own.methods.find? name = some method →
      Finds name c c method
  | inherited {c superclass home : Class} {method : Function} : c.own.methods.find? name = none →
    c.superclass? = some superclass → Finds name superclass home method → Finds name c home method

theorem Finds.derives (finds : Finds name c home method) : c.DerivesFrom home := by
  induction finds with
  | own => exact .self _
  | inherited _ above _ inductionHypothesis => exact .above above inductionHypothesis

theorem Finds.found (finds : Finds name c home method) :
    home.own.methods.find? name = some method := by
  induction finds with
  | own found => exact found
  | inherited _ _ _ inductionHypothesis => exact inductionHypothesis

/-- Searching the layers of a class finds the first definition from the class upwards. -/
theorem findMethod?_eq_some_iff :
    c.findMethod? name = some method ↔ ∃ home, Finds name c home method := by
  obtain ⟨own, inherited⟩ := c
  induction inherited generalizing own with
  | nil =>
    constructor
    · intro found
      exact ⟨_, .own (by simpa [findMethod?] using found)⟩
    · rintro ⟨home, found | ⟨_, above, _⟩⟩
      · simpa [findMethod?] using found
      · cases above
  | cons next rest inductionHypothesis =>
    have step : findMethod? ⟨own, next :: rest⟩ name =
        (own.methods.find? name).or (findMethod? ⟨next, rest⟩ name) := by
      cases here : own.methods.find? name <;> simp [findMethod?, here]
    rw [step]
    constructor
    · intro found
      cases here : own.methods.find? name with
      | some other =>
        rw [here] at found
        cases found
        exact ⟨_, .own here⟩
      | none =>
        rw [here] at found
        obtain ⟨home, finds⟩ := (inductionHypothesis next).mp found
        exact ⟨home, .inherited here rfl finds⟩
    · rintro ⟨home, found | ⟨missing, above, finds⟩⟩
      · simp [found]
      · cases above
        simpa [missing] using (inductionHypothesis next).mpr ⟨home, finds⟩

/-- Every layer of a class is that of a class that it derives from. -/
theorem exists_derivesFrom {layer : ClassLayer} (member : layer ∈ c.own :: c.inherited) :
    ∃ home, c.DerivesFrom home ∧ home.own = layer := by
  obtain ⟨own, inherited⟩ := c
  induction inherited generalizing own with
  | nil => exact ⟨_, .self _, (List.mem_singleton.mp member).symm⟩
  | cons next rest inductionHypothesis =>
    rcases List.mem_cons.mp member with rfl | member
    · exact ⟨_, .self _, rfl⟩
    · obtain ⟨home, derives, same⟩ := inductionHypothesis next member
      exact ⟨home, .above rfl derives, same⟩

end Class

end Lox
