import Mathlib

set_option autoImplicit false

/-!
# Outcomes of computations

Statements about the outcome of a computation with state and errors: what holds of a result and the
state it comes with, and what holds of an error and the state it comes with.
-/

namespace Lox

variable {ε σ α β : Type} {x : EStateM ε σ α} {s : σ}
variable {ok : α → σ → Prop} {error : ε → σ → Prop}

theorem eq_ok_of_toOption {outcome : Except ε α} {a : α} (found : outcome.toOption = some a) :
    outcome = .ok a := by
  cases outcome <;> cases found
  rfl

/-- The outcome from a state satisfies `ok` if it is a result, and `error` if it is an error. -/
def Meets (x : EStateM ε σ α) (s : σ) (ok : α → σ → Prop) (error : ε → σ → Prop) : Prop :=
  match x s with
  | .ok a s' => ok a s'
  | .error e s' => error e s'

theorem meets_iff : Meets x s ok error ↔
    (∀ a s', x s = .ok a s' → ok a s') ∧ ∀ e s', x s = .error e s' → error e s' := by
  unfold Meets
  cases x s with
  | ok a s' => simp
  | error e s' => simp

theorem meets_congr {y : EStateM ε σ α} (same : x s = y s) :
    Meets x s ok error ↔ Meets y s ok error := by
  simp only [Meets, same]

theorem Meets.ok_of_eq (meets : Meets x s ok error) {a : α} {s' : σ} (result : x s = .ok a s') :
    ok a s' :=
  (meets_iff.mp meets).1 a s' result

theorem Meets.error_of_eq (meets : Meets x s ok error) {e : ε} {s' : σ}
    (result : x s = .error e s') : error e s' :=
  (meets_iff.mp meets).2 e s' result

theorem Meets.of_error {e : ε} {s' : σ} (failure : x s = .error e s') (holds : error e s') :
    Meets x s ok error := by
  simpa only [Meets, failure] using holds

def endState : EStateM.Result ε σ α → σ
  | .ok _ s => s
  | .error _ s => s

theorem meets_endState {holds : σ → Prop} :
    Meets x s (fun _ s' => holds s') (fun _ s' => holds s') ↔ holds (endState (x s)) := by
  unfold Meets
  cases x s with
  | ok a s' => exact Iff.rfl
  | error e s' => exact Iff.rfl

/-- A weaker statement about the outcome, where the outcome itself is known. -/
theorem Meets.mono {ok' : α → σ → Prop} {error' : ε → σ → Prop} (meets : Meets x s ok error)
    (result : ∀ a s', x s = .ok a s' → ok a s' → ok' a s')
    (failure : ∀ e s', x s = .error e s' → error e s' → error' e s') : Meets x s ok' error' := by
  rw [meets_iff] at meets ⊢
  exact ⟨fun a s' equality => result a s' equality (meets.1 a s' equality),
    fun e s' equality => failure e s' equality (meets.2 e s' equality)⟩

/-- A weaker statement about results, and the same about errors. -/
theorem Meets.imp {ok' : α → σ → Prop} (meets : Meets x s ok error)
    (result : ∀ a s', x s = .ok a s' → ok a s' → ok' a s') : Meets x s ok' error :=
  meets.mono result fun _ _ _ failure => failure

/-- A computation that cannot fail satisfies every statement about errors. -/
theorem Meets.never (meets : Meets x s ok fun _ _ => False) : Meets x s ok error :=
  meets.mono (fun _ _ _ result => result) fun _ _ _ impossible => impossible.elim

@[simp] theorem meets_bind {f : α → EStateM ε σ β} {ok : β → σ → Prop} :
    Meets (x >>= f) s ok error ↔ Meets x s (fun a s' => Meets (f a) s' ok error) error := by
  simp only [Meets, bind, EStateM.bind]
  cases x s <;> rfl

theorem bind_of_ok {f : α → EStateM ε σ β} {a : α} {s' : σ} (result : x s = .ok a s') :
    (x >>= f) s = f a s' := by
  simp only [bind, EStateM.bind, result]

theorem bind_of_error {f : α → EStateM ε σ β} {e : ε} {s' : σ} (failure : x s = .error e s') :
    (x >>= f) s = .error e s' := by
  simp only [bind, EStateM.bind, failure]

/-- What follows a step may be replaced where it is the same for every result of the step. -/
theorem bind_congr_of_meets {f g : α → EStateM ε σ β}
    (same : Meets x s (fun a s' => f a s' = g a s') fun _ _ => True) :
    (x >>= f) s = (x >>= g) s := by
  simp only [bind, EStateM.bind]
  cases result : x s with
  | ok a s' => exact same.ok_of_eq result
  | error e s' => rfl

def FailsWith (x : EStateM ε σ α) (s : σ) (e : ε) : Prop :=
  ∃ s', x s = .error e s'

theorem FailsWith.bind {f : α → EStateM ε σ β} {e : ε} (fails : FailsWith x s e) :
    FailsWith (x >>= f) s e := by
  obtain ⟨s', failure⟩ := fails
  exact ⟨s', bind_of_error failure⟩

theorem FailsWith.behind {f : α → EStateM ε σ β} {a : α} {s' : σ} {e : ε}
    (result : x s = .ok a s') (fails : FailsWith (f a) s' e) : FailsWith (x >>= f) s e := by
  obtain ⟨s'', failure⟩ := fails
  exact ⟨s'', (bind_of_ok result).trans failure⟩

/-- Two steps one after the other, joined by what holds between them. -/
theorem Meets.bind {f : α → EStateM ε σ β} {middle : α → σ → Prop} {ok : β → σ → Prop}
    (first : Meets x s middle error)
    (second : ∀ a s', x s = .ok a s' → middle a s' → Meets (f a) s' ok error) :
    Meets (x >>= f) s ok error :=
  meets_bind.mpr (first.imp second)

@[simp] theorem meets_pure {a : α} : Meets (pure a) s ok error ↔ ok a s := Iff.rfl

@[simp] theorem meets_map {f : α → β} {ok : β → σ → Prop} :
    Meets (f <$> x) s ok error ↔ Meets x s (fun a s' => ok (f a) s') error := by
  simp only [Meets, Functor.map, EStateM.map]
  cases x s <;> rfl

@[simp] theorem meets_throw {e : ε} :
    Meets (throw e : EStateM ε σ α) s ok error ↔ error e s := Iff.rfl

@[simp] theorem meets_get {ok : σ → σ → Prop} :
    Meets (get : EStateM ε σ σ) s ok error ↔ ok s s := Iff.rfl

@[simp] theorem meets_modify {f : σ → σ} {ok : PUnit → σ → Prop} :
    Meets (modify f : EStateM ε σ PUnit) s ok error ↔ ok ⟨⟩ (f s) := Iff.rfl

@[simp] theorem meets_modifyGet {f : σ → α × σ} :
    Meets (modifyGet f : EStateM ε σ α) s ok error ↔ ok (f s).1 (f s).2 := Iff.rfl

theorem meets_tryCatch {handler : ε → EStateM ε σ α} :
    Meets (tryCatch x handler) s ok error ↔
      Meets x s ok fun e s' => Meets (handler e) s' ok error := by
  simp only [Meets, tryCatch, tryCatchThe, MonadExceptOf.tryCatch, EStateM.tryCatch,
    EStateM.Backtrackable.restore, EStateM.dummyRestore]
  cases x s <;> rfl

theorem meets_ite {condition : Prop} [Decidable condition] {y : EStateM ε σ α} :
    Meets (if condition then x else y) s ok error ↔
      (condition → Meets x s ok error) ∧ (¬condition → Meets y s ok error) := by
  by_cases holds : condition <;> simp [holds]

end Lox
