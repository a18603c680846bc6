import Lox.Proofs.Scope.Padding
import Lox.Proofs.Store.Fits
import Lox.Proofs.Value.Related

set_option autoImplicit false

/-!
# Stores of padded programs

The stores of two machines, one of which runs a padded program. That one makes a frame for each
frame that the other one makes, and more frames for the extra scopes, so the frames that go together
have different numbers. The list of those numbers only grows. Frames that go together bind the same
names to related values. What is in a frame of an extra scope does not matter, because no depth
leads there.
-/

namespace Lox

open Scope (Shifts)

structure Tables where
  plain : Depths
  padded : Depths

/-- The depths of a use in both programs go with the scopes around it. -/
abbrev Tables.Shifts (t : Tables) : Layout → Use → Prop :=
  Scope.Shifts t.plain t.padded

/-! ## Environments -/

/-- The frames of an environment, and those of the environment at the same point of the padded
program. In the world stands for each frame of the first store the number of the frame that goes
with it. -/
inductive Chains (world : List FrameId) : Layout → List FrameId → List FrameId → Prop where
  | global {i j : FrameId} : world[i]? = some j → Chains world [] [i] [j]
  | own {layout : Layout} {i j : FrameId} {chain chain' : List FrameId} :
    world[i]? = some j → Chains world layout chain chain' →
      Chains world (false :: layout) (i :: chain) (j :: chain')
  | extra {layout : Layout} (j : FrameId) {chain chain' : List FrameId} :
    Chains world layout chain chain' → Chains world (true :: layout) chain (j :: chain')

section Chains

variable {world world' : List FrameId} {layout : Layout} {chain chain' : List FrameId}

theorem frame_later (later : world <+: world') {i j : FrameId} (known : world[i]? = some j) :
    world'[i]? = some j := by
  obtain ⟨rest, rfl⟩ := later
  rw [List.getElem?_append_left (List.getElem?_eq_some_iff.mp known).1]
  exact known

theorem Chains.later (chains : Chains world layout chain chain') (later : world <+: world') :
    Chains world' layout chain chain' := by
  induction chains with
  | global known => exact .global (frame_later later known)
  | own known _ inductionHypothesis => exact .own (frame_later later known) inductionHypothesis
  | extra j _ inductionHypothesis => exact .extra j inductionHypothesis

/-- The frames at a depth, with the extra scopes counted in the second environment, go together. -/
theorem Chains.getElem? (chains : Chains world layout chain chain') (depth : Nat) :
    Option.Rel (fun i j => world[i]? = some j) chain[depth]? chain'[layout.shift depth]? := by
  induction chains generalizing depth with
  | global known =>
    cases depth with
    | zero => exact .some known
    | succ depth => exact .none
  | own known _ inductionHypothesis =>
    cases depth with
    | zero => exact .some known
    | succ depth => exact inductionHypothesis depth
  | extra j _ inductionHypothesis => exact inductionHypothesis depth

/-- The innermost frames go together unless that of the padded program is extra. -/
theorem Chains.innermost {env env' : Env} (chains : Chains world layout env.chain env'.chain)
    (regular : layout.Regular) : world[env.frame]? = some env'.frame := by
  have frames := chains.getElem? 0
  rw [regular.shift_zero] at frames
  cases frames with
  | some known => exact known

end Chains

/-! ## Values -/

/-- Functions that one step made in environments that go together. Their routines are padded inside
the scopes of those, and of some more, `below`, whose frames are still to come. -/
structure Function.Padded (t : Tables) (below : Layout) (world : List FrameId) (f f' : Function) :
    Prop where
  identity : f'.identity = f.identity
  isInitializer : f'.isInitializer = f.isInitializer
  routine : ∃ layout, (below ++ layout).Regular ∧
    Chains world layout f.closure.chain f'.closure.chain ∧
    Stmt.RoutinePadded t.Shifts (below ++ layout) f.routine f'.routine

/-- The frame with `this` is made when a method is tied to an instance. -/
abbrev Function.PaddedAsMethod (t : Tables) : List FrameId → Function → Function → Prop :=
  Function.Padded t [false]

abbrev Class.Padded (t : Tables) (world : List FrameId) : Class → Class → Prop :=
  Class.Related (Function.PaddedAsMethod t world)

abbrev Instance.Padded (t : Tables) (world : List FrameId) : Instance → Instance → Prop :=
  Instance.Related (Function.PaddedAsMethod t world)

abbrev Value.Padded (t : Tables) (world : List FrameId) : Value → Value → Prop :=
  Value.Related (Function.Padded t [] world) (Function.PaddedAsMethod t world)

section Values

variable {t : Tables} {below : Layout} {world world' : List FrameId} {v v' : Value}
  {f f' : Function}

theorem Function.Padded.later (padded : f.Padded t below world f') (later : world <+: world') :
    f.Padded t below world' f' := by
  obtain ⟨layout, regular, chains, routine⟩ := padded.routine
  exact { padded with routine := ⟨layout, regular, chains.later later, routine⟩ }

theorem Function.Padded.alike (padded : f.Padded t below world f') : f.Alike f' := by
  obtain ⟨_, _, _, routine⟩ := padded.routine
  exact ⟨padded.identity, congrArg Ident.text routine.name, congrArg List.length routine.params⟩

instance : Function.Lasting (Function.Padded t below) :=
  ⟨.later, Function.Padded.alike⟩

end Values

/-! ## Stores -/

structure Store.Padded (t : Tables) (world : List FrameId) (s s' : Store) : Prop where
  known : world.length = s.frames.size
  distinct : world.Nodup
  made : ∀ j ∈ world, j < s'.frames.size
  fields : s'.fields.size = s.fields.size
  identities : s'.identities = s.identities
  bound : ∀ {i j}, world[i]? = some j → ∀ name,
    Option.Rel (Value.Padded t world) ((s.frame i).find? name) ((s'.frame j).find? name)
  properties : ∀ id name,
    Option.Rel (Value.Padded t world) ((s.fieldsOf id).find? name) ((s'.fieldsOf id).find? name)

namespace Store.Padded

variable {t : Tables} {world : List FrameId} {s s' : Store} {i j : FrameId} {v v' : Value}

theorem allocated (padded : s.Padded t world s') (known : world[i]? = some j) :
    i < s.frames.size := by
  rw [← padded.known]
  exact (List.getElem?_eq_some_iff.mp known).1

/-- Two new frames that go together. -/
theorem addFrame (padded : s.Padded t world s') {bindings bindings' : Bindings Value}
    (values : ∀ name,
      Option.Rel (Value.Padded t world) (bindings.find? name) (bindings'.find? name)) :
    (s.addFrame bindings).Padded t (world ++ [s'.frames.size]) (s'.addFrame bindings') := by
  have later : world <+: world ++ [s'.frames.size] := List.prefix_append _ _
  have new : s'.frames.size ∉ world := fun member => lt_irrefl _ (padded.made _ member)
  refine ⟨by simp [padded.known], ?_, fun j member => ?_, padded.fields, padded.identities, ?_,
    fun id name => ?_⟩
  · exact List.nodup_append.mpr ⟨padded.distinct, List.nodup_singleton _, by
      rintro j member _ here rfl
      exact new (List.mem_singleton.mp here ▸ member)⟩
  · rw [size_addFrame]
    rcases List.mem_append.mp member with old | here
    · exact (padded.made j old).trans (Nat.lt_succ_self _)
    · rw [List.mem_singleton.mp here]
      exact Nat.lt_succ_self _
  · intro i j known name
    by_cases old : i < world.length
    · rw [List.getElem?_append_left old] at known
      have inside : j ≠ s'.frames.size := (padded.made j (List.mem_of_getElem? known)).ne
      rw [frame_addFrame_of_ne _ (padded.known ▸ old).ne, frame_addFrame_of_ne _ inside]
      exact optionRel_imp (fun _ _ related => related.later later) (padded.bound known name)
    · have inside := (List.getElem?_eq_some_iff.mp known).1
      rw [List.length_append, List.length_singleton, Nat.lt_succ_iff] at inside
      obtain rfl : i = world.length := inside.antisymm (not_lt.mp old)
      rw [List.getElem?_concat_length, Option.some.injEq] at known
      rw [padded.known, ← known, frame_addFrame_self, frame_addFrame_self]
      exact optionRel_imp (fun _ _ related => related.later later) (values name)
  · exact optionRel_imp (fun _ _ related => related.later later) (padded.properties id name)

/-- A frame for an extra scope. -/
theorem addExtra (padded : s.Padded t world s') (bindings : Bindings Value) :
    s.Padded t world (s'.addFrame bindings) := by
  refine { padded with
    made := fun j member => ?_
    bound := fun {i j} known name => ?_ }
  · rw [size_addFrame]
    exact (padded.made j member).trans (Nat.lt_succ_self _)
  · rw [frame_addFrame_of_ne _ (padded.made j (List.mem_of_getElem? known)).ne]
    exact padded.bound known name

theorem bind (padded : s.Padded t world s') (known : world[i]? = some j) (name : String)
    (values : v.Padded t world v') : (s.bind i name v).Padded t world (s'.bind j name v') := by
  refine { padded with
    known := by rw [size_bind, padded.known]
    made := fun j member => by rw [size_bind]; exact padded.made j member
    bound := fun {i' j'} known' key => ?_ }
  have allocated := padded.allocated known
  have allocated' := padded.made j (List.mem_of_getElem? known)
  -- No frame goes together with two others.
  have same : j' = j ↔ i' = i := by
    constructor
    · rintro rfl
      exact (List.getElem?_inj (padded.known ▸ padded.allocated known') padded.distinct).mp
        (known'.trans known.symm)
    · rintro rfl
      exact Option.some.inj (known'.symm.trans known)
  rw [find?_frame_bind, find?_frame_bind]
  simp only [same, allocated, allocated', and_true]
  split
  · exact .some values
  · exact padded.bound known' key

theorem addInstance (padded : s.Padded t world s') :
    s.addInstance.Padded t world s'.addInstance := by
  refine { padded with
    fields := by simp [Store.addInstance, padded.fields]
    properties := fun id name => ?_ }
  simp only [fieldsOf, Store.addInstance, Array.getD_eq_getD_getElem?, Array.getElem?_push,
    padded.fields]
  split
  · exact .none
  · simpa [fieldsOf, Array.getD_eq_getD_getElem?] using padded.properties id name

theorem setField (padded : s.Padded t world s') (id : InstanceId) (name : String)
    (values : v.Padded t world v') :
    (s.setField id name v).Padded t world (s'.setField id name v') := by
  refine { padded with
    fields := by simp [Store.setField, padded.fields]
    properties := fun other key => ?_ }
  rw [find?_fieldsOf_setField, find?_fieldsOf_setField, padded.fields]
  split
  · exact .some values
  · exact padded.properties other key

theorem addIdentity (padded : s.Padded t world s') : s.addIdentity.Padded t world s'.addIdentity :=
  { padded with identities := congrArg (· + 1) padded.identities }

/-! Access finds related values in frames that go together. -/

theorem contains (padded : s.Padded t world s') (known : world[i]? = some j) (name : String) :
    (s'.frame j).contains name = (s.frame i).contains name :=
  isSome_eq_of_optionRel (padded.bound known name)

section Access

variable {layout : Layout} {env env' : Env}

theorem getAt? (padded : s.Padded t world s') (chains : Chains world layout env.chain env'.chain)
    (depth : Nat) (name : String) : Option.Rel (Value.Padded t world) (s.getAt? env depth name)
      (s'.getAt? env' (layout.shift depth) name) := by
  have frames := chains.getElem? depth
  unfold Store.getAt?
  generalize env.chain[depth]? = found, env'.chain[layout.shift depth]? = found' at frames
  cases frames with
  | none => exact .none
  | some known => exact padded.bound known name

theorem frameAt? (padded : s.Padded t world s') (chains : Chains world layout env.chain env'.chain)
    (depth : Nat) (name : String) :
    Option.Rel (fun i j => world[i]? = some j) (s.frameAt? env depth name)
      (s'.frameAt? env' (layout.shift depth) name) := by
  have frames := chains.getElem? depth
  unfold Store.frameAt?
  generalize env.chain[depth]? = found, env'.chain[layout.shift depth]? = found' at frames
  cases frames with
  | none => exact .none
  | some known =>
    simp only [Option.filter, padded.contains known]
    split
    · exact .some known
    · exact .none

theorem get? (padded : s.Padded t world s') (chains : Chains world [] env.chain env'.chain)
    (name : String) : Option.Rel (Value.Padded t world) (s.get? env name) (s'.get? env' name) := by
  unfold Store.get?
  generalize env.chain = chain, env'.chain = chain' at chains
  cases chains with
  | global known =>
    have found := padded.bound known name
    simp only [List.findSome?_cons, List.findSome?_nil]
    generalize Bindings.find? (s.frame _) name = x, Bindings.find? (s'.frame _) name = y at found
    cases found with
    | some found => exact .some found
    | none => exact .none

theorem frameOf? (padded : s.Padded t world s') (chains : Chains world [] env.chain env'.chain)
    (name : String) : Option.Rel (fun i j => world[i]? = some j) (s.frameOf? env name)
      (s'.frameOf? env' name) := by
  unfold Store.frameOf?
  generalize env.chain = chain, env'.chain = chain' at chains
  cases chains with
  | global known =>
    simp only [List.find?_cons, List.find?_nil, padded.contains known]
    split
    · exact .some known
    · exact .none

end Access

end Store.Padded

end Lox
