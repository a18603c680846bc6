import Lox.Proofs.Store.Fits
import Lox.Proofs.Value.Related

set_option autoImplicit false

/-!
# Similar stores

The stores of two machines that run similar programs in step with each other. Both have made the
same frames, instances and identities. Each frame is marked like the scope that it stands for, and
binds names that stand for each other to similar values. The marks of the frames only grow in
number.
-/

namespace Lox

open Correspondence (markAt)

/-! ## Marked frames -/

/-- The frames of an environment are marked like the scopes around a point. -/
abbrev Marked (world : List Bool) : List FrameId → List Bool → Prop :=
  ChainMatches (fun id => world[id]? = some false) fun id mark => world[id]? = some mark

section Marks

variable {world world' : List Bool} {chain : List FrameId} {marks : List Bool}

theorem mark_later (later : world <+: world') {id : FrameId} {mark : Bool}
    (known : world[id]? = some mark) : world'[id]? = some mark := by
  obtain ⟨rest, rfl⟩ := later
  rw [List.getElem?_append_left (List.getElem?_eq_some_iff.mp known).1]
  exact known

theorem Marked.later (marked : Marked world chain marks) (later : world <+: world') :
    Marked world' chain marks :=
  marked.imp (fun _ => mark_later later) fun _ _ => mark_later later

/-- The frame at a depth is marked like the scope at that depth. -/
theorem Marked.mark_of_depth (marked : Marked world chain marks) {depth : Nat} {id : FrameId}
    (there : chain[depth]? = some id) : world[id]? = some (markAt marks (some depth)) := by
  induction marked generalizing depth with
  | global outside =>
    cases depth with
    | zero =>
      cases there
      exact outside
    | succ depth => cases there
  | frame here _ inductionHypothesis =>
    cases depth with
    | zero =>
      cases there
      exact here
    | succ depth => exact inductionHypothesis there

theorem Marked.mark_of_mem (marked : Marked world chain []) {id : FrameId} (member : id ∈ chain) :
    world[id]? = some false := by
  cases marked with
  | global outside => rwa [List.mem_singleton.mp member]

end Marks

/-! ## Similar values -/

/-- Functions that one step made, from routines that are similar where they were made: inside the
scopes of the environment, and of some more, `below`, whose frames are still to come. -/
structure Function.Similar (c : Correspondence) (below world : List Bool) (f f' : Function) :
    Prop where
  identity : f'.identity = f.identity
  closure : f'.closure = f.closure
  isInitializer : f'.isInitializer = f.isInitializer
  routine : ∃ marks, Marked world f.closure.chain marks ∧
    Stmt.RoutineSimilar c (below ++ marks) f.routine f'.routine

/-- The frame with `this` is made when a method is tied to an instance. -/
abbrev Function.SimilarAsMethod (c : Correspondence) : List Bool → Function → Function → Prop :=
  Function.Similar c [false]

abbrev Class.Similar (c : Correspondence) (world : List Bool) : Class → Class → Prop :=
  Class.Related (Function.SimilarAsMethod c world)

abbrev Instance.Similar (c : Correspondence) (world : List Bool) : Instance → Instance → Prop :=
  Instance.Related (Function.SimilarAsMethod c world)

abbrev Value.Similar (c : Correspondence) (world : List Bool) : Value → Value → Prop :=
  Value.Related (Function.Similar c [] world) (Function.SimilarAsMethod c world)

section Values

variable {c : Correspondence} {below world world' : List Bool} {f f' : Function}

theorem Function.Similar.later (similar : f.Similar c below world f') (later : world <+: world') :
    f.Similar c below world' f' := by
  obtain ⟨marks, marked, routine⟩ := similar.routine
  exact { similar with routine := ⟨marks, marked.later later, routine⟩ }

theorem Function.Similar.alike (similar : f.Similar c below world f') : f.Alike f' := by
  obtain ⟨identity, _, _, marks, _, routine⟩ := similar
  exact ⟨identity, congrArg Ident.text routine.name, routine.params_length⟩

instance : Function.Lasting (Function.Similar c below) :=
  ⟨.later, Function.Similar.alike⟩

end Values

/-! ## Similar stores -/

structure Store.Similar (c : Correspondence) (world : List Bool) (s s' : Store) : Prop where
  marked : world.length = s.frames.size
  frames : s'.frames.size = s.frames.size
  fields : s'.fields.size = s.fields.size
  identities : s'.identities = s.identities
  bound : ∀ {id mark a a'}, world[id]? = some mark → c.name mark a a' →
    Option.Rel (Value.Similar c world) ((s.frame id).find? a) ((s'.frame id).find? a')
  properties : ∀ id name,
    Option.Rel (Value.Similar c world) ((s.fieldsOf id).find? name) ((s'.fieldsOf id).find? name)

namespace Store.Similar

variable {c : Correspondence} {world : List Bool} {s s' : Store}

/-- A new frame in both stores, with the mark that goes with its bindings. -/
theorem addFrame (similar : s.Similar c world s') {mark : Bool}
    {bindings bindings' : Bindings Value}
    (values : ∀ a a', c.name mark a a' →
      Option.Rel (Value.Similar c world) (bindings.find? a) (bindings'.find? a')) :
    (s.addFrame bindings).Similar c (world ++ [mark]) (s'.addFrame bindings') := by
  have later : world <+: world ++ [mark] := List.prefix_append _ _
  refine ⟨by simp [similar.marked], by simp [similar.frames], similar.fields, similar.identities,
    ?_, fun id name => ?_⟩
  · intro id mark' a a' known name
    rw [frame_addFrame, frame_addFrame, similar.frames]
    split
    · rename_i new
      rw [new, ← similar.marked, List.getElem?_concat_length] at known
      cases known
      exact optionRel_imp (fun _ _ related => related.later later) (values a a' name)
    · rename_i old
      have inside : id < world.length := by
        have within := (List.getElem?_eq_some_iff.mp known).1
        simp only [List.length_append, List.length_singleton] at within
        exact lt_of_le_of_ne (Nat.lt_succ_iff.mp within) (similar.marked ▸ old)
      rw [List.getElem?_append_left inside] at known
      exact optionRel_imp (fun _ _ related => related.later later) (similar.bound known name)
  · exact optionRel_imp (fun _ _ related => related.later later) (similar.properties id name)

theorem bind (lawful : c.Lawful) (similar : s.Similar c world s') {id : FrameId} {mark : Bool}
    {a a' : String} {v v' : Value} (marked : world[id]? = some mark) (name : c.name mark a a')
    (value : v.Similar c world v') : (s.bind id a v).Similar c world (s'.bind id a' v') := by
  refine ⟨by simp [similar.marked], by simp [similar.frames], similar.fields, similar.identities,
    ?_, similar.properties⟩
  intro other mark' b b' marked' name'
  rw [find?_frame_bind, find?_frame_bind, similar.frames]
  by_cases same : other = id
  · subst same
    cases marked.symm.trans marked'
    simp only [lawful.name_eq_iff name' name, true_and]
    split
    · exact .some value
    · exact similar.bound marked' name'
  · simp only [same, false_and, if_false]
    exact similar.bound marked' name'

theorem addInstance (similar : s.Similar c world s') :
    s.addInstance.Similar c world s'.addInstance := by
  refine ⟨similar.marked, similar.frames, by simp [Store.addInstance, similar.fields],
    similar.identities, similar.bound, fun id name => ?_⟩
  simp only [fieldsOf, Store.addInstance, Array.getD_eq_getD_getElem?, Array.getElem?_push,
    similar.fields]
  split
  · exact .none
  · simpa [fieldsOf, Array.getD_eq_getD_getElem?] using similar.properties id name

theorem setField (similar : s.Similar c world s') {v v' : Value} (id : InstanceId) (name : String)
    (value : v.Similar c world v') :
    (s.setField id name v).Similar c world (s'.setField id name v') := by
  refine ⟨similar.marked, similar.frames, by simp [Store.setField, similar.fields],
    similar.identities, similar.bound, fun other key => ?_⟩
  rw [find?_fieldsOf_setField, find?_fieldsOf_setField, similar.fields]
  split
  · exact .some value
  · exact similar.properties other key

theorem addIdentity (similar : s.Similar c world s') :
    s.addIdentity.Similar c world s'.addIdentity :=
  ⟨similar.marked, similar.frames, similar.fields,
    congrArg (· + 1) similar.identities, similar.bound, similar.properties⟩

/-! Access to variables that stand for each other finds similar values in the same frames. -/

variable {env : Env} {marks : List Bool} {a a' : String}

theorem getAt? (similar : s.Similar c world s') (marked : Marked world env.chain marks)
    {distance : Nat} (name : c.name (markAt marks (some distance)) a a') :
    Option.Rel (Value.Similar c world) (s.getAt? env distance a) (s'.getAt? env distance a') := by
  unfold Store.getAt?
  cases there : env.chain[distance]? with
  | none => exact .none
  | some id => exact similar.bound (marked.mark_of_depth there) name

theorem contains (similar : s.Similar c world s') {id : FrameId} {mark : Bool}
    (known : world[id]? = some mark) (name : c.name mark a a') :
    (s'.frame id).contains a' = (s.frame id).contains a :=
  isSome_eq_of_optionRel (similar.bound known name)

theorem frameAt? (similar : s.Similar c world s') (marked : Marked world env.chain marks)
    {distance : Nat} (name : c.name (markAt marks (some distance)) a a') :
    s'.frameAt? env distance a' = s.frameAt? env distance a := by
  unfold Store.frameAt?
  cases there : env.chain[distance]? with
  | none => rfl
  | some id => simp only [Option.filter, similar.contains (marked.mark_of_depth there) name]

theorem get? (similar : s.Similar c world s') (marked : Marked world env.chain [])
    (name : c.name false a a') :
    Option.Rel (Value.Similar c world) (s.get? env a) (s'.get? env a') := by
  unfold Store.get?
  generalize env.chain = chain at marked
  cases marked with
  | global outside =>
    have found := similar.bound outside name
    simp only [List.findSome?_cons, List.findSome?_nil]
    generalize Bindings.find? _ a = x, Bindings.find? _ a' = y at found
    cases found with
    | some found => exact .some found
    | none => exact .none

theorem frameOf? (similar : s.Similar c world s') (marked : Marked world env.chain [])
    (name : c.name false a a') : s'.frameOf? env a' = s.frameOf? env a := by
  unfold Store.frameOf?
  generalize env.chain = chain at marked
  cases marked with
  | global outside => simp only [List.find?_cons, List.find?_nil, similar.contains outside name]

end Store.Similar

end Lox
