import Lox.Proofs.Store.Links

set_option autoImplicit false

/-!
# Access by search and by distance

Frames are made one by one, each with nothing around it or inside one that is there, so that many
frames may share what is around them. A variable is read and written by search, from a frame
outwards along the links, or at a distance, in the one frame that so many links lead to. A search
stops at the nearest frame that binds the name, and does there what an access at that distance does.
An access at a distance that does not find the name changes nothing, whichever other frames bind it.
-/

namespace Lox

/-! ## Frames that are made one by one -/

inductive Access where
  | global
  | enclosed (outer : FrameId)
  | define (id : FrameId) (name : String) (value : Value)
  | assign (id : FrameId) (name : String) (value : Value) (span : Span)
  | assignAt (id : FrameId) (distance : Nat) (name : String) (value : Value) (span : Span)

/-- A store, with the environment that begins at each frame, in the order in which the frames were
made. -/
structure Forest where
  store : Store := {}
  envs : List Env := []

namespace Forest

def around? (w : Forest) (id : FrameId) : Option FrameId :=
  w.envs[id]?.bind fun env => env.enclosing.head?

def settle (w : Forest) : Except RuntimeError Store → Forest
  | .ok store => { w with store := store }
  | .error _ => w

def add (w : Forest) (made : Env × Store) : Forest :=
  ⟨made.2, w.envs ++ [made.1]⟩

/-- An access from the environment of a frame. Without the frame nothing happens. -/
def visit (w : Forest) (id : FrameId) (access : Env → Forest) : Forest :=
  (w.envs[id]?.map access).getD w

def step (w : Forest) : Access → Forest
  | .global => w.add w.store.newGlobal
  | .enclosed outer => w.visit outer fun env => w.add (w.store.enclose env ∅)
  | .define id name value => w.visit id fun env => w.settle (.ok (w.store.define env name value))
  | .assign id name value span =>
    w.visit id fun env => w.settle (w.store.assign env name value span)
  | .assignAt id distance name value span =>
    w.visit id fun env => w.settle (w.store.assignAt env distance name value span)

def build (steps : List Access) : Forest :=
  steps.foldl step {}

/-- One frame lies a number of links out from another one. -/
inductive Outwards (w : Forest) : Nat → FrameId → FrameId → Prop where
  | here {id : FrameId} : Outwards w 0 id id
  | further {distance : Nat} {id outer far : FrameId} :
    w.around? id = some outer → Outwards w distance outer far → Outwards w (distance + 1) id far

structure Nearest (w : Forest) (id : FrameId) (name : String) (distance : Nat) (far : FrameId) :
    Prop where
  out : w.Outwards distance id far
  binds : (w.store.frame far).contains name = true
  first : ∀ nearer < distance, ∀ near, w.Outwards nearer id near →
    (w.store.frame near).contains name = false

/-! ## Environments follow the links -/

/-- Each environment begins at the frame with its number, and goes on with that of an earlier frame,
if any. -/
structure Rooted (w : Forest) : Prop where
  size : w.store.frames.size = w.envs.length
  frame : ∀ (id : FrameId) (env : Env), w.envs[id]? = some env → env.frame = id
  around : ∀ (id : FrameId) (env : Env), w.envs[id]? = some env → ∀ outer ∈ env.enclosing.head?,
    ∃ next, w.envs[outer]? = some next ∧ env.enclosing = next.chain

namespace Rooted

variable {w : Forest}

theorem settle (rooted : w.Rooted) {result : Except RuntimeError Store}
    (size : ∀ store, result = .ok store → store.frames.size = w.store.frames.size) :
    (w.settle result).Rooted := by
  cases result with
  | ok store => exact ⟨(size store rfl).trans rooted.size, rooted.frame, rooted.around⟩
  | error e => exact rooted

/-- The next frame, with nothing around it or with an environment that is there. -/
theorem add (rooted : w.Rooted) {enclosing : List FrameId} (bindings : Bindings Value)
    (around : ∀ outer ∈ enclosing.head?, ∃ next, w.envs[outer]? = some next ∧
      enclosing = next.chain) :
    (w.add (⟨w.store.frames.size, enclosing⟩, w.store.addFrame bindings)).Rooted := by
  have oldOrNew {id : FrameId} {env : Env}
      (found : (w.envs ++ [⟨w.store.frames.size, enclosing⟩])[id]? = some env) :
      w.envs[id]? = some env ∨ id = w.envs.length ∧ env = ⟨w.store.frames.size, enclosing⟩ := by
    grind
  have kept {id : FrameId} {env : Env} (found : w.envs[id]? = some env) :
      (w.envs ++ [⟨w.store.frames.size, enclosing⟩])[id]? = some env := by
    rw [List.getElem?_append_left (List.getElem?_eq_some_iff.mp found).1]
    exact found
  refine ⟨by simp [Forest.add, rooted.size], fun id env found => ?_,
    fun id env found outer head => ?_⟩
  · rcases oldOrNew found with old | ⟨rfl, rfl⟩
    · exact rooted.frame id env old
    · exact rooted.size
  · have there : ∃ next, w.envs[outer]? = some next ∧ env.enclosing = next.chain := by
      rcases oldOrNew found with old | ⟨rfl, rfl⟩
      · exact rooted.around id env old outer head
      · exact around outer head
    obtain ⟨next, old, same⟩ := there
    exact ⟨next, kept old, same⟩

theorem visit (rooted : w.Rooted) (id : FrameId) {access : Env → Forest}
    (there : ∀ env, w.envs[id]? = some env → (access env).Rooted) : (w.visit id access).Rooted := by
  unfold Forest.visit
  cases found : w.envs[id]? with
  | none => exact rooted
  | some env => exact there env found

theorem step (rooted : w.Rooted) (access : Access) : (w.step access).Rooted := by
  have written (target : Except RuntimeError FrameId) (name : String) (value : Value) :
      (w.settle (target.map fun id => w.store.bind id name value)).Rooted := by
    refine rooted.settle fun store result => ?_
    cases target with
    | error e => cases result
    | ok id =>
      cases result
      exact Store.size_bind ..
  cases access with
  | global => exact rooted.add ∅ nofun
  | enclosed outer =>
    refine rooted.visit outer fun env found => rooted.add ∅ ?_
    rintro _ ⟨⟩
    refine ⟨env, ?_, rfl⟩
    rw [rooted.frame outer env found]
    exact found
  | define id name value => exact rooted.visit id fun env _ => written (.ok env.frame) name value
  | assign id name value span | assignAt id distance name value span =>
    exact rooted.visit id fun env _ => written _ name value

end Rooted

theorem rooted_build (steps : List Access) : (build steps).Rooted := by
  suffices general : ∀ w : Forest, w.Rooted → (steps.foldl step w).Rooted from
    general {} ⟨rfl, nofun, nofun⟩
  induction steps with
  | nil => exact fun _ rooted => rooted
  | cons access rest inductionHypothesis =>
    exact fun w rooted => inductionHypothesis _ (rooted.step access)

/-- The frames of an environment are those that the links lead to, in their order. -/
theorem Rooted.outwards_iff {w : Forest} (rooted : w.Rooted) {id : FrameId} {env : Env}
    (found : w.envs[id]? = some env) {distance : Nat} {far : FrameId} :
    w.Outwards distance id far ↔ env.chain[distance]? = some far := by
  induction distance generalizing id env with
  | zero =>
    have own : env.chain[0]? = some id := congrArg some (rooted.frame id env found)
    rw [own, Option.some.injEq]
    constructor
    · rintro ⟨⟩
      rfl
    · rintro rfl
      exact .here
  | succ distance inductionHypothesis =>
    have around : w.around? id = env.enclosing.head? := by rw [around?, found, Option.bind_some]
    have chain : env.chain[distance + 1]? = env.enclosing[distance]? := rfl
    rw [chain]
    cases enclosing : env.enclosing.head? with
    | none =>
      rw [List.head?_eq_none_iff.mp enclosing]
      refine ⟨fun out => ?_, nofun⟩
      cases out with
      | further outer _ => cases (around.trans enclosing).symm.trans outer
    | some outer =>
      obtain ⟨next, there, same⟩ := rooted.around id env found outer enclosing
      rw [same, ← inductionHypothesis there]
      refine ⟨fun out => ?_, .further (around.trans enclosing)⟩
      cases out with
      | further link rest =>
        cases (around.trans enclosing).symm.trans link
        exact rest

end Forest

/-! ## The frame that an access is about -/

namespace Store

variable {s s' : Store} {env : Env} {name : String} {distance : Nat} {far : FrameId}

/-- What a search finds is what the frame that it stops at binds. -/
theorem get?_eq_bind (s : Store) (env : Env) (name : String) :
    s.get? env name = (s.frameOf? env name).bind fun id => (s.frame id).find? name := by
  unfold get? frameOf?
  induction env.chain with
  | nil => rfl
  | cons id rest inductionHypothesis =>
    rw [List.findSome?_cons, List.find?_cons, inductionHypothesis, Bindings.contains]
    cases found : (s.frame id).find? name with
    | none => rfl
    | some value => exact found.symm

theorem frameOf?_eq_some (there : env.chain[distance]? = some far)
    (binds : (s.frame far).contains name = true)
    (first : ∀ nearer < distance, ∀ near, env.chain[nearer]? = some near →
      (s.frame near).contains name = false) : s.frameOf? env name = some far := by
  obtain ⟨within, here⟩ := List.getElem?_eq_some_iff.mp there
  rw [frameOf?, List.find?_eq_some_iff_getElem]
  refine ⟨binds, distance, within, here, fun nearer before => ?_⟩
  have missing := first nearer before _ (List.getElem?_eq_getElem (before.trans within))
  simp [missing]

theorem getAt?_eq_none_iff :
    s.getAt? env distance name = none ↔ s.frameAt? env distance name = none := by
  simp [Store.getAt?, frameAt?, Bindings.contains]

theorem frameAt?_of_binds (there : env.chain[distance]? = some far)
    (binds : (s.frame far).contains name = true) : s.frameAt? env distance name = some far := by
  rw [frameAt?, there, Option.filter_some, if_pos binds]

theorem getAt?_of_there (there : env.chain[distance]? = some far) :
    s.getAt? env distance name = (s.frame far).find? name := by
  rw [getAt?, there, Option.bind_some]

structure Overwrites (s : Store) (id : FrameId) (name : String) (value : Value) (s' : Store) :
    Prop where
  there : (s'.frame id).find? name = some value
  elsewhere : ∀ other key, other ≠ id ∨ key ≠ name →
    (s'.frame other).find? key = (s.frame other).find? key
  frames : s'.frames.size = s.frames.size
  fields : s'.fields = s.fields
  identities : s'.identities = s.identities

theorem overwrites_bind (binds : (s.frame far).contains name = true) (value : Value) :
    s.Overwrites far name value (s.bind far name value) where
  there := by
    have allocated : far < s.frames.size := by
      by_contra outside
      rw [frame_eq_empty (not_lt.mp outside)] at binds
      cases binds
    rw [find?_frame_bind, if_pos ⟨rfl, rfl, allocated⟩]
  elsewhere other key different := by
    rw [find?_frame_bind, if_neg]
    rintro ⟨rfl, rfl, _⟩
    rcases different with different | different <;> exact different rfl
  frames := size_bind ..
  fields := rfl
  identities := rfl

end Store

theorem orFault_eq_ok_iff {α : Type} {found : Option α} {fault : RuntimeError} {a : α} :
    orFault found fault = .ok a ↔ found = some a := by
  cases found <;> simp [orFault]

theorem orFault_eq_error_iff {α : Type} {found : Option α} {fault : RuntimeError} :
    orFault found fault = .error fault ↔ found = none := by
  cases found <;> simp [orFault]

namespace Forest

variable {w : Forest} {id : FrameId} {env : Env} {name : String} {span : Span} {distance : Nat}
  {far : FrameId}

theorem visit_of_found (found : w.envs[id]? = some env) (access : Env → Forest) :
    w.visit id access = access env := by
  rw [visit, found]
  rfl

theorem step_assign (found : w.envs[id]? = some env) (value : Value) :
    w.step (.assign id name value span) = w.settle (w.store.assign env name value span) :=
  visit_of_found found _

theorem step_assignAt (found : w.envs[id]? = some env) (value : Value) :
    w.step (.assignAt id distance name value span) =
      w.settle (w.store.assignAt env distance name value span) :=
  visit_of_found found _

def BindsAt (w : Forest) (id : FrameId) (distance : Nat) (name : String) : Prop :=
  ∃ far, w.Outwards distance id far ∧ (w.store.frame far).contains name = true

/-- Some frame out from this one binds the name. -/
def Binds (w : Forest) (id : FrameId) (name : String) : Prop :=
  ∃ distance, w.BindsAt id distance name

/-- The least distance at which a frame binds the name. -/
theorem Binds.exists_nearest (binds : w.Binds id name) :
    ∃ distance far, w.Nearest id name distance far := by
  classical
  obtain ⟨far, out, here⟩ := Nat.find_spec binds
  refine ⟨Nat.find binds, far, out, here, fun nearer before near between => ?_⟩
  by_contra bound
  exact Nat.find_min binds before ⟨near, between, Bool.not_eq_false _ ▸ bound⟩

structure SearchAgrees (w : Forest) (id : FrameId) (env : Env) (name : String) (span : Span) :
    Prop where
  found : (∃ value, w.store.get env name span = .ok value) ↔ w.Binds id name
  nearest : w.Binds id name → ∃ distance far, w.Nearest id name distance far
  get : ∀ distance far, w.Nearest id name distance far →
    w.store.get env name span = w.store.getAt env distance name span
  assign : ∀ distance far, w.Nearest id name distance far → ∀ value, ∃ after,
    w.store.assign env name value span = .ok after ∧
    w.store.assignAt env distance name value span = .ok after ∧
    after.getAt env distance name span = .ok value ∧ w.store.Overwrites far name value after ∧
    w.step (.assign id name value span) = w.step (.assignAt id distance name value span) ∧
    (w.step (.assign id name value span)).around? = w.around?
  missing : ¬w.Binds id name →
    w.store.get env name span = .error (undefinedVariable name span) ∧
    ∀ value, w.store.assign env name value span = .error (undefinedVariable name span) ∧
      w.step (.assign id name value span) = w

structure AccessExact (w : Forest) (id : FrameId) (env : Env) (distance : Nat) (name : String)
    (span : Span) : Prop where
  get : ∀ far, w.Outwards distance id far → ∀ value,
    w.store.getAt env distance name span = .ok value ↔ (w.store.frame far).find? name = some value
  assign : ∀ far, w.Outwards distance id far → (w.store.frame far).contains name = true → ∀ value,
    ∃ after, w.store.assignAt env distance name value span = .ok after ∧
      w.store.Overwrites far name value after
  getFails : w.store.getAt env distance name span = .error (scopeMismatch name distance span) ↔
    ¬w.BindsAt id distance name
  assignFails : ∀ value,
    w.store.assignAt env distance name value span = .error (scopeMismatch name distance span) ↔
      ¬w.BindsAt id distance name
  unchanged : ¬w.BindsAt id distance name →
    ∀ value, w.step (.assignAt id distance name value span) = w
  only : ∀ other : Store, (∀ far, w.Outwards distance id far →
      (other.frame far).find? name = (w.store.frame far).find? name) →
    other.getAt env distance name span = w.store.getAt env distance name span ∧
    other.targetAt env distance name span = w.store.targetAt env distance name span

namespace Rooted

variable (rooted : w.Rooted) (found : w.envs[id]? = some env)
include rooted found

theorem frameOf?_eq_none_iff : w.store.frameOf? env name = none ↔ ¬w.Binds id name := by
  rw [Store.frameOf?, List.find?_eq_none]
  constructor
  · rintro nowhere ⟨distance, far, out, binds⟩
    exact nowhere far (List.mem_of_getElem? ((rooted.outwards_iff found).mp out)) binds
  · intro unbound far member binds
    obtain ⟨distance, there⟩ := List.mem_iff_getElem?.mp member
    exact unbound ⟨distance, far, (rooted.outwards_iff found).mpr there, binds⟩

theorem frameAt?_eq_none_iff :
    w.store.frameAt? env distance name = none ↔ ¬w.BindsAt id distance name := by
  rw [Store.frameAt?, Option.filter_eq_none_iff]
  constructor
  · rintro nowhere ⟨far, out, binds⟩
    exact nowhere far ((rooted.outwards_iff found).mp out) binds
  · intro unbound far there binds
    exact unbound ⟨far, (rooted.outwards_iff found).mpr there, binds⟩

theorem frameOf?_of_nearest (nearest : w.Nearest id name distance far) :
    w.store.frameOf? env name = some far :=
  Store.frameOf?_eq_some ((rooted.outwards_iff found).mp nearest.out) nearest.binds
    fun nearer before near there => nearest.first nearer before near
    ((rooted.outwards_iff found).mpr there)

theorem searchAgrees (name : String) (span : Span) : w.SearchAgrees id env name span where
  found := by
    have ok (value : Value) : w.store.get env name span = .ok value ↔
        w.store.get? env name = some value :=
      orFault_eq_ok_iff
    simp only [ok, ← Option.isSome_iff_exists, Option.isSome_iff_ne_none, ne_eq,
      Store.get?_eq_none_iff, rooted.frameOf?_eq_none_iff found, not_not]
  nearest := Binds.exists_nearest
  get distance far nearest := by
    have there := (rooted.outwards_iff found).mp nearest.out
    obtain ⟨value, bound⟩ := Option.isSome_iff_exists.mp nearest.binds
    rw [Store.get, Store.get?_eq_bind, rooted.frameOf?_of_nearest found nearest, Store.getAt,
      Store.getAt?_of_there there, Option.bind_some, bound]
    rfl
  assign distance far nearest value := by
    have there := (rooted.outwards_iff found).mp nearest.out
    have searched : w.store.assign env name value span = .ok (w.store.bind far name value) := by
      rw [Store.assign, Store.target, rooted.frameOf?_of_nearest found nearest]
      rfl
    have counted : w.store.assignAt env distance name value span =
        .ok (w.store.bind far name value) := by
      rw [Store.assignAt, Store.targetAt, Store.frameAt?_of_binds there nearest.binds]
      rfl
    have overwrites := Store.overwrites_bind nearest.binds value
    have read : (w.store.bind far name value).getAt env distance name span = .ok value := by
      rw [Store.getAt, Store.getAt?_of_there there, overwrites.there]
      rfl
    refine ⟨_, searched, counted, read, overwrites, ?_⟩
    rw [step_assign found, step_assignAt found, searched, counted]
    exact ⟨rfl, rfl⟩
  missing unbound := by
    have nowhere := (rooted.frameOf?_eq_none_iff found).mpr unbound
    refine ⟨orFault_eq_error_iff.mpr (Store.get?_eq_none_iff.mpr nowhere), fun value => ?_⟩
    have failed : w.store.assign env name value span = .error (undefinedVariable name span) := by
      rw [Store.assign, Store.target, nowhere]
      rfl
    refine ⟨failed, ?_⟩
    rw [step_assign found, failed]
    rfl

theorem accessExact (distance : Nat) (name : String) (span : Span) :
    w.AccessExact id env distance name span := by
  have failed (unbound : ¬w.BindsAt id distance name) (value : Value) :
      w.store.assignAt env distance name value span =
      .error (scopeMismatch name distance span) := by
    rw [Store.assignAt, Store.targetAt, (rooted.frameAt?_eq_none_iff found).mpr unbound]
    rfl
  have written {far : FrameId} (out : w.Outwards distance id far)
      (binds : (w.store.frame far).contains name = true) (value : Value) :
      w.store.assignAt env distance name value span = .ok (w.store.bind far name value) := by
    rw [Store.assignAt, Store.targetAt,
      Store.frameAt?_of_binds ((rooted.outwards_iff found).mp out) binds]
    rfl
  constructor
  case get =>
    intro far out value
    rw [Store.getAt, Store.getAt?_of_there ((rooted.outwards_iff found).mp out), orFault_eq_ok_iff]
  case assign =>
    exact fun far out binds value => ⟨_, written out binds value, Store.overwrites_bind binds value⟩
  case getFails =>
    rw [Store.getAt, orFault_eq_error_iff, Store.getAt?_eq_none_iff,
      rooted.frameAt?_eq_none_iff found]
  case assignFails =>
    intro value
    refine ⟨?_, fun unbound => failed unbound value⟩
    rintro error ⟨far, out, binds⟩
    cases error.symm.trans (written out binds value)
  case unchanged =>
    intro unbound value
    rw [step_assignAt found, failed unbound value]
    rfl
  case only =>
    intro other same
    unfold Store.getAt Store.targetAt Store.getAt? Store.frameAt? Bindings.contains
    cases there : env.chain[distance]? with
    | none => exact ⟨rfl, rfl⟩
    | some far =>
      have alike := same far ((rooted.outwards_iff found).mpr there)
      rw [Option.bind_some, Option.bind_some, Option.filter_some, Option.filter_some, alike]
      exact ⟨rfl, rfl⟩

end Rooted

/-- Take any frames that are made and written to step by step, one of them, and a name. A search
from the frame finds the name exactly if some frame out from it binds the name. Then reading by
search is reading at the least distance with such a frame, and writing by search is writing at that
distance: the name has the new value there, and all other bindings and all links are as before. An
access at a distance is about the frame there and no other one. It fails, and changes nothing,
exactly if there is no frame at the distance or the one there does not bind the name. -/
theorem search_agrees_with_distance (steps : List Access) (id : FrameId) (env : Env)
    (made : (build steps).envs[id]? = some env) (name : String) (span : Span) :
    (build steps).SearchAgrees id env name span ∧
    ∀ distance, (build steps).AccessExact id env distance name span :=
  have rooted := rooted_build steps
  ⟨rooted.searchAgrees made name span, fun distance => rooted.accessExact made distance name span⟩

/-- Two frames inside one that is inside the global one. The name is bound in the middle and
outside; it is found in the middle, missed next to it, and what is written from one inner frame is
read from the other. -/
theorem search_agrees_with_distance_shared_frame :
    let span : Span := ⟨0, 1, 1, 0⟩
    let steps := [.global, .enclosed 0, .enclosed 1, .enclosed 1, .define 0 "a" .nil,
      .define 1 "a" (.bool true)]
    let w := build steps
    w.Nearest 2 "a" 1 1 ∧
    w.store.get ⟨2, [1, 0]⟩ "a" span = w.store.getAt ⟨2, [1, 0]⟩ 1 "a" span ∧
    w.store.getAt ⟨2, [1, 0]⟩ 0 "a" span = .error (scopeMismatch "a" 0 span) ∧
    w.store.getAt ⟨2, [1, 0]⟩ 3 "a" span = .error (scopeMismatch "a" 3 span) ∧
    ∃ after, w.store.assign ⟨2, [1, 0]⟩ "a" (.bool false) span = .ok after ∧
      after.get ⟨3, [1, 0]⟩ "a" span = .ok (.bool false) ∧
      after.getAt ⟨2, [1, 0]⟩ 2 "a" span = .ok .nil := by
  intro span steps w
  have made : w.envs[2]? = some ⟨2, [1, 0]⟩ := rfl
  obtain ⟨search, access⟩ := search_agrees_with_distance steps 2 _ made "a" span
  have out {distance : Nat} {far : FrameId} : w.Outwards distance 2 far ↔
      [2, 1, 0][distance]? = some far :=
    (rooted_build steps).outwards_iff made
  have nearest : w.Nearest 2 "a" 1 1 := by
    refine ⟨out.mpr rfl, rfl, fun nearer before near there => ?_⟩
    obtain rfl := Nat.lt_one_iff.mp before
    cases out.mp there
    rfl
  have notHere : ¬w.BindsAt 2 0 "a" := by
    rintro ⟨far, there, binds⟩
    cases out.mp there
    cases binds
  have notBeyond : ¬w.BindsAt 2 3 "a" := by
    rintro ⟨far, there, _⟩
    cases out.mp there
  obtain ⟨after, written, _⟩ := search.assign 1 1 nearest (.bool false)
  refine ⟨nearest, search.get 1 1 nearest, (access 0).getFails.mpr notHere,
    (access 3).getFails.mpr notBeyond, after, written, ?_⟩
  cases written
  exact ⟨rfl, rfl⟩

end Forest

end Lox
