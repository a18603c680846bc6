import Lox.Proofs.Store.Origins

set_option autoImplicit false

/-!
# Links between frames

A frame is made inside another one, and stays there. A table of links lists the frame around each
frame but the first, in the order in which they were made. From an environment that follows such a
table, the links lead through its frames to the first frame, which is the global one. A value is
linked if all environments in it follow the table, and every class in it was made behind its
superclass. A search that goes from frame to frame along the links, or from class to superclass,
comes to an end.
-/

namespace Lox

/-- The frames around all frames but the first, in the order in which these were made. -/
abbrev Links := List FrameId

namespace Links

/-- The frame around a frame. There is none around the first one. -/
def around? (links : Links) : FrameId → Option FrameId
  | 0 => none
  | id + 1 => links[id]?

/-- Every frame was made inside one that was there already. -/
def Earlier (links : Links) : Prop :=
  ∀ id outer, links.around? id = some outer → outer < id

/-- The links lead from a frame through some frames to the first one. -/
inductive Leads (links : Links) : FrameId → List FrameId → Prop where
  | first : Leads links 0 []
  | outwards {id outer : FrameId} {rest : List FrameId} :
    links.around? id = some outer → Leads links outer rest → Leads links id (outer :: rest)

/-- The frame that is reached by following a number of links. -/
def climb (links : Links) : Nat → FrameId → Option FrameId
  | 0, id => some id
  | distance + 1, id => (links.around? id).bind (climb links distance)

variable {links links' : Links} {id outer : FrameId} {frames : List FrameId}

theorem around?_mono (front : links <+: links') (found : links.around? id = some outer) :
    links'.around? id = some outer := by
  obtain ⟨added, rfl⟩ := front
  cases id with
  | zero => cases found
  | succ id =>
    have small : id < links.length := (List.getElem?_eq_some_iff.mp found).1
    exact (List.getElem?_append_left small).trans found

/-- A link that is added is that of the next frame. -/
theorem around?_concat (links : Links) (outer : FrameId) :
    Links.around? (links ++ [outer]) (links.length + 1) = some outer :=
  List.getElem?_concat_length

theorem Earlier.append (earlier : links.Earlier) (there : outer ≤ links.length) :
    Earlier (links ++ [outer]) := by
  intro id around found
  cases id with
  | zero => cases found
  | succ id =>
    rw [around?, List.getElem?_append] at found
    split at found
    · exact earlier (id + 1) around found
    · have isLast : id - links.length = 0 :=
        Nat.lt_one_iff.mp (List.getElem?_eq_some_iff.mp found).1
      rw [isLast] at found
      obtain rfl : outer = around := Option.some.inj found
      have beyond : links.length ≤ id := not_lt.mp ‹_›
      exact Nat.lt_succ_of_le (there.trans beyond)

namespace Leads

theorem mono (leads : links.Leads id frames) (front : links <+: links') :
    links'.Leads id frames := by
  induction leads with
  | first => exact .first
  | outwards found _ inductionHypothesis =>
    exact .outwards (around?_mono front found) inductionHypothesis

theorem around?_eq (leads : links.Leads id (outer :: frames)) : links.around? id = some outer := by
  cases leads with
  | outwards found _ => exact found

/-- Frames that lead to the first one are in the table. -/
theorem le_length (leads : links.Leads id frames) : id ≤ links.length := by
  cases leads with
  | first => exact Nat.zero_le _
  | @outwards id outer rest found _ =>
    cases id with
    | zero => cases found
    | succ id => exact (List.getElem?_eq_some_iff.mp found).1

/-- Each frame on the way was made before the one inside of it, and the last one is the first of
all. -/
theorem descends (leads : links.Leads id frames) (earlier : links.Earlier) :
    (id :: frames).IsChain (· > ·) ∧ (id :: frames).getLast? = some 0 := by
  induction leads with
  | first => exact ⟨.singleton 0, rfl⟩
  | outwards found _ inductionHypothesis =>
    obtain ⟨chain, last⟩ := inductionHypothesis
    refine ⟨.cons_cons (earlier _ _ found) chain, ?_⟩
    rw [List.getLast?_cons_cons]
    exact last

end Leads

end Links

/-! ## Values -/

/-- What has been made so far: the frames, by their links, and a number of functions and classes. -/
structure Extent where
  links : Links
  identities : Identity

instance : Preorder Extent where
  le e e' := e.links <+: e'.links ∧ e.identities ≤ e'.identities
  le_refl e := ⟨List.prefix_rfl, le_rfl⟩
  le_trans _ _ _ first second := ⟨first.1.trans second.1, first.2.trans second.2⟩

/-- The frames of the environment are those that the links lead through. -/
def Env.Follows (links : Links) (env : Env) : Prop :=
  links.Leads env.frame env.enclosing

structure Class.MadeIn (e : Extent) (c : Class) : Prop where
  made : c.own.identity < e.identities
  superclass : ∀ parent ∈ c.superclass?, parent.own.identity < c.own.identity
  methods : ∀ name method, c.own.methods.find? name = some method → method.closure.Follows e.links

def Class.Linked (e : Extent) (c : Class) : Prop :=
  ∀ home, c.DerivesFrom home → home.MadeIn e

/-- Every environment in the value follows the links, and every class in it was made behind its
superclass. -/
def Value.Linked (e : Extent) : Value → Prop
  | .function f => f.closure.Follows e.links
  | .class cls => cls.Linked e
  | .instance object => object.cls.Linked e
  | _ => True

section Growth

variable {e e' : Extent}

theorem Env.Follows.mono {links links' : Links} {env : Env} (follows : env.Follows links)
    (front : links <+: links') : env.Follows links' :=
  Links.Leads.mono follows front

theorem Class.Linked.mono {c : Class} (linked : c.Linked e) (grows : e ≤ e') : c.Linked e' := by
  intro home derives
  obtain ⟨made, superclass, methods⟩ := linked home derives
  exact ⟨made.trans_le grows.2, superclass,
    fun name method found => (methods name method found).mono grows.1⟩

theorem Value.Linked.mono {value : Value} (linked : value.Linked e) (grows : e ≤ e') :
    value.Linked e' := by
  cases value with
  | nil | bool | number | string | native => trivial
  | function f => exact Env.Follows.mono linked grows.1
  | «class» cls => exact Class.Linked.mono linked grows
  | «instance» object => exact Class.Linked.mono linked grows

end Growth

theorem Class.Linked.findMethod? {e : Extent} {c : Class} (linked : c.Linked e) {name : String}
    {method : Function} (found : c.findMethod? name = some method) :
    method.closure.Follows e.links := by
  obtain ⟨home, finds⟩ := Class.findMethod?_eq_some_iff.mp found
  exact (linked home finds.derives).methods name method finds.found

/-- The class that is made next is linked if its superclass and its methods are. -/
theorem Class.Linked.extend {links : Links} {c : Class}
    (above : ∀ parent ∈ c.superclass?, parent.Linked ⟨links, c.own.identity⟩)
    (methods : ∀ name method, c.own.methods.find? name = some method →
      method.closure.Follows links) :
    c.Linked ⟨links, c.own.identity + 1⟩ := by
  intro home derives
  cases derives with
  | self =>
    refine ⟨Nat.lt_succ_self _, fun parent found => ?_, methods⟩
    exact (above parent found parent (.self parent)).made
  | above found derives =>
    have grows : (⟨links, c.own.identity⟩ : Extent) ≤ ⟨links, c.own.identity + 1⟩ :=
      ⟨List.prefix_rfl, Nat.le_succ _⟩
    exact (above _ found).mono grows home derives

/-! ## Searches -/

/-- A search goes from one thing to the next until something is found or there is no next one. -/
inductive Searches {α β : Type} (next : α → Option α) (look : α → Option β) :
    α → Option β → Prop where
  | found {a : α} {b : β} : look a = some b → Searches next look a (some b)
  | last {a : α} : look a = none → next a = none → Searches next look a none
  | onwards {a a' : α} {result : Option β} :
    look a = none → next a = some a' → Searches next look a' result → Searches next look a result

/-- A search that looks at the first of a list, and goes on as one through the others. -/
theorem Searches.cons {α β γ : Type} {next : α → Option α} {look : α → Option β} {a : α}
    {f : γ → Option β} {first : γ} {others : List γ} (same : look a = f first)
    (missed : look a = none → Searches next look a (others.findSome? f)) :
    Searches next look a ((first :: others).findSome? f) := by
  rw [List.findSome?_cons]
  cases here : f first with
  | none => exact missed (same.trans here)
  | some b => exact .found (same.trans here)

/-- A search along the links looks at the frames of an environment in their order. -/
theorem Links.Leads.searches {β : Type} {links : Links} {id : FrameId} {frames : List FrameId}
    (leads : links.Leads id frames) (look : FrameId → Option β) :
    Searches links.around? look id ((id :: frames).findSome? look) := by
  induction leads with
  | first => exact .cons rfl fun missing => .last missing rfl
  | outwards found _ inductionHypothesis =>
    exact .cons rfl fun missing => .onwards missing found inductionHypothesis

/-- Following the links counts through the frames of an environment. -/
theorem Links.Leads.climb_eq {links : Links} {id : FrameId} {frames : List FrameId}
    (leads : links.Leads id frames) (distance : Nat) :
    links.climb distance id = (id :: frames)[distance]? := by
  induction leads generalizing distance with
  | first => cases distance <;> rfl
  | outwards found _ inductionHypothesis =>
    cases distance with
    | zero => rfl
    | succ distance =>
      rw [climb, found]
      exact inductionHypothesis distance

/-- Looking for a method searches a class and its superclasses. -/
theorem Class.searches (c : Class) (name : String) :
    Searches Class.superclass? (fun c => c.own.methods.find? name) c (c.findMethod? name) := by
  obtain ⟨own, inherited⟩ := c
  induction inherited generalizing own with
  | nil => exact .cons rfl fun missing => .last missing rfl
  | cons above rest inductionHypothesis =>
    exact .cons rfl fun missing => .onwards missing rfl (inductionHypothesis above)

/-- From an environment, the links lead outwards to the global frame, each to a frame that was made
earlier. Reading a variable, writing one, and counting out to an ancestor follow these links, and
come to an end. -/
structure Env.Grounded (links : Links) (env : Env) : Prop where
  descends : env.chain.IsChain (· > ·)
  global : env.chain.getLast? = some 0
  get : ∀ (s : Store) (name : String),
    Searches links.around? (fun id => (s.frame id).find? name) env.frame (s.get? env name)
  assign : ∀ (s : Store) (name : String),
    Searches links.around? (Option.guard fun id => (s.frame id).contains name) env.frame
    (s.frameOf? env name)
  ancestor : ∀ distance, (env.ancestor? distance).map Env.frame = links.climb distance env.frame

theorem Env.map_frame_ancestor? (env : Env) (distance : Nat) :
    (env.ancestor? distance).map Env.frame = env.chain[distance]? := by
  rw [← List.head?_drop, ancestor?]
  cases env.chain.drop distance <;> rfl

theorem Env.Follows.grounded {links : Links} {env : Env} (follows : env.Follows links)
    (earlier : links.Earlier) : env.Grounded links where
  descends := (follows.descends earlier).1
  global := (follows.descends earlier).2
  get s name := follows.searches _
  assign s name := by
    rw [Store.frameOf?, List.find?_eq_findSome?_guard]
    exact follows.searches _
  ancestor distance := (env.map_frame_ancestor? distance).trans (follows.climb_eq distance).symm

end Lox
