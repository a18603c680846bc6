import Lox.Proofs.Evaluation.Origins
import Lox.Proofs.Evaluation.Places

set_option autoImplicit false

/-!
# Methods of an instance

A method that is found in a class is tied to an instance: it is made into a function whose
environment begins with a frame for `this`, around which lies the frame for `super` of the class
that has the method. Wherever `this` stands in the body of that function, it is the instance, and
`super` leads to the superclass of the class that has the method, whatever the class of the instance
is.
-/

namespace Lox

open Scope (Names Rules Resolution locate? thisScope)

/-! ## Methods that are tied to an instance -/

structure Function.TiedTo (rules : Rules) (store : Store) (home : Class) (object : Instance)
    (f : Function) : Prop where
  obeys : ∃ scopes, Stmt.RoutineObeys rules (thisScope :: scopes) f.routine
  this : (store.frame f.closure.frame).find? "this" = some (.instance object)
  super : ∃ around < store.frames.size, f.closure.enclosing.head? = some around ∧
    (store.frame around).find? "super" = home.superclass?.map .class

section Tied

variable {rules weaker : Rules} {store store' : Store} {home : Class} {object : Instance}
  {f : Function}

theorem Function.TiedTo.later (tied : f.TiedTo rules store home object)
    (implied : rules.Implies weaker)
    (before : store.Precedes store') : f.TiedTo weaker store' home object := by
  obtain ⟨⟨scopes, obeys⟩, this, around, allocated, enclosing, super⟩ := tied
  refine ⟨⟨scopes, obeys.mono implied⟩, before.find? (.inl rfl) this, around,
    allocated.trans_le before.size, enclosing, ?_⟩
  rw [before.reserved around allocated "super" (.inr rfl)]
  exact super

theorem Function.FitsAsMethod.tiedTo {m m' : Machine} {method : Function}
    (fits : method.FitsAsMethod rules m.store home.superclass?)
    (tied : Eval.bindMethod method object m = .ok f m') : f.TiedTo rules m'.store home object := by
  obtain ⟨scopes, stand, obeys, linked⟩ := fits
  have allocated := Store.StandFor.allocated stand
  cases tied
  have old : (m.store.addFrame (Bindings.empty.insert "this" (.instance object))).frame
      method.closure.frame = m.store.frame method.closure.frame :=
    Store.frame_addFrame_of_ne _ allocated.ne
  refine ⟨⟨scopes, obeys⟩, ?_, method.closure.frame, ?_, rfl, ?_⟩
  · change ((m.store.addFrame _).frame m.store.frames.size).find? "this" = _
    simp
  · change _ < (m.store.addFrame _).frames.size
    rw [Store.size_addFrame]
    exact allocated.trans (Nat.lt_succ_self _)
  · change ((m.store.addFrame _).frame method.closure.frame).find? "super" = _
    rw [old]
    exact linked

end Tied

/-! ## Methods that are looked for -/

namespace Eval

variable {m m' : Machine} {cls home : Class} {object : Instance} {name : String} {span : Span}
variable {method f : Function}

theorem lookup_eq {id : ExprId} {distance : Nat} {value : Value}
    (entry : m.depths[id]? = some distance)
    (found : m.store.getAt? m.env distance name = some value) :
    lookup id name span m = .ok value m := by
  have looked : (get : Eval Machine) m = .ok m m := rfl
  rw [lookup, bind_of_ok looked]
  simp only [entry]
  rw [Store.getAt, found]
  rfl

theorem exists_bindMethod (method : Function) (object : Instance) (m : Machine) :
    ∃ f m', bindMethod method object m = .ok f m' :=
  ⟨_, _, rfl⟩

theorem tieMethod_of_finds (finds : cls.Finds name home method)
    (tied : bindMethod method object m = .ok f m') :
    tieMethod cls object name span m = .ok (.function f) m' := by
  rw [tieMethod, Class.findMethod?_eq_some_iff.mpr ⟨home, finds⟩]
  exact bind_of_ok tied

theorem tieMethod_of_not_finds (undefined : ∀ home method, ¬cls.Finds name home method) :
    tieMethod cls object name span m = .error (.fault ⟨.undefinedProperty name, span⟩) m := by
  have nothing : cls.findMethod? name = none := by
    rw [Option.eq_none_iff_forall_ne_some]
    intro method found
    obtain ⟨home, finds⟩ := Class.findMethod?_eq_some_iff.mp found
    exact undefined home method finds
  rw [tieMethod, nothing]
  rfl

/-- A method that was obtained is the first definition of its name from the class upwards. -/
theorem finds_of_tieMethod (obtained : tieMethod cls object name span m = .ok (.function f) m') :
    ∃ home method, cls.Finds name home method ∧ bindMethod method object m = .ok f m' := by
  rw [tieMethod] at obtained
  cases found : cls.findMethod? name with
  | none =>
    rw [found] at obtained
    cases obtained
  | some method =>
    rw [found] at obtained
    obtain ⟨home, finds⟩ := Class.findMethod?_eq_some_iff.mp found
    refine ⟨home, method, finds, ?_⟩
    cases obtained
    rfl

end Eval

namespace Activity

variable {limit : Nat} {r r' : Resolution} {name : String} {cls home : Class} {object : Instance}
variable {f : Function} {a : Activity}

/-- A method of some name is looked for from a class upwards, and tied to an instance: by access to
a property that is no field, by access through `super`, or because the instance is being made. -/
inductive Obtains (limit : Nat) : Activity → String → Class → Instance → Function → Prop where
  | access {fuel : Nat} {m m' m'' : Machine} {id : ExprId} {target : Expr} {name : Ident}
      {object : Instance} {f : Function}
      (evaluated : Eval.expr limit fuel target m = .ok (.instance object) m')
      (noField : (m'.store.fieldsOf object.id).find? name.text = none)
      (obtained : Eval.expr limit (fuel + 1) (.get id target name) m = .ok (.function f) m'') :
    Obtains limit ⟨fuel + 1, .expr (.get id target name), m⟩ name.text object.cls object f
  | super {fuel : Nat} {m m' : Machine} {id : ExprId} {span : Span} {method : Ident}
      {distance : Nat}
      {cls : Class} {object : Instance} {f : Function}
      (entry : m.depths[id]? = some (distance + 1))
      (above : m.store.getAt? m.env (distance + 1) "super" = some (.class cls))
      (this : m.store.getAt? m.env distance "this" = some (.instance object))
      (obtained : Eval.expr limit (fuel + 1) (.super id span method) m = .ok (.function f) m') :
    Obtains limit ⟨fuel + 1, .expr (.super id span method), m⟩ method.text cls object f
  | initializer {fuel : Nat} {m m' m'' : Machine} {cls : Class} {args : List Value}
      {object : Instance}
      {method f : Function} (declared : cls.initializer? = some method)
      (made : Eval.newInstance cls m = .ok object m')
      (tied : Eval.bindMethod method object m' = .ok f m'') :
    Obtains limit ⟨fuel + 1, .instantiate cls args, m⟩ "init" cls object f

/-- What is obtained is the first definition of the name, tied to the instance. -/
theorem Obtains.finds (obtains : a.Obtains limit name cls object f) (fits : a.Fits r) :
    ∃ home method, cls.Finds name home method ∧ f.routine = method.routine ∧
      f.TiedTo r.rules (a.endStore limit) home object := by
  have tied {m m' : Machine} {home : Class} {method : Function}
    (fitsClass : cls.Fits r.rules m.store)
      (finds : cls.Finds name home method) (bound : Eval.bindMethod method object m = .ok f m')
      (before : m'.store.Precedes (a.endStore limit)) :
      f.routine = method.routine ∧ f.TiedTo r.rules (a.endStore limit) home object := by
    refine ⟨?_, ((fitsClass.finds finds).tiedTo bound).later ⟨id, id, id⟩ before⟩
    cases bound
    rfl
  have ended {m' : Machine} {result : a.task.Result}
      (outcome : a.task.run limit a.fuel a.machine = .ok result m') :
      m'.store.Precedes (a.endStore limit) := by
    rw [endStore, outcome]
    exact .refl _
  have fitsWhole := fits
  obtain ⟨scopes, fitsMachine, fitsTask⟩ := fits
  cases obtains with
  | @access fuel m m' m'' id target name object f evaluated noField obtained =>
    have obeys : target.Obeys r.rules scopes := fitsTask.2
    obtain ⟨_, fitsObject⟩ := value_fits fitsMachine fitsTask.1 obeys evaluated
    have looked : Eval.tieMethod object.cls object name.text name.span m' =
        .ok (.function f) m'' := by
      rw [← Eval.getProperty_eq noField]
      exact (bind_of_ok evaluated).symm.trans obtained
    obtain ⟨home, method, finds, bound⟩ := Eval.finds_of_tieMethod looked
    exact ⟨home, method, finds, tied fitsObject finds bound (ended obtained)⟩
  | super entry above this obtained =>
    have fitsClass : cls.Fits r.rules _ := fitsMachine.store.getAt? above
    have looked := (Eval.superMethod_eq entry above this).symm.trans obtained
    obtain ⟨home, method, finds, bound⟩ := Eval.finds_of_tieMethod looked
    exact ⟨home, method, finds, tied fitsClass finds bound (ended obtained)⟩
  | @initializer fuel m m' m'' cls args object method f declared made bound =>
    obtain ⟨step, rfl⟩ := (Eval.meets_newInstance fitsMachine cls).ok_of_eq made
    obtain ⟨home, finds⟩ := Class.findMethod?_eq_some_iff.mp declared
    have starts : Starts limit ⟨fuel + 1, .instantiate object.cls args, m⟩
        ⟨fuel, .apply f args, m''⟩ :=
      .initializer declared made bound
    have before := ((starts.fits fitsWhole).precedes_endStore limit).trans
      (starts.endStore_precedes fitsWhole)
    exact ⟨home, _, finds, tied (fitsTask.1.evolve step.evolves) finds bound before⟩

/-- The class that a method is looked for in has the same origin as all classes. -/
theorem Obtains.madeFrom {origin : Origin} {occurs : Activity → Prop}
    (covers : origin.Covers limit occurs)
    (obtains : a.Obtains limit name cls object f) (here : occurs a) (made : a.MadeFrom origin) :
    cls.MadeFrom origin := by
  cases obtains with
  | @access fuel m m' m'' id target name object f evaluated noField obtained =>
    have starts : Starts limit ⟨fuel + 1, .expr (.get id target name), m⟩ ⟨fuel, .expr target, m⟩ :=
      .getObject
    have faithful :=
      (Task.expr target).faithful covers fuel (covers.starts here starts) trivial made.store
    exact (faithful.ok_of_eq evaluated).2
  | super entry above this obtained => exact made.store.getAt? above
  | initializer declared made' tied => exact made.task.1

/-- Where `this` stands, it is the instance. Where `super` stands, there is a superclass, and the
first definition of the name from it upwards is tied to the instance, if there is one. -/
structure RefersTo (limit : Nat) (object : Instance) (superclass : Option Class) (a : Activity) :
    Prop where
  this : ∀ {fuel id span m}, a = ⟨fuel + 1, .expr (.this id span), m⟩ →
    Eval.expr limit (fuel + 1) (.this id span) m = .ok (.instance object) m
  super : ∀ {fuel id span name m}, a = ⟨fuel + 1, .expr (.super id span name), m⟩ →
    ∃ cls, superclass = some cls ∧
      (∀ home method, cls.Finds name.text home method →
        ∃ f m', Eval.bindMethod method object m = .ok f m' ∧
          Eval.expr limit (fuel + 1) (.super id span name) m = .ok (.function f) m') ∧
      ((∀ home method, ¬cls.Finds name.text home method) →
        Eval.expr limit (fuel + 1) (.super id span name) m =
          .error (.fault ⟨.undefinedProperty name.text, name.span⟩) m)

section Placed

variable {closure : Env} {inner scopes : List Names} {frames : List FrameId}

theorem Placed.locate?_this (placed : a.Placed r (thisScope :: scopes) closure inner frames) :
    locate? (inner ++ thisScope :: scopes) "this" = some (inner.length, true) := by
  have here : locate? (thisScope :: scopes) "this" = some (0, true) := rfl
  rw [placed.unreserved.locate?_append (.inl rfl), here]
  simp

/-- The frame with `this` is that of the function, and the one with `super` the next one. -/
theorem Placed.getAt?_eq (placed : a.Placed r (thisScope :: scopes) closure inner frames)
    (name : String) :
    a.machine.store.getAt? a.machine.env inner.length name =
      (a.machine.store.frame closure.frame).find? name := by
  rw [Store.getAt?, placed.chain, ← placed.length, List.getElem?_append_right le_rfl, Nat.sub_self]
  rfl

theorem Placed.getAt?_succ_eq (placed : a.Placed r (thisScope :: scopes) closure inner frames)
    {around : FrameId} (enclosing : closure.enclosing.head? = some around) (name : String) :
    a.machine.store.getAt? a.machine.env (inner.length + 1) name =
      (a.machine.store.frame around).find? name := by
  have there : a.machine.env.chain[inner.length + 1]? = some around := by
    rw [placed.chain, ← placed.length, List.getElem?_append_right (Nat.le_succ _),
      Nat.succ_sub le_rfl, Nat.sub_self, ← enclosing, List.head?_eq_getElem?]
    rfl
  rw [Store.getAt?, there]
  rfl

/-- The depth on record when a name is used is still on record later. -/
theorem Fits.entry (fits : a.Fits r') (grows : r'.Grows r) {u : Use} {m : Machine}
    (uses : a.Uses limit u m) : m.depths[u.id]? = r.table[u.id]? := by
  obtain ⟨_, fitsMachine, _, agrees⟩ := fits.use uses
  rw [fitsMachine.table, grows.table u.id agrees.bound]

end Placed

/-- In the body of a method that is tied to an instance, `this` is that instance and `super` its
superclass. The store and the record may be of any later moment. -/
theorem RunsIn.refersTo {occurs : Activity → Prop} {store : Store} (runs : RunsIn limit occurs f a)
    (tied : f.TiedTo r.rules store home object) (fits : a.Fits r') (grows : r'.Grows r)
    (before : a.machine.store.Precedes store) : a.RefersTo limit object home.superclass? := by
  obtain ⟨⟨scopes, obeys⟩, this, around, _, enclosing, super⟩ := tied
  obtain ⟨inner, frames, placed⟩ := runs.placed obeys
  have agreesHere : a.Agrees limit r'.own := fits.agrees
  -- The frame at that distance is the one with `this`, and the later store still has the instance
  -- there.
  have same {found : Instance} (bound : a.machine.store.getAt? a.machine.env inner.length "this" =
      some (.instance found)) : found = object := by
    have there := before.find? (.inl rfl) ((placed.getAt?_eq "this").symm.trans bound)
    cases this.symm.trans there
    rfl
  constructor
  · rintro fuel id span m rfl
    have agrees : r.Agrees (inner ++ thisScope :: scopes) (.this id) := placed.obeys
    obtain ⟨depth, found, entry, bound⟩ := agreesHere.this .this rfl
    have recorded : m.depths[id]? = some inner.length := by
      have uses : Uses limit ⟨fuel + 1, .expr (.this id span), m⟩ (.this id) m := .this
      refine (fits.entry grows uses).trans ?_
      rw [agrees.depth]
      exact congrArg (Option.map Prod.fst) placed.locate?_this
    obtain rfl : depth = inner.length := Option.some.inj (entry.symm.trans recorded)
    rw [same bound] at bound
    exact Eval.lookup_eq entry bound
  · rintro fuel id span name m rfl
    have agrees : r.Agrees (inner ++ thisScope :: scopes) (.super id) := placed.obeys
    obtain ⟨depth, cls, found, entry, boundSuper, boundThis⟩ := agreesHere.super .super rfl
    obtain ⟨distance, located, within⟩ := agrees.permitted
    obtain rfl : distance = inner.length := by
      cases within.symm.trans placed.locate?_this
      rfl
    have recorded : m.depths[id]? = some (inner.length + 1) := by
      have uses : Uses limit ⟨fuel + 1, .expr (.super id span name), m⟩ (.super id) m := .super
      refine (fits.entry grows uses).trans ?_
      rw [agrees.depth, located]
      rfl
    obtain rfl : depth = inner.length := Nat.succ.inj (Option.some.inj (entry.symm.trans recorded))
    rw [same boundThis] at boundThis
    have sameSuper := (placed.getAt?_succ_eq enclosing "super").symm.trans boundSuper
    have linked := super.symm.trans (before.find? (.inr rfl) sameSuper)
    have declared : home.superclass? = some cls := by simpa using linked
    have looked : Eval.expr limit (fuel + 1) (.super id span name) m =
        Eval.tieMethod cls object name.text name.span m :=
        Eval.superMethod_eq entry boundSuper boundThis
    refine ⟨cls, declared, ?_, ?_⟩
    · intro home method finds
      obtain ⟨f, m', tied⟩ := Eval.exists_bindMethod method object m
      exact ⟨f, m', tied, looked.trans (Eval.tieMethod_of_finds finds tied)⟩
    · intro undefined
      exact looked.trans (Eval.tieMethod_of_not_finds undefined)

end Activity

end Lox
