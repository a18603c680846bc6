import Lox.Evaluation.Machine
import Lox.Proofs.Outcome
import Lox.Proofs.Scope.Resolution
import Lox.Proofs.Store.Fits

set_option autoImplicit false

/-!
# Steps of a machine that fits

A machine fits a record of resolving if it runs with the depths on record and all values in its
store fit. It stands inside scopes if its environment stands for them. For each step of the machine:
what it yields from such a state, which faults it can raise, and that the machine still fits behind
it.
-/

namespace Lox

open Scope (Names Rules Resolution Complete mark locate? thisScope superScope)

def RuntimeError.Cause.IsLookup : RuntimeError.Cause → Prop
  | .undefinedVariable _ | .scopeMismatch .. => True
  | _ => False

def Interruption.IsLookupFault : Interruption → Prop
  | .fault error => error.cause.IsLookup
  | .outOfFuel => False

namespace Machine

structure Fits (r : Resolution) (m : Machine) : Prop where
  table : m.depths = r.table
  store : m.store.Fits r.rules

/-- The environment stands for the scopes around a point. The innermost frame binds nothing but what
is completely declared there, and no reserved name. -/
structure Inside (scopes : List Names) (m : Machine) : Prop where
  chain : m.store.StandFor m.env.chain scopes
  allocated : m.env.frame < m.store.frames.size
  exact : ∀ names ∈ scopes.head?, ∀ name,
    (m.store.frame m.env.frame).contains name = true → names.find? name = some true
  plain : ∀ name, IsReserved name → (m.store.frame m.env.frame).find? name = none

structure Continues (r : Resolution) (opened : Option FrameId) (m m' : Machine) : Prop where
  fits : m'.Fits r
  env : m'.env = m.env
  globals : m'.globals = m.globals
  evolves : m.store.Evolves opened m'.store

variable {r : Resolution} {opened : Option FrameId} {scopes : List Names} {m m' m'' : Machine}

/-- At first there are no values but the built-in functions. -/
theorem eq_native_of_start {clock : Clock} {output : Output} {id : FrameId} {name : String}
    {value : Value} (found : ((start clock output).store.frame id).find? name = some value) :
    value = .native .clock := by
  cases id with
  | zero =>
    have native : (Bindings.empty.insert "clock" (.native .clock)).find? name = some value := found
    rw [Bindings.find?_insert] at native
    split at native
    · exact (Option.some.inj native).symm
    · cases native
  | succ id => cases found

namespace Continues

theorem refl (fits : m.Fits r) : m.Continues r opened m :=
  ⟨fits, rfl, rfl, .refl _⟩

theorem trans (first : m.Continues r opened m') (second : m'.Continues r opened m'') :
    m.Continues r opened m'' :=
  ⟨second.fits, second.env.trans first.env, second.globals.trans first.globals,
    first.evolves.trans second.evolves⟩

theorem open' (continues : m.Continues r none m') : m.Continues r opened m' :=
  ⟨continues.fits, continues.env, continues.globals, continues.evolves.open'⟩

theorem frame_eq (continues : m.Continues r opened m') :
    some m'.env.frame = some m.env.frame := by
  rw [continues.env]

theorem recount (continues : m.Continues r opened m') (callDepth : Nat) :
    m.Continues r opened { m' with callDepth := callDepth } :=
  ⟨⟨continues.fits.table, continues.fits.store⟩, continues.env, continues.globals,
    continues.evolves⟩

theorem addFrame (fits : m.Fits r) {bindings : Bindings Value} (apart : bindings.SetApart)
    (values : ∀ name value, bindings.find? name = some value → value.Fits r.rules m.store) :
    m.Continues r opened { m with store := m.store.addFrame bindings } :=
  ⟨⟨fits.table, fits.store.addFrame apart values⟩, rfl, rfl, .addFrame _ _⟩

theorem addIdentity (fits : m.Fits r) :
    m.Continues r opened { m with store := m.store.addIdentity } :=
  ⟨⟨fits.table, fits.store.of_eq rfl rfl⟩, rfl, rfl, .of_frames rfl⟩

end Continues

namespace Inside

theorem follow (inside : m.Inside scopes) (continues : m.Continues r none m') :
    m'.Inside scopes := by
  refine ⟨?_, ?_, ?_, fun name reserved => ?_⟩
  · rw [continues.env]
    exact inside.chain.evolve continues.evolves
  · rw [continues.env]
    exact inside.allocated.trans_le continues.evolves.size
  · rw [continues.env]
    exact fun names innermost name bound => inside.exact names innermost name
      (continues.evolves.names _ inside.allocated (by simp) name bound)
  · rw [continues.env, continues.evolves.reserved _ inside.allocated name reserved]
    exact inside.plain name reserved

/-- A name that is located in a scope is bound by the frame that stands for it. -/
theorem bound (inside : m.Inside scopes) {name : String} {depth : Nat}
    (found : locate? scopes name = some (depth, true)) :
    ∃ id, m.env.chain[depth]? = some id ∧ (m.store.frame id).contains name = true := by
  obtain ⟨names, there, declared⟩ := Scope.exists_of_locate? found
  obtain ⟨id, frame, holds⟩ := inside.chain.getElem? there
  exact ⟨id, frame, holds.bound name declared⟩

theorem this (inside : m.Inside scopes) {depth : Nat}
    (found : locate? scopes "this" = some (depth, true)) :
    ∃ object, m.store.getAt? m.env depth "this" = some (.instance object) := by
  obtain ⟨names, there, declared⟩ := Scope.exists_of_locate? found
  obtain ⟨id, frame, holds⟩ := inside.chain.getElem? there
  obtain ⟨object, bound⟩ := holds.this declared
  exact ⟨object, by simp [Store.getAt?, frame, bound]⟩

theorem super (inside : m.Inside scopes) {depth : Nat}
    (found : locate? scopes "super" = some (depth, true)) :
    ∃ cls, m.store.getAt? m.env depth "super" = some (.class cls) := by
  obtain ⟨names, there, declared⟩ := Scope.exists_of_locate? found
  obtain ⟨id, frame, holds⟩ := inside.chain.getElem? there
  obtain ⟨cls, bound⟩ := holds.super declared
  exact ⟨cls, by simp [Store.getAt?, frame, bound]⟩

/-- A variable that is being declared is not bound yet. -/
theorem unbound (inside : m.Inside scopes) {name : String}
    (found : locate? scopes name = some (0, false)) :
    (m.store.frame m.env.frame).contains name = false := by
  obtain ⟨names, there, declared⟩ := Scope.exists_of_locate? found
  cases bound : (m.store.frame m.env.frame).contains name with
  | false => rfl
  | true =>
    have complete := inside.exact names (by simpa [List.head?_eq_getElem?] using there) name bound
    rw [declared] at complete
    cases complete

end Inside

end Machine

namespace Eval

variable {r : Resolution} {opened : Option FrameId} {scopes : List Names} {m : Machine}
variable {id : ExprId} {span : Span}

theorem bindings_single_fits {rules : Rules} {store : Store} (name : String) {value : Value}
    (fits : value.Fits rules store) :
    ∀ key found, (Bindings.empty.insert name value).find? key = some found →
      found.Fits rules store := by
  intro key found there
  rw [Bindings.find?_insert] at there
  split at there
  · cases there
    exact fits
  · cases there

/-! ## Variables -/

section Variables

variable {name : String}

/-- Only a global variable that is not there is missed. -/
theorem meets_lookup (fits : m.Fits r) (inside : m.Inside scopes)
    (depth : r.table[id]? = (locate? scopes name).map Prod.fst) (complete : Complete scopes name) :
    Meets (lookup id name span) m (fun value m' => m' = m ∧ value.Fits r.rules m.store)
      fun e m' => m' = m ∧ m.depths[id]? = none ∧ m.store.frameOf? m.globals name = none ∧
        e = .fault (undefinedVariable name span) := by
  rw [← fits.table] at depth
  simp only [lookup, meets_bind, meets_get, depth]
  cases located : locate? scopes name with
  | none =>
    simp only [Option.map_none, Store.get]
    cases found : m.store.get? m.globals name with
    | some value => exact ⟨rfl, fits.store.get? found⟩
    | none => exact ⟨rfl, trivial, Store.get?_eq_none_iff.mp found, rfl⟩
  | some there =>
    obtain ⟨distance, known⟩ := there
    cases complete distance known located
    obtain ⟨frame, there, bound⟩ := inside.bound located
    obtain ⟨value, found⟩ := Option.isSome_iff_exists.mp bound
    have value_eq : m.store.getAt? m.env distance name = some value := by
      simp [Store.getAt?, there, found]
    simp only [Option.map_some, Store.getAt, value_eq]
    exact ⟨rfl, fits.store.getAt? value_eq⟩

/-- A method that was found, tied to an instance. -/
theorem meets_bindMethod (fits : m.Fits r) {method : Function} {object : Instance}
    {superclass : Option Class} (fitsMethod : method.FitsAsMethod r.rules m.store superclass)
    (fitsObject : object.cls.Fits r.rules m.store) :
    Meets (bindMethod method object) m
      (fun f m' => m.Continues r none m' ∧ f.Fits r.rules m'.store ∧ f.arity = method.arity)
      fun _ _ => False := by
  obtain ⟨outer, chain, obeys, _⟩ := fitsMethod
  have made : m.Continues r none _ := .addFrame fits (.single "this" _) (bindings_single_fits "this"
    (show (Value.instance object).Fits r.rules m.store from fitsObject))
  have numbered : Machine.Continues r none _ _ := .addIdentity made.fits
  have both := made.trans numbered
  exact ⟨both, ⟨thisScope :: outer,
    .frame ((Store.holds_thisScope m.store object).evolve numbered.evolves)
      (chain.evolve both.evolves), obeys, fun _ => rfl⟩, rfl⟩

/-- The frame that an assignment to a name writes to: at the recorded distance, or the global
one. -/
def assignmentTarget (id : ExprId) (name : Ident) : Eval FrameId := do
  let m ← get
  match m.depths[id]? with
  | some distance => ofExcept (m.store.targetAt m.env distance name.text name.span)
  | none => ofExcept (m.store.target m.globals name.text name.span)

/-- The frame to write to is found first. -/
theorem updateStore_of_map {change : Machine → Except RuntimeError Store} {name : String}
    {value : Value} (found : Except RuntimeError FrameId)
    (changed : change m = found.map fun frame => m.store.bind frame name value) :
    updateStore change m =
      (ofExcept found >>= fun frame => modifyStore (·.bind frame name value)) m := by
  change (ofExcept (change m) >>= fun store => modifyStore fun _ => store) m = _
  rw [changed]
  cases found <;> rfl

theorem assignmentTarget_apply (id : ExprId) (name : Ident) :
    assignmentTarget id name m =
      match m.depths[id]? with
      | some distance => ofExcept (m.store.targetAt m.env distance name.text name.span) m
      | none => ofExcept (m.store.target m.globals name.text name.span) m := by
  cases entry : m.depths[id]? <;>
    simp [assignmentTarget, bind, EStateM.bind, get, getThe, MonadStateOf.get, EStateM.get, entry]

theorem assign_eq (id : ExprId) (name : Ident) (value : Value) :
    assign id name value = (do
      let frame ← assignmentTarget id name
      modifyStore (·.bind frame name.text value)) := by
  funext m
  simp only [bind, EStateM.bind, assignmentTarget_apply]
  cases entry : m.depths[id]? with
  | some distance =>
    exact updateStore_of_map (m.store.targetAt m.env distance name.text name.span)
      (by rw [entry]; rfl)
  | none =>
    exact updateStore_of_map (m.store.target m.globals name.text name.span) (by rw [entry]; rfl)

/-- An assignment to a variable that is completely declared, or to a global one. -/
theorem meets_assign (fits : m.Fits r) (inside : m.Inside scopes) {name : Ident} {value : Value}
    (depth : r.table[id]? = (locate? scopes name.text).map Prod.fst)
    (complete : Complete scopes name.text) (unreserved : ¬IsReserved name.text)
    (new : value.Fits r.rules m.store) :
    Meets (assign id name value) m (fun _ m' => m.Continues r none m')
      fun e m' => m' = m ∧ m.depths[id]? = none ∧
        m.store.frameOf? m.globals name.text = none ∧
        e = .fault (undefinedVariable name.text name.span) := by
  have written : ∀ frame, (m.store.frame frame).contains name.text = true →
      m.Continues r none { m with store := m.store.bind frame name.text value } := by
    intro frame bound
    have evolves : Store.Evolves none m.store (m.store.bind frame name.text value) :=
      .bind unreserved (.inr bound)
    exact ⟨⟨fits.table, fits.store.bind unreserved (fun _ _ _ => bound) (new.evolve evolves)
      evolves⟩, rfl, rfl, evolves⟩
  rw [← fits.table] at depth
  simp only [assign_eq, assignmentTarget, meets_bind, meets_get, depth]
  cases located : locate? scopes name.text with
  | none =>
    simp only [Option.map_none, Store.target]
    cases found : m.store.frameOf? m.globals name.text with
    | some frame => exact written frame (by simpa using List.find?_some found)
    | none => exact ⟨rfl, trivial, rfl, rfl⟩
  | some there =>
    obtain ⟨distance, known⟩ := there
    cases complete distance known located
    obtain ⟨frame, there, bound⟩ := inside.bound located
    have target : m.store.frameAt? m.env distance name.text = some frame := by
      simp [Store.frameAt?, there, bound]
    simp only [Option.map_some, Store.targetAt, target]
    exact written frame bound

/-- An assignment to a variable that is being declared finds no binding. -/
theorem assign_unbound (fits : m.Fits r) (inside : m.Inside scopes) {name : Ident}
    (depth : r.table[id]? = (locate? scopes name.text).map Prod.fst)
    (declaring : locate? scopes name.text = some (0, false)) (value : Value) :
    assign id name value m = .error (.fault (scopeMismatch name.text 0 name.span)) m := by
  have entry : m.depths[id]? = some 0 := by
    rw [fits.table, depth, declaring]
    rfl
  have target : m.store.frameAt? m.env 0 name.text = none := by
    simp [Store.frameAt?, Env.chain, inside.unbound declaring]
  have failed : assignmentTarget id name m =
      .error (.fault (scopeMismatch name.text 0 name.span)) m := by
    simp only [assignmentTarget_apply, entry, Store.targetAt, target]
    rfl
  rw [assign_eq]
  exact bind_of_error failed

end Variables

/-! ## Objects -/

section Objects

/-- The first method of a name from a class upwards, tied to an instance. -/
def tieMethod (cls : Class) (object : Instance) (name : String) (span : Span) : Eval Value :=
  match cls.findMethod? name with
  | some method => return .function (← bindMethod method object)
  | none => raise (.undefinedProperty name) span

theorem getProperty_eq {object : Instance} {name : String}
    (noField : (m.store.fieldsOf object.id).find? name = none) (span : Span) :
    getProperty object name span m = tieMethod object.cls object name span m := by
  have looked : (get : Eval Machine) m = .ok m m := rfl
  rw [getProperty, bind_of_ok looked]
  simp only [noField]
  rfl

theorem superMethod_eq {method : Ident} {distance : Nat} {cls : Class} {object : Instance}
    (entry : m.depths[id]? = some (distance + 1))
    (super : m.store.getAt? m.env (distance + 1) "super" = some (.class cls))
    (this : m.store.getAt? m.env distance "this" = some (.instance object)) :
    superMethod id span method m = tieMethod cls object method.text method.span m := by
  have above : ofExcept (m.store.getAt m.env (distance + 1) "super" span) m =
      .ok (.class cls) m := by
    rw [Store.getAt, super]
    rfl
  have self : ofExcept (m.store.getAt m.env distance "this" span) m = .ok (.instance object) m := by
    rw [Store.getAt, this]
    rfl
  have looked : (get : Eval Machine) m = .ok m m := rfl
  rw [superMethod, bind_of_ok looked]
  simp only [entry]
  rw [bind_of_ok above]
  dsimp only
  rw [bind_of_ok self]
  rfl

theorem meets_tieMethod (fits : m.Fits r) {cls : Class} {object : Instance} (name : String)
    (fitsClass : cls.Fits r.rules m.store) (fitsObject : object.cls.Fits r.rules m.store) :
    Meets (tieMethod cls object name span) m
      (fun value m' => m.Continues r none m' ∧ value.Fits r.rules m'.store)
      fun e m' => m' = m ∧ ¬e.IsLookupFault := by
  unfold tieMethod
  cases found : cls.findMethod? name with
  | none => exact ⟨rfl, not_false⟩
  | some method =>
    obtain ⟨superclass, fitsMethod⟩ := fitsClass.findMethod? found
    exact (meets_bindMethod fits fitsMethod fitsObject).never.bind
      fun f m' _ bound => ⟨bound.1, bound.2.1⟩

theorem meets_getProperty (fits : m.Fits r) {object : Instance} {name : String}
    (fitsObject : object.cls.Fits r.rules m.store) :
    Meets (getProperty object name span) m
      (fun value m' => m.Continues r none m' ∧ value.Fits r.rules m'.store)
      fun e m' => m' = m ∧ ¬e.IsLookupFault := by
  cases field : (m.store.fieldsOf object.id).find? name with
  | some value =>
    simp only [getProperty, meets_bind, meets_get, field]
    exact ⟨.refl fits, fits.store.fields _ _ _ field⟩
  | none =>
    rw [meets_congr (getProperty_eq field span)]
    exact meets_tieMethod fits name fitsObject fitsObject

theorem meets_setField (fits : m.Fits r) {object : Instance} {name : String} {value : Value}
    (new : value.Fits r.rules m.store) :
    Meets (setField object name value) m (fun _ m' => m.Continues r none m') fun _ _ => False :=
  ⟨⟨fits.table, fits.store.setField new⟩, rfl, rfl, .of_frames rfl⟩

theorem meets_newInstance (fits : m.Fits r) (cls : Class) :
    Meets (newInstance cls) m (fun object m' => m.Continues r none m' ∧ object.cls = cls)
      fun _ _ => False :=
  ⟨⟨⟨fits.table, fits.store.addInstance⟩, rfl, rfl, .of_frames rfl⟩, rfl⟩

/-- In a subclass, `super` and `this` are found where they are looked for. -/
theorem meets_superMethod (fits : m.Fits r) (inside : m.Inside scopes)
    {method : Ident} {depth : Nat} (entry : r.table[id]? = some (depth + 1))
    (super : locate? scopes "super" = some (depth + 1, true))
    (this : locate? scopes "this" = some (depth, true)) :
    Meets (superMethod id span method) m
      (fun value m' => m.Continues r none m' ∧ value.Fits r.rules m'.store)
      fun e m' => m' = m ∧ ¬e.IsLookupFault := by
  obtain ⟨superclass, foundSuper⟩ := inside.super super
  obtain ⟨object, foundThis⟩ := inside.this this
  have fitsSuper : superclass.Fits r.rules m.store := fits.store.getAt? foundSuper
  have fitsThis : object.cls.Fits r.rules m.store := fits.store.getAt? foundThis
  rw [← fits.table] at entry
  rw [meets_congr (superMethod_eq entry foundSuper foundThis)]
  exact meets_tieMethod fits method.text fitsSuper fitsThis

end Objects

/-! ## Declarations -/

section Declarations

variable {name : String} {value : Value}

theorem continues_define (fits : m.Fits r) (inside : m.Inside scopes)
    (unreserved : ¬IsReserved name) (new : value.Fits r.rules (m.store.define m.env name value)) :
    m.Continues r (some m.env.frame) { m with store := m.store.define m.env name value } := by
  have evolves : Store.Evolves (some m.env.frame) m.store (m.store.define m.env name value) :=
    .bind unreserved (.inl rfl)
  have plain : ∀ key, IsReserved key → (m.store.frame m.env.frame).contains key = true →
      (m.store.frame m.env.frame).contains name = true := by
    intro key reserved bound
    rw [Bindings.contains, inside.plain key reserved] at bound
    cases bound
  exact ⟨⟨fits.table, fits.store.bind unreserved plain new evolves⟩, rfl, rfl, evolves⟩

/-- A declaration binds its name in the innermost frame. -/
theorem inside_define (inside : m.Inside scopes) (unreserved : ¬IsReserved name) (value : Value) :
    Machine.Inside (mark scopes name true) { m with store := m.store.define m.env name value } := by
  have evolves : Store.Evolves (some m.env.frame) m.store (m.store.define m.env name value) :=
    .bind unreserved (.inl rfl)
  have bound : ∀ key, (((m.store.define m.env name value).frame m.env.frame).contains key = true ↔
      key = name ∨ (m.store.frame m.env.frame).contains key = true) := by
    intro key
    simp [Store.define, Store.contains_frame_bind, inside.allocated]
  refine ⟨?_, inside.allocated.trans_le evolves.size, ?_, fun key reserved => ?_⟩
  · have chain := inside.chain.evolve evolves
    cases scopes with
    | nil => exact chain
    | cons names outer =>
      obtain ⟨holds, around⟩ := ChainMatches.cons_iff.mp chain
      exact .frame (holds.insert unreserved ((bound name).mpr (.inl rfl))) around
  · cases scopes with
    | nil => simp
    | cons names outer =>
      rintro _ ⟨⟩ key known
      rw [Bindings.find?_insert]
      split
      · rfl
      · rename_i different
        exact inside.exact names rfl key (((bound key).mp known).resolve_left different)
  · rw [evolves.reserved _ inside.allocated key reserved]
    exact inside.plain key reserved

theorem meets_define (fits : m.Fits r) (inside : m.Inside scopes) (unreserved : ¬IsReserved name)
    (new : value.Fits r.rules m.store) :
    Meets (define name value) m
      (fun _ m' => m.Continues r (some m.env.frame) m' ∧ m'.Inside (mark scopes name true))
      fun _ _ => False := by
  have evolves : Store.Evolves (some m.env.frame) m.store (m.store.define m.env name value) :=
    .bind unreserved (.inl rfl)
  exact ⟨continues_define fits inside unreserved (new.evolve evolves),
    inside_define inside unreserved value⟩

/-- A function may call itself: its name is declared where its text begins. -/
theorem meets_declareFunction (fits : m.Fits r) (inside : m.Inside scopes)
    {routine : Routine (List Stmt)} (unreserved : ¬IsReserved routine.name.text)
    (obeys : Stmt.RoutineObeys r.rules (mark scopes routine.name.text true) routine) :
    Meets (declareFunction routine) m
      (fun _ m' => m.Continues r (some m.env.frame) m' ∧
        m'.Inside (mark scopes routine.name.text true))
      fun _ _ => False := by
  have numbered : Machine.Continues r none m _ := .addIdentity fits
  have declared := inside_define (inside.follow numbered) unreserved
    (.function ⟨m.store.identities, routine, m.env, false⟩)
  exact ⟨numbered.open'.trans (continues_define numbered.fits (inside.follow numbered) unreserved
    ⟨_, declared.chain, obeys, fun initializer => by cases initializer⟩), declared⟩

theorem meets_makeMethods {closure : Env} {routines : List (Routine (List Stmt))}
    {methods : Bindings Function} {superclass : Option Class} (fits : m.Fits r)
    (chain : m.store.StandFor closure.chain scopes)
    (obey : Stmt.MethodsObey r.rules (thisScope :: scopes) routines)
    (linked : (m.store.frame closure.frame).find? "super" = superclass.map .class)
    (known : ∀ key method, methods.find? key = some method →
      method.FitsAsMethod r.rules m.store superclass) :
    Meets (makeMethods closure routines methods) m
      (fun made m' => m.Continues r none m' ∧ ∀ key method, made.find? key = some method →
        method.FitsAsMethod r.rules m'.store superclass)
      fun _ _ => False := by
  induction routines generalizing m methods with
  | nil => exact ⟨.refl fits, known⟩
  | cons routine rest inductionHypothesis =>
    have numbered : Machine.Continues r none m _ := .addIdentity fits
    have around := chain.evolve numbered.evolves
    refine (inductionHypothesis numbered.fits around obey.2 linked ?_).imp
      fun made m' _ done => ⟨numbered.trans done.1, done.2⟩
    intro key method found
    rw [Bindings.find?_insert] at found
    split at found
    · cases found
      exact ⟨scopes, around, obey.1, linked⟩
    · exact (known key method found).evolve numbered.evolves

/-- The end of a class declaration, where its name is bound already. -/
def completeClass (name : Ident) (env closure : Env) (inherited : List ClassLayer)
    (methods : List (Routine (List Stmt))) : Eval Unit := do
  let methods ← makeMethods closure methods ∅
  let identity ← freshIdentity
  let frame ← ofExcept ((← get).store.target env name.text name.span)
  modifyStore (·.bind frame name.text (.class ⟨⟨identity, name.text, methods⟩, inherited⟩))

theorem frames_makeMethods (closure : Env) (routines : List (Routine (List Stmt)))
    (methods : Bindings Function) :
    Meets (makeMethods closure routines methods) m
      (fun _ m' => m'.store.frames = m.store.frames) fun _ _ => False := by
  induction routines generalizing m methods with
  | nil => exact rfl
  | cons routine rest inductionHypothesis =>
    exact meets_bind.mpr (inductionHypothesis (m := { m with store := m.store.addIdentity }) _)

/-- The class is bound where its name is bound already. -/
theorem completeClass_eq {name : Ident} {env closure : Env} {inherited : List ClassLayer}
    {methods : List (Routine (List Stmt))}
    (bound : (m.store.frame env.frame).contains name.text = true) :
    completeClass name env closure inherited methods m = (do
      let methods ← makeMethods closure methods ∅
      let identity ← freshIdentity
      modifyStore
        (·.bind env.frame name.text (.class ⟨⟨identity, name.text, methods⟩, inherited⟩)) :
        Eval Unit) m := by
  refine bind_congr_of_meets ((frames_makeMethods closure methods ∅).mono (fun made m₁ _ same => ?_)
    fun _ _ _ impossible => impossible.elim)
  have target : m₁.store.addIdentity.target env name.text name.span = .ok env.frame := by
    have frame : m₁.store.addIdentity.frame env.frame = m.store.frame env.frame := by
      simp [Store.frame, Store.addIdentity, same]
    simp [Store.target, Store.frameOf?, Env.chain, frame, bound, orFault]
  change (ofExcept (m₁.store.addIdentity.target env name.text name.span) >>= _) _ = _
  rw [target]
  rfl

theorem declareClass_eq (name : Ident) (superclass : Option Reference)
    (methods : List (Routine (List Stmt))) :
    declareClass name superclass methods = (do
      let superclass ← superclassOf superclass
      define name.text .nil
      let env := (← get).env
      match superclass with
      | some superclass =>
        let closure ← enclose env (Bindings.empty.insert "super" (.class superclass))
        completeClass name env closure (superclass.own :: superclass.inherited) methods
      | none => completeClass name env env [] methods) := by
  have written (env : Env) (cls : Class) :
      updateStore (·.store.assign env name.text (.class cls) name.span) = (do
        let frame ← ofExcept ((← get).store.target env name.text name.span)
        modifyStore (·.bind frame name.text (.class cls))) := by
    funext m
    exact updateStore_of_map (m.store.target env name.text name.span) rfl
  unfold declareClass completeClass
  simp only [written]
  congr
  funext superclass
  cases superclass <;> rfl

theorem meets_superclassOf (fits : m.Fits r) (inside : m.Inside scopes)
    {superclass : Option Reference}
    (agrees : ∀ reference ∈ superclass, r.Agrees scopes (.read reference)) :
    Meets (superclassOf superclass) m
      (fun found m' => m' = m ∧ found.isSome = superclass.isSome ∧
        ∀ cls ∈ found, cls.Fits r.rules m.store)
      fun e m' => m' = m ∧ (e.IsLookupFault → ∃ reference ∈ superclass,
        m.depths[reference.id]? = none ∧
        m.store.frameOf? m.globals reference.name.text = none ∧
        e = .fault (undefinedVariable reference.name.text reference.name.span)) := by
  cases superclass with
  | none => exact ⟨rfl, rfl, by simp⟩
  | some reference =>
    obtain ⟨_, depth, complete⟩ := agrees reference rfl
    simp only [superclassOf]
    refine meets_bind.mpr ((meets_lookup fits inside depth complete).mono ?_ ?_)
    · rintro value m' _ ⟨rfl, fitsValue⟩
      cases value with
      | «class» cls => exact ⟨rfl, rfl, by rintro _ ⟨⟩; exact fitsValue⟩
      | nil | bool | number | string | native | function | «instance» =>
        exact ⟨rfl, fun impossible => impossible.elim⟩
    · rintro e m' _ ⟨rfl, missing⟩
      exact ⟨rfl, fun _ => ⟨reference, rfl, missing⟩⟩

theorem meets_completeClass {name : Ident} {closure : Env} {inherited : List ClassLayer}
    {superclass : Option Class} {methods : List (Routine (List Stmt))} {outer : List Names}
    (same : ∀ own, Class.superclass? ⟨own, inherited⟩ = superclass) (fits : m.Fits r)
    (inside : m.Inside scopes) (unreserved : ¬IsReserved name.text)
    (bound : (m.store.frame m.env.frame).contains name.text = true)
    (chain : m.store.StandFor closure.chain outer)
    (obey : Stmt.MethodsObey r.rules (thisScope :: outer) methods)
    (linked : (m.store.frame closure.frame).find? "super" = superclass.map .class)
    (above : ∀ cls ∈ superclass, cls.Fits r.rules m.store) :
    Meets (completeClass name m.env closure inherited methods) m
      (fun _ m' => m.Continues r (some m.env.frame) m' ∧ m'.Inside (mark scopes name.text true))
      fun _ _ => False := by
  rw [meets_congr (completeClass_eq bound)]
  refine (meets_makeMethods fits chain obey linked (by simp)).bind
    fun made m₁ _ ⟨done, fitsMade⟩ => ?_
  have numbered : Machine.Continues r none m₁ _ := .addIdentity done.fits
  have both := done.trans numbered
  have declared := inside_define (inside.follow both) unreserved
    (.class ⟨⟨m₁.store.identities, name.text, made⟩, inherited⟩)
  rw [← done.env]
  simp only [freshIdentity, meets_bind, meets_modifyGet, modifyStore, meets_modify]
  have new : Class.Fits r.rules m₁.store.addIdentity
      ⟨⟨m₁.store.identities, name.text, made⟩, inherited⟩ := by
    refine .extend (same _) (fun key method found => ?_) fun cls next => ?_
    · exact (fitsMade key method found).evolve numbered.evolves
    · exact (above cls next).evolve both.evolves
  have written := continues_define numbered.fits (inside.follow both) unreserved
    (Value.Fits.evolve (v := .class ⟨⟨m₁.store.identities, name.text, made⟩, inherited⟩) new
      (.bind unreserved (.inl rfl)))
  exact ⟨both.open'.trans written, declared⟩

/-- The superclass is looked up before the class is declared. -/
theorem meets_declareClass (fits : m.Fits r) (inside : m.Inside scopes) {name : Ident}
    {superclass : Option Reference} {methods : List (Routine (List Stmt))}
    (unreserved : ¬IsReserved name.text)
    (agrees : ∀ reference ∈ superclass, r.Agrees scopes (.read reference))
    (obey : Stmt.MethodsObey r.rules (Scope.classScopes (mark scopes name.text true) superclass)
      methods) :
    Meets (declareClass name superclass methods) m
      (fun _ m' => m.Continues r (some m.env.frame) m' ∧ m'.Inside (mark scopes name.text true))
      fun e m' => m' = m ∧ (e.IsLookupFault → ∃ reference ∈ superclass,
        m.depths[reference.id]? = none ∧
        m.store.frameOf? m.globals reference.name.text = none ∧
        e = .fault (undefinedVariable reference.name.text reference.name.span)) := by
  rw [declareClass_eq]
  refine (meets_superclassOf fits inside agrees).bind ?_
  rintro found m' _ ⟨rfl, same, fitsFound⟩
  have nil : Value.Fits r.rules m'.store .nil := trivial
  refine (meets_define fits inside unreserved nil).never.bind ?_
  rintro _ m₁ stepped ⟨declared, insideDeclared⟩
  have bound : (m₁.store.frame m₁.env.frame).contains name.text = true := by
    obtain ⟨⟩ := stepped
    simp [Store.define, Store.contains_frame_bind, inside.allocated]
  -- The class is bound twice, to nothing before its methods are made and to itself behind them.
  have again := Scope.mark_mark scopes name.text true true
  have opened : m'.env.frame = m₁.env.frame := congrArg Env.frame declared.env.symm
  rw [opened] at declared ⊢
  rw [meets_bind, meets_get]
  cases found with
  | none =>
    cases superclass with
    | some _ => cases same
    | none =>
      have topmost : ∀ own, Class.superclass? ⟨own, []⟩ = none := fun _ => rfl
      refine (meets_completeClass topmost declared.fits insideDeclared unreserved bound
        insideDeclared.chain obey (insideDeclared.plain "super" (.inr rfl)) (by simp)).never.imp ?_
      rintro _ m₂ _ ⟨completed, insideCompleted⟩
      rw [again] at insideCompleted
      exact ⟨declared.trans completed, insideCompleted⟩
  | some cls =>
    cases superclass with
    | none => cases same
    | some reference =>
      have fitsClass : cls.Fits r.rules m₁.store := (fitsFound cls rfl).evolve declared.evolves
      have enclosed : Machine.Continues r none m₁ _ := .addFrame declared.fits (.single "super" _)
        (bindings_single_fits "super" (show (Value.class cls).Fits r.rules m₁.store from fitsClass))
      refine meets_bind.mpr ?_
      have below : ∀ own, Class.superclass? ⟨own, cls.own :: cls.inherited⟩ =
        some cls := fun _ => rfl
      refine (meets_completeClass below enclosed.fits (insideDeclared.follow enclosed) unreserved
        (enclosed.evolves.bound _ _ bound)
        (.frame (Store.holds_superScope m₁.store cls)
          (insideDeclared.chain.evolve enclosed.evolves))
        obey (by simp) (by rintro _ ⟨⟩; exact fitsClass.evolve enclosed.evolves)).never.imp ?_
      rintro _ m₂ _ ⟨completed, insideCompleted⟩
      rw [again] at insideCompleted
      exact ⟨(declared.trans enclosed.open').trans completed, insideCompleted⟩

end Declarations

/-! ## Control -/

section Control

variable {α : Type} {step : Eval α} {ok : α → Machine → Prop}
  {error : Interruption → Machine → Prop}

theorem meets_within {env : Env} :
    Meets (within env step) m ok error ↔
      Meets step { m with env := env } (fun a m' => ok a { m' with env := m.env })
        fun e m' => error e { m' with env := m.env } := by
  simp only [Meets, within]
  cases step { m with env := env } <;> rfl

theorem meets_counted {limit : Nat} :
    Meets (counted limit span step) m ok error ↔
      if limit ≤ m.callDepth then error (.fault ⟨.stackOverflow, span⟩) m
      else Meets step { m with callDepth := m.callDepth + 1 }
        (fun a m' => ok a { m' with callDepth := m'.callDepth - 1 })
        fun e m' => error e { m' with callDepth := m'.callDepth - 1 } := by
  simp only [Meets, counted]
  by_cases full : limit ≤ m.callDepth
  · rw [if_pos full, if_pos full]
    rfl
  · rw [if_neg full, if_neg full]
    cases step { m with callDepth := m.callDepth + 1 } <;> rfl

theorem meets_print {line : String} (fits : m.Fits r) :
    Meets (print line span) m (fun _ m' => m.Continues r none m')
      fun e m' => m' = m ∧ ¬e.IsLookupFault := by
  simp only [print, meets_bind, meets_get]
  split
  · exact ⟨⟨fits.table, fits.store⟩, rfl, rfl, .refl _⟩
  · exact ⟨rfl, not_false⟩

theorem meets_readClock (fits : m.Fits r) :
    Meets readClock m (fun _ m' => m.Continues r none m') fun _ _ => False :=
  ⟨⟨fits.table, fits.store⟩, rfl, rfl, .refl _⟩

end Control

end Eval

/-! ## Operators -/

/-- A value that holds no function, or a fault that is none of looking up a variable. -/
def IsCalculated : Except RuntimeError.Cause Value → Prop
  | .ok .nil | .ok (.bool _) | .ok (.number _) | .ok (.string _) => True
  | .ok _ => False
  | .error cause => ¬cause.IsLookup

theorem isCalculated_numbers {left right : Value}
    {f : Float × Float → Except RuntimeError.Cause Value}
    (calculated : ∀ pair, IsCalculated (f pair)) : IsCalculated ((numbers left right).bind f) := by
  unfold numbers
  split
  · exact calculated _
  · exact not_false

theorem BinaryOp.isCalculated_apply (op : BinaryOp) (left right : Value) :
    IsCalculated (op.apply left right) := by
  cases op with
  | add =>
    simp only [BinaryOp.apply]
    split
    · trivial
    · trivial
    · exact not_false
  | sub | mul | greater | greaterEqual | less | lessEqual =>
    exact isCalculated_numbers fun _ => trivial
  | div =>
    refine isCalculated_numbers fun (_, divisor) => ?_
    by_cases zero : (divisor == 0) = true
    · simp only [if_pos zero]
      exact not_false
    · simp only [if_neg zero]
      trivial
  | equal | notEqual => trivial

theorem UnaryOp.isCalculated_apply (op : UnaryOp) (operand : Value) :
    IsCalculated (op.apply operand) := by
  cases op with
  | not => trivial
  | negate =>
    simp only [UnaryOp.apply]
    split
    · trivial
    · exact not_false

theorem Eval.meets_ofCause (r : Resolution) {m : Machine} {span : Span}
    {result : Except RuntimeError.Cause Value} (calculated : IsCalculated result) :
    Meets (ofCause result span) m (fun value m' => m' = m ∧ value.Fits r.rules m.store)
      fun e m' => m' = m ∧ ¬e.IsLookupFault := by
  cases result with
  | error cause => exact ⟨rfl, calculated⟩
  | ok value =>
    refine ⟨rfl, ?_⟩
    cases value with
    | nil | bool | number | string | native => trivial
    | function | «class» | «instance» => exact calculated.elim

end Lox
