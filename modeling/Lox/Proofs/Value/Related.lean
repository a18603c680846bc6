import Lox.Evaluation.Operators
import Lox.Proofs.Syntax.Similar

set_option autoImplicit false

/-!
# Related values

Values that differ at most in the functions that they are or have as methods. How these differ is a
parameter: one relation for functions, and one for methods that are not tied to an instance. If
related functions have one identity, one name and as many parameters, nothing that an operator does
with a value, and nothing that can be printed, tells related values apart.
-/

namespace Lox

/-- One more thing under one name, on both sides. -/
theorem optionRel_insert {α β : Type} {related : α → β → Prop} {bindings : Bindings α}
    {bindings' : Bindings β} {key : String}
    (known : Option.Rel related (bindings.find? key) (bindings'.find? key)) (name : String)
    {a : α} {b : β} (here : related a b) :
    Option.Rel related ((bindings.insert name a).find? key)
      ((bindings'.insert name b).find? key) := by
  rw [Bindings.find?_insert, Bindings.find?_insert]
  split
  · exact .some here
  · exact known

structure ClassLayer.Related (methods : Function → Function → Prop) (layer layer' : ClassLayer) :
    Prop where
  identity : layer'.identity = layer.identity
  name : layer'.name = layer.name
  methods : ∀ name, Option.Rel methods (layer.methods.find? name) (layer'.methods.find? name)

def Class.Related (methods : Function → Function → Prop) (cls cls' : Class) : Prop :=
  List.Forall₂ (ClassLayer.Related methods) (cls.own :: cls.inherited) (cls'.own :: cls'.inherited)

structure Instance.Related (methods : Function → Function → Prop) (object object' : Instance) :
    Prop where
  id : object'.id = object.id
  cls : object.cls.Related methods object'.cls

inductive Value.Related (functions methods : Function → Function → Prop) :
    Value → Value → Prop where
  | nil : Related functions methods .nil .nil
  | bool (value : Bool) : Related functions methods (.bool value) (.bool value)
  | number (value : Float) : Related functions methods (.number value) (.number value)
  | string (value : String) : Related functions methods (.string value) (.string value)
  | native (builtin : Builtin) : Related functions methods (.native builtin) (.native builtin)
  | function {f f' : Function} :
    functions f f' → Related functions methods (.function f) (.function f')
  | class {cls cls' : Class} :
    cls.Related methods cls' → Related functions methods (.class cls) (.class cls')
  | instance {object object' : Instance} :
    object.Related methods object' → Related functions methods (.instance object)
    (.instance object')

section Mono

variable {functions functions' methods methods' : Function → Function → Prop}

theorem ClassLayer.Related.mono (implied : ∀ f f', methods f f' → methods' f f')
    {layer layer' : ClassLayer} (related : layer.Related methods layer') :
    layer.Related methods' layer' :=
  { related with methods := fun name => optionRel_imp implied (related.methods name) }

theorem Class.Related.mono (implied : ∀ f f', methods f f' → methods' f f') {cls cls' : Class}
    (related : cls.Related methods cls') : cls.Related methods' cls' :=
  List.Forall₂.imp (fun _ _ layers => layers.mono implied) related

theorem Instance.Related.mono (implied : ∀ f f', methods f f' → methods' f f')
    {object object' : Instance} (related : object.Related methods object') :
    object.Related methods' object' :=
  ⟨related.id, related.cls.mono implied⟩

theorem Value.Related.mono (implied : ∀ f f', functions f f' → functions' f f')
    (impliedOfMethods : ∀ f f', methods f f' → methods' f f') {v v' : Value}
    (related : v.Related functions methods v') : v.Related functions' methods' v' := by
  cases related with
  | nil => exact .nil
  | bool value => exact .bool value
  | number value => exact .number value
  | string value => exact .string value
  | native builtin => exact .native builtin
  | function related => exact .function (implied _ _ related)
  | «class» related => exact .class (related.mono impliedOfMethods)
  | «instance» related => exact .instance (related.mono impliedOfMethods)

theorem Class.Related.own {cls cls' : Class} (related : cls.Related methods cls') :
    cls.own.Related methods cls'.own := by
  cases related with
  | cons own _ => exact own

theorem Class.Related.findMethod? {cls cls' : Class} (related : cls.Related methods cls')
    (name : String) : Option.Rel methods (cls.findMethod? name) (cls'.findMethod? name) :=
  optionRel_findSome? (fun _ _ layers => layers.methods name) related

end Mono

/-! ## Values that look alike -/

structure Function.Alike (f f' : Function) : Prop where
  identity : f'.identity = f.identity
  name : f'.name = f.name
  arity : f'.arity = f.arity

abbrev Class.Alike : Class → Class → Prop :=
  Class.Related Function.Alike

abbrev Value.Alike : Value → Value → Prop :=
  Value.Related Function.Alike Function.Alike

section Alike

variable {v v' w w' : Value}

theorem Class.Related.arity {cls cls' : Class} (alike : cls.Alike cls') :
    cls'.arity = cls.arity := by
  have method := alike.findMethod? "init"
  unfold Class.arity Class.initializer?
  generalize cls.findMethod? "init" = found, cls'.findMethod? "init" = found' at method
  cases method with
  | some method => exact method.arity
  | none => rfl

/-- A relation between functions, at all times of two runs. It stays, and only a call tells the
functions apart. -/
class Function.Lasting {ω : Type} (related : List ω → Function → Function → Prop) : Prop where
  later {world world' : List ω} {f f' : Function} :
    related world f f' → world <+: world' → related world' f f'
  alike {world : List ω} {f f' : Function} : related world f f' → f.Alike f'

section Lasting

variable {ω : Type} {functions methods : List ω → Function → Function → Prop}
  {world world' : List ω}
  [Function.Lasting functions] [Function.Lasting methods]

theorem Class.Related.later {cls cls' : Class} (related : cls.Related (methods world) cls')
    (later : world <+: world') : cls.Related (methods world') cls' :=
  related.mono fun _ _ methods => Function.Lasting.later methods later

theorem Class.Related.alike {cls cls' : Class} (related : cls.Related (methods world) cls') :
    cls.Alike cls' :=
  related.mono fun _ _ => Function.Lasting.alike

theorem Instance.Related.later {object object' : Instance}
    (related : object.Related (methods world) object') (later : world <+: world') :
    object.Related (methods world') object' :=
  ⟨related.id, related.cls.later later⟩

theorem Value.Related.later (related : v.Related (functions world) (methods world) v')
    (later : world <+: world') : v.Related (functions world') (methods world') v' :=
  related.mono (fun _ _ functions => Function.Lasting.later functions later) fun _ _ methods =>
    Function.Lasting.later methods later

theorem Value.Related.alike (related : v.Related (functions world) (methods world) v') :
    v.Alike v' :=
  related.mono (fun _ _ => Function.Lasting.alike) fun _ _ => Function.Lasting.alike

end Lasting

namespace Value.Related

theorem isTruthy (alike : v.Alike v') : v'.isTruthy = v.isTruthy := by
  cases alike <;> rfl

theorem number? (alike : v.Alike v') : v'.number? = v.number? := by
  cases alike <;> rfl

theorem text (alike : v.Alike v') : v'.text = v.text := by
  cases alike with
  | function alike => simp only [Value.text, alike.name]
  | «class» alike => exact alike.own.name
  | «instance» alike => simp only [Value.text, Class.name, alike.cls.own.name]
  | nil | bool | number | string | native => rfl

theorem equals (first : v.Alike v') (second : w.Alike w') : v'.equals w' = v.equals w := by
  cases first with
  | function first =>
    cases second with
    | function second => simp only [Value.equals, first.identity, second.identity]
    | _ => rfl
  | «class» first =>
    cases second with
    | «class» second => simp only [Value.equals, first.own.identity, second.own.identity]
    | _ => rfl
  | «instance» first =>
    cases second with
    | «instance» second => simp only [Value.equals, first.id, second.id]
    | _ => rfl
  | nil | bool | number | string | native => cases second <;> rfl

end Value.Related

theorem BinaryOp.apply_eq_of_alike (op : BinaryOp) (left : v.Alike v') (right : w.Alike w') :
    op.apply v' w' = op.apply v w := by
  cases op with
  | equal | notEqual => simp only [BinaryOp.apply, left.equals right]
  | add => cases left <;> cases right <;> rfl
  | sub | mul | div | greater | greaterEqual | less | lessEqual =>
    simp only [BinaryOp.apply, numbers, left.number?, right.number?]

theorem UnaryOp.apply_eq_of_alike (op : UnaryOp) (operand : v.Alike v') :
    op.apply v' = op.apply v := by
  cases op with
  | not => simp only [UnaryOp.apply, operand.isTruthy]
  | negate => simp only [UnaryOp.apply, operand.number?]

theorem LogicalOp.isSettledBy_eq_of_alike (op : LogicalOp) (left : v.Alike v') :
    op.isSettledBy v' = op.isSettledBy v := by
  cases op <;> simp only [LogicalOp.isSettledBy, left.isTruthy]

end Alike

end Lox
