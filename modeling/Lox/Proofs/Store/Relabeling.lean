import Lox.Evaluation.Operators
import Lox.Proofs.Syntax.Relabeling
import Lox.Store.Access

set_option autoImplicit false

/-!
# Relabeled stores

A store holds parts of programs, in its functions. With other labels in those it is the same store
otherwise: what an operation on it yields is relabeled too, and so is the store behind it.
-/

namespace Lox

namespace Bindings

variable {α β : Type}

def map (f : α → β) (b : Bindings α) : Bindings β :=
  ⟨b.entries.map (Prod.map id f)⟩

variable (f : α → β) (b : Bindings α) (name : String)

@[simp] theorem map_empty : (∅ : Bindings α).map f = ∅ := rfl

@[simp] theorem find?_map : (b.map f).find? name = (b.find? name).map f := by
  obtain ⟨entries⟩ := b
  unfold map find?
  induction entries with
  | nil => rfl
  | cons entry rest inductionHypothesis =>
    obtain ⟨key, value⟩ := entry
    simp only [List.map_cons, Prod.map_apply, id_eq, List.lookup_cons]
    split
    · rfl
    · exact inductionHypothesis

@[simp] theorem contains_map : (b.map f).contains name = b.contains name := by
  rw [contains, find?_map, Option.isSome_map, contains]

theorem map_insert (value : α) : (b.insert name value).map f = (b.map f).insert name (f value) := by
  obtain ⟨entries⟩ := b
  unfold map insert
  congr 1
  induction entries with
  | nil => rfl
  | cons entry rest inductionHypothesis =>
    obtain ⟨key, old⟩ := entry
    simp only [insertEntry, List.map_cons, Prod.map_apply, id_eq]
    split
    · rfl
    · rw [List.map_cons, inductionHypothesis]
      rfl

theorem map_eq_self {f : α → α} (same : ∀ a, f a = a) (b : Bindings α) : b.map f = b := by
  have unchanged : f = id := funext same
  rw [map, unchanged, Prod.map_id, List.map_id]

end Bindings

/-! ## Values -/

def Function.relabel (r : Relabeling) (f : Function) : Function :=
  { f with routine := Stmt.relabelRoutine r f.routine }

def ClassLayer.relabel (r : Relabeling) (layer : ClassLayer) : ClassLayer :=
  { layer with methods := layer.methods.map (Function.relabel r) }

def Class.relabel (r : Relabeling) (cls : Class) : Class :=
  ⟨cls.own.relabel r, cls.inherited.map (ClassLayer.relabel r)⟩

def Instance.relabel (r : Relabeling) (object : Instance) : Instance :=
  { object with cls := object.cls.relabel r }

def Value.relabel (r : Relabeling) : Value → Value
  | .function f => .function (f.relabel r)
  | .class cls => .class (cls.relabel r)
  | .instance object => .instance (object.relabel r)
  | value => value

def Callable.relabel (r : Relabeling) : Callable → Callable
  | .native builtin => .native builtin
  | .function f => .function (f.relabel r)
  | .class cls => .class (cls.relabel r)

def RuntimeError.relabel (r : Relabeling) (error : RuntimeError) : RuntimeError :=
  ⟨error.cause, r.span error.span⟩

section Values

variable (r : Relabeling)

@[simp] theorem Function.name_relabel (f : Function) : (f.relabel r).name = f.name := by
  rw [Function.name, relabel, Stmt.relabelRoutine_name]
  rfl

@[simp] theorem Function.arity_relabel (f : Function) : (f.relabel r).arity = f.arity := by
  rw [Function.arity, relabel, Stmt.relabelRoutine_params, List.length_map]
  rfl

@[simp] theorem Class.findMethod?_relabel (cls : Class) (name : String) :
    (cls.relabel r).findMethod? name = (cls.findMethod? name).map (Function.relabel r) := by
  have layers : (cls.relabel r).own :: (cls.relabel r).inherited =
      (cls.own :: cls.inherited).map (ClassLayer.relabel r) := rfl
  unfold findMethod?
  rw [layers, List.findSome?_map]
  induction cls.own :: cls.inherited with
  | nil => rfl
  | cons layer rest inductionHypothesis =>
    rw [List.findSome?_cons, List.findSome?_cons, inductionHypothesis]
    simp only [Function.comp_apply, ClassLayer.relabel, Bindings.find?_map]
    cases layer.methods.find? name <;> rfl

@[simp] theorem Class.arity_relabel (cls : Class) : (cls.relabel r).arity = cls.arity := by
  unfold arity initializer?
  rw [findMethod?_relabel]
  cases cls.findMethod? "init" with
  | none => rfl
  | some method => exact method.arity_relabel r

@[simp] theorem Callable.arity_relabel (callable : Callable) :
    (callable.relabel r).arity = callable.arity := by
  cases callable with
  | native => rfl
  | function f => exact f.arity_relabel r
  | «class» cls => exact cls.arity_relabel r

namespace Value

@[simp] theorem relabel_literal (value : Literal) : value.value.relabel r = value.value := by
  cases value <;> rfl

@[simp] theorem isTruthy_relabel (value : Value) : (value.relabel r).isTruthy = value.isTruthy := by
  cases value <;> rfl

@[simp] theorem number?_relabel (value : Value) : (value.relabel r).number? = value.number? := by
  cases value <;> rfl

@[simp] theorem equals_relabel (left right : Value) :
    (left.relabel r).equals (right.relabel r) = left.equals right := by
  cases left <;> cases right <;> rfl

@[simp] theorem text_relabel (value : Value) : (value.relabel r).text = value.text := by
  cases value with
  | function f => simp only [relabel, text, Function.name_relabel]
  | nil | bool | number | string | native | «class» | «instance» => rfl

@[simp] theorem callable?_relabel (value : Value) :
    (value.relabel r).callable? = value.callable?.map (Callable.relabel r) := by
  cases value <;> rfl

end Value

/-! ## Operators -/

@[simp] theorem numbers_relabel (left right : Value) :
    numbers (left.relabel r) (right.relabel r) = numbers left right := by
  unfold numbers
  rw [Value.number?_relabel, Value.number?_relabel]

theorem BinaryOp.apply_relabel (op : BinaryOp) (left right : Value) :
    op.apply (left.relabel r) (right.relabel r) = (op.apply left right).map (Value.relabel r) := by
  cases op with
  | equal | notEqual =>
    rw [apply, Value.equals_relabel]
    rfl
  | add => cases left <;> cases right <;> rfl
  | sub | mul | greater | greaterEqual | less | lessEqual =>
    simp only [apply, numbers_relabel]
    cases numbers left right <;> rfl
  | div =>
    simp only [apply, numbers_relabel]
    cases numbers left right with
    | error cause => rfl
    | ok pair =>
      simp only [bind, Except.bind]
      split <;> rfl

theorem UnaryOp.apply_relabel (op : UnaryOp) (operand : Value) :
    op.apply (operand.relabel r) = (op.apply operand).map (Value.relabel r) := by
  cases op with
  | not =>
    rw [apply, Value.isTruthy_relabel]
    rfl
  | negate =>
    simp only [apply, Value.number?_relabel]
    cases operand.number? <;> rfl

theorem LogicalOp.isSettledBy_relabel (op : LogicalOp) (left : Value) :
    op.isSettledBy (left.relabel r) = op.isSettledBy left := by
  cases op <;> simp [isSettledBy]

end Values

/-! ## Stores -/

namespace Store

def relabel (r : Relabeling) (s : Store) : Store :=
  { s with
    frames := s.frames.map (Bindings.map (Value.relabel r))
    fields := s.fields.map (Bindings.map (Value.relabel r)) }

variable (r : Relabeling) (s : Store)

@[simp] theorem frame_relabel (id : FrameId) :
    (s.relabel r).frame id = (s.frame id).map (Value.relabel r) := by
  simp only [frame, relabel, Array.getD_eq_getD_getElem?, Array.getElem?_map]
  cases s.frames[id]? <;> rfl

@[simp] theorem fieldsOf_relabel (id : InstanceId) :
    (s.relabel r).fieldsOf id = (s.fieldsOf id).map (Value.relabel r) := by
  simp only [fieldsOf, relabel, Array.getD_eq_getD_getElem?, Array.getElem?_map]
  cases s.fields[id]? <;> rfl

theorem addFrame_relabel (bindings : Bindings Value) :
    (s.relabel r).addFrame (bindings.map (Value.relabel r)) = (s.addFrame bindings).relabel r := by
  simp only [addFrame, relabel, Array.map_push]

theorem addInstance_relabel : (s.relabel r).addInstance = s.addInstance.relabel r := by
  simp only [addInstance, relabel, Array.map_push, Bindings.map_empty]

/-- Binding a name in one of some things that bind names. -/
theorem map_modify_insert (all : Array (Bindings Value)) (id : Nat) (name : String)
    (value : Value) :
    (all.modify id (·.insert name value)).map (Bindings.map (Value.relabel r)) =
      (all.map (Bindings.map (Value.relabel r))).modify id (·.insert name (value.relabel r)) := by
  refine Array.ext_getElem? fun i => ?_
  rw [Array.getElem?_map, Array.getElem?_modify, Array.getElem?_modify, Array.getElem?_map]
  split
  · cases all[i]? with
    | none => rfl
    | some bindings => exact congrArg some (Bindings.map_insert ..)
  · rfl

theorem bind_relabel (id : FrameId) (name : String) (value : Value) :
    (s.relabel r).bind id name (value.relabel r) = (s.bind id name value).relabel r := by
  simp only [bind, relabel, map_modify_insert]

theorem setField_relabel (id : InstanceId) (name : String) (value : Value) :
    (s.relabel r).setField id name (value.relabel r) = (s.setField id name value).relabel r := by
  simp only [setField, relabel, map_modify_insert]

@[simp] theorem frameOf?_relabel (env : Env) (name : String) :
    (s.relabel r).frameOf? env name = s.frameOf? env name := by
  simp only [frameOf?, frame_relabel, Bindings.contains_map]

@[simp] theorem frameAt?_relabel (env : Env) (distance : Nat) (name : String) :
    (s.relabel r).frameAt? env distance name = s.frameAt? env distance name := by
  simp only [frameAt?, frame_relabel, Bindings.contains_map]

@[simp] theorem get?_relabel (env : Env) (name : String) :
    (s.relabel r).get? env name = (s.get? env name).map (Value.relabel r) := by
  simp only [get?, frame_relabel, Bindings.find?_map, List.map_findSome?]
  rfl

@[simp] theorem getAt?_relabel (env : Env) (distance : Nat) (name : String) :
    (s.relabel r).getAt? env distance name =
      (s.getAt? env distance name).map (Value.relabel r) := by
  simp only [getAt?, frame_relabel, Bindings.find?_map, Option.map_bind]
  rfl

end Store

/-! ## Labels that stay -/

section Fixed

variable {r : Relabeling}

/-- If labels stay in every routine, they stay in every store. -/
theorem Value.relabel_eq_self (same : ∀ routine, Stmt.relabelRoutine r routine = routine)
    (value : Value) : value.relabel r = value := by
  have functions (f : Function) : f.relabel r = f := by rw [Function.relabel, same]
  have layers (layer : ClassLayer) : layer.relabel r = layer := by
    rw [ClassLayer.relabel, Bindings.map_eq_self functions]
  have classes (cls : Class) : cls.relabel r = cls := by
    rw [Class.relabel, layers, funext (g := id) layers, List.map_id]
  cases value with
  | nil | bool | number | string | native => rfl
  | function f => exact congrArg Value.function (functions f)
  | «class» cls => exact congrArg Value.class (classes cls)
  | «instance» object => rw [relabel, Instance.relabel, classes]

theorem Store.relabel_eq_self (same : ∀ routine, Stmt.relabelRoutine r routine = routine)
    (s : Store) : s.relabel r = s := by
  have values : Bindings.map (Value.relabel r) = id :=
    funext (Bindings.map_eq_self (Value.relabel_eq_self same))
  rw [relabel, values, Array.map_id, Array.map_id]

end Fixed

end Lox
