import Lox.Proofs.Evaluation.Activity

set_option autoImplicit false

/-!
# The parts of an activity

The activities that an activity starts, as a list that can be computed. They stand in the order in
which they are started. A moment of a run can so be pointed at: by the number of the part to follow,
at each level from the first activity inwards.
-/

namespace Lox.Activity

/-- What is started behind a step, if the step succeeds. -/
def behind {α : Type} (outcome : EStateM.Result Interruption Machine α)
    (started : α → Machine → List Activity) : List Activity :=
  match outcome with
  | .ok a m => started a m
  | .error .. => []

@[simp] theorem mem_behind {α : Type} {outcome : EStateM.Result Interruption Machine α}
    {started : α → Machine → List Activity} {b : Activity} :
    b ∈ behind outcome started ↔ ∃ a m, outcome = .ok a m ∧ b ∈ started a m := by
  cases outcome <;> simp [behind]

variable (limit fuel : Nat) (m : Machine)

def exprParts : Expr → List Activity
  | .literal .. | .ref _ | .this .. | .super .. => []
  | .assign _ _ inner | .unary _ _ _ inner | .group _ _ inner | .get _ inner _ =>
    [⟨fuel, .expr inner, m⟩]
  | .binary _ _ _ left right =>
    ⟨fuel, .expr left, m⟩ :: behind (Eval.expr limit fuel left m) fun _ m =>
      [⟨fuel, .expr right, m⟩]
  | .logical _ _ op left right =>
    ⟨fuel, .expr left, m⟩ :: behind (Eval.expr limit fuel left m) fun value m =>
      if op.isSettledBy value then [] else [⟨fuel, .expr right, m⟩]
  | .call _ span callee args =>
    ⟨fuel, .expr callee, m⟩ :: behind (Eval.expr limit fuel callee m) fun f m =>
      ⟨fuel, .exprs args, m⟩ :: behind (Eval.exprs limit fuel args m) fun values m =>
        if limit ≤ m.callDepth then []
        else [⟨fuel, .call f values span, { m with callDepth := m.callDepth + 1 }⟩]
  | .set _ object _ value =>
    ⟨fuel, .expr object, m⟩ :: behind (Eval.expr limit fuel object m) fun
      | .instance _, m => [⟨fuel, .expr value, m⟩]
      | _, _ => []

def stmtParts : Stmt → List Activity
  | .expr value | .print value | .var _ (some value) | .return _ (some value) =>
    [⟨fuel, .expr value, m⟩]
  | .var _ none | .fun _ | .return _ none | .class .. => []
  | .block body => behind (Eval.enclose m.env ∅ m) fun env m =>
      [⟨fuel, .stmts body, { m with env := env }⟩]
  | .if condition yes no =>
    ⟨fuel, .expr condition, m⟩ :: behind (Eval.expr limit fuel condition m) fun value m =>
      if value.isTruthy then [⟨fuel, .stmt yes, m⟩]
      else no.toList.map fun no => ⟨fuel, .stmt no, m⟩
  | .while condition body => [⟨fuel, .loop condition body, m⟩]

def callParts (callee : Value) (args : List Value) : List Activity :=
  match callee with
  | .function f => if f.arity = args.length then [⟨fuel, .apply f args, m⟩] else []
  | .class cls => if cls.arity = args.length then [⟨fuel, .instantiate cls args, m⟩] else []
  | _ => []

def taskParts : Task → List Activity
  | .expr e => exprParts limit fuel m e
  | .exprs [] => []
  | .exprs (e :: rest) =>
    ⟨fuel, .expr e, m⟩ :: behind (Eval.expr limit fuel e m) fun _ m => [⟨fuel, .exprs rest, m⟩]
  | .call callee args _ => callParts fuel m callee args
  | .apply f args => behind (Eval.enclose f.closure (f.bindArguments args) m) fun env m =>
      [⟨fuel, .stmts f.routine.body, { m with env := env }⟩]
  | .instantiate cls args => behind (Eval.newInstance cls m) fun object m =>
      match cls.initializer? with
      | some method => behind (Eval.bindMethod method object m) fun bound m =>
          [⟨fuel, .apply bound args, m⟩]
      | none => []
  | .stmt s => stmtParts limit fuel m s
  | .loop condition body =>
    ⟨fuel, .expr condition, m⟩ :: behind (Eval.expr limit fuel condition m) fun value m =>
      if value.isTruthy then
        ⟨fuel, .stmt body, m⟩ :: behind (Eval.stmt limit fuel body m) fun
          | .next, m => [⟨fuel, .loop condition body, m⟩]
          | .return _, _ => []
      else []
  | .stmts [] => []
  | .stmts (s :: rest) =>
    ⟨fuel, .stmt s, m⟩ :: behind (Eval.stmt limit fuel s m) fun
      | .next, m => [⟨fuel, .stmts rest, m⟩]
      | .return _, _ => []

/-- The activities that an activity starts. Without fuel it starts none. -/
def parts (limit : Nat) : Activity → List Activity
  | ⟨0, _, _⟩ => []
  | ⟨fuel + 1, task, m⟩ => taskParts limit fuel m task

variable {limit fuel : Nat} {m : Machine} {a b : Activity}

theorem starts_of_mem_exprParts {e : Expr} (member : b ∈ exprParts limit fuel m e) :
    Starts limit ⟨fuel + 1, .expr e, m⟩ b := by
  cases e with
  | literal | ref | this | super => cases member
  | assign | unary | group | get =>
    obtain rfl := List.mem_singleton.mp member
    constructor
  | binary id span op left right =>
    rcases List.mem_cons.mp member with rfl | behind
    · exact .binaryLeft
    · obtain ⟨value, m', first, member⟩ := mem_behind.mp behind
      obtain rfl := List.mem_singleton.mp member
      exact .binaryRight first
  | logical id span op left right =>
    rcases List.mem_cons.mp member with rfl | behind
    · exact .logicalLeft
    · obtain ⟨value, m', first, member⟩ := mem_behind.mp behind
      split at member
      · cases member
      · obtain rfl := List.mem_singleton.mp member
        exact .logicalRight first ‹_›
  | call id span callee args =>
    rcases List.mem_cons.mp member with rfl | behind
    · exact .callee
    · obtain ⟨f, m', first, member⟩ := mem_behind.mp behind
      rcases List.mem_cons.mp member with rfl | behind
      · exact .args first
      · obtain ⟨values, m'', second, member⟩ := mem_behind.mp behind
        split at member
        · cases member
        · obtain rfl := List.mem_singleton.mp member
          exact .call first second ‹_›
  | set id object name value =>
    rcases List.mem_cons.mp member with rfl | behind
    · exact .setObject
    · obtain ⟨found, m', first, member⟩ := mem_behind.mp behind
      cases found with
      | «instance» object =>
        obtain rfl := List.mem_singleton.mp member
        exact .setValue first
      | nil | bool | number | string | native | function | «class» => cases member

theorem starts_of_mem_stmtParts {s : Stmt} (member : b ∈ stmtParts limit fuel m s) :
    Starts limit ⟨fuel + 1, .stmt s, m⟩ b := by
  cases s with
  | «fun» | «class» => cases member
  | expr | print | «while» =>
    obtain rfl := List.mem_singleton.mp member
    constructor
  | var name initial | «return» keyword initial =>
    cases initial with
    | none => cases member
    | some =>
      obtain rfl := List.mem_singleton.mp member
      constructor
  | block body =>
    rw [stmtParts, mem_behind] at member
    obtain ⟨env, m', enclosed, member⟩ := member
    obtain rfl := List.mem_singleton.mp member
    exact .block enclosed
  | «if» condition yes no =>
    rcases List.mem_cons.mp member with rfl | behind
    · exact .condition
    · obtain ⟨value, m', first, member⟩ := mem_behind.mp behind
      split at member
      · obtain rfl := List.mem_singleton.mp member
        exact .yes first ‹_›
      · cases no with
        | none => cases member
        | some no =>
          obtain rfl := List.mem_singleton.mp member
          exact .no first ‹_›

theorem starts_of_mem_parts (member : b ∈ a.parts limit) : Starts limit a b := by
  obtain ⟨fuel, task, m⟩ := a
  cases fuel with
  | zero => cases member
  | succ fuel =>
    cases task with
    | expr e => exact starts_of_mem_exprParts member
    | stmt s => exact starts_of_mem_stmtParts member
    | exprs es =>
      cases es with
      | nil => cases member
      | cons e rest =>
        rcases List.mem_cons.mp member with rfl | behind
        · exact .firstExpr
        · obtain ⟨value, m', first, member⟩ := mem_behind.mp behind
          obtain rfl := List.mem_singleton.mp member
          exact .otherExprs first
    | call callee args span =>
      cases callee with
      | nil | bool | number | string | native | «instance» => cases member
      | function f =>
        change b ∈ ite _ _ _ at member
        split at member
        · obtain rfl := List.mem_singleton.mp member
          exact .apply ‹_›
        · cases member
      | «class» cls =>
        change b ∈ ite _ _ _ at member
        split at member
        · obtain rfl := List.mem_singleton.mp member
          exact .instantiate ‹_›
        · cases member
    | apply f args =>
      rw [parts, taskParts, mem_behind] at member
      obtain ⟨env, m', enclosed, member⟩ := member
      obtain rfl := List.mem_singleton.mp member
      exact .body enclosed
    | instantiate cls args =>
      rw [parts, taskParts, mem_behind] at member
      obtain ⟨object, m', made, member⟩ := member
      split at member
      · rename_i method declared
        obtain ⟨bound, m'', tied, member⟩ := mem_behind.mp member
        obtain rfl := List.mem_singleton.mp member
        exact .initializer declared made tied
      · cases member
    | loop condition body =>
      rcases List.mem_cons.mp member with rfl | behind
      · exact .loopCondition
      · obtain ⟨value, m', first, member⟩ := mem_behind.mp behind
        split at member
        · rename_i holds
          rcases List.mem_cons.mp member with rfl | behind
          · exact .loopBody first holds
          · obtain ⟨flow, m'', second, member⟩ := mem_behind.mp behind
            cases flow with
            | next =>
              obtain rfl := List.mem_singleton.mp member
              exact .loopAgain first holds second
            | «return» value => cases member
        · cases member
    | stmts body =>
      cases body with
      | nil => cases member
      | cons s rest =>
        rcases List.mem_cons.mp member with rfl | behind
        · exact .firstStmt
        · obtain ⟨flow, m', first, member⟩ := mem_behind.mp behind
          cases flow with
          | next =>
            obtain rfl := List.mem_singleton.mp member
            exact .otherStmts first
          | «return» value => cases member

theorem mem_parts_of_starts (starts : Starts limit a b) : b ∈ a.parts limit := by
  cases starts <;> simp_all [parts, taskParts, exprParts, stmtParts, callParts]

/-- The parts of an activity are the activities that it starts. -/
theorem mem_parts_iff : b ∈ a.parts limit ↔ Starts limit a b :=
  ⟨starts_of_mem_parts, mem_parts_of_starts⟩

/-- The activity that is reached by following the parts with the given numbers. -/
def part? (limit : Nat) : List Nat → Activity → Option Activity
  | [], a => some a
  | number :: path, a => (a.parts limit)[number]?.bind (part? limit path)

theorem reaches_of_part? {path : List Nat} (found : a.part? limit path = some b) :
    a.Reaches limit b := by
  induction path generalizing a with
  | nil =>
    obtain rfl := Option.some.inj found
    exact .refl
  | cons number path inductionHypothesis =>
    obtain ⟨part, there, found⟩ := Option.bind_eq_some_iff.mp found
    exact .head (starts_of_mem_parts (List.mem_of_getElem? there)) (inductionHypothesis found)

end Lox.Activity
