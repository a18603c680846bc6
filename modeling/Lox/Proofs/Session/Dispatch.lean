import Lox.Proofs.Evaluation.Dispatch
import Lox.Proofs.Session.Numbers

set_option autoImplicit false

/-!
# Methods in a session

In a session, `this` and `super` mean the same wherever they stand in the body of a method that was
tied to an instance. It does not matter how the method was kept until it was called, or in which run
of the session that was. The reason is that the frames which bind them bind nothing else, and are
never written to.
-/

namespace Lox

namespace Task

def instantiated? : Task → Option Class
  | .instantiate cls _ => some cls
  | _ => none

def superMethod? : Task → Option Ident
  | .expr (.super _ _ method) => some method
  | _ => none

theorem exists_of_instantiated? {task : Task} {cls : Class}
    (found : task.instantiated? = some cls) :
    ∃ args, task = .instantiate cls args := by
  cases task with
  | instantiate other args =>
    cases found
    exact ⟨args, rfl⟩
  | expr | exprs | call | apply | stmt | loop | stmts => cases found

end Task

namespace History

variable {h : History} {runs : List (Nat × String)} {a : Activity} {s s' : Store}

/-- A store that some activity begins or ends with while the texts are run. -/
inductive Shows (h : History) (runs : List (Nat × String)) : Store → Prop where
  | before {a : Activity} : h.Occurs runs a → Shows h runs a.machine.store
  | after {a : Activity} : h.Occurs runs a → Shows h runs (a.endStore callLimit)

theorem Shows.setApart (shows : h.Shows runs s) (fits : h.session.Fits h.programs) (id : FrameId) :
    (s.frame id).SetApart := by
  cases shows with
  | before occurs =>
    obtain ⟨_, ⟨_, fitsMachine, _⟩, _⟩ := occurs.fits fits
    exact fitsMachine.store.apart id
  | after occurs =>
    obtain ⟨_, fitsHere, _⟩ := occurs.fits fits
    exact fitsHere.setApart_endStore callLimit id

theorem Shows.precedes (shows : h.Shows runs s) (fits : h.session.Fits h.programs) :
    s.Precedes (h.runAll runs).store := by
  cases shows with
  | before occurs =>
    obtain ⟨_, fitsHere, _, ends⟩ := occurs.fits fits
    exact (fitsHere.precedes_endStore callLimit).trans ends
  | after occurs =>
    obtain ⟨_, _, _, ends⟩ := occurs.fits fits
    exact ends

/-- Any two moments at which a frame is there agree about `this` and `super` in it. -/
theorem Shows.find?_eq (shows : h.Shows runs s) (shows' : h.Shows runs s')
    (fits : h.session.Fits h.programs) {id : FrameId} (allocated : id < s.frames.size)
    (allocated' : id < s'.frames.size) {name : String} (reserved : IsReserved name) :
    (s.frame id).find? name = (s'.frame id).find? name :=
  ((shows.precedes fits).reserved id allocated name reserved).symm.trans
    ((shows'.precedes fits).reserved id allocated' name reserved)

/-- In the body of a method that was obtained, `this` and `super` are settled by how it was
obtained. -/
theorem Occurs.refersTo {name : String} {cls : Class} {object : Instance} {f : Function}
    (occurs : h.Occurs runs a) (fits : h.session.Fits h.programs)
    (obtains : a.Obtains callLimit name cls object f) :
    ∃ home method, cls.Finds name home method ∧ f.routine = method.routine ∧
      ∀ b, Activity.RunsIn callLimit (h.Occurs runs) f b →
        b.RefersTo callLimit object home.superclass? := by
  obtain ⟨r, fitsHere, grows, ends⟩ := occurs.fits fits
  obtain ⟨home, method, finds, same, tied⟩ := obtains.finds fitsHere
  refine ⟨home, method, finds, same, fun b runsIn => ?_⟩
  have occursThere := runsIn.occurs Occurs.starts
  obtain ⟨r', fitsThere, growsThere, _⟩ := occursThere.fits fits
  exact runsIn.refersTo (tied.later grows.implies ends) fitsThere growsThere
    (Shows.precedes (.before occursThere) fits)

/-- Take a method that is obtained from an instance in a session, by access to a property, by access
through `super` or in making the instance. It is the first definition of its name from some class
upwards, and the class that has it was made by a declaration, with the superclass found then.
Wherever `this` stands in its body, it is the instance. Wherever `super` stands there, the first
definition of the name from that superclass upwards is tied to the instance, and without one it is a
fault. The body includes that of every function declared in it. A frame with `this` or `super` has
no other name, and it has the same value at any two moments. This is so as long as the expressions
of the session are numbered within 32 bits, where their words are all different. -/
theorem this_and_super_settled (clock : Clock) (output : Output) (runs : List (Nat × String))
    (inRange : ((start clock output).runAll runs).session.nextId ≤ UInt32.size) :
    let h := start clock output
    ((h.numbers runs).map UInt32.ofNat).Nodup ∧
    (∀ a, h.Occurs runs a → ∀ name cls object f, a.Obtains callLimit name cls object f →
      ∃ home method, cls.Finds name home method ∧ f.routine = method.routine ∧
        (∃ b, h.Occurs runs b ∧ b.Declares home) ∧
        ∀ b, Activity.RunsIn callLimit (h.Occurs runs) f b →
          b.RefersTo callLimit object home.superclass?) ∧
    ∀ s, h.Shows runs s → ∀ id, (s.frame id).SetApart ∧
      ∀ s', h.Shows runs s' → id < s.frames.size → id < s'.frames.size →
        ∀ name, IsReserved name → (s.frame id).find? name = (s'.frame id).find? name := by
  intro h
  have fits : h.session.Fits h.programs := Session.fits_start clock output
  refine ⟨words_nodup inRange, ?_, ?_⟩
  · intro a occurs name cls object f obtains
    obtain ⟨home, method, finds, same, refers⟩ := occurs.refersTo fits obtains
    have covers := h.declarations_covers runs
    have made := occurs.madeFrom covers (fun _ => trivial) (fun _ => id)
      (Machine.madeFrom_start clock output)
    have declared := (obtains.madeFrom covers occurs made home finds.derives).1
    exact ⟨home, method, finds, same, declared, refers⟩
  · intro s shows id
    refine ⟨shows.setApart fits id, fun s' shows' allocated allocated' name reserved => ?_⟩
    exact shows.find?_eq shows' fits allocated allocated' reserved

/-- An initializer that is inherited. Its `super` is the superclass of the class that has it,
although the variable of that superclass holds something else by then. -/
theorem this_and_super_settled_inherited :
    let source :=
      "class A \x7b m() \x7b\x7d \x7d " ++
      "class B < A \x7b init() \x7b \x7b super.m(); \x7d \x7d \x7d " ++
      "class C < B \x7b\x7d A = nil; C();"
    let h := start ⟨fun _ => 0, 0⟩ {}
    let runs := [(60, source)]
    ∃ (a b : Activity) (cls home superclass : Class) (object : Instance) (f : Function)
        (method : Ident),
      h.Occurs runs a ∧ a.Obtains callLimit "init" cls object f ∧ cls.own.name = "C" ∧
      Activity.RunsIn callLimit (h.Occurs runs) f b ∧ b.task.superMethod? = some method ∧
      home.own.name = "B" ∧ home.superclass? = some superclass ∧ superclass.own.name = "A" ∧
      b.RefersTo callLimit object (some superclass) ∧
      (h.runAll runs).session.nextId ≤ UInt32.size ∧
      h.Shows runs b.machine.store ∧ ∀ id, (b.machine.store.frame id).SetApart := by
  intro source h runs
  have inRange : (h.runAll runs).session.nextId ≤ UInt32.size := by decide +kernel
  have found : ((Program.check source h.session.nextId).1.toOption.bind fun accepted =>
      (Activity.part? callLimit [1, 1, 1, 1, 0, 0, 2, 0]
        (h.session.activity 60 accepted.1 accepted.2)).bind fun a =>
        a.task.instantiated?.bind fun cls => (a.parts callLimit)[0]?.bind fun c =>
          (c.parts callLimit)[0]?.bind fun body =>
            (body.textPart? callLimit [0, 0, 0, 0, 0]).bind fun b =>
              b.task.superMethod?.bind fun method => cls.superclass?.bind fun above =>
                above.superclass?.map fun top =>
                  (cls.own.methods.find? "init").isNone &&
                    (above.own.methods.find? "init").isSome &&
                    [cls.own.name, above.own.name, top.own.name] == ["C", "B", "A"]) =
                    some true := by
    decide +kernel
  obtain ⟨⟨program, depths⟩, accepted, found⟩ := Option.bind_eq_some_iff.mp found
  obtain ⟨⟨fuel, task, m⟩, part, found⟩ := Option.bind_eq_some_iff.mp found
  obtain ⟨cls, instantiated, found⟩ := Option.bind_eq_some_iff.mp found
  obtain ⟨c, first, found⟩ := Option.bind_eq_some_iff.mp found
  obtain ⟨body, second, found⟩ := Option.bind_eq_some_iff.mp found
  obtain ⟨b, text, found⟩ := Option.bind_eq_some_iff.mp found
  obtain ⟨method, super, found⟩ := Option.bind_eq_some_iff.mp found
  obtain ⟨above, superclass, found⟩ := Option.bind_eq_some_iff.mp found
  obtain ⟨top, superclassAbove, facts⟩ := Option.map_eq_some_iff.mp found
  simp only [Bool.and_eq_true, Option.isNone_iff_eq_none, beq_iff_eq, List.cons.injEq] at facts
  obtain ⟨⟨missing, present⟩, nameC, nameB, nameA, -⟩ := facts
  obtain ⟨args, rfl⟩ := Task.exists_of_instantiated? instantiated
  have occurs : h.Occurs runs ⟨fuel, .instantiate cls args, m⟩ := by
    rcases checked : Program.check source h.session.nextId with ⟨errors | result, nextId⟩
    · rw [checked] at accepted
      cases accepted
    · rw [checked] at accepted
      cases accepted
      exact .now checked (Activity.reaches_of_part? part)
  have starts := Activity.mem_parts_iff.mp (List.mem_of_getElem? first)
  have startsBody := Activity.mem_parts_iff.mp (List.mem_of_getElem? second)
  have occursCall := occurs.starts starts
  cases starts with
  | @initializer fuel m m' m'' cls args object initializer f declared made tied =>
    have obtains : Activity.Obtains callLimit ⟨fuel + 1, .instantiate cls args, m⟩ "init"
        cls object f :=
      .initializer declared made tied
    have runsIn := (Activity.RunsIn.body occursCall startsBody).textPart? text
    have shows : h.Shows runs b.machine.store := .before (runsIn.occurs Occurs.starts)
    obtain ⟨_, dispatch, frames⟩ := this_and_super_settled ⟨fun _ => 0, 0⟩ {} runs inRange
    obtain ⟨home, _, finds, _, _, refers⟩ := dispatch _ occurs _ _ _ _ obtains
    have atB : home = above := by
      cases finds with
      | own here => simp [missing] at here
      | inherited _ next rest =>
        cases superclass.symm.trans next
        cases rest with
        | own => rfl
        | inherited absent => simp [absent] at present
    subst atB
    have refersB := refers b runsIn
    rw [superclassAbove] at refersB
    exact ⟨_, b, cls, home, top, object, f, method, occurs, obtains, nameC, runsIn, super, nameB,
      superclassAbove, nameA, refersB, inRange, shows, fun id => (frames _ shows id).1⟩

end History

end Lox
