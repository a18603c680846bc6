import Lox.Proofs.Evaluation.Links
import Lox.Proofs.Session.Dispatch

set_option autoImplicit false

/-!
# Links in the course of a session

For all texts that are run in a session, whether they fail or not, there is one table of links.
Every moment and every state between the runs is linked by an initial segment of it, so a frame
never changes its place. Whatever is looked for by going outwards from an environment, or upwards
from a class, is found or missed after finitely many steps.
-/

namespace Lox.History

variable {h : History} {links links' : Links} {runs : List (Nat × String)}

/-- From one run to the next, links are only added, and they are good for all activities of the
run. -/
theorem exists_links_run (linked : h.session.machine.Linked links) (fuel : Nat) (source : String) :
    ∃ links', links <+: links' ∧ (h.run fuel source).session.machine.Linked links' ∧
      ∀ program depths nextId, Program.check source
        h.session.nextId = (.ok (program, depths), nextId) →
        ∀ a, (h.session.activity fuel program depths).Reaches callLimit a →
          a.Traced callLimit links' := by
  rcases checked :
    Program.check source h.session.nextId with ⟨diagnostics | ⟨program, depths⟩, nextId⟩
  · refine ⟨links, List.prefix_rfl, ?_, fun _ _ _ accepted => by cases accepted⟩
    rw [run, Session.run_of_refused checked]
    exact linked
  · have ready : (h.session.activity fuel program depths).machine.Linked links :=
      linked.moveTo rfl rfl linked.env
    obtain ⟨links', leaves, traced⟩ := Task.tracked callLimit fuel (.stmts program) trivial ready
    refine ⟨links', leaves.endState.grows.1, ?_, ?_⟩
    · rw [session_run_of_check checked]
      exact leaves.endState.linked.rest
    · rintro _ _ _ ⟨⟩ a reaches
      exact traced a reaches

/-- One table is good for all runs. The induction is on the runs, each of which goes on with the
links of those before it. -/
theorem exists_links_runAll (linked : h.session.machine.Linked links) (runs : List (Nat × String)) :
    ∃ links', links <+: links' ∧ (h.runAll runs).session.machine.Linked links' ∧
      (∀ before, before <+: runs → ∃ first, first <+: links' ∧
        (h.runAll before).session.machine.Linked first) ∧
      ∀ a, h.Occurs runs a → a.Traced callLimit links' := by
  induction runs generalizing h links with
  | nil =>
    refine ⟨links, List.prefix_rfl, linked, fun before front => ?_, fun a occurs => by cases occurs⟩
    obtain rfl := List.prefix_nil.mp front
    exact ⟨links, List.prefix_rfl, linked⟩
  | cons run rest inductionHypothesis =>
    obtain ⟨fuel, source⟩ := run
    obtain ⟨between, added, next, now⟩ := exists_links_run linked fuel source
    obtain ⟨links', more, last, states, later⟩ := inductionHypothesis next
    refine ⟨links', added.trans more, last, fun before front => ?_, fun a occurs => ?_⟩
    · rcases List.prefix_cons_iff.mp front with rfl | ⟨others, rfl, inner⟩
      · exact ⟨links, added.trans more, linked⟩
      · exact states others inner
    · cases occurs with
      | now checked reaches => exact (now _ _ _ checked a reaches).mono more
      | later occurs => exact later a occurs

/-- In a session there is one table of links, with a frame made earlier for each frame but the
global one. Every state between the runs is linked by an initial segment of it, whether or not the
runs fail, and so is every activity in which something is evaluated, when it starts and when it
ends: the current environment, those of all functions and methods, and all classes, whose
superclasses were made before them. Blocks, calls and methods that are tied to an instance get new
frames, with the link in the table. From an environment that follows the links, reading, writing and
counting outwards come to an end at the global frame at the latest. Looking for a method comes to an
end too, going from class to superclass. -/
theorem heap_wellFormed (clock : Clock) (output : Output) (runs : List (Nat × String)) :
    let h := start clock output
    ∃ links : Links, links.Earlier ∧ links.length + 1 = (h.runAll runs).store.frames.size ∧
      (∀ before, before <+: runs → ∃ first, first <+: links ∧
        (h.runAll before).session.machine.Linked first) ∧
      (∀ a, h.Occurs runs a → a.Traced callLimit links ∧
        ∀ m outer env, a.Opens callLimit m outer env → m.Gains links outer env) ∧
      (∀ first, first <+: links → ∀ env : Env, env.Follows first → env.Grounded links) ∧
      ∀ (cls : Class) (name : String),
        Searches Class.superclass? (fun c => c.own.methods.find? name) cls
          (cls.findMethod? name) := by
  intro h
  obtain ⟨links, _, last, states, traced⟩ :=
    exists_links_runAll (h := h) (Machine.linked_start clock output) runs
  refine ⟨links, last.earlier, last.size.symm, states, fun a occurs => ⟨traced a occurs, ?_⟩,
    fun first front env follows => (follows.mono front).grounded last.earlier, Class.searches⟩
  intro m outer env opens
  exact opens.gains (traced a occurs) fun b starts => traced b (occurs.starts starts)

/-- A text that fails in a block, behind one that declares a class with a superclass and an
initializer. In the block, the initializer is tied to an instance: with a frame inside the one for
`super`. -/
theorem heap_wellFormed_failing_run :
    let declaring := "class A \x7b\x7d class B < A \x7b init() \x7b\x7d \x7d"
    let failing := "\x7b B(); nil(); \x7d"
    let h := start ⟨fun _ => 0, 0⟩ {}
    let runs := [(60, declaring), (60, failing)]
    ((h.run 60 declaring).session.run 60 failing).1.outcome = .runtimeError ∧
    ∃ (links first : Links) (a : Activity) (m : Machine) (outer env : Env),
      links.length = 4 ∧ first <+: links ∧ (h.runAll runs).session.machine.Linked first ∧
      h.Occurs runs a ∧ a.Opens callLimit m outer env ∧ outer.frame = 1 ∧ env.frame = 3 ∧
      links.around? 3 = some 1 := by
  intro declaring failing h runs
  have failed : ((h.run 60 declaring).session.run 60 failing).1.outcome = .runtimeError := by
    decide +kernel
  have frames : (h.runAll runs).store.frames.size = 5 := by decide +kernel
  have found : ((Program.check failing (h.run 60 declaring).session.nextId).1.toOption.bind
    fun accepted =>
      (Activity.part? callLimit [0, 0, 0, 0, 2, 0]
        ((h.run 60 declaring).session.activity 60 accepted.1 accepted.2)).bind fun a =>
        a.task.instantiated?.bind fun cls => (a.parts callLimit)[0]?.map fun _ =>
          (cls.initializer?.map (·.closure.frame), a.machine.store.frames.size)) =
            some (some 1, 3) := by
    decide +kernel
  obtain ⟨⟨program, depths⟩, accepted, found⟩ := Option.bind_eq_some_iff.mp found
  obtain ⟨⟨fuel, task, m⟩, part, found⟩ := Option.bind_eq_some_iff.mp found
  obtain ⟨cls, instantiated, found⟩ := Option.bind_eq_some_iff.mp found
  obtain ⟨c, first, facts⟩ := Option.map_eq_some_iff.mp found
  obtain ⟨around, size⟩ := Prod.mk.inj facts
  obtain ⟨args, rfl⟩ := Task.exists_of_instantiated? instantiated
  have occurs : h.Occurs runs ⟨fuel, .instantiate cls args, m⟩ := by
    rcases checked : Program.check failing (h.run 60 declaring).session.nextId with
      ⟨errors | result, nextId⟩
    · rw [checked] at accepted
      cases accepted
    · rw [checked] at accepted
      cases accepted
      exact .later (.now checked (Activity.reaches_of_part? part))
  obtain ⟨links, _, length, states, moments, _⟩ := heap_wellFormed ⟨fun _ => 0, 0⟩ {} runs
  obtain ⟨segment, front, linked⟩ := states runs List.prefix_rfl
  cases Activity.mem_parts_iff.mp (List.mem_of_getElem? first) with
  | @initializer fuel m m' m'' cls args object method bound declared made tied =>
    have opens : Activity.Opens callLimit ⟨fuel + 1, .instantiate cls args, m⟩ m' method.closure
        bound.closure := Activity.Opens.initializer declared made tied
    have gains := (moments _ occurs).2 _ _ _ opens
    rw [declared] at around
    have outside : method.closure.frame = 1 := Option.some.inj around
    cases made
    have next : bound.closure.frame = 3 := gains.next.trans size
    have link := gains.link
    rw [next, outside] at link
    have count : links.length = 4 := Nat.succ.inj (length.trans frames)
    exact ⟨failed, links, segment, _, _, _, _, count, front, linked, occurs, opens,
      outside, next, link⟩

end Lox.History
