import Lox.Proofs.Session.Faults
import Lox.Proofs.Session.Resting

set_option autoImplicit false

/-!
# Texts that are joined

A session that runs one text and then another one does what it does when it runs both as one text,
with a line feed between them. The second text gets the same numbers and the same depths. If the
first one fails, nothing of the second is executed. A fault has the same cause; if it lies in the
second text, its place is moved to where the second text stands in the joined one.
-/

namespace Lox

/-! ## Joined texts are accepted -/

namespace Program

def Accepts (source : String) : Prop :=
  ∃ program depths nextId, check source 0 = (.ok (program, depths), nextId)

theorem accepts_iff {source : String} : Accepts source ↔ (check source 0).1.isOk = true := by
  unfold Accepts
  cases check source 0 with
  | mk outcome nextId =>
    cases outcome with
    | error diagnostics => simp [Except.isOk, Except.toBool]
    | ok found => exact ⟨fun _ => rfl, fun _ => ⟨found.1, found.2, nextId, rfl⟩⟩

instance (source : String) : Decidable (Accepts source) :=
  decidable_of_iff _ accepts_iff.symm

/-- It does not matter for this from which number on expressions are numbered. -/
theorem Accepts.check {source : String} (accepts : Accepts source) (firstId : ExprId) :
    ∃ program depths nextId, check source firstId = (.ok (program, depths), nextId) := by
  obtain ⟨program, depths, nextId, checked⟩ := accepts
  have shifted (k : Nat) : Shifted 0 firstId (0 + k) (firstId + k) := .inr ⟨k, rfl, rfl⟩
  have similar := check_similar (lawful_shifted (Nat.zero_le firstId)) source shifted
  rw [checked] at similar
  generalize Program.check source firstId = result at similar
  cases similar with
  | ok => exact ⟨_, _, _, rfl⟩

theorem check_join {first second : String} {firstId nextId lastId : ExprId}
    {program program' : Program} {depths depths' : Depths}
    (checked : check first firstId = (.ok (program, depths), nextId))
    (checkedSecond : check second nextId = (.ok (program', depths'), lastId)) :
    check (first ++ "\n" ++ second) firstId =
      (.ok (program ++ program'.relabel (.spans (Span.behind first)), depths.merge depths'),
        lastId) := by
  obtain ⟨tokens, scanned, parsed, accepted⟩ := check_eq_ok_iff.mp checked
  obtain ⟨others, scannedOthers, parsedOthers, acceptedSecond⟩ := check_eq_ok_iff.mp checkedSecond
  exact check_eq_ok_iff.mpr ⟨_, Token.tokenize_join scanned scannedOthers,
    parse_append parsed (parse_respan _ parsedOthers), resolve_append accepted acceptedSecond _⟩

end Program

/-! ## The second text at another place

The two executions of the second text are compared with a third one, of a program whose spans are no
spans of tokens. From those, the spans at the one place and at the other can be told. -/

namespace Span

/-- A span that no token has. -/
def reversed (span : Span) : Span :=
  ⟨span.stop + 1, span.start, span.line, span.column⟩

/-- Reversed spans are replaced, and proper ones are not. -/
def restored (f : Span → Span) (span : Span) : Span :=
  if span.start ≤ span.stop then span else f ⟨span.stop, span.start - 1, span.line, span.column⟩

theorem restored_of_isProper (f : Span → Span) (span : Span) (proper : span.IsProper) :
    span.restored f = span :=
  if_pos proper

theorem restored_reversed (f : Span → Span) {span : Span} (proper : span.IsProper) :
    span.reversed.restored f = f span := by
  unfold IsProper at proper
  rw [restored, reversed, if_neg (by dsimp only; omega)]
  rfl

theorem restored_eq (f : Span → Span) (span : Span) :
    span.restored f = span.restored (fun span => span) ∨
      span.restored f = f (span.restored fun span => span) := by
  unfold restored
  split
  · exact .inl rfl
  · exact .inr rfl

end Span

theorem Program.relabel_restored {source : String} {firstId nextId : ExprId} {program : Program}
    {depths : Depths} (checked : Program.check source firstId = (.ok (program, depths), nextId))
    (f : Span → Span) :
    (program.relabel (.spans Span.reversed)).relabel (.spans (Span.restored f)) =
      program.relabel (.spans f) := by
  obtain ⟨tokens, scanned, parsed, -⟩ := check_eq_ok_iff.mp checked
  have tokensAgain : (tokens.map (Token.respan Span.reversed)).map
    (Token.respan (Span.restored f)) =
      tokens.map (Token.respan f) := by
    rw [List.map_map]
    refine List.map_congr_left fun token member => ?_
    have proper := Token.isProper_of_tokenize scanned token member
    exact congrArg (Token.mk token.kind token.lexeme) (Span.restored_reversed f proper)
  have twice := parse_respan (Span.restored f) (parse_respan Span.reversed parsed)
  rw [tokensAgain, parse_respan f parsed] at twice
  simpa only [Parsed.mk.injEq, Except.ok.injEq, and_true] using twice.symm

/-- Faults with one cause, whose places are the same or moved. -/
def RuntimeError.Displaced (f : Span → Span) (error error' : RuntimeError) : Prop :=
  error'.cause = error.cause ∧ (error'.span = error.span ∨ error'.span = f error.span)

inductive Interruption.Displaced (f : Span → Span) : Interruption → Interruption → Prop where
  | fault {error error' : RuntimeError} :
    error.Displaced f error' → Displaced f (.fault error) (.fault error')
  | outOfFuel : Displaced f .outOfFuel .outOfFuel

theorem Interruption.displaced_relabel (f : Span → Span) (e : Interruption) :
    Displaced f (e.relabel (.spans (Span.restored fun span => span)))
      (e.relabel (.spans (Span.restored f))) := by
  cases e with
  | fault error => exact .fault ⟨rfl, Span.restored_eq f error.span⟩
  | outOfFuel => exact .outOfFuel

/-- Outcomes of statements of which the second ones stand at another place. The stores may differ in
spans. -/
inductive Displaced (f : Span → Span) : EStateM.Result Interruption Machine Flow →
    EStateM.Result Interruption Machine Flow → Prop where
  | ok {flow flow' : Flow} {m : Machine} (store : Store) :
    Displaced f (.ok flow m) (.ok flow' { m with store := store })
  | error {e e' : Interruption} {m : Machine} (store : Store) :
    e.Displaced f e' → Displaced f (.error e m) (.error e' { m with store := store })

section Place

variable {source : String} {firstId nextId : ExprId} {program : Program} {depths : Depths}
variable {m : Machine}

/-- The execution of the third program tells that of the program at each place. -/
theorem Eval.stmts_restored
    (checked : Program.check source firstId = (.ok (program, depths), nextId))
    (labels : ∀ f : Span → Span, (∀ span, span.IsProper → f span = span) →
      m.store.relabel (.spans f) = m.store) (limit fuel : Nat) (f : Span → Span) :
    Eval.stmts limit fuel (program.relabel (.spans f)) m =
      respanOutcome (Span.restored f)
        (Eval.stmts limit fuel (program.relabel (.spans Span.reversed)) m) := by
  have moved := stmts_respan (Span.restored f) limit fuel (program.relabel (.spans Span.reversed)) m
  have machine : m.respan (Span.restored f) = m := by
    rw [Machine.respan, labels _ (Span.restored_of_isProper f)]
  rw [machine] at moved
  rw [← Program.relabel_restored checked f]
  exact moved

/-- Statements at another place do the same, and what they fail with lies there if it lies in
them. -/
theorem displaced_stmts (checked : Program.check source firstId = (.ok (program, depths), nextId))
    (labels : ∀ f : Span → Span, (∀ span, span.IsProper → f span = span) →
      m.store.relabel (.spans f) = m.store) (limit fuel : Nat) (f : Span → Span) :
    Displaced f (Eval.stmts limit fuel program m)
      (Eval.stmts limit fuel (program.relabel (.spans f)) m) := by
  have here := Eval.stmts_restored checked labels limit fuel fun span => span
  have there := Eval.stmts_restored checked labels limit fuel f
  have same : program.relabel (.spans fun span => span) = program :=
    Stmt.relabelAll_eq_self (fun _ => rfl) program fun _ _ => rfl
  rw [same] at here
  rw [here, there]
  cases Eval.stmts limit fuel (program.relabel (.spans Span.reversed)) m with
  | ok flow m' => exact .ok _
  | error e m' => exact .error _ (e.displaced_relabel f)

end Place

/-! ## The first text with more depths -/

theorem Depths.merge_assoc (first second third : Depths) :
    (first.merge second).merge third = first.merge (second.merge third) := by
  refine Std.ExtTreeMap.ext_getElem? fun {i} => ?_
  rw [getElem?_merge, getElem?_merge, getElem?_merge, getElem?_merge, Option.or_assoc]

namespace Session

section Before

variable {s : Session} {source : String} {program : Program} {depths later : Depths}
variable {nextId lastId : ExprId}

/-- Numbers that were not handed out are replaced by such as will not be handed out to the second
text. -/
theorem spares_past (nextId lastId : ExprId) :
    (Relabeling.numbers fun i => if i < nextId then i else max i lastId).Spares nextId := by
  refine .numbers (fun i small => if_pos small) fun i large => ?_
  rw [if_neg (not_lt.mpr large)]
  exact large.trans (le_max_left ..)

/-- The execution of an accepted text, with depths for numbers that come later. -/
def Resting.rerunBefore (resting : s.Resting)
    (checked : Program.check source s.nextId = (.ok (program, depths), nextId))
    (others : ∀ i, i < nextId ∨ lastId ≤ i → later[i]? = none) : Rerun where
  labels := .numbers fun i => if i < nextId then i else max i lastId
  before := s.machine.depths.merge depths
  after := (s.machine.depths.merge depths).merge later
  entries := fun i => by
    have same := (spares_past nextId lastId).entries (resting.entries_merge checked) i
    dsimp only [Relabeling.numbers] at same ⊢
    rw [Depths.getElem?_merge, same, others, Option.none_or]
    split
    · exact .inl ‹_›
    · exact .inr (le_max_right ..)
  longer := False

/-- What an accepted text does, it does with depths for later numbers too. -/
theorem Resting.stmts_before (resting : s.Resting)
    (checked : Program.check source s.nextId = (.ok (program, depths), nextId))
    (others : ∀ i, i < nextId ∨ lastId ≤ i → later[i]? = none) (fuel : Nat) :
    Meets (Eval.stmts callLimit fuel program)
      { s.machine with depths := s.machine.depths.merge depths }
      (fun _ m => Eval.stmts callLimit fuel program
        { s.machine with depths := (s.machine.depths.merge depths).merge later } =
          .ok .next { m with depths := (s.machine.depths.merge depths).merge later })
      fun e m => Eval.stmts callLimit fuel program
        { s.machine with depths := (s.machine.depths.merge depths).merge later } =
          .error e { m with depths := (s.machine.depths.merge depths).merge later } := by
  have spares := spares_past nextId lastId
  have repeated := resting.repeats checked (c := resting.rerunBefore checked others) spares rfl fuel
  have left := resting.rest checked fuel
  have goesOn := (Eval.goesOn callLimit fuel).2.2 program
    (Program.not_returnsAny_of_resolve (Program.check_ok checked).2.2)
  have again {m : Machine} (resting' : (({ s with nextId := nextId } : Session).rest m).Resting) :
      m.again (resting.rerunBefore checked others) =
        { m with depths := (s.machine.depths.merge depths).merge later } := by
    have store : m.store.relabel _ = m.store := resting'.labels _ spares
    rw [Machine.again, rerunBefore, store]
  rw [meets_iff]
  constructor
  · intro flow m result
    cases goesOn _ _ _ result
    rw [result, Rerun.Repeats.ok_iff, again (left.ok_of_eq result)] at repeated
    exact repeated.2
  · intro e m failure
    rw [failure, Rerun.Repeats.error_iff not_false, again (left.error_of_eq failure)] at repeated
    refine repeated.2.trans ?_
    cases e <;> rfl

/-- The statements of a text before others: they are done first, and the others only if they
succeed. -/
theorem Resting.stmts_join (resting : s.Resting)
    (checked : Program.check source s.nextId = (.ok (program, depths), nextId))
    (others : ∀ i, i < nextId ∨ lastId ≤ i → later[i]? = none) (rest : List Stmt) (more : Nat) :
    Meets (Eval.stmts callLimit (program.length + (more + 1)) program)
      { s.machine with depths := s.machine.depths.merge depths }
      (fun _ m => Eval.stmts callLimit (program.length + (more + 1)) (program ++ rest)
        { s.machine with depths := (s.machine.depths.merge depths).merge later } =
          Eval.stmts callLimit (more + 1) rest
            { m with depths := (s.machine.depths.merge depths).merge later })
      fun e m => Eval.stmts callLimit (program.length + (more + 1)) (program ++ rest)
        { s.machine with depths := (s.machine.depths.merge depths).merge later } =
          .error e { m with depths := (s.machine.depths.merge depths).merge later } := by
  rw [Eval.stmts_append]
  exact (resting.stmts_before checked others _).mono (fun _ _ _ same => bind_of_ok same)
    fun _ _ _ same => bind_of_error same

end Before

end Session

/-! ## Runs of joined texts -/

/-- Reports on a text at one place and at another. -/
inductive Report.Displaced (f : Span → Span) : Report → Report → Prop where
  | ok : Displaced f ⟨.ok, []⟩ ⟨.ok, []⟩
  | fault {error error' : RuntimeError} : error.Displaced f error' →
    Displaced f ⟨.runtimeError, [.runtime error]⟩ ⟨.runtimeError, [.runtime error']⟩
  | unfinished : Displaced f ⟨.unfinished, []⟩ ⟨.unfinished, []⟩

theorem Report.Displaced.outcome {f : Span → Span} {report report' : Report}
    (displaced : report.Displaced f report') : report'.outcome = report.outcome := by
  cases displaced <;> rfl

theorem Interruption.Displaced.report {f : Span → Span} {e e' : Interruption}
    (displaced : e.Displaced f e') : e.report.Displaced f e'.report := by
  cases displaced with
  | fault errors => exact .fault errors
  | outOfFuel => exact .unfinished

namespace Session

section Runs

variable {s : Session} {source : String} {program : Program} {depths : Depths} {nextId : ExprId}
variable {fuel fuel' : Nat}

/-- A run that ends with some bound on the recursion ends in the same way with every larger one. -/
theorem run_of_le (le : fuel ≤ fuel') (finished : (s.run fuel source).1.outcome ≠ .unfinished) :
    s.run fuel' source = s.run fuel source := by
  rcases checked : Program.check source s.nextId with ⟨diagnostics | ⟨program, depths⟩, nextId⟩
  · rw [run_of_refused checked, run_of_refused checked]
  · rw [run_of_check checked] at finished
    rw [run_of_check checked, run_of_check checked, Eval.stmts_of_le le]
    rintro ⟨m, failure⟩
    rw [failure] at finished
    exact finished rfl

/-- A run adds to what was written. -/
theorem run_writes (fuel : Nat) (source : String) (s : Session) : ∃ text,
    (s.run fuel source).2.machine.output.text = s.machine.output.text ++ text := by
  rcases checked : Program.check source s.nextId with ⟨diagnostics | ⟨program, depths⟩, nextId⟩
  · rw [run_of_refused checked]
    exact ⟨"", by rw [String.append_empty]⟩
  · rw [run_of_check checked]
    have kept := Eval.stmts_keeps callLimit fuel program
      { s.machine with depths := s.machine.depths.merge depths }
    cases outcome : Eval.stmts callLimit fuel program
        { s.machine with depths := s.machine.depths.merge depths } with
    | ok flow m => exact (kept.ok_of_eq outcome).written
    | error e m => exact (kept.error_of_eq outcome).written

/-- The machine behind an accepted text that succeeds is at the top level already. -/
theorem Resting.rest_eq (resting : s.Resting) {m : Machine}
    (keeps : Machine.Keeps { s.machine with depths := s.machine.depths.merge depths } m) :
    ({ s with nextId := nextId } : Session).rest m = ⟨m, nextId⟩ := by
  obtain ⟨store, globals, env, table, output, callDepth, clock⟩ := m
  have top : env = globals := keeps.env.trans (resting.top.trans keeps.globals.symm)
  have idle : callDepth = 0 := keeps.callDepth.trans resting.idle
  rw [top, idle]
  rfl

end Runs

section Join

variable {s : Session} {first second : String} {program program' : Program}
  {depths depths' : Depths}
variable {nextId lastId : ExprId}

/-- The second text is run as behind the first one. -/
theorem Resting.run_join_of_ok (resting : s.Resting)
    (checked : Program.check first s.nextId = (.ok (program, depths), nextId))
    (checkedSecond : Program.check second nextId = (.ok (program', depths'), lastId)) (more : Nat)
    (ended : (s.run (program.length + (more + 1)) first).1.outcome = .ok) :
    let behind := (s.run (program.length + (more + 1)) first).2.run (more + 1) second
    let joined := s.run (program.length + (more + 1)) (first ++ "\n" ++ second)
    behind.1.Displaced (Span.behind first) joined.1 ∧ joined.2.nextId = behind.2.nextId ∧
      ∃ store, joined.2.machine = { behind.2.machine with store := store } := by
  have others := Program.depths_of_check checkedSecond
  have joins :=
    resting.stmts_join checked others (program'.relabel (.spans (Span.behind first))) more
  have kept := Eval.stmts_keeps callLimit (program.length + (more + 1)) program
    { s.machine with depths := s.machine.depths.merge depths }
  have left := resting.run (program.length + (more + 1)) first
  rw [run_of_check (Program.check_join checked checkedSecond), ← Depths.merge_assoc]
  rw [run_of_check checked] at ended left ⊢
  cases result : Eval.stmts callLimit (program.length + (more + 1)) program
      { s.machine with depths := s.machine.depths.merge depths } with
  | error e m =>
    rw [result] at ended
    cases e <;> cases ended
  | ok flow m =>
    have keeps := kept.ok_of_eq result
    rw [result] at left
    dsimp only at left ⊢
    rw [resting.rest_eq keeps] at left ⊢
    have table : m.depths = s.machine.depths.merge depths := keeps.depths
    rw [joins.ok_of_eq result, run_of_check (s := ⟨m, nextId⟩) checkedSecond, table]
    have displaced := displaced_stmts checkedSecond
      (m := { m with depths := (s.machine.depths.merge depths).merge depths' })
      (fun f same => left.labels _ (.spans same)) callLimit (more + 1) (Span.behind first)
    generalize Eval.stmts callLimit (more + 1) program' _ = outcome,
      Eval.stmts callLimit (more + 1) (program'.relabel _) _ = outcome' at displaced
    cases displaced with
    | ok store => exact ⟨.ok, rfl, store, rfl⟩
    | error store faults => exact ⟨faults.report, rfl, store, rfl⟩

/-- Behind a first text that does not succeed, nothing of the second one is executed. -/
theorem Resting.run_join_of_not_ok (resting : s.Resting)
    (checked : Program.check first s.nextId = (.ok (program, depths), nextId))
    (checkedSecond : Program.check second nextId = (.ok (program', depths'), lastId)) (more : Nat)
    (failed : (s.run (program.length + (more + 1)) first).1.outcome ≠ .ok) :
    let alone := s.run (program.length + (more + 1)) first
    s.run (program.length + (more + 1)) (first ++ "\n" ++ second) = (alone.1,
      { machine := { alone.2.machine with depths := alone.2.machine.depths.merge depths' }
        nextId := lastId }) := by
  have others := Program.depths_of_check checkedSecond
  have joins :=
    resting.stmts_join checked others (program'.relabel (.spans (Span.behind first))) more
  have kept := Eval.stmts_keeps callLimit (program.length + (more + 1)) program
    { s.machine with depths := s.machine.depths.merge depths }
  rw [run_of_check (Program.check_join checked checkedSecond), ← Depths.merge_assoc]
  rw [run_of_check checked] at failed ⊢
  cases result : Eval.stmts callLimit (program.length + (more + 1)) program
      { s.machine with depths := s.machine.depths.merge depths } with
  | ok flow m =>
    rw [result] at failed
    exact absurd rfl failed
  | error e m =>
    have table : m.depths = s.machine.depths.merge depths := (kept.error_of_eq result).depths
    rw [joins.error_of_eq result, ← table]
    rfl

end Join

structure Ends (s : Session) (source : String) (report : Report) (printed : String) (s' : Session) :
    Prop where
  run : ∃ fuel, s.run fuel source = (report, s')
  finished : report.outcome ≠ .unfinished
  output : s'.machine.output.text = s.machine.output.text ++ printed

theorem Ends.run_of_le {s s' : Session} {source printed : String} {report : Report}
    (ends : s.Ends source report printed s') : ∃ bound, ∀ fuel, bound ≤ fuel →
      s.run fuel source = (report, s') := by
  obtain ⟨bound, ran⟩ := ends.run
  refine ⟨bound, fun fuel le => ?_⟩
  rw [Session.run_of_le le (by rw [ran]; exact ends.finished), ran]

theorem ends_of_run {s : Session} {source : String} (fuel : Nat)
    (finished : (s.run fuel source).1.outcome ≠ .unfinished) :
    ∃ printed, s.Ends source (s.run fuel source).1 printed (s.run fuel source).2 := by
  obtain ⟨printed, written⟩ := run_writes fuel source s
  exact ⟨printed, ⟨fuel, rfl⟩, finished, written⟩

section EndsJoin

variable {s s₁ s₂ : Session} {first second : String} {program program' : Program}
variable {depths depths' : Depths} {nextId lastId : ExprId} {report report' : Report}
variable {printed printed' : String}

theorem Resting.ends_join_of_ok (resting : s.Resting)
    (checked : Program.check first s.nextId = (.ok (program, depths), nextId))
    (checkedSecond : Program.check second nextId = (.ok (program', depths'), lastId))
    (ends : s.Ends first report printed s₁) (succeeded : report.outcome = .ok)
    (endsSecond : s₁.Ends second report' printed' s₂) :
    ∃ joined s', s.Ends (first ++ "\n" ++ second) joined (printed ++ printed') s' ∧
      report'.Displaced (Span.behind first) joined ∧ s'.nextId = s₂.nextId ∧
      s'.machine.depths = s₂.machine.depths := by
  obtain ⟨bound, ran⟩ := ends.run_of_le
  obtain ⟨boundSecond, ranSecond⟩ := endsSecond.run_of_le
  have whole := ran (program.length + (bound + boundSecond + 1)) (by omega)
  have joins := resting.run_join_of_ok checked checkedSecond (bound + boundSecond)
    (by rw [whole]; exact succeeded)
  rw [whole, ranSecond _ (by omega)] at joins
  cases ranJoined : s.run (program.length + (bound + boundSecond + 1))
    (first ++ "\n" ++ second) with
  | mk joined s' =>
    rw [ranJoined] at joins
    obtain ⟨displaced, numbers, store, machine⟩ := joins
    dsimp only at displaced numbers machine
    refine ⟨joined, s', ⟨⟨_, ranJoined⟩, ?_, ?_⟩, displaced, numbers, ?_⟩
    · rw [displaced.outcome]
      exact endsSecond.finished
    · rw [machine, ← String.append_assoc, ← ends.output]
      exact endsSecond.output
    · rw [machine]

theorem Resting.ends_join_of_error (resting : s.Resting)
    (checked : Program.check first s.nextId = (.ok (program, depths), nextId))
    (checkedSecond : Program.check second nextId = (.ok (program', depths'), lastId))
    (ends : s.Ends first report printed s₁) (failed : report.outcome ≠ .ok) :
    s.Ends (first ++ "\n" ++ second) report printed
      { machine := { s₁.machine with depths := s₁.machine.depths.merge depths' }
        nextId := lastId } := by
  obtain ⟨bound, ran⟩ := ends.run_of_le
  have whole := ran (program.length + (bound + 1)) (by omega)
  have joins := resting.run_join_of_not_ok checked checkedSecond bound (by rw [whole]; exact failed)
  rw [whole] at joins
  exact ⟨⟨_, joins⟩, ends.finished, ends.output⟩

theorem Resting.ends_of_join (resting : s.Resting)
    (checked : Program.check first s.nextId = (.ok (program, depths), nextId))
    (checkedSecond : Program.check second nextId = (.ok (program', depths'), lastId))
    (ends : s.Ends (first ++ "\n" ++ second) report printed s₂) :
    ∃ report printed s₁, s.Ends first report printed s₁ ∧
      (report.outcome = .ok → ∃ report' printed' s₂, s₁.Ends second report' printed' s₂) := by
  obtain ⟨bound, ran⟩ := ends.run_of_le
  have whole := ran (program.length + (bound + 1)) (by omega)
  by_cases succeeded : (s.run (program.length + (bound + 1)) first).1.outcome = .ok
  · obtain ⟨displaced, -⟩ := resting.run_join_of_ok checked checkedSecond bound succeeded
    have same := displaced.outcome
    rw [whole] at same
    obtain ⟨printed₁, endsFirst⟩ := ends_of_run (program.length + (bound + 1))
      (show (s.run _ first).1.outcome ≠ .unfinished by rw [succeeded]; decide)
    obtain ⟨printed₂, endsSecond⟩ := ends_of_run (bound + 1)
      (show (Session.run _ second _).1.outcome ≠ .unfinished from same ▸ ends.finished)
    exact ⟨_, printed₁, _, endsFirst, fun _ => ⟨_, printed₂, _, endsSecond⟩⟩
  · have joins := resting.run_join_of_not_ok checked checkedSecond bound succeeded
    rw [whole] at joins
    have same : (s.run (program.length + (bound + 1)) first).1 = report :=
      (congrArg Prod.fst joins).symm
    obtain ⟨printed₁, endsFirst⟩ := ends_of_run (program.length + (bound + 1))
      (show (s.run _ first).1.outcome ≠ .unfinished by rw [same]; exact ends.finished)
    exact ⟨_, printed₁, _, endsFirst, fun ok => absurd ok succeeded⟩

end EndsJoin

/-- Running two texts as one, with a line feed between them, is running one behind the other. Both
are accepted as one, with the numbers and the depths that they have one behind the other. If the
first one succeeds, what is printed and the report are those of both; a fault of the second one has
the same cause, and its place may be moved to where the second text stands. If the first one fails,
the report and what is printed are its own, and the machine is left as it leaves it, but for the
depths of the second one. The joined text ends only where both end one behind the other. -/
theorem run_joined {s : Session} (reachable : s.Reachable) {first second : String}
    (accepts : Program.Accepts first) (acceptsSecond : Program.Accepts second) :
    ∃ program depths nextId program' depths' lastId,
      Program.check first s.nextId = (.ok (program, depths), nextId) ∧
      Program.check second nextId = (.ok (program', depths'), lastId) ∧
      Program.check (first ++ "\n" ++ second) s.nextId =
        (.ok (program ++ program'.relabel (.spans (Span.behind first)), depths.merge depths'),
          lastId) ∧
      (∀ report printed s₁, s.Ends first report printed s₁ →
        (report.outcome = .ok → ∀ report' printed' s₂, s₁.Ends second report' printed' s₂ →
          ∃ joined s', s.Ends (first ++ "\n" ++ second) joined (printed ++ printed') s' ∧
            report'.Displaced (Span.behind first) joined ∧ s'.nextId = s₂.nextId ∧
            s'.machine.depths = s₂.machine.depths) ∧
        (report.outcome = .runtimeError → s.Ends (first ++ "\n" ++ second) report printed
          { machine := { s₁.machine with depths := s₁.machine.depths.merge depths' }
            nextId := lastId })) ∧
      ∀ joined printed s', s.Ends (first ++ "\n" ++ second) joined printed s' →
        ∃ report printed s₁, s.Ends first report printed s₁ ∧
          (report.outcome = .ok → ∃ report' printed' s₂, s₁.Ends second report' printed' s₂) := by
  have resting := reachable.resting
  obtain ⟨program, depths, nextId, checked⟩ := accepts.check s.nextId
  obtain ⟨program', depths', lastId, checkedSecond⟩ := acceptsSecond.check nextId
  refine ⟨program, depths, nextId, program', depths', lastId, checked, checkedSecond,
    Program.check_join checked checkedSecond, fun report printed s₁ ends => ⟨?_, ?_⟩, ?_⟩
  · exact fun succeeded _ _ _ endsSecond =>
      resting.ends_join_of_ok checked checkedSecond ends succeeded endsSecond
  · exact fun failed => resting.ends_join_of_error checked checkedSecond ends (by simp [failed])
  · exact fun _ _ _ ends => resting.ends_of_join checked checkedSecond ends

/-- The second text fails in a function that the session has kept. -/
theorem run_joined_kept_function :
    let s := ((start ⟨fun _ => 0, 0⟩ {}).run 60 "fun call(f) \x7b return f(); \x7d").2
    let first := "fun get() \x7b return \"a\"; \x7d print call(get);"
    let second := "print call; call(\"b\"); print \"c\";"
    s.Reachable ∧ Program.Accepts first ∧ Program.Accepts second ∧
      ∃ joined s' error, s.Ends (first ++ "\n" ++ second) joined "a\n<fn call>\n" s' ∧
        joined.outcome = .runtimeError ∧ joined.diagnostics = [.runtime error] ∧
        error.message = "Can only call functions and classes." := by
  intro s first second
  have reachable : s.Reachable := .run _ _ (.start _ _)
  have accepts : Program.Accepts first := by decide +kernel
  have acceptsSecond : Program.Accepts second := by decide +kernel
  have ends : s.Ends first (s.run 60 first).1 "a\n" (s.run 60 first).2 :=
    ⟨⟨60, rfl⟩, by decide +kernel, by decide +kernel⟩
  have succeeded : (s.run 60 first).1.outcome = .ok := by decide +kernel
  have endsSecond : (s.run 60 first).2.Ends second
    ((s.run 60 first).2.run 60 second).1 "<fn call>\n"
      ((s.run 60 first).2.run 60 second).2 :=
    ⟨⟨60, rfl⟩, by decide +kernel, by decide +kernel⟩
  have texts : ((s.run 60 first).2.run 60 second).1.diagnostics.map Diagnostic.text =
      ["Can only call functions and classes." ++ "\n[line " ++ toString 1 ++ "]"] := by
      decide +kernel
  have lines : ((s.run 60 first).2.run 60 second).1.diagnostics.map Diagnostic.line = [1] := by
    decide +kernel
  obtain ⟨_, _, _, _, _, _, _, _, _, runs, _⟩ := run_joined reachable accepts acceptsSecond
  obtain ⟨joined, s', endsJoined, displaced, _⟩ := (runs _ _ _ ends).1 succeeded _ _ _ endsSecond
  refine ⟨reachable, accepts, acceptsSecond, joined, s', ?_⟩
  generalize ((s.run 60 first).2.run 60 second).1 = report at displaced texts lines
  cases displaced with
  | ok | unfinished => cases lines
  | @fault error error' errors =>
    refine ⟨error', endsJoined, rfl, rfl, ?_⟩
    have line : error.line = 1 := List.singleton_inj.mp lines
    have text := List.singleton_inj.mp texts
    rw [Diagnostic.text, line, String.append_left_inj, String.append_left_inj,
      String.append_left_inj] at text
    rw [RuntimeError.message, errors.1]
    exact text

end Session

end Lox
