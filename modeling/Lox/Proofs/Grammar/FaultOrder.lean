import Lox.Proofs.Grammar.Rereading
import Lox.Proofs.Grammar.Totality
import Lox.Token.Scan

set_option autoImplicit false

/-!
# The order of faults

A fault is reported at the next token, so faults come in the order of their tokens, with one
exception. That the left side of an assignment is no target is reported at the equals sign, but only
once the right side has been read. So it comes behind the faults that are found there, although its
token stands in front of theirs.
-/

namespace Lox.Grammar

open State (Reaches)

/-! ## What is reported on a course -/

variable {large : Prop}

namespace Course

variable {s s' : State} {reports : List Report}

/-- What is reported is recorded, in the same order. -/
theorem errors (course : Course large s s' reports) :
    s'.errors.toList = s.errors.toList ++ reports.map Report.fault := by
  induction course with
  | refl => exact (List.append_nil _).symm
  | advance _ _ inductionHypothesis => exact inductionHypothesis
  | number _ inductionHypothesis => exact inductionHypothesis
  | record _ _ _ _ inductionHypothesis => simp [inductionHypothesis]
  | assignment _ _ _ _ inductionHypothesis inductionHypothesis' =>
    simp [inductionHypothesis, inductionHypothesis', State.behind]

theorem length_le (course : Course large s s' reports) : s'.rest.length ≤ s.rest.length :=
  course.reaches.suffix.length_le

/-- Reports are about tokens between the two states. -/
theorem bounds (course : Course large s s' reports) :
    ∀ report ∈ reports, s'.rest.length ≤ report.left ∧ report.left ≤ s.rest.length := by
  induction course with
  | refl => exact fun _ member => absurd member List.not_mem_nil
  | @advance s s' reports token rest _ remaining inductionHypothesis =>
    intro report member
    obtain ⟨low, high⟩ := inductionHypothesis report member
    exact ⟨(List.tail_suffix s'.rest).length_le.trans low, high⟩
  | number _ inductionHypothesis => exact inductionHypothesis
  | record course _ _ _ inductionHypothesis =>
    intro report member
    rcases List.mem_append.mp member with member | member
    · exact inductionHypothesis report member
    · cases List.mem_singleton.mp member
      exact ⟨Nat.le_refl _, course.length_le⟩
  | @assignment s t s' before inside equals rest fuel value course remaining _ within
      inductionHypothesis
      inductionHypothesis' =>
    have shorter : t.behind.rest.length + 1 = t.rest.length := by
      rw [State.behind, remaining]
      rfl
    have first := course.length_le
    have second := within.length_le
    intro report member
    simp only [List.mem_append, List.mem_singleton] at member
    rcases member with (member | member) | rfl
    · have := inductionHypothesis report member
      dsimp only
      omega
    · have := inductionHypothesis' report member
      dsimp only
      omega
    · dsimp only
      omega

/-- A report is about the next token of a state that was passed. -/
theorem located (course : Course large s s' reports) :
    ∀ report ∈ reports, ∃ t : State, Reaches large s t ∧
    t.rest.length = report.left ∧ t.next = report.fault.token := by
  induction course with
  | refl => exact fun _ member => absurd member List.not_mem_nil
  | advance _ _ inductionHypothesis => exact inductionHypothesis
  | number _ inductionHypothesis => exact inductionHypothesis
  | @record s s' reports e course here _ _ inductionHypothesis =>
    intro report member
    rcases List.mem_append.mp member with member | member
    · exact inductionHypothesis report member
    · cases List.mem_singleton.mp member
      exact ⟨s', course.reaches, rfl, here.symm⟩
  | @assignment s t s' before inside equals rest fuel value course remaining _ within
      inductionHypothesis
      inductionHypothesis' =>
    intro report member
    simp only [List.mem_append, List.mem_singleton] at member
    rcases member with (member | member) | rfl
    · exact inductionHypothesis report member
    · obtain ⟨u, reaches, left, next⟩ := inductionHypothesis' report member
      exact ⟨u, (course.reaches.tail (.advance remaining)).trans reaches, left, next⟩
    · refine ⟨t, course.reaches, rfl, ?_⟩
      rw [State.next, remaining]
      rfl

end Course

/-! ## What comes behind later tokens -/

/-- The faults in the expression behind a token, which is given by how many tokens are left at
it. -/
def State.faultsBehind (s : State) (left : Nat) : List ParseError :=
  expressionFaults (s.rest.drop (s.rest.length + 1 - left)) s.finish

/-- Where reading has got to does not matter for what stands behind a token further on. -/
theorem State.faultsBehind_eq {s t : State} (reaches : Reaches large s t) {left : Nat}
    (further : left ≤ t.rest.length) : t.faultsBehind left = s.faultsBehind left := by
  obtain ⟨passed, shape⟩ := reaches.suffix
  unfold faultsBehind
  have count : passed.length + t.rest.length + 1 - left =
      passed.length + (t.rest.length + 1 - left) := by
    omega
  rw [reaches.finish, ← shape, List.length_append, count, ← List.drop_drop, List.drop_left]

/-- The second report is about an assignment, and the first one about a token to its right. -/
def Overtakes (s : State) (first second : Report) : Prop :=
  second.fault.cause = .assignmentTarget ∧ first.left < second.left ∧
    first.fault ∈ s.faultsBehind second.left

theorem Overtakes.of_reaches {s t : State} {first second : Report}
    (overtakes : Overtakes t first second)
    (reaches : Reaches large s t) (further : second.left ≤ t.rest.length) :
    Overtakes s first second := by
  obtain ⟨cause, later, member⟩ := overtakes
  rw [State.faultsBehind_eq reaches further] at member
  exact ⟨cause, later, member⟩

namespace Course

variable {s s' : State} {reports : List Report}

/-- The faults to the right of an assignment are those of its value. -/
theorem faultsBehind_eq {t : State} {inside : List Report} {fuel : Nat} {value : Expr}
    (reaches : Reaches large s t) (ends : s.Ends) (read : expression fuel t.behind = .ok value s')
    (within : Course large t.behind s' inside) :
    s.faultsBehind t.rest.length = inside.map Report.fault := by
  have recorded := errors_of_expression (s := t.behind) (reaches.ends ends) read
  rw [within.errors] at recorded
  rw [← State.faultsBehind_eq reaches (Nat.le_refl _), State.faultsBehind, Nat.add_sub_cancel_left,
    List.drop_one]
  exact (List.append_cancel_left recorded).symm

/-- Reports come in the order of their tokens, unless one is about an assignment and comes behind
reports about its right side. -/
theorem ordered (course : Course large s s' reports) (ends : s.Ends) :
    reports.Pairwise fun first second => second.left ≤ first.left ∨ Overtakes s first second := by
  induction course with
  | refl => exact .nil
  | advance _ _ inductionHypothesis => exact inductionHypothesis ends
  | number _ inductionHypothesis => exact inductionHypothesis ends
  | record course _ _ _ inductionHypothesis =>
    refine List.pairwise_append.mpr ⟨inductionHypothesis ends, List.pairwise_singleton _ _, ?_⟩
    intro first member second last
    cases List.mem_singleton.mp last
    exact .inl (course.bounds first member).1
  | @assignment s t s' before inside equals rest fuel value course remaining read within
      inductionHypothesis
      inductionHypothesis' =>
    have reaches : Reaches large s t.behind := course.reaches.tail (.advance remaining)
    have shorter : t.behind.rest.length < t.rest.length := by
      rw [State.behind, remaining]
      exact Nat.lt_succ_self _
    refine List.pairwise_append.mpr ⟨List.pairwise_append.mpr ⟨inductionHypothesis ends, ?_, ?_⟩,
      List.pairwise_singleton _ _, ?_⟩
    · refine (inductionHypothesis' (reaches.ends ends)).imp_of_mem fun {first second} _ member => ?_
      rintro (later | overtakes)
      · exact .inl later
      · exact .inr (overtakes.of_reaches reaches (within.bounds second member).2)
    · intro first member second member'
      have := course.bounds first member
      have := within.bounds second member'
      exact .inl (by omega)
    · intro first member second last
      cases List.mem_singleton.mp last
      rcases List.mem_append.mp member with member | member
      · exact .inl (course.bounds first member).1
      · have := within.bounds first member
        refine .inr ⟨rfl, by dsimp only; omega, ?_⟩
        rw [faultsBehind_eq course.reaches ends read within]
        exact List.mem_map_of_mem member

/-- An assignment with faults to its right is reported behind one of them. -/
theorem overtaken (course : Course large s s' reports) (ends : s.Ends) :
    ∀ second ∈ reports, second.fault.cause = .assignmentTarget → s.faultsBehind second.left ≠ [] →
      ∃ first, [first, second].Sublist reports ∧ first.left < second.left := by
  induction course with
  | refl => exact fun _ member => absurd member List.not_mem_nil
  | advance _ _ inductionHypothesis => exact inductionHypothesis ends
  | number _ inductionHypothesis => exact inductionHypothesis ends
  | record _ _ other _ inductionHypothesis =>
    intro second member cause faulty
    rcases List.mem_append.mp member with member | member
    · obtain ⟨first, sublist, later⟩ := inductionHypothesis ends second member cause faulty
      exact ⟨first, sublist.trans (List.sublist_append_left _ _), later⟩
    · cases List.mem_singleton.mp member
      exact absurd cause other
  | @assignment s t s' before inside equals rest fuel value course remaining read within
      inductionHypothesis
      inductionHypothesis' =>
    have reaches : Reaches large s t.behind := course.reaches.tail (.advance remaining)
    intro second member cause faulty
    simp only [List.mem_append, List.mem_singleton] at member
    rcases member with (member | member) | rfl
    · obtain ⟨first, sublist, later⟩ := inductionHypothesis ends second member cause faulty
      refine ⟨first, sublist.trans ?_, later⟩
      rw [List.append_assoc]
      exact List.sublist_append_left _ _
    · rw [← State.faultsBehind_eq reaches (within.bounds second member).2] at faulty
      obtain ⟨first, sublist, later⟩ :=
        inductionHypothesis' (reaches.ends ends) second member cause faulty
      refine ⟨first, sublist.trans ?_, later⟩
      exact (List.sublist_append_right _ _).trans (List.sublist_append_left _ _)
    · -- the first fault of the value is overtaken
      rw [faultsBehind_eq course.reaches ends read within] at faulty
      have nonempty : inside ≠ [] := fun none => faulty (congrArg (List.map Report.fault) none)
      obtain ⟨first, others, shape⟩ := List.exists_cons_of_ne_nil nonempty
      have inner := within.bounds first (by rw [shape]; exact List.mem_cons_self)
      refine ⟨first, ?_, ?_⟩
      · rw [shape, List.append_assoc]
        refine List.Sublist.trans ?_ (List.sublist_append_right _ _)
        exact List.Sublist.cons_cons first (List.sublist_append_right _ _)
      · have shorter : t.behind.rest.length < t.rest.length := by
          rw [State.behind, remaining]
          exact Nat.lt_succ_self _
        dsimp only
        omega

end Course

end Lox.Grammar

namespace Lox

def Parsed.errors (parsed : Parsed) : List ParseError :=
  match parsed.result with
  | .ok _ => []
  | .error errors => errors

namespace Program

open Grammar (State Report Course endMarked expressionFaults)
open Grammar.State (Reaches)

/-- The faults in the expression behind a token, read on its own. -/
def faultsBehind (tokens : List Token) (place : Nat) : List ParseError :=
  let start := State.ofTokens tokens 0
  expressionFaults (start.rest.drop (place + 1)) start.finish

variable (tokens : List Token) (firstId : ExprId)

/-- Reading goes on a course to the end mark, and the faults are what is reported on it. -/
theorem exists_course : ∃ finish reports, Course True (.ofTokens tokens firstId) finish reports ∧
    reports.map Report.fault = (parse tokens firstId).errors := by
  let start := State.ofTokens tokens firstId
  have ends := Grammar.ends_ofTokens tokens firstId
  have enough : 16 * start.rest.length + 18 ≤ Grammar.fuelFor start.rest.length := by
    unfold Grammar.fuelFor
    omega
  have reading := Grammar.declarations_leads _ ends enough
  cases outcome : Grammar.declarations (Grammar.fuelFor start.rest.length) start with
  | error fault finish => exact (reading.error_of_eq outcome).elim
  | ok program finish =>
    obtain ⟨⟨reports, course⟩, -⟩ := reading.ok_of_eq outcome
    refine ⟨finish, reports, course, ?_⟩
    have recorded : finish.errors.toList = reports.map Report.fault := course.errors
    unfold parse Parsed.errors
    simp only [start] at outcome
    simp only [outcome]
    rw [← recorded]
    by_cases clean : finish.errors.isEmpty = true
    · simp [Array.isEmpty_iff.mp clean]
    · simp [clean]

def placed (report : Report) : ParseError × Nat :=
  (report.fault, (State.ofTokens tokens firstId).rest.length - report.left)

section Placed

variable {tokens firstId} {finish : State} {reports : List Report} {first second : Report}
variable (course : Course True (.ofTokens tokens firstId) finish reports)
include course

theorem getElem?_placed (member : first ∈ reports) :
    (endMarked tokens)[(placed tokens firstId first).2]? = some first.fault.token := by
  obtain ⟨t, reaches, left, next⟩ := course.located first member
  rw [← next, ← Grammar.getElem?_place reaches, placed, ← left]
  rfl

theorem placed_le_iff (member : first ∈ reports) (member' : second ∈ reports) :
    (placed tokens firstId first).2 ≤ (placed tokens firstId second).2 ↔
      second.left ≤ first.left := by
  have := course.bounds first member
  have := course.bounds second member'
  unfold placed
  omega

theorem faultsBehind_placed (member : first ∈ reports) :
    faultsBehind tokens (placed tokens firstId first).2 =
      (State.ofTokens tokens firstId).faultsBehind first.left := by
  have high := (course.bounds first member).2
  have count : (State.ofTokens tokens firstId).rest.length - first.left + 1 =
      (State.ofTokens tokens firstId).rest.length + 1 - first.left := by omega
  unfold faultsBehind placed State.faultsBehind
  rw [← count]
  rfl

theorem pairwise_placed : (reports.map (placed tokens firstId)).Pairwise fun first second =>
    first.2 ≤ second.2 ∨ (second.1.cause = .assignmentTarget ∧ second.2 < first.2 ∧
      first.1 ∈ faultsBehind tokens second.2) := by
  refine List.pairwise_map.mpr ((course.ordered (Grammar.ends_ofTokens _ _)).imp_of_mem ?_)
  rintro first second member member' (later | ⟨cause, later, inside⟩)
  · exact .inl ((placed_le_iff course member member').mpr later)
  · refine .inr ⟨cause, ?_, ?_⟩
    · rw [← not_le, placed_le_iff course member member']
      omega
    · rw [faultsBehind_placed course member']
      exact inside

theorem pairwise_placed_iff :
    ((reports.map (placed tokens firstId)).Pairwise fun first second => first.2 ≤ second.2) ↔
      ∀ report ∈ reports.map (placed tokens firstId), report.1.cause = .assignmentTarget →
        faultsBehind tokens report.2 = [] := by
  constructor
  · intro ordered report member cause
    obtain ⟨second, inside, rfl⟩ := List.mem_map.mp member
    by_contra faulty
    rw [faultsBehind_placed course inside] at faulty
    obtain ⟨first, sublist, later⟩ :=
      course.overtaken (Grammar.ends_ofTokens _ _) second inside cause faulty
    have pair := List.pairwise_pair.mp ((List.pairwise_map.mp ordered).sublist sublist)
    have := (placed_le_iff course (sublist.subset List.mem_cons_self) inside).mp pair
    omega
  · intro clean
    refine (pairwise_placed course).imp_of_mem fun {first second} _ member => ?_
    rintro (later | ⟨cause, -, inside⟩)
    · exact later
    · rw [clean second member cause] at inside
      exact absurd inside List.not_mem_nil

end Placed

/-- What stands at places in a list that are in order, is in order if the list is. -/
theorem pairwise_of_places {marked : List Token} {reports : List (ParseError × Nat)}
    (located : ∀ report ∈ reports, marked[report.2]? = some report.1.token)
    (lines : marked.Pairwise fun first second => first.span.line ≤ second.span.line)
    (ordered : reports.Pairwise fun first second => first.2 ≤ second.2) :
    ((reports.map Prod.fst).map ParseError.line).Pairwise (· ≤ ·) := by
  rw [List.map_map]
  refine List.pairwise_map.mpr (ordered.imp_of_mem fun {first second} member member' le => ?_)
  obtain ⟨small, here⟩ := List.getElem?_eq_some_iff.mp (located first member)
  obtain ⟨small', there⟩ := List.getElem?_eq_some_iff.mp (located second member')
  change first.1.token.span.line ≤ second.1.token.span.line
  rw [← here, ← there]
  rcases Nat.eq_or_lt_of_le le with same | less
  · simp [same]
  · exact List.pairwise_iff_getElem.mp lines _ _ small small' less

/-- Each fault is reported at the token at some place, and the faults come in the order of these
places, except that an assignment without a target comes behind the faults in the expression to its
right. So they are in order exactly if no such expression has faults, and their lines never decrease
then if those of the tokens do not. -/
theorem faults_ordered_iff : ∃ reports : List (ParseError × Nat),
    reports.map Prod.fst = (parse tokens firstId).errors ∧
    (∀ report ∈ reports, (endMarked tokens)[report.2]? = some report.1.token) ∧
    (reports.Pairwise fun first second => first.2 ≤ second.2 ∨ (second.1.cause = .assignmentTarget ∧
      second.2 < first.2 ∧ first.1 ∈ faultsBehind tokens second.2)) ∧
    ((reports.Pairwise fun first second => first.2 ≤ second.2) ↔
      ∀ report ∈ reports, report.1.cause = .assignmentTarget → faultsBehind tokens report.2 = []) ∧
    ((endMarked tokens).Pairwise (fun first second => first.span.line ≤ second.span.line) →
      (reports.Pairwise fun first second => first.2 ≤ second.2) →
        ((parse tokens firstId).errors.map ParseError.line).Pairwise (· ≤ ·)) := by
  obtain ⟨finish, reports, course, recorded⟩ := exists_course tokens firstId
  have faults : (reports.map (placed tokens firstId)).map Prod.fst =
      (parse tokens firstId).errors := by
    rw [← recorded, List.map_map]
    rfl
  have located : ∀ report ∈ reports.map (placed tokens firstId),
      (endMarked tokens)[report.2]? = some report.1.token := by
    intro _ member
    obtain ⟨report, inside, rfl⟩ := List.mem_map.mp member
    exact getElem?_placed course inside
  refine ⟨_, faults, located, pairwise_placed course, pairwise_placed_iff course,
    fun lines ordered => ?_⟩
  rw [← faults]
  exact pairwise_of_places located lines ordered

/-- Of two assignments without a target, one to the right of the other, the second one is reported
first, also if it stands on a later line. -/
theorem faults_of_nested_assignments :
    ∃ tokens, Token.tokenize "1 =\n2 = 3;" = .ok tokens ∧
      (parse tokens 0).errors.map (fun e => (e.cause, e.token.span.start)) =
        [(.assignmentTarget, 6), (.assignmentTarget, 2)] ∧
      (parse tokens 0).errors.map ParseError.line = [2, 1] := by
  have read : (Token.tokenize "1 =\n2 = 3;").toOption.map (fun tokens =>
      ((parse tokens 0).errors.map fun e => (e.cause, e.token.span.start),
        (parse tokens 0).errors.map ParseError.line)) =
      some ([(.assignmentTarget, 6), (.assignmentTarget, 2)], [2, 1]) := by
    decide +kernel
  cases scanned : Token.tokenize "1 =\n2 = 3;" with
  | error e =>
    rw [scanned] at read
    cases read
  | ok tokens =>
    rw [scanned] at read
    obtain ⟨places, lines⟩ := Prod.mk.inj (Option.some.inj read)
    exact ⟨tokens, rfl, places, lines⟩

end Program

end Lox
