import Lox.Grammar.Program
import Lox.Proofs.Outcome
import Lox.Proofs.Syntax.Uses

set_option autoImplicit false

/-!
# Primitive steps of reading

What the outcome of each primitive step of a reader is, and how the numbers are laid out that a
reader hands out.
-/

namespace Lox

structure Numbered (low high : Nat) (ids : List Nat) : Prop where
  le : low ≤ high
  nodup : ids.Nodup
  bounds : ∀ id ∈ ids, low ≤ id ∧ id < high

namespace Numbered

variable {low middle high : Nat} {first second : List Nat}

theorem nil (le : low ≤ high) : Numbered low high [] :=
  ⟨le, List.nodup_nil, by simp⟩

theorem append (left : Numbered low middle first) (right : Numbered middle high second) :
    Numbered low high (first ++ second) := by
  refine ⟨left.le.trans right.le, List.nodup_append.mpr ⟨left.nodup, right.nodup, ?_⟩, ?_⟩
  · rintro id leftMember other rightMember rfl
    have := left.bounds id leftMember
    have := right.bounds id rightMember
    omega
  · intro id member
    have := left.le
    have := right.le
    rcases List.mem_append.mp member with member | member
    · have := left.bounds id member
      omega
    · have := right.bounds id member
      omega

theorem singleton (id : Nat) : Numbered id (id + 1) [id] :=
  ⟨by omega, List.nodup_singleton id, by simp⟩

theorem push (numbered : Numbered low high first) : Numbered low (high + 1) (first ++ [high]) :=
  numbered.append (singleton high)

theorem perm (numbered : Numbered low high first) (reordered : second.Perm first) :
    Numbered low high second :=
  ⟨numbered.le, reordered.nodup_iff.mpr numbered.nodup, fun id member =>
    numbered.bounds id (reordered.mem_iff.mp member)⟩

theorem lower (le : low ≤ middle) (numbered : Numbered middle high first) :
    Numbered low high first :=
  ⟨le.trans numbered.le, numbered.nodup, fun id member => by
    have := numbered.bounds id member
    omega⟩

end Numbered

namespace Grammar

variable {s : State} {error : ParseError → State → Prop}

def State.behind (s : State) : State :=
  { s with rest := s.rest.tail }

@[simp] theorem meets_peek {ok : Token → State → Prop} :
    Meets peek s ok error ↔ ok s.next s := Iff.rfl

@[simp] theorem meets_atEnd {ok : Bool → State → Prop} :
    Meets atEnd s ok error ↔ ok s.rest.isEmpty s := Iff.rfl

@[simp] theorem meets_nextIs {mark : Symbol} {ok : Bool → State → Prop} :
    Meets (nextIs mark) s ok error ↔ ok (s.next.isSymbol mark) s := Iff.rfl

@[simp] theorem meets_advance {ok : Token → State → Prop} :
    Meets advance s ok error ↔ ok s.next s.behind := Iff.rfl

@[simp] theorem meets_fail {α : Type} {what : ParseError.Expectation} {ok : α → State → Prop} :
    Meets (fail what) s ok error ↔ error ⟨.expected what, s.next⟩ s := Iff.rfl

@[simp] theorem meets_record {e : ParseError} {ok : Unit → State → Prop} :
    Meets (record e) s ok error ↔ ok () { s with errors := s.errors.push e } := Iff.rfl

@[simp] theorem meets_freshId {ok : ExprId → State → Prop} :
    Meets freshId s ok error ↔ ok s.nextId { s with nextId := s.nextId + 1 } := Iff.rfl

theorem meets_accept {mark : Symbol} {ok : Bool → State → Prop} :
    Meets (accept mark) s ok error ↔
      (s.next.isSymbol mark = true → ok true s.behind) ∧
        (s.next.isSymbol mark = false → ok false s) := by
  unfold accept
  cases found : s.next.isSymbol mark <;> simp [found]

theorem meets_acceptKeyword {word : Keyword} {ok : Bool → State → Prop} :
    Meets (acceptKeyword word) s ok error ↔
      (s.next.isKeyword word = true → ok true s.behind) ∧
        (s.next.isKeyword word = false → ok false s) := by
  unfold acceptKeyword
  cases found : s.next.isKeyword word <;> simp [found]

theorem meets_expect {mark : Symbol} {what : ParseError.Expectation} {ok : Token → State → Prop} :
    Meets (expect mark what) s ok error ↔
      (s.next.isSymbol mark = true → ok s.next s.behind) ∧
        (s.next.isSymbol mark = false → error ⟨.expected what, s.next⟩ s) := by
  unfold expect
  cases found : s.next.isSymbol mark <;> simp [found]

theorem meets_expectIdent {what : ParseError.Expectation} {ok : Ident → State → Prop} :
    Meets (expectIdent what) s ok error ↔
      (∀ name, s.next.kind = .identifier name → ok ⟨name, s.next.span⟩ s.behind) ∧
        ((∀ name, s.next.kind ≠ .identifier name) → error ⟨.expected what, s.next⟩ s) := by
  unfold expectIdent
  cases found : s.next.kind <;> simp [found]

@[simp] theorem meets_synchronize {ok : Unit → State → Prop} :
    Meets synchronize s ok error ↔
      ok () (match s.rest with
        | [] => s
        | token :: rest => { s with rest := skipToStatement token rest }) := Iff.rfl

end Grammar

end Lox
