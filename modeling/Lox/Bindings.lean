set_option autoImplicit false

/-!
# Bindings

Names bound to things, each name at most once.
-/

namespace Lox

structure Bindings (α : Type) where
  entries : List (String × α)
  deriving Inhabited

namespace Bindings

variable {α : Type}

def empty : Bindings α := ⟨[]⟩

instance : EmptyCollection (Bindings α) := ⟨empty⟩

def find? (b : Bindings α) (name : String) : Option α :=
  b.entries.lookup name

def contains (b : Bindings α) (name : String) : Bool :=
  (b.find? name).isSome

/-- An entry replaced where its name is bound, and added at the end otherwise. -/
def insertEntry (name : String) (value : α) : List (String × α) → List (String × α)
  | [] => [(name, value)]
  | (key, old) :: rest =>
    if name == key then (key, value) :: rest else (key, old) :: insertEntry name value rest

def insert (b : Bindings α) (name : String) (value : α) : Bindings α :=
  ⟨insertEntry name value b.entries⟩

def names (b : Bindings α) : List String :=
  (b.entries.map Prod.fst).mergeSort fun first second => decide (first ≤ second)

@[simp] theorem find?_empty (name : String) : (∅ : Bindings α).find? name = none := rfl

theorem lookup_insertEntry (name other : String) (value : α) (entries : List (String × α)) :
    (insertEntry name value entries).lookup other =
      if other = name then some value else entries.lookup other := by
  induction entries with
  | nil =>
    by_cases same : other = name
    · simp [insertEntry, same]
    · simp [insertEntry, List.lookup_cons, beq_eq_false_iff_ne.mpr same, same]
  | cons entry rest inductionHypothesis =>
    obtain ⟨key, old⟩ := entry
    by_cases found : name = key
    · subst found
      by_cases same : other = name
      · simp [insertEntry, same]
      · simp [insertEntry, List.lookup_cons, beq_eq_false_iff_ne.mpr same, same]
    · by_cases same : other = key
      · subst same
        simp [insertEntry, found, Ne.symm found]
      · simp [insertEntry, List.lookup_cons, beq_eq_false_iff_ne.mpr same, found,
          inductionHypothesis]

theorem find?_insert (b : Bindings α) (name other : String) (value : α) :
    (b.insert name value).find? other = if other = name then some value else b.find? other :=
  lookup_insertEntry name other value b.entries

@[simp] theorem find?_insert_self (b : Bindings α) (name : String) (value : α) :
    (b.insert name value).find? name = some value := by
  simp [find?_insert]

theorem find?_insert_of_ne (b : Bindings α) {name other : String} (value : α)
    (different : other ≠ name) : (b.insert name value).find? other = b.find? other := by
  simp [find?_insert, different]

theorem insertEntry_insertEntry (name : String) (first second : α) (entries : List (String × α)) :
    insertEntry name second (insertEntry name first entries) = insertEntry name second entries := by
  induction entries with
  | nil => simp [insertEntry]
  | cons entry rest inductionHypothesis =>
    obtain ⟨key, old⟩ := entry
    by_cases found : name = key
    · simp [insertEntry, found]
    · simp [insertEntry, found, inductionHypothesis]

/-- The later binding of a name counts. -/
theorem insert_insert (b : Bindings α) (name : String) (first second : α) :
    (b.insert name first).insert name second = b.insert name second :=
  congrArg mk (insertEntry_insertEntry name first second b.entries)

theorem contains_insert (b : Bindings α) (name other : String) (value : α) :
    (b.insert name value).contains other = (other == name || b.contains other) := by
  by_cases same : other = name <;> simp [contains, find?_insert, same]

end Bindings

end Lox
