/-! Items kept under names. -/

namespace PhpLint

structure Keyed (α : Type) where
  entries : List (String × α)

namespace Keyed

variable {α : Type}

def empty : Keyed α := ⟨[]⟩

def get? (kept : Keyed α) (name : String) : Option α := kept.entries.lookup name

/-- Keeps an item in the place of what its name had. -/
def put (kept : Keyed α) (name : String) (item : α) : Keyed α :=
  ⟨(name, item) :: kept.entries.filter (·.1 ≠ name)⟩

theorem lookup_filter_ne (entries : List (String × α)) {name other : String}
    (distinct : other ≠ name) :
    (entries.filter (·.1 ≠ name)).lookup other = entries.lookup other := by
  induction entries with
  | nil => rfl
  | cons entry rest ih =>
    obtain ⟨key, item⟩ := entry
    by_cases dropped : key = name
    · subst dropped
      rw [List.filter_cons_of_neg (by simp), ih, List.lookup_cons, beq_false_of_ne distinct]
    · rw [List.filter_cons_of_pos (by simpa using dropped), List.lookup_cons, List.lookup_cons, ih]

@[simp]
theorem get?_put_self (kept : Keyed α) (name : String) (item : α) :
    (kept.put name item).get? name = some item := by
  simp [get?, put]

theorem get?_put_ne (kept : Keyed α) {name other : String} (item : α) (distinct : other ≠ name) :
    (kept.put name item).get? other = kept.get? other := by
  rw [get?, put, List.lookup_cons, beq_false_of_ne distinct]
  exact lookup_filter_ne kept.entries distinct

end Keyed

end PhpLint
