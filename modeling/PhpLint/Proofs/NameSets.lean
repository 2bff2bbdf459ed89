import PhpLint.Calls.NameSet

/-! Membership in sets of names: a name is a member if its normal form is that of a name put in. -/

namespace PhpLint.NameSet

theorem mem_insertSorted (name other : String) (names : List String) :
    other ∈ insertSorted name names ↔ other = name ∨ other ∈ names := by
  induction names with
  | nil => simp [insertSorted]
  | cons first rest ih =>
      rw [insertSorted]
      split
      · simp
      · split
        next same => simp [same]
        next => rw [List.mem_cons, ih, List.mem_cons, or_left_comm]

theorem insertAll_caseSensitive (set : NameSet) (names : List String) :
    (set.insertAll names).caseSensitive = set.caseSensitive := by
  induction names generalizing set with
  | nil => rfl
  | cons name rest ih => exact ih (set.insert name)

theorem contains_empty (caseSensitive : Bool) (name : String) :
    ¬(empty caseSensitive).contains name = true := by
  simp [contains, empty]

theorem contains_insert (set : NameSet) (name other : String) :
    (set.insert name).contains other = true ↔
      normalize set.caseSensitive name = normalize set.caseSensitive other ∨
        set.contains other = true := by
  simp only [contains, insert, List.contains_iff_mem, mem_insertSorted]
  exact or_congr_left eq_comm

theorem contains_insertAll (set : NameSet) (names : List String) (other : String) :
    (set.insertAll names).contains other = true ↔
      (∃ name ∈ names, normalize set.caseSensitive name = normalize set.caseSensitive other) ∨
        set.contains other = true := by
  induction names generalizing set with
  | nil => simp [insertAll]
  | cons name rest ih =>
      have later := ih (set.insert name)
      rw [insertAll, List.foldl_cons, ← insertAll, later, contains_insert]
      simp only [insert, List.mem_cons, exists_eq_or_imp]
      rw [or_left_comm, or_assoc]

end PhpLint.NameSet
