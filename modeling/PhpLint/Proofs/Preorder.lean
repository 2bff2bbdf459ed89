import PhpLint.Tree.Traversal

/-! Induction over forests, and the walk over a stack as a recursion over the forest it holds. -/

namespace PhpLint

theorem forestSize_lt_cons (node : Node) {below : Forest} (smaller : forestSize below < sizeOf node)
    (rest : Forest) : forestSize below < forestSize (some node :: rest) := by
  simp only [forestSize_cons, slotSize_some]
  omega

theorem forestSize_tail_lt (slot : Option Node) (rest : Forest) :
    forestSize rest < forestSize (slot :: rest) := by
  cases slot with
  | none => simp
  | some node =>
      have smaller := forestSize_children_lt node
      simp only [forestSize_cons, slotSize_some]
      omega

theorem slotSize_le_forestSize {slot : Option Node} {forest : Forest} (member : slot ∈ forest) :
    slotSize slot ≤ forestSize forest := by
  rcases List.append_of_mem member with ⟨before, after, split⟩
  rw [split, forestSize_append, forestSize_cons]
  omega

/-- What holds of a forest follows from what holds of all that fits below its first root, and of its
other roots. -/
@[elab_as_elim]
theorem forest_size_induction {motive : Forest → Prop} (nil : motive [])
    (missing : ∀ rest, motive rest → motive (none :: rest))
    (present : ∀ node rest, (∀ below, forestSize below < sizeOf node → motive below) →
      motive rest → motive (some node :: rest))
    (forest : Forest) : motive forest := by
  match forest with
  | [] => exact nil
  | none :: rest => exact missing rest (forest_size_induction nil missing present rest)
  | some node :: rest =>
      refine present node rest ?_ (forest_size_induction nil missing present rest)
      intro below smaller
      exact forest_size_induction nil missing present below
termination_by forestSize forest
decreasing_by
  · exact forestSize_tail_lt none rest
  · exact forestSize_lt_cons node smaller rest
  · exact forestSize_tail_lt (some node) rest

@[elab_as_elim]
theorem forest_induction {motive : Forest → Prop} (nil : motive [])
    (missing : ∀ rest, motive rest → motive (none :: rest))
    (present : ∀ node rest, motive node.children → motive rest → motive (some node :: rest))
    (forest : Forest) : motive forest := by
  induction forest using forest_size_induction with
  | nil => exact nil
  | missing rest ih => exact missing rest ih
  | present node rest below after =>
      exact present node rest (below node.children (forestSize_children_lt node)) after

variable (descend : Node → Bool)

@[simp]
theorem walkStack_nil : walkStack descend [] = [] := by rw [walkStack]

@[simp]
theorem walkStack_none (rest : Forest) :
    walkStack descend (none :: rest) = walkStack descend rest := by rw [walkStack]

@[simp]
theorem walkStack_append (left right : Forest) :
    walkStack descend (left ++ right) = walkStack descend left ++ walkStack descend right := by
  induction left using forest_induction generalizing right with
  | nil => simp
  | missing rest ih => simpa using ih right
  | present node rest below after =>
      rw [List.cons_append, walkStack, walkStack]
      split
      · rw [below, below, after, List.cons_append, List.append_assoc]
      · simp only [List.nil_append, List.cons_append, after]

@[simp]
theorem walkStack_some (node : Node) (rest : Forest) :
    walkStack descend (some node :: rest) =
      node :: ((if descend node then walkStack descend node.children else []) ++
        walkStack descend rest) := by
  rw [walkStack, walkStack_append]
  split <;> simp

end PhpLint
