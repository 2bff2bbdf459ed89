import PhpLint.Proofs.Occurrences

/-! Walks with deletions: what is left of a walk when the nodes at hidden places are dropped, taken
apart by the slots of the forest. -/

namespace PhpLint

/-- Some node hides a place: the one at it, or one on the way to it. What a node hides is said by paths
that start at it. -/
def Hidden (hides : Node → Path → Bool) (forest : Forest) (path : Path) : Prop :=
  ∃ part below node,
    part ++ below = path ∧ nodeAt forest part = some node ∧ hides node below = true

def hidden (hides : Node → Path → Bool) (forest : Forest) : Path → Bool
  | [] => false
  | index :: path =>
    forest[index]?.join.any fun node => hides node path || hidden hides node.slots path

variable (hides : Node → Path → Bool)

theorem hidden_cons (forest : Forest) (index : Nat) (path : Path) :
    Hidden hides forest (index :: path) ↔
      ∃ part below node, part ++ below = path ∧ nodeAt forest (index :: part) = some node ∧
        hides node below = true := by
  constructor
  · rintro ⟨part, below, node, joined, reached, out⟩
    cases part with
    | nil => simp at reached
    | cons first part =>
        obtain ⟨rfl, rfl⟩ : first = index ∧ part ++ below = path := by simpa using joined
        exact ⟨part, below, node, rfl, reached, out⟩
  · rintro ⟨part, below, node, rfl, reached, out⟩
    exact ⟨index :: part, below, node, rfl, reached, out⟩

theorem hidden_iff (forest : Forest) (path : Path) :
    hidden hides forest path = true ↔ Hidden hides forest path := by
  induction path generalizing forest with
  | nil => simp [hidden, Hidden]
  | cons index path ih =>
      rw [hidden, hidden_cons]
      cases found : forest[index]?.join with
      | none => simp [nodeAt, found]
      | some node =>
          have reaches : ∀ part, nodeAt forest (index :: part) =
              if part = [] then some node else nodeAt node.slots part := by
            intro part
            simp [nodeAt, found]
          simp only [reaches, Option.any_some, Bool.or_eq_true, ih]
          constructor
          · rintro (here | ⟨part, below, other, rfl, reached, out⟩)
            · exact ⟨[], path, node, rfl, rfl, here⟩
            · have started : part ≠ [] := by
                rintro rfl
                simp at reached
              exact ⟨part, below, other, rfl, by rwa [if_neg started], out⟩
          · rintro ⟨part, below, other, rfl, reached, out⟩
            by_cases started : part = []
            · obtain rfl : node = other := by simpa [started] using reached
              exact .inl (by simpa [started] using out)
            · exact .inr ⟨part, below, other, rfl, by rwa [if_neg started] at reached, out⟩

instance (forest : Forest) (path : Path) : Decidable (Hidden hides forest path) :=
  decidable_of_iff _ (hidden_iff hides forest path)

theorem hidden_present (node : Node) (rest : Forest) (path : Path) :
    hidden hides (some node :: rest) (0 :: path) =
      (hides node path || hidden hides node.slots path) := rfl

/-- The nodes that are left of a walk when some places are dropped. -/
def kept (drop : Path → Bool) (forest : Forest) : List Node :=
  ((occurrences (fun _ => true) forest).filter fun place => !drop place.1).map Prod.snd

theorem kept_hidden (forest : Forest) :
    kept (hidden hides forest) forest =
      ((occurrences (fun _ => true) forest).filter fun (path, _) =>
        ¬Hidden hides forest path).map Prod.snd := by
  rw [kept]
  congr 2
  funext place
  by_cases out : Hidden hides forest place.1
  · simp [out, (hidden_iff hides forest place.1).mpr out]
  · have shown : hidden hides forest place.1 = false := by
      rw [← Bool.not_eq_true, hidden_iff]
      exact out
    simp [out, shown]

theorem filter_relabel (keep : Path → Bool) (move : Path → Path) (listing : List (Path × Node)) :
    ((relabel move listing).filter fun place => keep place.1).map Prod.snd =
      (listing.filter fun place => keep (move place.1)).map Prod.snd := by
  simp [relabel, List.filter_map, Function.comp_def]

@[simp]
theorem kept_nil (drop : Path → Bool) : kept drop [] = [] := by
  simp [kept, occurrences]

theorem kept_none (drop : Path → Bool) (rest : Forest) :
    kept drop (none :: rest) = kept (fun path => drop path.shift) rest := by
  rw [kept, occurrences, filter_relabel fun path => !drop path]
  rfl

theorem kept_some (drop : Path → Bool) (node : Node) (rest : Forest) :
    kept drop (some node :: rest) =
      (if drop [0] then [] else [node]) ++ kept (fun path => drop (0 :: path)) node.slots ++
        kept (fun path => drop path.shift) rest := by
  rw [kept, occurrences, if_pos rfl, List.cons_append, List.filter_cons, List.filter_append]
  rw [apply_ite (List.map Prod.snd), List.map_cons, List.map_append,
    filter_relabel fun path => !drop path, filter_relabel fun path => !drop path]
  cases drop [0] <;> rfl

theorem kept_congr {drop other : Path → Bool} {forest : Forest}
    (same : ∀ index path, index < forest.length → drop (index :: path) = other (index :: path)) :
    kept drop forest = kept other forest := by
  induction forest generalizing drop other with
  | nil => simp
  | cons slot rest ih =>
      have later : kept (fun path => drop path.shift) rest = kept (fun path => other path.shift) rest :=
        ih fun index path inside => same (index + 1) path (Nat.succ_lt_succ inside)
      cases slot with
      | none => rw [kept_none, kept_none, later]
      | some node =>
          have first : ∀ path, drop (0 :: path) = other (0 :: path) := fun path =>
            same 0 path (Nat.zero_lt_succ _)
          simp only [kept_some, first, later]

theorem kept_eq_nil {drop : Path → Bool} {forest : Forest}
    (dropped : ∀ index path, index < forest.length → drop (index :: path) = true) :
    kept drop forest = [] := by
  have all : kept drop forest = kept (fun _ => true) forest := kept_congr dropped
  rw [all, kept]
  simp

/-- The path to the same place once some slots stand before all others. -/
def Path.shiftBy (count : Nat) : Path → Path
  | [] => []
  | index :: path => (index + count) :: path

theorem kept_append (drop : Path → Bool) (left right : Forest) :
    kept drop (left ++ right) =
      kept drop left ++ kept (fun path => drop (Path.shiftBy left.length path)) right := by
  induction left generalizing drop with
  | nil =>
      rw [List.nil_append, kept_nil, List.nil_append]
      exact kept_congr fun _ _ _ => rfl
  | cons slot rest ih =>
      have moved : kept (fun path => drop (Path.shiftBy rest.length path).shift) right =
          kept (fun path => drop (Path.shiftBy (slot :: rest).length path)) right :=
        kept_congr fun _ _ _ => rfl
      cases slot with
      | none => rw [List.cons_append, kept_none, kept_none, ih, moved]
      | some node =>
          rw [List.cons_append, kept_some, kept_some, ih, moved]
          simp only [List.append_assoc]

theorem hidden_append_left {left : Forest} (right : Forest) {index : Nat}
    (inside : index < left.length) (path : Path) :
    hidden hides (left ++ right) (index :: path) = hidden hides left (index :: path) := by
  rw [hidden, hidden, List.getElem?_append_left inside]

theorem hidden_append_right (left right : Forest) (path : Path) :
    hidden hides (left ++ right) (Path.shiftBy left.length path) = hidden hides right path := by
  cases path with
  | nil => rfl
  | cons index path =>
      rw [Path.shiftBy, hidden, hidden, List.getElem?_append_right (Nat.le_add_left _ _),
        Nat.add_sub_cancel]

/-- The nodes that are left below one that may hide some of them. -/
def keptBelow (node : Node) : List Node :=
  kept (fun path => hides node path || hidden hides node.slots path) node.slots

theorem kept_hidden_none (rest : Forest) :
    kept (hidden hides (none :: rest)) (none :: rest) = kept (hidden hides rest) rest := by
  rw [kept_none]
  exact kept_congr fun _ _ _ => rfl

theorem kept_hidden_some (node : Node) (rest : Forest) :
    kept (hidden hides (some node :: rest)) (some node :: rest) =
      (if hides node [] then [] else [node]) ++ keptBelow hides node ++
        kept (hidden hides rest) rest := by
  have itself : hidden hides (some node :: rest) [0] = hides node [] := by simp [hidden]
  have later : kept (fun path => hidden hides (some node :: rest) path.shift) rest =
      kept (hidden hides rest) rest := kept_congr fun _ _ _ => rfl
  rw [kept_some, itself, later]
  rfl

/-- Without the roots themselves, what is left is what is left below each of them. -/
theorem kept_below_roots (forest : Forest) :
    kept (fun path => path.length == 1 || hidden hides forest path) forest =
      (forest.filterMap id).flatMap (keptBelow hides) := by
  induction forest with
  | nil => simp
  | cons slot rest ih =>
      have later : kept (fun path => path.shift.length == 1 ||
          hidden hides (slot :: rest) path.shift) rest =
          kept (fun path => path.length == 1 || hidden hides rest path) rest :=
        kept_congr fun _ _ _ => rfl
      cases slot with
      | none =>
          rw [kept_none, later, ih]
          rfl
      | some node =>
          have below : kept (fun path => (0 :: path).length == 1 ||
              hidden hides (some node :: rest) (0 :: path)) node.slots = keptBelow hides node :=
            kept_congr fun _ _ _ => by simp [hidden_present]
          rw [kept_some, below, later, ih]
          rfl

end PhpLint
