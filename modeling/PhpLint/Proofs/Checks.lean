import PhpLint.Proofs.Visits
import PhpLint.Rules.Inspection

/-! What a check finds. A rule looks at nodes as they are entered and left, one after the other until
a look fails; one that says nothing on leaving looks at the nodes of the walk. What a check adds does
not depend on what was found before. -/

namespace PhpLint

namespace Look

/-- One look after another, which is not taken once the first has failed. -/
def andThen (first second : Look) : Look :=
  match first.failure with
  | some _ => first
  | none => ⟨first.findings ++ second.findings, second.failure⟩

/-- Looks one after the other, up to the first that fails. -/
def chain (looks : List Look) : Look := looks.foldr andThen (full [])

theorem andThen_of_failed {first : Look} {error : NestingError}
    (failed : first.failure = some error) (second : Look) : first.andThen second = first := by
  rw [andThen, failed]

theorem andThen_of_done {first : Look} (done : first.failure = none) (second : Look) :
    first.andThen second = ⟨first.findings ++ second.findings, second.failure⟩ := by
  rw [andThen, done]

@[simp]
theorem full_andThen (findings : List Finding) (second : Look) :
    (full findings).andThen second = ⟨findings ++ second.findings, second.failure⟩ := rfl

@[simp]
theorem andThen_full_nil (look : Look) : look.andThen (full []) = look := by
  obtain ⟨findings, failure⟩ := look
  cases failure with
  | none => simp [andThen, full]
  | some error => rfl

theorem andThen_assoc (first second third : Look) :
    (first.andThen second).andThen third = first.andThen (second.andThen third) := by
  obtain ⟨found, failure⟩ := first
  obtain ⟨others, stopped⟩ := second
  cases failure with
  | some error => rfl
  | none =>
      cases stopped with
      | some error => rfl
      | none => simp [andThen]

@[simp]
theorem chain_nil : chain [] = full [] := rfl

@[simp]
theorem chain_cons (look : Look) (rest : List Look) :
    chain (look :: rest) = look.andThen (chain rest) := rfl

theorem chain_append (left right : List Look) :
    chain (left ++ right) = (chain left).andThen (chain right) := by
  induction left with
  | nil => simp
  | cons look rest ih => rw [List.cons_append, chain_cons, ih, chain_cons, andThen_assoc]

theorem chain_flatMap {α : Type} (items : List α) (looks : α → List Look) :
    chain (items.flatMap looks) = chain (items.map fun item => chain (looks item)) := by
  induction items with
  | nil => rfl
  | cons item rest ih => rw [List.flatMap_cons, chain_append, ih, List.map_cons, chain_cons]

theorem chain_map_full {α : Type} (items : List α) (findings : α → List Finding) :
    chain (items.map fun item => full (findings item)) = full (items.flatMap findings) := by
  induction items with
  | nil => rfl
  | cons item rest ih =>
      rw [List.map_cons, chain_cons, ih, full_andThen, List.flatMap_cons]
      rfl

end Look

theorem Visitor.visit_map {σ τ : Type} {visitor : Visitor σ} {other : Visitor τ} {image : σ → τ}
    (enters : ∀ node state, other.enter node (image state) =
      ((visitor.enter node state).1, image (visitor.enter node state).2))
    (leaves : ∀ node state, other.leave node (image state) = image (visitor.leave node state))
    (forest : Forest) (state : σ) :
    other.visit forest (image state) = image (visitor.visit forest state) := by
  induction forest using forest_induction generalizing state with
  | nil => rw [visit, visit]
  | missing rest ih => rw [visit, visit, ih]
  | present node rest below after =>
      rw [visit, visit, enters]
      rcases visitor.enter node state with ⟨descends, inside⟩
      cases descends with
      | false => simp [leaves, after]
      | true => simp [below, leaves, after]

/-- The tasks of a traversal in which the node alone decides about its children, in their order. -/
def Visitor.itinerary (descend : Node → Bool) : Forest → List Task
  | [] => []
  | none :: rest => itinerary descend rest
  | some node :: rest =>
    let below := if descend node then itinerary descend node.children else []
    .enter node :: below ++ .leave node :: itinerary descend rest
termination_by forest => forestSize forest
decreasing_by
  · exact forestSize_tail_lt none rest
  · exact forestSize_lt_cons node (forestSize_children_lt node) rest
  · exact forestSize_tail_lt (some node) rest

/-- What a rule finds at a node that is entered or left. -/
def Rule.lookAt (rule : Rule) (filename : String) : Visitor.Task → Look
  | .enter node => rule.onEnter filename node
  | .leave node => .full (rule.onLeave filename node)

theorem Rule.chain_itinerary_of_quiet (rule : Rule) (filename : String)
    (quiet : ∀ node, rule.onLeave filename node = []) (descend : Node → Bool) (forest : Forest) :
    Look.chain ((Visitor.itinerary descend forest).map (rule.lookAt filename)) =
      Look.chain ((walkStack descend forest).map (rule.onEnter filename)) := by
  induction forest using forest_induction with
  | nil => rw [Visitor.itinerary, walkStack_nil, List.map_nil, List.map_nil]
  | missing rest ih => rw [Visitor.itinerary, walkStack_none, ih]
  | present node rest below after =>
      rw [Visitor.itinerary, walkStack_some]
      cases descend node with
      | false => simp [lookAt, quiet, after]
      | true => simp [lookAt, quiet, below, after, Look.chain_append]

namespace Inspection

@[simp]
theorem withDescent_rule (rule : Rule) (descendInto : Option (List Kind)) :
    (withDescent rule descendInto).rule = rule := rfl

@[simp]
theorem withDescent_issues (rule : Rule) (descendInto : Option (List Kind)) :
    (withDescent rule descendInto).issues = #[] := rfl

/-- How far a check has come after a look. -/
def Progress.afterLook (rule : Rule) (issues : Array Issue) (look : Look) : Progress :=
  ⟨issues ++ look.findings.map rule.issue, look.failure⟩

theorem enter_of_failed (inspection : Inspection) (filename : String) (issues : Array Issue)
    {look : Look} {error : NestingError} (failed : look.failure = some error) (node : Node) :
    (inspection.visitor filename).enter node (.afterLook inspection.rule issues look) =
      (false, .afterLook inspection.rule issues look) := by
  simp [visitor, Progress.afterLook, failed]

theorem enter_of_done (inspection : Inspection) (filename : String) (issues : Array Issue)
    {look : Look} (done : look.failure = none) (node : Node) :
    (inspection.visitor filename).enter node (.afterLook inspection.rule issues look) =
      (inspection.descends node, .afterLook inspection.rule issues
        (look.andThen (inspection.rule.onEnter filename node))) := by
  rw [Look.andThen_of_done done]
  simp [visitor, visitor.found, Progress.afterLook, done, ← Array.toList_inj]

theorem leave_afterLook (inspection : Inspection) (filename : String) (issues : Array Issue)
    (look : Look) (node : Node) :
    (inspection.visitor filename).leave node (.afterLook inspection.rule issues look) =
      .afterLook inspection.rule issues
        (look.andThen (.full (inspection.rule.onLeave filename node))) := by
  cases failed : look.failure with
  | some error =>
      rw [Look.andThen_of_failed failed]
      simp [visitor, Progress.afterLook, failed]
  | none =>
      rw [Look.andThen_of_done failed]
      simp [visitor, visitor.found, Progress.afterLook, Look.full, failed, ← Array.toList_inj]

/-- A check looks at the nodes of its itinerary in turn, until a look fails. -/
theorem visit_afterLook (inspection : Inspection) (filename : String) (forest : Forest)
    (issues : Array Issue) (look : Look) :
    (inspection.visitor filename).visit forest (.afterLook inspection.rule issues look) =
      .afterLook inspection.rule issues (look.andThen (.chain
        ((Visitor.itinerary inspection.descends forest).map (inspection.rule.lookAt filename)))) := by
  induction forest using forest_induction generalizing look with
  | nil => simp [Visitor.visit, Visitor.itinerary]
  | missing rest ih => rw [Visitor.visit, ih, Visitor.itinerary]
  | present node rest below after =>
      rw [Visitor.visit]
      cases failed : look.failure with
      | some error =>
          -- Nothing below the node is looked at either, though the itinerary goes there.
          rw [inspection.enter_of_failed filename issues failed, Look.andThen_of_failed failed]
          simp [inspection.leave_afterLook, after, Look.andThen_of_failed failed]
      | none =>
          rw [inspection.enter_of_done filename issues failed, Visitor.itinerary]
          cases inspection.descends node with
          | false => simp [inspection.leave_afterLook, after, Look.andThen_assoc, Rule.lookAt]
          | true =>
              simp [inspection.leave_afterLook, below, after, Look.andThen_assoc, Look.chain_append,
                Rule.lookAt]

end Inspection

/-- What a fresh inspection reports on a forest, and why it stopped if it did. -/
def Rule.reports (rule : Rule) (descendInto : Option (List Kind)) (forest : Forest)
    (filename : String) : List Issue × Option NestingError :=
  let (checked, failure) := (Inspection.withDescent rule descendInto).check forest filename
  (checked.issues.toList, failure)

theorem Rule.reports_eq_itinerary (rule : Rule) (filename : String)
    (descendInto : Option (List Kind)) (forest : Forest) :
    rule.reports descendInto forest filename =
      let look := Look.chain ((Visitor.itinerary
        ((descendInto.map Node.isOneOf).getD fun _ => true) forest).map (rule.lookAt filename))
      (look.findings.map rule.issue, look.failure) := by
  let fresh := Inspection.withDescent rule descendInto
  have descends : fresh.descends = (descendInto.map Node.isOneOf).getD fun _ => true := by
    cases descendInto <;> rfl
  have visited : (fresh.visitor filename).visit forest ⟨#[], none⟩ = _ :=
    fresh.visit_afterLook filename forest #[] (.full [])
  rw [descends] at visited
  simp only [reports, Inspection.check, Visitor.traverse_eq_visit, Inspection.withDescent_issues]
  rw [visited]
  simp [fresh, Inspection.Progress.afterLook]

theorem Rule.reports_eq_chain (rule : Rule) (filename : String)
    (quiet : ∀ node, rule.onLeave filename node = []) (descendInto : Option (List Kind))
    (forest : Forest) :
    rule.reports descendInto forest filename =
      let look := Look.chain
        ((walk forest (descendInto.map Node.isOneOf)).map (rule.onEnter filename))
      (look.findings.map rule.issue, look.failure) := by
  rw [rule.reports_eq_itinerary, rule.chain_itinerary_of_quiet filename quiet, walk]

namespace Inspection

/-- A check adds what a fresh inspection reports, whatever was found before. -/
theorem check_eq_reports (inspection : Inspection) (forest : Forest) (filename : String) :
    inspection.check forest filename =
      let (added, failure) := inspection.rule.reports inspection.descendInto forest filename
      ({ inspection with filename := filename, issues := inspection.issues ++ added },
        failure) := by
  let fresh := withDescent inspection.rule inspection.descendInto
  let prepend : Progress → Progress := fun progress =>
    ⟨inspection.issues ++ progress.issues, progress.failure⟩
  have enters : ∀ node progress, (inspection.visitor filename).enter node (prepend progress) =
      (((fresh.visitor filename).enter node progress).1,
        prepend ((fresh.visitor filename).enter node progress).2) := by
    intro node progress
    by_cases stopped : progress.failure.isSome = true
    · simp [visitor, prepend, stopped]
    · simp [visitor, visitor.found, prepend, fresh, withDescent, descends, stopped,
        ← Array.toList_inj]
  have leaves : ∀ node progress, (inspection.visitor filename).leave node (prepend progress) =
      prepend ((fresh.visitor filename).leave node progress) := by
    intro node progress
    by_cases stopped : progress.failure.isSome = true
    · simp [visitor, prepend, stopped]
    · simp [visitor, visitor.found, prepend, fresh, withDescent, stopped, ← Array.toList_inj]
  have moved := Visitor.visit_map enters leaves forest ⟨#[], none⟩
  simp only [prepend, Array.append_empty] at moved
  simp only [check, Rule.reports, Visitor.traverse_eq_visit, moved]
  simp [fresh, ← Array.toList_inj]

end Inspection

end PhpLint
