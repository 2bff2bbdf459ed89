import Mathlib.Data.List.Flatten
import PhpLint.Proofs.BundledRules
import PhpLint.Proofs.Occurrences

/-! Wider descent. A traversal that goes into more nodes does all that a narrower one does, in the
same order, and more in between; so a rule that descends further reports more, in place. -/

namespace PhpLint

variable {narrow wide : Node → Bool}

/-- What a narrower descent lists below a node is among what a wider one lists there. -/
theorem below_sublist {α : Type} (wider : ∀ node, narrow node = true → wide node = true)
    (node : Node) {few many : List α} (inside : few.Sublist many) :
    (if narrow node then few else []).Sublist (if wide node then many else []) := by
  cases goes : narrow node with
  | false => exact List.nil_sublist _
  | true =>
      rw [if_pos rfl, if_pos (wider node goes)]
      exact inside

theorem occurrences_sublist (wider : ∀ node, narrow node = true → wide node = true)
    (forest : Forest) : (occurrences narrow forest).Sublist (occurrences wide forest) := by
  induction forest using forest_size_induction with
  | nil =>
      rw [occurrences, occurrences]
  | missing rest ih =>
      rw [occurrences, occurrences]
      exact ih.map _
  | present node rest below after =>
      have inside := below node.slots node.forestSize_slots_lt
      rw [occurrences, occurrences]
      exact .cons_cons _ (.append (.map _ (below_sublist wider node inside)) (after.map _))

theorem itinerary_sublist (wider : ∀ node, narrow node = true → wide node = true)
    (forest : Forest) :
    (Visitor.itinerary narrow forest).Sublist (Visitor.itinerary wide forest) := by
  induction forest using forest_induction with
  | nil =>
      rw [Visitor.itinerary, Visitor.itinerary]
  | missing rest ih =>
      rw [Visitor.itinerary, Visitor.itinerary]
      exact ih
  | present node rest below after =>
      rw [Visitor.itinerary, Visitor.itinerary]
      exact .cons_cons _ (.append (below_sublist wider node below) (.cons_cons _ after))

namespace Look

theorem chain_failure_eq_none_iff (looks : List Look) :
    (chain looks).failure = none ↔ ∀ look ∈ looks, look.failure = none := by
  induction looks with
  | nil => simp [full]
  | cons look rest ih =>
      rw [chain_cons]
      cases failed : look.failure with
      | some error => simp [andThen_of_failed failed, failed]
      | none => simp [andThen_of_done failed, failed, ih]

theorem chain_findings_of_done {looks : List Look} (done : (chain looks).failure = none) :
    (chain looks).findings = looks.flatMap findings := by
  induction looks with
  | nil => rfl
  | cons look rest ih =>
      have each := (chain_failure_eq_none_iff (look :: rest)).mp done
      have later := (chain_failure_eq_none_iff rest).mpr fun other member =>
        each other (List.mem_cons_of_mem look member)
      rw [chain_cons, andThen_of_done (each look List.mem_cons_self), ih later, List.flatMap_cons]

/-- Leaving some looks out of a chain that comes to its end leaves out what they find. -/
theorem chain_sublist {few many : List Look} (among : few.Sublist many)
    (done : (chain many).failure = none) :
    (chain few).failure = none ∧ (chain few).findings.Sublist (chain many).findings := by
  have finished : (chain few).failure = none :=
    (chain_failure_eq_none_iff few).mpr fun look member =>
      (chain_failure_eq_none_iff many).mp done look (among.subset member)
  refine ⟨finished, ?_⟩
  rw [chain_findings_of_done finished, chain_findings_of_done done]
  exact among.flatMap findings

end Look

/-- Descent into no other kinds. Where no kinds are given, it goes into all. -/
def WithinDescent (narrow wide : Option (List Kind)) : Prop :=
  ∀ kinds ∈ wide, ∃ fewer ∈ narrow, fewer ⊆ kinds

theorem WithinDescent.wider {narrow wide : Option (List Kind)} (within : WithinDescent narrow wide)
    (node : Node) (goes : (narrow.map Node.isOneOf).getD (fun _ => true) node = true) :
    (wide.map Node.isOneOf).getD (fun _ => true) node = true := by
  cases wide with
  | none => rfl
  | some kinds =>
      rcases within kinds rfl with ⟨fewer, given, included⟩
      rw [Option.mem_def.mp given] at goes
      simp only [Option.map_some, Option.getD_some, Node.isOneOf, List.contains_eq_mem,
        decide_eq_true_eq] at goes ⊢
      exact included goes

namespace Rule

/-- None of the rule's looks at a file fails; all it does is to add findings. -/
def OnlyAdds (rule : Rule) (filename : String) : Prop :=
  ∀ node, (rule.onEnter filename node).failure = none

theorem OnlyAdds.finishes {rule : Rule} {filename : String} (adds : rule.OnlyAdds filename)
    (descendInto : Option (List Kind)) (forest : Forest) :
    (rule.reports descendInto forest filename).2 = none := by
  rw [rule.reports_eq_itinerary, Look.chain_failure_eq_none_iff]
  intro look member
  rcases List.mem_map.mp member with ⟨task, _, same⟩
  rw [← same]
  cases task with
  | enter node => exact adds node
  | leave node => rfl

theorem reports_sublist (rule : Rule) (filename : String) {narrow wide : Option (List Kind)}
    (within : WithinDescent narrow wide) (forest : Forest)
    (finished : (rule.reports wide forest filename).2 = none) :
    (rule.reports narrow forest filename).2 = none ∧
      (rule.reports narrow forest filename).1.Sublist (rule.reports wide forest filename).1 := by
  rw [rule.reports_eq_itinerary] at finished ⊢
  rw [rule.reports_eq_itinerary]
  rcases Look.chain_sublist ((itinerary_sublist within.wider forest).map _) finished with
    ⟨done, among⟩
  exact ⟨done, among.map rule.issue⟩

end Rule

/-- A walk with a wider descent lists the occurrences of a narrower one in their order, and more in
between. So a rule that only adds findings reports with the wider descent all that it reports with
the narrower one, in the same order; and so does one that may stop, if the wider check comes to its
end. -/
theorem wider_descent_adds_in_place (forest : Forest) :
    (∀ narrow wide : Node → Bool, (∀ node, narrow node = true → wide node = true) →
      (occurrences narrow forest).Sublist (occurrences wide forest) ∧
      (occurrences narrow forest).map Prod.snd = walk forest (some narrow) ∧
      (occurrences wide forest).map Prod.snd = walk forest (some wide)) ∧
    (∀ (rule : Rule) (filename : String) (narrow wide : Option (List Kind)),
      WithinDescent narrow wide →
      let few := rule.reports narrow forest filename
      let many := rule.reports wide forest filename
      (rule.OnlyAdds filename → few.2 = none ∧ many.2 = none ∧ few.1.Sublist many.1) ∧
      (many.2 = none → few.2 = none ∧ few.1.Sublist many.1)) ∧
    ∀ filename, (Rules.longArray.reports Rules.longArray.descendInto forest filename).1.Sublist
      (Rules.longArray.reports none forest filename).1 := by
  refine ⟨?_, ?_, ?_⟩
  · intro narrow wide wider
    exact ⟨occurrences_sublist wider forest, occurrences_nodes narrow forest,
      occurrences_nodes wide forest⟩
  · intro rule filename narrow wide within few many
    refine ⟨?_, rule.reports_sublist filename within forest⟩
    intro adds
    have finished := adds.finishes wide forest
    rcases rule.reports_sublist filename within forest finished with ⟨done, among⟩
    exact ⟨done, finished, among⟩
  · intro filename
    have adds : Rules.longArray.OnlyAdds filename := fun node => by
      rw [Rules.longArray_looks]
      rfl
    have within : WithinDescent Rules.longArray.descendInto none := by
      intro kinds given
      cases given
    exact (Rules.longArray.reports_sublist filename within forest (adds.finishes none forest)).2

/-- The array is met by both checks; what is in it only by the one that goes into arrays, between the
array's own two issues. -/
theorem wider_descent_adds_element :
    let name (column : Int) : Node := ⟨⟨1, column, 0⟩, .variableRef "x"⟩
    let array : Node := ⟨⟨1, 6, 0⟩, .array [some (name 7)] false⟩
    let assigned : Node := ⟨⟨1, 4, 0⟩, .assignment (some (name 1)) (some array)⟩
    let forest : Forest := [none, some assigned]
    let narrow : Option (List Kind) := some [.assignment]
    let wide : Option (List Kind) := some [.array, .assignment]
    let rule : Rule := .reporting "Seen" "Test.Seen" .warning false none [.variableRef, .array] [.array]
    let seen (column : Int) (message : String) : Issue :=
      ⟨"a.php", 1, column, .warning, false, message, "Test.Seen"⟩
    ((∀ node : Node, node.isOneOf [.assignment] = true →
        node.isOneOf [.array, .assignment] = true) ∧
      (occurrences (Node.isOneOf [.assignment]) forest).Sublist
        (occurrences (Node.isOneOf [.array, .assignment]) forest)) ∧
    WithinDescent narrow wide ∧ rule.OnlyAdds "a.php" ∧
    (rule.reports narrow forest "a.php").1 =
      [seen 1 "visit Variable", seen 6 "visit Array", seen 6 "leave Array"] ∧
    (rule.reports wide forest "a.php").1 =
      [seen 1 "visit Variable", seen 6 "visit Array", seen 7 "visit Variable", seen 6 "leave Array"] ∧
    (rule.reports narrow forest "a.php").1.Sublist (rule.reports wide forest "a.php").1 := by
  intro name array assigned forest narrow wide rule seen
  have wider : ∀ node : Node, node.isOneOf [.assignment] = true →
      node.isOneOf [.array, .assignment] = true := by
    intro node goes
    simp only [Node.isOneOf, List.contains_eq_mem, decide_eq_true_eq] at goes ⊢
    exact List.mem_cons_of_mem _ goes
  have within : WithinDescent narrow wide := by
    intro kinds given
    rw [← Option.some.inj given]
    exact ⟨[.assignment], rfl, by decide⟩
  have adds : rule.OnlyAdds "a.php" := fun _ => rfl
  have short : Visitor.itinerary (Node.isOneOf [.assignment]) forest =
      [.enter assigned, .enter (name 1), .leave (name 1), .enter array, .leave array,
        .leave assigned] := by
    simp [Visitor.itinerary, forest, assigned, array, name, Node.kind, Shape.kind, Node.children,
      Node.isOneOf]
  have long : Visitor.itinerary (Node.isOneOf [.array, .assignment]) forest =
      [.enter assigned, .enter (name 1), .leave (name 1), .enter array, .enter (name 7),
        .leave (name 7), .leave array, .leave assigned] := by
    simp [Visitor.itinerary, forest, assigned, array, name, Node.kind, Shape.kind, Node.children,
      Node.isOneOf]
  rcases wider_descent_adds_in_place forest with ⟨walks, reports, _⟩
  refine ⟨⟨wider, (walks _ _ wider).1⟩, within, adds, ?_, ?_,
    ((reports rule "a.php" narrow wide within).1 adds).2.2⟩
  · rw [rule.reports_eq_itinerary, Option.map_some, Option.getD_some, short]
    rfl
  · rw [rule.reports_eq_itinerary, Option.map_some, Option.getD_some, long]
    rfl

end PhpLint
