import PhpLint.Proofs.Checks
import PhpLint.Rules.Workbench

/-! Histories of inspections. Whatever tasks are done in between, the issues of an inspection are
what its own tasks have added since it was started, one after the other. -/

namespace PhpLint.Workbench

/-- The inspection that a task is for. -/
def Task.name : Task → String
  | .start name _ | .check name _ _ | .report name _ _ _ _ _ | .read name => name

/-- What a task adds to the issues of an inspection. -/
def contribution (rule : Rule) (descendInto : Option (List Kind)) : Task → List Issue
  | .check _ forest filename => (rule.reports descendInto forest filename).1
  | .report _ (some node) filename message severity fixable =>
    [rule.issue ⟨node.pos, filename, message, severity, fixable⟩]
  | .report _ none _ _ _ _ | .start _ _ | .read _ => []

/-- The issues that are read off an inspection. -/
def issues? (bench : Workbench) (name : String) : Option (List Issue) :=
  (bench.get? name).map fun inspection => inspection.issues.toList

/-- An inspection with some rule, descent and issues is at work under a name. -/
def AtWork (bench : Workbench) (name : String) (rule : Rule) (descendInto : Option (List Kind))
    (issues : List Issue) : Prop :=
  ∃ filename, bench.get? name = some ⟨rule, descendInto, filename, issues.toArray⟩

theorem AtWork.issues {bench : Workbench} {name : String} {rule : Rule}
    {descendInto : Option (List Kind)} {issues : List Issue}
    (working : bench.AtWork name rule descendInto issues) : bench.issues? name = some issues := by
  obtain ⟨filename, found⟩ := working
  rw [issues?, found]
  rfl

theorem perform_get?_ne (bench : Workbench) (task : Task) {name : String}
    (elsewhere : task.name ≠ name) : (bench.perform task).1.get? name = bench.get? name := by
  cases task with
  | start other inspection => exact bench.get?_put_ne inspection elsewhere.symm
  | check other forest filename =>
      rw [perform]
      cases bench.get? other with
      | none => rfl
      | some inspection => exact bench.get?_put_ne _ elsewhere.symm
  | report other node filename message severity fixable =>
      rw [perform]
      cases bench.get? other with
      | none => rfl
      | some inspection =>
          cases node with
          | none => rfl
          | some node => exact bench.get?_put_ne _ elsewhere.symm
  | read other => rfl

variable {bench : Workbench} {name : String} {rule : Rule} {descendInto : Option (List Kind)}
  {issues : List Issue}

theorem AtWork.perform_own (working : bench.AtWork name rule descendInto issues) (task : Task)
    (own : task.name = name) (kept : ∀ inspection, task ≠ .start name inspection) :
    (bench.perform task).1.AtWork name rule descendInto
      (issues ++ contribution rule descendInto task) := by
  obtain ⟨filename, found⟩ := working
  cases task with
  | start other inspection =>
      obtain rfl : other = name := own
      exact absurd rfl (kept inspection)
  | check other forest checked =>
      obtain rfl : other = name := own
      refine ⟨checked, ?_⟩
      rw [perform, found]
      simp [Inspection.check_eq_reports, contribution]
  | report other node reported message severity fixable =>
      obtain rfl : other = name := own
      refine ⟨filename, ?_⟩
      rw [perform, found]
      cases node with
      | none => simpa [Inspection.report, contribution] using found
      | some node => simp [Inspection.report, contribution]
  | read other => exact ⟨filename, by simpa [perform, contribution] using found⟩

/-- One task adds its contribution to its own inspection and changes no other. -/
theorem AtWork.perform (working : bench.AtWork name rule descendInto issues) (task : Task)
    (kept : ∀ inspection, task ≠ .start name inspection) :
    (bench.perform task).1.AtWork name rule descendInto
      (issues ++ if task.name = name then contribution rule descendInto task else []) := by
  by_cases own : task.name = name
  · rw [if_pos own]
    exact working.perform_own task own kept
  · obtain ⟨filename, found⟩ := working
    refine ⟨filename, ?_⟩
    rw [bench.perform_get?_ne task own, found, if_neg own, List.append_nil]

theorem AtWork.run (working : bench.AtWork name rule descendInto issues) (tasks : List Task)
    (kept : ∀ inspection, .start name inspection ∉ tasks) :
    (bench.run tasks).AtWork name rule descendInto
      (issues ++ (tasks.filter (·.name = name)).flatMap (contribution rule descendInto)) := by
  induction tasks generalizing bench issues with
  | nil => simpa [Workbench.run] using working
  | cons task rest ih =>
      have first := working.perform task fun inspection same => kept inspection (by simp [same])
      have later := ih first fun inspection member => kept inspection (by simp [member])
      rw [Workbench.run]
      by_cases own : task.name = name
      · simpa [own] using later
      · simpa [own] using later

theorem run_append (bench : Workbench) (first second : List Task) :
    bench.run (first ++ second) = (bench.run first).run second := by
  induction first generalizing bench with
  | nil => rfl
  | cons task rest ih => exact ih _

theorem start_atWork (bench : Workbench) (before : List Task) (name : String) (rule : Rule)
    (descendInto : Option (List Kind)) (after : List Task)
    (kept : ∀ inspection, .start name inspection ∉ after) :
    (bench.run (before ++ .start name (.withDescent rule descendInto) :: after)).AtWork name rule
      descendInto ((after.filter (·.name = name)).flatMap (contribution rule descendInto)) := by
  rw [run_append, Workbench.run]
  have started : ((bench.run before).perform (.start name (.withDescent rule descendInto))).1.AtWork
      name rule descendInto [] := ⟨"", (bench.run before).get?_put_self name _⟩
  exact started.run after kept

/-- The issues of an inspection are what its own tasks have added since it was started, in their
order: a check what a fresh inspection reports, a report by hand one issue. So what was read earlier
stands at the front of what is read later. A report without a node fails and changes nothing. -/
theorem run_concatenates_contributions (bench : Workbench) (before : List Task) (name : String)
    (rule : Rule) (descendInto : Option (List Kind)) (after : List Task)
    (kept : ∀ inspection, .start name inspection ∉ after) :
    let reached (later : List Task) :=
      bench.run (before ++ .start name (.withDescent rule descendInto) :: later)
    (reached after).issues? name =
      some ((after.filter (·.name = name)).flatMap (contribution rule descendInto)) ∧
    (∀ earlier, earlier <+: after → ∃ seen issues, (reached earlier).issues? name = some seen ∧
      (reached after).issues? name = some issues ∧ seen <+: issues) ∧
    ∀ filename message severity fixable,
      (reached after).perform (.report name none filename message severity fixable) =
        (reached after, some (.report .noNode)) := by
  intro reached
  have working := bench.start_atWork before name rule descendInto after kept
  refine ⟨working.issues, ?_, ?_⟩
  · rintro earlier ⟨later, rfl⟩
    have seen := bench.start_atWork before name rule descendInto earlier fun inspection member =>
      kept inspection (List.mem_append_left later member)
    refine ⟨_, _, seen.issues, working.issues, ?_⟩
    rw [List.filter_append, List.flatMap_append]
    exact List.prefix_append _ _
  · intro filename message severity fixable
    obtain ⟨last, found⟩ := working
    rw [perform, found]
    rfl

/-- Two inspections side by side: a check of the other one and a report that fails add nothing. -/
theorem run_concatenates_calls :
    let calls : Rule := .reporting "Calls" "Test.Calls" .warning false none [.functionCall] []
    let call (line : Int) : Option Node := some ⟨⟨line, 1, 0⟩, .functionCall "f" []⟩
    let later : List Task :=
      [.check "a" [call 1] "one.php", .start "b" (.ofRule calls), .check "b" [call 7] "other.php",
        .report "a" none "one.php" "nothing" none none, .check "a" [none, call 2] "two.php",
        .report "a" (call 3) "two.php" "by hand" (some .error) none, .read "a"]
    (∀ inspection, .start "a" inspection ∉ later) ∧
    (Workbench.run .empty (.start "a" (.withDescent calls none) :: later)).issues? "a" =
      some [⟨"one.php", 1, 1, .warning, false, "visit FunctionCall", "Test.Calls"⟩,
        ⟨"two.php", 2, 1, .warning, false, "visit FunctionCall", "Test.Calls"⟩,
        ⟨"two.php", 3, 1, .error, false, "by hand", "Test.Calls"⟩] := by
  intro calls call later
  have kept : ∀ inspection, .start "a" inspection ∉ later := by simp [later]
  have quiet : ∀ filename node, calls.onLeave filename node = [] := by simp [calls, Rule.reporting]
  have first : walk [call 1] none = [⟨⟨1, 1, 0⟩, .functionCall "f" []⟩] := by
    simp [walk, call, Node.children]
  have second : walk [none, call 2] none = [⟨⟨2, 1, 0⟩, .functionCall "f" []⟩] := by
    simp [walk, call, Node.children]
  have added := (run_concatenates_contributions .empty [] "a" calls none later kept).1
  refine ⟨kept, added.trans ?_⟩
  simp only [later, Task.name, String.reduceEq, decide_true, decide_false, List.filter_cons,
    List.filter_nil, if_true, Bool.false_eq_true, if_false, List.flatMap_cons, List.flatMap_nil,
    contribution, calls.reports_eq_chain _ (quiet _), Option.map_none, first, second]
  rfl

end PhpLint.Workbench
