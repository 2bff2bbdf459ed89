import PhpLint.Proofs.Rearrangement

/-! Unknown calls under the two case policies. To ignore case resolves more calls and never fewer,
since names that agree exactly agree in lower case too. -/

namespace PhpLint

/-- The configuration under another case policy. -/
def Config.withCase (config : Config) (caseSensitive : Bool) : Config :=
  { config with caseSensitiveCalls := caseSensitive }

namespace Calls

variable {config : Config}

/-- Names that agree exactly agree under either policy. -/
theorem normal_eq_of_exact {name other : String} (caseSensitive : Bool)
    (same : normal (config.withCase true) name = normal (config.withCase true) other) :
    normal (config.withCase caseSensitive) name = normal (config.withCase caseSensitive) other := by
  have equal : name = other := same
  rw [equal]

theorem declaredIn_of_exact {forest : Forest} {name : String} (caseSensitive : Bool)
    (declares : DeclaredIn forest (config.withCase true) name) :
    DeclaredIn forest (config.withCase caseSensitive) name := by
  obtain ⟨path, pos, declared, params, body, found, same⟩ := declares
  exact ⟨path, pos, declared, params, body, found, normal_eq_of_exact caseSensitive same⟩

theorem builtIn_of_exact {name : String} (caseSensitive : Bool)
    (builtIn : BuiltIn (config.withCase true) name) :
    BuiltIn (config.withCase caseSensitive) name := by
  obtain ⟨builtin, member, same⟩ := builtIn
  exact ⟨builtin, member, normal_eq_of_exact caseSensitive same⟩

/-- Of the calls found by exact comparison, another policy keeps those it does not resolve. -/
theorem analyze_of_exact (forest : Forest) (config : Config) (caseSensitive : Bool) :
    (analyze forest (config.withCase caseSensitive)).calls =
      (analyze forest (config.withCase true)).calls.filter fun call =>
        ¬DeclaredIn forest (config.withCase caseSensitive) call.name ∧
          ¬BuiltIn (config.withCase caseSensitive) call.name := by
  simp only [analyze_calls, foundCalls, List.filter_filter]
  apply List.filter_congr
  intro call _
  by_cases declares : DeclaredIn forest (config.withCase true) call.name
  · simp [declaredIn_of_exact caseSensitive declares]
  · by_cases builtIn : BuiltIn (config.withCase true) call.name
    · simp [builtIn_of_exact caseSensitive builtIn]
    · simp [declares, builtIn]

theorem declared_caseSensitive (forest : Forest) (caseSensitive : Bool) :
    (declared forest caseSensitive).caseSensitive = caseSensitive := by
  rw [declared_eq_insertAll, NameSet.insertAll_caseSensitive]
  rfl

/-- Where a configuration names no builtins, the default ones count under the policy of the declared
names. -/
theorem analyze_without_builtins (forest : Forest) (config : Config)
    (unnamed : config.builtinFunctions = []) :
    (analyze forest config).calls =
      unknown forest (declared forest config.caseSensitiveCalls) none := by
  have builtins : configuredBuiltins config = .builtins none config.caseSensitiveCalls := by
    rw [configuredBuiltins, unnamed]
    rfl
  calc (analyze forest config).calls
    _ = unknown forest (declared forest config.caseSensitiveCalls)
          (some (.builtins none config.caseSensitiveCalls)) := by rw [← builtins]; rfl
    _ = unknown forest (declared forest config.caseSensitiveCalls) none := by
      rw [unknown, unknown, Option.getD_some, Option.getD_none, declared_caseSensitive]

/-- The unknown calls under the policy that ignores case are, in order, those calls unknown under
exact comparison that agree in lower case neither with a declared name nor with a builtin. Under
either policy a configuration without builtins of its own gives the calls unknown to the declared
names and the default builtins. -/
theorem relaxed_calls_among_exact (forest : Forest) (config : Config) :
    (analyze forest (config.withCase false)).calls.Sublist
      (analyze forest (config.withCase true)).calls ∧
    (analyze forest (config.withCase false)).calls =
      ((analyze forest (config.withCase true)).calls.filter fun call =>
        ¬DeclaredIn forest (config.withCase false) call.name ∧
          ¬BuiltIn (config.withCase false) call.name) ∧
    ∀ caseSensitive,
      (analyze forest { config with
          builtinFunctions := [], caseSensitiveCalls := caseSensitive }).calls =
        unknown forest (declared forest caseSensitive) none := by
  refine ⟨?_, analyze_of_exact forest config false, ?_⟩
  · rw [analyze_of_exact]
    exact List.filter_sublist
  · intro caseSensitive
    exact analyze_without_builtins forest _ rfl

end Calls

end PhpLint
