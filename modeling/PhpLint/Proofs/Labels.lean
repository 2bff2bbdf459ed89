import Mathlib.Data.List.Perm.Basic
import PhpLint.Proofs.OwnLines

/-! Labels of an expanded outline. A label is followed by an entry one level deeper, save where it is
the label of a branch with nothing to show. -/

namespace PhpLint.Outline

/-- The labels that no entry one level deeper follows. -/
def dangling : List Entry → List Entry
  | [] => []
  | ⟨_, .node _⟩ :: rest => dangling rest
  | ⟨level, .label text⟩ :: rest =>
    if rest.head?.any (·.level = level + 1) then dangling rest
    else ⟨level, .label text⟩ :: dangling rest

/-- Every label is followed at once by an entry one level deeper. -/
def Followed (entries : List Entry) : Prop :=
  ∀ before level text after, entries = before ++ ⟨level, .label text⟩ :: after →
    ∃ next ∈ after.head?, next.level = level + 1

/-- A label stands somewhere in a list without an entry one level deeper right after it. -/
def DanglesIn (entries : List Entry) (entry : Entry) : Prop :=
  ∃ before text after, entries = before ++ entry :: after ∧ entry.item = .label text ∧
    ¬∃ next ∈ after.head?, next.level = entry.level + 1

theorem danglesIn_cons (first : Entry) (rest : List Entry) (entry : Entry) :
    DanglesIn (first :: rest) entry ↔
      (entry = first ∧ ∃ text, first.item = .label text ∧
        ¬∃ next ∈ rest.head?, next.level = first.level + 1) ∨ DanglesIn rest entry := by
  constructor
  · intro dangles
    rcases dangles with ⟨before, text, after, split, label, alone⟩
    cases before with
    | nil =>
        rcases List.cons.inj split with ⟨same, tail⟩
        rw [same, tail]
        exact .inl ⟨rfl, text, label, alone⟩
    | cons other before => exact .inr ⟨before, text, after, (List.cons.inj split).2, label, alone⟩
  · intro dangles
    rcases dangles with ⟨same, text, label, alone⟩ | ⟨before, text, after, split, label, alone⟩
    · rw [same]
      exact ⟨[], text, rest, rfl, label, alone⟩
    · exact ⟨first :: before, text, after, by rw [split, List.cons_append], label, alone⟩

theorem mem_dangling (entries : List Entry) (entry : Entry) :
    entry ∈ dangling entries ↔ DanglesIn entries entry := by
  induction entries with
  | nil => simp [dangling, DanglesIn]
  | cons first rest ih =>
      rcases first with ⟨level, item⟩
      rw [danglesIn_cons, ← ih]
      cases item with
      | node node => simp [dangling]
      | label text =>
          rw [dangling]
          cases rest with
          | nil => simp
          | cons next later =>
              by_cases deeper : next.level = level + 1
              · simp [deeper]
              · simp [deeper]

theorem followed_iff (entries : List Entry) : Followed entries ↔ dangling entries = [] := by
  simp only [List.eq_nil_iff_forall_not_mem, mem_dangling]
  constructor
  · intro followed entry dangles
    rcases entry with ⟨level, item⟩
    rcases dangles with ⟨before, text, after, split, label, alone⟩
    cases label
    exact alone (followed before level text after split)
  · intro none before level text after split
    by_contra alone
    exact none ⟨level, .label text⟩ ⟨before, text, after, split, rfl, alone⟩

/-- Some entries that start at a level and nowhere rise above it. -/
structure Rooted (level : Int) (entries : List Entry) : Prop where
  starts : ∀ entry ∈ entries.head?, entry.level = level
  within : ∀ entry ∈ entries, level ≤ entry.level

theorem rooted_nil (level : Int) : Rooted level [] := ⟨by simp, by simp⟩

theorem rooted_cons (entry : Entry) {rest : List Entry}
    (within : ∀ other ∈ rest, entry.level ≤ other.level) : Rooted entry.level (entry :: rest) := by
  refine ⟨by simp, ?_⟩
  intro other member
  rcases List.mem_cons.mp member with same | later
  · exact same ▸ Int.le_refl _
  · exact within other later

theorem rooted_label (level : Int) (text : String) {below : List Entry}
    (deeper : Rooted (level + 1) below) : Rooted level (labelAt level text :: below) := by
  refine rooted_cons (labelAt level text) ?_
  intro entry member
  have within := deeper.within entry member
  show level ≤ entry.level
  omega

theorem Rooted.append {level : Int} {left right : List Entry} (first : Rooted level left)
    (second : Rooted level right) : Rooted level (left ++ right) := by
  refine ⟨?_, ?_⟩
  · cases left with
    | nil => exact second.starts
    | cons entry rest => exact first.starts
  · intro entry member
    rcases List.mem_append.mp member with here | there
    · exact first.within entry here
    · exact second.within entry there

theorem rooted_flatMap {α : Type} {level : Int} {items : List α} {entries : α → List Entry}
    (each : ∀ item ∈ items, Rooted level (entries item)) : Rooted level (items.flatMap entries) := by
  induction items with
  | nil => exact rooted_nil level
  | cons item rest ih =>
      rw [List.flatMap_cons]
      exact (each item List.mem_cons_self).append
        (ih fun other member => each other (List.mem_cons_of_mem item member))

/-- What stands after some entries does not rescue a label at their end, if it starts no deeper than
they do. -/
theorem dangling_append {level : Int} {left right : List Entry}
    (within : ∀ entry ∈ left, level ≤ entry.level) (after : Rooted level right) :
    dangling (left ++ right) = dangling left ++ dangling right := by
  induction left with
  | nil => rfl
  | cons entry rest ih =>
      have later := ih fun other member => within other (List.mem_cons_of_mem entry member)
      rcases entry with ⟨start, item⟩
      cases item with
      | node node => simpa [dangling] using later
      | label text =>
          have ends : (rest ++ right).head?.any (·.level = start + 1) =
              rest.head?.any (·.level = start + 1) := by
            cases rest with
            | cons next rest => rfl
            | nil =>
                have above : level ≤ start := within _ List.mem_cons_self
                cases right with
                | nil => rfl
                | cons first right =>
                    have starts : first.level = level := after.starts first rfl
                    have shallow : ¬first.level = start + 1 := by omega
                    simp [shallow]
          rw [List.cons_append, dangling, dangling, ends, later]
          split <;> rfl

theorem dangling_flatMap {α : Type} {level : Int} {items : List α} {entries : α → List Entry}
    (each : ∀ item ∈ items, Rooted level (entries item)) :
    dangling (items.flatMap entries) = items.flatMap fun item => dangling (entries item) := by
  induction items with
  | nil => rfl
  | cons item rest ih =>
      have others : ∀ other ∈ rest, Rooted level (entries other) := fun other member =>
        each other (List.mem_cons_of_mem item member)
      rw [List.flatMap_cons, dangling_append (each item List.mem_cons_self).within
        (rooted_flatMap others), ih others, List.flatMap_cons]

/-- A label dangles exactly if there is nothing below it. -/
theorem dangling_label (level : Int) (text : String) {below : List Entry}
    (deeper : Rooted (level + 1) below) :
    dangling (labelAt level text :: below) =
      (if below.isEmpty then [labelAt level text] else []) ++ dangling below := by
  rw [labelAt, dangling]
  cases below with
  | nil => rfl
  | cons first rest =>
      have starts : first.level = level + 1 := deeper.starts first rfl
      simp [starts]

/-- Only conditionals have branches, and groups that are deeper than others. -/
theorem groups_plain {node : Node} (other : node.kind ≠ .ifStmt) {group : Group}
    (member : group ∈ groups node) : group.depth = 1 ∧ group.branch = false := by
  rcases node with ⟨pos, shape⟩
  cases shape with
  | ifStmt condition body elseIfs otherwise => exact absurd rfl other
  | _ =>
      simp only [groups, Group.plain, List.mem_cons, List.not_mem_nil, or_false] at member <;> grind

theorem depth_pos {node : Node} {group : Group} (member : group ∈ groups node) :
    1 ≤ group.depth := by
  rcases node with ⟨pos, shape⟩
  cases shape with
  | ifStmt condition body elseIfs otherwise =>
      simp only [groups, Group.plain, Group.elseIf, Group.otherwise, List.mem_append,
        List.mem_cons, List.not_mem_nil, or_false, List.mem_flatMap, List.mem_map] at member
      grind
  | _ =>
      have plain := groups_plain (by simp [Node.kind, Shape.kind]) member
      omega

theorem title_level {group : Group} {level : Int} {entry : Entry}
    (member : entry ∈ group.title level) : entry.level = level + group.depth := by
  unfold Group.title at member
  split at member
  · rw [List.mem_singleton.mp member, labelAt]
  · simp at member

/-- An outline starts at its level, and all its entries are there or deeper. -/
theorem outline_rooted (level : Int) (forest : Forest) : Rooted level (outline level forest) := by
  induction forest using group_induction generalizing level with
  | nil =>
      rw [outline_nil]
      exact rooted_nil level
  | missing rest ih =>
      rw [outline_none]
      exact ih level
  | present node rest below after =>
      rw [outline_some]
      refine Rooted.append ?_ (after level)
      split
      · refine rooted_cons ⟨level, .node node⟩ ?_
        intro entry member
        rcases List.mem_flatMap.mp member with ⟨group, listed, inside⟩
        have deeper := depth_pos listed
        rcases List.mem_append.mp inside with label | inner
        · have same := title_level label
          show level ≤ entry.level
          omega
        · have within := (below group listed (level + group.depth + 1)).within entry inner
          show level ≤ entry.level
          omega
      · exact rooted_nil level

theorem shown_cons (slot : Option Node) (rest : Forest) :
    shown (slot :: rest) = shown [slot] ++ shown rest := by
  rw [← List.singleton_append, shown, List.filterMap_append, List.filter_append, shown, shown]

theorem outline_isEmpty (level : Int) (forest : Forest) :
    (outline level forest).isEmpty = (shown forest).isEmpty := by
  induction forest with
  | nil => simp [outline_nil, shown]
  | cons slot rest ih =>
      cases slot with
      | none => rw [outline_none, ih]; rfl
      | some node =>
          rw [outline_some, shown_cons]
          by_cases known : node.kind.isKnown = true
          · simp [known, block, shown]
          · simpa [known, shown] using ih

namespace Group

/-- The label of a group, and the outline of its nodes below it. -/
def outlined (level : Int) (group : Group) : List Entry :=
  group.title level ++ outline (level + group.depth + 1) group.nodes

theorem outlined_eq (level : Int) (group : Group) :
    group.outlined level =
      if group.branch || !(shown group.nodes).isEmpty then
        labelAt (level + group.depth) group.label ::
          outline (level + group.depth + 1) group.nodes
      else [] := by
  have empty := outline_isEmpty (level + group.depth + 1) group.nodes
  rw [outlined, title]
  by_cases branch : group.branch = true
  · simp [branch]
  · by_cases none : shown group.nodes = []
    · simpa [branch, none] using empty
    · simp [branch, none]

theorem outlined_rooted (level : Int) (group : Group) :
    Rooted (level + group.depth) (group.outlined level) := by
  rw [outlined_eq]
  split
  · exact rooted_label _ _ (outline_rooted (level + group.depth + 1) group.nodes)
  · exact rooted_nil _

/-- Besides what dangles inside, a group has a label that dangles exactly if it is a branch that
shows nothing. -/
theorem dangling_outlined (level : Int) (group : Group) :
    dangling (group.outlined level) =
      (if group.branch && (shown group.nodes).isEmpty then
        [labelAt (level + group.depth) group.label] else []) ++
        dangling (outline (level + group.depth + 1) group.nodes) := by
  have below := dangling_label (level + group.depth) group.label
    (outline_rooted (level + group.depth + 1) group.nodes)
  rw [outline_isEmpty] at below
  have empty := outline_isEmpty (level + group.depth + 1) group.nodes
  rw [outlined_eq]
  by_cases branch : group.branch = true
  · simpa [branch] using below
  · by_cases none : shown group.nodes = []
    · have nothing : outline (level + group.depth + 1) group.nodes = [] := by simpa [none] using empty
      simp [branch, none, nothing, dangling]
    · simpa [branch, none] using below

end Group

/-- The labels of those branches of a node that have nothing to show. -/
def emptyBranches (node : Node) : List String :=
  match node.shape with
  | .ifStmt _ _ elseIfs otherwise =>
    elseIfs.flatMap (fun branch =>
      if (shown (branch.condition :: branch.body)).isEmpty then ["ElseIf"] else []) ++
    otherwise.toList.flatMap fun branch => if (shown branch.body).isEmpty then ["Else"] else []
  | _ => []

/-- The labels of empty branches as they stand below an entry. -/
def Entry.emptyLabels : Entry → List Entry
  | ⟨_, .label _⟩ => []
  | ⟨level, .node node⟩ => (emptyBranches node).map (labelAt (level + 1))

/-- What dangles inside the groups of a node, each taken by itself. -/
def danglingInside (level : Int) (groups : List Group) : List Entry :=
  groups.flatMap fun group => dangling (outline (level + group.depth + 1) group.nodes)

/-- Groups of one depth that are no branches have labels that do not dangle. -/
theorem dangling_plain {level depth : Int} {groups : List Group}
    (plain : ∀ group ∈ groups, group.depth = depth ∧ group.branch = false) :
    dangling (groups.flatMap (Group.outlined level)) = danglingInside level groups := by
  have rooted : ∀ group ∈ groups, Rooted (level + depth) (group.outlined level) :=
    fun group member => (plain group member).1 ▸ group.outlined_rooted level
  rw [dangling_flatMap rooted, danglingInside]
  apply List.flatMap_congr
  intro group member
  rw [group.dangling_outlined, (plain group member).2]
  rfl

/-- The groups below the label of an `elseif` branch. -/
def branchGroups (branch : ElseIf Node) : List Group :=
  [⟨2, "Condition", false, [branch.condition]⟩, ⟨2, "Body", false, branch.body⟩]

theorem branchGroups_plain (branch : ElseIf Node) :
    ∀ group ∈ branchGroups branch, group.depth = 2 ∧ group.branch = false := by
  simp [branchGroups]

theorem elseIf_outlined (level : Int) (branch : ElseIf Node) :
    (Group.elseIf branch).flatMap (Group.outlined level) =
      labelAt (level + 1) "ElseIf" :: (branchGroups branch).flatMap (Group.outlined level) := by
  have heading : Group.outlined level ⟨1, "ElseIf", true, []⟩ = [labelAt (level + 1) "ElseIf"] := by
    rw [Group.outlined_eq, outline_nil]
    rfl
  rw [Group.elseIf, List.flatMap_cons, heading]
  rfl

theorem branchGroups_rooted (level : Int) (branch : ElseIf Node) :
    Rooted (level + 1 + 1) ((branchGroups branch).flatMap (Group.outlined level)) := by
  apply rooted_flatMap
  intro group member
  have rooted := group.outlined_rooted level
  rwa [(branchGroups_plain branch group member).1, show level + 2 = level + 1 + 1 by omega] at rooted

theorem elseIf_rooted (level : Int) (branch : ElseIf Node) :
    Rooted (level + 1) ((Group.elseIf branch).flatMap (Group.outlined level)) := by
  rw [elseIf_outlined]
  exact rooted_label _ _ (branchGroups_rooted level branch)

theorem branchGroups_isEmpty (level : Int) (branch : ElseIf Node) :
    ((branchGroups branch).flatMap (Group.outlined level)).isEmpty =
      (shown (branch.condition :: branch.body)).isEmpty := by
  rw [shown_cons]
  simp only [branchGroups, List.flatMap_cons, List.flatMap_nil, Group.outlined_eq]
  cases shown [branch.condition] <;> cases shown branch.body <;> simp

/-- The label of an `elseif` branch dangles exactly if neither its condition nor its body shows
anything. -/
theorem dangling_elseIf (level : Int) (branch : ElseIf Node) :
    dangling ((Group.elseIf branch).flatMap (Group.outlined level)) =
      (if (shown (branch.condition :: branch.body)).isEmpty then
        [labelAt (level + 1) "ElseIf"] else []) ++ danglingInside level (Group.elseIf branch) := by
  have inside : danglingInside level (Group.elseIf branch) =
      danglingInside level (branchGroups branch) := by
    rw [danglingInside, Group.elseIf, List.flatMap_cons, outline_nil]
    rfl
  rw [elseIf_outlined, dangling_label _ _ (branchGroups_rooted level branch), branchGroups_isEmpty,
    dangling_plain (branchGroups_plain branch), inside]

/-- Below a node at a level, some groups start one level deeper, and of their labels just the given
ones dangle. -/
structure Dangles (level : Int) (groups : List Group) (labels : List Entry) : Prop where
  rooted : Rooted (level + 1) (groups.flatMap (Group.outlined level))
  perm : (dangling (groups.flatMap (Group.outlined level))).Perm
    (labels ++ danglingInside level groups)

theorem Dangles.append {level : Int} {left right : List Group} {labels others : List Entry}
    (first : Dangles level left labels) (second : Dangles level right others) :
    Dangles level (left ++ right) (labels ++ others) := by
  refine ⟨?_, ?_⟩
  · rw [List.flatMap_append]
    exact first.rooted.append second.rooted
  · rw [List.flatMap_append, dangling_append first.rooted.within second.rooted]
    calc
      (dangling (left.flatMap (Group.outlined level)) ++
          dangling (right.flatMap (Group.outlined level))).Perm
          (labels ++ danglingInside level left ++ (others ++ danglingInside level right)) :=
        first.perm.append second.perm
      _ = labels ++ (danglingInside level left ++ (others ++ danglingInside level right)) :=
        List.append_assoc _ _ _
      List.Perm _ (labels ++ (others ++ (danglingInside level left ++ danglingInside level right))) :=
        (List.perm_append_comm_assoc _ _ _).append_left labels
      _ = labels ++ others ++ danglingInside level (left ++ right) := by
        rw [← List.append_assoc, danglingInside, danglingInside, danglingInside,
          List.flatMap_append]

theorem dangles_flatMap {α : Type} {level : Int} (items : List α) {groups : α → List Group}
    {labels : α → List Entry} (each : ∀ item, Dangles level (groups item) (labels item)) :
    Dangles level (items.flatMap groups) (items.flatMap labels) := by
  induction items with
  | nil => exact ⟨rooted_nil _, .nil⟩
  | cons item rest ih =>
      rw [List.flatMap_cons, List.flatMap_cons]
      exact (each item).append ih

theorem dangles_plain {level : Int} {groups : List Group}
    (plain : ∀ group ∈ groups, group.depth = 1 ∧ group.branch = false) :
    Dangles level groups [] := by
  refine ⟨?_, .of_eq (dangling_plain plain)⟩
  exact rooted_flatMap fun group member => (plain group member).1 ▸ group.outlined_rooted level

theorem dangles_elseIf (level : Int) (branch : ElseIf Node) :
    Dangles level (Group.elseIf branch)
      (if (shown (branch.condition :: branch.body)).isEmpty then
        [labelAt (level + 1) "ElseIf"] else []) :=
  ⟨elseIf_rooted level branch, .of_eq (dangling_elseIf level branch)⟩

theorem dangles_otherwise (level : Int) (branch : Else Node) :
    Dangles level [Group.otherwise branch]
      (if (shown branch.body).isEmpty then [labelAt (level + 1) "Else"] else []) := by
  have rooted := (Group.otherwise branch).outlined_rooted level
  have labels := (Group.otherwise branch).dangling_outlined level
  refine ⟨?_, .of_eq ?_⟩
  · rwa [List.flatMap_singleton]
  · rw [List.flatMap_singleton, labels, danglingInside, List.flatMap_singleton]
    rfl

/-- Of the labels below a node, those of its empty branches dangle. -/
theorem dangles_groups (level : Int) (node : Node) :
    Dangles level (groups node) ((emptyBranches node).map (labelAt (level + 1))) := by
  rcases node with ⟨pos, shape⟩
  cases shape with
  | ifStmt condition body elseIfs otherwise =>
      have own : Dangles level [.plain "Condition" [condition], .plain "Then" body] [] :=
        dangles_plain (by simp [Group.plain])
      have middle := dangles_flatMap elseIfs (dangles_elseIf level)
      have last := dangles_flatMap otherwise.toList (dangles_otherwise level)
      have all := (own.append middle).append last
      rw [← List.map_eq_flatMap, List.nil_append] at all
      simpa only [groups, emptyBranches, List.map_append, List.map_flatMap,
        apply_ite (List.map (labelAt (level + 1))), List.map_cons, List.map_nil] using all
  | _ =>
      refine dangles_plain (fun group member => groups_plain ?_ member)
      simp [Node.kind, Shape.kind]

theorem title_emptyLabels (group : Group) (level : Int) :
    (group.title level).flatMap Entry.emptyLabels = [] := by
  unfold Group.title
  split <;> rfl

/-- The labels that dangle in an outline are those of empty branches, each as often. -/
theorem outline_dangling_perm (level : Int) (forest : Forest) :
    (dangling (outline level forest)).Perm ((outline level forest).flatMap Entry.emptyLabels) := by
  induction forest using group_induction generalizing level with
  | nil =>
      rw [outline_nil]
      exact .nil
  | missing rest ih =>
      rw [outline_none]
      exact ih level
  | present node rest below after =>
      rw [outline_some]
      split
      next known =>
        have inside : (danglingInside level (groups node)).Perm
            (((groups node).flatMap (Group.outlined level)).flatMap Entry.emptyLabels) := by
          rw [danglingInside, List.flatMap_assoc]
          apply List.Perm.flatMap_left
          intro group member
          rw [Group.outlined, List.flatMap_append, title_emptyLabels, List.nil_append]
          exact below group member _
        have own : (dangling (block level node)).Perm
            ((block level node).flatMap Entry.emptyLabels) :=
          (dangles_groups level node).perm.trans (inside.append_left _)
        have rooted := outline_rooted level [some node]
        rw [outline_single level node known] at rooted
        rw [dangling_append rooted.within (outline_rooted level rest), List.flatMap_append]
        exact own.append (after level)
      next => exact after level

theorem emptyLabels_eq_nil_iff (entries : List Entry) :
    entries.flatMap Entry.emptyLabels = [] ↔
      ∀ node ∈ entries.filterMap Entry.node?, emptyBranches node = [] := by
  induction entries with
  | nil => simp
  | cons entry rest ih =>
      rcases entry with ⟨level, item⟩
      cases item with
      | label text => simpa [Entry.emptyLabels, Entry.node?, List.filterMap_cons] using ih
      | node node => simp [Entry.emptyLabels, Entry.node?, ih]

theorem emptyBranches_label {node : Node} {label : String} (member : label ∈ emptyBranches node) :
    label = "ElseIf" ∨ label = "Else" := by
  unfold emptyBranches at member
  split at member
  · grind
  · simp at member

/-- The labels of an expanded outline that no entry one level deeper follows are those of empty
branches, of an `elseif` or `else` without anything to show, and all of these. So every label is
followed by such an entry exactly if no conditional with a line has an empty branch. The lines are
those of the entries, of all of them unless printing fails. -/
theorem printTree_labels_dangle_at_empty_branches (limits : Limits) (layout : Layout)
    (forest : Forest) :
    let entries := treeEntries layout.indent forest
    let printed := printTree limits layout forest
    (∀ entry, entry ∈ dangling entries ↔ DanglesIn entries entry) ∧
    (dangling entries).Perm (entries.flatMap Entry.emptyLabels) ∧
    (∀ entry, DanglesIn entries entry →
      entry.item = .label "ElseIf:" ∨ entry.item = .label "Else:") ∧
    (Followed entries ↔ ∀ node ∈ lined forest, emptyBranches node = []) ∧
    List.Forall₂ (Reads limits layout.unit) (entries.take printed.lines.length) printed.lines ∧
    (printed.failure = none ↔ printed.lines.length = entries.length) := by
  intro entries printed
  have labels : (dangling entries).Perm (entries.flatMap Entry.emptyLabels) := by
    rw [show entries = outline layout.indent forest from treeEntries_eq_outline _ _]
    exact outline_dangling_perm layout.indent forest
  refine ⟨mem_dangling entries, labels, ?_, ?_, write_reads limits layout.unit entries,
    write_whole_iff limits layout.unit entries⟩
  · intro entry dangles
    have listed := labels.mem_iff.mp ((mem_dangling entries entry).mpr dangles)
    rcases List.mem_flatMap.mp listed with ⟨⟨level, item⟩, _, below⟩
    cases item with
    | label text => simp [Entry.emptyLabels] at below
    | node node =>
        rcases List.mem_map.mp below with ⟨label, branch, same⟩
        rw [← same]
        rcases emptyBranches_label branch with elseIf | otherwise
        · rw [elseIf]
          exact .inl rfl
        · rw [otherwise]
          exact .inr rfl
  · rw [followed_iff, ← treeEntries_nodes layout.indent, ← emptyLabels_eq_nil_iff]
    constructor
    · intro none
      rw [none] at labels
      exact labels.nil_eq.symm
    · intro none
      rw [none] at labels
      exact labels.eq_nil

/-- A conditional with nothing to be done, and an `else` branch with nothing in it. -/
def hollowIf : Node :=
  ⟨⟨1, 1, 0⟩, .ifStmt (some ⟨⟨1, 5, 4⟩, .variableRef "a"⟩) [] [] (some ⟨⟨1, 12, 11⟩, []⟩)⟩

theorem treeEntries_hollowIf :
    treeEntries 0 [some hollowIf] =
      [⟨0, .node hollowIf⟩, ⟨1, .label "Condition:"⟩,
        ⟨2, .node ⟨⟨1, 5, 4⟩, .variableRef "a"⟩⟩, ⟨1, .label "Else:"⟩] := by
  rw [treeEntries_eq_outline]
  simp [hollowIf, outline_some, outline_nil, block, groups, Group.plain, Group.otherwise,
    Group.title, labelAt, shown, Node.kind, Shape.kind, Kind.isKnown]

/-- The label of an `else` branch with nothing in it is the last line. -/
theorem printTree_ends_with_label :
    (∀ node ∈ lined [some hollowIf], ∃ text, node.description .endless = .ok text) ∧
    printTree .endless .default [some hollowIf] =
      ⟨["If(Cond: Variable($a) @ 1:5) @ 1:1\n", "  Condition:\n", "    Variable($a) @ 1:5\n",
        "  Else:\n"], none⟩ ∧
    ¬Followed (treeEntries 0 [some hollowIf]) := by
  refine ⟨?_, ?_, ?_⟩
  · rw [← treeEntries_nodes 0, treeEntries_hollowIf]
    intro node member
    simp only [Entry.node?, List.filterMap_cons, List.filterMap_nil, List.mem_cons,
      List.not_mem_nil, or_false] at member
    rcases member with same | same <;> rw [same] <;> exact ⟨_, rfl⟩
  · rw [printTree, show Layout.default.indent = 0 from rfl, treeEntries_hollowIf]
    decide
  · rw [treeEntries_hollowIf, followed_iff]
    decide

end PhpLint.Outline
