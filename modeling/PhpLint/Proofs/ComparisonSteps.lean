import Mathlib.Data.List.Forall2
import PhpLint.Proofs.Occurrences
import PhpLint.Tree.Comparison

/-! Comparison in limited room. Whichever node comes first, the outcome is the same. Nodes that are
found equal match field by field, with the room that takes; and copies are found equal unless there is
too little room, or a NaN in them. -/

namespace PhpLint

section Entries

variable {α ε : Type} {compare other : α → α → Except ε Bool}

theorem compareEntries_eq_true_iff (xs ys : List α) :
    compareEntries compare xs ys = .ok true ↔
      List.Forall₂ (fun x y => compare x y = .ok true) xs ys := by
  induction xs generalizing ys with
  | nil => cases ys <;> simp [compareEntries]
  | cons x xs ih =>
      cases ys with
      | nil => simp [compareEntries]
      | cons y ys =>
          rw [List.forall₂_cons, ← ih, compareEntries]
          split <;> simp_all

theorem compareEntries_comm (comm : ∀ x y, compare x y = compare y x) (xs ys : List α) :
    compareEntries compare xs ys = compareEntries compare ys xs := by
  induction xs generalizing ys with
  | nil => cases ys <;> rfl
  | cons x xs ih =>
      cases ys with
      | nil => rfl
      | cons y ys => rw [compareEntries, compareEntries, comm, ih]

theorem compareEntries_congr {xs ys : List α} (same : ∀ x ∈ xs, ∀ y ∈ ys, compare x y = other x y) :
    compareEntries compare xs ys = compareEntries other xs ys := by
  induction xs generalizing ys with
  | nil => cases ys <;> rfl
  | cons x xs ih =>
      cases ys with
      | nil => rfl
      | cons y ys =>
          have rest := ih fun x later y after =>
            same x (List.mem_cons_of_mem _ later) y (List.mem_cons_of_mem _ after)
          rw [compareEntries, compareEntries, same x List.mem_cons_self y List.mem_cons_self, rest]

/-- What copies come to: they are found equal, unless something keeps the comparison from an end. -/
def EqualUnless (obstructed : Prop) (outcome : Except ε Bool) : Prop :=
  outcome = .ok true ∨ obstructed ∧ ∃ error, outcome = .error error

theorem EqualUnless.imp {first second : Prop} {outcome : Except ε Bool} (weaker : first → second)
    (copies : EqualUnless first outcome) : EqualUnless second outcome := by
  rcases copies with equal | ⟨obstructed, stopped⟩
  · exact .inl equal
  · exact .inr ⟨weaker obstructed, stopped⟩

theorem EqualUnless.ne_false {obstructed : Prop} {outcome : Except ε Bool}
    (copies : EqualUnless obstructed outcome) : outcome ≠ .ok false := by
  rcases copies with rfl | ⟨-, error, rfl⟩ <;> simp

theorem EqualUnless.eq_true {obstructed : Prop} {outcome : Except ε Bool}
    (copies : EqualUnless obstructed outcome) (free : ¬obstructed) : outcome = .ok true :=
  copies.resolve_right fun stopped => free stopped.1

theorem EqualUnless.exists_error {obstructed : Prop} {outcome : Except ε Bool}
    (copies : EqualUnless obstructed outcome) (unequal : outcome ≠ .ok true) :
    ∃ error, outcome = .error error :=
  (copies.resolve_left unequal).2

theorem EqualUnless.entries {obstructed : Prop} {xs : List α}
    (each : ∀ x ∈ xs, EqualUnless obstructed (compare x x)) :
    EqualUnless obstructed (compareEntries compare xs xs) := by
  induction xs with
  | nil => exact .inl rfl
  | cons x xs ih =>
      rw [List.forall_mem_cons] at each
      rw [compareEntries]
      rcases each.1 with equal | ⟨obstructed, error, stopped⟩
      · rw [equal]
        exact ih each.2
      · rw [stopped]
        exact .inr ⟨obstructed, error, rfl⟩

end Entries

theorem differ_ne_true (room : Nat) : differ room ≠ .ok true := by
  unfold differ
  split <;> simp

theorem Binary64.numericEq_comm (x y : Binary64) : x.numericEq y = y.numericEq x := by
  cases x <;> cases y <;> simp [numericEq, isNan, isZero]
  all_goals grind

theorem Datum.agrees_comm (x y : Datum) : x.agrees y = y.agrees x := by
  cases x <;> cases y <;> simp [agrees, eq_comm, Binary64.numericEq_comm]

section Throughout

/-- All nodes that a walk meets have a property. -/
def Throughout (holds : Node → Prop) (forest : Forest) : Prop := ∀ node ∈ walk forest none, holds node

variable {holds : Node → Prop}

theorem throughout_cons (entry : Option Node) (rest : Forest) :
    Throughout holds (entry :: rest) ↔ Throughout holds [entry] ∧ Throughout holds rest := by
  unfold Throughout walk
  rw [← List.singleton_append, walkStack_append, List.forall_mem_append]

theorem throughout_iff (forest : Forest) :
    Throughout holds forest ↔ ∀ entry ∈ forest, Throughout holds [entry] := by
  induction forest with
  | nil => simp [Throughout, walk]
  | cons entry rest ih => rw [throughout_cons, ih, List.forall_mem_cons]

theorem throughout_some (node : Node) :
    Throughout holds [some node] ↔ holds node ∧ Throughout holds node.slots := by
  unfold Throughout walk
  rw [walkStack_slots, walkStack_some, walkStack_nil, List.append_nil, List.forall_mem_cons]
  rfl

theorem Throughout.field {node : Node} (all : Throughout holds [some node]) {field : Field}
    (held : field ∈ node.fields) : Throughout holds field.nodes := by
  rw [throughout_some, throughout_iff node.slots] at all
  rw [throughout_iff]
  intro entry member
  apply all.2
  rw [node.slots_perm_fields.mem_iff, List.mem_flatMap]
  exact ⟨field, held, member⟩

/-- All nodes are of known kinds. -/
def Familiar : Forest → Prop := Throughout fun node => node.kind.isKnown = true

theorem Familiar.known {node : Node} (familiar : Familiar [some node]) : node.kind.isKnown = true :=
  ((throughout_some node).mp familiar).1

theorem Familiar.entry {node : Node} (familiar : Familiar [some node]) {field : Field}
    (held : field ∈ node.fields) {entry : Option Node} (member : entry ∈ field.nodes) :
    Familiar [entry] :=
  (throughout_iff _).mp (Throughout.field familiar held) entry member

end Throughout

namespace Comparing

variable (comparing : Comparing)

/-- The comparison to which foreign nodes differ from all others. -/
def strict : Comparing := { comparing with foreign := fun room _ _ => differ room }

/-- Three steps are taken at every node, and a fourth on the way to one in a list. -/
theorem nodes_add_three (room : Nat) (a b : Node) :
    comparing.nodes (room + 3) a b =
      comparing.nodesBy (comparing.nodes room) (comparing.nodes (room - 1)) room a b := by
  cases room <;> rfl

section Strict

variable {known other : Node → Node → Except NestingError Bool}

theorem slotsBy_strict {x y : Option Node} (left : Familiar [x]) (right : Familiar [y])
    (same : ∀ a b, Familiar [some a] → Familiar [some b] → known a b = other a b) (room : Nat) :
    comparing.slotsBy known room x y = comparing.strict.slotsBy other room x y := by
  cases x with
  | none => cases y <;> rfl
  | some a =>
      cases y with
      | none => rfl
      | some b =>
          simp only [slotsBy, left.known, right.known, same a b left right]
          rfl

theorem nodesBy_strict {inSlot inList otherSlot otherList : Node → Node → Except NestingError Bool}
    {room : Nat} {a b : Node} (left : Familiar [some a]) (right : Familiar [some b])
    (slots : ∀ a b, Familiar [some a] → Familiar [some b] → inSlot a b = otherSlot a b)
    (lists : ∀ a b, Familiar [some a] → Familiar [some b] → inList a b = otherList a b) :
    comparing.nodesBy inSlot inList room a b =
      comparing.strict.nodesBy otherSlot otherList room a b := by
  have fields (x : Field) (held : x ∈ a.fields) (y : Field) (otherHeld : y ∈ b.fields) :
      comparing.fieldsBy inSlot inList room x y =
        comparing.strict.fieldsBy otherSlot otherList room x y := by
    cases x with
    | datum x => cases y <;> rfl
    | slot x =>
        cases y with
        | slot y =>
            exact comparing.slotsBy_strict (left.entry held (List.mem_singleton_self x))
              (right.entry otherHeld (List.mem_singleton_self y)) slots room
        | _ => rfl
    | list xs =>
        cases y with
        | list ys =>
            have entries : compareEntries (comparing.slotsBy inList (room - 1)) xs ys =
                compareEntries (comparing.strict.slotsBy otherList (room - 1)) xs ys := by
              apply compareEntries_congr
              intro x member y otherMember
              exact comparing.slotsBy_strict (left.entry held member)
                (right.entry otherHeld otherMember) lists (room - 1)
            rw [fieldsBy, fieldsBy, entries]
        | _ => rfl
    | position x => cases y <;> rfl
  rw [nodesBy, nodesBy, compareEntries_congr fields]

theorem nodes_strict (room : Nat) (a b : Node) (left : Familiar [some a]) (right : Familiar [some b]) :
    comparing.nodes room a b = comparing.strict.nodes room a b := by
  induction room using Nat.strongRecOn generalizing a b with
  | ind room ih =>
      match room with
      | 0 | 1 | 2 => rfl
      | room + 3 =>
          rw [nodes_add_three, nodes_add_three]
          exact comparing.nodesBy_strict left right (ih room (by omega)) (ih (room - 1) (by omega))

/-- How foreign nodes compare has no say in the comparison of trees without them. -/
theorem slots_strict (room : Nat) {x y : Option Node} (left : Familiar [x]) (right : Familiar [y]) :
    comparing.slots room x y = comparing.strict.slots room x y :=
  comparing.slotsBy_strict left right (comparing.nodes_strict room) room

end Strict

section Symmetry

variable {inSlot inList known : Node → Node → Except NestingError Bool}

theorem positions_comm (a b : Position) (room : Nat) :
    comparing.positions a b room = comparing.positions b a room := by
  by_cases same : a = b
  · rw [same]
  · have swapped : ¬b = a := Ne.symm same
    unfold positions
    split <;> simp [same, swapped]

theorem slotsBy_comm (comm : ∀ a b, known a b = known b a) (room : Nat) (x y : Option Node) :
    comparing.strict.slotsBy known room x y = comparing.strict.slotsBy known room y x := by
  cases x <;> cases y <;> simp [slotsBy, strict, comm, Bool.and_comm]

theorem fieldsBy_comm (slotComm : ∀ a b, inSlot a b = inSlot b a)
    (listComm : ∀ a b, inList a b = inList b a) (room : Nat) (x y : Field) :
    comparing.strict.fieldsBy inSlot inList room x y =
      comparing.strict.fieldsBy inSlot inList room y x := by
  cases x with
  | datum x => cases y <;> simp [fieldsBy, Datum.agrees_comm]
  | slot x => cases y <;> simp [fieldsBy, comparing.slotsBy_comm slotComm room]
  | list xs =>
      cases y with
      | list ys =>
          have entries := compareEntries_comm (comparing.slotsBy_comm listComm (room - 1)) xs ys
          simp only [fieldsBy, entries, eq_comm]
      | _ => rfl
  | position x => cases y <;> simp [fieldsBy, positions_comm]

theorem nodesBy_comm (slotComm : ∀ a b, inSlot a b = inSlot b a)
    (listComm : ∀ a b, inList a b = inList b a) (room : Nat) (a b : Node) :
    comparing.strict.nodesBy inSlot inList room a b =
      comparing.strict.nodesBy inSlot inList room b a := by
  have fields := compareEntries_comm (comparing.fieldsBy_comm slotComm listComm room) a.fields b.fields
  simp only [nodesBy, fields, eq_comm]

theorem nodes_comm (room : Nat) (a b : Node) :
    comparing.strict.nodes room a b = comparing.strict.nodes room b a := by
  induction room using Nat.strongRecOn generalizing a b with
  | ind room ih =>
      match room with
      | 0 | 1 => rfl
      | 2 => simp only [nodes, eq_comm]
      | room + 3 =>
          rw [nodes_add_three, nodes_add_three]
          exact comparing.nodesBy_comm (ih room (by omega)) (ih (room - 1) (by omega)) room a b

theorem slots_comm (room : Nat) (x y : Option Node) :
    comparing.strict.slots room x y = comparing.strict.slots room y x :=
  comparing.slotsBy_comm (comparing.nodes_comm room) room x y

end Symmetry

end Comparing

/-- Two fields match, given which entries do, in slots and in lists. -/
def Field.Matches (inSlot inList : Option Node → Option Node → Prop) : Field → Field → Prop
  | .datum x, .datum y => x.agrees y = true
  | .slot x, .slot y => inSlot x y
  | .list xs, .list ys => List.Forall₂ inList xs ys
  | .position x, .position y => x = y
  | _, _ => False

/-- The room that a field takes by itself, to be compared with one that matches it. -/
def Field.Takes (comparing : Comparing) (room : Nat) : Field → Prop
  | .datum _ | .list _ => 0 < room
  | .slot _ => True
  | .position pos => 3 < room ∨ room = 3 ∧ comparing.sharedPosition pos = true

namespace Comparing

variable (comparing : Comparing)

/-- Two entries are found equal in some room. -/
def Sees (room : Nat) (x y : Option Node) : Prop := comparing.strict.slots room x y = .ok true

section Matching

variable {known inSlot inList : Node → Node → Except NestingError Bool} {room : Nat}

theorem positions_eq_true_iff (a b : Position) (room : Nat) :
    comparing.positions a b room = .ok true ↔
      a = b ∧ (3 < room ∨ room = 3 ∧ comparing.sharedPosition a = true) := by
  match room with
  | 0 | 1 | 2 => simp [positions]
  | 3 =>
      simp only [positions]
      split <;> grind
  | room + 4 => simp [positions]

theorem fieldsBy_eq_true_iff (x y : Field) :
    comparing.strict.fieldsBy inSlot inList room x y = .ok true ↔
      x.Matches (fun x y => comparing.strict.slotsBy inSlot room x y = .ok true)
        (fun x y => comparing.strict.slotsBy inList (room - 1) x y = .ok true) y ∧
      x.Takes comparing room := by
  cases x with
  | datum x =>
      cases y with
      | datum y =>
          simp only [fieldsBy, Field.Matches, Field.Takes]
          split <;> grind
      | _ => simp [fieldsBy, Field.Matches]
  | slot x =>
      cases y with
      | slot y => simp [fieldsBy, Field.Matches, Field.Takes]
      | _ => simp [fieldsBy, Field.Matches]
  | list xs =>
      cases y with
      | list ys =>
          have lengths (matched : List.Forall₂ (fun x y =>
              comparing.strict.slotsBy inList (room - 1) x y = .ok true) xs ys) :=
            matched.length_eq
          simp only [fieldsBy, Field.Matches, Field.Takes]
          rw [← compareEntries_eq_true_iff] at lengths ⊢
          split <;> [skip; split] <;> grind
      | _ => simp [fieldsBy, Field.Matches]
  | position x =>
      cases y with
      | position y => exact comparing.strict.positions_eq_true_iff x y room
      | _ => simp [fieldsBy, Field.Matches]

end Matching

theorem sees_none_left {room : Nat} {y : Option Node} (seen : comparing.Sees room none y) :
    y = none := by
  cases y with
  | none => rfl
  | some b => exact absurd seen (differ_ne_true room)

/-- Two nodes of one known kind whose fields match in the room there is. -/
structure Matching (room : Nat) (a b : Node) : Prop where
  known : a.kind.isKnown = true
  kinds : a.kind = b.kind
  fields : List.Forall₂ (fun x y =>
    x.Matches (comparing.Sees room) (comparing.Sees (room - 1)) y ∧ x.Takes comparing room)
    a.fields b.fields

/-- It takes three steps to come to the fields. -/
theorem nodes_eq_true_iff (room : Nat) {a b : Node} (known : a.kind.isKnown = true) :
    comparing.strict.nodes room a b = .ok true ↔
      ∃ left, room = left + 3 ∧ comparing.Matching left a b := by
  match room with
  | 0 | 1 => simp [nodes]
  | 2 =>
      simp only [nodes]
      split <;> simp
  | left + 3 =>
      simp only [Nat.add_right_cancel_iff, exists_eq_left']
      rw [nodes_add_three, nodesBy]
      constructor
      · intro found
        split at found
        next same =>
          rw [compareEntries_eq_true_iff] at found
          exact ⟨known, same, found.imp fun x y => (comparing.fieldsBy_eq_true_iff x y).mp⟩
        next => cases found
      · intro matching
        rw [if_pos matching.kinds, compareEntries_eq_true_iff]
        exact matching.fields.imp fun x y => (comparing.fieldsBy_eq_true_iff x y).mpr

/-- What it takes to find a node equal to another entry. -/
theorem sees_some_left {room : Nat} {a : Node} {y : Option Node} :
    comparing.Sees room (some a) y ↔
      ∃ b left, y = some b ∧ room = left + 3 ∧ comparing.Matching left a b := by
  constructor
  · intro seen
    cases y with
    | none => exact absurd seen (differ_ne_true room)
    | some b =>
        simp only [Sees, slots, slotsBy] at seen
        split at seen
        next familiar =>
          rw [Bool.and_eq_true] at familiar
          obtain ⟨left, steps, matching⟩ := (comparing.nodes_eq_true_iff room familiar.1).mp seen
          exact ⟨b, left, rfl, steps, matching⟩
        next => exact absurd seen (differ_ne_true room)
  · intro found
    obtain ⟨b, left, rfl, steps, matching⟩ := found
    have familiar : (a.kind.isKnown && b.kind.isKnown) = true := by
      rw [← matching.kinds, matching.known]
      rfl
    rw [Sees, slots, slotsBy, if_pos familiar, comparing.nodes_eq_true_iff room matching.known]
    exact ⟨left, steps, matching⟩

end Comparing

section Transitivity

theorem forall₂_comp {α : Type} {R S T : α → α → Prop} (comp : ∀ x y z, R x y → S y z → T x z)
    {xs ys zs : List α} (left : List.Forall₂ R xs ys) (right : List.Forall₂ S ys zs) :
    List.Forall₂ T xs zs := by
  induction left generalizing zs with
  | nil =>
      cases right
      exact .nil
  | cons first _ ih =>
      cases right with
      | cons second rest => exact .cons (comp _ _ _ first second) (ih rest)

theorem Binary64.numericEq_trans {x y z : Binary64} (left : x.numericEq y = true)
    (right : y.numericEq z = true) : x.numericEq z = true := by
  unfold numericEq at *
  grind

theorem Datum.agrees_trans {x y z : Datum} (left : x.agrees y = true) (right : y.agrees z = true) :
    x.agrees z = true := by
  cases x <;> cases y <;> cases z <;> simp_all [agrees]
  exact Binary64.numericEq_trans left right

theorem Field.Matches.trans {inSlot inList : Option Node → Option Node → Prop}
    (slots : ∀ x y z, inSlot x y → inSlot y z → inSlot x z)
    (lists : ∀ x y z, inList x y → inList y z → inList x z) {x y z : Field}
    (left : x.Matches inSlot inList y) (right : y.Matches inSlot inList z) :
    x.Matches inSlot inList z := by
  cases x <;> cases y <;> first | (cases left; done) | skip
  all_goals cases z <;> first | (cases right; done) | skip
  case datum.datum.datum => exact Datum.agrees_trans left right
  case slot.slot.slot => exact slots _ _ _ left right
  case list.list.list => exact forall₂_comp lists left right
  case position.position.position => exact Eq.trans left right

theorem Comparing.Sees.trans {comparing : Comparing} {room : Nat} {x y z : Option Node}
    (left : comparing.Sees room x y) (right : comparing.Sees room y z) : comparing.Sees room x z := by
  induction room using Nat.strongRecOn generalizing x y z with
  | ind room ih =>
      cases x with
      | none =>
          obtain rfl := comparing.sees_none_left left
          exact right
      | some a =>
          obtain ⟨b, rest, rfl, rfl, first⟩ := comparing.sees_some_left.mp left
          obtain ⟨c, other, rfl, same, second⟩ := comparing.sees_some_left.mp right
          obtain rfl : rest = other := by omega
          refine comparing.sees_some_left.mpr ⟨c, rest, rfl, rfl, first.known,
            first.kinds.trans second.kinds, forall₂_comp ?_ first.fields second.fields⟩
          intro x y z matched next
          refine ⟨matched.1.trans ?_ ?_ next.1, matched.2⟩
          · intro x y z
            exact ih rest (by omega)
          · intro x y z
            exact ih (rest - 1) (by omega)

end Transitivity

section Steps

/-- A comparison comes from a node to one below it in so many steps. -/
inductive Node.Reaches : Node → Nat → Node → Prop
  | here (node : Node) : Reaches node 0 node
  | slot {node child below : Node} {steps : Nat} (field : Field.slot (some child) ∈ node.fields)
      (reached : Reaches child steps below) : Reaches node (steps + 3) below
  | list {node child below : Node} {children : Forest} {steps : Nat}
      (field : Field.list children ∈ node.fields) (entry : some child ∈ children)
      (reached : Reaches child steps below) : Reaches node (steps + 4) below

theorem exists_of_forall₂ {α : Type} {R : α → α → Prop} {xs ys : List α}
    (related : List.Forall₂ R xs ys) {x : α} (member : x ∈ xs) : ∃ y, R x y := by
  induction related with
  | nil => cases member
  | cons first _ ih =>
      rcases List.mem_cons.mp member with rfl | later
      · exact ⟨_, first⟩
      · exact ih later

theorem Comparing.Matching.field {comparing : Comparing} {room : Nat} {a b : Node}
    (matching : comparing.Matching room a b) {field : Field} (held : field ∈ a.fields) :
    ∃ other, field.Matches (comparing.Sees room) (comparing.Sees (room - 1)) other ∧
      field.Takes comparing room :=
  exists_of_forall₂ matching.fields held

theorem Node.position_mem_fields (node : Node) : Field.position node.pos ∈ node.fields := by
  simp [fields]

/-- Where a node is found equal, so is each that the comparison comes to, in the room left there. -/
theorem Comparing.Sees.below {comparing : Comparing} {room steps : Nat} {node part : Node}
    {y : Option Node} (seen : comparing.Sees room (some node) y) (reached : node.Reaches steps part) :
    ∃ left other, room = left + steps ∧ comparing.Sees left (some part) other := by
  induction reached generalizing room y with
  | here node => exact ⟨room, y, rfl, seen⟩
  | slot field _ ih =>
      obtain ⟨b, rest, -, rfl, matching⟩ := comparing.sees_some_left.mp seen
      obtain ⟨other, matched, -⟩ := matching.field field
      cases other with
      | slot other =>
          obtain ⟨left, partner, rfl, found⟩ := ih matched
          exact ⟨left, partner, by omega, found⟩
      | _ => cases matched
  | list field entry _ ih =>
      obtain ⟨b, rest, -, rfl, matching⟩ := comparing.sees_some_left.mp seen
      obtain ⟨other, matched, room⟩ := matching.field field
      cases other with
      | list others =>
          obtain ⟨other, met⟩ := exists_of_forall₂ matched entry
          obtain ⟨left, partner, steps, found⟩ := ih met
          have some : 0 < rest := room
          exact ⟨left, partner, by omega, found⟩
      | _ => cases matched

/-- Three steps lead to the fields, and three more to the numbers of the position among them. -/
theorem Comparing.Sees.six_le {comparing : Comparing} {room : Nat} {node : Node} {y : Option Node}
    (seen : comparing.Sees room (some node) y) : 6 ≤ room := by
  obtain ⟨b, rest, -, rfl, matching⟩ := comparing.sees_some_left.mp seen
  obtain ⟨other, -, room⟩ := matching.field node.position_mem_fields
  simp only [Field.Takes] at room
  omega

theorem Node.float_mem_fields {node : Node} {value : Binary64}
    (held : Field.datum (.float value) ∈ node.fields) : node.shape = .floatLiteral value := by
  obtain ⟨pos, shape⟩ := node
  cases shape <;> simp_all [fields, ownFields, Field.text, Field.texts, Field.flag]

theorem Node.fields_floatLiteral {node : Node} {value : Binary64}
    (literal : node.shape = .floatLiteral value) : Field.datum (.float value) ∈ node.fields := by
  simp [fields, ownFields, literal]

theorem Comparing.Sees.not_nan {comparing : Comparing} {room : Nat} {node : Node} {y : Option Node}
    (seen : comparing.Sees room (some node) y) : node.shape ≠ .floatLiteral .nan := by
  intro literal
  obtain ⟨b, rest, -, rfl, matching⟩ := comparing.sees_some_left.mp seen
  obtain ⟨other, matched, -⟩ := matching.field (Node.fields_floatLiteral literal)
  cases other with
  | datum other =>
      cases other <;>
        simp [Field.Matches, Datum.agrees, Binary64.numericEq, Binary64.isNan] at matched
  | _ => cases matched

end Steps

section Copies

/-- Whether a comparison might run out of room at a node that it comes to: three steps lead to its
fields, and four to the numbers of its position if they are looked at. -/
def Node.Narrow (room : Nat) (node : Node) : Prop :=
  ∃ steps part, node.Reaches steps part ∧ room < steps + 7

theorem Node.Narrow.of_slot {room : Nat} {node child : Node}
    (field : Field.slot (some child) ∈ node.fields) (narrow : child.Narrow room) :
    node.Narrow (room + 3) := by
  obtain ⟨steps, part, reached, short⟩ := narrow
  exact ⟨steps + 3, part, .slot field reached, by omega⟩

theorem Node.Narrow.of_list {room : Nat} {node child : Node} {children : Forest}
    (field : Field.list children ∈ node.fields) (entry : some child ∈ children) (some : 0 < room)
    (narrow : child.Narrow (room - 1)) : node.Narrow (room + 3) := by
  obtain ⟨steps, part, reached, short⟩ := narrow
  exact ⟨steps + 4, part, .list field entry reached, by omega⟩

theorem Node.narrow_of_lt {room : Nat} (node : Node) (short : room < 7) : node.Narrow room :=
  ⟨0, node, .here node, by omega⟩

/-- All nodes that a comparison comes to are of known kinds, and none is a NaN. -/
def Node.Sound (node : Node) : Prop :=
  ∀ steps part, node.Reaches steps part →
    part.kind.isKnown = true ∧ part.shape ≠ .floatLiteral .nan

theorem Datum.agrees_self {datum : Datum} (number : datum ≠ .float .nan) :
    datum.agrees datum = true := by
  cases datum with
  | float value =>
      have proper : value ≠ .nan := fun nan => number (congrArg Datum.float nan)
      cases value <;> simp_all [agrees, Binary64.numericEq, Binary64.isNan]
  | _ => simp [agrees]

namespace Comparing

variable (comparing : Comparing)

theorem slotsBy_copy {known : Node → Node → Except NestingError Bool} {obstructed : Prop}
    {entry : Option Node} (room : Nat)
    (copies : ∀ child, entry = some child →
      child.kind.isKnown = true ∧ EqualUnless obstructed (known child child)) :
    EqualUnless obstructed (comparing.slotsBy known room entry entry) := by
  cases entry with
  | none => exact .inl rfl
  | some child =>
      obtain ⟨familiar, equal⟩ := copies child rfl
      rw [slotsBy, familiar]
      exact equal

theorem positions_copy (pos : Position) (room : Nat) :
    EqualUnless (room < 4) (comparing.positions pos pos room) := by
  match room with
  | 0 | 1 | 2 => exact .inr ⟨by omega, _, rfl⟩
  | 3 =>
      simp only [positions, and_true]
      split
      · exact .inl rfl
      · exact .inr ⟨by omega, _, rfl⟩
  | room + 4 => exact .inl (by simp [positions])

/-- A field compares with its copy as the nodes below it do. -/
theorem fieldsBy_copy {inSlot inList : Node → Node → Except NestingError Bool} {room : Nat}
    {node : Node} (sound : node.Sound) {field : Field} (held : field ∈ node.fields)
    (slots : ∀ child : Node, child.Sound → EqualUnless (child.Narrow room) (inSlot child child))
    (lists : ∀ child : Node, child.Sound →
      EqualUnless (child.Narrow (room - 1)) (inList child child)) :
    EqualUnless (node.Narrow (room + 3)) (comparing.fieldsBy inSlot inList room field field) := by
  cases field with
  | datum value =>
      rw [fieldsBy]
      split
      next none => exact .inr ⟨node.narrow_of_lt (by omega), _, rfl⟩
      next =>
        have number : value ≠ .float .nan := by
          rintro rfl
          exact (sound 0 node (.here node)).2 (Node.float_mem_fields held)
        exact .inl (congrArg Except.ok (Datum.agrees_self number))
  | slot entry =>
      apply comparing.slotsBy_copy
      rintro child rfl
      have below : child.Sound := fun steps part reached => sound _ part (.slot held reached)
      exact ⟨(below 0 child (.here child)).1, (slots child below).imp (.of_slot held)⟩
  | list entries =>
      rw [fieldsBy]
      split
      next none => exact .inr ⟨node.narrow_of_lt (by omega), _, rfl⟩
      next some =>
        rw [if_pos rfl]
        apply EqualUnless.entries
        intro entry member
        apply comparing.slotsBy_copy
        rintro child rfl
        have below : child.Sound := fun steps part reached =>
          sound _ part (.list held member reached)
        have inside := Nat.pos_of_ne_zero some
        exact ⟨(below 0 child (.here child)).1, (lists child below).imp (.of_list held member inside)⟩
  | position pos =>
      exact (comparing.positions_copy pos room).imp fun short => node.narrow_of_lt (by omega)

theorem nodes_copy (room : Nat) (node : Node) (sound : node.Sound) :
    EqualUnless (node.Narrow room) (comparing.nodes room node node) := by
  induction room using Nat.strongRecOn generalizing node with
  | ind room ih =>
      match room with
      | 0 | 1 => exact .inr ⟨node.narrow_of_lt (by omega), _, rfl⟩
      | 2 =>
          rw [nodes, if_pos rfl]
          exact .inr ⟨node.narrow_of_lt (by omega), _, rfl⟩
      | room + 3 =>
          rw [nodes_add_three, nodesBy, if_pos rfl]
          apply EqualUnless.entries
          intro field held
          exact comparing.fieldsBy_copy sound held (ih room (by omega)) (ih (room - 1) (by omega))

end Comparing

theorem Node.some_mem_slots_iff (node child : Node) :
    some child ∈ node.slots ↔ Field.slot (some child) ∈ node.fields ∨
      ∃ children, Field.list children ∈ node.fields ∧ some child ∈ children := by
  rw [node.slots_perm_fields.mem_iff, List.mem_flatMap]
  constructor
  · intro found
    obtain ⟨field, held, member⟩ := found
    cases field with
    | slot entry =>
        rw [← List.mem_singleton.mp member] at held
        exact .inl held
    | list children => exact .inr ⟨children, held, member⟩
    | datum value => cases member
    | position pos => cases member
  · intro held
    rcases held with held | ⟨children, held, member⟩
    · exact ⟨_, held, List.mem_singleton_self _⟩
    · exact ⟨_, held, member⟩

theorem Node.exists_reaches_iff (node part : Node) :
    (∃ steps, node.Reaches steps part) ↔
      part = node ∨ ∃ child, some child ∈ node.slots ∧ ∃ steps, child.Reaches steps part := by
  simp only [some_mem_slots_iff]
  constructor
  · intro reached
    obtain ⟨steps, reached⟩ := reached
    cases reached with
    | here => exact .inl rfl
    | slot field below => exact .inr ⟨_, .inl field, _, below⟩
    | list field entry below => exact .inr ⟨_, .inr ⟨_, field, entry⟩, _, below⟩
  · intro met
    rcases met with rfl | ⟨child, field | ⟨children, field, entry⟩, steps, below⟩
    · exact ⟨0, .here part⟩
    · exact ⟨_, .slot field below⟩
    · exact ⟨_, .list field entry below⟩

/-- The nodes that a comparison comes to are those that a walk meets. -/
theorem mem_walkStack_iff_reaches (forest : Forest) (part : Node) :
    part ∈ walkStack (fun _ => true) forest ↔
      ∃ node, some node ∈ forest ∧ ∃ steps, node.Reaches steps part := by
  induction forest using forest_size_induction with
  | nil => simp
  | missing rest ih => simpa using ih
  | present node rest below after =>
      rw [walkStack_some, if_pos rfl, ← walkStack_slots, List.mem_cons, List.mem_append,
        below _ node.forestSize_slots_lt, after, ← or_assoc, ← Node.exists_reaches_iff]
      simp only [List.mem_cons, Option.some.injEq, or_and_right, exists_or, exists_eq_left]

theorem Node.sound_iff (node : Node) :
    node.Sound ↔ Familiar [some node] ∧
      Throughout (fun part => part.shape ≠ .floatLiteral .nan) [some node] := by
  have met (part : Node) : part ∈ walk [some node] none ↔ ∃ steps, node.Reaches steps part := by
    rw [walk, Option.getD_none, mem_walkStack_iff_reaches]
    simp
  simp only [Sound, Familiar, Throughout, met]
  grind

end Copies

end PhpLint
