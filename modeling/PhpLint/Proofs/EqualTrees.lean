import Mathlib.Data.List.Basic
import Mathlib.Data.Option.Basic
import PhpLint.Proofs.ComparisonSteps

/-! Trees that are found equal in some room. They are of one kind and match field by field, all the way
down; so they can differ in the signs of zeros only, and without zeros they are the same. -/

namespace PhpLint

theorem Field.Matches.imp {inSlot inList otherSlot otherList : Option Node → Option Node → Prop}
    (slots : ∀ x y, inSlot x y → otherSlot x y) (lists : ∀ x y, inList x y → otherList x y)
    {x y : Field} (matched : x.Matches inSlot inList y) : x.Matches otherSlot otherList y := by
  cases x <;> cases y <;> first | (cases matched; done) | skip
  case datum.datum => exact matched
  case slot.slot => exact slots _ _ matched
  case list.list => exact List.Forall₂.imp lists matched
  case position.position => exact matched

/-- Two entries are found equal, given room enough. -/
def Comparing.Alike (comparing : Comparing) (x y : Option Node) : Prop :=
  ∃ room, comparing.Sees room x y

/-- Two nodes of one kind that match field by field. -/
structure Node.Fieldwise (alike : Option Node → Option Node → Prop) (a b : Node) : Prop where
  kinds : a.kind = b.kind
  fields : List.Forall₂ (Field.Matches alike alike) a.fields b.fields

theorem Comparing.Alike.of_none {comparing : Comparing} {y : Option Node}
    (alike : comparing.Alike none y) : y = none := by
  obtain ⟨room, seen⟩ := alike
  exact comparing.sees_none_left seen

theorem Comparing.Alike.of_some {comparing : Comparing} {a : Node} {y : Option Node}
    (alike : comparing.Alike (some a) y) : ∃ b, y = some b ∧ a.Fieldwise comparing.Alike b := by
  obtain ⟨room, seen⟩ := alike
  obtain ⟨b, left, rfl, -, matching⟩ := comparing.sees_some_left.mp seen
  refine ⟨b, rfl, matching.kinds, matching.fields.imp fun x y matched => ?_⟩
  exact matched.1.imp (fun _ _ seen => ⟨left, seen⟩) fun _ _ seen => ⟨left - 1, seen⟩

section Slots

theorem Field.Matches.nodes {alike : Option Node → Option Node → Prop} {x y : Field}
    (matched : x.Matches alike alike y) : List.Forall₂ alike x.nodes y.nodes := by
  cases x <;> cases y <;> first | (cases matched; done) | skip
  case datum.datum => exact .nil
  case slot.slot => exact .cons matched .nil
  case list.list => exact matched
  case position.position => exact .nil

/-- A key goes before its value, and other slots in the order of the fields. -/
theorem Node.slots_cases (node : Node) :
    (∃ key value rest, node.fields = .slot value :: .slot key :: rest ∧ node.slots = [key, value] ∧
      (node.kind = .arrayItem ∨ node.kind = .keyValue)) ∨
    (node.slots = node.fields.flatMap Field.nodes ∧ node.kind ≠ .arrayItem ∧ node.kind ≠ .keyValue) := by
  obtain ⟨pos, shape⟩ := node
  cases shape with
  | arrayItem key value byRef unpack => exact .inl ⟨key, value, _, rfl, rfl, .inl rfl⟩
  | keyValue key value => exact .inl ⟨key, value, _, rfl, rfl, .inr rfl⟩
  | _ => exact .inr ⟨rfl, Kind.noConfusion, Kind.noConfusion⟩

theorem Node.Fieldwise.slots {alike : Option Node → Option Node → Prop} {a b : Node}
    (same : a.Fieldwise alike b) : List.Forall₂ alike a.slots b.slots := by
  have fields := same.fields
  rcases a.slots_cases with ⟨key, value, rest, held, slots, kinds⟩ | ⟨slots, noItem, noPair⟩
  · rcases b.slots_cases with
      ⟨otherKey, otherValue, others, otherHeld, otherSlots, -⟩ | ⟨-, noItem, noPair⟩
    · rw [held, otherHeld] at fields
      cases fields with
      | cons values fields =>
          cases fields with
          | cons keys rest =>
              rw [slots, otherSlots]
              exact .cons keys (.cons values .nil)
    · rw [same.kinds] at kinds
      exact absurd kinds (not_or.mpr ⟨noItem, noPair⟩)
  · rcases b.slots_cases with ⟨-, -, -, -, -, kinds⟩ | ⟨otherSlots, -, -⟩
    · rw [← same.kinds] at kinds
      exact absurd kinds (not_or.mpr ⟨noItem, noPair⟩)
    · rw [slots, otherSlots]
      exact List.rel_flatMap fields fun _ _ matched => matched.nodes

end Slots

section Sameness

theorem Node.ofElseIf_injective : Function.Injective Node.ofElseIf := by
  intro a b same
  cases a
  cases b
  cases same
  rfl

theorem Node.ofElse_injective : Function.Injective Node.ofElse := by
  intro a b same
  cases a
  cases b
  cases same
  rfl

/-- Kind and fields are all there is to a node. -/
theorem Node.eq_of_fields {a b : Node} (kinds : a.kind = b.kind) (fields : a.fields = b.fields) :
    a = b := by
  obtain ⟨p, s⟩ := a
  obtain ⟨q, t⟩ := b
  have branches := ((Option.some_injective _).comp ofElseIf_injective).list_map
  have otherwise := Option.map_injective ofElse_injective
  cases s <;> cases t <;> first | (cases kinds; done) | skip
  all_goals
    simp only [Node.fields, ownFields, Field.text, Field.texts, Field.flag, List.cons_append,
      List.nil_append, List.cons.injEq, Field.datum.injEq, Field.slot.injEq, Field.list.injEq,
      Field.position.injEq, Datum.text.injEq, Datum.texts.injEq, Datum.integer.injEq,
      Datum.float.injEq, Datum.flag.injEq, and_true] at fields
  case ifStmt.ifStmt =>
    obtain ⟨rfl, rfl, elseIfs, others, rfl⟩ := fields
    rw [branches elseIfs, otherwise others]
  case foreign.foreign =>
    obtain rfl := Kind.foreign.inj kinds
    obtain ⟨rfl, rfl, rfl⟩ := fields
    rfl
  all_goals simp_all

theorem eq_of_forall₂ {α : Type} {R : α → α → Prop} {xs ys : List α}
    (related : List.Forall₂ R xs ys) (same : ∀ x ∈ xs, ∀ y, R x y → x = y) : xs = ys := by
  induction related with
  | nil => rfl
  | cons first _ ih =>
      rw [List.forall_mem_cons] at same
      rw [same.1 _ first, ih same.2]

theorem Binary64.eq_of_numericEq {x y : Binary64} (same : x.numericEq y = true)
    (nonzero : x.isZero = false) : x = y := by
  simp only [numericEq, nonzero, Bool.false_and, Bool.false_or, Bool.and_eq_true,
    decide_eq_true_eq] at same
  exact same.2

theorem Datum.eq_of_agrees {x y : Datum} (agree : x.agrees y = true)
    (nonzero : ∀ value, x = .float value → value.isZero = false) : x = y := by
  cases x <;> cases y <;> simp_all [agrees]
  exact Binary64.eq_of_numericEq agree nonzero

theorem forestSize_of_perm {left right : Forest} (perm : left.Perm right) :
    forestSize left = forestSize right := by
  induction perm with
  | nil => rfl
  | cons slot _ ih => rw [forestSize_cons, forestSize_cons, ih]
  | swap first second rest => simp only [forestSize_cons, Nat.add_left_comm]
  | trans _ _ first second => rw [first, second]

theorem Node.forestSize_nodes_lt {node : Node} {field : Field} (held : field ∈ node.fields) :
    forestSize field.nodes < sizeOf node := by
  have total := node.forestSize_slots_lt
  obtain ⟨before, after, split⟩ := List.append_of_mem held
  rw [forestSize_of_perm node.slots_perm_fields, split, List.flatMap_append, List.flatMap_cons,
    forestSize_append, forestSize_append] at total
  omega

/-- No float literal among the nodes is a zero. -/
def Nonzero : Forest → Prop :=
  Throughout fun node => ∀ value, node.shape = .floatLiteral value → value.isZero = false

/-- Without a zero in them, forests that are found equal are the same. -/
theorem eq_of_alike {comparing : Comparing} {as bs : Forest}
    (alike : List.Forall₂ comparing.Alike as bs) (nonzero : Nonzero as) : as = bs := by
  induction as using forest_size_induction generalizing bs with
  | nil =>
      cases alike
      rfl
  | missing rest ih =>
      obtain ⟨y, others, first, later, rfl⟩ := List.forall₂_cons_left_iff.mp alike
      rw [first.of_none, ih later ((throughout_cons _ _).mp nonzero).2]
  | present a rest below after =>
      obtain ⟨y, others, first, later, rfl⟩ := List.forall₂_cons_left_iff.mp alike
      obtain ⟨b, rfl, same⟩ := first.of_some
      obtain ⟨own, rest⟩ := (throughout_cons _ _).mp nonzero
      have fields : a.fields = b.fields := by
        apply eq_of_forall₂ same.fields
        intro x held y matched
        have smaller := Node.forestSize_nodes_lt held
        have inside : Nonzero x.nodes := own.field held
        cases x <;> cases y <;> first | (cases matched; done) | skip
        case datum.datum x y =>
          refine congrArg Field.datum (Datum.eq_of_agrees matched ?_)
          rintro value rfl
          exact ((throughout_some a).mp own).1 value (Node.float_mem_fields held)
        case slot.slot x y =>
          have entries : [x] = [y] := below [x] smaller (.cons matched .nil) inside
          rw [List.singleton_inj.mp entries]
        case list.list xs ys => rw [below xs smaller matched inside]
        case position.position x y => exact congrArg Field.position matched
      rw [Node.eq_of_fields same.kinds fields, after later rest]

end Sameness

end PhpLint
