import Mathlib.Algebra.GroupWithZero.Nat
import PhpLint.Tree.Node

/-! Line breaks of texts. Texts that are put together have those of their parts, and numbers have
none. -/

namespace PhpLint

/-- The line breaks of a text. -/
def breaks (text : String) : Nat := text.toList.count '\n'

/-- The line breaks of some texts together. -/
def breaksIn (texts : List String) : Nat := (texts.map breaks).sum

section Texts

theorem breaks_ofList (chars : List Char) : breaks (String.ofList chars) = chars.count '\n' := by
  rw [breaks, String.toList_ofList]

theorem breaks_append (left right : String) :
    breaks (left ++ right) = breaks left + breaks right := by
  rw [breaks, String.toList_append, List.count_append, breaks, breaks]

theorem breaksIn_nil : breaksIn [] = 0 := rfl

theorem breaksIn_cons (text : String) (texts : List String) :
    breaksIn (text :: texts) = breaks text + breaksIn texts := by
  rw [breaksIn, List.map_cons, List.sum_cons, breaksIn]

theorem breaksIn_append (left right : List String) :
    breaksIn (left ++ right) = breaksIn left + breaksIn right := by
  rw [breaksIn, List.map_append, List.sum_append, breaksIn, breaksIn]

theorem breaksIn_eq_zero_iff (texts : List String) :
    breaksIn texts = 0 ↔ ∀ text ∈ texts, breaks text = 0 := by
  induction texts with
  | nil => simp [breaksIn_nil]
  | cons text rest ih => rw [breaksIn_cons, Nat.add_eq_zero_iff, ih, List.forall_mem_cons]

theorem breaksIn_flatMap {α : Type} (items : List α) (texts : α → List String) :
    breaksIn (items.flatMap texts) = (items.map fun item => breaksIn (texts item)).sum := by
  induction items with
  | nil => rfl
  | cons item rest ih =>
      rw [List.flatMap_cons, breaksIn_append, ih, List.map_cons, List.sum_cons]

theorem breaks_join (texts : List String) : breaks (String.join texts) = breaksIn texts := by
  induction texts with
  | nil => rfl
  | cons text rest ih => rw [String.join_cons, breaks_append, ih, breaksIn_cons]

theorem breaks_intercalate {separator : String} (unbroken : breaks separator = 0)
    (texts : List String) : breaks (separator.intercalate texts) = breaksIn texts := by
  induction texts with
  | nil => rfl
  | cons text rest ih =>
      cases rest with
      | nil => rw [String.intercalate_singleton, breaksIn_cons, breaksIn_nil, Nat.add_zero]
      | cons next rest =>
          rw [String.intercalate_cons_cons, breaks_append, breaks_append, unbroken, ih,
            breaksIn_cons text, Nat.add_zero]

end Texts

section Numbers

/-- No digit is a line break. -/
theorem newline_not_mem_toDigits (value : Nat) : '\n' ∉ Nat.toDigits 10 value := by
  intro member
  have digit := Nat.isDigit_of_mem_toDigits (by decide) (by decide) member
  exact absurd digit (by decide)

theorem breaks_natRepr (value : Nat) : breaks (Nat.repr value) = 0 := by
  rw [Nat.repr_eq_ofList_toDigits, breaks_ofList]
  exact List.count_eq_zero.mpr (newline_not_mem_toDigits value)

theorem breaks_int (value : Int) : breaks (toString value) = 0 := by
  cases value with
  | ofNat value => exact breaks_natRepr value
  | negSucc value =>
      show breaks ("-" ++ Nat.repr (value + 1)) = 0
      rw [breaks_append, breaks_natRepr]
      rfl

open Number.General

theorem newline_not_mem_digits (num den : Nat) : '\n' ∉ (digits num den).1 := by
  unfold digits
  dsimp only
  split
  · exact newline_not_mem_toDigits (Nat.pow 10 (significantDigits - 1))
  · exact newline_not_mem_toDigits _

theorem newline_not_mem_fractionPart {text : List Char} (plain : '\n' ∉ text) :
    '\n' ∉ fractionPart text := by
  have kept : '\n' ∉ dropTrailingZeros text := by
    intro member
    have inside := (List.dropWhile_sublist _).mem (List.mem_reverse.mp member)
    exact plain (List.mem_reverse.mp inside)
  unfold fractionPart
  split
  · exact List.not_mem_nil
  · intro member
    rcases List.mem_cons.mp member with point | inside
    · exact absurd point (by decide)
    · exact kept inside

theorem newline_not_mem_exponentPart (exponent : Int) : '\n' ∉ exponentPart exponent := by
  have digits := newline_not_mem_toDigits exponent.natAbs
  unfold exponentPart
  dsimp only
  split <;> simp [digits]

theorem newline_not_mem_positive (num den : Nat) : '\n' ∉ positive num den := by
  have plain := newline_not_mem_digits num den
  have taken (count : Nat) : '\n' ∉ (digits num den).1.take count := fun member =>
    plain (List.mem_of_mem_take member)
  have dropped (count : Nat) : '\n' ∉ fractionPart ((digits num den).1.drop count) :=
    newline_not_mem_fractionPart fun member => plain (List.mem_of_mem_drop member)
  have padded (count : Nat) :
      '\n' ∉ fractionPart (List.replicate count '0' ++ (digits num den).1) := by
    apply newline_not_mem_fractionPart
    simp [plain]
  unfold positive
  dsimp only
  split
  · simp only [List.mem_append, not_or]
    exact ⟨⟨taken 1, dropped 1⟩, newline_not_mem_exponentPart _⟩
  · split
    · simp [padded]
    · simp [taken, dropped]

theorem breaks_general (value : Binary64) : breaks value.general = 0 := by
  cases value with
  | nan => rfl
  | infinity negative => cases negative <;> rfl
  | finite negative significand exponent =>
      have plain := newline_not_mem_positive
      rw [Binary64.general, breaks_ofList]
      apply List.count_eq_zero.mpr
      dsimp only
      split <;> split <;> simp [plain]

end Numbers

end PhpLint
