import PhpLint.Text.Case

/-! Case mappings leave their own images as they are. That no image lies in a run is read off the
ends and steps of the runs, two at a time. So lower case, with its final sigma and its expansion, is
reached in one pass. In the same way it is seen which code points no image has. -/

namespace PhpLint.Text

theorem CaseRun.covers_iff (run : CaseRun) (code : Nat) :
    run.covers code = true ↔
      run.first ≤ code ∧ code ≤ run.last ∧ (code - run.first) % run.step = 0 := by
  simp [covers, and_assoc]

/-- The images of one run are not covered by another: they end before it, start after it, or fall
between its steps. -/
def CaseRun.avoids (run other : CaseRun) : Bool :=
  Nat.blt (run.image run.last) other.first || Nat.blt other.last (run.image run.first) ||
    (run.first == run.last || run.step == 2 && decide (0 ≤ Int.ofNat run.first + run.shift)) &&
      other.step == 2 && run.image run.first % 2 != other.first % 2

theorem CaseRun.not_covers_image {run other : CaseRun} {code : Nat}
    (avoids : run.avoids other = true) (covers : run.covers code = true) :
    ¬other.covers (run.image code) = true := by
  rw [covers_iff] at covers
  rw [covers_iff]
  obtain ⟨start, stop, aligned⟩ := covers
  simp only [CaseRun.avoids, CaseRun.image, Bool.or_eq_true, Bool.and_eq_true, Nat.blt_eq,
    beq_iff_eq, bne_iff_ne, decide_eq_true_eq, Int.ofNat_eq_natCast] at avoids
  simp only [CaseRun.image, Int.ofNat_eq_natCast]
  intro hit
  rcases avoids with (before | after) | ⟨⟨spaced, step⟩, odd⟩
  · omega
  · omega
  · rw [step] at hit
    rcases spaced with single | ⟨step, nonneg⟩
    · omega
    · rw [step] at aligned
      omega

theorem CaseRun.image_ne {run : CaseRun} {code other : Nat}
    (avoids : run.avoids ⟨other, other, 2, 0⟩ = true) (covers : run.covers code = true) :
    run.image code ≠ other := by
  intro same
  have missed := CaseRun.not_covers_image avoids covers
  rw [CaseRun.covers_iff, same] at missed
  simp at missed

/-- A number that is no code point stands for the null character. -/
theorem toNat_ofNat_cases (code : Nat) :
    (Char.ofNat code).toNat = code ∨ (Char.ofNat code).toNat = 0 := by
  by_cases valid : code.isValidChar
  · left
    rw [Char.ofNat, dif_pos valid]
    rfl
  · right
    rw [Char.ofNat, dif_neg valid]
    rfl

section Mapping

variable (runs : List CaseRun) (expansions : List (Nat × List Nat))

/-- A code point without expansion that no run covers. -/
def isSettled (code : Nat) : Bool :=
  (expansions.lookup code).isNone && !runs.any (·.covers code)

/-- The images of the runs have no expansion and lie in no run, and what the expansions give is
settled. So is the code point that stands for an image which is no character. -/
def isClosed : Bool :=
  (runs.all fun run => runs.all run.avoids && expansions.all fun expansion =>
    run.avoids ⟨expansion.1, expansion.1, 2, 0⟩) &&
  (expansions.all fun expansion => expansion.2.all (isSettled runs expansions)) &&
  isSettled runs expansions 0

/-- A code point to which no run moves another, and which no expansion gives. -/
def isMissed (code : Nat) : Bool :=
  runs.all (·.avoids ⟨code, code, 2, 0⟩) &&
    expansions.all fun expansion => !expansion.2.contains code

variable {runs expansions}

theorem isSettled_iff (code : Nat) :
    isSettled runs expansions code = true ↔
      expansions.lookup code = none ∧ ∀ run ∈ runs, ¬run.covers code = true := by
  simp [isSettled]

theorem isClosed_iff :
    isClosed runs expansions = true ↔
      (∀ run ∈ runs, (∀ other ∈ runs, run.avoids other = true) ∧
        ∀ expansion ∈ expansions, run.avoids ⟨expansion.1, expansion.1, 2, 0⟩ = true) ∧
      (∀ expansion ∈ expansions, ∀ code ∈ expansion.2, isSettled runs expansions code = true) ∧
      isSettled runs expansions 0 = true := by
  simp only [isClosed, Bool.and_eq_true, List.all_eq_true, and_assoc]

theorem mapCase_of_isSettled {c : Char} (settled : isSettled runs expansions c.toNat = true) :
    mapCase runs expansions c = [c] := by
  obtain ⟨plain, uncovered⟩ := (isSettled_iff c.toNat).mp settled
  rw [mapCase, plain, List.find?_eq_none.mpr uncovered]

theorem mem_expansions {code : Nat} {codes : List Nat}
    (expands : expansions.lookup code = some codes) : (code, codes) ∈ expansions := by
  obtain ⟨before, after, split, -⟩ := List.lookup_eq_some_iff.mp expands
  simp [split]

theorem mapCase_ne_nil (filled : ∀ expansion ∈ expansions, expansion.2 ≠ []) (c : Char) :
    mapCase runs expansions c ≠ [] := by
  rw [mapCase]
  split
  next codes expands => simpa using filled _ (mem_expansions expands)
  next plain => split <;> exact List.cons_ne_nil _ _

/-- A character that is missed stands in no image but its own. -/
theorem eq_of_mem_mapCase {c image : Char} (missed : isMissed runs expansions image.toNat = true)
    (nonnull : image.toNat ≠ 0) (member : image ∈ mapCase runs expansions c) : image = c := by
  have read : ∀ code, image = Char.ofNat code → code = image.toNat := by
    intro code same
    rcases toNat_ofNat_cases code with kept | null
    · rw [same, kept]
    · exact absurd (same ▸ null) nonnull
  simp only [isMissed, Bool.and_eq_true, List.all_eq_true, Bool.not_eq_true',
    List.contains_eq_mem, decide_eq_false_iff_not] at missed
  rw [mapCase] at member
  split at member
  next codes expands =>
    obtain ⟨code, among, same⟩ := List.mem_map.mp member
    rw [read code same.symm] at among
    exact absurd among (missed.2 _ (mem_expansions expands))
  next plain =>
    split at member
    next run found =>
      have covers : run.covers c.toNat = true := by simpa using List.find?_some found
      have hit := read _ (List.mem_singleton.mp member)
      exact absurd hit (CaseRun.image_ne (missed.1 run (List.mem_of_find?_eq_some found)) covers)
    next uncovered => exact List.mem_singleton.mp member

section Closed

variable (closed : isClosed runs expansions = true)

include closed

theorem isSettled_image {run : CaseRun} (member : run ∈ runs) {code : Nat}
    (covers : run.covers code = true) : isSettled runs expansions (run.image code) = true := by
  obtain ⟨runsApart, expansionsApart⟩ := (isClosed_iff.mp closed).1 run member
  rw [isSettled_iff]
  constructor
  · rw [List.lookup_eq_none_iff]
    intro expansion among
    rw [bne_iff_ne]
    exact CaseRun.image_ne (expansionsApart expansion among) covers
  · intro other among
    exact CaseRun.not_covers_image (runsApart other among) covers

theorem isSettled_ofNat {code : Nat} (settled : isSettled runs expansions code = true) :
    isSettled runs expansions (Char.ofNat code).toNat = true := by
  rcases toNat_ofNat_cases code with kept | null
  · rw [kept]
    exact settled
  · rw [null]
    exact (isClosed_iff.mp closed).2.2

/-- A closed mapping leaves every character of its images as it is. -/
theorem isSettled_of_mem_mapCase {c image : Char} (member : image ∈ mapCase runs expansions c) :
    isSettled runs expansions image.toNat = true := by
  rw [mapCase] at member
  split at member
  next codes expands =>
    obtain ⟨code, among, rfl⟩ := List.mem_map.mp member
    exact isSettled_ofNat closed
      ((isClosed_iff.mp closed).2.1 _ (mem_expansions expands) code among)
  next plain =>
    split at member
    next run found =>
      have covers : run.covers c.toNat = true := by simpa using List.find?_some found
      rw [List.mem_singleton.mp member]
      exact isSettled_ofNat closed
        (isSettled_image closed (List.mem_of_find?_eq_some found) covers)
    next uncovered =>
      rw [List.mem_singleton.mp member, isSettled_iff]
      exact ⟨plain, List.find?_eq_none.mp uncovered⟩

end Closed

end Mapping

theorem lowerRuns_isClosed : isClosed lowerRuns lowerExpansions = true := by decide +kernel

theorem upperRuns_isClosed : isClosed upperRuns upperExpansions = true := by decide +kernel

/-- A text of characters that lower case leaves as they are. -/
def Lowered (text : List Char) : Prop :=
  ∀ c ∈ text, isSettled lowerRuns lowerExpansions c.toNat = true

theorem lowerAfter_lowered (before text : List Char) : Lowered (lowerAfter before text) := by
  induction text generalizing before with
  | nil =>
      intro c member
      cases member
  | cons first rest ih =>
      intro c member
      rw [lowerAfter, List.mem_append] at member
      rcases member with now | later
      · split at now
        · -- Both small sigmas are settled.
          rw [List.mem_singleton] at now
          subst now
          split <;> decide +kernel
        · exact isSettled_of_mem_mapCase lowerRuns_isClosed now
      · exact ih (first :: before) c later

theorem lowerAfter_of_lowered (before : List Char) {text : List Char} (lowered : Lowered text) :
    lowerAfter before text = text := by
  induction text generalizing before with
  | nil => rfl
  | cons first rest ih =>
      obtain ⟨settled, others⟩ := List.forall_mem_cons.mp lowered
      have small : first ≠ 'Σ' := by
        intro sigma
        rw [sigma] at settled
        exact absurd settled (by decide +kernel)
      rw [lowerAfter, if_neg small, lowerChar, mapCase_of_isSettled settled, ih _ others,
        List.singleton_append]

theorem lower_lower (text : String) : lower (lower text) = lower text := by
  rw [lower, lower, String.toList_ofList,
    lowerAfter_of_lowered [] (lowerAfter_lowered [] text.toList)]

end PhpLint.Text
