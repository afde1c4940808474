import ByteClass.ByteScan

/-!
# Summaries answer for every byte

The union of the classes of a string has a class of a mask exactly if some byte
has one, and the intersection has all classes of a mask exactly if every byte
has them all.  The first asks for one class and the second for all, so an empty
mask is refused by the one and covered by the other, and an unknown position is
found in neither.  Summaries see which bytes occur and nothing else, and those of
two strings combine to that of the strings joined.
-/

namespace ByteClass

section Mask

variable (bytes : List UInt8) (mask : FlagSet)

theorem intersects_classesOfAny_iff :
    (classesOfAny bytes).intersects mask = true ↔
      ∃ byte ∈ bytes, inClass byte mask = true := by
  simp only [FlagSet.intersects_iff, holds_classesOfAny, List.any_eq_true,
    inClass_iff]
  constructor
  · rintro ⟨position, ⟨byte, member, carried⟩, asked⟩
    exact ⟨byte, member, position, carried, asked⟩
  · rintro ⟨byte, member, position, carried, asked⟩
    exact ⟨position, ⟨byte, member, carried⟩, asked⟩

theorem contains_classesOfAll_iff :
    (classesOfAll bytes).contains mask = true ↔
      mask.unknown = ∅ ∧
        ∀ byte ∈ bytes, (lookUpClasses byte).contains mask = true := by
  simp only [FlagSet.contains_iff, holds_classesOfAll, Bool.and_eq_true,
    decide_eq_true_eq, List.all_eq_true, lookUpClasses_eq,
    FlagSet.unknown_eq_empty_iff_position_lt]
  constructor
  · intro covered
    exact ⟨fun position asked => (covered position asked).1,
      fun byte member position asked => (covered position asked).2 byte member⟩
  · rintro ⟨known, covered⟩ position asked
    exact ⟨known position asked, fun byte member =>
      covered byte member position asked⟩

end Mask

section TwoStrings

variable {bytes others : List UInt8}

theorem classesOfAny_congr (same : ∀ byte, byte ∈ bytes ↔ byte ∈ others) :
    classesOfAny bytes = classesOfAny others := by
  apply FlagSet.ext_holds
  intro position _
  rw [Bool.eq_iff_iff]
  simp only [holds_classesOfAny, List.any_eq_true, same]

theorem classesOfAll_congr (same : ∀ byte, byte ∈ bytes ↔ byte ∈ others) :
    classesOfAll bytes = classesOfAll others := by
  apply FlagSet.ext_holds
  intro position _
  rw [Bool.eq_iff_iff]
  simp only [holds_classesOfAll, Bool.and_eq_true, List.all_eq_true, same]

variable (bytes others)

theorem classesOfAny_append :
    classesOfAny (bytes ++ others) = classesOfAny bytes ∪ classesOfAny others := by
  apply FlagSet.ext_holds
  intro position _
  rw [FlagSet.holds_union, holds_classesOfAny, holds_classesOfAny,
    holds_classesOfAny, List.any_append]

theorem classesOfAll_append :
    classesOfAll (bytes ++ others) = classesOfAll bytes ∩ classesOfAll others := by
  apply FlagSet.ext_holds
  intro position _
  rw [FlagSet.holds_inter, holds_classesOfAll, holds_classesOfAll,
    holds_classesOfAll, List.all_append]
  cases decide (position < 10) <;> simp

end TwoStrings

/-- The summaries of a string answer for its bytes: the union has a class of a
mask exactly if some byte has one, and the intersection has the whole mask
exactly if the mask is known and every byte has it.  They depend on the bytes that
occur only, and joined strings have the union and the intersection of the two. -/
theorem summaries_exact (bytes : List UInt8) (mask : FlagSet) :
    ((classesOfAny bytes).intersects mask = true ↔
        ∃ byte ∈ bytes, inClass byte mask = true) ∧
      ((classesOfAll bytes).contains mask = true ↔
        mask.unknown = ∅ ∧
          ∀ byte ∈ bytes, (lookUpClasses byte).contains mask = true) ∧
      (∀ others : List UInt8, (∀ byte, byte ∈ bytes ↔ byte ∈ others) →
        classesOfAny bytes = classesOfAny others ∧
          classesOfAll bytes = classesOfAll others) ∧
      ∀ others : List UInt8,
        classesOfAny (bytes ++ others) =
            classesOfAny bytes ∪ classesOfAny others ∧
          classesOfAll (bytes ++ others) =
            classesOfAll bytes ∩ classesOfAll others :=
  ⟨intersects_classesOfAny_iff bytes mask, contains_classesOfAll_iff bytes mask,
    fun _ same => ⟨classesOfAny_congr same, classesOfAll_congr same⟩,
    fun others =>
      ⟨classesOfAny_append bytes others, classesOfAll_append bytes others⟩⟩

/-- A mask of two classes of which no byte has both, and one with an unknown
position. -/
theorem summaries_exact_digit_and_letter :
    (∀ byte, byte ∈ [0x37, 0x61, 0x37] ↔ byte ∈ [0x61, (0x37 : UInt8)]) ∧
      classesOfAny [0x37, 0x61, 0x37] = classesOfAny [0x61, 0x37] ∧
      (classesOfAny [0x37, 0x61, 0x37]).intersects ⟨0x8030⟩ = true ∧
      ¬ (classesOfAll [0x37, 0x61, 0x37]).contains ⟨0x8001⟩ = true := by
  have same : ∀ byte, byte ∈ [0x37, 0x61, 0x37] ↔
      byte ∈ [0x61, (0x37 : UInt8)] := by
    intro byte
    simp only [List.mem_cons, List.not_mem_nil, or_false]
    grind
  obtain ⟨some, _, congruent, _⟩ :=
    summaries_exact [0x37, 0x61, 0x37] ⟨0x8030⟩
  obtain ⟨_, all, _⟩ := summaries_exact [0x37, 0x61, 0x37] ⟨0x8001⟩
  refine ⟨same, (congruent [0x61, 0x37] same).1, ?_, ?_⟩
  · exact some.mpr ⟨0x37, by simp, by decide +kernel⟩
  · intro contained
    exact absurd (all.mp contained).1 (by decide)

end ByteClass
