import ByteClass.Proofs.CaseVariants
import ByteClass.Proofs.WrittenSets

/-!
# Names found in any case

An expression raises the case of characters before it looks a name up, while the
comparison of strings lowers the case of bytes through the table of partners.
For a name that stands alone the two agree: it is accepted exactly if its bytes
equal those of the name of a class without regard to case.  There is at most one
such class, and a name that is found as it stands is spelled in upper case.
-/

namespace ByteClass

theorem NamedClass.map_toUpper_name (named : NamedClass) :
    named.name.map Char.toUpper = named.name := by
  rw [← String.toList_inj, String.toList_map]
  exact named.names_own_name

/-- Characters raised to upper case and bytes compared without regard to case
find the same names. -/
theorem names_iff_equalIgnoringCase {name : String} {named : NamedClass} :
    Names name.toList named ↔
      equalIgnoringCase (utf8Bytes named.name) (utf8Bytes name) = true := by
  have raised : ∀ text : String, (utf8Bytes text).map toUpper =
      utf8Bytes (text.map Char.toUpper) := CaseOperation.upper.map_utf8Bytes
  rw [equalIgnoringCase_iff_map_toUpper, raised, raised, utf8Bytes_inj,
    named.map_toUpper_name, ← String.toList_inj, String.toList_map, Names,
    eq_comm]

section Name

variable {name : String}

theorem parse_of_equalIgnoringCase {named : NamedClass}
    (equal : equalIgnoringCase (utf8Bytes named.name) (utf8Bytes name) = true) :
    FlagSet.parse name = .ok named.flagSet := by
  have parsed := parse_of_names (names_iff_equalIgnoringCase.mpr equal)
  rwa [String.ofList_toList] at parsed

theorem eq_of_equalIgnoringCase {named other : NamedClass}
    (equal : equalIgnoringCase (utf8Bytes named.name) (utf8Bytes name) = true)
    (otherEqual :
      equalIgnoringCase (utf8Bytes other.name) (utf8Bytes name) = true) :
    other = named :=
  (names_iff_equalIgnoringCase.mpr otherEqual).unique
    (names_iff_equalIgnoringCase.mpr equal)

/-- A class whose name is spelled exactly is found in upper case. -/
theorem exact_spelling {named : NamedClass} (spelled : named.name = name) :
    name.map Char.toUpper = name ∧
      equalIgnoringCase (utf8Bytes named.name) (utf8Bytes name) = true := by
  subst spelled
  exact ⟨named.map_toUpper_name,
    names_iff_equalIgnoringCase.mp named.names_own_name⟩

theorem not_both_exact (flag : Flag) (union : CompositeClass) :
    ¬ (Flag.ofName? name = some flag ∧
      CompositeClass.ofName? name = some union) := by
  rintro ⟨basic, composite⟩
  rw [Flag.ofName?_eq_some_iff] at basic
  rw [CompositeClass.ofName?_eq_some_iff] at composite
  have same : (NamedClass.basic flag).name = (NamedClass.composite union).name :=
    basic.trans composite.symm
  cases NamedClass.name_inj.mp same

theorem exists_parse_eq_ok_iff (nonempty : name ≠ "") (noBar : '|' ∉ name.toList)
    (stripped : IsStripped name.toList) (notZero : name ≠ "0") :
    (∃ set, FlagSet.parse name = .ok set) ↔
      ∃ named : NamedClass,
        equalIgnoringCase (utf8Bytes named.name) (utf8Bytes name) = true := by
  constructor
  · rintro ⟨set, accepted⟩
    by_contra unequal
    have unnamed : ∀ named, ¬ Names name.toList named := fun named names =>
      unequal ⟨named, names_iff_equalIgnoringCase.mp names⟩
    rw [parse_of_unnamed nonempty noBar stripped unnamed, if_neg notZero]
      at accepted
    cases accepted
  · rintro ⟨named, equal⟩
    exact ⟨named.flagSet, parse_of_equalIgnoringCase equal⟩

end Name

/-- A name alone is accepted exactly if its bytes equal those of the name of a
class without regard to case.  This class is the only one, and the name denotes
it.  A basic or a composite class with exactly this name exists, but never both,
only if the name is its upper-case spelling, and is what the name denotes. -/
theorem parse_name_agrees_with_comparison {name : String} (nonempty : name ≠ "")
    (noBar : '|' ∉ name.toList) (stripped : IsStripped name.toList)
    (notZero : name ≠ "0") :
    ((∃ set, FlagSet.parse name = .ok set) ↔
        ∃ named : NamedClass,
          equalIgnoringCase (utf8Bytes named.name) (utf8Bytes name) = true) ∧
      (∀ named : NamedClass,
        equalIgnoringCase (utf8Bytes named.name) (utf8Bytes name) = true →
          FlagSet.parse name = .ok named.flagSet ∧
            ∀ other : NamedClass,
              equalIgnoringCase (utf8Bytes other.name) (utf8Bytes name) = true →
                other = named) ∧
      (∀ flag union, ¬ (Flag.ofName? name = some flag ∧
        CompositeClass.ofName? name = some union)) ∧
      (∀ flag, Flag.ofName? name = some flag →
        name = flag.name ∧ name.map Char.toUpper = name ∧
          equalIgnoringCase (utf8Bytes flag.name) (utf8Bytes name) = true ∧
          FlagSet.parse name = .ok (.single flag)) ∧
      ∀ union, CompositeClass.ofName? name = some union →
        name = union.name ∧ name.map Char.toUpper = name ∧
          equalIgnoringCase (utf8Bytes union.name) (utf8Bytes name) = true ∧
          FlagSet.parse name = .ok union.flagSet := by
  refine ⟨exists_parse_eq_ok_iff nonempty noBar stripped notZero,
    fun named equal => ⟨parse_of_equalIgnoringCase equal,
      fun other => eq_of_equalIgnoringCase equal⟩,
    not_both_exact, fun flag found => ?_, fun union found => ?_⟩
  · rw [Flag.ofName?_eq_some_iff] at found
    have spelled : (NamedClass.basic flag).name = name := found
    obtain ⟨raised, equal⟩ := exact_spelling spelled
    exact ⟨found.symm, raised, equal, parse_of_equalIgnoringCase equal⟩
  · rw [CompositeClass.ofName?_eq_some_iff] at found
    have spelled : (NamedClass.composite union).name = name := found
    obtain ⟨raised, equal⟩ := exact_spelling spelled
    exact ⟨found.symm, raised, equal, parse_of_equalIgnoringCase equal⟩

/-- A name that begins two others, in mixed case and as it is spelled, and a
name whose first character is an S in the upper case of Unicode only. -/
theorem parse_name_agrees_with_comparison_mixed_case :
    (IsStripped "Utf8".toList ∧
      equalIgnoringCase (utf8Bytes "UTF8") (utf8Bytes "Utf8") = true ∧
      FlagSet.parse "Utf8" = .ok CompositeClass.utf8.flagSet ∧
      ∀ other : NamedClass,
        equalIgnoringCase (utf8Bytes other.name) (utf8Bytes "Utf8") = true →
          other = .composite .utf8) ∧
      (IsStripped "UTF8LEAD".toList ∧
        Flag.ofName? "UTF8LEAD" = some .utf8Lead ∧
        FlagSet.parse "UTF8LEAD" = .ok (.single .utf8Lead)) ∧
      IsStripped "ſpace".toList ∧
        ¬ ∃ named : NamedClass,
          equalIgnoringCase (utf8Bytes named.name) (utf8Bytes "ſpace") = true := by
  have names : Names "Utf8".toList (.composite .utf8) := by
    rw [Names]
    decide
  have mixed : IsStripped "Utf8".toList := .of_isAlphanum fun _ => names.isAlphanum
  have exact : IsStripped "UTF8LEAD".toList :=
    .of_isAlphanum (isAlphanum_of_mem_name (.basic .utf8Lead))
  have foreign : IsStripped "ſpace".toList := by
    rintro char (first | last)
    · obtain rfl : 'ſ' = char := Option.some.inj first
      decide
    · obtain rfl : 'e' = char := Option.some.inj last
      decide
  have equal : equalIgnoringCase (utf8Bytes (NamedClass.composite .utf8).name)
      (utf8Bytes "Utf8") = true := names_iff_equalIgnoringCase.mp names
  obtain ⟨_, unique, _⟩ := parse_name_agrees_with_comparison
    (by decide) (by decide) mixed (by decide)
  obtain ⟨_, _, _, found, _⟩ := parse_name_agrees_with_comparison
    (by decide) (by decide) exact (by decide)
  obtain ⟨accepted, _⟩ := parse_name_agrees_with_comparison
    (by decide) (by decide) foreign (by decide)
  have denoted := unique (.composite .utf8) equal
  obtain ⟨_, _, _, parsed⟩ := found .utf8Lead (by decide)
  refine ⟨⟨mixed, equal, denoted⟩, ⟨exact, by decide, parsed⟩, foreign, ?_⟩
  intro named
  obtain ⟨set, wrong⟩ := accepted.mpr named
  have refused : FlagSet.parse "ſpace" = .error (.unknownName "ſpace") := by
    decide +kernel
  rw [refused] at wrong
  cases wrong

end ByteClass
