import ByteClass.CaseInsensitiveOrder

/-!
# The preorder of byte strings without regard to case

Comparing two byte strings without regard to case is the lexicographic
comparison of their lower-case copies.  It is therefore oriented and
transitive, and its ties are exactly the pairs of equal strings.
-/

namespace ByteClass

/-- The comparison is lexicographic on lower-case copies. -/
theorem compareIgnoringCase_eq (first second : List UInt8) :
    compareIgnoringCase first second =
      compare (first.map toLower) (second.map toLower) := by
  induction first generalizing second with
  | nil => cases second <;> simp [List.compare_nil_cons]
  | cons byte bytes ih =>
      cases second with
      | nil => simp [List.compare_cons_nil]
      | cons other others =>
          rw [compareIgnoringCase_cons_cons, ih, List.map_cons, List.map_cons,
            List.compare_cons_cons, compareByte]

instance transCmp_compareIgnoringCase : Std.TransCmp compareIgnoringCase where
  eq_swap {first second} := by
    rw [compareIgnoringCase_eq, compareIgnoringCase_eq]
    exact Std.OrientedCmp.eq_swap
  isLE_trans {first second third} := by
    rw [compareIgnoringCase_eq, compareIgnoringCase_eq, compareIgnoringCase_eq]
    exact Std.TransCmp.isLE_trans

theorem compareIgnoringCase_eq_eq_iff {first second : List UInt8} :
    compareIgnoringCase first second = .eq ↔
      equalIgnoringCase first second = true := by
  rw [compareIgnoringCase_eq, equalIgnoringCase_iff]
  exact Std.LawfulEqOrd.compare_eq_iff_eq

theorem compareIgnoringCase_congr {first second first' second' : List UInt8}
    (firsts : equalIgnoringCase first first' = true)
    (seconds : equalIgnoringCase second second' = true) :
    compareIgnoringCase first second = compareIgnoringCase first' second' := by
  rw [← compareIgnoringCase_eq_eq_iff] at firsts seconds
  calc
    compareIgnoringCase first second = compareIgnoringCase first' second :=
      Std.TransCmp.congr_left firsts
    _ = compareIgnoringCase first' second' := Std.TransCmp.congr_right seconds

/-- The comparison is a total preorder whose ties are the equal strings, and
equal strings stand for each other. -/
theorem compareIgnoringCase_preorder (first second third : List UInt8) :
    compareIgnoringCase second first =
        (compareIgnoringCase first second).swap ∧
      (compareIgnoringCase first second = .eq ↔
        equalIgnoringCase first second = true) ∧
      (compareIgnoringCase first second ≠ .gt →
        compareIgnoringCase second third ≠ .gt →
        compareIgnoringCase first third ≠ .gt ∧
          (compareIgnoringCase first second = .lt ∨
              compareIgnoringCase second third = .lt →
            compareIgnoringCase first third = .lt)) ∧
      ∀ first' second', equalIgnoringCase first first' = true →
        equalIgnoringCase second second' = true →
        compareIgnoringCase first second =
          compareIgnoringCase first' second' := by
  refine ⟨Std.OrientedCmp.eq_swap, compareIgnoringCase_eq_eq_iff, ?_,
    fun first' second' => compareIgnoringCase_congr⟩
  intro front back
  rw [ne_eq, Ordering.ne_gt_iff_isLE] at front back ⊢
  refine ⟨Std.TransCmp.isLE_trans front back, ?_⟩
  rintro (less | less)
  · exact Std.TransCmp.lt_of_lt_of_isLE less back
  · exact Std.TransCmp.lt_of_isLE_of_lt front less

theorem compareIgnoringCase_preorder_mixed_case :
    compareIgnoringCase [0x61] [0x41, 0x5f] = .lt ∧
      compareIgnoringCase [0x41, 0x5f] [0x61, 0x5f] ≠ .gt ∧
      compareIgnoringCase [0x61] [0x61, 0x5f] = .lt ∧
      equalIgnoringCase [0x61] [0x41] = true ∧
      equalIgnoringCase [0x41, 0x5f] [0x61, 0x5f] = true ∧
      compareIgnoringCase [0x61] [0x41, 0x5f] =
        compareIgnoringCase [0x41] [0x61, 0x5f] := by
  have less : compareIgnoringCase [0x61] [0x41, 0x5f] = .lt := by
    simp only [compareIgnoringCase_eq, List.map_cons, toLower_eq]
    decide
  have tie : compareIgnoringCase [0x41, 0x5f] [0x61, 0x5f] ≠ .gt := by
    simp only [compareIgnoringCase_eq, List.map_cons, toLower_eq]
    decide
  have firsts : equalIgnoringCase [0x61] [0x41] = true := by
    simp only [equalIgnoringCase_iff, List.map_cons, toLower_eq]
    decide
  have seconds : equalIgnoringCase [0x41, 0x5f] [0x61, 0x5f] = true := by
    simp only [equalIgnoringCase_iff, List.map_cons, toLower_eq]
    decide
  obtain ⟨_, _, transitive, interchangeable⟩ :=
    compareIgnoringCase_preorder [0x61] [0x41, 0x5f] [0x61, 0x5f]
  have below := transitive (by simp [less]) tie
  exact ⟨less, tie, below.2 (.inl less), firsts, seconds,
    interchangeable [0x41] [0x61, 0x5f] firsts seconds⟩

end ByteClass
