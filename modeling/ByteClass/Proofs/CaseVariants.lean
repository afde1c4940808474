import ByteClass.Proofs.EncodedTextCase
import Mathlib.Data.List.Forall2
import Mathlib.Data.List.TFAE
import Mathlib.Tactic.TFAE

/-!
# Variants of a string in other cases

Two bytes are variants of each other if they are the same or partners.  Lower
case, upper case and the table of partners all tell variants apart from other
bytes, so they induce one equivalence on strings: equality without regard to
case.  Changes of case at any positions stay inside it.
-/

namespace ByteClass

/-- The same byte, or the partner of it. -/
def AreVariants (first second : UInt8) : Prop :=
  first = second ∨ partner? first = some second

/-- Strings of one length that hold variants at every position. -/
def AreVariantStrings (first second : List UInt8) : Prop :=
  first.length = second.length ∧
    ∀ (position : Nat) (inFirst : position < first.length)
      (inSecond : position < second.length),
      AreVariants first[position] second[position]

/-- The string after a change of case at each position that has one. -/
def recase (change? : Nat → Option CaseOperation) (bytes : List UInt8) :
    List UInt8 :=
  bytes.mapIdx fun position byte =>
    match change? position with
    | some operation => operation.onByte byte
    | none => byte

theorem areVariants_iff {first second : UInt8} :
    AreVariants first second ↔
      first.toNat = second.toNat ∨
        (0x41 ≤ first.toNat ∧ first.toNat ≤ 0x5a ∧
          second.toNat = first.toNat + 32) ∨
        (0x61 ≤ first.toNat ∧ first.toNat ≤ 0x7a ∧
          second.toNat + 32 = first.toNat) := by
  rw [AreVariants, partner?_eq_some_iff, UInt8.toNat_inj]

theorem toLower_eq_toLower_iff {first second : UInt8} :
    toLower first = toLower second ↔ AreVariants first second := by
  rw [areVariants_iff, ← UInt8.toNat_inj, toNat_toLower, toNat_toLower]
  split <;> split <;> omega

theorem toUpper_eq_toUpper_iff {first second : UInt8} :
    toUpper first = toUpper second ↔ AreVariants first second := by
  rw [areVariants_iff, ← UInt8.toNat_inj, toNat_toUpper, toNat_toUpper]
  split <;> split <;> omega

theorem areVariants_swapCase (byte : UInt8) :
    AreVariants byte (swapCase byte) := by
  rw [swapCase]
  cases found : partner? byte with
  | none => exact .inl rfl
  | some other => exact .inr found

theorem areVariantStrings_iff_forall₂ {first second : List UInt8} :
    AreVariantStrings first second ↔ List.Forall₂ AreVariants first second :=
  List.forall₂_iff_get.symm

/-- A function that tells exactly variants apart from other bytes does so for
strings. -/
theorem map_eq_map_iff_areVariantStrings {form : UInt8 → UInt8}
    (agree : ∀ {first second}, form first = form second ↔
      AreVariants first second)
    (first second : List UInt8) :
    first.map form = second.map form ↔ AreVariantStrings first second := by
  rw [areVariantStrings_iff_forall₂, ← List.forall₂_eq_eq_eq,
    List.forall₂_map_left_iff, List.forall₂_map_right_iff]
  simp only [agree]

theorem equalIgnoringCase_iff_map_toUpper {first second : List UInt8} :
    equalIgnoringCase first second = true ↔
      first.map toUpper = second.map toUpper := by
  rw [equalIgnoringCase_iff,
    map_eq_map_iff_areVariantStrings toLower_eq_toLower_iff,
    map_eq_map_iff_areVariantStrings toUpper_eq_toUpper_iff]

theorem toLower_onByte (operation : CaseOperation) (byte : UInt8) :
    toLower (operation.onByte byte) = toLower byte := by
  cases operation with
  | lower => exact toLower_toLower byte
  | upper => exact toLower_toUpper byte
  | swap => exact (toLower_eq_toLower_iff.mpr (areVariants_swapCase byte)).symm

theorem equalIgnoringCase_recase (change? : Nat → Option CaseOperation)
    (bytes : List UInt8) :
    equalIgnoringCase (recase change? bytes) bytes = true := by
  rw [equalIgnoringCase_iff]
  apply List.ext_getElem?
  intro position
  rw [recase, List.getElem?_map, List.getElem?_map, List.getElem?_mapIdx]
  cases bytes[position]? with
  | none => rfl
  | some byte =>
      rw [Option.map_some, Option.map_some, Option.map_some]
      cases change? position with
      | none => rfl
      | some operation => exact congrArg some (toLower_onByte operation byte)

/-- Equality without regard to case, equal copies in lower case, equal copies in
upper case and partners at the positions that differ are one equivalence.
Changes of case at any positions lead to equal strings, changing each letter
twice leads back, and the last change of all letters to one case decides. -/
theorem case_paths_agree (first second : List UInt8) :
    [equalIgnoringCase first second = true,
        first.map toLower = second.map toLower,
        first.map toUpper = second.map toUpper,
        AreVariantStrings first second].TFAE ∧
      (∀ change? : Nat → Option CaseOperation,
        equalIgnoringCase (recase change? first) first = true) ∧
      (first.map swapCase).map swapCase = first ∧
      (first.map toUpper).map toLower = first.map toLower ∧
      (first.map toLower).map toUpper = first.map toUpper := by
  refine ⟨?_, fun change? => equalIgnoringCase_recase change? first, ?_, ?_, ?_⟩
  · tfae_have 1 ↔ 2 := equalIgnoringCase_iff
    tfae_have 1 ↔ 3 := equalIgnoringCase_iff_map_toUpper
    tfae_have 2 ↔ 4 :=
      map_eq_map_iff_areVariantStrings toLower_eq_toLower_iff first second
    tfae_finish
  · have involutive : Function.Involutive swapCase := swapCase_swapCase
    exact involutive.list_map first
  · rw [List.map_map]
    exact List.map_congr_left fun byte _ => toLower_toUpper byte
  · rw [List.map_map]
    exact List.map_congr_left fun byte _ => toUpper_toLower byte

end ByteClass
