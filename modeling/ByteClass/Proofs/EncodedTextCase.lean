import ByteClass.Proofs.CaseInsensitivePreorder
import ByteClass.Proofs.EncodedCharacters

/-!
# Case in encoded texts

The case operations see bytes, not characters.  On a text in UTF-8 they are
right nevertheless: they change the bytes of ASCII letters and leave every byte
of any other character alone.  Since the order of encoded texts is that of the
code points, comparing the bytes without regard to case compares the texts in
lower case.
-/

namespace ByteClass

/-- The changes of case. -/
inductive CaseOperation
  | lower
  | upper
  | swap
  deriving DecidableEq

namespace CaseOperation

def onByte : CaseOperation → UInt8 → UInt8
  | lower => toLower
  | upper => toUpper
  | swap => swapCase

/-- The same change of a character; only ASCII letters have two cases here. -/
def onChar : CaseOperation → Char → Char
  | lower => Char.toLower
  | upper => Char.toUpper
  | swap => fun char => if char.isUpper then char.toLower else char.toUpper

variable (operation : CaseOperation)

theorem onByte_of_le {byte : UInt8} (beyond : 0x80 ≤ byte.toNat) :
    operation.onByte byte = byte := by
  cases operation with
  | lower => rw [onByte, ← UInt8.toNat_inj, toNat_toLower, if_neg (by omega)]
  | upper => rw [onByte, ← UInt8.toNat_inj, toNat_toUpper, if_neg (by omega)]
  | swap =>
      have alone : partner? byte = none := by
        rw [Option.eq_none_iff_forall_ne_some]
        intro other found
        rw [partner?_eq_some_iff] at found
        omega
      rw [onByte, swapCase, alone, Option.getD_none]

theorem toLower_of_le {char : Char} (beyond : 0x80 ≤ char.toNat) :
    char.toLower = char := by
  apply dif_neg
  rintro ⟨_, high⟩
  rw [UInt32.le_iff_toNat_le, Char.toNat_val] at high
  exact absurd (Nat.le_trans beyond high) (by decide)

theorem toUpper_of_le {char : Char} (beyond : 0x80 ≤ char.toNat) :
    char.toUpper = char := by
  apply dif_neg
  rintro ⟨_, high⟩
  rw [UInt32.le_iff_toNat_le, Char.toNat_val] at high
  exact absurd (Nat.le_trans beyond high) (by decide)

theorem onChar_of_le {char : Char} (beyond : 0x80 ≤ char.toNat) :
    operation.onChar char = char := by
  cases operation with
  | lower => exact toLower_of_le beyond
  | upper => exact toUpper_of_le beyond
  | swap => simp only [onChar, toLower_of_le beyond, toUpper_of_le beyond, ite_self]

theorem utf8EncodeChar_onChar_of_lt {char : Char} (ascii : char.toNat < 0x80) :
    String.utf8EncodeChar (operation.onChar char) =
      [operation.onByte (UInt8.ofNat char.toNat)] := by
  have table : ∀ code : Fin 128,
      String.utf8EncodeChar (operation.onChar (Char.ofNat code.val)) =
        [operation.onByte (UInt8.ofNat code.val)] := by
    cases operation with
    | lower =>
        simp only [onByte, onChar, toLower_eq]
        decide +kernel
    | upper =>
        simp only [onByte, onChar, toUpper_eq]
        decide +kernel
    | swap =>
        simp only [onByte, onChar, swapCase, partner?_eq]
        decide +kernel
  have entry := table ⟨char.toNat, ascii⟩
  rwa [Char.ofNat_toNat] at entry

/-- A change of bytes is the change of the one character that they encode. -/
theorem map_utf8EncodeChar (char : Char) :
    (String.utf8EncodeChar char).map operation.onByte =
      String.utf8EncodeChar (operation.onChar char) := by
  rcases Nat.lt_or_ge char.toNat 0x80 with ascii | beyond
  · rw [utf8EncodeChar_onChar_of_lt operation ascii, utf8EncodeChar_of_lt ascii,
      List.map_singleton]
  · rw [operation.onChar_of_le beyond]
    have unchanged : ∀ byte ∈ String.utf8EncodeChar char,
        operation.onByte byte = id byte := fun byte member =>
      operation.onByte_of_le (le_of_mem_utf8EncodeChar beyond member)
    rw [List.map_congr_left unchanged, List.map_id]

theorem map_utf8Bytes (text : String) :
    (utf8Bytes text).map operation.onByte =
      utf8Bytes (text.map operation.onChar) := by
  rw [utf8Bytes_eq, utf8Bytes_eq, String.toList_map, List.map_flatMap,
    List.flatMap_map]
  congr 1
  funext char
  exact operation.map_utf8EncodeChar char

end CaseOperation

/-- Comparing encoded texts without regard to case compares the code points of
the texts in lower case, and a change of case in the bytes is a change of the
ASCII letters of the text, which is well-formed and as long as before. -/
theorem compareIgnoringCase_utf8Bytes (first second : String) :
    compareIgnoringCase (utf8Bytes first) (utf8Bytes second) =
        compare ((first.map Char.toLower).toList.map Char.toNat)
          ((second.map Char.toLower).toList.map Char.toNat) ∧
      (equalIgnoringCase (utf8Bytes first) (utf8Bytes second) = true ↔
        first.map Char.toLower = second.map Char.toLower) ∧
      ∀ operation : CaseOperation,
        (utf8Bytes first).map operation.onByte =
            utf8Bytes (first.map operation.onChar) ∧
          decodeUtf8? ((utf8Bytes first).map operation.onByte) =
            some (first.map operation.onChar) ∧
          (first.map operation.onChar).length = first.length := by
  have lowered : ∀ text : String, (utf8Bytes text).map toLower =
      utf8Bytes (text.map Char.toLower) := CaseOperation.lower.map_utf8Bytes
  refine ⟨?_, ?_, fun operation => ⟨operation.map_utf8Bytes first, ?_, ?_⟩⟩
  · rw [compareIgnoringCase_eq, lowered, lowered, utf8Bytes_eq, utf8Bytes_eq,
      compare_flatMap_utf8EncodeChar]
  · rw [equalIgnoringCase_iff, lowered, lowered, utf8Bytes_inj]
  · rw [operation.map_utf8Bytes, decodeUtf8?_utf8Bytes]
  · rw [← String.length_toList, ← String.length_toList, String.toList_map,
      List.length_map]

end ByteClass
