import ByteClass.Proofs.CaseInsensitivePreorder
import ByteClass.Proofs.EncodedCharacters

/-!
# The order of strings, said without the tables

Case-insensitive comparison has a reference that knows nothing of tables and
masks.  Every byte from `A` to `Z` is raised by 32 and any other byte is kept.
Of two strings treated so, the one in front is a proper prefix of the other or
holds the smaller byte at the first place where they differ.
-/

namespace ByteClass

/-- The byte 32 places behind an upper-case letter; any other byte itself. -/
def lowercaseByte (byte : UInt8) : UInt8 :=
  if 0x41 ≤ byte.toNat ∧ byte.toNat ≤ 0x5a then
    UInt8.ofNat (byte.toNat + 32)
  else
    byte

/-- The first string is a proper prefix of the second, or holds the smaller byte
at the first place where the two differ. -/
def StandsBefore (first second : List UInt8) : Prop :=
  (first <+: second ∧ first.length < second.length) ∨
    ∃ common byte other firsts seconds,
      first = common ++ byte :: firsts ∧
        second = common ++ other :: seconds ∧ byte.toNat < other.toNat

theorem toLower_eq_lowercaseByte (byte : UInt8) :
    toLower byte = lowercaseByte byte := by
  rw [lowercaseByte, ← UInt8.toNat_inj, toNat_toLower]
  split
  · rename_i upper
    rw [UInt8.toNat_ofNat_of_lt' (by change _ < 256; omega)]
  · rfl

theorem map_toLower_eq (bytes : List UInt8) :
    bytes.map toLower = bytes.map lowercaseByte :=
  List.map_congr_left fun byte _ => toLower_eq_lowercaseByte byte

theorem not_standsBefore_nil (bytes : List UInt8) : ¬ StandsBefore bytes [] := by
  rintro (⟨_, shorter⟩ | ⟨common, byte, other, firsts, seconds, _, equal, _⟩)
  · exact Nat.not_lt_zero _ shorter
  · simp at equal

theorem standsBefore_nil_cons (byte : UInt8) (bytes : List UInt8) :
    StandsBefore [] (byte :: bytes) :=
  .inl ⟨List.nil_prefix, Nat.succ_pos _⟩

/-- The first bytes decide, and the rest of the strings if they agree. -/
theorem standsBefore_cons_cons {first second : UInt8}
    {firsts seconds : List UInt8} :
    StandsBefore (first :: firsts) (second :: seconds) ↔
      first.toNat < second.toNat ∨
        first.toNat = second.toNat ∧ StandsBefore firsts seconds := by
  constructor
  · rintro (⟨starts, shorter⟩ |
      ⟨common, byte, other, rest, otherRest, equal, otherEqual, less⟩)
    · obtain ⟨rfl, later⟩ := List.cons_prefix_cons.mp starts
      exact .inr ⟨rfl, .inl ⟨later, Nat.lt_of_succ_lt_succ shorter⟩⟩
    · cases common with
      | nil =>
          obtain ⟨rfl, _⟩ := List.cons.inj equal
          obtain ⟨rfl, _⟩ := List.cons.inj otherEqual
          exact .inl less
      | cons same common =>
          obtain ⟨rfl, firstEqual⟩ := List.cons.inj equal
          obtain ⟨rfl, secondEqual⟩ := List.cons.inj otherEqual
          exact .inr ⟨rfl, .inr ⟨common, byte, other, rest, otherRest,
            firstEqual, secondEqual, less⟩⟩
  · rintro (less | ⟨same, before⟩)
    · exact .inr ⟨[], first, second, firsts, seconds, rfl, rfl, less⟩
    · obtain rfl := UInt8.toNat_inj.mp same
      rcases before with ⟨starts, shorter⟩ |
        ⟨common, byte, other, rest, otherRest, rfl, rfl, less⟩
      · exact .inl ⟨List.cons_prefix_cons.mpr ⟨rfl, starts⟩,
          Nat.succ_lt_succ shorter⟩
      · exact .inr ⟨first :: common, byte, other, rest, otherRest, rfl, rfl, less⟩

theorem compare_eq_lt_iff_standsBefore {first second : List UInt8} :
    compare first second = .lt ↔ StandsBefore first second := by
  induction first generalizing second with
  | nil =>
      cases second with
      | nil => simp [not_standsBefore_nil]
      | cons byte bytes =>
          simp [List.compare_nil_cons, standsBefore_nil_cons]
  | cons byte bytes ih =>
      cases second with
      | nil => simp [List.compare_cons_nil, not_standsBefore_nil]
      | cons other others =>
          rw [compare_cons_eq_lt_iff, ih, standsBefore_cons_cons]

/-- Comparing two strings is the lexicographic comparison of their copies in
lower case, by unsigned bytes and with a prefix in front; the strings are equal
exactly if these copies are. -/
theorem compareIgnoringCase_reference (first second : List UInt8) :
    compareIgnoringCase first second =
        compare (first.map lowercaseByte) (second.map lowercaseByte) ∧
      (compareIgnoringCase first second = .lt ↔
        StandsBefore (first.map lowercaseByte) (second.map lowercaseByte)) ∧
      (compareIgnoringCase first second = .gt ↔
        StandsBefore (second.map lowercaseByte) (first.map lowercaseByte)) ∧
      (compareIgnoringCase first second = .eq ↔
        first.map lowercaseByte = second.map lowercaseByte) ∧
      (equalIgnoringCase first second = true ↔
        first.map lowercaseByte = second.map lowercaseByte) := by
  rw [compareIgnoringCase_eq, equalIgnoringCase_iff, map_toLower_eq,
    map_toLower_eq]
  refine ⟨rfl, compare_eq_lt_iff_standsBefore, ?_,
    Std.LawfulEqOrd.compare_eq_iff_eq, Iff.rfl⟩
  rw [Std.OrientedOrd.eq_swap, Ordering.swap_eq_gt, compare_eq_lt_iff_standsBefore]

end ByteClass
