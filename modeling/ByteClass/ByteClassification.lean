import ByteClass.ByteValues
import ByteClass.NamedClass

/-!
# The classes of a byte

Each basic class covers some ranges of byte values.  The classes of all 256
bytes are kept in one table, and a membership test is one look-up followed by
an intersection: a byte is in a set of classes as soon as it carries one of
them.
-/

namespace ByteClass

namespace Flag

/-- The first and last byte of each range of a class.  Lead bytes are recognised
by their high bits, for sequences of two to six bytes; the first value of each
length is left out. -/
def ranges : Flag → List (UInt8 × UInt8)
  | ascii => [(0x00, 0x7f)]
  | control => [(0x00, 0x1f), (0x7f, 0x7f)]
  | space => [(0x09, 0x0d), (0x20, 0x20)]
  | punctuation => [(0x21, 0x2f), (0x3a, 0x40), (0x5b, 0x60), (0x7b, 0x7e)]
  | digit => [(0x30, 0x39)]
  | upper => [(0x41, 0x5a)]
  | lower => [(0x61, 0x7a)]
  | hexLetter => [(0x41, 0x46), (0x61, 0x66)]
  | utf8Lead =>
      [(0xc1, 0xdf), (0xe1, 0xef), (0xf1, 0xf7), (0xf9, 0xfb), (0xfd, 0xfd)]
  | utf8Continuation => [(0x80, 0xbf)]

def covers (flag : Flag) (byte : UInt8) : Bool :=
  flag.ranges.any fun range => range.1 ≤ byte && byte ≤ range.2

/-- The ranges of a class as ranges of numbers. -/
theorem covers_iff {flag : Flag} {byte : UInt8} :
    flag.covers byte = true ↔
      ∃ range ∈ flag.ranges,
        range.1.toNat ≤ byte.toNat ∧ byte.toNat ≤ range.2.toNat := by
  simp [covers, UInt8.le_iff_toNat_le]

theorem covers_upper_iff {byte : UInt8} :
    upper.covers byte = true ↔ 0x41 ≤ byte.toNat ∧ byte.toNat ≤ 0x5a := by
  simp [covers_iff, ranges]

theorem covers_lower_iff {byte : UInt8} :
    lower.covers byte = true ↔ 0x61 ≤ byte.toNat ∧ byte.toNat ≤ 0x7a := by
  simp [covers_iff, ranges]

end Flag

/-- The classes of a byte by their ranges. -/
def classesOf (byte : UInt8) : FlagSet :=
  .ofFlags (Flag.all.filter (·.covers byte))

@[simp]
theorem mem_classesOf {flag : Flag} {byte : UInt8} :
    flag ∈ classesOf byte ↔ flag.covers byte = true := by
  simp [classesOf]

/-- The classes of every byte, indexed by the byte. -/
def classTable : Vector FlagSet 256 :=
  Vector.ofFn fun index => classesOf (UInt8.ofNat index)

def lookUpClasses (byte : UInt8) : FlagSet :=
  have inTable : byte.toNat < 256 := byte.toNat_lt
  classTable[byte.toNat]

@[simp]
theorem lookUpClasses_eq (byte : UInt8) : lookUpClasses byte = classesOf byte := by
  simp [lookUpClasses, classTable]

/-- The byte carries some class of the mask. -/
def inClass (byte : UInt8) (mask : FlagSet) : Bool :=
  (lookUpClasses byte).intersects mask

theorem inClass_iff {byte : UInt8} {mask : FlagSet} :
    inClass byte mask = true ↔
      ∃ position, (classesOf byte).holds position = true ∧
        mask.holds position = true := by
  rw [inClass, lookUpClasses_eq, FlagSet.intersects_iff]

@[simp]
theorem inClass_single (byte : UInt8) (flag : Flag) :
    inClass byte (.single flag) = flag.covers byte := by
  rw [Bool.eq_iff_iff, inClass_iff, ← mem_classesOf, FlagSet.mem_iff]
  simp

theorem inClass_ofFlags (byte : UInt8) (flags : List Flag) :
    inClass byte (.ofFlags flags) = flags.any (·.covers byte) := by
  rw [Bool.eq_iff_iff, inClass_iff, List.any_eq_true]
  constructor
  · rintro ⟨position, carried, held⟩
    rw [FlagSet.holds_ofFlags, List.any_eq_true] at held
    obtain ⟨flag, among, same⟩ := held
    obtain rfl := of_decide_eq_true same
    exact ⟨flag, among, mem_classesOf.mp carried⟩
  · rintro ⟨flag, among, covered⟩
    exact ⟨flag.position, mem_classesOf.mpr covered,
      FlagSet.mem_ofFlags.mpr among⟩

def NamedClass.includes (named : NamedClass) (byte : UInt8) : Bool :=
  inClass byte named.flagSet

@[simp]
theorem NamedClass.includes_basic (flag : Flag) (byte : UInt8) :
    (NamedClass.basic flag).includes byte = flag.covers byte :=
  inClass_single byte flag

@[simp]
theorem NamedClass.includes_composite (union : CompositeClass) (byte : UInt8) :
    (NamedClass.composite union).includes byte =
      union.parts.any (·.covers byte) :=
  inClass_ofFlags byte union.parts

/-- The bytes that carry some class of the mask, in increasing order. -/
def members (mask : FlagSet) : List UInt8 :=
  byteValues.filter (inClass · mask)

@[simp]
theorem mem_members {byte : UInt8} {mask : FlagSet} :
    byte ∈ members mask ↔ inClass byte mask = true := by
  simp [members]

end ByteClass
