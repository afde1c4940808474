import ByteClass.ByteClassification

/-!
# Case partners

The partner of an ASCII letter is the same letter in the other case.  The table
of partners is a table of bytes, in which zero stands for a byte without a
partner: no letter has the zero byte as its partner.
-/

namespace ByteClass

/-- The table entry of a byte without a partner. -/
def noPartner : UInt8 := 0

/-- The table entry of a byte, by the ranges of the two cases. -/
def partnerEntry (byte : UInt8) : UInt8 :=
  if Flag.upper.covers byte then
    byte + 32
  else if Flag.lower.covers byte then
    byte - 32
  else
    noPartner

/-- The entry of every byte, indexed by the byte. -/
def partnerTable : Vector UInt8 256 :=
  Vector.ofFn fun index => partnerEntry (UInt8.ofNat index)

def lookUpPartner (byte : UInt8) : UInt8 :=
  have inTable : byte.toNat < 256 := byte.toNat_lt
  partnerTable[byte.toNat]

@[simp]
theorem lookUpPartner_eq (byte : UInt8) :
    lookUpPartner byte = partnerEntry byte := by
  simp [lookUpPartner, partnerTable]

def partner? (byte : UInt8) : Option UInt8 :=
  let entry := lookUpPartner byte
  if entry = noPartner then none else some entry

/-- The lower-case form of an upper-case letter; any other byte itself. -/
def toLower (byte : UInt8) : UInt8 :=
  if NamedClass.includes (.basic .upper) byte then lookUpPartner byte else byte

/-- The upper-case form of a lower-case letter; any other byte itself. -/
def toUpper (byte : UInt8) : UInt8 :=
  if NamedClass.includes (.basic .lower) byte then lookUpPartner byte else byte

/-- The partner of a letter; any other byte itself. -/
def swapCase (byte : UInt8) : UInt8 :=
  (partner? byte).getD byte

/-- Lower case by ranges of bytes. -/
theorem toLower_eq (byte : UInt8) :
    toLower byte = if Flag.upper.covers byte then byte + 32 else byte := by
  simp only [toLower, NamedClass.includes_basic, lookUpPartner_eq]
  split
  · rename_i upper
    simp [partnerEntry, upper]
  · rfl

/-- Upper case by ranges of bytes. -/
theorem toUpper_eq (byte : UInt8) :
    toUpper byte = if Flag.lower.covers byte then byte - 32 else byte := by
  simp only [toUpper, NamedClass.includes_basic, lookUpPartner_eq]
  split
  · rename_i lower
    have notUpper : Flag.upper.covers byte = false := by
      revert lower
      exact forall_byte (by decide +kernel) byte
    simp [partnerEntry, lower, notUpper]
  · rfl

theorem partner?_eq (byte : UInt8) :
    partner? byte =
      if partnerEntry byte = noPartner then none else some (partnerEntry byte) := by
  rw [partner?, lookUpPartner_eq]

theorem toNat_add_thirtyTwo {byte : UInt8} (upper : byte.toNat ≤ 0x5a) :
    (byte + 32).toNat = byte.toNat + 32 := by
  rw [UInt8.toNat_add]
  change (byte.toNat + 32) % 256 = _
  omega

theorem toNat_sub_thirtyTwo {byte : UInt8} (lower : 0x61 ≤ byte.toNat) :
    (byte - 32).toNat = byte.toNat - 32 := by
  refine UInt8.toNat_sub_of_le _ _ ?_
  rw [UInt8.le_iff_toNat_le]
  change 32 ≤ byte.toNat
  omega

theorem toNat_partnerEntry (byte : UInt8) :
    (partnerEntry byte).toNat =
      if 0x41 ≤ byte.toNat ∧ byte.toNat ≤ 0x5a then byte.toNat + 32
      else if 0x61 ≤ byte.toNat ∧ byte.toNat ≤ 0x7a then byte.toNat - 32
      else 0 := by
  simp only [partnerEntry, Flag.covers_upper_iff, Flag.covers_lower_iff]
  split
  · rename_i upper
    exact toNat_add_thirtyTwo upper.2
  split
  · rename_i lower
    exact toNat_sub_thirtyTwo lower.1
  · rfl

theorem toNat_toLower (byte : UInt8) :
    (toLower byte).toNat =
      if 0x41 ≤ byte.toNat ∧ byte.toNat ≤ 0x5a then byte.toNat + 32
      else byte.toNat := by
  simp only [toLower_eq, Flag.covers_upper_iff]
  split
  · rename_i upper
    exact toNat_add_thirtyTwo upper.2
  · rfl

theorem toNat_toUpper (byte : UInt8) :
    (toUpper byte).toNat =
      if 0x61 ≤ byte.toNat ∧ byte.toNat ≤ 0x7a then byte.toNat - 32
      else byte.toNat := by
  simp only [toUpper_eq, Flag.covers_lower_iff]
  split
  · rename_i lower
    exact toNat_sub_thirtyTwo lower.1
  · rfl

/-- The partners of the letters; the zero byte is the partner of none. -/
theorem partner?_eq_some_iff {byte other : UInt8} :
    partner? byte = some other ↔
      (0x41 ≤ byte.toNat ∧ byte.toNat ≤ 0x5a ∧
        other.toNat = byte.toNat + 32) ∨
        (0x61 ≤ byte.toNat ∧ byte.toNat ≤ 0x7a ∧
          other.toNat + 32 = byte.toNat) := by
  have entry := toNat_partnerEntry byte
  rw [partner?_eq]
  by_cases absent : partnerEntry byte = noPartner
  · have zero : (partnerEntry byte).toNat = 0 := congrArg UInt8.toNat absent
    rw [zero] at entry
    rw [if_pos absent]
    simp only [reduceCtorEq, false_iff]
    split at entry
    · omega
    split at entry <;> omega
  · have nonzero : (partnerEntry byte).toNat ≠ 0 := fun zero =>
      absent (UInt8.toNat_inj.mp zero)
    rw [if_neg absent, Option.some_inj, ← UInt8.toNat_inj]
    split at entry
    · omega
    split at entry <;> omega

@[simp]
theorem toLower_toLower (byte : UInt8) : toLower (toLower byte) = toLower byte := by
  simp only [toLower_eq]
  exact forall_byte (by decide +kernel) byte

@[simp]
theorem toLower_toUpper (byte : UInt8) : toLower (toUpper byte) = toLower byte := by
  simp only [toLower_eq, toUpper_eq]
  exact forall_byte (by decide +kernel) byte

@[simp]
theorem toUpper_toLower (byte : UInt8) : toUpper (toLower byte) = toUpper byte := by
  simp only [toLower_eq, toUpper_eq]
  exact forall_byte (by decide +kernel) byte

@[simp]
theorem swapCase_swapCase (byte : UInt8) : swapCase (swapCase byte) = byte := by
  simp only [swapCase, partner?_eq]
  exact forall_byte (by decide +kernel) byte

end ByteClass
