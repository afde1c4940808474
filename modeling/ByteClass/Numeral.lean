import ByteClass.ByteValues

/-!
# Written numbers

Numbers are written with lower-case digits and without a sign, and
`Numeral.read?` reads them back in any base up to sixteen.  Small decimal
numbers have two writers, one digit at a time or two digits at a time, and a
build picks one of them.
-/

namespace ByteClass

namespace Numeral

/-- The digits of a number in a base up to sixteen, most significant first. -/
def inBase (base number : Nat) : String :=
  String.ofList (Nat.toDigits base number)

/-- Hexadecimal digits, filled up with zeros on the left. -/
def paddedHex (width number : Nat) : String :=
  String.ofList ((Nat.toDigits 16 number).leftpad width '0')

/-- The two decimal digits of a number below one hundred. -/
def digitPair (number : Nat) : List Char :=
  [Nat.digitChar (number / 10), Nat.digitChar (number % 10)]

/-- A property of every hexadecimal digit follows from its sixteen instances. -/
@[elab_as_elim]
theorem forall_digit {motive : Nat → Prop}
    (table : ∀ index : Fin 16, motive index.val) (digit : Nat)
    (small : digit < 16) : motive digit :=
  table ⟨digit, small⟩

theorem mem_toDigits {base number : Nat} {char : Char} (baseLarge : 1 < base)
    (written : char ∈ Nat.toDigits base number) :
    ∃ digit, digit < base ∧ char = Nat.digitChar digit := by
  induction number using Nat.strongRecOn with
  | ind number ih =>
      rw [Nat.toDigits_eq_if baseLarge] at written
      split at written
      · rename_i small
        exact ⟨number, small, by simpa using written⟩
      · rename_i large
        rcases List.mem_append.mp written with front | last
        · exact ih _ (Nat.div_lt_self (by omega) baseLarge) front
        · exact ⟨number % base, Nat.mod_lt _ (by omega), by simpa using last⟩

theorem mem_leftpad {base width number : Nat} {char : Char}
    (baseLarge : 1 < base)
    (written : char ∈ (Nat.toDigits base number).leftpad width '0') :
    ∃ digit, digit < base ∧ char = Nat.digitChar digit := by
  rcases List.mem_append.mp written with zero | digit
  · exact ⟨0, Nat.zero_lt_of_lt baseLarge, (List.mem_replicate.mp zero).2⟩
  · exact mem_toDigits baseLarge digit

/-- The value of a lower-case digit. -/
def digit? (char : Char) : Option Nat :=
  if '0' ≤ char ∧ char ≤ '9' then
    some (char.toNat - '0'.toNat)
  else if 'a' ≤ char ∧ char ≤ 'f' then
    some (char.toNat - 'a'.toNat + 10)
  else
    none

/-- Append one digit to a number read so far. -/
def readStep (base number : Nat) (char : Char) : Option Nat := do
  let digit ← digit? char
  if digit < base then some (number * base + digit) else none

/-- The number that digits stand for, leading zeros included; there has to be a
digit. -/
def read? (base : Nat) (digits : List Char) : Option Nat :=
  if digits.isEmpty then none else digits.foldlM (readStep base) 0

theorem digit?_digitChar {digit : Nat} (small : digit < 16) :
    digit? (Nat.digitChar digit) = some digit :=
  forall_digit (by decide) digit small

theorem toNat_digitChar {digit : Nat} (small : digit < 16) :
    (Nat.digitChar digit).toNat =
      if digit < 10 then digit + 48 else digit + 87 :=
  forall_digit (by decide) digit small

theorem toNat_of_digit? {char : Char} {digit : Nat}
    (known : digit? char = some digit) :
    digit < 10 ∧ char.toNat = digit + 48 ∨
      10 ≤ digit ∧ digit < 16 ∧ char.toNat = digit + 87 := by
  simp only [digit?, Char.le_def, UInt32.le_iff_toNat_le] at known
  split at known
  · rename_i decimal
    obtain ⟨least, greatest⟩ : 48 ≤ char.toNat ∧ char.toNat ≤ 57 := decimal
    have value : char.toNat - 48 = digit := Option.some.inj known
    exact .inl (by omega)
  · split at known
    · rename_i letter
      obtain ⟨least, greatest⟩ : 97 ≤ char.toNat ∧ char.toNat ≤ 102 := letter
      have value : char.toNat - 97 + 10 = digit := Option.some.inj known
      exact .inr (by omega)
    · cases known

/-- The characters with a value are the digits that are written. -/
theorem digit?_eq_some_iff {char : Char} {digit : Nat} :
    digit? char = some digit ↔ digit < 16 ∧ char = Nat.digitChar digit := by
  constructor
  · intro known
    have code := toNat_of_digit? known
    have small : digit < 16 := by omega
    refine ⟨small, Char.toNat_inj.mp ?_⟩
    rw [toNat_digitChar small]
    split <;> omega
  · rintro ⟨small, rfl⟩
    exact digit?_digitChar small

theorem exists_digit_of_readStep {base number value : Nat} {char : Char}
    (read : readStep base number char = some value) :
    ∃ digit < base, char = Nat.digitChar digit ∧
      value = number * base + digit := by
  obtain ⟨digit, known, step⟩ := Option.bind_eq_some_iff.mp read
  split at step
  · rename_i inBase
    exact ⟨digit, inBase, (digit?_eq_some_iff.mp known).2,
      (Option.some.inj step).symm⟩
  · cases step

/-- Two hexadecimal digits are read as the number that is written with them. -/
theorem digits_of_read?_hexPair {number : Nat} {high low : Char}
    (read : read? 16 [high, low] = some number) :
    number < 256 ∧ high = Nat.digitChar (number / 16) ∧
      low = Nat.digitChar (number % 16) := by
  have steps :
      (readStep 16 0 high).bind (readStep 16 · low) = some number := by
    simpa [read?] using read
  obtain ⟨front, readHigh, readLow⟩ := Option.bind_eq_some_iff.mp steps
  obtain ⟨first, firstSmall, rfl, _⟩ := exists_digit_of_readStep readHigh
  obtain ⟨second, secondSmall, rfl, _⟩ := exists_digit_of_readStep readLow
  have quotient : number / 16 = first := by omega
  have remainder : number % 16 = second := by omega
  exact ⟨by omega, by rw [quotient], by rw [remainder]⟩

theorem readStep_digitChar {base digit : Nat} (baseSmall : base ≤ 16)
    (inBase : digit < base) (number : Nat) :
    readStep base number (Nat.digitChar digit) = some (number * base + digit) := by
  simp [readStep, digit?_digitChar (Nat.lt_of_lt_of_le inBase baseSmall), inBase]

theorem foldlM_readStep_toDigits {base : Nat} (baseLarge : 1 < base)
    (baseSmall : base ≤ 16) (number : Nat) :
    (Nat.toDigits base number).foldlM (readStep base) 0 = some number := by
  induction number using Nat.strongRecOn with
  | ind number ih =>
      rw [Nat.toDigits_eq_if baseLarge]
      split
      · rename_i small
        simp [readStep_digitChar baseSmall small]
      · rename_i large
        have positive : 0 < base := Nat.zero_lt_of_lt baseLarge
        have smaller : number / base < number :=
          Nat.div_lt_self (by omega) baseLarge
        rw [List.foldlM_append, ih _ smaller]
        simp only [Option.bind_eq_bind, Option.bind_some, List.foldlM_cons,
          List.foldlM_nil,
          readStep_digitChar baseSmall (Nat.mod_lt number positive)]
        rw [Nat.mul_comm, Nat.div_add_mod]
        rfl

/-- Written numbers read back. -/
theorem read?_toDigits {base : Nat} (baseLarge : 1 < base)
    (baseSmall : base ≤ 16) (number : Nat) :
    read? base (Nat.toDigits base number) = some number := by
  simp [read?, Nat.toDigits_ne_nil,
    foldlM_readStep_toDigits baseLarge baseSmall]

theorem foldlM_readStep_zeros {base : Nat} (positive : 0 < base) (count : Nat) :
    (List.replicate count '0').foldlM (readStep base) 0 = some 0 := by
  have zero : readStep base 0 '0' = some 0 := by
    simp [readStep, digit?, positive]
  induction count with
  | zero => rfl
  | succ count ih =>
      rw [List.replicate_succ, List.foldlM_cons, zero]
      exact ih

/-- Numbers filled up with zeros read back. -/
theorem read?_leftpad {base : Nat} (baseLarge : 1 < base)
    (baseSmall : base ≤ 16) (width number : Nat) :
    read? base ((Nat.toDigits base number).leftpad width '0') = some number := by
  have nonempty :
      ((Nat.toDigits base number).leftpad width '0').isEmpty = false := by
    simp [List.leftpad, Nat.toDigits_ne_nil]
  rw [read?, nonempty, if_neg (by decide), List.leftpad, List.foldlM_append,
    foldlM_readStep_zeros (Nat.zero_lt_of_lt baseLarge)]
  exact foldlM_readStep_toDigits baseLarge baseSmall number

/-- Only the number zero is written with a zero in front. -/
theorem eq_zero_of_head?_toDigits {base number : Nat} (baseLarge : 1 < base)
    (baseSmall : base ≤ 16)
    (zero : (Nat.toDigits base number).head? = some '0') : number = 0 := by
  induction number using Nat.strongRecOn with
  | ind number ih =>
      rw [Nat.toDigits_eq_if baseLarge] at zero
      split at zero
      · rename_i small
        have value := digit?_digitChar (Nat.lt_of_lt_of_le small baseSmall)
        rw [Option.some.inj zero] at value
        exact (Option.some.inj value).symm
      · rename_i large
        obtain ⟨digit, digits, front⟩ := List.exists_cons_of_ne_nil
          (Nat.toDigits_ne_nil (n := number / base) (b := base))
        have positive : 0 < number / base :=
          Nat.div_pos (Nat.le_of_not_lt large) (by omega)
        have smaller : number / base < number :=
          Nat.div_lt_self (by omega) baseLarge
        rw [front, List.cons_append] at zero
        have none := ih _ smaller (by rw [front]; exact zero)
        omega

end Numeral

/-- How decimal numbers of one byte are written. -/
inductive DecimalMethod
  | digitByDigit
  | pairwise
  deriving DecidableEq

namespace DecimalMethod

open Numeral

def write : DecimalMethod → UInt8 → String
  | digitByDigit, value => inBase 10 value.toNat
  | pairwise, value =>
      let number := value.toNat
      if number < 10 then
        String.ofList [Nat.digitChar number]
      else if number < 100 then
        String.ofList (digitPair number)
      else
        String.ofList (Nat.digitChar (number / 100) :: digitPair (number % 100))

/-- Both writers produce the same digits. -/
theorem write_eq (method : DecimalMethod) (value : UInt8) :
    method.write value = inBase 10 value.toNat := by
  cases method with
  | digitByDigit => rfl
  | pairwise =>
      exact forall_byte (by decide +kernel) value

end DecimalMethod

end ByteClass
