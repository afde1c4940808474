import ByteClass.ByteLabel

/-!
# Labels as a code

Four rules share the byte values among them and give each byte one label: a
mnemonic, the mnemonic of the last ASCII byte, a character between two spaces, or
two digits behind an `x`.  What the reader of a label accepts follows one of these
rules, so it accepts labels only.  All labels have three printable characters, and
a text of labels reads back three characters at a time, whatever the bytes are.
-/

namespace ByteClass

/-- The rules for labels.  Mnemonics are filled up on the right, other characters
of ASCII stand in the middle, and a byte outside ASCII has its two digits behind
an `x`. -/
inductive IsLabelOf (byte : UInt8) : List Char → Prop
  | mnemonic (control : byte.toNat ≤ 0x20) {name : String}
      (known : controlMnemonics[byte.toNat]? = some name) :
      IsLabelOf byte (name.toList.rightpad 3 ' ')
  | delete (last : byte.toNat = 0x7f) :
      IsLabelOf byte deleteMnemonic.toList
  | printed {char : Char} (code : char.toNat = byte.toNat)
      (above : 0x20 < char.toNat) (below : char.toNat < 0x7f) :
      IsLabelOf byte [' ', char, ' ']
  | digits (beyond : 0x80 ≤ byte.toNat) :
      IsLabelOf byte ['x', Nat.digitChar (byte.toNat / 16),
        Nat.digitChar (byte.toNat % 16)]

/-- A character of ASCII from the space to the tilde. -/
def IsPrintable (char : Char) : Prop :=
  0x20 ≤ char.toNat ∧ char.toNat ≤ 0x7e

instance : DecidablePred IsPrintable :=
  fun char =>
    inferInstanceAs (Decidable (0x20 ≤ char.toNat ∧ char.toNat ≤ 0x7e))

theorem isPrintable_of_mem_mnemonic {name : String}
    (listed : name ∈ deleteMnemonic :: controlMnemonics) {char : Char}
    (letter : char ∈ name.toList) : IsPrintable char := by
  have table : (deleteMnemonic :: controlMnemonics).all
      (fun name => name.toList.all fun char => decide (IsPrintable char)) = true := by
    decide +kernel
  have letters := List.all_eq_true.mp table name listed
  exact of_decide_eq_true (List.all_eq_true.mp letters char letter)

theorem isPrintable_digitChar {digit : Nat} (small : digit < 16) :
    IsPrintable (Nat.digitChar digit) := by
  rw [IsPrintable, Numeral.toNat_digitChar small]
  split <;> omega

theorem isLabelOf_of_byteOfMnemonic? {columns : List Char} {byte : UInt8}
    (read : byteOfMnemonic? columns = some byte) : IsLabelOf byte columns := by
  rw [byteOfMnemonic?] at read
  split at read
  · rename_i last
    rw [last, ← Option.some.inj read]
    exact .delete rfl
  · obtain ⟨index, found, rfl⟩ := Option.map_eq_some_iff.mp read
    obtain ⟨inside, written, _⟩ := List.findIdx?_eq_some_iff_getElem.mp found
    have small : index < 0x21 := inside
    have value : (UInt8.ofNat index).toNat = index :=
      UInt8.toNat_ofNat_of_lt' (Nat.lt_trans small (by decide))
    rw [← eq_of_beq written]
    apply IsLabelOf.mnemonic
    · omega
    · rw [value, List.getElem?_eq_getElem inside]

/-- What is read as a byte follows a rule for labels. -/
theorem isLabelOf_of_byteOfLabel? {columns : List Char} {byte : UInt8}
    (read : byteOfLabel? columns = some byte) : IsLabelOf byte columns := by
  rw [byteOfLabel?.eq_def] at read
  split at read
  · rename_i char
    split at read
    · rename_i bounds
      obtain ⟨above, below⟩ := bounds
      have code : char.toNat = byte.toNat := by
        rw [← Option.some.inj read,
          UInt8.toNat_ofNat_of_lt' (Nat.lt_trans below (by decide))]
      exact .printed code above below
    · cases read
  · obtain ⟨number, kept, rfl⟩ := Option.map_eq_some_iff.mp read
    obtain ⟨pair, beyond⟩ := Option.filter_eq_some_iff.mp kept
    obtain ⟨small, rfl, rfl⟩ := Numeral.digits_of_read?_hexPair pair
    have value : (UInt8.ofNat number).toNat = number :=
      UInt8.toNat_ofNat_of_lt' small
    have form : IsLabelOf (UInt8.ofNat number) _ :=
      .digits (by rw [value]; exact of_decide_eq_true beyond)
    rwa [value] at form
  · exact isLabelOf_of_byteOfMnemonic? read

theorem isLabelOf_label (byte : UInt8) : IsLabelOf byte (label byte) :=
  isLabelOf_of_byteOfLabel? (byteOfLabel?_label byte)

namespace IsLabelOf

variable {byte : UInt8}

/-- The rules give a byte one label. -/
theorem unique {first second : List Char} (one : IsLabelOf byte first)
    (other : IsLabelOf byte second) : first = second := by
  -- the rules are about separate ranges, so both labels follow the same one
  cases one with
  | mnemonic control known =>
      cases other with
      | mnemonic _ same => rw [Option.some.inj (known.symm.trans same)]
      | _ => omega
  | delete last =>
      cases other with
      | delete => rfl
      | _ => omega
  | printed code above below =>
      cases other with
      | printed same => rw [Char.toNat_inj.mp (code.trans same.symm)]
      | _ => omega
  | digits beyond =>
      cases other with
      | digits => rfl
      | _ => omega

theorem isPrintable_of_mem {columns : List Char}
    (form : IsLabelOf byte columns) {char : Char} (written : char ∈ columns) :
    IsPrintable char := by
  cases form with
  | mnemonic control known =>
      rcases List.mem_append.mp written with letter | filled
      · have listed := List.mem_of_getElem? known
        exact isPrintable_of_mem_mnemonic (.tail _ listed) letter
      · rw [List.eq_of_mem_replicate filled]
        decide
  | delete => exact isPrintable_of_mem_mnemonic (.head _) written
  | printed code above below =>
      simp only [List.mem_cons, List.not_mem_nil, or_false] at written
      rcases written with rfl | rfl | rfl
      · decide
      · exact ⟨by omega, by omega⟩
      · decide
  | digits beyond =>
      have inByte := byte.toNat_lt
      simp only [List.mem_cons, List.not_mem_nil, or_false] at written
      rcases written with rfl | rfl | rfl
      · decide
      · exact isPrintable_digitChar (by omega)
      · exact isPrintable_digitChar (by omega)

end IsLabelOf

/-- No label breaks the line that it stands in. -/
theorem newline_not_mem_label (byte : UInt8) : '\n' ∉ label byte := by
  intro written
  have printable := (isLabelOf_label byte).isPrintable_of_mem written
  exact absurd printable (by decide)

/-- A label is read as its byte, and nothing else is. -/
theorem byteOfLabel?_eq_some_iff {columns : List Char} {byte : UInt8} :
    byteOfLabel? columns = some byte ↔ columns = label byte := by
  constructor
  · intro read
    exact (isLabelOf_of_byteOfLabel? read).unique (isLabelOf_label byte)
  · rintro rfl
    exact byteOfLabel?_label byte

/-- The reader of labels accepts exactly the texts of labels. -/
theorem readLabels?_eq_some_iff {text : List Char} {bytes : List UInt8} :
    readLabels? text = some bytes ↔ text = bytes.flatMap label := by
  constructor
  · intro read
    fun_induction readLabels? text generalizing bytes with
    | case1 =>
        rw [← Option.some.inj read, List.flatMap_nil]
    | case2 first second third rest ih =>
        obtain ⟨byte, readFirst, readLater⟩ := Option.bind_eq_some_iff.mp read
        obtain ⟨later, readRest, rfl⟩ := Option.map_eq_some_iff.mp readLater
        rw [List.flatMap_cons, ← byteOfLabel?_eq_some_iff.mp readFirst,
          ← ih readRest]
        rfl
    | case3 => cases read
  · rintro rfl
    exact readLabels?_flatMap bytes

theorem length_flatMap_label (bytes : List UInt8) :
    (bytes.flatMap label).length = 3 * bytes.length := by
  induction bytes with
  | nil => rfl
  | cons byte bytes ih =>
      rw [List.flatMap_cons, List.length_append, length_label, ih,
        List.length_cons]
      omega

theorem toList_labels (bytes : List UInt8) :
    (labels bytes).toList = bytes.flatMap label :=
  String.toList_ofList

theorem readLabels?_toList_eq_some_iff {text : String} {bytes : List UInt8} :
    readLabels? text.toList = some bytes ↔ text = labels bytes := by
  rw [readLabels?_eq_some_iff, ← toList_labels, String.toList_inj]

theorem labels_injective : Function.Injective labels := by
  intro first second same
  have read : readLabels? (labels second).toList = some first :=
    readLabels?_toList_eq_some_iff.mpr same.symm
  rw [readLabels?_toList_eq_some_iff.mpr rfl] at read
  exact (Option.some.inj read).symm

/-- Labels one after the other are a code.  Their text has three printable
characters for each byte, the reader gives the bytes back from it and from no
other text, and different byte strings have different texts. -/
theorem labels_uniquely_decodable (bytes : List UInt8) :
    (labels bytes).length = 3 * bytes.length ∧
      (∀ char ∈ (labels bytes).toList, IsPrintable char) ∧
      (∀ text : String,
        readLabels? text.toList = some bytes ↔ text = labels bytes) ∧
      ∀ others : List UInt8, labels bytes = labels others ↔ bytes = others := by
  refine ⟨?_, ?_, fun text => readLabels?_toList_eq_some_iff,
    fun others => labels_injective.eq_iff⟩
  · rw [← String.length_toList, toList_labels, length_flatMap_label]
  · intro char written
    rw [toList_labels] at written
    obtain ⟨byte, _, inLabel⟩ := List.mem_flatMap.mp written
    exact (isLabelOf_label byte).isPrintable_of_mem inLabel

/-- The characters `x` and `c2` beside the byte that is written as `xc2`. -/
theorem labels_uniquely_decodable_beside_digits :
    '2' ∈ (labels [0x78, 0x63, 0x32, 0xc2]).toList ∧ IsPrintable '2' ∧
      labels [0x78, 0x63, 0x32, 0xc2] = " x  c  2 xc2" ∧
      readLabels? " x  c  2 xc2".toList = some [0x78, 0x63, 0x32, 0xc2] := by
  obtain ⟨_, printable, accepted, _⟩ :=
    labels_uniquely_decodable [0x78, 0x63, 0x32, 0xc2]
  have written : '2' ∈ (labels [0x78, 0x63, 0x32, 0xc2]).toList := by
    decide +kernel
  have text : labels [0x78, 0x63, 0x32, 0xc2] = " x  c  2 xc2" := by
    decide +kernel
  exact ⟨written, printable '2' written, text,
    (accepted " x  c  2 xc2").mpr text.symm⟩

end ByteClass
