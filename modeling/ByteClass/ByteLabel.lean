import ByteClass.Numeral

/-!
# Three-column labels of bytes

Control characters and the space have mnemonics of two or three letters, which
a label fills up on the right.  A printable character is its own name and
stands in the middle.  Bytes outside ASCII are written as an `x` and two
hexadecimal digits.  Every label has three characters and belongs to one byte
only, so the labels of a byte string read back without a separator.
-/

namespace ByteClass

/-- Mnemonics of the control characters and the space, in the order of their
codes. -/
def controlMnemonics : List String :=
  ["nul", "soh", "stx", "etx", "eot", "enq", "ack", "bel",
    "bs", "ht", "nl", "vt", "np", "cr", "so", "si",
    "dle", "dc1", "dc2", "dc3", "dc4", "nak", "syn", "etb",
    "can", "em", "sub", "esc", "fs", "gs", "rs", "us",
    "sp"]

def deleteMnemonic : String :=
  "del"

/-- The name of an ASCII byte. -/
def asciiName? (byte : UInt8) : Option (List Char) :=
  if byte ≤ 0x20 then
    controlMnemonics[byte.toNat]?.map String.toList
  else if byte < 0x7f then
    some [Char.ofNat byte.toNat]
  else if byte = 0x7f then
    some deleteMnemonic.toList
  else
    none

def label (byte : UInt8) : List Char :=
  match asciiName? byte with
  | some [char] => [' ', char, ' ']
  | some name => name.rightpad 3 ' '
  | none => 'x' :: (Nat.toDigits 16 byte.toNat).leftpad 2 '0'

def labelText (byte : UInt8) : String :=
  String.ofList (label byte)

/-- The labels of a byte string, one after the other. -/
def labels (bytes : List UInt8) : String :=
  String.ofList (bytes.flatMap label)

/-- The byte with a mnemonic, filled up to three columns. -/
def byteOfMnemonic? (columns : List Char) : Option UInt8 :=
  if columns = deleteMnemonic.toList then
    some 0x7f
  else
    (controlMnemonics.findIdx? fun name =>
      name.toList.rightpad 3 ' ' == columns).map UInt8.ofNat

/-- The byte with a label. -/
def byteOfLabel? : List Char → Option UInt8
  | [' ', char, ' '] =>
      if 0x20 < char.toNat ∧ char.toNat < 0x7f then
        some (UInt8.ofNat char.toNat)
      else
        none
  | ['x', high, low] =>
      ((Numeral.read? 16 [high, low]).filter (0x80 ≤ ·)).map UInt8.ofNat
  | columns => byteOfMnemonic? columns

/-- Read a text of labels, three characters at a time. -/
def readLabels? : List Char → Option (List UInt8)
  | [] => some []
  | first :: second :: third :: rest => do
      let byte ← byteOfLabel? [first, second, third]
      (readLabels? rest).map (byte :: ·)
  | _ => none

@[simp]
theorem length_label (byte : UInt8) : (label byte).length = 3 :=
  forall_byte (by decide +kernel) byte

@[simp]
theorem byteOfLabel?_label (byte : UInt8) :
    byteOfLabel? (label byte) = some byte :=
  forall_byte (by decide +kernel) byte

/-- Labels read back. -/
theorem readLabels?_flatMap (bytes : List UInt8) :
    readLabels? (bytes.flatMap label) = some bytes := by
  induction bytes with
  | nil => rfl
  | cons byte bytes ih =>
      have three := length_label byte
      have known := byteOfLabel?_label byte
      rw [List.flatMap_cons]
      generalize label byte = columns at three known
      match columns, three, known with
      | [first, second, third], _, known =>
          simp [readLabels?, known, ih]

end ByteClass
