import ByteClass.FlagSet
import ByteClass.Numeral

/-!
# Written sets of classes

A set is written as the names of its classes in bit order.  That text leaves
unknown positions out; the diagnostic text shows them as one hexadecimal
number behind the names.
-/

namespace ByteClass

namespace FlagSet

def names (set : FlagSet) : List String :=
  set.flags.map Flag.name

/-- The names joined by bars, or a zero for the set that holds nothing.  A set
of unknown positions alone has the empty text. -/
def text (set : FlagSet) : String :=
  if set.isEmpty then "0" else String.intercalate " | " set.names

/-- The word in a base, without a sign for the base. -/
def inBase (base : Nat) (set : FlagSet) : String :=
  Numeral.inBase base set.bits.toNat

/-- The diagnostic text: names, then the unknown positions as one number.  The
set that holds nothing shows the number alone. -/
def debugText (set : FlagSet) : String :=
  let unnamed :=
    if set.isEmpty || !set.unknown.isEmpty then
      ["0x" ++ set.unknown.inBase 16]
    else []
  "CtypeFlags(" ++ String.intercalate " | " (set.names ++ unnamed) ++ ")"

end FlagSet

end ByteClass
