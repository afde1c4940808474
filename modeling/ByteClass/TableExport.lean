import ByteClass.BoundedSink
import ByteClass.CasePartner
import ByteClass.FlagSetText
import ByteClass.JsonText

/-!
# Export of the tables

The tables are exported as a JSON object of two lists: the written classes of
every byte, and its case partner as a number or null.
-/

namespace ByteClass

structure ByteTables where
  classes : List FlagSet
  partners : List (Option UInt8)
  deriving DecidableEq

namespace ByteTables

/-- The tables of all byte values. -/
def standard : ByteTables where
  classes := classTable.toList
  partners := byteValues.map partner?

def partnerJson : Option UInt8 → JsonValue
  | none => .null
  | some byte => .number byte.toNat

def json (tables : ByteTables) : JsonValue :=
  .object
    [("ctype", .array (tables.classes.map fun set => .string set.text)),
      ("casefold", .array (tables.partners.map partnerJson))]

def fragments (tables : ByteTables) (layout : JsonLayout) : List String :=
  layout.fragments tables.json.tokens

def text (tables : ByteTables) (layout : JsonLayout) : String :=
  String.join (tables.fragments layout)

/-- Write the exported text into a sink, up to the first error. -/
def writeTo (tables : ByteTables) (layout : JsonLayout) (sink : Sink) :
    Option (Sink × Option WriteError) :=
  sink.writeFragments (tables.fragments layout)

end ByteTables

end ByteClass
