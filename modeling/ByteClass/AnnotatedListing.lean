import ByteClass.ByteLabel
import ByteClass.CasePartner
import ByteClass.FlagSetText

/-!
# Annotated listings of the tables

A listing is a banner comment followed by one row for each byte: a comment with
the byte's label, the table entry and a comma.  Entries are symbolic (names of
classes, characters in quotes) or numeric.  The text is produced in fragments,
and every line of it but the first, empty one is indented.
-/

namespace ByteClass

structure ListingLayout where
  indent : UInt8 := 4
  numeric : Bool := false
  deriving DecidableEq

def ListingLayout.debugText (layout : ListingLayout) : String :=
  "ListingOptions \x7b indent: " ++ Numeral.inBase 10 layout.indent.toNat ++
    ", numeric: " ++ (if layout.numeric then "true" else "false") ++ " \x7d"

inductive ListedTable
  | classes
  | partners
  deriving DecidableEq

/-- What one listing shows: a table, or both in turn. -/
inductive ListingPart
  | single (table : ListedTable)
  | both
  deriving DecidableEq

def ListingPart.tables : ListingPart → List ListedTable
  | .single table => [table]
  | .both => [.classes, .partners]

/-- A layout, and the writer of its decimal numbers. -/
structure Listing where
  layout : ListingLayout
  decimals : DecimalMethod
  deriving DecidableEq

namespace Listing

def bannerLines : List String :=
  ["/* **** DO NOT EDIT! ****",
    "   This table was generated by bytetype, make changes there. */"]

def indentation (listing : Listing) : List String :=
  List.replicate listing.layout.indent.toNat " "

def banner (listing : Listing) : List String :=
  "\n" :: bannerLines.flatMap fun line => listing.indentation ++ [line, "\n"]

def classCell (listing : Listing) (classes : FlagSet) : List String :=
  if listing.layout.numeric then
    ["0x", Numeral.paddedHex 4 classes.bits.toNat]
  else
    [classes.text]

def partnerCell (listing : Listing) (entry : UInt8) : List String :=
  if listing.layout.numeric then
    [listing.decimals.write entry]
  else if entry = noPartner then
    ["'\\0'"]
  else
    ["'", String.singleton (Char.ofNat entry.toNat), "'"]

/-- What is written for a byte's entry in a table. -/
def cell (listing : Listing) (table : ListedTable) (byte : UInt8) :
    List String :=
  match table with
  | .classes => listing.classCell (lookUpClasses byte)
  | .partners => listing.partnerCell (lookUpPartner byte)

def row (listing : Listing) (table : ListedTable) (byte : UInt8) : List String :=
  listing.indentation ++ ["/* ", labelText byte, " */ "] ++
    listing.cell table byte ++ [",\n"]

def tableFragments (listing : Listing) (table : ListedTable) : List String :=
  listing.banner ++ byteValues.flatMap (listing.row table)

def fragments (listing : Listing) (part : ListingPart) : List String :=
  part.tables.flatMap listing.tableFragments

def text (listing : Listing) (part : ListingPart) : String :=
  String.join (listing.fragments part)

end Listing

end ByteClass
