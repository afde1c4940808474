import ByteClass.AnnotatedListing
import ByteClass.FlagExpression
import ByteClass.TableExport

/-!
# The command

The first argument decides what the command prints: both tables as a listing,
the same with numbers, the JSON export, or one line for each byte that an
expression selects.  Arguments behind those that the command reads have no
influence.  Output is buffered, but the buffer is emptied in any case: what was
printed before a failure would appear as well.
-/

namespace ByteClass

/-- What a build of the command is made with. -/
structure Build where
  json : Bool
  decimals : DecimalMethod
  deriving DecidableEq

namespace Build

def full : Build := ⟨true, .pairwise⟩

def minimal : Build := ⟨false, .digitByDigit⟩

end Build

inductive CommandError
  | expressionMissing
  | expression (error : ExpressionError)
  | jsonMissing
  | unrecognizedArgument (argument : String)
  deriving DecidableEq

/-- The diagnostic text: a message in quotes, or that of the expression's
error. -/
def CommandError.debugText : CommandError → String
  | .expressionMissing => quote "--select requires a flag expression"
  | .expression error => error.debugText
  | .jsonMissing => quote "json output requires the json feature"
  | .unrecognizedArgument argument =>
      quote ("unrecognized argument: " ++ argument)

/-- Number, label and classes of a byte on one line. -/
def selectedRow (byte : UInt8) : String :=
  "0x" ++ Numeral.paddedHex 2 byte.toNat ++ " " ++ labelText byte ++ " " ++
    (lookUpClasses byte).text ++ "\n"

/-- The rows of all bytes that carry some class of the mask. -/
def selectedRows (mask : FlagSet) : String :=
  String.join ((members mask).map selectedRow)

/-- A part of the command.  It adds to the printed text and may fail, and a
failure leaves the text that was printed before. -/
abbrev Printer := ExceptT CommandError (StateM String)

namespace Printer

def print (text : String) : Printer Unit :=
  modify (· ++ text)

/-- Print the fragments of a text in order. -/
def printAll (fragments : List String) : Printer Unit :=
  forM fragments print

/-- Print one row for each byte that carries some class of the mask. -/
def printRows (mask : FlagSet) : Printer Unit :=
  forM byteValues fun byte =>
    if inClass byte mask then print (selectedRow byte) else pure ()

/-- Print the rows that the first of the operands selects. -/
def printSelection : List String → Printer Unit
  | [] => throw .expressionMissing
  | expression :: _ =>
      match FlagSet.parse expression with
      | .ok mask => printRows mask
      | .error error => throw (.expression error)

/-- What follows a part that succeeds goes on from the text behind it. -/
theorem run_bind_of_ok {first : Printer Unit} {next : Unit → Printer Unit}
    {printed between : String} (done : first.run printed = (.ok (), between)) :
    (first >>= next).run printed = (next ()).run between := by
  change ExceptT.bindCont next (first.run printed).1 (first.run printed).2 = _
  rw [done]
  rfl

theorem run_print (text printed : String) :
    (print text).run printed = (.ok (), printed ++ text) :=
  rfl

theorem run_printAll (fragments : List String) (printed : String) :
    (printAll fragments).run printed =
      (.ok (), printed ++ String.join fragments) := by
  unfold printAll
  induction fragments generalizing printed with
  | nil =>
      rw [String.join_nil, String.append_empty]
      rfl
  | cons fragment fragments ih =>
      rw [List.forM_cons, run_bind_of_ok (run_print fragment printed), ih,
        String.join_cons, String.append_assoc]

theorem run_printRows (mask : FlagSet) (printed : String) :
    (printRows mask).run printed = (.ok (), printed ++ selectedRows mask) := by
  unfold printRows selectedRows members
  induction byteValues generalizing printed with
  | nil =>
      rw [List.filter_nil, List.map_nil, String.join_nil, String.append_empty]
      rfl
  | cons byte bytes ih =>
      rw [List.forM_cons, List.filter_cons]
      split
      · rw [run_bind_of_ok (run_print (selectedRow byte) printed), ih,
          List.map_cons, String.join_cons, String.append_assoc]
      · exact ih printed

end Printer

open Printer

namespace Build

def listing (build : Build) (numeric : Bool) : Listing :=
  ⟨{ numeric := numeric }, build.decimals⟩

def printListing (build : Build) (numeric : Bool) : Printer Unit :=
  printAll ((build.listing numeric).fragments .both)

def printExport (build : Build) : Printer Unit :=
  if build.json then do
    printAll (ByteTables.standard.fragments .indented)
    print "\n"
  else
    throw .jsonMissing

/-- The whole command. -/
def print (build : Build) : List String → Printer Unit
  | [] => build.printListing false
  | "--numeric" :: _ => build.printListing true
  | "--json" :: _ => build.printExport
  | "--select" :: operands => printSelection operands
  | argument :: _ => throw (.unrecognizedArgument argument)

end Build

/-- What a run of the command leaves behind. -/
structure CommandOutcome where
  exitCode : UInt8
  standardOutput : String
  standardError : String
  deriving DecidableEq

/-- The outcome of a command that ended in this way and printed this text. -/
def CommandOutcome.ofResult :
    Except CommandError Unit × String → CommandOutcome
  | (.ok (), printed) => ⟨0, printed, ""⟩
  | (.error error, printed) =>
      ⟨1, printed, "Error: " ++ error.debugText ++ "\n"⟩

def Build.run (build : Build) (arguments : List String) : CommandOutcome :=
  .ofResult ((build.print arguments).run "")

end ByteClass
