import ByteClass.Command
import ByteClass.Proofs.ListingRuns

/-!
# Outcomes of the command

The rules of the command say what it prints or why it fails, from the arguments
that it reads and whether the build has the JSON export.  A run follows exactly
one rule: it prints the whole text and no error, or only an error, for nothing
is printed in front of a failure.  No rule looks behind the arguments that it
names, and only the export depends on the build.
-/

namespace ByteClass

/-- The line of a byte, without its line break: its number in two digits, its label
and its classes. -/
def selectedLine (byte : UInt8) : String :=
  "0x" ++ Numeral.paddedHex 2 byte.toNat ++ " " ++ labelText byte ++ " " ++
    (classesOf byte).text

theorem selectedRow_eq (byte : UInt8) :
    selectedRow byte = selectedLine byte ++ "\n" := by
  rw [selectedRow, selectedLine, lookUpClasses_eq]

theorem selectedRows_eq (mask : FlagSet) :
    selectedRows mask =
      String.join ((members mask).map fun byte => selectedLine byte ++ "\n") := by
  have rows : selectedRow = fun byte => selectedLine byte ++ "\n" :=
    funext selectedRow_eq
  rw [selectedRows, rows]

/-- What the command prints, or why it fails. -/
inductive Build.Yields (build : Build) :
    List String → Except CommandError String → Prop
  | listing : Yields build [] (.ok ((build.listing false).text .both))
  | numericListing (rest : List String) :
      Yields build ("--numeric" :: rest)
        (.ok ((build.listing true).text .both))
  | exported (json : build.json = true) (rest : List String) :
      Yields build ("--json" :: rest)
        (.ok (ByteTables.standard.text .indented ++ "\n"))
  | exportMissing (json : build.json = false) (rest : List String) :
      Yields build ("--json" :: rest) (.error .jsonMissing)
  | selection {expression : String} {mask : FlagSet}
      (accepted : FlagSet.parse expression = .ok mask) (rest : List String) :
      Yields build ("--select" :: expression :: rest)
        (.ok (String.join
          ((members mask).map fun byte => selectedLine byte ++ "\n")))
  | selectionRefused {expression : String} {error : ExpressionError}
      (refused : FlagSet.parse expression = .error error) (rest : List String) :
      Yields build ("--select" :: expression :: rest)
        (.error (.expression error))
  | expressionMissing : Yields build ["--select"] (.error .expressionMissing)
  | unrecognized {argument : String}
      (unknown : argument ∉ ["--numeric", "--json", "--select"])
      (rest : List String) :
      Yields build (argument :: rest) (.error (.unrecognizedArgument argument))

/-- A command prints its text or its error, never both. -/
def CommandOutcome.of : Except CommandError String → CommandOutcome
  | .ok text => ⟨0, text, ""⟩
  | .error error => ⟨1, "", "Error: " ++ error.debugText ++ "\n"⟩

namespace Build

variable {build : Build} {arguments : List String}

theorem run_of_printed {text : String}
    (printed : (build.print arguments).run "" = (.ok (), text)) :
    build.run arguments = .of (.ok text) := by
  rw [run, printed]
  rfl

theorem run_of_failed {error : CommandError}
    (failed : (build.print arguments).run "" = (.error error, "")) :
    build.run arguments = .of (.error error) := by
  rw [run, failed]
  rfl

theorem run_printListing (build : Build) (numeric : Bool) :
    (build.printListing numeric).run "" =
      (.ok (), (build.listing numeric).text .both) := by
  rw [printListing, Printer.run_printAll, String.empty_append, Listing.text]

theorem run_printExport (json : build.json = true) :
    build.printExport.run "" =
      (.ok (), ByteTables.standard.text .indented ++ "\n") := by
  rw [printExport, if_pos json,
    Printer.run_bind_of_ok (Printer.run_printAll _ _), Printer.run_print,
    String.empty_append, ByteTables.text]

theorem run_printSelection {expression : String} {mask : FlagSet}
    (accepted : FlagSet.parse expression = .ok mask) (rest : List String) :
    (Printer.printSelection (expression :: rest)).run "" =
      (.ok (), String.join
        ((members mask).map fun byte => selectedLine byte ++ "\n")) := by
  rw [Printer.printSelection, accepted, ← selectedRows_eq]
  simpa using Printer.run_printRows mask ""

/-- A run follows every rule that applies. -/
theorem Yields.run_eq {result : Except CommandError String}
    (yields : build.Yields arguments result) :
    build.run arguments = .of result := by
  cases yields with
  | listing => exact run_of_printed (run_printListing build false)
  | numericListing rest => exact run_of_printed (run_printListing build true)
  | exported json rest => exact run_of_printed (run_printExport json)
  | exportMissing json rest =>
      apply run_of_failed
      rw [print, printExport, json]
      rfl
  | selection accepted rest => exact run_of_printed (run_printSelection accepted rest)
  | selectionRefused refused rest =>
      apply run_of_failed
      rw [print, Printer.printSelection, refused]
      rfl
  | expressionMissing => exact run_of_failed rfl
  | unrecognized unknown rest =>
      apply run_of_failed
      rw [print]
      · rfl
      all_goals
        rintro rfl
        exact unknown (by simp)

end Build

end ByteClass
