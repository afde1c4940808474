import ByteClass.FlagSetText
import ByteClass.NamedClass
import ByteClass.QuotedText
import ByteClass.WhiteSpace

/-!
# Expressions for sets of classes

An expression is a list of class names separated by bars.  White space around
a name and the case of its ASCII letters are free.  A zero that stands alone
denotes the set that holds nothing.  The first term that names no class decides
the error.
-/

namespace ByteClass

/-- Why an expression denotes no set. -/
inductive ExpressionError
  | emptyTerm
  | unknownName (name : String)
  deriving DecidableEq

namespace ExpressionError

def message : ExpressionError → String
  | emptyTerm => "empty flag expression"
  | unknownName name => "unknown flag: " ++ name

/-- The diagnostic text: the kind of error, with the name in quotes. -/
def debugText : ExpressionError → String
  | emptyTerm => "Empty"
  | unknownName name => "UnknownFlag(" ++ quote name ++ ")"

end ExpressionError

/-- The pieces of a text between its bars; always at least one. -/
def pieces : List Char → List (List Char)
  | [] => [[]]
  | char :: text =>
      if char = '|' then
        [] :: pieces text
      else
        (pieces text).modifyHead (char :: ·)

theorem pieces_ne_nil (text : List Char) : pieces text ≠ [] := by
  induction text with
  | nil => simp [pieces]
  | cons char text ih =>
      rw [pieces]
      split
      · simp
      · simpa using ih

theorem pieces_append_bar (first second : List Char) :
    pieces (first ++ '|' :: second) = pieces first ++ pieces second := by
  induction first with
  | nil => simp [pieces]
  | cons char first ih =>
      rw [List.cons_append, pieces, pieces, ih]
      split
      · simp
      · cases split : pieces first with
        | nil => exact absurd split (pieces_ne_nil first)
        | cons piece others => simp

/-- The pieces of an expression, each without white space at its ends. -/
def terms (expression : List Char) : List (List Char) :=
  (pieces expression).map strip

/-- The class that a term names in any mixture of cases. -/
def namedClass? (term : List Char) : Option NamedClass :=
  NamedClass.ofName? (String.ofList (term.map Char.toUpper))

def termFlags (term : List Char) : Except ExpressionError FlagSet :=
  if term.isEmpty then
    .error .emptyTerm
  else
    match namedClass? term with
    | some named => .ok named.flagSet
    | none => .error (.unknownName (String.ofList term))

/-- The union of what the terms denote, or the error of the first term that
denotes nothing. -/
def unionOfTerms : List (List Char) → Except ExpressionError FlagSet
  | [] => .ok ∅
  | term :: rest =>
      match termFlags term with
      | .error error => .error error
      | .ok set =>
          match unionOfTerms rest with
          | .error error => .error error
          | .ok others => .ok (set ∪ others)

namespace FlagSet

def parse (expression : String) : Except ExpressionError FlagSet :=
  let stripped := strip expression.toList
  if stripped = ['0'] then .ok ∅ else unionOfTerms (terms stripped)

/-- Parsing the text of the set gives the set back. -/
def textReadsBack (set : FlagSet) : Bool :=
  match parse set.text with
  | .ok again => again == set
  | .error _ => false

end FlagSet

end ByteClass
