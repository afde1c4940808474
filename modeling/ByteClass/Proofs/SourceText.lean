import Mathlib.Data.List.Forall2
import ByteClass.Proofs.StrippedTerms

/-!
# Comments, entries and lines of a source text

A comment ends at the first closing mark behind its opening mark, whatever else
it holds.  Reading a source text keeps each comment beside the code behind it,
so the code without its comments can be looked at alone: its entries are what
stands between commas.  Indenting puts blanks in front of every line that is not
empty.
-/

namespace ByteClass

/-- Cut a text at its first closing mark, into the comment before the mark and
what stands behind it. -/
def cutAtClosingMark : List Char → Option (List Char × List Char)
  | [] => none
  | '*' :: '/' :: text => some ([], text)
  | char :: text =>
      (cutAtClosingMark text).map fun (comment, behind) =>
        (char :: comment, behind)

/-- The comment at the start of a text, without its marks, and what stands behind
it. -/
def leadingComment? : List Char → Option (List Char × List Char)
  | '/' :: '*' :: text => cutAtClosingMark text
  | _ => none

theorem length_lt_of_cutAtClosingMark {text comment behind : List Char}
    (cut : cutAtClosingMark text = some (comment, behind)) :
    behind.length < text.length := by
  fun_induction cutAtClosingMark text generalizing comment with
  | case1 => cases cut
  | case2 text =>
      obtain ⟨_, rfl⟩ := Prod.mk.inj (Option.some.inj cut)
      rw [List.length_cons, List.length_cons]
      omega
  | case3 char text _ ih =>
      obtain ⟨⟨inside, rest⟩, found, same⟩ := Option.map_eq_some_iff.mp cut
      obtain ⟨_, rfl⟩ := Prod.mk.inj same
      exact Nat.lt_succ_of_lt (ih found)

theorem length_lt_of_leadingComment? {text comment behind : List Char}
    (found : leadingComment? text = some (comment, behind)) :
    behind.length < text.length := by
  unfold leadingComment? at found
  split at found
  · have shorter := length_lt_of_cutAtClosingMark found
    simp only [List.length_cons]
    omega
  · cases found

/-- A comment, and the code behind it up to the next comment. -/
structure CommentedCode where
  comment : List Char
  code : List Char

/-- The code in front of the first comment of a text, and its comments, each with
the code behind it. -/
structure SourceText where
  front : List Char
  sections : List CommentedCode

namespace SourceText

def prependCode (code : List Char) (source : SourceText) : SourceText :=
  { source with front := code ++ source.front }

def prependComment (comment : List Char) (source : SourceText) : SourceText where
  front := []
  sections := ⟨comment, source.front⟩ :: source.sections

/-- Read a text from its start.  A mark that opens a comment which is never closed
is code. -/
def read (text : List Char) : SourceText :=
  match text with
  | [] => ⟨[], []⟩
  | char :: rest =>
      match _ : leadingComment? (char :: rest) with
      | some (comment, behind) => (read behind).prependComment comment
      | none => (read rest).prependCode [char]
  termination_by text.length
  decreasing_by
    · exact length_lt_of_leadingComment? ‹_›
    · exact Nat.lt_succ_self _

/-- What is left when all comments are deleted. -/
def code (source : SourceText) : List Char :=
  source.front ++ source.sections.flatMap CommentedCode.code

theorem read_nil : read [] = ⟨[], []⟩ := by
  rw [read]

theorem read_of_leadingComment? {text comment behind : List Char}
    (found : leadingComment? text = some (comment, behind)) :
    read text = (read behind).prependComment comment := by
  cases text with
  | nil => cases found
  | cons char rest =>
      rw [read]
      split
      · rename_i other
        rw [found] at other
        cases other
        rfl
      · rename_i none
        rw [found] at none
        cases none

theorem read_cons_of_ne {char : Char} (notSlash : char ≠ '/') (rest : List Char) :
    read (char :: rest) = (read rest).prependCode [char] := by
  have code : leadingComment? (char :: rest) = none := by
    unfold leadingComment?
    split
    · rename_i equal
      exact absurd (List.cons.inj equal).1 notSlash
    · rfl
  rw [read]
  split
  · rename_i found
    rw [code] at found
    cases found
  · rfl

/-- Code without a slash opens no comment. -/
theorem read_code_append {code : List Char} (noSlash : '/' ∉ code)
    (rest : List Char) : read (code ++ rest) = (read rest).prependCode code := by
  induction code with
  | nil => rfl
  | cons char code ih =>
      have notSlash : char ≠ '/' := fun same => noSlash (by simp [same])
      rw [List.cons_append, read_cons_of_ne notSlash,
        ih fun later => noSlash (List.mem_cons_of_mem char later)]
      rfl

end SourceText

/-- The mark behind a text that holds none is the first one: it cannot begin with
the last character of the text, for it begins with a star of its own. -/
theorem cutAtClosingMark_append {comment : List Char}
    (unclosed : cutAtClosingMark comment = none) (behind : List Char) :
    cutAtClosingMark (comment ++ '*' :: '/' :: behind) =
      some (comment, behind) := by
  fun_induction cutAtClosingMark comment with
  | case1 => simp [cutAtClosingMark]
  | case2 => cases unclosed
  | case3 char text notMark ih =>
      rw [List.cons_append, cutAtClosingMark, ih (Option.map_eq_none_iff.mp unclosed)]
      · rfl
      · rintro rest rfl equal
        cases text with
        | nil => cases equal
        | cons next text =>
            obtain ⟨rfl, _⟩ := List.cons.inj equal
            exact notMark text rfl rfl

theorem cutAtClosingMark_of_slash_not_mem {comment : List Char}
    (noSlash : '/' ∉ comment) : cutAtClosingMark comment = none := by
  fun_induction cutAtClosingMark comment with
  | case1 => rfl
  | case2 => simp at noSlash
  | case3 char text _ ih =>
      rw [ih fun later => noSlash (List.mem_cons_of_mem char later)]
      rfl

theorem SourceText.read_comment_append {comment : List Char}
    (unclosed : cutAtClosingMark comment = none) (rest : List Char) :
    read ('/' :: '*' :: (comment ++ '*' :: '/' :: rest)) =
      (read rest).prependComment comment :=
  read_of_leadingComment? (cutAtClosingMark_append unclosed rest)

/-- The code holds one entry with a comma behind it, and blanks. -/
def HoldsEntry (code entry : List Char) : Prop :=
  ∃ before after, IsBlank before ∧ IsBlank after ∧
    code = before ++ entry ++ ',' :: after

/-- What stands between the commas of a text whose comments are deleted, without
blanks at the ends. -/
def listedEntries (text : List Char) : List (List Char) :=
  ((SourceText.read text).code.splitOn ',').map strip

theorem IsBlank.comma_not_mem {text : List Char} (blank : IsBlank text) :
    ',' ∉ text := by
  intro member
  have white := blank ',' member
  exact absurd white (by decide)

/-- By induction on the entries: the blanks behind one comma stand in front of the
next entry. -/
theorem map_strip_splitOn_code {front : List Char} {sections : List CommentedCode}
    {entries : List (List Char)} (blank : IsBlank front)
    (held : List.Forall₂ (fun row entry => HoldsEntry row.code entry)
      sections entries)
    (whole : ∀ entry ∈ entries, IsStripped entry ∧ ',' ∉ entry) :
    ((front ++ sections.flatMap CommentedCode.code).splitOn ',').map strip =
      entries ++ [[]] := by
  induction held generalizing front with
  | nil =>
      have nothing := strip_blank_append blank []
      rw [List.append_nil] at nothing
      rw [List.flatMap_nil, List.append_nil,
        List.splitOn_eq_singleton blank.comma_not_mem, List.map_singleton, nothing]
      rfl
  | @cons row entry rows entries holds _ ih =>
      obtain ⟨⟨stripped, noComma⟩, later⟩ := List.forall_mem_cons.mp whole
      obtain ⟨before, after, blankBefore, blankAfter, equal⟩ := holds
      have frontNoComma : ',' ∉ front ++ (before ++ entry) := by
        simp [blank.comma_not_mem, blankBefore.comma_not_mem, noComma]
      have piece : front ++ (row.code ++ rows.flatMap CommentedCode.code) =
          (front ++ (before ++ entry)) ++
            ',' :: (after ++ rows.flatMap CommentedCode.code) := by
        rw [equal]
        simp
      rw [List.flatMap_cons, piece,
        List.splitOn_append_cons_self_of_not_mem frontNoComma, List.map_cons,
        ih blankAfter later, strip_blank_append blank,
        strip_blank_append blankBefore, stripped.strip_eq]
      rfl

/-- Put blanks in front of every line that is not empty. -/
def indentLines (count : Nat) (text : List Char) : List Char :=
  ['\n'].intercalate ((text.splitOn '\n').map fun line =>
    if line = [] then [] else List.replicate count ' ' ++ line)

theorem indentLines_cons (count : Nat) {line : List Char} (unbroken : '\n' ∉ line)
    (rest : List Char) :
    indentLines count (line ++ '\n' :: rest) =
      (if line = [] then [] else List.replicate count ' ' ++ line) ++
        '\n' :: indentLines count rest := by
  rw [indentLines, List.splitOn_append_cons_self_of_not_mem unbroken,
    List.map_cons, List.intercalate_cons_of_ne_nil (by simp), indentLines]
  simp

theorem indentLines_flatMap (count : Nat) {lines : List (List Char)}
    (proper : ∀ line ∈ lines, line ≠ [] ∧ '\n' ∉ line) :
    indentLines count (lines.flatMap fun line => line ++ ['\n']) =
      lines.flatMap fun line => List.replicate count ' ' ++ line ++ ['\n'] := by
  induction lines with
  | nil => rfl
  | cons line lines ih =>
      obtain ⟨⟨nonempty, unbroken⟩, later⟩ := List.forall_mem_cons.mp proper
      rw [List.flatMap_cons, List.append_assoc, List.singleton_append,
        indentLines_cons count unbroken, ih later, if_neg nonempty,
        List.flatMap_cons]
      simp

end ByteClass
