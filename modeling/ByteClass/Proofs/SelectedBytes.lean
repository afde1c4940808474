import ByteClass.ByteScan
import ByteClass.Proofs.CommandOutcomes
import ByteClass.Proofs.DecoratedText
import ByteClass.Proofs.LabelCode

/-!
# Bytes selected by an expression

An accepted expression selects the bytes of the classes that its terms name: a
byte is selected as soon as one term selects it.  Scans therefore join term by
term.  The command prints one line for each selected byte, in increasing order,
from which the byte and its classes read back, so joining two expressions joins
their lines.
-/

namespace ByteClass

@[simp]
theorem inClass_empty (byte : UInt8) : inClass byte ∅ = false := by
  rw [← Bool.not_eq_true, inClass_iff]
  simp

/-- What a term selects when it stands alone; the zero selects nothing. -/
def termMask (term : List Char) : FlagSet :=
  ((namedClass? term).map NamedClass.flagSet).getD ∅

theorem termMask_of_names {term : List Char} {named : NamedClass}
    (names : Names term named) : termMask term = named.flagSet := by
  rw [termMask, namedClass?_eq_some_iff.mpr names]
  rfl

theorem inClass_termMask_iff {term : List Char} {byte : UInt8} :
    inClass byte (termMask term) = true ↔
      ∃ named, Names term named ∧ named.includes byte = true := by
  constructor
  · intro selected
    cases found : namedClass? term with
    | none => simp [termMask, found] at selected
    | some named =>
        rw [namedClass?_eq_some_iff] at found
        rw [termMask_of_names found] at selected
        exact ⟨named, found, selected⟩
  · rintro ⟨named, names, selected⟩
    rw [termMask_of_names names]
    exact selected

namespace Scan

/-- The marks of either scan. -/
def join (first second : Scan) : Scan :=
  ⟨List.zipWith (· || ·) first.marks second.marks⟩

/-- The scan that marks none of this many bytes. -/
def unmarked (length : Nat) : Scan :=
  ⟨List.replicate length false⟩

@[simp]
theorem run_false (bytes : List UInt8) :
    run (fun _ => false) bytes = unmarked bytes.length := by
  rw [run, unmarked, List.map_const']

@[simp]
theorem join_run (first second : UInt8 → Bool) (bytes : List UInt8) :
    (run first bytes).join (run second bytes) =
      run (fun byte => first byte || second byte) bytes := by
  simp [run, join, List.zipWith_map]

/-- Marking what some mask selects is joining the scans of all masks. -/
theorem foldr_join_run (masks : List FlagSet) (bytes : List UInt8) :
    (masks.map fun mask => run (inClass · mask) bytes).foldr join
        (unmarked bytes.length) =
      run (fun byte => masks.any (inClass byte)) bytes := by
  induction masks with
  | nil => simp
  | cons mask masks ih => simp [ih]

end Scan

section Terms

variable {expression : String} {mask : FlagSet}
    (accepted : FlagSet.parse expression = .ok mask)

include accepted

/-- A byte is in the class of an expression exactly if it is in the class that
some term names. -/
theorem inClass_iff_exists_term (byte : UInt8) :
    inClass byte mask = true ↔
      ∃ term ∈ terms expression.toList, ∃ named,
        Names term named ∧ named.includes byte = true := by
  have denotes := denotes_parse expression
  rw [accepted] at denotes
  cases denotes with
  | zero alone =>
      rw [terms_eq_zero_of_strip_eq_zero alone, inClass_empty]
      constructor
      · intro selected
        cases selected
      · rintro ⟨term, among, named, names, _⟩
        rw [List.mem_singleton.mp among] at names
        exact absurd names.one_lt_length (by decide)
  | union set notZero allNamed unites =>
      simp only [NamedClass.includes, inClass_iff, unites, ← terms_eq_splitOn]
      constructor
      · rintro ⟨position, carried, term, among, named, names, held⟩
        exact ⟨term, among, named, names, position, carried, held⟩
      · rintro ⟨term, among, named, names, position, carried, held⟩
        exact ⟨position, carried, term, among, named, names, held⟩

theorem inClass_eq_any_terms (byte : UInt8) :
    inClass byte mask =
      (terms expression.toList).any fun term => inClass byte (termMask term) := by
  rw [Bool.eq_iff_iff, inClass_iff_exists_term accepted, List.any_eq_true]
  simp only [inClass_termMask_iff]

/-- Every term of an accepted expression is an accepted expression. -/
theorem parse_term {term : List Char}
    (among : term ∈ terms expression.toList) :
    FlagSet.parse (String.ofList term) = .ok (termMask term) := by
  rcases alone_or_allNamed_of_parse_eq_ok accepted with alone | allNamed
  · rw [terms_eq_zero_of_strip_eq_zero alone, List.mem_singleton] at among
    rw [among]
    exact FlagSet.parse_text_empty
  · obtain ⟨named, names⟩ := allNamed term among
    rw [parse_of_names names, termMask_of_names names]

/-- A scan with an expression joins the scans with its terms. -/
theorem run_inClass_eq_foldr_join (bytes : List UInt8) :
    Scan.run (inClass · mask) bytes =
      ((terms expression.toList).map fun term =>
        Scan.run (inClass · (termMask term)) bytes).foldr Scan.join
          (.unmarked bytes.length) := by
  have joined :=
    Scan.foldr_join_run ((terms expression.toList).map termMask) bytes
  rw [List.map_map] at joined
  refine Eq.trans ?_ joined.symm
  congr 1
  funext byte
  rw [inClass_eq_any_terms accepted, List.any_map]
  rfl

end Terms

/-- The lines of a text in which every line is ended by a line break. -/
def lines (text : String) : List (List Char) :=
  (text.toList.splitOn '\n').dropLast

theorem lines_join {rows : List String}
    (unbroken : ∀ row ∈ rows, '\n' ∉ row.toList) :
    lines (String.join (rows.map (· ++ "\n"))) = rows.map String.toList := by
  induction rows with
  | nil => rfl
  | cons row rows ih =>
      obtain ⟨here, later⟩ := List.forall_mem_cons.mp unbroken
      have split : (String.join ((row :: rows).map (· ++ "\n"))).toList.splitOn '\n' =
          row.toList ::
            (String.join (rows.map (· ++ "\n"))).toList.splitOn '\n' := by
        rw [List.map_cons, String.join_cons, String.toList_append,
          String.toList_append, List.append_assoc]
        exact List.splitOn_append_cons_self_of_not_mem here _
      rw [lines, split, List.dropLast_cons_of_ne_nil (List.splitOn_ne_nil _ _),
        ← lines, ih later, List.map_cons]

theorem newline_not_mem_selectedLine (byte : UInt8) :
    '\n' ∉ (selectedLine byte).toList := by
  have number : '\n' ∉ Nat.toDigits 16 byte.toNat :=
    forall_byte (by decide +kernel) byte
  have columns := newline_not_mem_label byte
  have classes : '\n' ∉ (classesOf byte).text.toList := fun member =>
    absurd (FlagSet.mem_text member) (by decide)
  simp [selectedLine, Numeral.paddedHex, labelText, number, columns, classes]

theorem lines_selectedRows (mask : FlagSet) :
    lines (selectedRows mask) =
      (members mask).map fun byte => (selectedLine byte).toList := by
  have rows : (members mask).map (fun byte => selectedLine byte ++ "\n") =
      ((members mask).map selectedLine).map (· ++ "\n") := by
    rw [List.map_map]
    rfl
  rw [selectedRows_eq, rows, lines_join, List.map_map]
  · rfl
  · rw [List.forall_mem_map]
    exact fun byte _ => newline_not_mem_selectedLine byte

/-- Nothing stands beside the lines. -/
theorem toList_selectedRows (mask : FlagSet) :
    (selectedRows mask).toList =
      (lines (selectedRows mask)).flatMap (· ++ ['\n']) := by
  rw [lines_selectedRows, selectedRows_eq, List.flatMap_map]
  induction members mask with
  | nil => rfl
  | cons byte bytes ih =>
      rw [List.map_cons, String.join_cons, String.toList_append, ih,
        List.flatMap_cons, String.toList_append]
      rfl

theorem pairwise_byteValues : byteValues.Pairwise (· < ·) := by
  refine List.pairwise_map.mpr (List.pairwise_lt_range.imp_of_mem ?_)
  intro first second _ member order
  have small := List.mem_range.mp member
  rw [UInt8.lt_iff_toNat_lt, UInt8.toNat_ofNat', UInt8.toNat_ofNat']
  omega

theorem pairwise_members (mask : FlagSet) : (members mask).Pairwise (· < ·) :=
  pairwise_byteValues.filter _

/-- The line shows a byte by its number, its label and classes that read back. -/
def ShowsByte (line : List Char) (byte : UInt8) : Prop :=
  ∃ number classes : List Char,
    line = ['0', 'x'] ++ number ++ ' ' :: label byte ++ ' ' :: classes ∧
      number.length = 2 ∧ Numeral.read? 16 number = some byte.toNat ∧
      FlagSet.parse (String.ofList classes) = .ok (classesOf byte)

theorem showsByte_selectedLine (byte : UInt8) :
    ShowsByte (selectedLine byte).toList byte := by
  refine ⟨(Nat.toDigits 16 byte.toNat).leftpad 2 '0',
    (classesOf byte).text.toList, ?_, ?_,
    Numeral.read?_leftpad (by decide) (by decide) 2 byte.toNat, ?_⟩
  · simp [selectedLine, Numeral.paddedHex, labelText]
  · have short : (Nat.toDigits 16 byte.toNat).length ≤ 2 :=
      (Nat.length_toDigits_le_iff (by decide) (by decide)).mpr byte.toNat_lt
    rw [List.length_leftpad, Nat.max_eq_left short]
  · rw [String.ofList_toList]
    exact FlagSet.parse_text_of_known fun _ => FlagSet.position_lt_of_holds_ofFlags

section Rows

variable {expression : String} {mask : FlagSet}
    (accepted : FlagSet.parse expression = .ok mask)

include accepted

theorem run_select (build : Build) (rest : List String) :
    build.run ("--select" :: expression :: rest) =
      ⟨0, selectedRows mask, ""⟩ := by
  rw [selectedRows_eq]
  exact (Build.Yields.selection accepted rest).run_eq

theorem standardOutput_run_select (build : Build) (rest : List String) :
    (build.run ("--select" :: expression :: rest)).standardOutput =
      selectedRows mask := by
  rw [run_select accepted]

theorem lines_run_select (build : Build) (rest : List String) :
    lines (build.run ("--select" :: expression :: rest)).standardOutput =
      (members mask).map fun byte => (selectedLine byte).toList := by
  rw [standardOutput_run_select accepted, lines_selectedRows]

theorem mem_lines_run_select {build : Build} {rest : List String}
    {line : List Char} :
    line ∈ lines
        (build.run ("--select" :: expression :: rest)).standardOutput ↔
      ∃ byte, (∃ term ∈ terms expression.toList,
          inClass byte (termMask term) = true) ∧
        (selectedLine byte).toList = line := by
  rw [lines_run_select accepted, List.mem_map]
  simp only [mem_members, inClass_eq_any_terms accepted, List.any_eq_true]

end Rows

theorem terms_join (expression other : String) :
    terms (expression ++ "|" ++ other).toList =
      terms expression.toList ++ terms other.toList := by
  rw [String.toList_append, String.toList_append, List.append_assoc]
  exact terms_append_bar expression.toList other.toList

/-- A byte is selected by an expression exactly if some term names a class of
it, so a scan joins the scans with the terms.  The command prints one line for
each selected byte, in increasing order, and the lines of two joined expressions
are those of either. -/
theorem selection_by_terms (build : Build) (rest : List String)
    {expression : String} {mask : FlagSet}
    (accepted : FlagSet.parse expression = .ok mask) :
    (∀ byte, inClass byte mask = true ↔
      ∃ term ∈ terms expression.toList, ∃ named,
        Names term named ∧ named.includes byte = true) ∧
    (∀ term ∈ terms expression.toList,
      FlagSet.parse (String.ofList term) = .ok (termMask term)) ∧
    (∀ bytes, Scan.run (inClass · mask) bytes =
      ((terms expression.toList).map fun term =>
        Scan.run (inClass · (termMask term)) bytes).foldr Scan.join
          (.unmarked bytes.length)) ∧
    (build.run ("--select" :: expression :: rest)).exitCode = 0 ∧
    (∃ selected : List UInt8, selected.Pairwise (· < ·) ∧
      (∀ byte, byte ∈ selected ↔ inClass byte mask = true) ∧
      List.Forall₂ ShowsByte
        (lines (build.run ("--select" :: expression :: rest)).standardOutput)
        selected) ∧
    (build.run ("--select" :: expression :: rest)).standardOutput.toList =
      (lines (build.run
        ("--select" :: expression :: rest)).standardOutput).flatMap
          (· ++ ['\n']) ∧
    ∀ other otherMask joinedMask,
      FlagSet.parse other = .ok otherMask →
      FlagSet.parse (expression ++ "|" ++ other) = .ok joinedMask →
      ∀ line,
        line ∈ lines (build.run
          ("--select" :: (expression ++ "|" ++ other) :: rest)).standardOutput ↔
        line ∈ lines
          (build.run ("--select" :: expression :: rest)).standardOutput ∨
        line ∈ lines
          (build.run ("--select" :: other :: rest)).standardOutput := by
  refine ⟨inClass_iff_exists_term accepted, fun term => parse_term accepted,
    run_inClass_eq_foldr_join accepted, ?_, ⟨members mask, pairwise_members mask,
      fun byte => mem_members, ?_⟩, ?_, ?_⟩
  · rw [run_select accepted]
  · rw [lines_run_select accepted, List.forall₂_map_left_iff, List.forall₂_same]
    exact fun byte _ => showsByte_selectedLine byte
  · rw [standardOutput_run_select accepted, ← toList_selectedRows]
  · intro other otherMask joinedMask otherAccepted joinAccepted line
    rw [mem_lines_run_select accepted, mem_lines_run_select otherAccepted,
      mem_lines_run_select joinAccepted, terms_join]
    constructor
    · rintro ⟨byte, ⟨term, among, selected⟩, shown⟩
      rcases List.mem_append.mp among with first | second
      · exact .inl ⟨byte, ⟨term, first, selected⟩, shown⟩
      · exact .inr ⟨byte, ⟨term, second, selected⟩, shown⟩
    · rintro (⟨byte, ⟨term, first, selected⟩, shown⟩ |
        ⟨byte, ⟨term, second, selected⟩, shown⟩)
      · exact ⟨byte, ⟨term, List.mem_append_left _ first, selected⟩, shown⟩
      · exact ⟨byte, ⟨term, List.mem_append_right _ second, selected⟩, shown⟩

theorem selection_by_terms_overlapping_classes :
    FlagSet.parse "xdigit|UPPER" = .ok ⟨0xb0⟩ ∧
      FlagSet.parse " Alpha " = .ok ⟨0x60⟩ ∧
      FlagSet.parse "xdigit|UPPER| Alpha " = .ok ⟨0xf0⟩ ∧
      inClass 0x47 ⟨0xb0⟩ = true ∧
      ∀ line,
        line ∈ lines (Build.full.run
          ["--select", "xdigit|UPPER| Alpha ", "ignored"]).standardOutput ↔
        line ∈ lines (Build.full.run
          ["--select", "xdigit|UPPER", "ignored"]).standardOutput ∨
        line ∈ lines (Build.full.run
          ["--select", " Alpha ", "ignored"]).standardOutput := by
  have first : FlagSet.parse "xdigit|UPPER" = .ok ⟨0xb0⟩ := by rfl
  have second : FlagSet.parse " Alpha " = .ok ⟨0x60⟩ := by rfl
  have joined : FlagSet.parse "xdigit|UPPER| Alpha " = .ok ⟨0xf0⟩ := by rfl
  obtain ⟨selected, _, _, _, _, _, union⟩ :=
    selection_by_terms .full ["ignored"] first
  have upper : inClass 0x47 ⟨0xb0⟩ = true :=
    (selected 0x47).mpr ⟨"UPPER".toList, by decide +kernel, .basic .upper,
      FlagSet.names_name .upper, by decide +kernel⟩
  exact ⟨first, second, joined, upper, union " Alpha " _ _ second joined⟩

end ByteClass
