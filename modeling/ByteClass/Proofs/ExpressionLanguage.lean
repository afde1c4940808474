import ByteClass.Proofs.StrippedTerms
import Mathlib

/-!
# The language of expressions

`Denotes` says by rules what an expression stands for: a zero alone for the set
that holds nothing, terms that all name a class for the union of these classes,
and any other expression for the error of its leftmost term that names nothing.
Parsing follows exactly these rules.
-/

namespace ByteClass

/-- The term is the name of the class up to the case of its ASCII letters. -/
def Names (term : List Char) (named : NamedClass) : Prop :=
  term.map Char.toUpper = named.name.toList

/-- The first term that names no class. -/
def LeftmostUnnamed (terms : List (List Char)) (term : List Char) : Prop :=
  ∃ before after, terms = before ++ term :: after ∧
    (∀ earlier ∈ before, ∃ named, Names earlier named) ∧
    ∀ named, ¬ Names term named

/-- What an expression stands for; its terms are the pieces between its bars,
stripped. -/
inductive Denotes (expression : List Char) :
    Except ExpressionError FlagSet → Prop
  | zero (alone : strip expression = ['0']) : Denotes expression (.ok ∅)
  | union (set : FlagSet) (notZero : strip expression ≠ ['0'])
      (allNamed : ∀ term ∈ (expression.splitOn '|').map strip,
        ∃ named, Names term named)
      (unites : ∀ position, set.holds position = true ↔
        ∃ term ∈ (expression.splitOn '|').map strip, ∃ named,
          Names term named ∧ named.flagSet.holds position = true) :
      Denotes expression (.ok set)
  | emptyTerm (notZero : strip expression ≠ ['0'])
      (leftmost : LeftmostUnnamed ((expression.splitOn '|').map strip) []) :
      Denotes expression (.error .emptyTerm)
  | unknownName (name : String) (notZero : strip expression ≠ ['0'])
      (nonempty : name ≠ "")
      (leftmost : LeftmostUnnamed ((expression.splitOn '|').map strip)
        name.toList) :
      Denotes expression (.error (.unknownName name))

theorem namedClass?_eq_some_iff {term : List Char} {named : NamedClass} :
    namedClass? term = some named ↔ Names term named := by
  rw [namedClass?, NamedClass.ofName?_eq_some_iff, Names,
    ← String.toList_inj, String.toList_ofList, eq_comm]

theorem Names.unique {term : List Char} {first second : NamedClass}
    (one : Names term first) (two : Names term second) : first = second := by
  rw [← namedClass?_eq_some_iff] at one two
  exact Option.some.inj (one.symm.trans two)

theorem isAlphanum_iff {char : Char} :
    char.isAlphanum = true ↔
      (48 ≤ char.toNat ∧ char.toNat ≤ 57) ∨
        (65 ≤ char.toNat ∧ char.toNat ≤ 90) ∨
        (97 ≤ char.toNat ∧ char.toNat ≤ 122) := by
  simp only [Char.isAlphanum, Char.isAlpha, Char.isUpper, Char.isLower,
    Char.isDigit, Bool.or_eq_true, Bool.and_eq_true, decide_eq_true_eq,
    UInt32.le_iff_toNat_le, ge_iff_le, Char.toNat_val]
  grind

theorem toNat_lt_of_isAlphanum {char : Char}
    (alphanumeric : char.isAlphanum = true) : char.toNat < 128 := by
  rw [isAlphanum_iff] at alphanumeric
  omega

theorem isWhiteSpace_of_isAlphanum {char : Char}
    (alphanumeric : char.isAlphanum = true) : isWhiteSpace char = false := by
  have apart : ∀ range ∈ whiteSpaceRanges, range.2 < 48 ∨ 122 < range.1 := by
    decide
  rw [← Bool.not_eq_true, isWhiteSpace, inRanges_iff]
  rintro ⟨range, listed, low, high⟩
  have outside := apart range listed
  rw [isAlphanum_iff] at alphanumeric
  omega

theorem isAlphanum_of_mem_name (named : NamedClass) :
    ∀ char ∈ named.name.toList, char.isAlphanum = true := by
  rw [← List.all_eq_true]
  cases named with
  | basic flag => cases flag <;> decide
  | composite union => cases union <;> decide

/-- Raising the case of a character never makes it a letter or a digit. -/
theorem isAlphanum_of_toUpper {char : Char}
    (raised : char.toUpper.isAlphanum = true) : char.isAlphanum = true := by
  by_cases lower : char.isLower = true
  · simp [Char.isAlphanum, Char.isAlpha, lower]
  · rwa [Char.toUpper_eq_of_not_isLower lower] at raised

theorem Names.isAlphanum {term : List Char} {named : NamedClass}
    (names : Names term named) {char : Char} (member : char ∈ term) :
    char.isAlphanum = true := by
  apply isAlphanum_of_toUpper
  apply isAlphanum_of_mem_name named
  rw [← names]
  exact List.mem_map_of_mem member

theorem Names.one_lt_length {term : List Char} {named : NamedClass}
    (names : Names term named) : 1 < term.length := by
  have long : 1 < named.name.toList.length := by
    cases named with
    | basic flag => cases flag <;> decide
    | composite union => cases union <;> decide
  rwa [← names, List.length_map] at long

/-- The terms all name classes, or one of them is the first that does not. -/
theorem allNamed_or_leftmostUnnamed (terms : List (List Char)) :
    (∀ term ∈ terms, ∃ named, Names term named) ∨
      ∃ term, LeftmostUnnamed terms term := by
  induction terms with
  | nil => simp
  | cons term terms ih =>
      by_cases first : ∃ named, Names term named
      · rcases ih with rest | ⟨unnamed, before, after, equal, earlier, fails⟩
        · exact .inl (List.forall_mem_cons.mpr ⟨first, rest⟩)
        · exact .inr ⟨unnamed, term :: before, after, by rw [equal]; rfl,
            List.forall_mem_cons.mpr ⟨first, earlier⟩, fails⟩
      · exact .inr ⟨term, [], terms, rfl, by simp, not_exists.mp first⟩

theorem LeftmostUnnamed.mem {terms : List (List Char)} {term : List Char}
    (leftmost : LeftmostUnnamed terms term) : term ∈ terms := by
  obtain ⟨before, after, equal, _⟩ := leftmost
  simp [equal]

theorem termFlags_of_names {term : List Char} {named : NamedClass}
    (names : Names term named) : termFlags term = .ok named.flagSet := by
  have nonempty : term ≠ [] := by
    rintro rfl
    exact absurd names.one_lt_length (by decide)
  simp [termFlags, nonempty, namedClass?_eq_some_iff.mpr names]

theorem termFlags_of_unnamed {term : List Char}
    (unnamed : ∀ named, ¬ Names term named) :
    termFlags term = .error
      (if term = [] then .emptyTerm else .unknownName (String.ofList term)) := by
  have unknown : namedClass? term = none := by
    rw [Option.eq_none_iff_forall_ne_some]
    exact fun named found => unnamed named (namedClass?_eq_some_iff.mp found)
  by_cases empty : term = [] <;> simp [termFlags, unknown, empty]

theorem unionOfTerms_of_allNamed {terms : List (List Char)}
    (allNamed : ∀ term ∈ terms, ∃ named, Names term named) :
    ∃ set, unionOfTerms terms = .ok set ∧
      ∀ position, set.holds position = true ↔
        ∃ term ∈ terms, ∃ named,
          Names term named ∧ named.flagSet.holds position = true := by
  induction terms with
  | nil => exact ⟨∅, rfl, by simp⟩
  | cons term terms ih =>
      obtain ⟨⟨named, names⟩, rest⟩ := List.forall_mem_cons.mp allNamed
      obtain ⟨set, united, holds⟩ := ih rest
      refine ⟨named.flagSet ∪ set, ?_, ?_⟩
      · rw [unionOfTerms, termFlags_of_names names, united]
      · intro position
        rw [FlagSet.holds_union, Bool.or_eq_true, holds]
        constructor
        · rintro (here | ⟨other, among, found⟩)
          · exact ⟨term, List.mem_cons_self, named, names, here⟩
          · exact ⟨other, List.mem_cons_of_mem term among, found⟩
        · rintro ⟨other, among, another, same, here⟩
          rcases List.mem_cons.mp among with rfl | later
          · exact .inl (names.unique same ▸ here)
          · exact .inr ⟨other, later, another, same, here⟩

theorem unionOfTerms_of_leftmostUnnamed {terms : List (List Char)}
    {term : List Char} (leftmost : LeftmostUnnamed terms term) :
    unionOfTerms terms = .error
      (if term = [] then .emptyTerm else .unknownName (String.ofList term)) := by
  obtain ⟨before, after, rfl, earlier, unnamed⟩ := leftmost
  induction before with
  | nil => rw [List.nil_append, unionOfTerms, termFlags_of_unnamed unnamed]
  | cons first before ih =>
      obtain ⟨⟨named, names⟩, rest⟩ := List.forall_mem_cons.mp earlier
      rw [List.cons_append, unionOfTerms, termFlags_of_names names, ih rest]

theorem terms_eq_splitOn (expression : List Char) :
    terms expression = (expression.splitOn '|').map strip := by
  rw [terms, pieces_eq_splitOn]

theorem FlagSet.parse_eq (expression : String) :
    FlagSet.parse expression =
      if strip expression.toList = ['0'] then .ok ∅
      else unionOfTerms ((expression.toList.splitOn '|').map strip) := by
  rw [FlagSet.parse, terms_strip, terms_eq_splitOn]

/-- Parsing finds something that the expression stands for. -/
theorem denotes_parse (expression : String) :
    Denotes expression.toList (FlagSet.parse expression) := by
  rw [FlagSet.parse_eq]
  by_cases alone : strip expression.toList = ['0']
  · rw [if_pos alone]
    exact .zero alone
  · rw [if_neg alone]
    rcases allNamed_or_leftmostUnnamed
        ((expression.toList.splitOn '|').map strip) with
      allNamed | ⟨term, leftmost⟩
    · obtain ⟨set, united, unites⟩ := unionOfTerms_of_allNamed allNamed
      rw [united]
      exact .union set alone allNamed unites
    · rw [unionOfTerms_of_leftmostUnnamed leftmost]
      by_cases empty : term = []
      · subst empty
        exact .emptyTerm alone leftmost
      · rw [if_neg empty]
        exact .unknownName _ alone (by simpa using empty) (by simpa using leftmost)

/-- Whatever an expression stands for is found by parsing. -/
theorem Denotes.parse_eq {expression : String}
    {result : Except ExpressionError FlagSet}
    (denotes : Denotes expression.toList result) :
    FlagSet.parse expression = result := by
  rw [FlagSet.parse_eq]
  cases denotes with
  | zero alone => rw [if_pos alone]
  | union set notZero allNamed unites =>
      obtain ⟨other, united, holds⟩ := unionOfTerms_of_allNamed allNamed
      rw [if_neg notZero, united]
      congr 1
      apply FlagSet.ext_holds
      intro position _
      rw [Bool.eq_iff_iff, holds, unites]
  | emptyTerm notZero leftmost =>
      rw [if_neg notZero, unionOfTerms_of_leftmostUnnamed leftmost, if_pos rfl]
  | unknownName name notZero nonempty leftmost =>
      rw [if_neg notZero, unionOfTerms_of_leftmostUnnamed leftmost,
        if_neg (by simpa using nonempty), String.ofList_toList]

theorem terms_eq_zero_of_strip_eq_zero {expression : List Char}
    (alone : strip expression = ['0']) : terms expression = [['0']] := by
  rw [← terms_strip, alone]
  decide

theorem alone_or_allNamed_of_parse_eq_ok {expression : String} {set : FlagSet}
    (accepted : FlagSet.parse expression = .ok set) :
    strip expression.toList = ['0'] ∨
      ∀ term ∈ terms expression.toList, ∃ named, Names term named := by
  have denotes := denotes_parse expression
  rw [accepted] at denotes
  cases denotes with
  | zero alone => exact .inl alone
  | union set notZero allNamed unites =>
      rw [← terms_eq_splitOn] at allNamed
      exact .inr allNamed

theorem terms_eq_zero_of_parse_eq_ok {expression : String} {set : FlagSet}
    (accepted : FlagSet.parse expression = .ok set)
    (member : ['0'] ∈ terms expression.toList) :
    terms expression.toList = [['0']] := by
  rcases alone_or_allNamed_of_parse_eq_ok accepted with alone | allNamed
  · exact terms_eq_zero_of_strip_eq_zero alone
  · obtain ⟨named, names⟩ := allNamed _ member
    exact absurd names.one_lt_length (by decide)

theorem isAlphanum_of_parse_eq_ok {expression : String} {set : FlagSet}
    (accepted : FlagSet.parse expression = .ok set) {term : List Char}
    (among : term ∈ terms expression.toList) {char : Char}
    (member : char ∈ term) : char.isAlphanum = true := by
  rcases alone_or_allNamed_of_parse_eq_ok accepted with alone | allNamed
  · rw [terms_eq_zero_of_strip_eq_zero alone, List.mem_singleton] at among
    rw [among, List.mem_singleton] at member
    rw [member]
    rfl
  · obtain ⟨named, names⟩ := allNamed term among
    exact names.isAlphanum member

theorem ascii_or_isWhiteSpace_of_parse_eq_ok {expression : String}
    {set : FlagSet} (accepted : FlagSet.parse expression = .ok set)
    {char : Char} (member : char ∈ expression.toList) :
    char.toNat < 128 ∨ isWhiteSpace char = true := by
  by_cases white : isWhiteSpace char = true
  · exact .inr white
  · by_cases bar : char = '|'
    · rw [bar]
      exact .inl (by decide)
    · obtain ⟨term, among, inside⟩ :=
        exists_mem_terms_of_mem member bar (Bool.eq_false_iff.mpr white)
      exact .inl (toNat_lt_of_isAlphanum
        (isAlphanum_of_parse_eq_ok accepted among inside))

theorem leftmostUnnamed_of_parse_eq_unknownName {expression name : String}
    (failed : FlagSet.parse expression = .error (.unknownName name)) :
    name ≠ "" ∧ LeftmostUnnamed (terms expression.toList) name.toList := by
  have denotes := denotes_parse expression
  rw [failed] at denotes
  cases denotes with
  | unknownName name notZero nonempty leftmost =>
      rw [← terms_eq_splitOn] at leftmost
      exact ⟨nonempty, leftmost⟩

/-- A single term that names no class is its own error, unless it is the zero
that stands for the set holding nothing. -/
theorem parse_of_unnamed {name : String} (nonempty : name ≠ "")
    (noBar : '|' ∉ name.toList) (stripped : IsStripped name.toList)
    (unnamed : ∀ named, ¬ Names name.toList named) :
    FlagSet.parse name =
      if name = "0" then .ok ∅ else .error (.unknownName name) := by
  split
  · rename_i zero
    exact Denotes.parse_eq (.zero (by rw [zero]; decide))
  · rename_i notZero
    apply Denotes.parse_eq
    refine .unknownName name ?_ nonempty ?_
    · rw [stripped.strip_eq]
      exact fun same => notZero (String.toList_inj.mp same)
    · rw [← terms_eq_splitOn, terms_of_bar_not_mem noBar, stripped.strip_eq]
      exact ⟨[], [], rfl, by simp, unnamed⟩

/-- Parsing gives the one thing that an expression stands for.  An accepted
expression has no zero beside another term, no white space inside a term and no
character that is neither ASCII nor white space.  A reported name is a proper
piece of the expression, and reported again when it is parsed alone, except
for the zero, which alone stands for the set that holds nothing. -/
theorem parse_eq_iff_denotes (expression : String) :
    (∀ result, FlagSet.parse expression = result ↔
      Denotes expression.toList result) ∧
    (∀ set, FlagSet.parse expression = .ok set →
      (['0'] ∈ (expression.toList.splitOn '|').map strip →
        (expression.toList.splitOn '|').map strip = [['0']]) ∧
      (∀ term ∈ (expression.toList.splitOn '|').map strip,
        ∀ char ∈ term, isWhiteSpace char = false) ∧
      ∀ char ∈ expression.toList,
        char.toNat < 128 ∨ isWhiteSpace char = true) ∧
    ∀ name, FlagSet.parse expression = .error (.unknownName name) →
      name ≠ "" ∧ '|' ∉ name.toList ∧ IsStripped name.toList ∧
        name.toList <:+: expression.toList ∧
        FlagSet.parse name =
          if name = "0" then .ok ∅ else .error (.unknownName name) := by
  rw [← terms_eq_splitOn]
  refine ⟨fun result => ⟨?_, Denotes.parse_eq⟩, fun set accepted => ?_,
    fun name failed => ?_⟩
  · rintro rfl
    exact denotes_parse expression
  · exact ⟨terms_eq_zero_of_parse_eq_ok accepted,
      fun term among char member => isWhiteSpace_of_isAlphanum
        (isAlphanum_of_parse_eq_ok accepted among member),
      fun char => ascii_or_isWhiteSpace_of_parse_eq_ok accepted⟩
  · obtain ⟨nonempty, leftmost⟩ :=
      leftmostUnnamed_of_parse_eq_unknownName failed
    have noBar := bar_not_mem_of_mem_terms leftmost.mem
    have stripped := isStripped_of_mem_terms leftmost.mem
    obtain ⟨_, _, _, _, unnamed⟩ := id leftmost
    exact ⟨nonempty, noBar, stripped, infix_of_mem_terms leftmost.mem,
      parse_of_unnamed nonempty noBar stripped unnamed⟩

theorem parse_reports_spelled_name :
    FlagSet.parse "ascii | Hex |" = .error (.unknownName "Hex") ∧
      FlagSet.parse "Hex" = .error (.unknownName "Hex") := by
  have failed : FlagSet.parse "ascii | Hex |" =
      .error (.unknownName "Hex") := by
    decide +kernel
  obtain ⟨_, _, _, _, again⟩ :=
    (parse_eq_iff_denotes "ascii | Hex |").2.2 "Hex" failed
  rw [if_neg (by decide)] at again
  exact ⟨failed, again⟩

/-- A zero beside another term is reported as a name, yet parses alone. -/
theorem parse_zero_reported_and_accepted :
    FlagSet.parse "0|0" = .error (.unknownName "0") ∧
      ¬ ∃ error, FlagSet.parse "0" = .error error := by
  have failed : FlagSet.parse "0|0" = .error (.unknownName "0") := by
    decide +kernel
  have accepted : FlagSet.parse "0" = .ok ∅ := by decide +kernel
  refine ⟨failed, ?_⟩
  rintro ⟨error, rejected⟩
  rw [accepted] at rejected
  cases rejected

end ByteClass
