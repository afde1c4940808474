import ByteClass.Proofs.WrittenSets

/-!
# Joined expressions

An expression that two others form around a bar stands for the union of what
these stand for, and the leftmost error wins.  Only the zero is an exception: it
denotes a set when it stands alone, and names nothing beside a bar.  What is
accepted therefore depends on the set of terms in upper case, and on nothing
else of an expression.
-/

namespace ByteClass

/-- What an expression contributes beside a bar. -/
def operandResult (expression : String) : Except ExpressionError FlagSet :=
  if strip expression.toList = ['0'] then
    .error (.unknownName "0")
  else
    FlagSet.parse expression

/-- The first error, or the union of the two sets. -/
def joinResults :
    Except ExpressionError FlagSet → Except ExpressionError FlagSet →
      Except ExpressionError FlagSet
  | .error error, _ => .error error
  | .ok _, .error error => .error error
  | .ok first, .ok second => .ok (first ∪ second)

namespace FlagSet

theorem union_assoc (first second third : FlagSet) :
    first ∪ second ∪ third = first ∪ (second ∪ third) := by
  apply ext_holds
  intro position _
  simp [Bool.or_assoc]

theorem empty_union (set : FlagSet) : ∅ ∪ set = set := by
  apply ext_holds
  intro position _
  simp

end FlagSet

theorem joinResults_assoc (first second third : Except ExpressionError FlagSet) :
    joinResults (joinResults first second) third =
      joinResults first (joinResults second third) := by
  cases first with
  | error error => rfl
  | ok first =>
      cases second with
      | error error => rfl
      | ok second =>
          cases third with
          | error error => rfl
          | ok third => simp only [joinResults, FlagSet.union_assoc]

theorem unionOfTerms_cons (term : List Char) (rest : List (List Char)) :
    unionOfTerms (term :: rest) =
      joinResults (termFlags term) (unionOfTerms rest) := by
  rw [unionOfTerms]
  cases termFlags term with
  | error error => rfl
  | ok set => cases unionOfTerms rest <;> rfl

/-- The terms of a join are united part by part: by induction on the terms in
front of the seam. -/
theorem unionOfTerms_append (first second : List (List Char)) :
    unionOfTerms (first ++ second) =
      joinResults (unionOfTerms first) (unionOfTerms second) := by
  induction first with
  | nil =>
      rw [List.nil_append, unionOfTerms]
      cases unionOfTerms second with
      | error error => rfl
      | ok set => rw [joinResults, FlagSet.empty_union]
  | cons term first ih =>
      rw [List.cons_append, unionOfTerms_cons, unionOfTerms_cons, ih,
        joinResults_assoc]

/-- Beside a bar no expression is special: the zero is a term that names
nothing. -/
theorem operandResult_eq (expression : String) :
    operandResult expression = unionOfTerms (terms expression.toList) := by
  rw [operandResult]
  split
  · rename_i alone
    rw [terms_eq_zero_of_strip_eq_zero alone]
    decide +kernel
  · rename_i notZero
    rw [FlagSet.parse_eq, if_neg notZero, terms_eq_splitOn]

theorem strip_ne_zero_of_bar {expression : List Char} (bar : '|' ∈ expression) :
    strip expression ≠ ['0'] := by
  intro alone
  have inside := mem_strip bar (by decide)
  rw [alone] at inside
  simp at inside

theorem parse_join (first second : String) :
    FlagSet.parse (first ++ "|" ++ second) =
      joinResults (operandResult first) (operandResult second) := by
  have joined : (first ++ "|" ++ second).toList =
      first.toList ++ '|' :: second.toList := by
    simp
  have notZero : strip (first ++ "|" ++ second).toList ≠ ['0'] :=
    strip_ne_zero_of_bar (by simp [joined])
  rw [FlagSet.parse_eq, if_neg notZero, ← terms_eq_splitOn, joined,
    terms_append_bar, unionOfTerms_append, operandResult_eq, operandResult_eq]

/-- The stripped terms of an expression in upper case, without their order and
number. -/
def raisedTerms (expression : String) : Set (List Char) :=
  {raised | ∃ term ∈ (expression.toList.splitOn '|').map strip,
    raised = term.map Char.toUpper}

/-- The words are names of classes, and the set is the union of these classes. -/
structure UnitesNames (words : Set (List Char)) (set : FlagSet) : Prop where
  named : ∀ word ∈ words, ∃ named : NamedClass, word = named.name.toList
  holds_iff : ∀ position, set.holds position = true ↔
    ∃ word ∈ words, ∃ named : NamedClass,
      word = named.name.toList ∧ named.flagSet.holds position = true

/-- Acceptance reads nothing of an expression but its terms in upper case. -/
theorem parse_eq_ok_iff_unitesNames {expression : String}
    (notZero : strip expression.toList ≠ ['0']) {set : FlagSet} :
    FlagSet.parse expression = .ok set ↔
      UnitesNames (raisedTerms expression) set := by
  constructor
  · intro accepted
    have denotes := denotes_parse expression
    rw [accepted] at denotes
    cases denotes with
    | zero alone => exact absurd alone notZero
    | union set _ allNamed unites =>
        refine ⟨?_, fun position => (unites position).trans ⟨?_, ?_⟩⟩
        · rintro _ ⟨term, among, rfl⟩
          exact allNamed term among
        · rintro ⟨term, among, named, names, held⟩
          exact ⟨_, ⟨term, among, rfl⟩, named, names, held⟩
        · rintro ⟨_, ⟨term, among, rfl⟩, named, names, held⟩
          exact ⟨term, among, named, names, held⟩
  · rintro ⟨allNamed, holds⟩
    apply Denotes.parse_eq
    refine .union set notZero
      (fun term among => allNamed _ ⟨term, among, rfl⟩)
      fun position => (holds position).trans ⟨?_, ?_⟩
    · rintro ⟨_, ⟨term, among, rfl⟩, named, names, held⟩
      exact ⟨term, among, named, names, held⟩
    · rintro ⟨term, among, named, names, held⟩
      exact ⟨_, ⟨term, among, rfl⟩, named, names, held⟩

theorem parse_of_raisedTerms_eq {first second : String}
    (firstNotZero : strip first.toList ≠ ['0'])
    (secondNotZero : strip second.toList ≠ ['0'])
    (same : raisedTerms first = raisedTerms second) :
    (∃ set, FlagSet.parse first = .ok set ∧ FlagSet.parse second = .ok set) ∨
      (∃ error, FlagSet.parse first = .error error) ∧
        ∃ error, FlagSet.parse second = .error error := by
  have alike : ∀ set, FlagSet.parse first = .ok set ↔
      FlagSet.parse second = .ok set := by
    intro set
    rw [parse_eq_ok_iff_unitesNames firstNotZero,
      parse_eq_ok_iff_unitesNames secondNotZero, same]
  cases result : FlagSet.parse first with
  | ok set => exact .inl ⟨set, rfl, (alike set).mp result⟩
  | error error =>
      refine .inr ⟨⟨error, rfl⟩, ?_⟩
      cases otherResult : FlagSet.parse second with
      | error otherError => exact ⟨otherError, rfl⟩
      | ok set =>
          rw [(alike set).mpr otherResult] at result
          cases result

/-- Blank ends are stripped before anything is read. -/
theorem parse_blank_ends {before after : List Char} (blankBefore : IsBlank before)
    (blankAfter : IsBlank after) (expression : String) :
    FlagSet.parse (String.ofList before ++ expression ++ String.ofList after) =
      FlagSet.parse expression := by
  have ends : (String.ofList before ++ expression ++ String.ofList after).toList =
      before ++ expression.toList ++ after := by
    simp
  rw [FlagSet.parse, FlagSet.parse, ends, strip_append_blank blankAfter,
    strip_blank_append blankBefore]

/-- Parsing goes through a bar: the leftmost error of the two sides, or the union
of their sets, where a side that is the lone zero counts as an unknown name.
Sides with the same terms in upper case are accepted alike, in whatever order,
number and case the terms stand, and blank ends leave no trace. -/
theorem parse_compositional (first second : String) :
    FlagSet.parse (first ++ "|" ++ second) =
        joinResults (operandResult first) (operandResult second) ∧
      (strip first.toList ≠ ['0'] → strip second.toList ≠ ['0'] →
        raisedTerms first = raisedTerms second →
        (∃ set, FlagSet.parse first = .ok set ∧
          FlagSet.parse second = .ok set) ∨
        (∃ error, FlagSet.parse first = .error error) ∧
          ∃ error, FlagSet.parse second = .error error) ∧
      ∀ before after, IsBlank before → IsBlank after →
        FlagSet.parse (String.ofList before ++ first ++ String.ofList after) =
          FlagSet.parse first :=
  ⟨parse_join first second, parse_of_raisedTerms_eq,
    fun _ _ blankBefore blankAfter =>
      parse_blank_ends blankBefore blankAfter first⟩

theorem parse_compositional_mixed_sides :
    FlagSet.parse "ascii| CNTRL |ASCII|Cntrl|ascii" =
        joinResults (operandResult "ascii| CNTRL |ASCII")
          (operandResult "Cntrl|ascii") ∧
      FlagSet.parse "Cntrl|ascii| 0" =
        .error (.unknownName "0") ∧
      raisedTerms "ascii| CNTRL |ASCII" = raisedTerms "Cntrl|ascii" ∧
      (∃ set, FlagSet.parse "ascii| CNTRL |ASCII" = .ok set ∧
        FlagSet.parse "Cntrl|ascii" = .ok set) ∧
      FlagSet.parse " \tascii| CNTRL |ASCII\n" = .ok ⟨3⟩ := by
  have accepted : FlagSet.parse "ascii| CNTRL |ASCII" = .ok ⟨3⟩ := by
    decide +kernel
  have sides : raisedTerms "ascii| CNTRL |ASCII" = raisedTerms "Cntrl|ascii" := by
    have front : ("ascii| CNTRL |ASCII".toList.splitOn '|').map strip =
        ["ascii".toList, "CNTRL".toList, "ASCII".toList] := by
      rw [← terms_eq_splitOn]
      decide +kernel
    have back : ("Cntrl|ascii".toList.splitOn '|').map strip =
        ["Cntrl".toList, "ascii".toList] := by
      rw [← terms_eq_splitOn]
      decide +kernel
    ext word
    have raised : "ascii".toList.map Char.toUpper = "ASCII".toList ∧
        "ASCII".toList.map Char.toUpper = "ASCII".toList ∧
        "CNTRL".toList.map Char.toUpper = "CNTRL".toList ∧
        "Cntrl".toList.map Char.toUpper = "CNTRL".toList := by
      decide
    obtain ⟨lower, upper, plain, mixed⟩ := raised
    simp only [raisedTerms, front, back, Set.mem_ofPred_eq, List.mem_cons,
      List.not_mem_nil, or_false, exists_eq_or_imp, exists_eq_left, lower, upper,
      plain, mixed]
    grind
  obtain ⟨joined, alike, ends⟩ :=
    parse_compositional "ascii| CNTRL |ASCII" "Cntrl|ascii"
  obtain ⟨zeroJoined, _⟩ := parse_compositional "Cntrl|ascii" " 0"
  have zero : operandResult " 0" = .error (.unknownName "0") :=
    if_pos (by decide)
  have side : operandResult "Cntrl|ascii" = .ok ⟨3⟩ := by decide +kernel
  rw [side, zero] at zeroJoined
  refine ⟨joined, zeroJoined, sides, ?_, ?_⟩
  · have notZero : strip "ascii| CNTRL |ASCII".toList ≠ ['0'] := by decide
    have otherNotZero : strip "Cntrl|ascii".toList ≠ ['0'] := by decide
    rcases alike notZero otherNotZero sides with both | ⟨⟨error, failed⟩, _⟩
    · exact both
    · rw [accepted] at failed
      cases failed
  · rw [← accepted]
    exact ends [' ', '\t'] ['\n'] (by simp [IsBlank]; decide)
      (by simp [IsBlank]; decide)

end ByteClass
