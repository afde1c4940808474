import ByteClass.Proofs.ExpressionLanguage

/-!
# Written sets read back

The terms of the text of a set are the names of its basic classes.  Hence a text
with at least one name denotes the basic classes of the set, the zero denotes
the set that holds nothing, and a set of unknown positions alone has a text
that denotes no set.
-/

namespace ByteClass

theorem IsStripped.of_isAlphanum {text : List Char}
    (alphanumeric : ∀ char ∈ text, char.isAlphanum = true) :
    IsStripped text := by
  rintro char (first | last)
  · exact isWhiteSpace_of_isAlphanum
      (alphanumeric char (List.mem_of_mem_head? first))
  · exact isWhiteSpace_of_isAlphanum
      (alphanumeric char (List.mem_of_getLast? last))

/-- The names are written in upper case. -/
theorem NamedClass.names_own_name (named : NamedClass) :
    Names named.name.toList named := by
  rw [Names]
  cases named with
  | basic flag => cases flag <;> decide
  | composite union => cases union <;> decide

theorem bar_not_mem_of_isAlphanum {text : List Char}
    (alphanumeric : ∀ char ∈ text, char.isAlphanum = true) : '|' ∉ text := by
  intro member
  exact absurd (alphanumeric '|' member) (by decide)

/-- A name of a class, in any case, denotes the class when it stands alone. -/
theorem parse_of_names {term : List Char} {named : NamedClass}
    (names : Names term named) :
    FlagSet.parse (String.ofList term) = .ok named.flagSet := by
  have single : (term.splitOn '|').map strip = [term] := by
    have noBar := bar_not_mem_of_isAlphanum fun _ => names.isAlphanum
    have stripped := IsStripped.of_isAlphanum fun _ => names.isAlphanum
    rw [← terms_eq_splitOn, terms_of_bar_not_mem noBar, stripped.strip_eq]
  apply Denotes.parse_eq
  rw [String.toList_ofList]
  refine .union named.flagSet ?_ ?_ ?_
  · intro alone
    have zero := terms_eq_zero_of_strip_eq_zero alone
    rw [terms_eq_splitOn, single, List.singleton_inj] at zero
    rw [zero] at names
    exact absurd names.one_lt_length (by decide)
  · rw [single, List.forall_mem_singleton]
    exact ⟨named, names⟩
  · intro position
    simp only [single, List.mem_singleton, exists_eq_left]
    constructor
    · exact fun held => ⟨named, names, held⟩
    · rintro ⟨other, same, held⟩
      exact names.unique same ▸ held

/-- Words joined by spaced bars are the terms of the joined text. -/
theorem terms_intercalate {words : List (List Char)} (nonempty : words ≠ [])
    (alphanumeric : ∀ word ∈ words, ∀ char ∈ word, char.isAlphanum = true) :
    terms ([' ', '|', ' '].intercalate words) = words := by
  have space : IsBlank [' '] := by simp [IsBlank]; decide
  induction words with
  | nil => exact absurd rfl nonempty
  | cons word words ih =>
      obtain ⟨here, later⟩ := List.forall_mem_cons.mp alphanumeric
      have single : terms word = [word] := by
        rw [terms_of_bar_not_mem (bar_not_mem_of_isAlphanum here),
          (IsStripped.of_isAlphanum here).strip_eq]
      cases words with
      | nil => rw [List.intercalate_singleton, single]
      | cons other words =>
          have joined : [' ', '|', ' '].intercalate (word :: other :: words) =
              (word ++ [' ']) ++
                '|' :: ([' '] ++ [' ', '|', ' '].intercalate (other :: words)) := by
            simp [List.intercalate_cons_cons]
          rw [joined, terms_append_bar, terms_append_blank space,
            terms_blank_append space, single, ih (by simp) later]
          rfl

theorem mem_intercalate {separator : List Char} {words : List (List Char)}
    {char : Char} (member : char ∈ separator.intercalate words) :
    char ∈ separator ∨ ∃ word ∈ words, char ∈ word := by
  induction words with
  | nil => simp at member
  | cons word words ih =>
      by_cases last : words = []
      · rw [last, List.intercalate_singleton] at member
        exact .inr ⟨word, List.mem_cons_self, member⟩
      · rw [List.intercalate_cons_of_ne_nil last, List.mem_append,
          List.mem_append] at member
        rcases member with (here | between) | later
        · exact .inr ⟨word, List.mem_cons_self, here⟩
        · exact .inl between
        · exact (ih later).imp_right fun ⟨other, among, inside⟩ =>
            ⟨other, List.mem_cons_of_mem word among, inside⟩

theorem IsStripped.append_append {first last : List Char}
    (firstStripped : IsStripped first) (lastStripped : IsStripped last)
    (firstNonempty : first ≠ []) (lastNonempty : last ≠ [])
    (middle : List Char) : IsStripped (first ++ middle ++ last) := by
  rintro char (head | final)
  · rw [List.append_assoc, List.head?_append_of_ne_nil _ firstNonempty] at head
    exact firstStripped char (.inl head)
  · rw [List.getLast?_append_of_ne_nil _ lastNonempty] at final
    exact lastStripped char (.inr final)

/-- A joined text ends as its outermost words do. -/
theorem isStripped_intercalate (separator : List Char) {words : List (List Char)}
    (proper : ∀ word ∈ words, word ≠ [] ∧ IsStripped word) :
    IsStripped (separator.intercalate words) := by
  suffices ends : IsStripped (separator.intercalate words) ∧
      (words ≠ [] → separator.intercalate words ≠ []) from ends.1
  induction words with
  | nil => simp [IsStripped]
  | cons word words ih =>
      obtain ⟨⟨nonempty, stripped⟩, later⟩ := List.forall_mem_cons.mp proper
      by_cases last : words = []
      · rw [last, List.intercalate_singleton]
        exact ⟨stripped, fun _ => nonempty⟩
      · obtain ⟨restStripped, restNonempty⟩ := ih later
        rw [List.intercalate_cons_of_ne_nil last]
        refine ⟨stripped.append_append restStripped nonempty (restNonempty last)
          separator, fun _ => ?_⟩
        simp [nonempty]

namespace FlagSet

theorem names_name (flag : Flag) : Names flag.name.toList (.basic flag) :=
  NamedClass.names_own_name (.basic flag)

theorem toList_text {set : FlagSet} (nonempty : set ≠ ∅) :
    set.text.toList =
      [' ', '|', ' '].intercalate (set.flags.map fun flag => flag.name.toList) := by
  rw [text, isEmpty, beq_false_of_ne nonempty, if_neg (by decide),
    String.toList_intercalate, names, List.map_map]
  rfl

/-- The text of a set is made of the characters of names, spaces and bars. -/
theorem mem_text {set : FlagSet} {char : Char}
    (member : char ∈ set.text.toList) :
    char.isAlphanum = true ∨ char = ' ' ∨ char = '|' := by
  by_cases empty : set = ∅
  · subst empty
    have zero : char = '0' := List.mem_singleton.mp member
    exact .inl (zero ▸ rfl)
  · rw [toList_text empty] at member
    rcases mem_intercalate member with between | ⟨word, among, inside⟩
    · simp only [List.mem_cons, List.not_mem_nil, or_false] at between
      grind
    · obtain ⟨flag, _, rfl⟩ := List.mem_map.mp among
      exact .inl (isAlphanum_of_mem_name (.basic flag) char inside)

theorem isStripped_text (set : FlagSet) : IsStripped set.text.toList := by
  by_cases empty : set = ∅
  · subst empty
    apply IsStripped.of_isAlphanum
    intro char member
    have zero : char = '0' := List.mem_singleton.mp member
    exact zero ▸ rfl
  · rw [toList_text empty]
    apply isStripped_intercalate
    intro word among
    obtain ⟨flag, _, rfl⟩ := List.mem_map.mp among
    exact ⟨by cases flag <;> decide,
      .of_isAlphanum (isAlphanum_of_mem_name (.basic flag))⟩

theorem terms_text {set : FlagSet} {flag : Flag} (member : flag ∈ set) :
    terms set.text.toList = set.flags.map fun flag => flag.name.toList := by
  have nonempty : set ≠ ∅ := by
    rintro rfl
    simp [mem_iff] at member
  rw [toList_text nonempty]
  apply terms_intercalate
  · exact List.ne_nil_of_mem (List.mem_map_of_mem (mem_flags.mpr member))
  · intro word among
    obtain ⟨other, _, rfl⟩ := List.mem_map.mp among
    exact isAlphanum_of_mem_name (.basic other)

theorem parse_text_empty : parse (∅ : FlagSet).text = .ok ∅ := by
  decide +kernel

theorem holds_truncate_iff {set : FlagSet} {position : Nat} :
    set.truncate.holds position = true ↔
      ∃ flag ∈ set, flag.position = position := by
  rw [holds_truncate, Bool.and_eq_true, decide_eq_true_eq]
  constructor
  · rintro ⟨held, known⟩
    obtain ⟨flag, rfl⟩ := Flag.exists_position_eq known
    exact ⟨flag, held, rfl⟩
  · rintro ⟨flag, member, rfl⟩
    exact ⟨member, flag.position_lt⟩

/-- Terms that name exactly the basic classes of a set denote its known
positions. -/
theorem parse_of_terms_name {set : FlagSet} {expression : String}
    (sound : ∀ term ∈ terms expression.toList,
      ∃ flag ∈ set, Names term (.basic flag))
    (complete : ∀ flag ∈ set,
      ∃ term ∈ terms expression.toList, Names term (.basic flag)) :
    parse expression = .ok set.truncate := by
  have notZero : strip expression.toList ≠ ['0'] := by
    intro alone
    have zero : ['0'] ∈ terms expression.toList := by
      simp [terms_eq_zero_of_strip_eq_zero alone]
    obtain ⟨flag, _, names⟩ := sound _ zero
    exact absurd names.one_lt_length (by decide)
  apply Denotes.parse_eq
  refine .union set.truncate notZero ?_ ?_ <;> rw [← terms_eq_splitOn]
  · intro term among
    obtain ⟨flag, _, names⟩ := sound term among
    exact ⟨.basic flag, names⟩
  · intro position
    rw [holds_truncate_iff]
    constructor
    · rintro ⟨flag, held, same⟩
      obtain ⟨term, among, names⟩ := complete flag held
      exact ⟨term, among, .basic flag, names, by simp [NamedClass.flagSet, same]⟩
    · rintro ⟨term, among, named, names, here⟩
      obtain ⟨flag, held, same⟩ := sound term among
      obtain rfl := names.unique same
      exact ⟨flag, held, by simpa [NamedClass.flagSet] using here⟩

/-- Unknown positions are lost on the way through a text with a name. -/
theorem parse_text_of_mem {set : FlagSet} {flag : Flag} (member : flag ∈ set) :
    parse set.text = .ok set.truncate := by
  apply parse_of_terms_name <;> rw [terms_text member]
  · intro term among
    obtain ⟨other, held, rfl⟩ := List.mem_map.mp among
    exact ⟨other, mem_flags.mp held, names_name other⟩
  · intro other held
    exact ⟨other.name.toList, List.mem_map_of_mem (mem_flags.mpr held),
      names_name other⟩

/-- The text of unknown positions alone is empty. -/
theorem parse_text_of_not_mem {set : FlagSet} (nonempty : set ≠ ∅)
    (unknown : ∀ flag, flag ∉ set) : parse set.text = .error .emptyTerm := by
  have none : set.flags = [] := by
    rw [List.eq_nil_iff_forall_not_mem]
    exact fun flag among => unknown flag (mem_flags.mp among)
  have blank : set.text = "" := by
    rw [← String.toList_inj, toList_text nonempty, none]
    rfl
  rw [blank]
  decide +kernel

end FlagSet

end ByteClass
