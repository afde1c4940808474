import ByteClass.QuotedText

/-!
# Escaped text between double quotes

A literal ends at its first double quote that no backslash escapes.  A text that
escapes all its double quotes, and whose backslashes escape nothing behind it,
can therefore stand in a literal: cutting the literal at its end gives the text
back, whatever stands behind it.
-/

namespace ByteClass

/-- Cut a text at its first double quote that no backslash escapes, into what
stands before the quote and what stands behind it. -/
def cutAtQuote : List Char → Option (List Char × List Char)
  | [] => none
  | '\"' :: rest => some ([], rest)
  | '\\' :: char :: rest =>
      (cutAtQuote rest).map fun (inside, behind) =>
        ('\\' :: char :: inside, behind)
  | char :: rest =>
      (cutAtQuote rest).map fun (inside, behind) => (char :: inside, behind)

/-- Every double quote has a backslash that escapes it, and every backslash has a
character that it escapes. -/
inductive IsEscaped : List Char → Prop
  | nil : IsEscaped []
  | plain {char : Char} (notQuote : char ≠ '\"') (notBackslash : char ≠ '\\')
      {text : List Char} (rest : IsEscaped text) : IsEscaped (char :: text)
  | escape (char : Char) {text : List Char} (rest : IsEscaped text) :
      IsEscaped ('\\' :: char :: text)

namespace IsEscaped

variable {text : List Char}

theorem append (escaped : IsEscaped text) {more : List Char}
    (moreEscaped : IsEscaped more) : IsEscaped (text ++ more) := by
  induction escaped with
  | nil => exact moreEscaped
  | plain notQuote notBackslash _ ih => exact .plain notQuote notBackslash ih
  | escape char _ ih => exact .escape char ih

theorem flatMap {write : Char → List Char}
    (each : ∀ char, IsEscaped (write char)) (text : List Char) :
    IsEscaped (text.flatMap write) := by
  induction text with
  | nil => exact .nil
  | cons char text ih => exact (each char).append ih

theorem of_plain (plain : ∀ char ∈ text, char ≠ '\"' ∧ char ≠ '\\') :
    IsEscaped text := by
  induction text with
  | nil => exact .nil
  | cons char text ih =>
      obtain ⟨⟨notQuote, notBackslash⟩, later⟩ := List.forall_mem_cons.mp plain
      exact .plain notQuote notBackslash (ih later)

/-- The first quote behind an escaped text ends it. -/
theorem cutAtQuote_append (escaped : IsEscaped text) (behind : List Char) :
    cutAtQuote (text ++ '\"' :: behind) = some (text, behind) := by
  induction escaped with
  | nil => simp [cutAtQuote]
  | plain notQuote notBackslash _ ih =>
      rw [List.cons_append, cutAtQuote, ih]
      · rfl
      · exact notQuote
      · rintro _ _ rfl
        exact absurd rfl notBackslash
  | escape char _ ih =>
      rw [List.cons_append, List.cons_append, cutAtQuote, ih]
      rfl

end IsEscaped

theorem escaped_of_cutAtQuote {text inside behind : List Char}
    (cut : cutAtQuote text = some (inside, behind)) :
    IsEscaped inside ∧ text = inside ++ '\"' :: behind := by
  fun_induction cutAtQuote text generalizing inside with
  | case1 => cases cut
  | case2 rest =>
      obtain ⟨rfl, rfl⟩ := Prod.mk.inj (Option.some.inj cut)
      exact ⟨.nil, rfl⟩
  | case3 char rest ih =>
      obtain ⟨⟨front, back⟩, found, same⟩ := Option.map_eq_some_iff.mp cut
      obtain ⟨rfl, rfl⟩ := Prod.mk.inj same
      obtain ⟨escaped, rfl⟩ := ih found
      exact ⟨.escape char escaped, rfl⟩
  | case4 char rest notQuote notEscape ih =>
      obtain ⟨⟨front, back⟩, found, same⟩ := Option.map_eq_some_iff.mp cut
      obtain ⟨rfl, rfl⟩ := Prod.mk.inj same
      obtain ⟨escaped, rfl⟩ := ih found
      refine ⟨.plain notQuote ?_ escaped, rfl⟩
      -- a backslash would take the quote behind it or the next character along
      rintro rfl
      cases front with
      | nil => exact notEscape _ _ rfl rfl
      | cons next front => exact notEscape _ _ rfl rfl

/-- A cut is exactly an escaped text in front of a double quote. -/
theorem cutAtQuote_eq_some_iff {text inside behind : List Char} :
    cutAtQuote text = some (inside, behind) ↔
      IsEscaped inside ∧ text = inside ++ '\"' :: behind := by
  constructor
  · exact escaped_of_cutAtQuote
  · rintro ⟨escaped, rfl⟩
    exact escaped.cutAtQuote_append behind

theorem length_lt_of_cutAtQuote {text inside behind : List Char}
    (cut : cutAtQuote text = some (inside, behind)) :
    behind.length < text.length := by
  rw [(cutAtQuote_eq_some_iff.mp cut).2, List.length_append, List.length_cons]
  omega

/-- Digits need no escape. -/
theorem isEscaped_of_digits {text : List Char}
    (digits : ∀ char ∈ text, ∃ digit < 16, char = Nat.digitChar digit) :
    IsEscaped text := by
  apply IsEscaped.of_plain
  intro char written
  obtain ⟨digit, small, rfl⟩ := digits char written
  exact Numeral.forall_digit (by decide) digit small

end ByteClass
