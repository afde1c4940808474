import ByteClass.Proofs.CommandOutcomes
import ByteClass.Proofs.EscapedText

/-!
# Reports of errors

A quoted text stands on one line, its two outer quotes are the only ones that
are not escaped, and it reads back.  A report therefore tells which error
it is about: messages stand in quotes, errors of expressions begin with their
kind, and a name in such an error is quoted again.  A failing command writes one
line, from which its error is known.
-/

namespace ByteClass

theorem isControlCode_digitChar {digit : Nat} (small : digit < 16) :
    isControlCode (Nat.digitChar digit) = false :=
  Numeral.forall_digit (by decide) digit small

theorem isControlCode_of_mem_codePointEscape {char written : Char}
    (member : written ∈ codePointEscape char) : isControlCode written = false := by
  simp only [codePointEscape, List.mem_append, List.mem_cons, List.not_mem_nil,
    or_false] at member
  rcases member with ((rfl | rfl | rfl) | digit) | rfl
  · decide
  · decide
  · decide
  · obtain ⟨value, small, rfl⟩ := Numeral.mem_toDigits (by decide) digit
    exact isControlCode_digitChar small
  · decide

/-- Control codes are unprintable, so none of them is written as itself. -/
theorem isControlCode_of_mem_quotedCharacter {char written : Char}
    (member : written ∈ quotedCharacter char) : isControlCode written = false := by
  rcases quotedCharacter_cases char with
    ⟨letter, escape, form⟩ | form | ⟨printable, _, _, form⟩
  · have letters : ∀ escape ∈ letterEscapes,
        isControlCode escape.2 = false := by
      decide
    simp only [form, List.mem_cons, List.not_mem_nil, or_false] at member
    rcases member with rfl | rfl
    · decide
    · exact letters _ escape
  · rw [form] at member
    exact isControlCode_of_mem_codePointEscape member
  · rw [form] at member
    rw [List.mem_singleton.mp member]
    simp only [isUnprintable, Bool.or_eq_false_iff] at printable
    exact printable.1

theorem isEscaped_codePointEscape (char : Char) :
    IsEscaped (codePointEscape char) := by
  have digits : IsEscaped (Nat.toDigits 16 char.toNat) :=
    isEscaped_of_digits fun _ => Numeral.mem_toDigits (by decide)
  have brace : IsEscaped ['\x7d'] := .plain (by decide) (by decide) .nil
  exact .escape 'u' (.plain (by decide) (by decide) (digits.append brace))

theorem isEscaped_quotedCharacter (char : Char) :
    IsEscaped (quotedCharacter char) := by
  rcases quotedCharacter_cases char with
    ⟨letter, _, form⟩ | form | ⟨_, notQuote, notBackslash, form⟩
  · rw [form]
    exact .escape letter .nil
  · rw [form]
    exact isEscaped_codePointEscape char
  · rw [form]
    exact .plain notQuote notBackslash .nil

theorem toList_quote (text : String) :
    (quote text).toList =
      '\"' :: (text.toList.flatMap quotedCharacter ++ ['\"']) := by
  rw [quote, String.toList_ofList]

theorem quote_injective : Function.Injective quote := by
  intro first second same
  have read := unquote?_quote first
  rw [same, unquote?_quote] at read
  exact (Option.some.inj read).symm

theorem newline_not_mem_quote (text : String) : '\n' ∉ (quote text).toList := by
  rw [toList_quote, List.mem_cons, List.mem_append, List.mem_flatMap]
  rintro (first | ⟨char, _, written⟩ | last)
  · cases first
  · exact absurd (isControlCode_of_mem_quotedCharacter written) (by decide)
  · cases List.mem_singleton.mp last

namespace ExpressionError

theorem debugText_injective : Function.Injective debugText := by
  intro first second same
  rw [← String.toList_inj] at same
  cases first with
  | emptyTerm =>
      cases second with
      | emptyTerm => rfl
      | unknownName name => simp [debugText] at same
  | unknownName name =>
      cases second with
      | emptyTerm => simp [debugText] at same
      | unknownName other =>
          simp [debugText, String.toList_inj, quote_injective.eq_iff] at same
          rw [same]

/-- The kind of an error stands in front, not a quote. -/
theorem debugText_ne_quote (error : ExpressionError) (text : String) :
    error.debugText ≠ quote text := by
  intro same
  rw [← String.toList_inj, toList_quote] at same
  cases error with
  | emptyTerm => simp [debugText] at same
  | unknownName name => simp [debugText] at same

theorem newline_not_mem_debugText (error : ExpressionError) :
    '\n' ∉ error.debugText.toList := by
  cases error with
  | emptyTerm => decide
  | unknownName name =>
      have name := newline_not_mem_quote name
      simp [debugText, name]

end ExpressionError

namespace CommandError

/-- The message of an error that is not one of an expression. -/
def message? : CommandError → Option String
  | .expressionMissing => some "--select requires a flag expression"
  | .expression _ => none
  | .jsonMissing => some "json output requires the json feature"
  | .unrecognizedArgument argument =>
      some ("unrecognized argument: " ++ argument)

variable {error other : CommandError} {message : String}

theorem debugText_of_message? (has : error.message? = some message) :
    error.debugText = quote message := by
  cases error <;> cases has <;> rfl

/-- Errors of expressions have no message of their own. -/
theorem message?_eq_none_iff :
    error.message? = none ↔ ∃ inner, error = .expression inner := by
  cases error <;> simp [message?]

/-- The first characters of the three messages differ, and an argument stands at
the end of its message. -/
theorem eq_of_message? (has : error.message? = some message)
    (otherHas : other.message? = some message) : error = other := by
  cases error <;> cases other <;>
    simp only [message?, Option.some.injEq, reduceCtorEq] at has otherHas <;>
    subst has <;> simp [← String.toList_inj] at otherHas ⊢
  exact otherHas.symm

theorem debugText_injective : Function.Injective debugText := by
  intro first second same
  cases firstHas : first.message? with
  | some message =>
      rw [debugText_of_message? firstHas] at same
      cases secondHas : second.message? with
      | some otherMessage =>
          rw [debugText_of_message? secondHas, quote_injective.eq_iff] at same
          exact eq_of_message? firstHas (same ▸ secondHas)
      | none =>
          obtain ⟨inner, rfl⟩ := message?_eq_none_iff.mp secondHas
          exact absurd same.symm (inner.debugText_ne_quote message)
  | none =>
      obtain ⟨inner, rfl⟩ := message?_eq_none_iff.mp firstHas
      cases secondHas : second.message? with
      | some message =>
          rw [debugText_of_message? secondHas] at same
          exact absurd same (inner.debugText_ne_quote message)
      | none =>
          obtain ⟨otherInner, rfl⟩ := message?_eq_none_iff.mp secondHas
          exact congrArg expression (ExpressionError.debugText_injective same)

theorem newline_not_mem_debugText (error : CommandError) :
    '\n' ∉ error.debugText.toList := by
  cases has : error.message? with
  | some message =>
      rw [debugText_of_message? has]
      exact newline_not_mem_quote message
  | none =>
      obtain ⟨inner, rfl⟩ := message?_eq_none_iff.mp has
      exact inner.newline_not_mem_debugText

end CommandError

namespace Build

variable {build : Build} {arguments : List String}

/-- A run that does not succeed has an error and reports it. -/
theorem exists_error (failed : (build.run arguments).exitCode ≠ 0) :
    ∃ error, ((build.print arguments).run "").1 = .error error ∧
      (build.run arguments).standardError =
        "Error: " ++ error.debugText ++ "\n" := by
  rw [run] at failed ⊢
  generalize (build.print arguments).run "" = result at failed ⊢
  obtain ⟨result, printed⟩ := result
  cases result with
  | ok => exact absurd rfl failed
  | error error => exact ⟨error, rfl, rfl⟩

end Build

/-- A quoted text stands between two double quotes, the second of which is the
first that is not escaped, has no control code inside and reads back.  Hence the
diagnostic texts of errors tell them apart, and what a failing command writes is
one line that tells its error. -/
theorem error_reports_unambiguous :
    (∀ text : String, ∃ body,
      (quote text).toList = '\"' :: (body ++ ['\"']) ∧
        cutAtQuote (body ++ ['\"']) = some (body, []) ∧
        (∀ char ∈ body, isControlCode char = false) ∧
        unquote? (quote text) = some text) ∧
    (∀ expression otherExpression error otherError,
      FlagSet.parse expression = .error error →
      FlagSet.parse otherExpression = .error otherError →
      (error.debugText = otherError.debugText ↔ error = otherError)) ∧
    (∀ (build : Build) (arguments : List String),
      (build.run arguments).exitCode ≠ 0 →
      ∃ line, (build.run arguments).standardError.toList = line ++ ['\n'] ∧
        '\n' ∉ line) ∧
    ∀ (build otherBuild : Build) (arguments otherArguments : List String),
      (build.run arguments).exitCode ≠ 0 →
      (otherBuild.run otherArguments).exitCode ≠ 0 →
      (build.run arguments).standardError =
        (otherBuild.run otherArguments).standardError →
      ∃ error, ((build.print arguments).run "").1 = .error error ∧
        ((otherBuild.print otherArguments).run "").1 = .error error := by
  refine ⟨fun text => ?_, fun _ _ error otherError _ _ => ?_,
    fun build arguments failed => ?_,
    fun build otherBuild arguments otherArguments failed otherFailed same => ?_⟩
  · refine ⟨_, toList_quote text, IsEscaped.cutAtQuote_append ?_ [], ?_,
      unquote?_quote text⟩
    · exact .flatMap isEscaped_quotedCharacter text.toList
    · intro char member
      obtain ⟨_, _, written⟩ := List.mem_flatMap.mp member
      exact isControlCode_of_mem_quotedCharacter written
  · exact ExpressionError.debugText_injective.eq_iff
  · obtain ⟨error, _, written⟩ := Build.exists_error failed
    refine ⟨("Error: " ++ error.debugText).toList, ?_, ?_⟩
    · rw [written, String.toList_append]
      rfl
    · have report := error.newline_not_mem_debugText
      simp [report]
  · obtain ⟨error, result, written⟩ := Build.exists_error failed
    obtain ⟨otherError, otherResult, otherWritten⟩ :=
      Build.exists_error otherFailed
    rw [written, otherWritten, ← String.toList_inj] at same
    simp [String.toList_inj, CommandError.debugText_injective.eq_iff] at same
    exact ⟨error, result, same ▸ otherResult⟩

theorem error_reports_unambiguous_zero_beside_name :
    ExpressionError.debugText .emptyTerm ≠
        ExpressionError.debugText (.unknownName "Empty") ∧
      (∃ line, (Build.minimal.run ["--json"]).standardError.toList =
        line ++ ['\n'] ∧ '\n' ∉ line) ∧
      ∃ error, ((Build.full.print ["--select", "0|0"]).run "").1 = .error error ∧
        ((Build.minimal.print ["--select", "upper| 0"]).run "").1 =
          .error error := by
  obtain ⟨_, texts, oneLine, sameError⟩ := error_reports_unambiguous
  have blank : FlagSet.parse "" = .error .emptyTerm := by rfl
  have named : FlagSet.parse "Empty" = .error (.unknownName "Empty") := by rfl
  have zeros : FlagSet.parse "0|0" = .error (.unknownName "0") := by rfl
  have zero : FlagSet.parse "upper| 0" = .error (.unknownName "0") := by rfl
  have first : Build.full.Yields ["--select", "0|0"] _ :=
    .selectionRefused zeros []
  have second : Build.minimal.Yields ["--select", "upper| 0"] _ :=
    .selectionRefused zero []
  have exported : Build.minimal.Yields ["--json"] _ := .exportMissing rfl []
  refine ⟨fun same => ?_, oneLine .minimal ["--json"] ?_,
    sameError .full .minimal _ _ ?_ ?_ ?_⟩
  · cases (texts "" "Empty" _ _ blank named).mp same
  · rw [exported.run_eq]
    decide
  · rw [first.run_eq]
    decide
  · rw [second.run_eq]
    decide
  · rw [first.run_eq, second.run_eq]

end ByteClass
