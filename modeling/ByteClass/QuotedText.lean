import ByteClass.Numeral
import ByteClass.UnprintableCharacters

/-!
# Quoted text

A quoted text stands between double quotes on one line.  The quote and the
backslash are escaped by a backslash; tab, line feed, carriage return and the
zero character have a letter each; every other unprintable character is written
by its code point in braces.  `unquote?` reads the escapes back.
-/

namespace ByteClass

/-- The characters that a backslash and one more character stand for, each with
that other character. -/
def letterEscapes : List (Char × Char) :=
  [('\"', '\"'), ('\\', '\\'), ('\t', 't'), ('\n', 'n'), ('\r', 'r'),
    ('\x00', '0')]

/-- The escape by code point. -/
def codePointEscape (char : Char) : List Char :=
  ['\\', 'u', '\x7b'] ++ Nat.toDigits 16 char.toNat ++ ['\x7d']

/-- What stands for a character between the quotes. -/
def quotedCharacter (char : Char) : List Char :=
  match letterEscapes.lookup char with
  | some letter => ['\\', letter]
  | none => if isUnprintable char then codePointEscape char else [char]

def quote (text : String) : String :=
  String.ofList ('\"' :: (text.toList.flatMap quotedCharacter ++ ['\"']))

/-- The character that a letter behind a backslash stands for. -/
def escapedBy? (letter : Char) : Option Char :=
  (letterEscapes.find? fun escape => escape.2 == letter).map Prod.fst

/-- The character with this code point. -/
def characterOfCode? (code : Nat) : Option Char :=
  if code.isValidChar then some (Char.ofNat code) else none

/-- Read what stands behind an opening quote, up to a closing quote at the very
end. -/
def readQuoted? : List Char → Option (List Char)
  | [] => none
  | '\"' :: rest => if rest.isEmpty then some [] else none
  | '\\' :: 'u' :: '\x7b' :: rest => do
      let code ← Numeral.read? 16 (rest.takeWhile (· ≠ '\x7d'))
      let char ← characterOfCode? code
      (readQuoted? (rest.dropWhile (· ≠ '\x7d')).tail).map (char :: ·)
  | '\\' :: letter :: rest => do
      let char ← escapedBy? letter
      (readQuoted? rest).map (char :: ·)
  | char :: rest => (readQuoted? rest).map (char :: ·)
  termination_by text => text.length
  decreasing_by
    · have shorter :=
        (List.dropWhile_sublist (l := rest) fun char => decide (char ≠ '\x7d')).length_le
      simp only [List.length_cons, List.length_tail]
      omega
    · simp only [List.length_cons]
      omega
    · simp

/-- The text that stands between quotes. -/
def unquote? (quoted : String) : Option String :=
  match quoted.toList with
  | '\"' :: rest => (readQuoted? rest).map String.ofList
  | _ => none

theorem characterOfCode?_toNat (char : Char) :
    characterOfCode? char.toNat = some char := by
  have valid : char.toNat.isValidChar := char.valid
  simp [characterOfCode?, valid]

theorem mem_of_lookup {char letter : Char} :
    {escapes : List (Char × Char)} → escapes.lookup char = some letter →
      (char, letter) ∈ escapes
  | (key, value) :: escapes, found => by
      rw [List.lookup_cons] at found
      split at found
      · rename_i same
        simp_all
      · exact List.mem_cons_of_mem _ (mem_of_lookup found)

theorem readQuoted?_codePointEscape (char : Char) (rest : List Char) :
    readQuoted? (codePointEscape char ++ rest) =
      (readQuoted? rest).map (char :: ·) := by
  have digits : ∀ digit ∈ Nat.toDigits 16 char.toNat,
      decide (digit ≠ '\x7d') = true := by
    intro digit written
    obtain ⟨value, small, rfl⟩ := Numeral.mem_toDigits (by decide) written
    have notBrace : Nat.digitChar value ≠ '\x7d' :=
      Numeral.forall_digit (by decide) value small
    exact decide_eq_true notBrace
  simp only [codePointEscape, List.append_assoc, List.cons_append,
    List.nil_append]
  rw [readQuoted?, List.takeWhile_append_of_pos digits,
    List.dropWhile_append_of_pos digits]
  simp [Numeral.read?_toDigits, characterOfCode?_toNat]

/-- A character is written as a letter behind a backslash, by its code point, or
as itself. -/
theorem quotedCharacter_cases (char : Char) :
    (∃ letter, (char, letter) ∈ letterEscapes ∧
      quotedCharacter char = ['\\', letter]) ∨
    quotedCharacter char = codePointEscape char ∨
    (isUnprintable char = false ∧ char ≠ '\"' ∧ char ≠ '\\' ∧
      quotedCharacter char = [char]) := by
  rw [quotedCharacter]
  cases found : letterEscapes.lookup char with
  | some letter => exact .inl ⟨letter, mem_of_lookup found, rfl⟩
  | none =>
      dsimp only
      split
      · exact .inr (.inl rfl)
      · rename_i printable
        refine .inr (.inr ⟨Bool.eq_false_iff.mpr printable, ?_, ?_, rfl⟩)
        · rintro rfl
          simp [letterEscapes] at found
        · rintro rfl
          simp [letterEscapes] at found

theorem readQuoted?_quotedCharacter (char : Char) (rest : List Char) :
    readQuoted? (quotedCharacter char ++ rest) =
      (readQuoted? rest).map (char :: ·) := by
  rcases quotedCharacter_cases char with
    ⟨letter, escape, written⟩ | written | ⟨_, notQuote, notBackslash, written⟩
  · rw [written]
    simp only [letterEscapes, List.mem_cons, Prod.mk.injEq, List.not_mem_nil,
      or_false] at escape
    rcases escape with ⟨rfl, rfl⟩ | ⟨rfl, rfl⟩ | ⟨rfl, rfl⟩ | ⟨rfl, rfl⟩ |
      ⟨rfl, rfl⟩ | ⟨rfl, rfl⟩ <;>
    simp [readQuoted?, escapedBy?, letterEscapes]
  · rw [written]
    exact readQuoted?_codePointEscape char rest
  · rw [written, List.singleton_append, readQuoted?] <;> simp_all

theorem readQuoted?_flatMap (text : List Char) :
    readQuoted? (text.flatMap quotedCharacter ++ ['\"']) = some text := by
  induction text with
  | nil => simp [readQuoted?]
  | cons char text ih =>
      rw [List.flatMap_cons, List.append_assoc, readQuoted?_quotedCharacter, ih]
      rfl

/-- Quoted texts read back. -/
@[simp]
theorem unquote?_quote (text : String) : unquote? (quote text) = some text := by
  simp [unquote?, quote, readQuoted?_flatMap]

end ByteClass
