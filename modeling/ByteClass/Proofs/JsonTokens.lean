import Mathlib.Data.List.Chain
import ByteClass.JsonText
import ByteClass.Proofs.EscapedText

/-!
# The tokens of a JSON text

A text writes tokens if it holds their texts in order, with blanks in front of
some of them; both layouts do.  Without the blanks outside its string literals
such a text is the compact one, and a reader that skips blanks finds its tokens
again, provided that no two numbers stand side by side.
-/

namespace ByteClass

/-- The blanks that may stand between tokens. -/
def isJsonBlank (char : Char) : Bool :=
  char == ' ' || char == '\t' || char == '\n' || char == '\r'

theorem isJsonBlank_of_isDigit {char : Char} (digit : char.isDigit = true) :
    isJsonBlank char = false := by
  rw [← Bool.not_eq_true]
  intro blank
  simp only [isJsonBlank, Bool.or_eq_true, beq_iff_eq] at blank
  rcases blank with ((rfl | rfl) | rfl) | rfl <;> cases digit

/-- The text without the blanks outside its string literals, from a place inside
or outside a literal. -/
def deleteBlanksFrom : (inLiteral : Bool) → List Char → List Char
  | _, [] => []
  | false, '\"' :: text => '\"' :: deleteBlanksFrom true text
  | false, char :: text =>
      if isJsonBlank char then deleteBlanksFrom false text
      else char :: deleteBlanksFrom false text
  | true, '\"' :: text => '\"' :: deleteBlanksFrom false text
  | true, '\\' :: char :: text => '\\' :: char :: deleteBlanksFrom true text
  | true, char :: text => char :: deleteBlanksFrom true text

def deleteBlanks (text : String) : String :=
  String.ofList (deleteBlanksFrom false text.toList)

/-- The character that a letter behind a backslash stands for. -/
def jsonEscapedBy? : Char → Option Char
  | '\"' => some '\"'
  | '\\' => some '\\'
  | '/' => some '/'
  | 'b' => some '\x08'
  | 'f' => some '\x0c'
  | 'n' => some '\n'
  | 'r' => some '\r'
  | 't' => some '\t'
  | _ => none

/-- Read what stands between the quotes of a string literal.  Control codes have
to be escaped.  Four hexadecimal digits stand for one character; halves of
surrogate pairs are refused. -/
def readJsonString? : List Char → Option (List Char)
  | [] => some []
  | '\\' :: 'u' :: first :: second :: third :: fourth :: text => do
      let code ←
        Numeral.read? 16 ([first, second, third, fourth].map Char.toLower)
      let char ← characterOfCode? code
      (readJsonString? text).map (char :: ·)
  | '\\' :: letter :: text => do
      let char ← jsonEscapedBy? letter
      (readJsonString? text).map (char :: ·)
  | char :: text =>
      if char = '\\' ∨ char.toNat < 0x20 then none
      else (readJsonString? text).map (char :: ·)

/-- Read the digits of a number.  A zero in front has to stand alone. -/
def readJsonNumber? (digits : List Char) : Option Nat :=
  if digits.head? = some '0' ∧ digits ≠ ['0'] then none
  else Numeral.read? 10 digits

def punctuation? : Char → Option JsonToken
  | '[' => some .openArray
  | ']' => some .closeArray
  | '\x7b' => some .openObject
  | '\x7d' => some .closeObject
  | ',' => some .comma
  | ':' => some .colon
  | _ => none

/-- Read the token at the start of a text, up to what stands behind it. -/
def readToken? : List Char → Option (JsonToken × List Char)
  | [] => none
  | char :: text =>
      if char.isDigit then do
        let number ← readJsonNumber? ((char :: text).takeWhile Char.isDigit)
        some (.number number, (char :: text).dropWhile Char.isDigit)
      else if char = '\"' then do
        let (inside, behind) ← cutAtQuote text
        let string ← readJsonString? inside
        some (.string (String.ofList string), behind)
      else if char = 'n' ∧ text.take 3 = ['u', 'l', 'l'] then
        some (.null, text.drop 3)
      else
        (punctuation? char).map fun token => (token, text)

theorem length_lt_of_readToken? {text rest : List Char} {token : JsonToken}
    (read : readToken? text = some (token, rest)) :
    rest.length < text.length := by
  cases text with
  | nil => cases read
  | cons char text =>
      rw [readToken?] at read
      split at read
      · rename_i digit
        obtain ⟨number, _, same⟩ := Option.bind_eq_some_iff.mp read
        obtain ⟨_, rfl⟩ := Prod.mk.inj (Option.some.inj same)
        rw [List.dropWhile_cons_of_pos digit]
        have bound := (List.dropWhile_sublist (l := text) Char.isDigit).length_le
        exact Nat.lt_succ_of_le bound
      split at read
      · obtain ⟨⟨inside, behind⟩, cut, more⟩ := Option.bind_eq_some_iff.mp read
        obtain ⟨string, _, same⟩ := Option.bind_eq_some_iff.mp more
        obtain ⟨_, rfl⟩ := Prod.mk.inj (Option.some.inj same)
        exact Nat.lt_succ_of_lt (length_lt_of_cutAtQuote cut)
      split at read
      · obtain ⟨_, rfl⟩ := Prod.mk.inj (Option.some.inj read)
        rw [List.length_drop, List.length_cons]
        omega
      · obtain ⟨_, _, same⟩ := Option.map_eq_some_iff.mp read
        obtain ⟨_, rfl⟩ := Prod.mk.inj same
        exact Nat.lt_succ_self _

/-- Read all tokens of a text. -/
def readTokens? (text : List Char) : Option (List JsonToken) :=
  if (text.dropWhile isJsonBlank).isEmpty then
    some []
  else
    match _ : readToken? (text.dropWhile isJsonBlank) with
    | none => none
    | some (token, rest) => (readTokens? rest).map (token :: ·)
  termination_by text.length
  decreasing_by
    have shorter := length_lt_of_readToken? ‹_›
    have bound := (List.dropWhile_sublist (l := text) isJsonBlank).length_le
    exact Nat.lt_of_lt_of_le shorter bound

/-- The text holds the texts of the tokens in order, with blanks between them. -/
inductive Writes : List JsonToken → List Char → Prop
  | nil : Writes [] []
  | cons {gap : List Char} (blank : ∀ char ∈ gap, isJsonBlank char = true)
      (token : JsonToken) {tokens : List JsonToken} {text : List Char}
      (rest : Writes tokens text) :
      Writes (token :: tokens) (gap ++ (token.text.toList ++ text))

theorem Writes.beside (token : JsonToken) {tokens : List JsonToken}
    {text : List Char} (rest : Writes tokens text) :
    Writes (token :: tokens) (token.text.toList ++ text) :=
  .cons (List.forall_mem_nil _) token rest

namespace JsonToken

theorem toList_join_map_text (tokens : List JsonToken) :
    (String.join (tokens.map text)).toList =
      tokens.flatMap fun token => token.text.toList := by
  rw [String.toList_join, List.flatMap_map]

theorem writes_compact (tokens : List JsonToken) :
    Writes tokens (String.join (tokens.map text)).toList := by
  rw [toList_join_map_text]
  induction tokens with
  | nil => exact .nil
  | cons token tokens ih => exact .beside token ih

theorem isJsonBlank_of_mem_gap {depth : Nat} {before after : JsonToken}
    {char : Char} (member : char ∈ (gap depth before after).toList) :
    isJsonBlank char = true := by
  have line : ∀ depth, char ∈ (lineBreak depth).toList → isJsonBlank char = true := by
    intro depth member
    rw [lineBreak, String.toList_ofList, List.mem_cons, List.mem_replicate] at member
    rcases member with rfl | ⟨_, rfl⟩ <;> decide
  rw [gap] at member
  split at member
  · cases member
  split at member
  · exact line _ member
  split at member
  · exact line _ member
  split at member
  · rw [List.mem_singleton.mp member]
    decide
  · cases member

theorem writes_indentedRest (depth : Nat) (before : JsonToken)
    (tokens : List JsonToken) :
    Writes tokens (String.join (indentedRest depth before tokens)).toList := by
  induction tokens generalizing depth before with
  | nil => exact .nil
  | cons token tokens ih =>
      rw [indentedRest, String.join_cons, String.join_cons, String.toList_append,
        String.toList_append]
      exact .cons (fun _ => isJsonBlank_of_mem_gap) token (ih _ token)

theorem writes_indented (tokens : List JsonToken) :
    Writes tokens (String.join (indented tokens)).toList := by
  cases tokens with
  | nil => exact .nil
  | cons token tokens =>
      rw [indented, String.join_cons, String.toList_append]
      exact .beside token (writes_indentedRest _ token tokens)

def isNumber : JsonToken → Bool
  | number _ => true
  | _ => false

/-- Two numbers side by side would be read as one. -/
def Apart (before after : JsonToken) : Prop :=
  ¬ (before.isNumber = true ∧ after.isNumber = true)

theorem isDigit_of_mem_text_number {value : Nat} {char : Char}
    (member : char ∈ (number value).text.toList) : char.isDigit = true := by
  rw [text, Numeral.inBase, String.toList_ofList] at member
  exact Nat.isDigit_of_mem_toDigits (by decide) (by decide) member

/-- No token begins with a blank, and only a number begins with a digit. -/
theorem exists_text_eq_cons (token : JsonToken) :
    ∃ char rest, token.text.toList = char :: rest ∧
      isJsonBlank char = false ∧ char.isDigit = token.isNumber := by
  cases token with
  | number value =>
      obtain ⟨digit, digits, written⟩ :=
        List.exists_cons_of_ne_nil (Nat.toDigits_ne_nil (n := value) (b := 10))
      have isDigit : digit.isDigit = true :=
        Nat.isDigit_of_mem_toDigits (by decide) (by decide)
          (written ▸ List.mem_cons_self)
      rw [text, Numeral.inBase, String.toList_ofList]
      exact ⟨digit, digits, written, isJsonBlank_of_isDigit isDigit, isDigit⟩
  | string text =>
      rw [JsonToken.text, String.toList_ofList]
      exact ⟨_, _, rfl, rfl, rfl⟩
  | openArray => exact ⟨_, _, rfl, rfl, rfl⟩
  | closeArray => exact ⟨_, _, rfl, rfl, rfl⟩
  | openObject => exact ⟨_, _, rfl, rfl, rfl⟩
  | closeObject => exact ⟨_, _, rfl, rfl, rfl⟩
  | comma => exact ⟨_, _, rfl, rfl, rfl⟩
  | colon => exact ⟨_, _, rfl, rfl, rfl⟩
  | null => exact ⟨_, _, rfl, rfl, rfl⟩

end JsonToken

section DeleteBlanks

variable {front gap inside : List Char}

theorem deleteBlanksFrom_gap (blank : ∀ char ∈ gap, isJsonBlank char = true)
    (rest : List Char) :
    deleteBlanksFrom false (gap ++ rest) = deleteBlanksFrom false rest := by
  induction gap with
  | nil => rfl
  | cons char gap ih =>
      obtain ⟨here, later⟩ := List.forall_mem_cons.mp blank
      rw [List.cons_append, deleteBlanksFrom, if_pos here, ih later]
      rintro rfl
      cases here

theorem deleteBlanksFrom_plain
    (plain : (front.all fun char => char != '\"' && !isJsonBlank char) = true)
    (rest : List Char) :
    deleteBlanksFrom false (front ++ rest) =
      front ++ deleteBlanksFrom false rest := by
  induction front with
  | nil => rfl
  | cons char front ih =>
      simp only [List.all_cons, Bool.and_eq_true, bne_iff_ne,
        Bool.not_eq_eq_eq_not, Bool.not_true] at plain
      obtain ⟨⟨notQuote, notBlank⟩, later⟩ := plain
      rw [List.cons_append, deleteBlanksFrom, if_neg (by simp [notBlank]), ih later]
      · rfl
      · exact notQuote

/-- A literal is kept up to its end. -/
theorem deleteBlanksFrom_literal (escaped : IsEscaped inside)
    (rest : List Char) :
    deleteBlanksFrom true (inside ++ '\"' :: rest) =
      inside ++ '\"' :: deleteBlanksFrom false rest := by
  induction escaped with
  | nil => simp [deleteBlanksFrom]
  | plain notQuote notBackslash _ ih =>
      rw [List.cons_append, deleteBlanksFrom, ih]
      · rfl
      · exact notQuote
      · rintro _ _ rfl
        exact absurd rfl notBackslash
  | escape char _ ih =>
      rw [List.cons_append, List.cons_append, deleteBlanksFrom, ih]
      rfl

end DeleteBlanks

/-- A character is written as a letter behind a backslash, by its code, or as
itself. -/
theorem jsonCharacter_cases (char : Char) :
    (∃ letter, jsonCharacter char = ['\\', letter] ∧
      jsonEscapedBy? letter = some char) ∨
    (char.toNat < 0x20 ∧ jsonCharacter char =
      '\\' :: 'u' :: (Nat.toDigits 16 char.toNat).leftpad 4 '0') ∨
    (char ≠ '\"' ∧ char ≠ '\\' ∧ ¬ char.toNat < 0x20 ∧
      jsonCharacter char = [char]) := by
  unfold jsonCharacter
  split
  · exact .inl ⟨_, rfl, rfl⟩
  · exact .inl ⟨_, rfl, rfl⟩
  · exact .inl ⟨_, rfl, rfl⟩
  · exact .inl ⟨_, rfl, rfl⟩
  · exact .inl ⟨_, rfl, rfl⟩
  · exact .inl ⟨_, rfl, rfl⟩
  · exact .inl ⟨_, rfl, rfl⟩
  · rename_i notQuote notBackslash _ _ _ _ _
    split
    · rename_i low
      exact .inr (.inl ⟨low, rfl⟩)
    · rename_i high
      exact .inr (.inr ⟨notQuote, notBackslash, high, rfl⟩)

theorem isEscaped_jsonCharacter (char : Char) : IsEscaped (jsonCharacter char) := by
  rcases jsonCharacter_cases char with
    ⟨letter, written, _⟩ | ⟨_, written⟩ | ⟨notQuote, notBackslash, _, written⟩
  · rw [written]
    exact .escape letter .nil
  · rw [written]
    exact .escape 'u' (isEscaped_of_digits fun _ => Numeral.mem_leftpad (by decide))
  · rw [written]
    exact .plain notQuote notBackslash .nil

namespace JsonToken

/-- A token loses no character, and it ends outside a literal. -/
theorem deleteBlanksFrom_text (token : JsonToken) (rest : List Char) :
    deleteBlanksFrom false (token.text.toList ++ rest) =
      token.text.toList ++ deleteBlanksFrom false rest := by
  cases token with
  | number value =>
      apply deleteBlanksFrom_plain
      rw [List.all_eq_true]
      intro char member
      have digit := isDigit_of_mem_text_number member
      rw [isJsonBlank_of_isDigit digit, Bool.not_false, Bool.and_true, bne_iff_ne]
      rintro rfl
      cases digit
  | string text =>
      rw [JsonToken.text, String.toList_ofList, List.cons_append,
        List.append_assoc, List.singleton_append, deleteBlanksFrom,
        deleteBlanksFrom_literal (.flatMap isEscaped_jsonCharacter _),
        List.cons_append, List.append_assoc, List.singleton_append]
  | openArray => exact deleteBlanksFrom_plain rfl rest
  | closeArray => exact deleteBlanksFrom_plain rfl rest
  | openObject => exact deleteBlanksFrom_plain rfl rest
  | closeObject => exact deleteBlanksFrom_plain rfl rest
  | comma => exact deleteBlanksFrom_plain rfl rest
  | colon => exact deleteBlanksFrom_plain rfl rest
  | null => exact deleteBlanksFrom_plain rfl rest

end JsonToken

/-- Without its blanks a text holds the tokens side by side. -/
theorem Writes.deleteBlanksFrom_eq {tokens : List JsonToken} {text : List Char}
    (writes : Writes tokens text) :
    deleteBlanksFrom false text =
      (String.join (tokens.map JsonToken.text)).toList := by
  rw [JsonToken.toList_join_map_text]
  induction writes with
  | nil => simp [deleteBlanksFrom]
  | cons blank token rest ih =>
      rw [deleteBlanksFrom_gap blank, token.deleteBlanksFrom_text, ih,
        List.flatMap_cons]

section ReadStrings

/-- Written digits are lower-case. -/
theorem map_toLower_leftpad (width number : Nat) :
    ((Nat.toDigits 16 number).leftpad width '0').map Char.toLower =
      (Nat.toDigits 16 number).leftpad width '0' := by
  apply List.map_congr_left _ |>.trans (List.map_id _)
  intro char member
  obtain ⟨digit, small, rfl⟩ := Numeral.mem_leftpad (by decide) member
  exact Numeral.forall_digit (by decide) digit small

/-- Four digits that stand for a control code. -/
theorem readJsonString?_digits {char : Char} (low : char.toNat < 0x20)
    (rest : List Char) :
    readJsonString? ('\\' :: 'u' ::
        ((Nat.toDigits 16 char.toNat).leftpad 4 '0' ++ rest)) =
      (readJsonString? rest).map (char :: ·) := by
  have short : (Nat.toDigits 16 char.toNat).length ≤ 4 :=
    (Nat.length_toDigits_le_iff (by decide) (by decide)).mpr (by omega)
  have four : ((Nat.toDigits 16 char.toNat).leftpad 4 '0').length = 4 := by
    rw [List.length_leftpad, Nat.max_eq_left short]
  have lower := map_toLower_leftpad 4 char.toNat
  have value := Numeral.read?_leftpad (by decide) (Nat.le_refl 16) 4 char.toNat
  obtain ⟨first, second, third, fourth, digits⟩ := List.length_eq_four.mp four
  rw [digits] at lower value ⊢
  simp only [List.cons_append, List.nil_append, readJsonString?]
  rw [lower, value]
  simp [characterOfCode?_toNat]

theorem readJsonString?_letter {char letter : Char}
    (escapes : jsonEscapedBy? letter = some char) (rest : List Char) :
    readJsonString? ('\\' :: letter :: rest) =
      (readJsonString? rest).map (char :: ·) := by
  rw [readJsonString?, escapes]
  · rfl
  · rintro _ _ _ _ _ rfl
    cases escapes

/-- A written character reads back, in front of any text. -/
theorem readJsonString?_jsonCharacter (char : Char) (rest : List Char) :
    readJsonString? (jsonCharacter char ++ rest) =
      (readJsonString? rest).map (char :: ·) := by
  rcases jsonCharacter_cases char with
    ⟨letter, written, escapes⟩ | ⟨low, written⟩ | ⟨_, notBackslash, high, written⟩
  · rw [written]
    exact readJsonString?_letter escapes rest
  · rw [written]
    exact readJsonString?_digits low rest
  · rw [written, List.singleton_append, readJsonString?, if_neg]
    · exact fun forbidden => forbidden.elim notBackslash high
    · rintro _ _ _ _ _ rfl
      exact absurd rfl notBackslash
    · rintro _ _ rfl
      exact absurd rfl notBackslash

theorem readJsonString?_flatMap (text : List Char) :
    readJsonString? (text.flatMap jsonCharacter) = some text := by
  induction text with
  | nil => simp [readJsonString?]
  | cons char text ih =>
      rw [List.flatMap_cons, readJsonString?_jsonCharacter, ih]
      rfl

theorem readJsonNumber?_toDigits (value : Nat) :
    readJsonNumber? (Nat.toDigits 10 value) = some value := by
  rw [readJsonNumber?, if_neg]
  · exact Numeral.read?_toDigits (by decide) (by decide) value
  · rintro ⟨zero, several⟩
    obtain rfl := Numeral.eq_zero_of_head?_toDigits (by decide) (by decide) zero
    exact several rfl

end ReadStrings

namespace JsonToken

/-- What stands behind a token is not read with it, except for a digit behind a
number. -/
theorem readToken?_text (token : JsonToken) {rest : List Char}
    (ends : token.isNumber = true → ∀ char ∈ rest.head?, char.isDigit = false) :
    readToken? (token.text.toList ++ rest) = some (token, rest) := by
  cases token with
  | number value =>
      have digits : ∀ char ∈ (number value).text.toList, char.isDigit = true :=
        fun _ => isDigit_of_mem_text_number
      have none : rest.takeWhile Char.isDigit = [] ∧
          rest.dropWhile Char.isDigit = rest := by
        cases rest with
        | nil => exact ⟨rfl, rfl⟩
        | cons char rest => simp [ends rfl char rfl]
      have taken : ((number value).text.toList ++ rest).takeWhile Char.isDigit =
          Nat.toDigits 10 value := by
        rw [List.takeWhile_append_of_pos digits, none.1, List.append_nil]
        exact String.toList_ofList
      have dropped : ((number value).text.toList ++ rest).dropWhile Char.isDigit =
          rest := by
        rw [List.dropWhile_append_of_pos digits, none.2]
      obtain ⟨char, more, written, _, number⟩ := (number value).exists_text_eq_cons
      have digit : char.isDigit = true := number
      rw [written, List.cons_append] at taken dropped ⊢
      rw [readToken?, if_pos digit, taken, dropped, readJsonNumber?_toDigits]
      rfl
  | string text =>
      rw [JsonToken.text, String.toList_ofList, List.cons_append,
        List.append_assoc, List.singleton_append, readToken?,
        if_neg (by decide), if_pos rfl,
        (IsEscaped.flatMap isEscaped_jsonCharacter _).cutAtQuote_append]
      simp [readJsonString?_flatMap]
  | openArray => rfl
  | closeArray => rfl
  | openObject => rfl
  | closeObject => rfl
  | comma => rfl
  | colon => rfl
  | null => rfl

end JsonToken

section ReadTokens

variable {gap text : List Char}

theorem dropWhile_gap (blank : ∀ char ∈ gap, isJsonBlank char = true)
    (token : JsonToken) (text : List Char) :
    (gap ++ (token.text.toList ++ text)).dropWhile isJsonBlank =
      token.text.toList ++ text := by
  obtain ⟨char, rest, written, notBlank, _⟩ := token.exists_text_eq_cons
  rw [List.dropWhile_append_of_pos blank, written, List.cons_append,
    List.dropWhile_cons_of_neg (by simp [notBlank])]

/-- One token is read at the start, behind blanks. -/
theorem readTokens?_of_readToken? {token : JsonToken} {rest : List Char}
    (read : readToken? (text.dropWhile isJsonBlank) = some (token, rest)) :
    readTokens? text = (readTokens? rest).map (token :: ·) := by
  rw [readTokens?, if_neg]
  · split
    · rename_i refused
      rw [read] at refused
      cases refused
    · rename_i found
      rw [read] at found
      cases found
      rfl
  · rw [List.isEmpty_iff]
    intro finished
    rw [finished] at read
    cases read

/-- A text begins with a digit only if its first token is a number. -/
theorem Writes.isDigit_head? {tokens : List JsonToken}
    (writes : Writes tokens text)
    (first : ∀ token ∈ tokens.head?, token.isNumber = false) :
    ∀ char ∈ text.head?, char.isDigit = false := by
  cases writes with
  | nil => rintro _ ⟨⟩
  | @cons gap blank token tokens text rest =>
      cases gap with
      | nil =>
          obtain ⟨char, more, written, _, digit⟩ := token.exists_text_eq_cons
          rw [List.nil_append, written]
          rintro _ ⟨⟩
          rw [digit, first token rfl]
      | cons char gap =>
          rintro _ ⟨⟩
          rw [← Bool.not_eq_true]
          intro digit
          have notBlank := isJsonBlank_of_isDigit digit
          rw [blank char List.mem_cons_self] at notBlank
          cases notBlank

/-- A text that writes tokens is read as these tokens, provided that no two
numbers stand side by side. -/
theorem Writes.readTokens?_eq {tokens : List JsonToken}
    (writes : Writes tokens text) (apart : tokens.IsChain JsonToken.Apart) :
    readTokens? text = some tokens := by
  induction writes with
  | nil =>
      rw [readTokens?]
      rfl
  | @cons gap blank token tokens text rest ih =>
      obtain ⟨first, later⟩ := List.isChain_cons.mp apart
      have read : readToken? (token.text.toList ++ text) = some (token, text) := by
        refine token.readToken?_text fun number => rest.isDigit_head? ?_
        intro next second
        rw [← Bool.not_eq_true]
        exact fun alsoNumber => first next second ⟨number, alsoNumber⟩
      rw [← dropWhile_gap blank] at read
      rw [readTokens?_of_readToken? read, ih later]
      rfl

end ReadTokens

end ByteClass
