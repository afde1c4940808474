import ByteClass.BoundedSink

/-!
# Characters in UTF-8

An encoded character is a lead byte and up to three continuation bytes, which
carry six bits each.  The number of continuation bytes grows with the code
point, and the lead byte grows with that number.  Hence encoded texts are
ordered as the code points of the texts are.
-/

namespace ByteClass

/-- The byte that carries the last six bits of a number. -/
def continuationByte (number : Nat) : UInt8 :=
  UInt8.ofNat (0x80 + number % 64)

/-- What a lead byte carries in front of a number of continuation bytes. -/
def leadNumber : Nat → Nat → Nat
  | 0, code => code
  | count + 1, code => leadNumber count (code / 64)

/-- A lead byte with a marker and a number of continuation bytes. -/
def markedBytes (marker : Nat) : Nat → Nat → List UInt8
  | 0, code => [UInt8.ofNat (marker + code)]
  | count + 1, code =>
      markedBytes marker count (code / 64) ++ [continuationByte code]

/-- How many continuation bytes a code point takes, and the marker of its lead
byte. -/
inductive EncodedForm (code : Nat) : Nat → Nat → Prop
  | single (limit : code < 0x80) : EncodedForm code 0 0
  | double (low : 0x80 ≤ code) (limit : code < 0x800) : EncodedForm code 1 0xc0
  | triple (low : 0x800 ≤ code) (limit : code < 0x10000) :
      EncodedForm code 2 0xe0
  | quadruple (low : 0x10000 ≤ code) (limit : code < 0x110000) :
      EncodedForm code 3 0xf0

theorem char_toNat_lt (char : Char) : char.toNat < 0x110000 := by
  rcases char.valid with low | ⟨_, high⟩
  · exact Nat.lt_trans low (by decide)
  · exact high

theorem exists_encodedForm (char : Char) :
    ∃ count marker, EncodedForm char.toNat count marker ∧
      String.utf8EncodeChar char = markedBytes marker count char.toNat := by
  have bound := char_toNat_lt char
  simp only [String.utf8EncodeChar, Char.toNat_val]
  split
  · rename_i limit
    refine ⟨0, 0, .single (by omega), ?_⟩
    simp [markedBytes]
  split
  · rename_i low limit
    have small : char.toNat / 64 % 32 = char.toNat / 64 := by omega
    refine ⟨1, 0xc0, .double (by omega) (by omega), ?_⟩
    simp [markedBytes, continuationByte, small, Nat.add_comm]
  split
  · rename_i low limit
    have small : char.toNat / 4096 % 16 = char.toNat / 4096 := by omega
    refine ⟨2, 0xe0, .triple (by omega) (by omega), ?_⟩
    simp [markedBytes, continuationByte, small, Nat.add_comm,
      Nat.div_div_eq_div_mul]
  · have small : char.toNat / 262144 % 8 = char.toNat / 262144 := by omega
    refine ⟨3, 0xf0, .quadruple (by omega) bound, ?_⟩
    simp [markedBytes, continuationByte, small, Nat.add_comm,
      Nat.div_div_eq_div_mul]

theorem utf8Bytes_eq (text : String) :
    utf8Bytes text = text.toList.flatMap String.utf8EncodeChar := by
  rw [utf8Bytes, String.toUTF8_eq_toByteArray, ← String.utf8Encode_toList,
    List.utf8Encode, List.toList_data_toByteArray]

/-- The text with these bytes, if they are well-formed. -/
def decodeUtf8? (bytes : List UInt8) : Option String :=
  String.fromUTF8? ⟨bytes.toArray⟩

@[simp]
theorem decodeUtf8?_utf8Bytes (text : String) :
    decodeUtf8? (utf8Bytes text) = some text := by
  have bytes : ⟨(utf8Bytes text).toArray⟩ = text.toByteArray := rfl
  rw [decodeUtf8?, String.fromUTF8?, bytes, dif_pos text.isValidUTF8]
  rfl

theorem utf8Bytes_inj {first second : String} :
    utf8Bytes first = utf8Bytes second ↔ first = second := by
  constructor
  · intro same
    rw [← Option.some_inj, ← decodeUtf8?_utf8Bytes first, same,
      decodeUtf8?_utf8Bytes]
  · rintro rfl
    rfl

namespace EncodedForm

variable {code other count otherCount marker otherMarker : Nat}

theorem marker_eq (form : EncodedForm code count marker)
    (otherForm : EncodedForm other count otherMarker) : marker = otherMarker := by
  cases form <;> cases otherForm <;> rfl

theorem lead_lt (form : EncodedForm code count marker) :
    marker + leadNumber count code < 256 := by
  cases form <;> simp only [leadNumber] <;> omega

/-- More continuation bytes stand behind a greater lead byte. -/
theorem lead_lt_lead (form : EncodedForm code count marker)
    (otherForm : EncodedForm other otherCount otherMarker)
    (fewer : count < otherCount) :
    marker + leadNumber count code < otherMarker + leadNumber otherCount other := by
  cases form <;> cases otherForm <;> simp only [leadNumber] <;> omega

theorem count_le (form : EncodedForm code count marker)
    (otherForm : EncodedForm other otherCount otherMarker)
    (less : code < other) : count ≤ otherCount := by
  cases form <;> cases otherForm <;> omega

end EncodedForm

/-- A lead byte stands in front, and continuation bytes behind it. -/
theorem markedBytes_eq_cons (marker count code : Nat) :
    ∃ numbers : List Nat, numbers.length = count ∧
      markedBytes marker count code =
        UInt8.ofNat (marker + leadNumber count code) ::
          numbers.map continuationByte := by
  induction count generalizing code with
  | zero => exact ⟨[], rfl, rfl⟩
  | succ count ih =>
      obtain ⟨numbers, length, equal⟩ := ih (code / 64)
      refine ⟨numbers ++ [code], by simp [length], ?_⟩
      rw [markedBytes, equal, leadNumber, List.cons_append, List.map_append,
        List.map_singleton]

theorem mem_markedBytes {marker count code : Nat} {byte : UInt8}
    (member : byte ∈ markedBytes marker count code) :
    byte = UInt8.ofNat (marker + leadNumber count code) ∨
      ∃ number, byte = continuationByte number := by
  obtain ⟨numbers, _, equal⟩ := markedBytes_eq_cons marker count code
  rw [equal] at member
  rcases List.mem_cons.mp member with front | behind
  · exact .inl front
  · obtain ⟨number, _, same⟩ := List.mem_map.mp behind
    exact .inr ⟨number, same.symm⟩

@[simp]
theorem toNat_continuationByte (number : Nat) :
    (continuationByte number).toNat = 0x80 + number % 64 := by
  rw [continuationByte, UInt8.toNat_ofNat_of_lt']
  change 0x80 + number % 64 < 256
  omega

theorem EncodedForm.le_lead {code count marker : Nat}
    (form : EncodedForm code count marker) (beyond : 0x80 ≤ code) :
    0x80 ≤ marker + leadNumber count code := by
  cases form <;> simp only [leadNumber] <;> omega

theorem utf8EncodeChar_of_lt {char : Char} (ascii : char.toNat < 0x80) :
    String.utf8EncodeChar char = [UInt8.ofNat char.toNat] := by
  have limit : char.toNat ≤ 127 := by omega
  simp [String.utf8EncodeChar, limit]

/-- A character beyond ASCII has no ASCII byte. -/
theorem le_of_mem_utf8EncodeChar {char : Char} (beyond : 0x80 ≤ char.toNat)
    {byte : UInt8} (member : byte ∈ String.utf8EncodeChar char) :
    0x80 ≤ byte.toNat := by
  obtain ⟨count, marker, form, encoded⟩ := exists_encodedForm char
  rw [encoded] at member
  rcases mem_markedBytes member with rfl | ⟨number, rfl⟩
  · rw [UInt8.toNat_ofNat_of_lt' form.lead_lt]
    exact form.le_lead beyond
  · rw [toNat_continuationByte]
    omega

theorem compare_cons_eq_lt_iff {first second : UInt8}
    {firsts seconds : List UInt8} :
    compare (first :: firsts) (second :: seconds) = .lt ↔
      first.toNat < second.toNat ∨
        first.toNat = second.toNat ∧ compare firsts seconds = .lt := by
  rw [List.compare_cons_cons, Ordering.then_eq_lt, Std.compare_eq_lt,
    Std.compare_eq_iff_eq, UInt8.lt_iff_toNat_lt, UInt8.toNat_inj]

theorem compare_append_left (common first second : List UInt8) :
    compare (common ++ first) (common ++ second) = compare first second := by
  induction common with
  | nil => rfl
  | cons byte common ih =>
      rw [List.cons_append, List.cons_append, List.compare_cons_cons, ih,
        Std.ReflOrd.compare_self]
      rfl

/-- Bytes of the same form are ordered by the code points: by induction on the
continuation bytes, of which the last decides only if the others agree. -/
theorem compare_markedBytes_append {marker count first second : Nat}
    (less : first < second) (fits : marker + leadNumber count second < 256)
    (firsts seconds : List UInt8) :
    compare (markedBytes marker count first ++ firsts)
      (markedBytes marker count second ++ seconds) = .lt := by
  induction count generalizing first second firsts seconds with
  | zero =>
      rw [leadNumber] at fits
      rw [markedBytes, markedBytes, List.singleton_append,
        List.singleton_append, compare_cons_eq_lt_iff,
        UInt8.toNat_ofNat_of_lt' (by change _ < 256; omega),
        UInt8.toNat_ofNat_of_lt' fits]
      exact .inl (by omega)
  | succ count ih =>
      rw [leadNumber] at fits
      rw [markedBytes, markedBytes, List.append_assoc, List.append_assoc]
      rcases Nat.lt_or_ge (first / 64) (second / 64) with higher | same
      · exact ih higher fits _ _
      · have prefixes : first / 64 = second / 64 := by omega
        rw [prefixes, compare_append_left, List.singleton_append,
          List.singleton_append, compare_cons_eq_lt_iff,
          toNat_continuationByte, toNat_continuationByte]
        exact .inl (by omega)

theorem compare_utf8EncodeChar_append {first second : Char}
    (less : first.toNat < second.toNat) (firsts seconds : List UInt8) :
    compare (String.utf8EncodeChar first ++ firsts)
      (String.utf8EncodeChar second ++ seconds) = .lt := by
  obtain ⟨count, marker, form, encoded⟩ := exists_encodedForm first
  obtain ⟨otherCount, otherMarker, otherForm, otherEncoded⟩ :=
    exists_encodedForm second
  rw [encoded, otherEncoded]
  rcases Nat.lt_or_eq_of_le (form.count_le otherForm less) with fewer | rfl
  · obtain ⟨_, _, starts⟩ := markedBytes_eq_cons marker count first.toNat
    obtain ⟨_, _, otherStarts⟩ :=
      markedBytes_eq_cons otherMarker otherCount second.toNat
    rw [starts, otherStarts, List.cons_append, List.cons_append,
      compare_cons_eq_lt_iff, UInt8.toNat_ofNat_of_lt' form.lead_lt,
      UInt8.toNat_ofNat_of_lt' otherForm.lead_lt]
    exact .inl (form.lead_lt_lead otherForm fewer)
  · obtain rfl := form.marker_eq otherForm
    exact compare_markedBytes_append less otherForm.lead_lt firsts seconds

/-- Encoded texts are ordered as their code points. -/
theorem compare_flatMap_utf8EncodeChar (first second : List Char) :
    compare (first.flatMap String.utf8EncodeChar)
        (second.flatMap String.utf8EncodeChar) =
      compare (first.map Char.toNat) (second.map Char.toNat) := by
  induction first generalizing second with
  | nil =>
      cases second with
      | nil => rfl
      | cons char chars =>
          obtain ⟨byte, bytes, encoded⟩ :=
            List.exists_cons_of_ne_nil
              (String.utf8EncodeChar_ne_nil (c := char))
          simp [encoded, List.compare_nil_cons]
  | cons char chars ih =>
      cases second with
      | nil =>
          obtain ⟨byte, bytes, encoded⟩ :=
            List.exists_cons_of_ne_nil
              (String.utf8EncodeChar_ne_nil (c := char))
          simp [encoded, List.compare_cons_nil]
      | cons other others =>
          rw [List.flatMap_cons, List.flatMap_cons, List.map_cons,
            List.map_cons, List.compare_cons_cons]
          rcases Nat.lt_trichotomy char.toNat other.toNat with
            less | same | greater
          · rw [compare_utf8EncodeChar_append less, Nat.compare_eq_lt.mpr less]
            rfl
          · obtain rfl := Char.toNat_inj.mp same
            rw [compare_append_left, ih, Std.ReflOrd.compare_self]
            rfl
          · rw [Std.OrientedOrd.eq_swap,
              compare_utf8EncodeChar_append greater,
              Nat.compare_eq_gt.mpr greater]
            rfl

end ByteClass
