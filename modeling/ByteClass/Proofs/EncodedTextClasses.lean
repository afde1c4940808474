import ByteClass.ByteScan
import ByteClass.CodeRange
import ByteClass.Proofs.EncodedCharacters

/-!
# Classes of the bytes of a text

A byte of a text in UTF-8 belongs to a character and has a place in it.  The
classes see the byte alone and tell the place nevertheless: the continuation
bytes are those behind the first place, so all other bytes count the characters.
Every lead byte of a longer character is recognised but two, the first one for
three bytes and the first one for four.  A text without characters that start so
is covered as a whole.
-/

namespace ByteClass

/-- A byte of a text, the character that it belongs to, and its place there. -/
structure EncodedByte where
  char : Char
  place : Nat
  byte : UInt8

def encodedChar (char : Char) : List EncodedByte :=
  (String.utf8EncodeChar char).mapIdx fun place byte => ⟨char, place, byte⟩

/-- The bytes of a text, each with its origin. -/
def encodedText (text : String) : List EncodedByte :=
  text.toList.flatMap encodedChar

/-- The first and last code point of each range of characters whose lead byte
is in no class. -/
def unclassifiedLeadRanges : List (Nat × Nat) :=
  [(0x800, 0xfff), (0x10000, 0x3ffff)]

def hasUnclassifiedLead (char : Char) : Bool :=
  inRanges unclassifiedLeadRanges char.toNat

/-- The value of a byte by the code point of its character and its place there:
a lead byte comes first, and continuation bytes stand behind it. -/
inductive PlacedByte (code : Nat) : Nat → Nat → Prop
  | lead {count marker : Nat} (form : EncodedForm code count marker) :
      PlacedByte code 0 (marker + leadNumber count code)
  | continuation (beyond : 0x80 ≤ code) (before number : Nat) :
      PlacedByte code (before + 1) (0x80 + number % 64)

def EncodedByte.Placed (entry : EncodedByte) : Prop :=
  PlacedByte entry.char.toNat entry.place entry.byte.toNat

/-- The scan that marks the bytes of a text by their origin. -/
def Scan.ofOrigin (mark : EncodedByte → Prop) [DecidablePred mark]
    (text : String) : Scan :=
  ⟨(encodedText text).map fun entry => decide (mark entry)⟩

theorem EncodedForm.beyond_iff {code count marker : Nat}
    (form : EncodedForm code count marker) : 0x80 ≤ code ↔ 0 < count := by
  cases form <;> omega

/-- The values that can stand at a place, with the code points that they allow. -/
theorem PlacedByte.value_cases {code place value : Nat}
    (placed : PlacedByte code place value) :
    (place ≠ 0 ∧ 0x80 ≤ code ∧ 0x80 ≤ value ∧ value < 0xc0) ∨
      (place = 0 ∧ code < 0x80 ∧ value = code) ∨
      (place = 0 ∧ 0x80 ≤ code ∧ code < 0x800 ∧ value = 0xc0 + code / 0x40) ∨
      (place = 0 ∧ 0x800 ≤ code ∧ code < 0x10000 ∧
        value = 0xe0 + code / 0x1000) ∨
      (place = 0 ∧ 0x10000 ≤ code ∧ code < 0x110000 ∧
        value = 0xf0 + code / 0x40000) := by
  cases placed with
  | lead form => cases form <;> simp [leadNumber] <;> omega
  | continuation beyond before number => omega

section Characters

variable (char : Char)

theorem utf8Size_iff : 1 < char.utf8Size ↔ 0x80 ≤ char.toNat := by
  obtain ⟨count, marker, form, encoded⟩ := exists_encodedForm char
  obtain ⟨numbers, rfl, equal⟩ :=
    markedBytes_eq_cons marker count char.toNat
  rw [← String.length_utf8EncodeChar, encoded, equal, List.length_cons,
    List.length_map, form.beyond_iff]
  omega

theorem hasUnclassifiedLead_iff :
    hasUnclassifiedLead char = true ↔
      (0x800 ≤ char.toNat ∧ char.toNat ≤ 0xfff) ∨
        (0x10000 ≤ char.toNat ∧ char.toNat ≤ 0x3ffff) := by
  simp [hasUnclassifiedLead, inRanges_iff, unclassifiedLeadRanges]

/-- The bytes of a character are its lead byte and the later ones. -/
theorem encodedChar_eq_cons :
    ∃ first later, encodedChar char = first :: later ∧
      (first.char = char ∧ first.place = 0 ∧ first.Placed) ∧
      ∀ entry ∈ later, entry.char = char ∧ entry.place ≠ 0 ∧ entry.Placed := by
  obtain ⟨count, marker, form, encoded⟩ := exists_encodedForm char
  obtain ⟨numbers, length, equal⟩ :=
    markedBytes_eq_cons marker count char.toNat
  rw [encodedChar, encoded, equal, List.mapIdx_cons]
  refine ⟨_, _, rfl, ⟨rfl, rfl, ?_⟩, ?_⟩
  · rw [EncodedByte.Placed, UInt8.toNat_ofNat_of_lt' form.lead_lt]
    exact .lead form
  · intro entry member
    obtain ⟨before, inside, rfl⟩ := List.mem_mapIdx.mp member
    rw [List.length_map] at inside
    have beyond : 0x80 ≤ char.toNat := form.beyond_iff.mpr (by omega)
    refine ⟨rfl, Nat.succ_ne_zero before, ?_⟩
    rw [EncodedByte.Placed, List.getElem_map, toNat_continuationByte]
    exact .continuation beyond before _

theorem map_byte_encodedChar :
    (encodedChar char).map EncodedByte.byte = String.utf8EncodeChar char := by
  apply List.ext_getElem?
  intro place
  simp [encodedChar, Function.comp_def]

theorem filter_first_encodedChar :
    ((encodedChar char).filter (·.place = 0)).map EncodedByte.char = [char] := by
  obtain ⟨first, later, equal, ⟨same, front, _⟩, behind⟩ :=
    encodedChar_eq_cons char
  have none : later.filter (·.place = 0) = [] := by
    rw [List.filter_eq_nil_iff]
    intro entry member
    simpa using (behind entry member).2.1
  rw [equal, List.filter_cons_of_pos (by simpa using front), none,
    List.map_singleton, same]

end Characters

section Texts

variable (text : String)

theorem map_byte_encodedText :
    (encodedText text).map EncodedByte.byte = utf8Bytes text := by
  rw [utf8Bytes_eq, encodedText, List.map_flatMap]
  simp only [map_byte_encodedChar]

/-- The first bytes of its characters spell the text. -/
theorem filter_first_encodedText :
    ((encodedText text).filter (·.place = 0)).map EncodedByte.char =
      text.toList := by
  rw [encodedText, List.filter_flatMap, List.map_flatMap]
  simp only [filter_first_encodedChar, List.flatMap_singleton']

variable {text}

theorem placed_of_mem_encodedText {entry : EncodedByte}
    (member : entry ∈ encodedText text) : entry.Placed := by
  obtain ⟨char, _, inside⟩ := List.mem_flatMap.mp member
  obtain ⟨first, later, equal, ⟨_, _, front⟩, behind⟩ :=
    encodedChar_eq_cons char
  rw [equal] at inside
  rcases List.mem_cons.mp inside with rfl | among
  · exact front
  · exact (behind entry among).2.2

/-- Every character has a byte at its first place. -/
theorem exists_first_of_mem {char : Char} (member : char ∈ text.toList) :
    ∃ entry ∈ encodedText text, entry.char = char ∧ entry.place = 0 := by
  rw [← filter_first_encodedText] at member
  obtain ⟨entry, among, same⟩ := List.mem_map.mp member
  obtain ⟨inside, front⟩ := List.mem_filter.mp among
  exact ⟨entry, inside, same, of_decide_eq_true front⟩

theorem char_mem_of_mem_encodedText {entry : EncodedByte}
    (member : entry ∈ encodedText text) : entry.char ∈ text.toList := by
  obtain ⟨char, among, inside⟩ := List.mem_flatMap.mp member
  obtain ⟨place, _, rfl⟩ := List.mem_mapIdx.mp inside
  exact among

/-- A test that depends on the origin of a byte marks a text by origins. -/
theorem Scan.run_utf8Bytes {test : UInt8 → Bool} {mark : EncodedByte → Prop}
    [DecidablePred mark]
    (agree : ∀ entry : EncodedByte, entry.Placed →
      (test entry.byte = true ↔ mark entry)) :
    Scan.run test (utf8Bytes text) = Scan.ofOrigin mark text := by
  rw [Scan.run, Scan.ofOrigin, ← map_byte_encodedText, List.map_map]
  congr 1
  apply List.map_congr_left
  intro entry member
  rw [Function.comp_apply, Bool.eq_iff_iff, decide_eq_true_eq]
  exact agree entry (placed_of_mem_encodedText member)

end Texts

namespace EncodedByte.Placed

variable {entry : EncodedByte} (placed : entry.Placed)

include placed

theorem continuation_iff :
    (NamedClass.basic .utf8Continuation).includes entry.byte = true ↔
      entry.place ≠ 0 := by
  have values := placed.value_cases
  simp [Flag.covers_iff, Flag.ranges]
  omega

theorem ascii_iff :
    (NamedClass.basic .ascii).includes entry.byte = true ↔
      entry.char.toNat < 0x80 := by
  have values := placed.value_cases
  simp [Flag.covers_iff, Flag.ranges]
  omega

theorem unclassified_iff :
    entry.byte = 0xe0 ∨ entry.byte = 0xf0 ↔
      entry.place = 0 ∧ hasUnclassifiedLead entry.char = true := by
  have values := placed.value_cases
  rw [hasUnclassifiedLead_iff, ← UInt8.toNat_inj, ← UInt8.toNat_inj]
  simp
  omega

theorem lead_iff :
    (NamedClass.basic .utf8Lead).includes entry.byte = true ↔
      entry.place = 0 ∧ 1 < entry.char.utf8Size ∧
        ¬ hasUnclassifiedLead entry.char = true := by
  have values := placed.value_cases
  rw [hasUnclassifiedLead_iff, utf8Size_iff]
  simp [Flag.covers_iff, Flag.ranges]
  omega

theorem utf8_iff :
    (NamedClass.composite .utf8).includes entry.byte = true ↔
      ¬ (entry.place = 0 ∧ hasUnclassifiedLead entry.char = true) := by
  have values := placed.value_cases
  rw [hasUnclassifiedLead_iff]
  simp [Flag.covers_iff, Flag.ranges, CompositeClass.parts]
  omega

end EncodedByte.Placed

section Whole

variable (text : String)

/-- Counting all but the continuation bytes counts the characters. -/
theorem countP_not_continuation :
    (utf8Bytes text).countP
        (fun byte => !(NamedClass.basic .utf8Continuation).includes byte) =
      text.length := by
  have sameBytes : ∀ entry ∈ encodedText text,
      ((!(NamedClass.basic .utf8Continuation).includes entry.byte) = true ↔
        decide (entry.place = 0) = true) := by
    intro entry member
    have placed := placed_of_mem_encodedText member
    rw [Bool.not_eq_true', ← Bool.not_eq_true, placed.continuation_iff,
      Decidable.not_not, decide_eq_true_eq]
  calc
    (utf8Bytes text).countP
          (fun byte => !(NamedClass.basic .utf8Continuation).includes byte) =
        (encodedText text).countP (·.place = 0) := by
      rw [← map_byte_encodedText, List.countP_map]
      exact List.countP_congr sameBytes
    _ = (((encodedText text).filter (·.place = 0)).map
          EncodedByte.char).length := by
      rw [List.countP_eq_length_filter, List.length_map]
    _ = text.length := by
      rw [filter_first_encodedText, String.length_toList]

theorem forall_utf8_iff :
    (∀ byte ∈ utf8Bytes text,
        (NamedClass.composite .utf8).includes byte = true) ↔
      ∀ char ∈ text.toList, hasUnclassifiedLead char = false := by
  rw [← map_byte_encodedText, List.forall_mem_map]
  constructor
  · intro covered char member
    obtain ⟨entry, among, rfl, front⟩ := exists_first_of_mem member
    have placed := placed_of_mem_encodedText among
    have covers := placed.utf8_iff.mp (covered entry among)
    exact Bool.eq_false_iff.mpr fun unclassified => covers ⟨front, unclassified⟩
  · intro classified entry among
    have placed := placed_of_mem_encodedText among
    refine placed.utf8_iff.mpr ?_
    rintro ⟨_, unclassified⟩
    rw [classified entry.char (char_mem_of_mem_encodedText among)] at unclassified
    cases unclassified

/-- Each class marks the bytes of a text by their origin: continuation bytes are
those behind the first of a character, ASCII bytes are those of ASCII characters,
and lead bytes are the first ones of longer characters, but for the bytes E0 and
F0.  These two are the only bytes outside the composite class for UTF-8, which
therefore covers exactly the texts without characters that they begin. -/
theorem run_utf8Bytes_by_origin :
    (encodedText text).map EncodedByte.byte = utf8Bytes text ∧
      ((encodedText text).filter (·.place = 0)).map EncodedByte.char =
        text.toList ∧
      Scan.run (NamedClass.basic .utf8Continuation).includes (utf8Bytes text) =
        .ofOrigin (fun entry => entry.place ≠ 0) text ∧
      (utf8Bytes text).countP
          (fun byte => !(NamedClass.basic .utf8Continuation).includes byte) =
        text.length ∧
      Scan.run (NamedClass.basic .ascii).includes (utf8Bytes text) =
        .ofOrigin (fun entry => entry.char.toNat < 0x80) text ∧
      Scan.run (NamedClass.basic .utf8Lead).includes (utf8Bytes text) =
        .ofOrigin (fun entry => entry.place = 0 ∧ 1 < entry.char.utf8Size ∧
          ¬ hasUnclassifiedLead entry.char = true) text ∧
      Scan.run (fun byte => byte = 0xe0 ∨ byte = 0xf0) (utf8Bytes text) =
        .ofOrigin (fun entry => entry.place = 0 ∧
          hasUnclassifiedLead entry.char = true) text ∧
      Scan.run (NamedClass.composite .utf8).includes (utf8Bytes text) =
        .ofOrigin (fun entry => ¬ (entry.place = 0 ∧
          hasUnclassifiedLead entry.char = true)) text ∧
      ((∀ byte ∈ utf8Bytes text,
          (NamedClass.composite .utf8).includes byte = true) ↔
        ∀ char ∈ text.toList, hasUnclassifiedLead char = false) := by
  refine ⟨map_byte_encodedText text, filter_first_encodedText text,
    Scan.run_utf8Bytes fun _ placed => placed.continuation_iff,
    countP_not_continuation text,
    Scan.run_utf8Bytes fun _ placed => placed.ascii_iff,
    Scan.run_utf8Bytes fun _ placed => placed.lead_iff,
    Scan.run_utf8Bytes fun _ placed => ?_,
    Scan.run_utf8Bytes fun _ placed => placed.utf8_iff,
    forall_utf8_iff text⟩
  rw [decide_eq_true_eq]
  exact placed.unclassified_iff

-- The second character begins with F0, which is not marked.
example : (Scan.run (NamedClass.basic .utf8Lead).includes
    (utf8Bytes "é😀")).text = "100000" := by
  decide +kernel

end Whole

end ByteClass
