import ByteClass.TableExport
import ByteClass.Proofs.JsonReading
import ByteClass.Proofs.KnownPositions

/-!
# Reading the exported tables

The exported text is the text of a JSON value, so it reads back in each layout.
A set is shown by a string that denotes it, as long as it has no unknown
position.  A partner is shown by its number, and a missing one by null.
-/

namespace ByteClass

/-- The element is a string that denotes the set. -/
def ShowsClasses (element : JsonValue) (set : FlagSet) : Prop :=
  ∃ text, element = .string text ∧ FlagSet.parse text = .ok set

/-- The element is the number of the byte, or null if there is none. -/
inductive ShowsPartner : JsonValue → Option UInt8 → Prop
  | none : ShowsPartner .null none
  | some (byte : UInt8) : ShowsPartner (.number byte.toNat) (some byte)

namespace ByteTables

/-- The value has two keys, behind which stand the entries of the two tables. -/
def ShownBy (tables : ByteTables) (value : JsonValue) : Prop :=
  ∃ classes partners,
    value = .object [("ctype", .array classes), ("casefold", .array partners)] ∧
      List.Forall₂ ShowsClasses classes tables.classes ∧
      List.Forall₂ ShowsPartner partners tables.partners

theorem showsPartner_partnerJson (partner : Option UInt8) :
    ShowsPartner (partnerJson partner) partner := by
  cases partner with
  | none => exact .none
  | some byte => exact .some byte

theorem shownBy_json {tables : ByteTables}
    (known : ∀ set ∈ tables.classes, set.IsKnown) :
    tables.ShownBy tables.json := by
  refine ⟨_, _, rfl, ?_, ?_⟩
  · rw [List.forall₂_map_left_iff, List.forall₂_same]
    intro set member
    exact ⟨set.text, rfl, FlagSet.parse_text_of_known (known set member)⟩
  · rw [List.forall₂_map_left_iff, List.forall₂_same]
    exact fun partner _ => showsPartner_partnerJson partner

/-- The table lists the classes of all bytes in increasing order. -/
theorem classes_standard : standard.classes = byteValues.map classesOf := by
  apply List.ext_getElem
  · simp [standard]
  · intro index _ _
    simp [standard, classTable, byteValues, UInt8.ofNatLT_eq_ofNat]

theorem isKnown_of_mem_classes_standard {set : FlagSet}
    (member : set ∈ standard.classes) : set.IsKnown := by
  rw [classes_standard] at member
  obtain ⟨byte, _, rfl⟩ := List.mem_map.mp member
  exact fun _ => FlagSet.position_lt_of_holds_ofFlags

theorem getElem?_byteValues (byte : UInt8) :
    byteValues[byte.toNat]? = some byte := by
  have inTable : byte.toNat < 256 := byte.toNat_lt
  simp [byteValues, inTable]

end ByteTables

/-- For any tables, the indented text without its blanks is the compact one.
Tables without unknown positions are shown by the value of their text in each
layout.  The standard tables have no unknown position, and hold the classes and
the partner of each of the 256 bytes at the place of the byte. -/
theorem exported_tables_read_back :
    (∀ tables : ByteTables,
      deleteBlanks (tables.text .indented) = tables.text .compact) ∧
    (∀ (tables : ByteTables) (layout : JsonLayout),
      (∀ set ∈ tables.classes, set.IsKnown) →
      ∃ value, readJson? (tables.text layout) = some value ∧
        tables.ShownBy value) ∧
    (∀ set ∈ ByteTables.standard.classes, set.IsKnown) ∧
    ByteTables.standard.classes.length = 256 ∧
    ByteTables.standard.partners.length = 256 ∧
    ∀ byte : UInt8,
      ByteTables.standard.classes[byte.toNat]? = some (classesOf byte) ∧
        ByteTables.standard.partners[byte.toNat]? = some (partner? byte) := by
  refine ⟨fun tables => deleteBlanks_join tables.json.tokens,
    fun tables layout known => ?_,
    fun set => ByteTables.isKnown_of_mem_classes_standard, ?_, ?_, fun byte => ?_⟩
  · exact ⟨tables.json, readJson?_join layout tables.json,
      ByteTables.shownBy_json known⟩
  · rw [ByteTables.classes_standard, List.length_map, length_byteValues]
  · rw [ByteTables.standard, List.length_map, length_byteValues]
  · rw [ByteTables.classes_standard, ByteTables.standard, List.getElem?_map,
      List.getElem?_map, ByteTables.getElem?_byteValues]
    exact ⟨rfl, rfl⟩

theorem exported_tables_read_back_two_entries :
    ∃ value,
      readJson?
          "\x7b\"ctype\":[\"0\",\"ASCII | UPPER\"],\"casefold\":[null,97]\x7d" =
        some value ∧
      ByteTables.ShownBy ⟨[∅, .ofFlags [.ascii, .upper]], [none, some 97]⟩
        value := by
  have written :
      ByteTables.text ⟨[∅, .ofFlags [.ascii, .upper]], [none, some 97]⟩ .compact =
        "\x7b\"ctype\":[\"0\",\"ASCII | UPPER\"],\"casefold\":[null,97]\x7d" := by
    decide +kernel
  obtain ⟨_, reads, _⟩ := exported_tables_read_back
  rw [← written]
  refine reads _ .compact ?_
  intro set member position held
  simp only [List.mem_cons, List.not_mem_nil, or_false] at member
  rcases member with rfl | rfl
  · exact FlagSet.isKnown_empty position held
  · exact FlagSet.position_lt_of_holds_ofFlags held

end ByteClass
