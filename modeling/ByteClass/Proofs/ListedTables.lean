import ByteClass.AnnotatedListing
import ByteClass.Proofs.DecoratedText
import ByteClass.Proofs.LabelCode
import ByteClass.Proofs.SourceText

/-!
# Listings read back

A listing can stand in a program text: each row is an entry between a comment
and a comma, and no label closes its comment early or looks like an entry.
Without the comments there are 256 entries, which show the table in either
mode, so symbolic and numeric listings of a table are read alike.  Only the
blanks in front of lines depend on the indentation.
-/

namespace ByteClass

/-- What a listing shows of one byte. -/
inductive ListedValue
  | classes (set : FlagSet)
  | partner (entry : UInt8)
  deriving DecidableEq

namespace ListedValue

def table : ListedValue → ListedTable
  | classes _ => .classes
  | partner _ => .partners

/-- The value of a byte in a table. -/
def ofByte (byte : UInt8) : ListedTable → ListedValue
  | .classes => classes (classesOf byte)
  | .partners => partner (partnerEntry byte)

@[simp]
theorem table_ofByte (byte : UInt8) (table : ListedTable) :
    (ofByte byte table).table = table := by
  cases table <;> rfl

end ListedValue

/-- An entry shows a value, by numbers or by names and characters. -/
inductive EntryShows : (numeric : Bool) → List Char → ListedValue → Prop
  | names {entry : List Char} {set : FlagSet}
      (denotes : FlagSet.parse (String.ofList entry) = .ok set) :
      EntryShows false entry (.classes set)
  | bits {digits : List Char} {set : FlagSet} (four : digits.length = 4)
      (value : Numeral.read? 16 digits = some set.bits.toNat) :
      EntryShows true ('0' :: 'x' :: digits) (.classes set)
  | noPartner : EntryShows false ['\'', '\\', '0', '\''] (.partner noPartner)
  | character {entry : UInt8} (letter : (Char.ofNat entry.toNat).isAlpha = true) :
      EntryShows false ['\'', Char.ofNat entry.toNat, '\''] (.partner entry)
  | number (entry : UInt8) :
      EntryShows true (Nat.toDigits 10 entry.toNat) (.partner entry)

/-- The set that an entry of either mode shows. -/
def readClassCell? : List Char → Option FlagSet
  | '0' :: 'x' :: digits =>
      if digits.length = 4 then
        (Numeral.read? 16 digits).map fun number => ⟨BitVec.ofNat 16 number⟩
      else
        none
  | names => (FlagSet.parse (String.ofList names)).toOption

/-- The table entry that an entry of either mode shows: a number, a letter in
quotes, or the escaped zero in quotes. -/
def readPartnerCell? (entry : List Char) : Option UInt8 :=
  if entry = ['\'', '\\', '0', '\''] then
    some noPartner
  else if entry.head? = some '\'' ∧ entry.getLast? = some '\'' then
    match entry.tail.dropLast with
    | [char] => if char.isAlpha then some (UInt8.ofNat char.toNat) else none
    | _ => none
  else
    ((Numeral.read? 10 entry).filter (· < 256)).map UInt8.ofNat

def readCell? (entry : List Char) : ListedTable → Option ListedValue
  | .classes => (readClassCell? entry).map .classes
  | .partners => (readPartnerCell? entry).map .partner

/-- The values of a table that a text lists.  Nothing but blanks may stand behind
the last comma. -/
def readListing? (table : ListedTable) (text : List Char) :
    Option (List ListedValue) :=
  if (listedEntries text).getLast? = some [] then
    (listedEntries text).dropLast.mapM fun entry => readCell? entry table
  else
    none

section ReadEntries

theorem zero_not_mem_name (named : NamedClass) : '0' ∉ named.name.toList := by
  cases named with
  | basic flag => cases flag <;> decide
  | composite union => cases union <;> decide

/-- An accepted expression holds a zero only if it is the lone one. -/
theorem strip_eq_zero_of_zero_mem {expression : String} {set : FlagSet}
    (accepted : FlagSet.parse expression = .ok set)
    (zero : '0' ∈ expression.toList) : strip expression.toList = ['0'] := by
  rcases alone_or_allNamed_of_parse_eq_ok accepted with alone | allNamed
  · exact alone
  · obtain ⟨term, among, inside⟩ :=
      exists_mem_terms_of_mem zero (by decide) (by decide)
    obtain ⟨named, names⟩ := allNamed term among
    have raised : '0' ∈ named.name.toList := by
      rw [← names]
      exact List.mem_map_of_mem inside
    exact absurd raised (zero_not_mem_name named)

theorem parse_ne_ok_of_hex (digits : List Char) (set : FlagSet) :
    FlagSet.parse (String.ofList ('0' :: 'x' :: digits)) ≠ .ok set := by
  intro accepted
  have alone := strip_eq_zero_of_zero_mem accepted (by simp)
  have letter : 'x' ∈ strip (String.ofList ('0' :: 'x' :: digits)).toList :=
    mem_strip (by simp) (by decide)
  rw [alone] at letter
  simp at letter

theorem readClassCell?_names {entry : List Char} {set : FlagSet}
    (denotes : FlagSet.parse (String.ofList entry) = .ok set) :
    readClassCell? entry = some set := by
  unfold readClassCell?
  split
  · exact absurd denotes (parse_ne_ok_of_hex _ set)
  · rw [denotes]
    rfl

theorem readPartnerCell?_toDigits (entry : UInt8) :
    readPartnerCell? (Nat.toDigits 10 entry.toNat) = some entry := by
  have quoteless : '\'' ∉ Nat.toDigits 10 entry.toNat := by
    intro member
    have digit : '\''.isDigit = true :=
      Nat.isDigit_of_mem_toDigits (by decide) (by decide) member
    cases digit
  rw [readPartnerCell?, if_neg, if_neg, Numeral.read?_toDigits (by decide) (by decide)]
  · simp [entry.toNat_lt]
  · exact fun literal => quoteless (List.mem_of_mem_head? literal.1)
  · intro literal
    simp [literal] at quoteless

theorem readPartnerCell?_letter {entry : UInt8}
    (letter : (Char.ofNat entry.toNat).isAlpha = true) :
    readPartnerCell? ['\'', Char.ofNat entry.toNat, '\''] = some entry := by
  have small := entry.toNat_lt
  have valid : entry.toNat.isValidChar := by
    left
    omega
  rw [readPartnerCell?, if_neg (by simp), if_pos ⟨rfl, rfl⟩]
  simp [letter, Char.toNat_ofNat, valid]

/-- An entry is read as the value that it shows, whatever the mode. -/
theorem EntryShows.readCell?_eq {numeric : Bool} {entry : List Char}
    {value : ListedValue} (shows : EntryShows numeric entry value) :
    readCell? entry value.table = some value := by
  cases shows with
  | names denotes =>
      rw [ListedValue.table, readCell?, readClassCell?_names denotes]
      rfl
  | bits four value =>
      rw [ListedValue.table, readCell?, readClassCell?, if_pos four, value]
      simp
  | noPartner => rfl
  | character letter =>
      rw [ListedValue.table, readCell?, readPartnerCell?_letter letter]
      rfl
  | number partner =>
      rw [ListedValue.table, readCell?, readPartnerCell?_toDigits]
      rfl

theorem readListing?_eq {text : List Char} {entries : List (List Char)}
    {numeric : Bool} {values : List ListedValue} {table : ListedTable}
    (listed : listedEntries text = entries ++ [[]])
    (shown : List.Forall₂ (EntryShows numeric) entries values)
    (ofTable : ∀ value ∈ values, value.table = table) :
    readListing? table text = some values := by
  rw [readListing?, listed, List.getLast?_concat, if_pos rfl,
    List.dropLast_concat]
  clear listed
  induction shown with
  | nil => rfl
  | cons shows _ ih =>
      obtain ⟨here, later⟩ := List.forall_mem_cons.mp ofTable
      rw [List.mapM_cons, ← here, shows.readCell?_eq, here, ih later]
      rfl

end ReadEntries

/-- A listing annotates an entry by the label of its byte between two spaces. -/
def labelComment (byte : UInt8) : List Char :=
  ' ' :: (label byte ++ [' '])

def bannerStart : List Char :=
  " **** DO NOT EDIT! ****".toList

def bannerEnd : List Char :=
  "   This table was generated by bytetype, make changes there. ".toList

/-- The banner is one comment of two lines. -/
def bannerComment (indent : Nat) : List Char :=
  bannerStart ++ '\n' :: (List.replicate indent ' ' ++ bannerEnd)

/-- The label of a byte stands in front of an entry that shows its value. -/
def AnnotatesEntry (numeric : Bool) (table : ListedTable) (row : CommentedCode)
    (byte : UInt8) : Prop :=
  row.comment = labelComment byte ∧ ∃ entry, HoldsEntry row.code entry ∧
    EntryShows numeric entry (.ofByte byte table)

/-- Labels hold stars and slashes, but none ends its comment. -/
theorem cutAtClosingMark_labelComment (byte : UInt8) :
    cutAtClosingMark (labelComment byte) = none :=
  forall_byte (by decide +kernel) byte

theorem isBlank_indentation (count : Nat) :
    IsBlank (List.replicate count ' ') := by
  intro char member
  rw [List.eq_of_mem_replicate member]
  decide

theorem slash_not_mem_bannerComment (indent : Nat) :
    '/' ∉ bannerComment indent := by
  have start : '/' ∉ bannerStart := by decide +kernel
  have last : '/' ∉ bannerEnd := by decide +kernel
  simp [bannerComment, start, last]

theorem isAlpha_partnerEntry {byte : UInt8}
    (present : partnerEntry byte ≠ noPartner) :
    (Char.ofNat (partnerEntry byte).toNat).isAlpha = true := by
  revert present
  exact forall_byte (by decide +kernel) byte

theorem isAlphanum_digitChar {digit : Nat} (small : digit < 16) :
    (Nat.digitChar digit).isAlphanum = true :=
  Numeral.forall_digit (by decide) digit small

namespace Listing

variable (listing : Listing) (table : ListedTable)

/-- What stands between the comment and the comma in the row of a byte. -/
def entryText (byte : UInt8) : List Char :=
  (String.join (listing.cell table byte)).toList

theorem entryText_classes (byte : UInt8) :
    listing.entryText .classes byte =
      if listing.layout.numeric then
        '0' :: 'x' ::
          (Nat.toDigits 16 (classesOf byte).bits.toNat).leftpad 4 '0'
      else
        (classesOf byte).text.toList := by
  rw [entryText, cell, lookUpClasses_eq, classCell]
  split
  · simp [Numeral.paddedHex]
  · simp

theorem entryText_partners (byte : UInt8) :
    listing.entryText .partners byte =
      if listing.layout.numeric then
        Nat.toDigits 10 (partnerEntry byte).toNat
      else if partnerEntry byte = noPartner then
        ['\'', '\\', '0', '\'']
      else
        ['\'', Char.ofNat (partnerEntry byte).toNat, '\''] := by
  rw [entryText, cell, lookUpPartner_eq, partnerCell]
  split
  · simp [DecimalMethod.write_eq, Numeral.inBase]
  split
  · rfl
  · simp

theorem entryShows_entryText (byte : UInt8) :
    EntryShows listing.layout.numeric (listing.entryText table byte)
      (.ofByte byte table) := by
  cases table with
  | classes =>
      rw [entryText_classes]
      cases numeric : listing.layout.numeric with
      | false =>
          refine .names ?_
          rw [if_neg (by decide), String.ofList_toList]
          exact FlagSet.parse_text_of_known fun _ =>
            FlagSet.position_lt_of_holds_ofFlags
      | true =>
          refine .bits ?_ (Numeral.read?_leftpad (by decide) (by decide) 4 _)
          have small : (Nat.toDigits 16 (classesOf byte).bits.toNat).length ≤ 4 :=
            (Nat.length_toDigits_le_iff (by decide) (by decide)).mpr
              (classesOf byte).bits.isLt
          rw [List.length_leftpad, Nat.max_eq_left small]
  | partners =>
      rw [entryText_partners]
      cases numeric : listing.layout.numeric with
      | false =>
          rw [if_neg (by decide)]
          split
          · rename_i none
            rw [ListedValue.ofByte, none]
            exact .noPartner
          · rename_i present
            exact .character (isAlpha_partnerEntry present)
      | true => exact .number (partnerEntry byte)

theorem mem_entryText {byte : UInt8} {char : Char}
    (member : char ∈ listing.entryText table byte) :
    char.isAlphanum = true ∨ char ∈ [' ', '|', '\'', '\\'] := by
  cases table with
  | classes =>
      rw [entryText_classes] at member
      split at member
      · rcases List.mem_cons.mp member with rfl | later
        · exact .inl rfl
        rcases List.mem_cons.mp later with rfl | padded
        · exact .inl rfl
        · obtain ⟨digit, small, rfl⟩ := Numeral.mem_leftpad (by decide) padded
          exact .inl (isAlphanum_digitChar small)
      · rcases FlagSet.mem_text member with alphanumeric | rfl | rfl
        · exact .inl alphanumeric
        · exact .inr (by decide)
        · exact .inr (by decide)
  | partners =>
      rw [entryText_partners] at member
      split at member
      · obtain ⟨digit, small, rfl⟩ := Numeral.mem_toDigits (by decide) member
        exact .inl (isAlphanum_digitChar (by omega))
      split at member
      · simp only [List.mem_cons, List.not_mem_nil, or_false] at member
        rcases member with rfl | rfl | rfl | rfl <;> decide
      · rename_i present
        simp only [List.mem_cons, List.not_mem_nil, or_false] at member
        rcases member with rfl | rfl | rfl
        · exact .inr (by decide)
        · rw [Char.isAlphanum, isAlpha_partnerEntry present]
          exact .inl rfl
        · exact .inr (by decide)

theorem not_mem_entryText (byte : UInt8) :
    '/' ∉ listing.entryText table byte ∧ ',' ∉ listing.entryText table byte ∧
      '\n' ∉ listing.entryText table byte := by
  refine ⟨fun member => ?_, fun member => ?_, fun member => ?_⟩ <;>
    exact absurd (listing.mem_entryText table member) (by decide)

theorem isStripped_entryText (byte : UInt8) :
    IsStripped (listing.entryText table byte) := by
  cases table with
  | classes =>
      rw [entryText_classes]
      split
      · apply IsStripped.of_isAlphanum
        intro char member
        rcases List.mem_cons.mp member with rfl | later
        · rfl
        rcases List.mem_cons.mp later with rfl | padded
        · rfl
        · obtain ⟨digit, small, rfl⟩ := Numeral.mem_leftpad (by decide) padded
          exact isAlphanum_digitChar small
      · exact (classesOf byte).isStripped_text
  | partners =>
      rw [entryText_partners]
      split
      · apply IsStripped.of_isAlphanum
        intro char member
        obtain ⟨digit, small, rfl⟩ := Numeral.mem_toDigits (by decide) member
        exact isAlphanum_digitChar (by omega)
      · have quote : IsStripped ['\''] := by
          rintro char (first | last)
          · cases first
            rfl
          · cases last
            rfl
        have quoted := quote.append_append quote (by simp) (by simp)
        split
        · exact quoted ['\\', '0']
        · exact quoted [_]

/-- The row of a byte without indentation and line break. -/
def rowLine (byte : UInt8) : List Char :=
  '/' :: '*' :: (labelComment byte ++ '*' :: '/' ::
    (' ' :: listing.entryText table byte ++ [',']))

/-- The lines of a listing without indentation, behind its empty first line. -/
def sourceLines : List (List Char) :=
  bannerLines.map String.toList ++ byteValues.map (listing.rowLine table)

theorem flatMap_toList_indentation :
    listing.indentation.flatMap String.toList =
      List.replicate listing.layout.indent.toNat ' ' := by
  rw [indentation, List.flatMap_replicate]
  simp

theorem flatMap_toList_row (byte : UInt8) :
    (listing.row table byte).flatMap String.toList =
      List.replicate listing.layout.indent.toNat ' ' ++
        listing.rowLine table byte ++ ['\n'] := by
  have cell : (listing.cell table byte).flatMap String.toList =
      listing.entryText table byte := by
    rw [entryText, String.toList_join]
  simp [row, flatMap_toList_indentation, cell, rowLine, labelComment, labelText]

/-- Every line but the first one is indented. -/
theorem toList_text :
    (listing.text (.single table)).toList =
      '\n' :: (listing.sourceLines table).flatMap fun line =>
        List.replicate listing.layout.indent.toNat ' ' ++ line ++ ['\n'] := by
  simp [text, fragments, ListingPart.tables, tableFragments, banner,
    String.toList_join, sourceLines, List.flatMap_assoc, List.flatMap_append,
    flatMap_toList_indentation, flatMap_toList_row, List.flatMap_map]

theorem rowLine_append (byte : UInt8) (rest : List Char) :
    listing.rowLine table byte ++ rest =
      '/' :: '*' :: (labelComment byte ++ '*' :: '/' ::
        (' ' :: listing.entryText table byte ++ ',' :: rest)) := by
  simp [rowLine]

/-- The sections of a listing behind its banner are its rows: by induction on the
bytes, with the line break and the indentation in front of a row as blanks behind
the row before it. -/
theorem read_rows (count : Nat) (bytes : List UInt8) :
    ∃ front rows,
      SourceText.read (bytes.flatMap fun byte =>
          List.replicate count ' ' ++ listing.rowLine table byte ++ ['\n']) =
        ⟨front, rows⟩ ∧
      IsBlank front ∧
      List.Forall₂ (fun row byte => row.comment = labelComment byte ∧
        HoldsEntry row.code (listing.entryText table byte)) rows bytes := by
  induction bytes with
  | nil => exact ⟨[], [], SourceText.read_nil, by simp [IsBlank], .nil⟩
  | cons byte bytes ih =>
      obtain ⟨front, rows, read, blank, annotated⟩ := ih
      have noSlash : '/' ∉ ' ' :: listing.entryText table byte ++ [',', '\n'] := by
        simp [(listing.not_mem_entryText table byte).1]
      refine ⟨List.replicate count ' ', ⟨labelComment byte, _⟩ :: rows, ?_,
        isBlank_indentation count, .cons ⟨rfl, [' '], '\n' :: front, ?_, ?_, rfl⟩
          annotated⟩
      · have regroup : ∀ rest : List Char,
            ' ' :: listing.entryText table byte ++ ',' :: (['\n'] ++ rest) =
              (' ' :: listing.entryText table byte ++ [',', '\n']) ++ rest := by
          simp
        rw [List.flatMap_cons, List.append_assoc, List.append_assoc,
          SourceText.read_code_append (by simp), rowLine_append,
          SourceText.read_comment_append (cutAtClosingMark_labelComment byte),
          regroup, SourceText.read_code_append noSlash, read]
        simp [SourceText.prependCode, SourceText.prependComment]
      · simp [IsBlank]
        decide
      · exact List.forall_mem_cons.mpr ⟨by decide, blank⟩

theorem bannerLines_eq :
    bannerLines.map String.toList =
      ['/' :: '*' :: bannerStart, bannerEnd ++ ['*', '/']] := by
  decide +kernel

/-- In front of its rows a listing holds its banner and blanks. -/
theorem read_text :
    ∃ front behind rows,
      SourceText.read (listing.text (.single table)).toList =
        ⟨front, ⟨bannerComment listing.layout.indent.toNat, behind⟩ :: rows⟩ ∧
      IsBlank front ∧ IsBlank behind ∧
      List.Forall₂ (fun row byte => row.comment = labelComment byte ∧
        HoldsEntry row.code (listing.entryText table byte)) rows byteValues := by
  let indent := List.replicate listing.layout.indent.toNat ' '
  let rowsText := byteValues.flatMap fun byte =>
    indent ++ listing.rowLine table byte ++ ['\n']
  obtain ⟨front, rows, read, blank, annotated⟩ :=
    listing.read_rows table listing.layout.indent.toNat byteValues
  have whole : (listing.text (.single table)).toList =
      ('\n' :: indent) ++ '/' :: '*' ::
        (bannerComment listing.layout.indent.toNat ++ '*' :: '/' ::
          (['\n'] ++ rowsText)) := by
    rw [toList_text, sourceLines, bannerLines_eq]
    simp [bannerComment, indent, rowsText, List.flatMap_map]
  have noSlash : '/' ∉ '\n' :: indent := by
    simp [indent]
  refine ⟨'\n' :: indent, '\n' :: front, rows, ?_,
    List.forall_mem_cons.mpr ⟨by decide, isBlank_indentation _⟩,
    List.forall_mem_cons.mpr ⟨by decide, blank⟩, annotated⟩
  rw [whole, SourceText.read_code_append noSlash,
    SourceText.read_comment_append
      (cutAtClosingMark_of_slash_not_mem (slash_not_mem_bannerComment _)),
    SourceText.read_code_append (by decide), read]
  simp [SourceText.prependCode, SourceText.prependComment]

/-- The entries of a listing, in the order of the bytes. -/
theorem listedEntries_text :
    listedEntries (listing.text (.single table)).toList =
      byteValues.map (listing.entryText table) ++ [[]] := by
  obtain ⟨front, behind, rows, read, blankFront, blankBehind, annotated⟩ :=
    listing.read_text table
  rw [listedEntries, read, SourceText.code, List.flatMap_cons,
    ← List.append_assoc]
  apply map_strip_splitOn_code
  · intro char member
    exact (List.mem_append.mp member).elim (blankFront char) (blankBehind char)
  · rw [List.forall₂_map_right_iff]
    exact annotated.imp fun row byte shown => shown.2
  · rw [List.forall_mem_map]
    exact fun byte _ => ⟨listing.isStripped_entryText table byte,
      (listing.not_mem_entryText table byte).2.1⟩

theorem proper_of_mem_sourceLines {line : List Char}
    (listed : line ∈ listing.sourceLines table) : line ≠ [] ∧ '\n' ∉ line := by
  rcases List.mem_append.mp listed with banner | row
  · rw [bannerLines_eq] at banner
    have start : '\n' ∉ bannerStart := by decide +kernel
    have last : '\n' ∉ bannerEnd := by decide +kernel
    simp only [List.mem_cons, List.not_mem_nil, or_false] at banner
    rcases banner with rfl | rfl
    · simp [start]
    · simp [last]
  · obtain ⟨byte, _, rfl⟩ := List.mem_map.mp row
    have columns := newline_not_mem_label byte
    have entry := (listing.not_mem_entryText table byte).2.2
    simp [rowLine, labelComment, columns, entry]

/-- The lines themselves do not depend on the indentation. -/
theorem toList_text_eq_indentLines :
    (listing.text (.single table)).toList =
      indentLines listing.layout.indent.toNat
        (text ⟨{ listing.layout with indent := 0 }, listing.decimals⟩
          (.single table)).toList := by
  let plain : Listing := ⟨{ listing.layout with indent := 0 }, listing.decimals⟩
  have same : plain.sourceLines table = listing.sourceLines table := rfl
  have unindented : (plain.text (.single table)).toList =
      [] ++ '\n' :: (listing.sourceLines table).flatMap (· ++ ['\n']) := by
    rw [toList_text, same]
    simp [plain]
  rw [unindented, indentLines_cons _ (by simp), if_pos rfl, indentLines_flatMap,
    toList_text]
  · rfl
  · exact fun _ => listing.proper_of_mem_sourceLines table

end Listing

/-- A listing of either table, in either mode and with any indentation, reads back.
Its comments are the banner and the labels of the bytes in order.  When they are
deleted 256 entries are left, each with a comma behind it, and blanks; each shows
the value of its byte.  The values that are read are the same for both modes.
Indentation puts blanks in front of the lines and changes nothing else. -/
theorem listing_reads_back (listing : Listing) (table : ListedTable) :
    (∃ front behind rows,
      SourceText.read (listing.text (.single table)).toList =
        ⟨front, ⟨bannerComment listing.layout.indent.toNat, behind⟩ :: rows⟩ ∧
      IsBlank front ∧ IsBlank behind ∧
      List.Forall₂ (AnnotatesEntry listing.layout.numeric table) rows byteValues) ∧
    (∃ entries, entries.length = 256 ∧
      listedEntries (listing.text (.single table)).toList = entries ++ [[]] ∧
      List.Forall₂ (fun entry byte =>
        EntryShows listing.layout.numeric entry (.ofByte byte table))
        entries byteValues) ∧
    readListing? table (listing.text (.single table)).toList =
      some (byteValues.map (ListedValue.ofByte · table)) ∧
    (listing.text (.single table)).toList =
      indentLines listing.layout.indent.toNat
        (Listing.text ⟨{ listing.layout with indent := 0 }, listing.decimals⟩
          (.single table)).toList := by
  have shown : List.Forall₂ (fun entry byte =>
      EntryShows listing.layout.numeric entry (.ofByte byte table))
      (byteValues.map (listing.entryText table)) byteValues := by
    rw [List.forall₂_map_left_iff, List.forall₂_same]
    exact fun byte _ => listing.entryShows_entryText table byte
  refine ⟨?_, ?_, ?_, listing.toList_text_eq_indentLines table⟩
  · obtain ⟨front, behind, rows, read, blankFront, blankBehind, annotated⟩ :=
      listing.read_text table
    refine ⟨front, behind, rows, read, blankFront, blankBehind, ?_⟩
    exact annotated.imp fun row byte ⟨comment, held⟩ =>
      ⟨comment, _, held, listing.entryShows_entryText table byte⟩
  · refine ⟨_, ?_, listing.listedEntries_text table, shown⟩
    rw [List.length_map, length_byteValues]
  · apply readListing?_eq (listing.listedEntries_text table)
    · rw [List.forall₂_map_right_iff]
      exact shown
    · rw [List.forall_mem_map]
      exact fun byte _ => ListedValue.table_ofByte byte table

end ByteClass
