import ByteClass.BoundedSinkPrefix
import ByteClass.ListingSession

/-!
# Listings written into sinks that become full

What a session adds to its sink depends on the layout, the steps, the room and
the answer of the full sink alone: each part is added as far as there is room,
and comes short exactly if some of it is left over.  The size of the calls, the
cut of the text into fragments and the writer of decimal numbers leave no trace,
and neither does an earlier failure, except for the room that it took.
-/

namespace ByteClass

/-- The bytes of a part in a layout. -/
def ListingLayout.bytes (layout : ListingLayout) (part : ListingPart) :
    List UInt8 :=
  utf8Bytes (Listing.text ⟨layout, .digitByDigit⟩ part)

namespace Listing

variable (listing : Listing)

/-- Both writers of decimal numbers produce the same fragments. -/
theorem partnerCell_eq (entry : UInt8) :
    listing.partnerCell entry =
      partnerCell ⟨listing.layout, .digitByDigit⟩ entry := by
  simp [partnerCell, DecimalMethod.write_eq]

theorem row_eq (table : ListedTable) (byte : UInt8) :
    listing.row table byte = row ⟨listing.layout, .digitByDigit⟩ table byte := by
  cases table with
  | classes => rfl
  | partners =>
      simp only [row, cell]
      rw [partnerCell_eq]
      rfl

theorem fragments_eq (part : ListingPart) :
    listing.fragments part = fragments ⟨listing.layout, .digitByDigit⟩ part := by
  have rows : ∀ table, listing.row table =
      row ⟨listing.layout, .digitByDigit⟩ table := fun table =>
    funext (listing.row_eq table)
  unfold fragments tableFragments
  simp only [rows]
  rfl

theorem utf8Bytes_text (part : ListingPart) :
    utf8Bytes (listing.text part) = listing.layout.bytes part := by
  rw [ListingLayout.bytes, text, text, fragments_eq]

end Listing

namespace ListingLayout

theorem bytes_both (layout : ListingLayout) :
    layout.bytes .both =
      layout.bytes (.single .classes) ++ layout.bytes (.single .partners) := by
  simp [bytes, Listing.text, Listing.fragments, ListingPart.tables]

theorem bytes_single (layout : ListingLayout) (table : ListedTable) :
    layout.bytes (.single table) =
      utf8Bytes (String.join (Listing.banner ⟨layout, .digitByDigit⟩)) ++
        utf8Bytes (String.join (byteValues.flatMap
          (Listing.row ⟨layout, .digitByDigit⟩ table))) := by
  simp [bytes, Listing.text, Listing.fragments, ListingPart.tables,
    Listing.tableFragments]

theorem bytes_single_ne_nil (layout : ListingLayout) (table : ListedTable) :
    layout.bytes (.single table) ≠ [] := by
  have newline : utf8Bytes "\n" ≠ [] := by decide
  simp [bytes_single, Listing.banner, newline]

end ListingLayout

/-- The report of a step that added these bytes; a step that never ends has none. -/
def WriteEnding.report (added : List UInt8) : WriteEnding → Option ListingReport
  | written => some ⟨added, none⟩
  | failed error => some ⟨added, some error⟩
  | endless => none

namespace ListingStep

/-- What a step adds and whether it fails, from the layout, the room before it
and the answer of the full sink. -/
def expectedReport (layout : ListingLayout) (whenFull : FullSink) :
    Option Nat → ListingStep → Option ListingReport
  | none, .write part => some ⟨layout.bytes part, none⟩
  | some room, .write part =>
      let text := layout.bytes part
      (if room < text.length then whenFull.ending else .written).report
        (text.take (min room text.length))
  | _, .setRoom _ => some ⟨[], none⟩

/-- The room behind a step. -/
def roomAfter (layout : ListingLayout) : Option Nat → ListingStep → Option Nat
  | none, .write _ => none
  | some room, .write part => some (room - (layout.bytes part).length)
  | _, .setRoom room => some room

/-- The reports of all steps before the first that never ends, each from the room
that the steps before it leave. -/
def expectedReports (layout : ListingLayout) (whenFull : FullSink) :
    Option Nat → List ListingStep → List ListingReport
  | _, [] => []
  | room, step :: steps =>
      match expectedReport layout whenFull room step with
      | none => []
      | some report =>
          report ::
            expectedReports layout whenFull (roomAfter layout room step) steps

theorem apply_write (listing : Listing) (sink : Sink) (part : ListingPart) :
    apply listing sink (.write part) =
      sink.writeAll (listing.layout.bytes part) := by
  rw [apply, Sink.writeFragments_eq, ← Listing.text, Listing.utf8Bytes_text]

/-- A step appends its report to the sink and changes the room, and nothing
else. -/
theorem apply_eq (listing : Listing) (sink : Sink) (step : ListingStep) :
    apply listing sink step =
      (expectedReport listing.layout sink.whenFull sink.room step).map fun report =>
        ({ sink with
            received := sink.received ++ report.added.toArray
            room := roomAfter listing.layout sink.room step }, report.error) := by
  cases step with
  | write part =>
      rw [apply_write, Sink.writeAll_eq]
      cases room : sink.room with
      | none =>
          simp [expectedReport, roomAfter, Sink.take, Sink.withinRoom,
            Sink.ending, WriteEnding.returned, room]
      | some left =>
          let size := (listing.layout.bytes part).length
          have count : min size left = min left size := Nat.min_comm size left
          have rest : left - min (min left size) size = left - size := by omega
          have short : min left size < size ↔ left < size := by omega
          simp only [expectedReport, roomAfter, Sink.take, Sink.withinRoom,
            Sink.ending, room, Option.elim_some, Option.map_some,
            List.length_take, size, count, rest, short]
          generalize (if left < _ then _ else _ : WriteEnding) = ending
          cases ending <;> rfl
  | setRoom room =>
      simp [apply, expectedReport, roomAfter]

@[simp]
theorem report_append (sink : Sink) (bytes : List UInt8) (room : Option Nat)
    (error : Option WriteError) :
    report sink
        { sink with received := sink.received ++ bytes.toArray, room := room }
        error =
      ⟨bytes, error⟩ := by
  simp [report]

section ShortOfRoom

variable {layout : ListingLayout} {part : ListingPart} {first rest : List UInt8}

/-- A step whose text goes on behind the room comes to the answer of the full
sink. -/
theorem expectedReport_of_append (text : layout.bytes part = first ++ rest)
    (leftOver : rest ≠ []) (whenFull : FullSink) :
    expectedReport layout whenFull (some first.length) (.write part) =
      whenFull.ending.report first := by
  have positive := List.length_pos_iff.mpr leftOver
  have short : first.length < (first ++ rest).length := by
    rw [List.length_append]
    omega
  rw [expectedReport, text]
  simp only [if_pos short, Nat.min_eq_left (Nat.le_of_lt short), List.take_left]

/-- A step that fails leaves no room to the next. -/
theorem expectedReports_of_append (text : layout.bytes part = first ++ rest)
    (leftOver : rest ≠ []) {whenFull : FullSink} {error : WriteError}
    (fails : whenFull.ending = .failed error) (steps : List ListingStep) :
    expectedReports layout whenFull (some first.length) (.write part :: steps) =
      ⟨first, some error⟩ :: expectedReports layout whenFull (some 0) steps := by
  have full : roomAfter layout (some first.length) (.write part) = some 0 := by
    simp [roomAfter, text]
  rw [expectedReports, expectedReport_of_append text leftOver, fails, full]
  rfl

theorem expectedReports_setRoom (layout : ListingLayout) (whenFull : FullSink)
    (before : Option Nat) (room : Nat) (steps : List ListingStep) :
    expectedReports layout whenFull before (.setRoom room :: steps) =
      ⟨[], none⟩ :: expectedReports layout whenFull (some room) steps := by
  cases before <;> rfl

end ShortOfRoom

/-- Both tables in one step are both tables in two steps: a full sink answers the
second step as well, for no part is empty. -/
theorem apply_both (listing : Listing) (sink : Sink) :
    apply listing sink (.write .both) =
      (apply listing sink (.write (.single .classes))).bind fun result =>
        apply listing result.1 (.write (.single .partners)) := by
  have nonempty := listing.layout.bytes_single_ne_nil .partners
  have first := sink.writes (listing.layout.bytes (.single .classes))
  generalize sink.ending _ = ending at first
  rw [apply_write, apply_write, ListingLayout.bytes_both, first.writeAll_eq]
  cases ending with
  | written =>
      generalize sink.take _ = next at first
      have second := next.writes (listing.layout.bytes (.single .partners))
      rw [(first.append second).writeAll_eq]
      exact ((apply_write listing next _).trans second.writeAll_eq).symm
  | failed error =>
      have short : WriteEnding.failed error ≠ .written := by simp
      rw [(first.append_of_short short).writeAll_eq]
      exact ((apply_write _ _ _).trans
        (first.of_short short nonempty).writeAll_eq).symm
  | endless => exact (first.append_of_short (by simp)).writeAll_eq

end ListingStep

open ListingStep

/-- By induction on the steps: each step sees the sink that the steps before it
leave, and of that sink only the room has changed for it. -/
theorem runListing_eq (listing : Listing) (sink : Sink)
    (steps : List ListingStep) :
    let reports := expectedReports listing.layout sink.whenFull sink.room steps
    runListing listing sink steps =
      ({ sink with
          received := sink.received ++ (reports.flatMap ListingReport.added).toArray
          room := (steps.take reports.length).foldl (roomAfter listing.layout)
            sink.room }, reports) := by
  induction steps generalizing sink with
  | nil => simp [runListing, expectedReports]
  | cons step steps ih =>
      simp only [runListing, expectedReports, apply_eq]
      cases expectedReport listing.layout sink.whenFull sink.room step with
      | none => simp
      | some report =>
          simp only [Option.map_some]
          rw [ih]
          simp

/-- Every step adds the bytes of its complete text that have room and comes short
exactly if some are left over; nothing but the room passes from a step to the
next.  A text may be written in any other cut, and both tables in two steps.  A
step that never ends leaves the bytes that one that fails would leave. -/
theorem runListing_adds_prefixes (listing : Listing) (sink : Sink)
    (steps : List ListingStep) :
    let reports := expectedReports listing.layout sink.whenFull sink.room steps
    (runListing listing sink steps).2 = reports ∧
      (runListing listing sink steps).1 =
        { sink with
          received := sink.received ++ (reports.flatMap ListingReport.added).toArray
          room := (steps.take reports.length).foldl (roomAfter listing.layout)
            sink.room } ∧
      (∀ part cut, String.join cut = listing.text part →
        sink.writeFragments cut = apply listing sink (.write part) ∧
          ∀ ending after, sink.WritesFragments cut ending after ↔
            let text := listing.layout.bytes part
            ending = sink.ending text.length ∧
              after = sink.take (text.take (sink.withinRoom text.length))) ∧
      apply listing sink (.write .both) =
        (apply listing sink (.write (.single .classes))).bind fun result =>
          apply listing result.1 (.write (.single .partners)) := by
  refine ⟨by rw [runListing_eq], by rw [runListing_eq], fun part cut whole => ?_,
    apply_both listing sink⟩
  constructor
  · rw [Sink.writeFragments_eq, whole, apply_write, Listing.utf8Bytes_text]
  · intro ending after
    rw [Sink.writesFragments_iff, whole, Listing.utf8Bytes_text, Sink.writes_iff]

/-- A session that fills its sink twice. -/
theorem runListing_fills_sink :
    let full : WriteError := ⟨.other "StorageFull", "no storage space"⟩
    let sink : Sink := ⟨#[], some 3, fun _ => some ⟨2, by decide⟩, .refuse full⟩
    (runListing ⟨{}, .digitByDigit⟩ sink
        [.write (.single .classes), .setRoom 1, .write .both]).2 =
      [⟨[0x0A, 0x20, 0x20], some full⟩, ⟨[], none⟩, ⟨[0x0A], some full⟩] := by
  intro full sink
  have banner : (utf8Bytes (String.join
      (Listing.banner ⟨{}, .digitByDigit⟩))).take 4 =
        [0x0A, 0x20, 0x20, 0x20] := by decide +kernel
  obtain ⟨rest, classes⟩ : ∃ rest, ListingLayout.bytes {} (.single .classes) =
      [0x0A, 0x20, 0x20, 0x20] ++ rest := by
    have whole := List.take_append_drop 4
      (utf8Bytes (String.join (Listing.banner ⟨{}, .digitByDigit⟩)))
    rw [banner] at whole
    rw [ListingLayout.bytes_single, ← whole]
    exact ⟨_, List.append_assoc _ _ _⟩
  have both : ListingLayout.bytes {} .both =
      [0x0A] ++ ([0x20, 0x20, 0x20] ++
        (rest ++ ListingLayout.bytes {} (.single .partners))) := by
    rw [ListingLayout.bytes_both, classes, List.append_assoc,
      ← List.append_assoc [0x0A]]
    rfl
  have fails : sink.whenFull.ending = .failed full := by decide
  have cut : ListingLayout.bytes {} (.single .classes) =
      [0x0A, 0x20, 0x20] ++ 0x20 :: rest := classes
  have firstReport := expectedReports_of_append cut (by simp) fails
  have secondReport := expectedReports_of_append both (by simp) fails []
  rw [(runListing_adds_prefixes _ sink _).1]
  refine (firstReport _).trans ?_
  rw [expectedReports_setRoom]
  refine congrArg (_ :: _ :: ·) (secondReport.trans ?_)
  rw [expectedReports]

/-- Some of the text is left over, yet the step does not fail: no number of calls is
enough. -/
theorem apply_interrupting :
    0 < (ListingLayout.bytes {} (.single .classes)).length ∧
      apply ⟨{}, .digitByDigit⟩ .interrupting (.write (.single .classes)) = none ∧
      ∀ calls, Sink.interrupting.writeWithin calls
        (ListingLayout.bytes {} (.single .classes)) = none := by
  have nonempty := ListingLayout.bytes_single_ne_nil {} .classes
  refine ⟨List.length_pos_iff.mpr nonempty, ?_⟩
  rw [apply_write]
  exact Sink.interrupting_never_returns nonempty

end ByteClass
