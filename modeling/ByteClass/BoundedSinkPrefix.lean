import ByteClass.BoundedSink

/-!
# A sink receives a prefix

However a text is cut into calls and fragments, a sink receives the longest
prefix of it that has room.  The write comes short exactly if the text is longer,
and then the answer of the full sink decides how: it fails with the sink's error
or that of a call that took nothing, or it repeats an interrupted call for ever.
-/

namespace ByteClass

/-- What a write comes to. -/
inductive WriteEnding
  | written
  | failed (error : WriteError)
  | endless
  deriving DecidableEq

/-- What is returned in the end, with the sink as it is then; an endless write
returns nothing. -/
def WriteEnding.returned (after : Sink) :
    WriteEnding → Option (Sink × Option WriteError)
  | written => some (after, none)
  | failed error => some (after, some error)
  | endless => none

/-- What a write comes to that a full sink answers. -/
def FullSink.ending : FullSink → WriteEnding
  | acceptNothing => .failed .nothingAccepted
  | refuse error =>
      if error.kind = .interrupted then .endless else .failed error

theorem FullSink.ending_ne_written (full : FullSink) : full.ending ≠ .written := by
  cases full with
  | acceptNothing => simp [ending]
  | refuse error =>
      rw [ending]
      split <;> simp

namespace Sink

/-- What writing this many bytes comes to. -/
def ending (sink : Sink) (size : Nat) : WriteEnding :=
  if sink.withinRoom size < size then sink.whenFull.ending else .written

/-- A full sink that interrupts every call. -/
def interrupting : Sink where
  received := #[]
  room := some 0
  chunk := fun _ => none
  whenFull := .refuse ⟨.interrupted, "operation interrupted"⟩

/-- The rules of writing.  A write is endless if it comes to a call that leaves
everything as it was, for the next call is the same again; the sink then keeps
what it has received up to this call. -/
inductive Writes : Sink → List UInt8 → WriteEnding → Sink → Prop
  | written (sink : Sink) : Writes sink [] .written sink
  | failed {sink : Sink} {bytes : List UInt8} {error : WriteError}
      (waiting : bytes ≠ []) (fails : sink.attempt bytes = .error error) :
      Writes sink bytes (.failed error) sink
  | again {sink next after : Sink} {bytes rest : List UInt8}
      {ending : WriteEnding} (waiting : bytes ≠ [])
      (goesOn : sink.attempt bytes = .ok (next, rest))
      (later : Writes next rest ending after) :
      Writes sink bytes ending after
  | endless {sink : Sink} {bytes : List UInt8} (waiting : bytes ≠ [])
      (unchanged : sink.attempt bytes = .ok (sink, bytes)) :
      Writes sink bytes .endless sink

/-- The rules of writing one fragment after the other. -/
inductive WritesFragments : Sink → List String → WriteEnding → Sink → Prop
  | written (sink : Sink) : WritesFragments sink [] .written sink
  | next {sink between after : Sink} {fragment : String}
      {fragments : List String} {ending : WriteEnding}
      (here : sink.Writes (utf8Bytes fragment) .written between)
      (later : WritesFragments between fragments ending after) :
      WritesFragments sink (fragment :: fragments) ending after
  | stop {sink after : Sink} {fragment : String} {fragments : List String}
      {ending : WriteEnding}
      (here : sink.Writes (utf8Bytes fragment) ending after)
      (short : ending ≠ .written) :
      WritesFragments sink (fragment :: fragments) ending after

section Room

@[simp]
theorem take_nil (sink : Sink) : sink.take [] = sink := by
  cases sink with
  | mk received room chunk whenFull =>
      cases room <;> simp [take]

@[simp]
theorem take_take (sink : Sink) (first second : List UInt8) :
    (sink.take first).take second = sink.take (first ++ second) := by
  cases sink with
  | mk received room chunk whenFull =>
      cases room <;> simp [take, Nat.sub_sub]

theorem withinRoom_le (sink : Sink) (offered : Nat) :
    sink.withinRoom offered ≤ offered := by
  cases room : sink.room <;>
    simp only [withinRoom, room, Option.elim_none, Option.elim_some] <;> omega

theorem withinCall_le (sink : Sink) (offered : Nat) :
    sink.withinCall offered ≤ sink.withinRoom offered := by
  cases chunk : sink.chunk sink.received <;>
    simp only [withinCall, chunk, Option.elim_none, Option.elim_some] <;> omega

theorem withinCall_eq_zero_iff (sink : Sink) (offered : Nat) :
    sink.withinCall offered = 0 ↔ sink.withinRoom offered = 0 := by
  cases chunk : sink.chunk sink.received with
  | none => simp only [withinCall, chunk, Option.elim_none]
  | some limit =>
      have positive := limit.property
      simp only [withinCall, chunk, Option.elim_some]
      omega

theorem withinRoom_eq_zero_iff (sink : Sink) {offered : Nat}
    (positive : 0 < offered) :
    sink.withinRoom offered = 0 ↔ sink.room = some 0 := by
  cases room : sink.room with
  | none =>
      simp only [withinRoom, room, Option.elim_none, reduceCtorEq, iff_false]
      omega
  | some left =>
      simp only [withinRoom, room, Option.elim_some, Option.some.injEq]
      omega

theorem withinRoom_eq_min (sink : Sink) (offered more : Nat) :
    sink.withinRoom offered = min (sink.withinRoom (offered + more)) offered := by
  cases room : sink.room <;>
    simp only [withinRoom, room, Option.elim_none, Option.elim_some] <;> omega

theorem withinRoom_take (sink : Sink) (bytes : List UInt8) (offered : Nat) :
    (sink.take bytes).withinRoom offered =
      sink.withinRoom (bytes.length + offered) - bytes.length := by
  cases room : sink.room <;>
    simp only [withinRoom, take, room, Option.map_none, Option.map_some,
      Option.elim_none, Option.elim_some] <;> omega

theorem room_of_withinRoom_lt {sink : Sink} {offered : Nat}
    (short : sink.withinRoom offered < offered) :
    sink.room = some (sink.withinRoom offered) := by
  cases room : sink.room with
  | none => simp [withinRoom, room] at short
  | some left =>
      simp only [withinRoom, room, Option.elim_some] at short ⊢
      rw [Nat.min_eq_right (by omega)]

end Room

section Ending

theorem ending_eq_written_iff (sink : Sink) (size : Nat) :
    sink.ending size = .written ↔ size ≤ sink.withinRoom size := by
  rw [ending]
  split
  · rename_i short
    simp only [FullSink.ending_ne_written, false_iff]
    omega
  · rename_i enough
    simp only [true_iff]
    omega

/-- A write that comes short comes to the answer of the full sink. -/
theorem ending_of_short {sink : Sink} {size : Nat}
    (short : sink.ending size ≠ .written) :
    sink.ending size = sink.whenFull.ending := by
  rw [ending] at short ⊢
  split at short
  · rename_i leftOver
    exact if_pos leftOver
  · exact absurd rfl short

/-- Bytes that have room do not change what the write comes to. -/
theorem ending_take (sink : Sink) {bytes : List UInt8} {size : Nat}
    (fits : bytes.length ≤ sink.withinRoom (bytes.length + size)) :
    (sink.take bytes).ending size = sink.ending (bytes.length + size) := by
  have room := sink.withinRoom_take bytes size
  have same : (sink.take bytes).withinRoom size < size ↔
      sink.withinRoom (bytes.length + size) < bytes.length + size := by
    omega
  simp only [ending, same]
  rfl

end Ending

section Attempt

variable {sink : Sink} {bytes : List UInt8}

theorem attempt_of_full (waiting : bytes ≠ []) (full : sink.room = some 0) :
    sink.attempt bytes =
      match sink.whenFull.ending with
      | .failed error => .error error
      | _ => .ok (sink, bytes) := by
  have positive := List.length_pos_iff.mpr waiting
  cases answer : sink.whenFull with
  | acceptNothing =>
      have noRoom := (sink.withinRoom_eq_zero_iff positive).mpr full
      have nothing := (sink.withinCall_eq_zero_iff bytes.length).mpr noRoom
      simp [attempt, call, full, answer, nothing, FullSink.ending]
  | refuse error =>
      by_cases interrupts : error.kind = .interrupted
      · simp [attempt, call, full, answer, interrupts, FullSink.ending]
      · simp [attempt, call, full, answer, interrupts, FullSink.ending]

/-- A call that leaves as many bytes as before leaves everything as it was. -/
theorem unchanged_of_attempt {next : Sink} {rest : List UInt8}
    (goesOn : sink.attempt bytes = .ok (next, rest))
    (notFewer : ¬ rest.length < bytes.length) : next = sink ∧ rest = bytes := by
  rw [attempt] at goesOn
  split at goesOn
  · split at goesOn
    · cases goesOn
      exact ⟨rfl, rfl⟩
    · cases goesOn
  · cases goesOn
  · rename_i count nonzero _
    cases goesOn
    have positive := Nat.pos_of_ne_zero nonzero
    have empty : bytes = [] := by
      rw [List.length_drop] at notFewer
      exact List.length_eq_zero_iff.mp (by omega)
    subst empty
    simp

/-- As long as there is room, a call takes some of the bytes that have room. -/
theorem exists_attempt_of_room (waiting : bytes ≠ [])
    (room : sink.room ≠ some 0) :
    ∃ count, 0 < count ∧ count ≤ sink.withinRoom bytes.length ∧
      sink.attempt bytes = .ok (sink.take (bytes.take count), bytes.drop count) := by
  have positive := List.length_pos_iff.mpr waiting
  have called : sink.call bytes.length = .ok (sink.withinCall bytes.length) := by
    rw [call]
    split
    · rename_i full _
      exact absurd full room
    · rfl
  cases taken : sink.withinCall bytes.length with
  | zero =>
      rw [withinCall_eq_zero_iff, sink.withinRoom_eq_zero_iff positive] at taken
      exact absurd taken room
  | succ count =>
      have fits := sink.withinCall_le bytes.length
      refine ⟨count + 1, Nat.succ_pos count, by omega, ?_⟩
      rw [attempt, called, taken]
      rfl

end Attempt

section Prefix

variable {sink : Sink} {bytes : List UInt8}

/-- The bytes that a call takes and those that are taken behind it are the longest
prefix that has room. -/
theorem take_prefix_take {count : Nat} (fits : count ≤ sink.withinRoom bytes.length) :
    (sink.take (bytes.take count)).ending (bytes.drop count).length =
        sink.ending bytes.length ∧
      (sink.take (bytes.take count)).take ((bytes.drop count).take
          ((sink.take (bytes.take count)).withinRoom (bytes.drop count).length)) =
        sink.take (bytes.take (sink.withinRoom bytes.length)) := by
  have bound := sink.withinRoom_le bytes.length
  have front : (bytes.take count).length = count := by
    rw [List.length_take]
    omega
  have whole : (bytes.take count).length + (bytes.drop count).length =
      bytes.length := by
    rw [← List.length_append, List.take_append_drop]
  constructor
  · rw [ending_take, whole]
    rw [whole, front]
    exact fits
  · rw [withinRoom_take, whole, front, take_take, ← List.take_add,
      Nat.add_sub_of_le fits]

/-- By induction on the number of bytes, which every call reduces as long as
there is room. -/
theorem writes (sink : Sink) (bytes : List UInt8) :
    sink.Writes bytes (sink.ending bytes.length)
      (sink.take (bytes.take (sink.withinRoom bytes.length))) := by
  induction size : bytes.length using Nat.strongRecOn generalizing sink bytes with
  | ind size ih =>
    subst size
    by_cases empty : bytes = []
    · subst empty
      simpa [Sink.ending] using Writes.written sink
    · have positive := List.length_pos_iff.mpr empty
      by_cases full : sink.room = some 0
      · have noRoom := (sink.withinRoom_eq_zero_iff positive).mpr full
        have attempted := attempt_of_full empty full
        rw [Sink.ending, noRoom, if_pos positive, List.take_zero, take_nil]
        cases answer : sink.whenFull.ending with
        | written => exact absurd answer (FullSink.ending_ne_written _)
        | failed error =>
            rw [answer] at attempted
            exact .failed empty attempted
        | endless =>
            rw [answer] at attempted
            exact .endless empty attempted
      · obtain ⟨count, some, fits, progress⟩ := exists_attempt_of_room empty full
        obtain ⟨sameEnding, samePrefix⟩ := take_prefix_take fits
        have fewer : (bytes.drop count).length < bytes.length := by
          rw [List.length_drop]
          omega
        rw [← sameEnding, ← samePrefix]
        exact .again empty progress (ih _ fewer _ _ rfl)

/-- No other rule ever applies to a write that leaves everything as it was. -/
theorem Writes.eq_of_unchanged {ending : WriteEnding} {after : Sink}
    (writes : sink.Writes bytes ending after) (waiting : bytes ≠ [])
    (unchanged : sink.attempt bytes = .ok (sink, bytes)) :
    ending = .endless ∧ after = sink := by
  induction writes with
  | written sink => exact absurd rfl waiting
  | failed _ fails =>
      rw [unchanged] at fails
      cases fails
  | again _ goesOn later ih =>
      rw [unchanged] at goesOn
      cases goesOn
      exact ih waiting unchanged
  | endless => exact ⟨rfl, rfl⟩

/-- A write comes to one ending in one sink. -/
theorem Writes.unique {ending other : WriteEnding} {after last : Sink}
    (writes : sink.Writes bytes ending after)
    (others : sink.Writes bytes other last) : ending = other ∧ after = last := by
  induction writes with
  | written sink =>
      cases others with
      | written => exact ⟨rfl, rfl⟩
      | failed waiting => exact absurd rfl waiting
      | again waiting => exact absurd rfl waiting
      | endless waiting => exact absurd rfl waiting
  | failed waiting fails =>
      cases others with
      | written => exact absurd rfl waiting
      | failed _ same =>
          rw [fails] at same
          cases same
          exact ⟨rfl, rfl⟩
      | again _ goesOn =>
          rw [fails] at goesOn
          cases goesOn
      | endless _ unchanged =>
          rw [fails] at unchanged
          cases unchanged
  | again waiting goesOn later ih =>
      cases others with
      | written => exact absurd rfl waiting
      | failed _ fails =>
          rw [goesOn] at fails
          cases fails
      | again _ same others =>
          rw [goesOn] at same
          cases same
          exact ih others
      | endless _ unchanged =>
          rw [goesOn] at unchanged
          cases unchanged
          exact ih (.endless waiting goesOn)
  | endless waiting unchanged =>
      obtain ⟨rfl, rfl⟩ := others.eq_of_unchanged waiting unchanged
      exact ⟨rfl, rfl⟩

/-- A write receives the longest prefix that has room, and what it comes to is
decided by the room and the answer of the full sink. -/
theorem writes_iff {ending : WriteEnding} {after : Sink} :
    sink.Writes bytes ending after ↔
      ending = sink.ending bytes.length ∧
        after = sink.take (bytes.take (sink.withinRoom bytes.length)) := by
  constructor
  · intro written
    exact written.unique (writes sink bytes)
  · rintro ⟨rfl, rfl⟩
    exact writes sink bytes

end Prefix

section Cuts

variable {sink after : Sink} {first second : List UInt8} {ending : WriteEnding}

/-- What is written first may be cut off. -/
theorem Writes.append {between : Sink} (here : sink.Writes first .written between)
    (later : between.Writes second ending after) :
    sink.Writes (first ++ second) ending after := by
  obtain ⟨complete, rfl⟩ := writes_iff.mp here
  have enough := (sink.ending_eq_written_iff first.length).mp complete.symm
  have least := sink.withinRoom_eq_min first.length second.length
  have fits : first.length ≤ sink.withinRoom (first ++ second).length := by
    rw [List.length_append]
    omega
  obtain ⟨sameEnding, samePrefix⟩ := take_prefix_take fits
  rw [List.take_left, List.drop_left] at sameEnding samePrefix
  rw [List.take_of_length_le enough, writes_iff, sameEnding, samePrefix] at later
  exact writes_iff.mpr later

/-- What comes short of the first bytes comes short of all. -/
theorem Writes.append_of_short (here : sink.Writes first ending after)
    (short : ending ≠ .written) : sink.Writes (first ++ second) ending after := by
  obtain ⟨rfl, rfl⟩ := writes_iff.mp here
  rw [ne_eq, ending_eq_written_iff, Nat.not_le] at short
  have least := sink.withinRoom_eq_min first.length second.length
  have bound := sink.withinRoom_le (first.length + second.length)
  have same : sink.withinRoom (first ++ second).length =
      sink.withinRoom first.length := by
    rw [List.length_append]
    omega
  have stops : sink.withinRoom first.length < (first ++ second).length := by
    rw [List.length_append]
    omega
  rw [writes_iff, Sink.ending, Sink.ending, same, if_pos short, if_pos stops,
    List.take_append_of_le_length (Nat.le_of_lt short)]
  exact ⟨rfl, rfl⟩

/-- After a write that came short a sink takes nothing, and the next write comes
to the same. -/
theorem Writes.of_short (here : sink.Writes first ending after)
    (short : ending ≠ .written) (waiting : second ≠ []) :
    after.Writes second ending after := by
  obtain ⟨rfl, rfl⟩ := writes_iff.mp here
  have positive := List.length_pos_iff.mpr waiting
  have bound := sink.withinRoom_le first.length
  rw [ne_eq, ending_eq_written_iff, Nat.not_le] at short
  have full := room_of_withinRoom_lt short
  have noRoom : (sink.take
      (first.take (sink.withinRoom first.length))).withinRoom second.length = 0 := by
    rw [withinRoom_take, List.length_take, Nat.min_eq_left bound, withinRoom, full,
      Option.elim_some]
    omega
  rw [writes_iff, Sink.ending, Sink.ending, noRoom, if_pos short, if_pos positive,
    List.take_zero, take_nil]
  exact ⟨rfl, rfl⟩

theorem WritesFragments.writes {fragments : List String}
    (written : sink.WritesFragments fragments ending after) :
    sink.Writes (utf8Bytes (String.join fragments)) ending after := by
  induction written with
  | written sink =>
      rw [String.join_nil, utf8Bytes_empty]
      exact .written sink
  | next here later ih =>
      rw [String.join_cons, utf8Bytes_append]
      exact here.append ih
  | stop here short =>
      rw [String.join_cons, utf8Bytes_append]
      exact here.append_of_short short

theorem exists_writesFragments (sink : Sink) (fragments : List String) :
    ∃ ending after, sink.WritesFragments fragments ending after := by
  induction fragments generalizing sink with
  | nil => exact ⟨.written, sink, .written sink⟩
  | cons fragment fragments ih =>
      have here := writes sink (utf8Bytes fragment)
      generalize sink.ending _ = ending at here
      cases ending with
      | written =>
          obtain ⟨ending, after, later⟩ := ih _
          exact ⟨ending, after, .next here later⟩
      | failed error => exact ⟨.failed error, _, .stop here (by simp)⟩
      | endless => exact ⟨.endless, _, .stop here (by simp)⟩

/-- How a text is cut into fragments leaves no trace. -/
theorem writesFragments_iff {fragments : List String} :
    sink.WritesFragments fragments ending after ↔
      sink.Writes (utf8Bytes (String.join fragments)) ending after := by
  constructor
  · exact WritesFragments.writes
  · intro whole
    obtain ⟨other, last, cut⟩ := exists_writesFragments sink fragments
    obtain ⟨rfl, rfl⟩ := whole.unique cut.writes
    exact cut

end Cuts

section Returned

variable {sink : Sink} {bytes : List UInt8}

@[simp]
theorem writeAll_nil (sink : Sink) : sink.writeAll [] = some (sink, none) := by
  rw [writeAll]
  rfl

theorem writeAll_of_fails {error : WriteError} (waiting : bytes ≠ [])
    (fails : sink.attempt bytes = .error error) :
    sink.writeAll bytes = some (sink, some error) := by
  rw [writeAll, if_neg (by simpa using waiting), fails]

/-- A write that leaves everything as it was returns nothing. -/
theorem writeAll_eq_none_of_unchanged (waiting : bytes ≠ [])
    (unchanged : sink.attempt bytes = .ok (sink, bytes)) :
    sink.writeAll bytes = none := by
  rw [writeAll, if_neg (by simpa using waiting), unchanged]
  exact if_neg (Nat.lt_irrefl _)

theorem writeAll_of_attempt {next : Sink} {rest : List UInt8} (waiting : bytes ≠ [])
    (goesOn : sink.attempt bytes = .ok (next, rest)) :
    sink.writeAll bytes = next.writeAll rest := by
  by_cases fewer : rest.length < bytes.length
  · rw [writeAll, if_neg (by simpa using waiting), goesOn]
    exact if_pos fewer
  · obtain ⟨rfl, rfl⟩ := unchanged_of_attempt goesOn fewer
    rfl

/-- The loop of a write, given up after so many calls. -/
def writeWithin : (calls : Nat) → Sink → List UInt8 →
    Option (Sink × Option WriteError)
  | 0, _, _ => none
  | calls + 1, sink, bytes =>
      if bytes.isEmpty then
        some (sink, none)
      else
        match sink.attempt bytes with
        | .error error => some (sink, some error)
        | .ok (next, rest) => next.writeWithin calls rest

/-- A write returns what its loop returns as soon as the calls are enough. -/
theorem writeAll_eq_some_iff {result : Sink × Option WriteError} :
    sink.writeAll bytes = some result ↔
      ∃ calls, sink.writeWithin calls bytes = some result := by
  constructor
  · intro returned
    induction sink, bytes using writeAll.induct with
    | case1 sink bytes empty =>
        rw [writeAll, if_pos empty] at returned
        exact ⟨1, (if_pos empty).trans returned⟩
    | case2 sink bytes waiting error fails =>
        rw [writeAll, if_neg waiting, fails] at returned
        exact ⟨1, by rw [writeWithin, if_neg waiting, fails, ← returned]⟩
    | case3 sink bytes waiting next rest goesOn fewer ih =>
        rw [writeAll, if_neg waiting, goesOn] at returned
        obtain ⟨calls, returned⟩ := ih ((if_pos fewer).symm.trans returned)
        exact ⟨calls + 1, by rw [writeWithin, if_neg waiting, goesOn, ← returned]⟩
    | case4 sink bytes waiting next rest goesOn notFewer =>
        rw [writeAll, if_neg waiting, goesOn] at returned
        cases (if_neg notFewer).symm.trans returned
  · rintro ⟨calls, returned⟩
    induction calls generalizing sink bytes with
    | zero => cases returned
    | succ calls ih =>
        by_cases empty : bytes = []
        · subst empty
          exact (writeAll_nil sink).trans returned
        · rw [writeWithin, if_neg (by simpa using empty)] at returned
          cases attempted : sink.attempt bytes with
          | error error =>
              rw [attempted] at returned
              exact (writeAll_of_fails empty attempted).trans returned
          | ok state =>
              rw [attempted] at returned
              exact (writeAll_of_attempt empty attempted).trans (ih returned)

/-- A write returns nothing exactly if no number of calls is enough. -/
theorem writeAll_eq_none_iff :
    sink.writeAll bytes = none ↔ ∀ calls, sink.writeWithin calls bytes = none := by
  simp only [Option.eq_none_iff_forall_ne_some, ne_eq, writeAll_eq_some_iff,
    not_exists]
  exact forall_comm

/-- Nothing is ever returned as long as every call is interrupted. -/
theorem interrupting_never_returns (waiting : bytes ≠ []) :
    interrupting.writeAll bytes = none ∧
      ∀ calls, interrupting.writeWithin calls bytes = none := by
  have nothing : interrupting.writeAll bytes = none :=
    writeAll_eq_none_of_unchanged waiting (attempt_of_full waiting rfl)
  exact ⟨nothing, writeAll_eq_none_iff.mp nothing⟩

theorem Writes.writeAll_eq {after : Sink} {ending : WriteEnding}
    (writes : sink.Writes bytes ending after) :
    sink.writeAll bytes = ending.returned after := by
  induction writes with
  | written sink => exact writeAll_nil sink
  | failed waiting fails => exact writeAll_of_fails waiting fails
  | again waiting goesOn later ih => exact (writeAll_of_attempt waiting goesOn).trans ih
  | endless waiting unchanged => exact writeAll_eq_none_of_unchanged waiting unchanged

theorem WritesFragments.writeFragments_eq {after : Sink}
    {fragments : List String} {ending : WriteEnding}
    (written : sink.WritesFragments fragments ending after) :
    sink.writeFragments fragments = ending.returned after := by
  induction written with
  | written sink => rfl
  | next here later ih =>
      rw [writeFragments, here.writeAll_eq]
      exact ih
  | @stop sink after fragment fragments ending here short =>
      rw [writeFragments, here.writeAll_eq]
      cases ending with
      | written => exact absurd rfl short
      | failed error => rfl
      | endless => rfl

theorem writeAll_eq (sink : Sink) (bytes : List UInt8) :
    sink.writeAll bytes = (sink.ending bytes.length).returned
      (sink.take (bytes.take (sink.withinRoom bytes.length))) :=
  (writes sink bytes).writeAll_eq

theorem writeFragments_eq (sink : Sink) (fragments : List String) :
    sink.writeFragments fragments =
      sink.writeAll (utf8Bytes (String.join fragments)) := by
  have whole := writes sink (utf8Bytes (String.join fragments))
  rw [(writesFragments_iff.mpr whole).writeFragments_eq, whole.writeAll_eq]

end Returned

end Sink

end ByteClass
