import ByteClass.BoundedSinkPrefix
import ByteClass.TableExport
import ByteClass.Proofs.JsonReading

/-!
# Exports streamed into sinks

A writer of JSON need not know the whole text.  It walks through the value and
puts out small pieces as it goes: quotes, single characters of a string, numbers,
brackets, and in front of each element what separates it from the one before.
Together the pieces are the exported text, so a sink receives as much of the
text as it has room for, however it is cut and wherever the sink becomes full.
-/

namespace ByteClass

namespace JsonLayout

/-- The gap between two tokens; the compact layout has none. -/
def gap : JsonLayout → Nat → JsonToken → JsonToken → String
  | compact, _, _, _ => ""
  | indented, depth, before, after => JsonToken.gap depth before after

/-- Two spaces for each open bracket. -/
def indentation (depth : Nat) : List String :=
  List.replicate depth "  "

/-- What is put out in front of an element or a member. -/
def separator : JsonLayout → (depth : Nat) → (first : Bool) → List String
  | compact, _, first => if first then [] else [","]
  | indented, depth, first =>
      (if first then "\n" else ",\n") :: indentation depth

/-- What is put out between a key and its value. -/
def keySeparator : JsonLayout → String
  | compact => ":"
  | indented => ": "

/-- What is put out in front of a closing bracket behind the last element. -/
def closing : JsonLayout → (depth : Nat) → List String
  | compact, _ => []
  | indented, depth => "\n" :: indentation depth

end JsonLayout

/-- A string in quotes, character by character. -/
def stringPieces (text : String) : List String :=
  "\"" :: (text.toList.map fun char => String.ofList (jsonCharacter char)) ++
    ["\""]

mutual

/-- What is put out for a value inside this many brackets, piece by piece. -/
def JsonValue.pieces (layout : JsonLayout) (depth : Nat) :
    JsonValue → List String
  | .null => ["null"]
  | .number value => [Numeral.inBase 10 value]
  | .string text => stringPieces text
  | .array elements =>
      "[" :: (elementPieces layout (depth + 1) true elements ++
        (if elements.isEmpty then [] else layout.closing depth) ++ ["]"])
  | .object members =>
      "\x7b" :: (memberPieces layout (depth + 1) true members ++
        (if members.isEmpty then [] else layout.closing depth) ++ ["\x7d"])

def elementPieces (layout : JsonLayout) (depth : Nat) (first : Bool) :
    List JsonValue → List String
  | [] => []
  | element :: elements =>
      layout.separator depth first ++ element.pieces layout depth ++
        elementPieces layout depth false elements

def memberPieces (layout : JsonLayout) (depth : Nat) (first : Bool) :
    List (String × JsonValue) → List String
  | [] => []
  | (key, value) :: members =>
      layout.separator depth first ++ stringPieces key ++
        layout.keySeparator :: value.pieces layout depth ++
        memberPieces layout depth false members

end

namespace JsonLayout

/-- Every token behind the first with its gap in front of it. -/
def spaced (layout : JsonLayout) (depth : Nat) (before : JsonToken) :
    List JsonToken → List Char
  | [] => []
  | token :: tokens =>
      (layout.gap depth before token).toList ++ token.text.toList ++
        spaced layout (JsonToken.depthAfter depth token) token tokens

theorem spaced_compact (depth : Nat) (before : JsonToken)
    (tokens : List JsonToken) :
    compact.spaced depth before tokens =
      tokens.flatMap fun token => token.text.toList := by
  induction tokens generalizing depth before with
  | nil => rfl
  | cons token tokens ih =>
      rw [spaced, ih, List.flatMap_cons]
      rfl

theorem spaced_indented (depth : Nat) (before : JsonToken)
    (tokens : List JsonToken) :
    indented.spaced depth before tokens =
      (JsonToken.indentedRest depth before tokens).flatMap String.toList := by
  induction tokens generalizing depth before with
  | nil => rfl
  | cons token tokens ih =>
      rw [spaced, ih, JsonToken.indentedRest, List.flatMap_cons,
        List.flatMap_cons, List.append_assoc]
      rfl

theorem toList_join_fragments (layout : JsonLayout) (token : JsonToken)
    (tokens : List JsonToken) :
    (String.join (layout.fragments (token :: tokens))).toList =
      token.text.toList ++
        layout.spaced (JsonToken.depthAfter 0 token) token tokens := by
  rw [String.toList_join]
  cases layout with
  | compact =>
      rw [spaced_compact, fragments, List.map_cons, List.flatMap_cons,
        List.flatMap_map]
  | indented =>
      rw [spaced_indented, fragments, JsonToken.indented, List.flatMap_cons]

variable (layout : JsonLayout) (depth : Nat)

theorem flatMap_indentation :
    (indentation depth).flatMap String.toList = List.replicate (2 * depth) ' ' := by
  induction depth with
  | zero => rfl
  | succ depth ih =>
      rw [indentation, List.replicate_succ, List.flatMap_cons, ← indentation, ih,
        Nat.mul_succ, Nat.add_comm, List.replicate_add]
      rfl

theorem flatMap_closing {token : JsonToken} (closes : token.closes = true) :
    (layout.closing depth).flatMap String.toList =
      (layout.gap (depth + 1) .null token).toList := by
  have nullOpens : JsonToken.null.opens = false := rfl
  cases layout with
  | compact => rfl
  | indented =>
      rw [closing, List.flatMap_cons, flatMap_indentation]
      simp [gap, JsonToken.gap, nullOpens, closes, JsonToken.lineBreak]

-- In what follows `null` stands for any token that begins or ends a value.

/-- Behind an opening bracket stands the separator of the first element. -/
theorem flatMap_separator_true {before : JsonToken} (opens : before.opens = true) :
    (layout.separator depth true).flatMap String.toList =
      (layout.gap depth before .null).toList := by
  cases layout with
  | compact => rfl
  | indented =>
      rw [separator, List.flatMap_cons, flatMap_indentation]
      simp [gap, JsonToken.gap, opens, JsonToken.closes, JsonToken.lineBreak]

/-- A comma and the gap behind it separate two elements. -/
theorem flatMap_separator_false :
    (layout.separator depth false).flatMap String.toList =
      ',' :: (layout.gap depth .comma .null).toList := by
  cases layout with
  | compact => rfl
  | indented =>
      rw [separator, List.flatMap_cons, flatMap_indentation]
      simp [gap, JsonToken.gap, JsonToken.opens, JsonToken.closes,
        JsonToken.lineBreak]

theorem toList_keySeparator :
    layout.keySeparator.toList = ':' :: (layout.gap depth .colon .null).toList := by
  cases layout with
  | compact => rfl
  | indented =>
      simp [keySeparator, gap, JsonToken.gap, JsonToken.opens, JsonToken.closes]

/-- In front of a token that closes nothing the gap depends on the token before
it alone. -/
theorem gap_of_not_closes {after : JsonToken} (notClosing : after.closes = false)
    (before : JsonToken) :
    layout.gap depth before after = layout.gap depth before .null := by
  have nullCloses : JsonToken.null.closes = false := rfl
  cases layout with
  | compact => rfl
  | indented => simp only [gap, JsonToken.gap, notClosing, nullCloses]

end JsonLayout

/-- A token that ends a value: no opening bracket and no separator. -/
def JsonToken.EndsValue (token : JsonToken) : Prop :=
  token.opens = false ∧ token ≠ .comma ∧ token ≠ .colon

theorem JsonToken.endsValue_number (value : Nat) : (number value).EndsValue := by
  simp [EndsValue, opens]

theorem JsonToken.endsValue_string (text : String) : (string text).EndsValue := by
  simp [EndsValue, opens]

theorem JsonToken.endsValue_of_closes {token : JsonToken}
    (closes : token.closes = true) : token.EndsValue := by
  cases token with
  | closeArray => simp [EndsValue, opens]
  | closeObject => simp [EndsValue, opens]
  | _ => cases closes

theorem JsonToken.depthAfter_of_closes {token : JsonToken}
    (closes : token.closes = true) (depth : Nat) :
    depthAfter (depth + 1) token = depth := by
  have notOpen := (endsValue_of_closes closes).1
  simp [depthAfter, notOpen, closes]

namespace JsonLayout

variable (layout : JsonLayout) (depth : Nat)

/-- What stands behind a value does not depend on how the value ends. -/
theorem spaced_of_endsValue {before : JsonToken} (ends : before.EndsValue)
    (tokens : List JsonToken) :
    layout.spaced depth before tokens = layout.spaced depth .null tokens := by
  obtain ⟨notOpen, notComma, notColon⟩ := ends
  cases tokens with
  | nil => rfl
  | cons token tokens =>
      have nullOpens : JsonToken.null.opens = false := rfl
      have same : layout.gap depth before token = layout.gap depth .null token := by
        cases layout with
        | compact => rfl
        | indented =>
            simp [gap, JsonToken.gap, notOpen, notComma, notColon, nullOpens]
      rw [spaced, spaced, same]

theorem spaced_comma (tokens : List JsonToken) :
    layout.spaced depth .null (.comma :: tokens) =
      ',' :: layout.spaced depth .comma tokens := by
  cases layout <;> rfl

/-- A token in front of which no bracket is closed keeps the gap of a value. -/
theorem spaced_of_not_closes {token : JsonToken} (notClosing : token.closes = false)
    (before : JsonToken) (tokens : List JsonToken) :
    layout.spaced depth before (token :: tokens) =
      (layout.gap depth before .null).toList ++
        (token.text.toList ++
          layout.spaced (JsonToken.depthAfter depth token) token tokens) := by
  rw [spaced, layout.gap_of_not_closes depth notClosing, List.append_assoc]

/-- A closing bracket behind the last element. -/
theorem spaced_close {token : JsonToken} (closes : token.closes = true)
    (tokens : List JsonToken) :
    layout.spaced (depth + 1) .null (token :: tokens) =
      (layout.closing depth).flatMap String.toList ++
        (token.text.toList ++ layout.spaced depth .null tokens) := by
  rw [layout.flatMap_closing depth closes, spaced,
    JsonToken.depthAfter_of_closes closes,
    layout.spaced_of_endsValue depth (JsonToken.endsValue_of_closes closes),
    List.append_assoc]

/-- A bracket that is closed at once. -/
theorem spaced_close_of_opens (before token : JsonToken)
    (opens : before.opens = true) (closes : token.closes = true)
    (tokens : List JsonToken) :
    layout.spaced (depth + 1) before (token :: tokens) =
      token.text.toList ++ layout.spaced depth .null tokens := by
  have noGap : layout.gap (depth + 1) before token = "" := by
    cases layout with
    | compact => rfl
    | indented => simp [gap, JsonToken.gap, opens, closes]
  rw [spaced, noGap, JsonToken.depthAfter_of_closes closes,
    layout.spaced_of_endsValue depth (JsonToken.endsValue_of_closes closes)]
  rfl

end JsonLayout

theorem flatMap_stringPieces (text : String) :
    (stringPieces text).flatMap String.toList =
      (JsonToken.string text).text.toList := by
  simp [stringPieces, JsonToken.text, List.flatMap_map]

namespace JsonValue

/-- The tokens of the value are put out as its pieces, with the gap in front and
whatever follows behind them. -/
def Streams (layout : JsonLayout) (value : JsonValue) : Prop :=
  ∀ depth before rest,
    layout.spaced depth before (value.tokens ++ rest) =
      (layout.gap depth before .null).toList ++
        ((value.pieces layout depth).flatMap String.toList ++
          layout.spaced depth .null rest)

variable {layout : JsonLayout}

/-- By induction on the later elements, which stand behind a comma each. -/
theorem spaced_elements {element : JsonValue} {elements : List JsonValue}
    (first : element.Streams layout)
    (later : ∀ next ∈ elements, next.Streams layout)
    (depth : Nat) (before : JsonToken) (rest : List JsonToken) :
    layout.spaced depth before (elementTokens (element :: elements) ++ rest) =
      (layout.gap depth before .null).toList ++
        ((element.pieces layout depth ++
            elementPieces layout depth false elements).flatMap String.toList ++
          layout.spaced depth .null rest) := by
  induction elements generalizing element before with
  | nil => rw [elementTokens, first, elementPieces, List.append_nil]
  | cons next elements ih =>
      obtain ⟨here, later⟩ := List.forall_mem_cons.mp later
      rw [elementTokens, List.append_assoc, first, List.cons_append,
        JsonLayout.spaced_comma, ih here later, elementPieces]
      · simp only [List.flatMap_append, JsonLayout.flatMap_separator_false,
          List.append_assoc, List.cons_append]
      · exact List.cons_ne_nil _ _

/-- No gap stands between a key and its colon. -/
theorem spaced_key (key : String) (depth : Nat) (before : JsonToken)
    (tokens : List JsonToken) :
    layout.spaced depth before (.string key :: .colon :: tokens) =
      (layout.gap depth before .null).toList ++
        ((stringPieces key).flatMap String.toList ++
          ':' :: layout.spaced depth .colon tokens) := by
  rw [layout.spaced_of_not_closes depth rfl, flatMap_stringPieces]
  cases layout <;> rfl

theorem spaced_members (key : String) {value : JsonValue}
    {members : List (String × JsonValue)} (first : value.Streams layout)
    (later : ∀ key next, (key, next) ∈ members → next.Streams layout)
    (depth : Nat) (before : JsonToken) (rest : List JsonToken) :
    layout.spaced depth before (memberTokens ((key, value) :: members) ++ rest) =
      (layout.gap depth before .null).toList ++
        ((stringPieces key ++ layout.keySeparator :: value.pieces layout depth ++
            memberPieces layout depth false members).flatMap String.toList ++
          layout.spaced depth .null rest) := by
  induction members generalizing key value before with
  | nil =>
      rw [memberTokens, List.cons_append, List.cons_append, spaced_key, first,
        memberPieces]
      simp [layout.toList_keySeparator depth]
  | cons next members ih =>
      obtain ⟨nextKey, next⟩ := next
      rw [memberTokens, List.cons_append, List.cons_append, List.append_assoc,
        spaced_key, first, List.cons_append, JsonLayout.spaced_comma,
        ih nextKey (later nextKey next List.mem_cons_self)
          (fun key value member => later key value (List.mem_cons_of_mem _ member)),
        memberPieces]
      · simp [layout.toList_keySeparator depth, layout.flatMap_separator_false]
      · exact List.cons_ne_nil _ _

/-- A value of one token. -/
theorem spaced_atom {token : JsonToken} (notClosing : token.closes = false)
    (ends : token.EndsValue) (depth : Nat) (before : JsonToken)
    (rest : List JsonToken) :
    layout.spaced depth before (token :: rest) =
      (layout.gap depth before .null).toList ++
        (token.text.toList ++ layout.spaced depth .null rest) := by
  rw [layout.spaced_of_not_closes depth notClosing]
  have same : JsonToken.depthAfter depth token = depth := by
    simp [JsonToken.depthAfter, ends.1, notClosing]
  rw [same, layout.spaced_of_endsValue depth ends]

/-- By induction on the value: inside a bracket the depth is one greater, and the
last element or member stands in front of the closing bracket. -/
theorem streams (layout : JsonLayout) (value : JsonValue) :
    value.Streams layout := by
  induction value using JsonValue.induction with
  | null => exact spaced_atom rfl (by simp [JsonToken.EndsValue, JsonToken.opens])
  | number value =>
      intro depth before rest
      rw [tokens, List.singleton_append,
        spaced_atom rfl (JsonToken.endsValue_number value), pieces,
        List.flatMap_singleton]
      rfl
  | string text =>
      intro depth before rest
      rw [tokens, List.singleton_append,
        spaced_atom rfl (JsonToken.endsValue_string text), pieces,
        flatMap_stringPieces]
  | array elements ih =>
      intro depth before rest
      rw [tokens, List.cons_append, List.append_assoc, List.singleton_append,
        layout.spaced_of_not_closes depth rfl, pieces]
      congr 1
      cases elements with
      | nil =>
          have closed :=
            layout.spaced_close_of_opens depth .openArray .closeArray rfl rfl rest
          exact congrArg ('[' :: ·) closed
      | cons element elements =>
          obtain ⟨first, later⟩ := List.forall_mem_cons.mp ih
          have inside := spaced_elements first later (depth + 1) .openArray
            (.closeArray :: rest)
          rw [layout.spaced_close depth rfl, ← layout.flatMap_separator_true _ rfl]
            at inside
          refine (congrArg ('[' :: ·) inside).trans ?_
          simp [elementPieces, JsonToken.text]
  | object members ih =>
      intro depth before rest
      rw [tokens, List.cons_append, List.append_assoc, List.singleton_append,
        layout.spaced_of_not_closes depth rfl, pieces]
      congr 1
      cases members with
      | nil =>
          have closed :=
            layout.spaced_close_of_opens depth .openObject .closeObject rfl rfl rest
          exact congrArg ('\x7b' :: ·) closed
      | cons member members =>
          obtain ⟨key, value⟩ := member
          have first := ih key value List.mem_cons_self
          have inside := spaced_members key first
            (fun key value member => ih key value (List.mem_cons_of_mem _ member))
            (depth + 1) .openObject (.closeObject :: rest)
          rw [layout.spaced_close depth rfl, ← layout.flatMap_separator_true _ rfl]
            at inside
          refine (congrArg ('\x7b' :: ·) inside).trans ?_
          simp [memberPieces, JsonToken.text]

/-- The pieces are the exported text. -/
theorem join_pieces (value : JsonValue) (layout : JsonLayout) :
    String.join (value.pieces layout 0) =
      String.join (layout.fragments value.tokens) := by
  obtain ⟨token, tokens, written, notClosing⟩ := value.exists_tokens_eq_cons
  have noGap : layout.gap 0 .null .null = "" := by
    cases layout <;> rfl
  have streamed := streams layout value 0 .null []
  rw [List.append_nil, written, layout.spaced_of_not_closes 0 notClosing, noGap]
    at streamed
  rw [← String.toList_inj, written, layout.toList_join_fragments,
    String.toList_join]
  simpa [JsonLayout.spaced] using streamed.symm

end JsonValue

/-- What a sink has and what the write comes to after it was offered the bytes: it
has the first ones, as many as there was room for, and the write is complete
exactly if that is all of them.  Otherwise the answer of the full sink decides.  A
call that takes nothing and a call that fails end the write; interrupted calls
are repeated for ever. -/
structure Sink.Receives (sink : Sink) (bytes : List UInt8) (ending : WriteEnding)
    (after : Sink) : Prop where
  received : after.received.toList = sink.received.toList ++
    match sink.room with
    | none => bytes
    | some room => bytes.take (min room bytes.length)
  written : ending = .written ↔ ∀ room, sink.room = some room → bytes.length ≤ room
  nothingAccepted : ending ≠ .written → sink.whenFull = .acceptNothing →
    ending = .failed ⟨.writeZero, "failed to write whole buffer"⟩
  refused : ∀ error, ending ≠ .written → sink.whenFull = .refuse error →
    error.kind ≠ .interrupted → ending = .failed error
  interrupted : ∀ error, ending ≠ .written → sink.whenFull = .refuse error →
    error.kind = .interrupted → ending = .endless

namespace Sink

theorem receives_of_writes {sink after : Sink} {bytes : List UInt8}
    {ending : WriteEnding} (writes : sink.Writes bytes ending after) :
    sink.Receives bytes ending after := by
  obtain ⟨rfl, rfl⟩ := writes_iff.mp writes
  constructor
  case received =>
    cases room : sink.room with
    | none => simp [take, withinRoom, room]
    | some room => simp [take, withinRoom, room, Nat.min_comm]
  case written =>
    rw [ending_eq_written_iff]
    cases room : sink.room with
    | none => simp [withinRoom, room]
    | some room =>
        simp only [withinRoom, room, Option.elim_some, Option.some.injEq, forall_eq']
        omega
  case nothingAccepted =>
    intro short accepts
    rw [ending_of_short short, accepts]
    rfl
  case refused =>
    intro error short refuses final
    rw [ending_of_short short, refuses]
    exact if_neg final
  case interrupted =>
    intro error short refuses interrupts
    rw [ending_of_short short, refuses]
    exact if_pos interrupts

end Sink

namespace ByteTables

/-- Write the export piece by piece, without its whole text. -/
def streamTo (tables : ByteTables) (layout : JsonLayout) (sink : Sink) :
    Option (Sink × Option WriteError) :=
  sink.writeFragments (tables.json.pieces layout 0)

/-- A sink receives the first bytes of the exported text, however the text is cut,
however large the calls are and whatever a full sink answers. -/
theorem writeTo_receives (tables : ByteTables) (layout : JsonLayout) (sink : Sink) :
    (∃ ending after, sink.WritesFragments (tables.json.pieces layout 0) ending after ∧
        sink.Receives (utf8Bytes (tables.text layout)) ending after ∧
        tables.writeTo layout sink = ending.returned after) ∧
      tables.streamTo layout sink = tables.writeTo layout sink ∧
      (∀ pieces, String.join pieces = tables.text layout →
        sink.writeFragments pieces = tables.writeTo layout sink ∧
          ∀ ending after, sink.WritesFragments pieces ending after ↔
            sink.WritesFragments (tables.json.pieces layout 0) ending after) ∧
      ∀ chunk whenFull ending after other last,
        sink.WritesFragments (tables.json.pieces layout 0) ending after →
        { sink with chunk := chunk, whenFull := whenFull }.WritesFragments
            (tables.json.pieces layout 0) other last →
        last.received = after.received := by
  have streamed : String.join (tables.json.pieces layout 0) = tables.text layout :=
    tables.json.join_pieces layout
  have anyCut : ∀ pieces, String.join pieces = tables.text layout →
      ∀ ending (sink after : Sink), sink.WritesFragments pieces ending after ↔
        sink.Writes (utf8Bytes (tables.text layout)) ending after := by
    intro pieces same ending sink after
    rw [Sink.writesFragments_iff, same]
  have returned : ∀ pieces, String.join pieces = tables.text layout →
      sink.writeFragments pieces = tables.writeTo layout sink := by
    intro pieces same
    rw [writeTo, Sink.writeFragments_eq, Sink.writeFragments_eq, same]
    rfl
  refine ⟨?_, returned _ streamed, fun pieces same => ⟨returned pieces same, ?_⟩, ?_⟩
  · have writes := sink.writes (utf8Bytes (tables.text layout))
    have cut := (anyCut _ streamed _ sink _).mpr writes
    refine ⟨_, _, cut, Sink.receives_of_writes writes, ?_⟩
    rw [← returned _ streamed]
    exact cut.writeFragments_eq
  · intro ending after
    rw [anyCut pieces same, anyCut _ streamed]
  · intro chunk whenFull ending after other last writes others
    rw [anyCut _ streamed, Sink.writes_iff] at writes others
    rw [writes.2, others.2]
    rfl

/-- An export that fills its sink. -/
theorem writeTo_fills_sink :
    let full : WriteError := ⟨.other "StorageFull", "no storage space"⟩
    let sink : Sink := ⟨#[], some 5, fun _ => some ⟨2, by decide⟩, .refuse full⟩
    ∃ after : Sink, after.received.toList = utf8Bytes "\x7b\"cty" ∧
      (ByteTables.mk [⟨1⟩] [none]).writeTo .compact sink = some (after, some full) := by
  intro full sink
  obtain ⟨⟨ending, after, -, receives, returned⟩, -⟩ :=
    writeTo_receives ⟨[⟨1⟩], [none]⟩ .compact sink
  have short : ending ≠ .written := by
    rw [ne_eq, receives.written]
    intro fits
    exact absurd (fits 5 rfl) (by decide +kernel)
  have failed := receives.refused full short rfl (by decide)
  refine ⟨after, receives.received.trans (by decide +kernel), ?_⟩
  rw [returned, failed]
  rfl

theorem utf8Bytes_text_ne_nil (tables : ByteTables) (layout : JsonLayout) :
    utf8Bytes (tables.text layout) ≠ [] := by
  have bracket : utf8Bytes "\x7b" ≠ [] := by decide
  rw [text, fragments, ← tables.json.join_pieces, json, JsonValue.pieces,
    String.join_cons, utf8Bytes_append]
  simp [bracket]

/-- Some of the export is left over, yet writing it does not fail: no number of calls
is enough. -/
theorem writeTo_interrupting :
    0 < (utf8Bytes (standard.text .compact)).length ∧
      standard.writeTo .compact .interrupting = none ∧
      ∀ calls, Sink.interrupting.writeWithin calls
        (utf8Bytes (standard.text .compact)) = none := by
  have nonempty := standard.utf8Bytes_text_ne_nil .compact
  refine ⟨List.length_pos_iff.mpr nonempty, ?_⟩
  rw [writeTo, Sink.writeFragments_eq]
  exact Sink.interrupting_never_returns nonempty

end ByteTables

end ByteClass
