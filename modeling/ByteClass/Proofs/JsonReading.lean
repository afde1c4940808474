import ByteClass.Proofs.JsonTokens

/-!
# Reading JSON texts

A reader takes one token after another.  It keeps the open brackets around its
place, each with what it has read behind the bracket.  Over the tokens of a
value it comes from in front of the value to behind it, and the open brackets
are the same as before.  Both layouts of a value therefore read back.
-/

namespace ByteClass

/-- An open bracket around a value: the elements in front of the value, or the
members in front of it and the key of the value. -/
inductive JsonFrame
  | array (elements : List JsonValue)
  | object (members : List (String × JsonValue)) (key : String)

/-- What a reader is in front of or behind, and the open brackets around it,
innermost first. -/
inductive JsonReader
  | beforeValue (frames : List JsonFrame)
  | arrayStart (frames : List JsonFrame)
  | objectStart (frames : List JsonFrame)
  | beforeKey (members : List (String × JsonValue)) (frames : List JsonFrame)
  | beforeColon (members : List (String × JsonValue)) (key : String)
      (frames : List JsonFrame)
  | behind (value : JsonValue) (frames : List JsonFrame)

namespace JsonReader

/-- Take the first token of a value. -/
def begin? (frames : List JsonFrame) : JsonToken → Option JsonReader
  | .null => some (behind .null frames)
  | .number value => some (behind (.number value) frames)
  | .string text => some (behind (.string text) frames)
  | .openArray => some (arrayStart frames)
  | .openObject => some (objectStart frames)
  | _ => none

/-- Take one token; a token that may not stand there is refused. -/
def take? : JsonReader → JsonToken → Option JsonReader
  | beforeValue frames, token => begin? frames token
  | arrayStart frames, .closeArray => some (behind (.array []) frames)
  | arrayStart frames, token => begin? (.array [] :: frames) token
  | objectStart frames, .closeObject => some (behind (.object []) frames)
  | objectStart frames, .string key => some (beforeColon [] key frames)
  | beforeKey members frames, .string key => some (beforeColon members key frames)
  | beforeColon members key frames, .colon =>
      some (beforeValue (.object members key :: frames))
  | behind value (.array elements :: frames), .comma =>
      some (beforeValue (.array (elements ++ [value]) :: frames))
  | behind value (.array elements :: frames), .closeArray =>
      some (behind (.array (elements ++ [value])) frames)
  | behind value (.object members key :: frames), .comma =>
      some (beforeKey (members ++ [(key, value)]) frames)
  | behind value (.object members key :: frames), .closeObject =>
      some (behind (.object (members ++ [(key, value)])) frames)
  | _, _ => none

/-- The value behind which a reader is, if no bracket is open. -/
def result? : JsonReader → Option JsonValue
  | behind value [] => some value
  | _ => none

end JsonReader

/-- The value that a text stands for. -/
def readJson? (text : String) : Option JsonValue := do
  let tokens ← readTokens? text.toList
  let reader ← tokens.foldlM JsonReader.take? (.beforeValue [])
  reader.result?

/-- Induction over values: elements and members stand for themselves. -/
@[elab_as_elim]
theorem JsonValue.induction {motive : JsonValue → Prop} (null : motive .null)
    (number : ∀ value, motive (.number value))
    (string : ∀ text, motive (.string text))
    (array : ∀ elements, (∀ element ∈ elements, motive element) →
      motive (.array elements))
    (object : ∀ members : List (String × JsonValue),
      (∀ key value, (key, value) ∈ members → motive value) →
      motive (.object members)) :
    ∀ value, motive value
  | .null => null
  | .number value => number value
  | .string text => string text
  | .array elements =>
      array elements fun element _ =>
        JsonValue.induction null number string array object element
  | .object members =>
      object members fun _ value _ =>
        JsonValue.induction null number string array object value
  termination_by value => sizeOf value
  decreasing_by
    · have smaller := List.sizeOf_lt_of_mem ‹_›
      simp only [JsonValue.array.sizeOf_spec]
      omega
    · have smaller := List.sizeOf_lt_of_mem ‹_›
      simp only [JsonValue.object.sizeOf_spec, Prod.mk.sizeOf_spec] at smaller ⊢
      omega

/-- The first token of a value closes nothing. -/
theorem JsonValue.exists_tokens_eq_cons (value : JsonValue) :
    ∃ token rest, value.tokens = token :: rest ∧ token.closes = false := by
  cases value with
  | null => exact ⟨_, _, rfl, rfl⟩
  | number value => exact ⟨_, _, rfl, rfl⟩
  | string text => exact ⟨_, _, rfl, rfl⟩
  | array elements => exact ⟨_, _, tokens.eq_def _, rfl⟩
  | object members => exact ⟨_, _, tokens.eq_def _, rfl⟩

namespace JsonReader

/-- Reading the tokens of the value leads from in front of it to behind it. -/
def Reads (value : JsonValue) : Prop :=
  ∀ frames, value.tokens.foldlM take? (beforeValue frames) =
    some (behind value frames)

variable {value : JsonValue}

theorem Reads.append (reads : Reads value) (frames : List JsonFrame)
    (rest : List JsonToken) :
    (value.tokens ++ rest).foldlM take? (beforeValue frames) =
      rest.foldlM take? (behind value frames) := by
  rw [List.foldlM_append, reads frames]
  rfl

/-- By induction on the elements: those in front of the place are in the frame. -/
theorem foldlM_elements {elements : List JsonValue} (nonempty : elements ≠ [])
    (reads : ∀ element ∈ elements, Reads element) (before : List JsonValue)
    (frames : List JsonFrame) :
    (elementTokens elements ++ [JsonToken.closeArray]).foldlM take?
        (beforeValue (.array before :: frames)) =
      some (behind (.array (before ++ elements)) frames) := by
  induction elements generalizing before with
  | nil => exact absurd rfl nonempty
  | cons element elements ih =>
      obtain ⟨here, later⟩ := List.forall_mem_cons.mp reads
      cases elements with
      | nil =>
          rw [elementTokens, here.append]
          rfl
      | cons next elements =>
          have rest := ih (List.cons_ne_nil _ _) later (before ++ [element])
          rw [List.append_assoc, List.singleton_append] at rest
          rw [elementTokens, List.append_assoc, here.append, ← rest]
          · rfl
          · exact List.cons_ne_nil _ _

theorem foldlM_members {members : List (String × JsonValue)}
    (nonempty : members ≠ [])
    (reads : ∀ key value, (key, value) ∈ members → Reads value)
    (before : List (String × JsonValue)) (frames : List JsonFrame) :
    (memberTokens members ++ [JsonToken.closeObject]).foldlM take?
        (beforeKey before frames) =
      some (behind (.object (before ++ members)) frames) := by
  induction members generalizing before with
  | nil => exact absurd rfl nonempty
  | cons member members ih =>
      obtain ⟨key, value⟩ := member
      have here : Reads value := reads key value List.mem_cons_self
      have colon : ∀ rest : List JsonToken,
          (.string key :: .colon :: (value.tokens ++ rest)).foldlM take?
              (beforeKey before frames) =
            rest.foldlM take? (behind value (.object before key :: frames)) :=
        here.append _
      cases members with
      | nil =>
          rw [memberTokens]
          exact colon _
      | cons next members =>
          have rest := ih (List.cons_ne_nil _ _)
            (fun key value member => reads key value (List.mem_cons_of_mem _ member))
            (before ++ [(key, value)])
          rw [List.append_assoc, List.singleton_append] at rest
          rw [memberTokens, List.cons_append, List.cons_append, List.append_assoc,
            colon, ← rest]
          · rfl
          · exact List.cons_ne_nil _ _

/-- In front of the first element a reader is in front of a value. -/
theorem foldlM_arrayStart (element : JsonValue) (elements : List JsonValue)
    (rest : List JsonToken) (frames : List JsonFrame) :
    (elementTokens (element :: elements) ++ rest).foldlM take?
        (arrayStart frames) =
      (elementTokens (element :: elements) ++ rest).foldlM take?
        (beforeValue (.array [] :: frames)) := by
  obtain ⟨token, tokens, written, notClosing⟩ := element.exists_tokens_eq_cons
  have first : ∀ more : List JsonToken,
      (element.tokens ++ more).foldlM take? (arrayStart frames) =
        (element.tokens ++ more).foldlM take?
          (beforeValue (.array [] :: frames)) := by
    intro more
    rw [written, List.cons_append, List.foldlM_cons, List.foldlM_cons]
    congr 1
    cases token with
    | closeArray => cases notClosing
    | _ => rfl
  cases elements with
  | nil => exact first rest
  | cons next elements =>
      rw [elementTokens, List.append_assoc, first]
      exact List.cons_ne_nil _ _

/-- In front of the first member a reader is in front of a key. -/
theorem foldlM_objectStart (member : String × JsonValue)
    (members : List (String × JsonValue)) (rest : List JsonToken)
    (frames : List JsonFrame) :
    (memberTokens (member :: members) ++ rest).foldlM take?
        (objectStart frames) =
      (memberTokens (member :: members) ++ rest).foldlM take?
        (beforeKey [] frames) := by
  cases members with
  | nil => rfl
  | cons next members =>
      rw [memberTokens]
      · rfl
      · exact List.cons_ne_nil _ _

/-- Whatever brackets are open, reading a value leaves them as they are. -/
theorem reads (value : JsonValue) : Reads value := by
  induction value using JsonValue.induction with
  | null => exact fun _ => rfl
  | number value => exact fun _ => rfl
  | string text => exact fun _ => rfl
  | array elements ih =>
      intro frames
      cases elements with
      | nil => rfl
      | cons element elements =>
          have closed := foldlM_elements (List.cons_ne_nil _ _) ih [] frames
          rw [← foldlM_arrayStart] at closed
          exact closed
  | object members ih =>
      intro frames
      cases members with
      | nil => rfl
      | cons member members =>
          have closed := foldlM_members (List.cons_ne_nil _ _) ih [] frames
          rw [← foldlM_objectStart] at closed
          exact closed

end JsonReader

section Apart

open JsonToken

variable {front back : List JsonToken} {separator : JsonToken}

/-- A token that is no number may stand between any two texts. -/
theorem isChain_apart_append_cons (frontApart : front.IsChain Apart)
    (notNumber : separator.isNumber = false) (backApart : back.IsChain Apart) :
    (front ++ separator :: back).IsChain Apart := by
  have left : ∀ token, Apart token separator := by simp [Apart, notNumber]
  have right : ∀ token, Apart separator token := by simp [Apart, notNumber]
  refine List.isChain_append.mpr ⟨frontApart, ?_, ?_⟩
  · exact List.isChain_cons.mpr ⟨fun token _ => right token, backApart⟩
  · rintro token _ _ ⟨⟩
    exact left token

theorem isChain_apart_elements {elements : List JsonValue}
    (each : ∀ element ∈ elements, element.tokens.IsChain Apart) :
    (elementTokens elements).IsChain Apart := by
  induction elements with
  | nil => exact .nil
  | cons element elements ih =>
      obtain ⟨here, later⟩ := List.forall_mem_cons.mp each
      cases elements with
      | nil => exact here
      | cons next elements =>
          rw [elementTokens]
          · exact isChain_apart_append_cons here rfl (ih later)
          · exact List.cons_ne_nil _ _

theorem isChain_apart_members {members : List (String × JsonValue)}
    (each : ∀ key value, (key, value) ∈ members → value.tokens.IsChain Apart) :
    (memberTokens members).IsChain Apart := by
  induction members with
  | nil => exact .nil
  | cons member members ih =>
      obtain ⟨key, value⟩ := member
      have here : (JsonToken.string key :: .colon :: value.tokens).IsChain Apart :=
        isChain_apart_append_cons (.singleton _) rfl
          (each key value List.mem_cons_self)
      cases members with
      | nil => exact here
      | cons next members =>
          have later := ih fun key value member =>
            each key value (List.mem_cons_of_mem _ member)
          rw [memberTokens]
          · exact isChain_apart_append_cons here rfl later
          · exact List.cons_ne_nil _ _

/-- Two numbers never stand side by side. -/
theorem JsonValue.isChain_apart (value : JsonValue) :
    value.tokens.IsChain Apart := by
  induction value using JsonValue.induction with
  | null => exact .singleton _
  | number value => exact .singleton _
  | string text => exact .singleton _
  | array elements ih =>
      rw [tokens]
      have inside := isChain_apart_elements ih
      exact isChain_apart_append_cons .nil rfl
        (isChain_apart_append_cons inside rfl .nil)
  | object members ih =>
      rw [tokens]
      have inside := isChain_apart_members ih
      exact isChain_apart_append_cons .nil rfl
        (isChain_apart_append_cons inside rfl .nil)

end Apart

/-- Each layout writes the tokens. -/
theorem JsonLayout.writes (layout : JsonLayout) (tokens : List JsonToken) :
    Writes tokens (String.join (layout.fragments tokens)).toList := by
  cases layout with
  | compact => exact JsonToken.writes_compact tokens
  | indented => exact JsonToken.writes_indented tokens

/-- A value reads back from its text in each layout. -/
theorem readJson?_join (layout : JsonLayout) (value : JsonValue) :
    readJson? (String.join (layout.fragments value.tokens)) = some value := by
  have tokens := (layout.writes value.tokens).readTokens?_eq value.isChain_apart
  simp only [readJson?, tokens, JsonReader.reads value [], Option.bind_eq_bind,
    Option.bind_some]
  rfl

/-- Without blanks the indented text is the compact one. -/
theorem deleteBlanks_join (tokens : List JsonToken) :
    deleteBlanks (String.join (JsonLayout.indented.fragments tokens)) =
      String.join (JsonLayout.compact.fragments tokens) := by
  rw [deleteBlanks, (JsonLayout.indented.writes tokens).deleteBlanksFrom_eq,
    String.ofList_toList]
  rfl

end ByteClass
