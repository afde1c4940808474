import ByteClass.Proofs.WrittenSets

/-!
# Written sets in other spellings

The text of a set may be changed without changing what it denotes: its names
may come in any order, more than once and in any mixture of cases, and white
space may stand around names and bars.  The plain text is the canonical one
among all of these, for two accepted expressions denote the same set exactly if
the plain texts of the sets agree.
-/

namespace ByteClass

/-- A basic class as a piece of an expression spells it: its name in any mixture
of cases with white space on both sides. -/
structure Spelling where
  flag : Flag
  before : List Char
  letters : List Char
  after : List Char
  isBlank_before : IsBlank before
  isBlank_after : IsBlank after
  names : Names letters (.basic flag)

namespace Spelling

def text (spelling : Spelling) : List Char :=
  spelling.before ++ spelling.letters ++ spelling.after

theorem bar_not_mem_letters (spelling : Spelling) : '|' ∉ spelling.letters :=
  bar_not_mem_of_isAlphanum fun _ => spelling.names.isAlphanum

theorem bar_not_mem_text (spelling : Spelling) : '|' ∉ spelling.text := by
  have front := spelling.isBlank_before.bar_not_mem
  have back := spelling.isBlank_after.bar_not_mem
  simp [text, front, spelling.bar_not_mem_letters, back]

/-- The term of a spelled name is its letters. -/
theorem strip_text (spelling : Spelling) :
    strip spelling.text = spelling.letters := by
  have stripped : IsStripped spelling.letters :=
    IsStripped.of_isAlphanum fun _ => spelling.names.isAlphanum
  rw [text, strip_append_blank spelling.isBlank_after,
    strip_blank_append spelling.isBlank_before, stripped.strip_eq]

/-- The name of a class as the text of a set writes it: with one space where a
bar is next to it. -/
def plain (afterBar beforeBar : Bool) (flag : Flag) : Spelling where
  flag := flag
  before := if afterBar then [' '] else []
  letters := flag.name.toList
  after := if beforeBar then [' '] else []
  isBlank_before := by cases afterBar <;> simp [IsBlank]; decide
  isBlank_after := by cases beforeBar <;> simp [IsBlank]; decide
  names := FlagSet.names_name flag

/-- The spellings of a written set; the first name stands behind a bar or at the
start. -/
def plainList : Bool → List Flag → List Spelling
  | _, [] => []
  | afterBar, [flag] => [plain afterBar false flag]
  | afterBar, flag :: other :: flags =>
      plain afterBar true flag :: plainList true (other :: flags)

theorem map_flag_plainList (afterBar : Bool) (flags : List Flag) :
    (plainList afterBar flags).map Spelling.flag = flags := by
  fun_induction plainList afterBar flags with
  | case1 => rfl
  | case2 => rfl
  | case3 afterBar flag other flags ih =>
      rw [List.map_cons, ih]
      rfl

end Spelling

/-- Spelled names with a bar between any two neighbours. -/
def spelledText (spellings : List Spelling) : String :=
  String.ofList (['|'].intercalate (spellings.map Spelling.text))

theorem terms_spelledText {spellings : List Spelling}
    (nonempty : spellings ≠ []) :
    terms (spelledText spellings).toList = spellings.map Spelling.letters := by
  have noBar : ∀ piece ∈ spellings.map Spelling.text, '|' ∉ piece := by
    intro piece among
    obtain ⟨spelling, _, rfl⟩ := List.mem_map.mp among
    exact spelling.bar_not_mem_text
  rw [spelledText, String.toList_ofList, terms_eq_splitOn,
    List.splitOn_intercalate '|' noBar (by simpa using nonempty), List.map_map]
  exact List.map_congr_left fun spelling _ => spelling.strip_text

/-- By induction on the names: what stands in front of the first name is the
space of the bar before it. -/
theorem intercalate_plainList (afterBar : Bool) (flag : Flag)
    (flags : List Flag) :
    ['|'].intercalate
        ((Spelling.plainList afterBar (flag :: flags)).map Spelling.text) =
      (if afterBar then [' '] else []) ++
        [' ', '|', ' '].intercalate
          ((flag :: flags).map fun flag => flag.name.toList) := by
  induction flags generalizing afterBar flag with
  | nil => simp [Spelling.plainList, Spelling.text, Spelling.plain]
  | cons other flags ih =>
      have rest := ih true other
      obtain ⟨spelling, spellings, first⟩ : ∃ spelling spellings,
          Spelling.plainList true (other :: flags) = spelling :: spellings := by
        cases flags <;> exact ⟨_, _, rfl⟩
      rw [Spelling.plainList, first, List.map_cons, List.map_cons,
        List.intercalate_cons_cons, ← List.map_cons, ← first, rest]
      simp [Spelling.text, Spelling.plain, List.intercalate_cons_cons]

namespace FlagSet

/-- The text of a set spells its classes in bit order. -/
theorem spelledText_plainList {set : FlagSet} {flag : Flag}
    (member : flag ∈ set) :
    spelledText (Spelling.plainList false set.flags) = set.text := by
  have nonempty : set ≠ ∅ := by
    rintro rfl
    simp [mem_iff] at member
  obtain ⟨first, flags, listed⟩ :=
    List.exists_cons_of_ne_nil (List.ne_nil_of_mem (mem_flags.mpr member))
  rw [← String.toList_inj, toList_text nonempty, listed, spelledText,
    String.toList_ofList, intercalate_plainList]
  rfl

/-- The order of spelled names, repetitions, cases and white space have no
influence. -/
theorem parse_spelledText {set : FlagSet} {spellings : List Spelling}
    (nonempty : spellings ≠ [])
    (spelled : ∀ flag, flag ∈ spellings.map Spelling.flag ↔ flag ∈ set) :
    parse (spelledText spellings) = .ok set.truncate := by
  apply parse_of_terms_name <;> rw [terms_spelledText nonempty]
  · intro term among
    obtain ⟨spelling, listed, rfl⟩ := List.mem_map.mp among
    have held := (spelled spelling.flag).mp (List.mem_map_of_mem listed)
    exact ⟨spelling.flag, held, spelling.names⟩
  · intro flag held
    obtain ⟨spelling, listed, rfl⟩ := List.mem_map.mp ((spelled flag).mpr held)
    exact ⟨spelling.letters, List.mem_map_of_mem listed, spelling.names⟩

theorem truncate_eq_self {set : FlagSet}
    (known : ∀ position, set.holds position = true → position < 10) :
    set.truncate = set := by
  apply ext_holds
  intro position _
  cases held : set.holds position <;> simp [held]
  exact known position held

end FlagSet

theorem NamedClass.position_lt_of_holds {named : NamedClass} {position : Nat}
    (held : named.flagSet.holds position = true) : position < 10 := by
  cases named with
  | basic flag =>
      rw [flagSet, FlagSet.holds_single, decide_eq_true_eq] at held
      exact held ▸ flag.position_lt
  | composite union => exact FlagSet.position_lt_of_holds_ofFlags held

namespace FlagSet

/-- No expression denotes a set with unknown positions. -/
theorem position_lt_of_parse_eq_ok {expression : String} {set : FlagSet}
    (accepted : parse expression = .ok set) {position : Nat}
    (held : set.holds position = true) : position < 10 := by
  have denotes := denotes_parse expression
  rw [accepted] at denotes
  cases denotes with
  | zero alone => simp at held
  | union set notZero allNamed unites =>
      obtain ⟨term, _, named, _, here⟩ := (unites position).mp held
      exact NamedClass.position_lt_of_holds here

theorem parse_text_of_eq_empty_or_mem {set : FlagSet}
    (expressible : set = ∅ ∨ ∃ flag, flag ∈ set) :
    parse set.text = .ok set.truncate := by
  rcases expressible with rfl | ⟨flag, member⟩
  · rw [parse_text_empty, truncate_eq_self (by simp)]
  · exact parse_text_of_mem member

/-- Without unknown positions nothing is lost. -/
theorem parse_text_of_known {set : FlagSet}
    (known : ∀ position, set.holds position = true → position < 10) :
    parse set.text = .ok set := by
  have expressible : set = ∅ ∨ ∃ flag, flag ∈ set := by
    by_cases empty : set = ∅
    · exact .inl empty
    · rw [eq_empty_iff, not_forall] at empty
      obtain ⟨position, held⟩ := empty
      rw [Bool.not_eq_false] at held
      obtain ⟨flag, rfl⟩ := Flag.exists_position_eq (known position held)
      exact .inr ⟨flag, held⟩
  rw [parse_text_of_eq_empty_or_mem expressible, truncate_eq_self known]

theorem text_inj_of_known {first second : FlagSet}
    (firstKnown : ∀ position, first.holds position = true → position < 10)
    (secondKnown : ∀ position, second.holds position = true → position < 10) :
    first = second ↔ first.text = second.text := by
  constructor
  · rintro rfl
    rfl
  · intro same
    have again := parse_text_of_known firstKnown
    rw [same, parse_text_of_known secondKnown] at again
    exact (Except.ok.inj again).symm

end FlagSet

/-- The text of a set and the set that an expression denotes are inverse to
each other, and the text is canonical.  Unknown positions are lost, and a set
that holds nothing else has no readable text.  A set with a known position has
many other texts: its names in any order, repeated, in any cases and with white
space around them. -/
theorem text_canonical_of_parse :
    (∀ expression set, FlagSet.parse expression = .ok set →
      (∀ position, set.holds position = true → position < 10) ∧
      FlagSet.parse set.text = .ok set ∧
      ∀ other otherSet, FlagSet.parse other = .ok otherSet →
        (set = otherSet ↔ set.text = otherSet.text)) ∧
    ∀ set : FlagSet,
      (set = ∅ ∨ (∃ flag, flag ∈ set) →
        FlagSet.parse set.text = .ok set.truncate) ∧
      (set ≠ ∅ → (∀ flag, flag ∉ set) →
        FlagSet.parse set.text = .error .emptyTerm) ∧
      ((∃ flag, flag ∈ set) →
        (∃ spellings, spellings.map Spelling.flag = set.flags ∧
          spelledText spellings = set.text) ∧
        ∀ spellings : List Spelling,
          (∀ flag, flag ∈ spellings.map Spelling.flag ↔ flag ∈ set) →
          FlagSet.parse (spelledText spellings) = .ok set.truncate) := by
  refine ⟨fun expression set accepted => ?_, fun set =>
    ⟨FlagSet.parse_text_of_eq_empty_or_mem, FlagSet.parse_text_of_not_mem, ?_⟩⟩
  · have known : ∀ position, set.holds position = true → position < 10 :=
      fun _ => FlagSet.position_lt_of_parse_eq_ok accepted
    refine ⟨known, FlagSet.parse_text_of_known known,
      fun other otherSet alsoAccepted => ?_⟩
    exact FlagSet.text_inj_of_known known fun _ =>
      FlagSet.position_lt_of_parse_eq_ok alsoAccepted
  · rintro ⟨flag, member⟩
    refine ⟨⟨_, Spelling.map_flag_plainList false set.flags,
      FlagSet.spelledText_plainList member⟩, fun spellings spelled => ?_⟩
    have nonempty : spellings ≠ [] := by
      rintro rfl
      exact absurd ((spelled flag).mpr member) (by simp)
    exact FlagSet.parse_spelledText nonempty spelled

theorem text_canonical_mixed_spellings :
    FlagSet.parse "utf8mbc" = .ok ⟨0x300⟩ ∧
      FlagSet.parse " UTF8CONT|utf8lead" = .ok ⟨0x300⟩ ∧
      FlagSet.parse (FlagSet.text ⟨0x300⟩) = .ok ⟨0x300⟩ ∧
      FlagSet.parse (FlagSet.text ⟨0x8003⟩) = .ok ⟨3⟩ ∧
      FlagSet.parse (FlagSet.text ⟨0x8000⟩) = .error .emptyTerm ∧
      FlagSet.parse " cNtRl\t|ASCII |CNTRL" = .ok ⟨3⟩ := by
  have composite : FlagSet.parse "utf8mbc" = .ok ⟨0x300⟩ := by decide +kernel
  have parts : FlagSet.parse " UTF8CONT|utf8lead" = .ok ⟨0x300⟩ := by
    decide +kernel
  obtain ⟨accepted, written⟩ := text_canonical_of_parse
  obtain ⟨_, readBack, _⟩ := accepted _ _ parts
  have known : ∃ flag, flag ∈ (⟨0x8003⟩ : FlagSet) := ⟨.ascii, by decide⟩
  obtain ⟨lossy, _, decorated⟩ := written ⟨0x8003⟩
  obtain ⟨_, silent, _⟩ := written ⟨0x8000⟩
  let mixed : Spelling :=
    ⟨.control, [' '], "cNtRl".toList, ['\t'], by simp [IsBlank]; decide,
      by simp [IsBlank]; decide, by rw [Names]; decide⟩
  have spelled := (decorated known).2
    [mixed, .plain false true .ascii, .plain false false .control]
    (by intro flag; cases flag <;> decide)
  exact ⟨composite, parts, readBack, lossy (.inr known),
    silent (by decide) (by intro flag; cases flag <;> decide), spelled⟩

end ByteClass
