import ByteClass.FlagExpression

/-!
# Terms and white space

Stripping removes the blank ends of a text and nothing else.  Hence the terms
of an expression do not see blanks around the expression, around its bars or
around its names, and every other character of it, bars aside, stands in one of
its terms.
-/

namespace ByteClass

/-- Only white space, possibly none. -/
def IsBlank (text : List Char) : Prop :=
  ∀ char ∈ text, isWhiteSpace char = true

/-- No white space at either end. -/
def IsStripped (text : List Char) : Prop :=
  ∀ char, text.head? = some char ∨ text.getLast? = some char →
    isWhiteSpace char = false

theorem IsBlank.reverse {text : List Char} (blank : IsBlank text) :
    IsBlank text.reverse := fun char member =>
  blank char (List.mem_reverse.mp member)

theorem IsBlank.bar_not_mem {text : List Char} (blank : IsBlank text) :
    '|' ∉ text := by
  intro member
  have white := blank '|' member
  exact absurd white (by decide)

theorem isBlank_takeWhile (text : List Char) :
    IsBlank (text.takeWhile isWhiteSpace) := by
  induction text with
  | nil => simp [IsBlank]
  | cons char text ih =>
      rw [List.takeWhile_cons]
      split
      · rename_i white
        intro other member
        rcases List.mem_cons.mp member with rfl | later
        · exact white
        · exact ih other later
      · simp [IsBlank]

theorem exists_eq_append_strip (text : List Char) :
    ∃ before after, IsBlank before ∧ IsBlank after ∧
      text = before ++ strip text ++ after := by
  let rest := text.dropWhile isWhiteSpace
  refine ⟨text.takeWhile isWhiteSpace,
    (rest.reverse.takeWhile isWhiteSpace).reverse,
    isBlank_takeWhile text, (isBlank_takeWhile rest.reverse).reverse, ?_⟩
  have ends : strip text ++ (rest.reverse.takeWhile isWhiteSpace).reverse =
      rest := by
    rw [strip, ← List.reverse_append, List.takeWhile_append_dropWhile,
      List.reverse_reverse]
  rw [List.append_assoc, ends, List.takeWhile_append_dropWhile]

theorem infix_strip (text : List Char) : strip text <:+: text := by
  obtain ⟨before, after, _, _, equal⟩ := exists_eq_append_strip text
  exact ⟨before, after, equal.symm⟩

@[simp]
theorem strip_blank_append {before : List Char} (blank : IsBlank before)
    (text : List Char) : strip (before ++ text) = strip text := by
  rw [strip, strip, List.dropWhile_append_of_pos blank]

@[simp]
theorem strip_append_blank {after : List Char} (blank : IsBlank after)
    (text : List Char) : strip (text ++ after) = strip text := by
  have vanishes : after.dropWhile isWhiteSpace = [] := by
    rw [← List.append_nil after, List.dropWhile_append_of_pos blank]
    rfl
  rw [strip, strip, List.dropWhile_append]
  split
  · rename_i nothing
    rw [vanishes, List.isEmpty_iff.mp nothing]
  · rw [List.reverse_append, List.dropWhile_append_of_pos blank.reverse]

theorem isWhiteSpace_head?_dropWhile {text : List Char} {char : Char}
    (first : (text.dropWhile isWhiteSpace).head? = some char) :
    isWhiteSpace char = false := by
  simpa [first] using List.head?_dropWhile_not isWhiteSpace text

theorem isStripped_strip (text : List Char) : IsStripped (strip text) := by
  rintro char (first | last)
  · have shorter : strip text <+: text.dropWhile isWhiteSpace := by
      rw [strip, ← List.reverse_suffix, List.reverse_reverse]
      exact List.dropWhile_suffix isWhiteSpace
    obtain ⟨after, equal⟩ := shorter
    have start : (text.dropWhile isWhiteSpace).head? = some char := by
      rw [← equal, List.head?_append, first, Option.some_or]
    exact isWhiteSpace_head?_dropWhile start
  · rw [strip, List.getLast?_reverse] at last
    exact isWhiteSpace_head?_dropWhile last

theorem IsStripped.reverse {text : List Char} (stripped : IsStripped text) :
    IsStripped text.reverse := by
  rintro char (first | last)
  · exact stripped char (.inr (by rwa [List.head?_reverse] at first))
  · exact stripped char (.inl (by rwa [List.getLast?_reverse] at last))

theorem IsStripped.dropWhile_eq {text : List Char}
    (stripped : IsStripped text) : text.dropWhile isWhiteSpace = text := by
  cases text with
  | nil => rfl
  | cons char text =>
      have black := stripped char (.inl rfl)
      exact List.dropWhile_cons_of_neg (by simp [black])

theorem IsStripped.strip_eq {text : List Char} (stripped : IsStripped text) :
    strip text = text := by
  rw [strip, stripped.dropWhile_eq, stripped.reverse.dropWhile_eq,
    List.reverse_reverse]

@[simp]
theorem strip_strip (text : List Char) : strip (strip text) = strip text :=
  (isStripped_strip text).strip_eq

theorem mem_strip {text : List Char} {char : Char} (member : char ∈ text)
    (black : isWhiteSpace char = false) : char ∈ strip text := by
  obtain ⟨before, after, blankBefore, blankAfter, equal⟩ :=
    exists_eq_append_strip text
  rw [equal, List.mem_append, List.mem_append] at member
  rcases member with (first | inside) | last
  · simp [blankBefore char first] at black
  · exact inside
  · simp [blankAfter char last] at black

theorem pieces_eq_splitOn (text : List Char) :
    pieces text = text.splitOn '|' := by
  induction text with
  | nil => rfl
  | cons char text ih =>
      simp [pieces, List.splitOn_cons_eq_if_modifyHead, ih]

theorem pieces_of_bar_not_mem {text : List Char} (noBar : '|' ∉ text) :
    pieces text = [text] := by
  rw [pieces_eq_splitOn, List.splitOn_eq_singleton noBar]

/-- What stands before the first bar belongs to the first piece. -/
theorem pieces_append_of_bar_not_mem_left {first : List Char}
    (noBar : '|' ∉ first) (second : List Char) :
    ∃ piece others, pieces second = piece :: others ∧
      pieces (first ++ second) = (first ++ piece) :: others := by
  obtain ⟨piece, others, equal⟩ :=
    List.exists_cons_of_ne_nil (pieces_ne_nil second)
  refine ⟨piece, others, equal, ?_⟩
  induction first with
  | nil => exact equal
  | cons char first ih =>
      have notBar : char ≠ '|' := fun same => noBar (by simp [same])
      rw [List.cons_append, pieces, if_neg notBar,
        ih (fun later => noBar (List.mem_cons_of_mem _ later))]
      rfl

/-- A text is one piece, or a piece, a bar and another text. -/
@[elab_as_elim]
theorem bar_induction {motive : List Char → Prop}
    (piece : ∀ text, '|' ∉ text → motive text)
    (bar : ∀ first second, '|' ∉ first → motive second →
      motive (first ++ '|' :: second))
    (text : List Char) : motive text := by
  by_cases barred : '|' ∈ text
  · obtain ⟨first, second, equal, noBar⟩ := List.eq_append_cons_of_mem barred
    have shorter : second.length < text.length := by
      rw [equal, List.length_append, List.length_cons]
      omega
    rw [equal]
    exact bar first second noBar (bar_induction piece bar second)
  · exact piece text barred
  termination_by text.length

/-- What stands behind the last bar belongs to the last piece. -/
theorem pieces_append_of_bar_not_mem_right (first : List Char)
    {second : List Char} (noBar : '|' ∉ second) :
    ∃ others piece, pieces first = others ++ [piece] ∧
      pieces (first ++ second) = others ++ [piece ++ second] := by
  induction first using bar_induction with
  | piece text unbarred =>
      refine ⟨[], text, pieces_of_bar_not_mem unbarred, ?_⟩
      rw [pieces_of_bar_not_mem (by simp [unbarred, noBar]), List.nil_append]
  | bar front rest unbarred ih =>
      obtain ⟨others, piece, before, after⟩ := ih
      refine ⟨front :: others, piece, ?_, ?_⟩
      · rw [pieces_append_bar, pieces_of_bar_not_mem unbarred, before]
        rfl
      · rw [List.append_assoc, List.cons_append, pieces_append_bar,
          pieces_of_bar_not_mem unbarred, after]
        rfl

theorem bar_not_mem_of_mem_pieces {text piece : List Char}
    (member : piece ∈ pieces text) : '|' ∉ piece := by
  induction text using bar_induction with
  | piece text unbarred =>
      rw [pieces_of_bar_not_mem unbarred] at member
      rwa [List.mem_singleton.mp member]
  | bar first second unbarred ih =>
      rw [pieces_append_bar, pieces_of_bar_not_mem unbarred] at member
      rcases List.mem_cons.mp member with rfl | later
      · exact unbarred
      · exact ih later

theorem infix_of_mem_pieces {text piece : List Char}
    (member : piece ∈ pieces text) : piece <:+: text := by
  induction text using bar_induction with
  | piece text unbarred =>
      rw [pieces_of_bar_not_mem unbarred] at member
      obtain rfl := List.mem_singleton.mp member
      exact List.infix_rfl
  | bar first second unbarred ih =>
      rw [pieces_append_bar, pieces_of_bar_not_mem unbarred] at member
      rcases List.mem_cons.mp member with rfl | later
      · exact (List.prefix_append piece _).isInfix
      · exact (ih later).trans
          ((List.suffix_cons '|' second).trans
            (List.suffix_append first _)).isInfix

theorem exists_mem_pieces_of_mem {text : List Char} {char : Char}
    (member : char ∈ text) (notBar : char ≠ '|') :
    ∃ piece ∈ pieces text, char ∈ piece := by
  induction text using bar_induction with
  | piece text unbarred =>
      exact ⟨text, by simp [pieces_of_bar_not_mem unbarred], member⟩
  | bar first second unbarred ih =>
      rw [pieces_append_bar, pieces_of_bar_not_mem unbarred]
      rcases List.mem_append.mp member with front | back
      · exact ⟨first, by simp, front⟩
      · have later := (List.mem_cons.mp back).resolve_left notBar
        obtain ⟨piece, among, inside⟩ := ih later
        exact ⟨piece, by simp [among], inside⟩

theorem terms_append_bar (first second : List Char) :
    terms (first ++ '|' :: second) = terms first ++ terms second := by
  rw [terms, pieces_append_bar, List.map_append, ← terms, ← terms]

theorem terms_of_bar_not_mem {text : List Char} (noBar : '|' ∉ text) :
    terms text = [strip text] := by
  rw [terms, pieces_of_bar_not_mem noBar, List.map_singleton]

@[simp]
theorem terms_blank_append {before : List Char} (blank : IsBlank before)
    (text : List Char) : terms (before ++ text) = terms text := by
  obtain ⟨piece, others, equal, whole⟩ :=
    pieces_append_of_bar_not_mem_left blank.bar_not_mem text
  rw [terms, terms, whole, equal, List.map_cons, List.map_cons,
    strip_blank_append blank]

@[simp]
theorem terms_append_blank {after : List Char} (blank : IsBlank after)
    (text : List Char) : terms (text ++ after) = terms text := by
  obtain ⟨others, piece, equal, whole⟩ :=
    pieces_append_of_bar_not_mem_right text blank.bar_not_mem
  rw [terms, terms, whole, equal, List.map_append, List.map_append,
    List.map_singleton, List.map_singleton, strip_append_blank blank]

/-- Blank ends of an expression are blank ends of its first and last piece. -/
@[simp]
theorem terms_strip (text : List Char) : terms (strip text) = terms text := by
  obtain ⟨before, after, blankBefore, blankAfter, equal⟩ :=
    exists_eq_append_strip text
  calc
    terms (strip text) = terms (before ++ strip text) :=
      (terms_blank_append blankBefore _).symm
    _ = terms (before ++ strip text ++ after) :=
      (terms_append_blank blankAfter _).symm
    _ = terms text := by rw [← equal]

theorem isStripped_of_mem_terms {text term : List Char}
    (member : term ∈ terms text) : IsStripped term := by
  obtain ⟨piece, _, rfl⟩ := List.mem_map.mp member
  exact isStripped_strip piece

theorem bar_not_mem_of_mem_terms {text term : List Char}
    (member : term ∈ terms text) : '|' ∉ term := by
  obtain ⟨piece, among, rfl⟩ := List.mem_map.mp member
  exact fun inside =>
    bar_not_mem_of_mem_pieces among ((infix_strip piece).subset inside)

theorem infix_of_mem_terms {text term : List Char}
    (member : term ∈ terms text) : term <:+: text := by
  obtain ⟨piece, among, rfl⟩ := List.mem_map.mp member
  exact (infix_strip piece).trans (infix_of_mem_pieces among)

/-- Splitting and stripping lose bars and white space only. -/
theorem exists_mem_terms_of_mem {text : List Char} {char : Char}
    (member : char ∈ text) (notBar : char ≠ '|')
    (black : isWhiteSpace char = false) :
    ∃ term ∈ terms text, char ∈ term := by
  obtain ⟨piece, among, inside⟩ := exists_mem_pieces_of_mem member notBar
  exact ⟨strip piece, List.mem_map_of_mem among, mem_strip inside black⟩

end ByteClass
