/-!
# The ten basic byte classes

Every byte value belongs to some of ten basic classes.  A class owns one bit
position, which fixes the order in which classes are listed, and one
upper-case name.
-/

namespace ByteClass

/-- The basic classes, in the order of their bit positions. -/
inductive Flag
  | ascii
  | control
  | space
  | punctuation
  | digit
  | upper
  | lower
  | hexLetter
  | utf8Lead
  | utf8Continuation
  deriving DecidableEq

/-- Among entries whose names are distinct, a search by name finds the one that has
it. -/
theorem find?_name_eq_some_iff {α : Type} {name : α → String} {entries : List α}
    (distinct : (entries.map name).Nodup) {entry : α} (listed : entry ∈ entries)
    {wanted : String} :
    (entries.find? fun entry => name entry == wanted) = some entry ↔
      name entry = wanted := by
  constructor
  · intro found
    have same := List.find?_some found
    exact eq_of_beq same
  · rintro rfl
    induction entries with
    | nil => cases listed
    | cons first entries ih =>
        rw [List.map_cons, List.nodup_cons] at distinct
        rcases List.mem_cons.mp listed with rfl | later
        · exact List.find?_cons_of_pos (beq_self_eq_true _)
        · have other : name first ≠ name entry := fun same =>
            distinct.1 (same ▸ List.mem_map_of_mem later)
          rw [List.find?_cons_of_neg (by simpa using other)]
          exact ih distinct.2 later

namespace Flag

def all : List Flag :=
  [ascii, control, space, punctuation, digit, upper, lower, hexLetter,
    utf8Lead, utf8Continuation]

def position : Flag → Nat
  | ascii => 0
  | control => 1
  | space => 2
  | punctuation => 3
  | digit => 4
  | upper => 5
  | lower => 6
  | hexLetter => 7
  | utf8Lead => 8
  | utf8Continuation => 9

def name : Flag → String
  | ascii => "ASCII"
  | control => "CNTRL"
  | space => "SPACE"
  | punctuation => "PUNCT"
  | digit => "DIGIT"
  | upper => "UPPER"
  | lower => "LOWER"
  | hexLetter => "XALPHA"
  | utf8Lead => "UTF8LEAD"
  | utf8Continuation => "UTF8CONT"

/-- The class with exactly this name. -/
def ofName? (name : String) : Option Flag :=
  all.find? fun flag => flag.name == name

@[simp]
theorem mem_all (flag : Flag) : flag ∈ all := by
  cases flag <;> decide

theorem position_lt (flag : Flag) : flag.position < 10 := by
  cases flag <;> decide

theorem position_inj {first second : Flag} :
    first.position = second.position ↔ first = second := by
  cases first <;> cases second <;> decide

theorem exists_position_eq {position : Nat} (known : position < 10) :
    ∃ flag : Flag, flag.position = position := by
  match position, known with
  | 0, _ => exact ⟨ascii, rfl⟩
  | 1, _ => exact ⟨control, rfl⟩
  | 2, _ => exact ⟨space, rfl⟩
  | 3, _ => exact ⟨punctuation, rfl⟩
  | 4, _ => exact ⟨digit, rfl⟩
  | 5, _ => exact ⟨upper, rfl⟩
  | 6, _ => exact ⟨lower, rfl⟩
  | 7, _ => exact ⟨hexLetter, rfl⟩
  | 8, _ => exact ⟨utf8Lead, rfl⟩
  | 9, _ => exact ⟨utf8Continuation, rfl⟩

theorem ofName?_eq_some_iff {name : String} {flag : Flag} :
    ofName? name = some flag ↔ flag.name = name :=
  find?_name_eq_some_iff (by decide) (mem_all flag)

@[simp]
theorem ofName?_name (flag : Flag) : ofName? flag.name = some flag :=
  ofName?_eq_some_iff.mpr rfl

end Flag

end ByteClass
