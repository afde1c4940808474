import ByteClass.Flag

/-!
# Sets of byte classes

A set of classes is a word of sixteen bits.  The lowest ten bits belong to the
basic classes; the other six are unknown, and every operation that does not
say otherwise keeps them.  `FlagSet.holds` views a set as the positions that it
holds, and each operation has one lemma through that view.
-/

namespace ByteClass

@[ext]
structure FlagSet where
  bits : BitVec 16
  deriving DecidableEq

namespace FlagSet

def holds (set : FlagSet) (position : Nat) : Bool :=
  set.bits.getLsbD position

theorem ext_holds {first second : FlagSet}
    (agree : ∀ position, position < 16 →
      first.holds position = second.holds position) :
    first = second :=
  FlagSet.ext (BitVec.eq_of_getLsbD_eq agree)

instance : EmptyCollection FlagSet := ⟨⟨0⟩⟩

instance : Union FlagSet := ⟨fun first second => ⟨first.bits ||| second.bits⟩⟩

instance : Inter FlagSet := ⟨fun first second => ⟨first.bits &&& second.bits⟩⟩

instance : SDiff FlagSet := ⟨fun first second => ⟨first.bits &&& ~~~second.bits⟩⟩

/-- The positions that exactly one of two sets holds. -/
def symmDiff (first second : FlagSet) : FlagSet :=
  ⟨first.bits ^^^ second.bits⟩

def single (flag : Flag) : FlagSet :=
  ⟨BitVec.twoPow 16 flag.position⟩

def ofFlags : List Flag → FlagSet
  | [] => ∅
  | flag :: flags => single flag ∪ ofFlags flags

/-- All ten basic classes. -/
def known : FlagSet :=
  ofFlags Flag.all

/-- The basic classes that a set lacks.  Unknown positions are left out on
both sides. -/
def complement (set : FlagSet) : FlagSet :=
  known \ set

def truncate (set : FlagSet) : FlagSet :=
  set ∩ known

def unknown (set : FlagSet) : FlagSet :=
  set \ known

/-- The set with exactly these bits, if all of them are known. -/
def ofBits? (bits : BitVec 16) : Option FlagSet :=
  if unknown ⟨bits⟩ = ∅ then some ⟨bits⟩ else none

/-- Every position of `part` is held by `set`. -/
def contains (set part : FlagSet) : Bool :=
  set ∩ part == part

/-- Some position is held by both sets. -/
def intersects (first second : FlagSet) : Bool :=
  first ∩ second != ∅

def isEmpty (set : FlagSet) : Bool :=
  set == ∅

/-- All ten basic classes are held, whatever else is. -/
def isAll (set : FlagSet) : Bool :=
  set.contains known

instance : Membership Flag FlagSet :=
  ⟨fun set flag => set.holds flag.position = true⟩

instance (flag : Flag) (set : FlagSet) : Decidable (flag ∈ set) :=
  inferInstanceAs (Decidable (set.holds flag.position = true))

/-- The basic classes of a set in bit order. -/
def flags (set : FlagSet) : List Flag :=
  Flag.all.filter (· ∈ set)

/-- One set for each basic class of a set, then its unknown positions, if there
are any. -/
def components (set : FlagSet) : List FlagSet :=
  set.flags.map single ++
    if set.unknown.isEmpty then [] else [set.unknown]

/-- The numeric order of the words. -/
def compareBits (first second : FlagSet) : Ordering :=
  compare first.bits.toNat second.bits.toNat

theorem mem_iff {flag : Flag} {set : FlagSet} :
    flag ∈ set ↔ set.holds flag.position = true :=
  Iff.rfl

@[simp]
theorem mem_flags {flag : Flag} {set : FlagSet} :
    flag ∈ set.flags ↔ flag ∈ set := by
  simp [flags]

@[simp]
theorem holds_empty (position : Nat) : (∅ : FlagSet).holds position = false :=
  BitVec.getLsbD_zero

@[simp]
theorem holds_union (first second : FlagSet) (position : Nat) :
    (first ∪ second).holds position =
      (first.holds position || second.holds position) :=
  BitVec.getLsbD_or

@[simp]
theorem holds_inter (first second : FlagSet) (position : Nat) :
    (first ∩ second).holds position =
      (first.holds position && second.holds position) :=
  BitVec.getLsbD_and

@[simp]
theorem holds_sdiff (first second : FlagSet) (position : Nat) :
    (first \ second).holds position =
      (first.holds position && !second.holds position) := by
  change (first.bits &&& ~~~second.bits).getLsbD position = _
  by_cases inside : position < 16
  · simp [holds, inside]
  · simp [holds, BitVec.getLsbD_of_ge _ _ (Nat.le_of_not_lt inside)]

@[simp]
theorem holds_symmDiff (first second : FlagSet) (position : Nat) :
    (first.symmDiff second).holds position =
      (first.holds position ^^ second.holds position) :=
  BitVec.getLsbD_xor

@[simp]
theorem holds_single (flag : Flag) (position : Nat) :
    (single flag).holds position = decide (flag.position = position) := by
  have inside := flag.position_lt
  simp only [single, holds, BitVec.getLsbD_twoPow]
  by_cases same : flag.position = position
  · simp [same]
    omega
  · simp [same]

theorem holds_ofFlags (flags : List Flag) (position : Nat) :
    (ofFlags flags).holds position =
      flags.any fun flag => flag.position = position := by
  induction flags with
  | nil => simp [ofFlags]
  | cons flag flags ih => simp [ofFlags, ih]

theorem position_lt_of_holds_ofFlags {flags : List Flag} {position : Nat}
    (held : (ofFlags flags).holds position = true) : position < 10 := by
  rw [holds_ofFlags, List.any_eq_true] at held
  obtain ⟨flag, _, same⟩ := held
  exact of_decide_eq_true same ▸ flag.position_lt

@[simp]
theorem mem_ofFlags {flag : Flag} {flags : List Flag} :
    flag ∈ ofFlags flags ↔ flag ∈ flags := by
  simp [mem_iff, holds_ofFlags, Flag.position_inj]

@[simp]
theorem holds_known (position : Nat) :
    known.holds position = decide (position < 10) := by
  by_cases inside : position < 10
  · obtain ⟨flag, rfl⟩ := Flag.exists_position_eq inside
    simp [known, holds_ofFlags, Flag.position_inj, inside]
  · have outside : ∀ flag : Flag, flag.position ≠ position := fun flag equal =>
      inside (equal ▸ flag.position_lt)
    simp [known, holds_ofFlags, inside, outside]

@[simp]
theorem holds_complement (set : FlagSet) (position : Nat) :
    set.complement.holds position =
      (decide (position < 10) && !set.holds position) := by
  simp [complement]

@[simp]
theorem holds_truncate (set : FlagSet) (position : Nat) :
    set.truncate.holds position =
      (set.holds position && decide (position < 10)) := by
  simp [truncate]

@[simp]
theorem holds_unknown (set : FlagSet) (position : Nat) :
    set.unknown.holds position =
      (set.holds position && !decide (position < 10)) := by
  simp [unknown]

theorem contains_iff {set part : FlagSet} :
    set.contains part = true ↔
      ∀ position, part.holds position = true → set.holds position = true := by
  rw [contains, beq_iff_eq]
  constructor
  · intro equal position held
    rw [← equal] at held
    exact (Bool.and_eq_true_iff.mp (holds_inter set part position ▸ held)).1
  · intro covered
    apply ext_holds
    intro position _
    cases held : part.holds position <;> simp [held]
    exact covered position held

theorem eq_empty_iff {set : FlagSet} :
    set = ∅ ↔ ∀ position, set.holds position = false := by
  constructor
  · rintro rfl position
    simp
  · intro absent
    apply ext_holds
    intro position _
    simp [absent]

theorem unknown_eq_empty_iff_position_lt {set : FlagSet} :
    set.unknown = ∅ ↔
      ∀ position, set.holds position = true → position < 10 := by
  simp [eq_empty_iff]

theorem intersects_iff {first second : FlagSet} :
    first.intersects second = true ↔
      ∃ position, first.holds position = true ∧
        second.holds position = true := by
  rw [intersects, bne_iff_ne, Ne, eq_empty_iff]
  simp

end FlagSet

end ByteClass
