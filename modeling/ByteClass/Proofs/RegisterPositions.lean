import ByteClass.FlagRegister
import ByteClass.Proofs.WrittenSets

/-!
# Registers as sets of positions

A register is read as the set of the positions that it holds.  Every step of a
register is then the step of the same name on sets, so whole runs agree: only
the complement and the truncating start leave unknown positions out, and so
does reading the register's own text, which fails for unknown positions alone.
-/

namespace ByteClass

open scoped symmDiff

/-- Sets of bit positions. -/
abbrev Positions := Finset (Fin 16)

namespace Positions

/-- The positions of the basic classes. -/
def known : Positions :=
  Finset.univ.filter (·.val < 10)

theorem mem_known {position : Fin 16} :
    position ∈ known ↔ position.val < 10 := by
  simp only [known, Finset.mem_filter, Finset.mem_univ, true_and]

/-- The set written as a number. -/
def weight (held : Positions) : Nat :=
  ∑ position ∈ held, 2 ^ position.val

/-- The positions of the ones of a word. -/
def ofWord (bits : BitVec 16) : Positions :=
  Finset.univ.filter fun position => bits.toNat.testBit position.val = true

end Positions

/-- What a step on sets of positions answers. -/
inductive PositionsAnswer
  | truth (value : Bool)
  | order (value : Ordering)
  | description (held : Positions)
  | failure (error : ExpressionError)
  deriving DecidableEq

namespace FlagSet

def positions (set : FlagSet) : Positions :=
  Finset.univ.filter fun position => set.holds position.val = true

end FlagSet

def RegisterAnswer.positions : RegisterAnswer → PositionsAnswer
  | .truth value => .truth value
  | .order value => .order value
  | .description set => .description set.positions
  | .failure error => .failure error

def RegisterOperand.positions :
    RegisterOperand → Except ExpressionError Positions
  | .word bits => .ok (.ofWord bits)
  | .expression text => (FlagSet.parse text).map FlagSet.positions

namespace Positions

def update : RegisterUpdate → Positions → Positions → Positions
  | .insert, held, operand => held ∪ operand
  | .remove, held, operand => held \ operand
  | .toggle, held, operand => symmDiff held operand
  | .intersect, held, operand => held ∩ operand

def answer : RegisterQuestion → Positions → Positions → PositionsAnswer
  | .contains, held, operand => .truth (operand ⊆ held)
  | .intersects, held, operand => .truth (¬ Disjoint held operand)
  | .equals, held, operand => .truth (held = operand)
  | .compares, held, operand => .order (compare held.weight operand.weight)

/-- Continue with the positions of an operand, or keep the set and report why
the operand has none. -/
def withOperand (held : Positions) (operand : RegisterOperand)
    (next : Positions → Positions × Option PositionsAnswer) :
    Positions × Option PositionsAnswer :=
  match operand.positions with
  | .ok value => next value
  | .error error => (held, some (.failure error))

/-- The steps of a register on sets of positions. -/
def step (held : Positions) :
    RegisterStep → Positions × Option PositionsAnswer
  | .fill => (known, none)
  | .clear => (∅, none)
  | .complement => (known \ held, none)
  | .update change operand =>
      withOperand held operand fun value => (update change held value, none)
  | .assign operand present =>
      withOperand held operand fun value =>
        (if present then held ∪ value else held \ value, none)
  | .ask question operand =>
      withOperand held operand fun value =>
        (held, some (answer question held value))
  | .describe => (held, some (.description held))
  | .reparse =>
      if held = ∅ ∨ ¬ Disjoint held known then
        (held ∩ known, none)
      else
        (held, some (.failure .emptyTerm))

/-- The set and the answer after each step. -/
def run (held : Positions) :
    List RegisterStep → List (Positions × Option PositionsAnswer)
  | [] => []
  | next :: steps =>
      let result := step held next
      result :: run result.1 steps

/-- The first set; a checked start refuses unknown positions. -/
def start : RegisterStart → BitVec 16 → Option Positions
  | .retain, bits => some (ofWord bits)
  | .truncate, bits => some (ofWord bits ∩ known)
  | .checked, bits =>
      if ofWord bits ⊆ known then some (ofWord bits) else none

end Positions

namespace FlagSet

@[simp]
theorem mem_positions {set : FlagSet} {position : Fin 16} :
    position ∈ set.positions ↔ set.holds position.val = true := by
  simp only [positions, Finset.mem_filter, Finset.mem_univ, true_and]

theorem positions_injective : Function.Injective positions := by
  intro first second equal
  apply ext_holds
  intro position inside
  have same := Finset.ext_iff.mp equal ⟨position, inside⟩
  rw [mem_positions, mem_positions] at same
  exact Bool.eq_iff_iff.mpr same

@[simp]
theorem positions_empty : (∅ : FlagSet).positions = ∅ := by
  ext position
  simp

@[simp]
theorem positions_union (first second : FlagSet) :
    (first ∪ second).positions = first.positions ∪ second.positions := by
  ext position
  simp

@[simp]
theorem positions_inter (first second : FlagSet) :
    (first ∩ second).positions = first.positions ∩ second.positions := by
  ext position
  simp

@[simp]
theorem positions_sdiff (first second : FlagSet) :
    (first \ second).positions = first.positions \ second.positions := by
  ext position
  simp

@[simp]
theorem positions_symmDiff (first second : FlagSet) :
    (first.symmDiff second).positions =
      first.positions ∆ second.positions := by
  ext position
  cases held : first.holds position.val <;> simp [Finset.mem_symmDiff, held]

@[simp]
theorem positions_known : known.positions = Positions.known := by
  ext position
  simp [Positions.mem_known]

@[simp]
theorem positions_complement (set : FlagSet) :
    set.complement.positions = Positions.known \ set.positions := by
  rw [complement, positions_sdiff, positions_known]

@[simp]
theorem positions_truncate (set : FlagSet) :
    set.truncate.positions = set.positions ∩ Positions.known := by
  rw [truncate, positions_inter, positions_known]

@[simp]
theorem positions_mk (bits : BitVec 16) :
    positions ⟨bits⟩ = Positions.ofWord bits := by
  ext position
  simp [Positions.ofWord, holds, BitVec.testBit_toNat]

theorem positions_eq_empty_iff {set : FlagSet} :
    set.positions = ∅ ↔ set = ∅ := by
  rw [← positions_empty]
  exact positions_injective.eq_iff

theorem contains_eq (set part : FlagSet) :
    set.contains part = decide (part.positions ⊆ set.positions) := by
  rw [Bool.eq_iff_iff, decide_eq_true_eq, contains, beq_iff_eq,
    ← positions_injective.eq_iff, positions_inter, Finset.inter_eq_right]

theorem intersects_eq (first second : FlagSet) :
    first.intersects second =
      decide (¬ Disjoint first.positions second.positions) := by
  rw [Bool.eq_iff_iff, decide_eq_true_eq, intersects, bne_iff_ne, Ne,
    ← positions_eq_empty_iff, positions_inter, Finset.disjoint_iff_inter_eq_empty]

theorem beq_eq (first second : FlagSet) :
    (first == second) = decide (first.positions = second.positions) := by
  rw [Bool.eq_iff_iff, decide_eq_true_eq, beq_iff_eq, positions_injective.eq_iff]

/-- The low bits of a number, each at its power of two. -/
theorem mod_two_pow_eq_sum (number width : Nat) :
    number % 2 ^ width =
      ∑ index ∈ Finset.range width,
        if number.testBit index then 2 ^ index else 0 := by
  induction width with
  | zero => simp [Nat.mod_one]
  | succ width ih =>
      rw [Finset.sum_range_succ, ← ih, Nat.mod_pow_succ,
        Nat.testBit_eq_decide_div_mod_eq]
      rcases Nat.mod_two_eq_zero_or_one (number / 2 ^ width) with even | odd
      · simp [even]
      · simp [odd]

theorem weight_positions (set : FlagSet) :
    set.positions.weight = set.bits.toNat := by
  have inside : set.bits.toNat % 2 ^ 16 = set.bits.toNat :=
    Nat.mod_eq_of_lt set.bits.isLt
  rw [← inside, mod_two_pow_eq_sum, Finset.sum_range, Positions.weight,
    positions, Finset.sum_filter]
  rfl

theorem compareBits_eq (first second : FlagSet) :
    first.compareBits second =
      compare first.positions.weight second.positions.weight := by
  rw [compareBits, weight_positions, weight_positions]

/-- A set has a basic class exactly if it has a known position. -/
theorem exists_mem_iff {set : FlagSet} :
    (∃ flag, flag ∈ set) ↔ ¬ Disjoint set.positions Positions.known := by
  rw [Finset.not_disjoint_iff]
  constructor
  · rintro ⟨flag, member⟩
    refine ⟨⟨flag.position, Nat.lt_trans flag.position_lt (by decide)⟩, ?_, ?_⟩
    · exact mem_positions.mpr member
    · exact Positions.mem_known.mpr flag.position_lt
  · rintro ⟨position, held, basic⟩
    obtain ⟨flag, same⟩ := Flag.exists_position_eq (Positions.mem_known.mp basic)
    refine ⟨flag, ?_⟩
    rw [mem_iff, same]
    exact mem_positions.mp held

theorem unknown_eq_empty_iff {set : FlagSet} :
    set.unknown = ∅ ↔ set.positions ⊆ Positions.known := by
  rw [← positions_eq_empty_iff, unknown, positions_sdiff, positions_known,
    Finset.sdiff_eq_empty_iff_subset]

end FlagSet

/-- A result of a register step, read as positions. -/
def viewResult (result : FlagSet × Option RegisterAnswer) :
    Positions × Option PositionsAnswer :=
  (result.1.positions, result.2.map RegisterAnswer.positions)

theorem RegisterOperand.positions_eq (operand : RegisterOperand) :
    operand.positions = operand.read.map FlagSet.positions := by
  cases operand with
  | word bits =>
      rw [positions, read, ← FlagSet.positions_mk]
      rfl
  | expression text => rfl

/-- Operands without a value leave both sides alone, so it is enough to compare
what happens to a value. -/
theorem viewResult_withOperand {register : FlagSet} {operand : RegisterOperand}
    {next : FlagSet → FlagSet × Option RegisterAnswer}
    {nextPositions : Positions → Positions × Option PositionsAnswer}
    (agree : ∀ value, viewResult (next value) = nextPositions value.positions) :
    viewResult (RegisterStep.withOperand register operand next) =
      Positions.withOperand register.positions operand nextPositions := by
  rw [RegisterStep.withOperand, Positions.withOperand,
    RegisterOperand.positions_eq]
  cases operand.read with
  | error error => rfl
  | ok value => exact agree value

theorem RegisterUpdate.positions_apply (change : RegisterUpdate)
    (register operand : FlagSet) :
    (change.apply register operand).positions =
      Positions.update change register.positions operand.positions := by
  cases change <;> simp [apply, Positions.update]

theorem RegisterQuestion.positions_answer (question : RegisterQuestion)
    (register operand : FlagSet) :
    (question.answer register operand).positions =
      Positions.answer question register.positions operand.positions := by
  cases question with
  | contains =>
      rw [answer, FlagSet.contains_eq]
      rfl
  | intersects =>
      rw [answer, FlagSet.intersects_eq]
      rfl
  | equals =>
      rw [answer, FlagSet.beq_eq]
      rfl
  | compares =>
      rw [answer, FlagSet.compareBits_eq]
      rfl

/-- The text of a register names its known positions, and has no term if it
holds unknown positions only. -/
theorem viewResult_reparse (register : FlagSet) :
    viewResult (RegisterStep.reparse.apply register) =
      Positions.step register.positions .reparse := by
  rw [RegisterStep.apply, RegisterStep.withOperand, RegisterOperand.read,
    Positions.step]
  by_cases empty : register = ∅
  · subst empty
    rw [FlagSet.parse_text_empty, if_pos (.inl FlagSet.positions_empty)]
    simp [viewResult]
  · by_cases named : ∃ flag, flag ∈ register
    · rw [if_pos (.inr (FlagSet.exists_mem_iff.mp named))]
      obtain ⟨flag, member⟩ := named
      rw [FlagSet.parse_text_of_mem member]
      simp [viewResult]
    · have refused : ¬ (register.positions = ∅ ∨
          ¬ Disjoint register.positions Positions.known) := by
        rintro (none | some)
        · exact empty (FlagSet.positions_eq_empty_iff.mp none)
        · exact named (FlagSet.exists_mem_iff.mpr some)
      rw [if_neg refused,
        FlagSet.parse_text_of_not_mem empty (not_exists.mp named)]
      rfl

theorem viewResult_apply (register : FlagSet) (step : RegisterStep) :
    viewResult (step.apply register) =
      Positions.step register.positions step := by
  cases step with
  | fill => simp [RegisterStep.apply, viewResult, Positions.step]
  | clear => simp [RegisterStep.apply, viewResult, Positions.step]
  | complement => simp [RegisterStep.apply, viewResult, Positions.step]
  | update change operand =>
      apply viewResult_withOperand
      intro value
      rw [viewResult, change.positions_apply]
      rfl
  | assign operand present =>
      apply viewResult_withOperand
      intro value
      cases present with
      | false => simp [viewResult]
      | true => simp [viewResult]
  | ask question operand =>
      apply viewResult_withOperand
      intro value
      rw [viewResult, ← question.positions_answer]
      rfl
  | describe => rfl
  | reparse => exact viewResult_reparse register

/-- By induction on the steps: the next set is the positions of the next
register, so the rest of the run starts from related states. -/
theorem map_viewResult_run (register : FlagSet) (steps : List RegisterStep) :
    (runRegister register steps).map viewResult =
      Positions.run register.positions steps := by
  induction steps generalizing register with
  | nil => rfl
  | cons step steps ih =>
      have same := viewResult_apply register step
      rw [runRegister, Positions.run, ← same, List.map_cons, ih]
      rfl

theorem map_positions_register? (start : RegisterStart) (bits : BitVec 16) :
    (start.register? bits).map FlagSet.positions =
      Positions.start start bits := by
  cases start with
  | retain => simp [RegisterStart.register?, Positions.start]
  | truncate => simp [RegisterStart.register?, Positions.start]
  | checked =>
      rw [RegisterStart.register?, FlagSet.ofBits?, Positions.start]
      by_cases low : Positions.ofWord bits ⊆ Positions.known
      · simp [low, FlagSet.unknown_eq_empty_iff]
      · simp [low, FlagSet.unknown_eq_empty_iff]

/-- Registers and sets of positions agree from every start, over every run. -/
theorem runRegister_refines_positions (start : RegisterStart)
    (bits : BitVec 16) (steps : List RegisterStep) :
    (start.register? bits).map FlagSet.positions =
        Positions.start start bits ∧
      (start.register? bits).map (fun register =>
          (runRegister register steps).map viewResult) =
        (Positions.start start bits).map (fun held =>
          Positions.run held steps) := by
  constructor
  · exact map_positions_register? start bits
  · rw [← map_positions_register?, Option.map_map]
    congr 1
    funext register
    exact map_viewResult_run register steps

end ByteClass
