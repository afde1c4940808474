import ByteClass.FlagRegister
import ByteClass.Proofs.DecoratedText

/-!
# Known and unknown positions of a register

Unknown positions have no influence on known ones.  Two registers that agree on
the known positions still do after the same steps with operands that agree
there, even if the text of one register can be read and that of the other
cannot.  Nor does a step ever bring an unknown position into a register, unless
it stands in a word that is an operand.
-/

namespace ByteClass

namespace FlagSet

/-- The same known positions are held. -/
def AgreeOnKnown (first second : FlagSet) : Prop :=
  ∀ position < 10, first.holds position = second.holds position

/-- Only known positions are held. -/
def IsKnown (set : FlagSet) : Prop :=
  ∀ position, set.holds position = true → position < 10

variable {first second third : FlagSet}

theorem AgreeOnKnown.refl (set : FlagSet) : AgreeOnKnown set set :=
  fun _ _ => rfl

theorem AgreeOnKnown.symm (agree : AgreeOnKnown first second) :
    AgreeOnKnown second first :=
  fun position known => (agree position known).symm

theorem AgreeOnKnown.trans (agree : AgreeOnKnown first second)
    (alsoAgree : AgreeOnKnown second third) : AgreeOnKnown first third :=
  fun position known => (agree position known).trans (alsoAgree position known)

theorem agreeOnKnown_truncate (set : FlagSet) :
    AgreeOnKnown set.truncate set := by
  intro position known
  simp [known]

end FlagSet

/-- Words that agree on the known positions, or one and the same expression. -/
inductive RegisterOperand.Agree : RegisterOperand → RegisterOperand → Prop
  | word {first second : BitVec 16}
      (agree : FlagSet.AgreeOnKnown ⟨first⟩ ⟨second⟩) :
      Agree (.word first) (.word second)
  | expression (text : String) : Agree (.expression text) (.expression text)

/-- The same step, with operands that agree if it has any. -/
inductive RegisterStep.Agree : RegisterStep → RegisterStep → Prop
  | fill : Agree .fill .fill
  | clear : Agree .clear .clear
  | complement : Agree .complement .complement
  | update (change : RegisterUpdate) {first second : RegisterOperand}
      (operands : first.Agree second) :
      Agree (.update change first) (.update change second)
  | assign {first second : RegisterOperand} (operands : first.Agree second)
      (present : Bool) : Agree (.assign first present) (.assign second present)
  | ask (question : RegisterQuestion) {first second : RegisterOperand}
      (operands : first.Agree second) :
      Agree (.ask question first) (.ask question second)
  | describe : Agree .describe .describe
  | reparse : Agree .reparse .reparse

/-- The register at the start and after each step. -/
def registerTrace (register : FlagSet) (steps : List RegisterStep) :
    List FlagSet :=
  register :: (runRegister register steps).map Prod.fst

@[simp]
theorem registerTrace_cons (register : FlagSet) (step : RegisterStep)
    (steps : List RegisterStep) :
    registerTrace register (step :: steps) =
      register :: registerTrace (step.apply register).1 steps :=
  rfl

open FlagSet

/-- Operands that agree both fail, or have values that agree. -/
theorem RegisterOperand.Agree.read {operand other : RegisterOperand}
    (operands : operand.Agree other) :
    (∃ error, operand.read = .error error ∧ other.read = .error error) ∨
      ∃ value otherValue, operand.read = .ok value ∧
        other.read = .ok otherValue ∧ AgreeOnKnown value otherValue := by
  cases operands with
  | word agree => exact .inr ⟨_, _, rfl, rfl, agree⟩
  | expression text =>
      cases value : (RegisterOperand.expression text).read with
      | error error => exact .inl ⟨error, rfl, rfl⟩
      | ok set => exact .inr ⟨set, set, rfl, rfl, .refl set⟩

section TwoRegisters

variable {register other : FlagSet}

theorem agreeOnKnown_withOperand (agree : AgreeOnKnown register other)
    {operand otherOperand : RegisterOperand}
    (operands : operand.Agree otherOperand)
    {next otherNext : FlagSet → FlagSet × Option RegisterAnswer}
    (nextAgree : ∀ value otherValue, AgreeOnKnown value otherValue →
      AgreeOnKnown (next value).1 (otherNext otherValue).1) :
    AgreeOnKnown (RegisterStep.withOperand register operand next).1
      (RegisterStep.withOperand other otherOperand otherNext).1 := by
  rw [RegisterStep.withOperand, RegisterStep.withOperand]
  rcases operands.read with
    ⟨error, read, otherRead⟩ | ⟨value, otherValue, read, otherRead, values⟩
  · rw [read, otherRead]
    exact agree
  · rw [read, otherRead]
    exact nextAgree value otherValue values

theorem RegisterUpdate.agreeOnKnown_apply (change : RegisterUpdate)
    (agree : AgreeOnKnown register other) {value otherValue : FlagSet}
    (values : AgreeOnKnown value otherValue) :
    AgreeOnKnown (change.apply register value) (change.apply other otherValue) := by
  intro position known
  cases change <;> simp [apply, agree position known, values position known]

/-- Whether the text of a register can be read or not, its known positions stay
as they are. -/
theorem agreeOnKnown_reparse (register : FlagSet) :
    AgreeOnKnown (RegisterStep.reparse.apply register).1 register := by
  rw [RegisterStep.apply, RegisterStep.withOperand, RegisterOperand.read]
  by_cases expressible : register = ∅ ∨ ∃ flag, flag ∈ register
  · rw [parse_text_of_eq_empty_or_mem expressible]
    exact agreeOnKnown_truncate register
  · rw [not_or, not_exists] at expressible
    rw [parse_text_of_not_mem expressible.1 expressible.2]
    exact .refl register

theorem RegisterStep.Agree.apply (agree : AgreeOnKnown register other)
    {step otherStep : RegisterStep} (steps : step.Agree otherStep) :
    AgreeOnKnown (step.apply register).1 (otherStep.apply other).1 := by
  cases steps with
  | fill => exact .refl known
  | clear => exact .refl ∅
  | complement =>
      intro position inside
      simp [RegisterStep.apply, agree position inside]
  | update change operands =>
      apply agreeOnKnown_withOperand agree operands
      intro value otherValue values
      exact change.agreeOnKnown_apply agree values
  | assign operands present =>
      apply agreeOnKnown_withOperand agree operands
      intro value otherValue values
      cases present with
      | false => exact RegisterUpdate.remove.agreeOnKnown_apply agree values
      | true => exact RegisterUpdate.insert.agreeOnKnown_apply agree values
  | ask question operands =>
      apply agreeOnKnown_withOperand agree operands
      exact fun _ _ _ => agree
  | describe => exact agree
  | reparse =>
      have front := agreeOnKnown_reparse register
      have back := agreeOnKnown_reparse other
      exact (front.trans agree).trans back.symm

end TwoRegisters

/-- By induction on the steps: the registers in front of the next steps agree
again. -/
theorem forall₂_registerTrace {register other : FlagSet}
    (agree : AgreeOnKnown register other) {steps otherSteps : List RegisterStep}
    (same : List.Forall₂ RegisterStep.Agree steps otherSteps) :
    List.Forall₂ AgreeOnKnown (registerTrace register steps)
      (registerTrace other otherSteps) := by
  induction same generalizing register other with
  | nil => exact .cons agree .nil
  | cons step _ ih => exact .cons agree (ih (step.apply agree))

/-- The first registers of two runs, neither of which is checked. -/
theorem exists_register? {start : RegisterStart} (unchecked : start ≠ .checked)
    (bits : BitVec 16) :
    ∃ register, start.register? bits = some register ∧
      AgreeOnKnown register ⟨bits⟩ := by
  cases start with
  | retain => exact ⟨_, rfl, .refl _⟩
  | truncate => exact ⟨_, rfl, agreeOnKnown_truncate _⟩
  | checked => exact absurd rfl unchecked

/-- The operand of a step, if it has one. -/
def RegisterStep.operand? : RegisterStep → Option RegisterOperand
  | .update _ operand => some operand
  | .assign operand _ => some operand
  | .ask _ operand => some operand
  | _ => none

/-- No operand of the step is a word with an unknown position. -/
def RegisterStep.WordKnown (step : RegisterStep) : Prop :=
  ∀ bits, step.operand? = some (.word bits) → IsKnown ⟨bits⟩

namespace FlagSet

theorem isKnown_empty : IsKnown ∅ := by
  intro position held
  simp at held

theorem isKnown_known : IsKnown known := by
  intro position held
  simpa using held

theorem isKnown_complement (set : FlagSet) : IsKnown set.complement := by
  intro position held
  rw [holds_complement, Bool.and_eq_true] at held
  exact of_decide_eq_true held.1

end FlagSet

theorem RegisterUpdate.isKnown_apply (change : RegisterUpdate)
    {register value : FlagSet} (registerKnown : register.IsKnown)
    (valueKnown : value.IsKnown) : (change.apply register value).IsKnown := by
  intro position held
  cases change with
  | insert =>
      rw [apply, holds_union, Bool.or_eq_true] at held
      exact held.elim (registerKnown position) (valueKnown position)
  | remove =>
      rw [apply, holds_sdiff, Bool.and_eq_true] at held
      exact registerKnown position held.1
  | toggle =>
      rw [apply, holds_symmDiff, bne_iff_ne] at held
      cases first : register.holds position with
      | true => exact registerKnown position first
      | false => exact valueKnown position (by simpa [first] using held)
  | intersect =>
      rw [apply, holds_inter, Bool.and_eq_true] at held
      exact registerKnown position held.1

section OneRegister

variable {register : FlagSet}

/-- The value of an operand holds known positions only, be it a word without
unknown ones or an expression. -/
theorem isKnown_of_read_eq_ok {operand : RegisterOperand} {value : FlagSet}
    (words : ∀ bits, operand = .word bits → IsKnown ⟨bits⟩)
    (read : operand.read = .ok value) : value.IsKnown := by
  cases operand with
  | word bits =>
      obtain rfl := Except.ok.inj read
      exact words bits rfl
  | expression text => exact fun _ => position_lt_of_parse_eq_ok read

theorem isKnown_withOperand (registerKnown : register.IsKnown)
    {operand : RegisterOperand}
    (words : ∀ bits, operand = .word bits → IsKnown ⟨bits⟩)
    {next : FlagSet → FlagSet × Option RegisterAnswer}
    (nextKnown : ∀ value : FlagSet, value.IsKnown → (next value).1.IsKnown) :
    (RegisterStep.withOperand register operand next).1.IsKnown := by
  rw [RegisterStep.withOperand]
  cases read : operand.read with
  | error error => exact registerKnown
  | ok value => exact nextKnown value (isKnown_of_read_eq_ok words read)

theorem RegisterStep.isKnown_apply (registerKnown : register.IsKnown)
    {step : RegisterStep} (words : step.WordKnown) :
    (step.apply register).1.IsKnown := by
  cases step with
  | fill => exact isKnown_known
  | clear => exact isKnown_empty
  | complement => exact isKnown_complement register
  | update change operand =>
      apply isKnown_withOperand registerKnown
      · exact fun bits word => words bits (congrArg some word)
      · exact fun value => change.isKnown_apply registerKnown
  | assign operand present =>
      apply isKnown_withOperand registerKnown
      · exact fun bits word => words bits (congrArg some word)
      · intro value valueKnown
        cases present with
        | false => exact RegisterUpdate.remove.isKnown_apply registerKnown valueKnown
        | true => exact RegisterUpdate.insert.isKnown_apply registerKnown valueKnown
  | ask question operand =>
      apply isKnown_withOperand registerKnown
      · exact fun bits word => words bits (congrArg some word)
      · exact fun _ _ => registerKnown
  | describe => exact registerKnown
  | reparse =>
      apply isKnown_withOperand registerKnown
      · rintro bits ⟨⟩
      · exact fun value valueKnown => valueKnown

theorem isKnown_of_mem_registerTrace (registerKnown : register.IsKnown)
    {steps : List RegisterStep} (words : ∀ step ∈ steps, step.WordKnown) :
    ∀ later ∈ registerTrace register steps, later.IsKnown := by
  induction steps generalizing register with
  | nil => simpa [registerTrace, runRegister] using registerKnown
  | cons step steps ih =>
      obtain ⟨here, behind⟩ := List.forall_mem_cons.mp words
      rw [registerTrace_cons, List.forall_mem_cons]
      exact ⟨registerKnown, ih (RegisterStep.isKnown_apply registerKnown here) behind⟩

end OneRegister

/-- The rest of a run is the run of the remaining steps. -/
theorem drop_registerTrace {register reached : FlagSet}
    {steps : List RegisterStep} {index : Nat}
    (there : (registerTrace register steps)[index]? = some reached) :
    (registerTrace register steps).drop index =
      registerTrace reached (steps.drop index) := by
  induction index generalizing register steps with
  | zero =>
      obtain rfl := Option.some.inj there
      rfl
  | succ index ih =>
      cases steps with
      | nil => simp [registerTrace, runRegister] at there
      | cons step steps => exact ih there

/-- Two runs of the same steps that start from words with the same known
positions, and whose operands agree there, hold the same known positions after
every step.  Once a register has no unknown position it never again has one, as
long as no word that is an operand has one. -/
theorem known_positions_independent :
    (∀ (start otherStart : RegisterStart) (bits otherBits : BitVec 16)
      (steps otherSteps : List RegisterStep),
      start ≠ .checked → otherStart ≠ .checked →
      AgreeOnKnown ⟨bits⟩ ⟨otherBits⟩ →
      List.Forall₂ RegisterStep.Agree steps otherSteps →
      ∃ register other, start.register? bits = some register ∧
        otherStart.register? otherBits = some other ∧
        List.Forall₂ AgreeOnKnown (registerTrace register steps)
          (registerTrace other otherSteps)) ∧
    ∀ (register reached : FlagSet) (steps : List RegisterStep) (index : Nat),
      (registerTrace register steps)[index]? = some reached →
      reached.IsKnown →
      (∀ step ∈ steps.drop index, step.WordKnown) →
      ∀ later ∈ (registerTrace register steps).drop index, later.IsKnown := by
  constructor
  · intro start otherStart bits otherBits steps otherSteps unchecked
      otherUnchecked agree same
    obtain ⟨register, begins, kept⟩ := exists_register? unchecked bits
    obtain ⟨other, otherBegins, otherKept⟩ :=
      exists_register? otherUnchecked otherBits
    refine ⟨register, other, begins, otherBegins, ?_⟩
    exact forall₂_registerTrace ((kept.trans agree).trans otherKept.symm) same
  · intro register reached steps index there reachedKnown words
    rw [drop_registerTrace there]
    exact isKnown_of_mem_registerTrace reachedKnown words

/-- The text of the first register cannot be read and that of the second can;
later the first run leaves its unknown position behind for good. -/
theorem known_positions_independent_of_failed_reparse :
    (RegisterStep.reparse.apply ⟨0x8000⟩).2 = some (.failure .emptyTerm) ∧
      (RegisterStep.reparse.apply ∅).2 = none ∧
      List.Forall₂ AgreeOnKnown
        (registerTrace ⟨0x8000⟩
          [.reparse, .update .toggle (.word 0x4003), .complement, .reparse])
        (registerTrace ∅
          [.reparse, .update .toggle (.word 0x0003), .complement, .reparse]) ∧
      ∀ later ∈ (registerTrace ⟨0x8000⟩
          [.reparse, .update .toggle (.word 0x4003), .complement,
            .reparse]).drop 3, later.IsKnown := by
  obtain ⟨twoRuns, oneRun⟩ := known_positions_independent
  have same : AgreeOnKnown ⟨0x4003⟩ ⟨0x0003⟩ := by
    rw [AgreeOnKnown]
    decide
  obtain ⟨register, other, begins, otherBegins, agree⟩ :=
    twoRuns .retain .truncate 0x8000 0x8000
      [.reparse, .update .toggle (.word 0x4003), .complement, .reparse]
      [.reparse, .update .toggle (.word 0x0003), .complement, .reparse]
      (by decide) (by decide) (.refl _)
      (.cons .reparse (.cons (.update .toggle (.word same))
        (.cons .complement (.cons .reparse .nil))))
  obtain rfl := Option.some.inj begins
  have empty : other = ∅ := by
    rw [← Option.some_inj, ← otherBegins]
    decide
  subst empty
  refine ⟨by decide +kernel, by decide +kernel, agree, ?_⟩
  refine oneRun ⟨0x8000⟩ ⟨0x3fc⟩ _ 3 (by decide +kernel) ?_ ?_
  · intro position held
    exact isKnown_complement ⟨3⟩ position held
  · rintro step among bits word
    simp at among
    subst among
    cases word

end ByteClass
