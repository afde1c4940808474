import ByteClass.FlagExpression

/-!
# A register of classes

A register holds one set of classes and is changed or questioned step by step.
Operands are words, kept as they are, or expressions; an expression that
denotes no set leaves the register alone and its error is the answer.
-/

namespace ByteClass

inductive RegisterOperand
  | word (bits : BitVec 16)
  | expression (text : String)
  deriving DecidableEq

def RegisterOperand.read : RegisterOperand → Except ExpressionError FlagSet
  | .word bits => .ok ⟨bits⟩
  | .expression text => FlagSet.parse text

/-- How two sets are joined into the next register. -/
inductive RegisterUpdate
  | insert
  | remove
  | toggle
  | intersect
  deriving DecidableEq

def RegisterUpdate.apply : RegisterUpdate → FlagSet → FlagSet → FlagSet
  | .insert, register, operand => register ∪ operand
  | .remove, register, operand => register \ operand
  | .toggle, register, operand => register.symmDiff operand
  | .intersect, register, operand => register ∩ operand

inductive RegisterAnswer
  | truth (value : Bool)
  | order (value : Ordering)
  | description (set : FlagSet)
  | failure (error : ExpressionError)
  deriving DecidableEq

/-- What is asked about a register and an operand. -/
inductive RegisterQuestion
  | contains
  | intersects
  | equals
  | compares
  deriving DecidableEq

def RegisterQuestion.answer :
    RegisterQuestion → FlagSet → FlagSet → RegisterAnswer
  | .contains, register, operand => .truth (register.contains operand)
  | .intersects, register, operand => .truth (register.intersects operand)
  | .equals, register, operand => .truth (register == operand)
  | .compares, register, operand => .order (register.compareBits operand)

inductive RegisterStep
  | fill
  | clear
  | complement
  | update (change : RegisterUpdate) (operand : RegisterOperand)
  | assign (operand : RegisterOperand) (present : Bool)
  | ask (question : RegisterQuestion) (operand : RegisterOperand)
  | describe
  | reparse
  deriving DecidableEq

namespace RegisterStep

/-- Continue with an operand, or keep the register and report why it has no
value. -/
def withOperand (register : FlagSet) (operand : RegisterOperand)
    (next : FlagSet → FlagSet × Option RegisterAnswer) :
    FlagSet × Option RegisterAnswer :=
  match operand.read with
  | .ok value => next value
  | .error error => (register, some (.failure error))

/-- The next register and the answer, if the step has one. -/
def apply (register : FlagSet) : RegisterStep → FlagSet × Option RegisterAnswer
  | .fill => (.known, none)
  | .clear => (∅, none)
  | .complement => (register.complement, none)
  | .update change operand =>
      withOperand register operand fun value =>
        (change.apply register value, none)
  | .assign operand present =>
      withOperand register operand fun value =>
        (if present then register ∪ value else register \ value, none)
  | .ask question operand =>
      withOperand register operand fun value =>
        (register, some (question.answer register value))
  | .describe => (register, some (.description register))
  | .reparse =>
      withOperand register (.expression register.text) fun value =>
        (value, none)

end RegisterStep

/-- The register and the answer after each step. -/
def runRegister (register : FlagSet) :
    List RegisterStep → List (FlagSet × Option RegisterAnswer)
  | [] => []
  | step :: steps =>
      let result := step.apply register
      result :: runRegister result.1 steps

/-- What becomes of unknown positions in the word that a register starts from. -/
inductive RegisterStart
  | retain
  | truncate
  | checked
  deriving DecidableEq

/-- The first register; a checked start refuses unknown positions. -/
def RegisterStart.register? (start : RegisterStart) (bits : BitVec 16) :
    Option FlagSet :=
  match start with
  | .retain => some ⟨bits⟩
  | .truncate => some (FlagSet.truncate ⟨bits⟩)
  | .checked => FlagSet.ofBits? bits

end ByteClass
