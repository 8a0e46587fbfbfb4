import RegisterCalculator.Fault
import RegisterCalculator.Operation
import RegisterCalculator.Text.Decimal

namespace RegisterCalculator

inductive LiteralError where
  | tooLarge
  deriving DecidableEq

def LiteralError.message : LiteralError → String
  | tooLarge => "number too large to fit in target type"

/-- The right-hand side of an instruction. A register is named, not resolved: it may be defined
later or never. -/
inductive Operand where
  | literal (value : Int64)
  | register (name : String)
  deriving DecidableEq

namespace Operand

/-- The largest number that a literal may write: a 64-bit word spends one bit on the sign. -/
def maxLiteral : Nat := 0x7FFFFFFFFFFFFFFF

def ofWord (word : String) : Except LiteralError Operand :=
  if Text.Decimal.isNumeral word.toList then
    let value := Text.Decimal.value word.toList
    if value ≤ maxLiteral then .ok (literal (Int64.ofNat value)) else .error .tooLarge
  else .ok (register word)

def text : Operand → String
  | literal value => Text.Decimal.ofInt value.toInt
  | register name => name

end Operand

structure Instruction where
  operation : Operation
  operand : Operand
  deriving DecidableEq

namespace Instruction

def text (i : Instruction) : String := i.operation.keyword ++ " " ++ i.operand.text

def ofWords (operation operand : String) : Except Fault Instruction :=
  match Operation.ofKeyword? operation with
  | none => .error (.invalidOperation operation)
  | some op =>
    match Operand.ofWord operand with
    | .error reason => .error (.invalidOperand operand reason.message)
    | .ok x => .ok ⟨op, x⟩

end Instruction

end RegisterCalculator
