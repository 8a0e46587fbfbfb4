import RegisterCalculator.Command.Basic
import RegisterCalculator.Command.Rejection
import RegisterCalculator.Text.Lowercase

namespace RegisterCalculator.Command

open Text (Span Word)

def extent (first : Word) (rest : List Word) : Span :=
  ⟨first.span.start, (rest.getLastD first).span.stop⟩

/-- Three words define an instruction. The operation is judged before the operand. -/
def ofDefinition (register operation operand : Word) : Except Malformed Command :=
  match Operation.ofKeyword? operation.text with
  | none => .error (.unknownOperation operation)
  | some op =>
    match Operand.ofWord operand.text with
    | .error reason => .error (.invalidLiteral operand reason)
    | .ok x => .ok (define register.text ⟨op, x⟩)

/-- The number of words and the first of them decide what a line is, so keywords may name
registers wherever the shape leaves no doubt. -/
def ofWords : List Word → Except Malformed Command
  | [] => .ok blank
  | [word] => if word.text = "quit" then .ok quit else .error (.unrecognized (extent word []))
  | [word, register] =>
    if word.text = "print" then .ok (print register.text)
    else .error (.unrecognized (extent word [register]))
  | [register, operation, operand] => ofDefinition register operation operand
  | word :: rest => .error (.unrecognized (extent word rest))

def parse (line : String) : Except Malformed Command :=
  ofWords (Word.split (Text.normalize line))

end RegisterCalculator.Command
