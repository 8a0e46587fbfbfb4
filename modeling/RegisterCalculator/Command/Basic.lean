import RegisterCalculator.Instruction

namespace RegisterCalculator

/-- What a line asks for. -/
inductive Command where
  | define (register : String) (instruction : Instruction)
  | print (register : String)
  | quit
  | blank
  deriving DecidableEq

/-- The plainest line that asks for a command. -/
def Command.render : Command → String
  | define register instruction => register ++ " " ++ instruction.text
  | print register => "print " ++ register
  | quit => "quit"
  | blank => ""

end RegisterCalculator
