namespace RegisterCalculator

/-- What can go wrong once a line has been understood. -/
inductive Fault where
  | registerNotFound (name : String)
  | invalidOperation (word : String)
  | invalidOperand (word reason : String)
  deriving DecidableEq

def Fault.message : Fault → String
  | registerNotFound name => "The register `" ++ name ++ "` could not be found"
  | invalidOperation word => "Invalid operation `" ++ word ++ "`"
  | invalidOperand word reason => "Invalid operand `" ++ word ++ "`: " ++ reason

/-- A fault met while a register was evaluated. Evaluation goes on without the instruction. -/
structure Diagnostic where
  register : String
  fault : Fault
  deriving DecidableEq

end RegisterCalculator
