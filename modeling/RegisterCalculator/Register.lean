import RegisterCalculator.Instruction

namespace RegisterCalculator

/-- A named value and the instructions that define it. `pending` holds those that are still to run
in the present pass. -/
structure Register (α : Type) where
  name : String
  definition : Array Instruction
  pending : List Instruction
  value : α

namespace Register

variable {α : Type}

def new [Accumulator α] (name : String) : Register α := ⟨name, #[], [], Accumulator.zero⟩

def append (r : Register α) (i : Instruction) : Register α :=
  { r with definition := r.definition.push i }

/-- Begins a pass: the whole definition is to run again, from the value reached so far. -/
def reset (r : Register α) : Register α := { r with pending := r.definition.toList }

def hasPending (r : Register α) : Bool := !r.pending.isEmpty

end Register

end RegisterCalculator
